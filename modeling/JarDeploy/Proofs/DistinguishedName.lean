import JarDeploy.Settings

/-!
# Reading back a distinguished name

A distinguished name for a generated key is written as `CN=…, OU=…, O=…, L=…, ST=…, C=…`
over the parts that are set, in that order, with every comma inside a part written after a
backslash (`Dname.render`). A reader of such a text cuts it at each `, ` that no backslash
escapes, a backslash taking the character after it along, and reads each piece as a tag, an
`=` and a value in which every backslash stands for the character after it (`Dname.read`).

Only commas are escaped, not the backslash itself. So the text reads back as the parts it
was written from when no value it writes holds a backslash (`read_render`), while a value
ending in a backslash swallows the separator after it, and two different names can then be
written as one text. Whatever the values, the text is empty exactly when no part is set, and
a keystore request carries the written name of the configured parts.
-/

namespace JarDeploy

set_option autoImplicit false

namespace Dname

/-! ## Writing -/

/-- How a character of a value is written: a comma after a backslash, any other as it is. -/
def escapeChar (c : Char) : List Char := if c = ',' then ['\\', ','] else [c]

/-- The parts that are set, with their tags, in order. -/
def fields (d : Dname) : List (String × String) :=
  d.tagged.filterMap fun (tag, v) => v.map (tag, ·)

/-- How a set part is written: its tag, `=`, and its value with commas escaped. -/
def partText (f : String × String) : String := f.1 ++ "=" ++ escapePart f.2

theorem toList_escapePart (v : String) : (escapePart v).toList = v.toList.flatMap escapeChar := by
  -- the fold keeps what it has written in front of what the next characters add
  have key : ∀ (cs : List Char) (acc : String),
      (cs.foldl (fun acc ch => if ch = ',' then acc ++ "\\," else acc.push ch) acc).toList =
        acc.toList ++ cs.flatMap escapeChar := by
    intro cs
    induction cs with
    | nil => simp
    | cons c cs ih =>
      intro acc
      rw [List.foldl_cons, ih]
      by_cases hc : c = ',' <;> simp [hc, escapeChar]
  simp [escapePart, key]

theorem render_eq (d : Dname) : d.render = ", ".intercalate (d.fields.map partText) := by
  simp only [render, fields, tagged, List.filterMap_cons, List.filterMap_nil]
  cases d.cn <;> cases d.ou <;> cases d.o <;> cases d.l <;> cases d.st <;> cases d.c <;> rfl

/-! ## Reading -/

/-- Put characters in front of the first piece of a cut text. -/
def consHead (pre : List Char) : List (List Char) → List (List Char)
  | [] => [pre]
  | p :: ps => (pre ++ p) :: ps

/-- Cut a text at each `, ` that no backslash escapes; a backslash keeps the character after
it in its piece. -/
def splitParts : List Char → List (List Char)
  | [] => [[]]
  | '\\' :: c :: rest => consHead ['\\', c] (splitParts rest)
  | ',' :: ' ' :: rest => [] :: splitParts rest
  | c :: rest => consHead [c] (splitParts rest)

/-- Every backslash stands for the character after it. -/
def unescape : List Char → List Char
  | [] => []
  | '\\' :: c :: rest => c :: unescape rest
  | c :: rest => c :: unescape rest

/-- A piece read as its tag, up to the first `=`, and its value after it, unescaped. -/
def readPart (piece : List Char) : String × String :=
  (String.ofList (piece.takeWhile (· != '=')), String.ofList (unescape (piece.dropWhile (· != '=')).tail))

/-- The parts a text names, in order; the empty text names none. -/
def read (s : String) : List (String × String) :=
  if s.isEmpty then [] else (splitParts s.toList).map readPart

theorem consHead_append (a b : List Char) (ps : List (List Char)) :
    consHead (a ++ b) ps = consHead a (consHead b ps) := by
  cases ps <;> simp [consHead]

theorem consHead_ne_nil (pre : List Char) (ps : List (List Char)) : consHead pre ps ≠ [] := by
  cases ps <;> simp [consHead]

theorem splitParts_ne_nil (cs : List Char) : splitParts cs ≠ [] := by
  fun_cases splitParts cs <;> simp [consHead_ne_nil]

/-- A character that is neither a backslash nor a comma joins the first piece. -/
theorem splitParts_plain {c : Char} (h1 : c ≠ '\\') (h2 : c ≠ ',') (cs : List Char) :
    splitParts (c :: cs) = consHead [c] (splitParts cs) := by
  simp [splitParts, h1, h2]

theorem unescape_plain {c : Char} (h : c ≠ '\\') (cs : List Char) : unescape (c :: cs) = c :: unescape cs := by
  simp [unescape, h]

/-! ## Written values read back -/

section

variable {w : List Char} (hw : '\\' ∉ w)
include hw

/-- A value written without backslashes of its own stays in one piece, whatever follows. -/
theorem splitParts_escaped (rest : List Char) :
    splitParts (w.flatMap escapeChar ++ rest) = consHead (w.flatMap escapeChar) (splitParts rest) := by
  induction w with
  | nil =>
    obtain ⟨p, ps, hp⟩ := List.exists_cons_of_ne_nil (splitParts_ne_nil rest)
    simp [hp, consHead]
  | cons c w ih =>
    have hc : c ≠ '\\' := fun h => hw (h ▸ List.mem_cons_self)
    rw [List.flatMap_cons, List.append_assoc, consHead_append,
      ← ih fun h => hw (List.mem_cons_of_mem c h)]
    by_cases hcomma : c = ','
    · subst hcomma
      simp [escapeChar, splitParts]
    · simp [escapeChar, hcomma, splitParts_plain hc hcomma]

/-- Unescaping a value written without backslashes of its own gives it back. -/
theorem unescape_escaped : unescape (w.flatMap escapeChar) = w := by
  induction w with
  | nil => rfl
  | cons c w ih =>
    have hc : c ≠ '\\' := fun h => hw (h ▸ List.mem_cons_self)
    by_cases hcomma : c = ','
    · subst hcomma
      simp [escapeChar, unescape, ih fun h => hw (List.mem_cons_of_mem _ h)]
    · simp [escapeChar, hcomma, unescape_plain hc, ih fun h => hw (List.mem_cons_of_mem _ h)]

end

/-! ## Written names read back -/

theorem flatMap_escapeChar_of_no_comma {w : List Char} (h : ',' ∉ w) : w.flatMap escapeChar = w := by
  induction w with
  | nil => rfl
  | cons c w ih =>
    have hc : c ≠ ',' := fun hc => h (hc ▸ List.mem_cons_self)
    simp [escapeChar, hc, ih fun hw => h (List.mem_cons_of_mem c hw)]

/-- The tags hold no comma, no `=` and no backslash. -/
theorem tag_plain {d : Dname} {f : String × String} (hf : f ∈ d.fields) :
    ',' ∉ f.1.toList ∧ '=' ∉ f.1.toList ∧ '\\' ∉ f.1.toList := by
  have htag : f.1 ∈ d.tagged.map Prod.fst := by
    obtain ⟨⟨tag, v⟩, hmem, hv⟩ := List.mem_filterMap.1 hf
    cases v with
    | none => cases hv
    | some v =>
      cases hv
      exact List.mem_map_of_mem hmem
  have hplain : ∀ t ∈ d.tagged.map Prod.fst, ',' ∉ t.toList ∧ '=' ∉ t.toList ∧ '\\' ∉ t.toList := by
    simp only [tagged, List.map_cons, List.map_nil]
    decide
  exact hplain _ htag

theorem toList_partText (f : String × String) :
    (partText f).toList = f.1.toList ++ '=' :: f.2.toList.flatMap escapeChar := by
  simp [partText, toList_escapePart]

/-- A part with a tag free of commas is the escaped text of its tag, `=` and value. -/
theorem toList_partText_of_plain {f : String × String} (h : ',' ∉ f.1.toList) :
    (partText f).toList = (f.1.toList ++ '=' :: f.2.toList).flatMap escapeChar := by
  rw [toList_partText, List.flatMap_append, flatMap_escapeChar_of_no_comma h]
  simp [escapeChar]

theorem readPart_partText {f : String × String} (htag : '=' ∉ f.1.toList) (hv : '\\' ∉ f.2.toList) :
    readPart (partText f).toList = f := by
  have hne : ∀ a ∈ f.1.toList, (a != '=') = true := fun a ha => by
    have ha' : a ≠ '=' := fun h => htag (h ▸ ha)
    simpa using ha'
  simp [readPart, toList_partText, List.takeWhile_append_of_pos hne, List.dropWhile_append_of_pos hne,
    unescape_escaped hv]

/-- Values written without backslashes of their own, joined by `, `, are cut back apart. -/
theorem splitParts_intercalate {ws : List (List Char)} (hws : ∀ w ∈ ws, '\\' ∉ w) (hne : ws ≠ []) :
    splitParts ([',', ' '].intercalate (ws.map (·.flatMap escapeChar))) = ws.map (·.flatMap escapeChar) := by
  induction ws with
  | nil => contradiction
  | cons w ws ih =>
    have hw := hws w List.mem_cons_self
    cases ws with
    | nil => simpa [consHead, splitParts] using splitParts_escaped hw []
    | cons v vs =>
      have hrest := ih (fun u hu => hws u (List.mem_cons_of_mem w hu)) (List.cons_ne_nil v vs)
      simp only [List.map_cons] at hrest ⊢
      rw [List.intercalate_cons_cons, List.append_assoc, splitParts_escaped hw]
      simp [splitParts, consHead, hrest]

theorem intercalate_ne_nil_of_head {sep w : List Char} (ws : List (List Char)) (hw : w ≠ []) :
    sep.intercalate (w :: ws) ≠ [] := by
  cases ws <;> simp [List.intercalate_cons_cons, hw]

/-- The written name is empty exactly when no part is set. -/
theorem render_eq_empty_iff (d : Dname) : d.render = "" ↔ d.fields = [] := by
  rw [← String.toList_eq_nil_iff, render_eq, String.toList_intercalate]
  cases d.fields with
  | nil => simp
  | cons f fs =>
    simp only [List.map_cons, reduceCtorEq, iff_false]
    exact intercalate_ne_nil_of_head _ (by simp [toList_partText])

theorem fields_eq_nil_iff (d : Dname) :
    d.fields = [] ↔ d.cn = none ∧ d.ou = none ∧ d.o = none ∧ d.l = none ∧ d.st = none ∧ d.c = none := by
  simp [fields, tagged]

/-- A name none of whose values holds a backslash reads back as its parts. -/
theorem read_render (d : Dname) (hd : ∀ f ∈ d.fields, '\\' ∉ f.2.toList) : read d.render = d.fields := by
  by_cases hnil : d.fields = []
  · simp [read, hnil, (render_eq_empty_iff d).2 hnil]
  · have hne : d.render.isEmpty = false := by
      simpa [String.isEmpty_iff, render_eq_empty_iff] using hnil
    -- each part is the escaped text of its tag, `=` and value, and none of these holds a backslash
    let ws := d.fields.map fun f => f.1.toList ++ '=' :: f.2.toList
    have hws : ∀ w ∈ ws, '\\' ∉ w := by
      simp only [ws, List.mem_map]
      rintro _ ⟨f, hf, rfl⟩
      simp [(tag_plain hf).2.2, hd f hf]
    have hpieces : d.fields.map (fun f => (partText f).toList) = ws.map (·.flatMap escapeChar) := by
      simp only [ws, List.map_map]
      exact List.map_congr_left fun f hf => toList_partText_of_plain (tag_plain hf).1
    have hsplit : splitParts d.render.toList = d.fields.map fun f => (partText f).toList := by
      rw [render_eq, String.toList_intercalate, List.map_map, Function.comp_def, hpieces]
      exact splitParts_intercalate hws (by simpa [ws] using hnil)
    rw [read, hne, if_neg Bool.false_ne_true, hsplit, List.map_map]
    exact (List.map_congr_left fun f hf => readPart_partText (tag_plain hf).2.1 (hd f hf)).trans
      (List.map_id _)

/-- The written name of a configuration whose values hold no backslash reads back as the parts
that are set, in order; whatever the values, it is empty exactly when no part is set; and a
keystore request, made exactly when generation is asked for, carries it. -/
theorem read_render_of_no_backslash (d : Dname) (hd : ∀ f ∈ d.fields, '\\' ∉ f.2.toList) :
    read d.render = d.fields ∧
    (d.isEmpty = true ↔ d.cn = none ∧ d.ou = none ∧ d.o = none ∧ d.l = none ∧ d.st = none ∧ d.c = none) ∧
    ∀ s : SignSettings, s.dname = d →
      (s.keystoreRequest.map fun r => read r.dname) = if s.keystoreConfig.generate then some d.fields else none := by
  refine ⟨read_render d hd, ?_, ?_⟩
  · rw [isEmpty, String.isEmpty_iff, render_eq_empty_iff, fields_eq_nil_iff]
  · rintro s rfl
    by_cases hgen : s.keystoreConfig.generate <;> simp [SignSettings.keystoreRequest, hgen, read_render _ hd]

theorem read_render_of_no_backslash_comma :
    (∀ f ∈ ({ cn := some "Acme, Inc.", c := some "US" } : Dname).fields, '\\' ∉ f.2.toList) ∧
    read ({ cn := some "Acme, Inc.", c := some "US" } : Dname).render = [("CN", "Acme, Inc."), ("C", "US")] := by
  have h : ∀ f ∈ ({ cn := some "Acme, Inc.", c := some "US" } : Dname).fields, '\\' ∉ f.2.toList := by
    decide
  exact ⟨h, (read_render_of_no_backslash _ h).1⟩

/-- Since a backslash is not escaped, a value ending in one swallows the separator after it: the
name with common name `a\` and organization `b` is written as the name with the one common name
`a, O=b`, and reads back as that one. -/
theorem render_merges_parts :
    ({ cn := some "a\\", o := some "b" } : Dname).render = ({ cn := some "a, O=b" } : Dname).render ∧
    read ({ cn := some "a\\", o := some "b" } : Dname).render = [("CN", "a, O=b")] ∧
    ({ cn := some "a\\", o := some "b" } : Dname).fields = [("CN", "a\\"), ("O", "b")] := by
  have hmerge : ({ cn := some "a\\", o := some "b" } : Dname).render.toList = "CN=a\\, O=b".toList := by
    simp [render_eq, fields, tagged, partText, toList_escapePart, escapeChar]
  have hone : ({ cn := some "a, O=b" } : Dname).render.toList = "CN=a\\, O=b".toList := by
    simp [render_eq, fields, tagged, partText, toList_escapePart, escapeChar]
  have hrender := String.toList_inj.1 (hmerge.trans hone.symm)
  -- the one-part name holds no backslash, so its text reads back as it
  refine ⟨hrender, ?_, rfl⟩
  rw [hrender]
  exact read_render _ (by decide)

end Dname

end JarDeploy
