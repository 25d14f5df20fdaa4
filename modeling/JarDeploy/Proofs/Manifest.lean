import Mathlib.Data.List.DropRight
import Mathlib.Data.List.TakeDrop
import JarDeploy.Manifest

/-!
# Reading a written manifest

Writing a manifest and reading the text back gives the manifest again, as long as reading
can see every part of it: a key is trimmed and holds no colon, no key, value or section
name holds a line break, and a manifest with sections has main attributes (reading a text
with none takes its first section for the main block). Every manifest that reading gives
is of that kind, so writing what was read and reading it again gives the same manifest.

The proof follows the text line by line. Writing gives lines each ended by CRLF
(`linesText`): an attribute is a first line and continuation lines, each starting with a
space, that together spell `key: value`, and a block ends with an empty line. Reading turns
every line ending into a line feed and splits there, so it meets exactly those lines. An
attribute's lines leave its logical line pending, and the next line that is not a
continuation closes it into the open block.
-/

namespace JarDeploy.Text

set_option autoImplicit false

theorem toList_trim (s : String) :
    (trim s).toList = (s.toList.dropWhile isBlank).rdropWhile isBlank := by
  simp [trim, trimEnd, trimStart, List.rdropWhile]

/-- A trimmed text starts with no blank. -/
theorem head?_trim {s : String} {c : Char} (h : (trim s).toList.head? = some c) :
    isBlank c = false := by
  rw [toList_trim] at h
  obtain ⟨t, ht⟩ := List.rdropWhile_prefix isBlank (s.toList.dropWhile isBlank)
  have hd : (s.toList.dropWhile isBlank).head? = some c := by
    rw [← ht, List.head?_append, h]
    rfl
  simpa [hd] using List.head?_dropWhile_not isBlank s.toList

/-- Trimming twice is trimming once. -/
theorem trim_trim (s : String) : trim (trim s) = trim s := by
  rw [← String.toList_inj, toList_trim (trim s)]
  have hstart : (trim s).toList.dropWhile isBlank = (trim s).toList := by
    rw [List.dropWhile_eq_self_iff]
    intro hl
    have hhead : (trim s).toList.head? = some (trim s).toList[0] := by
      rw [List.head?_eq_getElem?, List.getElem?_eq_getElem hl]
    simp [head?_trim hhead]
  rw [hstart, toList_trim, List.rdropWhile_idempotent]

/-- A text with no blank character in it is its own trimming. -/
theorem trim_eq_self {s : String} (h : ∀ c ∈ s.toList, isBlank c = false) : trim s = s := by
  rw [← String.toList_inj, toList_trim, List.dropWhile_eq_self_iff.2 fun hl => by
    simp [h _ (List.getElem_mem hl)]]
  rw [List.rdropWhile_eq_self_iff]
  intro hl
  simp [h _ (List.getLast_mem hl)]

theorem mem_of_mem_trim {s : String} {c : Char} (h : c ∈ (trim s).toList) : c ∈ s.toList := by
  rw [toList_trim] at h
  exact (List.dropWhile_suffix _).subset ((List.rdropWhile_prefix _ _).subset h)

end JarDeploy.Text

namespace JarDeploy.Manifest

set_option autoImplicit false

/-! ## Lines -/

/-- A line with no line break character in it. -/
def NoBreak (l : List Char) : Prop := '\r' ∉ l ∧ '\n' ∉ l

instance : DecidablePred NoBreak := fun l => inferInstanceAs (Decidable ('\r' ∉ l ∧ '\n' ∉ l))

theorem NoBreak.mono {l l' : List Char} (h : NoBreak l) (hs : l' ⊆ l) : NoBreak l' :=
  ⟨fun hr => h.1 (hs hr), fun hn => h.2 (hs hn)⟩

@[simp] theorem noBreak_nil : NoBreak [] := by simp [NoBreak]

@[simp] theorem noBreak_append {l l' : List Char} : NoBreak (l ++ l') ↔ NoBreak l ∧ NoBreak l' := by
  simp only [NoBreak, List.mem_append, not_or]
  tauto

@[simp] theorem noBreak_cons_space {l : List Char} : NoBreak (' ' :: l) ↔ NoBreak l := by
  simp [NoBreak]

/-- The text of lines, each ended by CRLF, as a manifest is written. -/
def linesText (ls : List (List Char)) : List Char := ls.flatMap (· ++ ['\r', '\n'])

@[simp] theorem linesText_nil : linesText [] = [] := rfl

@[simp] theorem linesText_cons (l : List Char) (ls : List (List Char)) :
    linesText (l :: ls) = l ++ '\r' :: '\n' :: linesText ls := by
  simp [linesText]

@[simp] theorem linesText_append (ls ls' : List (List Char)) :
    linesText (ls ++ ls') = linesText ls ++ linesText ls' := by
  simp [linesText]

theorem unifyBreaks_append_crlf {l : List Char} (h : '\r' ∉ l) (rest : List Char) :
    unifyBreaks (l ++ '\r' :: '\n' :: rest) = l ++ '\n' :: unifyBreaks rest := by
  induction l with
  | nil => simp [unifyBreaks]
  | cons c l ih =>
    have hc : c ≠ '\r' := fun hc => h (hc ▸ List.mem_cons_self)
    simp [unifyBreaks, hc, ih (fun hl => h (List.mem_cons_of_mem _ hl))]

/-- Line endings written as CRLF are read as line feeds. -/
theorem unifyBreaks_linesText {ls : List (List Char)} (h : ∀ l ∈ ls, NoBreak l) :
    unifyBreaks (linesText ls) = ls.flatMap (· ++ ['\n']) := by
  induction ls with
  | nil => rfl
  | cons l ls ih =>
    have hl := h l List.mem_cons_self
    rw [linesText_cons, unifyBreaks_append_crlf hl.1,
      ih fun l' hl' => h l' (List.mem_cons_of_mem _ hl')]
    simp

theorem cr_not_mem_unifyBreaks (l : List Char) : '\r' ∉ unifyBreaks l := by
  induction l with
  | nil => simp [unifyBreaks]
  | cons c l ih =>
    unfold unifyBreaks
    split
    · split
      · exact ih
      · simpa using ih
    · rename_i hc
      simpa [Ne.symm hc] using ih

theorem splitOn_flatMap_newline {ls : List (List Char)} (h : ∀ l ∈ ls, '\n' ∉ l) :
    (ls.flatMap (· ++ ['\n'])).splitOn '\n' = ls ++ [[]] := by
  induction ls with
  | nil => rfl
  | cons l ls ih =>
    rw [List.flatMap_cons, List.append_assoc, List.singleton_append,
      List.splitOn_append_cons_self_of_not_mem (h l List.mem_cons_self),
      ih fun l' hl' => h l' (List.mem_cons_of_mem _ hl')]
    rfl

/-- A piece of a split is made of characters of the list, none of them the separator. -/
theorem mem_of_mem_splitOn {α : Type} [BEq α] [LawfulBEq α] {a : α} {xs l : List α}
    (hl : l ∈ xs.splitOn a) {c : α} (hc : c ∈ l) : c ∈ xs ∧ c ≠ a := by
  induction xs generalizing l with
  | nil =>
    rw [List.splitOn_nil, List.mem_singleton] at hl
    simp [hl] at hc
  | cons x xs ih =>
    -- a character of a piece of the tail's split
    have htail : ∀ {l'}, l' ∈ xs.splitOn a → c ∈ l' → c ∈ x :: xs ∧ c ≠ a := fun hl' hc' =>
      ⟨List.mem_cons_of_mem _ (ih hl' hc').1, (ih hl' hc').2⟩
    rw [List.splitOn_cons_eq_if_modifyHead] at hl
    split at hl
    · rcases List.mem_cons.1 hl with rfl | hl
      · simp at hc
      · exact htail hl hc
    · -- `x` is not the separator and starts the first piece
      rename_i hx
      obtain ⟨r, rs, hr⟩ := List.exists_cons_of_ne_nil (List.splitOn_ne_nil a xs)
      rw [hr, List.modifyHead_cons] at hl
      rcases List.mem_cons.1 hl with rfl | hl
      · rcases List.mem_cons.1 hc with rfl | hc
        · exact ⟨List.mem_cons_self, by simpa using hx⟩
        · exact htail (hr ▸ List.mem_cons_self) hc
      · exact htail (hr ▸ List.mem_cons_of_mem _ hl) hc

/-- Every line reading meets is free of line breaks. -/
theorem noBreak_of_mem_lines {text : List Char} {l : List Char}
    (hl : l ∈ (unifyBreaks text).splitOn '\n') : NoBreak l :=
  ⟨fun hr => cr_not_mem_unifyBreaks text (mem_of_mem_splitOn hl hr).1,
    fun hn => (mem_of_mem_splitOn hl hn).2 rfl⟩

/-! ## Writing an attribute -/

/-- The text a wrapping state stands for: what is written and the piece not yet written. -/
def wrapText (st : String × String × Nat × Nat) : List Char := (st.1 ++ st.2.1).toList

/-- Wrapping cuts the characters into a piece that extends the current line and pieces each
on a continuation line of its own. -/
theorem foldl_wrapStep (cs : List Char) (out chunk : String) (len limit : Nat) :
    ∃ (p : List Char) (more : List (List Char)), cs = p ++ more.flatten ∧
      wrapText (cs.foldl wrapStep (out, chunk, len, limit)) ++ ['\r', '\n'] =
        out.toList ++ linesText ((chunk.toList ++ p) :: more.map (' ' :: ·)) := by
  induction cs generalizing out chunk len limit with
  | nil => exact ⟨[], [], rfl, by simp [wrapText]⟩
  | cons c cs ih =>
    rw [List.foldl_cons]
    by_cases hbreak : len + c.utf8Size > limit
    · obtain ⟨p, more, hcs, htext⟩ :=
        ih (out ++ chunk ++ "\r\n ") c.toString c.utf8Size (maxLineBytes - 1)
      refine ⟨[], (c :: p) :: more, by simp [hcs], ?_⟩
      simp only [wrapStep, hbreak, if_true, htext]
      simp
    · obtain ⟨p, more, hcs, htext⟩ := ih out (chunk.push c) (len + c.utf8Size) limit
      refine ⟨c :: p, more, by simp [hcs], ?_⟩
      simp only [wrapStep, hbreak, if_false, htext]
      simp [String.toList_push]

theorem toList_wrapAttribute (k v : String) :
    (wrapAttribute k v).toList =
      wrapText ((k ++ ": " ++ v).toList.foldl wrapStep ("", "", 0, maxLineBytes)) ++ ['\r', '\n'] := by
  simp only [wrapAttribute]
  generalize (k ++ ": " ++ v).toList.foldl wrapStep ("", "", 0, maxLineBytes) = st
  obtain ⟨out, chunk, len, limit⟩ := st
  simp [wrapText]

/-- The lines an attribute is written on: a first line that is not empty, then continuation
lines each starting with a space, which together spell `key: value`. -/
theorem wrapAttribute_lines (k v : String) :
    ∃ (first : List Char) (more : List (List Char)),
      first ≠ [] ∧ first.head? = (k ++ ": " ++ v).toList.head? ∧
      first ++ more.flatten = (k ++ ": " ++ v).toList ∧
      (wrapAttribute k v).toList = linesText (first :: more.map (' ' :: ·)) := by
  obtain ⟨c, cs, hline⟩ : ∃ c cs, (k ++ ": " ++ v).toList = c :: cs :=
    List.exists_cons_of_ne_nil (by simp)
  -- the first character always fits: no character takes more than four bytes
  have hfirst : wrapStep ("", "", 0, maxLineBytes) c = ("", "".push c, c.utf8Size, maxLineBytes) := by
    have : ¬ c.utf8Size > maxLineBytes := by
      have := Char.utf8Size_le_four c
      simp only [maxLineBytes]
      omega
    simp only [wrapStep, this, if_false, Nat.zero_add]
  obtain ⟨p, more, hcs, htext⟩ := foldl_wrapStep cs "" ("".push c) c.utf8Size maxLineBytes
  refine ⟨c :: p, more, by simp, by simp [hline], by simp [hline, hcs], ?_⟩
  rw [toList_wrapAttribute, hline, List.foldl_cons, hfirst, htext]
  simp

/-! ## Attributes that read as themselves -/

/-- A key that reads as itself: trimmed, with no colon and no line break. -/
def ReadableKey (k : String) : Prop := Text.trim k = k ∧ ':' ∉ k.toList ∧ NoBreak k.toList

/-- An attribute that reads as itself: its key does, and its value holds no line break. -/
def ReadableAttribute (a : String × String) : Prop := ReadableKey a.1 ∧ NoBreak a.2.toList

instance : DecidablePred ReadableKey := fun k =>
  inferInstanceAs (Decidable (Text.trim k = k ∧ ':' ∉ k.toList ∧ NoBreak k.toList))

instance : DecidablePred ReadableAttribute := fun a =>
  inferInstanceAs (Decidable (ReadableKey a.1 ∧ NoBreak a.2.toList))

/-- A manifest that reading its text gives back: its attributes read as themselves, no
section name holds a line break, and it has main attributes if it has sections. -/
structure Readable (m : Manifest) : Prop where
  main_first : m.main ≠ [] ∨ m.sections = []
  main : ∀ a ∈ m.main, ReadableAttribute a
  names : ∀ s ∈ m.sections, NoBreak s.name.toList
  sections : ∀ s ∈ m.sections, ∀ a ∈ s.attributes, ReadableAttribute a

instance (m : Manifest) : Decidable m.Readable :=
  decidable_of_iff ((m.main ≠ [] ∨ m.sections = []) ∧ (∀ a ∈ m.main, ReadableAttribute a) ∧
      (∀ s ∈ m.sections, NoBreak s.name.toList) ∧
      ∀ s ∈ m.sections, ∀ a ∈ s.attributes, ReadableAttribute a)
    ⟨fun ⟨h₁, h₂, h₃, h₄⟩ => ⟨h₁, h₂, h₃, h₄⟩, fun h => ⟨h.1, h.2, h.3, h.4⟩⟩

theorem readableKey_name : ReadableKey "Name" := by decide

theorem toList_attributeText (k v : String) :
    (k ++ ": " ++ v).toList = k.toList ++ ':' :: ' ' :: v.toList := by
  simp

theorem ReadableAttribute.noBreak {k v : String} (h : ReadableAttribute (k, v)) :
    NoBreak (k ++ ": " ++ v).toList := by
  rw [toList_attributeText]
  exact noBreak_append.2 ⟨h.1.2.2, by simpa [NoBreak] using h.2⟩

/-- The written line of an attribute with a readable key does not start with a space: the
key starts with no blank, or it is empty and the line starts with the colon. -/
theorem ReadableKey.head?_ne_space {k : String} (h : ReadableKey k) (v : String) :
    (k ++ ": " ++ v).toList.head? ≠ some ' ' := by
  rw [toList_attributeText]
  cases hk : k.toList with
  | nil => simp
  | cons c cs =>
    have hblank : Text.isBlank c = false := Text.head?_trim (s := k) (by rw [h.1, hk]; rfl)
    intro hc
    simp only [List.cons_append, List.head?_cons, Option.some.injEq] at hc
    rw [hc] at hblank
    exact absurd hblank (by decide)

/-! ## Reading lines -/

@[simp] theorem ok_bind {ε α β : Type} (a : α) (f : α → Except ε β) :
    (Except.ok a >>= f) = f a := rfl

@[simp] theorem error_bind {ε α β : Type} (e : ε) (f : α → Except ε β) :
    (Except.error e >>= f) = .error e := rfl

@[simp] theorem pure_eq_ok {ε α : Type} (a : α) : (pure a : Except ε α) = .ok a := rfl

@[simp] theorem afterSpace?_space (rest : List Char) : afterSpace? (' ' :: rest) = some rest := rfl

theorem afterSpace?_eq_none {l : List Char} (h : l.head? ≠ some ' ') : afterSpace? l = none := by
  unfold afterSpace?
  split
  · simp at h
  · rfl

theorem eq_of_afterSpace? {l rest : List Char} (h : afterSpace? l = some rest) :
    l = ' ' :: rest := by
  unfold afterSpace? at h
  split at h
  · cases h
    rfl
  · cases h

theorem getD_afterSpace?_subset (l : List Char) : (afterSpace? l).getD l ⊆ l := by
  cases h : afterSpace? l with
  | none => exact List.Subset.refl l
  | some rest =>
    rw [Option.getD_some, eq_of_afterSpace? h]
    exact List.subset_cons_self _ _

/-- The logical line of an attribute reads as that attribute when its key holds no colon
and is trimmed. -/
theorem attributeOf_written {k v : String} (hk : ':' ∉ k.toList) (ht : Text.trim k = k) :
    attributeOf (k.toList ++ ':' :: ' ' :: v.toList) = .ok (k, v) := by
  have hkey : ∀ c ∈ k.toList, (c != ':') = true := fun c hc => by
    have : c ≠ ':' := fun h => hk (h ▸ hc)
    simpa using this
  have hspan : (k.toList ++ ':' :: ' ' :: v.toList).span (· != ':') =
      (k.toList, ':' :: ' ' :: v.toList) := by
    rw [List.span_eq_takeWhile_dropWhile, List.takeWhile_append_of_pos hkey,
      List.dropWhile_append_of_pos hkey]
    simp
  rw [attributeOf, hspan]
  simp [String.ofList_toList, ht]

/-- Every attribute read from a line with no line break reads as itself. -/
theorem readableAttribute_of_attributeOf {line : List Char} {a : String × String}
    (hl : NoBreak line) (h : attributeOf line = .ok a) : ReadableAttribute a := by
  rw [attributeOf, List.span_eq_takeWhile_dropWhile] at h
  split at h
  · rename_i key c value hsplit
    simp only [Prod.mk.injEq] at hsplit
    obtain ⟨rfl, hdrop⟩ := hsplit
    simp only [Except.ok.injEq] at h
    subst h
    have hkey : (Text.trim (String.ofList (line.takeWhile (· != ':')))).toList ⊆ line :=
      fun x hx => (List.takeWhile_prefix _).subset (by simpa using Text.mem_of_mem_trim hx)
    have hvalue : (afterSpace? value).getD value ⊆ line := by
      intro x hx
      apply (List.dropWhile_suffix (· != ':')).subset
      rw [hdrop]
      exact List.mem_cons_of_mem _ (getD_afterSpace?_subset value hx)
    refine ⟨⟨Text.trim_trim _, fun hc => ?_, hl.mono hkey⟩, by simpa using hl.mono hvalue⟩
    have := List.mem_takeWhile_imp (by simpa using Text.mem_of_mem_trim hc)
    simp at this
  · cases h

theorem addToLast_append_singleton (bs : List (List (String × String)))
    (b : List (String × String)) (a : String × String) :
    addToLast (bs ++ [b]) a = bs ++ [b ++ [a]] := by
  simp [addToLast]

theorem flatten_addToLast (bs : List (List (String × String))) (a : String × String) :
    (addToLast bs a).flatten = bs.flatten ++ [a] := by
  unfold addToLast
  split
  · rename_i last before h
    have : bs = before.reverse ++ [last] := by
      rw [← List.reverse_reverse bs, h]
      simp
    simp [this]
  · rename_i h
    simp_all

theorem flush_none (bs : List (List (String × String))) :
    Reading.flush ⟨bs, none⟩ = .ok ⟨bs, none⟩ := rfl

theorem flush_some {bs : List (List (String × String))} {line : List Char} {a : String × String}
    (h : attributeOf line = .ok a) : Reading.flush ⟨bs, some line⟩ = .ok ⟨addToLast bs a, none⟩ := by
  simp [Reading.flush, h]

/-- A line starting with a space adds its rest to the pending logical line. -/
theorem line_space (bs : List (List (String × String))) (current rest : List Char) :
    Reading.line ⟨bs, some current⟩ (' ' :: rest) = .ok ⟨bs, some (current ++ rest)⟩ := rfl

/-- A line that does not start with a space closes the pending line; one that is not empty
is the new pending line. -/
theorem line_of_not_space {r r₀ : Reading} {l : List Char} (hl : l ≠ []) (hs : l.head? ≠ some ' ')
    (h : r.flush = .ok r₀) : r.line l = .ok ⟨r₀.blocks, some l⟩ := by
  simp [Reading.line, afterSpace?_eq_none hs, h, hl]

/-- An empty line closes the pending line and, after a block that is not empty, opens a new
one. -/
theorem line_nil {r : Reading} {bs : List (List (String × String))} {b : List (String × String)}
    (h : r.flush = .ok ⟨bs ++ [b], none⟩) :
    r.line [] = .ok ⟨bs ++ [b].filter (!·.isEmpty) ++ [[]], none⟩ := by
  cases b with
  | nil => simp [Reading.line, afterSpace?, h]
  | cons a b => simp [Reading.line, afterSpace?, h]

/-- Continuation lines add their text to the pending logical line. -/
theorem foldlM_continuations (bs : List (List (String × String))) (line : List Char)
    (more : List (List Char)) :
    (more.map (' ' :: ·)).foldlM Reading.line ⟨bs, some line⟩ =
      .ok ⟨bs, some (line ++ more.flatten)⟩ := by
  induction more generalizing line with
  | nil => simp
  | cons c more ih =>
    rw [List.map_cons, List.foldlM_cons, line_space, ok_bind, ih]
    simp

/-- Reading the lines of an attribute as written closes the line pending before and leaves
the attribute's logical line pending. -/
theorem foldlM_attribute {r r₀ : Reading} {first : List Char} (more : List (List Char))
    (hne : first ≠ []) (hs : first.head? ≠ some ' ') (h : r.flush = .ok r₀) :
    (first :: more.map (' ' :: ·)).foldlM Reading.line r =
      .ok ⟨r₀.blocks, some (first ++ more.flatten)⟩ := by
  rw [List.foldlM_cons, line_of_not_space hne hs h, ok_bind, foldlM_continuations]

/-! ## Reading a written manifest -/

/-- The lines of attributes as written, and what reading them does: each attribute in turn
is added to the open block. -/
theorem attributes_lines (attrs : List (String × String)) (h : ∀ a ∈ attrs, ReadableAttribute a) :
    ∃ ls, (String.join (attrs.map fun a => wrapAttribute a.1 a.2)).toList = linesText ls ∧
      (∀ l ∈ ls, NoBreak l) ∧
      ∀ (r : Reading) bs cur, r.flush = .ok ⟨bs ++ [cur], none⟩ →
        ∃ r', ls.foldlM Reading.line r = .ok r' ∧ r'.flush = .ok ⟨bs ++ [cur ++ attrs], none⟩ := by
  induction attrs with
  | nil => exact ⟨[], by simp, by simp, fun r bs cur hr => ⟨r, rfl, by simpa using hr⟩⟩
  | cons a attrs ih =>
    obtain ⟨k, v⟩ := a
    have ha := h (k, v) List.mem_cons_self
    obtain ⟨ls, htext, hbreaks, hread⟩ := ih fun a' h' => h a' (List.mem_cons_of_mem _ h')
    obtain ⟨first, more, hne, hhead, hspell, hwrap⟩ := wrapAttribute_lines k v
    have hjoin : (String.join (((k, v) :: attrs).map fun a => wrapAttribute a.1 a.2)).toList =
        (wrapAttribute k v).toList ++ (String.join (attrs.map fun a => wrapAttribute a.1 a.2)).toList := by
      simp [String.toList_join]
    refine ⟨(first :: more.map (' ' :: ·)) ++ ls, ?_, ?_, ?_⟩
    · rw [hjoin, hwrap, htext, linesText_append]
    · -- the attribute's lines are pieces of its logical line, which has no line break
      have hline : NoBreak (first ++ more.flatten) := hspell ▸ ha.noBreak
      intro l hl
      simp only [List.cons_append, List.mem_cons, List.mem_append, List.mem_map] at hl
      rcases hl with rfl | ⟨c, hc, rfl⟩ | hl
      · exact (noBreak_append.1 hline).1
      · exact noBreak_cons_space.2 ((noBreak_append.1 hline).2.mono
          fun x hx => List.mem_flatten.2 ⟨c, hc, hx⟩)
      · exact hbreaks l hl
    · intro r bs cur hr
      have hattr : attributeOf (k ++ ": " ++ v).toList = .ok (k, v) := by
        rw [toList_attributeText]
        exact attributeOf_written ha.1.2.1 ha.1.1
      obtain ⟨r', hr', hflush⟩ := hread ⟨bs ++ [cur], some (k ++ ": " ++ v).toList⟩ bs
        (cur ++ [(k, v)]) (by rw [flush_some hattr, addToLast_append_singleton])
      refine ⟨r', ?_, by simpa using hflush⟩
      rw [List.foldlM_append, foldlM_attribute more hne (hhead ▸ ha.1.head?_ne_space v) hr, hspell,
        ok_bind]
      exact hr'

/-- The lines of a block as written, and what reading them does: the block is added, if it
is not empty, and a new one is opened. -/
theorem renderBlock_lines (attrs : List (String × String)) (h : ∀ a ∈ attrs, ReadableAttribute a) :
    ∃ ls, (renderBlock attrs).toList = linesText ls ∧ (∀ l ∈ ls, NoBreak l) ∧
      ∀ bs, ls.foldlM Reading.line ⟨bs ++ [[]], none⟩ =
        .ok ⟨bs ++ [attrs].filter (!·.isEmpty) ++ [[]], none⟩ := by
  obtain ⟨ls, htext, hbreaks, hread⟩ := attributes_lines attrs h
  refine ⟨ls ++ [[]], ?_, List.forall_mem_append.2 ⟨hbreaks, by simp⟩, fun bs => ?_⟩
  · rw [renderBlock, String.toList_append, htext]
    simp
  · obtain ⟨r', hr', hflush⟩ := hread ⟨bs ++ [[]], none⟩ bs [] rfl
    rw [List.foldlM_append, hr', ok_bind, List.foldlM_cons, line_nil (by simpa using hflush), ok_bind]
    rfl

/-- The lines of blocks as written, and what reading them does: the blocks that are not
empty are added in order. -/
theorem blocks_lines (Bs : List (List (String × String)))
    (h : ∀ b ∈ Bs, ∀ a ∈ b, ReadableAttribute a) :
    ∃ ls, (String.join (Bs.map renderBlock)).toList = linesText ls ∧ (∀ l ∈ ls, NoBreak l) ∧
      ∀ bs, ls.foldlM Reading.line ⟨bs ++ [[]], none⟩ =
        .ok ⟨bs ++ Bs.filter (!·.isEmpty) ++ [[]], none⟩ := by
  induction Bs with
  | nil => exact ⟨[], by simp, by simp, fun bs => by simp⟩
  | cons b Bs ih =>
    obtain ⟨ls, htext, hbreaks, hread⟩ := renderBlock_lines b (h b List.mem_cons_self)
    obtain ⟨ls', htext', hbreaks', hread'⟩ := ih fun b' hb' => h b' (List.mem_cons_of_mem _ hb')
    refine ⟨ls ++ ls', ?_, List.forall_mem_append.2 ⟨hbreaks, hbreaks'⟩, fun bs => ?_⟩
    · rw [List.map_cons, String.toList_join, List.flatMap_cons, ← String.toList_join, htext,
        htext', linesText_append]
    · rw [List.foldlM_append, hread, ok_bind, hread']
      by_cases hb : b = [] <;> simp [hb]

/-- The blocks of a manifest as written: the main attributes, then each section as its
`Name` attribute followed by its attributes. -/
def blocks (m : Manifest) : List (List (String × String)) :=
  m.main :: m.sections.map fun s => ("Name", s.name) :: s.attributes

theorem toList_render (m : Manifest) :
    m.render.toList = (String.join (m.blocks.map renderBlock)).toList := by
  simp [render, blocks, String.toList_join, Function.comp_def]

/-- Reading a text written as lines meets exactly those lines, then the empty piece after
the last line ending, which changes nothing. -/
theorem parse_of_lines {text : String} {ls : List (List Char)} {bs : List (List (String × String))}
    (htext : text.toList = linesText ls) (hbreaks : ∀ l ∈ ls, NoBreak l)
    (hread : ls.foldlM Reading.line ⟨[[]], none⟩ = .ok ⟨bs ++ [[]], none⟩) :
    parse text = ofBlocks (bs ++ [[]]) := by
  have hsplit : (unifyBreaks text.toList).splitOn '\n' = ls ++ [[]] := by
    rw [htext, unifyBreaks_linesText hbreaks,
      splitOn_flatMap_newline fun l hl => (hbreaks l hl).2]
  rw [parse, hsplit, List.foldlM_append, hread, ok_bind, List.foldlM_cons,
    line_nil (flush_none (bs ++ [[]]))]
  simp [flush_none]

theorem ofBlocks_append_nil (bs : List (List (String × String))) :
    ofBlocks (bs ++ [[]]) = ofBlocks bs := by
  simp [ofBlocks, List.filter_append]

theorem ofBlocks_filter (bs : List (List (String × String))) :
    ofBlocks (bs.filter (!·.isEmpty)) = ofBlocks bs := by
  simp [ofBlocks, List.filter_filter]

theorem sectionOf_name (name : String) (attrs : List (String × String)) :
    sectionOf (("Name", name) :: attrs) = .ok ⟨name, attrs⟩ := by
  simp [sectionOf, show sameKey "Name" "Name" = true by decide]

theorem mapM_sectionOf (ss : List ManifestSection) :
    (ss.map fun s => ("Name", s.name) :: s.attributes).mapM sectionOf = .ok ss := by
  induction ss with
  | nil => rfl
  | cons s ss ih => simp [List.mapM_cons, sectionOf_name, ih]

/-- A manifest is the manifest of its own blocks when it has main attributes or no sections. -/
theorem ofBlocks_blocks {m : Manifest} (h : m.main ≠ [] ∨ m.sections = []) :
    ofBlocks m.blocks = .ok m := by
  obtain ⟨main, sections⟩ := m
  rcases h with hmain | hsections
  · have hall : (main :: sections.map fun s => ("Name", s.name) :: s.attributes).filter
        (!·.isEmpty) = main :: sections.map fun s => ("Name", s.name) :: s.attributes :=
      List.filter_eq_self.2 (by simp [hmain])
    simp only [ofBlocks, blocks, hall, mapM_sectionOf]
    rfl
  · subst hsections
    cases main with
    | nil => rfl
    | cons a main => rfl

/-- Reading a written manifest gives the manifest its blocks make, for every manifest whose
attributes, section names included, read as themselves. -/
theorem parse_render_eq_ofBlocks {m : Manifest} (h : ∀ b ∈ m.blocks, ∀ a ∈ b, ReadableAttribute a) :
    parse m.render = ofBlocks m.blocks := by
  obtain ⟨ls, htext, hbreaks, hread⟩ := blocks_lines m.blocks h
  rw [parse_of_lines ((toList_render m).trans htext) hbreaks (by simpa only [List.nil_append] using hread []),
    ofBlocks_append_nil, ofBlocks_filter]

theorem Readable.blocks {m : Manifest} (h : m.Readable) :
    ∀ b ∈ m.blocks, ∀ a ∈ b, ReadableAttribute a := by
  intro b hb a ha
  simp only [Manifest.blocks, List.mem_cons, List.mem_map] at hb
  rcases hb with rfl | ⟨s, hs, rfl⟩
  · exact h.main a ha
  · rcases List.mem_cons.1 ha with rfl | ha
    · exact ⟨readableKey_name, h.names s hs⟩
    · exact h.sections s hs a ha

/-! ## What reading gives -/

/-- What is read so far holds only attributes that read as themselves, and the pending line
holds no line break. -/
def Reading.Clean (r : Reading) : Prop :=
  (∀ a ∈ r.blocks.flatten, ReadableAttribute a) ∧ ∀ l ∈ r.pending, NoBreak l

theorem Reading.Clean.flush {r r' : Reading} (hc : r.Clean) (h : r.flush = .ok r') : r'.Clean := by
  obtain ⟨blocks, pending⟩ := r
  cases pending with
  | none =>
    simp only [flush_none, Except.ok.injEq] at h
    exact h ▸ hc
  | some line =>
    cases ha : attributeOf line with
    | error e => simp [Reading.flush, ha] at h
    | ok a =>
      simp only [flush_some ha, Except.ok.injEq] at h
      subst h
      refine ⟨?_, by simp⟩
      intro x hx
      rw [flatten_addToLast, List.mem_append, List.mem_singleton] at hx
      rcases hx with hx | rfl
      · exact hc.1 x hx
      · exact readableAttribute_of_attributeOf (hc.2 line rfl) ha

theorem Reading.Clean.line {r r' : Reading} {l : List Char} (hc : r.Clean) (hl : NoBreak l)
    (h : r.line l = .ok r') : r'.Clean := by
  unfold Reading.line at h
  cases hs : afterSpace? l with
  | some rest =>
    cases hp : r.pending with
    | none => simp [hs, hp] at h
    | some current =>
      simp only [hs, hp, Except.ok.injEq] at h
      subst h
      have hrest : NoBreak rest := hl.mono (by rw [eq_of_afterSpace? hs]; exact List.subset_cons_self _ _)
      exact ⟨hc.1, by simpa using ⟨hc.2 current hp, hrest⟩⟩
  | none =>
    cases hf : r.flush with
    | error e => simp [hs, hf] at h
    | ok r₁ =>
      have hc₁ := hc.flush hf
      simp only [hs, hf, ok_bind] at h
      split at h
      · split at h
        · simp only [pure_eq_ok, Except.ok.injEq] at h
          subst h
          exact ⟨by simpa using hc₁.1, hc₁.2⟩
        · simp only [pure_eq_ok, Except.ok.injEq] at h
          exact h ▸ hc₁
      · simp only [pure_eq_ok, Except.ok.injEq] at h
        subst h
        exact ⟨hc₁.1, by simpa using hl⟩

/-- A fold in `Except` keeps an invariant that each of its steps keeps. -/
theorem foldlM_invariant {σ α ε : Type} {f : σ → α → Except ε σ} (P : σ → Prop) {Q : α → Prop}
    (step : ∀ s a s', P s → Q a → f s a = .ok s' → P s') {xs : List α} {s s' : σ}
    (hs : P s) (hq : ∀ a ∈ xs, Q a) (h : xs.foldlM f s = .ok s') : P s' := by
  induction xs generalizing s with
  | nil =>
    simp only [List.foldlM_nil, pure_eq_ok, Except.ok.injEq] at h
    exact h ▸ hs
  | cons a xs ih =>
    rw [List.foldlM_cons] at h
    cases hf : f s a with
    | error e => simp [hf] at h
    | ok s₁ =>
      rw [hf, ok_bind] at h
      exact ih (step s a s₁ hs (hq a List.mem_cons_self) hf)
        (fun b hb => hq b (List.mem_cons_of_mem _ hb)) h

theorem sectionOf_eq_ok {b : List (String × String)} {s : ManifestSection}
    (h : sectionOf b = .ok s) : ∃ key, b = (key, s.name) :: s.attributes := by
  cases b with
  | nil => simp [sectionOf] at h
  | cons a b =>
    obtain ⟨key, name⟩ := a
    simp only [sectionOf] at h
    split at h
    · simp only [Except.ok.injEq] at h
      subst h
      exact ⟨key, rfl⟩
    · cases h

theorem mem_of_mapM_sectionOf {bs : List (List (String × String))} {ss : List ManifestSection}
    (h : bs.mapM sectionOf = .ok ss) : ∀ s ∈ ss, ∃ b ∈ bs, sectionOf b = .ok s := by
  induction bs generalizing ss with
  | nil =>
    simp only [List.mapM_nil, pure_eq_ok, Except.ok.injEq] at h
    simp [← h]
  | cons b bs ih =>
    rw [List.mapM_cons] at h
    cases hb : sectionOf b with
    | error e => simp [hb] at h
    | ok s₁ =>
      cases hbs : bs.mapM sectionOf with
      | error e => simp [hb, hbs] at h
      | ok ss' =>
        simp only [hb, hbs, ok_bind, pure_eq_ok, Except.ok.injEq] at h
        subst h
        intro s hs
        rcases List.mem_cons.1 hs with rfl | hs
        · exact ⟨b, List.mem_cons_self, hb⟩
        · obtain ⟨b', hb', hsec⟩ := ih hbs s hs
          exact ⟨b', List.mem_cons_of_mem _ hb', hsec⟩

/-- The manifest made of blocks whose attributes read as themselves is readable. -/
theorem ofBlocks_readable {bs : List (List (String × String))} {m : Manifest}
    (h : ∀ a ∈ bs.flatten, ReadableAttribute a) (hm : ofBlocks bs = .ok m) : m.Readable := by
  unfold ofBlocks at hm
  split at hm
  · simp only [pure_eq_ok, Except.ok.injEq] at hm
    subst hm
    exact ⟨Or.inr rfl, by simp, by simp, by simp⟩
  · rename_i main rest hfilter
    cases hss : rest.mapM sectionOf with
    | error e => simp [hss] at hm
    | ok ss =>
      simp only [hss, ok_bind, pure_eq_ok, Except.ok.injEq] at hm
      subst hm
      -- the blocks kept are blocks read, and none of them is empty
      have hkept : ∀ b ∈ main :: rest, b ∈ bs ∧ b ≠ [] := by
        intro b hb
        rw [← hfilter, List.mem_filter] at hb
        simpa using hb
      have hattr : ∀ b ∈ main :: rest, ∀ a ∈ b, ReadableAttribute a := fun b hb a ha =>
        h a (List.mem_flatten.2 ⟨b, (hkept b hb).1, ha⟩)
      have hsection : ∀ s ∈ ss, ∃ key, ∀ a ∈ (key, s.name) :: s.attributes, ReadableAttribute a := by
        intro s hs
        obtain ⟨b, hb, hsec⟩ := mem_of_mapM_sectionOf hss s hs
        obtain ⟨key, rfl⟩ := sectionOf_eq_ok hsec
        exact ⟨key, hattr _ (List.mem_cons_of_mem _ hb)⟩
      refine ⟨Or.inl (hkept main List.mem_cons_self).2, hattr main List.mem_cons_self, ?_, ?_⟩
      · intro s hs
        obtain ⟨key, hs⟩ := hsection s hs
        exact (hs (key, s.name) List.mem_cons_self).2
      · intro s hs a ha
        obtain ⟨key, hs⟩ := hsection s hs
        exact hs a (List.mem_cons_of_mem _ ha)

/-- Every manifest reading gives is readable. -/
theorem readable_of_parse {text : String} {m : Manifest} (h : parse text = .ok m) : m.Readable := by
  unfold parse at h
  cases hr : ((unifyBreaks text.toList).splitOn '\n').foldlM Reading.line ⟨[[]], none⟩ with
  | error e => simp [hr] at h
  | ok r =>
    rw [hr, ok_bind] at h
    cases hf : r.flush with
    | error e => simp [hf] at h
    | ok r₁ =>
      rw [hf, ok_bind] at h
      have hclean : r.Clean := foldlM_invariant Reading.Clean
        (fun _ _ _ hs hl hstep => hs.line hl hstep) ⟨by simp, by simp⟩
        (fun _ hl => noBreak_of_mem_lines hl) hr
      exact ofBlocks_readable (hclean.flush hf).1 h

/-- A readable manifest reads back as itself once written. -/
theorem parse_render_of_readable {m : Manifest} (hm : m.Readable) : parse m.render = .ok m := by
  rw [parse_render_eq_ofBlocks hm.blocks, ofBlocks_blocks hm.main_first]

/-- A written manifest reads back as itself exactly when it is readable. -/
theorem parse_render_eq_ok_iff {m : Manifest} : parse m.render = .ok m ↔ m.Readable :=
  ⟨readable_of_parse, parse_render_of_readable⟩

/-- Reading a written manifest gives it back when it is readable: its keys are trimmed and
hold no colon and no line break, its values and section names hold no line break, and it
has main attributes if it has sections. Every manifest reading gives is readable, so
writing what was read and reading it again gives the same. -/
theorem parse_render :
    (∀ m : Manifest, m.Readable → parse m.render = .ok m) ∧
    ∀ (text : String) (m : Manifest), parse text = .ok m → m.Readable ∧ parse m.render = parse text := by
  refine ⟨fun m hm => parse_render_of_readable hm, fun text m h => ?_⟩
  have hm := readable_of_parse h
  exact ⟨hm, by rw [parse_render_of_readable hm, h]⟩

/-- A manifest with a value long enough to be wrapped over three lines, one character of it
taking two bytes, and a section. -/
theorem parse_render_wrapped :
    let m : Manifest := ⟨[("Manifest-Version", "1.0"),
      ("Class-Path", "lib/commons-lang3-3.12.0.jar lib/commons-io-2.11.0.jar lib/jackson-core-2.15.2.jar " ++
        "lib/jackson-databind-2.15.2.jar lib/résumé.jar lib/slf4j-api-2.0.7.jar")],
      [⟨"com/example/Main.class", [("SHA-256-Digest", "q1w2e3r4t5y6u7i8o9p0=")]⟩]⟩
    m.Readable ∧ parse m.render = .ok m :=
  ⟨by decide +kernel, parse_render.1 _ (by decide +kernel)⟩

end JarDeploy.Manifest
