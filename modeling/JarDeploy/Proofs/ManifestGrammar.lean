import JarDeploy.Proofs.Act
import JarDeploy.Proofs.Manifest

/-!
# The grammar that reading a manifest accepts

Reading a manifest makes every line ending (CRLF, a lone CR or LF) a line feed and splits the
text there. The lines between empty lines form blocks. In a block, a line that starts with a
space continues the line before it; every other line starts a logical line, made of that line
and the rest of each continuation line after it, one space taken off. A logical line is an
attribute: the text before its first colon, trimmed, and the text after that colon without
one leading space.

Reading fails in exactly three ways: a block starts with a continuation line (a line that
starts with a space and is the first line of the text or follows an empty line), a logical
line has no colon, or a block after the first block holding lines starts with a key other
than `Name` in any case. Otherwise the first block holding lines gives the main attributes
and each later one a section, named by its first attribute (`parse_grammar`).

The proof reads the text block by block (`parse_eq_blocks`). From an empty pending line, the
lines of one block leave the attributes of its logical lines in the open block, the first
malformed one an error (`foldlM_block`), and the empty line after a block opens a new one
when that block holds attributes.
-/

namespace JarDeploy.Manifest

set_option autoImplicit false

/-! ## The grammar -/

/-- The lines reading meets: the text with every line ending made a line feed, split there. -/
def lines (text : String) : List (List Char) := (unifyBreaks text.toList).splitOn '\n'

/-- The blocks of a text: its lines between empty lines. -/
def textBlocks (text : String) : List (List (List Char)) := (lines text).splitOn []

/-- The logical lines of a block, each a line that does not start with a space followed by the
rest of each continuation line after it; first, the text of the continuation lines that come
before any such line. -/
def logical : List (List Char) → List Char × List (List Char)
  | [] => ([], [])
  | l :: ls =>
    match afterSpace? l with
    | some rest => (rest ++ (logical ls).1, (logical ls).2)
    | none => ([], (l ++ (logical ls).1) :: (logical ls).2)

/-- The attribute of a logical line: the text before its first colon, trimmed, and the text
after that colon without one leading space. -/
def attributeOfLine (l : List Char) : String × String :=
  let value := (l.dropWhile (· != ':')).drop 1
  (Text.trim (String.ofList (l.takeWhile (· != ':'))), String.ofList ((afterSpace? value).getD value))

/-- The attributes of a block, one for each logical line. -/
def attributesOfBlock (b : List (List Char)) : List (String × String) :=
  (logical b).2.map attributeOfLine

/-- A block that starts with a continuation line. -/
def StartsContinued (b : List (List Char)) : Prop := ∃ l ∈ b.head?, l.head? = some ' '

/-- A key that reads `Name` when ASCII letters are put in lower case. -/
def IsNameKey (key : String) : Prop := key.toList.map Char.toLower = "name".toList

/-- The blocks of a text that hold lines. -/
def filledBlocks (text : String) : List (List (List Char)) := (textBlocks text).filter (· ≠ [])

/-- A line that starts with a space continues no attribute: it is the first line of the text
or follows an empty line. -/
def OrphanContinuation (text : String) : Prop :=
  ∃ before l after, lines text = before ++ l :: after ∧ l.head? = some ' ' ∧
    (before = [] ∨ before.getLast? = some [])

/-- A logical line holds no colon. -/
def MissingColon (text : String) : Prop := ∃ b ∈ textBlocks text, ∃ l ∈ (logical b).2, ':' ∉ l

/-- A block after the first block holding lines starts with a key other than `Name`. -/
def UnnamedSection (text : String) : Prop :=
  ∃ b ∈ (filledBlocks text).tail, ∃ l ∈ (logical b).2.head?, ¬ IsNameKey (attributeOfLine l).1

/-- The section of a block's attributes: the first one names it. -/
def sectionOfAttributes : List (String × String) → ManifestSection
  | [] => ⟨"", []⟩
  | (_, name) :: attributes => ⟨name, attributes⟩

/-- The manifest the grammar gives a text: the first block holding lines has the main
attributes, each later one a section. -/
def grammarManifest (text : String) : Manifest :=
  match filledBlocks text with
  | [] => ⟨[], []⟩
  | main :: rest => ⟨attributesOfBlock main, rest.map fun b => sectionOfAttributes (attributesOfBlock b)⟩

/-! ## Lines that start a block -/

theorem lines_eq_intercalate (text : String) : lines text = [[]].intercalate (textBlocks text) :=
  (List.intercalate_splitOn _).symm


/-- In lines separated into blocks by empty lines, a line of some kind that empty lines never
are is the first line or follows an empty line exactly when it starts a block. -/
theorem exists_first_line_iff {P : List Char → Prop} (hP : ∀ l, P l → l ≠ []) :
    ∀ Bs : List (List (List Char)), (∀ B ∈ Bs, [] ∉ B) →
      ((∃ before l after, [[]].intercalate Bs = before ++ l :: after ∧ P l ∧
          (before = [] ∨ before.getLast? = some [])) ↔ ∃ B ∈ Bs, ∃ l ∈ B.head?, P l)
  | [], _ => by simp
  | [B], hB => by
    rw [List.intercalate_singleton]
    constructor
    · rintro ⟨before, l, after, rfl, hl, rfl | hlast⟩
      · exact ⟨_, List.mem_singleton_self _, l, rfl, hl⟩
      · -- an empty line before it would lie in the block
        exact absurd (List.mem_append_left _ (List.mem_of_getLast? hlast)) (hB _ (List.mem_singleton_self _))
    · rintro ⟨B', hB', l, hl, hPl⟩
      rw [List.mem_singleton] at hB'
      subst hB'
      obtain ⟨after, rfl⟩ := List.head?_eq_some_iff.1 hl
      exact ⟨[], l, after, rfl, hPl, .inl rfl⟩
  | B :: B' :: Bs, hB => by
    have ih := exists_first_line_iff hP (B' :: Bs) fun C hC => hB C (List.mem_cons_of_mem _ hC)
    have hBnil : [] ∉ B := hB B List.mem_cons_self
    rw [List.intercalate_cons_cons, List.append_assoc, List.singleton_append]
    constructor
    · rintro ⟨before, l, after, heq, hl, hbefore⟩
      rcases List.append_eq_append_iff.1 heq with ⟨a, rfl, ha⟩ | ⟨c, rfl, hc⟩
      · -- the line comes after the empty line that ends the first block
        cases a with
        | nil =>
          simp only [List.nil_append, List.cons.injEq] at ha
          exact absurd ha.1.symm (hP l hl)
        | cons x a =>
          simp only [List.cons_append, List.cons.injEq] at ha
          obtain ⟨rfl, hrest⟩ := ha
          have hlast : a = [] ∨ a.getLast? = some [] := by
            rcases hbefore with h | h
            · simp at h
            · cases a with
              | nil => exact .inl rfl
              | cons y a => exact .inr (by simpa [List.getLast?_append] using h)
          obtain ⟨C, hC, l', hl', hPl'⟩ := ih.1 ⟨a, l, after, hrest, hl, hlast⟩
          exact ⟨C, List.mem_cons_of_mem _ hC, l', hl', hPl'⟩
      · -- the line lies in the first block, so nothing comes before it
        cases c with
        | nil =>
          simp only [List.nil_append, List.cons.injEq] at hc
          exact absurd hc.1 (hP l hl)
        | cons y c =>
          simp only [List.cons_append, List.cons.injEq] at hc
          obtain ⟨rfl, -⟩ := hc
          rcases hbefore with rfl | hlast
          · exact ⟨_, List.mem_cons_self, l, rfl, hl⟩
          · exact absurd (List.mem_append_left _ (List.mem_of_getLast? hlast)) hBnil
    · rintro ⟨C, hC, l, hl, hPl⟩
      rcases List.mem_cons.1 hC with rfl | hC
      · obtain ⟨after, rfl⟩ := List.head?_eq_some_iff.1 hl
        exact ⟨[], l, after ++ [] :: [[]].intercalate (B' :: Bs), by simp, hPl, .inl rfl⟩
      · obtain ⟨before, l', after, heq, hl', hbefore⟩ := ih.2 ⟨C, hC, l, hl, hPl⟩
        refine ⟨B ++ [] :: before, l', after, by rw [heq]; simp, hl', .inr ?_⟩
        rcases hbefore with rfl | hlast
        · simp
        · simp [List.getLast?_append, List.getLast?_cons, hlast]

/-- A line that starts with a space and is the first line or follows an empty line is the
first line of a block. -/
theorem orphanContinuation_iff {text : String} :
    OrphanContinuation text ↔ ∃ b ∈ textBlocks text, StartsContinued b := by
  have h := exists_first_line_iff (P := fun l => l.head? = some ' ')
    (fun l hl hnil => by simp [hnil] at hl) (textBlocks text)
    fun B hB hnil => (mem_of_mem_splitOn hB hnil).2 rfl
  rw [← lines_eq_intercalate] at h
  exact h

/-! ## Reading one block -/

/-- What reading makes of one block: an error when it starts with a continuation line, else the
attributes of its logical lines, in order, the first malformed one an error. -/
def readBlock : List (List Char) → Except String (List (String × String))
  | [] => .ok []
  | l :: ls =>
    match afterSpace? l with
    | some _ => .error ("continuation line without attribute: " ++ Text.debugQuote (String.ofList l))
    | none => (logical (l :: ls)).2.mapM attributeOf

theorem logical_cons_of_afterSpace? {l rest : List Char} (h : afterSpace? l = some rest)
    (ls : List (List Char)) : logical (l :: ls) = (rest ++ (logical ls).1, (logical ls).2) := by
  simp [logical, h]

theorem logical_cons_of_afterSpace?_none {l : List Char} (h : afterSpace? l = none)
    (ls : List (List Char)) : logical (l :: ls) = ([], (l ++ (logical ls).1) :: (logical ls).2) := by
  simp [logical, h]

theorem head?_ne_space_of_afterSpace? {l : List Char} (h : afterSpace? l = none) :
    l.head? ≠ some ' ' := by
  intro hl
  obtain ⟨rest, rfl⟩ : ∃ rest, l = ' ' :: rest := by
    cases l with
    | nil => cases hl
    | cons c rest =>
      simp only [List.head?_cons, Option.some.injEq] at hl
      exact ⟨rest, by rw [hl]⟩
  cases h

theorem startsContinued_cons {l : List Char} {ls : List (List Char)} :
    StartsContinued (l :: ls) ↔ (afterSpace? l).isSome := by
  cases l with
  | nil => simp [StartsContinued, afterSpace?]
  | cons c rest => by_cases hc : c = ' ' <;> simp [StartsContinued, afterSpace?, hc]

/-- A line that starts with a space when no line is pending is an error. -/
theorem line_orphan {bs : List (List (String × String))} {l rest : List Char}
    (h : afterSpace? l = some rest) :
    Reading.line ⟨bs, none⟩ l =
      .error ("continuation line without attribute: " ++ Text.debugQuote (String.ofList l)) := by
  simp [Reading.line, h]

/-- A line that does not start with a space fails when closing the pending line fails. -/
theorem line_of_flush_error {r : Reading} {l : List Char} {e : String} (h : afterSpace? l = none)
    (hf : r.flush = .error e) : r.line l = .error e := by
  simp [Reading.line, h, hf]

/-- From a pending line, the lines of a block leave the pending line and the block's logical
lines in the open block as attributes, the first malformed one an error. -/
theorem foldlM_logical (b : List (List Char)) (hb : ∀ l ∈ b, l ≠ [])
    (bs : List (List (String × String))) (cur : List (String × String)) (p : List Char) :
    (b.foldlM Reading.line ⟨bs ++ [cur], some p⟩ >>= Reading.flush) =
      ((p ++ (logical b).1) :: (logical b).2).mapM attributeOf >>= fun attrs =>
        pure ⟨bs ++ [cur ++ attrs], none⟩ := by
  induction b generalizing cur p with
  | nil =>
    cases ha : attributeOf p with
    | error e => simp [logical, Reading.flush, ha]
    | ok a => simp [logical, Reading.flush, ha, addToLast_append_singleton]
  | cons l b ih =>
    have hl : l ≠ [] := hb l List.mem_cons_self
    have hb' : ∀ l' ∈ b, l' ≠ [] := fun l' hl' => hb l' (List.mem_cons_of_mem _ hl')
    cases hs : afterSpace? l with
    | some rest =>
      -- a continuation line adds its rest to the pending line
      obtain rfl := eq_of_afterSpace? hs
      rw [List.foldlM_cons, line_space, ok_bind, ih hb' cur (p ++ rest),
        logical_cons_of_afterSpace? hs, List.append_assoc]
    | none =>
      -- any other line closes the pending line and becomes the pending line itself
      rw [logical_cons_of_afterSpace?_none hs, List.foldlM_cons]
      cases ha : attributeOf p with
      | error e =>
        rw [line_of_flush_error (e := e) hs (by simp [Reading.flush, ha])]
        simp [ha]
      | ok a =>
        rw [line_of_not_space hl (head?_ne_space_of_afterSpace? hs) (flush_some ha), ok_bind,
          addToLast_append_singleton, ih hb' (cur ++ [a]) l]
        simp [ha]

/-- From no pending line, the lines of a block leave what reading the block gives in the open
block. -/
theorem foldlM_block (b : List (List Char)) (hb : ∀ l ∈ b, l ≠ [])
    (bs : List (List (String × String))) (cur : List (String × String)) :
    (b.foldlM Reading.line ⟨bs ++ [cur], none⟩ >>= Reading.flush) =
      readBlock b >>= fun attrs => pure ⟨bs ++ [cur ++ attrs], none⟩ := by
  cases b with
  | nil => simp [readBlock, flush_none]
  | cons l b =>
    cases hs : afterSpace? l with
    | some rest => simp [List.foldlM_cons, line_orphan hs, readBlock, hs]
    | none =>
      have hl : l ≠ [] := hb l List.mem_cons_self
      rw [List.foldlM_cons, line_of_not_space hl (head?_ne_space_of_afterSpace? hs) (flush_none _),
        ok_bind, foldlM_logical b (fun l' hl' => hb l' (List.mem_cons_of_mem _ hl')) bs cur l]
      simp [readBlock, hs, logical_cons_of_afterSpace?_none hs]

/-! ## Reading block by block -/

theorem flush_pending {r r' : Reading} (h : r.flush = .ok r') : r'.pending = none := by
  obtain ⟨blocks, pending⟩ := r
  cases pending with
  | none =>
    simp only [flush_none, Except.ok.injEq] at h
    exact h ▸ rfl
  | some line =>
    cases ha : attributeOf line with
    | error e => simp [Reading.flush, ha] at h
    | ok a =>
      simp only [flush_some ha, Except.ok.injEq] at h
      exact h ▸ rfl

/-- An empty line first closes the pending line. -/
theorem line_nil_flush (r : Reading) : r.line [] = r.flush >>= fun r' => r'.line [] := by
  cases hf : r.flush with
  | error e => simp [Reading.line, afterSpace?, hf]
  | ok r' =>
    obtain ⟨blocks, pending⟩ := r'
    obtain rfl : pending = none := flush_pending hf
    simp [Reading.line, afterSpace?, hf, flush_none]

/-- An empty line read after other lines closes the pending line first. -/
theorem bind_line_nil {α : Type} (m : Except String Reading) (k : Reading → Except String α) :
    (m >>= fun r => r.line [] >>= k) = (m >>= Reading.flush) >>= fun r => r.line [] >>= k := by
  rw [bind_assoc]
  congr 1
  funext r
  rw [line_nil_flush, bind_assoc]

/-- The manifest of blocks depends only on the blocks that are not empty. -/
theorem ofBlocks_congr {bs bs' : List (List (String × String))}
    (h : bs.filter (!·.isEmpty) = bs'.filter (!·.isEmpty)) : ofBlocks bs = ofBlocks bs' := by
  simp only [ofBlocks, h]

/-- Reading blocks separated by empty lines reads each block in turn, the first error
stopping it. -/
theorem foldlM_blocks : ∀ (Bs : List (List (List Char))), Bs ≠ [] → (∀ B ∈ Bs, ∀ l ∈ B, l ≠ []) →
    ∀ bs : List (List (String × String)),
      (([[]].intercalate Bs).foldlM Reading.line ⟨bs ++ [[]], none⟩ >>= fun r =>
        r.flush >>= fun r => ofBlocks r.blocks) =
      Bs.mapM readBlock >>= fun attrs => ofBlocks (bs ++ attrs)
  | [], h, _, _ => absurd rfl h
  | [B], _, hB, bs => by
    rw [List.intercalate_singleton, ← bind_assoc, foldlM_block B (hB B List.mem_cons_self) bs []]
    cases hread : readBlock B <;> simp [List.mapM_cons, hread]
  | B :: B' :: Bs, _, hB, bs => by
    have hrest : ∀ C ∈ B' :: Bs, ∀ l ∈ C, l ≠ [] := fun C hC => hB C (List.mem_cons_of_mem _ hC)
    simp only [List.intercalate_cons_cons, List.append_assoc, List.singleton_append,
      List.foldlM_append, List.foldlM_cons, bind_assoc]
    -- the empty line after the block closes its pending line first
    rw [bind_line_nil, foldlM_block B (hB B List.mem_cons_self) bs []]
    cases hread : readBlock B with
    | error e => simp [List.mapM_cons, hread]
    | ok A =>
      rw [List.mapM_cons, hread]
      simp only [ok_bind, pure_bind, List.nil_append, bind_assoc]
      rw [line_nil (flush_none (bs ++ [A])), ok_bind,
        foldlM_blocks (B' :: Bs) (List.cons_ne_nil _ _) hrest (bs ++ [A].filter (!·.isEmpty))]
      -- an empty block leaves no trace in the manifest
      congr 1
      funext attrs
      exact ofBlocks_congr (by cases A <;> simp [List.filter_append])

theorem ne_nil_of_mem_textBlocks {text : String} {B : List (List Char)} (hB : B ∈ textBlocks text)
    {l : List Char} (hl : l ∈ B) : l ≠ [] :=
  (mem_of_mem_splitOn hB hl).2

/-- Reading a manifest reads its blocks in turn and makes the manifest of what they give. -/
theorem parse_eq_blocks (text : String) :
    parse text = (textBlocks text).mapM readBlock >>= ofBlocks := by
  have h := foldlM_blocks (textBlocks text) (List.splitOn_ne_nil _ _)
    (fun _ hB _ hl => ne_nil_of_mem_textBlocks hB hl) []
  rw [← lines_eq_intercalate] at h
  simpa [parse, lines] using h

/-! ## What a block gives -/

/-- A logical line with a colon is the attribute it stands for. -/
theorem attributeOf_eq_ok {l : List Char} (h : ':' ∈ l) : attributeOf l = .ok (attributeOfLine l) := by
  obtain ⟨c, value, hdrop⟩ : ∃ c value, l.dropWhile (· != ':') = c :: value := by
    cases hd : l.dropWhile (· != ':') with
    | nil =>
      have := List.dropWhile_eq_nil_iff.1 hd ':' h
      simp at this
    | cons c value => exact ⟨c, value, rfl⟩
  simp [attributeOf, attributeOfLine, List.span_eq_takeWhile_dropWhile, hdrop]

/-- A logical line without a colon is an error. -/
theorem attributeOf_eq_error_iff {l : List Char} : (∃ e, attributeOf l = .error e) ↔ ':' ∉ l := by
  constructor
  · rintro ⟨e, he⟩ hl
    rw [attributeOf_eq_ok hl] at he
    cases he
  · intro h
    have hdrop : l.dropWhile (· != ':') = [] := List.dropWhile_eq_nil_iff.2 fun c hc => by
      have hne : c ≠ ':' := fun hc' => h (hc' ▸ hc)
      simpa using hne
    simp [attributeOf, List.span_eq_takeWhile_dropWhile, hdrop]

/-- A block that starts with no continuation line and whose logical lines have colons reads as
the attributes of its logical lines. -/
theorem readBlock_eq_ok {b : List (List Char)} (hs : ¬ StartsContinued b)
    (hc : ∀ l ∈ (logical b).2, ':' ∈ l) : readBlock b = .ok (attributesOfBlock b) := by
  cases b with
  | nil => rfl
  | cons l ls =>
    have hnone : afterSpace? l = none := Option.not_isSome_iff_eq_none.1 (startsContinued_cons.not.1 hs)
    simp only [readBlock, hnone]
    exact mapM_eq_ok_map fun x hx => attributeOf_eq_ok (hc x hx)

/-- Reading a block fails exactly when it starts with a continuation line or one of its
logical lines has no colon. -/
theorem readBlock_eq_error_iff {b : List (List Char)} :
    (∃ e, readBlock b = .error e) ↔ StartsContinued b ∨ ∃ l ∈ (logical b).2, ':' ∉ l := by
  cases b with
  | nil => simp [readBlock, StartsContinued, logical]
  | cons l ls =>
    cases hs : afterSpace? l with
    | some rest => simp [readBlock, hs, startsContinued_cons]
    | none =>
      simp only [readBlock, hs, startsContinued_cons, Option.isSome_none, Bool.false_eq_true,
        false_or]
      rw [mapM_eq_error_iff]
      exact exists_congr fun x => and_congr_right fun _ => attributeOf_eq_error_iff

/-- A block that starts with no continuation line has attributes exactly when it has lines. -/
theorem attributesOfBlock_eq_nil_iff {b : List (List Char)} (hs : ¬ StartsContinued b) :
    attributesOfBlock b = [] ↔ b = [] := by
  cases b with
  | nil => simp [attributesOfBlock, logical]
  | cons l ls =>
    have hnone : afterSpace? l = none := Option.not_isSome_iff_eq_none.1 (startsContinued_cons.not.1 hs)
    simp [attributesOfBlock, logical_cons_of_afterSpace?_none hnone]

/-- `Name` in any case is the key that starts a section. -/
theorem sameKey_name_iff (key : String) : sameKey key "Name" = true ↔ IsNameKey key := by
  simp only [sameKey, IsNameKey, beq_iff_eq]
  rfl

instance : DecidablePred IsNameKey := fun key =>
  inferInstanceAs (Decidable (key.toList.map Char.toLower = "name".toList))

/-- A block with lines that starts with no continuation line has a first logical line. -/
theorem exists_logical_cons {b : List (List Char)} (hs : ¬ StartsContinued b) (hb : b ≠ []) :
    ∃ l ls, (logical b).2 = l :: ls := by
  cases h : (logical b).2 with
  | nil => exact absurd ((attributesOfBlock_eq_nil_iff hs).1 (by simp [attributesOfBlock, h])) hb
  | cons l ls => exact ⟨l, ls, rfl⟩

/-- The attributes of logical lines read as a section exactly when the first key is `Name`. -/
theorem sectionOf_map_attributeOfLine (l : List Char) (ls : List (List Char)) :
    sectionOf ((l :: ls).map attributeOfLine) =
      if IsNameKey (attributeOfLine l).1 then .ok (sectionOfAttributes ((l :: ls).map attributeOfLine))
      else .error ("section must start with Name, found " ++ (attributeOfLine l).1) := by
  simp only [List.map_cons, sectionOf, sameKey_name_iff]
  split <;> rfl

/-! ## Reading a text -/

/-- The manifest of blocks that all hold attributes: the first gives the main attributes, each
later one a section. -/
theorem ofBlocks_cons_of_ne_nil {A : List (String × String)} {As : List (List (String × String))}
    (h : ∀ X ∈ A :: As, X ≠ []) :
    ofBlocks (A :: As) = As.mapM sectionOf >>= fun ss => .ok ⟨A, ss⟩ := by
  have hall : (A :: As).filter (!·.isEmpty) = A :: As :=
    List.filter_eq_self.2 fun X hX => by simpa using h X hX
  simp only [ofBlocks, hall]
  rfl

theorem not_startsContinued {text : String} (h : ¬ OrphanContinuation text) :
    ∀ b ∈ textBlocks text, ¬ StartsContinued b :=
  fun b hb hs => h (orphanContinuation_iff.2 ⟨b, hb, hs⟩)

/-- With no block starting with a continuation line, the blocks that hold attributes are those
that hold lines. -/
theorem ofBlocks_map_attributesOfBlock {text : String} (h : ¬ OrphanContinuation text) :
    ofBlocks ((textBlocks text).map attributesOfBlock) =
      ofBlocks ((filledBlocks text).map attributesOfBlock) := by
  apply ofBlocks_congr
  rw [List.filter_map, List.filter_map, filledBlocks, List.filter_filter]
  congr 1
  apply List.filter_congr
  intro b hb
  have hnil := attributesOfBlock_eq_nil_iff (not_startsContinued h b hb)
  by_cases hb' : b = [] <;> simp_all

/-- The sections of the blocks after the first that holds lines, each named by its first
attribute. -/
theorem mapM_sectionOf_blocks {text : String} (h : ¬ OrphanContinuation text) :
    (((filledBlocks text).tail.map attributesOfBlock).mapM sectionOf = .ok
        ((filledBlocks text).tail.map fun b => sectionOfAttributes (attributesOfBlock b)) ↔
      ¬ UnnamedSection text) ∧
    ((∃ e, ((filledBlocks text).tail.map attributesOfBlock).mapM sectionOf = .error e) ↔
      UnnamedSection text) := by
  -- each later block holds lines and starts with no continuation line
  have hblock : ∀ b ∈ (filledBlocks text).tail, ¬ StartsContinued b ∧ b ≠ [] := by
    intro b hb
    have hmem := List.mem_filter.1 (List.mem_of_mem_tail hb)
    exact ⟨not_startsContinued h b hmem.1, by simpa using hmem.2⟩
  have herror : (∃ e, ((filledBlocks text).tail.map attributesOfBlock).mapM sectionOf = .error e) ↔
      UnnamedSection text := by
    rw [mapM_eq_error_iff]
    constructor
    · rintro ⟨_, hA, e, he⟩
      obtain ⟨b, hb, rfl⟩ := List.mem_map.1 hA
      obtain ⟨l, ls, hlog⟩ := exists_logical_cons (hblock b hb).1 (hblock b hb).2
      rw [attributesOfBlock, hlog, sectionOf_map_attributeOfLine] at he
      split at he
      · cases he
      · rename_i hname
        exact ⟨b, hb, l, by simp [hlog], hname⟩
    · rintro ⟨b, hb, l, hl, hn⟩
      obtain ⟨l', ls, hlog⟩ := exists_logical_cons (hblock b hb).1 (hblock b hb).2
      obtain rfl : l' = l := by simpa [hlog] using hl
      refine ⟨_, List.mem_map_of_mem hb, ?_⟩
      rw [attributesOfBlock, hlog, sectionOf_map_attributeOfLine, if_neg hn]
      exact ⟨_, rfl⟩
  refine ⟨⟨fun hok hu => ?_, fun hu => ?_⟩, herror⟩
  · obtain ⟨e, he⟩ := herror.2 hu
    rw [hok] at he
    cases he
  · rw [show ((filledBlocks text).tail.map fun b => sectionOfAttributes (attributesOfBlock b)) =
        ((filledBlocks text).tail.map attributesOfBlock).map sectionOfAttributes by
      rw [List.map_map]
      rfl]
    apply mapM_eq_ok_map
    intro A hA
    obtain ⟨b, hb, rfl⟩ := List.mem_map.1 hA
    obtain ⟨l, ls, hlog⟩ := exists_logical_cons (hblock b hb).1 (hblock b hb).2
    have hname : IsNameKey (attributeOfLine l).1 :=
      Classical.byContradiction fun hn => hu ⟨b, hb, l, by simp [hlog], hn⟩
    rw [attributesOfBlock, hlog, sectionOf_map_attributeOfLine, if_pos hname]

/-- Reading a manifest fails exactly when a block starts with a continuation line (a line
starting with a space that is the first line of the text or follows an empty line), a logical
line has no colon, or a block after the first block holding lines starts with a key other than
`Name` in any case. Otherwise the first block holding lines gives the main attributes and each
later one a section, each attribute the text before the first colon of its logical line,
trimmed, and the text after it without one leading space. -/
theorem parse_grammar (text : String) :
    ((∃ e, parse text = .error e) ↔
      OrphanContinuation text ∨ MissingColon text ∨ UnnamedSection text) ∧
    (¬ (OrphanContinuation text ∨ MissingColon text ∨ UnnamedSection text) →
      parse text = .ok (grammarManifest text)) := by
  rw [parse_eq_blocks]
  by_cases hblocks : OrphanContinuation text ∨ MissingColon text
  · -- some block fails, and reading stops there
    obtain ⟨e, he⟩ : ∃ e, (textBlocks text).mapM readBlock = .error e := by
      rw [mapM_eq_error_iff]
      rcases hblocks with horphan | ⟨b, hb, l, hl, hc⟩
      · obtain ⟨b, hb, hs⟩ := orphanContinuation_iff.1 horphan
        exact ⟨b, hb, readBlock_eq_error_iff.2 (.inl hs)⟩
      · exact ⟨b, hb, readBlock_eq_error_iff.2 (.inr ⟨l, hl, hc⟩)⟩
    rw [he, error_bind]
    exact ⟨⟨fun _ => hblocks.elim .inl (.inr ∘ .inl), fun _ => ⟨e, rfl⟩⟩,
      fun hn => absurd (hblocks.elim .inl (.inr ∘ .inl)) hn⟩
  · -- every block reads as the attributes of its logical lines
    have horphan : ¬ OrphanContinuation text := fun h => hblocks (.inl h)
    have hcolon : ¬ MissingColon text := fun h => hblocks (.inr h)
    have hread : (textBlocks text).mapM readBlock = .ok ((textBlocks text).map attributesOfBlock) :=
      mapM_eq_ok_map fun b hb => readBlock_eq_ok (not_startsContinued horphan b hb)
        fun l hl => Classical.byContradiction fun hc => hcolon ⟨b, hb, l, hl, hc⟩
    rw [hread, ok_bind, ofBlocks_map_attributesOfBlock horphan]
    have hsections := mapM_sectionOf_blocks horphan
    simp only [horphan, hcolon, false_or]
    unfold grammarManifest
    cases hfilled : filledBlocks text with
    | nil =>
      have hu : ¬ UnnamedSection text := by simp [UnnamedSection, hfilled]
      simp [ofBlocks, hu]
    | cons main rest =>
      simp only [hfilled, List.tail_cons] at hsections
      -- every block holding lines holds attributes
      have hfull : ∀ A ∈ (main :: rest).map attributesOfBlock, A ≠ [] := by
        intro A hA
        obtain ⟨b, hb, rfl⟩ := List.mem_map.1 hA
        have hmem := List.mem_filter.1 (hfilled ▸ hb : b ∈ filledBlocks text)
        exact (attributesOfBlock_eq_nil_iff (not_startsContinued horphan b hmem.1)).not.2
          (by simpa using hmem.2)
      rw [List.map_cons, ofBlocks_cons_of_ne_nil hfull]
      by_cases hu : UnnamedSection text
      · obtain ⟨e, he⟩ := hsections.2.2 hu
        simp [he, hu]
      · simp [hsections.1.2 hu, hu]

/-- A continued value, a blank line and a named section, read as the grammar says. -/
example :
    grammarManifest "Manifest-Version: 1.0\r\nX: a\r\n b\r\n\r\nname: s\r\nY: 2\r\n" =
      ⟨[("Manifest-Version", "1.0"), ("X", "ab")], [⟨"s", [("Y", "2")]⟩]⟩ := by
  decide +kernel

end JarDeploy.Manifest
