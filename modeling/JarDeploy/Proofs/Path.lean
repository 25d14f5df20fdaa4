import Mathlib.Tactic.SplitIfs
import JarDeploy.Path

/-!
# Components of paths

A path's components come from the pieces of its text between separators: empty pieces and
`.` pieces drop out (a `.` in first place of a relative path stays as the current
directory), `..` is the parent and every other piece a name. Following a path by one
name, one that is not empty, not `.` or `..` and holds no separator, adds exactly that
name as a last component, whatever separators the path's text ends with.

A path without `..` components is plain: the names it walks are its components, in order,
after a leading current directory or root. The extension of a name written with a dot
before a last part without dots is that last part.
-/

namespace JarDeploy

set_option autoImplicit false

/-! ## Strings -/

theorem endsWith_iff_suffix {s t : String} : s.endsWith t = true ↔ t.toList <:+ s.toList := by
  rw [String.endsWith, String.Slice.endsWith_string_iff, String.copy_toSlice]

@[simp] theorem endsWith_append_self (s t : String) : (s ++ t).endsWith t = true := by
  rw [endsWith_iff_suffix, String.toList_append]
  exact List.suffix_append _ _

theorem startsWith_slash_append {s t : String} (h : s ≠ "") :
    (s ++ t).startsWith "/" = s.startsWith "/" := by
  obtain ⟨x, xs, hx⟩ := List.exists_cons_of_ne_nil (by simpa using h : s.toList ≠ [])
  apply Bool.eq_iff_iff.2
  simp [hx]

theorem ne_empty_of_endsWith_jar {n : String} (h : n.endsWith ".jar" = true) : n ≠ "" := by
  rintro rfl
  rw [endsWith_iff_suffix] at h
  simpa using h.length_le

instance : LawfulBEq PathPart where
  eq_of_beq {a b} h := by
    cases a <;> cases b <;> first | rfl | (simp only [reduceCtorEq]; cases h) | skip
    rename_i n m
    have : (n == m) = true := h
    rw [eq_of_beq this]
  rfl {a} := by
    cases a <;> first | rfl | exact beq_self_eq_true (α := String) _

namespace Path

/-- A name that is one component of a path: not empty, not `.` or `..`, without separator. -/
def GoodName (n : String) : Prop := n ≠ "" ∧ n ≠ "." ∧ n ≠ ".." ∧ '/' ∉ n.toList

/-- The pieces of a text between separators. -/
def pieces (s : String) : List String := (s.toList.splitOn '/').map String.ofList

/-- The component a piece of a path stands for, if any, given its position. -/
def pieceAt (abs : Bool) : String × Nat → Option PathPart := fun (s, i) =>
  if s.isEmpty then none
  else if s == "." then (if i == 0 && !abs then some PathPart.current else none)
  else if s == ".." then some .parent
  else some (.name s)

/-- The names a path walks through, in order. -/
def names (p : Path) : List String :=
  p.parts.filterMap fun
    | .name n => some n
    | _ => none

/-- A path that never steps back to a parent. -/
def Plain (p : Path) : Prop := PathPart.parent ∉ p.parts

instance (p : Path) : Decidable p.Plain := inferInstanceAs (Decidable (_ ∉ _))

theorem parts_eq (p : Path) :
    p.parts = (if p.isAbsolute then [.root] else []) ++
      (pieces p.text).zipIdx.filterMap (pieceAt p.isAbsolute) := rfl

/-! ## Following a path by a name -/

theorem pieces_append_name (s n : String) (hn : '/' ∉ n.toList) :
    pieces (s ++ "/" ++ n) = pieces s ++ [n] := by
  have h : (s ++ "/" ++ n).toList = s.toList ++ '/' :: n.toList := by simp
  rw [pieces, h, List.splitOn_append_cons_self, List.splitOn_eq_singleton hn, List.map_append]
  simp [pieces]

theorem filterMap_pieceAt_append_name (abs : Bool) (ps : List String) {n : String}
    (hn : GoodName n) :
    (ps ++ [n]).zipIdx.filterMap (pieceAt abs) = ps.zipIdx.filterMap (pieceAt abs) ++ [.name n] := by
  obtain ⟨h₁, h₂, h₃, -⟩ := hn
  rw [List.zipIdx_append, List.filterMap_append]
  simp [pieceAt, h₁, h₂, h₃]

theorem filterMap_pieceAt_append_empty (abs : Bool) (ps : List String) :
    (ps ++ [""]).zipIdx.filterMap (pieceAt abs) = ps.zipIdx.filterMap (pieceAt abs) := by
  rw [List.zipIdx_append, List.filterMap_append]
  simp [pieceAt]

theorem isAbsolute_name {n : String} (hn : '/' ∉ n.toList) : (⟨n⟩ : Path).isAbsolute = false := by
  rw [isAbsolute, Bool.eq_false_iff]
  intro h
  have hpre : ['/'] <+: n.toList := by simpa using h
  exact hn (hpre.subset (List.mem_singleton_self _))

/-- Following a path by a name adds the name to its components. -/
theorem parts_push (p : Path) {n : String} (hn : GoodName n) :
    (p.push n).parts = p.parts ++ [.name n] := by
  have habs := isAbsolute_name hn.2.2.2
  by_cases he : p.text.isEmpty = true
  · have hp : p.text = "" := by simpa using he
    have hpush : p.push n = ⟨n⟩ := by simp [push, join, habs, hp]
    rw [hpush, parts_eq, parts_eq, habs, hp]
    have hpn : pieces n = [] ++ [n] := by
      rw [pieces, List.splitOn_eq_singleton hn.2.2.2]
      simp
    rw [hpn, filterMap_pieceAt_append_name _ _ hn]
    simp [pieces, isAbsolute, hp, pieceAt]
  · have hne : p.text ≠ "" := by simpa using he
    by_cases hs : p.text.endsWith "/" = true
    · obtain ⟨l, hl⟩ := endsWith_iff_suffix.1 hs
      have hpush : p.push n = ⟨p.text ++ n⟩ := by simp [push, join, habs, he, hs]
      have habs' : (⟨p.text ++ n⟩ : Path).isAbsolute = p.isAbsolute := startsWith_slash_append hne
      have hl' : p.text.toList = l ++ ['/'] := by simpa using hl.symm
      -- the separator at the end of the path leaves an empty last piece
      have hp : pieces p.text = pieces (String.ofList l) ++ [""] := by
        simp [pieces, hl', List.splitOn_append_cons_self]
      have hpn : pieces (p.text ++ n) = pieces (String.ofList l) ++ [n] := by
        have h : (p.text ++ n).toList = l ++ '/' :: n.toList := by simp [hl']
        rw [pieces, h, List.splitOn_append_cons_self, List.splitOn_eq_singleton hn.2.2.2]
        simp [pieces]
      rw [hpush, parts_eq, habs', hpn, filterMap_pieceAt_append_name _ _ hn, parts_eq p, hp,
        filterMap_pieceAt_append_empty, List.append_assoc]
    · have hpush : p.push n = ⟨p.text ++ "/" ++ n⟩ := by simp [push, join, habs, he, hs]
      have habs' : (⟨p.text ++ "/" ++ n⟩ : Path).isAbsolute = p.isAbsolute := by
        simp only [isAbsolute]
        rw [String.append_assoc]
        exact startsWith_slash_append hne
      rw [hpush, parts_eq, habs', pieces_append_name _ _ hn.2.2.2, filterMap_pieceAt_append_name _ _ hn,
        parts_eq p, List.append_assoc]

variable {p : Path} {n : String}

@[simp] theorem names_push (p : Path) (hn : GoodName n) : (p.push n).names = p.names ++ [n] := by
  simp [names, parts_push p hn]

@[simp] theorem plain_push (p : Path) (hn : GoodName n) : (p.push n).Plain ↔ p.Plain := by
  simp [Plain, parts_push p hn]

@[simp] theorem fileName?_push (p : Path) (hn : GoodName n) : (p.push n).fileName? = some n := by
  simp [fileName?, parts_push p hn]

theorem extension?_push (p : Path) (hn : GoodName n) : (p.push n).extension? = extensionOf n := by
  simp [extension?, fileName?_push p hn]

/-- Paths whose components differ in number are not the same. -/
theorem same_eq_false {a b : Path} (h : a.parts.length ≠ b.parts.length) : a.same b = false := by
  rw [same, Bool.eq_false_iff]
  intro hab
  exact h (congrArg List.length (eq_of_beq hab))

/-- Adding to the last name of a path adds to its text. -/
theorem push_append (p : Path) {n : String} (e : String) (h : n ≠ "") :
    (⟨(p.push n).text ++ e⟩ : Path) = p.push (n ++ e) := by
  simp only [Path.push, Path.join, Path.isAbsolute, startsWith_slash_append h]
  by_cases h₁ : n.startsWith "/" = true <;> by_cases h₂ : p.text.isEmpty = true <;>
    by_cases h₃ : p.text.endsWith "/" = true <;> simp [h₁, h₂, h₃, String.append_assoc]

/-! ## Plain relative paths -/

theorem pieceAt_ne_root {abs : Bool} {s : String} {i : Nat} : pieceAt abs (s, i) ≠ some .root := by
  simp only [pieceAt]
  split_ifs <;> simp

theorem pieceAt_succ_ne_current {abs : Bool} {s : String} {i : Nat} :
    pieceAt abs (s, i + 1) ≠ some .current := by
  simp only [pieceAt]
  split_ifs <;> simp_all

/-- The components of a plain relative path past its first piece are all names. -/
theorem eq_name_of_mem_tail {ps : List String} {x : PathPart}
    (hx : x ∈ (ps.zipIdx 1).filterMap (pieceAt false)) (hp : x ≠ .parent) : ∃ m, x = .name m := by
  obtain ⟨⟨s, i⟩, hmem, hs⟩ := List.mem_filterMap.1 hx
  have hi : 1 ≤ i := (List.mem_zipIdx hmem).1
  obtain ⟨j, rfl⟩ : ∃ j, i = j + 1 := ⟨i - 1, by omega⟩
  cases x with
  | root => exact absurd hs pieceAt_ne_root
  | current => exact absurd hs pieceAt_succ_ne_current
  | parent => exact absurd rfl hp
  | name m => exact ⟨m, rfl⟩

theorem map_name_filterMap {xs : List PathPart} (h : ∀ x ∈ xs, ∃ m, x = .name m) :
    (xs.filterMap fun | .name n => some n | _ => none).map PathPart.name = xs := by
  induction xs with
  | nil => rfl
  | cons x xs ih =>
    obtain ⟨m, rfl⟩ := h x List.mem_cons_self
    simp [ih fun y hy => h y (List.mem_cons_of_mem _ hy)]

/-- A plain relative path is its names, possibly after the current directory. -/
theorem parts_of_plain (ha : p.isAbsolute = false) (hp : p.Plain) :
    p.parts = p.names.map .name ∨ p.parts = .current :: p.names.map .name := by
  have hparts : p.parts = (pieces p.text).zipIdx.filterMap (pieceAt false) := by
    rw [parts_eq, ha]
    rfl
  rw [names, hparts]
  rw [Plain, hparts] at hp
  cases hps : pieces p.text with
  | nil => exact .inl rfl
  | cons s rest =>
    rw [hps] at hp
    simp only [List.zipIdx_cons, List.filterMap_cons] at hp ⊢
    -- past the first piece every component is a name, since the path is plain
    have htail : ∀ x ∈ (rest.zipIdx 1).filterMap (pieceAt false), ∃ m, x = .name m := by
      intro x hx
      refine eq_name_of_mem_tail hx fun hpar => hp ?_
      split at hp <;> simp_all
    cases h0 : pieceAt false (s, 0) with
    | none => exact .inl (map_name_filterMap htail).symm
    | some x =>
      cases x with
      | root => exact absurd h0 pieceAt_ne_root
      | current => exact .inr (by simp [map_name_filterMap htail])
      | parent => simp [h0] at hp
      | name m => exact .inl (by simp [map_name_filterMap htail])

/-! ## Extensions -/

theorem ne_dotdot_of_append_dot {s e : String} (he : e ≠ "") (hdot : '.' ∉ e.toList) :
    s ++ "." ++ e ≠ ".." := by
  intro h
  have hl := congrArg (fun t : String => t.toList.getLast?) h
  obtain ⟨c, cs, hc⟩ := List.exists_cons_of_ne_nil (by simpa using he : e.toList ≠ [])
  have hlast : (c :: cs).getLast? = some '.' := by simpa [hc] using hl
  exact hdot (hc ▸ List.mem_of_getLast? hlast)

/-- A name with a last part after a dot, and something before that dot, has that last part
as its extension. -/
theorem extensionOf_append_dot {s e : String} (hs : s ≠ "") (he : e ≠ "") (hdot : '.' ∉ e.toList) :
    extensionOf (s ++ "." ++ e) = some e := by
  have hsplit : (((s ++ "." ++ e).toList.splitOn '.').map String.ofList).reverse =
      e :: ((s.toList.splitOn '.').map String.ofList).reverse := by
    have h : (s ++ "." ++ e).toList = s.toList ++ '.' :: e.toList := by simp
    rw [h, List.splitOn_append_cons_self, List.splitOn_eq_singleton hdot]
    simp
  obtain ⟨x, xs, hx⟩ := List.exists_cons_of_ne_nil
    (by simp [List.splitOn_ne_nil] :
      ((s.toList.splitOn '.').map String.ofList).reverse ≠ [])
  -- what stands before the last dot is `s` itself, which is not empty
  have hstem : (".".intercalate (x :: xs).reverse).isEmpty = false := by
    rw [← hx, List.reverse_reverse, Bool.eq_false_iff]
    intro hemp
    have := congrArg String.toList (String.isEmpty_iff.1 hemp)
    simp [Function.comp_def] at this
    exact hs (String.toList_inj.1 (by simpa using this))
  rw [extensionOf, if_neg (by simpa using ne_dotdot_of_append_dot he hdot), hsplit, hx]
  simp only [hstem]
  rfl


/-! ## Where a path leads -/

/-- One component read from a place, as the disk walks it: a name goes down into it, `..`
goes up (never above the start), `.` stays, and the root starts over. -/
def descend (here : List String) : PathPart → List String
  | .root => []
  | .current => here
  | .parent => here.dropLast
  | .name n => here ++ [n]

/-- Where a path leads, read lexically: whether it starts at the root, and the names below
where it starts. -/
def location (p : Path) : Bool × List String := (p.isAbsolute, p.parts.foldl descend [])

/-- `p` lies inside `q`, or is `q`. -/
def Inside (p q : Path) : Prop := p.location.1 = q.location.1 ∧ q.location.2 <+: p.location.2

/-- `p` is an entry of the directory `q`: one name below it. -/
def EntryOf (p q : Path) : Prop :=
  ∃ n, GoodName n ∧ p.location = (q.location.1, q.location.2 ++ [n])

/-- One piece of a path's text read from a place. -/
def descendPiece (here : List String) (s : String) : List String :=
  if s = "" ∨ s = "." then here else if s = ".." then here.dropLast else here ++ [s]

theorem foldl_descend_pieces (abs : Bool) :
    ∀ (ps : List String) (k : Nat) (here : List String),
      ((ps.zipIdx k).filterMap (pieceAt abs)).foldl descend here = ps.foldl descendPiece here
  | [], _, _ => rfl
  | s :: ps, k, here => by
    rw [List.zipIdx_cons, List.filterMap_cons, List.foldl_cons, ← foldl_descend_pieces abs ps (k + 1)]
    -- each piece goes down, up or nowhere, whatever its position
    by_cases he : s = ""
    · simp [pieceAt, he, descendPiece]
    by_cases hd : s = "."
    · by_cases hk : (k == 0 && !abs) = true <;> simp [pieceAt, hd, hk, descendPiece, descend]
    by_cases hp : s = ".."
    · simp [pieceAt, hp, descendPiece, descend]
    · simp [pieceAt, he, hd, hp, descendPiece, descend]

theorem location_eq (p : Path) : p.location = (p.isAbsolute, (pieces p.text).foldl descendPiece []) := by
  rw [location, parts_eq]
  cases p.isAbsolute <;> simp [foldl_descend_pieces, descend]

theorem foldl_descendPiece_of_not_mem :
    ∀ (ps : List String) (here : List String), ".." ∉ ps →
      ps.foldl descendPiece here = here ++ ps.foldl descendPiece []
  | [], _, _ => by simp
  | s :: ps, here, h => by
    have hs : s ≠ ".." := fun e => h (e ▸ List.mem_cons_self)
    have hps : ".." ∉ ps := fun e => h (List.mem_cons_of_mem _ e)
    rw [List.foldl_cons, List.foldl_cons, foldl_descendPiece_of_not_mem ps _ hps,
      foldl_descendPiece_of_not_mem ps (descendPiece [] s) hps]
    by_cases he : s = "" ∨ s = "." <;> simp [descendPiece, he, hs]

theorem pieces_join (s t : String) : pieces (s ++ "/" ++ t) = pieces s ++ pieces t := by
  have h : (s ++ "/" ++ t).toList = s.toList ++ '/' :: t.toList := by simp
  rw [pieces, h, List.splitOn_append_cons_self, List.map_append]
  rfl

@[simp] theorem pieces_empty : pieces "" = [""] := rfl

theorem dotdot_not_mem_pieces (hp : p.Plain) : ".." ∉ pieces p.text := by
  intro h
  obtain ⟨i, hi, he⟩ := List.mem_iff_getElem.1 h
  refine hp ?_
  rw [parts_eq]
  refine List.mem_append_right _ (List.mem_filterMap.2 ⟨((pieces p.text)[i], i), ?_, ?_⟩)
  · exact List.mem_zipIdx_iff_getElem?.2 (by simp [hi])
  · simp [pieceAt, he]

/-- Joining a relative path that never steps back leads below where the base leads. -/
theorem location_join (p : Path) {q : Path} (hq : q.isAbsolute = false) (hp : q.Plain) :
    (p.join q).location = (p.location.1, p.location.2 ++ q.location.2) := by
  have hq' := dotdot_not_mem_pieces hp
  by_cases he : p.text.isEmpty = true
  · have ht : p.text = "" := by simpa using he
    have habs : p.isAbsolute = false := by simp [isAbsolute, ht]
    simp [join, hq, location_eq, ht, habs, descendPiece]
  have hne : p.text ≠ "" := by simpa using he
  by_cases hs : p.text.endsWith "/" = true
  · obtain ⟨l, hl⟩ := endsWith_iff_suffix.1 hs
    have hl' : p.text = String.ofList l ++ "/" := by
      apply String.toList_inj.1
      simp [← hl]
    have hjoin : p.join q = ⟨p.text ++ q.text⟩ := by simp [join, hq, he, hs]
    have habs : (⟨p.text ++ q.text⟩ : Path).isAbsolute = p.isAbsolute := startsWith_slash_append hne
    -- the separator that ends the base leaves an empty last piece, read as nothing
    have hpieces : pieces p.text = pieces (String.ofList l) ++ [""] := by
      rw [hl', show String.ofList l ++ "/" = String.ofList l ++ "/" ++ "" by simp, pieces_join, pieces_empty]
    rw [hjoin, location_eq, location_eq p, location_eq q, habs, hl', pieces_join, List.foldl_append,
      foldl_descendPiece_of_not_mem _ _ hq', ← hl', hpieces, List.foldl_append]
    simp [descendPiece]
  · have hjoin : p.join q = ⟨p.text ++ "/" ++ q.text⟩ := by simp [join, hq, he, hs]
    have habs : (⟨p.text ++ "/" ++ q.text⟩ : Path).isAbsolute = p.isAbsolute := by
      simp only [isAbsolute]
      rw [String.append_assoc]
      exact startsWith_slash_append hne
    rw [hjoin, location_eq, location_eq p, location_eq q, habs, pieces_join, List.foldl_append,
      foldl_descendPiece_of_not_mem _ _ hq']

theorem location_name {n : String} (hn : GoodName n) : (⟨n⟩ : Path).location = (false, [n]) := by
  rw [location_eq, isAbsolute_name hn.2.2.2, pieces, List.splitOn_eq_singleton hn.2.2.2]
  simp [descendPiece, hn.1, hn.2.1, hn.2.2.1]

theorem plain_name {n : String} (hn : GoodName n) : (⟨n⟩ : Path).Plain := by
  have h := parts_push (⟨""⟩ : Path) hn
  have hpush : (⟨""⟩ : Path).push n = ⟨n⟩ := by simp [push, join, isAbsolute_name hn.2.2.2]
  rw [hpush] at h
  simp [Plain, h, parts_eq, pieces, isAbsolute, pieceAt]

/-- Following a path by a name leads one name further down. -/
theorem location_push (p : Path) (hn : GoodName n) :
    (p.push n).location = (p.location.1, p.location.2 ++ [n]) := by
  rw [push, location_join p (isAbsolute_name hn.2.2.2) (plain_name hn), location_name hn]

theorem entryOf_push (p : Path) (hn : GoodName n) : (p.push n).EntryOf p :=
  ⟨n, hn, location_push p hn⟩

theorem inside_join (p : Path) {q : Path} (hq : q.isAbsolute = false) (hp : q.Plain) :
    (p.join q).Inside p := by
  rw [Inside, location_join p hq hp]
  exact ⟨rfl, List.prefix_append _ _⟩

theorem Inside.refl (p : Path) : p.Inside p := ⟨rfl, List.prefix_refl _⟩

theorem EntryOf.inside {q : Path} (h : p.EntryOf q) : p.Inside q := by
  obtain ⟨n, -, hl⟩ := h
  rw [Inside, hl]
  exact ⟨rfl, List.prefix_append _ _⟩

/-- Two entries of one directory under different names: neither lies inside the other. -/
theorem not_inside_of_entryOf {q q' d : Path} {n n' : String} (hn : n ≠ n')
    (h : q.location = (d.location.1, d.location.2 ++ [n]))
    (h' : q'.location = (d.location.1, d.location.2 ++ [n'])) : ¬ q.Inside q' := by
  rintro ⟨-, hpre⟩
  rw [h, h'] at hpre
  have := (hpre.eq_of_length (by simp)).symm
  simp_all

/-- An entry of a directory inside `F` never lies inside an entry of a directory `W`, when
`F` and `W` are not one inside the other. -/
theorem not_inside_entries {p q L F W : Path} (hp : p.EntryOf L) (hL : L.Inside F) (hq : q.EntryOf W)
    (hWF : ¬ W.Inside F) (hFW : ¬ F.Inside W) : ¬ p.Inside q := by
  rintro ⟨hflag, hpre⟩
  obtain ⟨n, -, hpl⟩ := hp
  obtain ⟨m, -, hql⟩ := hq
  rw [hpl, hql] at hpre
  simp only [hpl, hql] at hflag
  -- `W`'s names lead to the entry's directory `L`, as `F`'s do; so one of them leads into the other
  have hW : W.location.2 <+: L.location.2 :=
    List.prefix_of_prefix_length_le ((List.prefix_append _ _).trans hpre) (List.prefix_append _ _)
      (by simpa using hpre.length_le)
  rcases List.prefix_or_prefix_of_prefix hW hL.2 with h | h
  · exact hFW ⟨hL.1.symm.trans hflag, h⟩
  · exact hWF ⟨hflag.symm.trans hL.1, h⟩

end Path

end JarDeploy
