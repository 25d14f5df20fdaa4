import Mathlib.Data.Set.Insert
import JarDeploy.Disk
import JarDeploy.Proofs.Path

/-!
# What the disk operations change

A disk is seen through two views of each place: the bytes of the file there, if any, and
whether a directory is there. `Disk.Keeps B D d d'` says that `d'` differs from `d` at
most in the bytes at places `B` and the directories at places `D`: elsewhere every file
holds the same bytes and every directory is still there.

Each operation that succeeds keeps everything but its footprint: writing or copying a
file changes only the bytes at its place (and removes no directory); creating
directories, stamping a file or a directory changes no bytes and removes no directory;
removing a tree changes only the places under its root.

A plain relative path leads to the place of its names exactly when every proper prefix of
that place is a directory; reading it then gives the bytes of the file there. So what a
file holds survives every step whose footprint misses it and the directories above it.
-/

namespace JarDeploy.Disk

set_option autoImplicit false

variable {d d' d'' : Disk} {pl q : Place}

/-! ## Nodes at places -/

/-- The bytes of the file at a place, if a file is there. -/
def bytesAt (d : Disk) (pl : Place) : Option ByteArray :=
  match d.get? pl with
  | some (.file data _) => some data
  | _ => none

/-- Is there a directory at a place? -/
def hasDir (d : Disk) (pl : Place) : Bool :=
  match d.get? pl with
  | some (.dir _) => true
  | _ => false

/-- Every proper prefix of the place is a directory, so a walk reaches the place. -/
def DirsTo (d : Disk) (pl : Place) : Prop := ∀ k < pl.length, d.hasDir (pl.take k) = true

@[simp] theorem get?_nil (d : Disk) : d.get? [] = some (.dir 0) := rfl

@[simp] theorem hasDir_nil (d : Disk) : d.hasDir [] = true := rfl

theorem get?_of_ne_nil (d : Disk) (h : pl ≠ []) :
    d.get? pl = (d.entries.find? (·.1 == pl)).map (·.2) := by
  simp [get?, h]

theorem get?_put_self (d : Disk) (n : Node) (h : pl ≠ []) : (d.put pl n).get? pl = some n := by
  rw [get?_of_ne_nil _ h, put]
  split
  · rename_i hany
    obtain ⟨e, he, hpl⟩ := List.any_eq_true.1 hany
    have hfind : (d.entries.find? fun e => e.1 == pl).isSome := List.find?_isSome.2 ⟨e, he, hpl⟩
    obtain ⟨e', he'⟩ := Option.isSome_iff_exists.1 hfind
    have hkey := List.find?_some he'
    have hcomp : ((fun e : Place × Node => e.1 == pl) ∘ fun e => if e.1 == pl then (pl, n) else e) =
        fun e => e.1 == pl := by
      funext e
      by_cases hk : (e.1 == pl) = true <;> simp_all
    rw [List.find?_map, hcomp, he']
    simp [beq_iff_eq.1 hkey]
  · rename_i hany
    have hnone : (d.entries.find? fun e => e.1 == pl) = none :=
      List.find?_eq_none.2 fun e he hk => hany (List.any_eq_true.2 ⟨e, he, hk⟩)
    simp [hnone]

theorem get?_put_of_ne (d : Disk) (n : Node) (h : q ≠ pl) : (d.put pl n).get? q = d.get? q := by
  by_cases hq : q = []
  · subst hq
    rfl
  rw [get?_of_ne_nil _ hq, get?_of_ne_nil _ hq, put]
  split
  · -- replacing the entries at `pl` leaves those at `q` where they were
    have hcomp : ((fun e : Place × Node => e.1 == q) ∘ fun e => if e.1 == pl then (pl, n) else e) =
        fun e => e.1 == q := by
      funext e
      by_cases hk : e.1 = pl
      · simp [hk]
      · simp [hk]
    rw [List.find?_map, hcomp, Option.map_map]
    cases hf : d.entries.find? (·.1 == q) with
    | none => rfl
    | some e =>
      have hkey : e.1 = q := by simpa using List.find?_some hf
      simp [hkey, h]
  · simp [List.find?_append, Ne.symm h]

theorem get?_removeTree_of_not_prefix (d : Disk) (h : ¬ pl <+: q) :
    (d.removeTree pl).get? q = d.get? q := by
  by_cases hq : q = []
  · subst hq
    rfl
  rw [get?_of_ne_nil _ hq, get?_of_ne_nil _ hq, removeTree, List.find?_filter]
  congr 2
  funext e
  by_cases hk : e.1 = q
  · have hpre : pl.isPrefixOf q = false := Bool.eq_false_iff.2 fun h' => h (List.isPrefixOf_iff_prefix.1 h')
    simp [hk, within, hpre]
  · simp [hk]

theorem bytesAt_put_of_ne (d : Disk) (n : Node) (h : q ≠ pl) : (d.put pl n).bytesAt q = d.bytesAt q := by
  simp [bytesAt, get?_put_of_ne _ _ h]

theorem hasDir_put_of_ne (d : Disk) (n : Node) (h : q ≠ pl) : (d.put pl n).hasDir q = d.hasDir q := by
  simp [hasDir, get?_put_of_ne _ _ h]

/-- Stamping a directory changes neither bytes nor directories. -/
theorem get?_touchDir (d : Disk) (pl : Place) (t : Nat) (q : Place) :
    (d.touchDir pl t).get? q = d.get? q ∨
      (q = pl ∧ ∃ t₀, d.get? q = some (.dir t₀) ∧ (d.touchDir pl t).get? q = some (.dir t)) := by
  unfold touchDir
  split
  · rename_i t₀ hdir
    split
    · exact .inl rfl
    · rename_i hne
      by_cases hq : q = pl
      · subst hq
        exact .inr ⟨rfl, t₀, hdir, get?_put_self _ _ (by simpa using hne)⟩
      · exact .inl (get?_put_of_ne _ _ hq)
  · exact .inl rfl

@[simp] theorem bytesAt_touchDir (d : Disk) (pl : Place) (t : Nat) (q : Place) :
    (d.touchDir pl t).bytesAt q = d.bytesAt q := by
  rcases get?_touchDir d pl t q with h | ⟨-, t₀, h₀, h₁⟩
  · simp [bytesAt, h]
  · simp [bytesAt, h₀, h₁]

@[simp] theorem hasDir_touchDir (d : Disk) (pl : Place) (t : Nat) (q : Place) :
    (d.touchDir pl t).hasDir q = d.hasDir q := by
  rcases get?_touchDir d pl t q with h | ⟨-, t₀, h₀, h₁⟩
  · simp [hasDir, h]
  · simp [hasDir, h₀, h₁]

/-! ## Footprints -/

/-- `d'` differs from `d` at most in the bytes at `B` and the directories at `D`. -/
structure Keeps (B D : Set Place) (d d' : Disk) : Prop where
  bytes : ∀ pl ∉ B, d'.bytesAt pl = d.bytesAt pl
  dirs : ∀ pl ∉ D, d.hasDir pl = true → d'.hasDir pl = true

namespace Keeps

variable {B D B' D' : Set Place}

@[refl] theorem refl (B D : Set Place) (d : Disk) : Keeps B D d d :=
  ⟨fun _ _ => rfl, fun _ _ h => h⟩

theorem trans (h : Keeps B D d d') (h' : Keeps B D d' d'') : Keeps B D d d'' :=
  ⟨fun pl hb => (h'.bytes pl hb).trans (h.bytes pl hb),
    fun pl hd hdir => h'.dirs pl hd (h.dirs pl hd hdir)⟩

theorem mono (h : Keeps B D d d') (hB : B ⊆ B') (hD : D ⊆ D') : Keeps B' D' d d' :=
  ⟨fun pl hb => h.bytes pl fun h => hb (hB h), fun pl hd => h.dirs pl fun h => hd (hD h)⟩

/-- A place walked to stays walkable when no directory above it is in the footprint. -/
theorem dirsTo (h : Keeps B D d d') (hpl : d.DirsTo pl) (hD : ∀ k < pl.length, pl.take k ∉ D) :
    d'.DirsTo pl :=
  fun k hk => h.dirs _ (hD k hk) (hpl k hk)

end Keeps

theorem keeps_touchDir (d : Disk) (pl : Place) (t : Nat) : Keeps ∅ ∅ d (d.touchDir pl t) :=
  ⟨fun q _ => bytesAt_touchDir d pl t q, fun q _ h => by rw [hasDir_touchDir]; exact h⟩

/-- Putting a node where no directory is changes only the bytes there. -/
theorem keeps_put (d : Disk) (n : Node) (h : d.hasDir pl = false) : Keeps {pl} ∅ d (d.put pl n) := by
  refine ⟨fun q hq => bytesAt_put_of_ne _ _ hq, fun q _ hdir => ?_⟩
  by_cases hq : q = pl
  · subst hq
    rw [h] at hdir
    cases hdir
  · rw [hasDir_put_of_ne _ _ hq]
    exact hdir

theorem keeps_removeTree (d : Disk) (pl : Place) :
    Keeps {q | pl <+: q} {q | pl <+: q} d (d.removeTree pl) := by
  refine ⟨fun q hq => ?_, fun q hq hdir => ?_⟩
  · simp [bytesAt, get?_removeTree_of_not_prefix d hq]
  · simpa [hasDir, get?_removeTree_of_not_prefix d hq] using hdir

/-! ## Walking to a place -/

theorem walk_eq_none_iff (d : Disk) (done : Place) (ns : List String) :
    d.walk done ns = none ↔ ∀ k < ns.length, d.hasDir (done ++ ns.take (k + 1)) = true := by
  induction ns generalizing done with
  | nil => simp [walk]
  | cons n ns ih =>
    rw [List.length_cons, Nat.forall_lt_succ_left]
    simp only [walk, List.take_succ_cons, List.take_zero]
    cases hg : d.get? (done ++ [n]) with
    | none => simp [hasDir, hg]
    | some node =>
      cases node with
      | file data t => simp [hasDir, hg]
      | dir t =>
        have hdir : d.hasDir (done ++ [n]) = true := by simp [hasDir, hg]
        simp only [ih, List.append_assoc, List.singleton_append] at *
        simp [hdir]

theorem walk_dropLast_eq_none_iff (d : Disk) (pl : Place) :
    d.walk [] pl.dropLast = none ↔ d.DirsTo pl := by
  rw [walk_eq_none_iff, DirsTo]
  cases pl with
  | nil => simp
  | cons x xs =>
    rw [List.length_cons, Nat.forall_lt_succ_left]
    simp only [List.nil_append, List.length_dropLast, List.length_cons, Nat.add_sub_cancel,
      List.take_zero, hasDir_nil, true_and]
    -- the prefixes of the place without its last name are its proper prefixes
    refine forall_congr' fun k => forall_congr' fun hk => ?_
    rw [List.dropLast_eq_take, List.take_take]
    simp only [List.length_cons, Nat.add_sub_cancel]
    rw [Nat.min_eq_left (by omega)]

theorem walk_eq_some {done : Place} {ns : List String} {f : Found} (h : d.walk done ns = some f) :
    f = .throughFile ∨ f = .noParent := by
  induction ns generalizing done with
  | nil => cases h
  | cons n ns ih =>
    simp only [walk] at h
    split at h
    · exact ih h
    · exact .inl (Option.some.inj h).symm
    · exact .inr (Option.some.inj h).symm

theorem find_of_dirsTo (h : d.DirsTo pl) :
    d.find pl = match d.get? pl with
      | some n => .node n
      | none => .absent := by
  have hw := (walk_dropLast_eq_none_iff d pl).2 h
  cases hg : d.get? pl <;> simp [find, hw, hg]

/-- A walk that ends at a node or at a free place went through directories. -/
theorem dirsTo_of_find {f : Found} (h : d.find pl = f) (hf : f ≠ .throughFile ∧ f ≠ .noParent) :
    d.DirsTo pl ∧ d.find pl = match d.get? pl with
      | some n => .node n
      | none => .absent := by
  have hwalk : d.walk [] pl.dropLast = none := by
    cases hw : d.walk [] pl.dropLast with
    | none => rfl
    | some g =>
      rw [find, hw] at h
      rcases walk_eq_some hw with rfl | rfl
      · exact absurd h.symm hf.1
      · exact absurd h.symm hf.2
  have hdirs := (walk_dropLast_eq_none_iff d pl).1 hwalk
  exact ⟨hdirs, find_of_dirsTo hdirs⟩

theorem find_eq_node {n : Node} (h : d.find pl = .node n) : d.DirsTo pl ∧ d.get? pl = some n := by
  obtain ⟨hdirs, hfind⟩ := dirsTo_of_find h ⟨nofun, nofun⟩
  refine ⟨hdirs, ?_⟩
  rw [h] at hfind
  split at hfind <;> simp_all

theorem find_eq_absent (h : d.find pl = .absent) : d.DirsTo pl ∧ d.get? pl = none := by
  obtain ⟨hdirs, hfind⟩ := dirsTo_of_find h ⟨nofun, nofun⟩
  refine ⟨hdirs, ?_⟩
  rw [h] at hfind
  split at hfind <;> simp_all

/-- Walking names from a directory reaches the place of those names when every proper
prefix below the directory is a directory. -/
theorem walkParts_names (d : Disk) (here : Place) (ns : List String) (pl : Place) :
    d.walkParts here (ns.map .name) = .ok pl ↔
      pl = here ++ ns ∧ ∀ k, k + 1 < ns.length → d.hasDir (here ++ ns.take (k + 1)) = true := by
  induction ns generalizing here with
  | nil =>
    simp only [List.map_nil, walkParts, Except.ok.injEq, List.append_nil, List.length_nil]
    exact ⟨fun h => ⟨h.symm, fun k hk => absurd hk (by omega)⟩, fun h => h.1.symm⟩
  | cons n ns ih =>
    cases ns with
    | nil =>
      simp only [List.map_cons, List.map_nil, walkParts, Except.ok.injEq, List.length_cons,
        List.length_nil]
      exact ⟨fun h => ⟨h.symm, fun k hk => absurd hk (by omega)⟩, fun h => h.1.symm⟩
    | cons m ms =>
      simp only [List.map_cons, walkParts]
      -- one step down: the next name must be a directory
      cases hg : d.get? (here ++ [n]) with
      | none =>
        refine ⟨nofun, fun h => ?_⟩
        simpa [hasDir, hg] using h.2 0 (by simp)
      | some node =>
        cases node with
        | file data t =>
          refine ⟨nofun, fun h => ?_⟩
          simpa [hasDir, hg] using h.2 0 (by simp)
        | dir t =>
          have hdir : d.hasDir (here ++ [n]) = true := by simp [hasDir, hg]
          simp only
          rw [← List.map_cons, ih]
          simp only [List.append_assoc, List.singleton_append, List.length_cons]
          refine and_congr_right fun _ => ?_
          constructor
          · intro h k hk
            cases k with
            | zero => simpa using hdir
            | succ k => simpa using h k (by omega)
          · intro h k hk
            simpa using h (k + 1) (by omega)

theorem dirsTo_iff : d.DirsTo pl ↔ ∀ k, k + 1 < pl.length → d.hasDir (pl.take (k + 1)) = true := by
  constructor
  · exact fun h k hk => h (k + 1) hk
  · intro h k hk
    cases k with
    | zero => exact hasDir_nil d
    | succ k => exact h k hk

theorem walkParts_error {here : Place} {ps : List PathPart} {f : Found}
    (h : d.walkParts here ps = .error f) : f = .throughFile ∨ f = .noParent := by
  induction ps generalizing here with
  | nil => cases h
  | cons x rest ih =>
    cases x with
    | root => exact ih h
    | current => exact ih h
    | parent => exact ih h
    | name n =>
      cases rest with
      | nil => cases h
      | cons y ys =>
        simp only [walkParts] at h
        split at h
        · exact ih h
        · exact .inl (Except.error.inj h).symm
        · exact .inr (Except.error.inj h).symm

theorem locate_error {p : Path} {f : Found} (h : d.locate p = .error f) :
    f = .throughFile ∨ f = .noParent := by
  unfold locate at h
  split at h
  · exact .inr (Except.error.inj h).symm
  · exact walkParts_error h

end JarDeploy.Disk

namespace JarDeploy.Path

/-- A path that can name a place of the workspace: relative and not empty. -/
def Relative (p : Path) : Prop := p.isAbsolute = false ∧ p.text.isEmpty = false

variable {p : Path} {n m : String}

theorem relative_push (hn : GoodName n) : (p.push n).Relative ↔ p.text = "" ∨ p.isAbsolute = false := by
  have habs := isAbsolute_name hn.2.2.2
  have hne : n.isEmpty = false := by simpa using hn.1
  by_cases he : p.text = ""
  · have hpush : p.push n = ⟨n⟩ := by simp [push, join, habs, he]
    simp [Relative, hpush, habs, hne, he]
  · have hpe : p.text.isEmpty = false := by simpa using he
    by_cases hs : p.text.endsWith "/" = true
    · have hpush : p.push n = ⟨p.text ++ n⟩ := by simp [push, join, habs, hpe, hs]
      have habs' : (⟨p.text ++ n⟩ : Path).isAbsolute = p.isAbsolute := startsWith_slash_append he
      simp [Relative, hpush, habs', he]
    · have hpush : p.push n = ⟨p.text ++ "/" ++ n⟩ := by simp [push, join, habs, hpe, hs]
      have habs' : (⟨p.text ++ "/" ++ n⟩ : Path).isAbsolute = p.isAbsolute := by
        simp only [isAbsolute]
        rw [String.append_assoc]
        exact startsWith_slash_append he
      simp [Relative, hpush, habs', he]

/-- Whether following a path by a name leaves the workspace does not depend on the name. -/
theorem relative_push_iff (hn : GoodName n) (hm : GoodName m) : (p.push n).Relative ↔ (p.push m).Relative := by
  rw [relative_push hn, relative_push hm]

end JarDeploy.Path

namespace JarDeploy.Disk

variable {d d' : Disk} {pl : Place} {p : Path}

/-! ## Plain paths -/

/-- A plain path leads to the place of its names exactly when it is relative and every
proper prefix of that place is a directory. -/
theorem locate_plain (hp : p.Plain) :
    d.locate p = .ok pl ↔ p.Relative ∧ pl = p.names ∧ d.DirsTo pl := by
  unfold locate
  by_cases hrel : p.Relative
  · obtain ⟨ha, he⟩ := hrel
    have hwalk : d.walkParts [] p.parts = d.walkParts [] (p.names.map .name) := by
      rcases Path.parts_of_plain ha hp with h | h <;> rw [h]
      rfl
    have hr : p.Relative := ⟨ha, he⟩
    simp only [ha, he, Bool.or_false, Bool.false_eq_true, if_false, hwalk, walkParts_names,
      List.nil_append, hr, true_and]
    constructor
    · rintro ⟨rfl, h⟩
      exact ⟨rfl, dirsTo_iff.2 h⟩
    · rintro ⟨rfl, h⟩
      exact ⟨rfl, dirsTo_iff.1 h⟩
  · have hor : (p.isAbsolute || p.text.isEmpty) = true := by
      simp only [Path.Relative, not_and] at hrel
      cases ha : p.isAbsolute <;> cases he : p.text.isEmpty <;> simp_all
    simp [hor, hrel]

theorem findPath_of_locate {pl : Place} (h : d.locate p = .ok pl) : d.findPath p = d.find pl := by
  simp [findPath, h]

/-- Reading a plain path gives the bytes of the file at the place of its names. -/
theorem read_plain (hp : p.Plain) {x : ByteArray} :
    d.read p = .ok x ↔ p.Relative ∧ d.DirsTo p.names ∧ d.bytesAt p.names = some x := by
  unfold read findPath
  cases hl : d.locate p with
  | error f =>
    rcases locate_error hl with rfl | rfl
    · simp only [reduceCtorEq, false_iff, not_and]
      intro hrel hdirs _
      exact absurd ((locate_plain hp).2 ⟨hrel, rfl, hdirs⟩) (by simp [hl])
    · simp only [reduceCtorEq, false_iff, not_and]
      intro hrel hdirs _
      exact absurd ((locate_plain hp).2 ⟨hrel, rfl, hdirs⟩) (by simp [hl])
  | ok pl =>
    obtain ⟨hrel, rfl, hdirs⟩ := (locate_plain hp).1 hl
    simp only [find_of_dirsTo hdirs, hrel, hdirs, true_and, bytesAt]
    cases d.get? p.names with
    | none => simp
    | some n => cases n <;> simp

theorem isFile_iff_read {x : Path} : d.isFile x = true ↔ ∃ data, d.read x = .ok data := by
  unfold isFile read
  cases d.findPath x with
  | node n => cases n <;> simp
  | absent => simp
  | noParent => simp
  | throughFile => simp

/-! ## Operations -/

variable {t : Nat}

theorem ne_nil_of_get?_ne_dir {n : Node} (h : d.get? pl = some n) (hn : n.isFile = true) : pl ≠ [] := by
  rintro rfl
  simp at h
  subst h
  cases hn

/-- A write that succeeds fills the place the path leads to, a free place or a file, and
changes nothing else. -/
theorem write_eq_ok {x : ByteArray} (h : d.write p x t = .ok d') :
    ∃ pl, d.locate p = .ok pl ∧ d.DirsTo pl ∧ d.Keeps {pl} ∅ d' ∧ d'.bytesAt pl = some x := by
  unfold write placeIn at h
  cases hl : d.locate p with
  | error f => simp [hl] at h
  | ok pl =>
    simp only [hl] at h
    refine ⟨pl, rfl, ?_⟩
    cases hf : d.find pl with
    | node n =>
      obtain ⟨hdirs, hg⟩ := find_eq_node hf
      cases n with
      | dir t₀ => simp [hf] at h
      | file data t₀ =>
        simp only [hf, Except.ok.injEq] at h
        subst h
        have hne := ne_nil_of_get?_ne_dir hg rfl
        exact ⟨hdirs, keeps_put d _ (by simp [hasDir, hg]), by simp [bytesAt, get?_put_self _ _ hne]⟩
    | absent =>
      obtain ⟨hdirs, hg⟩ := find_eq_absent hf
      simp only [hf, Except.ok.injEq] at h
      subst h
      have hne : pl ≠ [] := by
        rintro rfl
        simp at hg
      refine ⟨hdirs, (keeps_put d _ (by simp [hasDir, hg])).trans
        ((keeps_touchDir _ _ _).mono (Set.empty_subset _) le_rfl), ?_⟩
      rw [bytesAt_touchDir]
      simp [bytesAt, get?_put_self _ _ hne]
    | noParent => simp [hf] at h
    | throughFile => simp [hf] at h

/-- A copy that succeeds read a file and wrote it, or wrote nothing into it when source and
destination lead to the same place. -/
theorem copy_eq_ok {src dst : Path} (h : d.copy src dst t = .ok d') :
    ∃ x, d.read src = .ok x ∧ ∃ y, d.write dst y t = .ok d' ∧
      (y = x ∨ ∃ pl, d.locate src = .ok pl ∧ d.locate dst = .ok pl) := by
  unfold copy at h
  split at h
  · rename_i data t₀ hsrc
    dsimp only at h
    refine ⟨data, by simp [read, hsrc], _, h, ?_⟩
    cases hs : d.locate src with
    | error _ => exact .inl (by simp)
    | ok a =>
      cases hd : d.locate dst with
      | error _ => exact .inl (by simp)
      | ok b =>
        by_cases hab : a = b
        · exact .inr ⟨a, rfl, by rw [hab]⟩
        · exact .inl (by simp [hab])
  · cases h
  · cases h

/-- Creating a directory changes no bytes and removes no directory. -/
theorem keeps_put_dir (d : Disk) (pl : Place) (h : d.bytesAt pl = none) : Keeps ∅ ∅ d (d.put pl (.dir t)) := by
  refine ⟨fun q _ => ?_, fun q _ hdir => ?_⟩
  · by_cases hq : q = pl
    · subst hq
      by_cases hnil : q = []
      · subst hnil
        rfl
      · rw [h]
        simp [bytesAt, get?_put_self _ _ hnil]
    · exact bytesAt_put_of_ne _ _ hq
  · by_cases hq : q = pl
    · subst hq
      by_cases hnil : q = []
      · subst hnil
        rfl
      · simp [hasDir, get?_put_self _ _ hnil]
    · rwa [hasDir_put_of_ne _ _ hq]

theorem makeDir_keeps (h : d.makeDir pl t = .ok d') : Keeps ∅ ∅ d d' := by
  unfold makeDir at h
  split at h
  · cases h
  · rename_i hf
    obtain ⟨-, hg⟩ := find_eq_absent hf
    cases h
    exact (keeps_put_dir d pl (by simp [bytesAt, hg])).trans (keeps_touchDir _ _ _)
  · cases h

theorem makeDirAt_keeps (h : d.makeDirAt p t = .ok d') : Keeps ∅ ∅ d d' := by
  unfold makeDirAt at h
  cases hp : d.placeIn p with
  | error e => simp [hp] at h; cases h
  | ok pl =>
    simp only [hp] at h
    exact makeDir_keeps h

/-- Making directories along a path changes no bytes and removes no directory. -/
theorem makeDirsAlong_keeps (fuel : Nat) (d : Disk) (p : Path) (h : makeDirsAlong t fuel d p = .ok d') :
    Keeps ∅ ∅ d d' := by
  induction fuel generalizing d d' p with
  | zero =>
    cases h
    exact Keeps.refl _ _ _
  | succ fuel ih =>
    unfold makeDirsAlong at h
    split at h
    · cases h
      exact Keeps.refl _ _ _
    · split at h
      · rename_i d₁ hd₁
        cases h
        exact makeDirAt_keeps hd₁
      · split at h
        · split at h
          · rename_i q _
            split at h
            · cases h
            · rename_i d₁ hd₁
              split at h
              · rename_i d₂ hd₂
                cases h
                exact (ih d q hd₁).trans (makeDirAt_keeps hd₂)
              · split at h
                · cases h
                  exact ih d q hd₁
                · cases h
          · cases h
        · split at h
          · cases h
            exact Keeps.refl _ _ _
          · cases h

theorem createDirAll_keeps (h : d.createDirAll p t = .ok d') : Keeps ∅ ∅ d d' :=
  makeDirsAlong_keeps _ d p h

/-- Removing a directory tree changes only what is under its root. -/
theorem removeDirAll_eq_ok (h : d.removeDirAll p t = .ok d') :
    ∃ pl, d.locate p = .ok pl ∧ Keeps {q | pl <+: q} {q | pl <+: q} d d' := by
  unfold removeDirAll placeIn at h
  cases hl : d.locate p with
  | error f => simp [hl] at h
  | ok pl =>
    simp only [hl] at h
    refine ⟨pl, rfl, ?_⟩
    split at h
    · cases h
      exact (keeps_removeTree d pl).trans ((keeps_touchDir _ _ _).mono (Set.empty_subset _)
        (Set.empty_subset _))
    · cases h
    · cases h

/-- Stamping a file changes no bytes and removes no directory. -/
theorem setModified_keeps {time : Nat} (h : d.setModified p time = .ok d') : Keeps ∅ ∅ d d' := by
  unfold setModified placeIn at h
  cases hl : d.locate p with
  | error f => simp [hl] at h
  | ok pl =>
    simp only [hl] at h
    split at h
    · rename_i n data t₀ hf
      cases h
      obtain ⟨-, hg⟩ := find_eq_node hf
      have hne := ne_nil_of_get?_ne_dir hg rfl
      refine ⟨fun q _ => ?_, fun q _ hdir => ?_⟩
      · by_cases hq : q = pl
        · subst hq
          simp [bytesAt, get?_put_self _ _ hne, hg, Node.stamp]
        · exact bytesAt_put_of_ne _ _ hq
      · by_cases hq : q = pl
        · subst hq
          simp [hasDir, hg] at hdir
        · rwa [hasDir_put_of_ne _ _ hq]
    · cases h
    · cases h

/-! ## Reading what was written -/

variable {B D : Set Place} {x : ByteArray}

/-- A file keeps what it holds through changes that miss it and the directories above it. -/
theorem Keeps.read (hk : Keeps B D d d') (hp : p.Plain) (hB : p.names ∉ B)
    (hD : ∀ k < p.names.length, p.names.take k ∉ D) (h : d.read p = .ok x) : d'.read p = .ok x := by
  obtain ⟨hrel, hdirs, hbytes⟩ := (read_plain hp).1 h
  exact (read_plain hp).2 ⟨hrel, hk.dirsTo hdirs hD, (hk.bytes _ hB).trans hbytes⟩

/-- A file outside a removed tree keeps what it holds. -/
theorem Keeps.read_outside {s : Place} (hk : Keeps {q | s <+: q} {q | s <+: q} d d') (hp : p.Plain)
    (hs : ¬ s <+: p.names) (h : d.read p = .ok x) : d'.read p = .ok x :=
  hk.read hp hs (fun k _ hpre => hs (hpre.trans (List.take_prefix k p.names))) h

/-- Writing a plain path fills the file at its names and changes nothing else. -/
theorem write_plain (hp : p.Plain) (h : d.write p x t = .ok d') :
    d'.read p = .ok x ∧ Keeps {p.names} ∅ d d' := by
  obtain ⟨pl, hl, hdirs, hk, hbytes⟩ := write_eq_ok h
  obtain ⟨hrel, rfl, -⟩ := (locate_plain hp).1 hl
  exact ⟨(read_plain hp).2 ⟨hrel, hk.dirsTo hdirs fun _ _ => id, hbytes⟩, hk⟩

/-! ## Any path -/

/-- A walk that gets through still gets through when no directory was removed. -/
theorem walkParts_mono (h : ∀ q, d.hasDir q = true → d'.hasDir q = true) {here : Place}
    {ps : List PathPart} (hw : d.walkParts here ps = .ok pl) : d'.walkParts here ps = .ok pl := by
  induction ps generalizing here with
  | nil => exact hw
  | cons x rest ih =>
    cases x with
    | root => exact ih hw
    | current => exact ih hw
    | parent => exact ih hw
    | name n =>
      cases rest with
      | nil => exact hw
      | cons y ys =>
        simp only [walkParts] at hw ⊢
        split at hw
        · rename_i t hg
          have hdir : d'.hasDir (here ++ [n]) = true := h _ (by simp [hasDir, hg])
          simp only [hasDir] at hdir
          split at hdir
          · rename_i t' hg'
            rw [hg']
            exact ih hw
          · cases hdir
        · cases hw
        · cases hw

theorem read_eq_ok_iff {x : ByteArray} :
    d.read p = .ok x ↔ ∃ pl, d.locate p = .ok pl ∧ d.DirsTo pl ∧ d.bytesAt pl = some x := by
  unfold read findPath
  cases hl : d.locate p with
  | error f => rcases locate_error hl with rfl | rfl <;> simp
  | ok pl =>
    simp only [Except.ok.injEq, exists_eq_left']
    cases hf : d.find pl with
    | node n =>
      obtain ⟨hdirs, hg⟩ := find_eq_node hf
      cases n <;> simp [hdirs, bytesAt, hg]
    | absent =>
      obtain ⟨hdirs, hg⟩ := find_eq_absent hf
      simp [hdirs, bytesAt, hg]
    | noParent =>
      simp only [reduceCtorEq, false_iff, not_and]
      intro hdirs
      rw [find_of_dirsTo hdirs] at hf
      split at hf <;> cases hf
    | throughFile =>
      simp only [reduceCtorEq, false_iff, not_and]
      intro hdirs
      rw [find_of_dirsTo hdirs] at hf
      split at hf <;> cases hf

/-- A file keeps what it holds, wherever its path leads through, when no directory was
removed and the place it leads to is not in the footprint. -/
theorem Keeps.read_of_dirs (hk : Keeps B ∅ d d') (h : d.read p = .ok x)
    (hB : ∀ pl, d.locate p = .ok pl → pl ∉ B) : d'.read p = .ok x := by
  obtain ⟨pl, hl, hdirs, hbytes⟩ := read_eq_ok_iff.1 h
  have hmono : ∀ q, d.hasDir q = true → d'.hasDir q = true := fun q => hk.dirs q (Set.notMem_empty q)
  have hl' : d'.locate p = .ok pl := by
    unfold locate at hl ⊢
    split at hl
    · cases hl
    · rename_i hrel
      rw [if_neg hrel]
      exact walkParts_mono hmono hl
  exact read_eq_ok_iff.2 ⟨pl, hl', fun k hk' => hmono _ (hdirs k hk'), (hk.bytes pl (hB pl hl)).trans hbytes⟩

/-- A plain path leads nowhere but to its names. -/
theorem locate_ne_of_plain (hp : p.Plain) {pl : Place} (hne : p.names ≠ pl) : d.locate p ≠ .ok pl := by
  intro h
  exact hne ((locate_plain hp).1 h).2.1.symm

end JarDeploy.Disk
