import Mathlib.Data.List.Nodup
import JarDeploy.FileFilter
import JarDeploy.Proofs.Frame

/-!
# Moving and removing files, and listing a directory

Renaming moves what lies at and under the source place to the target place: afterwards
the target holds what the source held, nothing is left at the source, and every other
place keeps its bytes and its directories. Removing a file or a tree leaves nothing at its
place. Between places neither of which lies under the other, a rename of a file is such a
move.

A directory's entries are the names of the places directly under it. On a disk as a file
system holds it (`Disk.Proper`: no place listed twice, every name a proper file name) they
are distinct, and listing a directory with a filter gives the paths of the entries, in byte
order, whose nodes the filter accepts.
-/

namespace JarDeploy.Disk

set_option autoImplicit false

variable {d d' : Disk} {s t q pl : Place}

/-! ## Moving a tree -/

theorem within_iff {a b : Place} : within a b = true ↔ a <+: b := List.isPrefixOf_iff_prefix

/-- An entry under the source, moved under the target, has the key `q` exactly when it had
the key that `q` comes from. -/
theorem moved_key_iff {e : Place} (hq : t <+: q) :
    (s <+: e ∧ t ++ e.drop s.length = q) ↔ e = s ++ q.drop t.length := by
  obtain ⟨r, rfl⟩ := hq
  constructor
  · rintro ⟨⟨u, rfl⟩, he⟩
    simp_all
  · rintro rfl
    exact ⟨⟨_, rfl⟩, by simp⟩

theorem get?_append_entries (l₁ l₂ : List (Place × Node)) (hq : q ≠ []) :
    (⟨l₁ ++ l₂⟩ : Disk).get? q = ((⟨l₁⟩ : Disk).get? q).or ((⟨l₂⟩ : Disk).get? q) := by
  simp only [get?_of_ne_nil _ hq, List.find?_append]
  cases List.find? (·.1 == q) l₁ <;> simp

theorem get?_removeTree_under (d : Disk) (h : pl <+: q) (hq : q ≠ []) :
    (d.removeTree pl).get? q = none := by
  rw [get?_of_ne_nil _ hq, removeTree, Option.map_eq_none_iff, List.find?_eq_none]
  intro e he hkey
  have hw := (List.mem_filter.1 he).2
  rw [beq_iff_eq.1 hkey, within_iff.2 h] at hw
  cases hw

/-- The entries under `s`, moved under `t`, hold under the target what the source held. -/
theorem get?_movedEntries (d : Disk) (hs : s ≠ []) (hq : q ≠ []) :
    (⟨d.entries.filterMap fun e => if within s e.1 then some (t ++ e.1.drop s.length, e.2) else none⟩ :
      Disk).get? q = if t <+: q then d.get? (s ++ q.drop t.length) else none := by
  rw [get?_of_ne_nil _ hq, List.find?_filterMap]
  split_ifs with htq
  · have hpred : (fun e : Place × Node => Option.any (fun x => x.1 == q)
        (if within s e.1 then some (t ++ e.1.drop s.length, e.2) else none)) =
        fun e => e.1 == s ++ q.drop t.length := by
      funext e
      have key := moved_key_iff (s := s) (e := e.1) htq
      by_cases hw : s <+: e.1
      · simp only [within_iff.2 hw, if_true, Option.any_some]
        exact Bool.eq_iff_iff.2 (by simpa [hw] using key)
      · have hw' : within s e.1 = false := Bool.eq_false_iff.2 fun h => hw (within_iff.1 h)
        simp only [hw', Bool.false_eq_true, if_false, Option.any_none]
        refine (Bool.eq_false_iff.2 fun h => hw ?_).symm
        rw [beq_iff_eq.1 h]
        exact List.prefix_append s _
    rw [hpred, get?_of_ne_nil _ (by simp [hs])]
    cases hf : d.entries.find? (·.1 == s ++ q.drop t.length) with
    | none => rfl
    | some e =>
      have he : e.1 = s ++ q.drop t.length := by simpa using List.find?_some hf
      simp [he, within_iff]
  · rw [Option.map_eq_none_iff, Option.bind_eq_none_iff]
    intro e he
    -- nothing moved lands outside the target
    have hany := List.find?_some he
    split at hany
    · simp only [Option.any_some, beq_iff_eq] at hany
      exact absurd (hany ▸ List.prefix_append t _) htq
    · simp at hany

/-- The node at a place after the tree at `s` moved to `t`, before the parents are stamped:
under the target what was at the matching place under the source, nothing left under the
source, and elsewhere what was there. -/
theorem get?_moved (d : Disk) (hs : s ≠ []) (ht : t ≠ []) (q : Place) :
    (⟨((d.removeTree t).removeTree s).entries ++ d.entries.filterMap fun e =>
        if within s e.1 then some (t ++ e.1.drop s.length, e.2) else none⟩ : Disk).get? q =
      if t <+: q then d.get? (s ++ q.drop t.length) else if s <+: q then none else d.get? q := by
  by_cases hq : q = []
  · subst hq
    simp [List.prefix_nil, ht, hs]
  rw [get?_append_entries _ _ hq, get?_movedEntries d hs hq,
    show (⟨((d.removeTree t).removeTree s).entries⟩ : Disk) = (d.removeTree t).removeTree s from rfl]
  by_cases htq : t <+: q
  · have hkept : ((d.removeTree t).removeTree s).get? q = none := by
      by_cases hsq : s <+: q
      · exact get?_removeTree_under _ hsq hq
      · have hs' := get?_removeTree_of_not_prefix (d.removeTree t) hsq
        rw [hs']
        exact get?_removeTree_under _ htq hq
    simp only [hkept, Option.none_or, if_pos htq]
  · simp only [if_neg htq, Option.or_none]
    by_cases hsq : s <+: q
    · rw [if_pos hsq]
      exact get?_removeTree_under _ hsq hq
    · have hs' := get?_removeTree_of_not_prefix (d.removeTree t) hsq
      have ht' := get?_removeTree_of_not_prefix d htq
      rw [if_neg hsq, hs', ht']

/-- What a place holds after a move, seen as bytes. -/
theorem bytesAt_moveTree (d : Disk) (hs : s ≠ []) (ht : t ≠ []) (now : Nat) (q : Place) :
    (d.moveTree s t now).bytesAt q =
      if t <+: q then d.bytesAt (s ++ q.drop t.length) else if s <+: q then none else d.bytesAt q := by
  simp only [moveTree, bytesAt_touchDir]
  unfold bytesAt
  rw [get?_moved d hs ht q]
  split_ifs <;> rfl

/-- Whether a place holds a directory after a move. -/
theorem hasDir_moveTree (d : Disk) (hs : s ≠ []) (ht : t ≠ []) (now : Nat) (q : Place) :
    (d.moveTree s t now).hasDir q =
      if t <+: q then d.hasDir (s ++ q.drop t.length) else if s <+: q then false else d.hasDir q := by
  simp only [moveTree, hasDir_touchDir]
  unfold hasDir
  rw [get?_moved d hs ht q]
  split_ifs <;> rfl

/-- A move changes nothing outside the source and the target trees; the target holds what
the source held, and the source holds no file. -/
theorem moveTree_keeps (d : Disk) (hs : s ≠ []) (ht : t ≠ []) (hts : ¬ t <+: s) (now : Nat) :
    Keeps {q | s <+: q ∨ t <+: q} {q | s <+: q ∨ t <+: q} d (d.moveTree s t now) ∧
      (d.moveTree s t now).bytesAt t = d.bytesAt s ∧ (d.moveTree s t now).bytesAt s = none := by
  refine ⟨⟨fun q hq => ?_, fun q hq hdir => ?_⟩, ?_, ?_⟩
  · simp only [Set.mem_ofPred_eq, not_or] at hq
    rw [bytesAt_moveTree d hs ht, if_neg hq.2, if_neg hq.1]
  · simp only [Set.mem_ofPred_eq, not_or] at hq
    rw [hasDir_moveTree d hs ht, if_neg hq.2, if_neg hq.1]
    exact hdir
  · rw [bytesAt_moveTree d hs ht, if_pos (List.prefix_refl t)]
    simp
  · rw [bytesAt_moveTree d hs ht, if_neg hts, if_pos (List.prefix_refl s)]

/-! ## Renaming and removing -/

/-- A rename that succeeds moved the tree at the source's place to the target's place, or
did nothing when both are the same place. -/
theorem rename_eq_ok {src dst : Path} {now : Nat} (h : d.rename src dst now = .ok d') :
    ∃ s t, d.locate src = .ok s ∧ d.locate dst = .ok t ∧ (s = t ∧ d' = d ∨ d' = d.moveTree s t now) := by
  unfold rename placeIn at h
  cases hs : d.locate src with
  | error f => simp [hs] at h
  | ok s =>
    cases ht : d.locate dst with
    | error f => simp [hs, ht] at h
    | ok t =>
      simp only [hs, ht] at h
      refine ⟨s, t, rfl, rfl, ?_⟩
      split at h
      · split at h
        · cases h
          exact .inl ⟨beq_iff_eq.1 ‹_›, rfl⟩
        · split at h <;> (try split at h) <;> (try split at h) <;> cases h <;> exact .inr rfl
      · cases h

/-- Renaming a file between plain paths, neither of which lies under the other, moves it:
the target holds what the source held, the source holds no file, and nothing else changes. -/
theorem rename_plain {src dst : Path} {now : Nat} (hsrc : src.Plain) (hdst : dst.Plain)
    (hs : src.names ≠ []) (ht : dst.names ≠ []) (hst : ¬ src.names <+: dst.names)
    (hts : ¬ dst.names <+: src.names) (h : d.rename src dst now = .ok d') :
    Keeps {q | src.names <+: q ∨ dst.names <+: q} {q | src.names <+: q ∨ dst.names <+: q} d d' ∧
      d'.bytesAt dst.names = d.bytesAt src.names ∧ d'.bytesAt src.names = none := by
  obtain ⟨s, t, hls, hlt, hmove⟩ := rename_eq_ok h
  obtain ⟨-, rfl, -⟩ := (locate_plain hsrc).1 hls
  obtain ⟨-, rfl, -⟩ := (locate_plain hdst).1 hlt
  rcases hmove with ⟨hsame, -⟩ | rfl
  · exact absurd (hsame ▸ List.prefix_refl _) hst
  · exact moveTree_keeps d hs ht hts now

/-- Removing a file empties its place and changes nothing outside its tree. -/
theorem removeFile_eq_ok {p : Path} {now : Nat} (h : d.removeFile p now = .ok d') :
    ∃ pl, d.locate p = .ok pl ∧ Keeps {q | pl <+: q} {q | pl <+: q} d d' ∧ d'.get? pl = none := by
  unfold removeFile placeIn at h
  cases hl : d.locate p with
  | error f => simp [hl] at h
  | ok pl =>
    simp only [hl] at h
    refine ⟨pl, rfl, ?_⟩
    split at h
    · rename_i hf
      cases h
      have hne : pl ≠ [] := by
        rintro rfl
        simp [find, walk] at hf
      refine ⟨(keeps_removeTree d pl).trans ((keeps_touchDir _ _ _).mono (Set.empty_subset _)
        (Set.empty_subset _)), ?_⟩
      rcases get?_touchDir (d.removeTree pl) pl.dropLast now pl with h' | ⟨-, t₀, h₀, -⟩
      · rw [h']
        exact get?_removeTree_under d (List.prefix_refl pl) hne
      · rw [get?_removeTree_under d (List.prefix_refl pl) hne] at h₀
        cases h₀
    · cases h
    · cases h

/-- Removing a directory tree empties its place. -/
theorem removeDirAll_get? {p : Path} {now : Nat} (h : d.removeDirAll p now = .ok d') :
    ∃ pl, d.locate p = .ok pl ∧ (pl ≠ [] → d'.get? pl = none) := by
  unfold removeDirAll placeIn at h
  cases hl : d.locate p with
  | error f => simp [hl] at h
  | ok pl =>
    simp only [hl] at h
    refine ⟨pl, rfl, fun hne => ?_⟩
    split at h
    · cases h
      rcases get?_touchDir (d.removeTree pl) pl.dropLast now pl with h' | ⟨-, t₀, h₀, -⟩
      · rw [h']
        exact get?_removeTree_under d (List.prefix_refl pl) hne
      · rw [get?_removeTree_under d (List.prefix_refl pl) hne] at h₀
        cases h₀
    · cases h
    · cases h

/-! ## Nothing at a place -/

/-- A plain path whose place holds no file names no file. -/
theorem isFile_eq_false {p : Path} (hp : p.Plain) (h : d.bytesAt p.names = none) : d.isFile p = false := by
  rw [Bool.eq_false_iff]
  intro hfile
  obtain ⟨x, hx⟩ := isFile_iff_read.1 hfile
  obtain ⟨-, -, hb⟩ := (read_plain hp).1 hx
  rw [h] at hb
  cases hb

/-- A plain path whose place holds nothing names nothing. -/
theorem exists?_eq_false {p : Path} (hp : p.Plain) (h : d.get? p.names = none) : d.exists? p = false := by
  unfold exists? findPath
  cases hl : d.locate p with
  | error f => rcases locate_error hl with rfl | rfl <;> rfl
  | ok pl =>
    obtain ⟨-, rfl, hdirs⟩ := (locate_plain hp).1 hl
    simp [find_of_dirsTo hdirs, h]

/-! ## Listing a directory -/

/-- A disk as a file system holds it: no place is listed twice, and every name along a place
is a proper file name. -/
structure Proper (d : Disk) : Prop where
  nodup : (d.entries.map (·.1)).Nodup
  names : ∀ e ∈ d.entries, ∀ x ∈ e.1, Path.GoodName x

theorem children_eq (d : Disk) (pl : Place) :
    d.children pl = (d.entries.map (·.1)).filterMap fun q =>
      if q.length = pl.length + 1 && within pl q then q.getLast? else none := by
  simp [children, List.filterMap_map]

/-- The one place directly under `pl` whose last name is `n`. -/
theorem eq_of_child {q : Place} {n : String}
    (h : (if q.length = pl.length + 1 && within pl q then q.getLast? else none) = some n) :
    q = pl ++ [n] := by
  split at h
  · rename_i hc
    simp only [Bool.and_eq_true, decide_eq_true_eq, within_iff] at hc
    obtain ⟨hlen, r, rfl⟩ := hc
    obtain ⟨x, rfl⟩ : ∃ x, r = [x] := by
      rw [List.length_append] at hlen
      exact List.length_eq_one_iff.1 (by omega)
    simp only [List.getLast?_append, List.getLast?_singleton, Option.some_or, Option.some.injEq] at h
    rw [h]
  · cases h

/-- A name is an entry of a directory exactly when a place directly under it bears the name. -/
theorem mem_children {n : String} : n ∈ d.children pl ↔ ∃ nd, (pl ++ [n], nd) ∈ d.entries := by
  rw [children_eq, List.mem_filterMap]
  constructor
  · rintro ⟨q, hq, hn⟩
    obtain ⟨⟨q', nd⟩, he, rfl⟩ := List.mem_map.1 hq
    exact ⟨nd, eq_of_child hn ▸ he⟩
  · rintro ⟨nd, he⟩
    exact ⟨pl ++ [n], List.mem_map.2 ⟨_, he, rfl⟩, by simp [within_iff]⟩

/-- The node at an entry of a directory. -/
theorem get?_child_isSome {n : String} (h : n ∈ d.children pl) : (d.get? (pl ++ [n])).isSome := by
  obtain ⟨nd, he⟩ := mem_children.1 h
  rw [get?_of_ne_nil _ (by simp), Option.isSome_map, List.find?_isSome]
  exact ⟨_, he, by simp⟩

theorem children_nodup (hd : d.Proper) (pl : Place) : (d.children pl).Nodup := by
  rw [children_eq]
  exact hd.nodup.filterMap fun q q' n hn hn' => (eq_of_child hn).trans (eq_of_child hn').symm

theorem goodName_of_mem_children (hd : d.Proper) {n : String} (h : n ∈ d.children pl) :
    Path.GoodName n := by
  obtain ⟨nd, he⟩ := mem_children.1 h
  exact hd.names _ he n (by simp)

theorem insertName_perm (n : String) (l : List String) : (insertName n l).Perm (n :: l) := by
  induction l with
  | nil => rfl
  | cons m l ih =>
    unfold insertName
    split
    · rfl
    · exact ((ih.cons m).trans (List.Perm.swap n m l))

/-- Sorting names keeps them. -/
theorem sortNames_perm (l : List String) : (sortNames l).Perm l := by
  induction l with
  | nil => rfl
  | cons n l ih => exact (insertName_perm n _).trans (ih.cons n)

end JarDeploy.Disk

namespace JarDeploy

set_option autoImplicit false

/-- Listing a plain directory of a proper disk looks and changes nothing: the directory is
there (so its path is relative), and the result is the paths of its entries, in byte order, whose nodes the filter
accepts. -/
theorem runOn_listFiles {dir : Path} {f : FileFilter} {w w' : World} {ps : List Path}
    (hd : w.disk.Proper) (hdir : dir.Plain) (h : (listFiles dir f).runOn w = (.ok ps, w')) :
    w' = w ∧ dir.Relative ∧ w.disk.DirsTo dir.names ∧ w.disk.hasDir dir.names = true ∧
      ps = ((Disk.sortNames (w.disk.children dir.names)).filter fun n =>
        match w.disk.get? (dir.names ++ [n]) with
        | some nd => f.accepts (dir.push n) nd
        | none => false).map dir.push := by
  unfold listFiles Act.readDir at h
  simp only [bind_assoc] at h
  rw [Act.runOn_bind_ok (Act.runOn_disk w)] at h
  cases hr : w.disk.readDir dir with
  | error e => simp [hr, Act.runOn_bind_error (Act.runOn_ofExcept _ _)] at h
  | ok names =>
    rw [hr, Act.runOn_bind_ok (Act.runOn_ofExcept _ _), Act.runOn_bind_ok (Act.runOn_disk w)] at h
    simp only [Act.runOn_pure, Prod.mk.injEq, Except.ok.injEq] at h
    obtain ⟨rfl, rfl⟩ := h
    unfold Disk.readDir at hr
    cases hl : w.disk.locate dir with
    | error f => simp [hl] at hr
    | ok pl =>
      obtain ⟨hrel, rfl, -⟩ := (Disk.locate_plain hdir).1 hl
      simp only [hl] at hr
      split at hr
      · rename_i t hf
        obtain ⟨hdirs, hg⟩ := Disk.find_eq_node hf
        cases hr
        have hhas : w.disk.hasDir dir.names = true := by simp [Disk.hasDir, hg]
        refine ⟨rfl, hrel, hdirs, hhas, ?_⟩
        rw [← List.filterMap_eq_filter, List.map_filterMap]
        refine List.filterMap_congr fun n hn => ?_
        have hchild := (Disk.sortNames_perm _).subset hn
        have hgood := Disk.goodName_of_mem_children hd hchild
        -- an entry lies where its path leads, below a directory that is there
        have hdirs' : w.disk.DirsTo (dir.names ++ [n]) := by
          intro k hk
          rcases Nat.lt_or_ge k dir.names.length with hk' | hk'
          · rw [List.take_append_of_le_length hk'.le]
            exact hdirs k hk'
          · have : k = dir.names.length := by simp at hk; omega
            subst this
            simpa using hhas
        have hloc : w.disk.locate (dir.push n) = .ok (dir.names ++ [n]) := by
          rw [Disk.locate_plain ((Path.plain_push _ hgood).2 hdir), Path.names_push _ hgood]
          exact ⟨(Path.relative_push hgood).2 (.inr hrel.1), rfl, hdirs'⟩
        have hstat : w.disk.stat (dir.push n) = match w.disk.get? (dir.names ++ [n]) with
            | some nd => .ok nd
            | none => .error IoError.notFound := by
          simp only [Disk.stat, Disk.findPath, hloc, Disk.find_of_dirsTo hdirs']
          cases w.disk.get? (dir.names ++ [n]) <;> rfl
        rw [hstat]
        cases hget : w.disk.get? (dir.names ++ [n]) with
        | none => simp [Option.guard, hget]
        | some nd =>
          by_cases ha : f.accepts (dir.push n) nd = true <;> simp [ha, Option.guard, hget]
      · cases hr
      · cases hr

end JarDeploy

namespace JarDeploy.Act

set_option autoImplicit false

variable {ε : Type} {src dst p : Path} {w w' : World} {u : Unit}

/-- Renaming a file between plain paths, neither under the other, frames the two trees. -/
theorem frames_rename (hsrc : src.Plain) (hdst : dst.Plain) (hs : src.names ≠ []) (ht : dst.names ≠ [])
    (hst : ¬ src.names <+: dst.names) (hts : ¬ dst.names <+: src.names) :
    Frames (rename src dst) {q | src.names <+: q ∨ dst.names <+: q}
      {q | src.names <+: q ∨ dst.names <+: q} [] :=
  frames_change fun _ _ _ h => (Disk.rename_plain hsrc hdst hs ht hst hts h).1

/-- A rename that succeeds leaves at the target what the source held, and no file at the
source. -/
theorem rename_ok (hsrc : src.Plain) (hdst : dst.Plain) (hs : src.names ≠ []) (ht : dst.names ≠ [])
    (hst : ¬ src.names <+: dst.names) (hts : ¬ dst.names <+: src.names)
    (h : (rename src dst).runOn w = (.ok u, w')) :
    w'.disk.bytesAt dst.names = w.disk.bytesAt src.names ∧ w'.disk.bytesAt src.names = none :=
  (Disk.rename_plain hsrc hdst hs ht hst hts (change_eq_ok h)).2

theorem frames_removeFile (hp : p.Plain) :
    Frames (removeFile p) {q | p.names <+: q} {q | p.names <+: q} [] :=
  frames_change fun _ _ _ h => by
    obtain ⟨pl, hl, hk, -⟩ := Disk.removeFile_eq_ok h
    obtain ⟨-, rfl, -⟩ := (Disk.locate_plain hp).1 hl
    exact hk

/-- A removal that succeeds leaves nothing at the file's place. -/
theorem removeFile_ok (hp : p.Plain) (h : (removeFile p).runOn w = (.ok u, w')) :
    w'.disk.get? p.names = none := by
  obtain ⟨pl, hl, -, hnone⟩ := Disk.removeFile_eq_ok (change_eq_ok h)
  obtain ⟨-, rfl, -⟩ := (Disk.locate_plain hp).1 hl
  exact hnone

/-- A removal of a tree that succeeds leaves nothing at its place. -/
theorem removeDirAll_ok (hp : p.Plain) (hne : p.names ≠ []) (h : (removeDirAll p).runOn w = (.ok u, w')) :
    w'.disk.get? p.names = none := by
  obtain ⟨pl, hl, hnone⟩ := Disk.removeDirAll_get? (change_eq_ok h)
  obtain ⟨-, rfl, -⟩ := (Disk.locate_plain hp).1 hl
  exact hnone hne

end JarDeploy.Act
