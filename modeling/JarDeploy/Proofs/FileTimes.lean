import JarDeploy.Proofs.Move
import JarDeploy.Proofs.StagingPrefix

/-!
# Files and their times

What a disk holds at a place, seen as a file, is its bytes and its modification time
(`Disk.fileAt`). Two footprints say which files a change of the disk may touch.
`FilesKept S d d'`: outside the places `S`, `d'` holds exactly the files `d` holds, bytes
and times alike. `FilesFrom S d d'`: outside `S`, every file of `d'` is a file of `d`, so
nothing new appears there, though files may go. Creating directories keeps every file,
writing or stamping a file keeps every file but the one at the place its path leads to,
and removing a file brings no file in.

Each of these operations also keeps a disk proper (`Disk.Proper`): the places it adds are
places a path leads to, and every name along such a place is a component of the path, so
a proper file name.
-/

namespace JarDeploy

set_option autoImplicit false

namespace Disk

variable {d d' d'' : Disk} {pl q : Place} {S S' : Set Place} {p : Path} {t : Nat}

/-! ## Files at places -/

/-- The file at a place, with its bytes and modification time, if a file is there. -/
def fileAt (d : Disk) (pl : Place) : Option (ByteArray × Nat) :=
  match d.get? pl with
  | some (.file data t) => some (data, t)
  | _ => none

theorem fileAt_eq_some {x : ByteArray} : d.fileAt pl = some (x, t) ↔ d.get? pl = some (.file x t) := by
  unfold fileAt
  split <;> simp_all

theorem fileAt_put_of_ne (d : Disk) (n : Node) (h : q ≠ pl) : (d.put pl n).fileAt q = d.fileAt q := by
  simp only [fileAt, get?_put_of_ne _ _ h]

theorem fileAt_put_file (d : Disk) (x : ByteArray) (t : Nat) (h : pl ≠ []) :
    (d.put pl (.file x t)).fileAt pl = some (x, t) := by
  simp [fileAt, get?_put_self _ _ h]

@[simp] theorem fileAt_touchDir (d : Disk) (pl : Place) (t : Nat) (q : Place) :
    (d.touchDir pl t).fileAt q = d.fileAt q := by
  rcases get?_touchDir d pl t q with h | ⟨-, t₀, h₀, h₁⟩
  · simp [fileAt, h]
  · simp [fileAt, h₀, h₁]

/-- Removing a tree keeps a file or removes it. -/
theorem fileAt_removeTree (d : Disk) (pl q : Place) :
    (d.removeTree pl).fileAt q = d.fileAt q ∨ (d.removeTree pl).fileAt q = none := by
  by_cases hq : pl <+: q
  · by_cases hnil : q = []
    · subst hnil
      exact .inl rfl
    · exact .inr (by simp [fileAt, get?_removeTree_under d hq hnil])
  · exact .inl (by simp [fileAt, get?_removeTree_of_not_prefix d hq])

/-! ## Footprints on files -/

/-- Outside `S`, `d'` holds exactly the files `d` holds, with their bytes and times. -/
def FilesKept (S : Set Place) (d d' : Disk) : Prop := ∀ q ∉ S, d'.fileAt q = d.fileAt q

/-- Outside `S`, every file of `d'` is a file of `d`, with its bytes and time. -/
def FilesFrom (S : Set Place) (d d' : Disk) : Prop :=
  ∀ q ∉ S, ∀ v, d'.fileAt q = some v → d.fileAt q = some v

namespace FilesKept

theorem refl (S : Set Place) (d : Disk) : FilesKept S d d := fun _ _ => rfl

theorem trans (h : FilesKept S d d') (h' : FilesKept S d' d'') : FilesKept S d d'' :=
  fun q hq => (h' q hq).trans (h q hq)

theorem mono (h : FilesKept S d d') (hS : S ⊆ S') : FilesKept S' d d' :=
  fun q hq => h q fun h' => hq (hS h')

theorem filesFrom (h : FilesKept S d d') : FilesFrom S d d' :=
  fun q hq _ hv => h q hq ▸ hv

end FilesKept

namespace FilesFrom

theorem refl (S : Set Place) (d : Disk) : FilesFrom S d d := fun _ _ _ hv => hv

theorem trans (h : FilesFrom S d d') (h' : FilesFrom S d' d'') : FilesFrom S d d'' :=
  fun q hq v hv => h q hq v (h' q hq v hv)

theorem mono (h : FilesFrom S d d') (hS : S ⊆ S') : FilesFrom S' d d' :=
  fun q hq => h q fun h' => hq (hS h')

end FilesFrom

theorem filesKept_put (d : Disk) (n : Node) : FilesKept {pl} d (d.put pl n) :=
  fun _ hq => fileAt_put_of_ne d n hq

theorem filesKept_touchDir (d : Disk) (pl : Place) (t : Nat) : FilesKept S d (d.touchDir pl t) :=
  fun q _ => fileAt_touchDir d pl t q

/-! ## Operations on the disk -/

/-- Making a directory where nothing is keeps every file. -/
theorem makeDir_filesKept (h : d.makeDir pl t = .ok d') : FilesKept S d d' := by
  unfold makeDir at h
  split at h
  · cases h
  · rename_i hf
    obtain ⟨-, hg⟩ := find_eq_absent hf
    cases h
    intro q _
    rw [fileAt_touchDir]
    by_cases hq : q = pl
    · subst hq
      have hne : q ≠ [] := by
        rintro rfl
        simp at hg
      simp [fileAt, get?_put_self _ _ hne, hg]
    · exact fileAt_put_of_ne _ _ hq
  · cases h

theorem makeDirAt_filesKept (h : d.makeDirAt p t = .ok d') : FilesKept S d d' := by
  unfold makeDirAt at h
  cases hp : d.placeIn p with
  | error e => simp [hp] at h
  | ok pl =>
    simp only [hp] at h
    exact makeDir_filesKept h

/-- Making directories along a path keeps every file. -/
theorem makeDirsAlong_filesKept (fuel : Nat) (d : Disk) (p : Path) (h : makeDirsAlong t fuel d p = .ok d') :
    FilesKept S d d' := by
  induction fuel generalizing d d' p with
  | zero =>
    cases h
    exact FilesKept.refl _ _
  | succ fuel ih =>
    unfold makeDirsAlong at h
    split at h
    · cases h
      exact FilesKept.refl _ _
    · split at h
      · rename_i d₁ hd₁
        cases h
        exact makeDirAt_filesKept hd₁
      · split at h
        · split at h
          · rename_i q _
            split at h
            · cases h
            · rename_i d₁ hd₁
              split at h
              · rename_i d₂ hd₂
                cases h
                exact (ih d q hd₁).trans (makeDirAt_filesKept hd₂)
              · split at h
                · cases h
                  exact ih d q hd₁
                · cases h
          · cases h
        · split at h
          · cases h
            exact FilesKept.refl _ _
          · cases h

theorem createDirAll_filesKept (h : d.createDirAll p t = .ok d') : FilesKept S d d' :=
  makeDirsAlong_filesKept _ d p h

/-- A write that succeeds puts the file, stamped with the time of the write, at the place
its path leads to, and keeps every other file. -/
theorem write_filesKept {x : ByteArray} (h : d.write p x t = .ok d') :
    ∃ pl, d.locate p = .ok pl ∧ FilesKept {pl} d d' ∧ d'.fileAt pl = some (x, t) := by
  unfold write placeIn at h
  cases hl : d.locate p with
  | error f => simp [hl] at h
  | ok pl =>
    simp only [hl] at h
    refine ⟨pl, rfl, ?_⟩
    cases hf : d.find pl with
    | node n =>
      obtain ⟨-, hg⟩ := find_eq_node hf
      cases n with
      | dir t₀ => simp [hf] at h
      | file data t₀ =>
        simp only [hf, Except.ok.injEq] at h
        subst h
        exact ⟨filesKept_put d _, fileAt_put_file d x t (ne_nil_of_get?_ne_dir hg rfl)⟩
    | absent =>
      obtain ⟨-, hg⟩ := find_eq_absent hf
      simp only [hf, Except.ok.injEq] at h
      subst h
      have hne : pl ≠ [] := by
        rintro rfl
        simp at hg
      refine ⟨(filesKept_put d _).trans (filesKept_touchDir _ _ _), ?_⟩
      rw [fileAt_touchDir]
      exact fileAt_put_file d x t hne
    | noParent => simp [hf] at h
    | throughFile => simp [hf] at h

/-- A copy that succeeds is a write of some bytes. -/
theorem copy_filesKept {src dst : Path} (h : d.copy src dst t = .ok d') :
    ∃ pl y, d.locate dst = .ok pl ∧ FilesKept {pl} d d' ∧ d'.fileAt pl = some (y, t) := by
  obtain ⟨-, -, y, hw, -⟩ := copy_eq_ok h
  obtain ⟨pl, hl, hk, hf⟩ := write_filesKept hw
  exact ⟨pl, y, hl, hk, hf⟩

/-- Stamping a file sets the time of the file at the place its path leads to, and keeps
every other file. -/
theorem setModified_filesKept {time : Nat} (h : d.setModified p time = .ok d') :
    ∃ pl x, d.locate p = .ok pl ∧ FilesKept {pl} d d' ∧ d'.fileAt pl = some (x, time) := by
  unfold setModified placeIn at h
  cases hl : d.locate p with
  | error f => simp [hl] at h
  | ok pl =>
    simp only [hl] at h
    split at h
    · rename_i n data t₀ hf
      cases h
      obtain ⟨-, hg⟩ := find_eq_node hf
      have hstamp : (Node.file data t₀).stamp time = .file data time := rfl
      rw [hstamp]
      exact ⟨pl, data, rfl, filesKept_put d _, fileAt_put_file d data time (ne_nil_of_get?_ne_dir hg rfl)⟩
    · cases h
    · cases h

/-- Removing a file brings no file in. -/
theorem removeFile_filesFrom {now : Nat} (h : d.removeFile p now = .ok d') : FilesFrom S d d' := by
  unfold removeFile placeIn at h
  cases hl : d.locate p with
  | error f => simp [hl] at h
  | ok pl =>
    simp only [hl] at h
    split at h
    · cases h
      intro q _ v hv
      rw [fileAt_touchDir] at hv
      rcases fileAt_removeTree d pl q with he | he
      · rwa [he] at hv
      · rw [he] at hv
        cases hv
    · cases h
    · cases h

/-! ## Proper disks stay proper -/

/-- A place that holds something, other than the root, is listed with it. -/
theorem mem_entries_of_get? {n : Node} (h : d.get? pl = some n) (hne : pl ≠ []) : (pl, n) ∈ d.entries := by
  rw [get?_of_ne_nil _ hne, Option.map_eq_some_iff] at h
  obtain ⟨e, he, rfl⟩ := h
  have hk : e.1 = pl := by simpa using List.find?_some he
  rw [← hk]
  exact List.mem_of_find?_eq_some he

/-- The names along a place a walk reaches are names it started from or components it
walked through. -/
theorem walkParts_mem {here : Place} {ps : List PathPart} (h : d.walkParts here ps = .ok pl) :
    ∀ x ∈ pl, x ∈ here ∨ PathPart.name x ∈ ps := by
  fun_induction d.walkParts here ps generalizing pl with
  | case1 here =>
    cases h
    exact fun x hx => .inl hx
  | case2 here n =>
    cases h
    intro x hx
    rcases List.mem_append.1 hx with hx | hx
    · exact .inl hx
    · exact .inr (by simp [List.mem_singleton.1 hx])
  | case3 here n rest hrest t₀ hg ih =>
    intro x hx
    rcases ih h x hx with hx | hx
    · rcases List.mem_append.1 hx with hx | hx
      · exact .inl hx
      · exact .inr (by simp [List.mem_singleton.1 hx])
    · exact .inr (List.mem_cons_of_mem _ hx)
  | case4 => simp_all
  | case5 => simp_all
  | case6 here rest ih =>
    intro x hx
    rcases ih h x hx with hx | hx
    · exact .inl (List.dropLast_subset _ hx)
    · exact .inr (List.mem_cons_of_mem _ hx)
  | case7 here rest ih =>
    intro x hx
    exact (ih h x hx).imp id (List.mem_cons_of_mem _)
  | case8 here rest ih =>
    intro x hx
    rcases ih h x hx with hx | hx
    · cases hx
    · exact .inr (List.mem_cons_of_mem _ hx)

/-- Every name along the place a path leads to is a proper file name. -/
theorem goodName_of_locate (h : d.locate p = .ok pl) : ∀ x ∈ pl, Path.GoodName x := by
  unfold locate at h
  split at h
  · cases h
  · intro x hx
    rcases walkParts_mem h x hx with hx | hx
    · cases hx
    · exact Path.goodName_of_name_mem_parts hx

namespace Proper

variable (hd : d.Proper)
include hd

/-- Setting a node at a place of proper names keeps the disk proper. -/
theorem put (hpl : ∀ x ∈ pl, Path.GoodName x) (n : Node) : (d.put pl n).Proper := by
  unfold Disk.put
  split
  · -- the place is listed: its entry changes where it is
    have hkeys : ((d.entries.map fun e => if e.1 == pl then (pl, n) else e).map (·.1)) =
        d.entries.map (·.1) := by
      rw [List.map_map]
      congr 1
      funext e
      by_cases hk : e.1 = pl <;> simp [hk]
    refine ⟨hkeys ▸ hd.nodup, fun e he x hx => ?_⟩
    obtain ⟨e', he', rfl⟩ := List.mem_map.1 he
    by_cases hk : e'.1 = pl
    · simp only [hk, beq_self_eq_true, if_true] at hx
      exact hpl x hx
    · simp only [beq_iff_eq, hk, if_false] at hx
      exact hd.names e' he' x hx
  · -- the place is new: its entry comes last
    rename_i hany
    have hnew : pl ∉ d.entries.map (·.1) := fun hmem => by
      obtain ⟨e, he, hk⟩ := List.mem_map.1 hmem
      exact hany (List.any_eq_true.2 ⟨e, he, by simp [hk]⟩)
    refine ⟨?_, fun e he x hx => ?_⟩
    · rw [List.map_append, List.nodup_append]
      refine ⟨hd.nodup, List.nodup_singleton _, fun a ha b hb hab => ?_⟩
      rw [List.map_cons, List.map_nil, List.mem_singleton] at hb
      rw [hab, hb] at ha
      exact hnew ha
    · rcases List.mem_append.1 he with he | he
      · exact hd.names e he x hx
      · rw [List.mem_singleton.1 he] at hx
        exact hpl x hx

theorem touchDir (pl : Place) (t : Nat) : (d.touchDir pl t).Proper := by
  unfold Disk.touchDir
  split
  · rename_i t₀ hg
    split
    · exact hd
    · rename_i hne
      exact hd.put (hd.names _ (mem_entries_of_get? hg (by simpa using hne))) _
  · exact hd

theorem removeTree (pl : Place) : (d.removeTree pl).Proper := by
  unfold Disk.removeTree
  exact ⟨hd.nodup.sublist (List.filter_sublist.map _),
    fun e he => hd.names e (List.mem_filter.1 he).1⟩

theorem write {x : ByteArray} (h : d.write p x t = .ok d') : d'.Proper := by
  unfold Disk.write placeIn at h
  cases hl : d.locate p with
  | error f => simp [hl] at h
  | ok pl =>
    simp only [hl] at h
    have hpl := goodName_of_locate hl
    split at h
    · cases h
    · cases h
      exact hd.put hpl _
    · cases h
      exact (hd.put hpl _).touchDir _ _
    · cases h

theorem copy {src dst : Path} (h : d.copy src dst t = .ok d') : d'.Proper := by
  obtain ⟨-, -, y, hw, -⟩ := copy_eq_ok h
  exact hd.write hw

theorem makeDir (hpl : ∀ x ∈ pl, Path.GoodName x) (h : d.makeDir pl t = .ok d') : d'.Proper := by
  unfold Disk.makeDir at h
  split at h
  · cases h
  · cases h
    exact (hd.put hpl _).touchDir _ _
  · cases h

theorem makeDirAt (h : d.makeDirAt p t = .ok d') : d'.Proper := by
  unfold Disk.makeDirAt at h
  cases hp : d.placeIn p with
  | error e => simp [hp] at h
  | ok pl =>
    simp only [hp] at h
    have hl : d.locate p = .ok pl := by
      unfold placeIn at hp
      split at hp
      · cases hp
        assumption
      · cases hp
    exact hd.makeDir (goodName_of_locate hl) h

theorem setModified {time : Nat} (h : d.setModified p time = .ok d') : d'.Proper := by
  unfold Disk.setModified placeIn at h
  cases hl : d.locate p with
  | error f => simp [hl] at h
  | ok pl =>
    simp only [hl] at h
    split at h
    · cases h
      exact hd.put (goodName_of_locate hl) _
    · cases h
    · cases h

theorem removeFile {now : Nat} (h : d.removeFile p now = .ok d') : d'.Proper := by
  unfold Disk.removeFile placeIn at h
  cases hl : d.locate p with
  | error f => simp [hl] at h
  | ok pl =>
    simp only [hl] at h
    split at h
    · cases h
      exact (hd.removeTree pl).touchDir _ _
    · cases h
    · cases h

end Proper

/-- Making directories along a path keeps a disk proper. -/
theorem Proper.makeDirsAlong (fuel : Nat) (d : Disk) (p : Path) (hd : d.Proper)
    (h : Disk.makeDirsAlong t fuel d p = .ok d') : d'.Proper := by
  induction fuel generalizing d d' p with
  | zero =>
    cases h
    exact hd
  | succ fuel ih =>
    unfold Disk.makeDirsAlong at h
    split at h
    · cases h
      exact hd
    · split at h
      · rename_i d₁ hd₁
        cases h
        exact hd.makeDirAt hd₁
      · split at h
        · split at h
          · rename_i q _
            split at h
            · cases h
            · rename_i d₁ hd₁
              split at h
              · rename_i d₂ hd₂
                cases h
                exact (ih d q hd hd₁).makeDirAt hd₂
              · split at h
                · cases h
                  exact ih d q hd hd₁
                · cases h
          · cases h
        · split at h
          · cases h
            exact hd
          · cases h

theorem Proper.createDirAll (hd : d.Proper) (h : d.createDirAll p t = .ok d') : d'.Proper :=
  Proper.makeDirsAlong _ d p hd h

end Disk

end JarDeploy
