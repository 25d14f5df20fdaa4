import JarDeploy.Proofs.PassBytes
import JarDeploy.Proofs.Nodes
import JarDeploy.Proofs.DeployBytes

/-!
# What a single-pass run deploys

A single-pass run stages the selected artifacts in the library directory and then processes
what it staged there. From a fresh start no deployed file is there when an artifact is staged:
the keystore step brings nothing into the library directory, and staging brings in only the
library directory and staged files. So every artifact is staged, its staged file holding its
bytes (`Pipeline.staging_bytes`), and processing leaves for each what the chain of its passes
leaves from those bytes (`Pipeline.runLegacy_chain`).
-/

namespace JarDeploy

set_option autoImplicit false

open Act

/-! ## Staging one artifact -/

/-- Staging an artifact whose deployed file is not there stages it: the staged file holds what
the artifact's file holds, the bytes anywhere else are kept, and nodes come in only along the
directory and at the staging name. -/
theorem stageUnprocessed_bytes {a : Artifact} {f : String} {dir : Path} {toucher : Toucher}
    {w w' : World} {b : Bool} {A : ByteArray} (hdir : dir.Plain) (hrel : dir.isAbsolute = false)
    (hf : Path.GoodName f) (hm : Path.GoodName (unprocessedPrefix ++ f))
    (hout : ¬ dir.names <+: (⟨a.file⟩ : Path).names) (hsrc : (⟨a.file⟩ : Path).Plain)
    (habsent : w.disk.get? (dir.names ++ [f]) = none) (hA : w.disk.read ⟨a.file⟩ = .ok A)
    (h : (stageUnprocessed a f dir toucher).runOn w = (.ok b, w')) :
    b = true ∧ w'.disk.bytesAt (dir.names ++ [unprocessedPrefix ++ f]) = some A ∧
      w.disk.Keeps {dir.names ++ [unprocessedPrefix ++ f]} ∅ w'.disk ∧
      w.disk.NodesFrom {q | q <+: dir.names ∨ q = dir.names ++ [unprocessedPrefix ++ f]} w'.disk := by
  have hstaged : (dir.push (unprocessedPrefix ++ f)).Plain := (Path.plain_push _ hm).2 hdir
  have hnames : (dir.push (unprocessedPrefix ++ f)).names = dir.names ++ [unprocessedPrefix ++ f] :=
    Path.names_push _ hm
  have hnodes := sprouts_stageUnprocessed a f toucher hrel hdir hm w _ w' h
  unfold stageUnprocessed at h
  obtain ⟨source, w₁, hstat, h₁⟩ := runOn_bind_eq_ok h
  have hw₁ : w₁ = w := readOnly_stat _ w _ w₁ hstat
  subst w₁
  obtain ⟨d, w₂, hdisk, h₂⟩ := runOn_bind_eq_ok h₁
  rw [runOn_disk] at hdisk
  cases hdisk
  dsimp only at h₂
  -- nothing is at the deployed file, so it is not found newer
  split at h₂
  · rename_i n hn
    have hget := Disk.get?_of_stat ((Path.plain_push _ hf).2 hdir) hn
    rw [Path.names_push _ hf, habsent] at hget
    cases hget
  simp only [Bool.false_eq_true, if_false] at h₂
  obtain ⟨_, w₃, hmk, h₃⟩ := runOn_bind_eq_ok h₂
  obtain ⟨_, w₄, hcp, h₄⟩ := runOn_bind_eq_ok h₃
  obtain ⟨rep, w₅, htouch, h₅⟩ := runOn_bind_eq_ok h₄
  cases h₅
  have hk₃ : w.disk.Keeps ∅ ∅ w₃.disk := (frames_createDirAll dir w _ w₃ hmk).1
  obtain ⟨x, hx, y, hw, hy⟩ := Disk.copy_eq_ok (change_eq_ok hcp)
  obtain ⟨hread, hk₄⟩ := Disk.write_plain hstaged hw
  have hk₅ : w₄.disk.Keeps ∅ ∅ w'.disk := (Toucher.frames_touch toucher _ w₄ _ w' htouch).1
  -- the copy writes what the artifact's file holds: that file is not the staged one
  have hyA : y = A := by
    rcases hy with rfl | ⟨pl, hsrcl, hdstl⟩
    · rw [hk₃.read_of_dirs hA fun _ _ => Set.notMem_empty _, Except.ok.injEq] at hx
      exact hx.symm
    · obtain ⟨-, rfl, -⟩ := (Disk.locate_plain hsrc).1 hsrcl
      obtain ⟨-, heq, -⟩ := (Disk.locate_plain hstaged).1 hdstl
      have hpre : dir.names <+: (⟨a.file⟩ : Path).names := by
        rw [heq, hnames]
        exact List.prefix_append _ _
      exact absurd hpre hout
  subst hyA
  obtain ⟨-, -, hbytes⟩ := (Disk.read_plain hstaged).1 hread
  refine ⟨rfl, ?_, ?_, hnodes⟩
  · rw [hk₅.bytes _ (Set.notMem_empty _), ← hnames]
    exact hbytes
  · rw [hnames] at hk₄
    exact ((hk₃.mono (Set.empty_subset _) le_rfl).trans hk₄).trans (hk₅.mono (Set.empty_subset _) le_rfl)

namespace Pipeline

variable {p : Pipeline} {artifacts : List Artifact}

/-- Staging artifacts one after another into a plain relative library directory where none of
their deployed files is, each artifact readable outside it and deployed under a name of its
own that is no other's staging name, stages every one of them: each staged file holds what its
artifact's file held, and the bytes anywhere else are kept. -/
theorem staging_bytes (hdir : p.settings.libDirectory.Plain) (hrel : p.settings.libDirectory.isAbsolute = false) :
    ∀ (xs : List Artifact) (w : World) (fs : List Bool) (w' : World),
      (∀ a ∈ xs, SimpleJarName (p.deployName a) ∧ Legacy.Staged (unprocessedPrefix ++ p.deployName a)) →
      (xs.map p.deployName).Nodup →
      (∀ a ∈ xs, ∀ b ∈ xs, p.deployName a ≠ unprocessedPrefix ++ p.deployName b) →
      (∀ a ∈ xs, (⟨a.file⟩ : Path).Plain ∧ ¬ p.settings.libDirectory.names <+: (⟨a.file⟩ : Path).names ∧
        ∃ A, w.disk.read ⟨a.file⟩ = .ok A) →
      (∀ a ∈ xs, w.disk.get? (p.settings.libDirectory.names ++ [p.deployName a]) = none) →
      (xs.mapM fun a => stageUnprocessed a (p.deployName a) p.settings.libDirectory p.toucher).runOn w =
        (.ok fs, w') →
      (∀ b ∈ fs, b = true) ∧
      w.disk.Keeps {q | ∃ a ∈ xs, q = p.settings.libDirectory.names ++ [unprocessedPrefix ++ p.deployName a]}
        ∅ w'.disk ∧
      ∀ a ∈ xs, ∀ A, w.disk.read ⟨a.file⟩ = .ok A →
        w'.disk.bytesAt (p.settings.libDirectory.names ++ [unprocessedPrefix ++ p.deployName a]) = some A
  | [], w, fs, w', _, _, _, _, _, h => by
    cases h
    exact ⟨by simp, Disk.Keeps.refl _ _ _, by simp⟩
  | a :: xs, w, fs, w', hxs, hnd, hun, hsrc, habs, h => by
    rw [List.mapM_cons] at h
    obtain ⟨b, w₁, hb, hrest⟩ := runOn_bind_eq_ok h
    obtain ⟨bs, w₂, hbs, hpure⟩ := runOn_bind_eq_ok hrest
    cases hpure
    rw [List.map_cons, List.nodup_cons] at hnd
    obtain ⟨hname, hstaged⟩ := hxs a List.mem_cons_self
    obtain ⟨hplain, hout, A, hA⟩ := hsrc a List.mem_cons_self
    obtain ⟨rfl, hbytes, hk₁, hn₁⟩ := stageUnprocessed_bytes hdir hrel hname.goodName hstaged.goodName hout
      hplain (habs a List.mem_cons_self) hA hb
    -- the later artifacts are still readable, and their deployed files still absent
    have hsrc₁ : ∀ c ∈ xs, ∀ C, w.disk.read ⟨c.file⟩ = .ok C → w₁.disk.read ⟨c.file⟩ = .ok C := by
      intro c hc C hC
      have hc' := hsrc c (List.mem_cons_of_mem a hc)
      refine hk₁.read hc'.1 (fun heq => hc'.2.1 ?_) (fun _ _ => Set.notMem_empty _) hC
      rw [Set.mem_singleton_iff.1 heq]
      exact List.prefix_append _ _
    have habs₁ : ∀ c ∈ xs, w₁.disk.get? (p.settings.libDirectory.names ++ [p.deployName c]) = none := by
      intro c hc
      refine hn₁ _ ?_ (habs c (List.mem_cons_of_mem a hc))
      rintro (hpre | heq)
      · have := hpre.length_le
        simp only [List.length_append, List.length_singleton] at this
        omega
      · exact hun c (List.mem_cons_of_mem a hc) a List.mem_cons_self (by simpa using heq)
    obtain ⟨hfs, hk₂, hbytes₂⟩ := staging_bytes hdir hrel xs w₁ bs w'
      (fun c hc => hxs c (List.mem_cons_of_mem a hc)) hnd.2
      (fun c hc d hd => hun c (List.mem_cons_of_mem a hc) d (List.mem_cons_of_mem a hd))
      (fun c hc => ⟨(hsrc c (List.mem_cons_of_mem a hc)).1, (hsrc c (List.mem_cons_of_mem a hc)).2.1,
        (hsrc c (List.mem_cons_of_mem a hc)).2.2.imp fun C hC => hsrc₁ c hc C hC⟩) habs₁ hbs
    -- the artifact's staged file is none of the later ones: their deployed names differ
    have hsep : p.settings.libDirectory.names ++ [unprocessedPrefix ++ p.deployName a] ∉
        {q | ∃ c ∈ xs, q = p.settings.libDirectory.names ++ [unprocessedPrefix ++ p.deployName c]} := by
      rintro ⟨c, hc, heq⟩
      have hac : p.deployName a = p.deployName c := by simpa using heq
      exact hnd.1 (hac ▸ List.mem_map_of_mem hc)
    refine ⟨fun b' hb' => ?_, ?_, fun c hc C hC => ?_⟩
    · rcases List.mem_cons.1 hb' with rfl | hb'
      · rfl
      · exact hfs b' hb'
    · have hsub₁ : {p.settings.libDirectory.names ++ [unprocessedPrefix ++ p.deployName a]} ⊆
          {q | ∃ c ∈ a :: xs, q = p.settings.libDirectory.names ++ [unprocessedPrefix ++ p.deployName c]} :=
        Set.singleton_subset_iff.2 ⟨a, List.mem_cons_self, rfl⟩
      have hsub₂ : {q | ∃ c ∈ xs, q = p.settings.libDirectory.names ++ [unprocessedPrefix ++ p.deployName c]} ⊆
          {q | ∃ c ∈ a :: xs, q = p.settings.libDirectory.names ++ [unprocessedPrefix ++ p.deployName c]} := by
        rintro q ⟨c, hc, rfl⟩
        exact ⟨c, List.mem_cons_of_mem a hc, rfl⟩
      exact (hk₁.mono hsub₁ le_rfl).trans (hk₂.mono hsub₂ le_rfl)
    · rcases List.mem_cons.1 hc with rfl | hc
      · rw [hA, Except.ok.injEq] at hC
        subst hC
        rw [hk₂.bytes _ hsep]
        exact hbytes
      · exact hbytes₂ c hc C (hsrc₁ c hc C hC)

/-- **What the single-pass run deploys.** A single-pass run from a fresh start that succeeds
deploys, for every selected artifact holding `A`, what `Toolkit.Chain` allows from `A` for the
passes run on the answer the toolkit gives for `A`: the last jar under the artifact's name in
the library directory and, with pack200, the last pack beside it under the packed name. -/
theorem runLegacy_chain {w wl : World} {lrep : LegacyReport} (hf : p.FreshStart artifacts w)
    (h : (p.runLegacy artifacts).runOn w = (.ok lrep, wl)) :
    ∃ sel, p.select artifacts = .ok sel ∧ ∀ a ∈ sel, ∀ A, w.disk.read ⟨a.file⟩ = .ok A →
      ∃ x P J, p.toolkit.Answers p.settings A x ∧ p.toolkit.Chain (p.settings.passTasks x) (A, A) (P, J) ∧
        wl.disk.read (p.settings.libDirectory.push (p.deployName a)) = .ok J ∧
        (p.settings.isPack200 = true →
          wl.disk.read (p.settings.libDirectory.push (p.deployName a ++ p.settings.packExtension)) = .ok P) := by
  rcases runLegacy_cases h with ⟨e, he, -⟩ | ⟨sel, b, w₂, flags, w₁, report, hsel, hkey, hmap, hproc, -⟩
  · cases he
  refine ⟨sel, hsel, fun a ha A hA => ?_⟩
  have hart : ∀ c ∈ sel, c ∈ artifacts := fun c hc => (mem_of_select hsel hc).1
  have hxs : ∀ c ∈ sel, SimpleJarName (p.deployName c) ∧ Legacy.Staged (unprocessedPrefix ++ p.deployName c) :=
    fun c hc => ⟨hf.names c (hart c hc), (staged_of_select hsel hc (hf.names c (hart c hc)).slash_not_mem).1⟩
  -- the keystore step keeps the artifacts and brings nothing into the library directory
  have hk₂ := (frames_generateKeystore_at (fun r hr => (hf.keystore r hr).1) w _ w₂ hkey).1
  have hn₂ := p.sprouts_generateKeystore (fun r hr => ⟨(hf.keystore r hr).1, (hf.keystore r hr).2.1⟩)
    w _ w₂ hkey
  have hsrc₂ : ∀ c ∈ sel, ∀ C, w.disk.read ⟨c.file⟩ = .ok C → w₂.disk.read ⟨c.file⟩ = .ok C :=
    fun c hc _ hC => hk₂.read_avoids (hf.source _ (hart c hc)) (hf.source_avoids_keystore (hart c hc)) hC
  have habs : ∀ c ∈ sel, w₂.disk.get? (p.settings.libDirectory.names ++ [p.deployName c]) = none := by
    intro c hc
    refine hn₂ _ ?_ (hf.lib_empty _ (List.prefix_append _ _))
    rintro ⟨r, hr, hq⟩
    exact (hf.keystore r hr).2.2.1 ((List.prefix_append _ _).trans hq)
  -- every selected artifact is staged, with its bytes
  obtain ⟨hflags, -, hstaged⟩ := staging_bytes hf.lib hf.lib_relative sel { w₂ with clock := w₂.clock + 1 }
    flags w₁ hxs (select_nodup hsel) (fun c hc d hd => hf.unprefixed c (hart c hc) d (hart d hd))
    (fun c hc => ⟨hf.source c (hart c hc), hf.lib_not_prefix_source (hart c hc),
      (hf.source_read c (hart c hc)).imp fun C hC => hsrc₂ c hc C hC⟩) habs hmap
  -- so the batch that processing takes up is exactly what was staged
  have hfresh : w.disk.stagedJars p.settings.libDirectory.names (w.clock / nanosPerSecond * nanosPerSecond) = [] := by
    refine List.eq_nil_iff_forall_not_mem.2 fun n hn => ?_
    obtain ⟨-, -, x, t, hfile, -⟩ := Disk.mem_stagedJars_iff.1 hn
    rw [Disk.fileAt_eq_some, hf.lib_empty _ (List.prefix_append _ _)] at hfile
    cases hfile
  obtain ⟨-, hlen, hs⟩ := staging_of_run hf.proper hf.lib (fun c hc => (hf.names c hc).slash_not_mem)
    (fun r hr => ⟨(hf.keystore r hr).1, fun heq => (hf.keystore r hr).2.2.1 (heq ▸ List.dropLast_prefix _)⟩)
    hfresh hsel hkey hmap
  have hall : p.stagedNames sel flags = sel.map fun c => unprocessedPrefix ++ p.deployName c := by
    have hfilter : (sel.zip flags).filter (·.2) = sel.zip flags :=
      List.filter_eq_self.2 fun x hx => hflags x.2 (List.of_mem_zip hx).2
    show List.map ((fun c => unprocessedPrefix ++ p.deployName c) ∘ Prod.fst) _ = _
    rw [hfilter, ← List.map_map, List.map_fst_zip hlen.symm.le]
  have hmem : ∀ n, n ∈ w₁.disk.stagedJars p.settings.libDirectory.names (w₂.clock / nanosPerSecond * nanosPerSecond) ↔
      n ∈ sel.map fun c => unprocessedPrefix ++ p.deployName c := fun n => by
    rw [hs.staged n, hall]
  have hapart : ∀ m ∈ w₁.disk.stagedJars p.settings.libDirectory.names (w₂.clock / nanosPerSecond * nanosPerSecond),
      unprocessedPrefix ++ m ∉ w₁.disk.stagedJars p.settings.libDirectory.names (w₂.clock / nanosPerSecond * nanosPerSecond) := by
    intro m hm hm'
    obtain ⟨c, hc, rfl⟩ := List.mem_map.1 ((hmem m).1 hm)
    obtain ⟨d, hd, heq⟩ := List.mem_map.1 ((hmem _).1 hm')
    exact hf.unprefixed d (hart d hd) c (hart c hc) (by simpa using heq)
  -- processing leaves what the passes leave from the staged bytes
  obtain ⟨x, P, J, hx, hchain, hJ, hP⟩ := Legacy.processDirectory_bytes hf.lib hs.proper rfl hapart
    (runOn_mapError_eq_ok hproc) _ ((hmem _).2 (List.mem_map_of_mem ha)) A (hstaged a ha A (hsrc₂ a ha A hA))
  rw [Legacy.unprefixed, drop_append_length] at hJ hP
  exact ⟨x, P, J, hx, hchain, hJ, hP⟩

end Pipeline

end JarDeploy
