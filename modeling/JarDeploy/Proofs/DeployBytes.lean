import JarDeploy.Proofs.TaskBytes
import JarDeploy.Proofs.Deploy
import JarDeploy.Proofs.Placement
import JarDeploy.Proofs.UpToDate
import JarDeploy.Proofs.LegacyRun

/-!
# What a request deploys

Processing a stale request copies its artifact into its working directory and runs its
stages, each on a fresh copy of what the stage before it left; every stage's output holds
what its task's tool may leave (`Task.execute_yields`). So the stages of a chain that all
succeed leave, at the chain's last output and at its last jar, what `Toolkit.Chain` allows
from the artifact's bytes (`Executor.runStages_chain`). Deploying copies the last jar to the
final file and the last output to the packed companion (`Executor.process_chain`).

This needs the request to be laid out apart from its artifact (`Request.Separate`): the
artifact and the deployed files lie outside the working directory, and the deployed name is
more than `.jar`. Processing then changes nothing outside the request's places, its working
directory and its deployed files.
-/

namespace JarDeploy

set_option autoImplicit false

open Act

/-! ## The places of a request -/

namespace Request

variable {r : Request}

/-- The places of a request's working directory and all it holds. -/
def workPlaces (r : Request) : Set Place := {q | r.config.workingDirectory.names <+: q}

/-- The places processing a request may change: its working directory and its deployed
files. -/
def places (r : Request) : Set Place := r.workPlaces ∪ r.deployPlaces

/-- The last jar so far is one of the files the stages were handed. -/
theorem lastJarBefore_eq_sourcePath (i : Nat) : ∃ j ≤ i, r.lastJarBefore i = r.sourcePath j := by
  induction i with
  | zero => exact ⟨0, le_rfl, rfl⟩
  | succ i ih =>
    rw [lastJarBefore]
    split
    · obtain ⟨j, hj, heq⟩ := ih
      exact ⟨j, by omega, heq⟩
    · exact ⟨i + 1, le_rfl, rfl⟩

theorem stageDir_subset_workPlaces (i : Nat) : {q | (r.stageDir i).names <+: q} ⊆ r.workPlaces := by
  intro q hq
  have hdir : (r.stageDir i).names = r.config.workingDirectory.names ++ [r.stageName i] :=
    Path.names_push _ (goodName_stageName i)
  exact (List.prefix_append _ _).trans (hdir ▸ hq)

/-- Every file a stage is handed lies in the working directory. -/
theorem Layout.sourcePath_mem_workPlaces (hl : r.Layout) (i : Nat) : (r.sourcePath i).names ∈ r.workPlaces := by
  cases i with
  | zero =>
    show r.config.workingDirectory.names <+: r.originalFile.names
    rw [hl.original, Path.names_push _ hl.goodName_filename]
    exact List.prefix_append _ _
  | succ i => exact stageDir_subset_workPlaces i (hl.prefix_outputPath i)

theorem Layout.lastJarBefore_mem_workPlaces (hl : r.Layout) (i : Nat) :
    (r.lastJarBefore i).names ∈ r.workPlaces := by
  obtain ⟨j, -, hj⟩ := r.lastJarBefore_eq_sourcePath i
  rw [hj]
  exact hl.sourcePath_mem_workPlaces j

/-- What processing a request needs to deploy what its chain makes of its artifact: a laid
out chain whose name is more than `.jar`, a request that is not up to date, and an artifact
and deployed files at plain paths outside the working directory, the packed companion apart
from the final file. -/
structure Separate (r : Request) : Prop where
  layout : r.Layout
  jar : r.filename ≠ ".jar"
  stale : r.uptodate = false
  source : (⟨r.artifact.file⟩ : Path).Plain
  source_out : (⟨r.artifact.file⟩ : Path).names ∉ r.workPlaces
  final : r.finalFile.Plain
  final_out : r.finalFile.names ∉ r.workPlaces
  packed : ∀ p, r.packedFile = some p → p.Plain ∧ p.names ∉ r.workPlaces ∧ p.names ≠ r.finalFile.names

end Request

/-! ## The stages -/

namespace Executor

variable (ex : Executor) {r : Request}

/-- The stages of a chain from stage `i` on, when they all succeed: the chain ends at its last
output and its last jar, holding what `Toolkit.Chain` allows from what stage `i` was handed
and from the last jar before it; nothing outside the request's working directory changed.
The induction is on the number of stages left. -/
theorem runStages_chain (hl : r.Layout) (hjar : r.filename ≠ ".jar") :
    ∀ d i (w : World) (cur jar : ByteArray) (st : ChainState) (w' : World), i + d = r.tasks.length →
      w.disk.read (r.sourcePath i) = .ok cur → w.disk.read (r.lastJarBefore i) = .ok jar →
      (ex.runStages r (r.stages.drop i) ⟨r.sourcePath i, r.lastJarBefore i, r.tasks.take i⟩).runOn w =
        (.ok (st, none), w') →
      ∃ cur' jar', ex.toolkit.Chain (r.tasks.drop i) (cur, jar) (cur', jar') ∧
        st.current = r.sourcePath r.tasks.length ∧ st.lastJar = r.lastJar ∧
        w'.disk.read st.current = .ok cur' ∧ w'.disk.read st.lastJar = .ok jar' ∧
        w.disk.Keeps r.workPlaces r.workPlaces w'.disk := by
  intro d
  induction d with
  | zero =>
    intro i w cur jar st w' hi hcur hjar' h
    have hdrop : r.stages.drop i = [] := List.drop_of_length_le (by rw [Request.length_stages]; omega)
    rw [hdrop, runStages, runOn_pure, Prod.mk.injEq, Except.ok.injEq, Prod.mk.injEq] at h
    obtain ⟨⟨rfl, -⟩, rfl⟩ := h
    obtain rfl : i = r.tasks.length := by omega
    exact ⟨cur, jar, by simp, rfl, rfl, hcur, hjar', Disk.Keeps.refl _ _ _⟩
  | succ d ih =>
    intro i w cur jar st w' hi hcur hjar' h
    have hlt : i < r.tasks.length := by omega
    rw [r.stages_drop hlt, runStages] at h
    -- preparing the stage changes only its directory
    have hfresh := @frames_freshStage (r.stageDir i) (r.sourcePath i) (hl.plain_stageDir i) fun n hn => by
      rw [hl.fileName?_sourcePath] at hn
      exact Option.some.inj hn ▸ hl.goodName_nameAt i
    rcases hfs : (freshStage (r.stageDir i) (r.sourcePath i)).runOn w with ⟨e | input, w₁⟩
    · rw [runOn_bind_ok (runOn_attempt_of hfs)] at h
      cases h
    obtain ⟨hk₁, -⟩ := hfresh w _ _ hfs
    obtain ⟨rfl, hin⟩ := freshStage_ok (hl.plain_stageDir i) (hl.plain_sourcePath i)
      (hl.fileName?_sourcePath i) (hl.goodName_nameAt i) (hl.not_prefix_sourcePath i) hcur hfs
    rw [runOn_bind_ok (runOn_attempt_of hfs)] at h
    dsimp only at h
    rw [show ((r.stageDir i).push "input").push (r.nameAt i) = r.inputPath i from rfl] at hin h
    -- the task runs on its fresh copy, and its output holds what its tool may leave
    have hsame : ((r.stageDir i).push (r.nameAt (i + 1))).same (r.inputPath i) = false := by
      apply Path.same_eq_false
      simp [Request.inputPath, Path.parts_push _ (hl.goodName_nameAt _), Path.parts_push _ Request.goodName_input]
    rcases hex : (r.tasks[i].execute r.config ex.toolkit (r.inputPath i) (r.stageDir i)).runOn w₁ with
      ⟨e | output, w₂⟩
    · rw [runOn_bind_ok (runOn_attempt_of hex)] at h
      cases h
    obtain ⟨hk₂, -⟩ := execute_ok (hl.fits i hlt).1 (hl.fits i hlt).2 (hl.fileName?_inputPath i)
      hsame (hl.plain_outputPath i) (Disk.isFile_iff_read.2 ⟨_, hin⟩) hex
    obtain ⟨rfl, y, hy, hout⟩ := Task.execute_yields (hl.fits i hlt).1 (hl.fits i hlt).2
      (hl.fileName?_inputPath i) hsame (hl.plain_outputPath i) hin hex
    rw [runOn_bind_ok (runOn_attempt_of hex)] at h
    dsimp only at h
    rw [show (r.stageDir i).push (r.nameAt (i + 1)) = r.outputPath i from rfl, hl.lastJar_step hjar i,
      ← List.take_succ_eq_append_getElem hlt] at h
    rw [show (r.stageDir i).push (r.nameAt (i + 1)) = r.outputPath i from rfl] at hout hk₂
    -- the last jar so far lies outside the stage, so it is as it was
    obtain ⟨j, hj, hjeq⟩ := r.lastJarBefore_eq_sourcePath i
    have hjar₁ : w₁.disk.read (r.lastJarBefore i) = .ok jar := by
      rw [hjeq] at hjar' ⊢
      exact hk₁.read_outside (hl.plain_sourcePath j) (hl.not_prefix_sourcePath_of_le hj) hjar'
    have hjar₂ : w₂.disk.read (r.lastJarBefore i) = .ok jar := by
      rw [hjeq] at hjar₁ ⊢
      exact hk₂.read_of_dirs hjar₁ fun pl hpl => by
        rw [(Disk.locate_plain (hl.plain_sourcePath j)).1 hpl |>.2.1]
        exact hl.sourcePath_ne_outputPath_of_le (by omega)
    have hnext : w₂.disk.read (r.lastJarBefore (i + 1)) =
        .ok (if r.tasks[i] = .pack200 then jar else y) := by
      rw [Request.lastJarBefore, List.getElem?_eq_getElem hlt]
      by_cases hp : r.tasks[i] = .pack200
      · simp only [hp, if_true]
        exact hjar₂
      · simp only [Option.some.injEq, hp, if_false]
        exact hout
    obtain ⟨cur', jar', hchain, hst, hlast, hcur', hjar'', hk⟩ :=
      ih (i + 1) w₂ y _ st w' (by omega) hout hnext h
    refine ⟨cur', jar', ?_, hst, hlast, hcur', hjar'', ?_⟩
    · rw [List.drop_eq_getElem_cons hlt]
      exact .cons hy hchain
    · refine ((hk₁.mono (Request.stageDir_subset_workPlaces i) (Request.stageDir_subset_workPlaces i)).trans
        (hk₂.mono (fun q hq => ?_) (Set.empty_subset _))).trans hk
      rw [Set.mem_singleton_iff.1 hq]
      exact Request.stageDir_subset_workPlaces i (hl.prefix_outputPath i)

/-- A stamp keeps every file as it reads. -/
theorem read_of_touch {p q : Path} {w w' : World} {rep : Except Empty TouchReport} {X : ByteArray}
    (h : (ex.toucher.touch p : Act Empty TouchReport).runOn w = (rep, w')) (hX : w.disk.read q = .ok X) :
    w'.disk.read q = .ok X :=
  (Toucher.frames_touch (B := ∅) (D := ∅) ex.toucher p w rep w' h).1.read_of_dirs hX fun _ _ => Set.notMem_empty _

theorem keeps_touch {p : Path} {w w' : World} {rep : Except Empty TouchReport} {B D : Set Place}
    (h : (ex.toucher.touch p : Act Empty TouchReport).runOn w = (rep, w')) : w.disk.Keeps B D w'.disk :=
  (Toucher.frames_touch ex.toucher p w rep w' h).1

/-- A chain that ends without failure deploys what `Toolkit.Chain` allows from the artifact:
the last jar's bytes to the final file and, when the chain ends by packing, its last output's
bytes to the packed companion. It changes only the request's places. -/
theorem runChain_chain (hs : r.Separate) {w w' : World} {A : ByteArray} {ran : List Task}
    (hA : w.disk.read ⟨r.artifact.file⟩ = .ok A) (h : (ex.runChain r).runOn w = (.ok (ran, none), w')) :
    ∃ cur jar, ex.toolkit.Chain r.tasks (A, A) (cur, jar) ∧
      w'.disk.read r.finalFile = .ok jar ∧ (∀ p, r.packedFile = some p → w'.disk.read p = .ok cur) ∧
      w.disk.Keeps r.places r.places w'.disk := by
  have hl := hs.layout
  unfold runChain at h
  dsimp only at h
  have hwork : r.workPlaces ⊆ r.places := Set.subset_union_left
  have hdeploy : r.deployPlaces ⊆ r.places := Set.subset_union_right
  -- the artifact is copied into the working directory and stamped
  rcases hcopy : (copyInto ⟨r.artifact.file⟩ r.originalFile).runOn w with ⟨e | u, w₁⟩
  · rw [runOn_bind_ok (runOn_attempt_of hcopy)] at h
    cases h
  rw [runOn_bind_ok (runOn_attempt_of hcopy)] at h
  have horig := hl.sourcePath_mem_workPlaces 0
  obtain ⟨hA₁, hk₁⟩ := copyInto_ok hl.plain_originalFile
    (fun _ => Disk.locate_ne_of_plain hs.source fun heq => hs.source_out (heq ▸ horig)) hA hcopy
  obtain ⟨_, w₂, htouch, h⟩ := runOn_bind_eq_ok h
  have hA₂ := ex.read_of_touch htouch hA₁
  -- the stages run and all succeed
  obtain ⟨⟨st, failure⟩, w₃, hstages, h⟩ := runOn_bind_eq_ok h
  cases failure with
  | some e => cases h
  | none => ?_
  simp only [Option.isSome_none, Bool.false_eq_true, if_false] at h
  obtain ⟨cur, jar, hchain, hcurp, hlastp, hcur, hjarb, hk₃⟩ :=
    ex.runStages_chain hl hs.jar r.tasks.length 0 w₂ A A st w₃ (by omega) hA₂ hA₂ hstages
  rw [List.drop_zero] at hchain
  refine ⟨cur, jar, hchain, ?_⟩
  -- the last jar is deployed to the final file and stamped
  rcases hdep : (copyInto st.lastJar r.finalFile).runOn w₃ with ⟨e | u', w₄⟩
  · rw [runOn_bind_ok (runOn_attempt_of hdep)] at h
    cases h
  rw [runOn_bind_ok (runOn_attempt_of hdep)] at h
  rw [hlastp] at hjarb hdep
  obtain ⟨hfin₄, hk₄⟩ := copyInto_ok hs.final (fun _ => Disk.locate_ne_of_plain (hl.plain_lastJarBefore _)
    fun heq => hs.final_out (heq ▸ hl.lastJarBefore_mem_workPlaces _)) hjarb hdep
  obtain ⟨_, w₅, htouch₅, h⟩ := runOn_bind_eq_ok h
  have hfin₅ := ex.read_of_touch htouch₅ hfin₄
  have hcur₅ : w₅.disk.read st.current = .ok cur := by
    rw [hcurp] at hcur ⊢
    refine ex.read_of_touch htouch₅ (hk₄.read_of_dirs hcur fun pl hpl => ?_)
    rw [(Disk.locate_plain (hl.plain_sourcePath _)).1 hpl |>.2.1]
    exact fun heq => hs.final_out (Set.mem_singleton_iff.1 heq ▸ hl.sourcePath_mem_workPlaces _)
  have hk₅ : w.disk.Keeps r.places r.places w₅.disk :=
    ((((hk₁.mono (fun q hq => hwork (Set.mem_singleton_iff.1 hq ▸ horig)) (Set.empty_subset _)).trans
      (ex.keeps_touch htouch)).trans (hk₃.mono hwork hwork)).trans
      (hk₄.mono (fun q hq => hdeploy (.inl (Set.mem_singleton_iff.1 hq))) (Set.empty_subset _))).trans
      (ex.keeps_touch htouch₅)
  cases hp : r.packedFile with
  | none =>
    rw [hp] at h
    cases h
    exact ⟨hfin₅, (fun _ hp' => by cases hp'), hk₅⟩
  | some packed =>
    rw [hp] at h
    dsimp only at h
    obtain ⟨hpplain, hpout, hpne⟩ := hs.packed packed hp
    -- the last output is deployed beside the final file as the packed companion
    rcases hpk : (copyInto st.current packed).runOn w₅ with ⟨e | u'', w₆⟩
    · rw [runOn_bind_ok (runOn_attempt_of hpk)] at h
      cases h
    rw [runOn_bind_ok (runOn_attempt_of hpk)] at h
    rw [hcurp] at hcur₅ hpk
    obtain ⟨hpk₆, hk₆⟩ := copyInto_ok hpplain (fun _ => Disk.locate_ne_of_plain (hl.plain_sourcePath _)
      fun heq => hpout (heq ▸ hl.sourcePath_mem_workPlaces _)) hcur₅ hpk
    obtain ⟨_, w₇, htouch₇, h⟩ := runOn_bind_eq_ok h
    cases h
    refine ⟨ex.read_of_touch htouch₇ (hk₆.read_of_dirs hfin₅ fun pl hpl => ?_), fun q hq => ?_, ?_⟩
    · rw [(Disk.locate_plain hs.final).1 hpl |>.2.1]
      exact fun heq => hpne (Set.mem_singleton_iff.1 heq).symm
    · cases hq
      exact ex.read_of_touch htouch₇ hpk₆
    · exact (hk₅.trans (hk₆.mono (fun q hq => hdeploy (.inr ⟨packed, hp, Set.mem_singleton_iff.1 hq⟩))
        (Set.empty_subset _))).trans (ex.keeps_touch htouch₇)

/-- Processing a request apart from its artifact, when it ends without error, deploys what
`Toolkit.Chain` allows from the artifact, and changes only the request's places. -/
theorem process_chain (hs : r.Separate) {w w' : World} {A : ByteArray} {o : RequestOutcome}
    (hA : w.disk.read ⟨r.artifact.file⟩ = .ok A) (h : (ex.process r).runOn w = (.ok o, w'))
    (herr : o.error = none) :
    ∃ cur jar, ex.toolkit.Chain r.tasks (A, A) (cur, jar) ∧
      w'.disk.read r.finalFile = .ok jar ∧ (∀ p, r.packedFile = some p → w'.disk.read p = .ok cur) ∧
      w.disk.Keeps r.places r.places w'.disk := by
  unfold process at h
  simp only [hs.stale, Bool.false_eq_true, if_false] at h
  obtain ⟨⟨ran, failure⟩, w₁, hchain, h⟩ := runOn_bind_eq_ok h
  cases failure with
  | some e =>
    -- a failure is recorded in the outcome
    cases h
    simp at herr
  | none =>
    cases h
    exact ex.runChain_chain hs hA hchain

end Executor

/-! ## A batch of requests -/

/-- A path, and every directory on its way, lies outside the places `S`. -/
def Path.Avoids (p : Path) (S : Set Place) : Prop := ∀ k ≤ p.names.length, p.names.take k ∉ S

/-- A file that, with the directories on its way, lies outside what changed reads as it did. -/
theorem Disk.Keeps.read_avoids {d d' : Disk} {S : Set Place} {p : Path} {x : ByteArray}
    (hk : d.Keeps S S d') (hp : p.Plain) (ha : p.Avoids S) (h : d.read p = .ok x) : d'.read p = .ok x :=
  hk.read hp (by simpa using ha p.names.length le_rfl) (fun k hk' => ha k hk'.le) h

namespace Executor

variable (ex : Executor)

/-- Processing requests one after another, each apart from its artifact, with no artifact in
the places of a request and no deployed file in the places of a later request, all ending
without error: each request deploys what `Toolkit.Chain` allows from its artifact as it was
when the batch began, and every file outside all the requests' places reads as it did. The
induction is on the requests. -/
theorem mapM_process_chain : ∀ (rs : List Request) (w w' : World) (os : List RequestOutcome),
    (∀ r ∈ rs, r.Separate) →
    (∀ r ∈ rs, ∀ r' ∈ rs, (⟨r.artifact.file⟩ : Path).Avoids r'.places) →
    rs.Pairwise (fun r r' => ∀ q ∈ r.finalFile :: r.packedFile.toList, q.Avoids r'.places) →
    (∀ r ∈ rs, ∃ A, w.disk.read ⟨r.artifact.file⟩ = .ok A) →
    (rs.mapM ex.process).runOn w = (.ok os, w') → (∀ o ∈ os, o.error = none) →
    (∀ q : Path, q.Plain → (∀ r ∈ rs, q.Avoids r.places) → ∀ x, w.disk.read q = .ok x →
      w'.disk.read q = .ok x) ∧
    ∀ r ∈ rs, ∀ A, w.disk.read ⟨r.artifact.file⟩ = .ok A → ∃ cur jar, ex.toolkit.Chain r.tasks (A, A) (cur, jar) ∧
      w'.disk.read r.finalFile = .ok jar ∧ ∀ p, r.packedFile = some p → w'.disk.read p = .ok cur
  | [], w, w', os, _, _, _, _, h, _ => by
    cases h
    exact ⟨fun _ _ _ _ hx => hx, by simp⟩
  | r :: rs, w, w', os, hsep, hsrc, hpair, hread, h, herr => by
    rw [List.mapM_cons] at h
    obtain ⟨o, w₁, ho, h⟩ := runOn_bind_eq_ok h
    obtain ⟨os', w₂, hos, hret⟩ := runOn_bind_eq_ok h
    cases hret
    have hs := hsep r List.mem_cons_self
    obtain ⟨A, hA⟩ := hread r List.mem_cons_self
    obtain ⟨cur, jar, hchain, hfin, hpk, hk⟩ := ex.process_chain hs hA ho (herr o List.mem_cons_self)
    -- the rest starts from what processing `r` left, where their artifacts are as they were
    have hsrc₁ : ∀ r' ∈ rs, ∀ X, w.disk.read ⟨r'.artifact.file⟩ = .ok X → w₁.disk.read ⟨r'.artifact.file⟩ = .ok X :=
      fun r' hr' _ hX => hk.read_avoids (hsep r' (.tail _ hr')).source (hsrc r' (.tail _ hr') r List.mem_cons_self) hX
    obtain ⟨hkeep, hdone⟩ := mapM_process_chain rs w₁ w' os' (fun r' hr' => hsep r' (.tail _ hr'))
      (fun a ha b hb => hsrc a (.tail _ ha) b (.tail _ hb)) (List.pairwise_cons.1 hpair).2
      (fun r' hr' => (hread r' (.tail _ hr')).imp fun X hX => hsrc₁ r' hr' X hX) hos
      (fun o' ho' => herr o' (.tail _ ho'))
    refine ⟨fun q hq hav x hx => hkeep q hq (fun r' hr' => hav r' (.tail _ hr')) x
      (hk.read_avoids hq (hav r List.mem_cons_self) hx), fun r' hr' A' hA' => ?_⟩
    rcases List.mem_cons.1 hr' with rfl | hr'
    · -- the first request's deployed files lie outside the places of the rest
      obtain rfl : A' = A := Except.ok.inj (hA'.symm.trans hA)
      have havoid := (List.pairwise_cons.1 hpair).1
      refine ⟨cur, jar, hchain, hkeep _ hs.final (fun r'' hr'' => havoid r'' hr'' _ List.mem_cons_self) _ hfin,
        fun p hp => hkeep p (hs.packed p hp).1 (fun r'' hr'' => havoid r'' hr'' p (by simp [hp])) _ (hpk p hp)⟩
    · exact hdone r' hr' A' (hsrc₁ r' hr' A' hA')

end Executor

/-! ## Planning -/

/-- What a request planned on the world `w` takes from it: a chain planned from the toolkit's
answer for its artifact's bytes there, and, when it is up to date, a final file already
there. -/
structure Request.PlannedOn (tk : Toolkit) (w : World) (r : Request) : Prop where
  tasks : ∀ A, w.disk.read ⟨r.artifact.file⟩ = .ok A →
    ∃ x, tk.Answers r.config.settings A x ∧ r.tasks = r.config.plan x
  fresh : r.uptodate = true → ∃ n, w.disk.stat r.finalFile = .ok n

namespace RequestBuilder

variable {b : RequestBuilder} {a : Artifact} {ov : Bool} {w w' : World} {r : Request}

/-- A file found newer than a time is there. -/
theorem exists_stat_of_newerThan {ε : Type} {p : Path} {t : Nat} {u : Bool}
    (h : (newerThan p t : Act ε Bool).runOn w = (.ok u, w')) (hu : u = true) :
    ∃ n, w.disk.stat p = .ok n := by
  rw [runOn_newerThan] at h
  cases hst : w.disk.stat p with
  | ok n => exact ⟨n, rfl⟩
  | error e => simp [hst, hu] at h

/-- Building a request plans its chain from the toolkit's answer for the artifact, and finds
it up to date only when its final file is there. -/
theorem build_plannedOn (h : (b.build a ov).runOn w = (.ok r, w')) : r.PlannedOn b.toolkit w := by
  have hw : w' = w := b.readOnly_build a ov w _ w' h
  subst hw
  unfold build at h
  extract_lets c filename s originalFile finalFile rest at h
  -- whatever the answer, the rest plans the chain from it and looks at the copies on the world
  have hrest : ∀ x, (rest x).runOn w' = (.ok r, w') →
      r.tasks = c.plan x ∧ r.config = c ∧ r.artifact = a ∧
        (r.uptodate = true → ∃ n, w'.disk.stat r.finalFile = .ok n) := by
    intro x hx
    simp only [rest] at hx
    obtain ⟨_, w₁, hloop, hx⟩ := runOn_bind_eq_ok hx
    have hw₁ : w₁ = w' := readOnly_forIn _ _ (fun t _ _ => ?_) w' _ w₁ hloop
    · subst hw₁
      obtain ⟨source, w₂, hstat, hx⟩ := runOn_bind_eq_ok hx
      have hw₂ : w₂ = w₁ := readOnly_mapError _ (readOnly_stat _) w₁ _ w₂ hstat
      subst hw₂
      obtain ⟨n₁, w₃, hn₁, hx⟩ := runOn_bind_eq_ok hx
      rw [runOn_newerThan, Prod.mk.injEq, Except.ok.injEq] at hn₁
      obtain ⟨rfl, rfl⟩ := hn₁
      obtain ⟨n₂, w₄, hn₂, hx⟩ := runOn_bind_eq_ok hx
      -- the final file is newer only when it is there
      have hfresh := exists_stat_of_newerThan hn₂
      rw [runOn_newerThan, Prod.mk.injEq, Except.ok.injEq] at hn₂
      obtain ⟨rfl, rfl⟩ := hn₂
      split at hx
      · obtain ⟨n₃, w₅, hn₃, hx⟩ := runOn_bind_eq_ok hx
        rw [runOn_newerThan, Prod.mk.injEq, Except.ok.injEq] at hn₃
        obtain ⟨rfl, rfl⟩ := hn₃
        cases hx
        refine ⟨rfl, rfl, rfl, fun hu => hfresh ?_⟩
        simp only [Bool.and_eq_true] at hu
        exact hu.1.2
      · cases hx
        refine ⟨rfl, rfl, rfl, fun hu => hfresh ?_⟩
        simp only [Bool.and_eq_true] at hu
        exact hu.2
    · split
      · exact readOnly_throw _
      · exact readOnly_pure _
  split at h
  · -- the toolkit is asked about the artifact's bytes
    rename_i hask
    obtain ⟨signed, w₁, hsigned, h⟩ := runOn_bind_eq_ok h
    have hw₁ : w₁ = w' := readOnly_mapError _ (b.toolkit.readOnly_isSigned _) w' _ w₁ hsigned
    subst hw₁
    split at h
    · obtain ⟨_, _, hthrow, -⟩ := runOn_bind_eq_ok h
      cases hthrow
    rw [pure_bind] at h
    obtain ⟨htasks, hconfig, hart, hup⟩ := hrest _ h
    refine ⟨fun A hA => ⟨signed, ?_, by rw [htasks, hconfig]⟩, hup⟩
    rw [hart] at hA
    rw [runOn_mapError, Toolkit.isSigned_runOn _ hA] at hsigned
    rw [hconfig, Toolkit.Answers, show c.settings = s from rfl, if_pos hask]
    cases hsd : b.toolkit.signedData A <;> simp [hsd, Except.mapError] at hsigned ⊢
    exact hsigned
  · -- the toolkit is not asked, and the answer is no
    rename_i hask
    rw [pure_bind] at h
    obtain ⟨htasks, hconfig, -, hup⟩ := hrest _ h
    refine ⟨fun A _ => ⟨false, ?_, by rw [htasks, hconfig]⟩, hup⟩
    rw [hconfig, Toolkit.Answers, show c.settings = s from rfl, if_neg hask]

end RequestBuilder

namespace Pipeline

variable (p : Pipeline)

/-- Planning from a builder numbered `k` only looks, and appends one request per artifact,
each built by the pipeline's builder and planned on the world it looks at. -/
theorem foldlM_planRound_plannedOn :
    ∀ (xs : List Artifact) (k : Nat) (rs : List Request) {w w' : World} {acc : RequestBuilder × List Request},
      (xs.foldlM p.planRound ({ p.builder with nextId := k }, rs)).runOn w = (.ok acc, w') →
      w' = w ∧ ∃ rs', acc.2 = rs ++ rs' ∧ List.Forall₂ (fun a r => (∃ j,
        RequestBuilder.Builds { p.builder with nextId := j } a p.settings.outputJarVersions r) ∧
          r.PlannedOn p.toolkit w) xs rs'
  | [], _, rs, w, w', acc, h => by
    cases h
    exact ⟨rfl, [], by simp, .nil⟩
  | x :: xs, k, rs, w, w', acc, h => by
    rw [List.foldlM_cons] at h
    obtain ⟨acc₁, w₁, hround, hrest⟩ := runOn_bind_eq_ok h
    rw [runOn_planRound] at hround
    rcases hb : (RequestBuilder.build { p.builder with nextId := k } x p.settings.outputJarVersions).runOn w
      with ⟨re | r, w₂⟩ <;> rw [hb] at hround <;> cases hround
    have hw₂ : w₁ = w := RequestBuilder.readOnly_build _ _ _ w _ w₁ hb
    subst hw₂
    obtain ⟨hw', rs', hrs, hall⟩ := foldlM_planRound_plannedOn xs (k + 1) (rs ++ [r]) hrest
    refine ⟨hw', r :: rs', by simp [hrs], .cons ⟨⟨k, RequestBuilder.build_returns _ _ _ w₁ r _ hb⟩, ?_⟩ hall⟩
    exact RequestBuilder.build_plannedOn hb

/-- Planning builds, for every selected artifact in order, a request planned on the world it
looks at, which it leaves as it is. -/
theorem plan_plannedOn {artifacts : List Artifact} {w w' : World} {requests : List Request}
    (h : (p.plan artifacts).runOn w = (.ok requests, w')) :
    w' = w ∧ ∃ sel, p.select artifacts = .ok sel ∧ List.Forall₂ (fun a r => (∃ j,
      RequestBuilder.Builds { p.builder with nextId := j } a p.settings.outputJarVersions r) ∧
        r.PlannedOn p.toolkit w) sel requests := by
  rw [plan_eq] at h
  obtain ⟨sel, w₁, hsel, h⟩ := runOn_bind_eq_ok h
  rw [runOn_ofExcept] at hsel
  obtain ⟨acc, w₂, hfold, hret⟩ := runOn_bind_eq_ok h
  cases hret
  have hs : p.select artifacts = .ok sel ∧ w₁ = w := by
    cases hc : p.select artifacts <;> rw [hc] at hsel <;> cases hsel
    exact ⟨rfl, rfl⟩
  obtain ⟨hsel', rfl⟩ := hs
  obtain ⟨hw, rs', hrs, hall⟩ := p.foldlM_planRound_plannedOn sel 0 [] hfold
  refine ⟨hw, sel, hsel', ?_⟩
  simpa [hrs] using hall

end Pipeline

/-! ## A fresh start -/

/-- What a path's node is found at: the place of its names. -/
theorem Disk.get?_of_stat {d : Disk} {p : Path} (hp : p.Plain) {n : Node} (h : d.stat p = .ok n) :
    d.get? p.names = some n := by
  unfold Disk.stat Disk.findPath at h
  cases hl : d.locate p with
  | error f =>
    rw [hl] at h
    rcases Disk.locate_error hl with rfl | rfl <;> cases h
  | ok pl =>
    obtain ⟨-, rfl, -⟩ := (Disk.locate_plain hp).1 hl
    simp only [hl] at h
    split at h
    · cases h
      exact (Disk.find_eq_node ‹_›).2
    · cases h

/-- A jar name is more than the extension. -/
theorem SimpleJarName.ne_jar {f : String} (h : SimpleJarName f) : f ≠ ".jar" := by
  obtain ⟨b, hb, rfl⟩ := h
  intro he
  have hl := congrArg String.toList he
  rw [String.toList_append] at hl
  exact hb.1 (String.toList_eq_nil_iff.1 (List.append_left_eq_self.1 hl))

namespace Pipeline

/-- Where a run can start from for the artifacts so that each deployed file is made from its
own artifact alone: a proper disk with nothing at or under the library directory; working and
library directories at plain paths, neither under the other, the library directory relative;
every artifact deployed under a jar name of one component that is not the staging name of
another's, its file readable at a plain path outside the working directory; and a generated
keystore at a plain relative path outside the library directory, holding no artifact. -/
structure FreshStart (p : Pipeline) (artifacts : List Artifact) (w : World) : Prop where
  proper : w.disk.Proper
  work : p.settings.workingDirectory.Plain
  lib : p.settings.libDirectory.Plain
  lib_relative : p.settings.libDirectory.isAbsolute = false
  work_lib : ¬ p.settings.workingDirectory.names <+: p.settings.libDirectory.names
  lib_work : ¬ p.settings.libDirectory.names <+: p.settings.workingDirectory.names
  lib_empty : ∀ q, p.settings.libDirectory.names <+: q → w.disk.get? q = none
  names : ∀ a ∈ artifacts, SimpleJarName (p.deployName a)
  unprefixed : ∀ a ∈ artifacts, ∀ b ∈ artifacts, p.deployName a ≠ unprocessedPrefix ++ p.deployName b
  source : ∀ a ∈ artifacts, (⟨a.file⟩ : Path).Plain
  source_read : ∀ a ∈ artifacts, ∃ A, w.disk.read ⟨a.file⟩ = .ok A
  source_out : ∀ a ∈ artifacts, ¬ p.settings.workingDirectory.names <+: (⟨a.file⟩ : Path).names
  keystore : ∀ r, p.settings.sign.bind (·.keystoreRequest) = some r →
    (⟨r.identity.keystore⟩ : Path).Plain ∧ (⟨r.identity.keystore⟩ : Path).isAbsolute = false ∧
      ¬ p.settings.libDirectory.names <+: (⟨r.identity.keystore⟩ : Path).names ∧
      ∀ a ∈ artifacts, ¬ (⟨r.identity.keystore⟩ : Path).names <+: (⟨a.file⟩ : Path).names

/-- A request built by the pipeline's builder is deployed under the pipeline's name for its
artifact. -/
theorem filename_eq_deployName {p : Pipeline} {j : Nat} {a : Artifact} {r : Request}
    (hb : RequestBuilder.Builds { p.builder with nextId := j } a p.settings.outputJarVersions r) :
    r.filename = p.deployName a := by
  rw [hb.filename_eq]
  rfl

namespace FreshStart

variable {p : Pipeline} {artifacts : List Artifact} {w : World} (hf : p.FreshStart artifacts w)
include hf

/-- No place lies both under the working directory and under the library directory. -/
theorem not_work_and_lib {q : Place} (hW : p.settings.workingDirectory.names <+: q)
    (hL : p.settings.libDirectory.names <+: q) : False :=
  (List.prefix_or_prefix_of_prefix hW hL).elim hf.work_lib hf.lib_work

/-- An artifact's file lies outside the library directory: it is there, and nothing is. -/
theorem lib_not_prefix_source {a : Artifact} (ha : a ∈ artifacts) :
    ¬ p.settings.libDirectory.names <+: (⟨a.file⟩ : Path).names := by
  intro hL
  obtain ⟨A, hA⟩ := hf.source_read a ha
  obtain ⟨-, -, hb⟩ := (Disk.read_plain (hf.source a ha)).1 hA
  simp [Disk.bytesAt, hf.lib_empty _ hL] at hb

variable {j : Nat} {a : Artifact} {r : Request}
  (hb : RequestBuilder.Builds { p.builder with nextId := j } a p.settings.outputJarVersions r) (ha : a ∈ artifacts)
include hb ha

theorem simpleJarName : SimpleJarName r.filename := filename_eq_deployName hb ▸ hf.names a ha

/-- A request's working directory lies in the working directory. -/
theorem work_prefix {q : Place} (hq : q ∈ r.workPlaces) : p.settings.workingDirectory.names <+: q := by
  have hw : r.config.workingDirectory.names = p.settings.workingDirectory.names ++ [fileBasename r.filename] := by
    rw [hb.workingDirectory_eq]
    exact Path.names_push _ (hf.simpleJarName hb ha).goodName_basename
  have hq' : r.config.workingDirectory.names <+: q := hq
  rw [hw] at hq'
  exact (List.prefix_append _ _).trans hq'

/-- A request deploys its files as entries of the library directory, under its deployed
names. -/
theorem deployed_entry {q : Path} (hq : q ∈ r.finalFile :: r.packedFile.toList) :
    ∃ g ∈ deployedNames r, q = p.settings.libDirectory.push g ∧ Path.GoodName g ∧
      q.names = p.settings.libDirectory.names ++ [g] := by
  rw [hb.deployed_eq_map (hf.simpleJarName hb ha)] at hq
  obtain ⟨g, hg, rfl⟩ := List.mem_map.1 hq
  have hgood := goodName_of_mem_deployedNames (hf.simpleJarName hb ha) hg
  exact ⟨g, hg, rfl, hgood, Path.names_push _ hgood⟩

theorem deployPlaces_entry {q : Place} (hq : q ∈ r.deployPlaces) :
    ∃ g ∈ deployedNames r, q = p.settings.libDirectory.names ++ [g] := by
  rcases hq with rfl | ⟨pk, hpk, rfl⟩
  · obtain ⟨g, hg, -, -, hn⟩ := hf.deployed_entry hb ha List.mem_cons_self
    exact ⟨g, hg, hn⟩
  · obtain ⟨g, hg, -, -, hn⟩ := hf.deployed_entry hb ha (q := pk) (by simp [hpk])
    exact ⟨g, hg, hn⟩

/-- A deployed file, and every directory on its way, lies outside the working directory. -/
theorem deployed_not_work {q : Path} (hq : q ∈ r.finalFile :: r.packedFile.toList) {l : Place}
    (hl : l <+: q.names) (hW : p.settings.workingDirectory.names <+: l) : False := by
  obtain ⟨g, -, -, -, hn⟩ := hf.deployed_entry hb ha hq
  exact hf.not_work_and_lib (hW.trans hl) (hn ▸ List.prefix_append _ _)

/-- An artifact's file, and every directory on its way, lies outside a request's places. -/
theorem source_avoids {a' : Artifact} (ha' : a' ∈ artifacts) : (⟨a'.file⟩ : Path).Avoids r.places := by
  intro k _ hk
  have hpre : (⟨a'.file⟩ : Path).names.take k <+: (⟨a'.file⟩ : Path).names := List.take_prefix _ _
  rcases hk with hk | hk
  · exact hf.source_out a' ha' ((hf.work_prefix hb ha hk).trans hpre)
  · obtain ⟨g, -, hg⟩ := hf.deployPlaces_entry hb ha hk
    exact hf.lib_not_prefix_source ha' (hg ▸ List.prefix_append _ _ |>.trans hpre)

/-- A request the pipeline builds for an artifact of a jar type, planned on the fresh start,
lies apart from its artifact. -/
theorem separate (hjar : a.extension = "jar") (hplanned : r.PlannedOn p.toolkit w) : r.Separate := by
  have hn := hf.simpleJarName hb ha
  have hsrc : (⟨r.artifact.file⟩ : Path) = ⟨a.file⟩ := by rw [hb.artifact]
  have hwork : r.config.workingDirectory.Plain := by
    rw [hb.workingDirectory_eq, Path.plain_push _ hn.goodName_basename]
    exact hf.work
  -- the deployed files are plain entries of the library directory, outside the working directory
  have hdeployed : ∀ q ∈ r.finalFile :: r.packedFile.toList, q.Plain ∧ q.names ∉ r.workPlaces := by
    intro q hq
    obtain ⟨g, -, rfl, hg, -⟩ := hf.deployed_entry hb ha hq
    exact ⟨(Path.plain_push _ hg).2 hf.lib,
      fun hw => hf.deployed_not_work hb ha hq (List.prefix_refl _) (hf.work_prefix hb ha hw)⟩
  -- nothing is at the final file, so the request is not up to date
  have hstale : r.uptodate = false := by
    cases hu : r.uptodate with
    | false => rfl
    | true =>
      obtain ⟨node, hnode⟩ := hplanned.fresh hu
      obtain ⟨g, -, -, -, hnames⟩ := hf.deployed_entry hb ha List.mem_cons_self
      have hget := Disk.get?_of_stat (hdeployed _ List.mem_cons_self).1 hnode
      rw [hnames, hf.lib_empty _ (List.prefix_append _ _)] at hget
      cases hget
  refine ⟨hb.layout hjar hn.slash_not_mem hwork, hn.ne_jar, hstale, hsrc ▸ hf.source a ha,
    fun hw => hf.source_out a ha (hsrc ▸ hf.work_prefix hb ha hw), (hdeployed _ List.mem_cons_self).1,
    (hdeployed _ List.mem_cons_self).2, fun pk hpk => ?_⟩
  have hmem : pk ∈ r.finalFile :: r.packedFile.toList := by simp [hpk]
  refine ⟨(hdeployed pk hmem).1, (hdeployed pk hmem).2, ?_⟩
  -- the companion's name is the jar's with the pack extension
  rw [hb.packedFile (ne_empty_of_endsWith_jar hn.endsWith_jar)] at hpk
  split at hpk
  · cases hpk
    rw [hb.finalFile, Path.names_push _ (hn.goodName_packed _), Path.names_push _ hn.goodName]
    intro heq
    rw [List.append_cancel_left_eq, List.singleton_inj] at heq
    exact hn.ne_packed r.filename _ heq.symm
  · cases hpk

/-- A deployed file, and every directory on its way, lies outside the places of a request
deploying under other names. -/
theorem deployed_avoids {j' : Nat} {a' : Artifact} {r' : Request}
    (hb' : RequestBuilder.Builds { p.builder with nextId := j' } a' p.settings.outputJarVersions r')
    (ha' : a' ∈ artifacts) (hdisj : (deployedNames r).Disjoint (deployedNames r')) {q : Path}
    (hq : q ∈ r.finalFile :: r.packedFile.toList) : q.Avoids r'.places := by
  obtain ⟨g, hg, -, -, hnames⟩ := hf.deployed_entry hb ha hq
  intro k hk hmem
  rcases hmem with hw | hd
  · exact hf.deployed_not_work hb ha hq (List.take_prefix _ _) (hf.work_prefix hb' ha' hw)
  · obtain ⟨g', hg', heq⟩ := hf.deployPlaces_entry hb' ha' hd
    -- only the file itself is as long as an entry of the library directory
    have hlen : k = q.names.length := by
      have := congrArg List.length heq
      rw [List.length_take, hnames] at this
      rw [hnames] at hk ⊢
      simp only [List.length_append, List.length_singleton] at this hk ⊢
      omega
    rw [hlen, List.take_length, hnames, List.append_cancel_left_eq, List.singleton_inj] at heq
    exact hdisj hg (heq ▸ hg')

end FreshStart

/-- A member of the right list of a relation one for one is related to a member of the left. -/
theorem exists_of_forall₂_of_mem {α β : Type} {R : α → β → Prop} {xs : List α} {ys : List β}
    (h : List.Forall₂ R xs ys) {y : β} (hy : y ∈ ys) : ∃ x ∈ xs, R x y := by
  induction h with
  | nil => cases hy
  | cons hr _ ih =>
    rcases List.mem_cons.1 hy with rfl | hy
    · exact ⟨_, List.mem_cons_self, hr⟩
    · obtain ⟨x, hx, hxy⟩ := ih hy
      exact ⟨x, List.mem_cons_of_mem _ hx, hxy⟩

/-- Requests built in order for the selected artifacts, from a fresh start: each lies apart
from its artifact, no artifact lies in the places of a request, and no request deploys into
the places of another. -/
theorem FreshStart.requests_apart {p : Pipeline} {artifacts sel : List Artifact} {w : World}
    {requests : List Request} (hf : p.FreshStart artifacts w) (hsel : p.select artifacts = .ok sel)
    (hall : List.Forall₂ (fun a r => (∃ j,
      RequestBuilder.Builds { p.builder with nextId := j } a p.settings.outputJarVersions r) ∧
        r.PlannedOn p.toolkit w) sel requests) :
    (∀ r ∈ requests, r.artifact ∈ artifacts) ∧ (∀ r ∈ requests, r.Separate) ∧
    (∀ r ∈ requests, ∀ r' ∈ requests, (⟨r.artifact.file⟩ : Path).Avoids r'.places) ∧
    requests.Pairwise (fun r r' => ∀ q ∈ r.finalFile :: r.packedFile.toList, q.Avoids r'.places) := by
  have hbuilds : List.Forall₂ (fun a r => ∃ j,
      RequestBuilder.Builds { p.builder with nextId := j } a p.settings.outputJarVersions r) sel requests :=
    hall.imp fun _ _ h => h.1
  -- every request comes from a selected artifact of a jar type, and was planned on the start
  have hfrom : ∀ r ∈ requests, ∃ a j, a ∈ artifacts ∧ a.extension = "jar" ∧
      RequestBuilder.Builds { p.builder with nextId := j } a p.settings.outputJarVersions r ∧
        r.PlannedOn p.toolkit w := by
    intro r hr
    obtain ⟨a, ha, ⟨j, hb⟩, hplanned⟩ := exists_of_forall₂_of_mem hall hr
    obtain ⟨hmem, hjar⟩ := mem_of_select hsel ha
    exact ⟨a, j, hmem, beq_iff_eq.1 hjar, hb, hplanned⟩
  have hdistinct : requests.Pairwise fun r r' => r.filename ≠ r'.filename := by
    have := select_nodup hsel
    rwa [← map_filename_of_builds hbuilds, List.Nodup, List.pairwise_map] at this
  refine ⟨fun r hr => ?_, fun r hr => ?_, fun r hr r' hr' => ?_, ?_⟩
  · obtain ⟨a, j, ha, -, hb, -⟩ := hfrom r hr
    rw [hb.artifact]
    exact ha
  · obtain ⟨a, j, ha, hjar, hb, hplanned⟩ := hfrom r hr
    exact hf.separate hb ha hjar hplanned
  · obtain ⟨a, j, ha, -, hb, -⟩ := hfrom r hr
    obtain ⟨a', j', ha', -, hb', -⟩ := hfrom r' hr'
    rw [hb.artifact]
    exact hf.source_avoids hb' ha' ha
  · refine List.Pairwise.imp_of_mem (fun {r r'} hr hr' hne => ?_) hdistinct
    obtain ⟨a, j, ha, -, hb, -⟩ := hfrom r hr
    obtain ⟨a', j', ha', -, hb', -⟩ := hfrom r' hr'
    exact fun q hq => hf.deployed_avoids hb ha hb' ha' (deployedNames_disjoint (hf.simpleJarName hb ha)
      (hf.simpleJarName hb' ha') (hb.settings_eq.trans hb'.settings_eq.symm) hne) hq

end Pipeline

/-! ## The run -/

/-- Generating a keystore at a plain path changes only what lies at or under it. -/
theorem Toolkit.frames_generateKeystore_at (t : Toolkit) (r : KeystoreRequest)
    (hp : (⟨r.identity.keystore⟩ : Path).Plain) :
    Frames (t.generateKeystore r) {q | (⟨r.identity.keystore⟩ : Path).names <+: q}
      {q | (⟨r.identity.keystore⟩ : Path).names <+: q}
      (t.log [⟨.generateKeystore, ⟨r.identity.keystore⟩, ⟨r.identity.keystore⟩⟩]) := by
  have hremove : Frames (Jar.fileStep (removeFile ⟨r.identity.keystore⟩))
      {q | (⟨r.identity.keystore⟩ : Path).names <+: q} {q | (⟨r.identity.keystore⟩ : Path).names <+: q} [] :=
    Jar.frames_fileStep (frames_removeFile hp)
  have hwrite : Frames (writeOutput ⟨r.identity.keystore⟩ r.dname.toUTF8)
      {q | (⟨r.identity.keystore⟩ : Path).names <+: q} {q | (⟨r.identity.keystore⟩ : Path).names <+: q} [] :=
    (frames_writeOutput hp _).mono (fun q hq => (Set.mem_singleton_iff.1 hq) ▸ List.prefix_refl _)
      (Set.empty_subset _)
  unfold generateKeystore
  cases t with
  | scripted =>
    refine frames_bind (frames_record _ _ _) fun _ => frames_bind (frames_exists? _) fun _ => ?_
    dsimp only
    split
    · exact frames_bind hremove fun _ => hwrite
    · exact hwrite
  | command home =>
    have htool : Frames (do
        Jar.fileStep (createParent ⟨r.identity.keystore⟩)
        run home "keytool"
        ensureOutput ⟨r.identity.keystore⟩ : Act ToolError Unit)
        {q | (⟨r.identity.keystore⟩ : Path).names <+: q} {q | (⟨r.identity.keystore⟩ : Path).names <+: q} [] :=
      frames_bind (Jar.frames_fileStep (frames_createParent _)) fun _ =>
        frames_bind (frames_run _ _) fun _ => frames_ensureOutput _
    dsimp only
    refine frames_bind (frames_exists? _) fun _ => ?_
    split
    · exact frames_bind hremove fun _ => htool
    · exact htool

/-- A batch that records no error started every request, and processed them one after
another. -/
theorem Executor.mapM_of_execute (ex : Executor) {requests : List Request} {w w' : World}
    {results : Results} {done : List RequestOutcome} (hids : requests.map (·.id) = List.range requests.length)
    (h : (ex.execute requests).runOn w = (.ok (results, done), w')) (hne : results.hasErrors = false) :
    (requests.mapM ex.process).runOn w = (.ok done, w') ∧ ∀ o ∈ done, o.error = none := by
  obtain ⟨hout, hstarts⟩ := ex.execute_of_range hids h
  have herr : ∀ o ∈ results.outcomes, o.error = none := by simpa [Results.hasErrors] using hne
  have hdone : ∀ o ∈ done, o.error = none := fun o ho => herr o (hout ▸ List.mem_append_left _ ho)
  have hrun := hstarts.run
  rw [hstarts.all_started hdone, List.take_length] at hrun
  exact ⟨hrun, hdone⟩

namespace Pipeline

variable {p : Pipeline} {artifacts : List Artifact}

/-- The places a generated keystore takes: its path and what lies under it. -/
def keystorePlaces (p : Pipeline) : Set Place :=
  {q | ∃ r, p.settings.sign.bind (·.keystoreRequest) = some r ∧ (⟨r.identity.keystore⟩ : Path).names <+: q}

/-- The keystore step changes only the keystore's places, when the keystore lies at a plain
path. -/
theorem frames_generateKeystore_at
    (hks : ∀ r, p.settings.sign.bind (·.keystoreRequest) = some r → (⟨r.identity.keystore⟩ : Path).Plain) :
    Frames p.generateKeystore p.keystorePlaces p.keystorePlaces p.keystoreCalls := by
  unfold generateKeystore keystoreCalls
  cases hr : p.settings.sign.bind (·.keystoreRequest) with
  | none => exact frames_pure _
  | some r =>
    have hsub : {q | (⟨r.identity.keystore⟩ : Path).names <+: q} ⊆ p.keystorePlaces := fun q hq => ⟨r, hr, hq⟩
    exact frames_bind (frames_mapError _ ((Toolkit.frames_generateKeystore_at _ r (hks r hr)).mono hsub hsub))
      fun _ => frames_pure _

/-- An artifact's file, and every directory on its way, lies outside the keystore's places. -/
theorem FreshStart.source_avoids_keystore {w : World} (hf : p.FreshStart artifacts w) {a : Artifact}
    (ha : a ∈ artifacts) : (⟨a.file⟩ : Path).Avoids p.keystorePlaces := by
  rintro k - ⟨r, hr, hk⟩
  exact (hf.keystore r hr).2.2.2 a ha (hk.trans (List.take_prefix _ _))

/-- **What the per-request pipeline deploys.** A run from a fresh start that succeeds deploys,
for every selected artifact holding `A`, what `Toolkit.Chain` allows from `A` for the chain
planned from the toolkit's answer for `A`: the last jar under the artifact's name in the
library directory and, with pack200, the last output beside it under the packed name. -/
theorem run_chain {w w' : World} {rep : PipelineReport} (hf : p.FreshStart artifacts w)
    (h : (p.run artifacts).runOn w = (.ok rep, w')) :
    ∃ sel, p.select artifacts = .ok sel ∧ ∀ a ∈ sel, ∀ A, w.disk.read ⟨a.file⟩ = .ok A →
      ∃ c : TaskSettings, c.settings = p.settings ∧ ∃ x cur jar, p.toolkit.Answers p.settings A x ∧
        p.toolkit.Chain (c.plan x) (A, A) (cur, jar) ∧
        w'.disk.read (p.settings.libDirectory.push (p.deployName a)) = .ok jar ∧
        (p.settings.isPack200 = true →
          w'.disk.read (p.settings.libDirectory.push (p.deployName a ++ p.settings.packExtension)) = .ok cur) := by
  unfold run at h
  obtain ⟨requests, w₁, hplan, h⟩ := runOn_bind_eq_ok h
  have hids := (p.plan_returns artifacts w requests w₁ hplan).1
  obtain ⟨hw₁, sel, hsel, hall⟩ := p.plan_plannedOn hplan
  rw [hw₁] at h
  obtain ⟨hart, hsep, hsrc, hpair⟩ := hf.requests_apart hsel hall
  -- the keystore leaves the artifacts as they were
  obtain ⟨_, w₂, hkey, h⟩ := runOn_bind_eq_ok h
  have hk₂ := (frames_generateKeystore_at (fun r hr => (hf.keystore r hr).1) w _ w₂ hkey).1
  have hsrc₂ : ∀ r ∈ requests, ∀ A, w.disk.read ⟨r.artifact.file⟩ = .ok A →
      w₂.disk.read ⟨r.artifact.file⟩ = .ok A := fun r hr _ hA =>
    hk₂.read_avoids (hf.source _ (hart r hr)) (hf.source_avoids_keystore (hart r hr)) hA
  -- the batch records no error, so every request was processed
  obtain ⟨⟨results, done⟩, w₃, hinf, h⟩ := runOn_bind_eq_ok h
  dsimp only at h
  cases hne : results.hasErrors
  case true =>
    simp only [hne, if_true] at h
    obtain ⟨_, _, hthrow, -⟩ := runOn_bind_eq_ok h
    cases hthrow
  simp only [hne, Bool.false_eq_true, if_false] at h
  obtain ⟨hmap, herr⟩ := p.executor.mapM_of_execute hids (runOn_eq_of_infallible hinf) hne
  obtain ⟨-, hdone⟩ := p.executor.mapM_process_chain requests w₂ w₃ done hsep hsrc hpair
    (fun r hr => (hf.source_read _ (hart r hr)).imp fun A hA => hsrc₂ r hr A hA) hmap herr
  -- listing the deployed jars only reads them
  obtain ⟨u, hc⟩ : ∃ u, checkSignedCount p.settings results.signedCount
      (requests.filter (!·.uptodate)).length = .ok u := by
    cases hc : checkSignedCount p.settings results.signedCount (requests.filter (!·.uptodate)).length with
    | error e =>
      rw [runOn_bind_error (by rw [runOn_ofExcept, hc])] at h
      cases h
    | ok u => exact ⟨u, rfl⟩
  rw [runOn_bind_ok (by rw [runOn_ofExcept, hc])] at h
  obtain ⟨listing, w₄, hbuild, h⟩ := runOn_bind_eq_ok h
  obtain ⟨_, w₅, hextra, h⟩ := runOn_bind_eq_ok h
  cases h
  have hk₄ := (frames_mapError _ (Listing.frames_build (B := ∅) (D := ∅) _ _ _ _ _) w₃ _ w₄ hbuild).1
  have hk₅ := (frames_mapError _ (Listing.frames_extraFiles (B := ∅) (D := ∅) _ _) w₄ _ w' hextra).1
  have hlisted : ∀ q x, w₃.disk.read q = .ok x → w'.disk.read q = .ok x := fun _ _ hx =>
    (hk₄.trans hk₅).read_of_dirs hx fun _ _ => Set.notMem_empty _
  refine ⟨sel, hsel, fun a ha A hA => ?_⟩
  -- the request built for `a`
  obtain ⟨r, hr, ⟨j, hb⟩, hplanned⟩ := exists_of_forall₂_of_mem hall.flip ha
  have hA' : w.disk.read ⟨r.artifact.file⟩ = .ok A := by rw [hb.artifact]; exact hA
  obtain ⟨x, hx, htasks⟩ := hplanned.tasks A hA'
  obtain ⟨cur, jar, hchain, hfin, hpk⟩ := hdone r hr A (hsrc₂ r hr A hA')
  rw [hb.settings_eq] at hx
  rw [htasks] at hchain
  have hname := filename_eq_deployName hb
  refine ⟨r.config, hb.settings_eq, x, cur, jar, hx, hchain, ?_, fun hpack => ?_⟩
  · rw [← hname]
    exact hlisted _ _ (hb.finalFile ▸ hfin)
  · -- the chain ends by packing, so its last output is the packed companion
    have hlast : r.tasks.getLast? = some .pack200 := by
      rw [htasks, r.config.plan_getLast_pack200 x, hb.settings_eq]
      exact hpack
    rw [hb.packedFile (ne_empty_of_endsWith_jar (hsep r hr).layout.jar), if_pos hlast] at hpk
    rw [← hname]
    exact hlisted _ _ (hpk _ rfl)

end Pipeline

end JarDeploy
