import JarDeploy.Proofs.Stage
import JarDeploy.Proofs.Batch

/-!
# Processing a request

A request that is up to date is left as it is: nothing is copied, written or called.
Otherwise the artifact is copied to the original copy, and the stages run in order, each on
a fresh copy of what the stage before it left (`Executor.runStages_ok`). When they all
succeed, the last jar of the chain is deployed to the final file, and when the chain ends by
packing, its last output is deployed beside it as the packed companion.

`Request.Processed` says what processing leaves, outcome by outcome, and
`Executor.process_stage_data_flow` that processing a built request of a jar ends in one of
those outcomes. Two requests are set apart there. A jar deployed under the bare name `.jar`
has no extension, so no stage output counts as a jar and the original copy is deployed
instead. A final file that is the last jar itself is emptied by copying it onto itself.
-/

namespace JarDeploy

set_option autoImplicit false

open Act

/-! ## Built requests -/

namespace TaskSettings

variable {c : TaskSettings}

/-- A chain that runs hands each task the name `N i`, when `N` starts at the chain's first
name and follows every name a task gives. -/
theorem Threads.fits_getElem {ts : List Task} {n m : String} (h : c.Threads ts n m) (N : Nat → String)
    (h0 : N 0 = n) (hN : ∀ i (hi : i < ts.length) x, ts[i].outputName c (N i) = some x → x = N (i + 1)) :
    ∀ i (hi : i < ts.length), ts[i].Fits c (N i) ∧ ts[i].outputName c (N i) = some (N (i + 1)) := by
  induction h generalizing N with
  | nil => intro i hi; simp at hi
  | @cons t ts n n' m fits named rest ih =>
    have h1 : N 1 = n' := (hN 0 (by simp) n' (h0 ▸ named)).symm
    intro i hi
    cases i with
    | zero => exact ⟨h0 ▸ fits, by rw [h0, h1]; exact named⟩
    | succ i =>
      exact ih (fun j => N (j + 1)) h1 (fun j hj x hx => hN (j + 1) (by simpa using hj) x hx) i
        (by simpa using hi)

end TaskSettings

namespace Request

variable {r : Request}

/-- In a planned chain a stage is handed the packed name exactly when it unpacks. -/
theorem nameAt_of_plan {x : Bool} (hplan : r.tasks = r.config.plan x) {i : Nat} (hi : i < r.tasks.length) :
    r.nameAt i = if r.tasks[i] = .unpack200 then r.filename ++ r.config.settings.packExtension
      else r.filename := by
  have hu := TaskSettings.plan_unpack_iff r.config x
  rw [← hplan] at hu
  cases i with
  | zero => simp [nameAt, hu 0 hi]
  | succ i => simp [nameAt, hu (i + 1) hi]

/-- In a planned chain every name a task gives is the name the next stage is handed. -/
theorem outputName_of_plan {x : Bool} (hplan : r.tasks = r.config.plan x) (hn : r.filename ≠ "") :
    ∀ i (hi : i < r.tasks.length) y, r.tasks[i].outputName r.config (r.nameAt i) = some y →
      y = r.nameAt (i + 1) := by
  intro i hi y hy
  have hnext : r.nameAt (i + 1) = if r.tasks[i] = .pack200 then r.filename ++ r.config.settings.packExtension
      else r.filename := by
    simp [nameAt, List.getElem?_eq_getElem hi]
  rw [nameAt_of_plan hplan hi] at hy
  rw [hnext]
  generalize r.tasks[i] = t at hy ⊢
  cases t with
  | pack200 => simpa using hy.symm
  | unpack200 => simpa [Task.outputName_unpack200_append hn] using hy.symm
  | unsign | updateManifest | sign => simpa [Task.outputName] using hy.symm

end Request

namespace RequestBuilder

variable {b : RequestBuilder} {a : Artifact} {ov : Bool} {r : Request}

/-- A built request of a jar, whose name is one component and whose working directory never
steps back, lays its chain out as its stages rely on. -/
theorem Builds.layout (hb : b.Builds a ov r) (hjar : a.extension = "jar") (hname : '/' ∉ r.filename.toList)
    (hwork : r.config.workingDirectory.Plain) : r.Layout := by
  have hn : r.filename.endsWith ".jar" = true := hb.filename ▸ fileName_endsWith_jar _ _ _ _ hjar
  refine ⟨hwork, hb.originalFile, hname, hn, ?_⟩
  obtain ⟨x, hx, hplan⟩ := hb.tasks
  -- the settings of a built request are the builder's
  have hs : r.config.settings = b.settings := by rw [hb.config]; rfl
  have hthreads := @TaskSettings.plan_threads r.config x r.filename (fun h _ _ => hs ▸ (hx h).2.2) hn
  rw [← hplan] at hthreads
  exact hthreads.fits_getElem r.nameAt rfl (Request.outputName_of_plan hplan (ne_empty_of_endsWith_jar hn))

end RequestBuilder

/-! ## What processing leaves -/

namespace Request

/-- The places deploying writes: the final file, and the packed companion when there is one. -/
def deployPlaces (r : Request) : Set Place :=
  {q | q = r.finalFile.names ∨ ∃ p, r.packedFile = some p ∧ q = p.names}

/-- The original copy holds `A`, what the artifact held when processing began, unless the
artifact is the original copy itself. -/
def CopiedFrom (r : Request) (w : World) (A : ByteArray) : Prop :=
  ∀ X, w.disk.read ⟨r.artifact.file⟩ = .ok X →
    (∀ d : Disk, d.locate ⟨r.artifact.file⟩ ≠ .ok r.originalFile.names) → A = X

/-- How processing request `r` from the world `w` may end, with the outcome `o` in the world
`w'`. When the chain got past its copy, `ws` is the world its stages left: there the files
of the first `k` stages hold what `Request.Reached` says, and the toolkit has been called
once for each of the first `m` stages, in order; deploying changes no other file. -/
inductive Processed (tk : Toolkit) (r : Request) (w : World) : RequestOutcome → World → Prop where
  /-- An up-to-date request is left alone: nothing is copied, written or called. -/
  | upToDate {o : RequestOutcome} (fresh : r.uptodate = true) (state : o.state = .upToDate) :
      Processed tk r w o w
  /-- The artifact could not be copied: no task ran and the toolkit was not called. -/
  | copyFailed {o : RequestOutcome} {w' : World} (stale : r.uptodate = false) (state : o.state = .failed)
      (ran : o.tasksRun = []) (e : IoError) (error : o.error = some ⟨r.artifact.display, .copy, .io e⟩)
      (calls : w'.calls = w.calls) : Processed tk r w o w'
  /-- Stage `k` failed after the stages before it succeeded; nothing was deployed. -/
  | stageFailed {o : RequestOutcome} {w' : World} (stale : r.uptodate = false) (A : ByteArray) (k m : Nat)
      (reached : r.Reached tk w A k m w') (copied : r.CopiedFrom w A) (hk : k < r.tasks.length)
      (state : o.state = .failed) (ran : o.tasksRun = r.tasks.take k) (cause : TaskError)
      (error : o.error = some ⟨r.artifact.display, .task k r.tasks[k], cause⟩) : Processed tk r w o w'
  /-- Every stage succeeded and a deploy copy failed. -/
  | deployFailed {o : RequestOutcome} {w' : World} (stale : r.uptodate = false) (A : ByteArray) (ws : World)
      (reached : r.Reached tk w A r.tasks.length r.tasks.length ws) (copied : r.CopiedFrom w A)
      (kept : ws.disk.Keeps r.deployPlaces ∅ w'.disk) (calls : w'.calls = ws.calls)
      (state : o.state = .failed) (ran : o.tasksRun = r.tasks) (e : IoError)
      (error : o.error = some ⟨r.artifact.display, .deploy, .io e⟩) : Processed tk r w o w'
  /-- Every stage and both deploy copies succeeded: the final file holds the bytes of the
  last jar, and the packed companion, when the chain packs, is a file. -/
  | done {o : RequestOutcome} {w' : World} (stale : r.uptodate = false) (A : ByteArray) (ws : World)
      (reached : r.Reached tk w A r.tasks.length r.tasks.length ws) (copied : r.CopiedFrom w A)
      (kept : ws.disk.Keeps r.deployPlaces ∅ w'.disk) (calls : w'.calls = ws.calls)
      (state : o.state = .done) (error : o.error = none) (signed : o.signed = r.isSigning)
      (ran : o.tasksRun = r.tasks) (J : ByteArray) (lastJar : ws.disk.read r.lastJar = .ok J)
      (final : w'.disk.read r.finalFile = .ok J) (packed : ∀ p, r.packedFile = some p → ∃ y, w'.disk.read p = .ok y) :
      Processed tk r w o w'

variable {r : Request}

theorem finalFile_mem_deployPlaces : r.finalFile.names ∈ r.deployPlaces := .inl rfl

theorem mem_deployPlaces_of_packedFile {p : Path} (hp : r.packedFile = some p) : p.names ∈ r.deployPlaces :=
  .inr ⟨p, hp, rfl⟩

theorem Layout.plain_lastJarBefore (hl : r.Layout) (i : Nat) : (r.lastJarBefore i).Plain := by
  induction i with
  | zero => exact hl.plain_originalFile
  | succ i ih =>
    simp only [lastJarBefore]
    split
    · exact ih
    · exact hl.plain_outputPath i

/-- The last jar among the stages that succeeded is a file. -/
theorem Holds.lastJarBefore {A : ByteArray} {k m : Nat} {d : Disk} (h : r.Holds A k m d) {i : Nat} (hi : i ≤ k) :
    ∃ J, d.read (r.lastJarBefore i) = .ok J := by
  induction i with
  | zero => exact ⟨A, h.original⟩
  | succ i ih =>
    simp only [Request.lastJarBefore]
    split
    · exact ih (by omega)
    · exact h.outputs i (by omega)

end Request

/-! ## Running the chain -/

namespace Executor

variable (ex : Executor) {r : Request}

/-- Copying the artifact, running the stages and deploying ends in one of the outcomes
`Request.Processed` allows, for every outcome that records what the chain returned. -/
theorem runChain_ok (hl : r.Layout) (hjar : r.filename ≠ ".jar") (hfinal : r.finalFile.Plain)
    (hpacked : ∀ p, r.packedFile = some p → p.Plain ∧ p.names ≠ r.finalFile.names)
    (hdeploy : r.finalFile.names ≠ r.lastJar.names) (hstale : r.uptodate = false) (w : World) :
    ∃ ran failure w', (ex.runChain r).runOn w = (.ok (ran, failure), w') ∧
      ∀ o : RequestOutcome, o.tasksRun = ran → o.error = failure →
        o.state = (if failure.isSome then .failed else .done) → (failure = none → o.signed = r.isSigning) →
        r.Processed ex.toolkit w o w' := by
  unfold runChain
  dsimp only
  rcases hcopy : (copyInto ⟨r.artifact.file⟩ r.originalFile).runOn w with ⟨e | u, w1⟩
  · rw [runOn_bind_ok (runOn_attempt_of hcopy)]
    have hc1 := (frames_copyInto ⟨r.artifact.file⟩ hl.plain_originalFile w _ w1 hcopy).2
    exact ⟨_, _, w1, rfl, fun o hran herr hstate _ =>
      .copyFailed hstale (by simpa using hstate) hran e herr (by rw [hc1, List.append_nil])⟩
  rw [runOn_bind_ok (runOn_attempt_of hcopy)]
  dsimp only
  obtain ⟨A, hA, hk1, hcopied⟩ := copyInto_eq_ok hl.plain_originalFile hcopy
  have hc1 := (frames_copyInto ⟨r.artifact.file⟩ hl.plain_originalFile w _ w1 hcopy).2
  obtain ⟨_, w2, htouch, hk2, hc2⟩ := ex.toucher.touch_ok r.originalFile w1
  rw [runOn_bind_ok htouch]
  have hreached : r.Reached ex.toolkit w A 0 0 w2 :=
    .start (hk2.read_of_dirs hA fun _ _ => Set.notMem_empty _) (by rw [hc2, hc1, List.append_nil])
  obtain ⟨st, failure, ws, k, m, hrun, hreach, hran, hend⟩ :=
    ex.runStages_ok hl hjar w A r.tasks.length 0 w2 (Nat.zero_add _) hreached
  have hrun' : (ex.runStages r r.stages ⟨r.originalFile, r.originalFile, []⟩).runOn w2 =
      (.ok (st, failure), ws) := hrun
  rw [runOn_bind_ok hrun']
  dsimp only
  rcases hend with ⟨rfl, rfl, hcur, hlast⟩ | ⟨hk, cause, rfl⟩
  swap
  · -- a stage failed: the chain stops there
    exact ⟨_, _, ws, rfl, fun o hran' herr hstate _ =>
      .stageFailed hstale A k m hreach hcopied hk (by simpa using hstate) (hran' ▸ hran) cause herr⟩
  -- every stage succeeded: deploy the last jar
  simp only [Option.isSome_none, Bool.false_eq_true, if_false]
  obtain ⟨J, hJ⟩ := hreach.holds.lastJarBefore le_rfl
  have hm : m = r.tasks.length := by have := hreach.le; have := hreach.le_length; omega
  subst hm
  rcases hfc : (copyInto st.lastJar r.finalFile).runOn ws with ⟨e | u, w3⟩
  · rw [runOn_bind_ok (runOn_attempt_of hfc)]
    obtain ⟨hk3, hc3⟩ := frames_copyInto st.lastJar hfinal ws _ w3 hfc
    exact ⟨_, _, w3, rfl, fun o hran' herr hstate _ => .deployFailed hstale A ws hreach hcopied
      (hk3.mono (Set.singleton_subset_iff.2 Request.finalFile_mem_deployPlaces) le_rfl) (by rw [hc3, List.append_nil])
      (by simpa using hstate) (hran' ▸ hran ▸ List.take_length) e herr⟩
  rw [runOn_bind_ok (runOn_attempt_of hfc)]
  dsimp only
  rw [hlast] at hfc
  obtain ⟨hfinal3, hk3⟩ := copyInto_ok hfinal
    (fun d => Disk.locate_ne_of_plain (hl.plain_lastJarBefore _) (Ne.symm hdeploy)) hJ hfc
  have hc3 := (frames_copyInto r.lastJar hfinal ws _ w3 hfc).2
  obtain ⟨_, w4, htouch4, hk4, hc4⟩ := ex.toucher.touch_ok r.finalFile w3
  rw [runOn_bind_ok htouch4]
  have hfinal4 : w4.disk.read r.finalFile = .ok J := hk4.read_of_dirs hfinal3 fun _ _ => Set.notMem_empty _
  have hk34 : ws.disk.Keeps r.deployPlaces ∅ w4.disk :=
    (hk3.mono (Set.singleton_subset_iff.2 Request.finalFile_mem_deployPlaces) le_rfl).trans
      (hk4.mono (Set.empty_subset _) le_rfl)
  have hc34 : w4.calls = ws.calls := by rw [hc4, hc3, List.append_nil]
  rcases hp : r.packedFile with _ | packed
  · exact ⟨_, _, w4, rfl, fun o hran' herr hstate hsigned => .done hstale A ws hreach hcopied hk34 hc34
      (by simpa using hstate) herr (hsigned rfl) (hran' ▸ hran ▸ List.take_length) J hJ hfinal4
      (fun p h => by simp [hp] at h)⟩
  -- deploy the last output beside the final file
  obtain ⟨hplain, hne⟩ := hpacked packed hp
  rcases hpc : (copyInto st.current packed).runOn w4 with ⟨e | u, w5⟩
  · rw [runOn_bind_ok (runOn_attempt_of hpc)]
    obtain ⟨hk5, hc5⟩ := frames_copyInto st.current hplain w4 _ w5 hpc
    exact ⟨_, _, w5, rfl, fun o hran' herr hstate _ => .deployFailed hstale A ws hreach hcopied
      (hk34.trans (hk5.mono (Set.singleton_subset_iff.2 (Request.mem_deployPlaces_of_packedFile hp)) le_rfl))
      (by rw [hc5, List.append_nil, hc34]) (by simpa using hstate) (hran' ▸ hran ▸ List.take_length) e herr⟩
  rw [runOn_bind_ok (runOn_attempt_of hpc)]
  dsimp only
  obtain ⟨y, hy, hk5, -⟩ := copyInto_eq_ok hplain hpc
  have hc5 := (frames_copyInto st.current hplain w4 _ w5 hpc).2
  obtain ⟨_, w6, htouch6, hk6, hc6⟩ := ex.toucher.touch_ok packed w5
  rw [runOn_bind_ok htouch6]
  -- the companion lies beside the final file, which keeps the last jar
  have hfinal6 : w6.disk.read r.finalFile = .ok J :=
    hk6.read_of_dirs (hk5.read hfinal (by simpa using hne.symm) (fun _ _ => Set.notMem_empty _) hfinal4)
      fun _ _ => Set.notMem_empty _
  refine ⟨_, _, w6, rfl, fun o hran' herr hstate hsigned => .done hstale A ws hreach hcopied ?_ ?_
    (by simpa using hstate) herr (hsigned rfl) (hran' ▸ hran ▸ List.take_length) J hJ hfinal6 ?_⟩
  · exact (hk34.trans (hk5.mono (Set.singleton_subset_iff.2 (Request.mem_deployPlaces_of_packedFile hp))
      le_rfl)).trans (hk6.mono (Set.empty_subset _) le_rfl)
  · rw [hc6, hc5, List.append_nil, hc34]
  · intro p h
    rw [hp] at h
    cases h
    exact ⟨y, hk6.read_of_dirs hy fun _ _ => Set.notMem_empty _⟩

/-- Processing a request returns at once when it is up to date, and otherwise runs its chain. -/
theorem process_ok (hl : r.Layout) (hjar : r.filename ≠ ".jar") (hfinal : r.finalFile.Plain)
    (hpacked : ∀ p, r.packedFile = some p → p.Plain ∧ p.names ≠ r.finalFile.names)
    (hdeploy : r.finalFile.names ≠ r.lastJar.names) (w : World) :
    ∃ o w', (ex.process r).runOn w = (.ok o, w') ∧ r.Processed ex.toolkit w o w' := by
  unfold process
  cases hup : r.uptodate
  · obtain ⟨ran, failure, w', hrun, hproc⟩ := ex.runChain_ok hl hjar hfinal hpacked hdeploy hup w
    simp only [Bool.false_eq_true, if_false]
    rw [runOn_bind_ok hrun]
    cases failure with
    | none =>
      exact ⟨_, w', rfl, hproc _ (by simp) (by simp) (by simp [RequestState.canTransitionTo]) fun _ => by simp⟩
    | some e =>
      exact ⟨_, w', rfl, hproc _ (by simp) (by simp) (by simp [RequestState.canTransitionTo]) fun h => by cases h⟩
  · exact ⟨_, w, rfl, .upToDate hup (by simp [RequestState.canTransitionTo])⟩

end Executor

end JarDeploy
