import Mathlib.Data.List.Perm.Subperm
import Mathlib.Data.List.Count
import JarDeploy.Pool.Workers

/-!
# What every interleaving of the workers keeps

Over every schedule of the workers' steps (`Shared.run`), the pool keeps an invariant
(`Inv`): the jobs taken and the queue make up the job list; each job taken is held by a
worker or was handed to the work; each job handed to the work is being completed or was;
every result is the work's result for its job; a worker leaves only when the flag is set or
the queue is empty; and once the flag is set, the jobs taken since then and the workers
about to take one are fewer than the workers. One step keeps it (`Inv.step`), so every run
does (`inv_run`).

So no job is handed to the work more often than it is queued, every completion is of a job
handed to the work, what the pool returns is the part of the queue never taken, in order,
and it is empty when the flag was never set. A job may still be taken after the flag is set,
by a worker that read the flag before: at most one job for each other worker, none with one
worker (`run_interleaved`), and two workers do take a job after the flag is set
(`job_taken_after_stop`).
-/

namespace JarDeploy.WorkerPool

set_option autoImplicit false

variable {J R : Type}

/-! ## What a worker contributes -/

namespace Phase

/-- The job a worker holds before running the work on it. -/
def held : Phase J R → List J
  | .work j => [j]
  | _ => []

/-- The job and result a worker is about to hand to the completion step. -/
def pending : Phase J R → List (J × R)
  | .complete j r => [(j, r)]
  | _ => []

/-- Is the worker about to take a job? -/
def isTake : Phase J R → Bool
  | .take => true
  | _ => false

end Phase

/-- The jobs the workers hold. -/
def holding (ws : List (Phase J R)) : List J := ws.flatMap Phase.held

/-- The jobs and results the workers are about to complete. -/
def completing (ws : List (Phase J R)) : List (J × R) := ws.flatMap Phase.pending

/-- The workers about to take a job. -/
def waiting (ws : List (Phase J R)) : Nat := ws.countP Phase.isTake

/-- Replacing one worker's phase trades its contribution for the new phase's. -/
theorem flatMap_set_perm {β : Type} (f : Phase J R → List β) {ws : List (Phase J R)} {k : Nat}
    {old : Phase J R} (hk : ws[k]? = some old) (new : Phase J R) :
    List.Perm ((ws.set k new).flatMap f ++ f old) (ws.flatMap f ++ f new) := by
  obtain ⟨hlt, rfl⟩ := List.getElem?_eq_some_iff.1 hk
  have hws : ws = ws.take k ++ ws[k] :: ws.drop (k + 1) := by
    rw [List.getElem_cons_drop, List.take_append_drop]
  rw [List.set_eq_take_append_cons_drop, if_pos hlt]
  conv => rhs; rw [hws]
  simp only [List.flatMap_append, List.flatMap_cons, List.append_assoc]
  refine List.Perm.append_left _ ?_
  -- the new phase's part moves to the end, the old one's to the front
  have h1 : List.Perm (f new ++ ((ws.drop (k + 1)).flatMap f ++ f ws[k]))
      (((ws.drop (k + 1)).flatMap f ++ f ws[k]) ++ f new) := List.perm_append_comm
  have h2 : List.Perm (((ws.drop (k + 1)).flatMap f ++ f ws[k]) ++ f new)
      ((f ws[k] ++ (ws.drop (k + 1)).flatMap f) ++ f new) := List.perm_append_comm.append_right _
  simpa using h1.trans h2

/-- Replacing one worker's phase trades its count for the new phase's. -/
theorem countP_set {p : Phase J R → Bool} {ws : List (Phase J R)} {k : Nat} {old : Phase J R}
    (hk : ws[k]? = some old) (new : Phase J R) :
    (ws.set k new).countP p + (if p old then 1 else 0) = ws.countP p + (if p new then 1 else 0) := by
  obtain ⟨hlt, rfl⟩ := List.getElem?_eq_some_iff.1 hk
  have hws : ws = ws.take k ++ ws[k] :: ws.drop (k + 1) := by
    rw [List.getElem_cons_drop, List.take_append_drop]
  rw [List.set_eq_take_append_cons_drop, if_pos hlt]
  conv => rhs; rw [hws]
  simp only [List.countP_append, List.countP_cons]
  omega

theorem holding_set {ws : List (Phase J R)} {k : Nat} {old : Phase J R} (hk : ws[k]? = some old)
    (new : Phase J R) : List.Perm (holding (ws.set k new) ++ old.held) (holding ws ++ new.held) :=
  flatMap_set_perm Phase.held hk new

theorem completing_set {ws : List (Phase J R)} {k : Nat} {old : Phase J R} (hk : ws[k]? = some old)
    (new : Phase J R) : List.Perm (completing (ws.set k new) ++ old.pending) (completing ws ++ new.pending) :=
  flatMap_set_perm Phase.pending hk new

theorem waiting_set {ws : List (Phase J R)} {k : Nat} {old : Phase J R} (hk : ws[k]? = some old)
    (new : Phase J R) :
    waiting (ws.set k new) + (if old.isTake then 1 else 0) = waiting ws + (if new.isTake then 1 else 0) :=
  countP_set hk new

/-- A worker that has left after a step had left before it, or is the one that moved. -/
theorem done_mem_set {ws : List (Phase J R)} {k : Nat} {new : Phase J R}
    (h : Phase.done ∈ ws.set k new) : Phase.done ∈ ws ∨ new = .done := by
  rcases List.mem_or_eq_of_mem_set h with h | h
  · exact .inl h
  · exact .inr h.symm

/-! ## The invariant -/

/-- What holds of the pool at every point of every schedule, for `n` workers started on
`jobs`. -/
structure Inv (work : J → R) (jobs : List J) (n : Nat) (s : Shared J R) : Prop where
  workers : s.workers.length = n
  /-- The jobs taken, then the queue, are the jobs in order. -/
  queue : s.taken ++ s.queue = jobs
  /-- A job taken is held by a worker or was handed to the work. -/
  taken : List.Perm s.taken (holding s.workers ++ s.started)
  /-- A job handed to the work is about to be completed or was. -/
  started : List.Perm s.started ((completing s.workers).map Prod.fst ++ s.completed.map Prod.fst)
  /-- Every result is the work's result for its job. -/
  results : ∀ q ∈ completing s.workers ++ s.completed, q.2 = work q.1
  /-- A worker leaves when the flag is set or the queue is empty. -/
  left : Phase.done ∈ s.workers → s.stop = true ∨ s.queue = []
  /-- No job is taken late before the flag is set. -/
  calm : s.stop = false → s.late = []
  /-- Once the flag is set, the jobs taken late and the workers about to take one are fewer
  than the workers. -/
  late : s.stop = true → s.late.length + waiting s.workers + 1 ≤ n

theorem inv_start (work : J → R) (p : WorkerPool) (stop : Bool) (jobs : List J) :
    Inv work jobs (p.workerCount jobs) (start p stop jobs : Shared J R) := by
  refine ⟨by simp [start], by simp [start], by simp [start, holding, Phase.held], by simp [start, completing,
    Phase.pending], by simp [start, completing, Phase.pending], fun h => ?_, fun _ => rfl, fun _ => ?_⟩
  · simp [start] at h
  · have : 1 ≤ p.workerCount jobs := Nat.le_max_right _ _
    simp [start, waiting, List.countP_replicate, Phase.isTake]
    omega

/-! ## One step keeps the invariant -/

namespace Inv

variable {work : J → R} {jobs : List J} {n k : Nat} {s : Shared J R}

/-- A worker that reads the flag takes no job and completes none. -/
theorem check_step (h : Inv work jobs n s) (hk : s.workers[k]? = some .check) :
    Inv work jobs n { s with workers := s.workers.set k (if s.stop then .done else .take) } := by
  have hheld : (if s.stop then .done else .take : Phase J R).held = [] := by cases s.stop <;> rfl
  have hpend : (if s.stop then .done else .take : Phase J R).pending = [] := by cases s.stop <;> rfl
  have hh : List.Perm (holding (s.workers.set k (if s.stop then .done else .take))) (holding s.workers) := by
    have h0 := holding_set hk (if s.stop then .done else .take)
    rw [hheld] at h0
    simpa [Phase.held] using h0
  have hc : List.Perm (completing (s.workers.set k (if s.stop then .done else .take))) (completing s.workers) := by
    have h0 := completing_set hk (if s.stop then .done else .take)
    rw [hpend] at h0
    simpa [Phase.pending] using h0
  refine ⟨by simpa using h.workers, h.queue, h.taken.trans (hh.symm.append_right _),
    h.started.trans ((hc.symm.map _).append_right _), fun q hq => h.results q ?_, fun hd => ?_, h.calm,
    fun hs => ?_⟩
  · rcases List.mem_append.1 hq with hq | hq
    · exact List.mem_append_left _ (hc.subset hq)
    · exact List.mem_append_right _ hq
  · rcases done_mem_set hd with hd | hd
    · exact h.left hd
    · cases hs : s.stop
      · simp [hs] at hd
      · exact .inl rfl
  · -- with the flag set the worker leaves, so no more workers are about to take a job
    have hw := waiting_set hk (if s.stop then .done else .take)
    simp only at hs ⊢
    rw [if_pos hs] at hw ⊢
    simp [Phase.isTake] at hw
    have := h.late hs
    omega

/-- A worker that finds the queue empty leaves. -/
theorem take_empty (h : Inv work jobs n s) (hk : s.workers[k]? = some .take) (hq : s.queue = []) :
    Inv work jobs n { s with workers := s.workers.set k .done } := by
  have hh : List.Perm (holding (s.workers.set k .done)) (holding s.workers) := by
    simpa [Phase.held] using holding_set hk .done
  have hc : List.Perm (completing (s.workers.set k .done)) (completing s.workers) := by
    simpa [Phase.pending] using completing_set hk .done
  refine ⟨by simpa using h.workers, h.queue, h.taken.trans (hh.symm.append_right _),
    h.started.trans ((hc.symm.map _).append_right _), fun q hq => h.results q ?_, fun _ => .inr hq, h.calm,
    fun hs => ?_⟩
  · rcases List.mem_append.1 hq with hq | hq
    · exact List.mem_append_left _ (hc.subset hq)
    · exact List.mem_append_right _ hq
  · have hw := waiting_set hk .done
    simp [Phase.isTake] at hw
    have := h.late hs
    simp only at this ⊢
    omega

/-- A worker that takes a job holds it; when the flag is set, the job is taken late. -/
theorem take_job {j : J} {rest : List J} (h : Inv work jobs n s) (hk : s.workers[k]? = some .take)
    (hq : s.queue = j :: rest) :
    Inv work jobs n
      { s with queue := rest, workers := s.workers.set k (.work j), taken := s.taken ++ [j],
               late := if s.stop then s.late ++ [j] else s.late } := by
  have hh : List.Perm (holding (s.workers.set k (.work j))) (holding s.workers ++ [j]) := by
    simpa [Phase.held] using holding_set hk (.work j)
  have hc : List.Perm (completing (s.workers.set k (.work j))) (completing s.workers) := by
    simpa [Phase.pending] using completing_set hk (.work j)
  refine ⟨by simpa using h.workers, by simpa [hq] using h.queue, ?_,
    h.started.trans ((hc.symm.map _).append_right _), fun q hq => h.results q ?_, fun hd => ?_,
    fun hs => ?_, fun hs => ?_⟩
  · -- the job taken joins the jobs held
    have h1 : List.Perm (s.taken ++ [j]) (holding s.workers ++ s.started ++ [j]) := h.taken.append_right _
    have h2 : List.Perm (holding s.workers ++ s.started ++ [j]) (holding s.workers ++ [j] ++ s.started) := by
      simpa using (@List.perm_append_comm _ s.started [j]).append_left (holding s.workers)
    exact h1.trans (h2.trans (hh.symm.append_right _))
  · rcases List.mem_append.1 hq with hq | hq
    · exact List.mem_append_left _ (hc.subset hq)
    · exact List.mem_append_right _ hq
  · rcases done_mem_set hd with hd | hd
    · rcases h.left hd with hs | hs
      · exact .inl hs
      · simp [hq] at hs
    · cases hd
  · simp only at hs ⊢
    simp [hs, h.calm hs]
  · -- the job is taken late, and its worker is no longer about to take one
    have hw := waiting_set hk (.work j)
    simp [Phase.isTake] at hw
    simp only at hs ⊢
    have := h.late hs
    rw [if_pos hs, List.length_append, List.length_singleton]
    omega

/-- A worker that runs the work on its job is about to complete it with the work's result. -/
theorem work_step {j : J} (h : Inv work jobs n s) (hk : s.workers[k]? = some (.work j)) :
    Inv work jobs n { s with workers := s.workers.set k (.complete j (work j)), started := s.started ++ [j] } := by
  have hh : List.Perm (holding (s.workers.set k (.complete j (work j))) ++ [j]) (holding s.workers) := by
    simpa [Phase.held] using holding_set hk (.complete j (work j))
  have hc : List.Perm (completing (s.workers.set k (.complete j (work j))))
      (completing s.workers ++ [(j, work j)]) := by
    simpa [Phase.pending] using completing_set hk (.complete j (work j))
  refine ⟨by simpa using h.workers, h.queue, ?_, ?_, fun q hq => ?_, fun hd => ?_, h.calm, fun hs => ?_⟩
  · -- the job held is now handed to the work
    refine h.taken.trans ((hh.symm.append_right _).trans ?_)
    rw [List.append_assoc]
    exact List.perm_append_comm.append_left _
  · have h1 : List.Perm (s.started ++ [j])
        ((completing s.workers).map Prod.fst ++ s.completed.map Prod.fst ++ [j]) := h.started.append_right _
    refine h1.trans ?_
    have h2 := (hc.map Prod.fst).symm.append_right (s.completed.map Prod.fst)
    simp only [List.map_append, List.map_cons, List.map_nil, List.append_assoc] at h2 ⊢
    refine List.Perm.trans ?_ h2
    exact (List.perm_append_comm.append_left _)
  · rcases List.mem_append.1 hq with hq | hq
    · rcases List.mem_append.1 (hc.subset hq) with hq | hq
      · exact h.results q (List.mem_append_left _ hq)
      · rw [List.mem_singleton.1 hq]
    · exact h.results q (List.mem_append_right _ hq)
  · rcases done_mem_set hd with hd | hd
    · exact h.left hd
    · cases hd
  · have hw := waiting_set hk (.complete j (work j))
    simp [Phase.isTake] at hw
    have := h.late hs
    simp only at this ⊢
    omega

/-- A worker that completes its job goes back to reading the flag, which the completion step
may set. -/
theorem complete_step {j : J} {r : R} (raise : Bool) (h : Inv work jobs n s)
    (hk : s.workers[k]? = some (.complete j r)) :
    Inv work jobs n
      { s with stop := s.stop || raise, workers := s.workers.set k .check,
               completed := s.completed ++ [(j, r)] } := by
  have hh : List.Perm (holding (s.workers.set k .check)) (holding s.workers) := by
    simpa [Phase.held] using holding_set hk .check
  have hc : List.Perm (completing (s.workers.set k .check) ++ [(j, r)]) (completing s.workers) := by
    simpa [Phase.pending] using completing_set hk .check
  refine ⟨by simpa using h.workers, h.queue, h.taken.trans (hh.symm.append_right _), ?_, fun q hq => ?_,
    fun hd => ?_, fun hs => ?_, fun hs => ?_⟩
  · refine h.started.trans ?_
    have h2 := (hc.map Prod.fst).symm.append_right (s.completed.map Prod.fst)
    refine h2.trans ?_
    simp only [List.map_append, List.map_cons, List.map_nil, List.append_assoc]
    exact List.perm_append_comm.append_left _
  · apply h.results q
    rcases List.mem_append.1 hq with hq | hq
    · exact List.mem_append_left _ (hc.subset (List.mem_append_left _ hq))
    · rcases List.mem_append.1 hq with hq | hq
      · exact List.mem_append_right _ hq
      · rw [List.mem_singleton.1 hq]
        exact List.mem_append_left _ (hc.subset (by simp))
  · rcases done_mem_set hd with hd | hd
    · rcases h.left hd with hs | hs
      · exact .inl (by simp [hs])
      · exact .inr hs
    · cases hd
  · simp only [Bool.or_eq_false_iff] at hs
    exact h.calm hs.1
  · -- the worker completing is not about to take a job, so at most the others are
    have hw := waiting_set hk .check
    simp [Phase.isTake] at hw
    simp only
    cases hstop : s.stop
    · have hlt : waiting s.workers < n := by
        rw [← h.workers]
        unfold waiting
        exact List.countP_lt_length_iff.2 ⟨_, List.mem_of_getElem? hk, rfl⟩
      simp [h.calm hstop]
      omega
    · have := h.late hstop
      omega

/-- Every step of every worker keeps the invariant. -/
theorem step (h : Inv work jobs n s) (k : Nat) (raise : Bool) : Inv work jobs n (s.step work k raise) := by
  unfold Shared.step
  -- one case for each phase the moving worker can be in
  cases hk : s.workers[k]? with
  | none => exact h
  | some w =>
    cases w with
    | check => exact h.check_step hk
    | take =>
      cases hq : s.queue with
      | nil =>
        -- the split replaced the queue by `[]` in the goal too
        have h' := h.take_empty hk hq
        rwa [hq] at h'
      | cons j rest => exact h.take_job hk hq
    | work j => exact h.work_step hk
    | complete j r => exact h.complete_step raise hk
    | done => exact h

/-- Every schedule keeps the invariant. -/
theorem run (h : Inv work jobs n s) (schedule : List (Nat × Bool)) :
    Inv work jobs n (s.run work schedule) := by
  induction schedule generalizing s with
  | nil => exact h
  | cons e schedule ih => exact ih (h.step e.1 e.2)

end Inv

/-! ## What a run promises -/

/-- When every worker has left, each of them is done. -/
theorem eq_done_of_finished {s : Shared J R} (hf : s.finished = true) : ∀ w ∈ s.workers, w = .done := by
  intro w hw
  have hw' := List.all_eq_true.1 hf w hw
  cases w <;> simp at hw' ⊢

/-- When every worker has left, no worker holds a job or a result. -/
theorem holding_completing_of_finished {s : Shared J R} (hf : s.finished = true) :
    holding s.workers = [] ∧ completing s.workers = [] := by
  have hall := eq_done_of_finished hf
  constructor
  · exact List.flatMap_eq_nil_iff.2 fun w hw => by rw [hall w hw]; rfl
  · exact List.flatMap_eq_nil_iff.2 fun w hw => by rw [hall w hw]; rfl

/-- What a run of `n` workers on `jobs` promises to an observer. -/
structure RunLaws (work : J → R) (jobs : List J) (n : Nat) (s : Shared J R) : Prop where
  /-- What is left in the queue is the jobs never taken, in order. -/
  rest : s.taken ++ s.queue = jobs
  /-- No job is handed to the work more often than it is queued. -/
  once : List.Subperm s.started jobs
  /-- Every completion is of a job handed to the work, no more often than it was. -/
  completions : List.Subperm (s.completed.map Prod.fst) s.started
  /-- Every completion carries the work's result for its job. -/
  results : ∀ q ∈ s.completed, q.2 = work q.1
  /-- Once every worker has left, each job handed to the work was completed exactly once, and
  these jobs and the ones left make up the queue. -/
  joined : s.finished = true →
    List.Perm (s.completed.map Prod.fst) s.started ∧ List.Perm jobs (s.started ++ s.queue)
  /-- Once every worker has left with the flag never set, nothing is left. -/
  drained : s.finished = true → s.stop = false → s.queue = []
  /-- Fewer jobs are taken after the flag is set than there are workers. -/
  late : s.late.length < n

/-- The invariant, with at least one worker, gives everything a run promises. -/
theorem Inv.laws {work : J → R} {jobs : List J} {n : Nat} {s : Shared J R} (h : Inv work jobs n s)
    (hn : 1 ≤ n) : RunLaws work jobs n s := by
  have htaken : List.Subperm s.started s.taken :=
    (List.sublist_append_right _ _).subperm.trans h.taken.symm.subperm
  refine ⟨h.queue, ?_, (List.sublist_append_right _ _).subperm.trans h.started.symm.subperm,
    fun q hq => h.results q (List.mem_append_right _ hq), fun hf => ?_, fun hf hs => ?_, ?_⟩
  · rw [← h.queue]
    exact htaken.trans (List.sublist_append_left _ _).subperm
  · obtain ⟨hh, hc⟩ := holding_completing_of_finished hf
    refine ⟨by simpa [hc] using h.started.symm, ?_⟩
    rw [← h.queue]
    exact (h.taken.trans (by simp [hh])).append_right _
  · -- some worker exists, and it left with the flag unset, so it found the queue empty
    have hne : s.workers ≠ [] := by
      intro he
      have := h.workers
      simp [he] at this
      omega
    obtain ⟨w, hw⟩ := List.exists_mem_of_ne_nil _ hne
    have hd : Phase.done ∈ s.workers := eq_done_of_finished hf w hw ▸ hw
    rcases h.left hd with hs' | hq
    · simp [hs] at hs'
    · exact hq
  · cases hs : s.stop
    · simp [h.calm hs]
      omega
    · have := h.late hs
      omega

/-- Every interleaving of the workers' steps keeps the pool's promises: no job runs twice,
every job run is completed once with the work's result, and the pool returns the jobs never
taken, in order, which is nothing when the flag is never set. Jobs may still be taken after
the flag is set, at most one for each other worker. -/
theorem run_interleaved (p : WorkerPool) (stop : Bool) (jobs : List J) (work : J → R)
    (schedule : List (Nat × Bool)) :
    RunLaws work jobs (p.workerCount jobs) ((start p stop jobs : Shared J R).run work schedule) :=
  ((inv_start work p stop jobs).run schedule).laws (Nat.le_max_right _ _)

-- one worker: the completion of job 2 sets the flag, and jobs 3 and 4 are left
example :
    ((start (WorkerPool.ofThreads 1) false [1, 2, 3, 4] : Shared Nat Nat).run id
      [(0, false), (0, false), (0, false), (0, false), (0, false), (0, false), (0, false), (0, true),
       (0, false)]).queue = [3, 4] := by
  decide

/-- Two workers both read the flag unset. The first completes its job and sets the flag; the
second then takes the next job and runs it to completion, so the flag does not keep a job from
starting. -/
theorem job_taken_after_stop :
    let s := (start (WorkerPool.ofThreads 2) false [1, 2] : Shared Nat Nat).run (· * 2)
      [(0, false), (1, false), (0, false), (0, false), (0, true), (1, false), (1, false), (1, false),
       (1, false), (0, false)]
    s.finished = true ∧ s.stop = true ∧ s.late = [2] ∧ s.completed = [(1, 2), (2, 4)] ∧ s.queue = [] := by
  decide

end JarDeploy.WorkerPool
