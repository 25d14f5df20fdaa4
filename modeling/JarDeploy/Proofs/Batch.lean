import JarDeploy.Batch
import JarDeploy.Proofs.Act
import JarDeploy.Proofs.Results

/-!
# Running a batch of requests

Processing a request finishes it: its outcome has the request's id, is not running, has
failed exactly when it carries an error and is signed only when done. A batch starts a
prefix of its requests, one after the other, each on the world the one before it left, and
a request is started exactly when fail-fast is off or no outcome before it carries an error.
The results then hold one outcome per request, sorted by id: those of the started requests
and pending ones for the rest, so that the requests done, up to date, failed and not started
add up to all of them.
-/

namespace JarDeploy

set_option autoImplicit false

instance : LawfulBEq RequestState where
  eq_of_beq {a b} := by cases a <;> cases b <;> decide
  rfl {a} := by cases a <;> rfl

namespace RequestOutcome

/-- An outcome as a batch leaves it: not running, failed exactly when it carries an error,
and signed only when done. -/
structure Settled (o : RequestOutcome) : Prop where
  not_running : o.state ≠ .running
  error_iff : o.error.isSome = true ↔ o.state = .failed
  signed_done : o.signed = true → o.state = .done

/-- The outcome of processing `r`: for its id, settled and started, up to date exactly when
`r` is, and when done, signed exactly when the chain of `r` signs. -/
structure Finishes (r : Request) (o : RequestOutcome) : Prop where
  id : o.id = r.id
  settled : o.Settled
  started : o.state ≠ .pending
  upToDate_iff : o.state = .upToDate ↔ r.uptodate = true
  signed_of_done : o.state = .done → o.signed = r.isSigning

@[simp] theorem pending_id (r : Request) : (pending r).id = r.id := rfl

@[simp] theorem pending_state (r : Request) : (pending r).state = .pending := rfl

@[simp] theorem pending_error (r : Request) : (pending r).error = none := rfl

@[simp] theorem pending_signed (r : Request) : (pending r).signed = false := rfl

@[simp] theorem pending_tasksRun (r : Request) : (pending r).tasksRun = [] := rfl

theorem pending_settled (r : Request) : (pending r).Settled where
  not_running := by simp
  error_iff := by simp
  signed_done := by simp

/-- A step moves to the target state when the states allow it, and stays otherwise. -/
@[simp] theorem moveTo_state (o : RequestOutcome) (s : RequestState) :
    (o.moveTo s).state = if o.state.canTransitionTo s then s else o.state := by
  unfold moveTo transition
  split <;> rfl

@[simp] theorem moveTo_id (o : RequestOutcome) (s : RequestState) : (o.moveTo s).id = o.id := by
  unfold moveTo transition
  split <;> rfl

@[simp] theorem moveTo_error (o : RequestOutcome) (s : RequestState) : (o.moveTo s).error = o.error := by
  unfold moveTo transition
  split <;> rfl

@[simp] theorem moveTo_signed (o : RequestOutcome) (s : RequestState) : (o.moveTo s).signed = o.signed := by
  unfold moveTo transition
  split <;> rfl

@[simp] theorem moveTo_tasksRun (o : RequestOutcome) (s : RequestState) :
    (o.moveTo s).tasksRun = o.tasksRun := by
  unfold moveTo transition
  split <;> rfl

/-- An outcome with no error that finishes `r` is done exactly when `r` is not up to date. -/
theorem Finishes.isDone_eq {r : Request} {o : RequestOutcome} (h : o.Finishes r) (he : o.error = none) :
    (o.state == .done) = !r.uptodate := by
  have hup := h.upToDate_iff
  cases hs : o.state with
  | pending => exact absurd hs h.started
  | running => exact absurd hs h.settled.not_running
  | failed => simpa [he] using h.settled.error_iff.2 hs
  | upToDate => simp_all
  | done => simp_all

/-- An outcome with no error that finishes `r` is done and signed exactly when `r` is not up
to date and its chain signs. -/
theorem Finishes.isSigned_eq {r : Request} {o : RequestOutcome} (h : o.Finishes r) (he : o.error = none) :
    (o.isProcessed && o.signed) = (!r.uptodate && r.isSigning) := by
  rw [isProcessed, h.isDone_eq he]
  cases hu : r.uptodate
  · have hdone : o.state = .done := by simpa [hu] using h.isDone_eq he
    simp [h.signed_of_done hdone]
  · rfl

/-- Outcomes that finish requests one for one have their ids. -/
theorem map_id_of_forall₂ {rs : List Request} {os : List RequestOutcome} (h : List.Forall₂ Finishes rs os) :
    os.map (·.id) = rs.map (·.id) := by
  induction h with
  | nil => rfl
  | cons hf _ ih => simp [hf.id, ih]

theorem settled_of_forall₂ {rs : List Request} {os : List RequestOutcome} (h : List.Forall₂ Finishes rs os) :
    ∀ o ∈ os, o.Settled := by
  induction h with
  | nil => simp
  | cons hf _ ih => simpa using ⟨hf.settled, ih⟩

end RequestOutcome

/-- Settled outcomes count once each: as done, up to date, failed or not started. -/
theorem Results.counts_of_settled (r : Results) (h : ∀ o ∈ r.outcomes, o.Settled) :
    r.processedCount + r.uptodateCount + r.errors.length + r.notStartedCount = r.size := by
  obtain ⟨os⟩ := r
  simp only [processedCount, uptodateCount, notStartedCount, count, errors, size]
  induction os with
  | nil => rfl
  | cons o os ih =>
    have ho := h o List.mem_cons_self
    have hrest := ih fun x hx => h x (List.mem_cons_of_mem o hx)
    -- the error of `o` is counted exactly when its state is `failed`
    have herr := ho.error_iff
    have hrun := ho.not_running
    simp only [List.filter_cons, List.filterMap_cons, List.length_cons]
    cases hs : o.state <;> cases he : o.error <;> simp_all <;> omega

/-- Among settled outcomes, one carries an error exactly when one failed. -/
theorem Results.hasErrors_iff (r : Results) (h : ∀ o ∈ r.outcomes, o.Settled) :
    r.hasErrors = true ↔ ∃ o ∈ r.outcomes, o.state = .failed := by
  simp only [hasErrors, List.any_eq_true]
  exact ⟨fun ⟨o, ho, he⟩ => ⟨o, ho, (h o ho).error_iff.1 he⟩,
    fun ⟨o, ho, hf⟩ => ⟨o, ho, (h o ho).error_iff.2 hf⟩⟩

/-- Pending outcomes carry no error: the failures are those of the requests started. -/
theorem Results.errors_of_outcomes {results : Results} {done : List RequestOutcome} {rest : List Request}
    (h : results.outcomes = done ++ rest.map RequestOutcome.pending) :
    results.errors = done.filterMap (·.error) := by
  simp [Results.errors, h, List.filterMap_append, List.filterMap_map, Function.comp_def]

namespace Executor

variable (ex : Executor)

/-- Processing a request finishes it. -/
theorem process_returns (r : Request) : Act.Returns (ex.process r) (RequestOutcome.Finishes r) := by
  unfold process
  refine Act.returns_ite (fun hup => Act.returns_pure ?_) fun hup =>
    Act.returns_bind_right fun ⟨ran, failure⟩ => ?_
  · refine ⟨?_, ⟨?_, ?_, ?_⟩, ?_, ?_, ?_⟩ <;> simp [hup, RequestState.canTransitionTo]
  · cases failure with
    | none => refine Act.returns_pure ⟨?_, ⟨?_, ?_, ?_⟩, ?_, ?_, ?_⟩ <;> simp [hup, RequestState.canTransitionTo]
    | some e => refine Act.returns_pure ⟨?_, ⟨?_, ?_, ?_⟩, ?_, ?_, ?_⟩ <;> simp [hup, RequestState.canTransitionTo]

/-- The requests a batch starts from the world `w`: a prefix of them, processed in order,
each on the world the one before it left, ending in `w'` with the outcomes `done`; a request
is started exactly when fail-fast is off or no outcome before it carries an error. -/
structure Starts (requests : List Request) (w : World) (done : List RequestOutcome) (w' : World) :
    Prop where
  length_le : done.length ≤ requests.length
  run : ((requests.take done.length).mapM ex.process).runOn w = (.ok done, w')
  started_iff : ∀ j < requests.length,
    j < done.length ↔ ∀ o ∈ done.take j, ex.failFast = true → o.error = none

/-- The pool of a batch, run after the outcomes `acc`, starts requests as `Starts` says,
appends their outcomes and gives back those it did not start. -/
theorem runOn_pool (requests : List Request) (acc : List RequestOutcome) (w : World) :
    ∃ done w', ((WorkerPool.run (fun r => StateT.lift (ex.process r))
        (fun _ o => do modify (· ++ [o]); return o.error.isSome && ex.failFast) requests).run acc).runOn w =
        (.ok (requests.drop done.length, acc ++ done), w') ∧ ex.Starts requests w done w' := by
  induction requests generalizing acc w with
  | nil => exact ⟨[], w, by simp [WorkerPool.run], ⟨Nat.le_refl _, rfl, fun j hj => absurd hj (Nat.not_lt_zero j)⟩⟩
  | cons r rs ih =>
    obtain ⟨o, w1, ho⟩ := Act.runOn_eq_ok_of_empty (ex.process r) w
    simp only [WorkerPool.run, StateT.run_bind, StateT.run_lift, bind_assoc, pure_bind, StateT.run_modify]
    rw [Act.runOn_bind_ok ho]
    by_cases hstop : (o.error.isSome && ex.failFast) = true
    · -- the outcome of `r` stops the pool
      refine ⟨[o], w1, by rw [if_pos hstop]; rfl, ⟨by simp, Act.runOn_mapM_cons ho rfl, ?_⟩⟩
      intro j hj
      cases j with
      | zero => simp
      | succ j =>
        have hfail : ex.failFast = true ∧ o.error ≠ none := by
          simpa [Option.isSome_iff_ne_none, and_comm] using hstop
        simp [hfail.1, hfail.2]
    · obtain ⟨done, w', hrun, hstarts⟩ := ih (acc ++ [o]) w1
      refine ⟨o :: done, w', ?_, ⟨by simpa using hstarts.length_le, ?_, ?_⟩⟩
      · rw [if_neg hstop, hrun]
        simp
      · exact Act.runOn_mapM_cons ho hstarts.run
      · intro j hj
        cases j with
        | zero => simp
        | succ j =>
          have hgo : ex.failFast = true → o.error = none := fun hf => by simpa [hf] using hstop
          rw [List.take_succ_cons, List.length_cons, Nat.succ_lt_succ_iff,
            hstarts.started_iff j (by simpa using hj)]
          simp only [List.mem_cons, forall_eq_or_imp]
          exact ⟨fun h => ⟨hgo, h⟩, fun h => h.2⟩

/-- A batch's results are built from the outcomes of the requests it started, then pending
outcomes for the rest. -/
theorem runOn_execute (requests : List Request) (w : World) :
    ∃ done w', (ex.execute requests).runOn w =
      (.ok ((done ++ (requests.drop done.length).map RequestOutcome.pending).foldl Results.insert {}, done),
        w') ∧ ex.Starts requests w done w' := by
  obtain ⟨done, w', hrun, hstarts⟩ := ex.runOn_pool requests [] w
  refine ⟨done, w', ?_, hstarts⟩
  unfold execute
  rw [Act.runOn_bind_ok hrun]
  simp only [List.nil_append, List.foldl_append, List.foldl_map]
  rfl

/-- Counting what two lists related one for one hold: a test on the second list that agrees
with one on the first, member by member, counts as many. -/
theorem length_filter_of_forall₂ {α β : Type} {R : α → β → Prop} {p : α → Bool} {q : β → Bool}
    {xs : List α} {ys : List β} (h : List.Forall₂ R xs ys) (hpq : ∀ x y, R x y → y ∈ ys → q y = p x) :
    (ys.filter q).length = (xs.filter p).length := by
  induction h with
  | nil => rfl
  | cons hr _ ih =>
    have hrest := ih fun x y hxy hy => hpq x y hxy (List.mem_cons_of_mem _ hy)
    rw [List.filter_cons, List.filter_cons, hpq _ _ hr List.mem_cons_self]
    split <;> simp [hrest]

section Starts

variable {ex} {requests : List Request} {w w' : World} {done : List RequestOutcome}
  (h : ex.Starts requests w done w')
include h

/-- The requests started finish one for one. -/
theorem Starts.finishes : List.Forall₂ RequestOutcome.Finishes (requests.take done.length) done :=
  Act.returns_mapM _ (fun r _ => ex.process_returns r) w done w' h.run

/-- Fail-fast stops a batch only after an error: when no started request failed, all started. -/
theorem Starts.all_started (hne : ∀ o ∈ done, o.error = none) : done.length = requests.length := by
  refine Nat.le_antisymm h.length_le (Nat.not_lt.1 fun hlt => ?_)
  have hstart := (h.started_iff done.length hlt).2 fun o ho _ => hne o (List.mem_of_mem_take ho)
  exact Nat.lt_irrefl _ hstart

/-- When no outcome of a batch carries an error, every request started: those not up to date
are done, and signed exactly when their chain signs. -/
theorem Starts.counts_of_no_errors {results : Results}
    (hresults : results.outcomes = done ++ (requests.drop done.length).map RequestOutcome.pending)
    (hne : results.hasErrors = false) :
    results.processedCount = (requests.filter (!·.uptodate)).length ∧
      results.signedCount = (requests.filter fun r => !r.uptodate && r.isSigning).length := by
  have herr : ∀ o ∈ results.outcomes, o.error = none := by simpa [Results.hasErrors] using hne
  have hdone : ∀ o ∈ done, o.error = none := fun o ho => herr o (hresults ▸ List.mem_append_left _ ho)
  have hall := h.all_started hdone
  have hout : results.outcomes = done := by rw [hresults, hall, List.drop_length, List.map_nil, List.append_nil]
  have hfin : List.Forall₂ RequestOutcome.Finishes requests done := by
    simpa [hall] using h.finishes
  constructor
  · rw [Results.processedCount, Results.count, hout]
    exact length_filter_of_forall₂ hfin fun r o hro ho => hro.isDone_eq (hdone o ho)
  · rw [Results.signedCount, hout]
    exact length_filter_of_forall₂ hfin fun r o hro ho => hro.isSigned_eq (hdone o ho)

/-- The outcomes a batch puts into its results are settled. -/
theorem Starts.settled :
    ∀ o ∈ done ++ (requests.drop done.length).map RequestOutcome.pending, o.Settled := by
  intro o ho
  rcases List.mem_append.1 ho with ho | ho
  · exact RequestOutcome.settled_of_forall₂ h.finishes o ho
  · obtain ⟨r, -, rfl⟩ := List.mem_map.1 ho
    exact RequestOutcome.pending_settled r

/-- The outcomes left pending are those of the requests not started. -/
theorem Starts.count_pending :
    ((done ++ (requests.drop done.length).map RequestOutcome.pending).filter (·.state == .pending)).length =
      requests.length - done.length := by
  -- a started request is never left pending
  have hdone : (done.filter (·.state == .pending)).length = 0 := by
    simpa using length_filter_of_forall₂ (p := fun _ => false) (q := (·.state == .pending)) h.finishes fun r o hro _ => by
      simpa using hro.started
  have hrest : ((requests.drop done.length).map RequestOutcome.pending).filter (·.state == .pending) =
      (requests.drop done.length).map RequestOutcome.pending :=
    List.filter_eq_self.2 fun o ho => by
      obtain ⟨r, -, rfl⟩ := List.mem_map.1 ho
      simp
  rw [List.filter_append, List.length_append, hdone, hrest, List.length_map, List.length_drop, Nat.zero_add]

end Starts

/-- When the requests come in increasing order of ids, the results hold the outcomes of the
started requests and then pending ones, in the order of the requests. -/
theorem runOn_execute_of_sorted (requests : List Request) (w : World)
    (hids : (requests.map (·.id)).Pairwise (· < ·)) :
    ∃ done w', (ex.execute requests).runOn w =
      (.ok (⟨done ++ (requests.drop done.length).map RequestOutcome.pending⟩, done), w') ∧
      ex.Starts requests w done w' := by
  obtain ⟨done, w', hrun, hstarts⟩ := ex.runOn_execute requests w
  refine ⟨done, w', ?_, hstarts⟩
  have hpending : ((·.id) ∘ RequestOutcome.pending : Request → Nat) = (·.id) := rfl
  have hsorted : Results.Sorted (done ++ (requests.drop done.length).map RequestOutcome.pending) := by
    rw [Results.Sorted, ← List.pairwise_map, List.map_append, RequestOutcome.map_id_of_forall₂ hstarts.finishes,
      List.map_map, hpending, ← List.map_append, List.take_append_drop]
    exact hids
  have hresults : (done ++ (requests.drop done.length).map RequestOutcome.pending).foldl Results.insert {} =
      ⟨done ++ (requests.drop done.length).map RequestOutcome.pending⟩ :=
    congrArg Results.mk (Results.foldl_insert_of_sorted _ {} hsorted)
  rw [hrun, hresults]

/-- What a batch run from the world `w` gives: the requests it starts, as `Starts` says, and
results holding, sorted by id, the outcomes `done` of those and pending outcomes for the rest,
one per request; all of them settled, and counted once each. -/
structure BatchRun (requests : List Request) (w : World) (results : Results)
    (done : List RequestOutcome) (w' : World) : Prop where
  starts : ex.Starts requests w done w'
  outcomes_perm : results.outcomes.Perm (done ++ (requests.drop done.length).map RequestOutcome.pending)
  sorted : Results.Sorted results.outcomes
  ids_perm : (results.outcomes.map (·.id)).Perm (requests.map (·.id))
  settled : ∀ o ∈ results.outcomes, o.Settled
  counts : results.processedCount + results.uptodateCount + results.errors.length +
    results.notStartedCount = requests.length

end Executor

end JarDeploy
