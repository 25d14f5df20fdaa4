import JarDeploy.Pipeline
import JarDeploy.Proofs.Batch
import JarDeploy.Proofs.Chain

/-!
# What a pipeline run reports

Planning numbers the requests `0, 1, 2, …` in the order of the selected artifacts, and each
request signs exactly when the settings sign. So the outcomes of a run come in the order of
the requests, and when none failed every request started: those not up to date at planning
ended done, and were signed exactly when the settings sign. Hence the check that every
modified jar was signed never fails, and a run reports failed dependencies exactly when an
outcome failed, listing the failures in the order of the requests.
-/

namespace JarDeploy

set_option autoImplicit false

namespace Act

theorem failsWith_ofExcept {ε α : Type} {P : ε → Prop} {r : Except ε α} (h : ∀ e, r = .error e → P e) :
    FailsWith (ofExcept r) P := by
  intro w e w' h'
  rw [runOn_ofExcept] at h'
  cases h'
  exact h e rfl

end Act

namespace Executor

/-- A batch whose requests are numbered in order: its results hold the outcomes of the
started requests and then pending ones, in the order of the requests. -/
theorem execute_of_range (ex : Executor) {requests : List Request} {w w' : World} {results : Results}
    {done : List RequestOutcome} (hids : requests.map (·.id) = List.range requests.length)
    (h : (ex.execute requests).runOn w = (.ok (results, done), w')) :
    results.outcomes = done ++ (requests.drop done.length).map RequestOutcome.pending ∧
      ex.Starts requests w done w' := by
  obtain ⟨done', w'', h', hstarts⟩ :=
    ex.runOn_execute_of_sorted requests w (hids ▸ List.pairwise_lt_range)
  rw [h'] at h
  simp only [Prod.mk.injEq, Except.ok.injEq] at h
  obtain ⟨⟨rfl, rfl⟩, rfl⟩ := h
  exact ⟨rfl, hstarts⟩

end Executor

namespace RequestBuilder

theorem create_returns (b : RequestBuilder) (a : Artifact) (ov : Bool) :
    Act.Returns (b.create a ov) fun x => b.Builds a ov x.1 ∧ x.2 = { b with nextId := b.nextId + 1 } := by
  unfold create
  exact Act.returns_bind (build_returns b a ov) fun r hr => Act.returns_pure ⟨hr, rfl⟩

end RequestBuilder

namespace Pipeline

variable (p : Pipeline) (artifacts : List Artifact)

/-- Planning numbers the requests in order, and each signs exactly when the settings sign. -/
theorem plan_returns : Act.Returns (p.plan artifacts) fun requests =>
    requests.map (·.id) = List.range requests.length ∧ ∀ r ∈ requests, r.isSigning = p.settings.isSign := by
  unfold plan
  refine Act.returns_bind_right fun selected => ?_
  -- the builder keeps the settings, and counts the requests built
  let I : RequestBuilder × List Request → Prop := fun acc =>
    acc.1.settings = p.settings ∧ acc.2.map (·.id) = List.range acc.1.nextId ∧
      ∀ r ∈ acc.2, r.isSigning = p.settings.isSign
  refine Act.returns_bind (Act.returns_foldlM (I := I) selected ⟨rfl, rfl, by simp⟩ ?_) ?_
  · rintro ⟨b, rs⟩ ⟨hs, hids, hsign⟩ a _
    refine Act.returns_bind (Act.returns_mapError _ (RequestBuilder.create_returns b a _)) ?_
    rintro ⟨r, b'⟩ ⟨hr, rfl⟩
    replace hr : b.Builds a p.settings.outputJarVersions r := hr
    refine Act.returns_pure ⟨hs, ?_, fun r' hr' => ?_⟩
    · simp [hids, hr.id, List.range_succ]
    · rcases List.mem_append.1 hr' with hr' | hr'
      · exact hsign r' hr'
      · rw [List.mem_singleton.1 hr', hr.isSigning, hs]
  · rintro ⟨b, requests⟩ ⟨-, hids, hsign⟩
    have hlen : requests.length = b.nextId := by simpa using congrArg List.length hids
    exact Act.returns_pure ⟨hlen ▸ hids, hsign⟩

/-- Planning fails only on the settings or on a request. -/
theorem plan_failsWith :
    Act.FailsWith (p.plan artifacts) fun e => (∃ c, e = .config c) ∨ ∃ re, e = .request re := by
  unfold plan
  refine Act.failsWith_bind (Act.failsWith_ofExcept fun e h => .inl ?_) fun selected =>
    Act.failsWith_bind ?_ fun _ => Act.failsWith_pure _ _
  · cases hs : p.select artifacts with
    | error c => exact ⟨c, by simpa [hs, Except.mapError] using h.symm⟩
    | ok _ => simp [hs, Except.mapError] at h
  · refine Act.failsWith_foldlM _ _ fun acc a _ => ?_
    exact Act.failsWith_bind (Act.failsWith_mapError _ _ fun re => .inr ⟨re, rfl⟩) fun _ =>
      Act.failsWith_pure _ _

/-- Generating the keystore fails only as the keystore tool does. -/
theorem generateKeystore_failsWith : Act.FailsWith p.generateKeystore fun e => ∃ t, e = .keystore t := by
  unfold generateKeystore
  split
  · exact Act.failsWith_pure _ _
  · exact Act.failsWith_bind (Act.failsWith_mapError _ _ fun t => ⟨t, rfl⟩) fun _ => Act.failsWith_pure _ _

theorem run_error_cases {w w' : World} {e : PipelineError} (h : (p.run artifacts).runOn w = (.error e, w')) :
    (∃ c, e = .config c) ∨ (∃ re, e = .request re) ∨ (∃ t, e = .keystore t) ∨
    ∃ requests w1 b w2 results done w3, (p.plan artifacts).runOn w = (.ok requests, w1) ∧
      p.generateKeystore.runOn w1 = (.ok b, w2) ∧
      (p.executor.execute requests).runOn w2 = (.ok (results, done), w3) ∧
      ((results.hasErrors = true ∧ w' = w3 ∧
          e = .dependenciesFailed (results.errors.map ProcessError.message) results.notStartedCount) ∨
        (results.hasErrors = false ∧
          (checkSignedCount p.settings results.signedCount (requests.filter (!·.uptodate)).length = .error e ∨
            ∃ l, e = .listing l))) := by
  unfold run at h
  rcases hplan : (p.plan artifacts).runOn w with ⟨e1 | requests, w1⟩
  · rw [Act.runOn_bind_error hplan] at h
    cases h
    exact (plan_failsWith p artifacts w e _ hplan).elim .inl (.inr ∘ .inl)
  rw [Act.runOn_bind_ok hplan] at h
  rcases hkey : p.generateKeystore.runOn w1 with ⟨e2 | b, w2⟩
  · rw [Act.runOn_bind_error hkey] at h
    cases h
    exact .inr (.inr (.inl (generateKeystore_failsWith p w1 e w' hkey)))
  rw [Act.runOn_bind_ok hkey] at h
  obtain ⟨⟨results, done⟩, w3, hexec⟩ := Act.runOn_eq_ok_of_empty (p.executor.execute requests) w2
  rw [Act.runOn_bind_ok (Act.runOn_infallible_ok hexec)] at h
  refine .inr (.inr (.inr ⟨requests, w1, b, w2, results, done, w3, rfl, hkey, hexec, ?_⟩))
  dsimp only at h
  split at h
  · -- some outcome failed: the run stops with the failures
    rename_i herr
    rw [Act.runOn_bind_error (Act.runOn_throw _ w3), Prod.mk.injEq, Except.error.injEq] at h
    exact .inl ⟨herr, h.2.symm, h.1.symm⟩
  · rename_i herr
    refine .inr ⟨by simpa using herr, ?_⟩
    rcases hcheck : checkSignedCount p.settings results.signedCount (requests.filter (!·.uptodate)).length with
      e' | _
    · rw [Act.runOn_bind_error (by rw [Act.runOn_ofExcept, hcheck]), Prod.mk.injEq, Except.error.injEq] at h
      exact .inl (h.1 ▸ hcheck)
    · rw [Act.runOn_bind_ok (by rw [Act.runOn_ofExcept, hcheck])] at h
      -- what is left lists the deployed jars, failing only with listing errors
      have hlisting : ∀ {α : Type} (a : Act ListingError α),
          Act.FailsWith (Act.mapError PipelineError.listing a) fun e => ∃ l, e = .listing l :=
        fun a => Act.failsWith_mapError _ a fun l => ⟨l, rfl⟩
      exact .inr (Act.failsWith_bind (hlisting _) (fun _ => Act.failsWith_bind (hlisting _) fun _ =>
        Act.failsWith_pure _ _) w3 e w' h)

/-- The signature check passes when signing has signed every modified jar. -/
theorem checkSignedCount_ok {s : Settings} {signed modified : Nat} (h : s.isSign = true → signed = modified) :
    checkSignedCount s signed modified = .ok () := by
  unfold checkSignedCount
  cases hs : s.isSign
  · rfl
  · simp [h hs]

/-- When every request signs exactly as the settings do, the requests modified and signed
are all those modified, or none. -/
theorem length_filter_signing {requests : List Request} {b : Bool} (hsign : ∀ r ∈ requests, r.isSigning = b) :
    (requests.filter fun r => !r.uptodate && r.isSigning).length =
      if b then (requests.filter (!·.uptodate)).length else 0 := by
  rw [List.filter_congr fun r hr => by rw [hsign r hr]]
  cases b <;> simp

/-- A run whose requests all ran without error: those not up to date at planning are done,
and signed exactly when the settings sign. -/
theorem counts_of_run {requests : List Request} {w w' : World} {results : Results}
    {done : List RequestOutcome} (hplan : requests.map (·.id) = List.range requests.length ∧
      ∀ r ∈ requests, r.isSigning = p.settings.isSign)
    (hexec : (p.executor.execute requests).runOn w = (.ok (results, done), w'))
    (hne : results.hasErrors = false) :
    results.processedCount = (requests.filter (!·.uptodate)).length ∧
      results.signedCount = if p.settings.isSign then (requests.filter (!·.uptodate)).length else 0 := by
  obtain ⟨hout, hstarts⟩ := p.executor.execute_of_range hplan.1 hexec
  obtain ⟨hprocessed, hsigned⟩ := hstarts.counts_of_no_errors hout hne
  exact ⟨hprocessed, hsigned.trans (length_filter_signing hplan.2)⟩

/-- A run whose execution recorded an error stops with the failures and the number of
requests not started. -/
theorem runOn_run_of_hasErrors {w w1 w2 w3 : World} {requests : List Request} {b : Bool}
    {results : Results} {done : List RequestOutcome}
    (hplan : (p.plan artifacts).runOn w = (.ok requests, w1)) (hkey : p.generateKeystore.runOn w1 = (.ok b, w2))
    (hexec : (p.executor.execute requests).runOn w2 = (.ok (results, done), w3))
    (herr : results.hasErrors = true) :
    (p.run artifacts).runOn w =
      (.error (.dependenciesFailed (results.errors.map ProcessError.message) results.notStartedCount), w3) := by
  unfold run
  rw [Act.runOn_bind_ok hplan, Act.runOn_bind_ok hkey, Act.runOn_bind_ok (Act.runOn_infallible_ok hexec)]
  dsimp only
  rw [if_pos herr, Act.runOn_bind_error (Act.runOn_throw _ w3)]

/-- A run never finds a modified jar left unsigned while signing. -/
theorem run_failsWith_not_invariant : Act.FailsWith (p.run artifacts) fun e => ∀ d, e ≠ .invariant d := by
  intro w e w' h d hd
  subst hd
  rcases p.run_error_cases artifacts h with ⟨c, hc⟩ | ⟨re, hre⟩ | ⟨t, ht⟩ |
    ⟨requests, w1, b, w2, results, done, w3, hplan, -, hexec, ⟨-, -, hdep⟩ | ⟨hne, hcheck | ⟨l, hl⟩⟩⟩
  · cases hc
  · cases hre
  · cases ht
  · cases hdep
  · -- with no error, every modified jar was signed, so the check passed
    have hcounts := p.counts_of_run (p.plan_returns artifacts w requests w1 hplan) hexec hne
    rw [checkSignedCount_ok fun hs => by simp [hcounts.2, hs]] at hcheck
    cases hcheck
  · cases hl

/-- What a successful run reports: no error, the requests not up to date at planning all
done, and signed exactly when the settings sign. -/
theorem run_returns : Act.Returns (p.run artifacts) fun rep => rep.results.hasErrors = false ∧
    rep.results.processedCount = rep.modified ∧
    rep.results.signedCount = if p.settings.isSign then rep.modified else 0 := by
  intro w rep w' h
  unfold run at h
  obtain ⟨requests, w1, hplan, h⟩ := Act.runOn_bind_eq_ok h
  obtain ⟨_, w2, -, h⟩ := Act.runOn_bind_eq_ok h
  obtain ⟨⟨results, done⟩, w3, hinf, h⟩ := Act.runOn_bind_eq_ok h
  dsimp only at h
  split at h
  · obtain ⟨_, _, hthrow, -⟩ := Act.runOn_bind_eq_ok h
    cases hthrow
  · rename_i hne
    replace hne : results.hasErrors = false := by simpa using hne
    obtain ⟨_, _, -, h⟩ := Act.runOn_bind_eq_ok h
    obtain ⟨listing, _, -, h⟩ := Act.runOn_bind_eq_ok h
    obtain ⟨_, _, -, h⟩ := Act.runOn_bind_eq_ok h
    cases h
    exact ⟨hne, p.counts_of_run (p.plan_returns artifacts w requests w1 hplan)
      (Act.runOn_eq_of_infallible hinf) hne⟩

end Pipeline

end JarDeploy
