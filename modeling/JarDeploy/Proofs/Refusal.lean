import JarDeploy.Proofs.Frame
import JarDeploy.Proofs.Pipeline

/-!
# Refusals come before any change

Selecting the artifacts and building their requests only look at the workspace: they read
files and ask the toolkit whether jars are signed, and change nothing, not even the record
of toolkit calls. A run plans before it does anything else, so a run that fails on the
settings or on a request leaves the world exactly as it was. The error it reports is the
selection's when selection fails (two artifacts under one file name, a bad pattern), and
otherwise the error of the first selected artifact whose request cannot be built, every
artifact before it having been built.

The single-pass mode refuses the selected artifacts the same way before it stages them.
It checks again, after staging, the jars it then finds staged in the library directory; a
refusal there comes after the staged copies were written.
-/

namespace JarDeploy

set_option autoImplicit false

namespace Act

variable {ε ε' α β : Type}

/-- Wherever it runs and however it ends, the action leaves the world as it found it. -/
def ReadOnly (a : Act ε α) : Prop := ∀ w r w', a.runOn w = (r, w') → w' = w

theorem readOnly_pure (x : α) : ReadOnly (pure x : Act ε α) := by
  intro w r w' h
  cases h
  rfl

theorem readOnly_throw (e : ε) : ReadOnly (throw e : Act ε α) := by
  intro w r w' h
  cases h
  rfl

theorem readOnly_disk : ReadOnly (disk : Act ε Disk) := by
  intro w r w' h
  cases h
  rfl

theorem readOnly_ofExcept (r : Except ε α) : ReadOnly (ofExcept r) := by
  intro w r' w' h
  rw [runOn_ofExcept] at h
  cases h
  rfl

/-- A sequence of actions that only look only looks. -/
theorem readOnly_bind {a : Act ε α} {f : α → Act ε β} (ha : ReadOnly a) (hf : ∀ x, ReadOnly (f x)) :
    ReadOnly (a >>= f) := by
  intro w r w'' h
  rw [runOn_bind] at h
  rcases hr : a.runOn w with ⟨_ | x, w'⟩ <;> rw [hr] at h
  · cases h
    exact ha w _ _ hr
  · rw [hf x w' r w'' h, ha w _ _ hr]

theorem readOnly_mapError (f : ε → ε') {a : Act ε α} (h : ReadOnly a) : ReadOnly (mapError f a) := by
  intro w r w' hr
  rw [runOn_mapError] at hr
  cases hr
  exact h w _ _ rfl

theorem readOnly_ite {c : Prop} [Decidable c] {a b : Act ε α} (ha : c → ReadOnly a) (hb : ¬c → ReadOnly b) :
    ReadOnly (if c then a else b) := by
  split
  · exact ha ‹_›
  · exact hb ‹_›

theorem readOnly_forIn {γ σ : Type} (xs : List γ) (init : σ) {f : γ → σ → Act ε (ForInStep σ)}
    (h : ∀ x ∈ xs, ∀ s, ReadOnly (f x s)) : ReadOnly (forIn xs init f) := by
  induction xs generalizing init with
  | nil => exact readOnly_pure _
  | cons x xs ih =>
    rw [List.forIn_cons]
    refine readOnly_bind (h x List.mem_cons_self init) fun r => ?_
    cases r with
    | done b => exact readOnly_pure _
    | yield b => exact ih b fun y hy => h y (List.mem_cons_of_mem x hy)

theorem readOnly_foldlM {γ σ : Type} {f : σ → γ → Act ε σ} (xs : List γ) (init : σ)
    (h : ∀ s, ∀ x ∈ xs, ReadOnly (f s x)) : ReadOnly (xs.foldlM f init) := by
  induction xs generalizing init with
  | nil => exact readOnly_pure _
  | cons x xs ih =>
    rw [List.foldlM_cons]
    exact readOnly_bind (h init x List.mem_cons_self) fun s =>
      ih s fun s' y hy => h s' y (List.mem_cons_of_mem x hy)

theorem readOnly_read (p : Path) : ReadOnly (read p) :=
  readOnly_bind readOnly_disk fun _ => readOnly_ofExcept _

theorem readOnly_stat (p : Path) : ReadOnly (stat p) :=
  readOnly_bind readOnly_disk fun _ => readOnly_ofExcept _

/-- A run of an action that only looks ends on the world it started from. -/
theorem ReadOnly.runOn_eq {a : Act ε α} (h : ReadOnly a) (w : World) : a.runOn w = ((a.runOn w).1, w) := by
  rcases hr : a.runOn w with ⟨r, w'⟩
  rw [h w r w' hr]

theorem FailsWith.mono {a : Act ε α} {P Q : ε → Prop} (h : FailsWith a P) (hPQ : ∀ e, P e → Q e) :
    FailsWith a Q :=
  fun w e w' hrun => hPQ e (h w e w' hrun)

/-- A sequence fails in its first part, or in its second after the first went through. -/
theorem runOn_bind_error_cases {a : Act ε α} {f : α → Act ε β} {w w' : World} {e : ε}
    (h : (a >>= f).runOn w = (.error e, w')) :
    a.runOn w = (.error e, w') ∨ ∃ x w₁, a.runOn w = (.ok x, w₁) ∧ (f x).runOn w₁ = (.error e, w') := by
  rcases hr : a.runOn w with ⟨e' | x, w₁⟩
  · rw [runOn_bind_error hr] at h
    cases h
    exact .inl rfl
  · rw [runOn_bind_ok hr] at h
    exact .inr ⟨x, w₁, rfl, h⟩

theorem runOn_mapError_eq_ok {f : ε → ε'} {a : Act ε α} {w w' : World} {x : α}
    (h : (mapError f a).runOn w = (.ok x, w')) : a.runOn w = (.ok x, w') := by
  rw [runOn_mapError] at h
  rcases hr : a.runOn w with ⟨e | y, w₁⟩ <;> rw [hr] at h <;> cases h
  rfl

theorem runOn_mapError_eq_error {f : ε → ε'} {a : Act ε α} {w w' : World} {e : ε'}
    (h : (mapError f a).runOn w = (.error e, w')) : ∃ e₀, a.runOn w = (.error e₀, w') ∧ e = f e₀ := by
  rw [runOn_mapError] at h
  rcases hr : a.runOn w with ⟨e₀ | y, w₁⟩ <;> rw [hr] at h <;> cases h
  exact ⟨e₀, rfl, rfl⟩

/-! ## Folds that stop -/

/-- A fold that fails stops at one member: the rounds of the members before it went
through, and the round of that member failed. -/
theorem runOn_foldlM_error {γ σ : Type} {f : σ → γ → Act ε σ} {xs : List γ} {init : σ}
    {w w' : World} {e : ε} (h : (xs.foldlM f init).runOn w = (.error e, w')) :
    ∃ pre x post s w₁, xs = pre ++ x :: post ∧ (pre.foldlM f init).runOn w = (.ok s, w₁) ∧
      (f s x).runOn w₁ = (.error e, w') := by
  induction xs generalizing init w with
  | nil => cases h
  | cons y ys ih =>
    rw [List.foldlM_cons, runOn_bind] at h
    rcases hy : (f init y).runOn w with ⟨e' | s, w₁⟩ <;> rw [hy] at h
    · cases h
      exact ⟨[], y, ys, init, w, rfl, rfl, hy⟩
    · obtain ⟨pre, x, post, s', w₂, rfl, hpre, hx⟩ := ih h
      refine ⟨y :: pre, x, post, s', w₂, rfl, ?_, hx⟩
      rw [List.foldlM_cons, runOn_bind_ok hy, hpre]

/-- A fold invariant indexed by the members already folded. -/
theorem runOn_foldlM_prefix {γ σ : Type} {f : σ → γ → Act ε σ} (P : List γ → σ → World → Prop)
    (hf : ∀ done s w x s' w', P done s w → (f s x).runOn w = (.ok s', w') → P (done ++ [x]) s' w') :
    ∀ (xs done : List γ) (init : σ) (w : World) (s' : σ) (w' : World), P done init w →
      (xs.foldlM f init).runOn w = (.ok s', w') → P (done ++ xs) s' w'
  | [], done, init, w, s', w', hi, h => by
    cases h
    simpa using hi
  | x :: xs, done, init, w, s', w', hi, h => by
    rw [List.foldlM_cons] at h
    obtain ⟨s, w₁, hx, hrest⟩ := runOn_bind_eq_ok h
    simpa using runOn_foldlM_prefix P hf xs (done ++ [x]) s w₁ s' w' (hf done init w x s w₁ hi hx) hrest

end Act

namespace Jar

theorem readOnly_openArchive (p : Path) : Act.ReadOnly (openArchive p) := by
  unfold openArchive
  refine Act.readOnly_bind Act.readOnly_disk fun d => ?_
  split
  · exact Act.readOnly_ofExcept _
  · exact Act.readOnly_throw _
  · exact Act.readOnly_throw _

theorem readOnly_isSigned (p : Path) : Act.ReadOnly (isSigned p) :=
  Act.readOnly_bind (readOnly_openArchive p) fun _ => Act.readOnly_pure _

end Jar

/-- Asking whether a jar is signed only looks: the scripted toolkit records no call for it. -/
theorem Toolkit.readOnly_isSigned (t : Toolkit) (jar : Path) : Act.ReadOnly (t.isSigned jar) := by
  cases t with
  | scripted =>
    exact Act.readOnly_bind (Act.readOnly_mapError _ (Act.readOnly_read jar)) fun _ => Act.readOnly_pure _
  | command _ => exact Jar.readOnly_isSigned jar

namespace RequestBuilder

theorem readOnly_newerThan {ε : Type} (p : Path) (t : Nat) : Act.ReadOnly (newerThan p t : Act ε Bool) := by
  intro w r w' h
  rw [runOn_newerThan] at h
  cases h
  rfl

/-- Building a request only looks: at the artifact, at whether it is signed, and at the
times of the copies it would reuse. -/
theorem readOnly_build (b : RequestBuilder) (a : Artifact) (ov : Bool) : Act.ReadOnly (b.build a ov) := by
  unfold build
  extract_lets c filename s originalFile finalFile rest
  have hrest : ∀ x, Act.ReadOnly (rest x) := by
    intro x
    simp only [rest]
    refine Act.readOnly_bind (Act.readOnly_forIn _ _ fun t _ _ => ?_) fun _ => ?_
    · split
      · exact Act.readOnly_throw _
      · exact Act.readOnly_pure _
    · refine Act.readOnly_bind (Act.readOnly_mapError _ (Act.readOnly_stat _)) fun _ => ?_
      refine Act.readOnly_bind (readOnly_newerThan _ _) fun _ => ?_
      refine Act.readOnly_bind (readOnly_newerThan _ _) fun _ => ?_
      split
      · exact Act.readOnly_bind (readOnly_newerThan _ _) fun _ => Act.readOnly_pure _
      · exact Act.readOnly_pure _
  split
  · refine Act.readOnly_bind (Act.readOnly_mapError _ (b.toolkit.readOnly_isSigned _)) fun signed => ?_
    split
    · exact Act.readOnly_bind (Act.readOnly_throw _) fun _ => hrest _
    · simp only [pure_bind]
      exact hrest signed
  · simp only [pure_bind]
    exact hrest false

theorem readOnly_create (b : RequestBuilder) (a : Artifact) (ov : Bool) : Act.ReadOnly (b.create a ov) :=
  Act.readOnly_bind (b.readOnly_build a ov) fun _ => Act.readOnly_pure _

end RequestBuilder

namespace Pipeline

variable (p : Pipeline) (artifacts : List Artifact)

/-- One round of planning: the request of the next artifact, built with the builder so far. -/
def planRound (acc : RequestBuilder × List Request) (a : Artifact) :
    Act PipelineError (RequestBuilder × List Request) := do
  let (r, b) ← Act.mapError PipelineError.request (acc.1.create a p.settings.outputJarVersions)
  return (b, acc.2 ++ [r])

theorem plan_eq : p.plan artifacts = (do
    let selected ← Act.ofExcept ((p.select artifacts).mapError .config)
    let (_, requests) ← selected.foldlM p.planRound (p.builder, [])
    return requests) := rfl

/-- Planning only looks. -/
theorem readOnly_plan : Act.ReadOnly (p.plan artifacts) := by
  rw [plan_eq]
  refine Act.readOnly_bind (Act.readOnly_ofExcept _) fun selected => ?_
  refine Act.readOnly_bind (Act.readOnly_foldlM _ _ fun acc a _ => ?_) fun _ => Act.readOnly_pure _
  exact Act.readOnly_bind (Act.readOnly_mapError _ (acc.1.readOnly_create a _)) fun _ => Act.readOnly_pure _

variable {p}

/-- A round of planning builds the next request, on the world as it is, and moves the
builder to the next number. -/
theorem runOn_planRound {acc : RequestBuilder × List Request} {a : Artifact} {w : World} :
    (p.planRound acc a).runOn w = match (acc.1.build a p.settings.outputJarVersions).runOn w with
      | (.ok r, w') => (.ok ({ acc.1 with nextId := acc.1.nextId + 1 }, acc.2 ++ [r]), w')
      | (.error re, w') => (.error (.request re), w') := by
  unfold planRound RequestBuilder.create
  rw [Act.runOn_bind, Act.runOn_mapError, Act.runOn_bind]
  rcases (acc.1.build a p.settings.outputJarVersions).runOn w with ⟨re | r, w'⟩ <;> rfl

/-- Planning the artifacts `done` from the start numbers them `0, 1, …`, building each on
the world as it was; the builder then holds the next number. -/
theorem plan_prefix {done : List Artifact} {w w' : World} {s' : RequestBuilder × List Request}
    (h : (done.foldlM p.planRound (p.builder, [])).runOn w = (.ok s', w')) :
    w' = w ∧ s'.1 = { p.builder with nextId := done.length } ∧
      ∀ i (hi : i < done.length), ∃ r,
        ({ p.builder with nextId := i }.build done[i] p.settings.outputJarVersions).runOn w = (.ok r, w) := by
  let P : List Artifact → RequestBuilder × List Request → World → Prop := fun done s w₁ =>
    w₁ = w ∧ s.1 = { p.builder with nextId := done.length } ∧
      ∀ i (hi : i < done.length), ∃ r,
        ({ p.builder with nextId := i }.build done[i] p.settings.outputJarVersions).runOn w = (.ok r, w)
  refine Act.runOn_foldlM_prefix P ?_ done [] (p.builder, []) w s' w' ⟨rfl, rfl, nofun⟩ h
  rintro done ⟨b, rs⟩ w₁ x s₁ w₂ ⟨rfl, hb, hbuilt⟩ hround
  simp only at hb
  subst hb
  rw [runOn_planRound] at hround
  rcases hx : ({ p.builder with nextId := done.length }.build x p.settings.outputJarVersions).runOn w₁ with
    ⟨re | r, w₃⟩
  · rw [hx] at hround
    cases hround
  -- building only looks, so the next round starts from the same world
  have hw : w₃ = w₁ := RequestBuilder.readOnly_build _ _ _ _ _ _ hx
  subst hw
  rw [hx, Prod.mk.injEq] at hround
  obtain ⟨hs, rfl⟩ := hround
  cases hs
  refine ⟨rfl, by simp, fun i hi => ?_⟩
  rcases Nat.lt_or_ge i done.length with hlt | hge
  · rw [List.getElem_append_left hlt]
    exact hbuilt i hlt
  · have hi' : i = done.length := by simp at hi; omega
    subst hi'
    exact ⟨r, by simpa using hx⟩

/-- Planning goes through artifacts whose requests all build, numbering them from `k` on. -/
theorem plan_of_builds {w : World} :
    ∀ (done : List Artifact) (k : Nat) (rs : List Request),
      (∀ i (hi : i < done.length), ∃ r,
        ({ p.builder with nextId := k + i }.build done[i] p.settings.outputJarVersions).runOn w = (.ok r, w)) →
      ∃ rs', (done.foldlM p.planRound ({ p.builder with nextId := k }, rs)).runOn w =
        (.ok ({ p.builder with nextId := k + done.length }, rs'), w)
  | [], k, rs, _ => ⟨rs, rfl⟩
  | x :: done, k, rs, h => by
    obtain ⟨r, hr⟩ := h 0 (by simp)
    obtain ⟨rs', hrest⟩ := plan_of_builds done (k + 1) (rs ++ [r]) fun i hi => by
      have hnext := h (i + 1) (by simpa using hi)
      rw [List.getElem_cons_succ] at hnext
      simpa [Nat.add_assoc, Nat.add_comm 1 i] using hnext
    refine ⟨rs', ?_⟩
    rw [List.foldlM_cons, Act.runOn_bind, runOn_planRound]
    simp only [Nat.add_zero, List.getElem_cons_zero] at hr
    rw [hr]
    simpa [Nat.add_assoc, Nat.add_comm 1] using hrest

variable (p)

/-- How planning refuses from a world: with the selection's error when selection fails, and
otherwise with the error of the first selected artifact whose request cannot be built, the
artifacts before it all built, each under the number it was due. -/
def Refuses (w : World) (e : PipelineError) : Prop :=
  (∃ c, p.select artifacts = .error c ∧ e = .config c) ∨
  ∃ pre a post re, p.select artifacts = .ok (pre ++ a :: post) ∧
    (∀ i (hi : i < pre.length), ∃ r,
      ({ p.builder with nextId := i }.build pre[i] p.settings.outputJarVersions).runOn w = (.ok r, w)) ∧
    ({ p.builder with nextId := pre.length }.build a p.settings.outputJarVersions).runOn w = (.error re, w) ∧
    e = .request re

variable {p artifacts}

/-- Planning fails exactly as it refuses, and leaves the world as it was. -/
theorem plan_error_iff {w w' : World} {e : PipelineError} :
    (p.plan artifacts).runOn w = (.error e, w') ↔ w' = w ∧ p.Refuses artifacts w e := by
  rw [plan_eq]
  constructor
  · intro h
    have hw : w' = w := p.readOnly_plan artifacts w _ w' (by rw [plan_eq]; exact h)
    subst w'
    refine ⟨rfl, ?_⟩
    rcases hsel : p.select artifacts with c | selected
    · -- selection refuses before any artifact is looked at
      rw [Act.runOn_bind_error (by rw [Act.runOn_ofExcept, hsel]; rfl)] at h
      cases h
      exact .inl ⟨c, hsel, rfl⟩
    · rw [Act.runOn_bind_ok (by rw [Act.runOn_ofExcept, hsel]; rfl)] at h
      rcases hfold : (selected.foldlM p.planRound (p.builder, [])).runOn w with ⟨e' | acc, w₁⟩
      · rw [Act.runOn_bind_error hfold] at h
        cases h
        -- the fold stopped at one artifact, every artifact before it built
        obtain ⟨pre, a, post, s, w₂, rfl, hpre, ha⟩ := Act.runOn_foldlM_error hfold
        obtain ⟨hw₂, hb, hbuilt⟩ := plan_prefix hpre
        subst w₂
        rw [runOn_planRound, hb] at ha
        rcases hx : ({ p.builder with nextId := pre.length }.build a p.settings.outputJarVersions).runOn w with
          ⟨re | r, w₃⟩
        · have hw₃ : w₃ = w := RequestBuilder.readOnly_build _ _ _ _ _ _ hx
          subst w₃
          rw [hx] at ha
          cases ha
          exact .inr ⟨pre, a, post, re, hsel, hbuilt, hx, rfl⟩
        · rw [hx] at ha
          cases ha
      · rw [Act.runOn_bind_ok hfold] at h
        cases h
  · rintro ⟨hw, ⟨c, hsel, rfl⟩ | ⟨pre, a, post, re, hsel, hbuilt, ha, rfl⟩⟩ <;> subst w'
    · rw [Act.runOn_bind_error (by rw [Act.runOn_ofExcept, hsel]; rfl)]
    · rw [Act.runOn_bind_ok (by rw [Act.runOn_ofExcept, hsel]; rfl)]
      obtain ⟨rs, hpre⟩ := plan_of_builds (p := p) (w := w) pre 0 [] fun i hi => by
        simpa using hbuilt i hi
      rw [Nat.zero_add] at hpre
      -- the builder numbering from 0 is the pipeline's own
      replace hpre : (pre.foldlM p.planRound (p.builder, [])).runOn w =
          (.ok ({ p.builder with nextId := pre.length }, rs), w) := hpre
      have hfold : ((pre ++ a :: post).foldlM p.planRound (p.builder, [])).runOn w =
          (.error (.request re), w) := by
        rw [List.foldlM_append, Act.runOn_bind_ok hpre, List.foldlM_cons,
          Act.runOn_bind, runOn_planRound]
        rw [ha]
      rw [Act.runOn_bind_error hfold]

/-- The errors of a run after planning went through: of the keystore, of failed dependencies,
of the signature check and of the listing, never of the settings or of a request. -/
theorem run_not_refusal_of_plan {w w₁ w' : World} {requests : List Request} {e : PipelineError}
    (hplan : (p.plan artifacts).runOn w = (.ok requests, w₁)) (h : (p.run artifacts).runOn w = (.error e, w')) :
    (∀ c, e ≠ .config c) ∧ ∀ re, e ≠ .request re := by
  let NotRefusal : PipelineError → Prop := fun e => (∀ c, e ≠ .config c) ∧ ∀ re, e ≠ .request re
  have hrest : ∀ {α : Type} (a : Act ListingError α),
      Act.FailsWith (Act.mapError PipelineError.listing a) NotRefusal :=
    fun a => Act.failsWith_mapError _ a fun _ => ⟨nofun, nofun⟩
  unfold run at h
  rw [Act.runOn_bind_ok hplan] at h
  refine Act.failsWith_bind (P := NotRefusal) (Act.FailsWith.mono (generateKeystore_failsWith p) ?_) (fun _ => ?_) w₁ e w' h
  · rintro _ ⟨t, rfl⟩
    exact ⟨nofun, nofun⟩
  · refine Act.failsWith_bind (Act.failsWith_mapError _ _ nofun) fun x => ?_
    obtain ⟨results, done⟩ := x
    dsimp only
    split
    · exact Act.failsWith_bind_of (Act.failsWith_throw ⟨nofun, nofun⟩) (Act.returns_throw _ fun _ => False)
        fun _ h => h.elim
    refine Act.failsWith_bind (Act.failsWith_ofExcept fun e he => ?_) fun _ => ?_
    · unfold checkSignedCount at he
      split at he <;> cases he
      exact ⟨nofun, nofun⟩
    · exact Act.failsWith_bind (hrest _) fun _ => Act.failsWith_bind (hrest _) fun _ => Act.failsWith_pure _ _

/-- A run fails on the settings or on a request exactly when planning refuses, and then
leaves the world as it was. -/
theorem run_refusal_iff {w w' : World} {e : PipelineError} :
    ((p.run artifacts).runOn w = (.error e, w') ∧ ((∃ c, e = .config c) ∨ ∃ re, e = .request re)) ↔
      w' = w ∧ p.Refuses artifacts w e := by
  constructor
  · rintro ⟨h, hkind⟩
    rcases hplan : (p.plan artifacts).runOn w with ⟨e' | requests, w₁⟩
    · have hrun := h
      unfold run at hrun
      rw [Act.runOn_bind_error hplan, Prod.mk.injEq] at hrun
      obtain ⟨he, rfl⟩ := hrun
      cases he
      exact plan_error_iff.1 hplan
    · obtain ⟨hc, hre⟩ := run_not_refusal_of_plan hplan h
      rcases hkind with ⟨c, rfl⟩ | ⟨re, rfl⟩
      · exact absurd rfl (hc c)
      · exact absurd rfl (hre re)
  · intro hr
    have hplan := plan_error_iff.2 hr
    refine ⟨by unfold run; rw [Act.runOn_bind_error hplan], ?_⟩
    rcases hr.2 with ⟨c, -, rfl⟩ | ⟨-, -, -, re, -, -, -, rfl⟩
    · exact .inl ⟨c, rfl⟩
    · exact .inr ⟨re, rfl⟩

end Pipeline

/-! ## The single-pass mode -/

/-- The single-pass check only looks. -/
theorem readOnly_checkUnsignPermitted (s : Settings) (t : Toolkit) (jars : List (String × Path)) :
    Act.ReadOnly (checkUnsignPermitted s t jars) := by
  unfold checkUnsignPermitted
  refine Act.readOnly_ite (fun _ => Act.readOnly_pure _) fun _ => ?_
  refine Act.readOnly_bind (Act.readOnly_forIn _ _ fun x _ _ => ?_) fun _ => Act.readOnly_pure _
  obtain ⟨name, q⟩ := x
  refine Act.readOnly_bind (Act.readOnly_mapError _ (t.readOnly_isSigned q)) fun b => ?_
  exact Act.readOnly_ite (fun _ => Act.readOnly_bind (Act.readOnly_throw _) fun _ => Act.readOnly_pure _)
    fun _ => Act.readOnly_pure _

/-- The single-pass check refuses only when signing must unsign signed jars but may not. It
stops at the first jar that is signed, or that cannot be inspected, every jar before it
unsigned, and changes nothing. -/
theorem checkUnsignPermitted_error {s : Settings} {t : Toolkit} {jars : List (String × Path)}
    {w w' : World} {e : LegacyError} (h : (checkUnsignPermitted s t jars).runOn w = (.error e, w')) :
    w' = w ∧ (s.isSign && s.unsignAlreadySigned && !s.canUnsign) = true ∧
    ∃ pre x post, jars = pre ++ x :: post ∧ (∀ y ∈ pre, (t.isSigned y.2).runOn w = (.ok false, w)) ∧
      (((t.isSigned x.2).runOn w = (.ok true, w) ∧ e = .config (.unsignNotPermitted x.1)) ∨
        ∃ te, (t.isSigned x.2).runOn w = (.error te, w) ∧ e = .inspect x.2 te) := by
  have hw : w' = w := readOnly_checkUnsignPermitted s t jars w _ w' h
  subst w'
  unfold checkUnsignPermitted at h
  split at h
  · cases h
  rename_i hcond
  refine ⟨rfl, by simpa using hcond, ?_⟩
  rw [Act.runOn_bind] at h
  split at h
  · cases h
  rename_i e' w₁ hloop
  cases h
  clear hcond
  -- the loop over the jars, one round per jar
  induction jars with
  | nil => cases hloop
  | cons y ys ih =>
    obtain ⟨name, q⟩ := y
    rw [List.forIn_cons, Act.runOn_bind, Act.runOn_bind, Act.runOn_mapError] at hloop
    rcases hq : (t.isSigned q).runOn w with ⟨te | b, w₂⟩
    · have hw₂ : w₂ = w := t.readOnly_isSigned q w _ w₂ hq
      subst w₂
      rw [hq] at hloop
      cases hloop
      exact ⟨[], (name, q), ys, rfl, nofun, .inr ⟨te, hq, rfl⟩⟩
    · have hw₂ : w₂ = w := t.readOnly_isSigned q w _ w₂ hq
      subst w₂
      rw [hq] at hloop
      cases b
      · -- an unsigned jar: the loop goes on with the next one
        obtain ⟨pre, x, post, hjars, hpre, hx⟩ := ih hloop
        refine ⟨(name, q) :: pre, x, post, by rw [hjars]; rfl, fun z hz => ?_, hx⟩
        rcases List.mem_cons.1 hz with rfl | hz
        · exact hq
        · exact hpre z hz
      · -- a signed jar is refused
        cases hloop
        exact ⟨[], (name, q), ys, rfl, nofun, .inl ⟨hq, rfl⟩⟩

namespace Pipeline

variable (p : Pipeline) (artifacts : List Artifact)

/-- How the single-pass mode refuses before it stages anything: with the selection's error
when selection fails, and otherwise, when signing must unsign signed jars but may not, at
the first selected artifact that is signed, every artifact before it unsigned. -/
def LegacyRefuses (w : World) (c : SettingsError) : Prop :=
  p.select artifacts = .error c ∨
  ∃ pre a post, p.select artifacts = .ok (pre ++ a :: post) ∧
    (p.settings.isSign && p.settings.unsignAlreadySigned && !p.settings.canUnsign) = true ∧
    (∀ b ∈ pre, (p.toolkit.isSigned ⟨b.file⟩).runOn w = (.ok false, w)) ∧
    (p.toolkit.isSigned ⟨a.file⟩).runOn w = (.ok true, w) ∧ c = .unsignNotPermitted a.display

variable {p artifacts}

/-- Once the selected artifacts passed the check, a single-pass run fails on the settings
only where processing the library directory does: generating the keystore, staging and
the signature count fail otherwise. -/
theorem runLegacy_config_of_checked {selected : List Artifact} {w w' : World} {c : SettingsError}
    (h : (do
        let _ ← p.generateKeystore
        let now ← Act.now
        let start := now / nanosPerSecond * nanosPerSecond
        let libDir := p.settings.libDirectory
        let modified ← selected.foldlM (fun n a => do
          let filename := p.builder.filename a p.settings.outputJarVersions
          let staged ← Act.mapError PipelineError.io (stageUnprocessed a filename libDir p.toucher)
          return if staged then n + 1 else n) 0
        let report ← p.processLegacyDirectory start libDir
        Act.ofExcept (checkSignedCount p.settings report.signedCount modified)
        return report : Act PipelineError LegacyReport).runOn w = (.error (.config c), w')) :
    ∃ start w₁, (p.processLegacyDirectory start p.settings.libDirectory).runOn w₁ = (.error (.config c), w') := by
  obtain hkey | ⟨_, w₁, -, h⟩ := Act.runOn_bind_error_cases h
  · obtain ⟨t, ht⟩ := generateKeystore_failsWith p w _ _ hkey
    cases ht
  obtain hnow | ⟨now, w₂, -, h⟩ := Act.runOn_bind_error_cases h
  · rw [Act.runOn_now] at hnow
    cases hnow
  obtain hstage | ⟨modified, w₃, -, h⟩ := Act.runOn_bind_error_cases h
  · -- staging fails only on files
    have hio := Act.failsWith_foldlM (P := fun e => ∃ io, e = PipelineError.io io) _ _ (fun n a _ => by
      dsimp only
      exact Act.failsWith_bind (Act.failsWith_mapError _ _ fun io => ⟨io, rfl⟩) fun _ => Act.failsWith_pure _ _)
      w₂ _ _ hstage
    obtain ⟨io, hio⟩ := hio
    cases hio
  obtain hproc | ⟨report, w₄, -, h⟩ := Act.runOn_bind_error_cases h
  · exact ⟨_, w₃, hproc⟩
  obtain hcount | ⟨_, w₅, -, h⟩ := Act.runOn_bind_error_cases h
  · rw [Act.runOn_ofExcept] at hcount
    unfold checkSignedCount at hcount
    split at hcount <;> cases hcount
  · cases h

/-- A single-pass run that fails on the settings either refused the selection or a selected
artifact, before staging, leaving the world as it was; or the selected artifacts passed the
check and processing the library directory, after staging, refused. -/
theorem runLegacy_refusal {w w' : World} {c : SettingsError}
    (h : (p.runLegacy artifacts).runOn w = (.error (.config c), w')) :
    (w' = w ∧ p.LegacyRefuses artifacts w c) ∨
    ∃ selected, p.select artifacts = .ok selected ∧
      (checkUnsignPermitted p.settings p.toolkit (selected.map fun a => (a.display, ⟨a.file⟩))).runOn w =
        (.ok (), w) ∧
      ∃ start w₁, (p.processLegacyDirectory start p.settings.libDirectory).runOn w₁ = (.error (.config c), w') := by
  unfold runLegacy at h
  rcases hsel : p.select artifacts with c' | selected
  · rw [Act.runOn_bind_error (by rw [Act.runOn_ofExcept, hsel]; rfl), Prod.mk.injEq] at h
    obtain ⟨hc, rfl⟩ := h
    cases hc
    exact .inl ⟨rfl, .inl hsel⟩
  rw [Act.runOn_bind_ok (by rw [Act.runOn_ofExcept, hsel]; rfl)] at h
  obtain hchk | ⟨_, w₁, hchk, h⟩ := Act.runOn_bind_error_cases h
  · -- the check of the selected artifacts refused, having only looked
    obtain ⟨le, hle, hc⟩ := Act.runOn_mapError_eq_error hchk
    obtain ⟨rfl, hcond, pre, x, post, hjars, hpre, hx⟩ := checkUnsignPermitted_error hle
    obtain ⟨pre', rest, rfl, rfl, hrest⟩ := List.map_eq_append_iff.1 hjars
    obtain ⟨a, post', rfl, rfl, rfl⟩ := List.map_eq_cons_iff.1 hrest
    refine .inl ⟨rfl, .inr ⟨pre', a, post', hsel, hcond, fun b hb => hpre (b.display, ⟨b.file⟩) (List.mem_map_of_mem hb), ?_⟩⟩
    rcases hx with ⟨hsigned, rfl⟩ | ⟨te, -, rfl⟩
    · simp only [PipelineError.ofLegacy, PipelineError.config.injEq] at hc
      exact ⟨hsigned, hc⟩
    · simp [PipelineError.ofLegacy] at hc
  · have hle := Act.runOn_mapError_eq_ok hchk
    have hw₁ : w₁ = w := readOnly_checkUnsignPermitted _ _ _ w _ w₁ hle
    subst w₁
    exact .inr ⟨selected, rfl, hle, runLegacy_config_of_checked h⟩

/-- **Refusals come before any change.** A run fails on the settings or on a request exactly
when planning refuses, and it then leaves the world as it was: no file, directory or time
changed and no toolkit call recorded. The error is the selection's when selection fails,
and otherwise that of the first selected artifact whose request cannot be built. A
single-pass run refused on the settings either refused the selection or a selected
artifact, before anything changed, or passed them and was refused later, while processing
the library directory after staging. -/
theorem refusals_before_changes (p : Pipeline) (artifacts : List Artifact) (w w' : World) :
    (∀ e, ((p.run artifacts).runOn w = (.error e, w') ∧ ((∃ c, e = .config c) ∨ ∃ re, e = .request re)) ↔
      w' = w ∧ p.Refuses artifacts w e) ∧
    ∀ c, (p.runLegacy artifacts).runOn w = (.error (.config c), w') →
      (w' = w ∧ p.LegacyRefuses artifacts w c) ∨
      ∃ selected, p.select artifacts = .ok selected ∧
        (checkUnsignPermitted p.settings p.toolkit (selected.map fun a => (a.display, ⟨a.file⟩))).runOn w =
          (.ok (), w) ∧
        ∃ start w₁, (p.processLegacyDirectory start p.settings.libDirectory).runOn w₁ =
          (.error (.config c), w') :=
  ⟨fun _ => run_refusal_iff, fun _ h => runLegacy_refusal h⟩

/-- The artifact a result refuses to unsign, when it is such a refusal. -/
def unsignRefusal {α : Type} : Except PipelineError α → Option String
  | .error (.config (.unsignNotPermitted n)) => some n
  | _ => none

theorem eq_of_unsignRefusal {α : Type} {r : Except PipelineError α} {n : String}
    (h : unsignRefusal r = some n) : r = .error (.config (.unsignNotPermitted n)) := by
  unfold unsignRefusal at h
  split at h
  · cases h
    rfl
  · cases h

/-- A signed artifact, while signing must unsign signed jars but may not: the single-pass
mode refuses it before staging anything. -/
theorem refusals_before_changes_signed_artifact :
    let s : Settings := { workingDirectory := ⟨"work"⟩, finalDirectory := ⟨"out"⟩
                          unsignAlreadySigned := true, canUnsign := false
                          sign := some { keystore := "ks.jks", keyAlias := "app", storepass := "secret" } }
    let p : Pipeline := { settings := s, toolkit := .scripted }
    let a : Artifact := { groupId := "g", artifactId := "a", version := "1", file := "repo/a.jar" }
    let w : World := { disk := ⟨[(["repo"], .dir 0), (["repo", "a.jar"], .file "SIGNED:a".toUTF8 0)]⟩ }
    let c : SettingsError := .unsignNotPermitted "g:a:jar:1"
    let run := (p.runLegacy [a]).runOn w
    run = (.error (.config c), run.2) ∧
      ((run.2 = w ∧ p.LegacyRefuses [a] w c) ∨
        ∃ selected, p.select [a] = .ok selected ∧
          (checkUnsignPermitted p.settings p.toolkit (selected.map fun a => (a.display, ⟨a.file⟩))).runOn w =
            (.ok (), w) ∧
          ∃ start w₁, (p.processLegacyDirectory start p.settings.libDirectory).runOn w₁ =
            (.error (.config c), run.2)) := by
  intro s p a w c run
  have hb : unsignRefusal run.1 = some "g:a:jar:1" := by decide +kernel
  have h : run = (.error (.config c), run.2) := Prod.ext (eq_of_unsignRefusal hb) rfl
  exact ⟨h, (refusals_before_changes p [a] w run.2).2 c h⟩


/-- A signed jar staged earlier lies in the library directory, with a time after the run's
start. The single-pass mode stages `repo/a.jar` as `out/unprocessed_a.jar` and only then
refuses the staged signed jar: it reports a configuration error, the staged copy written. -/
theorem runLegacy_refuses_after_staging :
    let s : Settings := { workingDirectory := ⟨"work"⟩, finalDirectory := ⟨"out"⟩
                          unsignAlreadySigned := true, canUnsign := false
                          sign := some { keystore := "ks.jks", keyAlias := "app", storepass := "secret" } }
    let p : Pipeline := { settings := s, toolkit := .scripted }
    let a : Artifact := { groupId := "g", artifactId := "a", version := "1", file := "repo/a.jar" }
    let w : World := { disk := ⟨[(["repo"], .dir 0), (["repo", "a.jar"], .file "abc".toUTF8 0), (["out"], .dir 0),
      (["out", "unprocessed_z.jar"], .file "SIGNED:z".toUTF8 (4000000000 * nanosPerSecond))]⟩ }
    let run := (p.runLegacy [a]).runOn w
    unsignRefusal run.1 = some "unprocessed_z.jar" ∧
    w.disk.isFile ⟨"out/unprocessed_a.jar"⟩ = false ∧
    (run.2.disk.read ⟨"out/unprocessed_a.jar"⟩).toOption = some "abc".toUTF8 := by
  decide +kernel

end Pipeline

end JarDeploy
