import Mathlib.Data.List.Forall2
import JarDeploy.World

/-!
# Running actions

An action runs against the world and ends with a value or an error, and a new world. The
lemmas here say what running the building blocks of actions gives: a value returned, an
error thrown, two actions in sequence (the second runs only when the first succeeds, on
the world the first left), an error renamed, a result caught. Later proofs step through a
`do` block with them instead of unfolding the monad.
-/

namespace JarDeploy.Act

set_option autoImplicit false

variable {ε ε' α β : Type}

@[simp] theorem runOn_pure (x : α) (w : World) : (pure x : Act ε α).runOn w = (.ok x, w) := rfl

@[simp] theorem runOn_throw (e : ε) (w : World) : (throw e : Act ε α).runOn w = (.error e, w) := rfl

/-- The second action runs on the world the first left, and only when it succeeded. -/
theorem runOn_bind (a : Act ε α) (f : α → Act ε β) (w : World) :
    (a >>= f).runOn w = match a.runOn w with
      | (.ok x, w') => (f x).runOn w'
      | (.error e, w') => (.error e, w') := by
  simp only [runOn, ExceptT.run_bind, StateT.run_bind]
  rcases (ExceptT.run a).run w with ⟨_ | x, w'⟩ <;> rfl

theorem runOn_bind_ok {a : Act ε α} {f : α → Act ε β} {w w' : World} {x : α}
    (h : a.runOn w = (.ok x, w')) : (a >>= f).runOn w = (f x).runOn w' := by
  rw [runOn_bind, h]

theorem runOn_bind_error {a : Act ε α} {f : α → Act ε β} {w w' : World} {e : ε}
    (h : a.runOn w = (.error e, w')) : (a >>= f).runOn w = (.error e, w') := by
  rw [runOn_bind, h]

/-- A sequence succeeds only when both parts do, each on the world before it. -/
theorem runOn_bind_eq_ok {a : Act ε α} {f : α → Act ε β} {w w'' : World} {y : β}
    (h : (a >>= f).runOn w = (.ok y, w'')) :
    ∃ x w', a.runOn w = (.ok x, w') ∧ (f x).runOn w' = (.ok y, w'') := by
  rw [runOn_bind] at h
  rcases ha : a.runOn w with ⟨_ | x, w'⟩
  · rw [ha] at h
    cases h
  · rw [ha] at h
    exact ⟨x, w', rfl, h⟩

/-- An action that cannot fail ends with a value. -/
theorem runOn_eq_ok_of_empty (a : Act Empty α) (w : World) : ∃ x w', a.runOn w = (.ok x, w') := by
  rcases a.runOn w with ⟨e | x, w'⟩
  · exact e.elim
  · exact ⟨x, w', rfl⟩

/-- Mapping an action over a list runs it on each member in turn. -/
theorem runOn_mapM_cons {γ : Type} {f : γ → Act ε α} {x : γ} {xs : List γ} {y : α} {ys : List α}
    {w w' w'' : World} (h : (f x).runOn w = (.ok y, w')) (hs : (xs.mapM f).runOn w' = (.ok ys, w'')) :
    ((x :: xs).mapM f).runOn w = (.ok (y :: ys), w'') := by
  rw [List.mapM_cons, runOn_bind_ok h, runOn_bind_ok hs]
  rfl

@[simp] theorem runOn_attempt (a : Act ε α) (w : World) :
    (attempt a : Act ε' (Except ε α)).runOn w = (.ok (a.runOn w).1, (a.runOn w).2) := rfl

theorem runOn_attempt_of {a : Act ε α} {w w' : World} {res : Except ε α} (h : a.runOn w = (res, w')) :
    (attempt a : Act ε' (Except ε α)).runOn w = (.ok res, w') := by
  rw [runOn_attempt, h]

@[simp] theorem runOn_mapError (f : ε → ε') (a : Act ε α) (w : World) :
    (mapError f a).runOn w = ((a.runOn w).1.mapError f, (a.runOn w).2) := rfl

@[simp] theorem runOn_ofExcept (r : Except ε α) (w : World) : (ofExcept r).runOn w = (r, w) := by
  cases r <;> rfl

@[simp] theorem runOn_infallible (a : Act Empty α) (w : World) :
    (infallible a : Act ε α).runOn w = ((a.runOn w).1.mapError (fun e => nomatch e), (a.runOn w).2) :=
  rfl

theorem runOn_infallible_ok {a : Act Empty α} {w w' : World} {x : α} (h : a.runOn w = (.ok x, w')) :
    (infallible a : Act ε α).runOn w = (.ok x, w') := by
  rw [runOn_infallible, h]
  rfl

/-- What an action that cannot fail ends with, it ends with wherever it runs. -/
theorem runOn_eq_of_infallible {a : Act Empty α} {w w' : World} {x : α}
    (h : (infallible a : Act ε α).runOn w = (.ok x, w')) : a.runOn w = (.ok x, w') := by
  obtain ⟨y, w'', hy⟩ := runOn_eq_ok_of_empty a w
  rw [runOn_infallible_ok hy, Prod.mk.injEq, Except.ok.injEq] at h
  rw [hy, h.1, h.2]

/-- A loop whose every round goes on, changing nothing, does nothing. -/
theorem runOn_forIn_yield {γ : Type} (xs : List γ) (f : γ → Unit → Act ε (ForInStep Unit)) (w : World)
    (h : ∀ x ∈ xs, (f x ()).runOn w = (.ok (.yield ()), w)) :
    (forIn xs () f).runOn w = (.ok (), w) := by
  induction xs with
  | nil => rfl
  | cons x xs ih =>
    rw [List.forIn_cons, runOn_bind_ok (h x List.mem_cons_self)]
    exact ih fun y hy => h y (List.mem_cons_of_mem x hy)

/-! ## The errors an action can end with -/

/-- Whatever the world, every error the action can end with satisfies `P`. -/
def FailsWith (a : Act ε α) (P : ε → Prop) : Prop := ∀ w e w', a.runOn w = (.error e, w') → P e

theorem failsWith_pure (x : α) (P : ε → Prop) : FailsWith (pure x : Act ε α) P := by
  intro w e w' h
  cases h

theorem failsWith_throw {P : ε → Prop} {e : ε} (h : P e) : FailsWith (throw e : Act ε α) P := by
  intro w e' w' h'
  cases h'
  exact h

theorem failsWith_bind {P : ε → Prop} {a : Act ε α} {f : α → Act ε β} (ha : FailsWith a P)
    (hf : ∀ x, FailsWith (f x) P) : FailsWith (a >>= f) P := by
  intro w e w' h
  rw [runOn_bind] at h
  rcases hr : a.runOn w with ⟨_ | x, w1⟩ <;> rw [hr] at h
  · cases h
    exact ha w _ _ hr
  · exact hf x w1 e w' h

/-- Renaming errors with `f` gives errors in the image of `f`. -/
theorem failsWith_mapError {P : ε' → Prop} (f : ε → ε') (a : Act ε α) (h : ∀ e, P (f e)) :
    FailsWith (mapError f a) P := by
  intro w e w' h'
  rw [runOn_mapError] at h'
  rcases hr : a.runOn w with ⟨_ | x, w1⟩ <;> rw [hr] at h' <;> cases h'
  exact h _

theorem failsWith_ite {P : ε → Prop} {c : Prop} [Decidable c] {a b : Act ε α}
    (ha : c → FailsWith a P) (hb : ¬c → FailsWith b P) : FailsWith (if c then a else b) P := by
  split
  · exact ha ‹_›
  · exact hb ‹_›

/-- A loop fails only as its rounds do. -/
theorem failsWith_forIn {γ σ : Type} {P : ε → Prop} (xs : List γ) (init : σ)
    (f : γ → σ → Act ε (ForInStep σ)) (h : ∀ x ∈ xs, ∀ s, FailsWith (f x s) P) :
    FailsWith (forIn xs init f) P := by
  induction xs generalizing init with
  | nil => exact failsWith_pure _ _
  | cons x xs ih =>
    rw [List.forIn_cons]
    refine failsWith_bind (h x List.mem_cons_self init) fun r => ?_
    cases r with
    | done b => exact failsWith_pure _ _
    | yield b => exact ih b fun y hy => h y (List.mem_cons_of_mem x hy)

/-! ## The values an action can end with -/

/-- Whatever the world, every value the action can end with satisfies `Q`. -/
def Returns (a : Act ε α) (Q : α → Prop) : Prop := ∀ w x w', a.runOn w = (.ok x, w') → Q x

theorem returns_pure {Q : α → Prop} {x : α} (h : Q x) : Returns (pure x : Act ε α) Q := by
  intro w y w' h'
  cases h'
  exact h

theorem returns_throw (e : ε) (Q : α → Prop) : Returns (throw e : Act ε α) Q := by
  intro w y w' h
  cases h

theorem returns_bind {R : α → Prop} {Q : β → Prop} {a : Act ε α} {f : α → Act ε β}
    (ha : Returns a R) (hf : ∀ x, R x → Returns (f x) Q) : Returns (a >>= f) Q := by
  intro w y w'' h
  obtain ⟨x, w', hx, hy⟩ := runOn_bind_eq_ok h
  exact hf x (ha w x w' hx) w' y w'' hy

/-- The values of a sequence are values of its second part. -/
theorem returns_bind_right {Q : β → Prop} {a : Act ε α} {f : α → Act ε β} (hf : ∀ x, Returns (f x) Q) :
    Returns (a >>= f) Q :=
  returns_bind (R := fun _ => True) (fun _ _ _ _ => trivial) fun x _ => hf x

theorem returns_ite {Q : α → Prop} {c : Prop} [Decidable c] {a b : Act ε α}
    (ha : c → Returns a Q) (hb : ¬c → Returns b Q) : Returns (if c then a else b) Q := by
  split
  · exact ha ‹_›
  · exact hb ‹_›

theorem returns_mapError {Q : α → Prop} (f : ε → ε') {a : Act ε α} (h : Returns a Q) :
    Returns (mapError f a) Q := by
  intro w x w' h'
  rw [runOn_mapError] at h'
  rcases hr : a.runOn w with ⟨_ | y, w1⟩ <;> rw [hr] at h' <;> cases h'
  exact h w x w1 hr

/-- Mapping an action over a list gives, member by member, the values its runs can give. -/
theorem returns_mapM {γ : Type} {Q : γ → α → Prop} {f : γ → Act ε α} (xs : List γ)
    (h : ∀ x ∈ xs, Returns (f x) (Q x)) : Returns (xs.mapM f) (List.Forall₂ Q xs) := by
  induction xs with
  | nil =>
    intro w ys w' hrun
    cases hrun
    exact .nil
  | cons x xs ih =>
    intro w ys w'' hrun
    rw [List.mapM_cons] at hrun
    obtain ⟨y, w', hy, hrest⟩ := runOn_bind_eq_ok hrun
    obtain ⟨ys', w1, hys, hpure⟩ := runOn_bind_eq_ok hrest
    cases hpure
    exact .cons (h x List.mem_cons_self w y w' hy)
      (ih (fun z hz => h z (List.mem_cons_of_mem x hz)) w' ys' _ hys)

/-- An invariant of the accumulator that every round of a fold keeps holds of its result. -/
theorem returns_foldlM {γ σ : Type} {I : σ → Prop} {f : σ → γ → Act ε σ} (xs : List γ) {init : σ}
    (h₀ : I init) (h : ∀ s, I s → ∀ x ∈ xs, Returns (f s x) I) : Returns (xs.foldlM f init) I := by
  induction xs generalizing init with
  | nil => exact returns_pure h₀
  | cons x xs ih =>
    rw [List.foldlM_cons]
    exact returns_bind (h init h₀ x List.mem_cons_self) fun s hs =>
      ih hs fun s' hs' y hy => h s' hs' y (List.mem_cons_of_mem x hy)

/-- The errors of a sequence whose first part only ends with values satisfying `Q`: those
of the first part, and those of the second from such a value. -/
theorem failsWith_bind_of {P : ε → Prop} {Q : α → Prop} {a : Act ε α} {f : α → Act ε β}
    (ha : FailsWith a P) (hq : Returns a Q) (hf : ∀ x, Q x → FailsWith (f x) P) :
    FailsWith (a >>= f) P := by
  intro w e w' h
  rw [runOn_bind] at h
  rcases hr : a.runOn w with ⟨_ | x, w1⟩ <;> rw [hr] at h
  · cases h
    exact ha w _ _ hr
  · exact hf x (hq w x w1 hr) w1 e w' h

/-- A fold fails only as its rounds do. -/
theorem failsWith_foldlM {γ σ : Type} {P : ε → Prop} {f : σ → γ → Act ε σ} (xs : List γ) (init : σ)
    (h : ∀ s, ∀ x ∈ xs, FailsWith (f s x) P) : FailsWith (xs.foldlM f init) P := by
  induction xs generalizing init with
  | nil => exact failsWith_pure _ _
  | cons x xs ih =>
    rw [List.foldlM_cons]
    exact failsWith_bind (h init x List.mem_cons_self) fun s =>
      ih s fun s' y hy => h s' y (List.mem_cons_of_mem x hy)

/-- Looking at the disk never fails. -/
theorem failsWith_isFile (p : Path) (P : ε → Prop) : FailsWith (isFile p : Act ε Bool) P := by
  intro w e w' h
  cases h

@[simp] theorem runOn_disk (w : World) : (disk : Act ε Disk).runOn w = (.ok w.disk, w) := rfl

@[simp] theorem runOn_isFile (p : Path) (w : World) :
    (isFile p : Act ε Bool).runOn w = (.ok (w.disk.isFile p), w) := rfl

end JarDeploy.Act

namespace JarDeploy

/-! ## Computations that may fail -/

/-- A computation whose result, as an option, is a value succeeded with it. -/
theorem eq_ok_of_toOption {ε α : Type} {x : Except ε α} {a : α} (h : x.toOption = some a) :
    x = .ok a := by
  cases x <;> simp_all [Except.toOption]

/-- A computation mapped over a list succeeds exactly when it succeeds on every member, with
the results in order. -/
theorem mapM_eq_ok_iff {α β ε : Type} {f : α → Except ε β} {xs : List α} {ys : List β} :
    xs.mapM f = .ok ys ↔ List.Forall₂ (fun x y => f x = .ok y) xs ys := by
  induction xs generalizing ys with
  | nil => cases ys <;> simp [pure, Except.pure]
  | cons x xs ih =>
    rw [List.mapM_cons]
    cases hx : f x with
    | error e => cases ys <;> simp [bind, Except.bind, hx]
    | ok y =>
      cases hxs : xs.mapM f with
      | error e => cases ys <;> simp [bind, Except.bind, ← ih, hxs, hx]
      | ok zs => cases ys <;> simp [bind, Except.bind, pure, Except.pure, ← ih, hxs, hx]

/-- A computation mapped over a list fails exactly when it fails on some member. -/
theorem mapM_eq_error_iff {α β ε : Type} {f : α → Except ε β} {xs : List α} :
    (∃ e, xs.mapM f = .error e) ↔ ∃ x ∈ xs, ∃ e, f x = .error e := by
  induction xs with
  | nil => simp [pure, Except.pure]
  | cons x xs ih =>
    rw [List.mapM_cons]
    cases hx : f x with
    | error e => simp [bind, Except.bind, hx]
    | ok y =>
      cases hxs : xs.mapM f with
      | error e => simpa [bind, Except.bind, hx, hxs] using ih
      | ok zs => simpa [bind, Except.bind, pure, Except.pure, hx, hxs] using ih

/-- A computation mapped over a list whose members it sends to results of a function gives
the list of those results. -/
theorem mapM_eq_ok_map {α β ε : Type} {f : α → Except ε β} {g : α → β} {xs : List α}
    (h : ∀ x ∈ xs, f x = .ok (g x)) : xs.mapM f = .ok (xs.map g) :=
  mapM_eq_ok_iff.2 (List.forall₂_map_right_iff.2 (List.forall₂_same.2 h))

/-- Every member of a list that a computation mapped over it succeeds on gives a result. -/
theorem exists_ok_of_mapM_eq_ok {α β ε : Type} {f : α → Except ε β} {xs : List α} {ys : List β}
    (h : xs.mapM f = .ok ys) : ∀ x ∈ xs, ∃ y, f x = .ok y := by
  intro x hx
  cases hfx : f x with
  | ok y => exact ⟨y, rfl⟩
  | error e =>
    obtain ⟨e', he'⟩ := mapM_eq_error_iff.2 ⟨x, hx, e, hfx⟩
    rw [h] at he'
    cases he'

end JarDeploy
