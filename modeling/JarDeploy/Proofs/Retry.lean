import JarDeploy.Touch
import JarDeploy.Proofs.Frame

/-!
# Bounded retries

A retry loop tries its operation with the attempt numbers 1, 2, … in order and stops at
the first success, or after `max maxAttempts 1` attempts; between two attempts it sleeps
the policy's delay once. Its result is the result of its last attempt. Recording every
call and every sleep of an operation whose result depends only on the attempt number
shows all of this at once (`run_records`): the record is the attempts `1, …, m` with one
sleep between two of them, where `m` is the first attempt that succeeds, or the last
allowed. No attempt number passes the bound, so a bound that fits a machine word keeps
the counter in the word.

Stamping a file is such a loop. An attempt that fails leaves the disk as it was, so every
attempt meets the same disk: the first one succeeds, or all of them fail
(`touchAt_runOn`). Stamping never fails itself, it only reports.
-/

namespace JarDeploy

set_option autoImplicit false

/-- What a retry loop does, in order. -/
inductive RetryEvent where
  /-- The operation is called with an attempt number. -/
  | attempt (n : Nat)
  /-- The loop sleeps for a delay. -/
  | sleep (ms : Nat)
  deriving Repr, DecidableEq

namespace RetryEvent

/-- Attempt `a`, then the attempts after it up to `m`, each after a sleep of `d`. -/
def rounds (d a m : Nat) : List RetryEvent :=
  .attempt a :: (List.range' (a + 1) (m - a)).flatMap fun n => [.sleep d, .attempt n]

/-- The attempt numbers of a record, in order. -/
def attempts (es : List RetryEvent) : List Nat :=
  es.filterMap fun | .attempt n => some n | .sleep _ => none

/-- The delays slept in a record, in order. -/
def sleeps (es : List RetryEvent) : List Nat :=
  es.filterMap fun | .attempt _ => none | .sleep ms => some ms

theorem rounds_self (d a : Nat) : rounds d a a = [.attempt a] := by
  simp [rounds]

theorem rounds_of_lt {d a m : Nat} (h : a < m) :
    rounds d a m = .attempt a :: .sleep d :: rounds d (a + 1) m := by
  have hm : m - a = m - (a + 1) + 1 := by omega
  simp only [rounds, hm, List.range'_succ, List.flatMap_cons, List.cons_append, List.nil_append]

/-- The attempts of the rounds up to `m` are `a, …, m`. -/
theorem attempts_rounds (d a m : Nat) : attempts (rounds d a m) = List.range' a (m - a + 1) := by
  induction h : m - a generalizing a with
  | zero =>
    simp [rounds, h, attempts]
  | succ k ih =>
    rw [rounds_of_lt (by omega), List.range'_succ, ← ih (a + 1) (by omega)]
    rfl

/-- Between `m + 1 - a` attempts the rounds sleep `m - a` times, each time the delay. -/
theorem sleeps_rounds (d a m : Nat) : sleeps (rounds d a m) = List.replicate (m - a) d := by
  induction h : m - a generalizing a with
  | zero =>
    simp [rounds, h, sleeps]
  | succ k ih =>
    rw [rounds_of_lt (by omega), List.replicate_succ, ← ih (a + 1) (by omega)]
    rfl

end RetryEvent

namespace RetryPolicy

variable {ε α : Type}

/-- An operation whose result is `res` of the attempt number, each call recorded. -/
def recorded (res : Nat → Except ε α) (n : Nat) : StateM (List RetryEvent) (Except ε α) := do
  modify (· ++ [.attempt n])
  return res n

/-- A sleep that is only recorded. -/
def recordSleep (ms : Nat) : StateM (List RetryEvent) Unit := modify (· ++ [.sleep ms])

/-- From attempt `a` with `left` more allowed, the loop makes the attempts up to the first
success, or up to `a + left`, and ends with that attempt's result. -/
theorem retryFrom_records (p : RetryPolicy) (res : Nat → Except ε α) (a left : Nat)
    (log : List RetryEvent) :
    ∃ m, a ≤ m ∧ m ≤ a + left ∧ (∀ n, a ≤ n → n < m → (res n).isOk = false) ∧
      ((res m).isOk = true ∨ m = a + left) ∧
      Id.run ((p.retryFrom recordSleep (recorded res) a left).run log) =
        (res m, log ++ RetryEvent.rounds p.delayMs a m) := by
  induction left generalizing a log with
  | zero =>
    refine ⟨a, le_refl a, by omega, fun n h1 h2 => by omega, .inr rfl, ?_⟩
    simp [retryFrom, recorded, RetryEvent.rounds_self]
  | succ left ih =>
    cases hres : res a with
    | ok v =>
      refine ⟨a, le_refl a, by omega, fun n h1 h2 => by omega, .inl (by simp [hres, Except.toBool]), ?_⟩
      simp [retryFrom, recorded, hres, RetryEvent.rounds_self]
    | error e =>
      -- the first attempt fails: the loop sleeps and goes on from the next attempt
      obtain ⟨m, ham, hma, hfail, hstop, hrun⟩ := ih (a + 1) (log ++ [.attempt a, .sleep p.delayMs])
      refine ⟨m, by omega, by omega, fun n han hnm => ?_, hstop.imp_right (by omega), ?_⟩
      · rcases Nat.eq_or_lt_of_le han with rfl | han
        · simp [hres, Except.toBool]
        · exact hfail n han hnm
      · simp [retryFrom, recorded, recordSleep, hres, hrun, RetryEvent.rounds_of_lt ham]

/-- The loop makes the attempts `1, …, m` in order, with one sleep of the policy's delay
between two of them, and ends with the result of attempt `m`: the first attempt that
succeeds, or the last one allowed when none does. -/
theorem run_records (p : RetryPolicy) (res : Nat → Except ε α) :
    ∃ m, 1 ≤ m ∧ m ≤ max p.maxAttempts 1 ∧ (∀ n, 1 ≤ n → n < m → (res n).isOk = false) ∧
      ((res m).isOk = true ∨ m = max p.maxAttempts 1) ∧
      Id.run ((p.run recordSleep (recorded res)).run []) = (res m, RetryEvent.rounds p.delayMs 1 m) := by
  obtain ⟨m, h1, hm, hfail, hstop, hrun⟩ := p.retryFrom_records res 1 (p.attempts - 1) []
  have hatt : 1 + (p.attempts - 1) = max p.maxAttempts 1 := by
    unfold attempts
    omega
  rw [hatt] at hm hstop
  rw [List.nil_append] at hrun
  exact ⟨m, h1, hm, hfail, hstop, hrun⟩

/-- Two flaky attempts, then success at the third: two sleeps. -/
example : Id.run ((({ maxAttempts := 3, delayMs := 250 } : RetryPolicy).run recordSleep
    (recorded fun n => if n < 3 then .error "flaky" else .ok n)).run []) =
      (.ok 3, [.attempt 1, .sleep 250, .attempt 2, .sleep 250, .attempt 3]) := by decide

end RetryPolicy

namespace Toucher

variable {ε : Type}

/-- What one attempt to stamp makes of a disk: the disk with the time set, or the error. -/
def outcome (t : Toucher) (p : Path) (time : Nat) (d : Disk) : Except IoError Disk :=
  match t.writer with
  | .disk => d.setModified p time
  | .failing => .error (MtimeWriter.refusal p)

/-- The disk after an attempt: changed only when the attempt succeeds. -/
def diskAfter (t : Toucher) (p : Path) (time : Nat) (d : Disk) : Disk :=
  match t.outcome p time d with
  | .ok d' => d'
  | .error _ => d

/-- An attempt to stamp ends as its outcome on the disk says, and changes the disk only
when it succeeds. -/
theorem runOn_attemptAt (t : Toucher) (p : Path) (time : Nat) (w : World) :
    ∃ w', (t.attemptAt p time).runOn w = ((t.outcome p time w.disk).map fun _ => (), w') ∧
      w'.disk = t.diskAfter p time w.disk := by
  unfold attemptAt diskAfter outcome
  cases t.writer with
  | disk =>
    simp only [Act.setModified, Act.runOn_change]
    cases w.disk.setModified p time with
    | ok d => exact ⟨_, rfl, rfl⟩
    | error e => exact ⟨_, rfl, rfl⟩
  | failing => exact ⟨w, rfl, rfl⟩

/-- One counted attempt of the stamping loop. -/
def countedAttempt (t : Toucher) (p : Path) (time : Nat) (_ : Nat) :
    StateT (Nat × List Nat) (Act ε) (Except IoError Unit) := do
  modify fun (n, s) => (n + 1, s)
  StateT.lift (Act.attempt (t.attemptAt p time))

/-- A sleep of the stamping loop: only recorded. -/
def countedSleep (ms : Nat) : StateT (Nat × List Nat) (Act ε) Unit :=
  modify fun (n, s) => (n, s ++ [ms])

theorem touchAt_eq (t : Toucher) (p : Path) (time : Nat) :
    (t.touchAt p time : Act ε TouchReport) = (do
      let (result, (attempts, sleeps)) ←
        (t.policy.run countedSleep (countedAttempt t p time)).run (0, [])
      return ⟨result.isOk, attempts, sleeps⟩) := rfl

theorem runOn_countedAttempt (t : Toucher) (p : Path) (time a n : Nat) (s : List Nat) (w : World) :
    ∃ w', ((countedAttempt t p time a).run (n, s) : Act ε _).runOn w =
      (.ok ((t.outcome p time w.disk).map fun _ => (), (n + 1, s)), w') ∧
      w'.disk = t.diskAfter p time w.disk := by
  obtain ⟨w', hrun, hdisk⟩ := runOn_attemptAt t p time w
  refine ⟨w', ?_, hdisk⟩
  simp only [countedAttempt, StateT.run_bind, StateT.run_modify, StateT.run_lift]
  rw [Act.runOn_bind_ok (Act.runOn_pure _ w), Act.runOn_bind_ok (Act.runOn_attempt_of hrun)]
  rfl

theorem runOn_countedSleep (ms n : Nat) (s : List Nat) (w : World) :
    ((countedSleep ms).run (n, s) : Act ε _).runOn w = (.ok ((), (n, s ++ [ms])), w) := rfl

/-- When an attempt fails on the disk, every later attempt meets the same disk and fails
alike: the loop makes all its attempts, sleeping between them. -/
theorem retryFrom_fails (t : Toucher) (p : Path) (time : Nat) {e : IoError} {d : Disk}
    (he : t.outcome p time d = .error e) (a left n : Nat) (s : List Nat) (w : World)
    (hw : w.disk = d) :
    ∃ w', ((t.policy.retryFrom countedSleep (countedAttempt t p time) a left).run (n, s) :
        Act ε _).runOn w =
      (.ok (.error e, (n + left + 1, s ++ List.replicate left t.policy.delayMs)), w') ∧
      w'.disk = d := by
  have hkeep : t.diskAfter p time d = d := by simp [diskAfter, he]
  induction left generalizing a n s w with
  | zero =>
    obtain ⟨w', hrun, hdisk⟩ := runOn_countedAttempt (ε := ε) t p time a n s w
    rw [hw, he] at hrun
    rw [hw, hkeep] at hdisk
    refine ⟨w', ?_, hdisk⟩
    simpa [RetryPolicy.retryFrom, Except.map] using hrun
  | succ left ih =>
    obtain ⟨w1, hrun, hdisk⟩ := runOn_countedAttempt (ε := ε) t p time a n s w
    rw [hw, he] at hrun
    rw [hw, hkeep] at hdisk
    obtain ⟨w', hrest, hd'⟩ := ih (a + 1) (n + 1) (s ++ [t.policy.delayMs]) w1 hdisk
    refine ⟨w', ?_, hd'⟩
    simp only [RetryPolicy.retryFrom, StateT.run_bind]
    rw [Act.runOn_bind_ok hrun]
    -- the attempt failed, so the loop sleeps once and goes on
    change ((countedSleep t.policy.delayMs >>= fun _ =>
      t.policy.retryFrom countedSleep (countedAttempt t p time) (a + 1) left).run (n + 1, s)).runOn w1 = _
    rw [StateT.run_bind, Act.runOn_bind_ok (runOn_countedSleep _ _ _ _), hrest]
    simp only [List.replicate_succ, List.append_assoc, List.singleton_append, Nat.add_right_comm n 1 left, ← Nat.add_assoc]

/-- When an attempt succeeds on the disk, the loop stops after it. -/
theorem retryFrom_succeeds (t : Toucher) (p : Path) (time : Nat) {d' : Disk} (a left n : Nat)
    (s : List Nat) (w : World) (hd : t.outcome p time w.disk = .ok d') :
    ∃ w', ((t.policy.retryFrom countedSleep (countedAttempt t p time) a left).run (n, s) :
        Act ε _).runOn w = (.ok (.ok (), (n + 1, s)), w') ∧ w'.disk = d' := by
  obtain ⟨w', hrun, hdisk⟩ := runOn_countedAttempt (ε := ε) t p time a n s w
  rw [hd] at hrun
  rw [diskAfter, hd] at hdisk
  refine ⟨w', ?_, hdisk⟩
  cases left with
  | zero => exact hrun
  | succ left =>
    simp only [RetryPolicy.retryFrom, StateT.run_bind]
    rw [Act.runOn_bind_ok hrun]
    rfl

/-- Stamping a file never fails. Every attempt meets the disk as it was, so the first
attempt succeeds and is the only one, or every allowed attempt fails, with the delay slept
between two of them; the time is set exactly when the attempt succeeds. -/
theorem touchAt_runOn (t : Toucher) (p : Path) (time : Nat) (w : World) :
    ∃ rep w', (t.touchAt p time : Act ε TouchReport).runOn w = (.ok rep, w') ∧
      rep.set = (t.outcome p time w.disk).isOk ∧
      rep.attempts = (if rep.set then 1 else max t.policy.maxAttempts 1) ∧
      rep.sleeps = List.replicate (rep.attempts - 1) t.policy.delayMs ∧
      w'.disk = t.diskAfter p time w.disk := by
  rw [touchAt_eq, RetryPolicy.run]
  cases hd : t.outcome p time w.disk with
  | ok d' =>
    obtain ⟨w', hrun, hdisk⟩ := retryFrom_succeeds (ε := ε) t p time 1 (t.policy.attempts - 1) 0 [] w hd
    refine ⟨⟨true, 1, []⟩, w', ?_, rfl, rfl, rfl, by rw [diskAfter, hd, hdisk]⟩
    rw [Act.runOn_bind_ok hrun]
    rfl
  | error e =>
    obtain ⟨w', hrun, hdisk⟩ :=
      retryFrom_fails (ε := ε) t p time hd 1 (t.policy.attempts - 1) 0 [] w rfl
    have hatt : 0 + (t.policy.attempts - 1) + 1 = max t.policy.maxAttempts 1 := by
      unfold RetryPolicy.attempts
      omega
    refine ⟨⟨false, max t.policy.maxAttempts 1, List.replicate (t.policy.attempts - 1) t.policy.delayMs⟩,
      w', ?_, rfl, rfl, ?_, by rw [diskAfter, hd, hdisk]⟩
    · rw [Act.runOn_bind_ok hrun, hatt]
      rfl
    · unfold RetryPolicy.attempts
      rfl

end Toucher

namespace RetryPolicy

/-- The retry loop calls its operation with the attempt numbers `1, …, m` in order, where
`m` is the first attempt that succeeds or else the last one allowed, `max maxAttempts 1`;
it sleeps the policy's delay once between two attempts, `m - 1` times in all, and ends
with the result of attempt `m`. Stamping a file with retries never fails: it makes between
one and `max maxAttempts 1` attempts, all of them only when the time cannot be set, and
reports the time set exactly when an attempt sets it. -/
theorem run_makes_promised_attempts :
    (∀ {ε α : Type} (p : RetryPolicy) (res : Nat → Except ε α),
      ∃ m, 1 ≤ m ∧ m ≤ max p.maxAttempts 1 ∧ (∀ n, 1 ≤ n → n < m → (res n).isOk = false) ∧
        ((res m).isOk = true ∨ m = max p.maxAttempts 1) ∧
        Id.run ((p.run recordSleep (recorded res)).run []) = (res m, RetryEvent.rounds p.delayMs 1 m) ∧
        RetryEvent.attempts (RetryEvent.rounds p.delayMs 1 m) = List.range' 1 m ∧
        RetryEvent.sleeps (RetryEvent.rounds p.delayMs 1 m) = List.replicate (m - 1) p.delayMs) ∧
    ∀ {ε : Type} (t : Toucher) (path : Path) (time : Nat) (w : World),
      ∃ rep w', (t.touchAt path time : Act ε TouchReport).runOn w = (.ok rep, w') ∧
        1 ≤ rep.attempts ∧ rep.attempts ≤ max t.policy.maxAttempts 1 ∧
        rep.sleeps = List.replicate (rep.attempts - 1) t.policy.delayMs ∧
        rep.set = (t.outcome path time w.disk).isOk ∧
        (rep.set = false → rep.attempts = max t.policy.maxAttempts 1) := by
  refine ⟨fun p res => ?_, fun t path time w => ?_⟩
  · obtain ⟨m, h1, hm, hfail, hstop, hrun⟩ := p.run_records res
    have hcount : m - 1 + 1 = m := by omega
    refine ⟨m, h1, hm, hfail, hstop, hrun, ?_, RetryEvent.sleeps_rounds _ _ _⟩
    rw [RetryEvent.attempts_rounds, hcount]
  · obtain ⟨rep, w', hrun, hset, hatt, hsleeps, -⟩ := t.touchAt_runOn path time w
    have hbound : 1 ≤ rep.attempts ∧ rep.attempts ≤ max t.policy.maxAttempts 1 := by
      rw [hatt]
      split <;> omega
    exact ⟨rep, w', hrun, hbound.1, hbound.2, hsleeps, hset, fun h => by simp [hatt, h]⟩

end RetryPolicy

end JarDeploy
