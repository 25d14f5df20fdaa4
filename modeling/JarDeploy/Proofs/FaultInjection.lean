import JarDeploy.Toolkit.Faults

/-!
# Planned failures over a history of calls

A check of an operation walks the injections of a fault plan in the order they were made;
every injection that applies to the check counts it, until one whose limit is not used up
answers. One check is described by `scan_eq`: the answer is the first injection that fires,
and exactly the applying injections up to it (all of them, when none fires) count the check.

Over a whole history of injections and checks the same answers come out of a different
reading, injection by injection (`sieve`): each injection, in the order they were made,
takes the first `failCount` (all, when it has no limit) of the applying checks made after it
that no earlier injection took, and its count is the number of such checks it saw
(`replay_eq_sieve`). An injection alone on its operation therefore fails exactly the first
`failCount` applying checks after it, and no other check touches its count.
-/

namespace JarDeploy

set_option autoImplicit false

/-- Operations compare equal exactly when they are equal. -/
@[simp] theorem ToolOp.beq_iff_eq (a b : ToolOp) : (a == b) = true ↔ a = b := by
  cases a <;> cases b <;> decide

@[simp] theorem ToolOp.beq_eq_false_iff (a b : ToolOp) : (a == b) = false ↔ a ≠ b := by
  cases a <;> cases b <;> decide

/-- A pattern occurs in a text exactly when it is a contiguous part of it. -/
theorem occursIn_iff (pat s : String) : occursIn pat s = true ↔ pat.toList <:+: s.toList := by
  simp only [occursIn, List.any_eq_true, List.mem_range, List.isPrefixOf_iff_prefix]
  constructor
  · rintro ⟨i, -, hi⟩
    exact List.infix_iff_prefix_suffix.2 ⟨_, hi, List.drop_suffix i _⟩
  · intro h
    obtain ⟨t, hpre, hsuf⟩ := List.infix_iff_prefix_suffix.1 h
    refine ⟨s.toList.length - t.length, by omega, ?_⟩
    rwa [← List.suffix_iff_eq_drop.1 hsuf]

/-- An injection applies to an input when it has no file pattern, or when the input has a
file name and the pattern is a contiguous part of it. -/
theorem FailureConfig.appliesTo_iff (c : FailureConfig) (input : Path) :
    c.appliesTo input = true ↔
      ∀ pat, c.filePattern = some pat → ∃ name, input.fileName? = some name ∧ pat.toList <:+: name.toList := by
  obtain ⟨message, delay, limit, pattern⟩ := c
  cases pattern with
  | none => simp [FailureConfig.appliesTo]
  | some pat =>
    unfold FailureConfig.appliesTo
    cases input.fileName? <;> simp [occursIn_iff]

namespace Injection

variable (op : ToolOp) (input : Path)

/-- The injection applies to a check of `op` on `input`. -/
def Matches (i : Injection) : Bool := i.op == op && i.config.appliesTo input

/-- The next check the injection counts is within its limit. -/
def withinLimit (i : Injection) : Bool :=
  match i.config.failCount with
  | some limit => decide (i.calls + 1 ≤ limit)
  | none => true

/-- The injection answers a check that reaches it. -/
def Fires (i : Injection) : Bool := i.Matches op input && i.withinLimit

/-- The injection with one more check counted. -/
def bump (i : Injection) : Injection := { i with calls := i.calls + 1 }

/-- The injection after a check that reaches it: counted when it applies. -/
def reach (i : Injection) : Injection := if i.Matches op input then i.bump else i

@[simp] theorem bump_op (i : Injection) : i.bump.op = i.op := rfl
@[simp] theorem bump_config (i : Injection) : i.bump.config = i.config := rfl
@[simp] theorem bump_calls (i : Injection) : i.bump.calls = i.calls + 1 := rfl

@[simp] theorem reach_op (i : Injection) : (i.reach op input).op = i.op := by
  unfold reach
  split <;> rfl

theorem matches_of_fires {i : Injection} (h : i.Fires op input = true) : i.Matches op input = true := by
  simp only [Fires, Bool.and_eq_true] at h
  exact h.1

end Injection

namespace FaultPlan

open Injection

variable (op : ToolOp) (input : Path)

/-- One injection of the walk: the first that fires answers and stops it, every other
that applies counts the check and passes it on. -/
theorem scan_cons (i : Injection) (is : List Injection) :
    scan op input (i :: is) =
      if i.Fires op input then (i.bump :: is, some i.config)
      else (i.reach op input :: (scan op input is).1, (scan op input is).2) := by
  obtain ⟨iop, ⟨message, delay, limit, pattern⟩, calls⟩ := i
  simp only [scan, Fires, reach, Matches, withinLimit, bump]
  by_cases hm : (iop == op && FailureConfig.appliesTo ⟨message, delay, limit, pattern⟩ input) = true
  · cases limit with
    | none => simp [hm]
    | some limit =>
      -- the walk's test of a used-up limit is the negation of the limit test
      by_cases hl : calls + 1 ≤ limit
      · have hspent : decide (calls + 1 > limit) = false := decide_eq_false (by omega)
        have hwithin : decide (calls + 1 ≤ limit) = true := decide_eq_true hl
        simp only [hm, hspent, hwithin, Bool.true_and, if_true, Bool.false_eq_true, if_false]
      · have hspent : decide (calls + 1 > limit) = true := decide_eq_true (by omega)
        have hwithin : decide (calls + 1 ≤ limit) = false := decide_eq_false hl
        simp only [hm, hspent, hwithin, Bool.true_and, if_true, Bool.false_eq_true, if_false]
  · simp [hm]

/-- A check answers with the first injection that fires, and exactly the applying
injections up to it, all of them when none fires, count the check. -/
theorem scan_eq (is : List Injection) :
    scan op input is =
      ((is.take (is.findIdx (·.Fires op input) + 1)).map (·.reach op input) ++
          is.drop (is.findIdx (·.Fires op input) + 1),
       (is.find? (·.Fires op input)).map (·.config)) := by
  induction is with
  | nil => rfl
  | cons i is ih =>
    rw [scan_cons, List.findIdx_cons, List.find?_cons]
    by_cases hf : i.Fires op input = true
    · -- the walk stops here: no later injection is reached
      simp [hf, reach, matches_of_fires op input hf]
    · simp [hf, ih]

/-! ## A history of calls -/

/-- Checks of `op` leave the injections of other operations as they are. -/
theorem filter_scan_of_ne {o : ToolOp} (h : o ≠ op) (is : List Injection) :
    (scan o input is).1.filter (·.op == op) = is.filter (·.op == op) := by
  induction is with
  | nil => rfl
  | cons i is ih =>
    -- an injection the check changes is one of `o`, which the filter drops either way
    have hchanged : i.Matches o input = true → i.op ≠ op := by
      simp only [Matches, Bool.and_eq_true, ToolOp.beq_iff_eq]
      rintro ⟨rfl, -⟩
      exact h
    rw [scan_cons]
    by_cases hf : i.Fires o input = true
    · simp [hf, hchanged (matches_of_fires o input hf)]
    · by_cases hm : i.Matches o input = true
      · simp [hf, reach, hm, hchanged hm, ih]
      · simp [hf, reach, hm, ih, List.filter_cons]

/-- A check of `op` answers from the injections of `op` alone, and changes only them. -/
theorem scan_filter (is : List Injection) :
    scan op input (is.filter (·.op == op)) = ((scan op input is).1.filter (·.op == op), (scan op input is).2) := by
  induction is with
  | nil => rfl
  | cons i is ih =>
    by_cases hop : i.op = op
    · rw [List.filter_cons_of_pos (by simpa using hop), scan_cons, scan_cons, ih]
      by_cases hf : i.Fires op input = true
      · simp [hf, hop]
      · simp [hf, hop]
    · -- an injection of another operation neither answers nor counts the check
      have hm : i.Matches op input = false := by simp [Matches, hop]
      have hf : i.Fires op input = false := by simp [Fires, hm]
      rw [List.filter_cons_of_neg (by simpa using hop), scan_cons, ih]
      simp [hf, reach, hm, hop]

end FaultPlan

/-- A call on a fault plan: make an injection, or check an operation on an input. -/
inductive FaultCall where
  | inject (op : ToolOp) (c : FailureConfig)
  | check (op : ToolOp) (input : Path)

namespace FaultCall

/-- The call makes an injection of `op`. -/
def Injects (op : ToolOp) : FaultCall → Bool
  | .inject o _ => o == op
  | .check _ _ => false

/-- The call checks `op` on an input that `c` applies to. -/
def ChecksFor (op : ToolOp) (c : FailureConfig) : FaultCall → Bool
  | .inject _ _ => false
  | .check o input => o == op && c.appliesTo input

end FaultCall

namespace FaultPlan

open Injection

/-- Make the calls in order: the answers of the checks, and the plan after them. -/
def replay (f : FaultPlan) : List FaultCall → List (Option FailureConfig) × FaultPlan
  | [] => ([], f)
  | .inject op c :: calls => (f.inject op c).replay calls
  | .check op input :: calls =>
    let rest := (f.check op input).2.replay calls
    ((f.check op input).1 :: rest.1, rest.2)

theorem replay_append (f : FaultPlan) (calls more : List FaultCall) :
    f.replay (calls ++ more) =
      ((f.replay calls).1 ++ ((f.replay calls).2.replay more).1, ((f.replay calls).2.replay more).2) := by
  induction calls generalizing f with
  | nil => rfl
  | cons call calls ih =>
    cases call with
    | inject op c => exact ih _
    | check op input => simp [replay, ih]

/-! ## Answering a history injection by injection -/

/-- A call of a history being answered injection by injection: an injection with the checks
it has counted, or a check with the answer it has been given so far. -/
inductive Slot where
  | injection (i : Injection)
  | check (op : ToolOp) (input : Path) (answer : Option FailureConfig)

/-- A call as a slot: a new injection has counted nothing, a check has no answer yet. -/
def Slot.ofCall : FaultCall → Slot
  | .inject op c => .injection ⟨op, c, 0⟩
  | .check op input => .check op input none

/-- One injection takes its share of the calls after it: it counts each check it applies to
that no earlier injection answered, and answers it while within its limit. -/
def share (i : Injection) : List Slot → List Slot × Injection
  | [] => ([], i)
  | .injection j :: rest =>
    let r := share i rest
    (.injection j :: r.1, r.2)
  | .check op input (some c) :: rest =>
    let r := share i rest
    (.check op input (some c) :: r.1, r.2)
  | .check op input none :: rest =>
    let r := share (i.reach op input) rest
    (.check op input (if i.Fires op input then some i.config else none) :: r.1, r.2)

theorem length_share (i : Injection) (slots : List Slot) : (share i slots).1.length = slots.length := by
  fun_induction share <;> simp_all +zetaDelta

/-- Answer a history injection by injection: each injection, in the order they were made,
takes its share of the calls after it. The answers of the checks, and the injections with
their counts. -/
def sieve : List Slot → List (Option FailureConfig) × List Injection
  | [] => ([], [])
  | .check _ _ answer :: rest =>
    let r := sieve rest
    (answer :: r.1, r.2)
  | .injection i :: rest =>
    let r := share i rest
    let s := sieve r.1
    (s.1, r.2 :: s.2)
termination_by slots => slots.length
decreasing_by all_goals simp [length_share]

theorem sieve_nil : sieve [] = ([], []) := by
  simp [sieve]

theorem sieve_check (op : ToolOp) (input : Path) (answer : Option FailureConfig) (rest : List Slot) :
    sieve (.check op input answer :: rest) = (answer :: (sieve rest).1, (sieve rest).2) := by
  simp [sieve]

theorem sieve_injection (i : Injection) (rest : List Slot) :
    sieve (.injection i :: rest) = ((sieve (share i rest).1).1, (share i rest).2 :: (sieve (share i rest).1).2) := by
  simp [sieve]

section

variable (i : Injection) (rest : List Slot)

/-- An injection passes over the injections after it. -/
theorem share_injections (is : List Injection) :
    share i (is.map .injection ++ rest) = (is.map .injection ++ (share i rest).1, (share i rest).2) := by
  induction is with
  | nil => rfl
  | cons j is ih => simp [share, ih]

/-- An injection passes over a check that an earlier one answered. -/
theorem share_answered (op : ToolOp) (input : Path) (c : FailureConfig) :
    share i (.check op input (some c) :: rest) =
      (.check op input (some c) :: (share i rest).1, (share i rest).2) := by
  simp [share]

theorem share_unanswered (op : ToolOp) (input : Path) :
    share i (.check op input none :: rest) =
      (.check op input (if i.Fires op input then some i.config else none) :: (share (i.reach op input) rest).1,
        (share (i.reach op input) rest).2) := by
  simp [share]

end

/-- Injections alone, with no check after them, keep their counts. -/
theorem sieve_injections (is : List Injection) : sieve (is.map .injection) = ([], is) := by
  induction is with
  | nil => exact sieve_nil
  | cons j is ih =>
    have hshare := share_injections j [] is
    rw [List.append_nil] at hshare
    rw [List.map_cons, sieve_injection, hshare]
    simp [share, ih]

/-- A check that an earlier injection answered keeps its answer past the injections made
before it. -/
theorem sieve_answered (is : List Injection) (op : ToolOp) (input : Path) (c : FailureConfig)
    (rest : List Slot) :
    sieve (is.map .injection ++ .check op input (some c) :: rest) =
      (some c :: (sieve (is.map .injection ++ rest)).1, (sieve (is.map .injection ++ rest)).2) := by
  induction is generalizing rest with
  | nil => exact sieve_check op input (some c) rest
  | cons j is ih =>
    simp only [List.map_cons, List.cons_append, sieve_injection, share_injections, share_answered, ih]

/-- The check made after a plan's injections gets the answer of the walk over them, and the
injections after the check go on from the counts the walk leaves. -/
theorem sieve_unanswered (is : List Injection) (op : ToolOp) (input : Path) (rest : List Slot) :
    sieve (is.map .injection ++ .check op input none :: rest) =
      ((scan op input is).2 :: (sieve ((scan op input is).1.map .injection ++ rest)).1,
        (sieve ((scan op input is).1.map .injection ++ rest)).2) := by
  induction is generalizing rest with
  | nil => exact sieve_check op input none rest
  | cons j is ih =>
    simp only [List.map_cons, List.cons_append, sieve_injection, share_injections, share_unanswered]
    rw [scan_cons]
    by_cases hf : j.Fires op input = true
    · -- the first injection answers: the later ones pass the answered check
      have hreach : j.reach op input = j.bump := by simp [reach, matches_of_fires op input hf]
      simp only [hf, if_true, sieve_answered, hreach, List.map_cons, List.cons_append, sieve_injection,
        share_injections]
    · simp only [hf, Bool.false_eq_true, if_false, ih, List.map_cons, List.cons_append, sieve_injection,
        share_injections]

theorem check_eq (f : FaultPlan) (op : ToolOp) (input : Path) : f.check op input = ((scan op input f.injections).2, ⟨(scan op input f.injections).1⟩) :=
  rfl

/-- Making calls on a plan gives the answers and counts of answering the history injection by
injection, the plan's own injections first. -/
theorem replay_eq_sieve (f : FaultPlan) (calls : List FaultCall) :
    f.replay calls =
      ((sieve (f.injections.map .injection ++ calls.map Slot.ofCall)).1,
        ⟨(sieve (f.injections.map .injection ++ calls.map Slot.ofCall)).2⟩) := by
  induction calls generalizing f with
  | nil => simp [replay, sieve_injections]
  | cons call calls ih =>
    cases call with
    | inject op c => simp [replay, ih, inject, Slot.ofCall]
    | check op input => simp [replay, ih, check_eq, Slot.ofCall, sieve_unanswered]

/-- Two injections of signing, each limited to one failure: the first answers the first check,
the second the next, and the third check is not failed. -/
example :
    (({} : FaultPlan).replay
        [.inject .sign { errorMessage := some "locked", failCount := some 1 },
         .inject .sign { errorMessage := some "expired", failCount := some 1 },
         .check .sign ⟨"a.jar"⟩, .check .sign ⟨"a.jar"⟩, .check .sign ⟨"a.jar"⟩]).1.map
      (·.bind (·.errorMessage)) = [some "locked", some "expired", none] := by
  decide

/-! ## An injection alone on its operation -/

section

variable (op : ToolOp) (input : Path)

theorem scan_single (i : Injection) :
    scan op input [i] = ([i.reach op input], if i.Fires op input then some i.config else none) := by
  rw [scan_cons]
  by_cases hf : i.Fires op input = true
  · simp [hf, reach, matches_of_fires op input hf]
  · simp [hf, scan]

theorem fires_iff (c : FailureConfig) (k : Nat) :
    (⟨op, c, k⟩ : Injection).Fires op input = true ↔
      c.appliesTo input = true ∧ ∀ n, c.failCount = some n → k < n := by
  obtain ⟨message, delay, limit, pattern⟩ := c
  cases limit with
  | none => simp [Fires, Matches, withinLimit]
  | some limit =>
    have hlimit : k + 1 ≤ limit ↔ k < limit := by omega
    simp [Fires, Matches, withinLimit, hlimit]

/-- A check of `op` answers from the injections of `op` alone. -/
theorem check_fst (f : FaultPlan) :
    (f.check op input).1 = (scan op input (f.injections.filter (·.op == op))).2 := by
  rw [check_eq, scan_filter]

/-- A check changes the injections of its own operation as the walk over them alone does, and
leaves those of the others as they are. -/
theorem filter_check (f : FaultPlan) (o : ToolOp) :
    (f.check o input).2.injections.filter (·.op == op) =
      if o = op then (scan op input (f.injections.filter (·.op == op))).1
      else f.injections.filter (·.op == op) := by
  rw [check_eq]
  by_cases ho : o = op
  · subst ho
    simp [scan_filter]
  · simp [ho, filter_scan_of_ne op input ho]

theorem filter_inject (f : FaultPlan) (o : ToolOp) (c : FailureConfig) :
    (f.inject o c).injections.filter (·.op == op) =
      f.injections.filter (·.op == op) ++ if o = op then [⟨o, c, 0⟩] else [] := by
  by_cases ho : o = op <;> simp [inject, List.filter_append, ho]

end

variable (op : ToolOp)

/-- Calls that make no injection of `op` leave a plan with none of `op` without any. -/
theorem filter_replay_of_none (f : FaultPlan) (calls : List FaultCall)
    (hcalls : ∀ call ∈ calls, call.Injects op = false) (hf : f.injections.filter (·.op == op) = []) :
    (f.replay calls).2.injections.filter (·.op == op) = [] := by
  induction calls generalizing f with
  | nil => exact hf
  | cons call calls ih =>
    have hrest : ∀ call ∈ calls, call.Injects op = false := fun call' h => hcalls call' (List.mem_cons_of_mem _ h)
    cases call with
    | inject o c =>
      have ho : o ≠ op := by simpa [FaultCall.Injects] using hcalls _ List.mem_cons_self
      exact ih _ hrest (by simp [filter_inject, hf, ho])
    | check o input =>
      refine ih _ hrest ?_
      by_cases ho : o = op <;> simp [filter_check, hf, ho, scan]

/-- While no other injection of `op` is made, the one injection of `op` counts exactly the
checks of `op` it applies to. -/
theorem filter_replay_of_alone (f : FaultPlan) (calls : List FaultCall) (c : FailureConfig) (k : Nat)
    (hcalls : ∀ call ∈ calls, call.Injects op = false)
    (hf : f.injections.filter (·.op == op) = [⟨op, c, k⟩]) :
    (f.replay calls).2.injections.filter (·.op == op) = [⟨op, c, k + calls.countP (·.ChecksFor op c)⟩] := by
  induction calls generalizing f k with
  | nil => simpa [replay] using hf
  | cons call calls ih =>
    have hrest : ∀ call ∈ calls, call.Injects op = false := fun call' h => hcalls call' (List.mem_cons_of_mem _ h)
    cases call with
    | inject o c' =>
      have ho : o ≠ op := by simpa [FaultCall.Injects] using hcalls _ List.mem_cons_self
      simpa [replay, FaultCall.ChecksFor] using ih _ k hrest (by simp [filter_inject, hf, ho])
    | check o input =>
      by_cases ho : o = op
      · subst ho
        -- the check is counted exactly when the injection applies to it
        have hnext : ((f.check o input).2).injections.filter (·.op == o) =
            [⟨o, c, k + if c.appliesTo input then 1 else 0⟩] := by
          rw [filter_check, if_pos rfl, hf, scan_single]
          by_cases ha : c.appliesTo input = true <;> simp [reach, Matches, bump, ha]
        have hafter : (f.replay (.check o input :: calls)).2 = ((f.check o input).2.replay calls).2 := rfl
        rw [hafter, ih _ _ hrest hnext, List.countP_cons]
        by_cases ha : c.appliesTo input = true <;> simp [FaultCall.ChecksFor, ha, Nat.add_assoc, Nat.add_comm 1]
      · have hnext : ((f.check o input).2).injections.filter (·.op == op) = [⟨op, c, k⟩] := by
          rw [filter_check, if_neg ho, hf]
        simpa [replay, FaultCall.ChecksFor, ho] using ih _ k hrest hnext

/-- An injection alone on its operation fails a check of it exactly when the check applies and
fewer than its `failCount` applying checks came after it; no other call touches its count. -/
theorem check_alone (pre post : List FaultCall) (c : FailureConfig) (input : Path)
    (halone : ∀ call ∈ pre ++ post, call.Injects op = false) :
    (({} : FaultPlan).replay (pre ++ .inject op c :: post)).2.injections.filter (·.op == op) =
        [⟨op, c, post.countP (·.ChecksFor op c)⟩] ∧
      ((({} : FaultPlan).replay (pre ++ .inject op c :: post)).2.check op input).1 =
        if c.appliesTo input = true ∧ ∀ n, c.failCount = some n → post.countP (·.ChecksFor op c) < n
        then some c else none := by
  have hpre := filter_replay_of_none op {} pre (fun call h => halone call (List.mem_append_left _ h)) rfl
  have hinj : ((({} : FaultPlan).replay pre).2.inject op c).injections.filter (·.op == op) = [⟨op, c, 0⟩] := by
    simp [filter_inject, hpre]
  have hpost := filter_replay_of_alone op _ post c 0 (fun call h => halone call (List.mem_append_right _ h)) hinj
  rw [Nat.zero_add] at hpost
  have hrun : (({} : FaultPlan).replay (pre ++ .inject op c :: post)).2 =
      ((({} : FaultPlan).replay pre).2.inject op c |>.replay post).2 := by
    rw [replay_append]
    rfl
  refine ⟨hrun ▸ hpost, ?_⟩
  rw [hrun, check_fst, hpost, scan_single]
  simp only [fires_iff]

/-! ## Planned failures -/

end FaultPlan

end JarDeploy
