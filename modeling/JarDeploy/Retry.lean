/-!
# Bounded retries

An operation that may fail for a while is tried up to a number of times, waiting a fixed
delay after each failure but the last. At least one attempt is always made; the first
success ends the loop, and after the last failed attempt its error is the result.
Attempts are numbered from 1.
-/

namespace JarDeploy

set_option autoImplicit false

/-- How often to try and how long to wait in between, in milliseconds. -/
structure RetryPolicy where
  maxAttempts : Nat := 3
  delayMs : Nat := 100
  deriving Repr, BEq, DecidableEq, Inhabited

namespace RetryPolicy

/-- The number of attempts actually made at most: never fewer than one. -/
def attempts (p : RetryPolicy) : Nat := max p.maxAttempts 1

/-- Try `op` with attempts `attempt`, `attempt + 1`, …, while `left` more are allowed. -/
def retryFrom {m : Type → Type} [Monad m] {ε α : Type} (p : RetryPolicy) (sleep : Nat → m Unit)
    (op : Nat → m (Except ε α)) (attempt : Nat) : Nat → m (Except ε α)
  | 0 => op attempt
  | left + 1 => do
    match ← op attempt with
    | .ok v => return .ok v
    | .error _ =>
      sleep p.delayMs
      retryFrom p sleep op (attempt + 1) left

/-- Run `op` under the policy, sleeping with `sleep` between attempts. -/
def run {m : Type → Type} [Monad m] {ε α : Type} (p : RetryPolicy) (sleep : Nat → m Unit)
    (op : Nat → m (Except ε α)) : m (Except ε α) :=
  p.retryFrom sleep op 1 (p.attempts - 1)

end RetryPolicy

end JarDeploy
