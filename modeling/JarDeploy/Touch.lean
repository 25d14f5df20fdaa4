import JarDeploy.World
import JarDeploy.Retry

/-!
# Stamping files with a time

After a file is deployed its modification time is set, retrying under a policy if that
fails; a failure in the end is only reported, since the file is there. The time is set by
opening the file for writing, so a directory or a missing file cannot be stamped. A
writer that always fails stands in for a file system that refuses.
-/

namespace JarDeploy

set_option autoImplicit false

/-- How modification times are written. -/
inductive MtimeWriter where
  /-- On the workspace. -/
  | disk
  /-- Never: every attempt fails with a permission error. -/
  | failing
  deriving Repr, BEq, Inhabited

/-- The failure of the refusing writer. -/
def MtimeWriter.refusal (p : Path) : IoError :=
  ⟨.permissionDenied, "injected mtime failure for " ++ p.text⟩

/-- Sets modification times under a retry policy. -/
structure Toucher where
  policy : RetryPolicy := {}
  writer : MtimeWriter := .disk
  deriving Repr, Inhabited

/-- What touching a file did: whether the time was set, how many attempts were made and
the delays slept. -/
structure TouchReport where
  set : Bool
  attempts : Nat
  sleeps : List Nat
  deriving Repr, Inhabited

namespace Toucher

/-- One attempt to set the time. -/
def attemptAt (t : Toucher) (p : Path) (time : Nat) : Act IoError Unit :=
  match t.writer with
  | .disk => Act.setModified p time
  | .failing => throw (MtimeWriter.refusal p)

/-- Set the modification time of a file to `time`, with retries. -/
def touchAt {ε : Type} (t : Toucher) (p : Path) (time : Nat) : Act ε TouchReport := do
  let step : Nat → StateT (Nat × List Nat) (Act ε) (Except IoError Unit) := fun _ => do
    modify fun (n, s) => (n + 1, s)
    let once : Act ε (Except IoError Unit) := Act.attempt (t.attemptAt p time)
    StateT.lift once
  let sleep : Nat → StateT (Nat × List Nat) (Act ε) Unit := fun ms => modify fun (n, s) => (n, s ++ [ms])
  let (result, (attempts, sleeps)) ← (t.policy.run sleep step).run (0, [])
  return ⟨result.isOk, attempts, sleeps⟩

/-- Set the modification time of a file to the current time. -/
def touch {ε : Type} (t : Toucher) (p : Path) : Act ε TouchReport := do
  t.touchAt p (← Act.now)

end Toucher

end JarDeploy
