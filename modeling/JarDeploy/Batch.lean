import JarDeploy.Request
import JarDeploy.Outcome
import JarDeploy.Pool
import JarDeploy.Touch
import JarDeploy.Task.Execute

/-!
# Running a batch of requests

A request that is up to date is left alone. Otherwise its chain runs: the artifact is
copied into the working directory and stamped; each task gets a fresh stage directory
(an old one is removed) holding a copy of the previous output under `input/`, and runs
there; finally the last jar produced (the copy itself when no task produced a `.jar`) is
deployed to the final file and stamped, and when the chain ends by packing, its last
output is deployed beside it as the packed companion. A step that fails ends the chain
and is recorded with its stage; the tasks that completed before it stay recorded.

Requests run in order. When fail-fast is on, the first failed request stops the batch:
the requests not started are recorded as pending.
-/

namespace JarDeploy

set_option autoImplicit false

/-- Runs requests with a toolkit. -/
structure Executor where
  toolkit : Toolkit
  toucher : Toucher := {}
  pool : WorkerPool := WorkerPool.ofThreads 1
  failFast : Bool := true
  deriving Inhabited

/-- Copy a file, creating the directory it goes to. -/
def copyInto (src dst : Path) : Act IoError Unit := do
  Act.createParent dst
  Act.copy src dst

/-- Prepare a fresh stage directory holding a copy of the previous output; the copy's path. -/
def freshStage (stageDir previous : Path) : Act IoError Path := do
  if ← Act.exists? stageDir then Act.removeDirAll stageDir
  let some name := previous.fileName? | throw ⟨.invalidInput, "stage input has no name"⟩
  let input := (stageDir.push "input").push name
  copyInto previous input
  return input

/-- The outcome of a request that has not run. -/
def RequestOutcome.pending (r : Request) : RequestOutcome :=
  ⟨r.id, r.artifact.display, r.filename, .pending, r.finalFile, r.packedFile, false, [], none⟩

namespace Executor

/-- Where the chain stands: the current output, the last jar, the tasks done. -/
structure ChainState where
  current : Path
  lastJar : Path
  ran : List Task
  deriving Inhabited

/-- Run the stages of a chain in order; stop at the first failure. -/
def runStages (ex : Executor) (r : Request) :
    List (Nat × Task × Path) → ChainState → Act Empty (ChainState × Option ProcessError)
  | [], st => pure (st, none)
  | (i, t, dir) :: rest, st => do
    let fail := fun (e : TaskError) => some (ProcessError.mk r.artifact.display (.task i t) e)
    match ← Act.attempt (freshStage dir st.current) with
    | .error e => return (st, fail (.io e))
    | .ok input =>
      match ← Act.attempt (t.execute r.config ex.toolkit input dir) with
      | .error e => return (st, fail e)
      | .ok output =>
        let lastJar := if output.extension? == some "jar" then output else st.lastJar
        runStages ex r rest ⟨output, lastJar, st.ran ++ [t]⟩

/-- Copy, run the stages and deploy; the tasks done and the failure, if any. -/
def runChain (ex : Executor) (r : Request) : Act Empty (List Task × Option ProcessError) := do
  let failAt := fun (stage : Stage) (e : IoError) => some (ProcessError.mk r.artifact.display stage (.io e))
  match ← Act.attempt (copyInto ⟨r.artifact.file⟩ r.originalFile) with
  | .error e => return ([], failAt .copy e)
  | .ok _ => pure ()
  let _ ← ex.toucher.touch r.originalFile
  let (st, failure) ← ex.runStages r r.stages ⟨r.originalFile, r.originalFile, []⟩
  if failure.isSome then return (st.ran, failure)
  match ← Act.attempt (copyInto st.lastJar r.finalFile) with
  | .error e => return (st.ran, failAt .deploy e)
  | .ok _ => pure ()
  let _ ← ex.toucher.touch r.finalFile
  match r.packedFile with
  | none => return (st.ran, none)
  | some packed =>
    match ← Act.attempt (copyInto st.current packed) with
    | .error e => return (st.ran, failAt .deploy e)
    | .ok _ => pure ()
    let _ ← ex.toucher.touch packed
    return (st.ran, none)

/-- Process one request. -/
def process (ex : Executor) (r : Request) : Act Empty RequestOutcome := do
  let o := RequestOutcome.pending r
  if r.uptodate then return o.moveTo .upToDate
  let o := o.moveTo .running
  let (ran, failure) ← ex.runChain r
  let o := { o with tasksRun := ran }
  match failure with
  | none => return { o with signed := r.isSigning }.moveTo .done
  | some e => return { o with error := some e }.moveTo .failed

/-- Process requests in order; the results, and the outcomes in the order they completed. -/
def execute (ex : Executor) (requests : List Request) : Act Empty (Results × List RequestOutcome) := do
  let complete : Request → RequestOutcome → StateT (List RequestOutcome) (Act Empty) Bool :=
    fun _ o => do
      modify (· ++ [o])
      return o.error.isSome && ex.failFast
  let work : Request → StateT (List RequestOutcome) (Act Empty) RequestOutcome :=
    fun r => StateT.lift (ex.process r)
  let (rest, done) ← (WorkerPool.run work complete requests).run []
  let results := done.foldl Results.insert {}
  let results := rest.foldl (fun acc r => acc.insert (RequestOutcome.pending r)) results
  return (results, done)

end Executor

end JarDeploy
