import JarDeploy.Task

/-!
# Outcomes of requests

Each request to deploy a jar goes through states: it starts pending, becomes up to date
(nothing to do) or running, and a running request ends done or failed. No other step is
allowed, and the last three states are final.

An outcome records the state, the tasks that ran, whether the jar was signed and, for a
failed request, where in its chain it failed: the copy into the working directory, a task
of the chain, or the deployment of the result. Results keep one outcome per request id,
ordered by id; a later outcome for an id replaces the earlier one.
-/

namespace JarDeploy

set_option autoImplicit false

/-- The state of a request. -/
inductive RequestState where
  | pending
  | upToDate
  | running
  | done
  | failed
  deriving Repr, BEq, DecidableEq, Inhabited

namespace RequestState

/-- All states. -/
def all : List RequestState := [.pending, .upToDate, .running, .done, .failed]

/-- The name of a state. -/
def name : RequestState → String
  | .pending => "PENDING"
  | .upToDate => "UP_TO_DATE"
  | .running => "RUNNING"
  | .done => "DONE"
  | .failed => "FAILED"

/-- The state of a name. -/
def ofName? (s : String) : Option RequestState := all.find? (·.name == s)

/-- The allowed steps between states. -/
def canTransitionTo : RequestState → RequestState → Bool
  | .pending, .upToDate => true
  | .pending, .running => true
  | .running, .done => true
  | .running, .failed => true
  | _, _ => false

/-- Is the state final? -/
def isTerminal : RequestState → Bool
  | .upToDate | .done | .failed => true
  | _ => false

end RequestState

/-- Where in its chain a request failed. -/
inductive Stage where
  | copy
  | task (index : Nat) (task : Task)
  | deploy
  deriving Repr, BEq, Inhabited

/-- The name of a stage: `copy`, `deploy`, or the task's position and name. -/
def Stage.name : Stage → String
  | .copy => "copy"
  | .task i t => toString i ++ "_" ++ t.name
  | .deploy => "deploy"

/-- A request's failure: the artifact, the stage and the cause. -/
structure ProcessError where
  artifact : String
  stage : Stage
  cause : TaskError
  deriving Inhabited

/-- The text of a request's failure. -/
def ProcessError.message (e : ProcessError) : String :=
  e.artifact ++ " failed at " ++ e.stage.name ++ ": " ++ e.cause.message

/-- What became of a request. -/
structure RequestOutcome where
  id : Nat
  artifact : String
  filename : String
  state : RequestState
  finalFile : Path
  packedFile : Option Path
  signed : Bool
  tasksRun : List Task
  error : Option ProcessError
  deriving Inhabited

namespace RequestOutcome

/-- Move to another state if that step is allowed; also whether it was. -/
def transition (o : RequestOutcome) (target : RequestState) : RequestOutcome × Bool :=
  if o.state.canTransitionTo target then ({ o with state := target }, true) else (o, false)

/-- Move to another state if that step is allowed. -/
def moveTo (o : RequestOutcome) (target : RequestState) : RequestOutcome := (o.transition target).1

/-- Was the request processed? -/
def isProcessed (o : RequestOutcome) : Bool := o.state == .done

end RequestOutcome

/-- The outcomes of requests, one per id, ordered by id. -/
structure Results where
  outcomes : List RequestOutcome := []
  deriving Inhabited

namespace Results

/-- Add an outcome, replacing one with the same id. -/
def insert (r : Results) (o : RequestOutcome) : Results :=
  let rec go : List RequestOutcome → List RequestOutcome
    | [] => [o]
    | x :: xs =>
      if x.id = o.id then o :: xs
      else if o.id < x.id then o :: x :: xs
      else x :: go xs
  ⟨go r.outcomes⟩

/-- The number of outcomes. -/
def size (r : Results) : Nat := r.outcomes.length

/-- Are there no outcomes? -/
def isEmpty (r : Results) : Bool := r.outcomes.isEmpty

/-- The number of outcomes in a state. -/
def count (r : Results) (s : RequestState) : Nat := (r.outcomes.filter (·.state == s)).length

/-- Requests processed. -/
def processedCount (r : Results) : Nat := r.count .done

/-- Requests already up to date. -/
def uptodateCount (r : Results) : Nat := r.count .upToDate

/-- Requests never started. -/
def notStartedCount (r : Results) : Nat := r.count .pending

/-- Requests processed and signed. -/
def signedCount (r : Results) : Nat := (r.outcomes.filter fun o => o.isProcessed && o.signed).length

/-- The failures, by id. -/
def errors (r : Results) : List ProcessError := r.outcomes.filterMap (·.error)

/-- Did any request fail? -/
def hasErrors (r : Results) : Bool := r.outcomes.any (·.error.isSome)

end Results

end JarDeploy
