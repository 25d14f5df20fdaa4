import JarDeploy.Pool

/-!
# Workers sharing a queue

A pool runs its jobs on several workers at once. The queue sits behind a lock and the stop
flag is an atomic, so each of the following is one indivisible step of a worker, and a run
of the pool is an interleaving of such steps:

* read the stop flag: leave when it is set, otherwise go on to take a job;
* take the job at the front of the queue under the lock, or leave when the queue is empty;
* run the work on the job it holds;
* hand the job and its result to the completion step, which may set the stop flag, and go
  back to reading the flag.

Reading the flag and taking a job are two steps, so another worker's completion may set the
flag in between. A schedule says which worker moves at each step and whether a completion
step sets the flag. The pool starts `min threads jobs` workers, at least one, and what is
left of the queue once every worker has left is returned.

The state also records what an observer of the pool sees: the jobs taken from the queue,
the jobs handed to the work, the completions, and the jobs taken while the flag was set.
-/

namespace JarDeploy

set_option autoImplicit false

namespace WorkerPool

/-- Where a worker stands in its loop. -/
inductive Phase (J R : Type) where
  /-- About to read the stop flag. -/
  | check
  /-- Found the flag unset; about to take a job under the lock. -/
  | take
  /-- Holds a job, about to run the work on it. -/
  | work (job : J)
  /-- Has the result, about to hand it to the completion step. -/
  | complete (job : J) (result : R)
  /-- Has left its loop. -/
  | done
  deriving Repr, DecidableEq

/-- The queue, the stop flag and the workers of a running pool, with what an observer has
seen so far. -/
structure Shared (J R : Type) where
  queue : List J
  stop : Bool
  workers : List (Phase J R)
  /-- The jobs taken from the queue, in order. -/
  taken : List J
  /-- The jobs handed to the work, in order. -/
  started : List J
  /-- The completion steps, in order. -/
  completed : List (J × R)
  /-- The jobs taken from the queue while the stop flag was set. -/
  late : List J
  deriving Repr, DecidableEq

variable {J R : Type}

/-- The number of workers a pool starts for a list of jobs. -/
def workerCount (p : WorkerPool) (jobs : List J) : Nat := max (min p.threads jobs.length) 1

/-- The pool before any worker moves, with the stop flag as the caller passes it. -/
def start (p : WorkerPool) (stop : Bool) (jobs : List J) : Shared J R :=
  ⟨jobs, stop, List.replicate (p.workerCount jobs) .check, [], [], [], []⟩

namespace Shared

/-- Worker `k` makes one step; `raise` is whether a completion step sets the stop flag.
A worker that has left, or does not exist, does nothing. -/
def step (work : J → R) (s : Shared J R) (k : Nat) (raise : Bool) : Shared J R :=
  match s.workers[k]? with
  | some .check => { s with workers := s.workers.set k (if s.stop then .done else .take) }
  | some .take =>
    match s.queue with
    | [] => { s with workers := s.workers.set k .done }
    | j :: rest =>
      { s with queue := rest, workers := s.workers.set k (.work j), taken := s.taken ++ [j],
               late := if s.stop then s.late ++ [j] else s.late }
  | some (.work j) => { s with workers := s.workers.set k (.complete j (work j)), started := s.started ++ [j] }
  | some (.complete j r) =>
    { s with stop := s.stop || raise, workers := s.workers.set k .check, completed := s.completed ++ [(j, r)] }
  | some .done | none => s

/-- The steps of a schedule, in order. -/
def run (work : J → R) (s : Shared J R) (schedule : List (Nat × Bool)) : Shared J R :=
  schedule.foldl (fun s (k, raise) => s.step work k raise) s

/-- Has every worker left? -/
def finished (s : Shared J R) : Bool := s.workers.all fun w => match w with
  | .done => true
  | _ => false

end Shared

end WorkerPool

end JarDeploy
