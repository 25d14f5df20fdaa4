/-!
# Running jobs until told to stop

A pool takes jobs from the front of a queue. Before each job it checks whether it has been
told to stop; after each job it hands the job and its result to a completion step, which
may tell it to stop. What is left of the queue when it stops is returned, in order. One
worker takes the jobs in queue order, which fixes the order of completions.
-/

namespace JarDeploy

set_option autoImplicit false

/-- A pool of workers; there is always at least one. -/
structure WorkerPool where
  threads : Nat
  deriving Repr, Inhabited

namespace WorkerPool

/-- A pool of `n` workers, at least one. -/
def ofThreads (n : Nat) : WorkerPool := ⟨max n 1⟩

/-- Run the jobs in order. `complete` says whether to stop after a job; the jobs not
started are returned. -/
def run {m : Type → Type} [Monad m] {J R : Type} (work : J → m R) (complete : J → R → m Bool) :
    List J → m (List J)
  | [] => pure []
  | j :: rest => do
    let r ← work j
    if ← complete j r then return rest else run work complete rest

end WorkerPool

end JarDeploy
