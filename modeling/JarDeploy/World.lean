import JarDeploy.Disk
import JarDeploy.Toolkit.Faults

/-!
# The world the program acts on

Everything the program reads and changes: the workspace on disk, the clock, and the
record that a scripted toolkit keeps (the calls made to it and the failures planned for
it). The clock counts nanoseconds and moves forward by one at every reading, so
successive writes get distinct, increasing times.

An action `Act ε α` runs against the world and ends with a value or an error `ε`; the
file-system steps below are the disk's operations stamped with the clock.
-/

namespace JarDeploy

set_option autoImplicit false

/-- A call made to a scripted toolkit. -/
structure ToolCall where
  op : ToolOp
  input : Path
  output : Path
  deriving Repr, Inhabited

/-- Nanoseconds in a second. -/
def nanosPerSecond : Nat := 1000000000

/-- The time the world's clock starts at: 2026-02-02, in nanoseconds. -/
def startOfClock : Nat := 1770000000 * nanosPerSecond

/-- The state the program acts on. -/
structure World where
  disk : Disk := .empty
  clock : Nat := startOfClock
  calls : List ToolCall := []
  faults : FaultPlan := {}
  deriving Inhabited

/-- An action on the world that may fail with `ε`. -/
abbrev Act (ε : Type) := ExceptT ε (StateM World)

namespace Act

/-- Run an action from a world. -/
def runOn {ε α : Type} (a : Act ε α) (w : World) : Except ε α × World := (ExceptT.run a).run w

/-- Change the error of an action. -/
def mapError {ε ε' α : Type} (f : ε → ε') (a : Act ε α) : Act ε' α := ExceptT.adapt f a

/-- An action that cannot fail, where failures of another kind are possible. -/
def infallible {ε α : Type} (a : Act Empty α) : Act ε α := mapError (fun e => nomatch e) a

/-- Run an action and keep its result, whatever it is. -/
def attempt {ε ε' α : Type} (a : Act ε α) : Act ε' (Except ε α) := ExceptT.lift (ExceptT.run a)

/-- Fail or go on, from a result. -/
def ofExcept {ε α : Type} : Except ε α → Act ε α
  | .ok v => pure v
  | .error e => throw e

/-- Read the clock; it moves on by one. -/
def now {ε : Type} : Act ε Nat :=
  modifyGet fun w => (w.clock, { w with clock := w.clock + 1 })

/-- The disk as it is. -/
def disk {ε : Type} : Act ε Disk := do return (← get).disk

/-- Change the disk with a step that may fail, stamped with the clock. -/
def change (step : Disk → Nat → Except IoError Disk) : Act IoError Unit := do
  let t ← now
  let d ← ofExcept (step (← disk) t)
  modify fun w => { w with disk := d }

/-- Read a whole file. -/
def read (p : Path) : Act IoError ByteArray := do ofExcept ((← disk).read p)

/-- Read a whole file as UTF-8 text. -/
def readText (p : Path) : Act IoError String := do
  match String.fromUTF8? (← read p) with
  | some s => return s
  | none => throw ⟨.invalidData, "stream did not contain valid UTF-8"⟩

/-- The node at a path. -/
def stat (p : Path) : Act IoError Node := do ofExcept ((← disk).stat p)

/-- Does the path name a regular file? -/
def isFile {ε : Type} (p : Path) : Act ε Bool := do return (← disk).isFile p

/-- Does the path name a directory? -/
def isDir {ε : Type} (p : Path) : Act ε Bool := do return (← disk).isDir p

/-- Does anything exist at the path? -/
def exists? {ε : Type} (p : Path) : Act ε Bool := do return (← disk).exists? p

/-- Create or truncate a file and write bytes to it. -/
def write (p : Path) (data : ByteArray) : Act IoError Unit := change fun d t => d.write p data t

/-- Create a directory and its missing parents. -/
def createDirAll (p : Path) : Act IoError Unit := change fun d t => d.createDirAll p t

/-- Remove a file. -/
def removeFile (p : Path) : Act IoError Unit := change fun d t => d.removeFile p t

/-- Remove a directory tree. -/
def removeDirAll (p : Path) : Act IoError Unit := change fun d t => d.removeDirAll p t

/-- Copy a file. -/
def copy (src dst : Path) : Act IoError Unit := change fun d t => d.copy src dst t

/-- Rename a file or directory. -/
def rename (src dst : Path) : Act IoError Unit := change fun d t => d.rename src dst t

/-- Set a file's modification time. -/
def setModified (p : Path) (time : Nat) : Act IoError Unit :=
  change fun d _ => d.setModified p time

/-- The names in a directory, in byte order. -/
def readDir (p : Path) : Act IoError (List String) := do ofExcept ((← disk).readDir p)

/-- Create the parent directory of a path, if it has one. -/
def createParent (p : Path) : Act IoError Unit :=
  match p.parent? with
  | some parent => createDirAll parent
  | none => pure ()

end Act

end JarDeploy
