import JarDeploy.IoError
import JarDeploy.Path

/-!
# The workspace on disk

A workspace is a set of places, each a file (bytes and a modification time) or a
directory (with its own modification time). A place is the list of names leading to it
from the workspace root; the root itself is the empty list and is always a directory.
Times are nanoseconds since the epoch.

Each operation follows the rules of a POSIX file system that the program relies on:
walking a path stops at the first component that is missing (`NotFound`) or that is a
file (`NotADirectory`); writing a file creates it in an existing directory and stamps
it, and a new entry also stamps its directory; reading a directory as a file fails with
`IsADirectory`. A path is walked one component at a time, so `..` steps back only
from a directory that exists. Places outside the workspace (absolute paths) hold nothing,
and the empty path names nothing.
-/

namespace JarDeploy

set_option autoImplicit false

/-- What a place holds. -/
inductive Node where
  | file (data : ByteArray) (mtime : Nat)
  | dir (mtime : Nat)
  deriving Inhabited

namespace Node

/-- Is it a file? -/
def isFile : Node → Bool
  | .file .. => true
  | .dir _ => false

/-- The modification time. -/
def mtime : Node → Nat
  | .file _ t => t
  | .dir t => t

/-- The same node with another modification time. -/
def stamp (t : Nat) : Node → Node
  | .file d _ => .file d t
  | .dir _ => .dir t

end Node

/-- A place in the workspace: the names leading to it from the root. -/
abbrev Place := List String

/-- What walking to a place finds. -/
inductive Found where
  /-- The place holds this node. -/
  | node (n : Node)
  /-- Nothing is there, but its parent directory exists. -/
  | absent
  /-- A component before the last is missing. -/
  | noParent
  /-- A component before the last is a file. -/
  | throughFile
  deriving Inhabited

/-- The files and directories of a workspace, by place. The root is not listed. -/
structure Disk where
  entries : List (Place × Node)
  deriving Inhabited

namespace Disk

/-- The empty workspace. -/
def empty : Disk := ⟨[]⟩

/-- The node at a place, the root being a directory. -/
def get? (d : Disk) (pl : Place) : Option Node :=
  if pl.isEmpty then some (.dir 0) else (d.entries.find? (·.1 == pl)).map (·.2)

/-- Walk through the directories `names` below `done`: the first that is missing or a
file stops the walk. -/
def walk (d : Disk) (done : Place) : List String → Option Found
  | [] => none
  | name :: rest =>
    match d.get? (done ++ [name]) with
    | some (.dir _) => walk d (done ++ [name]) rest
    | some (.file ..) => some .throughFile
    | none => some .noParent

/-- Walk to a place: every proper prefix must be a directory. -/
def find (d : Disk) (pl : Place) : Found :=
  match d.walk [] pl.dropLast with
  | some f => f
  | none => match d.get? pl with
    | some n => .node n
    | none => .absent

/-- Walk a path's components from the directory `here`: a name before the last must be an
existing directory (a missing one or a file stops the walk), `.` stays and `..` steps
back, never above the workspace root. -/
def walkParts (d : Disk) (here : Place) : List PathPart → Except Found Place
  | [] => .ok here
  | [.name n] => .ok (here ++ [n])
  | .name n :: rest =>
    match d.get? (here ++ [n]) with
    | some (.dir _) => d.walkParts (here ++ [n]) rest
    | some (.file ..) => .error .throughFile
    | none => .error .noParent
  | .parent :: rest => d.walkParts here.dropLast rest
  | .current :: rest => d.walkParts here rest
  | .root :: rest => d.walkParts [] rest

/-- The place a path leads to, walked one component at a time. An absolute path leaves
the workspace and an empty path names nothing: neither leads anywhere. -/
def locate (d : Disk) (p : Path) : Except Found Place :=
  if p.isAbsolute || p.text.isEmpty then .error .noParent else d.walkParts [] p.parts

/-- Walk to the place a path names. -/
def findPath (d : Disk) (p : Path) : Found :=
  match d.locate p with
  | .ok pl => d.find pl
  | .error f => f

/-- The error of a walk that did not reach an existing node. -/
def walkError : Found → IoError
  | .throughFile => .notADirectory
  | _ => .notFound

/-- Set the node at a place, replacing what was there. -/
def put (d : Disk) (pl : Place) (n : Node) : Disk :=
  if d.entries.any (·.1 == pl) then ⟨d.entries.map fun e => if e.1 == pl then (pl, n) else e⟩
  else ⟨d.entries ++ [(pl, n)]⟩

/-- Stamp the directory at a place (nothing for the root). -/
def touchDir (d : Disk) (pl : Place) (now : Nat) : Disk :=
  match d.get? pl with
  | some (.dir _) => if pl.isEmpty then d else d.put pl (.dir now)
  | _ => d

/-- Is `pre` a prefix of `pl`? -/
def within (pre pl : Place) : Bool := pre.isPrefixOf pl

/-- Remove a place and everything under it. -/
def removeTree (d : Disk) (pl : Place) : Disk := ⟨d.entries.filter fun e => !within pl e.1⟩

/-- The names directly inside the directory at a place. -/
def children (d : Disk) (pl : Place) : List String :=
  d.entries.filterMap fun e =>
    if e.1.length = pl.length + 1 && within pl e.1 then e.1.getLast? else none

/-- Read a whole file. -/
def read (d : Disk) (p : Path) : Except IoError ByteArray :=
  match d.findPath p with
  | .node (.file data _) => .ok data
  | .node (.dir _) => .error .isADirectory
  | f => .error (walkError f)

/-- The node a path names. -/
def stat (d : Disk) (p : Path) : Except IoError Node :=
  match d.findPath p with
  | .node n => .ok n
  | f => .error (walkError f)

/-- Does the path name a regular file? -/
def isFile (d : Disk) (p : Path) : Bool :=
  match d.findPath p with
  | .node (.file ..) => true
  | _ => false

/-- Does the path name a directory? -/
def isDir (d : Disk) (p : Path) : Bool :=
  match d.findPath p with
  | .node (.dir _) => true
  | _ => false

/-- Does anything exist at the path? -/
def exists? (d : Disk) (p : Path) : Bool :=
  match d.findPath p with
  | .node _ => true
  | _ => false

/-- The place a path leads to, or the error of the walk. -/
def placeIn (d : Disk) (p : Path) : Except IoError Place :=
  match d.locate p with
  | .ok pl => .ok pl
  | .error f => .error (walkError f)

/-- Open a file for writing, creating or truncating it, and fill it with `data`. -/
def write (d : Disk) (p : Path) (data : ByteArray) (now : Nat) : Except IoError Disk :=
  match d.placeIn p with
  | .error e => .error e
  | .ok pl =>
    match d.find pl with
    | .node (.dir _) => .error .isADirectory
    | .node (.file ..) => .ok (d.put pl (.file data now))
    | .absent => .ok ((d.put pl (.file data now)).touchDir pl.dropLast now)
    | f => .error (walkError f)

/-- Create one directory whose parent exists. -/
def makeDir (d : Disk) (pl : Place) (now : Nat) : Except IoError Disk :=
  match d.find pl with
  | .node _ => .error .alreadyExists
  | .absent => .ok ((d.put pl (.dir now)).touchDir pl.dropLast now)
  | f => .error (walkError f)

/-- Create the one directory a path names, whose parent must exist. -/
def makeDirAt (d : Disk) (p : Path) (now : Nat) : Except IoError Disk := do
  d.makeDir (← d.placeIn p) now

/-- Create the directory a path names and any missing parents; an existing directory is
fine, and the empty path needs nothing. The directory itself is tried first; when its
parent is missing, the parent is made the same way and the directory tried again. A
file in the way stops it. `fuel` bounds the depth. -/
def makeDirsAlong (now : Nat) : Nat → Disk → Path → Except IoError Disk
  | 0, d, _ => .ok d
  | fuel + 1, d, p =>
    if p.text.isEmpty then .ok d
    else
      match d.makeDirAt p now with
      | .ok d' => .ok d'
      | .error e =>
        if e.kind == .notFound then
          match p.parent? with
          | some q =>
            match makeDirsAlong now fuel d q with
            | .error e' => .error e'
            | .ok d' =>
              match d'.makeDirAt p now with
              | .ok d'' => .ok d''
              | .error e'' => if d'.isDir p then .ok d' else .error e''
          | none => .error e
        else if d.isDir p then .ok d
        else .error e

/-- Create the directory a path names and any missing parents. -/
def createDirAll (d : Disk) (p : Path) (now : Nat) : Except IoError Disk :=
  makeDirsAlong now (p.parts.length + 1) d p

/-- Remove a file. -/
def removeFile (d : Disk) (p : Path) (now : Nat) : Except IoError Disk :=
  match d.placeIn p with
  | .error e => .error e
  | .ok pl =>
    match d.find pl with
    | .node (.file ..) => .ok ((d.removeTree pl).touchDir pl.dropLast now)
    | .node (.dir _) => .error .isADirectory
    | f => .error (walkError f)

/-- Remove a directory and everything in it. -/
def removeDirAll (d : Disk) (p : Path) (now : Nat) : Except IoError Disk :=
  match d.placeIn p with
  | .error e => .error e
  | .ok pl =>
    match d.find pl with
    | .node (.dir _) => .ok ((d.removeTree pl).touchDir pl.dropLast now)
    | .node (.file ..) => .error .notADirectory
    | f => .error (walkError f)

/-- The error of copying from something that is not a regular file. -/
def notRegular : IoError :=
  ⟨.invalidInput, "the source path is neither a regular file nor a symlink to a regular file"⟩

/-- Copy the bytes of one file into another, created or truncated. Copying a file onto
itself truncates it first, so it ends up empty. -/
def copy (d : Disk) (src dst : Path) (now : Nat) : Except IoError Disk :=
  match d.findPath src with
  | .node (.file data _) =>
    let same := match d.locate src, d.locate dst with
      | .ok a, .ok b => a == b
      | _, _ => false
    let data := if same then ByteArray.empty else data
    d.write dst data now
  | .node (.dir _) => .error notRegular
  | f => .error (walkError f)

/-- Move the tree at `source` to `target`, keeping the times of what moves. -/
def moveTree (d : Disk) (source target : Place) (now : Nat) : Disk :=
  let moved := d.entries.filterMap fun e =>
    if within source e.1 then some (target ++ e.1.drop source.length, e.2) else none
  let kept := (d.removeTree target).removeTree source
  let d' : Disk := ⟨kept.entries ++ moved⟩
  (d'.touchDir source.dropLast now).touchDir target.dropLast now

/-- Move a file or directory to another name, replacing a file there. -/
def rename (d : Disk) (src dst : Path) (now : Nat) : Except IoError Disk :=
  match d.placeIn src, d.placeIn dst with
  | .ok source, .ok target =>
    match d.find source with
    | .node n =>
      if source == target then .ok d
      else
        match d.find target, n with
        | .node (.dir _), .file .. => .error .isADirectory
        | .node (.file ..), .dir _ => .error .notADirectory
        | .node (.dir _), .dir _ =>
          if within source target then .error ⟨.invalidInput, "Invalid argument (os error 22)"⟩
          else if !(d.children target).isEmpty then .error .directoryNotEmpty
          else .ok (d.moveTree source target now)
        | .node (.file ..), .file .. => .ok (d.moveTree source target now)
        | .absent, _ =>
          if within source target then .error ⟨.invalidInput, "Invalid argument (os error 22)"⟩
          else .ok (d.moveTree source target now)
        | f, _ => .error (walkError f)
    | f => .error (walkError f)
  | .error e, _ => .error e
  | _, .error e => .error e

/-- Set the modification time of a file; a directory cannot be opened for writing. -/
def setModified (d : Disk) (p : Path) (time : Nat) : Except IoError Disk :=
  match d.placeIn p with
  | .error e => .error e
  | .ok pl =>
    match d.find pl with
    | .node (n@(.file ..)) => .ok (d.put pl (n.stamp time))
    | .node (.dir _) => .error .isADirectory
    | f => .error (walkError f)

/-- Insert a name into names sorted in byte order, before the first that is not smaller. -/
def insertName (n : String) : List String → List String
  | [] => [n]
  | m :: ms => if n ≤ m then n :: m :: ms else m :: insertName n ms

/-- Names sorted in byte order, equal names kept in their order. -/
def sortNames (names : List String) : List String := names.foldr insertName []

/-- The names in a directory, in byte order. -/
def readDir (d : Disk) (p : Path) : Except IoError (List String) :=
  match d.locate p with
  | .ok pl =>
    match d.find pl with
    | .node (.dir _) => .ok (sortNames (d.children pl))
    | .node (.file ..) => .error .notADirectory
    | f => .error (walkError f)
  | .error f => .error (walkError f)

/-- Lexicographic order on places, each name compared by its bytes. -/
def placeLe (a b : Place) : Bool :=
  match a, b with
  | [], _ => true
  | _ :: _, [] => false
  | x :: xs, y :: ys => if x == y then placeLe xs ys else x < y

/-- Every place with its node, a directory before what it holds and siblings in byte
order. -/
def tree (d : Disk) : List (Place × Node) := d.entries.mergeSort fun a b => placeLe a.1 b.1

/-- A step that changes a disk. -/
inductive Change where
  | remove (pl : Place) (dir : Bool)
  | makeDir (pl : Place)
  | writeFile (pl : Place) (data : ByteArray)
  deriving Inhabited

/-- The steps turning `before` into `after`. First the places that are gone, or hold
another kind of node, are removed (a directory with what it holds, so nothing inside a
removed directory is named again); then the new directories are made and the new or
changed files written, a directory before what it holds. -/
def changes (before after : Disk) : List Change :=
  let gone := before.tree.filter fun (pl, n) => match after.get? pl with
    | none => true
    | some m => n.isFile != m.isFile
  let outer := gone.filter fun (pl, _) => !gone.any fun (q, m) => !m.isFile && q != pl && within q pl
  let removals := outer.map fun (pl, n) => Change.remove pl (!n.isFile)
  let additions := after.tree.filterMap fun (pl, n) => match n, before.get? pl with
    | .dir _, some (.dir _) => none
    | .dir _, _ => some (.makeDir pl)
    | .file data _, some (.file old _) => if data.data == old.data then none else some (.writeFile pl data)
    | .file data _, _ => some (.writeFile pl data)
  removals ++ additions

end Disk

end JarDeploy
