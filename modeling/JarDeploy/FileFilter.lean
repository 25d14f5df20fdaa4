import JarDeploy.World

/-!
# Filters on directory entries

A filter decides about an entry of a directory from its path and what it is: a jar is a
regular file whose name ends in `.jar`; an unprocessed entry's name starts with
`unprocessed_`; a pack200 artifact is a regular file ending in `.pack` or `.pack.gz`; an
entry is modified since a time when its modification time is at or after it. Filters
combine with and, or and not. Listing a directory gives the paths (the directory joined
with each name) of the entries the filter accepts, sorted.
-/

namespace JarDeploy

set_option autoImplicit false

/-- The mark of a jar staged for the single-pass mode. -/
def unprocessedPrefix : String := "unprocessed_"

/-- The extensions of pack200 archives. -/
def pack200Suffixes : List String := [".pack", ".pack.gz"]

/-- A filter on directory entries. -/
inductive FileFilter where
  | jar
  | unprocessed
  | pack200
  | modifiedSince (time : Nat)
  | and (a b : FileFilter)
  | or (a b : FileFilter)
  | not (a : FileFilter)
  deriving Repr, Inhabited

namespace FileFilter

/-- Does the filter accept an entry? -/
def accepts (f : FileFilter) (p : Path) (n : Node) : Bool :=
  let name := p.fileName?.getD ""
  match f with
  | .jar => n.isFile && name.endsWith ".jar"
  | .unprocessed => name.startsWith unprocessedPrefix
  | .pack200 => n.isFile && pack200Suffixes.any fun (s : String) => name.endsWith s
  | .modifiedSince t => decide (n.mtime ≥ t)
  | .and a b => a.accepts p n && b.accepts p n
  | .or a b => a.accepts p n || b.accepts p n
  | .not a => !a.accepts p n

end FileFilter

/-- The sorted paths of the entries of `dir` that the filter accepts. -/
def listFiles (dir : Path) (f : FileFilter) : Act IoError (List Path) := do
  let names ← Act.readDir dir
  let d ← Act.disk
  return names.filterMap fun name =>
    let p := dir.push name
    match d.stat p with
    | .ok n => if f.accepts p n then some p else none
    | .error _ => none

end JarDeploy
