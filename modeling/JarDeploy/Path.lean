/-!
# Paths

A path is the text of a file name relative to the workspace, separated by `/`. Its
components drop empty parts and `.` parts (a leading `.` is kept as the current
directory); two paths are the same when their components are. Joining a relative path
adds a separator unless the base is empty or already ends in one; joining an absolute
path replaces the base. The file name is the last component when it is a name; the
extension is what follows the last dot of the file name, unless that dot starts it.
-/

namespace JarDeploy

set_option autoImplicit false

/-- A component of a path. -/
inductive PathPart where
  | root
  | current
  | parent
  | name (n : String)
  deriving Repr, BEq, DecidableEq, Inhabited

/-- A path as written. -/
structure Path where
  text : String
  deriving Repr, BEq, DecidableEq, Inhabited, Hashable

namespace Path

instance : ToString Path := ⟨Path.text⟩

/-- The empty path. -/
def empty : Path := ⟨""⟩

/-- Does the path start at the root? -/
def isAbsolute (p : Path) : Bool := p.text.startsWith "/"

/-- The components of a path. -/
def parts (p : Path) : List PathPart :=
  let pieces := (p.text.toList.splitOn '/').map String.ofList
  let lead : List PathPart := if p.isAbsolute then [.root] else []
  let body := pieces.zipIdx.filterMap fun (s, i) =>
    if s.isEmpty then none
    else if s == "." then (if i == 0 && !p.isAbsolute then some PathPart.current else none)
    else if s == ".." then some .parent
    else some (.name s)
  lead ++ body

/-- Paths with the same components are the same path. -/
def same (a b : Path) : Bool := a.parts == b.parts

/-- `p` followed by `q`: `q` itself when it is absolute. -/
def join (p q : Path) : Path :=
  if q.isAbsolute then q
  else if p.text.isEmpty then q
  else if p.text.endsWith "/" then ⟨p.text ++ q.text⟩
  else ⟨p.text ++ "/" ++ q.text⟩

/-- `p` followed by a name. -/
def push (p : Path) (name : String) : Path := p.join ⟨name⟩

/-- The last component when it is a name. -/
def fileName? (p : Path) : Option String :=
  match p.parts.getLast? with
  | some (.name n) => some n
  | _ => none

/-- What follows the last dot of a file name, unless that dot starts the name. -/
def extensionOf (name : String) : Option String :=
  if name == ".." then none
  else
    match (name.toList.splitOn '.').map String.ofList |>.reverse with
    | [] | [_] => none
    | last :: before =>
      let stem := ".".intercalate before.reverse
      if stem.isEmpty then none else some last

/-- The extension of the file name. -/
def extension? (p : Path) : Option String := p.fileName? >>= extensionOf

/-- The text of the components, rebuilt. -/
def ofParts (ps : List PathPart) : Path :=
  let texts := ps.map fun
    | .root => ""
    | .current => "."
    | .parent => ".."
    | .name n => n
  match ps with
  | [.root] => ⟨"/"⟩
  | _ => ⟨"/".intercalate texts⟩

/-- The path without its last component; none for a root or an empty path. -/
def parent? (p : Path) : Option Path :=
  match p.parts.reverse with
  | [] => none
  | [.root] => none
  | _ :: rest => some (ofParts rest.reverse)

end Path

end JarDeploy
