/-!
# Input and output errors

An error of the file system: its kind (used to classify it) and its text. Errors that
come from the operating system read like `No such file or directory (os error 2)`;
errors raised by the program itself carry their own text.
-/

namespace JarDeploy

set_option autoImplicit false

/-- The kinds of input and output errors that arise here. -/
inductive IoKind where
  | notFound
  | permissionDenied
  | alreadyExists
  | invalidData
  | invalidInput
  | isADirectory
  | notADirectory
  | directoryNotEmpty
  | other
  deriving Repr, BEq, DecidableEq, Inhabited

/-- The name of a kind, as classifications print it. -/
def IoKind.name : IoKind → String
  | .notFound => "NotFound"
  | .permissionDenied => "PermissionDenied"
  | .alreadyExists => "AlreadyExists"
  | .invalidData => "InvalidData"
  | .invalidInput => "InvalidInput"
  | .isADirectory => "IsADirectory"
  | .notADirectory => "NotADirectory"
  | .directoryNotEmpty => "DirectoryNotEmpty"
  | .other => "Other"

/-- An input or output error. -/
structure IoError where
  kind : IoKind
  message : String
  deriving Repr, BEq, Inhabited

namespace IoError

/-- A missing file or directory. -/
def notFound : IoError := ⟨.notFound, "No such file or directory (os error 2)"⟩

/-- A directory where a file was needed. -/
def isADirectory : IoError := ⟨.isADirectory, "Is a directory (os error 21)"⟩

/-- A file where a directory was needed. -/
def notADirectory : IoError := ⟨.notADirectory, "Not a directory (os error 20)"⟩

/-- Something already in the way. -/
def alreadyExists : IoError := ⟨.alreadyExists, "File exists (os error 17)"⟩

/-- A directory that still has entries. -/
def directoryNotEmpty : IoError := ⟨.directoryNotEmpty, "Directory not empty (os error 39)"⟩

/-- An error with the program's own text. -/
def other (message : String) : IoError := ⟨.other, message⟩

end IoError

end JarDeploy
