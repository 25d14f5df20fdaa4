import JarDeploy.IoError
import JarDeploy.Path
import JarDeploy.Glob
import JarDeploy.Zip.Archive

/-!
# Errors of jar tools

A jar tool fails because a file could not be read or written, because an archive is not
readable, because a pass-file pattern is not a glob, because a manifest is malformed,
because an external tool could not be started or reported failure, or because a tool left
no output where it should have.
-/

namespace JarDeploy

set_option autoImplicit false

/-- Why a jar tool failed. -/
inductive ToolError where
  | io (e : IoError)
  | zip (e : Zip.ZipError)
  | pattern (glob : String) (e : GlobError)
  | manifest (detail : String)
  | spawn (tool : String) (e : IoError)
  | failed (tool status stderr : String)
  | verificationFailed (path : Path)
  | missingOutput (path : Path)
  deriving Inhabited

namespace ToolError

/-- The text of a tool error. -/
def message : ToolError → String
  | .io e => "I/O error: " ++ e.message
  | .zip e => "zip error: " ++ e.message
  | .pattern g e => "invalid pass-file pattern: " ++ e.message g
  | .manifest d => "malformed manifest: " ++ d
  | .spawn tool e => tool ++ " failed to start: " ++ e.message
  | .failed tool status stderr => tool ++ " exited with " ++ status ++ ": " ++ stderr
  | .verificationFailed p => "signature verification failed for " ++ p.text
  | .missingOutput p => "tool produced no output at " ++ p.text

/-- The name of the kind of error. -/
def kind : ToolError → String
  | .io _ => "Io"
  | .zip _ => "Zip"
  | .pattern .. => "Pattern"
  | .manifest _ => "Manifest"
  | .spawn .. => "Spawn"
  | .failed .. => "Failed"
  | .verificationFailed _ => "VerificationFailed"
  | .missingOutput _ => "MissingOutput"

end ToolError

end JarDeploy
