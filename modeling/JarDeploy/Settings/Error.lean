import JarDeploy.IoError
import JarDeploy.Text.Quoted

/-!
# Configuration errors

Why a configuration cannot be used: it cannot be read or parsed, a value breaks a rule,
a pattern is malformed, or, once artifacts are known, an artifact cannot go through its
task chain or two artifacts would be deployed under one file name.
-/

namespace JarDeploy

set_option autoImplicit false

/-- A configuration error. -/
inductive SettingsError where
  | unreadable (cause : IoError)
  | malformed (report : String)
  | invalid (message : String)
  | badPattern (pattern reason : String)
  | unsignNotPermitted (artifact : String)
  | taskPrecondition (task artifact reason : String)
  | filenameCollision (filename first second : String)
  deriving Repr, Inhabited

/-- The text of a configuration error. -/
def SettingsError.message : SettingsError → String
  | .unreadable e => "Failed to read config file: " ++ e.message
  | .malformed r => "Failed to parse TOML: " ++ r
  | .invalid m => "Validation error: " ++ m
  | .badPattern p r => "invalid pattern " ++ Text.debugQuote p ++ ": " ++ r
  | .unsignNotPermitted a =>
    a ++ " is already signed and unsigning is not permitted (set can_unsign = true)"
  | .taskPrecondition t a r => t ++ " cannot run for " ++ a ++ ": " ++ r
  | .filenameCollision f a b => a ++ " and " ++ b ++ " both map to " ++ f

/-- The name of the kind of a configuration error. -/
def SettingsError.kind : SettingsError → String
  | .unreadable _ => "IoError"
  | .malformed _ => "ParseError"
  | .invalid _ => "ValidationError"
  | .badPattern .. => "InvalidPattern"
  | .unsignNotPermitted _ => "UnsignNotPermitted"
  | .taskPrecondition .. => "TaskPrecondition"
  | .filenameCollision .. => "FilenameCollision"

end JarDeploy
