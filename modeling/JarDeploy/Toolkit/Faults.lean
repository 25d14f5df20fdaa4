import JarDeploy.Path

/-!
# Planned tool failures

A scripted toolkit can be told to fail: an injection names a tool operation and, when its
file pattern is set, applies only to inputs whose file name contains that text. It may
carry an error message (the operation then fails with it) and a delay, and it may be
limited to a number of failures.

Checking an operation walks the injections in the order they were made. Every injection
that applies counts the check; one whose limit is used up is passed over, and the first
that is not is the answer.
-/

namespace JarDeploy

set_option autoImplicit false

/-- The operations of a toolkit. -/
inductive ToolOp where
  | unsign
  | pack
  | unpack
  | updateManifest
  | sign
  | generateKeystore
  deriving Repr, BEq, DecidableEq, Inhabited

namespace ToolOp

/-- The name of an operation. -/
def name : ToolOp → String
  | .unsign => "Unsign"
  | .pack => "Pack"
  | .unpack => "Unpack"
  | .updateManifest => "UpdateManifest"
  | .sign => "Sign"
  | .generateKeystore => "GenerateKeystore"

/-- The tool that performs an operation. -/
def toolName : ToolOp → String
  | .unsign => "unsign"
  | .pack => "pack200"
  | .unpack => "unpack200"
  | .updateManifest => "manifest"
  | .sign => "jarsigner"
  | .generateKeystore => "keytool"

/-- The operation of a name. -/
def ofName? (s : String) : Option ToolOp :=
  [ToolOp.unsign, .pack, .unpack, .updateManifest, .sign, .generateKeystore].find? (·.name == s)

end ToolOp

/-- Does `pat` occur in `s`? -/
def occursIn (pat s : String) : Bool :=
  let p := pat.toList
  let cs := s.toList
  (List.range (cs.length + 1)).any fun i => p.isPrefixOf (cs.drop i)

/-- How an injected failure behaves. -/
structure FailureConfig where
  errorMessage : Option String := none
  delayMs : Option Nat := none
  failCount : Option Nat := none
  filePattern : Option String := none
  deriving Repr, BEq, Inhabited

namespace FailureConfig

/-- Fail with a message. -/
def error (message : String) : FailureConfig := { errorMessage := some message }

/-- Only wait. -/
def delay (ms : Nat) : FailureConfig := { delayMs := some ms }

/-- Does the injection apply to an input? Only when the input has a file name that
contains the pattern, if there is a pattern. -/
def appliesTo (c : FailureConfig) (input : Path) : Bool :=
  match c.filePattern with
  | none => true
  | some pat => match input.fileName? with
    | some n => occursIn pat n
    | none => false

end FailureConfig

/-- An injection and how many checks it has counted. -/
structure Injection where
  op : ToolOp
  config : FailureConfig
  calls : Nat
  deriving Repr, Inhabited

/-- The injections in the order they were made. -/
structure FaultPlan where
  injections : List Injection := []
  deriving Repr, Inhabited

namespace FaultPlan

/-- Add an injection. -/
def inject (f : FaultPlan) (op : ToolOp) (c : FailureConfig) : FaultPlan :=
  ⟨f.injections ++ [⟨op, c, 0⟩]⟩

/-- Remove all injections. -/
def clear (_ : FaultPlan) : FaultPlan := ⟨[]⟩

/-- Remove the injections of an operation. -/
def clearOp (f : FaultPlan) (op : ToolOp) : FaultPlan := ⟨f.injections.filter (·.op != op)⟩

/-- Walk the injections: count each that applies, and stop at the first whose limit is
not used up. -/
def scan (op : ToolOp) (input : Path) : List Injection → List Injection × Option FailureConfig
  | [] => ([], none)
  | i :: rest =>
    if i.op == op && i.config.appliesTo input then
      let i' := { i with calls := i.calls + 1 }
      let spent : Bool := match i.config.failCount with
        | some limit => decide (i'.calls > limit)
        | none => false
      if spent then
        let (rest', found) := scan op input rest
        (i' :: rest', found)
      else (i' :: rest, some i.config)
    else
      let (rest', found) := scan op input rest
      (i :: rest', found)

/-- Check an operation on an input: the failure to apply, if any, and the plan with the
checks counted. -/
def check (f : FaultPlan) (op : ToolOp) (input : Path) : Option FailureConfig × FaultPlan :=
  let (is, found) := scan op input f.injections
  (found, ⟨is⟩)

end FaultPlan

end JarDeploy
