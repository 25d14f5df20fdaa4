import JarDeploy.Settings
import JarDeploy.Artifact.Naming
import JarDeploy.Jar.Error

/-!
# Tasks of a jar's chain

A deployed jar goes through a chain of tasks: removing an existing signature, normalising
with pack200 (pack, then unpack), updating the manifest, signing, and packing for
distribution. Each task applies only when the settings enable it, and names its output
after its input: packing adds the pack extension, unpacking removes it, every other task
keeps the name.

The chain planned for a jar: when signing, first unsign a jar that is already signed (if
asked to), normalise when pack200 is enabled, update the manifest when there are entries
to add, then sign; finally, when pack200 is enabled, pack the result.
-/

namespace JarDeploy

set_option autoImplicit false

/-- A task of a jar's chain. -/
inductive Task where
  | unsign
  | pack200
  | unpack200
  | updateManifest
  | sign
  deriving Repr, BEq, DecidableEq, Inhabited

namespace Task

/-- All tasks, in chain order. -/
def all : List Task := [.unsign, .pack200, .unpack200, .updateManifest, .sign]

/-- The name of a task. -/
def name : Task → String
  | .unsign => "Unsign"
  | .pack200 => "Pack200"
  | .unpack200 => "UnPack200"
  | .updateManifest => "UpdateManifest"
  | .sign => "Sign"

instance : ToString Task := ⟨Task.name⟩

end Task

/-- Why a task failed. -/
inductive TaskError where
  /-- The settings do not enable the task. -/
  | precondition (task : Task) (reason : String)
  /-- The input is not something the task can work on. -/
  | unexpectedInput (task : Task) (path : Path)
  /-- The tool doing the work failed. -/
  | tool (task : Task) (e : ToolError)
  /-- Preparing the task's files failed. -/
  | io (e : IoError)
  deriving Inhabited

/-- The text of a task error. -/
def TaskError.message : TaskError → String
  | .precondition t r => t.name ++ " is not applicable: " ++ r
  | .unexpectedInput t p => t.name ++ " cannot consume " ++ p.text
  | .tool t e => t.name ++ " failed: " ++ e.message
  | .io e => "IO error: " ++ e.message

/-- The name of the kind of a task error, with the tool error's kind for a tool failure. -/
def TaskError.kind : TaskError → String
  | .precondition .. => "Precondition"
  | .unexpectedInput .. => "UnexpectedInput"
  | .tool _ e => "Tool::" ++ e.kind
  | .io _ => "IoError"

/-- The settings one jar's tasks run with: the global settings, the jar's working
directory, whether file names carry the version, and how files are named. -/
structure TaskSettings where
  settings : Settings
  workingDirectory : Path
  outputJarVersion : Bool
  naming : FileNaming
  deriving Inhabited

namespace TaskSettings

/-- The file name of an artifact. -/
def fileName (c : TaskSettings) (a : Artifact) : String :=
  c.naming.fileName a (some c.outputJarVersion) c.settings.useUniqueVersions

/-- The settings of an artifact's tasks: its working directory is named after its file,
without extension, under the global working directory. -/
def forArtifact (s : Settings) (a : Artifact) (outputJarVersion : Bool) (naming : FileNaming) :
    TaskSettings :=
  let c : TaskSettings := ⟨s, Path.empty, outputJarVersion, naming⟩
  { c with workingDirectory := s.workingDirectory.push (fileBasename (c.fileName a)) }

/-- Are there manifest entries to add? -/
def isUpdateManifest (c : TaskSettings) : Bool := !c.settings.manifestEntries.isEmpty

/-- The chain of tasks of a jar, given whether it is signed already. -/
def plan (c : TaskSettings) (alreadySigned : Bool) : List Task :=
  let s := c.settings
  let signing :=
    if s.isSign then
      (if s.unsignAlreadySigned && alreadySigned then [Task.unsign] else [])
        ++ (if s.isPack200 then [.pack200, .unpack200] else [])
        ++ (if c.isUpdateManifest then [.updateManifest] else [])
        ++ [.sign]
    else []
  signing ++ (if s.isPack200 then [.pack200] else [])

end TaskSettings

namespace Task

/-- Why the settings do not enable a task, if they do not. -/
def blocker (t : Task) (c : TaskSettings) : Option String :=
  match t with
  | .sign => if c.settings.isSign then none else some "signing is not configured"
  | .pack200 | .unpack200 => if c.settings.isPack200 then none else some "pack200 is not enabled"
  | .updateManifest => if c.isUpdateManifest then none else some "no manifest entries are configured"
  | .unsign => if c.settings.canUnsign then none else some "unsigning is not permitted"

/-- Check that the settings enable a task. -/
def check (t : Task) (c : TaskSettings) : Except TaskError Unit :=
  match t.blocker c with
  | some reason => .error (.precondition t reason)
  | none => .ok ()

/-- The name of a task's output for an input name; unpacking needs the pack extension
and something before it. -/
def outputName (t : Task) (c : TaskSettings) (input : String) : Option String :=
  let ext := c.settings.packExtension
  match t with
  | .pack200 => some (input ++ ext)
  | .unpack200 =>
    if input.endsWith ext && input.length > ext.length then
      some (input.take (input.length - ext.length)).toString
    else none
  | _ => some input

end Task

end JarDeploy
