import JarDeploy.Task
import JarDeploy.Toolkit
import JarDeploy.Settings.Error

/-!
# Requests

A request is the plan for deploying one artifact: its file name, its chain of tasks, the
copy of the artifact in its working directory, and the deployed file in the library
directory (plus a packed companion when the chain ends by packing).

Building a request asks the toolkit whether the artifact is already signed, but only
when signing and asked to unsign signed jars; a signed jar then needs permission to
unsign. Every task of the chain must be enabled. A request is up to date when the copy,
the deployed file and the packed companion (if any) are all strictly newer than the
artifact. Requests are numbered from 0 in the order they are built; a failure uses no
number.
-/

namespace JarDeploy

set_option autoImplicit false

/-- Why a request could not be built. -/
inductive RequestError where
  | config (e : SettingsError)
  | inspect (artifact : String) (e : ToolError)
  | io (artifact : String) (e : IoError)
  deriving Inhabited

/-- The text of a request error. -/
def RequestError.message : RequestError → String
  | .config e => e.message
  | .inspect a e => "cannot inspect " ++ a ++ ": " ++ e.message
  | .io a e => "cannot read " ++ a ++ ": " ++ e.message

/-- The name of the kind of a request error, with the kind of its cause. -/
def RequestError.kind : RequestError → String
  | .config e => "Config::" ++ e.kind
  | .inspect _ e => "Inspect::" ++ e.kind
  | .io .. => "Io"

/-- The plan for deploying one artifact. -/
structure Request where
  id : Nat
  artifact : Artifact
  config : TaskSettings
  filename : String
  tasks : List Task
  originalFile : Path
  finalFile : Path
  uptodate : Bool
  deriving Inhabited

namespace Request

/-- The packed companion of the deployed file, when the chain ends by packing. -/
def packedFile (r : Request) : Option Path :=
  match r.tasks.getLast? with
  | some .pack200 => some ⟨r.finalFile.text ++ r.config.settings.packExtension⟩
  | _ => none

/-- The stages of the chain: position, task and stage directory. -/
def stages (r : Request) : List (Nat × Task × Path) :=
  r.tasks.zipIdx.map fun (t, i) => (i, t, r.config.workingDirectory.push (toString i ++ "_" ++ t.name))

/-- Does the chain sign the jar? -/
def isSigning (r : Request) : Bool := r.tasks.contains .sign

end Request

/-- Builds requests with shared settings, naming and toolkit, counting them. -/
structure RequestBuilder where
  settings : Settings
  naming : FileNaming
  toolkit : Toolkit
  nextId : Nat := 0
  deriving Inhabited

namespace RequestBuilder

/-- A builder with the settings' own naming. -/
def ofSettings (s : Settings) (t : Toolkit) : RequestBuilder := ⟨s, s.fileNaming, t, 0⟩

/-- The file name of an artifact. -/
def filename (b : RequestBuilder) (a : Artifact) (outputJarVersion : Bool) : String :=
  b.naming.fileName a (some outputJarVersion) b.settings.useUniqueVersions

/-- Is the file at `p` strictly newer than `time`? A missing file is not. -/
def newerThan {ε : Type} (p : Path) (time : Nat) : Act ε Bool := do
  match (← Act.disk).stat p with
  | .ok n => return decide (n.mtime > time)
  | .error _ => return false

/-- Build the request of an artifact with the builder's next number. -/
def build (b : RequestBuilder) (a : Artifact) (outputJarVersion : Bool) : Act RequestError Request := do
  let config := TaskSettings.forArtifact b.settings a outputJarVersion b.naming
  let filename := config.fileName a
  let s := b.settings
  let alreadySigned ← if s.isSign && s.unsignAlreadySigned then do
      let signed ← Act.mapError (RequestError.inspect a.display) (b.toolkit.isSigned ⟨a.file⟩)
      if signed && !s.canUnsign then throw (.config (.unsignNotPermitted a.display))
      pure signed
    else pure false
  let tasks := config.plan alreadySigned
  for t in tasks do
    match t.check config with
    | .error e => throw (.config (.taskPrecondition t.name a.display e.message))
    | .ok _ => pure ()
  let source ← Act.mapError (RequestError.io a.display) (Act.stat ⟨a.file⟩)
  let originalFile := config.workingDirectory.push filename
  let finalFile := s.libDirectory.push filename
  let mut uptodate := (← newerThan originalFile source.mtime) && (← newerThan finalFile source.mtime)
  if tasks.getLast? == some .pack200 then
    uptodate := uptodate && (← newerThan ⟨finalFile.text ++ s.packExtension⟩ source.mtime)
  return ⟨b.nextId, a, config, filename, tasks, originalFile, finalFile, uptodate⟩

/-- Build a request; on success the builder moves to the next number. -/
def create (b : RequestBuilder) (a : Artifact) (outputJarVersion : Bool) :
    Act RequestError (Request × RequestBuilder) := do
  let r ← b.build a outputJarVersion
  return (r, { b with nextId := b.nextId + 1 })

end RequestBuilder

end JarDeploy
