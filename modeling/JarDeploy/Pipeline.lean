import JarDeploy.Batch
import JarDeploy.Legacy
import JarDeploy.Listing.Build
import JarDeploy.Artifact.Pattern

/-!
# The deployment pipeline

The pipeline turns resolved artifacts into deployed jars. Selection keeps the wanted
artifacts and refuses two that would be deployed under one file name. Planning builds a
request for each selected artifact, stopping at the first that cannot be built. A run
plans, generates the keystore when asked to, runs the requests, and then requires that
no request failed and, when signing, that every modified jar was signed; finally it lists
the deployed jars and looks for extra files in the library directory.

Each failure has an exit code: 2 for configuration, 10 for a request that cannot be
inspected or read, 20 for keystore generation, 50 for failed dependencies and single-pass
failures, 60 for the listing, 70 for a broken invariant or a jar without the staging
prefix, and 1 for other file errors.
-/

namespace JarDeploy

set_option autoImplicit false

/-- Why the pipeline failed. -/
inductive PipelineError where
  | config (e : SettingsError)
  | request (e : RequestError)
  | keystore (e : ToolError)
  | dependenciesFailed (failures : List String) (notStarted : Nat)
  | invariant (detail : String)
  | legacy (e : LegacyError)
  | listing (e : ListingError)
  | io (e : IoError)
  deriving Inhabited

namespace PipelineError

/-- The text of a pipeline error. -/
def message : PipelineError → String
  | .config e => "configuration error: " ++ e.message
  | .request e => e.message
  | .keystore e => "keystore generation failed: " ++ e.message
  | .dependenciesFailed fs n =>
    toString fs.length ++ " dependencies failed (" ++ toString n ++ " not started): " ++ "; ".intercalate fs
  | .invariant d => "internal invariant violated: " ++ d
  | .legacy e => "legacy processing failed: " ++ e.message
  | .listing e => "listing error: " ++ e.message
  | .io e => "IO error: " ++ e.message

/-- The name of the kind of a pipeline error, with the kind of its cause. -/
def kind : PipelineError → String
  | .config e => "Config::" ++ e.kind
  | .request e => "Request::" ++ e.kind
  | .keystore e => "Keystore::" ++ e.kind
  | .dependenciesFailed .. => "DependenciesFailed"
  | .invariant _ => "Invariant"
  | .legacy e => "Legacy::" ++ e.kind
  | .listing e => "Listing::" ++ e.kind
  | .io _ => "Io"

/-- The exit code of a pipeline error. -/
def exitCode : PipelineError → Nat
  | .config _ => 2
  | .request (.config _) => 2
  | .request _ => 10
  | .keystore _ => 20
  | .dependenciesFailed .. => 50
  | .listing _ => 60
  | .invariant _ => 70
  | .legacy (.missingPrefix _) => 70
  | .legacy _ => 50
  | .io _ => 1

/-- A single-pass error as a pipeline error: configuration errors stay themselves. -/
def ofLegacy : LegacyError → PipelineError
  | .config e => .config e
  | e => .legacy e

end PipelineError

/-- What a run did: the results, the listing and how many requests were not up to date. -/
structure PipelineReport where
  results : Results
  listing : Listing
  modified : Nat
  deriving Inhabited

/-- The settings and toolkit of a pipeline. -/
structure Pipeline where
  settings : Settings
  toolkit : Toolkit
  toucher : Toucher := {}
  deriving Inhabited

namespace Pipeline

/-- A pipeline with checked settings. -/
def create (s : Settings) (t : Toolkit) : Except PipelineError Pipeline :=
  match s.check with
  | .ok _ => .ok ⟨s, t, {}⟩
  | .error e => .error (.config e)

/-- A request builder with the pipeline's settings and toolkit. -/
def builder (p : Pipeline) : RequestBuilder := RequestBuilder.ofSettings p.settings p.toolkit

/-- The first artifact after `a` in `seen` with the same file name, if any. -/
def collision (seen : List (String × Artifact)) (filename : String) : Option Artifact :=
  (seen.find? (·.1 == filename)).map (·.2)

/-- The selected artifacts; no two may share a file name. -/
def select (p : Pipeline) (artifacts : List Artifact) : Except SettingsError (List Artifact) := do
  let sel ← Selector.ofPatterns p.settings.dependencies.includes p.settings.dependencies.excludes
    p.settings.excludeTransitive
  let selected := sel.select artifacts
  let _ ← selected.foldlM (fun (seen : List (String × Artifact)) a => do
    let filename := p.builder.filename a p.settings.outputJarVersions
    match collision seen filename with
    | some first => throw (.filenameCollision filename first.display a.display)
    | none => pure (seen ++ [(filename, a)])) []
  return selected

/-- Build the requests of the selected artifacts, in order. -/
def plan (p : Pipeline) (artifacts : List Artifact) : Act PipelineError (List Request) := do
  let selected ← Act.ofExcept ((p.select artifacts).mapError .config)
  let (_, requests) ← selected.foldlM (fun (acc : RequestBuilder × List Request) a => do
    let (r, b) ← Act.mapError PipelineError.request (acc.1.create a p.settings.outputJarVersions)
    return (b, acc.2 ++ [r])) (p.builder, [])
  return requests

/-- Generate the keystore when the settings ask for it; whether it was. -/
def generateKeystore (p : Pipeline) : Act PipelineError Bool := do
  match p.settings.sign.bind (·.keystoreRequest) with
  | none => return false
  | some r =>
    Act.mapError PipelineError.keystore (p.toolkit.generateKeystore r)
    return true

/-- When signing, every modified jar must have been signed. -/
def checkSignedCount (s : Settings) (signed modified : Nat) : Except PipelineError Unit :=
  if s.isSign && signed != modified then
    .error (.invariant ("signed " ++ toString signed ++ " jars but " ++ toString modified ++
      " dependencies were modified"))
  else .ok ()

/-- The executor of a pipeline. -/
def executor (p : Pipeline) : Executor :=
  ⟨p.toolkit, p.toucher, WorkerPool.ofThreads p.settings.maxThreads, p.settings.failFast⟩

/-- The deployed jar of a request. -/
def deployedOf (r : Request) : DeployedJar := ⟨r.filename, r.artifact.version, r.finalFile, r.packedFile⟩

/-- Plan, run the requests, check them and list the deployed jars. -/
def run (p : Pipeline) (artifacts : List Artifact) : Act PipelineError PipelineReport := do
  let requests ← p.plan artifacts
  let _ ← p.generateKeystore
  let modified := (requests.filter (!·.uptodate)).length
  let deployed := requests.map deployedOf
  let (results, _) ← Act.infallible (p.executor.execute requests)
  if results.hasErrors then
    throw (.dependenciesFailed (results.errors.map ProcessError.message) results.notStartedCount)
  Act.ofExcept (checkSignedCount p.settings results.signedCount modified)
  let s := p.settings
  let listing ← Act.mapError PipelineError.listing
    (Listing.build deployed s.libPath s.outputJarVersions s.mainClass p.toolkit)
  let _ ← Act.mapError PipelineError.listing (listing.extraFiles s.libDirectory)
  return ⟨results, listing, modified⟩

/-- Process a directory in single-pass mode with a start time. -/
def processLegacyDirectory (p : Pipeline) (start : Nat) (dir : Path) : Act PipelineError LegacyReport :=
  Act.mapError PipelineError.ofLegacy (Legacy.processDirectory p.settings p.toolkit start dir)

/-- Stage the selected artifacts in the library directory and process it in single-pass
mode, starting now (to the second). -/
def runLegacy (p : Pipeline) (artifacts : List Artifact) : Act PipelineError LegacyReport := do
  let selected ← Act.ofExcept ((p.select artifacts).mapError .config)
  Act.mapError PipelineError.ofLegacy
    (checkUnsignPermitted p.settings p.toolkit (selected.map fun a => (a.display, ⟨a.file⟩)))
  let _ ← p.generateKeystore
  let now ← Act.now
  let start := now / nanosPerSecond * nanosPerSecond
  let libDir := p.settings.libDirectory
  let modified ← selected.foldlM (fun n a => do
    let filename := p.builder.filename a p.settings.outputJarVersions
    let staged ← Act.mapError PipelineError.io (stageUnprocessed a filename libDir p.toucher)
    return if staged then n + 1 else n) 0
  let report ← p.processLegacyDirectory start libDir
  Act.ofExcept (checkSignedCount p.settings report.signedCount modified)
  return report

end Pipeline

end JarDeploy
