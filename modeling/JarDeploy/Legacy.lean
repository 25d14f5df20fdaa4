import JarDeploy.FileFilter
import JarDeploy.Task.Execute
import JarDeploy.Touch
import JarDeploy.Settings.Error

/-!
# Single-pass processing of a directory

The older mode works in one directory. Artifacts are staged there under the name
`unprocessed_<file name>` (unless the deployed file is already newer than the artifact),
and then every staged jar modified since the start of the run is processed in place:
when signing, signed jars are unsigned first (if asked to), all are normalised with
pack200 (packed, unpacked, and the packed file removed) when it is enabled, and each is
signed under its final name with the staged file removed; without signing the staged
files are simply renamed. When pack200 is enabled, every processed jar is then packed
beside itself. Tasks run in a scratch directory `.legacy-work` inside the directory,
removed at the end, and their outputs are moved into the directory.
-/

namespace JarDeploy

set_option autoImplicit false

/-- The scratch directory of single-pass processing. -/
def scratchDirName : String := ".legacy-work"

/-- Why single-pass processing failed. -/
inductive LegacyError where
  | config (e : SettingsError)
  | missingPrefix (path : Path)
  | task (t : Task) (path : Path) (e : TaskError)
  | inspect (path : Path) (e : ToolError)
  | io (e : IoError)
  deriving Inhabited

/-- The text of a single-pass error. -/
def LegacyError.message : LegacyError → String
  | .config e => "configuration error: " ++ e.message
  | .missingPrefix p => p.text ++ " does not carry the " ++ unprocessedPrefix ++ " prefix"
  | .task t p e => t.name ++ " failed for " ++ p.text ++ ": " ++ e.message
  | .inspect p e => "cannot inspect " ++ p.text ++ ": " ++ e.message
  | .io e => "IO error: " ++ e.message

/-- The name of the kind of a single-pass error, with the kind of its cause. -/
def LegacyError.kind : LegacyError → String
  | .config e => "Config::" ++ e.kind
  | .missingPrefix _ => "MissingPrefix"
  | .task _ _ e => "Task::" ++ e.kind
  | .inspect _ e => "Inspect::" ++ e.kind
  | .io _ => "IoError"

/-- What single-pass processing did: the jars processed (sorted), how many were signed,
and the packed files made. -/
structure LegacyReport where
  processed : List Path := []
  signedCount : Nat := 0
  packed : List Path := []
  deriving Inhabited

/-- Stage an artifact in `dir` as an unprocessed jar, unless its deployed file is newer;
whether it was staged. -/
def stageUnprocessed (a : Artifact) (filename : String) (dir : Path) (toucher : Toucher) :
    Act IoError Bool := do
  let source ← Act.stat ⟨a.file⟩
  let current := match (← Act.disk).stat (dir.push filename) with
    | .ok n => decide (n.mtime > source.mtime)
    | .error _ => false
  if current then return false
  Act.createDirAll dir
  let staged := dir.push (unprocessedPrefix ++ filename)
  Act.copy ⟨a.file⟩ staged
  let _ ← toucher.touch staged
  return true

/-- When signing must unsign signed jars but may not, no jar may be signed. -/
def checkUnsignPermitted (s : Settings) (toolkit : Toolkit) (jars : List (String × Path)) :
    Act LegacyError Unit := do
  if !(s.isSign && s.unsignAlreadySigned && !s.canUnsign) then return
  for (name, p) in jars do
    if ← Act.mapError (LegacyError.inspect p) (toolkit.isSigned p) then
      throw (.config (.unsignNotPermitted name))

namespace Legacy

/-- The file name of a path, or nothing. -/
def nameOf (p : Path) : String := p.fileName?.getD ""

/-- The name without the staging prefix; it must have one, and something after it. -/
def stripPrefix (p : Path) : Except LegacyError String :=
  let n := nameOf p
  if n.startsWith unprocessedPrefix && n.length > unprocessedPrefix.length then
    .ok (n.drop unprocessedPrefix.length).toString
  else .error (.missingPrefix p)

/-- Run a task on a jar in the scratch directory and move its output into `dir`. -/
def runInto (c : TaskSettings) (toolkit : Toolkit) (t : Task) (input dir : Path) (target : String) :
    Act LegacyError Path := do
  let scratch := c.workingDirectory.push t.name
  let output ← Act.mapError (LegacyError.task t input) (t.execute c toolkit input scratch)
  let dest := dir.push target
  Act.mapError LegacyError.io (Act.rename output dest)
  return dest

/-- The settings of the tasks single-pass processing runs in `dir`: they work in its
scratch directory. -/
def taskSettings (s : Settings) (dir : Path) : TaskSettings :=
  ⟨s, dir.push scratchDirName, s.outputJarVersions, s.fileNaming⟩

/-- Unsign, in place, each of the jars that is signed. -/
def unsignPass (c : TaskSettings) (toolkit : Toolkit) (dir : Path) (jars : List Path) :
    Act LegacyError Unit := do
  for jar in jars do
    let _ ← Act.ofExcept (stripPrefix jar)
    if ← Act.mapError (LegacyError.inspect jar) (toolkit.isSigned jar) then
      let _ ← runInto c toolkit .unsign jar dir (nameOf jar)

/-- Normalise the jars with pack200: pack each beside itself, then unpack each packed file
over the jar it came from and remove it. -/
def normalizePass (c : TaskSettings) (toolkit : Toolkit) (dir : Path) (jars : List Path) :
    Act LegacyError Unit := do
  let ext := c.settings.packExtension
  let mut packed : List Path := []
  for jar in jars do
    let _ ← Act.ofExcept (stripPrefix jar)
    packed := packed ++ [← runInto c toolkit .pack200 jar dir (nameOf jar ++ ext)]
  for pack in packed do
    let _ ← Act.ofExcept (stripPrefix pack)
    let name := nameOf pack
    let name := if name.endsWith ext then (name.take (name.length - ext.length)).toString else ""
    let _ ← runInto c toolkit .unpack200 pack dir name
    Act.mapError LegacyError.io (Act.removeFile pack)

/-- Sign each jar under its name without the staging prefix, removing the staged jar. -/
def signPass (c : TaskSettings) (toolkit : Toolkit) (dir : Path) (jars : List Path)
    (report : LegacyReport) : Act LegacyError LegacyReport := do
  let mut report := report
  for jar in jars do
    let target ← Act.ofExcept (stripPrefix jar)
    let signed ← runInto c toolkit .sign jar dir target
    Act.mapError LegacyError.io (Act.removeFile jar)
    report := { report with signedCount := report.signedCount + 1, processed := report.processed ++ [signed] }
  return report

/-- Rename each jar to its name without the staging prefix. -/
def renamePass (dir : Path) (jars : List Path) (report : LegacyReport) :
    Act LegacyError LegacyReport := do
  let mut report := report
  for jar in jars do
    let target := dir.push (← Act.ofExcept (stripPrefix jar))
    Act.mapError LegacyError.io (Act.rename jar target)
    report := { report with processed := report.processed ++ [target] }
  return report

/-- Pack each processed jar beside itself. -/
def packPass (c : TaskSettings) (toolkit : Toolkit) (dir : Path) (report : LegacyReport) :
    Act LegacyError LegacyReport := do
  let mut report := report
  for jar in report.processed do
    let p ← runInto c toolkit .pack200 jar dir (nameOf jar ++ c.settings.packExtension)
    report := { report with packed := report.packed ++ [p] }
  return report

/-- The passes of signing: unsign the signed jars (if asked to), normalise them (with
pack200), then sign them. -/
def signingPasses (c : TaskSettings) (toolkit : Toolkit) (dir : Path) (jars : List Path) :
    Act LegacyError LegacyReport := do
  if c.settings.unsignAlreadySigned then unsignPass c toolkit dir jars
  if c.settings.isPack200 then normalizePass c toolkit dir jars
  signPass c toolkit dir jars {}

/-- Remove the scratch directory, if it is there. -/
def clearScratch (c : TaskSettings) : Act LegacyError Unit := do
  if ← Act.exists? c.workingDirectory then
    Act.mapError LegacyError.io (Act.removeDirAll c.workingDirectory)

/-- Process the jars staged in `dir` since `start`. -/
def processDirectory (s : Settings) (toolkit : Toolkit) (start : Nat) (dir : Path) :
    Act LegacyError LegacyReport := do
  let c := taskSettings s dir
  let staged := FileFilter.and (.and .jar .unprocessed) (.modifiedSince start)
  let unprocessed ← Act.mapError LegacyError.io (listFiles dir staged)
  if unprocessed.isEmpty then return {}
  checkUnsignPermitted s toolkit (unprocessed.map fun p => (nameOf p, p))
  let report ← if s.isSign then signingPasses c toolkit dir unprocessed
    else renamePass dir unprocessed {}
  let report ← if s.isPack200 then packPass c toolkit dir report else pure report
  clearScratch c
  return { report with processed := report.processed.mergeSort fun a b => a.text ≤ b.text }

end Legacy

end JarDeploy
