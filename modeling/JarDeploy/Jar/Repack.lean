import JarDeploy.Jar.Inspect
import JarDeploy.Zip.Writer

/-!
# Repacking jars

Two tools repack a jar into a new file. Unsigning drops the signature entries and the
per-entry sections of the manifest; a jar that is not signed is copied unchanged.
Updating the manifest merges entries into the main attributes (a jar without a manifest
gets a basic one, placed first).

Both read the archive's directory, then create the output, then copy the entries in
order: the manifest is written anew, every other entry is copied as stored. If an entry
cannot be read, the archive written so far is still finished into the output and the
error is reported.
-/

namespace JarDeploy.Jar

set_option autoImplicit false

/-- A file-system step of a jar tool. -/
def fileStep {α : Type} (a : Act IoError α) : Act ToolError α := Act.mapError .io a

/-- Copy entries into a writer one by one; stop at the first failure and report it with
what was written before it. -/
def copyEntries (step : Zip.Writer → Zip.Entry → Act ToolError Zip.Writer) :
    List Zip.Entry → Zip.Writer → Act ToolError (Zip.Writer × Option ToolError)
  | [], w => pure (w, none)
  | e :: es, w => do
    match ← Act.attempt (step w e) with
    | .ok w' => copyEntries step es w'
    | .error err => pure (w, some err)

/-- Create the output, fill it entry by entry from `start`, and finish it. -/
def repackInto (output : Path) (start : Zip.Writer) (entries : List Zip.Entry)
    (step : Zip.Writer → Zip.Entry → Act ToolError Zip.Writer) : Act ToolError Unit := do
  fileStep (Act.write output ByteArray.empty)
  let (w, failure) ← copyEntries step entries start
  fileStep (Act.write output w.finish)
  match failure with
  | some err => throw err
  | none => pure ()

/-- Copy an entry as stored. -/
def copyStored (input : Path) (w : Zip.Writer) (e : Zip.Entry) : Act ToolError Zip.Writer := do
  let start ← rawStart input e
  return w.copyRaw e (e.rawData (← currentBytes input) start)

/-- Copy a jar without its signature; whether there was one to remove. -/
def unsign (input output : Path) : Act ToolError Bool := do
  fileStep (Act.createParent output)
  if !(← isSigned input) then
    fileStep (Act.copy input output)
    return false
  let a ← openArchive input
  repackInto output .empty a.entries fun w e => do
    let _ ← rawStart input e
    if isSignatureEntry e.name then return w
    else if e.name == manifestEntry then
      let m ← manifestOf input e
      return w.addFile manifestEntry m.stripSections.toBytes
    else copyStored input w e
  return true

/-- Copy a jar with entries merged into its manifest; the keys that were applied. -/
def updateManifest (input output : Path) (entries : List (String × String)) (override : Bool) :
    Act ToolError (List String) := do
  let m := (← readManifest input).getD Manifest.basic
  let (m, applied) := m.merge entries override
  fileStep (Act.createParent output)
  let a ← openArchive input
  let start := if a.names.contains manifestEntry then Zip.Writer.empty
    else Zip.Writer.empty.addFile manifestEntry m.toBytes
  repackInto output start a.entries fun w e => do
    let _ ← rawStart input e
    if e.name == manifestEntry then return w.addFile manifestEntry m.toBytes
    else copyStored input w e
  return applied

end JarDeploy.Jar
