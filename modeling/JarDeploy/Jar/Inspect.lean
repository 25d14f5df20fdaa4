import JarDeploy.World
import JarDeploy.Manifest
import JarDeploy.Jar.Error
import JarDeploy.Jar.Signature
import JarDeploy.Zip.Archive

/-!
# Looking into jars

A jar is a zip archive. Opening one reads its central directory from the file; a file
that is missing fails as a file error, while a directory opens but cannot be read as an
archive. Entry data is read from the file as it is at that moment.

A jar is signed when one of its entries is a signature entry. Its manifest is the entry
`META-INF/MANIFEST.MF`, read as UTF-8 text; a jar without that entry has no manifest.
-/

namespace JarDeploy.Jar

set_option autoImplicit false

/-- Open the archive of a jar. -/
def openArchive (p : Path) : Act ToolError Zip.Archive := do
  match (← Act.disk).findPath p with
  | .node (.file data _) => Act.ofExcept ((Zip.Archive.read data).mapError .zip)
  | .node (.dir _) => throw (.zip (.io .isADirectory))
  | f => throw (.io (Disk.walkError f))

/-- The bytes of the jar's file as they are now; nothing if it is no longer a file. -/
def currentBytes {ε : Type} (p : Path) : Act ε ByteArray := do
  match (← Act.disk).findPath p with
  | .node (.file data _) => return data
  | _ => return ByteArray.empty

/-- Locate an entry's data without decoding it. -/
def rawStart (p : Path) (e : Zip.Entry) : Act ToolError Nat := do
  Act.ofExcept ((e.dataStart (← currentBytes p)).mapError .zip)

/-- Open an entry for decoding. -/
def openEntry (p : Path) (e : Zip.Entry) : Act ToolError Nat := do
  Act.ofExcept ((e.openData (← currentBytes p)).mapError .zip)

/-- The decoded contents of an opened entry. -/
def entryContents (p : Path) (e : Zip.Entry) (start : Nat) : Act ToolError ByteArray := do
  Act.ofExcept ((e.contents (← currentBytes p) start).mapError .io)

/-- The contents of an opened entry as text. -/
def entryText (p : Path) (e : Zip.Entry) (start : Nat) : Act ToolError String := do
  match String.fromUTF8? (← entryContents p e start) with
  | some t => return t
  | none => throw (.io ⟨.invalidData, "stream did not contain valid UTF-8"⟩)

/-- Is the jar signed? -/
def isSigned (p : Path) : Act ToolError Bool := do
  return (← openArchive p).names.any isSignatureEntry

/-- Does the jar hold an entry of this name? -/
def containsEntry (p : Path) (entry : String) : Act ToolError Bool := do
  return (← openArchive p).names.contains entry

/-- The names of the jar's entries, in order. -/
def entryNames (p : Path) : Act ToolError (List String) := do
  return (← openArchive p).names

/-- Read the manifest of a manifest entry. -/
def manifestOf (p : Path) (e : Zip.Entry) : Act ToolError Manifest := do
  let start ← openEntry p e
  let text ← entryText p e start
  Act.ofExcept ((Manifest.parse text).mapError .manifest)

/-- The jar's manifest, if it has one. -/
def readManifest (p : Path) : Act ToolError (Option Manifest) := do
  let a ← openArchive p
  match a.byName manifestEntry with
  | .error .fileNotFound => return none
  | .error e => throw (.zip e)
  | .ok e => return some (← manifestOf p e)

end JarDeploy.Jar
