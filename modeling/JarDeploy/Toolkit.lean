import JarDeploy.Jar.Repack
import JarDeploy.Settings
import JarDeploy.Glob

/-!
# Toolkits

A toolkit performs the operations on jars that the chain needs. Two are known.

The command toolkit repacks jars itself for unsigning and manifest updates, and runs the
JDK's tools (`pack200`, `unpack200`, `jarsigner`, `keytool`) for the rest, found in the
`bin` directory of a JDK home or by name. Here no tool can be started: a tool path that
names nothing fails as not found, and one that names a file or directory fails for lack
of permission, since no file here is executable.

The scripted toolkit stands in for the JDK: it records every call, fails when a planned
failure says so, and marks files instead of transforming them. Signing puts `SIGNED:` in
front of the bytes (once), unsigning takes it off, packing puts `PACK:` in front and
unpacking requires and removes it; a manifest update copies the bytes, and a generated
keystore holds the distinguished name.
-/

namespace JarDeploy

set_option autoImplicit false

/-- The marks of the scripted toolkit. -/
def signedMark : String := "SIGNED:"
def packMark : String := "PACK:"

/-- A toolkit. -/
inductive Toolkit where
  /-- Records calls and marks files; its record lives in the world. -/
  | scripted
  /-- Runs the JDK's tools from a JDK home, or by name when there is none. -/
  | command (javaHome : Option Path)
  deriving Repr, Inhabited

/-- Does a byte string start with a mark? -/
def hasMark (b : ByteArray) (mark : String) : Bool :=
  mark.toUTF8.toList.isPrefixOf b.toList

/-- The bytes without a mark in front, if it is there. -/
def dropMark (b : ByteArray) (mark : String) : Option ByteArray :=
  if hasMark b mark then some (b.extract mark.utf8ByteSize b.size) else none

namespace Toolkit

/-- The failure a planned failure produces. -/
def plannedFailure (op : ToolOp) (message : String) : ToolError :=
  .failed op.toolName "exit status: 1" message

/-- Record a call to the scripted toolkit and apply a planned failure, if any. -/
def record (op : ToolOp) (input output : Path) : Act ToolError Unit := do
  let w ← get
  let (found, faults) := w.faults.check op input
  set { w with calls := w.calls ++ [({ op, input, output } : ToolCall)], faults }
  match found.bind (·.errorMessage) with
  | some message => throw (plannedFailure op message)
  | none => pure ()

/-- Read a file, as a tool does. -/
def readInput (p : Path) : Act ToolError ByteArray := Jar.fileStep (Act.read p)

/-- Write a tool's output, creating its directory. -/
def writeOutput (p : Path) (data : ByteArray) : Act ToolError Unit := Jar.fileStep do
  Act.createParent p
  Act.write p data

/-- Where a JDK tool is found. -/
def toolPath (javaHome : Option Path) (tool : String) : Path :=
  match javaHome with
  | some home => (home.push "bin").push tool
  | none => ⟨tool⟩

/-- Start a JDK tool; it cannot be started here. -/
def run (javaHome : Option Path) (tool : String) : Act ToolError Unit := do
  let reason := if (← Act.exists? (toolPath javaHome tool))
    then ⟨.permissionDenied, "Permission denied (os error 13)"⟩ else IoError.notFound
  throw (.spawn tool reason)

/-- Check that a tool left its output. -/
def ensureOutput (p : Path) : Act ToolError Unit := do
  if !(← Act.isFile p) then throw (.missingOutput p)

/-- The entries of a jar that the pass-file globs match, directories left out. -/
def passFileEntries (jar : Path) (patterns : List String) : Act ToolError (List String) := do
  if patterns.isEmpty then return []
  let globs ← patterns.mapM fun g => Act.ofExcept ((Glob.parse g).mapError (ToolError.pattern g))
  let names ← Jar.entryNames jar
  return names.filter fun n => !n.endsWith "/" && globs.any (·.isMatch n)

/-- Is the jar signed? -/
def isSigned (t : Toolkit) (jar : Path) : Act ToolError Bool :=
  match t with
  | .scripted => do return hasMark (← readInput jar) signedMark
  | .command _ => Jar.isSigned jar

/-- Does the jar hold an entry? The scripted toolkit looks for the text in the file. -/
def containsEntry (t : Toolkit) (jar : Path) (entry : String) : Act ToolError Bool :=
  match t with
  | .scripted => do return occursIn entry (Utf8.decodeLossy (← readInput jar))
  | .command _ => Jar.containsEntry jar entry

/-- Remove a jar's signature. -/
def unsign (t : Toolkit) (input output : Path) : Act ToolError Unit :=
  match t with
  | .scripted => do
    record .unsign input output
    let b ← readInput input
    writeOutput output ((dropMark b signedMark).getD b)
  | .command _ => do
    let _ ← Jar.unsign input output

/-- Pack a jar with pack200. -/
def pack (t : Toolkit) (input output : Path) (passFiles : List String) : Act ToolError Unit :=
  match t with
  | .scripted => do
    record .pack input output
    writeOutput output (packMark.toUTF8 ++ (← readInput input))
  | .command home => do
    Jar.fileStep (Act.createParent output)
    let _ ← passFileEntries input passFiles
    run home "pack200"
    ensureOutput output

/-- Unpack a pack200 archive into a jar. -/
def unpack (t : Toolkit) (input output : Path) : Act ToolError Unit :=
  match t with
  | .scripted => do
    record .unpack input output
    match dropMark (← readInput input) packMark with
    | some jar => writeOutput output jar
    | none => throw (.failed ToolOp.unpack.toolName "exit status: 1" "not a pack200 archive")
  | .command home => do
    Jar.fileStep (Act.createParent output)
    run home "unpack200"
    ensureOutput output

/-- Add entries to a jar's manifest. -/
def updateManifest (t : Toolkit) (input output : Path) (entries : List (String × String))
    (override : Bool) : Act ToolError Unit :=
  match t with
  | .scripted => do
    record .updateManifest input output
    writeOutput output (← readInput input)
  | .command _ => do
    let _ ← Jar.updateManifest input output entries override

/-- Sign a jar. -/
def sign (t : Toolkit) (input output : Path) : Act ToolError Unit :=
  match t with
  | .scripted => do
    record .sign input output
    let b ← readInput input
    writeOutput output (signedMark.toUTF8 ++ (dropMark b signedMark).getD b)
  | .command home => do
    Jar.fileStep (Act.createParent output)
    run home "jarsigner"
    ensureOutput output

/-- Generate a keystore. -/
def generateKeystore (t : Toolkit) (r : KeystoreRequest) : Act ToolError Unit := do
  let keystore : Path := ⟨r.identity.keystore⟩
  match t with
  | .scripted =>
    record .generateKeystore keystore keystore
    if r.deleteExisting && (← Act.exists? keystore) then Jar.fileStep (Act.removeFile keystore)
    writeOutput keystore r.dname.toUTF8
  | .command home =>
    if r.deleteExisting && (← Act.exists? keystore) then Jar.fileStep (Act.removeFile keystore)
    Jar.fileStep (Act.createParent keystore)
    run home "keytool"
    ensureOutput keystore

end Toolkit

end JarDeploy
