import JarDeploy.Listing
import JarDeploy.Toolkit
import JarDeploy.Checksum.Sha256

/-!
# Building a listing

A listing is built from the deployed jars in order. Each entry records the size and the
SHA-256 digest of the deployed file. When a main class is named, jars are asked in order
whether they hold its class file until one does; that jar is the main one, and a listing
whose main class no jar holds is an error. The reference of an entry is its file name,
below the library path when there is one.

Extra files are the regular files directly in the library directory that no entry names,
neither as its file nor as its packed companion.
-/

namespace JarDeploy

set_option autoImplicit false

/-- Why a listing could not be made. -/
inductive ListingError where
  | mainClassNotFound (mainClass : String)
  | inspect (path : Path) (e : ToolError)
  | io (e : IoError)
  deriving Inhabited

/-- The text of a listing error. -/
def ListingError.message : ListingError → String
  | .mainClassNotFound c => "main class " ++ c ++ " not found in any deployed jar"
  | .inspect p e => "cannot inspect " ++ p.text ++ ": " ++ e.message
  | .io e => "IO error: " ++ e.message

/-- The name of the kind of a listing error. -/
def ListingError.kind : ListingError → String
  | .mainClassNotFound _ => "MainClassNotFound"
  | .inspect _ e => "Inspect::" ++ e.kind
  | .io _ => "IoError"

/-- A jar as deployed: its file name, version, deployed file and packed companion. -/
structure DeployedJar where
  filename : String
  version : String
  finalFile : Path
  packedFile : Option Path
  deriving Inhabited

/-- The reference of a file name below the library path, if there is one. -/
def hrefOf (libPath : Option String) (filename : String) : String :=
  match libPath with
  | some lib => if lib.isEmpty then filename else (lib.dropEndWhile (fun (c : Char) => c == '/')).toString ++ "/" ++ filename
  | none => filename

/-- The timestamp of a clock reading in nanoseconds. -/
def Timestamp.ofNanos (t : Nat) : Timestamp := ⟨t / nanosPerSecond, t % nanosPerSecond⟩

namespace Listing

/-- Add the entry of one jar to the entries so far, with whether the main class is found by
now. A jar is asked whether it holds the main class only while it is not found. -/
def addJar (libPath : Option String) (outputVersions : Bool) (mainEntry : Option String)
    (toolkit : Toolkit) (acc : List ListingEntry × Bool) (jar : DeployedJar) :
    Act ListingError (List ListingEntry × Bool) := do
  let data ← Act.mapError ListingError.io (Act.read jar.finalFile)
  let main ← match mainEntry, acc.2 with
    | some entry, false =>
      Act.mapError (ListingError.inspect jar.finalFile) (toolkit.containsEntry jar.finalFile entry)
    | _, _ => pure false
  let e : ListingEntry := {
    filename := jar.filename, href := hrefOf libPath jar.filename
    version := if outputVersions then some jar.version else none
    main, size := data.size, sha256 := Sha256.hexDigest data
    packed := jar.packedFile.bind (·.fileName?) }
  return (acc.1 ++ [e], acc.2 || main)

/-- Build the listing of deployed jars. -/
def build (jars : List DeployedJar) (libPath : Option String) (outputVersions : Bool)
    (mainClass : Option String) (toolkit : Toolkit) : Act ListingError Listing := do
  let (entries, found) ← jars.foldlM (addJar libPath outputVersions (mainClass.map classEntry) toolkit) ([], false)
  match mainClass with
  | some c => if !found then throw (.mainClassNotFound c)
  | none => pure ()
  return { schemaVersion := listingSchemaVersion, schemaId := listingSchemaId
           createdAt := Timestamp.ofNanos (← Act.now), libPath, mainClass, entries }

/-- The regular files in the library directory that the listing does not name, sorted. -/
def extraFiles (l : Listing) (libDir : Path) : Act ListingError (List Path) := do
  let expected := l.entries.flatMap fun e => e.filename :: e.packed.toList
  if !(← Act.isDir libDir) then return []
  let names ← Act.mapError ListingError.io (Act.readDir libDir)
  let d ← Act.disk
  return names.filterMap fun n =>
    let p := libDir.push n
    if d.isFile p && !expected.contains n then some p else none

end Listing

end JarDeploy
