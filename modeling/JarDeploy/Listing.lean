import JarDeploy.Json.Decode
import JarDeploy.Timestamp

/-!
# Dependency listings

The listing handed to the descriptor generator: one entry per deployed jar (its file
name, its reference relative to the final directory, its version when versions are in
file names, whether it holds the main class, its size and SHA-256 digest, and the name of
its packed companion), with the schema's version and identifier, the moment it was made,
the library path and the main class.
-/

namespace JarDeploy

set_option autoImplicit false

/-- The listing schema's version. -/
def listingSchemaVersion : Nat := 1

/-- The listing schema's identifier. -/
def listingSchemaId : String := "webstart-deps/dependency_listing@1"

/-- The class file of a class name: dots become separators. -/
def classEntry (mainClass : String) : String := mainClass.replace "." "/" ++ ".class"

/-- One deployed jar in a listing. -/
structure ListingEntry where
  filename : String
  href : String
  version : Option String := none
  main : Bool
  size : Nat
  sha256 : String
  packed : Option String := none
  deriving Repr, BEq, Inhabited

/-- A dependency listing. -/
structure Listing where
  schemaVersion : Nat
  schemaId : String
  createdAt : Timestamp
  libPath : Option String := none
  mainClass : Option String := none
  entries : List ListingEntry
  deriving Repr, Inhabited

namespace ListingEntry

/-- The entry's document form; absent version and companion are left out. -/
def toJson (e : ListingEntry) : Json :=
  .obj ([("filename", .str e.filename), ("href", .str e.href)] ++
    (match e.version with | some v => [("version", .str v)] | none => []) ++
    [("main", .bool e.main), ("size", .num e.size), ("sha256", .str e.sha256)] ++
    (match e.packed with | some p => [("packed", .str p)] | none => []))

/-- Members of an entry as they are read. -/
structure Draft where
  filename : Option String := none
  href : Option String := none
  version : Option (Option String) := none
  main : Option Bool := none
  size : Option Nat := none
  sha256 : Option String := none
  packed : Option (Option String) := none

/-- Reads an entry. -/
def reader : Json.Reader ListingEntry :=
  Json.record {
    name := "struct ListingEntry"
    fields := ["filename", "href", "version", "main", "size", "sha256", "packed"]
    init := ({} : Draft)
    field := fun d i => match i with
      | 0 => do return { d with filename := some (← Json.text) }
      | 1 => do return { d with href := some (← Json.text) }
      | 2 => do return { d with version := some (← Json.optional Json.text) }
      | 3 => do return { d with main := some (← Json.flag) }
      | 4 => do return { d with size := some (← Json.natural "u64" 18446744073709551615) }
      | 5 => do return { d with sha256 := some (← Json.text) }
      | _ => do return { d with packed := some (← Json.optional Json.text) }
    finish := fun d =>
      match d.filename, d.href, d.main, d.size, d.sha256 with
      | none, _, _, _, _ => .error (Mismatch.missingField "filename")
      | _, none, _, _, _ => .error (Mismatch.missingField "href")
      | _, _, none, _, _ => .error (Mismatch.missingField "main")
      | _, _, _, none, _ => .error (Mismatch.missingField "size")
      | _, _, _, _, none => .error (Mismatch.missingField "sha256")
      | some f, some h, some m, some s, some sha =>
        .ok ⟨f, h, d.version.getD none, m, s, sha, d.packed.getD none⟩
    ended := fun _ _ => none }

end ListingEntry

namespace Listing

/-- The listing's document form, with or without its creation moment. -/
def toJsonWith (withTime : Bool) (l : Listing) : Json :=
  .obj ([("schema_version", .num l.schemaVersion), ("schema_id", .str l.schemaId)] ++
    (if withTime then [("created_at", .str l.createdAt.render)] else []) ++
    (match l.libPath with | some p => [("lib_path", .str p)] | none => []) ++
    (match l.mainClass with | some c => [("main_class", .str c)] | none => []) ++
    [("entries", .arr (l.entries.map ListingEntry.toJson))])

/-- The listing's document form. -/
def toJson (l : Listing) : Json := toJsonWith true l

/-- The entry that holds the main class. -/
def mainEntry (l : Listing) : Option ListingEntry := l.entries.find? (·.main)

/-- The total size of the listed jars. -/
def totalSize (l : Listing) : Nat := l.entries.foldl (fun n e => n + e.size) 0

/-- Members of a listing as they are read. -/
structure Draft where
  schemaVersion : Option Nat := none
  schemaId : Option String := none
  createdAt : Option Timestamp := none
  libPath : Option (Option String) := none
  mainClass : Option (Option String) := none
  entries : Option (List ListingEntry) := none

/-- Reads a listing. -/
def reader : Json.Reader Listing :=
  Json.record {
    name := "struct DependencyListing"
    fields := ["schema_version", "schema_id", "created_at", "lib_path", "main_class", "entries"]
    init := ({} : Draft)
    field := fun d i => match i with
      | 0 => do return { d with schemaVersion := some (← Json.natural "u32" 4294967295) }
      | 1 => do return { d with schemaId := some (← Json.text) }
      | 2 => do
        let t ← Json.textAs "an RFC 3339 formatted date and time string" fun s =>
          match Timestamp.parse s with
          | .ok t => .ok t
          | .error e => .error e.message
        return { d with createdAt := some t }
      | 3 => do return { d with libPath := some (← Json.optional Json.text) }
      | 4 => do return { d with mainClass := some (← Json.optional Json.text) }
      | _ => do return { d with entries := some (← Json.listOf ListingEntry.reader) }
    finish := fun d =>
      match d.schemaVersion, d.schemaId, d.createdAt, d.entries with
      | none, _, _, _ => .error (Mismatch.missingField "schema_version")
      | _, none, _, _ => .error (Mismatch.missingField "schema_id")
      | _, _, none, _ => .error (Mismatch.missingField "created_at")
      | _, _, _, none => .error (Mismatch.missingField "entries")
      | some v, some i, some t, some es => .ok ⟨v, i, t, d.libPath.getD none, d.mainClass.getD none, es⟩
    ended := fun _ _ => none }

/-- Reads a listing from its text. -/
def ofText (text : String) : Except Json.ReadError Listing := Json.decode reader text

end Listing

end JarDeploy
