import JarDeploy.Json.Decode

/-!
# Artifacts

A resolved dependency: its coordinates (group, artifact, version, optional classifier,
type), its scope, whether it is a direct dependency, and the file the resolver produced.
Two artifacts are the same when their keys (coordinates with type) are equal.

A version is a snapshot when it ends in `SNAPSHOT` or is timestamped
(`1.0-20240102.030405-7`); the base version collapses a timestamped snapshot to
`1.0-SNAPSHOT`.
-/

namespace JarDeploy

set_option autoImplicit false

/-- A dependency scope. -/
inductive Scope where
  | compile
  | runtime
  | provided
  | test
  | system
  deriving Repr, BEq, DecidableEq, Inhabited

namespace Scope

/-- All scopes, in order. -/
def all : List Scope := [.compile, .runtime, .provided, .test, .system]

/-- The scope's name in documents. -/
def name : Scope → String
  | .compile => "compile"
  | .runtime => "runtime"
  | .provided => "provided"
  | .test => "test"
  | .system => "system"

/-- Scopes whose artifacts ship with the application. -/
def isRuntime : Scope → Bool
  | .compile | .runtime | .system => true
  | _ => false

end Scope

/-- An artifact's identity; the type is left out where it does not count. -/
structure ArtifactKey where
  groupId : String
  artifactId : String
  version : String
  classifier : Option String
  artifactType : Option String
  deriving Repr, BEq, DecidableEq, Inhabited

namespace ArtifactKey

/-- Compares optional strings, absent first. -/
def compareOption : Option String → Option String → Ordering
  | none, none => .eq
  | none, some _ => .lt
  | some _, none => .gt
  | some a, some b => compare a b

/-- Keys in order of group, artifact, version, classifier, then type. -/
def order (a b : ArtifactKey) : Ordering :=
  (compare a.groupId b.groupId).then <|
  (compare a.artifactId b.artifactId).then <|
  (compare a.version b.version).then <|
  (compareOption a.classifier b.classifier).then (compareOption a.artifactType b.artifactType)

/-- The key as a JSON object. -/
def toJson (k : ArtifactKey) : Json :=
  .obj [("group_id", .str k.groupId), ("artifact_id", .str k.artifactId), ("version", .str k.version),
    ("classifier", Json.opt .str k.classifier), ("artifact_type", Json.opt .str k.artifactType)]

end ArtifactKey

/-- A resolved dependency. -/
structure Artifact where
  groupId : String
  artifactId : String
  version : String
  classifier : Option String := none
  artifactType : String := "jar"
  scope : Scope := .compile
  file : String
  direct : Bool := true
  deriving Repr, BEq, Inhabited

/-- The file extension of an artifact type: the jar-like types share `jar`, any other type
is its own extension. -/
def extensionForType (t : String) : String :=
  if ["jar", "test-jar", "ejb-client", "ejb", "java-source", "javadoc", "maven-plugin"].contains t
  then "jar" else t

/-- Is the text made of ASCII digits only, and not empty? -/
def allDigits (s : String) : Bool := !s.isEmpty && s.all Char.isDigit

/-- The base of a timestamped snapshot version `base-yyyymmdd.hhmmss-n`. -/
def timestampedBase (version : String) : Option String :=
  let cs := version.toList
  match (cs.reverse.span (· != '-')) with
  | (build, '-' :: before) =>
    let stamp := before.reverse
    if !allDigits (String.ofList build.reverse) then none
    else if stamp.length < 16 then none
    else
      let base := stamp.take (stamp.length - 16)
      let tail := stamp.drop (stamp.length - 16)
      match tail with
      | '-' :: rest =>
        let date := rest.take 8
        let time := rest.drop 9
        if allDigits (String.ofList date) && rest[8]? == some '.' && time.length = 6 &&
            allDigits (String.ofList time) && !base.contains '\n'
        then some (String.ofList base) else none
      | _ => none
  | _ => none

namespace Artifact

/-- The identity with the type. -/
def key (a : Artifact) : ArtifactKey :=
  ⟨a.groupId, a.artifactId, a.version, a.classifier, some a.artifactType⟩

/-- The identity without the type. -/
def keyWithoutType (a : Artifact) : ArtifactKey := { a.key with artifactType := none }

/-- `group:artifact:type[:classifier]:version`. -/
def display (a : Artifact) : String :=
  a.groupId ++ ":" ++ a.artifactId ++ ":" ++ a.artifactType ++
    (match a.classifier with | some c => ":" ++ c | none => "") ++ ":" ++ a.version

/-- The file extension for the artifact's type. -/
def extension (a : Artifact) : String := extensionForType a.artifactType

/-- Does the artifact ship as a jar? -/
def isJar (a : Artifact) : Bool := a.extension == "jar"

/-- Is the version a snapshot, plain or timestamped? -/
def isSnapshot (a : Artifact) : Bool :=
  a.version.endsWith "SNAPSHOT" || (timestampedBase a.version).isSome

/-- The version with a timestamped snapshot collapsed to `base-SNAPSHOT`. -/
def baseVersion (a : Artifact) : String :=
  match timestampedBase a.version with
  | some base => base ++ "-SNAPSHOT"
  | none => a.version

/-- The artifact in its document form; an absent classifier is left out. -/
def toJson (a : Artifact) : Json :=
  .obj ([("group_id", .str a.groupId), ("artifact_id", .str a.artifactId), ("version", .str a.version)] ++
    (match a.classifier with | some c => [("classifier", .str c)] | none => []) ++
    [("type", .str a.artifactType), ("scope", .str a.scope.name), ("file", .str a.file),
      ("direct", .bool a.direct)])

/-- The members of an artifact being read. -/
structure Draft where
  groupId : Option String := none
  artifactId : Option String := none
  version : Option String := none
  classifier : Option (Option String) := none
  artifactType : Option String := none
  scope : Option Scope := none
  file : Option String := none
  direct : Option Bool := none

/-- Reads member `i` of an artifact into the draft. -/
def readMember (d : Draft) : Nat → Json.Reader Draft
  | 0 => do return { d with groupId := some (← Json.text) }
  | 1 => do return { d with artifactId := some (← Json.text) }
  | 2 => do return { d with version := some (← Json.text) }
  | 3 => do return { d with classifier := some (← Json.optional Json.text) }
  | 4 => do return { d with artifactType := some (← Json.text) }
  | 5 => do
    let i ← Json.variant (Scope.all.map Scope.name)
    return { d with scope := some ((Scope.all[i]?).getD .compile) }
  | 6 => do return { d with file := some (← Json.text "path string") }
  | _ => do return { d with direct := some (← Json.flag) }

/-- The artifact from a finished draft, or the first absent required member. -/
def Draft.finish (d : Draft) : Except String Artifact :=
  match d.groupId, d.artifactId, d.version, d.file with
  | none, _, _, _ => .error (Mismatch.missingField "group_id")
  | _, none, _, _ => .error (Mismatch.missingField "artifact_id")
  | _, _, none, _ => .error (Mismatch.missingField "version")
  | _, _, _, none => .error (Mismatch.missingField "file")
  | some g, some a, some v, some f =>
    .ok { groupId := g, artifactId := a, version := v, classifier := d.classifier.getD none,
          artifactType := d.artifactType.getD "jar", scope := d.scope.getD .compile, file := f,
          direct := d.direct.getD true }

/-- Members with a default when a positional list stops early. -/
def Draft.ended (d : Draft) : Nat → Option Draft
  | 3 => some { d with classifier := some none }
  | 4 => some { d with artifactType := some "jar" }
  | 5 => some { d with scope := some .compile }
  | 7 => some { d with direct := some true }
  | _ => none

/-- Reads an artifact from its document form. -/
def reader : Json.Reader Artifact :=
  Json.record {
    name := "struct Artifact"
    fields := ["group_id", "artifact_id", "version", "classifier", "type", "scope", "file", "direct"]
    init := {}
    field := readMember
    finish := Draft.finish
    ended := Draft.ended }

/-- Reads an artifact from a JSON value (members in key order); errors have no place. -/
def ofJson (j : Json) : Except String Artifact :=
  match Json.decodeDeep reader j.compact with
  | .ok a => .ok a
  | .error e => .error e.fault.message

end Artifact

/-- Reads the resolver's document: an object whose `artifacts` member lists artifacts. -/
def resolvedArtifactsReader : Json.Reader (List Artifact) :=
  Json.record {
    name := "struct ResolvedArtifacts"
    fields := ["artifacts"]
    init := (none : Option (List Artifact))
    field := fun _ _ => do return some (← Json.listOf Artifact.reader)
    finish := fun d => match d with
      | some xs => .ok xs
      | none => .error (Mismatch.missingField "artifacts")
    ended := fun _ _ => none }

end JarDeploy
