import JarDeploy.Artifact
import JarDeploy.Glob
import JarDeploy.Settings.Error
import JarDeploy.Text.Blank

/-!
# Artifact patterns and selection

A pattern `group[:artifact[:type[:classifier]]]` holds up to four globs, matched against
an artifact's group, artifact id, type and classifier (empty when absent); segments left
out match anything.

Selection keeps, in order, the artifacts that ship as jars, have a runtime scope, are
direct when transitive ones are excluded, match some include (when there are includes)
and no exclude, and drops any whose key was already kept.
-/

namespace JarDeploy

set_option autoImplicit false

/-- A parsed artifact pattern. -/
structure ArtifactPattern where
  source : String
  segments : List Glob
  deriving Repr, Inhabited

namespace ArtifactPattern

/-- Reads a pattern: at most four segments, none empty, each a glob. -/
def parse (pattern : String) : Except SettingsError ArtifactPattern := do
  let invalid := fun (reason : String) => SettingsError.badPattern pattern reason
  let parts := (Text.trim pattern).splitOn ":"
  if parts.length > 4 then throw (invalid "expected at most groupId:artifactId:type:classifier")
  if parts.any (·.isEmpty) then throw (invalid "empty segment")
  let globs ← parts.mapM fun p =>
    match Glob.parse p with
    | .ok g => .ok g
    | .error e => .error (invalid (e.message p))
  return ⟨pattern, globs⟩

/-- Does the pattern match the artifact? -/
def matchesArtifact (p : ArtifactPattern) (a : Artifact) : Bool :=
  let fields := [a.groupId, a.artifactId, a.artifactType, a.classifier.getD ""]
  (p.segments.zip fields).all fun (g, f) => g.isMatch f

end ArtifactPattern

/-- The rule that picks deployable artifacts. -/
structure Selector where
  includes : List ArtifactPattern
  excludes : List ArtifactPattern
  excludeTransitive : Bool
  deriving Inhabited

namespace Selector

/-- Builds a selector from pattern texts, failing on the first bad pattern (includes first). -/
def ofPatterns (includes excludes : List String) (excludeTransitive : Bool) :
    Except SettingsError Selector := do
  let inc ← includes.mapM ArtifactPattern.parse
  let exc ← excludes.mapM ArtifactPattern.parse
  return ⟨inc, exc, excludeTransitive⟩

/-- Is one artifact selected on its own? -/
def accepts (s : Selector) (a : Artifact) : Bool :=
  a.isJar && a.scope.isRuntime && (!s.excludeTransitive || a.direct) &&
    (s.includes.isEmpty || s.includes.any (·.matchesArtifact a)) &&
    !s.excludes.any (·.matchesArtifact a)

/-- Keeps the first artifact of each key. -/
def firstOfEachKey : List Artifact → List ArtifactKey → List Artifact
  | [], _ => []
  | a :: rest, seen =>
    if seen.contains a.key then firstOfEachKey rest seen
    else a :: firstOfEachKey rest (a.key :: seen)

/-- The selected artifacts, in input order, without repeated keys. -/
def select (s : Selector) (xs : List Artifact) : List Artifact :=
  firstOfEachKey (xs.filter s.accepts) []

end Selector

end JarDeploy
