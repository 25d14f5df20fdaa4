import JarDeploy.Artifact

/-!
# Deployed file names

An artifact is deployed as `[group-]artifact[-classifier][-version].extension`: the
group only under the full naming, the classifier when present and not empty, the
version only when asked for (its base form unless unique versions are wanted).
-/

namespace JarDeploy

set_option autoImplicit false

/-- How deployed files are named. -/
inductive FileNaming where
  | simple
  | full
  deriving Repr, BEq, DecidableEq, Inhabited

namespace FileNaming

/-- The naming's name in configuration files. -/
def name : FileNaming → String
  | .simple => "simple"
  | .full => "full"

/-- The file name of an artifact; `withVersion = some true` embeds the version. -/
def fileName (n : FileNaming) (a : Artifact) (withVersion : Option Bool) (unique : Bool) : String :=
  let prefix_ := match n with
    | .simple => ""
    | .full => a.groupId ++ "-"
  let classifier := match a.classifier with
    | some c => if c.isEmpty then "" else "-" ++ c
    | none => ""
  let version :=
    if withVersion == some true then "-" ++ (if unique then a.version else a.baseVersion) else ""
  prefix_ ++ a.artifactId ++ classifier ++ version ++ "." ++ a.extension

end FileNaming

/-- A file name without its last extension, unless nothing would be left. -/
def fileBasename (name : String) : String :=
  match (name.toList.splitOn '.').map String.ofList |>.reverse with
  | [] | [_] => name
  | _ :: before =>
    let stem := ".".intercalate before.reverse
    if stem.isEmpty then name else stem

end JarDeploy
