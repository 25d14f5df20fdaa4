import JarDeploy.Toml.Assemble
import JarDeploy.Toml.Decode
import JarDeploy.Toml.Report
import JarDeploy.Artifact.Naming
import JarDeploy.Artifact.Pattern
import JarDeploy.Path

/-!
# Settings

The configuration of a run, read from a TOML document in which every key may be left
out: the working and final directories, the library sub-path, file naming, which tasks
apply (unsigning, pack200 normalisation, manifest entries, signing), the dependency
filter and the worker count.

A document is refused when it is not TOML, when a value has the wrong type, or when the
settings break a rule: at least one worker, distinct working and final directories, a
library path that stays inside the final directory, valid glob and artifact patterns,
manifest attribute names made of letters, digits, `-` and `_`, and a usable signing
setup. The first broken rule, in that order, is reported.
-/

namespace JarDeploy

set_option autoImplicit false

/-- The parts of a distinguished name for a generated key. -/
structure Dname where
  cn : Option String := none
  ou : Option String := none
  o : Option String := none
  l : Option String := none
  st : Option String := none
  c : Option String := none
  deriving Repr, BEq, Inhabited

namespace Dname

/-- The parts with their tags, in order. -/
def tagged (d : Dname) : List (String × Option String) :=
  [("CN", d.cn), ("OU", d.ou), ("O", d.o), ("L", d.l), ("ST", d.st), ("C", d.c)]

/-- Escapes the separator inside a part. -/
def escapePart (v : String) : String := v.foldl (fun acc ch => if ch = ',' then acc ++ "\\," else acc.push ch) ""

/-- `CN=…, OU=…` over the parts that are set, commas inside a part escaped. -/
def render (d : Dname) : String :=
  ", ".intercalate (d.tagged.filterMap fun (tag, v) => v.map fun v => tag ++ "=" ++ escapePart v)

/-- No part is set. -/
def isEmpty (d : Dname) : Bool := d.render.isEmpty

end Dname

/-- Whether to create the keystore, and whether to replace an existing one. -/
structure KeystoreSettings where
  generate : Bool := false
  delete : Bool := false
  deriving Repr, BEq, Inhabited

/-- How jars are signed. -/
structure SignSettings where
  keystore : String
  keyAlias : String
  storepass : String
  keypass : Option String := none
  storetype : Option String := none
  tsaUrl : Option String := none
  verify : Bool := false
  dname : Dname := {}
  keystoreConfig : KeystoreSettings := {}
  keyAlg : String := "RSA"
  keySize : Nat := 2048
  validityDays : Nat := 365
  deriving Repr, Inhabited

/-- The identity a signing tool uses. -/
structure SigningIdentity where
  keystore : String
  keyAlias : String
  storepass : String
  keypass : Option String
  storetype : Option String
  tsaUrl : Option String
  deriving Repr, Inhabited

/-- What a keystore generator is asked to make. -/
structure KeystoreRequest where
  identity : SigningIdentity
  dname : String
  keyAlg : String
  keySize : Nat
  validityDays : Nat
  deleteExisting : Bool
  deriving Repr, Inhabited

namespace SignSettings

/-- The signing identity. -/
def identity (s : SignSettings) : SigningIdentity :=
  ⟨s.keystore, s.keyAlias, s.storepass, s.keypass, s.storetype, s.tsaUrl⟩

/-- The keystore to generate, when generation is asked for. -/
def keystoreRequest (s : SignSettings) : Option KeystoreRequest :=
  if s.keystoreConfig.generate then
    some ⟨s.identity, s.dname.render, s.keyAlg, s.keySize, s.validityDays, s.keystoreConfig.delete⟩
  else none

/-- The first rule of signing that is broken. -/
def check (s : SignSettings) : Except SettingsError Unit :=
  if s.keystore.isEmpty then .error (.invalid "sign.keystore must not be empty")
  else if (Text.trim s.keyAlias).isEmpty then .error (.invalid "sign.alias must not be empty")
  else if s.keystoreConfig.generate && s.dname.isEmpty then
    .error (.invalid "sign.dname is required to generate a keystore")
  else .ok ()

end SignSettings

/-- Pack200 normalisation and the files it leaves alone. -/
structure Pack200Settings where
  enabled : Bool := false
  passFiles : List String := []
  deriving Repr, Inhabited

/-- Include and exclude patterns for dependencies. -/
structure DependencyFilter where
  includes : List String := []
  excludes : List String := []
  deriving Repr, Inhabited

/-- The settings of a run. -/
structure Settings where
  workingDirectory : Path := ⟨"target/jnlp-work"⟩
  finalDirectory : Path := ⟨"target/jnlp"⟩
  libPath : Option String := none
  fileNaming : FileNaming := .simple
  outputJarVersions : Bool := false
  useUniqueVersions : Bool := false
  excludeTransitive : Bool := false
  unsignAlreadySigned : Bool := false
  canUnsign : Bool := true
  overrideManifestEntries : Bool := false
  gzip : Bool := false
  failFast : Bool := true
  maxThreads : Nat := 4
  verbose : Bool := false
  mainClass : Option String := none
  pack200 : Pack200Settings := {}
  dependencies : DependencyFilter := {}
  sign : Option SignSettings := none
  manifestEntries : List (String × String) := []
  deriving Repr, Inhabited

namespace Settings

/-- Is signing configured? -/
def isSign (s : Settings) : Bool := s.sign.isSome

/-- Is pack200 normalisation enabled? -/
def isPack200 (s : Settings) : Bool := s.pack200.enabled

/-- Where deployed jars go: the final directory, or the library path below it. -/
def libDirectory (s : Settings) : Path :=
  match s.libPath with
  | some lib => if lib.isEmpty then s.finalDirectory else s.finalDirectory.push lib
  | none => s.finalDirectory

/-- The extension of packed companions. -/
def packExtension (s : Settings) : String := if s.gzip then ".pack.gz" else ".pack"

/-- Is the manifest attribute name well formed? -/
def validAttributeName (k : String) : Bool :=
  !k.isEmpty && k.toList.all fun ch => ch.isAlphanum || ch = '-' || ch = '_'

/-- The first broken rule, if any. -/
def check (s : Settings) : Except SettingsError Unit := do
  if s.maxThreads = 0 then throw (.invalid "max_threads must be at least 1")
  if s.workingDirectory.same s.finalDirectory then
    throw (.invalid "working_directory and final_directory must differ")
  if let some lib := s.libPath then
    if (Path.parts ⟨lib⟩).any (fun p => p == .root || p == .parent) then
      throw (.invalid ("lib_path must be relative and stay inside final_directory: " ++ lib))
  for p in s.pack200.passFiles do
    match Glob.parse p with
    | .ok _ => pure ()
    | .error e => throw (.badPattern p (e.message p))
  for p in s.dependencies.includes ++ s.dependencies.excludes do
    let _ ← ArtifactPattern.parse p
  for (k, _) in s.manifestEntries do
    if !validAttributeName k then throw (.invalid ("invalid manifest attribute name: " ++ Text.debugQuote k))
  if let some sg := s.sign then sg.check

end Settings

namespace SettingsDecoding

open Toml

/-- Reads an optional string member. -/
def optString : Decoder (Option String) := fun it => (Decoder.string) it |>.map some

/-- The distinguished name: every part optional. -/
def dname : Decoder Dname :=
  Decoder.record {
    name := "struct Dname", fields := ["cn", "ou", "o", "l", "st", "c"], init := ({} : Dname)
    field := fun d i it => do
      let v ← optString it
      return match i with
        | 0 => { d with cn := v } | 1 => { d with ou := v } | 2 => { d with o := v }
        | 3 => { d with l := v } | 4 => { d with st := v } | _ => { d with c := v }
    finish := .ok, ended := fun d _ => some d }

/-- Keystore generation switches. -/
def keystoreSettings : Decoder KeystoreSettings :=
  Decoder.record {
    name := "struct KeystoreConfig", fields := ["generate", "delete"], init := ({} : KeystoreSettings)
    field := fun d i it => do
      let v ← Decoder.boolean it
      return if i = 0 then { d with generate := v } else { d with delete := v }
    finish := .ok, ended := fun d _ => some d }

/-- Signing members as they are read. -/
structure SignDraft where
  keystore : Option String := none
  keyAlias : Option String := none
  storepass : Option String := none
  rest : SignSettings := ⟨"", "", "", none, none, none, false, {}, {}, "RSA", 2048, 365⟩

/-- The signing settings: keystore, alias and store password are required. -/
def signSettings : Decoder SignSettings :=
  Decoder.record {
    name := "struct SignConfig"
    fields := ["keystore", "alias", "storepass", "keypass", "storetype", "tsa_url", "verify", "dname",
      "keystore_config", "key_alg", "key_size", "validity_days"]
    init := ({} : SignDraft)
    field := fun d i it =>
      let r := d.rest
      match i with
      | 0 => do return { d with keystore := some (← Decoder.stringAs "path string" it) }
      | 1 => do return { d with keyAlias := some (← Decoder.string it) }
      | 2 => do return { d with storepass := some (← Decoder.string it) }
      | 3 => do return { d with rest := { r with keypass := ← optString it } }
      | 4 => do return { d with rest := { r with storetype := ← optString it } }
      | 5 => do return { d with rest := { r with tsaUrl := ← optString it } }
      | 6 => do return { d with rest := { r with verify := ← Decoder.boolean it } }
      | 7 => do return { d with rest := { r with dname := ← dname it } }
      | 8 => do return { d with rest := { r with keystoreConfig := ← keystoreSettings it } }
      | 9 => do return { d with rest := { r with keyAlg := ← Decoder.string it } }
      | 10 => do return { d with rest := { r with keySize := ← Decoder.natural "u32" 4294967295 it } }
      | _ => do return { d with rest := { r with validityDays := ← Decoder.natural "u32" 4294967295 it } }
    finish := fun d =>
      match d.keystore, d.keyAlias, d.storepass with
      | none, _, _ => .error (Mismatch.missingField "keystore")
      | _, none, _ => .error (Mismatch.missingField "alias")
      | _, _, none => .error (Mismatch.missingField "storepass")
      | some k, some a, some p => .ok { d.rest with keystore := k, keyAlias := a, storepass := p }
    ended := fun d i => if i < 3 then none else some d }

/-- Pack200 settings. -/
def pack200Settings : Decoder Pack200Settings :=
  Decoder.record {
    name := "struct Pack200Config", fields := ["enabled", "pass_files"], init := ({} : Pack200Settings)
    field := fun d i it =>
      if i = 0 then do return { d with enabled := ← Decoder.boolean it }
      else do return { d with passFiles := ← Decoder.list (Decoder.string) it }
    finish := .ok, ended := fun d _ => some d }

/-- Dependency include and exclude patterns. -/
def dependencyFilter : Decoder DependencyFilter :=
  Decoder.record {
    name := "struct DependencyFilterConfig", fields := ["includes", "excludes"], init := ({} : DependencyFilter)
    field := fun d i it => do
      let v ← Decoder.list (Decoder.string) it
      return if i = 0 then { d with includes := v } else { d with excludes := v }
    finish := .ok, ended := fun d _ => some d }

/-- The names of the settings' members, in order. -/
def settingsFields : List String :=
  ["working_directory", "final_directory", "lib_path", "filename_mapping", "output_jar_versions",
    "use_unique_versions", "exclude_transitive", "unsign_already_signed_jars", "can_unsign",
    "override_manifest_entries", "gzip", "fail_fast", "max_threads", "verbose", "main_class", "pack200",
    "dependencies", "sign", "update_manifest_entries"]

/-- Reads member `i` of the settings. -/
def settingsField (s : Settings) (i : Nat) : Decoder Settings := fun it =>
  match i with
  | 0 => do return { s with workingDirectory := ⟨← Decoder.stringAs "path string" it⟩ }
  | 1 => do return { s with finalDirectory := ⟨← Decoder.stringAs "path string" it⟩ }
  | 2 => do return { s with libPath := ← optString it }
  | 3 => do
    let k ← Decoder.variant ["simple", "full"] it
    return { s with fileNaming := if k = 0 then .simple else .full }
  | 4 => do return { s with outputJarVersions := ← Decoder.boolean it }
  | 5 => do return { s with useUniqueVersions := ← Decoder.boolean it }
  | 6 => do return { s with excludeTransitive := ← Decoder.boolean it }
  | 7 => do return { s with unsignAlreadySigned := ← Decoder.boolean it }
  | 8 => do return { s with canUnsign := ← Decoder.boolean it }
  | 9 => do return { s with overrideManifestEntries := ← Decoder.boolean it }
  | 10 => do return { s with gzip := ← Decoder.boolean it }
  | 11 => do return { s with failFast := ← Decoder.boolean it }
  | 12 => do return { s with maxThreads := ← Decoder.natural "usize" 18446744073709551615 it }
  | 13 => do return { s with verbose := ← Decoder.boolean it }
  | 14 => do return { s with mainClass := ← optString it }
  | 15 => do return { s with pack200 := ← pack200Settings it }
  | 16 => do return { s with dependencies := ← dependencyFilter it }
  | 17 => do return { s with sign := some (← signSettings it) }
  | _ => do return { s with manifestEntries := ← Decoder.stringMap it }

/-- The settings from a document's root table. -/
def settings : Decoder Settings :=
  Decoder.record {
    name := "struct GlobalConfig", fields := settingsFields, init := ({} : Settings)
    field := settingsField, finish := .ok, ended := fun d _ => some d }

end SettingsDecoding

namespace Settings

/-- Reads settings from TOML text, without checking the rules. -/
def decode (text : String) : Except SettingsError Settings :=
  match Toml.parseDocument text with
  | .error (.at_ f) =>
    .error (.malformed (Toml.report text (some (Toml.problemSpan text.toUTF8 f.offset)) f.message []))
  | .error (.clash c) => .error (.malformed (Toml.report text none c.message []))
  | .ok root =>
    match SettingsDecoding.settings (.table root none false false) with
    | .ok s => .ok s
    | .error e => .error (.malformed (Toml.report text e.span e.message e.keys))

/-- Reads settings from TOML text and checks the rules. -/
def load (text : String) : Except SettingsError Settings := do
  let s ← decode text
  s.check
  return s

end Settings

end JarDeploy
