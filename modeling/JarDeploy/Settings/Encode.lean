import JarDeploy.Settings
import JarDeploy.Json.Value

/-!
# Settings as JSON

The document form of settings and of what is derived from them: every member under its
configuration name, absent optional members as `null`, manifest entries as an object in
key order.
-/

namespace JarDeploy

set_option autoImplicit false

/-- A distinguished name's parts. -/
def Dname.toJson (d : Dname) : Json :=
  .obj [("cn", Json.opt .str d.cn), ("ou", Json.opt .str d.ou), ("o", Json.opt .str d.o),
    ("l", Json.opt .str d.l), ("st", Json.opt .str d.st), ("c", Json.opt .str d.c)]

/-- A signing identity. -/
def SigningIdentity.toJson (i : SigningIdentity) : Json :=
  .obj [("keystore", .str i.keystore), ("alias", .str i.keyAlias), ("storepass", .str i.storepass),
    ("keypass", Json.opt .str i.keypass), ("storetype", Json.opt .str i.storetype),
    ("tsa_url", Json.opt .str i.tsaUrl)]

/-- A keystore request. -/
def KeystoreRequest.toJson (r : KeystoreRequest) : Json :=
  .obj [("identity", r.identity.toJson), ("dname", .str r.dname), ("key_alg", .str r.keyAlg),
    ("key_size", .num r.keySize), ("validity_days", .num r.validityDays),
    ("delete_existing", .bool r.deleteExisting)]

/-- Signing settings. -/
def SignSettings.toJson (s : SignSettings) : Json :=
  .obj [("keystore", .str s.keystore), ("alias", .str s.keyAlias), ("storepass", .str s.storepass),
    ("keypass", Json.opt .str s.keypass), ("storetype", Json.opt .str s.storetype),
    ("tsa_url", Json.opt .str s.tsaUrl), ("verify", .bool s.verify), ("dname", s.dname.toJson),
    ("keystore_config", .obj [("generate", .bool s.keystoreConfig.generate),
      ("delete", .bool s.keystoreConfig.delete)]),
    ("key_alg", .str s.keyAlg), ("key_size", .num s.keySize), ("validity_days", .num s.validityDays)]

/-- The settings. -/
def Settings.toJson (s : Settings) : Json :=
  .obj [("working_directory", .str s.workingDirectory.text), ("final_directory", .str s.finalDirectory.text),
    ("lib_path", Json.opt .str s.libPath), ("filename_mapping", .str s.fileNaming.name),
    ("output_jar_versions", .bool s.outputJarVersions), ("use_unique_versions", .bool s.useUniqueVersions),
    ("exclude_transitive", .bool s.excludeTransitive),
    ("unsign_already_signed_jars", .bool s.unsignAlreadySigned), ("can_unsign", .bool s.canUnsign),
    ("override_manifest_entries", .bool s.overrideManifestEntries), ("gzip", .bool s.gzip),
    ("fail_fast", .bool s.failFast), ("max_threads", .num s.maxThreads), ("verbose", .bool s.verbose),
    ("main_class", Json.opt .str s.mainClass),
    ("pack200", .obj [("enabled", .bool s.pack200.enabled), ("pass_files", Json.strList s.pack200.passFiles)]),
    ("dependencies", .obj [("includes", Json.strList s.dependencies.includes),
      ("excludes", Json.strList s.dependencies.excludes)]),
    ("sign", Json.opt SignSettings.toJson s.sign),
    ("update_manifest_entries", .obj (s.manifestEntries.map fun (k, v) => (k, .str v)))]

end JarDeploy
