import JarDeploy.CommandLine.Parse
import JarDeploy.Pipeline

/-!
# The command line

`webstart-deps` has three subcommands, sharing the options that load the configuration
(`-c` or `--config`, by default `webstart.toml`) and tune it: `--java-home` locates the JDK
tools, `--threads` replaces `max_threads`, and `--fail-fast` or `--no-fail-fast` (not
both) set `fail_fast`. Loading reads and checks the configuration, applies the options
and checks it again when building the pipeline.

* `process -a <ARTIFACTS> [--listing <LISTING>]` runs the pipeline on the resolved
  artifacts, writes the listing (indented JSON) when asked, and prints
  `<p> processed, <u> up to date, <s> signed`;
* `plan -a <ARTIFACTS> [--json]` prints each request's file name, artifact, state and
  chain of tasks (`copy` when empty), or the same as an indented JSON array;
* `legacy [-a <ARTIFACTS> | --dir <DIR>]` stages the artifacts and processes the library
  directory in single-pass mode, or, without artifacts, processes every jar staged in the
  directory (by default the library directory) whenever it was staged; it prints
  `<n> processed, <s> signed, <p> packed`.

A failure is printed as `Error: <message>` on the error stream and ends the program with
the failure's exit code; a refused command line ends it with code 2.
-/

namespace JarDeploy

set_option autoImplicit false

open CommandLine

namespace Cli

/-- The name of the program. -/
def programName : String := "webstart-deps"

/-- The flag asking for more logging, known to every command. -/
def verboseArg : ArgSpec :=
  { id := "verbose", long := "verbose", short := some 'v', help := "Log at debug level (RUST_LOG overrides)",
    order := 0 }

/-- The help flag. -/
def helpArg : ArgSpec := { id := "help", long := "help", short := some 'h', kind := .help, help := "Print help" }

/-- The version flag. -/
def versionArg : ArgSpec :=
  { id := "version", long := "version", short := some 'V', kind := .version, help := "Print version" }

/-- The options shared by the subcommands. -/
def commonArgs : List ArgSpec :=
  [{ id := "config", long := "config", short := some 'c', kind := .value "CONFIG" .path,
     help := "Path to config file", defaultValue := some "webstart.toml", order := 0 },
   { id := "java_home", long := "java-home", kind := .value "JAVA_HOME" .path,
     help := "JDK home used to locate jarsigner, keytool and pack200", order := 1 },
   { id := "threads", long := "threads", kind := .value "THREADS" .count,
     help := "Worker threads (overrides max_threads)", order := 2 },
   { id := "fail_fast", long := "fail-fast", help := "Stop starting dependencies after the first failure",
     conflicts := ["no_fail_fast"], order := 3 },
   { id := "no_fail_fast", long := "no-fail-fast", help := "Process every dependency even after failures",
     order := 4 }]

/-- The option naming the resolved artifacts. -/
def artifactsArg (required : Bool) (help : String) : ArgSpec :=
  { id := "artifacts", long := "artifacts", short := some 'a', kind := .value "ARTIFACTS" .path, help,
    required, order := 5 }

/-- A subcommand with the shared options and its own. -/
def subcommand (name about : String) (own : List ArgSpec) : String × CommandSpec :=
  (name, { path := programName ++ " " ++ name, about, args := commonArgs ++ own ++ [verboseArg, helpArg] })

/-- What `process` does. -/
def processAbout : String := "Process resolved dependencies into the final directory"

/-- What `plan` does. -/
def planAbout : String := "Show each dependency's task chain without processing"

/-- What `legacy` does. -/
def legacyAbout : String := "Single-pass processing (deprecated)"

/-- What `help` does. -/
def helpAbout : String := "Print this message or the help of the given subcommand(s)"

/-- The program's commands. -/
def program : Program where
  top := { path := programName, about := "Package dependencies for Java Web Start deployment",
           args := [verboseArg, helpArg, versionArg], version := some "0.1.0",
           subcommands := [("process", processAbout), ("plan", planAbout), ("legacy", legacyAbout),
             ("help", helpAbout)] }
  commands :=
    [subcommand "process" processAbout
      [artifactsArg true "Resolved artifacts JSON",
       { id := "listing", long := "listing", kind := .value "LISTING" .path,
         help := "Write the dependency listing here", order := 6 }],
     subcommand "plan" planAbout
      [artifactsArg true "Resolved artifacts JSON",
       { id := "json", long := "json", help := "Output in JSON format", order := 6 }],
     subcommand "legacy" legacyAbout
      [artifactsArg false
        "Resolved artifacts JSON; when omitted, only jars already staged in --dir are processed",
       { id := "dir", long := "dir", kind := .value "DIR" .path,
         help := "Directory of unprocessed jars (default: the lib directory)", order := 6 }],
     ("help", { path := programName ++ " help", about := helpAbout, args := [],
                positional := some ("[COMMAND]...", "Print help for the subcommand(s)") })]

/-- The options shared by the subcommands, as read. -/
structure Common where
  config : Path
  javaHome : Option Path
  threads : Option Nat
  failFast : Bool
  noFailFast : Bool
  deriving Inhabited

/-- The value given to an option. -/
def valueOf (given : List (String × Option String)) (id : String) : Option String :=
  match given.lookup id with
  | some v => v
  | none => none

/-- Is a flag given? -/
def flagOf (given : List (String × Option String)) (id : String) : Bool := (given.lookup id).isSome

/-- The shared options of a subcommand. -/
def Common.ofGiven (given : List (String × Option String)) : Common where
  config := ⟨(valueOf given "config").getD "webstart.toml"⟩
  javaHome := (valueOf given "java_home").map (⟨·⟩)
  threads := (valueOf given "threads").bind fun v => (readCount v).toOption
  failFast := flagOf given "fail_fast"
  noFailFast := flagOf given "no_fail_fast"

/-- Read the configuration, apply the options and build the pipeline. -/
def load (c : Common) : Act PipelineError Pipeline := do
  let text ← Act.mapError (fun e => PipelineError.config (.unreadable e)) (Act.readText c.config)
  let s ← Act.ofExcept ((Settings.load text).mapError .config)
  let s := { s with
    maxThreads := c.threads.getD s.maxThreads
    failFast := if c.noFailFast then false else if c.failFast then true else s.failFast }
  Act.ofExcept (Pipeline.create s (.command c.javaHome))

/-- Read the resolved artifacts. -/
def loadArtifacts (p : Path) : Act PipelineError (List Artifact) := do
  let text ← Act.mapError PipelineError.io (Act.readText p)
  match Json.decode resolvedArtifactsReader text with
  | .ok xs => return xs
  | .error e => throw (.io ⟨.invalidData, "JSON error: " ++ e.message⟩)

/-- Write the listing as indented JSON, creating its directory. -/
def writeListing (l : Listing) (p : Path) : Act PipelineError Unit :=
  Act.mapError (fun e => PipelineError.listing (.io e)) do
    Act.createParent p
    Act.write p (l.toJson.pretty 0).toUTF8

/-- Run the pipeline, write the listing when asked, and report the counts. -/
def process (p : Pipeline) (artifacts : Path) (listing : Option Path) : Act PipelineError String := do
  let arts ← loadArtifacts artifacts
  let report ← p.run arts
  match listing with
  | some path => writeListing report.listing path
  | none => pure ()
  let r := report.results
  return toString r.processedCount ++ " processed, " ++ toString r.uptodateCount ++ " up to date, " ++
    toString r.signedCount ++ " signed\n"

/-- A line of the plan: file name, artifact, state and chain. -/
def planLine (r : Request) : String :=
  let chain := if r.tasks.isEmpty then "copy" else " -> ".intercalate (r.tasks.map Task.name)
  r.filename ++ "  " ++ r.artifact.display ++ "  [" ++ (if r.uptodate then "up to date" else "pending") ++
    "]  " ++ chain ++ "\n"

/-- A request of the plan as JSON. -/
def planEntry (r : Request) : Json :=
  .obj [("artifact", .str r.artifact.display), ("filename", .str r.filename),
    ("tasks", Json.strList (r.tasks.map Task.name)), ("uptodate", .bool r.uptodate),
    ("final_file", .str r.finalFile.text)]

/-- Show the plan, as lines or as JSON. -/
def plan (p : Pipeline) (artifacts : Path) (json : Bool) : Act PipelineError String := do
  let requests ← p.plan (← loadArtifacts artifacts)
  if json then return (Json.arr (requests.map planEntry)).pretty 0 ++ "\n"
  return String.join (requests.map planLine)

/-- Process in single-pass mode, from artifacts or from what is staged in a directory. -/
def legacy (p : Pipeline) (artifacts dir : Option Path) : Act PipelineError String := do
  let report ← match artifacts, dir with
    | some _, some _ => throw (.config (.invalid "--artifacts and --dir cannot be combined"))
    | some path, none => p.runLegacy (← loadArtifacts path)
    | none, dir => p.processLegacyDirectory 0 (dir.getD p.settings.libDirectory)
  return toString report.processed.length ++ " processed, " ++ toString report.signedCount ++ " signed, " ++
    toString report.packed.length ++ " packed\n"

/-- Run a subcommand with what it was given; the text it prints. -/
def execute (name : String) (given : List (String × Option String)) : Act PipelineError String := do
  let p ← load (Common.ofGiven given)
  let path := fun (id : String) => (valueOf given id).map (⟨·⟩ : String → Path)
  match name with
  | "process" => process p ((path "artifacts").getD Path.empty) (path "listing")
  | "plan" => plan p ((path "artifacts").getD Path.empty) (flagOf given "json")
  | _ => legacy p (path "artifacts") (path "dir")

end Cli

/-- How a run of the program ends: its exit code and what it printed on each stream. -/
structure CliOutcome where
  exitCode : Nat
  stdout : String := ""
  stderr : String := ""
  deriving Repr, Inhabited

/-- Run the program with its arguments. -/
def Cli.run (args : List String) : Act Empty CliOutcome := do
  match program.read args with
  | .show text => return { exitCode := 0, stdout := text }
  | .refuse text => return { exitCode := 2, stderr := text }
  | .run name _ given =>
    match ← Act.attempt (Cli.execute name given) with
    | .ok out => return { exitCode := 0, stdout := out }
    | .error e => return { exitCode := e.exitCode, stderr := "Error: " ++ e.message ++ "\n" }

end JarDeploy
