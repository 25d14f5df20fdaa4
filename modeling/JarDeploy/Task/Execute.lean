import JarDeploy.Task
import JarDeploy.Toolkit

/-!
# Running a task

A task runs on one input file and writes its output into its stage directory, under the
name the task gives it. The settings must enable the task; the input must be a regular
file with a name, ending in `.jar` unless the task is unpacking; the output name must
exist and the output must not be the input itself. The toolkit then does the work, and
the task fails unless the output is there afterwards.
-/

namespace JarDeploy.Task

set_option autoImplicit false

/-- Run a tool operation of a task, its failure becoming the task's. -/
def viaTool {α : Type} (t : Task) (a : Act ToolError α) : Act TaskError α :=
  Act.mapError (TaskError.tool t) a

/-- Run a task on `input`, writing into `stageDir`; the path of the output. -/
def execute (t : Task) (c : TaskSettings) (toolkit : Toolkit) (input stageDir : Path) :
    Act TaskError Path := do
  Act.ofExcept (t.check c)
  let unexpected : TaskError := .unexpectedInput t input
  if !(← Act.isFile input) then throw unexpected
  let some inputName := input.fileName? | throw unexpected
  if t != .unpack200 && !inputName.endsWith ".jar" then throw unexpected
  let some outputName := t.outputName c inputName | throw unexpected
  Act.mapError TaskError.io (Act.createDirAll stageDir)
  let output := stageDir.push outputName
  if output.same input then throw unexpected
  let s := c.settings
  match t with
  | .unsign => viaTool t (toolkit.unsign input output)
  | .pack200 => viaTool t (toolkit.pack input output s.pack200.passFiles)
  | .unpack200 => viaTool t (toolkit.unpack input output)
  | .updateManifest =>
    viaTool t (toolkit.updateManifest input output s.manifestEntries s.overrideManifestEntries)
  | .sign =>
    if s.sign.isNone then throw (.precondition .sign "signing is not configured")
    viaTool t (toolkit.sign input output)
  if !(← Act.isFile output) then throw (.tool t (.missingOutput output))
  return output

end JarDeploy.Task
