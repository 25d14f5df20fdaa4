import JarDeploy.Cli
import Std.Time

/-!
# The program

Runs the command line on the current directory. The directory tree is read into a disk,
the command runs on it with the clock set to the current time, and the changes it made are
written back: removed files and directories are removed, new directories made, and new
or changed files written. What the command printed goes to the standard streams, and its
exit code ends the program. Modification times are kept only while the command runs.
-/

open JarDeploy

/-- Nanoseconds since the epoch of a file time; earlier times count as the epoch. -/
def nanosOf (t : IO.FS.SystemTime) : Nat := t.sec.toNat * nanosPerSecond + t.nsec.toNat

/-- Read the directory of an entry into the disk, below `place`. -/
partial def loadDir (dir : IO.FS.DirEntry) (place : Place) (d : Disk) : IO Disk := do
  let mut d := d
  for e in ← dir.path.readDir do
    let md ← e.path.metadata
    let here := place ++ [e.fileName]
    match md.type with
    | .dir =>
      d := d.put here (.dir (nanosOf md.modified))
      d ← loadDir e here d
    | .file => d := d.put here (.file (← IO.FS.readBinFile e.path) (nanosOf md.modified))
    | _ => pure ()
  return d

/-- Apply one change below the working directory. -/
def applyChange (root : IO.FS.DirEntry) (c : Disk.Change) : IO Unit := do
  let under := fun (pl : Place) => pl.foldl (fun p n => p / n) root.path
  match c with
  | .remove pl true => IO.FS.removeDirAll (under pl)
  | .remove pl false => IO.FS.removeFile (under pl)
  | .makeDir pl => IO.FS.createDirAll (under pl)
  | .writeFile pl data => IO.FS.writeBinFile (under pl) data

/-- Run the command line on the current directory. -/
def main (args : List String) : IO UInt32 := do
  let root : IO.FS.DirEntry := { root := ← IO.currentDir, fileName := "." }
  let disk ← loadDir root [] .empty
  let now ← Std.Time.Timestamp.now
  let world : World := { disk, clock := now.toNanosecondsSinceUnixEpoch.val.toNat }
  let (result, after) := (Cli.run args).runOn world
  let outcome : CliOutcome := match result with
    | .ok o => o
    | .error e => nomatch e
  for c in Disk.changes disk after.disk do
    try applyChange root c catch _ => pure ()
  IO.print outcome.stdout
  IO.eprint outcome.stderr
  return outcome.exitCode.toUInt32
