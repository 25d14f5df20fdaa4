import JarDeploy.Batch
import JarDeploy.Proofs.Chain
import JarDeploy.Proofs.Tools

/-!
# The files of a chain

Stage `i` of a request's chain works in its own directory `<working>/<i>_<Task>`: it reads
a copy of what it is handed under `input/` there, and writes its output there. It is
handed the original copy `<working>/<name>` first, then each stage's output. The files
are named after the deployed name: a packing stage adds the pack extension and the
unpacking stage after it takes it off again, so the name a stage is handed is the
deployed name, with the pack extension right after a packing stage.

The last jar of the chain is the output of its last stage that does not pack, or the
original copy when every stage packs (or there is none).

These places never collide: stage directories differ by position, a stage's files lie in
its own directory, and the original copy lies beside the stage directories, since a jar's
name ends in `.jar` and a stage directory's name in a task's name.
-/

namespace JarDeploy

set_option autoImplicit false

/-! ## Names -/

theorem getLast?_toList_append (s : String) {t : String} (ht : t ≠ "") :
    (s ++ t).toList.getLast? = t.toList.getLast? := by
  rw [String.toList_append, List.getLast?_append_of_ne_nil _ (by simpa using ht)]

theorem getLast?_of_endsWith_jar {n : String} (h : n.endsWith ".jar" = true) :
    n.toList.getLast? = some 'r' := by
  obtain ⟨l, hl⟩ := endsWith_iff_suffix.1 h
  rw [← hl]
  simp

/-- A name that is not empty, holds no separator and does not end with a dot is one
component of a path. -/
theorem Path.goodName_of_getLast? {n : String} {c : Char} (hs : '/' ∉ n.toList)
    (hl : n.toList.getLast? = some c) (hc : c ≠ '.') : Path.GoodName n := by
  refine ⟨?_, ?_, ?_, hs⟩ <;> rintro rfl <;> simp at hl
  · exact hc hl.symm
  · exact hc hl.symm

theorem toString_append_underscore_inj {i j : Nat} {a b : String}
    (h : toString i ++ "_" ++ a = toString j ++ "_" ++ b) : i = j := by
  have hl := congrArg (fun s : String => (s.toList.splitOn '_').head?) h
  simp only [String.toList_append, Nat.toString_eq_repr, Nat.toList_repr, List.append_assoc] at hl
  have hsplit : ∀ k (c : String), (Nat.toDigits 10 k ++ ("_".toList ++ c.toList)).splitOn '_' =
      Nat.toDigits 10 k :: c.toList.splitOn '_' := fun k c =>
    List.splitOn_append_cons_self_of_not_mem Nat.underscore_not_in_toDigits _
  rw [hsplit, hsplit] at hl
  have hd : Nat.toDigits 10 i = Nat.toDigits 10 j := by simpa using hl
  simpa [Nat.ofDigitChars_ten_toDigits] using congrArg (fun ds => Nat.ofDigitChars 10 ds 0) hd

theorem slash_not_mem_toDigits (i : Nat) : '/' ∉ Nat.toDigits 10 i := by
  intro h
  have := Nat.isDigit_of_mem_toDigits (by decide) (by decide) h
  simp at this

namespace Task

theorem name_getLast? (t : Task) :
    t.name.toList.getLast? = some 'n' ∨ t.name.toList.getLast? = some '0' ∨
      t.name.toList.getLast? = some 't' := by
  cases t <;> decide

theorem slash_not_mem_name (t : Task) : '/' ∉ t.name.toList := by
  cases t <;> decide

theorem name_ne_empty (t : Task) : t.name ≠ "" := by
  cases t <;> decide

end Task

namespace TaskSettings

/-- In a planned chain, a task unpacks exactly when it follows a packing task. -/
theorem plan_unpack_iff (c : TaskSettings) (alreadySigned : Bool) :
    ∀ i (h : i < (c.plan alreadySigned).length),
      (c.plan alreadySigned)[i] = .unpack200 ↔ 0 < i ∧ (c.plan alreadySigned)[i - 1]? = some .pack200 := by
  have hshape := c.plan_shape alreadySigned
  unfold ChainShape at hshape
  split at hshape
  · obtain ⟨u, p, m, q, h⟩ := hshape
    rw [h]
    cases u <;> cases p <;> cases m <;> cases q <;> decide
  · rcases hshape with h | h <;> rw [h] <;> decide

end TaskSettings

/-! ## The places of a chain -/

namespace Request

variable (r : Request)

/-- The name of the file stage `i` is handed, which stage `i - 1` leaves: the deployed name,
with the pack extension right after a packing stage. -/
def nameAt : Nat → String
  | 0 => r.filename
  | i + 1 => if r.tasks[i]? = some .pack200 then r.filename ++ r.config.settings.packExtension
    else r.filename

/-- The directory of stage `i` is named after its position and its task. -/
def stageName (i : Nat) : String := toString i ++ "_" ++ (r.tasks.getD i default).name

/-- The directory of stage `i`. -/
def stageDir (i : Nat) : Path := r.config.workingDirectory.push (r.stageName i)

/-- Stage `i` reads a copy under `input/` of its directory. -/
def inputPath (i : Nat) : Path := ((r.stageDir i).push "input").push (r.nameAt i)

/-- Stage `i` writes its output into its directory. -/
def outputPath (i : Nat) : Path := (r.stageDir i).push (r.nameAt (i + 1))

/-- What stage `i` is handed: the original copy, then the previous stage's output. -/
def sourcePath : Nat → Path
  | 0 => r.originalFile
  | i + 1 => r.outputPath i

/-- The call stage `i` makes to the toolkit. -/
def toolCall (i : Nat) : ToolCall := ⟨(r.tasks.getD i default).toolOp, r.inputPath i, r.outputPath i⟩

/-- The calls of the chain, in order. -/
def toolCalls : List ToolCall := (List.range r.tasks.length).map r.toolCall

/-- The last jar among the first `i` outputs: the output of the last of those stages that
does not pack, or the original copy. -/
def lastJarBefore : Nat → Path
  | 0 => r.originalFile
  | i + 1 => if r.tasks[i]? = some .pack200 then lastJarBefore i else r.outputPath i

/-- The last jar of the chain. -/
def lastJar : Path := r.lastJarBefore r.tasks.length

/-- The files of the chain: the original copy and every stage's input and output. -/
def files : List Path :=
  r.originalFile :: (List.range r.tasks.length).flatMap fun i => [r.inputPath i, r.outputPath i]

/-- What the chain's stages rely on in a request: the working directory never steps back,
the original copy lies in it under the deployed name, that name is one component ending in
`.jar` and more than that, and each task fits the name it is handed and names its output
as the next stage expects. -/
structure Layout : Prop where
  plain : r.config.workingDirectory.Plain
  original : r.originalFile = r.config.workingDirectory.push r.filename
  slash : '/' ∉ r.filename.toList
  jar : r.filename.endsWith ".jar" = true
  fits : ∀ i (h : i < r.tasks.length), r.tasks[i].Fits r.config (r.nameAt i) ∧
    r.tasks[i].outputName r.config (r.nameAt i) = some (r.nameAt (i + 1))

variable {r}

theorem nameAt_eq (i : Nat) : r.nameAt i = r.filename ∨ r.nameAt i = r.filename ++ r.config.settings.packExtension := by
  cases i with
  | zero => exact .inl rfl
  | succ i =>
    simp only [nameAt]
    split
    · exact .inr rfl
    · exact .inl rfl

end Request

namespace Settings

theorem packExtension_getLast? (s : Settings) :
    s.packExtension.toList.getLast? = some 'k' ∨ s.packExtension.toList.getLast? = some 'z' := by
  unfold packExtension
  split
  · exact .inr (by decide)
  · exact .inl (by decide)

theorem packExtension_ne_empty (s : Settings) : s.packExtension ≠ "" := by
  unfold packExtension
  split <;> decide

theorem slash_not_mem_packExtension (s : Settings) : '/' ∉ s.packExtension.toList := by
  unfold packExtension
  split <;> decide

end Settings

namespace Request.Layout

variable {r : Request} (hl : r.Layout)
include hl

/-- The name a stage is handed ends in `r`, `k` or `z`: in `.jar`, `.pack` or `.gz`. -/
theorem nameAt_getLast? (i : Nat) :
    (r.nameAt i).toList.getLast? = some 'r' ∨ (r.nameAt i).toList.getLast? = some 'k' ∨
      (r.nameAt i).toList.getLast? = some 'z' := by
  rcases nameAt_eq (r := r) i with h | h <;> rw [h]
  · exact .inl (getLast?_of_endsWith_jar hl.jar)
  · rw [getLast?_toList_append _ (Settings.packExtension_ne_empty _)]
    exact .inr (Settings.packExtension_getLast? _)

theorem goodName_nameAt (i : Nat) : Path.GoodName (r.nameAt i) := by
  have hs : '/' ∉ (r.nameAt i).toList := by
    rcases nameAt_eq (r := r) i with h | h <;> rw [h]
    · exact hl.slash
    · simpa using ⟨hl.slash, Settings.slash_not_mem_packExtension _⟩
  rcases hl.nameAt_getLast? i with h | h | h <;> exact Path.goodName_of_getLast? hs h (by decide)

theorem goodName_packed : Path.GoodName (r.filename ++ r.config.settings.packExtension) := by
  have hs : '/' ∉ (r.filename ++ r.config.settings.packExtension).toList := by
    simpa using ⟨hl.slash, Settings.slash_not_mem_packExtension _⟩
  have hlast := getLast?_toList_append r.filename (Settings.packExtension_ne_empty r.config.settings)
  rcases Settings.packExtension_getLast? r.config.settings with h | h <;>
    exact Path.goodName_of_getLast? hs (hlast.trans h) (by decide)

theorem nameAt_ne_input (i : Nat) : r.nameAt i ≠ "input" := by
  intro h
  have hlast := hl.nameAt_getLast? i
  rw [h] at hlast
  revert hlast
  decide

end Request.Layout

namespace Request

variable {r : Request}

theorem stageName_getLast? (i : Nat) :
    (r.stageName i).toList.getLast? = some 'n' ∨ (r.stageName i).toList.getLast? = some '0' ∨
      (r.stageName i).toList.getLast? = some 't' := by
  rw [stageName, getLast?_toList_append _ (Task.name_ne_empty _)]
  exact Task.name_getLast? _

theorem goodName_stageName (i : Nat) : Path.GoodName (r.stageName i) := by
  have hs : '/' ∉ (r.stageName i).toList := by
    simpa [stageName] using ⟨slash_not_mem_toDigits i, Task.slash_not_mem_name _⟩
  rcases stageName_getLast? (r := r) i with h | h | h <;> exact Path.goodName_of_getLast? hs h (by decide)

/-- Stage directories differ by position. -/
theorem stageName_inj {i j : Nat} (h : r.stageName i = r.stageName j) : i = j :=
  toString_append_underscore_inj (by simpa only [stageName] using h)

theorem goodName_input : Path.GoodName "input" := by
  refine Path.goodName_of_getLast? (c := 't') ?_ ?_ ?_ <;> decide

@[simp] theorem names_stageDir (i : Nat) :
    (r.stageDir i).names = r.config.workingDirectory.names ++ [r.stageName i] :=
  Path.names_push _ (goodName_stageName i)

end Request

theorem prefix_append_singleton {W rest : List String} {a b : String} (h : W ++ [a] <+: W ++ b :: rest) :
    a = b := by
  rw [List.prefix_append_right_inj, List.cons_prefix_cons] at h
  exact h.1

namespace Request.Layout

variable {r : Request} (hl : r.Layout)
include hl

theorem goodName_filename : Path.GoodName r.filename := hl.goodName_nameAt 0

@[simp] theorem names_inputPath (i : Nat) :
    (r.inputPath i).names = r.config.workingDirectory.names ++ [r.stageName i, "input", r.nameAt i] := by
  simp [inputPath, Path.names_push _ (hl.goodName_nameAt i), Path.names_push _ goodName_input,
    Path.names_push _ (goodName_stageName i), stageDir]

@[simp] theorem names_outputPath (i : Nat) :
    (r.outputPath i).names = r.config.workingDirectory.names ++ [r.stageName i, r.nameAt (i + 1)] := by
  simp [outputPath, Path.names_push _ (hl.goodName_nameAt (i + 1)),
    Path.names_push _ (goodName_stageName i), stageDir]

@[simp] theorem names_originalFile : r.originalFile.names = r.config.workingDirectory.names ++ [r.filename] := by
  rw [hl.original, Path.names_push _ hl.goodName_filename]

theorem plain_stageDir (i : Nat) : (r.stageDir i).Plain :=
  (Path.plain_push _ (goodName_stageName i)).2 hl.plain

theorem plain_inputPath (i : Nat) : (r.inputPath i).Plain := by
  rw [inputPath, Path.plain_push _ (hl.goodName_nameAt i), Path.plain_push _ goodName_input]
  exact hl.plain_stageDir i

theorem plain_outputPath (i : Nat) : (r.outputPath i).Plain := by
  rw [outputPath, Path.plain_push _ (hl.goodName_nameAt (i + 1))]
  exact hl.plain_stageDir i

theorem plain_originalFile : r.originalFile.Plain := by
  rw [hl.original, Path.plain_push _ hl.goodName_filename]
  exact hl.plain

theorem plain_sourcePath (i : Nat) : (r.sourcePath i).Plain := by
  cases i with
  | zero => exact hl.plain_originalFile
  | succ i => exact hl.plain_outputPath i

theorem fileName?_sourcePath (i : Nat) : (r.sourcePath i).fileName? = some (r.nameAt i) := by
  cases i with
  | zero =>
    rw [sourcePath, hl.original, Path.fileName?_push _ hl.goodName_filename]
    rfl
  | succ i => exact Path.fileName?_push _ (hl.goodName_nameAt (i + 1))

theorem fileName?_inputPath (i : Nat) : (r.inputPath i).fileName? = some (r.nameAt i) :=
  Path.fileName?_push _ (hl.goodName_nameAt i)

theorem stageName_ne_filename (i : Nat) : r.stageName i ≠ r.filename := by
  intro h
  have hf := hl.nameAt_getLast? 0
  simp only [nameAt, ← h] at hf
  rcases stageName_getLast? (r := r) i with h' | h' | h' <;> rw [h'] at hf <;> simp at hf

/-! ## Stage directories hold their own files only -/

theorem prefix_inputPath (i : Nat) : (r.stageDir i).names <+: (r.inputPath i).names := by
  rw [names_stageDir, hl.names_inputPath]
  exact ⟨["input", r.nameAt i], by simp⟩

theorem prefix_outputPath (i : Nat) : (r.stageDir i).names <+: (r.outputPath i).names := by
  rw [names_stageDir, hl.names_outputPath]
  exact ⟨[r.nameAt (i + 1)], by simp⟩

theorem not_prefix_originalFile (i : Nat) : ¬ (r.stageDir i).names <+: r.originalFile.names := by
  rw [names_stageDir, hl.names_originalFile]
  exact fun h => hl.stageName_ne_filename i (prefix_append_singleton h)

theorem not_prefix_inputPath {i j : Nat} (h : j ≠ i) : ¬ (r.stageDir i).names <+: (r.inputPath j).names := by
  rw [names_stageDir, hl.names_inputPath]
  exact fun hp => h (stageName_inj (prefix_append_singleton hp)).symm

theorem not_prefix_outputPath {i j : Nat} (h : j ≠ i) : ¬ (r.stageDir i).names <+: (r.outputPath j).names := by
  rw [names_stageDir, hl.names_outputPath]
  exact fun hp => h (stageName_inj (prefix_append_singleton hp)).symm

/-- What a stage is handed lies outside its directory. -/
theorem not_prefix_sourcePath (i : Nat) : ¬ (r.stageDir i).names <+: (r.sourcePath i).names := by
  cases i with
  | zero => exact hl.not_prefix_originalFile 0
  | succ i => exact hl.not_prefix_outputPath (by omega)

theorem inputPath_ne_outputPath (i j : Nat) : (r.inputPath i).names ≠ (r.outputPath j).names := by
  rw [hl.names_inputPath, hl.names_outputPath]
  intro h
  simpa using congrArg List.length h

theorem sourcePath_ne_inputPath (i : Nat) : (r.sourcePath i).names ≠ (r.inputPath i).names := by
  intro h
  apply hl.not_prefix_sourcePath i
  rw [h]
  exact hl.prefix_inputPath i

theorem sourcePath_ne_outputPath (i : Nat) : (r.sourcePath i).names ≠ (r.outputPath i).names := by
  intro h
  apply hl.not_prefix_sourcePath i
  rw [h]
  exact hl.prefix_outputPath i

end Request.Layout

/-! ## Copying a file into a stage -/

open Act

theorem frames_copyInto (src : Path) {dst : Path} (hdst : dst.Plain) :
    Frames (copyInto src dst) {dst.names} ∅ [] :=
  frames_bind (frames_createParent _) fun _ => frames_copy src hdst

/-- A copy into a plain destination leaves a file there and changes nothing else; the file
holds what the source held, unless the source leads to the destination too. -/
theorem copyInto_eq_ok {src dst : Path} {w w' : World} {u : Unit} (hdst : dst.Plain)
    (h : (copyInto src dst).runOn w = (.ok u, w')) :
    ∃ y, w'.disk.read dst = .ok y ∧ w.disk.Keeps {dst.names} ∅ w'.disk ∧
      ∀ X, w.disk.read src = .ok X → (∀ d : Disk, d.locate src ≠ .ok dst.names) → y = X := by
  unfold copyInto at h
  obtain ⟨_, w1, hparent, hcopy⟩ := runOn_bind_eq_ok h
  have hk1 : w.disk.Keeps ∅ ∅ w1.disk := (frames_createParent dst w _ w1 hparent).1
  obtain ⟨x, hx, y, hw, hy⟩ := Disk.copy_eq_ok (change_eq_ok hcopy)
  obtain ⟨hread, hk⟩ := Disk.write_plain hdst hw
  refine ⟨y, hread, (hk1.mono (Set.empty_subset _) le_rfl).trans hk, fun X hX hdiff => ?_⟩
  -- the source does not lead to the destination, so what is written is what was read
  rcases hy with rfl | ⟨pl, hsrc, hdst'⟩
  · rw [hk1.read_of_dirs hX fun _ _ => Set.notMem_empty _] at hx
    exact (Except.ok.inj hx).symm
  · obtain ⟨-, rfl, -⟩ := (Disk.locate_plain hdst).1 hdst'
    exact absurd hsrc (hdiff _)

/-- A copy into a plain destination, from a source that never leads there, leaves the
source's bytes at the destination and changes nothing else. -/
theorem copyInto_ok {src dst : Path} {w w' : World} {X : ByteArray} {u : Unit} (hdst : dst.Plain)
    (hdiff : ∀ d : Disk, d.locate src ≠ .ok dst.names) (hX : w.disk.read src = .ok X)
    (h : (copyInto src dst).runOn w = (.ok u, w')) :
    w'.disk.read dst = .ok X ∧ w.disk.Keeps {dst.names} ∅ w'.disk := by
  obtain ⟨y, hread, hk, hy⟩ := copyInto_eq_ok hdst h
  exact ⟨hy X hX hdiff ▸ hread, hk⟩

/-- The copy a stage gets of what it is handed lies in its directory. -/
theorem frames_stageCopy {dir prev : Path} (hdir : dir.Plain) {n : String} (hn : Path.GoodName n) :
    Frames (copyInto prev ((dir.push "input").push n) >>= fun _ => pure ((dir.push "input").push n))
      {q | dir.names <+: q} {q | dir.names <+: q} [] := by
  refine frames_bind ((frames_copyInto prev ?_).mono ?_ (Set.empty_subset _)) fun _ => frames_pure _
  · rw [Path.plain_push _ hn, Path.plain_push _ Request.goodName_input]
    exact hdir
  · intro q hq
    rw [Set.mem_singleton_iff.1 hq, Path.names_push _ hn, Path.names_push _ Request.goodName_input]
    exact ⟨["input", n], by simp⟩

/-- Preparing a stage changes only what lies in its directory. -/
theorem frames_freshStage {dir prev : Path} (hdir : dir.Plain)
    (hname : ∀ n, prev.fileName? = some n → Path.GoodName n) :
    Frames (freshStage dir prev) {q | dir.names <+: q} {q | dir.names <+: q} [] := by
  unfold freshStage
  refine frames_bind (frames_exists? _) fun b => ?_
  dsimp only
  split
  · refine frames_bind (frames_removeDirAll hdir) fun _ => ?_
    split
    · exact frames_stageCopy hdir (hname _ ‹_›)
    · exact frames_throw _
  · split
    · exact frames_stageCopy hdir (hname _ ‹_›)
    · exact frames_throw _

theorem runOn_exists? {ε : Type} (p : Path) (w : World) :
    (Act.exists? p : Act ε Bool).runOn w = (.ok (w.disk.exists? p), w) := rfl

/-- The copy a stage gets holds what it was handed, when that lies outside the stage. -/
theorem stageCopy_ok {dir prev input : Path} {n : String} {w w' : World} {X : ByteArray}
    (hdir : dir.Plain) (hn : Path.GoodName n) (hprev : prev.Plain) (hout : ¬ dir.names <+: prev.names)
    (hX : w.disk.read prev = .ok X)
    (h : (copyInto prev ((dir.push "input").push n) >>= fun _ => pure ((dir.push "input").push n)).runOn w =
      (.ok input, w')) :
    input = (dir.push "input").push n ∧ w'.disk.read input = .ok X := by
  obtain ⟨u, w1, hcopy, hpure⟩ := runOn_bind_eq_ok h
  cases hpure
  have hinput : ((dir.push "input").push n).names = dir.names ++ ["input", n] := by
    rw [Path.names_push _ hn, Path.names_push _ Request.goodName_input]
    simp
  have hplain : ((dir.push "input").push n).Plain := by
    rw [Path.plain_push _ hn, Path.plain_push _ Request.goodName_input]
    exact hdir
  -- what is handed lies outside the stage, where its copy goes
  have hdiff : prev.names ≠ ((dir.push "input").push n).names := by
    rw [hinput]
    intro heq
    exact hout (heq ▸ ⟨["input", n], rfl⟩)
  exact ⟨rfl, (copyInto_ok hplain (fun _ => Disk.locate_ne_of_plain hprev hdiff) hX hcopy).1⟩

/-- A stage prepared from a file outside its directory gets a copy of it under `input/`. -/
theorem freshStage_ok {dir prev input : Path} {n : String} {w w' : World} {X : ByteArray}
    (hdir : dir.Plain) (hprev : prev.Plain) (hname : prev.fileName? = some n) (hn : Path.GoodName n)
    (hout : ¬ dir.names <+: prev.names) (hX : w.disk.read prev = .ok X)
    (h : (freshStage dir prev).runOn w = (.ok input, w')) :
    input = (dir.push "input").push n ∧ w'.disk.read input = .ok X := by
  unfold freshStage at h
  rw [runOn_bind_ok (runOn_exists? dir w)] at h
  dsimp only at h
  simp only [hname] at h
  split at h
  · obtain ⟨_, w1, hrm, h⟩ := runOn_bind_eq_ok h
    have hk := (frames_removeDirAll hdir w _ w1 hrm).1
    exact stageCopy_ok hdir hn hprev hout (hk.read_outside hprev hout hX) h
  · exact stageCopy_ok hdir hn hprev hout hX h

/-! ## Running a task -/

/-- The tool step of a task: the tool runs, then its output must be there. It frames what the
tool frames, and fails only as the tool does or for lack of output. -/
theorem toolStep_ok (t : Task) {a : Act ToolError Unit} {out : Path} {B D : Set Place}
    {cs : List ToolCall} (ha : Frames a B D cs) {w w' : World} {r : Except TaskError Path}
    (h : (do
      t.viaTool a
      let b ← Act.isFile out
      if (!b) = true then do
          throw (TaskError.tool t (ToolError.missingOutput out))
          pure out
        else pure out).runOn w = (r, w')) :
    w.disk.Keeps B D w'.disk ∧ w'.calls = w.calls ++ cs ∧
      ((∃ e, r = .error (.tool t e)) ∨ (r = .ok out ∧ w'.disk.isFile out = true)) := by
  rcases hrun : (t.viaTool a).runOn w with ⟨e | u, w1⟩
  · rw [runOn_bind_error hrun] at h
    cases h
    obtain ⟨hk, hc⟩ := frames_mapError (TaskError.tool t) ha w _ _ hrun
    refine ⟨hk, hc, .inl ?_⟩
    -- the tool's failure is the task's
    simp only [Task.viaTool, runOn_mapError] at hrun
    rcases ha' : a.runOn w with ⟨e' | u', w2⟩ <;> rw [ha'] at hrun <;> cases hrun
    exact ⟨e', rfl⟩
  · obtain ⟨hk, hc⟩ := frames_mapError (TaskError.tool t) ha w _ _ hrun
    rw [runOn_bind_ok hrun, runOn_bind_ok (runOn_isFile out w1)] at h
    cases hf : w1.disk.isFile out
    · simp only [hf, Bool.not_false, if_true] at h
      rw [runOn_bind_error (runOn_throw _ _)] at h
      cases h
      exact ⟨hk, hc, .inl ⟨_, rfl⟩⟩
    · simp only [hf, Bool.not_true, Bool.false_eq_true, if_false, runOn_pure] at h
      cases h
      exact ⟨hk, hc, .inr ⟨rfl, hf⟩⟩

/-- A task handed a file it fits, with its output going to a plain place other than its
input, changes only the bytes of its output. It fails without calling its tool only when
its stage directory cannot be made; otherwise it calls the tool once, and then fails as the
tool does or ends with its output in place. -/
theorem execute_ok {t : Task} {c : TaskSettings} {tk : Toolkit} {input dir : Path} {n n' : String}
    (hfits : t.Fits c n) (hout : t.outputName c n = some n') (hname : input.fileName? = some n)
    (hsame : (dir.push n').same input = false) (hplain : (dir.push n').Plain)
    {w w' : World} {r : Except TaskError Path} (hfile : w.disk.isFile input = true)
    (h : (t.execute c tk input dir).runOn w = (r, w')) :
    w.disk.Keeps {(dir.push n').names} ∅ w'.disk ∧
      ((∃ e, r = .error (.io e)) ∧ w'.calls = w.calls ∨
        w'.calls = w.calls ++ tk.log [⟨t.toolOp, input, dir.push n'⟩] ∧
          ((∃ e, r = .error (.tool t e)) ∨ (r = .ok (dir.push n') ∧ w'.disk.isFile (dir.push n') = true))) := by
  unfold Task.execute at h
  simp only [hfits.enabled, Act.ofExcept, pure_bind] at h
  rw [runOn_bind_ok (runOn_isFile input w)] at h
  -- the name guard passes: the task accepts its input's name
  have hguard : (t != Task.unpack200 && !n.endsWith ".jar") = false := by
    have acc := hfits.accepted
    cases t
    case unpack200 => rfl
    all_goals simp_all [Task.Accepts]
  simp only [hfile, hname, hout, hguard, Bool.not_true, Bool.false_eq_true, if_false] at h
  rw [runOn_bind] at h
  have hdir := frames_mapError TaskError.io (frames_createDirAll (B := ∅) (D := ∅) dir)
  rcases hd : (Act.mapError TaskError.io (Act.createDirAll dir)).runOn w with ⟨e | u, w1⟩ <;>
    rw [hd] at h
  · cases h
    obtain ⟨hk, hc⟩ := hdir w _ _ hd
    refine ⟨hk.mono (Set.empty_subset _) le_rfl, .inl ⟨?_, by simpa using hc⟩⟩
    simp only [runOn_mapError] at hd
    rcases hc' : (Act.createDirAll dir).runOn w with ⟨e' | u', w2⟩ <;> rw [hc'] at hd <;> cases hd
    exact ⟨e', rfl⟩
  · obtain ⟨hk, hc⟩ := hdir w _ _ hd
    simp only [hsame, Bool.false_eq_true, if_false] at h
    -- the tool runs: what it changes and records
    have htool : w1.disk.Keeps {(dir.push n').names} ∅ w'.disk ∧
        w'.calls = w1.calls ++ tk.log [⟨t.toolOp, input, dir.push n'⟩] ∧
        ((∃ e, r = .error (.tool t e)) ∨ (r = .ok (dir.push n') ∧ w'.disk.isFile (dir.push n') = true)) := by
      cases t with
      | unsign => exact toolStep_ok _ (tk.frames_unsign input hplain) h
      | pack200 => exact toolStep_ok _ (tk.frames_pack input hplain _) h
      | unpack200 => exact toolStep_ok _ (tk.frames_unpack input hplain) h
      | updateManifest => exact toolStep_ok _ (tk.frames_updateManifest input hplain _ _) h
      | sign =>
        -- signing is enabled, so the second look at the signing settings passes too
        have hsign : c.settings.sign.isNone = false := by
          have := Task.check_sign.1 hfits.enabled
          unfold Settings.isSign at this
          cases hs : c.settings.sign <;> simp_all
        simp only [hsign, Bool.false_eq_true, if_false] at h
        exact toolStep_ok _ (tk.frames_sign input hplain) h
    obtain ⟨hk', hc', hres⟩ := htool
    refine ⟨(hk.mono (Set.empty_subset _) le_rfl).trans hk', .inr ⟨?_, hres⟩⟩
    rw [hc', hc, List.append_nil]

/-! ## What a chain's files hold -/

namespace Request

/-- What the files of a chain hold once `k` stages have succeeded and `m` stages have called
their tool: the original copy holds `A`, each of the first `m` inputs holds what its stage
was handed, and each of the first `k` outputs is there. -/
structure Holds (r : Request) (A : ByteArray) (k m : Nat) (d : Disk) : Prop where
  original : d.read r.originalFile = .ok A
  inputs : ∀ j < m, ∃ X, d.read (r.inputPath j) = .ok X ∧ d.read (r.sourcePath j) = .ok X
  outputs : ∀ j < k, ∃ X, d.read (r.outputPath j) = .ok X

/-- Where a chain stands after its stages so far: its files hold what `Holds` says, and the
toolkit has recorded the first `m` calls of the chain. -/
structure Reached (r : Request) (tk : Toolkit) (w₀ : World) (A : ByteArray) (k m : Nat) (w : World) :
    Prop where
  holds : r.Holds A k m w.disk
  calls : w.calls = w₀.calls ++ tk.log (r.toolCalls.take m)
  le : k ≤ m
  le_succ : m ≤ k + 1
  le_length : m ≤ r.tasks.length

variable {r : Request} {A : ByteArray} {k m : Nat} {d d' : Disk}

theorem Layout.not_prefix_sourcePath_of_le (hl : r.Layout) {i j : Nat} (hj : j ≤ i) :
    ¬ (r.stageDir i).names <+: (r.sourcePath j).names := by
  cases j with
  | zero => exact hl.not_prefix_originalFile i
  | succ j => exact hl.not_prefix_outputPath (by omega)

/-- Removing stage `i`'s directory keeps what the files of the stages before it hold. -/
theorem Holds.keep_stage (hl : r.Layout) (h : r.Holds A k m d) (hkm : k ≤ m) {i : Nat} (hm : m ≤ i)
    (hk : d.Keeps {q | (r.stageDir i).names <+: q} {q | (r.stageDir i).names <+: q} d') :
    r.Holds A k m d' := by
  refine ⟨hk.read_outside hl.plain_originalFile (hl.not_prefix_originalFile i) h.original,
    fun j hj => ?_, fun j hj => ?_⟩
  · obtain ⟨X, hin, hsrc⟩ := h.inputs j hj
    exact ⟨X, hk.read_outside (hl.plain_inputPath j) (hl.not_prefix_inputPath (by omega)) hin,
      hk.read_outside (hl.plain_sourcePath j) (hl.not_prefix_sourcePath_of_le (by omega)) hsrc⟩
  · obtain ⟨X, hout⟩ := h.outputs j hj
    exact ⟨X, hk.read_outside (hl.plain_outputPath j) (hl.not_prefix_outputPath (by omega)) hout⟩

/-- Writing one place that none of the files so far lies at keeps what they hold. -/
theorem Holds.keep_file (hl : r.Layout) (h : r.Holds A k m d) {q : Place} (hk : d.Keeps {q} ∅ d')
    (h₀ : r.originalFile.names ≠ q) (h₁ : ∀ j < m, (r.inputPath j).names ≠ q ∧ (r.sourcePath j).names ≠ q)
    (h₂ : ∀ j < k, (r.outputPath j).names ≠ q) : r.Holds A k m d' := by
  have hD : ∀ (p : Path) (k' : Nat), k' < p.names.length → p.names.take k' ∉ (∅ : Set Place) :=
    fun _ _ _ => Set.notMem_empty _
  refine ⟨hk.read hl.plain_originalFile h₀ (hD _) h.original, fun j hj => ?_, fun j hj => ?_⟩
  · obtain ⟨X, hin, hsrc⟩ := h.inputs j hj
    exact ⟨X, hk.read (hl.plain_inputPath j) (h₁ j hj).1 (hD _) hin,
      hk.read (hl.plain_sourcePath j) (h₁ j hj).2 (hD _) hsrc⟩
  · obtain ⟨X, hout⟩ := h.outputs j hj
    exact ⟨X, hk.read (hl.plain_outputPath j) (h₂ j hj) (hD _) hout⟩

/-- What stage `i` is handed is there once the stages before it succeeded. -/
theorem Holds.source (h : r.Holds A k m d) {i : Nat} (hi : i ≤ k) : ∃ X, d.read (r.sourcePath i) = .ok X := by
  cases i with
  | zero => exact ⟨A, h.original⟩
  | succ i => exact h.outputs i (by omega)

/-- Before any stage has run, the chain stands at its start once the original copy holds `A`
and no call has been made. -/
theorem Reached.start {tk : Toolkit} {w₀ w : World} (hA : w.disk.read r.originalFile = .ok A)
    (hc : w.calls = w₀.calls) : r.Reached tk w₀ A 0 0 w :=
  ⟨⟨hA, fun _ h => absurd h (Nat.not_lt_zero _), fun _ h => absurd h (Nat.not_lt_zero _)⟩, by simp [hc],
    le_rfl, Nat.zero_le _, Nat.zero_le _⟩

end Request

/-! ## The stages in order -/

namespace Request

variable {r : Request}

theorem length_stages : r.stages.length = r.tasks.length := by
  simp [stages]

theorem stages_drop {i : Nat} (hi : i < r.tasks.length) :
    r.stages.drop i = (i, r.tasks[i], r.stageDir i) :: r.stages.drop (i + 1) := by
  rw [List.drop_eq_getElem_cons (by rw [length_stages]; exact hi)]
  simp [stages, stageDir, stageName, List.getD_eq_getElem?_getD, hi]

theorem toolCalls_take_succ {i : Nat} (hi : i < r.tasks.length) :
    r.toolCalls.take (i + 1) = r.toolCalls.take i ++
      [⟨r.tasks[i].toolOp, r.inputPath i, r.outputPath i⟩] := by
  rw [List.take_add_one, List.getElem?_eq_getElem (by simp [toolCalls]; exact hi)]
  simp [toolCalls, toolCall, List.getD_eq_getElem?_getD, hi]

theorem Layout.eq_append_jar (hl : r.Layout) : ∃ s, r.filename = s ++ ".jar" := by
  obtain ⟨l, hl'⟩ := endsWith_iff_suffix.1 hl.jar
  refine ⟨String.ofList l, String.toList_injective ?_⟩
  simp [← hl']

/-- A deployed name other than `.jar` itself has the extension `jar`. -/
theorem Layout.extensionOf_filename (hl : r.Layout) (hjar : r.filename ≠ ".jar") :
    Path.extensionOf r.filename = some "jar" := by
  obtain ⟨s, hs⟩ := hl.eq_append_jar
  have hne : s ≠ "" := by
    rintro rfl
    exact hjar (by simpa using hs)
  rw [hs, show s ++ ".jar" = s ++ "." ++ "jar" by rw [String.append_assoc]; rfl]
  exact Path.extensionOf_append_dot hne (by decide) (by decide)

/-- A packed name has the extension `pack` or `gz`, never `jar`. -/
theorem Layout.extensionOf_packed (hl : r.Layout) :
    Path.extensionOf (r.filename ++ r.config.settings.packExtension) ≠ some "jar" := by
  have hf : r.filename ≠ "" := ne_empty_of_endsWith_jar hl.jar
  unfold Settings.packExtension
  split
  · rw [show r.filename ++ ".pack.gz" = (r.filename ++ ".pack") ++ "." ++ "gz" by
      simp only [String.append_assoc]; rfl]
    rw [Path.extensionOf_append_dot (by simp [hf]) (by decide) (by decide)]
    decide
  · rw [show r.filename ++ ".pack" = r.filename ++ "." ++ "pack" by
      rw [String.append_assoc]; rfl]
    rw [Path.extensionOf_append_dot hf (by decide) (by decide)]
    decide

/-- The program's choice of the last jar after stage `i`, by the extension of its output, is
the last output that is not packed. -/
theorem Layout.lastJar_step (hl : r.Layout) (hjar : r.filename ≠ ".jar") (i : Nat) :
    (if (r.outputPath i).extension? == some "jar" then r.outputPath i else r.lastJarBefore i) =
      r.lastJarBefore (i + 1) := by
  rw [outputPath, Path.extension?_push _ (hl.goodName_nameAt (i + 1)), lastJarBefore]
  simp only [nameAt]
  split
  · simp [hl.extensionOf_packed]
  · rename_i hpack
    simp [hl.extensionOf_filename hjar, outputPath, nameAt, hpack]

end Request

/-! ## Running the stages -/

namespace Request

variable {r : Request} {A : ByteArray} {k m : Nat} {d d' : Disk}

theorem Layout.outputPath_ne (hl : r.Layout) {i j : Nat} (h : j ≠ i) :
    (r.outputPath j).names ≠ (r.outputPath i).names := by
  intro heq
  apply hl.not_prefix_outputPath h
  rw [heq]
  exact hl.prefix_outputPath i

theorem Layout.sourcePath_ne_outputPath_of_le (hl : r.Layout) {i j : Nat} (hj : j ≤ i) :
    (r.sourcePath j).names ≠ (r.outputPath i).names := by
  cases j with
  | zero =>
    intro heq
    apply hl.not_prefix_originalFile i
    rw [show r.originalFile = r.sourcePath 0 from rfl, heq]
    exact hl.prefix_outputPath i
  | succ j => exact hl.outputPath_ne (by omega)

/-- Writing stage `i`'s output keeps what the files before it hold. -/
theorem Holds.keep_output (hl : r.Layout) (h : r.Holds A k m d) {i : Nat} (hk : k ≤ i) (hm : m ≤ i + 1)
    (hkeep : d.Keeps {(r.outputPath i).names} ∅ d') : r.Holds A k m d' := by
  have h₀ : (r.sourcePath 0).names ≠ (r.outputPath i).names := hl.sourcePath_ne_outputPath_of_le (Nat.zero_le i)
  refine h.keep_file hl hkeep h₀ (fun j hj => ⟨hl.inputPath_ne_outputPath j i, ?_⟩) (fun j hj => ?_)
  · exact hl.sourcePath_ne_outputPath_of_le (by omega)
  · exact hl.outputPath_ne (by omega)

theorem Holds.add_input (h : r.Holds A k m d) {X : ByteArray} (hin : d.read (r.inputPath m) = .ok X)
    (hsrc : d.read (r.sourcePath m) = .ok X) : r.Holds A k (m + 1) d := by
  refine ⟨h.original, fun j hj => ?_, h.outputs⟩
  rcases Nat.lt_succ_iff_lt_or_eq.1 hj with hj | rfl
  · exact h.inputs j hj
  · exact ⟨X, hin, hsrc⟩

theorem Holds.add_output (h : r.Holds A k m d) {Y : ByteArray} (hout : d.read (r.outputPath k) = .ok Y) :
    r.Holds A (k + 1) m d := by
  refine ⟨h.original, h.inputs, fun j hj => ?_⟩
  rcases Nat.lt_succ_iff_lt_or_eq.1 hj with hj | rfl
  · exact h.outputs j hj
  · exact ⟨Y, hout⟩

end Request

namespace Executor

variable (ex : Executor) {r : Request}

/-- How the stages ended: `k` of them succeeded and `m` called their tool; after success
the chain stands at the last output and the last jar, after a failure it names the stage
that failed. -/
def StagesEnd (r : Request) (st : ChainState) (failure : Option ProcessError) (k : Nat) : Prop :=
  st.ran = r.tasks.take k ∧
    ((failure = none ∧ k = r.tasks.length ∧ st.current = r.sourcePath k ∧ st.lastJar = r.lastJar) ∨
      ∃ (hk : k < r.tasks.length) (cause : TaskError),
        failure = some ⟨r.artifact.display, .task k r.tasks[k], cause⟩)

/-- Running the stages from stage `i`, after stages before it succeeded with their files in
place: each stage in turn gets a fresh copy of what it is handed and calls its tool on it,
until one fails or all succeed. -/
theorem runStages_ok (hl : r.Layout) (hjar : r.filename ≠ ".jar") (w₀ : World) (A : ByteArray) :
    ∀ d i w, i + d = r.tasks.length → r.Reached ex.toolkit w₀ A i i w →
      ∃ st failure w' k m, (ex.runStages r (r.stages.drop i)
          ⟨r.sourcePath i, r.lastJarBefore i, r.tasks.take i⟩).runOn w = (.ok (st, failure), w') ∧
        r.Reached ex.toolkit w₀ A k m w' ∧ StagesEnd r st failure k := by
  intro d
  induction d with
  | zero =>
    intro i w hi hw
    have hdrop : r.stages.drop i = [] := List.drop_of_length_le (by rw [Request.length_stages]; omega)
    refine ⟨_, none, w, i, i, by rw [hdrop, runStages]; rfl, hw, rfl, .inl ⟨rfl, by omega, rfl, ?_⟩⟩
    rw [Request.lastJar, show r.tasks.length = i by omega]
  | succ d ih =>
    intro i w hi hw
    have hlt : i < r.tasks.length := by omega
    rw [r.stages_drop hlt, runStages]
    obtain ⟨X, hX⟩ := hw.holds.source (le_refl i)
    -- preparing the stage changes only its directory
    have hfresh := @frames_freshStage (r.stageDir i) (r.sourcePath i) (hl.plain_stageDir i) fun n hn => by
      rw [hl.fileName?_sourcePath] at hn
      exact Option.some.inj hn ▸ hl.goodName_nameAt i
    rcases hfs : (freshStage (r.stageDir i) (r.sourcePath i)).runOn w with ⟨e | input, w1⟩
    · obtain ⟨hk1, hc1⟩ := hfresh w _ _ hfs
      rw [runOn_bind_ok (runOn_attempt_of hfs)]
      refine ⟨_, _, w1, i, i, rfl, ⟨hw.holds.keep_stage hl le_rfl le_rfl hk1, by rw [hc1, List.append_nil,
        hw.calls], le_rfl, by omega, by omega⟩, rfl, .inr ⟨hlt, _, rfl⟩⟩
    · obtain ⟨hk1, hc1⟩ := hfresh w _ _ hfs
      obtain ⟨rfl, hin⟩ := freshStage_ok (hl.plain_stageDir i) (hl.plain_sourcePath i)
        (hl.fileName?_sourcePath i) (hl.goodName_nameAt i) (hl.not_prefix_sourcePath i) hX hfs
      have hsrc1 := hk1.read_outside (hl.plain_sourcePath i) (hl.not_prefix_sourcePath i) hX
      have hheld : r.Holds A i (i + 1) w1.disk :=
        (hw.holds.keep_stage hl le_rfl le_rfl hk1).add_input hin hsrc1
      rw [runOn_bind_ok (runOn_attempt_of hfs)]
      dsimp only
      rw [show ((r.stageDir i).push "input").push (r.nameAt i) = r.inputPath i from rfl]
      -- the task runs on its fresh copy
      have hsame : ((r.stageDir i).push (r.nameAt (i + 1))).same (r.inputPath i) = false := by
        apply Path.same_eq_false
        simp [Request.inputPath, Path.parts_push _ (hl.goodName_nameAt _), Path.parts_push _ Request.goodName_input]
      rcases hex : (r.tasks[i].execute r.config ex.toolkit (r.inputPath i) (r.stageDir i)).runOn w1 with
        ⟨res, w2⟩
      obtain ⟨hk2, hcases⟩ := execute_ok (hl.fits i hlt).1 (hl.fits i hlt).2 (hl.fileName?_inputPath i)
        hsame (hl.plain_outputPath i) (Disk.isFile_iff_read.2 ⟨_, hin⟩) hex
      rw [runOn_bind_ok (runOn_attempt_of hex)]
      rcases hcases with ⟨⟨e, rfl⟩, hc2⟩ | ⟨hc2, hres⟩
      · refine ⟨_, _, w2, i, i, rfl, ⟨?_, by rw [hc2, hc1, List.append_nil, hw.calls], le_rfl, by omega,
          by omega⟩, rfl, .inr ⟨hlt, _, rfl⟩⟩
        exact (hw.holds.keep_stage hl le_rfl le_rfl hk1).keep_output hl le_rfl (by omega) hk2
      -- the tool was called: stage `i`'s call joins the record
      have hcalls : w2.calls = w₀.calls ++ ex.toolkit.log (r.toolCalls.take (i + 1)) := by
        rw [hc2, hc1, List.append_nil, hw.calls, Request.toolCalls_take_succ hlt, Toolkit.log_append,
          List.append_assoc]
        rfl
      rcases hres with ⟨e, rfl⟩ | ⟨rfl, hfile⟩
      · exact ⟨_, _, w2, i, i + 1, rfl, ⟨hheld.keep_output hl le_rfl le_rfl hk2, hcalls, by omega, le_rfl,
          by omega⟩, rfl, .inr ⟨hlt, _, rfl⟩⟩
      · obtain ⟨Y, hY⟩ := Disk.isFile_iff_read.1 hfile
        have hreached : r.Reached ex.toolkit w₀ A (i + 1) (i + 1) w2 :=
          ⟨(hheld.keep_output hl le_rfl le_rfl hk2).add_output hY, hcalls, le_rfl, by omega, by omega⟩
        dsimp only
        rw [show (r.stageDir i).push (r.nameAt (i + 1)) = r.outputPath i from rfl, hl.lastJar_step hjar i,
          ← List.take_succ_eq_append_getElem hlt]
        exact ih (i + 1) w2 (by omega) hreached

end Executor

end JarDeploy
