import JarDeploy.Toolkit
import JarDeploy.Task
import JarDeploy.Proofs.Frame

/-!
# What the toolkits change

Every operation of a chain's toolkit, asked to turn an input into an output at a plain
path, changes the disk only in the bytes at the output's names: it may create the
output's directory, read anything, and write the output, but never touches another file
and never removes a directory. The scripted toolkit records the call first, whatever
happens next; the command toolkit keeps no record.

The command toolkit reads jars to inspect them and repacks them entry by entry into the
output; the tools it cannot start fail after creating the output's directory at most.
-/

namespace JarDeploy

set_option autoImplicit false

open Act

/-- The tool operation a task asks for. -/
def Task.toolOp : Task → ToolOp
  | .unsign => .unsign
  | .pack200 => .pack
  | .unpack200 => .unpack
  | .updateManifest => .updateManifest
  | .sign => .sign

/-- The record a toolkit keeps of calls made to it: the scripted toolkit records each, the
command toolkit none. -/
def Toolkit.log : Toolkit → List ToolCall → List ToolCall
  | .scripted, cs => cs
  | .command _, _ => []

@[simp] theorem Toolkit.log_nil (t : Toolkit) : t.log [] = [] := by
  cases t <;> rfl

theorem Toolkit.log_append (t : Toolkit) (cs cs' : List ToolCall) :
    t.log (cs ++ cs') = t.log cs ++ t.log cs' := by
  cases t <;> rfl

variable {B D : Set Place} {ε : Type}

/-! ## Reading jars -/

namespace Jar

theorem frames_fileStep {α : Type} {a : Act IoError α} {cs : List ToolCall} (h : Frames a B D cs) :
    Frames (fileStep a) B D cs :=
  frames_mapError _ h

theorem frames_openArchive (p : Path) : Frames (openArchive p) B D [] := by
  unfold openArchive
  refine frames_bind frames_disk fun d => ?_
  split
  · exact frames_ofExcept _
  · exact frames_throw _
  · exact frames_throw _

theorem frames_currentBytes (p : Path) : Frames (currentBytes p : Act ε ByteArray) B D [] := by
  unfold currentBytes
  refine frames_bind frames_disk fun d => ?_
  split <;> exact frames_pure _

theorem frames_rawStart (p : Path) (e : Zip.Entry) : Frames (rawStart p e) B D [] :=
  frames_bind (frames_currentBytes p) fun _ => frames_ofExcept _

theorem frames_openEntry (p : Path) (e : Zip.Entry) : Frames (openEntry p e) B D [] :=
  frames_bind (frames_currentBytes p) fun _ => frames_ofExcept _

theorem frames_entryText (p : Path) (e : Zip.Entry) (start : Nat) : Frames (entryText p e start) B D [] := by
  unfold entryText entryContents
  refine frames_bind (frames_bind (frames_currentBytes p) fun _ => frames_ofExcept _) fun _ => ?_
  split
  · exact frames_pure _
  · exact frames_throw _

theorem frames_isSigned (p : Path) : Frames (isSigned p) B D [] :=
  frames_bind (frames_openArchive p) fun _ => frames_pure _

theorem frames_manifestOf (p : Path) (e : Zip.Entry) : Frames (manifestOf p e) B D [] :=
  frames_bind (frames_openEntry p e) fun _ =>
    frames_bind (frames_entryText p e _) fun _ => frames_ofExcept _

theorem frames_readManifest (p : Path) : Frames (readManifest p) B D [] := by
  unfold readManifest
  refine frames_bind (frames_openArchive p) fun a => ?_
  split
  · exact frames_pure _
  · exact frames_throw _
  · exact frames_bind (frames_manifestOf p _) fun _ => frames_pure _

/-- Copying entries frames what each copying step frames. -/
theorem frames_copyEntries (step : Zip.Writer → Zip.Entry → Act ToolError Zip.Writer)
    (h : ∀ w e, Frames (step w e) B D []) (es : List Zip.Entry) (w : Zip.Writer) :
    Frames (copyEntries step es w) B D [] := by
  induction es generalizing w with
  | nil => exact frames_pure _
  | cons e es ih =>
    refine frames_bind (frames_attempt (h w e)) fun r => ?_
    split
    · exact ih _
    · exact frames_pure _

theorem frames_copyStored (input : Path) (w : Zip.Writer) (e : Zip.Entry) :
    Frames (copyStored input w e) B D [] :=
  frames_bind (frames_rawStart input e) fun _ =>
    frames_bind (frames_currentBytes input) fun _ => frames_pure _

variable {output : Path}

/-- Repacking into a plain output frames its bytes only, when its steps only read. -/
theorem frames_repackInto (hp : output.Plain) (start : Zip.Writer) (es : List Zip.Entry)
    (step : Zip.Writer → Zip.Entry → Act ToolError Zip.Writer) (h : ∀ w e, Frames (step w e) ∅ ∅ []) :
    Frames (repackInto output start es step) {output.names} ∅ [] := by
  unfold repackInto
  refine frames_bind (frames_fileStep (frames_write hp _)) fun _ => ?_
  refine frames_bind (frames_copyEntries step (fun w e => (h w e).mono (Set.empty_subset _) le_rfl) es start)
    fun ⟨w, failure⟩ => ?_
  refine frames_bind (frames_fileStep (frames_write hp _)) fun _ => ?_
  split
  · exact frames_throw _
  · exact frames_pure _

theorem frames_unsign (input : Path) (hp : output.Plain) : Frames (unsign input output) {output.names} ∅ [] := by
  unfold unsign
  refine frames_bind (frames_fileStep (frames_createParent _)) fun _ => ?_
  refine frames_bind (frames_isSigned input) fun signed => ?_
  split
  · exact frames_bind (frames_fileStep (frames_copy _ hp)) fun _ => frames_pure _
  · refine frames_bind (frames_openArchive input) fun a => ?_
    refine frames_bind (frames_repackInto hp _ _ _ fun w e => ?_) fun _ => frames_pure _
    refine frames_bind (frames_rawStart input e) fun _ => ?_
    split
    · exact frames_pure _
    · split
      · exact frames_bind (frames_manifestOf input e) fun _ => frames_pure _
      · exact frames_copyStored input w e

theorem frames_updateManifest (input : Path) (hp : output.Plain) (entries : List (String × String))
    (override : Bool) : Frames (updateManifest input output entries override) {output.names} ∅ [] := by
  unfold updateManifest
  refine frames_bind (frames_readManifest input) fun _ => ?_
  refine frames_bind (frames_fileStep (frames_createParent _)) fun _ => ?_
  refine frames_bind (frames_openArchive input) fun a => ?_
  refine frames_bind (frames_repackInto hp _ _ _ fun w e => ?_) fun _ => frames_pure _
  refine frames_bind (frames_rawStart input e) fun _ => ?_
  split
  · exact frames_pure _
  · exact frames_copyStored input w e

end Jar

/-! ## Toolkit operations -/

namespace Toolkit

variable {output : Path}

/-- Recording a call adds it to the record and leaves the disk as it is. -/
theorem frames_record (op : ToolOp) (input output : Path) :
    Frames (record op input output) B D [⟨op, input, output⟩] := by
  intro w r w' h
  unfold record at h
  have hset : ∀ w₀ w₁ : World, (set w₁ : Act ToolError Unit).runOn w₀ = (.ok (), w₁) := fun _ _ => rfl
  rw [runOn_bind_ok (rfl : (get : Act ToolError World).runOn w = (.ok w, w))] at h
  dsimp only at h
  rw [runOn_bind_ok (hset _ _)] at h
  split at h <;> cases h <;> exact ⟨Disk.Keeps.refl B D w.disk, rfl⟩

theorem frames_readInput (p : Path) : Frames (readInput p) B D [] :=
  Jar.frames_fileStep (frames_read p)

theorem frames_writeOutput (hp : output.Plain) (data : ByteArray) :
    Frames (writeOutput output data) {output.names} ∅ [] :=
  Jar.frames_fileStep (frames_bind (frames_createParent _) fun _ => frames_write hp data)

theorem frames_run (home : Option Path) (tool : String) : Frames (run home tool) B D [] :=
  frames_bind (frames_exists? _) fun _ => frames_throw _

theorem frames_ensureOutput (p : Path) : Frames (ensureOutput p) B D [] := by
  unfold ensureOutput
  refine frames_bind (frames_isFile p) fun _ => ?_
  split
  · exact frames_throw _
  · exact frames_pure _

theorem frames_passFileEntries (jar : Path) (patterns : List String) :
    Frames (passFileEntries jar patterns) B D [] := by
  unfold passFileEntries
  split
  · exact frames_pure _
  · refine frames_bind (frames_mapM (fun _ => frames_ofExcept _) _) fun _ => ?_
    exact frames_bind (frames_bind (Jar.frames_openArchive jar) fun _ => frames_pure _) fun _ => frames_pure _

/-- A toolkit operation that records its call and then runs `rest` frames what `rest`
frames, with the call recorded. -/
theorem frames_recorded {α : Type} (op : ToolOp) (input output : Path) (rest : Act ToolError α)
    (hrest : Frames rest {output.names} ∅ []) :
    Frames (record op input output >>= fun _ => rest) {output.names} ∅ [⟨op, input, output⟩] :=
  frames_bind (frames_record op input output) fun _ => hrest

variable (t : Toolkit) (input : Path)

theorem frames_unsign (hp : output.Plain) :
    Frames (t.unsign input output) {output.names} ∅ (t.log [⟨.unsign, input, output⟩]) := by
  cases t with
  | scripted =>
    refine frames_recorded _ _ _ _ ?_
    exact frames_bind (frames_readInput input) fun _ => frames_writeOutput hp _
  | command home => exact frames_bind (Jar.frames_unsign input hp) fun _ => frames_pure _

theorem frames_pack (hp : output.Plain) (passFiles : List String) :
    Frames (t.pack input output passFiles) {output.names} ∅ (t.log [⟨.pack, input, output⟩]) := by
  cases t with
  | scripted =>
    refine frames_recorded _ _ _ _ ?_
    exact frames_bind (frames_readInput input) fun _ => frames_writeOutput hp _
  | command home =>
    refine frames_bind (Jar.frames_fileStep (frames_createParent _)) fun _ => ?_
    refine frames_bind (frames_passFileEntries input passFiles) fun _ => ?_
    exact frames_bind (frames_run home _) fun _ => frames_ensureOutput output

theorem frames_unpack (hp : output.Plain) :
    Frames (t.unpack input output) {output.names} ∅ (t.log [⟨.unpack, input, output⟩]) := by
  cases t with
  | scripted =>
    refine frames_recorded _ _ _ _ ?_
    refine frames_bind (frames_readInput input) fun b => ?_
    split
    · exact frames_writeOutput hp _
    · exact frames_throw _
  | command home =>
    refine frames_bind (Jar.frames_fileStep (frames_createParent _)) fun _ => ?_
    exact frames_bind (frames_run home _) fun _ => frames_ensureOutput output

theorem frames_updateManifest (hp : output.Plain) (entries : List (String × String)) (override : Bool) :
    Frames (t.updateManifest input output entries override) {output.names} ∅
      (t.log [⟨.updateManifest, input, output⟩]) := by
  cases t with
  | scripted =>
    refine frames_recorded _ _ _ _ ?_
    exact frames_bind (frames_readInput input) fun _ => frames_writeOutput hp _
  | command home => exact frames_bind (Jar.frames_updateManifest input hp entries override) fun _ => frames_pure _

theorem frames_sign (hp : output.Plain) :
    Frames (t.sign input output) {output.names} ∅ (t.log [⟨.sign, input, output⟩]) := by
  cases t with
  | scripted =>
    refine frames_recorded _ _ _ _ ?_
    exact frames_bind (frames_readInput input) fun _ => frames_writeOutput hp _
  | command home =>
    refine frames_bind (Jar.frames_fileStep (frames_createParent _)) fun _ => ?_
    exact frames_bind (frames_run home _) fun _ => frames_ensureOutput output

end Toolkit

end JarDeploy
