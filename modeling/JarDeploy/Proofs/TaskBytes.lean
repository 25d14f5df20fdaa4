import JarDeploy.Proofs.SinglePass
import JarDeploy.Proofs.Decoding

/-!
# What a task leaves

A task's tool turns the bytes of its input into those of its output. The scripted toolkit
marks bytes instead of transforming them (`Task.scriptedBytes`): signing puts `SIGNED:` in
front (once), unsigning takes it off, packing puts `PACK:` in front, unpacking takes that
off and fails without it, and a manifest update copies the bytes. The command toolkit
starts none of the JDK's tools here, so of its operations only those it does itself,
unsigning and manifest updates, ever end. `Toolkit.Yields` says what a task's tool may
leave, and `Toolkit.Chain` what a chain of tasks may leave at its last output and at its
last jar: a packing task leaves the last jar as it was.

A task run that ends with its output leaves there what `Yields` allows
(`Task.execute_yields`). Single-pass processing runs, on each jar, the planned chain less
its manifest update (`Settings.passTasks`). That changes nothing a successful chain leaves:
the scripted toolkit's manifest update copies the bytes, and with the command toolkit only
the empty chain ends (`Toolkit.Chain.plan_eq_passTasks`).
-/

namespace JarDeploy

set_option autoImplicit false

open Act

/-! ## Bytes in, bytes out -/

/-- What the scripted toolkit writes when a task's tool runs on the bytes `b`; unpacking
bytes that are no pack fails. -/
def Task.scriptedBytes : Task → ByteArray → Option ByteArray
  | .unsign, b => some ((dropMark b signedMark).getD b)
  | .pack200, b => some (packMark.toUTF8 ++ b)
  | .unpack200, b => dropMark b packMark
  | .updateManifest, b => some b
  | .sign, b => some (signedMark.toUTF8 ++ (dropMark b signedMark).getD b)

/-- The tool a task runs, from its input into its output. -/
def Task.runTool (t : Task) (c : TaskSettings) (tk : Toolkit) (input output : Path) : Act ToolError Unit :=
  match t with
  | .unsign => tk.unsign input output
  | .pack200 => tk.pack input output c.settings.pack200.passFiles
  | .unpack200 => tk.unpack input output
  | .updateManifest =>
    tk.updateManifest input output c.settings.manifestEntries c.settings.overrideManifestEntries
  | .sign => tk.sign input output

namespace Toolkit

/-- What a task's tool, run by the toolkit on the bytes `X`, may leave as `Y`: with the
scripted toolkit, what `scriptedBytes` makes of `X`; with the command toolkit, any bytes at
all, but only from the tasks it repacks itself. -/
def Yields : Toolkit → Task → ByteArray → ByteArray → Prop
  | .scripted, t, X, Y => t.scriptedBytes X = some Y
  | .command _, t, _, _ => t = .unsign ∨ t = .updateManifest

/-- What a chain of tasks may leave, from what its first task is handed and the last jar so
far: the bytes of its last output and of its last jar. The output of a packing task is no
jar; the output of every other task is the new last jar. -/
inductive Chain (tk : Toolkit) : List Task → ByteArray × ByteArray → ByteArray × ByteArray → Prop where
  | nil (s : ByteArray × ByteArray) : Chain tk [] s s
  | cons {t : Task} {ts : List Task} {cur jar Y : ByteArray} {s : ByteArray × ByteArray}
      (step : tk.Yields t cur Y) (rest : Chain tk ts (Y, if t = .pack200 then jar else Y) s) :
      Chain tk (t :: ts) (cur, jar) s

end Toolkit

/-! ## The tool of a task -/

namespace Toolkit

variable {input output : Path} {w w' : World}

theorem runOn_readInput (p : Path) (w : World) :
    (readInput p).runOn w = ((w.disk.read p).mapError .io, w) := by
  cases h : w.disk.read p <;> simp [readInput, Jar.fileStep, Act.read, runOn_bind, h]

/-- Writing a tool's output at a plain path leaves the bytes there. -/
theorem read_of_writeOutput {data : ByteArray} {u : Unit} (hp : output.Plain)
    (h : (writeOutput output data).runOn w = (.ok u, w')) : w'.disk.read output = .ok data := by
  obtain ⟨_, w₁, -, hwrite⟩ := runOn_bind_eq_ok (runOn_mapError_eq_ok h)
  unfold Act.write at hwrite
  exact (Disk.write_plain hp (change_eq_ok hwrite)).1

/-- A scripted operation records its call, reads its input and hands the bytes to `body`;
when `body` leaves at the output what `g` makes of any bytes, the operation leaves what `g`
makes of the input. -/
theorem recorded_bytes {op : ToolOp} {g : ByteArray → Option ByteArray} {X : ByteArray} {u : Unit}
    (body : ByteArray → Act ToolError Unit)
    (hbody : ∀ b w w' u, (body b).runOn w = (.ok u, w') → ∃ Y, g b = some Y ∧ w'.disk.read output = .ok Y)
    (hX : w.disk.read input = .ok X)
    (h : (record op input output >>= fun _ => readInput input >>= body).runOn w = (.ok u, w')) :
    ∃ Y, g X = some Y ∧ w'.disk.read output = .ok Y := by
  obtain ⟨_, w₁, hrec, h⟩ := runOn_bind_eq_ok h
  obtain ⟨b, w₂, hread, h⟩ := runOn_bind_eq_ok h
  -- recording the call changes no file
  have hX₁ : w₁.disk.read input = .ok X :=
    (frames_record (B := ∅) (D := ∅) op input output w _ w₁ hrec).1.read_of_dirs hX
      fun _ _ => Set.notMem_empty _
  rw [runOn_readInput, hX₁] at hread
  cases hread
  exact hbody _ _ _ _ h

/-- The tools of the command toolkit that it cannot start never end with their output. -/
theorem run_ne_ok (home : Option Path) (tool : String) {u : Unit} : (run home tool).runOn w ≠ (.ok u, w') := by
  intro h
  obtain ⟨_, _, -, h⟩ := runOn_bind_eq_ok h
  cases h

/-- A tool started after making the output's directory never ends either. -/
theorem started_ne_ok {α : Type} (home : Option Path) (tool : String) (before : Act ToolError α)
    (after : Act ToolError Unit) {u : Unit} :
    (before >>= fun _ => run home tool >>= fun _ => after).runOn w ≠ (.ok u, w') := by
  intro h
  obtain ⟨_, _, -, h⟩ := runOn_bind_eq_ok h
  obtain ⟨_, _, hrun, -⟩ := runOn_bind_eq_ok h
  exact run_ne_ok home tool hrun

end Toolkit

namespace Task

variable {t : Task} {c : TaskSettings} {tk : Toolkit} {input dir output : Path} {n n' : String}
  {w w' : World}

/-- A task's tool that ends, run on an input holding `X` into a plain output, leaves there
what `Yields` allows. -/
theorem runTool_yields {X : ByteArray} {u : Unit} (hp : output.Plain) (hX : w.disk.read input = .ok X)
    (hfile : w'.disk.isFile output = true) (h : (t.runTool c tk input output).runOn w = (.ok u, w')) :
    ∃ Y, tk.Yields t X Y ∧ w'.disk.read output = .ok Y := by
  cases tk with
  | scripted =>
    -- each operation writes what it read, marked or unmarked
    have hwrite : ∀ g : ByteArray → ByteArray, ∀ b w w' u,
        (Toolkit.writeOutput output (g b)).runOn w = (.ok u, w') →
          ∃ Y, some (g b) = some Y ∧ w'.disk.read output = .ok Y :=
      fun g b _ _ _ hw => ⟨g b, rfl, Toolkit.read_of_writeOutput hp hw⟩
    cases t with
    | unsign => exact Toolkit.recorded_bytes _ (hwrite fun b => (dropMark b signedMark).getD b) hX h
    | pack200 => exact Toolkit.recorded_bytes _ (hwrite fun b => packMark.toUTF8 ++ b) hX h
    | updateManifest => exact Toolkit.recorded_bytes _ (hwrite id) hX h
    | sign => exact Toolkit.recorded_bytes _ (hwrite fun b => signedMark.toUTF8 ++ (dropMark b signedMark).getD b) hX h
    | unpack200 =>
      refine Toolkit.recorded_bytes _ (fun b w w' u hb => ?_) hX h
      -- unpacking fails on bytes that are no pack
      split at hb
      · rename_i jar hjar
        exact ⟨jar, hjar, Toolkit.read_of_writeOutput hp hb⟩
      · cases hb
  | command home =>
    obtain ⟨Y, hY⟩ := Disk.isFile_iff_read.1 hfile
    refine ⟨Y, ?_, hY⟩
    cases t with
    | unsign => exact .inl rfl
    | updateManifest => exact .inr rfl
    | pack200 =>
      -- the pass files are looked up before the tool is started
      simp only [runTool, Toolkit.pack] at h
      obtain ⟨_, _, -, h⟩ := runOn_bind_eq_ok h
      exact absurd h (Toolkit.started_ne_ok home _ _ _)
    | unpack200 =>
      simp only [runTool, Toolkit.unpack] at h
      exact absurd h (Toolkit.started_ne_ok home _ _ _)
    | sign =>
      simp only [runTool, Toolkit.sign] at h
      exact absurd h (Toolkit.started_ne_ok home _ _ _)

/-- After its tool, a task checks that the output is there: when the task ends with its
output, its tool ended, and the task returns the output. -/
theorem runOn_viaTool_eq_ok {a : Act ToolError Unit} {o out : Path}
    (h : (do
      t.viaTool a
      let b ← Act.isFile o
      if (!b) = true then do
          throw (TaskError.tool t (ToolError.missingOutput o))
          pure o
        else pure o).runOn w = (.ok out, w')) :
    out = o ∧ a.runOn w = (.ok (), w') ∧ w'.disk.isFile o = true := by
  obtain ⟨_, w₁, htool, h⟩ := runOn_bind_eq_ok h
  obtain ⟨b, w₂, hcheck, h⟩ := runOn_bind_eq_ok h
  rw [runOn_isFile, Prod.mk.injEq, Except.ok.injEq] at hcheck
  obtain ⟨rfl, rfl⟩ := hcheck
  cases hb : w₁.disk.isFile o with
  | false =>
    rw [hb] at h
    cases h
  | true =>
    rw [hb] at h
    cases h
    exact ⟨rfl, runOn_mapError_eq_ok htool, hb⟩

/-- A task that ends with its output made its stage directory, changing no file, and then
its tool ended with the output in place. -/
theorem execute_runTool (hfits : t.Fits c n) (hout : t.outputName c n = some n')
    (hname : input.fileName? = some n) (hsame : (dir.push n').same input = false) {out : Path}
    (h : (t.execute c tk input dir).runOn w = (.ok out, w')) :
    out = dir.push n' ∧ w'.disk.isFile out = true ∧
      ∃ w₁, w.disk.Keeps ∅ ∅ w₁.disk ∧ (t.runTool c tk input (dir.push n')).runOn w₁ = (.ok (), w') := by
  unfold Task.execute at h
  simp only [hfits.enabled, Act.ofExcept, pure_bind] at h
  rw [runOn_bind_ok (runOn_isFile input w)] at h
  -- the guards pass: the input is a file, and the task accepts its name
  have hguard : (t != Task.unpack200 && !n.endsWith ".jar") = false := by
    have acc := hfits.accepted
    cases t
    case unpack200 => rfl
    all_goals simp_all [Task.Accepts]
  cases hfile : w.disk.isFile input
  · simp only [hfile, Bool.not_false, if_true] at h
    rw [runOn_bind_error (runOn_throw _ _)] at h
    cases h
  simp only [hfile, hname, hout, hguard, Bool.not_true, Bool.false_eq_true, if_false] at h
  obtain ⟨_, w₁, hdir, h⟩ := runOn_bind_eq_ok h
  have hk₁ := (frames_mapError TaskError.io (frames_createDirAll (B := ∅) (D := ∅) dir) w _ w₁ hdir).1
  simp only [hsame, Bool.false_eq_true, if_false] at h
  cases t with
  | sign =>
    -- the sign task looks at the signing settings once more; they are there
    have hsign : c.settings.sign.isNone = false := by
      have := Task.check_sign.1 hfits.enabled
      unfold Settings.isSign at this
      cases hs : c.settings.sign <;> simp_all
    simp only [hsign, Bool.false_eq_true, if_false] at h
    obtain ⟨rfl, htool, hf⟩ := runOn_viaTool_eq_ok h
    exact ⟨rfl, hf, w₁, hk₁, htool⟩
  | _ =>
    obtain ⟨rfl, htool, hf⟩ := runOn_viaTool_eq_ok h
    exact ⟨rfl, hf, w₁, hk₁, htool⟩

/-- **A task leaves what its tool yields.** A task run on an input holding `X`, into a plain
output other than its input, that ends with its output leaves there what `Yields` allows. -/
theorem execute_yields (hfits : t.Fits c n) (hout : t.outputName c n = some n')
    (hname : input.fileName? = some n) (hsame : (dir.push n').same input = false) (hp : (dir.push n').Plain)
    {X : ByteArray} (hX : w.disk.read input = .ok X) {out : Path}
    (h : (t.execute c tk input dir).runOn w = (.ok out, w')) :
    out = dir.push n' ∧ ∃ Y, tk.Yields t X Y ∧ w'.disk.read out = .ok Y := by
  obtain ⟨rfl, hfile, w₁, hk₁, htool⟩ := execute_runTool hfits hout hname hsame h
  exact ⟨rfl, runTool_yields hp (hk₁.read_of_dirs hX fun _ _ => Set.notMem_empty _) hfile htool⟩

end Task

/-! ## Chains -/

namespace Toolkit

variable {tk : Toolkit}

@[simp] theorem chain_nil_iff {s s' : ByteArray × ByteArray} : tk.Chain [] s s' ↔ s' = s := by
  constructor
  · rintro ⟨⟩
    rfl
  · rintro rfl
    exact .nil _

theorem chain_cons_iff {t : Task} {ts : List Task} {cur jar : ByteArray} {s : ByteArray × ByteArray} :
    tk.Chain (t :: ts) (cur, jar) s ↔
      ∃ Y, tk.Yields t cur Y ∧ tk.Chain ts (Y, if t = .pack200 then jar else Y) s := by
  constructor
  · rintro (_ | ⟨step, rest⟩)
    exact ⟨_, step, rest⟩
  · rintro ⟨Y, step, rest⟩
    exact .cons step rest

/-- A chain followed by another is one chain. -/
theorem Chain.append {ts ts' : List Task} {s₁ s₂ s₃ : ByteArray × ByteArray} (h : tk.Chain ts s₁ s₂)
    (h' : tk.Chain ts' s₂ s₃) : tk.Chain (ts ++ ts') s₁ s₃ := by
  induction h with
  | nil => exact h'
  | cons step _ ih => exact .cons step (ih h')

/-- The chains of the command toolkit that end run only the tasks it repacks itself. -/
theorem Chain.command_repacks {home : Option Path} {ts : List Task} {s s' : ByteArray × ByteArray}
    (h : (Toolkit.command home).Chain ts s s') : ∀ t ∈ ts, t = .unsign ∨ t = .updateManifest := by
  induction h with
  | nil => simp
  | cons step _ ih =>
    intro t ht
    rcases List.mem_cons.1 ht with rfl | ht
    · exact step
    · exact ih t ht

end Toolkit

/-- The chain the scripted toolkit runs, as a function of what it is handed. -/
def Task.scriptedChain : List Task → ByteArray × ByteArray → Option (ByteArray × ByteArray)
  | [], s => some s
  | t :: ts, (cur, jar) =>
    (t.scriptedBytes cur).bind fun Y => scriptedChain ts (Y, if t = .pack200 then jar else Y)

/-- With the scripted toolkit, a chain leaves exactly what `scriptedChain` computes. -/
theorem Toolkit.chain_scripted_iff {ts : List Task} {s s' : ByteArray × ByteArray} :
    Toolkit.scripted.Chain ts s s' ↔ Task.scriptedChain ts s = some s' := by
  induction ts generalizing s with
  | nil => simp [Task.scriptedChain, eq_comm]
  | cons t ts ih =>
    obtain ⟨cur, jar⟩ := s
    simp only [chain_cons_iff, ih, Task.scriptedChain, Option.bind_eq_some_iff]
    rfl

/-! ## The planned chain and the passes -/

/-- Taking off a mark the bytes do not carry leaves them as they are. -/
@[simp] theorem dropMark_getD_of_hasMark_false {b : ByteArray} {m : String} (h : hasMark b m = false) :
    (dropMark b m).getD b = b := by
  simp [dropMark, h]

/-- A mark put in front of bytes comes off again. -/
@[simp] theorem dropMark_mark_append (m : String) (b : ByteArray) : dropMark (m.toUTF8 ++ b) m = some b := by
  rw [String.toUTF8_eq_toByteArray]
  have hpre : hasMark (m.toByteArray ++ b) m = true := by
    unfold hasMark
    rw [String.toUTF8_eq_toByteArray, Zip.toList_eq, Zip.toList_eq, ByteArray.data_append, Array.toList_append]
    exact List.isPrefixOf_iff_prefix.2 (List.prefix_append _ _)
  rw [dropMark, if_pos hpre]
  congr 1
  exact ByteArray.extract_append_eq_right String.size_toByteArray.symm
    (by rw [ByteArray.size_append, String.size_toByteArray])

/-- The tasks single-pass processing runs on one jar, pass after pass: when signing, unsigning
a jar found signed (when signed jars are to be unsigned), normalising with pack200, and
signing; then packing with pack200. -/
def Settings.passTasks (s : Settings) (signed : Bool) : List Task :=
  (if s.isSign then
    (if s.unsignAlreadySigned && signed then [.unsign] else []) ++
      (if s.isPack200 then [.pack200, .unpack200] else []) ++ [.sign]
  else []) ++ (if s.isPack200 then [.pack200] else [])

/-- The passes are the planned chain without its manifest update. -/
theorem TaskSettings.passTasks_eq_filter (c : TaskSettings) (signed : Bool) :
    c.settings.passTasks signed = (c.plan signed).filter (· != .updateManifest) := by
  unfold Settings.passTasks plan
  dsimp only
  cases c.settings.isSign <;> cases c.settings.unsignAlreadySigned <;> cases signed <;>
    cases c.settings.isPack200 <;> cases c.isUpdateManifest <;> rfl

/-- With the scripted toolkit, the planned chain ends where the passes end: its manifest
update copies the bytes it is handed, which the unpacking or unsigning before it left as
the last jar. -/
theorem TaskSettings.scriptedChain_plan (c : TaskSettings) (signed : Bool) (A : ByteArray) :
    Task.scriptedChain (c.plan signed) (A, A) = Task.scriptedChain (c.settings.passTasks signed) (A, A) := by
  unfold plan Settings.passTasks
  dsimp only
  cases c.settings.isSign <;> cases c.settings.unsignAlreadySigned <;> cases signed <;>
    cases c.settings.isPack200 <;> cases c.isUpdateManifest <;>
    simp [Task.scriptedChain, Task.scriptedBytes]

/-- A planned chain that signs or packs holds a task the command toolkit cannot run. -/
theorem TaskSettings.plan_not_repacks (c : TaskSettings) (signed : Bool)
    (h : c.settings.isSign = true ∨ c.settings.isPack200 = true) :
    ∃ t ∈ c.plan signed, t ≠ .unsign ∧ t ≠ .updateManifest := by
  rcases h with hs | hp
  · refine ⟨.sign, ?_, by decide, by decide⟩
    unfold plan
    simp [hs]
  · refine ⟨.pack200, ?_, by decide, by decide⟩
    unfold plan
    simp [hp]

/-- **The passes leave what the planned chain leaves.** Whatever the toolkit, a chain planned
for a jar and the passes single-pass processing runs on it, both started from the jar's
bytes, end at the same last output and the same last jar. -/
theorem Toolkit.Chain.plan_eq_passTasks {tk : Toolkit} {c : TaskSettings} {signed : Bool} {A : ByteArray}
    {r₁ r₂ : ByteArray × ByteArray} (h₁ : tk.Chain (c.plan signed) (A, A) r₁)
    (h₂ : tk.Chain (c.settings.passTasks signed) (A, A) r₂) : r₁ = r₂ := by
  cases tk with
  | scripted =>
    rw [chain_scripted_iff] at h₁ h₂
    rw [TaskSettings.scriptedChain_plan] at h₁
    exact Option.some.inj (h₁.symm.trans h₂)
  | command home =>
    -- only the empty chain ends: neither signing nor packing is configured
    have hnone : c.settings.isSign = false ∧ c.settings.isPack200 = false := by
      by_contra hsome
      obtain ⟨t, ht, hu, hm⟩ := c.plan_not_repacks signed (by
        cases hs : c.settings.isSign <;> cases hp : c.settings.isPack200 <;> simp_all)
      rcases h₁.command_repacks t ht with rfl | rfl <;> contradiction
    have hplan : c.plan signed = [] := by
      unfold TaskSettings.plan
      simp [hnone.1, hnone.2]
    have hpass : c.settings.passTasks signed = [] := by
      unfold Settings.passTasks
      simp [hnone.1, hnone.2]
    rw [hplan, chain_nil_iff] at h₁
    rw [hpass, chain_nil_iff] at h₂
    rw [h₁, h₂]

/-! ## Whether the jar is signed -/

/-- The answer a chain for a jar holding `A` is planned from: whether the toolkit finds `A`
signed, when signing is to unsign signed jars; otherwise no. -/
def Toolkit.Answers (tk : Toolkit) (s : Settings) (A : ByteArray) (signed : Bool) : Prop :=
  if s.isSign && s.unsignAlreadySigned then tk.signedData A = .ok signed else signed = false

/-- The toolkit answers one way only. -/
theorem Toolkit.Answers.unique {tk : Toolkit} {s : Settings} {A : ByteArray} {x y : Bool}
    (hx : tk.Answers s A x) (hy : tk.Answers s A y) : x = y := by
  unfold Toolkit.Answers at hx hy
  by_cases hask : (s.isSign && s.unsignAlreadySigned) = true
  · rw [if_pos hask] at hx hy
    exact Except.ok.inj (hx.symm.trans hy)
  · rw [if_neg hask] at hx hy
    exact hx.trans hy.symm

end JarDeploy
