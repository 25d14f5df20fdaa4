import JarDeploy.Request
import JarDeploy.Task.Execute
import JarDeploy.Proofs.Act
import JarDeploy.Proofs.Path

/-!
# Planned chains are well typed

A task takes a file by its name: unpacking takes a packed name, every other task a jar,
and each names its output after its input (packing adds the pack extension, unpacking
takes it off, the rest keep the name). `TaskSettings.Threads c ts n m` says that the
chain `ts` can run from a file named `n`: every task is enabled and accepts the name it
is handed, and the last output is named `m`.

The planned chain of a jar always can, and it ends at the deployed name: the jar's own
name, or that name with the pack extension when the chain ends by packing. So building a
request never stops at a disabled task, and running a task of the chain never fails for
its settings or for the name of its input.
-/

namespace JarDeploy

set_option autoImplicit false

/-! ## Names -/

theorem take_append_length (s t : String) : ((s ++ t).take s.length).copy = s := by
  apply String.toList_injective
  simp [String.toList_copy_take, ← String.length_toList]

/-- An artifact of a jar type is deployed under a name ending in `.jar`. -/
theorem fileName_endsWith_jar (naming : FileNaming) (a : Artifact) (v : Option Bool) (u : Bool)
    (h : a.extension = "jar") : (naming.fileName a v u).endsWith ".jar" = true := by
  have dot : ∀ s : String, s ++ "." ++ "jar" = s ++ ".jar" := fun s => by
    rw [String.append_assoc]
    rfl
  simp only [FileNaming.fileName, h, dot]
  exact endsWith_append_self _ _

namespace Task

variable {c : TaskSettings}

/-- The name a task must be handed: a packed name for unpacking, a jar for every other task. -/
def Accepts (t : Task) (c : TaskSettings) (name : String) : Prop :=
  if t = .unpack200 then name.endsWith c.settings.packExtension = true
  else name.endsWith ".jar" = true

/-- A task fits a name: the settings enable it and it accepts the name. -/
structure Fits (t : Task) (c : TaskSettings) (name : String) : Prop where
  enabled : t.check c = .ok ()
  accepted : t.Accepts c name

theorem check_eq_ok {t : Task} : t.check c = .ok () ↔ t.blocker c = none := by
  unfold check
  split <;> simp_all

@[simp] theorem check_unsign : Task.unsign.check c = .ok () ↔ c.settings.canUnsign = true := by
  rw [check_eq_ok]
  cases h : c.settings.canUnsign <;> simp [blocker, h]

@[simp] theorem check_pack200 : Task.pack200.check c = .ok () ↔ c.settings.isPack200 = true := by
  rw [check_eq_ok]
  cases h : c.settings.isPack200 <;> simp [blocker, h]

@[simp] theorem check_unpack200 : Task.unpack200.check c = .ok () ↔ c.settings.isPack200 = true := by
  rw [check_eq_ok]
  cases h : c.settings.isPack200 <;> simp [blocker, h]

@[simp] theorem check_updateManifest :
    Task.updateManifest.check c = .ok () ↔ c.isUpdateManifest = true := by
  rw [check_eq_ok]
  cases h : c.isUpdateManifest <;> simp [blocker, h]

@[simp] theorem check_sign : Task.sign.check c = .ok () ↔ c.settings.isSign = true := by
  rw [check_eq_ok]
  cases h : c.settings.isSign <;> simp [blocker, h]

@[simp] theorem outputName_pack200 (n : String) :
    Task.pack200.outputName c n = some (n ++ c.settings.packExtension) := rfl

/-- Unpacking a packed name gives back the name it was packed from. -/
theorem outputName_unpack200_append {n : String} (h : n ≠ "") :
    Task.unpack200.outputName c (n ++ c.settings.packExtension) = some n := by
  have hlen : (n ++ c.settings.packExtension).length > c.settings.packExtension.length := by
    have : 0 < n.length := by
      rw [← String.length_toList]
      exact List.length_pos_iff.2 (by simpa using h)
    simp only [String.length_append]
    omega
  simp only [outputName, endsWith_append_self, hlen, decide_true, Bool.and_self, if_true]
  rw [String.length_append, Nat.add_sub_cancel, String.Slice.toString_eq, take_append_length]

/-- Every task but packing and unpacking keeps the name. -/
theorem outputName_keep {t : Task} (hp : t ≠ .pack200) (hu : t ≠ .unpack200) (n : String) :
    t.outputName c n = some n := by
  cases t <;> first | rfl | contradiction

end Task

/-! ## Chains that can run -/

namespace TaskSettings

/-- The chain `ts` can run from a file named `n` and ends with a file named `m`: each task
fits the name it is handed and names its output. -/
inductive Threads (c : TaskSettings) : List Task → String → String → Prop where
  | nil (n : String) : Threads c [] n n
  | cons {t : Task} {ts : List Task} {n n' m : String} (fits : t.Fits c n)
      (named : t.outputName c n = some n') (rest : Threads c ts n' m) : Threads c (t :: ts) n m

variable {c : TaskSettings}

theorem Threads.append {ts us : List Task} {n k m : String} (h₁ : c.Threads ts n k)
    (h₂ : c.Threads us k m) : c.Threads (ts ++ us) n m := by
  induction h₁ with
  | nil => exact h₂
  | cons fits named _ ih => exact .cons fits named (ih h₂)

/-- An optional part of a chain that leaves the name as it is. -/
theorem Threads.optional {b : Bool} {ts : List Task} {n : String} (h : b = true → c.Threads ts n n) :
    c.Threads (if b then ts else []) n n := by
  cases b
  · exact .nil n
  · exact h rfl

/-- A task that keeps the name, on a jar. -/
theorem Threads.keep {t : Task} {n : String} (hp : t ≠ .pack200) (hu : t ≠ .unpack200)
    (hok : t.check c = .ok ()) (hn : n.endsWith ".jar" = true) : c.Threads [t] n n :=
  .cons ⟨hok, by simp [Task.Accepts, hu, hn]⟩ (Task.outputName_keep hp hu n) (.nil n)

/-- Packing a jar adds the pack extension. -/
theorem Threads.pack {n : String} (hp : c.settings.isPack200 = true) (hn : n.endsWith ".jar" = true) :
    c.Threads [.pack200] n (n ++ c.settings.packExtension) :=
  .cons ⟨Task.check_pack200.2 hp, by simp [Task.Accepts, hn]⟩ (Task.outputName_pack200 n)
    (.nil _)

/-- Packing then unpacking a jar gives back its name. -/
theorem Threads.normalise {n : String} (hp : c.settings.isPack200 = true)
    (hn : n.endsWith ".jar" = true) : c.Threads [.pack200, .unpack200] n n := by
  have unpack : c.Threads [.unpack200] (n ++ c.settings.packExtension) n :=
    .cons ⟨Task.check_unpack200.2 hp, by simp [Task.Accepts]⟩
      (Task.outputName_unpack200_append (ne_empty_of_endsWith_jar hn)) (.nil n)
  exact (Threads.pack hp hn).append unpack

/-- The signing part of a plan runs on a jar and gives back its name. -/
theorem Threads.signing {alreadySigned : Bool} {n : String}
    (hunsign : alreadySigned = true → c.settings.isSign = true →
      c.settings.unsignAlreadySigned = true → c.settings.canUnsign = true)
    (hs : c.settings.isSign = true) (hn : n.endsWith ".jar" = true) :
    c.Threads ((if c.settings.unsignAlreadySigned && alreadySigned then [Task.unsign] else []) ++
      (if c.settings.isPack200 then [.pack200, .unpack200] else []) ++
      (if c.isUpdateManifest then [.updateManifest] else []) ++ [.sign]) n n := by
  have unsign : c.Threads (if c.settings.unsignAlreadySigned && alreadySigned then [Task.unsign]
      else []) n n := Threads.optional fun h => by
    rw [Bool.and_eq_true] at h
    exact .keep (by decide) (by decide) (Task.check_unsign.2 (hunsign h.2 hs h.1)) hn
  have normalise : c.Threads (if c.settings.isPack200 then [Task.pack200, .unpack200] else []) n n :=
    Threads.optional fun h => .normalise h hn
  have manifest : c.Threads (if c.isUpdateManifest then [Task.updateManifest] else []) n n :=
    Threads.optional fun h => .keep (by decide) (by decide) (Task.check_updateManifest.2 h) hn
  exact ((unsign.append normalise).append manifest).append
    (.keep (by decide) (by decide) (Task.check_sign.2 hs) hn)

/-- The planned chain of a jar runs from its name to the name it is deployed under. -/
theorem plan_threads {alreadySigned : Bool} {n : String}
    (hunsign : alreadySigned = true → c.settings.isSign = true →
      c.settings.unsignAlreadySigned = true → c.settings.canUnsign = true)
    (hn : n.endsWith ".jar" = true) :
    c.Threads (c.plan alreadySigned) n
      (if c.settings.isPack200 then n ++ c.settings.packExtension else n) := by
  have signing : c.Threads (if c.settings.isSign then
      (if c.settings.unsignAlreadySigned && alreadySigned then [Task.unsign] else []) ++
        (if c.settings.isPack200 then [.pack200, .unpack200] else []) ++
        (if c.isUpdateManifest then [.updateManifest] else []) ++ [.sign]
      else []) n n := by
    split
    · exact .signing hunsign ‹_› hn
    · exact .nil n
  have packing : c.Threads (if c.settings.isPack200 then [Task.pack200] else []) n
      (if c.settings.isPack200 then n ++ c.settings.packExtension else n) := by
    split
    · exact .pack ‹_› hn
    · exact .nil n
  exact signing.append packing

/-- Every task of a chain that runs is enabled. -/
theorem Threads.check {ts : List Task} {n m : String} (h : c.Threads ts n m) :
    ∀ t ∈ ts, t.check c = .ok () := by
  induction h with
  | nil => simp
  | cons fits _ _ ih =>
    intro t ht
    rcases List.mem_cons.1 ht with rfl | ht
    · exact fits.enabled
    · exact ih t ht

/-- Every task of a planned chain is enabled. -/
theorem plan_check {alreadySigned : Bool}
    (hunsign : alreadySigned = true → c.settings.isSign = true →
      c.settings.unsignAlreadySigned = true → c.settings.canUnsign = true) :
    ∀ t ∈ c.plan alreadySigned, t.check c = .ok () :=
  -- whether a task is enabled does not depend on names: run the chain from any jar name
  (plan_threads (n := ".jar") hunsign (by simpa using endsWith_append_self "" ".jar")).check

/-- The planned chain ends by packing exactly when pack200 is enabled. -/
theorem plan_getLast_pack200 (alreadySigned : Bool) :
    (c.plan alreadySigned).getLast? = some .pack200 ↔ c.settings.isPack200 = true := by
  unfold plan
  cases hs : c.settings.isSign <;> cases hp : c.settings.isPack200 <;>
    cases c.isUpdateManifest <;> simp [hs, hp]

/-- A chain signs exactly when the settings sign. -/
theorem plan_contains_sign (alreadySigned : Bool) :
    (c.plan alreadySigned).contains .sign = c.settings.isSign := by
  simp only [plan]
  cases c.settings.isSign <;> cases c.settings.isPack200 <;> cases c.isUpdateManifest <;>
    cases c.settings.unsignAlreadySigned && alreadySigned <;> rfl

end TaskSettings

/-- The chains a planner may produce: when signing,
`[Unsign] [Pack200, UnPack200] [UpdateManifest] Sign [Pack200]` with each bracketed part
optional; otherwise `[Pack200]` or nothing. -/
def ChainShape (signing : Bool) (ts : List Task) : Prop :=
  if signing then
    ∃ u p m q : Bool, ts = (if u then [.unsign] else []) ++ (if p then [.pack200, .unpack200] else []) ++
      (if m then [.updateManifest] else []) ++ .sign :: (if q then [.pack200] else [])
  else ts = [] ∨ ts = [.pack200]

theorem TaskSettings.plan_shape (c : TaskSettings) (alreadySigned : Bool) :
    ChainShape c.settings.isSign (c.plan alreadySigned) := by
  unfold ChainShape plan
  cases hs : c.settings.isSign
  · cases hp : c.settings.isPack200 <;> simp [hs, hp]
  · exact ⟨c.settings.unsignAlreadySigned && alreadySigned, c.settings.isPack200, c.isUpdateManifest,
      c.settings.isPack200, by simp [hs]⟩

/-! ## Running a task that fits its input -/

namespace Task

/-- A tool step of a task: the tool runs, then its output must be there. -/
theorem failsWith_toolStep (t : Task) (a : Act ToolError Unit) (out : Path) :
    Act.FailsWith (do
      t.viaTool a
      let b ← Act.isFile out
      if (!b) = true then do
          throw (TaskError.tool t (ToolError.missingOutput out))
          pure out
        else pure out) (fun e => ∃ te, e = .tool t te) := by
  refine Act.failsWith_bind (Act.failsWith_mapError _ _ fun te => ⟨te, rfl⟩) fun _ => ?_
  refine Act.failsWith_bind (Act.failsWith_isFile _ _) fun b => ?_
  split
  · exact Act.failsWith_bind (Act.failsWith_throw ⟨_, rfl⟩) fun _ => Act.failsWith_pure _ _
  · exact Act.failsWith_pure _ _

/-- The ways a task handed a name it fits can fail: its input is not a file, or its output
would be its input; preparing the stage directory fails; or the tool fails. -/
theorem execute_error_of_fits {t : Task} {c : TaskSettings} {n n' : String} (hfits : t.Fits c n)
    (hout : t.outputName c n = some n') (tk : Toolkit) {input : Path} (dir : Path)
    (hname : input.fileName? = some n) {w w' : World} {e : TaskError}
    (h : (t.execute c tk input dir).runOn w = (.error e, w')) :
    (e = .unexpectedInput t input ∧ (w.disk.isFile input = false ∨ (dir.push n').same input)) ∨
      (∃ io, e = .io io) ∨ (∃ te, e = .tool t te) := by
  unfold Task.execute at h
  simp only [hfits.enabled, Act.ofExcept, pure_bind] at h
  rw [Act.runOn_bind_ok (Act.runOn_isFile input w)] at h
  cases hfile : w.disk.isFile input
  case false =>
    simp only [hfile] at h
    simp at h
    exact .inl ⟨h.1.symm, .inl rfl⟩
  case true =>
    -- the name guard passes: the task accepts its input's name
    have hguard : (t != Task.unpack200 && !n.endsWith ".jar") = false := by
      have acc := hfits.accepted
      cases t
      case unpack200 => rfl
      all_goals simp_all [Accepts]
    simp only [hfile, hname, hout, hguard, Bool.not_true, Bool.false_eq_true, if_false] at h
    rw [Act.runOn_bind] at h
    rcases hd : (Act.mapError TaskError.io (Act.createDirAll dir)).runOn w with ⟨_ | u, w1⟩ <;>
      rw [hd] at h
    · cases h
      exact .inr (.inl (Act.failsWith_mapError (P := fun e => ∃ io, e = TaskError.io io) TaskError.io _
        (fun io => ⟨io, rfl⟩) w _ _ hd))
    · by_cases hsame : (dir.push n').same input
      · simp [hsame] at h
        exact .inl ⟨h.1.symm, .inr hsame⟩
      · simp only [hsame, Bool.false_eq_true, if_false] at h
        refine .inr (.inr ?_)
        cases t with
        | unsign => exact failsWith_toolStep _ _ _ w1 e w' h
        | pack200 => exact failsWith_toolStep _ _ _ w1 e w' h
        | unpack200 => exact failsWith_toolStep _ _ _ w1 e w' h
        | updateManifest => exact failsWith_toolStep _ _ _ w1 e w' h
        | sign =>
          -- signing is enabled, so the second look at the signing settings passes too
          have hsign : c.settings.sign.isNone = false := by
            have := check_sign.1 hfits.enabled
            unfold Settings.isSign at this
            cases hs : c.settings.sign <;> simp_all
          simp only [hsign, Bool.false_eq_true, if_false] at h
          exact failsWith_toolStep _ _ _ w1 e w' h

end Task

/-! ## Building a request -/

namespace RequestBuilder

theorem runOn_newerThan {ε : Type} (p : Path) (t : Nat) (w : World) :
    (newerThan p t : Act ε Bool).runOn w =
      (.ok (match w.disk.stat p with | .ok n => decide (n.mtime > t) | .error _ => false), w) := by
  unfold newerThan
  rw [Act.runOn_bind_ok (Act.runOn_disk w)]
  cases w.disk.stat p <;> rfl

theorem failsWith_newerThan {ε : Type} (p : Path) (t : Nat) (P : ε → Prop) :
    Act.FailsWith (newerThan p t : Act ε Bool) P := by
  intro w e w' h
  rw [runOn_newerThan] at h
  cases h

/-- A signature answer the settings let through: a jar counts as signed only when signing
with unsigning of signed jars asked for, and then only when unsigning is permitted. -/
def LetsThrough (s : Settings) (alreadySigned : Bool) : Prop :=
  alreadySigned = true → s.isSign = true ∧ s.unsignAlreadySigned = true ∧ s.canUnsign = true

/-- What building a request for an artifact fixes: its number, settings and name, a chain
planned from a signature answer the settings let through, and its two copies. -/
structure Builds (b : RequestBuilder) (a : Artifact) (ov : Bool) (r : Request) : Prop where
  id : r.id = b.nextId
  artifact : r.artifact = a
  config : r.config = TaskSettings.forArtifact b.settings a ov b.naming
  filename : r.filename = r.config.fileName a
  tasks : ∃ x, LetsThrough b.settings x ∧ r.tasks = r.config.plan x
  originalFile : r.originalFile = r.config.workingDirectory.push r.filename
  finalFile : r.finalFile = b.settings.libDirectory.push r.filename

theorem build_returns (b : RequestBuilder) (a : Artifact) (ov : Bool) :
    Act.Returns (b.build a ov) (b.Builds a ov) := by
  unfold build
  extract_lets c filename s originalFile finalFile rest
  have hrest : ∀ x : Bool, LetsThrough s x → Act.Returns (rest x) (b.Builds a ov) := by
    intro x hx
    have built : ∀ u, b.Builds a ov ⟨b.nextId, a, c, filename, c.plan x, originalFile, finalFile, u⟩ :=
      fun u => ⟨rfl, rfl, rfl, rfl, ⟨x, hx, rfl⟩, rfl, rfl⟩
    simp only [rest]
    refine Act.returns_bind_right fun _ => Act.returns_bind_right fun _ => ?_
    refine Act.returns_bind_right fun _ => Act.returns_bind_right fun _ => ?_
    split
    · exact Act.returns_bind_right fun _ => Act.returns_pure (built _)
    · exact Act.returns_pure (built _)
  split
  · rename_i hask
    refine Act.returns_bind_right fun signed => ?_
    split
    · exact Act.returns_bind (Act.returns_throw _ fun _ => False) fun _ h => h.elim
    · rename_i hsign
      simp only [pure_bind]
      refine hrest signed fun h => ?_
      simp only [Bool.and_eq_true] at hask
      exact ⟨hask.1, hask.2, by simpa [h] using hsign⟩
  · simp only [pure_bind]
    exact hrest false (by simp [LetsThrough])

/-- A built request signs exactly when the settings sign. -/
theorem Builds.isSigning {b : RequestBuilder} {a : Artifact} {ov : Bool} {r : Request}
    (h : b.Builds a ov r) : r.isSigning = b.settings.isSign := by
  obtain ⟨x, -, htasks⟩ := h.tasks
  rw [Request.isSigning, htasks, TaskSettings.plan_contains_sign, h.config]
  rfl

/-- Building a request never stops at a disabled task: a signed jar that may not be unsigned
is refused before its chain is planned, and every other chain is enabled. -/
theorem build_not_taskPrecondition (b : RequestBuilder) (a : Artifact) (ov : Bool) :
    Act.FailsWith (b.build a ov) fun e => ∀ t n r, e ≠ .config (.taskPrecondition t n r) := by
  unfold build
  extract_lets c filename s originalFile finalFile rest
  -- once the signature question is answered, every failure comes from reading the artifact
  have hrest : ∀ x : Bool, (x = true → s.isSign = true → s.unsignAlreadySigned = true →
      s.canUnsign = true) →
      Act.FailsWith (rest x) fun e => ∀ t n r, e ≠ .config (.taskPrecondition t n r) := by
    intro x hx
    simp only [rest]
    refine Act.failsWith_bind (Act.failsWith_forIn _ _ _ fun t ht _ => ?_) fun _ => ?_
    · rw [TaskSettings.plan_check hx t ht]
      exact Act.failsWith_pure _ _
    · refine Act.failsWith_bind (Act.failsWith_mapError _ _ fun _ _ _ _ => by simp) fun _ => ?_
      refine Act.failsWith_bind (failsWith_newerThan _ _ _) fun _ => ?_
      refine Act.failsWith_bind (failsWith_newerThan _ _ _) fun _ => ?_
      split
      · exact Act.failsWith_bind (failsWith_newerThan _ _ _) fun _ => Act.failsWith_pure _ _
      · exact Act.failsWith_pure _ _
  split
  · refine Act.failsWith_bind (Act.failsWith_mapError _ _ fun _ _ _ _ => by simp) fun signed => ?_
    split
    · exact Act.failsWith_bind_of (Act.failsWith_throw (by simp)) (Act.returns_throw _ fun _ => False)
        fun _ h => h.elim
    · rename_i hsign
      simp only [pure_bind]
      exact hrest signed fun h _ _ => by simpa [h] using hsign
  · simp only [pure_bind]
    exact hrest false (by simp)

/-- The packed companion is named after the deployed jar, with the pack extension. -/
theorem Builds.packedFile {b : RequestBuilder} {a : Artifact} {ov : Bool} {r : Request}
    (h : b.Builds a ov r) (hn : r.filename ≠ "") :
    r.packedFile = if r.tasks.getLast? = some .pack200 then
      some (b.settings.libDirectory.push (r.filename ++ b.settings.packExtension)) else none := by
  unfold Request.packedFile
  rw [h.finalFile, h.config, ← Path.push_append _ _ hn]
  split <;> simp_all [TaskSettings.forArtifact]

end RequestBuilder

/-- **Planned chains are well typed.** For an artifact of a jar type and a signature answer
that building its request lets through, the planned chain has the planner's shape and
every task of it is enabled; it runs from the jar's name to the deployed name, which gains
the pack extension when the chain ends by packing. Building the request never stops at a
disabled task, and names the deployed jar and its packed companion after that end; a task
handed a name it fits never fails for its settings or for that name. -/
theorem planned_chain_well_typed (b : RequestBuilder) (a : Artifact) (ov alreadySigned : Bool)
    (hjar : a.extension = "jar")
    (hsigned : alreadySigned = true → b.settings.isSign = true →
      b.settings.unsignAlreadySigned = true → b.settings.canUnsign = true) :
    let c := TaskSettings.forArtifact b.settings a ov b.naming
    let t := c.plan alreadySigned
    let n := c.fileName a
    let ext := b.settings.packExtension
    ChainShape b.settings.isSign t ∧
    (∀ task ∈ t, task.check c = .ok ()) ∧
    n.endsWith ".jar" = true ∧
    c.Threads t n (if t.getLast? = some .pack200 then n ++ ext else n) ∧
    Act.FailsWith (b.build a ov) (fun e => ∀ task name reason,
      e ≠ .config (.taskPrecondition task name reason)) ∧
    Act.Returns (b.build a ov) (fun r => r.filename = n ∧
      r.finalFile = b.settings.libDirectory.push n ∧
      r.packedFile = if r.tasks.getLast? = some .pack200 then
        some (b.settings.libDirectory.push (n ++ ext)) else none) ∧
    (∀ (task : Task) (name name' : String), task.Fits c name → task.outputName c name = some name' →
      ∀ tk input dir w e w', input.fileName? = some name →
        (task.execute c tk input dir).runOn w = (.error e, w') →
        (∀ task' reason, e ≠ .precondition task' reason) ∧
        (e = .unexpectedInput task input → w.disk.isFile input = false ∨ (dir.push name').same input)) := by
  intro c t n ext
  have hn : n.endsWith ".jar" = true := fileName_endsWith_jar _ _ _ _ hjar
  have threads := TaskSettings.plan_threads (c := c) hsigned hn
  have hext : c.settings.packExtension = ext := rfl
  rw [hext] at threads
  refine ⟨c.plan_shape alreadySigned, threads.check, hn, ?_, RequestBuilder.build_not_taskPrecondition b a ov,
    fun w r w' hr => ?_, fun task name name' hfits hout tk input dir w e w' hname h => ?_⟩
  · -- the chain ends by packing exactly when pack200 is on
    have hlast := TaskSettings.plan_getLast_pack200 (c := c) alreadySigned
    by_cases hp : c.settings.isPack200 = true
    · simpa [t, hlast.2 hp, hp] using threads
    · simpa [t, show ¬t.getLast? = some .pack200 from fun h => hp (hlast.1 h), hp] using threads
  · have built := RequestBuilder.build_returns b a ov w r w' hr
    have hname : r.filename = n := by rw [built.filename, built.config]
    refine ⟨hname, by rw [built.finalFile, hname], ?_⟩
    rw [built.packedFile (hname ▸ ne_empty_of_endsWith_jar hn), hname]
  · rcases Task.execute_error_of_fits hfits hout tk dir hname h with ⟨rfl, hwhy⟩ | ⟨io, rfl⟩ | ⟨te, rfl⟩
    · exact ⟨fun _ _ => nofun, fun _ => hwhy⟩
    · exact ⟨fun _ _ => nofun, nofun⟩
    · exact ⟨fun _ _ => nofun, nofun⟩

/-- The longest chain: a signed jar, unsigned, normalised, given manifest entries, signed and
packed. -/
theorem planned_chain_well_typed_signed_jar :
    let s : Settings :=
      { sign := some { keystore := "ks.jks", keyAlias := "app", storepass := "secret" }
        unsignAlreadySigned := true
        pack200 := { enabled := true }
        manifestEntries := [("Permissions", "all-permissions")] }
    let b : RequestBuilder := ⟨s, .simple, .scripted, 0⟩
    let a : Artifact := { groupId := "org.example", artifactId := "lib", version := "1.0", file := "repo/lib.jar" }
    (a.extension = "jar" ∧ (true = true → b.settings.isSign = true →
      b.settings.unsignAlreadySigned = true → b.settings.canUnsign = true)) ∧
    let c := TaskSettings.forArtifact b.settings a false b.naming
    let t := c.plan true
    let n := c.fileName a
    let ext := b.settings.packExtension
    ChainShape b.settings.isSign t ∧
    (∀ task ∈ t, task.check c = .ok ()) ∧
    n.endsWith ".jar" = true ∧
    c.Threads t n (if t.getLast? = some .pack200 then n ++ ext else n) ∧
    Act.FailsWith (b.build a false) (fun e => ∀ task name reason,
      e ≠ .config (.taskPrecondition task name reason)) ∧
    Act.Returns (b.build a false) (fun r => r.filename = n ∧
      r.finalFile = b.settings.libDirectory.push n ∧
      r.packedFile = if r.tasks.getLast? = some .pack200 then
        some (b.settings.libDirectory.push (n ++ ext)) else none) ∧
    (∀ (task : Task) (name name' : String), task.Fits c name → task.outputName c name = some name' →
      ∀ tk input dir w e w', input.fileName? = some name →
        (task.execute c tk input dir).runOn w = (.error e, w') →
        (∀ task' reason, e ≠ .precondition task' reason) ∧
        (e = .unexpectedInput task input → w.disk.isFile input = false ∨ (dir.push name').same input)) :=
  ⟨⟨rfl, fun _ _ _ => rfl⟩, planned_chain_well_typed _ _ false true rfl fun _ _ _ => rfl⟩

end JarDeploy
