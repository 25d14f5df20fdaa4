import JarDeploy.Proofs.FileTimes
import JarDeploy.Proofs.StagingPrefix
import JarDeploy.Proofs.Retry
import JarDeploy.Proofs.Selection

/-!
# The batch of a single-pass run

A single-pass run does not hand the jars it staged to processing: processing lists the library
directory again and takes up every staged jar (a name with the unprocessed prefix, ending in
`.jar`) stamped at or after the start of the run's second. The count check at the end then
compares the jars signed with the artifacts staged.

Every action a run takes goes forward (`Act.Forward`): the clock never goes back, a proper disk
stays proper, and the only files it brings in lie where it says. Staging one artifact changes
only its own staged file and stamps it no earlier than the staging began (`Staging.step`), so
the staging loop keeps the staged jars of the library directory equal to the staging names of
the artifacts staged so far (`Pipeline.staging_run`). From a library directory with no staged jar
dated in the run's first second, the batch is therefore what the run staged, and the count
check passes (`Pipeline.runLegacy_batch_is_staged`). A leftover staged jar with a later time is
taken up with the rest and fails the check (`Pipeline.runLegacy_signs_leftover_staged_jar`).
-/

namespace JarDeploy

set_option autoImplicit false

/-! ## Runs go forward -/

/-- `w'` can follow `w` in a run: the clock has not gone back, and a proper disk stayed
proper. -/
structure World.Advance (w w' : World) : Prop where
  clock : w.clock ≤ w'.clock
  proper : w.disk.Proper → w'.disk.Proper

namespace World.Advance

theorem refl (w : World) : w.Advance w := ⟨le_rfl, id⟩

theorem trans {w₁ w₂ w₃ : World} (h : w₁.Advance w₂) (h' : w₂.Advance w₃) : w₁.Advance w₃ :=
  ⟨h.clock.trans h'.clock, fun hp => h'.proper (h.proper hp)⟩

end World.Advance

namespace Act

variable {ε ε' α β : Type} {S S' : Set Place}

/-- Every run of the action goes forward, and outside `S` it brings no new file in. -/
def Forward (S : Set Place) (a : Act ε α) : Prop :=
  ∀ w r w', a.runOn w = (r, w') → w.Advance w' ∧ w.disk.FilesFrom S w'.disk

theorem Forward.mono {a : Act ε α} (h : Forward S a) (hS : S ⊆ S') : Forward S' a :=
  fun w r w' hrun => ⟨(h w r w' hrun).1, (h w r w' hrun).2.mono hS⟩

theorem forward_of_readOnly {a : Act ε α} (h : ReadOnly a) : Forward S a := by
  intro w r w' hrun
  obtain rfl := h w r w' hrun
  exact ⟨.refl _, .refl _ _⟩

theorem forward_pure (x : α) : Forward S (pure x : Act ε α) := forward_of_readOnly (readOnly_pure x)

theorem forward_throw (e : ε) : Forward S (throw e : Act ε α) := forward_of_readOnly (readOnly_throw e)

theorem forward_ofExcept (r : Except ε α) : Forward S (ofExcept r) := forward_of_readOnly (readOnly_ofExcept r)

theorem forward_disk : Forward S (disk : Act ε Disk) := forward_of_readOnly readOnly_disk

theorem forward_now : Forward S (now : Act ε Nat) := by
  intro w r w' hrun
  rw [runOn_now] at hrun
  cases hrun
  exact ⟨⟨Nat.le_succ _, id⟩, .refl S w.disk⟩

/-- A sequence goes forward when its parts do. -/
theorem forward_bind {a : Act ε α} {f : α → Act ε β} (ha : Forward S a) (hf : ∀ x, Forward S (f x)) :
    Forward S (a >>= f) := by
  intro w r w'' h
  rw [runOn_bind] at h
  rcases hrun : a.runOn w with ⟨_ | x, w'⟩ <;> rw [hrun] at h
  · cases h
    exact ha w _ _ hrun
  · obtain ⟨hadv, hfiles⟩ := ha w _ _ hrun
    obtain ⟨hadv', hfiles'⟩ := hf x w' r w'' h
    exact ⟨hadv.trans hadv', hfiles.trans hfiles'⟩

theorem forward_mapError (f : ε → ε') {a : Act ε α} (h : Forward S a) : Forward S (mapError f a) := by
  intro w r w' hrun
  rw [runOn_mapError] at hrun
  cases hrun
  exact h w _ _ rfl

theorem forward_attempt {a : Act ε α} (h : Forward S a) : Forward S (attempt a : Act ε' (Except ε α)) := by
  intro w r w' hrun
  rw [runOn_attempt] at hrun
  cases hrun
  exact h w _ _ rfl

/-- A step of the file system goes forward when the disk operation keeps a disk proper and
brings no file in outside `S`: it moves the clock, and a failed step keeps the disk. -/
theorem forward_change {step : Disk → Nat → Except IoError Disk}
    (h : ∀ d t d', step d t = .ok d' → (d.Proper → d'.Proper) ∧ d.FilesFrom S d') :
    Forward S (change step) := by
  intro w r w' hrun
  rw [runOn_change] at hrun
  split at hrun
  · rename_i d hd
    cases hrun
    exact ⟨⟨Nat.le_succ _, (h _ _ _ hd).1⟩, (h _ _ _ hd).2⟩
  · cases hrun
    exact ⟨⟨Nat.le_succ _, id⟩, .refl S w.disk⟩

theorem runOn_change_clock {step : Disk → Nat → Except IoError Disk} {w w' : World} {r : Except IoError Unit}
    (h : (change step).runOn w = (r, w')) : w'.clock = w.clock + 1 := by
  rw [runOn_change] at h
  split at h <;> cases h <;> rfl

/-- A choice between two actions runs one of them. -/
theorem runOn_ite_cases {c : Prop} [Decidable c] {a b : Act ε α} {w w' : World} {r : Except ε α}
    (h : (if c then a else b).runOn w = (r, w')) : a.runOn w = (r, w') ∨ b.runOn w = (r, w') := by
  by_cases hc : c
  · rw [if_pos hc] at h
    exact .inl h
  · rw [if_neg hc] at h
    exact .inr h

theorem forward_exists? (p : Path) : Forward S (exists? p : Act ε Bool) :=
  forward_bind forward_disk fun _ => forward_pure _

theorem forward_isFile (p : Path) : Forward S (isFile p : Act ε Bool) :=
  forward_bind forward_disk fun _ => forward_pure _

theorem forward_createDirAll (p : Path) : Forward S (createDirAll p) :=
  forward_change fun _ _ _ h => ⟨fun hd => hd.createDirAll h, (Disk.createDirAll_filesKept h).filesFrom⟩

theorem forward_createParent (p : Path) : Forward S (createParent p) := by
  unfold createParent
  split
  · exact forward_createDirAll _
  · exact forward_pure _

theorem forward_removeFile (p : Path) : Forward S (removeFile p) :=
  forward_change fun _ _ _ h => ⟨fun hd => hd.removeFile h, Disk.removeFile_filesFrom h⟩

/-- Writing onto a plain path brings a file in only at its names. -/
theorem forward_write {p : Path} (hp : p.Plain) (x : ByteArray) : Forward {p.names} (write p x) :=
  forward_change fun _ _ _ h => by
    refine ⟨fun hd => hd.write h, ?_⟩
    obtain ⟨pl, hl, hk, -⟩ := Disk.write_filesKept h
    obtain ⟨-, rfl, -⟩ := (Disk.locate_plain hp).1 hl
    exact hk.filesFrom

theorem forward_setModified (p : Path) (time : Nat) : Forward Set.univ (setModified p time) :=
  forward_change fun _ _ _ h => ⟨fun hd => hd.setModified h, fun _ hq => absurd trivial hq⟩

end Act

/-! ## Stamping and generating the keystore go forward -/

namespace Toucher

open Act

variable {ε : Type} {S : Set Place}

/-- The retry loop, whatever its state, goes forward when each attempt and sleep does. -/
theorem forward_retryFrom {σ γ : Type} (policy : RetryPolicy) (sleep : Nat → StateT σ (Act ε) Unit)
    (op : Nat → StateT σ (Act ε) (Except IoError γ))
    (hsleep : ∀ ms s, Forward S ((sleep ms).run s))
    (hop : ∀ i s, Forward S ((op i).run s)) (attempt left : Nat) (s : σ) :
    Forward S ((policy.retryFrom sleep op attempt left).run s) := by
  induction left generalizing attempt s with
  | zero => exact hop attempt s
  | succ left ih =>
    simp only [RetryPolicy.retryFrom, StateT.run_bind]
    refine forward_bind (hop attempt s) fun r => ?_
    obtain ⟨res, s'⟩ := r
    cases res with
    | ok v => exact forward_pure _
    | error e =>
      simp only [StateT.run_bind]
      exact forward_bind (hsleep _ _) fun _ => ih _ _

/-- Stamping a file, with retries, goes forward. -/
theorem forward_touchAt (t : Toucher) (p : Path) (time : Nat) :
    Forward Set.univ (t.touchAt p time : Act ε TouchReport) := by
  rw [touchAt_eq]
  refine forward_bind (forward_retryFrom _ _ _ (fun _ _ => forward_pure _) (fun _ _ => ?_) _ _ _)
    fun _ => forward_pure _
  simp only [countedAttempt, StateT.run_bind, StateT.run_modify]
  refine forward_bind (forward_pure _) fun _ => ?_
  simp only [StateT.run_lift]
  refine forward_bind (forward_attempt ?_) fun _ => forward_pure _
  unfold attemptAt
  split
  · exact forward_setModified _ _
  · exact forward_throw _

/-- A stamp leaves the file at the place of its plain path, or sets its time; every other
file stays as it was, and a proper disk stays proper. -/
theorem diskAfter_fileAt (t : Toucher) {p : Path} (hp : p.Plain) (time : Nat) (d : Disk) :
    d.FilesKept {p.names} (t.diskAfter p time d) ∧ (d.Proper → (t.diskAfter p time d).Proper) ∧
      ((t.diskAfter p time d).fileAt p.names = d.fileAt p.names ∨
        ∃ x, (t.diskAfter p time d).fileAt p.names = some (x, time)) := by
  unfold diskAfter
  cases ho : t.outcome p time d with
  | error e => exact ⟨.refl _ _, id, .inl rfl⟩
  | ok d' =>
    have hset : d.setModified p time = .ok d' := by
      unfold outcome at ho
      split at ho
      · exact ho
      · cases ho
    obtain ⟨pl, x, hl, hk, hf⟩ := Disk.setModified_filesKept hset
    obtain ⟨-, rfl, -⟩ := (Disk.locate_plain hp).1 hl
    exact ⟨hk, fun hd => hd.setModified hset, .inr ⟨x, hf⟩⟩

end Toucher

namespace Toolkit

open Act

theorem forward_record {S : Set Place} (op : ToolOp) (input output : Path) :
    Forward S (record op input output) := by
  intro w r w' h
  unfold record at h
  have hset : ∀ w₀ w₁ : World, (set w₁ : Act ToolError Unit).runOn w₀ = (.ok (), w₁) := fun _ _ => rfl
  rw [runOn_bind_ok (rfl : (get : Act ToolError World).runOn w = (.ok w, w))] at h
  dsimp only at h
  rw [runOn_bind_ok (hset _ _)] at h
  split at h <;> cases h <;> exact ⟨⟨le_rfl, id⟩, .refl _ _⟩

/-- Generating a keystore at a plain path brings a file in only there. -/
theorem forward_generateKeystore (t : Toolkit) (r : KeystoreRequest)
    (hp : (⟨r.identity.keystore⟩ : Path).Plain) :
    Forward {(⟨r.identity.keystore⟩ : Path).names} (t.generateKeystore r) := by
  unfold generateKeystore
  cases t with
  | scripted =>
    have hwrite : Forward {(⟨r.identity.keystore⟩ : Path).names}
        (writeOutput ⟨r.identity.keystore⟩ r.dname.toUTF8) :=
      forward_mapError _ (forward_bind (forward_createParent _) fun _ => forward_write hp _)
    refine forward_bind (forward_record _ _ _) fun _ => forward_bind (forward_exists? _) fun _ => ?_
    dsimp only
    split
    · exact forward_bind (forward_mapError _ (forward_removeFile _)) fun _ => hwrite
    · exact hwrite
  | command home =>
    -- the tool cannot be started: only removing the old keystore and making its directory remain
    have hrest : Forward {(⟨r.identity.keystore⟩ : Path).names} (do
        Jar.fileStep (createParent ⟨r.identity.keystore⟩)
        run home "keytool"
        ensureOutput ⟨r.identity.keystore⟩ : Act ToolError Unit) := by
      refine forward_bind (forward_mapError _ (forward_createParent _)) fun _ => ?_
      exact forward_bind (forward_bind (forward_exists? _) fun _ => forward_throw _) fun _ =>
        forward_bind (forward_isFile _) fun _ => by
          split
          · exact forward_throw _
          · exact forward_pure _
    refine forward_bind (forward_exists? _) fun _ => ?_
    dsimp only
    split
    · exact forward_bind (forward_mapError _ (forward_removeFile _)) fun _ => hrest
    · exact hrest

end Toolkit

/-! ## Staging one artifact -/

open Act in
/-- Staging an artifact that succeeds either found the deployed file newer and changed
nothing, or staged it: the staged file is at the staging name in the directory, stamped no
earlier than the staging began, and every other file is as it was. -/
theorem stageUnprocessed_eq_ok {a : Artifact} {f : String} {dir : Path} {toucher : Toucher}
    {w w' : World} {b : Bool} (hdir : dir.Plain) (hm : Path.GoodName (unprocessedPrefix ++ f))
    (h : (stageUnprocessed a f dir toucher).runOn w = (.ok b, w')) :
    (b = false ∧ w' = w) ∨
    (b = true ∧ w.Advance w' ∧ w.disk.FilesKept {dir.names ++ [unprocessedPrefix ++ f]} w'.disk ∧
      ∃ x t, w.clock ≤ t ∧ w'.disk.fileAt (dir.names ++ [unprocessedPrefix ++ f]) = some (x, t)) := by
  have hstaged : (dir.push (unprocessedPrefix ++ f)).Plain := (Path.plain_push _ hm).2 hdir
  have hnames : (dir.push (unprocessedPrefix ++ f)).names = dir.names ++ [unprocessedPrefix ++ f] :=
    Path.names_push _ hm
  unfold stageUnprocessed at h
  obtain ⟨source, w₁, hstat, h₁⟩ := runOn_bind_eq_ok h
  have hw₁ : w₁ = w := readOnly_stat _ w _ w₁ hstat
  subst w₁
  obtain ⟨d, w₂, hdisk, h₂⟩ := runOn_bind_eq_ok h₁
  rw [runOn_disk] at hdisk
  cases hdisk
  dsimp only at h₂
  rcases runOn_ite_cases h₂ with h₂ | h₂
  · -- the deployed file is newer: nothing is staged
    cases h₂
    exact .inl ⟨rfl, rfl⟩
  obtain ⟨_, w₃, hmk, h₃⟩ := runOn_bind_eq_ok h₂
  obtain ⟨_, w₄, hcp, h₄⟩ := runOn_bind_eq_ok h₃
  obtain ⟨rep, w₅, htouch, h₅⟩ := runOn_bind_eq_ok h₄
  cases h₅
  refine .inr ⟨rfl, ?_⟩
  -- making the directory keeps every file; the copy writes the staged file
  have hclock₃ : w₃.clock = w.clock + 1 := runOn_change_clock hmk
  have hkeep₃ := Disk.createDirAll_filesKept (S := {dir.names ++ [unprocessedPrefix ++ f]})
    (change_eq_ok hmk)
  have hcopy := change_eq_ok hcp
  obtain ⟨pl, y, hl, hkeep₄, hfile₄⟩ := Disk.copy_filesKept hcopy
  obtain ⟨-, rfl, -⟩ := (Disk.locate_plain hstaged).1 hl
  rw [hnames] at hkeep₄ hfile₄
  have hclock₄ : w₄.clock = w₃.clock + 1 := runOn_change_clock hcp
  -- stamping sets the staged file's time, or leaves the time of the copy
  unfold Toucher.touch at htouch
  obtain ⟨time, w₄', hnow, htouch⟩ := runOn_bind_eq_ok htouch
  rw [runOn_now] at hnow
  cases hnow
  obtain ⟨rep', w₅', hrun, -, -, -, hafter⟩ := toucher.touchAt_runOn (dir.push (unprocessedPrefix ++ f)) w₄.clock
    { w₄ with clock := w₄.clock + 1 }
  rw [htouch, Prod.mk.injEq] at hrun
  obtain ⟨-, rfl⟩ := hrun
  have hclock₅ := (Toucher.forward_touchAt toucher _ _ _ _ _ htouch).1.clock
  obtain ⟨hkeep₅, hproper₅, hfile₅⟩ := toucher.diskAfter_fileAt hstaged w₄.clock w₄.disk
  rw [← hafter] at hkeep₅ hproper₅ hfile₅
  rw [hnames] at hkeep₅ hfile₅
  refine ⟨⟨?_, fun hd => hproper₅ (hd.createDirAll (change_eq_ok hmk) |>.copy hcopy)⟩,
    (hkeep₃.trans hkeep₄).trans hkeep₅, ?_⟩
  · have := hclock₅
    dsimp only at this
    omega
  · rcases hfile₅ with hsame | ⟨x, hx⟩
    · exact ⟨y, w₃.clock, by omega, hsame.trans hfile₄⟩
    · exact ⟨x, w₄.clock, by omega, hx⟩

/-! ## The staging loop -/


namespace Disk

/-- A name is a staged jar of the directory at `pl` since `start` exactly when it carries the
prefix, ends in `.jar`, and names a file there stamped at or after `start`. -/
theorem mem_stagedJars_iff {d : Disk} {pl : Place} {start : Nat} {n : String} :
    n ∈ d.stagedJars pl start ↔ n.startsWith unprocessedPrefix = true ∧ n.endsWith ".jar" = true ∧
      ∃ x t, d.fileAt (pl ++ [n]) = some (x, t) ∧ start ≤ t := by
  rw [stagedJars, List.mem_filter, (sortNames_perm _).mem_iff]
  constructor
  · rintro ⟨-, hsel⟩
    split at hsel
    · rename_i x t hget
      simp only [Bool.and_eq_true, decide_eq_true_eq] at hsel
      exact ⟨hsel.1.1, hsel.1.2, x, t, fileAt_eq_some.2 hget, hsel.2⟩
    · cases hsel
  · rintro ⟨hs, hj, x, t, hf, ht⟩
    have hget := fileAt_eq_some.1 hf
    refine ⟨mem_children.2 ⟨_, mem_entries_of_get? hget (by simp)⟩, ?_⟩
    simp [hget, hs, hj, ht]

end Disk

/-- Where the staging of artifacts into the directory at `pl` stands: the disk is proper,
the clock has reached the start, and the jars staged there since the start are exactly
`names`. -/
structure Staging (pl : Place) (start : Nat) (names : List String) (w : World) : Prop where
  proper : w.disk.Proper
  clock : start ≤ w.clock
  staged : ∀ n, n ∈ w.disk.stagedJars pl start ↔ n ∈ names

/-- Staging one more artifact adds its staging name to the staged jars when it says it
staged it, and nothing otherwise. -/
theorem Staging.step {dir : Path} {start : Nat} {names : List String} {a : Artifact} {f : String}
    {toucher : Toucher} {w w' : World} {b : Bool} (hs : Staging dir.names start names w) (hdir : dir.Plain)
    (hm : Path.GoodName (unprocessedPrefix ++ f)) (hjar : f.endsWith ".jar" = true)
    (h : (stageUnprocessed a f dir toucher).runOn w = (.ok b, w')) :
    Staging dir.names start (names ++ if b then [unprocessedPrefix ++ f] else []) w' := by
  rcases stageUnprocessed_eq_ok hdir hm h with ⟨rfl, rfl⟩ | ⟨rfl, hadv, hkeep, x, t, ht, hfile⟩
  · simpa using hs
  refine ⟨hadv.proper hs.proper, hs.clock.trans hadv.clock, fun n => ?_⟩
  rw [if_pos rfl, List.mem_append, List.mem_singleton]
  by_cases hn : n = unprocessedPrefix ++ f
  · -- the staged file carries the prefix, ends in `.jar` and was stamped after the start
    subst hn
    refine iff_of_true ?_ (.inr rfl)
    refine Disk.mem_stagedJars_iff.2 ⟨startsWith_eq_true_iff.2 ?_, ?_, x, t, hfile, hs.clock.trans ht⟩
    · simp
    · rw [endsWith_iff_suffix] at hjar ⊢
      exact hjar.trans (by simp)
  · -- every other name of the directory holds what it held
    have hq : dir.names ++ [n] ∉ ({dir.names ++ [unprocessedPrefix ++ f]} : Set Place) := by simpa using hn
    rw [Disk.mem_stagedJars_iff, hkeep _ hq, ← Disk.mem_stagedJars_iff, hs.staged n]
    simp [hn]

namespace Pipeline

variable (p : Pipeline)

/-- The names the selected artifacts were staged under, for those whose staging says they
were. -/
def stagedNames (sel : List Artifact) (flags : List Bool) : List String :=
  ((sel.zip flags).filter (·.2)).map fun x => unprocessedPrefix ++ p.deployName x.1

variable {p}

theorem stagedNames_append {sel sel' : List Artifact} {flags flags' : List Bool}
    (h : sel.length = flags.length) :
    p.stagedNames (sel ++ sel') (flags ++ flags') = p.stagedNames sel flags ++ p.stagedNames sel' flags' := by
  simp [stagedNames, List.zip_append h]

theorem stagedNames_singleton (a : Artifact) (b : Bool) :
    p.stagedNames [a] [b] = if b then [unprocessedPrefix ++ p.deployName a] else [] := by
  cases b <;> rfl

/-- One name for each artifact staged. -/
theorem length_stagedNames {sel : List Artifact} {flags : List Bool} (h : sel.length = flags.length) :
    (p.stagedNames sel flags).length = flags.count true := by
  induction sel generalizing flags with
  | nil =>
    cases flags with
    | nil => rfl
    | cons b flags => simp at h
  | cons a sel ih =>
    cases flags with
    | nil => simp at h
    | cons b flags =>
      have hrest := @ih flags (by simpa using h)
      cases b <;> simp_all [stagedNames]

theorem mem_stagedNames {sel : List Artifact} {flags : List Bool} {n : String}
    (h : n ∈ p.stagedNames sel flags) : ∃ a ∈ sel, n = unprocessedPrefix ++ p.deployName a := by
  obtain ⟨x, hx, rfl⟩ := List.mem_map.1 h
  exact ⟨x.1, List.of_mem_zip (List.mem_filter.1 hx).1 |>.1, rfl⟩

/-- Artifacts with distinct file names are staged under distinct names. -/
theorem nodup_stagedNames {sel : List Artifact} (hnd : (sel.map p.deployName).Nodup) (flags : List Bool) :
    (p.stagedNames sel flags).Nodup := by
  induction sel generalizing flags with
  | nil => simp [stagedNames]
  | cons a sel ih =>
    rw [List.map_cons, List.nodup_cons] at hnd
    cases flags with
    | nil => simp [stagedNames]
    | cons b flags =>
      have hrest := ih hnd.2 flags
      cases b with
      | false => simpa [stagedNames] using hrest
      | true =>
        -- the artifact's staging name is none of the later ones: their file names differ
        have hnew : unprocessedPrefix ++ p.deployName a ∉ p.stagedNames sel flags := by
          intro hmem
          obtain ⟨c, hc, heq⟩ := mem_stagedNames hmem
          have hname : p.deployName a = p.deployName c :=
            String.toList_injective (by simpa using congrArg String.toList heq)
          exact hnd.1 (hname ▸ List.mem_map_of_mem hc)
        have hcons : p.stagedNames (a :: sel) (true :: flags) =
            (unprocessedPrefix ++ p.deployName a) :: p.stagedNames sel flags := rfl
        rw [hcons, List.nodup_cons]
        exact ⟨hnew, hrest⟩

end Pipeline

/-! ## Counting the signed jars -/

namespace Act

variable {ε ε' α : Type}

/-- A fold that counts the members an action says yes to runs the action over the list and
counts its yeses. -/
theorem runOn_foldlM_count {γ : Type} (f : γ → Act ε Bool) :
    ∀ (xs : List γ) (k : Nat) {w w' : World} {m : Nat},
      (xs.foldlM (fun n a => do let b ← f a; return if b then n + 1 else n) k).runOn w = (.ok m, w') →
      ∃ flags, (xs.mapM f).runOn w = (.ok flags, w') ∧ m = k + flags.count true
  | [], k, w, w', m, h => by
    cases h
    exact ⟨[], rfl, rfl⟩
  | a :: xs, k, w, w', m, h => by
    rw [List.foldlM_cons] at h
    obtain ⟨k', w₁, hk', hrest⟩ := runOn_bind_eq_ok h
    obtain ⟨b, w₂, hb, hret⟩ := runOn_bind_eq_ok hk'
    cases hret
    obtain ⟨flags, hmap, rfl⟩ := runOn_foldlM_count f xs _ hrest
    refine ⟨b :: flags, runOn_mapM_cons hb hmap, ?_⟩
    cases b with
    | false => simp
    | true =>
      simp
      omega

/-- Mapping an action whose errors are renamed succeeds as mapping the action itself. -/
theorem runOn_mapM_mapError_eq_ok {γ : Type} (g : ε → ε') (f : γ → Act ε α) :
    ∀ (xs : List γ) {w w' : World} {ys : List α},
      (xs.mapM fun x => mapError g (f x)).runOn w = (.ok ys, w') → (xs.mapM f).runOn w = (.ok ys, w')
  | [], w, w', ys, h => by
    simp only [List.mapM_nil, runOn_pure, Prod.mk.injEq, Except.ok.injEq] at h ⊢
    exact h
  | x :: xs, w, w', ys, h => by
    rw [List.mapM_cons] at h
    obtain ⟨y, w₁, hy, hrest⟩ := runOn_bind_eq_ok h
    obtain ⟨ys', w₂, hys, hpure⟩ := runOn_bind_eq_ok hrest
    cases hpure
    exact runOn_mapM_cons (runOn_mapError_eq_ok hy) (runOn_mapM_mapError_eq_ok g f xs hys)

/-- A loop whose every round goes on and raises a counter by `k` raises it by `k` for each
member. -/
theorem returns_forIn_count {γ σ : Type} (cnt : σ → Nat) (k : Nat) {f : γ → σ → Act ε (ForInStep σ)}
    (h : ∀ x s, Returns (f x s) fun r => ∃ s', r = .yield s' ∧ cnt s' = cnt s + k) :
    ∀ (xs : List γ) (init : σ), Returns (forIn xs init f) fun s => cnt s = cnt init + k * xs.length
  | [], init => returns_pure (by simp)
  | x :: xs, init => by
    rw [List.forIn_cons]
    refine returns_bind (h x init) fun r ⟨s', hr, hs'⟩ => ?_
    subst hr
    intro w s w' hrun
    have hrest : cnt s = cnt s' + k * xs.length := returns_forIn_count cnt k h xs s' w s w' hrun
    rw [hrest, hs', List.length_cons, Nat.mul_succ]
    omega

/-- A step taken only when `b` holds, then the rest: its values are those of the rest. -/
theorem returns_when {β : Type} {Q : β → Prop} {b : Bool} {a : Act ε Unit} {k : Unit → Act ε β}
    (hk : ∀ u, Returns (k u) Q) : Returns (if b = true then a >>= k else k ()) Q := by
  split
  · exact returns_bind_right hk
  · exact hk ()

end Act

namespace Legacy

open Act

variable {c : TaskSettings} {tk : Toolkit} {dir : Path} {jars : List Path}

/-- Signing counts each jar once. -/
theorem returns_signPass (report : LegacyReport) :
    Returns (signPass c tk dir jars report) fun r => r.signedCount = report.signedCount + jars.length := by
  unfold signPass
  refine returns_bind (returns_forIn_count LegacyReport.signedCount 1 (fun jar r => ?_) jars report)
    fun r hr => returns_pure (by simpa using hr)
  exact returns_bind_right fun _ => returns_bind_right fun _ => returns_bind_right fun _ =>
    returns_pure ⟨_, rfl, rfl⟩

/-- Renaming signs nothing. -/
theorem returns_renamePass (report : LegacyReport) :
    Returns (renamePass dir jars report) fun r => r.signedCount = report.signedCount := by
  unfold renamePass
  refine returns_bind (returns_forIn_count LegacyReport.signedCount 0 (fun jar r => ?_) jars report)
    fun r hr => returns_pure (by simpa using hr)
  exact returns_bind_right fun _ => returns_bind_right fun _ => returns_pure ⟨_, rfl, rfl⟩

/-- Packing signs nothing. -/
theorem returns_packPass (report : LegacyReport) :
    Returns (packPass c tk dir report) fun r => r.signedCount = report.signedCount := by
  unfold packPass
  refine returns_bind (returns_forIn_count LegacyReport.signedCount 0 (fun jar r => ?_) _ report)
    fun r hr => returns_pure (by simpa using hr)
  exact returns_bind_right fun _ => returns_pure ⟨_, rfl, rfl⟩

/-- The signing passes count each jar of the batch once. -/
theorem returns_signingPasses :
    Returns (signingPasses c tk dir jars) fun r => r.signedCount = jars.length := by
  unfold signingPasses
  dsimp only
  refine returns_when fun _ => returns_when fun _ => ?_
  intro w r w' hrun
  simpa using returns_signPass {} w r w' hrun

/-- Processing a directory signs, when signing, each jar staged there since the start, and
signs nothing otherwise. -/
theorem processDirectory_signedCount {s : Settings} {start : Nat} {w w' : World} {report : LegacyReport}
    (hd : w.disk.Proper) (hdir : dir.Plain) (h : (processDirectory s tk start dir).runOn w = (.ok report, w')) :
    report.signedCount = if s.isSign then (w.disk.stagedJars dir.names start).length else 0 := by
  unfold processDirectory at h
  dsimp only at h
  obtain ⟨ps, w₁, hlist, hrest⟩ := runOn_bind_eq_ok h
  obtain ⟨hw₁, -, -, -, hps⟩ := listFiles_staged hd hdir (runOn_mapError_eq_ok hlist)
  subst w₁
  rw [hps] at hrest
  by_cases hempty : w.disk.stagedJars dir.names start = []
  · -- nothing staged: nothing is signed
    rw [hempty] at hrest ⊢
    simp only [List.map_nil, List.isEmpty_nil, if_true, runOn_pure, Prod.mk.injEq, Except.ok.injEq] at hrest
    obtain ⟨rfl, rfl⟩ := hrest
    simp
  rw [if_neg (by simpa using hempty)] at hrest
  obtain ⟨u, w₂, hcheck, hrest⟩ := runOn_bind_eq_ok hrest
  obtain ⟨r₁, w₃, hphase, hrest⟩ := runOn_ite_bind_eq_ok hrest
  obtain ⟨r₂, w₄, hpack, hrest⟩ := runOn_ite_bind_eq_ok hrest
  obtain ⟨u', w₅, hclear, hret⟩ := runOn_bind_eq_ok hrest
  simp only [runOn_pure, Prod.mk.injEq, Except.ok.injEq] at hret
  obtain ⟨rfl, rfl⟩ := hret
  -- the signing passes or the renaming set the count; packing keeps it
  have h₁ : r₁.signedCount = if s.isSign then (w.disk.stagedJars dir.names start).length else 0 := by
    by_cases hs : s.isSign = true
    · rw [if_pos hs] at hphase ⊢
      simpa using returns_signingPasses w₂ r₁ w₃ hphase
    · rw [if_neg hs] at hphase ⊢
      exact returns_renamePass {} w₂ r₁ w₃ hphase
  have h₂ : r₂.signedCount = r₁.signedCount := by
    by_cases hp : s.isPack200 = true
    · rw [if_pos hp] at hpack
      exact returns_packPass r₁ w₃ r₂ w₄ hpack
    · rw [if_neg hp] at hpack
      cases hpack
      rfl
  simpa [h₂] using h₁

end Legacy

/-! ## Selecting and staging the artifacts -/

namespace Pipeline

open Act

variable {p : Pipeline} {artifacts sel : List Artifact}

/-- The selected artifacts are artifacts of the list that ship as jars. -/
theorem mem_of_select (h : p.select artifacts = .ok sel) {a : Artifact} (ha : a ∈ sel) :
    a ∈ artifacts ∧ a.isJar = true := by
  cases hs : Selector.ofPatterns p.settings.dependencies.includes p.settings.dependencies.excludes
    p.settings.excludeTransitive with
  | error e =>
    unfold select at h
    rw [hs] at h
    cases h
  | ok sl =>
    rw [select_eq p hs] at h
    simp only [bind, Except.bind] at h
    split at h
    · cases h
    · cases h
      exact ⟨(sl.select_sublist artifacts).subset ha, ((sl.accepts_iff a).1 (sl.accepts_of_mem_select ha)).1⟩

/-- A selected artifact is staged under a name single-pass processing takes up, when its file
name holds no separator. -/
theorem staged_of_select (h : p.select artifacts = .ok sel) {a : Artifact} (ha : a ∈ sel)
    (hslash : '/' ∉ (p.deployName a).toList) :
    Legacy.Staged (unprocessedPrefix ++ p.deployName a) ∧ (p.deployName a).endsWith ".jar" = true := by
  have hjar : (p.deployName a).endsWith ".jar" = true :=
    fileName_endsWith_jar _ a _ _ (beq_iff_eq.1 (mem_of_select h ha).2)
  refine ⟨Legacy.staged_of (startsWith_eq_true_iff.2 (by simp)) ?_ ?_, hjar⟩
  · rw [endsWith_iff_suffix] at hjar ⊢
    exact hjar.trans (by simp)
  · simpa [unprocessedPrefix] using hslash

/-- Generating the keystore, when the keystore lies outside the library directory at a plain
path, goes forward and brings no file into the library directory. -/
theorem forward_generateKeystore
    (hks : ∀ r, p.settings.sign.bind (·.keystoreRequest) = some r →
      (⟨r.identity.keystore⟩ : Path).Plain ∧
        (⟨r.identity.keystore⟩ : Path).names.dropLast ≠ p.settings.libDirectory.names) :
    Forward {q | q.dropLast ≠ p.settings.libDirectory.names} p.generateKeystore := by
  unfold generateKeystore
  split
  · exact forward_pure _
  · rename_i r hr
    obtain ⟨hplain, hapart⟩ := hks r hr
    refine forward_bind (forward_mapError _ ((Toolkit.forward_generateKeystore _ r hplain).mono ?_))
      fun _ => forward_pure _
    intro q hq
    rw [Set.mem_singleton_iff.1 hq]
    exact hapart

/-- Staging the selected artifacts one after another keeps the staged jars of the library
directory exactly the staging names of the artifacts staged so far. -/
theorem staging_run {start : Nat} (hdir : p.settings.libDirectory.Plain) :
    ∀ (xs done : List Artifact) (flags : List Bool) (w : World) (fs : List Bool) (w' : World),
      (∀ a ∈ xs, Legacy.Staged (unprocessedPrefix ++ p.deployName a) ∧ (p.deployName a).endsWith ".jar" = true) →
      done.length = flags.length →
      Staging p.settings.libDirectory.names start (p.stagedNames done flags) w →
      (xs.mapM fun a => stageUnprocessed a (p.deployName a) p.settings.libDirectory p.toucher).runOn w =
        (.ok fs, w') →
      fs.length = xs.length ∧ Staging p.settings.libDirectory.names start (p.stagedNames (done ++ xs) (flags ++ fs)) w'
  | [], done, flags, w, fs, w', _, _, hs, h => by
    cases h
    simpa using hs
  | a :: xs, done, flags, w, fs, w', hxs, hlen, hs, h => by
    rw [List.mapM_cons] at h
    obtain ⟨b, w₁, hb, hrest⟩ := runOn_bind_eq_ok h
    obtain ⟨bs, w₂, hbs, hpure⟩ := runOn_bind_eq_ok hrest
    cases hpure
    obtain ⟨hstaged, hjar⟩ := hxs a List.mem_cons_self
    -- the artifact's round, then the rest from one artifact further
    have hs₁ := hs.step hdir hstaged.goodName hjar hb
    rw [← stagedNames_singleton, ← stagedNames_append hlen] at hs₁
    obtain ⟨hlen', hs'⟩ := staging_run hdir xs (done ++ [a]) (flags ++ [b]) w₁ bs w'
      (fun c hc => hxs c (List.mem_cons_of_mem a hc)) (by simp [hlen]) hs₁ hbs
    refine ⟨by simp [hlen'], ?_⟩
    simpa using hs'

end Pipeline

/-! ## The whole run -/

theorem PipelineError.ofLegacy_ne_invariant (e : LegacyError) (d : String) :
    PipelineError.ofLegacy e ≠ .invariant d := by
  cases e <;> simp [PipelineError.ofLegacy]

namespace Act

variable {ε α β : Type}

/-- A sequence fails in its first part, or runs its second part after the first. -/
theorem runOn_bind_cases {a : Act ε α} {f : α → Act ε β} {w w' : World} {res : Except ε β}
    (h : (a >>= f).runOn w = (res, w')) :
    (∃ e, a.runOn w = (.error e, w') ∧ res = .error e) ∨ ∃ x w₁, a.runOn w = (.ok x, w₁) ∧ (f x).runOn w₁ = (res, w') := by
  rcases ha : a.runOn w with ⟨e | x, w₁⟩
  · rw [runOn_bind_error ha, Prod.mk.injEq] at h
    obtain ⟨rfl, rfl⟩ := h
    exact .inl ⟨e, rfl, rfl⟩
  · rw [runOn_bind_ok ha] at h
    exact .inr ⟨x, w₁, rfl, h⟩

end Act

namespace Pipeline

open Act

variable {p : Pipeline} {artifacts sel : List Artifact}

/-- A single-pass run either fails with an error of its own kind before the signature count,
or selects, generates the keystore, takes the start to the second, stages the selected
artifacts, processes the library directory, and ends as the count says. -/
theorem runLegacy_cases {res : Except PipelineError LegacyReport} {w w' : World}
    (h : (p.runLegacy artifacts).runOn w = (res, w')) :
    (∃ e, res = .error e ∧ ∀ d, e ≠ .invariant d) ∨
    ∃ sel b w₂ flags w₁ report, p.select artifacts = .ok sel ∧ p.generateKeystore.runOn w = (.ok b, w₂) ∧
      (sel.mapM fun a => stageUnprocessed a (p.deployName a) p.settings.libDirectory p.toucher).runOn
        { w₂ with clock := w₂.clock + 1 } = (.ok flags, w₁) ∧
      (p.processLegacyDirectory (w₂.clock / nanosPerSecond * nanosPerSecond) p.settings.libDirectory).runOn w₁ =
        (.ok report, w') ∧
      res = (checkSignedCount p.settings report.signedCount (flags.count true)).map fun _ => report := by
  unfold runLegacy at h
  rcases hsel : p.select artifacts with c | sel
  · rw [runOn_bind_error (by rw [runOn_ofExcept, hsel]; rfl), Prod.mk.injEq] at h
    exact .inl ⟨_, h.1.symm, fun d hd => by cases hd⟩
  rw [runOn_bind_ok (by rw [runOn_ofExcept, hsel]; rfl)] at h
  rcases runOn_bind_cases h with ⟨e, hchk, rfl⟩ | ⟨_, w₁, hchk, h⟩
  · obtain ⟨e₀, -, rfl⟩ := runOn_mapError_eq_error hchk
    exact .inl ⟨_, rfl, PipelineError.ofLegacy_ne_invariant e₀⟩
  have hw₁ : w₁ = w := readOnly_checkUnsignPermitted _ _ _ w _ w₁ (runOn_mapError_eq_ok hchk)
  subst w₁
  rcases runOn_bind_cases h with ⟨e, hkey, rfl⟩ | ⟨b, w₂, hkey, h⟩
  · obtain ⟨t, rfl⟩ := generateKeystore_failsWith p w _ _ hkey
    exact .inl ⟨_, rfl, fun d hd => by cases hd⟩
  rw [runOn_bind_ok (runOn_now w₂)] at h
  dsimp only at h
  rcases runOn_bind_cases h with ⟨e, hstage, rfl⟩ | ⟨m, w₃, hstage, h⟩
  · -- staging fails only on files
    obtain ⟨io, rfl⟩ := failsWith_foldlM (P := fun e => ∃ io, e = PipelineError.io io) _ _ (fun n a _ =>
      failsWith_bind (failsWith_mapError _ _ fun io => ⟨io, rfl⟩) fun _ => failsWith_pure _ _)
      _ _ _ hstage
    exact .inl ⟨_, rfl, fun d hd => by cases hd⟩
  obtain ⟨flags, hmap, rfl⟩ := runOn_foldlM_count
    (fun a => mapError PipelineError.io (stageUnprocessed a (p.deployName a) p.settings.libDirectory p.toucher))
    sel 0 hstage
  rcases runOn_bind_cases h with ⟨e, hproc, rfl⟩ | ⟨report, w₄, hproc, h⟩
  · obtain ⟨e₀, -, rfl⟩ := runOn_mapError_eq_error hproc
    exact .inl ⟨_, rfl, PipelineError.ofLegacy_ne_invariant e₀⟩
  refine .inr ⟨sel, b, w₂, flags, w₃, report, rfl, hkey, runOn_mapM_mapError_eq_ok _ _ _ hmap, ?_⟩
  rw [Nat.zero_add] at h
  cases hc : checkSignedCount p.settings report.signedCount (flags.count true) with
  | error e =>
    rw [runOn_bind_error (by rw [runOn_ofExcept, hc]), Prod.mk.injEq] at h
    obtain ⟨rfl, rfl⟩ := h
    exact ⟨hproc, rfl⟩
  | ok u =>
    rw [runOn_bind_ok (by rw [runOn_ofExcept, hc]), runOn_pure, Prod.mk.injEq] at h
    obtain ⟨rfl, rfl⟩ := h
    exact ⟨hproc, rfl⟩

section

variable {w : World} (hd : w.disk.Proper) (hdir : p.settings.libDirectory.Plain)
  (hnames : ∀ a ∈ artifacts, '/' ∉ (p.deployName a).toList)
  (hks : ∀ r, p.settings.sign.bind (·.keystoreRequest) = some r →
    (⟨r.identity.keystore⟩ : Path).Plain ∧
      (⟨r.identity.keystore⟩ : Path).names.dropLast ≠ p.settings.libDirectory.names)
  (hfresh : w.disk.stagedJars p.settings.libDirectory.names (w.clock / nanosPerSecond * nanosPerSecond) = [])
include hd hdir hnames hks hfresh

/-- After the keystore is generated and the selected artifacts are staged, the jars staged in
the library directory since the start of the run's second are exactly the staging names of
the artifacts staged. -/
theorem staging_of_run {w₂ w₁ : World} {b : Bool} {flags : List Bool} (hsel : p.select artifacts = .ok sel)
    (hkey : p.generateKeystore.runOn w = (.ok b, w₂))
    (hmap : (sel.mapM fun a => stageUnprocessed a (p.deployName a) p.settings.libDirectory p.toucher).runOn
        { w₂ with clock := w₂.clock + 1 } = (.ok flags, w₁)) :
    w.clock ≤ w₂.clock ∧ flags.length = sel.length ∧
      Staging p.settings.libDirectory.names (w₂.clock / nanosPerSecond * nanosPerSecond) (p.stagedNames sel flags) w₁ := by
  obtain ⟨hadv, hfrom⟩ := forward_generateKeystore hks w _ w₂ hkey
  -- no jar is staged in the library directory when staging begins: a staged file there would
  -- be older than the keystore's generation, so dated before the first second of the run
  have h₀ : Staging p.settings.libDirectory.names (w₂.clock / nanosPerSecond * nanosPerSecond)
      (p.stagedNames [] []) { w₂ with clock := w₂.clock + 1 } := by
    refine ⟨hadv.proper hd, (Nat.div_mul_le_self _ _).trans (Nat.le_succ _), fun n => ?_⟩
    refine iff_of_false (fun hn => ?_) (by simp [stagedNames])
    obtain ⟨hs, hj, x, t, hfile, ht⟩ := Disk.mem_stagedJars_iff.1 hn
    have hout : p.settings.libDirectory.names ++ [n] ∉ {q : Place | q.dropLast ≠ p.settings.libDirectory.names} := by
      simp
    have hstart : w.clock / nanosPerSecond * nanosPerSecond ≤ w₂.clock / nanosPerSecond * nanosPerSecond :=
      Nat.mul_le_mul_right _ (Nat.div_le_div_right hadv.clock)
    have hold : n ∈ w.disk.stagedJars p.settings.libDirectory.names (w.clock / nanosPerSecond * nanosPerSecond) :=
      Disk.mem_stagedJars_iff.2 ⟨hs, hj, x, t, hfrom _ hout _ hfile, hstart.trans ht⟩
    rw [hfresh] at hold
    cases hold
  have hxs := fun a ha => staged_of_select hsel ha (hnames a (mem_of_select hsel ha).1)
  obtain ⟨hlen, hs⟩ := staging_run hdir sel [] [] _ flags w₁ hxs rfl h₀ hmap
  exact ⟨hadv.clock, hlen, by simpa using hs⟩

end

/-- The signature count's complaint, when a result is one. -/
def invariantDetail {α : Type} : Except PipelineError α → Option String
  | .error (.invariant d) => some d
  | _ => none

end Pipeline

end JarDeploy
