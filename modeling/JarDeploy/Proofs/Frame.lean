import JarDeploy.Touch
import JarDeploy.Proofs.Act
import JarDeploy.Proofs.Disk

/-!
# What actions may change

`Act.Frames a B D cs` says that, wherever it runs and however it ends, the action `a`
changes the disk at most in the bytes at the places `B` and the directories at the places
`D` (`Disk.Keeps`), and adds exactly the calls `cs` to the record of toolkit calls. Reading
the disk or the clock frames nothing; a sequence frames what its parts frame, the calls
coming from its first part; a step of the file system frames what the disk operation
changes when it succeeds, since a failed step leaves the disk as it was.

So writing or copying onto a plain path frames the bytes at its names only; creating
directories or stamping a file frames nothing; removing a tree frames what lies under its
root. Stamping a deployed file with retries frames nothing either.
-/

namespace JarDeploy.Act

set_option autoImplicit false

variable {ε ε' α β : Type} {B D B' D' : Set Place} {cs : List ToolCall}

@[simp] theorem runOn_now (w : World) :
    (now : Act ε Nat).runOn w = (.ok w.clock, { w with clock := w.clock + 1 }) := rfl

/-- A step of the file system stamps with the clock, then changes the disk if it can. -/
theorem runOn_change (step : Disk → Nat → Except IoError Disk) (w : World) :
    (change step).runOn w = match step w.disk w.clock with
      | .ok d => (.ok (), { w with clock := w.clock + 1, disk := d })
      | .error e => (.error e, { w with clock := w.clock + 1 }) := by
  unfold change
  rw [runOn_bind_ok (runOn_now w), runOn_bind_ok (runOn_disk _)]
  cases step w.disk w.clock with
  | error e => exact runOn_bind_error (runOn_ofExcept _ _)
  | ok d =>
    rw [runOn_bind_ok (runOn_ofExcept _ _)]
    rfl

theorem change_eq_ok {step : Disk → Nat → Except IoError Disk} {w w' : World} {u : Unit}
    (h : (change step).runOn w = (.ok u, w')) : step w.disk w.clock = .ok w'.disk := by
  rw [runOn_change] at h
  split at h
  · rename_i d hd
    cases h
    exact hd
  · cases h

/-- Wherever it runs, the action changes the disk at most in the bytes at `B` and the
directories at `D`, and adds the calls `cs` to the record of toolkit calls. -/
def Frames (a : Act ε α) (B D : Set Place) (cs : List ToolCall) : Prop :=
  ∀ w r w', a.runOn w = (r, w') → w.disk.Keeps B D w'.disk ∧ w'.calls = w.calls ++ cs

/-! ## Rules -/

/-- An action that leaves the disk and the record as they are frames nothing. -/
theorem frames_of_same {a : Act ε α} (h : ∀ w r w', a.runOn w = (r, w') → w'.disk = w.disk ∧ w'.calls = w.calls) :
    Frames a B D [] := by
  intro w r w' hrun
  obtain ⟨hd, hc⟩ := h w r w' hrun
  exact ⟨hd ▸ Disk.Keeps.refl B D w.disk, by rw [hc, List.append_nil]⟩

theorem frames_pure (x : α) : Frames (pure x : Act ε α) B D [] :=
  frames_of_same fun w r w' h => by cases h; exact ⟨rfl, rfl⟩

theorem frames_throw (e : ε) : Frames (throw e : Act ε α) B D [] :=
  frames_of_same fun w r w' h => by cases h; exact ⟨rfl, rfl⟩

theorem frames_disk : Frames (disk : Act ε Disk) B D [] :=
  frames_of_same fun w r w' h => by cases h; exact ⟨rfl, rfl⟩

theorem frames_now : Frames (now : Act ε Nat) B D [] :=
  frames_of_same fun w r w' h => by cases h; exact ⟨rfl, rfl⟩

theorem frames_ofExcept (r : Except ε α) : Frames (ofExcept r) B D [] :=
  frames_of_same fun w r' w' h => by
    rw [runOn_ofExcept] at h
    cases h
    exact ⟨rfl, rfl⟩

theorem Frames.mono {a : Act ε α} (h : Frames a B D cs) (hB : B ⊆ B') (hD : D ⊆ D') :
    Frames a B' D' cs :=
  fun w r w' hrun => ⟨(h w r w' hrun).1.mono hB hD, (h w r w' hrun).2⟩

/-- A sequence frames what its parts frame; its calls are those of the first part. -/
theorem frames_bind {a : Act ε α} {f : α → Act ε β} (ha : Frames a B D cs)
    (hf : ∀ x, Frames (f x) B D []) : Frames (a >>= f) B D cs := by
  intro w r w'' h
  rw [runOn_bind] at h
  rcases hrun : a.runOn w with ⟨_ | x, w'⟩ <;> rw [hrun] at h
  · cases h
    exact ha w _ _ hrun
  · obtain ⟨hk, hc⟩ := ha w _ _ hrun
    obtain ⟨hk', hc'⟩ := hf x w' r w'' h
    exact ⟨hk.trans hk', by rw [hc', hc, List.append_nil]⟩

theorem frames_mapError {a : Act ε α} (f : ε → ε') (h : Frames a B D cs) :
    Frames (mapError f a) B D cs := by
  intro w r w' hrun
  rw [runOn_mapError] at hrun
  cases hrun
  exact h w _ _ rfl

theorem frames_attempt {a : Act ε α} (h : Frames a B D cs) :
    Frames (attempt a : Act ε' (Except ε α)) B D cs := by
  intro w r w' hrun
  rw [runOn_attempt] at hrun
  cases hrun
  exact h w _ _ rfl

/-- Mapping over a list frames what each member's action frames. -/
theorem frames_mapM {γ : Type} {f : γ → Act ε α} (h : ∀ x, Frames (f x) B D []) (xs : List γ) :
    Frames (xs.mapM f) B D [] := by
  induction xs with
  | nil => exact frames_pure _
  | cons x xs ih =>
    rw [List.mapM_cons]
    exact frames_bind (h x) fun _ => frames_bind ih fun _ => frames_pure _

theorem frames_isFile (p : Path) : Frames (isFile p : Act ε Bool) B D [] :=
  frames_bind frames_disk fun _ => frames_pure _

theorem frames_exists? (p : Path) : Frames (exists? p : Act ε Bool) B D [] :=
  frames_bind frames_disk fun _ => frames_pure _

theorem frames_read (p : Path) : Frames (read p) B D [] :=
  frames_bind frames_disk fun _ => frames_ofExcept _

/-- A step of the file system frames what the disk operation changes when it succeeds. -/
theorem frames_change {step : Disk → Nat → Except IoError Disk}
    (h : ∀ d t d', step d t = .ok d' → d.Keeps B D d') : Frames (change step) B D [] := by
  intro w r w' hrun
  rw [runOn_change] at hrun
  split at hrun
  · rename_i d hd
    cases hrun
    exact ⟨h _ _ _ hd, by simp⟩
  · cases hrun
    exact ⟨Disk.Keeps.refl B D w.disk, by simp⟩

/-! ## Steps of the file system -/

variable {p : Path}

theorem frames_write (hp : p.Plain) (x : ByteArray) : Frames (write p x) {p.names} ∅ [] :=
  frames_change fun _ _ _ h => (Disk.write_plain hp h).2

/-- Copying onto a plain path frames the bytes at its names. -/
theorem frames_copy (src : Path) {dst : Path} (hdst : dst.Plain) : Frames (copy src dst) {dst.names} ∅ [] :=
  frames_change fun _ _ _ h => by
    obtain ⟨_, _, _, hw, _⟩ := Disk.copy_eq_ok h
    exact (Disk.write_plain hdst hw).2

theorem frames_createDirAll (p : Path) : Frames (createDirAll p) B D [] :=
  frames_change fun _ _ _ h => (Disk.createDirAll_keeps h).mono (Set.empty_subset _) (Set.empty_subset _)

theorem frames_createParent (p : Path) : Frames (createParent p) B D [] := by
  unfold createParent
  split
  · exact frames_createDirAll _
  · exact frames_pure _

theorem frames_removeDirAll (hp : p.Plain) :
    Frames (removeDirAll p) {q | p.names <+: q} {q | p.names <+: q} [] :=
  frames_change fun _ _ _ h => by
    obtain ⟨pl, hl, hk⟩ := Disk.removeDirAll_eq_ok h
    obtain ⟨-, rfl, -⟩ := (Disk.locate_plain hp).1 hl
    exact hk

theorem frames_setModified (p : Path) (time : Nat) : Frames (setModified p time) B D [] :=
  frames_change fun _ _ _ h => (Disk.setModified_keeps h).mono (Set.empty_subset _) (Set.empty_subset _)

end JarDeploy.Act

namespace JarDeploy.Toucher

set_option autoImplicit false

open Act

variable {ε : Type} {B D : Set Place}

theorem frames_attemptAt (t : Toucher) (p : Path) (time : Nat) : Frames (t.attemptAt p time) B D [] := by
  unfold attemptAt
  split
  · exact frames_setModified _ _
  · exact frames_throw _

/-- The retry loop, whatever its state, frames what each attempt frames. -/
theorem frames_retryFrom {σ γ : Type} (policy : RetryPolicy) (sleep : Nat → StateT σ (Act ε) Unit)
    (op : Nat → StateT σ (Act ε) (Except IoError γ))
    (hsleep : ∀ ms s, Frames ((sleep ms).run s) B D [])
    (hop : ∀ i s, Frames ((op i).run s) B D []) (attempt left : Nat) (s : σ) :
    Frames ((policy.retryFrom sleep op attempt left).run s) B D [] := by
  induction left generalizing attempt s with
  | zero => exact hop attempt s
  | succ left ih =>
    simp only [RetryPolicy.retryFrom, StateT.run_bind]
    refine frames_bind (hop attempt s) fun ⟨res, s'⟩ => ?_
    cases res with
    | ok v => exact frames_pure _
    | error e =>
      simp only [StateT.run_bind]
      exact frames_bind (hsleep _ _) fun _ => ih _ _

/-- Stamping a file, with retries, changes no bytes, removes no directory and calls no tool. -/
theorem frames_touch (t : Toucher) (p : Path) : Frames (t.touch p : Act ε TouchReport) B D [] := by
  unfold touch touchAt
  refine frames_bind frames_now fun time => ?_
  refine frames_bind (frames_retryFrom _ _ _ (fun _ _ => frames_pure _) (fun _ _ => ?_) _ _ _)
    fun _ => frames_pure _
  simp only [StateT.run_bind, StateT.run_modify]
  refine frames_bind (frames_pure _) fun _ => ?_
  simp only [StateT.run_lift]
  exact frames_bind (frames_attempt (frames_attemptAt t p _)) fun _ => frames_pure _

/-- A stamp that cannot fail ends, with every byte and directory kept and no call made. -/
theorem touch_ok (t : Toucher) (p : Path) (w : World) :
    ∃ rep w', (t.touch p : Act Empty TouchReport).runOn w = (.ok rep, w') ∧ w.disk.Keeps ∅ ∅ w'.disk ∧
      w'.calls = w.calls := by
  obtain ⟨rep, w', h⟩ := runOn_eq_ok_of_empty (t.touch p) w
  obtain ⟨hk, hc⟩ := frames_touch (B := ∅) (D := ∅) t p w _ w' h
  exact ⟨rep, w', h, hk, by rw [hc, List.append_nil]⟩

end JarDeploy.Toucher
