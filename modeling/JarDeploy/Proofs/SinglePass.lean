import JarDeploy.Legacy
import JarDeploy.Proofs.Move
import JarDeploy.Proofs.Stage
import JarDeploy.Proofs.Refusal

/-!
# Single-pass processing of a directory

Single-pass processing takes up the batch of jars staged in one directory since a start
time: the regular files directly in it, in byte order, whose names carry the staging
prefix and end in `.jar`, modified at or after the start (`Disk.stagedJars`). It works
through the batch in passes, each a loop over the whole batch in order, so each pass
finishes for every jar before the next begins: unsigning the signed jars in place,
normalising them with pack200 (pack beside, unpack back, remove the pack), signing each
under its name without the prefix and removing the staged jar (or, without signing,
renaming it so), and packing each processed jar beside itself. Tasks run in the scratch
directory `.legacy-work`, removed at the end.

Every step of a pass changes the disk only in the scratch directory and at the names of
the directory it works on for its own jar (`Legacy.region`). When no jar of the batch
bears the name of another with the prefix added, these names differ from jar to jar and
from pass to pass, so what a pass leaves for one jar survives every later step. Then the
toolkit is called exactly as the passes say, in their order (`Legacy.batchCalls`), no
staged jar or normalising pack is left, the scratch directory is gone, the report lists
the processed jars in order, every one of which is there, and every jar was signed when
signing.
-/

namespace JarDeploy

set_option autoImplicit false

/-! ## The names of the batch -/

theorem startsWith_eq_true_iff {s t : String} : s.startsWith t = true ↔ t.toList <+: s.toList := by
  rw [String.startsWith, String.Slice.startsWith_string_iff, String.copy_toSlice]

theorem drop_append_length (p r : String) : ((p ++ r).drop p.length).toString = r := by
  apply String.toList_injective
  simp [← String.length_toList]

namespace Legacy

/-- A name without the staging prefix. -/
def unprefixed (n : String) : String := (n.drop unprocessedPrefix.length).toString

/-- A name single-pass processing takes up: the staging prefix before a name ending in
`.jar`, and no separator. -/
structure Staged (n : String) : Prop where
  eq : n = unprocessedPrefix ++ unprefixed n
  jar : (unprefixed n).endsWith ".jar" = true
  slash : '/' ∉ n.toList

/-- The `.jar` that ends a prefixed name ends what follows the prefix: the prefix holds no dot. -/
theorem staged_of {n : String} (hs : n.startsWith unprocessedPrefix = true)
    (hj : n.endsWith ".jar" = true) (hslash : '/' ∉ n.toList) : Staged n := by
  obtain ⟨r, hr⟩ := startsWith_eq_true_iff.1 hs
  have hn : n = unprocessedPrefix ++ String.ofList r := String.toList_injective (by simp [hr])
  have hu : unprefixed n = String.ofList r := by
    rw [unprefixed, hn, drop_append_length]
  refine ⟨by rw [hu, ← hn], ?_, hslash⟩
  obtain ⟨l, hl⟩ := endsWith_iff_suffix.1 hj
  rw [hu, endsWith_iff_suffix, String.toList_ofList]
  rw [← hr] at hl
  rcases List.append_eq_append_iff.1 hl.symm with ⟨a, -, rfl⟩ | ⟨c, hc, hjar⟩
  · simp
  · -- the suffix starts inside the prefix only if the prefix held its dot
    cases c with
    | nil => simp at hjar; simp [hjar]
    | cons x xs =>
      have hx : x = '.' := by simpa using (congrArg List.head? hjar).symm
      have hmem : x ∈ unprocessedPrefix.toList := by rw [hc]; simp
      rw [hx] at hmem
      exact absurd hmem (by decide)

/-- A name with the pack extension is one component of a path. -/
theorem goodName_append_pack (s : Settings) {m : String} (hm : '/' ∉ m.toList) :
    Path.GoodName (m ++ s.packExtension) := by
  have hs : '/' ∉ (m ++ s.packExtension).toList := by
    simpa using ⟨hm, Settings.slash_not_mem_packExtension _⟩
  have hlast := getLast?_toList_append m (Settings.packExtension_ne_empty s)
  rcases Settings.packExtension_getLast? s with h | h <;>
    exact Path.goodName_of_getLast? hs (hlast.trans h) (by decide)

/-- Taking the pack extension off a packed name gives the name back. -/
theorem unpackName_append (s : Settings) (n : String) :
    (if (n ++ s.packExtension).endsWith s.packExtension = true then
      ((n ++ s.packExtension).take ((n ++ s.packExtension).length - s.packExtension.length)).toString
     else "") = n := by
  simp only [endsWith_append_self, if_true, String.length_append, Nat.add_sub_cancel,
    String.Slice.toString_eq, take_append_length]

section

variable {n : String} (hn : Staged n)
include hn

theorem Staged.unprefixed_ne_empty : unprefixed n ≠ "" := ne_empty_of_endsWith_jar hn.jar

theorem Staged.endsWith_jar : n.endsWith ".jar" = true := by
  rw [hn.eq]
  obtain ⟨l, hl⟩ := endsWith_iff_suffix.1 hn.jar
  rw [endsWith_iff_suffix, String.toList_append, ← hl]
  simpa [List.append_assoc] using List.suffix_append (unprocessedPrefix.toList ++ l) ".jar".toList

theorem Staged.slash_unprefixed : '/' ∉ (unprefixed n).toList := by
  have := hn.slash
  rw [hn.eq, String.toList_append] at this
  exact fun h => this (List.mem_append_right _ h)

theorem Staged.goodName : Path.GoodName n :=
  Path.goodName_of_getLast? hn.slash (getLast?_of_endsWith_jar hn.endsWith_jar) (by decide)

theorem Staged.goodName_unprefixed : Path.GoodName (unprefixed n) :=
  Path.goodName_of_getLast? hn.slash_unprefixed (getLast?_of_endsWith_jar hn.jar) (by decide)

theorem Staged.length_lt : unprocessedPrefix.length < n.length := by
  have hpos : 0 < (unprefixed n).length := by
    rw [← String.length_toList]
    exact List.length_pos_iff.2 (by simpa using hn.unprefixed_ne_empty)
  rw [hn.eq, String.length_append]
  omega

theorem Staged.unprefixed_ne : unprefixed n ≠ n := by
  intro h
  have hlen := congrArg String.length hn.eq
  rw [String.length_append, h] at hlen
  have hpos : 0 < unprocessedPrefix.length := by decide
  omega

theorem Staged.goodName_packed (s : Settings) : Path.GoodName (n ++ s.packExtension) :=
  goodName_append_pack s hn.slash

theorem Staged.goodName_unprefixed_packed (s : Settings) :
    Path.GoodName (unprefixed n ++ s.packExtension) :=
  goodName_append_pack s hn.slash_unprefixed

theorem Staged.stripPrefix_eq (dir : Path) : Legacy.stripPrefix (dir.push n) = .ok (unprefixed n) := by
  have hpre : n.startsWith unprocessedPrefix = true := by
    rw [hn.eq, startsWith_eq_true_iff, String.toList_append]
    exact List.prefix_append _ _
  simp [Legacy.stripPrefix, nameOf, Path.fileName?_push _ hn.goodName, hpre, hn.length_lt, unprefixed]

theorem Staged.stripPrefix_packed (s : Settings) (dir : Path) :
    ∃ m, Legacy.stripPrefix (dir.push (n ++ s.packExtension)) = .ok m := by
  have hpre : (n ++ s.packExtension).startsWith unprocessedPrefix = true := by
    rw [hn.eq, startsWith_eq_true_iff, String.toList_append, String.toList_append, List.append_assoc]
    exact List.prefix_append _ _
  have hlen : unprocessedPrefix.length < n.length + s.packExtension.length := by
    have := hn.length_lt
    omega
  simp [Legacy.stripPrefix, nameOf, Path.fileName?_push _ (hn.goodName_packed s), hpre, hlen]

end

/-! ## Where a step works -/

/-- The places a step of single-pass processing in the directory at `pl` may change when it
works on the names `T`: the scratch directory, and what lies at or under `pl/x` for `x ∈ T`. -/
def region (pl : Place) (T : List String) : Set Place :=
  {q | pl ++ [scratchDirName] <+: q ∨ ∃ x ∈ T, pl ++ [x] <+: q}

variable {pl : Place} {T T' : List String} {x : String}

theorem region_mono (h : ∀ y ∈ T, y ∈ T') : region pl T ⊆ region pl T' := by
  rintro q (hq | ⟨y, hy, hq⟩)
  · exact .inl hq
  · exact .inr ⟨y, h y hy, hq⟩

theorem child_prefix_iff {y : String} : pl ++ [x] <+: pl ++ [y] ↔ x = y := by
  constructor
  · intro h
    simpa using h.eq_of_length (by simp)
  · rintro rfl
    exact List.prefix_refl _

theorem mem_region_of_prefix {q : Place} (hx : x ∈ T) (hq : pl ++ [x] <+: q) : q ∈ region pl T :=
  .inr ⟨x, hx, hq⟩

theorem scratch_mem_region {q : Place} (hq : pl ++ [scratchDirName] <+: q) : q ∈ region pl T :=
  .inl hq

/-- An entry of the directory outside the names worked on lies outside the region. -/
theorem not_mem_region (hx : x ∉ T) (hs : x ≠ scratchDirName) : pl ++ [x] ∉ region pl T := by
  rintro (h | ⟨y, hy, h⟩)
  · exact hs (child_prefix_iff.1 h).symm
  · exact hx (child_prefix_iff.1 h ▸ hy)

/-- The directories above an entry of the directory lie outside every region. -/
theorem take_not_mem_region {k : Nat} (hk : k < (pl ++ [x]).length) :
    (pl ++ [x]).take k ∉ region pl T := by
  have hlen : ((pl ++ [x]).take k).length ≤ pl.length := by
    simp only [List.length_append, List.length_singleton] at hk
    simp only [List.length_take, List.length_append, List.length_singleton]
    omega
  rintro (h | ⟨y, -, h⟩) <;>
  · have := h.length_le
    simp only [List.length_append, List.length_singleton] at this
    omega

/-- The disk changed only in the scratch directory of the directory at `pl` and at the names
`T` in it. -/
def Confined (pl : Place) (T : List String) (d d' : Disk) : Prop :=
  d.Keeps (region pl T) (region pl T) d'

namespace Confined

variable {d d' d'' : Disk}

theorem refl (pl : Place) (T : List String) (d : Disk) : Confined pl T d d := Disk.Keeps.refl _ _ d

theorem trans (h : Confined pl T d d') (h' : Confined pl T d' d'') : Confined pl T d d'' :=
  Disk.Keeps.trans h h'

theorem mono (h : Confined pl T d d') (hT : ∀ y ∈ T, y ∈ T') : Confined pl T' d d' :=
  Disk.Keeps.mono h (region_mono hT) (region_mono hT)

theorem of_keeps {B : Set Place} (h : d.Keeps B B d') (hB : B ⊆ region pl T) : Confined pl T d d' :=
  Disk.Keeps.mono h hB hB

/-- What an entry outside the names worked on holds is kept. -/
theorem bytesAt (h : Confined pl T d d') (hx : x ∉ T) (hs : x ≠ scratchDirName) :
    d'.bytesAt (pl ++ [x]) = d.bytesAt (pl ++ [x]) :=
  h.bytes _ (not_mem_region hx hs)

/-- The directory itself stays. -/
theorem dirsTo (h : Confined pl T d d') (hdirs : d.DirsTo pl) (hpl : d.hasDir pl = true) (x : String) :
    d'.DirsTo (pl ++ [x]) := by
  intro k hk'
  refine h.dirs _ (take_not_mem_region hk') ?_
  rcases Nat.lt_or_ge k pl.length with hlt | hge
  · rw [List.take_append_of_le_length hlt.le]
    exact hdirs k hlt
  · have : k = pl.length := by simp at hk'; omega
    subst this
    simpa using hpl

/-- A file at a name outside the names worked on reads as it did. -/
theorem read_push {dir : Path} {X : ByteArray} (h : Confined dir.names T d d') (hdir : dir.Plain)
    (hx : Path.GoodName x) (hxT : x ∉ T) (hs : x ≠ scratchDirName) (hr : d.read (dir.push x) = .ok X) :
    d'.read (dir.push x) = .ok X := by
  refine Disk.Keeps.read h ((Path.plain_push _ hx).2 hdir) ?_ ?_ hr
  · rw [Path.names_push _ hx]
    exact not_mem_region hxT hs
  · rw [Path.names_push _ hx]
    exact fun k hk => take_not_mem_region hk

end Confined

end Legacy

/-! ## Loops -/

namespace Act

variable {ε : Type}

/-- A loop invariant over the elements consumed so far: when every round that starts where it
holds goes on and re-establishes it one element further, a loop that succeeds ends where it
holds of the whole list. -/
theorem runOn_forIn_inv {γ σ : Type} {xs : List γ} {init : σ} {f : γ → σ → Act ε (ForInStep σ)}
    (I : List γ → σ → World → Prop)
    (hstep : ∀ pre x post s w₁ r w₂, xs = pre ++ x :: post → I pre s w₁ →
      (f x s).runOn w₁ = (.ok r, w₂) → ∃ s', r = .yield s' ∧ I (pre ++ [x]) s' w₂)
    {w w' : World} {s' : σ} (h0 : I [] init w) (h : (forIn xs init f).runOn w = (.ok s', w')) :
    I xs s' w' := by
  -- the induction runs over what is left, the invariant over what was consumed
  suffices key : ∀ rest pre s w₁, xs = pre ++ rest → I pre s w₁ →
      (forIn rest s f).runOn w₁ = (.ok s', w') → I xs s' w' from key xs [] init w rfl h0 h
  intro rest
  induction rest with
  | nil =>
    intro pre s w₁ hxs hI hrun
    cases hrun
    simpa [hxs] using hI
  | cons x rest ih =>
    intro pre s w₁ hxs hI hrun
    rw [List.forIn_cons] at hrun
    obtain ⟨r, w₂, hx, hrest⟩ := runOn_bind_eq_ok hrun
    obtain ⟨s'', rfl, hI'⟩ := hstep pre x rest s w₁ r w₂ hxs hI hx
    exact ih (pre ++ [x]) s'' w₂ (by simp [hxs]) hI' hrest

/-- A step run only when `c` holds, then the rest: the rest runs where the step left the world,
or where it began when the step was skipped. -/
theorem runOn_when_eq_ok {α : Type} {c : Bool} {a : Act ε Unit} {k : Act ε α} {w w' : World} {x : α}
    (h : (if c = true then a >>= fun _ => k else k).runOn w = (.ok x, w')) :
    ∃ w₁, (if c = true then a.runOn w = (.ok (), w₁) else w₁ = w) ∧ k.runOn w₁ = (.ok x, w') := by
  cases c with
  | true =>
    obtain ⟨u, w₁, ha, hk⟩ := runOn_bind_eq_ok h
    exact ⟨w₁, ha, hk⟩
  | false => exact ⟨w, rfl, h⟩

/-- A result taken from a computation that gives `x` is `x`, and the world is unchanged. -/
theorem runOn_ofExcept_eq_ok {α : Type} {r : Except ε α} {x y : α} {w w' : World} (hr : r = .ok x)
    (h : (ofExcept r).runOn w = (.ok y, w')) : y = x ∧ w' = w := by
  rw [runOn_ofExcept, hr, Prod.mk.injEq, Except.ok.injEq] at h
  exact ⟨h.1.symm, h.2.symm⟩

/-- A choice between two steps with the same continuation: the chosen step, then the rest. -/
theorem runOn_ite_bind_eq_ok {α β : Type} {c : Prop} [Decidable c] {a b : Act ε α} {k : α → Act ε β}
    {w w' : World} {y : β} (h : (if c then a >>= k else b >>= k).runOn w = (.ok y, w')) :
    ∃ x w₁, (if c then a else b).runOn w = (.ok x, w₁) ∧ (k x).runOn w₁ = (.ok y, w') := by
  by_cases hc : c
  · rw [if_pos hc] at h ⊢
    exact runOn_bind_eq_ok h
  · rw [if_neg hc] at h ⊢
    exact runOn_bind_eq_ok h

end Act

/-! ## A task run into the directory -/

open Act

variable {t : Task} {c : TaskSettings} {tk : Toolkit} {input dir : Path} {n n' : String}
  {w w' : World}

/-- A task that ends with its output passed its checks: the settings enable it, its input
was a file with a name it takes, and its output is not its input. -/
theorem execute_guards (hname : input.fileName? = some n) (hout : t.outputName c n = some n')
    {out : Path} (h : (t.execute c tk input dir).runOn w = (.ok out, w')) :
    t.check c = .ok () ∧ w.disk.isFile input = true ∧ (t ≠ .unpack200 → n.endsWith ".jar" = true) ∧
      (dir.push n').same input = false := by
  unfold Task.execute at h
  cases hc : t.check c with
  | error e =>
    simp only [hc, Act.ofExcept] at h
    rw [runOn_bind_error (runOn_throw _ _)] at h
    cases h
  | ok u =>
    simp only [hc, Act.ofExcept, pure_bind] at h
    rw [runOn_bind_ok (runOn_isFile input w)] at h
    cases hf : w.disk.isFile input
    · simp only [hf, Bool.not_false, if_true] at h
      rw [runOn_bind_error (runOn_throw _ _)] at h
      cases h
    simp only [hf, hname, hout, Bool.not_true, Bool.false_eq_true, if_false] at h
    have hjar : t ≠ .unpack200 → n.endsWith ".jar" = true := by
      intro ht
      by_contra hj
      have hne : (t != Task.unpack200) = true := by cases t <;> first | rfl | exact absurd rfl ht
      rw [if_pos (by rw [Bool.and_eq_true, Bool.not_eq_true']; exact ⟨hne, Bool.eq_false_iff.2 hj⟩),
        runOn_bind_error (runOn_throw _ _)] at h
      cases h
    refine ⟨rfl, rfl, hjar, ?_⟩
    rw [if_neg fun hcond => by simp_all] at h
    rcases hd : (mapError TaskError.io (createDirAll dir)).runOn w with ⟨e | v, w₁⟩
    · rw [runOn_bind_error hd] at h
      cases h
    rw [runOn_bind_ok hd] at h
    by_contra hs
    rw [if_pos (Bool.not_eq_false _ ▸ hs), runOn_bind_error (runOn_throw _ _)] at h
    cases h

/-- A task that ends with its output fits the name it was handed, its input is a file, and
its output is not its input. -/
theorem execute_fits (hname : input.fileName? = some n) (hout : t.outputName c n = some n')
    {out : Path} (h : (t.execute c tk input dir).runOn w = (.ok out, w')) :
    t.Fits c n ∧ w.disk.isFile input = true ∧ (dir.push n').same input = false := by
  obtain ⟨hcheck, hfile, hjar, hsame⟩ := execute_guards hname hout h
  refine ⟨⟨hcheck, ?_⟩, hfile, hsame⟩
  unfold Task.Accepts
  split
  · -- unpacking takes a name with the pack extension, or it names no output
    subst_vars
    simp only [Task.outputName] at hout
    split at hout
    · rename_i hc
      exact (Bool.and_eq_true _ _ ▸ hc).1
    · cases hout
  · exact hjar ‹_›

/-- A task that ends with its output wrote only its output, which is there, and called the
toolkit once. -/
theorem execute_eq_ok (hname : input.fileName? = some n) (hout : t.outputName c n = some n')
    (hplain : (dir.push n').Plain) {out : Path} (h : (t.execute c tk input dir).runOn w = (.ok out, w')) :
    out = dir.push n' ∧ w.disk.Keeps {(dir.push n').names} ∅ w'.disk ∧
      w'.calls = w.calls ++ tk.log [⟨t.toolOp, input, dir.push n'⟩] ∧ w'.disk.isFile (dir.push n') = true := by
  obtain ⟨hfits, hfile, hsame⟩ := execute_fits hname hout h
  obtain ⟨hk, hres⟩ := execute_ok hfits hout hname hsame hplain hfile h
  rcases hres with ⟨⟨e, he⟩, -⟩ | ⟨hc, ⟨e, he⟩ | ⟨he, hf⟩⟩
  · cases he
  · cases he
  · cases he
    exact ⟨rfl, hk, hc, hf⟩

theorem goodName_scratchDirName : Path.GoodName scratchDirName := by
  unfold Path.GoodName scratchDirName
  decide

theorem Task.goodName_name (t : Task) : Path.GoodName t.name := by
  rcases Task.name_getLast? t with h | h | h <;>
    exact Path.goodName_of_getLast? (Task.slash_not_mem_name t) h (by decide)

/-- The file a task writes in the scratch directory of `dir`. -/
theorem names_scratchOutput (dir : Path) (t : Task) (hn' : Path.GoodName n') :
    (((dir.push scratchDirName).push t.name).push n').names = dir.names ++ [scratchDirName, t.name, n'] := by
  simp [Path.names_push _ goodName_scratchDirName, Path.names_push _ (Task.goodName_name t),
    Path.names_push _ hn']

theorem plain_scratchOutput (t : Task) (hdir : dir.Plain) (hn' : Path.GoodName n') :
    (((dir.push scratchDirName).push t.name).push n').Plain := by
  simpa [Path.plain_push _ goodName_scratchDirName, Path.plain_push _ (Task.goodName_name t),
    Path.plain_push _ hn'] using hdir

/-- Moving a task's output from the scratch directory to `dir/target` changes the disk only in
the scratch directory and at the target, which then holds what the output held. -/
theorem moveOut_eq_ok {target : String} (hdir : dir.Plain) (hn' : Path.GoodName n')
    (htarget : Path.GoodName target) (hts : target ≠ scratchDirName) {u : Unit}
    (h : (Act.rename (((dir.push scratchDirName).push t.name).push n') (dir.push target)).runOn w = (.ok u, w')) :
    Legacy.Confined dir.names [target] w.disk w'.disk ∧ w'.calls = w.calls ∧
      w'.disk.bytesAt (dir.names ++ [target]) = w.disk.bytesAt (dir.names ++ [scratchDirName, t.name, n']) := by
  have hsrc := names_scratchOutput dir t hn'
  have hdst : (dir.push target).names = dir.names ++ [target] := Path.names_push _ htarget
  have houtPlain := plain_scratchOutput t hdir hn'
  have hdstPlain : (dir.push target).Plain := (Path.plain_push _ htarget).2 hdir
  -- the output and the target lie apart: neither is under the other
  have hst : ¬ (((dir.push scratchDirName).push t.name).push n').names <+: (dir.push target).names := by
    rw [hsrc, hdst]
    intro hp
    have := hp.length_le
    simp at this
  have hts' : ¬ (dir.push target).names <+: (((dir.push scratchDirName).push t.name).push n').names := by
    rw [hsrc, hdst, List.prefix_append_right_inj]
    intro hp
    exact hts (by simpa using hp)
  have hsne : (((dir.push scratchDirName).push t.name).push n').names ≠ [] := by simp [hsrc]
  have hdne : (dir.push target).names ≠ [] := by simp [hdst]
  obtain ⟨hk, hc⟩ := frames_rename houtPlain hdstPlain hsne hdne hst hts' w _ _ h
  obtain ⟨hmoved, -⟩ := rename_ok houtPlain hdstPlain hsne hdne hst hts' h
  refine ⟨Legacy.Confined.of_keeps hk ?_, by rw [hc, List.append_nil], by rw [← hdst, hmoved, hsrc]⟩
  rintro q (hq | hq)
  · refine Legacy.scratch_mem_region (List.IsPrefix.trans ?_ hq)
    rw [hsrc]
    exact (List.prefix_append_right_inj _).2 (by simp)
  · exact Legacy.mem_region_of_prefix (List.mem_singleton_self _) (hdst ▸ hq)

/-- Running a task into the directory: the task writes its output in the scratch directory,
calling the toolkit once, and the output is moved to the target name. The step changes the
disk only in the scratch directory and at the target, where a file is left. -/
theorem runInto_eq_ok {target : String} (hdir : dir.Plain)
    (hwork : c.workingDirectory = dir.push scratchDirName) (hname : input.fileName? = some n)
    (hout : t.outputName c n = some n') (hn' : Path.GoodName n') (htarget : Path.GoodName target)
    (hts : target ≠ scratchDirName) {dest : Path}
    (h : (Legacy.runInto c tk t input dir target).runOn w = (.ok dest, w')) :
    dest = dir.push target ∧
      w'.calls = w.calls ++ tk.log [⟨t.toolOp, input, ((dir.push scratchDirName).push t.name).push n'⟩] ∧
      Legacy.Confined dir.names [target] w.disk w'.disk ∧
      (w'.disk.bytesAt (dir.names ++ [target])).isSome := by
  unfold Legacy.runInto at h
  obtain ⟨out, w₁, hex, hrest⟩ := runOn_bind_eq_ok h
  have hex' := runOn_mapError_eq_ok hex
  rw [hwork] at hex'
  have houtPlain := plain_scratchOutput t hdir hn'
  obtain ⟨rfl, hk₁, hc₁, hf₁⟩ := execute_eq_ok hname hout houtPlain hex'
  obtain ⟨u, w₂, hren, hpure⟩ := runOn_bind_eq_ok hrest
  cases hpure
  obtain ⟨hconf₂, hc₂, hmoved⟩ := moveOut_eq_ok hdir hn' htarget hts (runOn_mapError_eq_ok hren)
  refine ⟨rfl, by rw [hc₂, hc₁], ?_, ?_⟩
  · -- the task writes only its output, in the scratch directory
    have hsub : {(((dir.push scratchDirName).push t.name).push n').names} ⊆ Legacy.region dir.names [target] := by
      rintro q rfl
      exact Legacy.scratch_mem_region (by rw [names_scratchOutput dir t hn']; simp)
    exact (hk₁.mono hsub (Set.empty_subset _)).trans hconf₂
  · obtain ⟨X, hX⟩ := Disk.isFile_iff_read.1 hf₁
    obtain ⟨-, -, hb⟩ := (Disk.read_plain houtPlain).1 hX
    rw [hmoved, ← names_scratchOutput dir t hn', hb]
    rfl

/-- Removing an entry of the directory changes that entry only, calls no tool, and leaves no
file there. -/
theorem removeFile_confined {x : String} (hdir : dir.Plain) (hx : Path.GoodName x) {u : Unit}
    (h : (Act.removeFile (dir.push x)).runOn w = (.ok u, w')) :
    Legacy.Confined dir.names [x] w.disk w'.disk ∧ w'.calls = w.calls ∧
      w'.disk.bytesAt (dir.names ++ [x]) = none := by
  have hplain : (dir.push x).Plain := (Path.plain_push _ hx).2 hdir
  obtain ⟨hk, hc⟩ := Act.frames_removeFile hplain w _ _ h
  have hgone := Act.removeFile_ok hplain h
  rw [Path.names_push _ hx] at hk hgone
  refine ⟨Legacy.Confined.of_keeps hk fun q hq => Legacy.mem_region_of_prefix (List.mem_singleton_self x) hq,
    by rw [hc, List.append_nil], by simp [Disk.bytesAt, hgone]⟩

/-! ## Whether a jar is signed -/

/-- Whether the toolkit finds a jar with these bytes signed: the scripted toolkit looks for
its mark, the command toolkit for a signature entry in the archive. -/
def Toolkit.signedData : Toolkit → ByteArray → Except ToolError Bool
  | .scripted, x => .ok (hasMark x signedMark)
  | .command _, x => ((Zip.Archive.read x).mapError .zip).map fun a => a.names.any Jar.isSignatureEntry

/-- Whether the toolkit finds the file at `p` signed; a path that names no file is not. -/
def Toolkit.findsSigned (tk : Toolkit) (d : Disk) (p : Path) : Bool :=
  match d.read p with
  | .ok x =>
    match tk.signedData x with
    | .ok b => b
    | .error _ => false
  | .error _ => false

/-- Asking whether a file is signed looks only at its bytes. -/
theorem Toolkit.isSigned_runOn (tk : Toolkit) {p : Path} {X : ByteArray} (h : w.disk.read p = .ok X) :
    (tk.isSigned p).runOn w = (tk.signedData X, w) := by
  cases tk with
  | scripted =>
    have hread : (Toolkit.readInput p).runOn w = (.ok X, w) := by
      simp [Toolkit.readInput, Jar.fileStep, Act.read, Act.runOn_bind_ok (Act.runOn_disk w), h,
        Except.mapError]
    show (Toolkit.readInput p >>= fun b => pure (hasMark b signedMark)).runOn w = _
    rw [Act.runOn_bind_ok hread]
    rfl
  | command home =>
    -- the bytes come from the file the path leads to
    have hfind : ∃ t₀, w.disk.findPath p = .node (.file X t₀) := by
      unfold Disk.read at h
      split at h
      · cases h
        exact ⟨_, ‹_›⟩
      all_goals cases h
    obtain ⟨t₀, hf⟩ := hfind
    simp only [Toolkit.isSigned, Jar.isSigned, Jar.openArchive, signedData, bind_assoc]
    rw [Act.runOn_bind_ok (Act.runOn_disk w)]
    simp only [hf]
    cases (Zip.Archive.read X).mapError ToolError.zip <;> rfl

/-! ## The batch -/

/-- The jars staged in the directory at `pl` since `start`: the files directly in it, in byte
order, whose names carry the staging prefix and end in `.jar`, modified at or after `start`. -/
def Disk.stagedJars (d : Disk) (pl : Place) (start : Nat) : List String :=
  (Disk.sortNames (d.children pl)).filter fun n =>
    match d.get? (pl ++ [n]) with
    | some (.file _ t) => n.startsWith unprocessedPrefix && n.endsWith ".jar" && decide (start ≤ t)
    | _ => false

/-- Listing the directory for jars staged since `start` finds the staged jars. -/
theorem listFiles_staged {dir : Path} {start : Nat} {ps : List Path} (hd : w.disk.Proper) (hdir : dir.Plain)
    (h : (listFiles dir (.and (.and .jar .unprocessed) (.modifiedSince start))).runOn w = (.ok ps, w')) :
    w' = w ∧ dir.Relative ∧ w.disk.DirsTo dir.names ∧ w.disk.hasDir dir.names = true ∧
      ps = (w.disk.stagedJars dir.names start).map dir.push := by
  obtain ⟨hw, hrel, hdirs, hhas, rfl⟩ := runOn_listFiles hd hdir h
  subst w'
  refine ⟨rfl, hrel, hdirs, hhas, ?_⟩
  congr 1
  refine List.filter_congr fun n hn => ?_
  have hgood := Disk.goodName_of_mem_children hd ((Disk.sortNames_perm _).subset hn)
  cases hget : w.disk.get? (dir.names ++ [n]) with
  | none => rfl
  | some nd =>
    cases nd with
    | dir t => simp [FileFilter.accepts, Node.isFile]
    | file X t =>
      simp only [FileFilter.accepts, Path.fileName?_push _ hgood, Option.getD_some, Node.isFile,
        Node.mtime, Bool.true_and, ge_iff_le]
      cases n.endsWith ".jar" <;> cases n.startsWith unprocessedPrefix <;> rfl

/-- A staged jar is a file with a staged name, modified at or after the start. -/
theorem Disk.mem_stagedJars {d : Disk} {pl : Place} {start : Nat} (hd : d.Proper)
    (h : n ∈ d.stagedJars pl start) :
    Legacy.Staged n ∧ ∃ X t, d.get? (pl ++ [n]) = some (.file X t) ∧ start ≤ t := by
  rw [Disk.stagedJars, List.mem_filter] at h
  obtain ⟨hn, hsel⟩ := h
  have hgood := Disk.goodName_of_mem_children hd ((Disk.sortNames_perm _).subset hn)
  split at hsel
  · rename_i X t hget
    simp only [Bool.and_eq_true, decide_eq_true_eq] at hsel
    obtain ⟨⟨hs, hj⟩, ht⟩ := hsel
    exact ⟨Legacy.staged_of hs hj hgood.2.2.2, X, t, hget, ht⟩
  · cases hsel

theorem Disk.stagedJars_nodup {d : Disk} (hd : d.Proper) (pl : Place) (start : Nat) :
    (d.stagedJars pl start).Nodup :=
  ((Disk.sortNames_perm _).nodup_iff.2 (Disk.children_nodup hd pl)).filter _

/-! ## Names that never meet -/

/-- A name ending in the pack extension is no jar's name. -/
theorem append_pack_ne_jar (s : Settings) (x : String) {y : String} (hy : y.endsWith ".jar" = true) :
    x ++ s.packExtension ≠ y := by
  rintro rfl
  have hlast := getLast?_toList_append x (Settings.packExtension_ne_empty s)
  rw [getLast?_of_endsWith_jar hy] at hlast
  rcases Settings.packExtension_getLast? s with h | h <;> rw [h] at hlast <;> simp at hlast

theorem jar_ne_scratch {y : String} (hy : y.endsWith ".jar" = true) : y ≠ scratchDirName := by
  rintro rfl
  exact absurd (getLast?_of_endsWith_jar hy) (by decide)

theorem append_pack_ne_scratch (s : Settings) (x : String) : x ++ s.packExtension ≠ scratchDirName := by
  intro h
  have hs := endsWith_append_self x s.packExtension
  rw [h, endsWith_iff_suffix] at hs
  unfold Settings.packExtension at hs
  split at hs <;> exact absurd hs (by decide)

theorem append_pack_inj (s : Settings) {x y : String} (h : x ++ s.packExtension = y ++ s.packExtension) :
    x = y :=
  String.toList_injective (by simpa using congrArg String.toList h)

namespace Legacy

theorem nameOf_push (dir : Path) {x : String} (hx : Path.GoodName x) : nameOf (dir.push x) = x := by
  simp [nameOf, Path.fileName?_push _ hx]

/-- A batch single-pass processing works through with no two of its names meeting: staged
names, each once, none of them another's with the prefix taken off. -/
structure Batch (B : List String) : Prop where
  staged : ∀ n ∈ B, Staged n
  nodup : B.Nodup
  apart : ∀ m ∈ B, unprocessedPrefix ++ m ∉ B

namespace Batch

variable {B : List String} (hB : Batch B) {m : String}
include hB

theorem unprefixed_inj (hn : n ∈ B) (hm : m ∈ B) (h : unprefixed n = unprefixed m) : n = m := by
  rw [(hB.staged n hn).eq, (hB.staged m hm).eq, h]

theorem ne_unprefixed (hn : n ∈ B) (hm : m ∈ B) : n ≠ unprefixed m := by
  intro h
  apply hB.apart n hn
  rw [h, ← (hB.staged m hm).eq]
  exact hm

/-- Jars before another in the batch are other jars. -/
theorem ne_of_split {pre post : List String} (hsplit : B = pre ++ n :: post) (hm : m ∈ pre) : m ≠ n := by
  have hnd := hB.nodup
  rw [hsplit, List.nodup_append] at hnd
  exact hnd.2.2 m hm n List.mem_cons_self

/-- A jar lies outside what signing or renaming the jars before it changed. -/
theorem not_mem_moved {pre post : List String} (hsplit : B = pre ++ n :: post) :
    n ∉ pre.flatMap fun m => [unprefixed m, m] := by
  have hn : n ∈ B := by rw [hsplit]; simp
  simp only [List.mem_flatMap, List.mem_cons, List.not_mem_nil, or_false, not_exists, not_and, not_or]
  intro m hm
  have hm' : m ∈ B := by rw [hsplit]; simp [hm]
  exact ⟨hB.ne_unprefixed hn hm', (hB.ne_of_split hsplit hm).symm⟩

/-- What signing or renaming an earlier jar left lies outside what the round of a later jar
changes. -/
theorem unprefixed_not_mem_moved {pre post : List String} (hsplit : B = pre ++ n :: post) (hm : m ∈ pre) :
    unprefixed m ∉ [unprefixed n, n] := by
  have hn : n ∈ B := by rw [hsplit]; simp
  have hm' : m ∈ B := by rw [hsplit]; simp [hm]
  have hne : unprefixed m ≠ unprefixed n := fun h => hB.ne_of_split hsplit hm (hB.unprefixed_inj hm' hn h)
  simp [hne, (hB.ne_unprefixed hn hm').symm]

end Batch

end Legacy

/-! ## Passes -/

namespace Legacy

/-- The call a pass makes when it runs the task `t` on `dir/input`: the task writes `output`
in its own directory of the scratch directory. -/
def passCall (dir : Path) (t : Task) (input output : String) : ToolCall :=
  ⟨t.toolOp, dir.push input, ((dir.push scratchDirName).push t.name).push output⟩

/-- The calls of the signing passes on the batch `B`: the unsigning of the jars found signed
(when asked to), the packing and then the unpacking of every jar (with pack200), and the
signing of every jar. -/
def signingCalls (s : Settings) (dir : Path) (signed : String → Bool) (B : List String) :
    List ToolCall :=
  (if s.unsignAlreadySigned then (B.filter signed).map fun n => passCall dir .unsign n n else []) ++
    (if s.isPack200 then
      B.map (fun n => passCall dir .pack200 n (n ++ s.packExtension)) ++
        B.map fun n => passCall dir .unpack200 (n ++ s.packExtension) n
     else []) ++
    B.map fun n => passCall dir .sign n n

/-- The calls single-pass processing makes on the batch `B`, pass after pass: those of the
signing passes (when signing), then, with pack200, the packing of every processed jar. -/
def batchCalls (s : Settings) (dir : Path) (signed : String → Bool) (B : List String) :
    List ToolCall :=
  (if s.isSign then signingCalls s dir signed B else []) ++
    if s.isPack200 then
      B.map fun n => passCall dir .pack200 (unprefixed n) (unprefixed n ++ s.packExtension)
    else []

theorem flatMap_log {α : Type} (tk : Toolkit) (B : List α) (c : α → ToolCall) :
    (B.flatMap fun n => tk.log [c n]) = tk.log (B.map c) := by
  cases tk <;> simp [Toolkit.log, List.map_eq_flatMap]

theorem flatMap_log_filter {α : Type} (tk : Toolkit) (B : List α) (p : α → Bool) (c : α → ToolCall) :
    (B.flatMap fun n => if p n then tk.log [c n] else []) = tk.log ((B.filter p).map c) := by
  induction B with
  | nil => simp
  | cons n B ih =>
    rw [List.flatMap_cons, ih, List.filter_cons]
    cases p n <;> simp [← Toolkit.log_append]

variable {ε σ : Type} {B : List String}

/-- A pass over the batch. Each round, for its jar `n`, goes on, adds the calls `C n`,
changes the disk only at the names `T n` (and in the scratch directory), leaves `P n`
holding, and moves its state on as `R` says; it may rely on the disk having changed, since
the pass began, only at the names of the jars before it. When no round can undo what `P`
says of an earlier jar, a pass that succeeds ends with `P` of every jar, the calls of every
round in order, and the disk changed only at the names of the whole batch. -/
theorem runOn_pass {init st' : σ} {f : String → σ → Act ε (ForInStep σ)} (pl : Place)
    (T : String → List String) (C : String → List ToolCall) (P : String → Disk → Prop)
    (R : List String → σ → Prop)
    (hstep : ∀ pre n post, B = pre ++ n :: post → ∀ st w₁ r w₂, R pre st →
      Confined pl (pre.flatMap T) w.disk w₁.disk → (f n st).runOn w₁ = (.ok r, w₂) →
      ∃ st', r = .yield st' ∧ R (pre ++ [n]) st' ∧ w₂.calls = w₁.calls ++ C n ∧
        Confined pl (T n) w₁.disk w₂.disk ∧ P n w₂.disk)
    (hkeep : ∀ pre n post, B = pre ++ n :: post → ∀ m ∈ pre, ∀ d d' : Disk,
      Confined pl (T n) d d' → P m d → P m d')
    (h0 : R [] init) (h : (forIn B init f).runOn w = (.ok st', w')) :
    R B st' ∧ w'.calls = w.calls ++ B.flatMap C ∧ Confined pl (B.flatMap T) w.disk w'.disk ∧
      ∀ n ∈ B, P n w'.disk := by
  refine Act.runOn_forIn_inv (fun pre st v => R pre st ∧ v.calls = w.calls ++ pre.flatMap C ∧
      Confined pl (pre.flatMap T) w.disk v.disk ∧ ∀ n ∈ pre, P n v.disk) ?_
    ⟨h0, by simp, Confined.refl _ _ _, by simp⟩ h
  rintro pre n post st w₁ r w₂ hsplit ⟨hR, hcalls, hconf, hP⟩ hrun
  obtain ⟨st', rfl, hR', hc, hconf', hPn⟩ := hstep pre n post hsplit st w₁ r w₂ hR hconf hrun
  refine ⟨st', rfl, hR', ?_, ?_, ?_⟩
  · rw [hc, hcalls, List.flatMap_append, List.flatMap_singleton, List.append_assoc]
  · rw [List.flatMap_append, List.flatMap_singleton]
    exact (hconf.mono fun y hy => List.mem_append_left _ hy).trans
      (hconf'.mono fun y hy => List.mem_append_right _ hy)
  · intro m hm
    rcases List.mem_append.1 hm with hm | hm
    · exact hkeep pre n post hsplit m hm _ _ hconf' (hP m hm)
    · rw [List.mem_singleton.1 hm]
      exact hPn

variable {s : Settings}

theorem taskSettings_workingDirectory : (taskSettings s dir).workingDirectory = dir.push scratchDirName :=
  rfl

@[simp] theorem taskSettings_settings : (taskSettings s dir).settings = s := rfl

/-- A jar moved to its name without the prefix, as signing or renaming leaves it, stays so
through the rounds of either pass for later jars. -/
theorem moved_keep (hB : Batch B) {pre post : List String} (hsplit : B = pre ++ n :: post) (m : String)
    (hm : m ∈ pre) (d d' : Disk) (hconf : Confined dir.names [unprefixed n, n] d d')
    (hmoved : d.bytesAt (dir.names ++ [m]) = none ∧ (d.bytesAt (dir.names ++ [unprefixed m])).isSome) :
    d'.bytesAt (dir.names ++ [m]) = none ∧ (d'.bytesAt (dir.names ++ [unprefixed m])).isSome := by
  have hn : n ∈ B := by rw [hsplit]; simp
  have hm' : m ∈ B := by rw [hsplit]; simp [hm]
  have hsm := hB.staged m hm'
  have hout : m ∉ [unprefixed n, n] := by simp [hB.ne_unprefixed hm' hn, hB.ne_of_split hsplit hm]
  rw [hconf.bytesAt hout (jar_ne_scratch hsm.endsWith_jar),
    hconf.bytesAt (hB.unprefixed_not_mem_moved hsplit hm) (jar_ne_scratch hsm.jar)]
  exact hmoved

/-- Signing the batch: each jar is signed under its name without the prefix, and the staged
jar removed. -/
theorem signPass_eq_ok (hdir : dir.Plain) (hB : Batch B) {r r' : LegacyReport}
    (h : (signPass (taskSettings s dir) tk dir (B.map dir.push) r).runOn w = (.ok r', w')) :
    r' = { r with processed := r.processed ++ B.map (fun n => dir.push (unprefixed n)),
                  signedCount := r.signedCount + B.length } ∧
      w'.calls = w.calls ++ tk.log (B.map fun n => passCall dir .sign n n) ∧
      Confined dir.names (B.flatMap fun n => [unprefixed n, n]) w.disk w'.disk ∧
      ∀ n ∈ B, w'.disk.bytesAt (dir.names ++ [n]) = none ∧
        (w'.disk.bytesAt (dir.names ++ [unprefixed n])).isSome := by
  unfold signPass at h
  dsimp only at h
  obtain ⟨r₁, w₁, hloop, hret⟩ := Act.runOn_bind_eq_ok h
  cases hret
  rw [List.forIn_map] at hloop
  have key := runOn_pass dir.names (fun n => [unprefixed n, n])
    (fun n => tk.log [passCall dir .sign n n])
    (fun n d => d.bytesAt (dir.names ++ [n]) = none ∧ (d.bytesAt (dir.names ++ [unprefixed n])).isSome)
    (fun pre st => st = { r with
      processed := r.processed ++ pre.map (fun n => dir.push (unprefixed n))
      signedCount := r.signedCount + pre.length })
    ?step (fun _ _ _ hsplit => moved_keep hB hsplit) (by simp) hloop
  · obtain ⟨hR, hc, hconf, hP⟩ := key
    exact ⟨hR, by rw [hc, flatMap_log], hconf, hP⟩
  case step =>
    intro pre n post hsplit st w₁ res w₂ hR _ hrun
    have hs := hB.staged n (by rw [hsplit]; simp)
    obtain ⟨target, w₃, htarget, hrest⟩ := Act.runOn_bind_eq_ok hrun
    obtain ⟨rfl, hw⟩ := Act.runOn_ofExcept_eq_ok (hs.stripPrefix_eq dir) htarget
    subst w₃
    obtain ⟨dest, w₄, hrun₄, hrest⟩ := Act.runOn_bind_eq_ok hrest
    obtain ⟨hdest, hc₄, hconf₄, hsome⟩ := runInto_eq_ok hdir taskSettings_workingDirectory
      (Path.fileName?_push _ hs.goodName) (Task.outputName_keep (by decide) (by decide) n)
      hs.goodName hs.goodName_unprefixed (jar_ne_scratch hs.jar) hrun₄
    obtain ⟨u, w₅, hrm, hret⟩ := Act.runOn_bind_eq_ok hrest
    cases hret
    obtain ⟨hconf₅, hc₅, hgone⟩ := removeFile_confined hdir hs.goodName (Act.runOn_mapError_eq_ok hrm)
    refine ⟨_, rfl, by rw [hR, hdest]; simp [Nat.add_assoc], by rw [hc₅, hc₄]; rfl, ?_, hgone, ?_⟩
    · exact (hconf₄.mono (by simp)).trans (hconf₅.mono (by simp))
    · rw [hconf₅.bytesAt (by simpa using hs.unprefixed_ne) (jar_ne_scratch hs.jar)]
      exact hsome

/-- Renaming the batch: each jar, still where it was staged, is moved to its name without the
prefix. -/
theorem renamePass_eq_ok (hdir : dir.Plain) (hB : Batch B)
    (hfiles : ∀ n ∈ B, (w.disk.bytesAt (dir.names ++ [n])).isSome) {r r' : LegacyReport}
    (h : (renamePass dir (B.map dir.push) r).runOn w = (.ok r', w')) :
    r' = { r with processed := r.processed ++ B.map (fun n => dir.push (unprefixed n)) } ∧
      w'.calls = w.calls ∧
      Confined dir.names (B.flatMap fun n => [unprefixed n, n]) w.disk w'.disk ∧
      ∀ n ∈ B, w'.disk.bytesAt (dir.names ++ [n]) = none ∧
        (w'.disk.bytesAt (dir.names ++ [unprefixed n])).isSome := by
  unfold renamePass at h
  dsimp only at h
  obtain ⟨r₁, w₁, hloop, hret⟩ := Act.runOn_bind_eq_ok h
  cases hret
  rw [List.forIn_map] at hloop
  have key := runOn_pass dir.names (fun n => [unprefixed n, n]) (fun _ => [])
    (fun n d => d.bytesAt (dir.names ++ [n]) = none ∧ (d.bytesAt (dir.names ++ [unprefixed n])).isSome)
    (fun pre st => st = { r with processed := r.processed ++ pre.map (fun n => dir.push (unprefixed n)) })
    ?step (fun _ _ _ hsplit => moved_keep hB hsplit) (by simp) hloop
  · obtain ⟨hR, hc, hconf, hP⟩ := key
    have hnil : (B.flatMap fun _ => ([] : List ToolCall)) = [] := List.flatMap_eq_nil_iff.2 fun _ _ => rfl
    exact ⟨hR, by rw [hc, hnil, List.append_nil], hconf, hP⟩
  case step =>
    intro pre n post hsplit st w₁ res w₂ hR hconf hrun
    have hn : n ∈ B := by rw [hsplit]; simp
    have hs := hB.staged n hn
    obtain ⟨target, w₃, htarget, hrest⟩ := Act.runOn_bind_eq_ok hrun
    obtain ⟨rfl, hw⟩ := Act.runOn_ofExcept_eq_ok (hs.stripPrefix_eq dir) htarget
    subst w₃
    obtain ⟨u, w₄, hren, hret⟩ := Act.runOn_bind_eq_ok hrest
    cases hret
    have hren' := Act.runOn_mapError_eq_ok hren
    have hsrc : (dir.push n).names = dir.names ++ [n] := Path.names_push _ hs.goodName
    have hdst : (dir.push (unprefixed n)).names = dir.names ++ [unprefixed n] :=
      Path.names_push _ hs.goodName_unprefixed
    have hsp : (dir.push n).Plain := (Path.plain_push _ hs.goodName).2 hdir
    have hdp : (dir.push (unprefixed n)).Plain := (Path.plain_push _ hs.goodName_unprefixed).2 hdir
    have hst : ¬ (dir.push n).names <+: (dir.push (unprefixed n)).names := by
      rw [hsrc, hdst, child_prefix_iff]
      exact hs.unprefixed_ne.symm
    have hts : ¬ (dir.push (unprefixed n)).names <+: (dir.push n).names := by
      rw [hsrc, hdst, child_prefix_iff]
      exact hs.unprefixed_ne
    have hsne : (dir.push n).names ≠ [] := by simp [hsrc]
    have hdne : (dir.push (unprefixed n)).names ≠ [] := by simp [hdst]
    obtain ⟨hk, hc⟩ := Act.frames_rename hsp hdp hsne hdne hst hts w₁ _ _ hren'
    obtain ⟨hmoved, hgone⟩ := Act.rename_ok hsp hdp hsne hdne hst hts hren'
    -- the jar is still where it was staged: the rounds before changed only their own names
    have hpre : n ∉ pre.flatMap fun m => [unprefixed m, m] := by
      simp only [List.mem_flatMap, List.mem_cons, List.not_mem_nil, or_false, not_exists, not_and,
        not_or]
      intro m hm
      have hm' : m ∈ B := by rw [hsplit]; simp [hm]
      exact ⟨hB.ne_unprefixed hn hm', (hB.ne_of_split hsplit hm).symm⟩
    have hstill := hconf.bytesAt hpre (jar_ne_scratch hs.endsWith_jar)
    refine ⟨_, rfl, by rw [hR]; simp, by simpa using hc, ?_, ?_, ?_⟩
    · refine Confined.of_keeps hk ?_
      rintro q (hq | hq)
      · exact mem_region_of_prefix (by simp) (hsrc ▸ hq)
      · exact mem_region_of_prefix (by simp) (hdst ▸ hq)
    · rw [← hsrc]
      exact hgone
    · rw [← hdst, hmoved, hsrc, hstill]
      exact hfiles n hn

/-- Packing the processed jars: each is packed beside itself. -/
theorem packPass_eq_ok (hdir : dir.Plain) (hB : Batch B) {r r' : LegacyReport}
    (hr : r.processed = B.map fun n => dir.push (unprefixed n))
    (h : (packPass (taskSettings s dir) tk dir r).runOn w = (.ok r', w')) :
    r' = { r with packed := r.packed ++ B.map fun n => dir.push (unprefixed n ++ s.packExtension) } ∧
      w'.calls = w.calls ++
        tk.log (B.map fun n => passCall dir .pack200 (unprefixed n) (unprefixed n ++ s.packExtension)) ∧
      Confined dir.names (B.map fun n => unprefixed n ++ s.packExtension) w.disk w'.disk ∧
      ∀ n ∈ B, (w'.disk.bytesAt (dir.names ++ [unprefixed n ++ s.packExtension])).isSome := by
  unfold packPass at h
  dsimp only at h
  obtain ⟨r₁, w₁, hloop, hret⟩ := Act.runOn_bind_eq_ok h
  cases hret
  rw [hr, List.forIn_map] at hloop
  have key := runOn_pass dir.names (fun n => [unprefixed n ++ s.packExtension])
    (fun n => tk.log [passCall dir .pack200 (unprefixed n) (unprefixed n ++ s.packExtension)])
    (fun n d => (d.bytesAt (dir.names ++ [unprefixed n ++ s.packExtension])).isSome)
    (fun pre st => st = { r with packed := r.packed ++ pre.map fun n => dir.push (unprefixed n ++ s.packExtension) })
    ?step ?keep (by simp) hloop
  · obtain ⟨hR, hc, hconf, hP⟩ := key
    refine ⟨hR, by rw [hc, flatMap_log], ?_, hP⟩
    rwa [List.map_eq_flatMap]
  case step =>
    intro pre n post hsplit st w₁ res w₂ hR _ hrun
    have hs := hB.staged n (by rw [hsplit]; simp)
    obtain ⟨dest, w₃, hrun₃, hret⟩ := Act.runOn_bind_eq_ok hrun
    cases hret
    rw [nameOf_push dir hs.goodName_unprefixed] at hrun₃
    obtain ⟨hdest, hc₃, hconf₃, hsome⟩ := runInto_eq_ok hdir taskSettings_workingDirectory
      (Path.fileName?_push _ hs.goodName_unprefixed) (Task.outputName_pack200 _)
      (hs.goodName_unprefixed_packed s) (hs.goodName_unprefixed_packed s)
      (append_pack_ne_scratch s _) hrun₃
    exact ⟨_, rfl, by rw [hR, hdest]; simp, hc₃, hconf₃, hsome⟩
  case keep =>
    intro pre n post hsplit m hm d d' hconf hsome
    have hn : n ∈ B := by rw [hsplit]; simp
    have hm' : m ∈ B := by rw [hsplit]; simp [hm]
    have hne : unprefixed m ++ s.packExtension ≠ unprefixed n ++ s.packExtension := fun h =>
      hB.ne_of_split hsplit hm (hB.unprefixed_inj hm' hn (append_pack_inj s h))
    rw [hconf.bytesAt (by simpa using hne) (append_pack_ne_scratch s _)]
    exact hsome

/-- Unsigning the batch: each jar the toolkit finds signed when the pass begins is unsigned in
place. -/
theorem unsignPass_eq_ok (hdir : dir.Plain) (hB : Batch B)
    (hfiles : ∀ n ∈ B, ∃ X, w.disk.read (dir.push n) = .ok X) {u : Unit}
    (h : (unsignPass (taskSettings s dir) tk dir (B.map dir.push)).runOn w = (.ok u, w')) :
    w'.calls = w.calls ++
      tk.log ((B.filter fun n => tk.findsSigned w.disk (dir.push n)).map fun n => passCall dir .unsign n n) ∧
      Confined dir.names B w.disk w'.disk := by
  unfold unsignPass at h
  obtain ⟨u₁, w₁, hloop, hret⟩ := Act.runOn_bind_eq_ok h
  cases hret
  rw [List.forIn_map] at hloop
  have key := runOn_pass dir.names (fun n => [n])
    (fun n => if tk.findsSigned w.disk (dir.push n) then tk.log [passCall dir .unsign n n] else [])
    (fun _ _ => True) (fun _ _ => True) ?step (fun _ _ _ _ _ _ _ _ _ _ => trivial) trivial hloop
  · obtain ⟨-, hc, hconf, -⟩ := key
    refine ⟨by rw [hc, flatMap_log_filter], ?_⟩
    simpa using hconf
  case step =>
    intro pre n post hsplit st w₁ res w₂ _ hconf hrun
    have hn : n ∈ B := by rw [hsplit]; simp
    have hs := hB.staged n hn
    -- the toolkit looks at the jar as it was staged: the rounds before changed only their own jars
    obtain ⟨X, hX⟩ := hfiles n hn
    have hpre : n ∉ pre.flatMap fun m => [m] := by
      simpa using fun h => hB.ne_of_split hsplit h rfl
    have hX₁ := hconf.read_push hdir hs.goodName hpre (jar_ne_scratch hs.endsWith_jar) hX
    obtain ⟨x, w₃, hx, hrest⟩ := Act.runOn_bind_eq_ok hrun
    obtain ⟨rfl, hw⟩ := Act.runOn_ofExcept_eq_ok (hs.stripPrefix_eq dir) hx
    subst w₃
    obtain ⟨b, w₄, hb, hrest⟩ := Act.runOn_bind_eq_ok hrest
    rw [Act.runOn_mapError, Toolkit.isSigned_runOn tk hX₁] at hb
    cases hsd : tk.signedData X with
    | error e => simp [hsd, Except.mapError] at hb
    | ok b' =>
      simp only [hsd, Except.mapError, Prod.mk.injEq, Except.ok.injEq] at hb
      obtain ⟨rfl, rfl⟩ := hb
      have hfinds : tk.findsSigned w.disk (dir.push n) = b' := by
        simp only [Toolkit.findsSigned, hX, hsd]
      rw [hfinds]
      cases b' with
      | false =>
        simp only [Bool.false_eq_true, if_false, Act.runOn_pure, Prod.mk.injEq, Except.ok.injEq] at hrest
        obtain ⟨rfl, rfl⟩ := hrest
        exact ⟨_, rfl, trivial, by simp, Confined.refl _ _ _, trivial⟩
      | true =>
        simp only [if_true] at hrest
        obtain ⟨dest, w₅, hrun₅, hret⟩ := Act.runOn_bind_eq_ok hrest
        cases hret
        rw [nameOf_push dir hs.goodName] at hrun₅
        obtain ⟨-, hc₅, hconf₅, -⟩ := runInto_eq_ok hdir taskSettings_workingDirectory
          (Path.fileName?_push _ hs.goodName) (Task.outputName_keep (by decide) (by decide) n)
          hs.goodName hs.goodName (jar_ne_scratch hs.endsWith_jar) hrun₅
        exact ⟨_, rfl, trivial, by rw [hc₅, if_pos rfl]; rfl, hconf₅, trivial⟩

/-- Normalising the batch: each jar is packed beside itself, then each pack is unpacked over
the jar it came from and removed. -/
theorem normalizePass_eq_ok (hdir : dir.Plain) (hB : Batch B) {u : Unit}
    (h : (normalizePass (taskSettings s dir) tk dir (B.map dir.push)).runOn w = (.ok u, w')) :
    w'.calls = w.calls ++ tk.log (B.map (fun n => passCall dir .pack200 n (n ++ s.packExtension)) ++
        B.map fun n => passCall dir .unpack200 (n ++ s.packExtension) n) ∧
      Confined dir.names (B.flatMap fun n => [n, n ++ s.packExtension]) w.disk w'.disk ∧
      ∀ n ∈ B, w'.disk.bytesAt (dir.names ++ [n ++ s.packExtension]) = none := by
  unfold normalizePass at h
  dsimp only at h
  obtain ⟨packed, w₁, hloop₁, hrest⟩ := Act.runOn_bind_eq_ok h
  obtain ⟨u₂, w₂, hloop₂, hret⟩ := Act.runOn_bind_eq_ok hrest
  cases hret
  rw [List.forIn_map] at hloop₁
  -- packing: each jar's pack lands beside it
  have key₁ := runOn_pass dir.names (fun n => [n ++ s.packExtension])
    (fun n => tk.log [passCall dir .pack200 n (n ++ s.packExtension)]) (fun _ _ => True)
    (fun pre st => st = pre.map fun n => dir.push (n ++ s.packExtension))
    ?pack (fun _ _ _ _ _ _ _ _ _ _ => trivial) rfl hloop₁
  · obtain ⟨rfl, hc₁, hconf₁, -⟩ := key₁
    rw [List.forIn_map] at hloop₂
    -- unpacking: each pack goes back over its jar and is removed
    have key₂ := runOn_pass dir.names (fun n => [n, n ++ s.packExtension])
      (fun n => tk.log [passCall dir .unpack200 (n ++ s.packExtension) n])
      (fun n d => d.bytesAt (dir.names ++ [n ++ s.packExtension]) = none) (fun _ _ => True)
      ?unpack ?keep trivial hloop₂
    · obtain ⟨-, hc₂, hconf₂, hP⟩ := key₂
      refine ⟨by rw [hc₂, hc₁, flatMap_log, flatMap_log, Toolkit.log_append, List.append_assoc], ?_, hP⟩
      refine Confined.trans (hconf₁.mono fun y hy => ?_) hconf₂
      obtain ⟨m, hm, hy⟩ := List.mem_flatMap.1 hy
      exact List.mem_flatMap.2 ⟨m, hm, by simp [List.mem_singleton.1 hy]⟩
    case unpack =>
      intro pre n post hsplit st w₃ res w₄ _ _ hrun
      have hs := hB.staged n (by rw [hsplit]; simp)
      have hgp := hs.goodName_packed s
      obtain ⟨x, w₅, hx, hrest⟩ := Act.runOn_bind_eq_ok hrun
      rw [Act.runOn_ofExcept] at hx
      obtain ⟨-, rfl⟩ := Prod.mk.inj hx
      rw [nameOf_push dir hgp, taskSettings_settings] at hrest
      obtain ⟨dest, w₆, hrun₆, hrest⟩ := Act.runOn_bind_eq_ok hrest
      simp only [endsWith_append_self, if_true, String.length_append, Nat.add_sub_cancel,
        String.Slice.toString_eq, take_append_length] at hrun₆
      obtain ⟨-, hc₆, hconf₆, -⟩ := runInto_eq_ok hdir taskSettings_workingDirectory
        (Path.fileName?_push _ hgp) (Task.outputName_unpack200_append (ne_empty_of_endsWith_jar hs.endsWith_jar))
        hs.goodName hs.goodName (jar_ne_scratch hs.endsWith_jar) hrun₆
      obtain ⟨v, w₇, hrm, hret⟩ := Act.runOn_bind_eq_ok hrest
      cases hret
      obtain ⟨hconf₇, hc₇, hgone⟩ := removeFile_confined hdir hgp (Act.runOn_mapError_eq_ok hrm)
      refine ⟨_, rfl, trivial, by rw [hc₇, hc₆]; rfl, ?_, hgone⟩
      exact (hconf₆.mono (by simp)).trans (hconf₇.mono (by simp))
    case keep =>
      intro pre n post hsplit m hm d d' hconf hnone
      have hn : n ∈ B := by rw [hsplit]; simp
      have hsn := hB.staged n hn
      have hmn := hB.ne_of_split hsplit hm
      have hout : m ++ s.packExtension ∉ [n, n ++ s.packExtension] := by
        simp [append_pack_ne_jar s m hsn.endsWith_jar, hmn]
      rw [hconf.bytesAt hout (append_pack_ne_scratch s m)]
      exact hnone
  case pack =>
    intro pre n post hsplit st w₃ res w₄ hR _ hrun
    have hs := hB.staged n (by rw [hsplit]; simp)
    obtain ⟨x, w₅, hx, hrest⟩ := Act.runOn_bind_eq_ok hrun
    obtain ⟨rfl, hw⟩ := Act.runOn_ofExcept_eq_ok (hs.stripPrefix_eq dir) hx
    subst w₅
    obtain ⟨dest, w₆, hrun₆, hret⟩ := Act.runOn_bind_eq_ok hrest
    cases hret
    rw [nameOf_push dir hs.goodName] at hrun₆
    obtain ⟨hdest, hc₆, hconf₆, -⟩ := runInto_eq_ok hdir taskSettings_workingDirectory
      (Path.fileName?_push _ hs.goodName) (Task.outputName_pack200 _)
      (hs.goodName_packed s) (hs.goodName_packed s) (append_pack_ne_scratch s _) hrun₆
    exact ⟨_, rfl, by rw [hR, hdest]; simp, hc₆, hconf₆, trivial⟩

/-- The signing passes on the batch: the jars found signed are unsigned (when asked to), all are
normalised (with pack200), then all are signed under their names without the prefix. -/
theorem signingPasses_eq_ok (hdir : dir.Plain) (hB : Batch B)
    (hfiles : ∀ n ∈ B, ∃ X, w.disk.read (dir.push n) = .ok X) {r : LegacyReport}
    (h : (signingPasses (taskSettings s dir) tk dir (B.map dir.push)).runOn w = (.ok r, w')) :
    r = { processed := B.map (fun n => dir.push (unprefixed n)), signedCount := B.length } ∧
      w'.calls = w.calls ++ tk.log (signingCalls s dir (fun n => tk.findsSigned w.disk (dir.push n)) B) ∧
      Confined dir.names (B.flatMap fun n => [n, unprefixed n, n ++ s.packExtension]) w.disk w'.disk ∧
      ∀ n ∈ B, w'.disk.bytesAt (dir.names ++ [n]) = none ∧
        (w'.disk.bytesAt (dir.names ++ [unprefixed n])).isSome ∧
        (s.isPack200 = true → w'.disk.bytesAt (dir.names ++ [n ++ s.packExtension]) = none) := by
  unfold signingPasses at h
  dsimp only at h
  rw [taskSettings_settings] at h
  obtain ⟨w₁, hun, hrest⟩ := Act.runOn_when_eq_ok h
  obtain ⟨w₂, hnorm, hsign⟩ := Act.runOn_when_eq_ok hrest
  have hU : w₁.calls = w.calls ++ tk.log (if s.unsignAlreadySigned then
        (B.filter fun n => tk.findsSigned w.disk (dir.push n)).map fun n => passCall dir .unsign n n
      else []) ∧ Confined dir.names B w.disk w₁.disk := by
    by_cases hu : s.unsignAlreadySigned = true
    · rw [if_pos hu] at hun ⊢
      exact unsignPass_eq_ok hdir hB hfiles hun
    · rw [if_neg hu] at hun ⊢
      subst hun
      exact ⟨by simp, Confined.refl _ _ _⟩
  have hN : w₂.calls = w₁.calls ++ tk.log (if s.isPack200 then
        B.map (fun n => passCall dir .pack200 n (n ++ s.packExtension)) ++
          B.map fun n => passCall dir .unpack200 (n ++ s.packExtension) n
      else []) ∧ Confined dir.names (B.flatMap fun n => [n, n ++ s.packExtension]) w₁.disk w₂.disk ∧
      (s.isPack200 = true → ∀ n ∈ B, w₂.disk.bytesAt (dir.names ++ [n ++ s.packExtension]) = none) := by
    by_cases hp : s.isPack200 = true
    · rw [if_pos hp] at hnorm ⊢
      obtain ⟨hc, hconf, hP⟩ := normalizePass_eq_ok hdir hB hnorm
      exact ⟨hc, hconf, fun _ => hP⟩
    · rw [if_neg hp] at hnorm ⊢
      subst hnorm
      exact ⟨by simp, Confined.refl _ _ _, fun h => absurd h hp⟩
  obtain ⟨hR, hc, hconf, hP⟩ := signPass_eq_ok hdir hB hsign
  obtain ⟨hcU, hconfU⟩ := hU
  obtain ⟨hcN, hconfN, hPN⟩ := hN
  refine ⟨by simpa using hR, ?_, ?_, fun n hn => ⟨(hP n hn).1, (hP n hn).2, fun hp => ?_⟩⟩
  · simp only [hc, hcN, hcU, signingCalls, Toolkit.log_append, List.append_assoc]
  · refine ((hconfU.mono fun y hy => ?_).trans (hconfN.mono fun y hy => ?_)).trans (hconf.mono fun y hy => ?_)
    · exact List.mem_flatMap.2 ⟨y, hy, by simp⟩
    · obtain ⟨m, hm, hy⟩ := List.mem_flatMap.1 hy
      simp only [List.mem_cons, List.not_mem_nil, or_false] at hy
      exact List.mem_flatMap.2 ⟨m, hm, by rcases hy with rfl | rfl <;> simp⟩
    · obtain ⟨m, hm, hy⟩ := List.mem_flatMap.1 hy
      simp only [List.mem_cons, List.not_mem_nil, or_false] at hy
      exact List.mem_flatMap.2 ⟨m, hm, by rcases hy with rfl | rfl <;> simp⟩
  · -- the normalising pack is gone, and signing later jars does not bring it back
    have hsn := hB.staged n hn
    have hout : n ++ s.packExtension ∉ B.flatMap fun m => [unprefixed m, m] := by
      simp only [List.mem_flatMap, List.mem_cons, List.not_mem_nil, or_false, not_exists, not_and, not_or]
      intro m hm
      have hsm := hB.staged m hm
      exact ⟨append_pack_ne_jar s n hsm.jar, append_pack_ne_jar s n hsm.endsWith_jar⟩
    rw [hconf.bytesAt hout (append_pack_ne_scratch s n)]
    exact hPN hp n hn

/-- Clearing the scratch directory leaves no scratch directory, and nothing else changed. -/
theorem clearScratch_eq_ok (hdir : dir.Plain) {u : Unit}
    (h : (clearScratch (taskSettings s dir)).runOn w = (.ok u, w')) :
    w'.calls = w.calls ∧ Confined dir.names [] w.disk w'.disk ∧
      w'.disk.exists? (dir.push scratchDirName) = false := by
  unfold clearScratch at h
  rw [taskSettings_workingDirectory] at h
  obtain ⟨b, w₁, hb, hrest⟩ := Act.runOn_bind_eq_ok h
  rw [runOn_exists?] at hb
  cases hb
  have hp : (dir.push scratchDirName).Plain := (Path.plain_push _ goodName_scratchDirName).2 hdir
  have hnames := Path.names_push dir goodName_scratchDirName
  cases hex : w.disk.exists? (dir.push scratchDirName)
  · rw [hex] at hrest
    cases hrest
    exact ⟨rfl, Confined.refl _ _ _, hex⟩
  · rw [hex, if_pos rfl] at hrest
    have hrm := Act.runOn_mapError_eq_ok hrest
    obtain ⟨hk, hc⟩ := Act.frames_removeDirAll hp w _ _ hrm
    have hgone := Act.removeDirAll_ok hp (by simp [hnames]) hrm
    refine ⟨by simpa using hc, Confined.of_keeps hk fun q hq => scratch_mem_region (hnames ▸ hq), ?_⟩
    exact Disk.exists?_eq_false hp hgone

/-- The passes that process the batch: signing, or else renaming. Each jar is then under its
name without the prefix, and its staged copy is gone, as is its normalising pack when
normalising. -/
theorem processingPasses_eq_ok (hdir : dir.Plain) (hB : Batch B)
    (hfiles : ∀ n ∈ B, ∃ X, w.disk.bytesAt (dir.names ++ [n]) = some X ∧ w.disk.read (dir.push n) = .ok X)
    {r : LegacyReport}
    (h : (if s.isSign then signingPasses (taskSettings s dir) tk dir (B.map dir.push)
      else renamePass dir (B.map dir.push) {}).runOn w = (.ok r, w')) :
    r.processed = B.map (fun n => dir.push (unprefixed n)) ∧
      r.signedCount = (if s.isSign then B.length else 0) ∧ r.packed = [] ∧
      w'.calls = w.calls ++
        tk.log (if s.isSign then signingCalls s dir (fun n => tk.findsSigned w.disk (dir.push n)) B else []) ∧
      Confined dir.names (B.flatMap fun n => [n, unprefixed n, n ++ s.packExtension]) w.disk w'.disk ∧
      ∀ n ∈ B, w'.disk.bytesAt (dir.names ++ [n]) = none ∧
        (w'.disk.bytesAt (dir.names ++ [unprefixed n])).isSome ∧
        ((s.isSign && s.isPack200) = true → w'.disk.bytesAt (dir.names ++ [n ++ s.packExtension]) = none) := by
  by_cases hs : s.isSign = true
  · rw [if_pos hs] at h
    obtain ⟨rfl, hc, hconf, hmoved⟩ :=
      signingPasses_eq_ok hdir hB (fun n hn => (hfiles n hn).imp fun _ hX => hX.2) h
    refine ⟨rfl, by simp [hs], rfl, by rw [hc, if_pos hs], hconf, fun n hn => ?_⟩
    obtain ⟨hgone, hsome, hpack⟩ := hmoved n hn
    exact ⟨hgone, hsome, fun hp => hpack (by simpa [hs] using hp)⟩
  · rw [if_neg hs] at h
    obtain ⟨rfl, hc, hconf, hmoved⟩ :=
      renamePass_eq_ok hdir hB (fun n hn => by obtain ⟨X, hX, -⟩ := hfiles n hn; simp [hX]) h
    refine ⟨by simp, by simp [hs], rfl, by simp [hc, hs], hconf.mono fun y hy => ?_, fun n hn => ?_⟩
    · obtain ⟨m, hm, hy⟩ := List.mem_flatMap.1 hy
      simp only [List.mem_cons, List.not_mem_nil, or_false] at hy
      exact List.mem_flatMap.2 ⟨m, hm, by rcases hy with rfl | rfl <;> simp⟩
    · refine ⟨(hmoved n hn).1, (hmoved n hn).2, fun hp => absurd ?_ hs⟩
      simp only [Bool.and_eq_true] at hp
      exact hp.1

/-- Packing the processed jars, with pack200: each is packed beside itself. -/
theorem packingPass_eq_ok (hdir : dir.Plain) (hB : Batch B) {r r' : LegacyReport}
    (hr : r.processed = B.map fun n => dir.push (unprefixed n))
    (h : (if s.isPack200 then packPass (taskSettings s dir) tk dir r else pure r).runOn w = (.ok r', w')) :
    r' = { r with packed := r.packed ++
        if s.isPack200 then B.map fun n => dir.push (unprefixed n ++ s.packExtension) else [] } ∧
      w'.calls = w.calls ++ tk.log (if s.isPack200 then
        B.map fun n => passCall dir .pack200 (unprefixed n) (unprefixed n ++ s.packExtension) else []) ∧
      Confined dir.names (B.map fun n => unprefixed n ++ s.packExtension) w.disk w'.disk ∧
      (s.isPack200 = true →
        ∀ n ∈ B, (w'.disk.bytesAt (dir.names ++ [unprefixed n ++ s.packExtension])).isSome) := by
  by_cases hp : s.isPack200 = true
  · rw [if_pos hp] at h ⊢
    rw [if_pos hp]
    obtain ⟨hR, hc, hconf, hpk⟩ := packPass_eq_ok hdir hB hr h
    exact ⟨hR, hc, hconf, fun _ => hpk⟩
  · rw [if_neg hp] at h ⊢
    rw [if_neg hp]
    cases h
    exact ⟨by simp, by simp, Confined.refl _ _ _, fun h => absurd h hp⟩

/-! ## The whole batch -/

variable {x : String}

/-- A file at a name in a plain, relative directory is read from the bytes at its place. -/
theorem read_push_of_bytesAt {d : Disk} {X : ByteArray} (hdir : dir.Plain) (hrel : dir.Relative)
    (hx : Path.GoodName x) (hdirs : d.DirsTo (dir.names ++ [x])) (h : d.bytesAt (dir.names ++ [x]) = some X) :
    d.read (dir.push x) = .ok X := by
  rw [Disk.read_plain ((Path.plain_push _ hx).2 hdir), Path.names_push _ hx]
  exact ⟨(Path.relative_push hx).2 (.inr hrel.1), hdirs, h⟩

theorem isFile_push_of_isSome {d : Disk} (hdir : dir.Plain) (hrel : dir.Relative) (hx : Path.GoodName x)
    (hdirs : d.DirsTo (dir.names ++ [x])) (h : (d.bytesAt (dir.names ++ [x])).isSome) :
    d.isFile (dir.push x) = true := by
  obtain ⟨X, hX⟩ := Option.isSome_iff_exists.1 h
  exact Disk.isFile_iff_read.2 ⟨X, read_push_of_bytesAt hdir hrel hx hdirs hX⟩

theorem isFile_push_of_none {d : Disk} (hdir : dir.Plain) (hx : Path.GoodName x)
    (h : d.bytesAt (dir.names ++ [x]) = none) : d.isFile (dir.push x) = false :=
  Disk.isFile_eq_false ((Path.plain_push _ hx).2 hdir) (by rw [Path.names_push _ hx]; exact h)

/-- A staged jar of a listed directory is a file there. -/
theorem stagedJars_read {d : Disk} {start : Nat} (hd : d.Proper) (hdir : dir.Plain) (hrel : dir.Relative)
    (hdirs : d.DirsTo dir.names) (hhas : d.hasDir dir.names = true) (hn : n ∈ d.stagedJars dir.names start) :
    ∃ X, d.bytesAt (dir.names ++ [n]) = some X ∧ d.read (dir.push n) = .ok X := by
  obtain ⟨hs, X, t, hget, -⟩ := Disk.mem_stagedJars hd hn
  have hX : d.bytesAt (dir.names ++ [n]) = some X := by simp [Disk.bytesAt, hget]
  exact ⟨X, hX, read_push_of_bytesAt hdir hrel hs.goodName ((Confined.refl _ [] d).dirsTo hdirs hhas n) hX⟩

/-- Sorting paths by their text leaves them in order. -/
theorem pairwise_mergeSort_text (ps : List Path) :
    (ps.mergeSort fun a b => decide (a.text ≤ b.text)).Pairwise fun a b => a.text ≤ b.text := by
  have hsorted : (ps.mergeSort fun a b => decide (a.text ≤ b.text)).Pairwise
      fun a b => decide (a.text ≤ b.text) = true :=
    List.pairwise_mergeSort (fun a b c hab hbc => by
        simp only [decide_eq_true_eq] at hab hbc ⊢
        exact String.le_trans hab hbc)
      (fun a b => by simpa using String.le_total a.text b.text) ps
  simpa using hsorted

end Legacy

end JarDeploy
