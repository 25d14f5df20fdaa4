import JarDeploy.Proofs.SinglePass
import JarDeploy.Proofs.Manifest

/-!
# The staging prefix is always there

Single-pass processing takes the staging prefix off a name in three places: before
unsigning or normalising a staged jar, before signing or renaming it, and before
unpacking the pack it made of it. It refuses a name without the prefix, or with nothing
after it, as an error of its own. That error never happens, whatever the directory holds
and however the settings are set (`processDirectory_never_missing_prefix`).

The batch is listed by a filter that takes only files whose names start with the prefix
and end in `.jar`; the prefix holds no dot, so something is left after it. Every name
the passes look at is a listed name, or a listed name with the pack extension added,
which keeps the prefix in front; the name the pack is unpacked to is the listed name
again. Failures come from elsewhere: the tools, the disk, the signature check.
-/

namespace JarDeploy

set_option autoImplicit false

namespace Path

/-- A name among a path's components is a piece of the path's text between separators,
not empty, `.` or `..`. -/
theorem goodName_of_name_mem_parts {p : Path} {m : String} (hmem : PathPart.name m ∈ p.parts) :
    GoodName m := by
  rw [parts_eq, List.mem_append] at hmem
  rcases hmem with hlead | hbody
  · split at hlead <;> simp at hlead
  · obtain ⟨⟨s, i⟩, hsi, hpiece⟩ := List.mem_filterMap.1 hbody
    have hs : s ∈ pieces p.text := List.fst_mem_of_mem_zipIdx hsi
    simp only [pieceAt] at hpiece
    split at hpiece
    · cases hpiece
    · split at hpiece
      · split at hpiece <;> cases hpiece
      · split at hpiece
        · cases hpiece
        · cases hpiece
          rename_i hempty hdot hdotdot
          obtain ⟨l, hl, rfl⟩ := List.mem_map.1 hs
          refine ⟨by simpa using hempty, by simpa using hdot, by simpa using hdotdot, fun hslash => ?_⟩
          exact (Manifest.mem_of_mem_splitOn hl (by simpa using hslash)).2 rfl

/-- A file name is one component of a path: it is a piece of the path's text between
separators, not empty, `.` or `..`. -/
theorem goodName_of_fileName? {p : Path} {n : String} (h : p.fileName? = some n) : GoodName n := by
  unfold fileName? at h
  split at h
  · rename_i m hm
    rw [← Option.some.inj h]
    exact goodName_of_name_mem_parts (List.mem_of_getLast? hm)
  · cases h

end Path

/-! ## Rounds of a loop -/

namespace Act

variable {ε : Type}

/-- An invariant of the loop state that every round keeps holds of what the loop ends with. -/
theorem returns_forIn {γ σ : Type} {I : σ → Prop} (xs : List γ) {init : σ}
    {f : γ → σ → Act ε (ForInStep σ)} (h₀ : I init)
    (h : ∀ x ∈ xs, ∀ s, I s → Returns (f x s) fun r => I r.value) : Returns (forIn xs init f) I := by
  induction xs generalizing init with
  | nil => exact returns_pure h₀
  | cons x xs ih =>
    rw [List.forIn_cons]
    refine returns_bind (h x List.mem_cons_self init h₀) fun r hr => ?_
    cases r with
    | done b => exact returns_pure hr
    | yield b => exact ih hr fun y hy => h y (List.mem_cons_of_mem x hy)

/-- A step taken only when `b` holds, then the rest: it fails as the step or the rest does. -/
theorem failsWith_when {β : Type} {P : ε → Prop} {b : Bool} {a : Act ε Unit} {k : Unit → Act ε β}
    (ha : FailsWith a P) (hk : ∀ u, FailsWith (k u) P) :
    FailsWith (if b = true then a >>= k else k ()) P := by
  split
  · exact failsWith_bind ha hk
  · exact hk ()

end Act

/-- The error is not the refusal of a name without the staging prefix. -/
def LegacyError.NotMissingPrefix (e : LegacyError) : Prop := ∀ p, e ≠ .missingPrefix p

namespace Legacy

/-! ## The names of the batch -/

/-- A path whose file name starts with the prefix and ends in `.jar` has a staged name. -/
theorem staged_nameOf {p : Path} (hs : (nameOf p).startsWith unprocessedPrefix = true)
    (hj : (nameOf p).endsWith ".jar" = true) : Staged (nameOf p) := by
  cases hp : p.fileName? with
  | none =>
    rw [nameOf, hp] at hs
    cases hs
  | some n =>
    have hn : nameOf p = n := by rw [nameOf, hp, Option.getD_some]
    rw [hn] at hs hj ⊢
    exact staged_of hs hj (Path.goodName_of_fileName? hp).2.2.2

/-- Listing the batch gives paths with staged names, whatever the directory holds. -/
theorem returns_listFiles_staged (dir : Path) (start : Nat) :
    Act.Returns (listFiles dir (.and (.and .jar .unprocessed) (.modifiedSince start)))
      fun ps => ∀ p ∈ ps, Staged (nameOf p) := by
  unfold listFiles
  refine Act.returns_bind_right fun names => Act.returns_bind_right fun d => Act.returns_pure ?_
  intro p hp
  obtain ⟨name, -, hsel⟩ := List.mem_filterMap.1 hp
  dsimp only at hsel
  split at hsel
  · split at hsel
    · rename_i hacc
      cases hsel
      simp only [FileFilter.accepts, Bool.and_eq_true] at hacc
      exact staged_nameOf hacc.1.2 hacc.1.1.2
    · cases hsel
  · cases hsel

theorem Staged.startsWith {n : String} (h : Staged n) : n.startsWith unprocessedPrefix = true := by
  rw [h.eq, startsWith_eq_true_iff, String.toList_append]
  exact List.prefix_append _ _

theorem stripPrefix_of_staged {p : Path} (h : Staged (nameOf p)) :
    stripPrefix p = .ok (unprefixed (nameOf p)) := by
  simp [stripPrefix, h.startsWith, h.length_lt, unprefixed]

/-! ## The steps of the passes -/

variable {c : TaskSettings} {toolkit : Toolkit} {dir : Path}

theorem failsWith_stripPrefix {p : Path} (h : Staged (nameOf p)) :
    Act.FailsWith (Act.ofExcept (stripPrefix p)) LegacyError.NotMissingPrefix :=
  Act.failsWith_ofExcept fun e he => by rw [stripPrefix_of_staged h] at he; cases he

/-- A task run into the directory fails only as the task or the move fails. -/
theorem failsWith_runInto (t : Task) (input : Path) (target : String) :
    Act.FailsWith (runInto c toolkit t input dir target) LegacyError.NotMissingPrefix := by
  unfold runInto
  refine Act.failsWith_bind (Act.failsWith_mapError _ _ fun _ _ h => by cases h) fun _ => ?_
  exact Act.failsWith_bind (Act.failsWith_mapError _ _ fun _ _ h => by cases h) fun _ =>
    Act.failsWith_pure _ _

/-- A task run into the directory ends with the target in the directory. -/
theorem returns_runInto (t : Task) (input : Path) (target : String) :
    Act.Returns (runInto c toolkit t input dir target) (· = dir.push target) := by
  unfold runInto
  exact Act.returns_bind_right fun _ => Act.returns_bind_right fun _ => Act.returns_pure rfl

section

variable {jars : List Path} (hjars : ∀ jar ∈ jars, Staged (nameOf jar))
include hjars

theorem failsWith_unsignPass :
    Act.FailsWith (unsignPass c toolkit dir jars) LegacyError.NotMissingPrefix := by
  unfold unsignPass
  refine Act.failsWith_bind (Act.failsWith_forIn _ _ _ fun jar hjar _ => ?_) fun _ => Act.failsWith_pure _ _
  refine Act.failsWith_bind (failsWith_stripPrefix (hjars jar hjar)) fun _ => ?_
  refine Act.failsWith_bind (Act.failsWith_mapError _ _ fun _ _ h => by cases h) fun signed => ?_
  split
  · exact Act.failsWith_bind (failsWith_runInto _ _ _) fun _ => Act.failsWith_pure _ _
  · exact Act.failsWith_pure _ _

theorem failsWith_normalizePass :
    Act.FailsWith (normalizePass c toolkit dir jars) LegacyError.NotMissingPrefix := by
  unfold normalizePass
  dsimp only
  refine Act.failsWith_bind_of (Q := fun packed : List Path =>
    ∀ q ∈ packed, ∃ jar ∈ jars, q = dir.push (nameOf jar ++ c.settings.packExtension)) ?_ ?_ ?_
  · refine Act.failsWith_forIn _ _ _ fun jar hjar _ => ?_
    refine Act.failsWith_bind (failsWith_stripPrefix (hjars jar hjar)) fun _ => ?_
    exact Act.failsWith_bind (failsWith_runInto _ _ _) fun _ => Act.failsWith_pure _ _
  · -- every pack made is a staged name of the batch with the pack extension
    refine Act.returns_forIn _ (fun _ h => by cases h) fun jar hjar packed hpacked => ?_
    refine Act.returns_bind_right fun _ => Act.returns_bind (returns_runInto _ _ _) fun q hq => ?_
    refine Act.returns_pure fun x hx => ?_
    rcases List.mem_append.1 hx with hx | hx
    · exact hpacked x hx
    · rw [List.mem_singleton.1 hx, hq]
      exact ⟨jar, hjar, rfl⟩
  · -- so each pack still carries the prefix when it is unpacked
    intro packed hpacked
    refine Act.failsWith_bind (Act.failsWith_forIn _ _ _ fun pack hpack _ => ?_) fun _ =>
      Act.failsWith_pure _ _
    obtain ⟨jar, hjar, rfl⟩ := hpacked pack hpack
    obtain ⟨m, hm⟩ := (hjars jar hjar).stripPrefix_packed c.settings dir
    refine Act.failsWith_bind (Act.failsWith_ofExcept fun e he => by rw [hm] at he; cases he) fun _ => ?_
    refine Act.failsWith_bind (failsWith_runInto _ _ _) fun _ => ?_
    exact Act.failsWith_bind (Act.failsWith_mapError _ _ fun _ _ h => by cases h) fun _ =>
      Act.failsWith_pure _ _

theorem failsWith_signPass (report : LegacyReport) :
    Act.FailsWith (signPass c toolkit dir jars report) LegacyError.NotMissingPrefix := by
  unfold signPass
  refine Act.failsWith_bind (Act.failsWith_forIn _ _ _ fun jar hjar _ => ?_) fun _ => Act.failsWith_pure _ _
  refine Act.failsWith_bind (failsWith_stripPrefix (hjars jar hjar)) fun _ => ?_
  refine Act.failsWith_bind (failsWith_runInto _ _ _) fun _ => ?_
  exact Act.failsWith_bind (Act.failsWith_mapError _ _ fun _ _ h => by cases h) fun _ =>
    Act.failsWith_pure _ _

theorem failsWith_renamePass (report : LegacyReport) :
    Act.FailsWith (renamePass dir jars report) LegacyError.NotMissingPrefix := by
  unfold renamePass
  refine Act.failsWith_bind (Act.failsWith_forIn _ _ _ fun jar hjar _ => ?_) fun _ => Act.failsWith_pure _ _
  refine Act.failsWith_bind (failsWith_stripPrefix (hjars jar hjar)) fun _ => ?_
  exact Act.failsWith_bind (Act.failsWith_mapError _ _ fun _ _ h => by cases h) fun _ =>
    Act.failsWith_pure _ _

theorem failsWith_signingPasses :
    Act.FailsWith (signingPasses c toolkit dir jars) LegacyError.NotMissingPrefix := by
  unfold signingPasses
  dsimp only
  exact Act.failsWith_when (failsWith_unsignPass hjars) fun _ =>
    Act.failsWith_when (failsWith_normalizePass hjars) fun _ => failsWith_signPass hjars _

end

theorem failsWith_packPass (report : LegacyReport) :
    Act.FailsWith (packPass c toolkit dir report) LegacyError.NotMissingPrefix := by
  unfold packPass
  refine Act.failsWith_bind (Act.failsWith_forIn _ _ _ fun jar _ _ => ?_) fun _ => Act.failsWith_pure _ _
  exact Act.failsWith_bind (failsWith_runInto _ _ _) fun _ => Act.failsWith_pure _ _

theorem failsWith_clearScratch : Act.FailsWith (clearScratch c) LegacyError.NotMissingPrefix := by
  unfold clearScratch
  refine Act.failsWith_bind (fun _ _ _ h => by cases h) fun _ => ?_
  split
  · exact Act.failsWith_mapError _ _ fun _ _ h => by cases h
  · exact Act.failsWith_pure _ _

/-- Packing the processed jars, when asked to, then clearing the scratch directory. -/
theorem failsWith_packThenClear {β : Type} {s : Settings} (report : LegacyReport)
    (f : LegacyReport → β) :
    Act.FailsWith (if s.isPack200 = true then
        packPass c toolkit dir report >>= fun r => clearScratch c >>= fun _ => pure (f r)
      else pure report >>= fun r => clearScratch c >>= fun _ => pure (f r))
      LegacyError.NotMissingPrefix := by
  split
  all_goals
    refine Act.failsWith_bind ?_ fun _ => Act.failsWith_bind failsWith_clearScratch fun _ =>
      Act.failsWith_pure _ _
  · exact failsWith_packPass _
  · exact Act.failsWith_pure _ _

theorem failsWith_checkUnsignPermitted (s : Settings) (toolkit : Toolkit) (jars : List (String × Path)) :
    Act.FailsWith (checkUnsignPermitted s toolkit jars) LegacyError.NotMissingPrefix := by
  unfold checkUnsignPermitted
  split
  · exact Act.failsWith_pure _ _
  · refine Act.failsWith_bind (Act.failsWith_forIn _ _ _ fun jar _ _ => ?_) fun _ => Act.failsWith_pure _ _
    refine Act.failsWith_bind (Act.failsWith_mapError _ _ fun _ _ h => by cases h) fun _ => ?_
    split
    · exact Act.failsWith_bind (Act.failsWith_throw fun _ h => by cases h) fun _ => Act.failsWith_pure _ _
    · exact Act.failsWith_pure _ _

/-! ## The whole batch -/

/-- Single-pass processing never refuses a name for lacking the staging prefix, whatever
the directory holds and however the settings are set. Every name of the listed batch
starts with the prefix and ends in `.jar`, so something is left after the prefix; with
the pack extension added it keeps the prefix; and the name its pack is unpacked to is
the name again. -/
theorem processDirectory_never_missing_prefix (s : Settings) (toolkit : Toolkit) (start : Nat)
    (dir : Path) :
    Act.FailsWith (processDirectory s toolkit start dir) LegacyError.NotMissingPrefix ∧
    Act.Returns (listFiles dir (.and (.and .jar .unprocessed) (.modifiedSince start))) fun ps =>
      ∀ p ∈ ps, (nameOf p).startsWith unprocessedPrefix = true ∧ (nameOf p).endsWith ".jar" = true ∧
        stripPrefix p = .ok (unprefixed (nameOf p)) ∧ unprefixed (nameOf p) ≠ "" ∧
        (∃ m, stripPrefix (dir.push (nameOf p ++ s.packExtension)) = .ok m) ∧
        (if (nameOf (dir.push (nameOf p ++ s.packExtension))).endsWith s.packExtension = true then
          ((nameOf (dir.push (nameOf p ++ s.packExtension))).take
            ((nameOf (dir.push (nameOf p ++ s.packExtension))).length - s.packExtension.length)).toString
         else "") = nameOf p := by
  refine ⟨?_, ?_⟩
  · unfold processDirectory
    dsimp only
    refine Act.failsWith_bind_of (Q := fun ps => ∀ p ∈ ps, Staged (nameOf p))
      (Act.failsWith_mapError _ _ fun _ _ h => by cases h)
      (Act.returns_mapError _ (returns_listFiles_staged dir start)) fun ps hps => ?_
    split
    · exact Act.failsWith_pure _ _
    · refine Act.failsWith_bind (failsWith_checkUnsignPermitted _ _ _) fun _ => ?_
      split
      · exact Act.failsWith_bind (failsWith_signingPasses hps) fun _ => failsWith_packThenClear _ _
      · exact Act.failsWith_bind (failsWith_renamePass hps _) fun _ => failsWith_packThenClear _ _
  · intro w ps w' hrun p hp
    have h := returns_listFiles_staged dir start w ps w' hrun p hp
    refine ⟨h.startsWith, h.endsWith_jar, stripPrefix_of_staged h, h.unprefixed_ne_empty,
      h.stripPrefix_packed s dir, ?_⟩
    rw [nameOf_push dir (h.goodName_packed s)]
    exact unpackName_append s (nameOf p)

end Legacy

end JarDeploy
