import Mathlib.Data.List.Induction
import JarDeploy.Proofs.Placement

/-!
# Selecting artifacts

A pattern names up to four coordinates of an artifact, group first, each segment a glob.
Its text reads as a pattern exactly when, without blanks at either end and split at its
colons, it has at most four segments, none empty and each a glob; the pattern matches an
artifact when each segment's glob matches the coordinate in its place, so coordinates left
out match anything (`ArtifactPattern.parse_matches_segmentwise`).

Selection keeps, in input order, the artifacts the selector accepts whose key no accepted
artifact before them has: one more artifact keeps the selection so far and adds the
artifact exactly when it is accepted and its key is new among the accepted ones
(`Selector.select_append_singleton`). So selection picks a subsequence of accepted
artifacts with distinct keys, and selecting again changes nothing.

The pipeline then checks the file names of the selected artifacts in order, and refuses the
first artifact whose file name an earlier one has, naming both. It returns the selection
exactly when the file names are distinct (`select_is_stable_filter`).
-/

namespace JarDeploy

set_option autoImplicit false

/-- Keys compare equal exactly when they are equal. -/
theorem ArtifactKey.beq_iff_eq (a b : ArtifactKey) : (a == b) = true ↔ a = b := by
  obtain ⟨g, x, v, c, t⟩ := a
  obtain ⟨g', x', v', c', t'⟩ := b
  -- the derived comparison, field by field
  have h : (ArtifactKey.mk g x v c t == ArtifactKey.mk g' x' v' c' t') =
      (g == g' && (x == x' && (v == v' && (c == c' && t == t')))) := rfl
  rw [h]
  simp

theorem ArtifactKey.contains_iff_mem (seen : List ArtifactKey) (k : ArtifactKey) :
    seen.contains k = true ↔ k ∈ seen := by
  rw [List.contains_iff_exists_mem_beq]
  constructor
  · rintro ⟨k', hk', hk⟩
    rwa [(beq_iff_eq k k').1 hk]
  · intro hk
    exact ⟨k, hk, (beq_iff_eq k k).2 rfl⟩

theorem ArtifactKey.any_beq_iff (l : List Artifact) (k : ArtifactKey) :
    l.any (fun b => b.key == k) = true ↔ ∃ b ∈ l, b.key = k := by
  simp [List.any_eq_true, beq_iff_eq]

/-- A list with a repeated member has a first member that repeats one before it. -/
theorem exists_first_repeat {α : Type} (l : List α) (h : ¬ l.Nodup) :
    ∃ j, ∃ hj : j < l.length, (l.take j).Nodup ∧ l[j] ∈ l.take j := by
  induction l using List.reverseRecOn with
  | nil => exact absurd List.nodup_nil h
  | append_singleton l x ih =>
    by_cases hl : l.Nodup
    · have hx : x ∈ l := by
        by_contra hx
        refine h (List.nodup_append.2 ⟨hl, by simp, fun y hy z hz hyz => ?_⟩)
        rw [List.mem_singleton.1 hz] at hyz
        exact hx (hyz ▸ hy)
      exact ⟨l.length, by simp, by simpa using hl, by simpa using hx⟩
    · obtain ⟨j, hj, hnd, hmem⟩ := ih hl
      refine ⟨j, by simp; omega, ?_, ?_⟩
      · rwa [List.take_append_of_le_length (by omega)]
      · rwa [List.take_append_of_le_length (by omega), List.getElem_append_left hj]

namespace ArtifactPattern

/-! ## Patterns -/

/-- The segments of a pattern text: the text without blanks at either end, split at each
colon. -/
def segmentsOf (pattern : String) : List String := (Text.trim pattern).splitOn ":"

/-- An artifact's coordinates in the order a pattern names them: group, artifact id, type and
classifier, an absent classifier read as empty. -/
def coordinates (a : Artifact) : List String :=
  [a.groupId, a.artifactId, a.artifactType, a.classifier.getD ""]

/-- A pattern reads as the globs of its segments, kept with its text as written, when there
are at most four segments and none is empty. -/
theorem parse_eq_ok_iff {pattern : String} {q : ArtifactPattern} :
    parse pattern = .ok q ↔ q.source = pattern ∧ (segmentsOf pattern).length ≤ 4 ∧
      (∀ s ∈ segmentsOf pattern, s ≠ "") ∧
      List.Forall₂ (fun s g => Glob.parse s = .ok g) (segmentsOf pattern) q.segments := by
  unfold parse
  rw [show (Text.trim pattern).splitOn ":" = segmentsOf pattern from rfl]
  by_cases hlen : (segmentsOf pattern).length > 4
  · simp only [hlen, if_true]
    exact ⟨fun h => (by cases h), fun h => absurd h.2.1 (by omega)⟩
  by_cases hempty : (segmentsOf pattern).any (·.isEmpty) = true
  · obtain ⟨s, hs, hse⟩ := List.any_eq_true.1 hempty
    simp only [hlen, hempty, if_true, if_false]
    exact ⟨fun h => (by cases h), fun h => absurd (String.isEmpty_iff.1 hse) (h.2.2.1 s hs)⟩
  have hne : ∀ s ∈ segmentsOf pattern, s ≠ "" := fun s hs he =>
    hempty (List.any_eq_true.2 ⟨s, hs, String.isEmpty_iff.2 he⟩)
  simp only [hlen, hempty, if_false, Bool.false_eq_true, bind, Except.bind]
  -- the segments are read as globs one by one, each error renamed
  split
  · rename_i e hm
    obtain ⟨s, hs, e', hs'⟩ := mapM_eq_error_iff.1 ⟨e, hm⟩
    refine ⟨fun h => (by cases h), fun ⟨_, _, _, hall⟩ => ?_⟩
    obtain ⟨g, hg⟩ := exists_ok_of_mapM_eq_ok (mapM_eq_ok_iff.2 hall) s hs
    revert hs'
    rw [hg]
    intro h
    cases h
  · rename_i gs hm
    have hgs : List.Forall₂ (fun s g => Glob.parse s = .ok g) (segmentsOf pattern) gs :=
      (mapM_eq_ok_iff.1 hm).imp fun s g h => by
        revert h
        split <;> simp_all
    simp only [pure, Except.pure, Except.ok.injEq]
    constructor
    · rintro rfl
      exact ⟨rfl, by omega, hne, hgs⟩
    · rintro ⟨hsrc, -, -, hall⟩
      -- reading the segments as globs has one result
      have hsame := (mapM_eq_ok_iff.2 hgs).symm.trans (mapM_eq_ok_iff.2 hall)
      obtain ⟨src, segments⟩ := q
      simp only [Except.ok.injEq] at hsrc hsame
      rw [hsrc, hsame]

/-- Globs matched against coordinates in place, each coordinate against the glob of its
position, match exactly when each segment's glob matches the coordinate at its position. -/
theorem all_zip_isMatch_iff {segs : List String} {gs : List Glob}
    (h : List.Forall₂ (fun s g => Glob.parse s = .ok g) segs gs) {cs : List String}
    (hlen : segs.length ≤ cs.length) :
    (gs.zip cs).all (fun (g, f) => g.isMatch f) = true ↔
      ∀ (i : Nat) s, segs[i]? = some s →
        ∃ g f, Glob.parse s = .ok g ∧ cs[i]? = some f ∧ g.isMatch f = true := by
  induction h generalizing cs with
  | nil => simp
  | @cons s g segs gs hsg _ ih =>
    obtain ⟨c, cs, rfl⟩ : ∃ c cs', cs = c :: cs' :=
      List.exists_cons_of_ne_nil (List.ne_nil_of_length_pos (by simp at hlen ⊢; omega))
    have hrest := @ih cs (by simp at hlen; omega)
    simp only [List.zip_cons_cons, List.all_cons, Bool.and_eq_true, hrest]
    constructor
    · rintro ⟨hc, hmore⟩ i t ht
      cases i with
      | zero =>
        simp only [List.getElem?_cons_zero, Option.some.injEq] at ht
        exact ⟨g, c, ht ▸ hsg, rfl, hc⟩
      | succ i => simpa using hmore i t ht
    · intro hall
      refine ⟨?_, fun i t ht => by simpa using hall (i + 1) t ht⟩
      obtain ⟨g', f, hg', hf, hm⟩ := hall 0 s rfl
      simp only [List.getElem?_cons_zero, Option.some.injEq] at hf
      rw [hsg, Except.ok.injEq] at hg'
      rwa [hg', hf]

/-- A pattern text reads as a pattern exactly when the text without blanks at either end,
split at colons, has at most four segments, none of them empty and each a glob. The pattern
then matches an artifact exactly when each segment's glob matches the coordinate in its
place (group, artifact id, type, classifier or empty when there is none), so coordinates
after the last segment match anything. -/
theorem parse_matches_segmentwise (pattern : String) :
    ((∃ q, parse pattern = .ok q) ↔ (segmentsOf pattern).length ≤ 4 ∧
      (∀ s ∈ segmentsOf pattern, s ≠ "") ∧ ∀ s ∈ segmentsOf pattern, ∃ g, Glob.parse s = .ok g) ∧
    ∀ q, parse pattern = .ok q → ∀ a : Artifact, (q.matchesArtifact a = true ↔
      ∀ (i : Nat) s, (segmentsOf pattern)[i]? = some s →
        ∃ g f, Glob.parse s = .ok g ∧ (coordinates a)[i]? = some f ∧ g.isMatch f = true) := by
  refine ⟨⟨fun ⟨q, hq⟩ => ?_, fun ⟨hlen, hne, hglobs⟩ => ?_⟩, fun q hq a => ?_⟩
  · obtain ⟨-, hlen, hne, hall⟩ := parse_eq_ok_iff.1 hq
    exact ⟨hlen, hne, exists_ok_of_mapM_eq_ok (mapM_eq_ok_iff.2 hall)⟩
  · -- every segment is a glob, so reading them all succeeds
    cases hm : (segmentsOf pattern).mapM Glob.parse with
    | error e =>
      obtain ⟨s, hs, e', he⟩ := mapM_eq_error_iff.1 ⟨e, hm⟩
      obtain ⟨g, hg⟩ := hglobs s hs
      rw [hg] at he
      cases he
    | ok gs => exact ⟨⟨pattern, gs⟩, parse_eq_ok_iff.2 ⟨rfl, hlen, hne, mapM_eq_ok_iff.1 hm⟩⟩
  · obtain ⟨-, hlen, -, hall⟩ := parse_eq_ok_iff.1 hq
    exact all_zip_isMatch_iff hall (by simpa [coordinates] using hlen)

end ArtifactPattern

namespace Selector

variable (s : Selector)

/-! ## What a selector accepts -/

/-- An artifact is accepted when it ships as a jar, has a runtime scope, is direct when
transitive ones are excluded, matches an include when there are any, and matches no
exclude. -/
theorem accepts_iff (a : Artifact) :
    s.accepts a = true ↔ a.isJar = true ∧ a.scope.isRuntime = true ∧
      (s.excludeTransitive = true → a.direct = true) ∧
      (s.includes ≠ [] → ∃ q ∈ s.includes, q.matchesArtifact a = true) ∧
      ∀ q ∈ s.excludes, q.matchesArtifact a = false := by
  simp only [accepts, Bool.and_eq_true, Bool.or_eq_true, Bool.not_eq_true', List.any_eq_true,
    List.any_eq_false, List.isEmpty_iff, and_assoc]
  refine and_congr_right fun _ => and_congr_right fun _ => and_congr ?_ (and_congr ?_ ?_)
  · cases s.excludeTransitive <;> simp
  · by_cases hi : s.includes = [] <;> simp [hi]
  · simp

/-- The patterns of a selector built from texts are the texts read as patterns. -/
theorem ofPatterns_eq_ok {includes excludes : List String} {excludeTransitive : Bool} {sel : Selector}
    (h : ofPatterns includes excludes excludeTransitive = .ok sel) :
    includes.mapM ArtifactPattern.parse = .ok sel.includes ∧
      excludes.mapM ArtifactPattern.parse = .ok sel.excludes ∧ sel.excludeTransitive = excludeTransitive := by
  unfold ofPatterns at h
  cases hi : includes.mapM ArtifactPattern.parse with
  | error e =>
    rw [hi] at h
    cases h
  | ok inc =>
    cases he : excludes.mapM ArtifactPattern.parse with
    | error e =>
      rw [hi, he] at h
      cases h
    | ok exc =>
      rw [hi, he] at h
      cases h
      exact ⟨rfl, rfl, rfl⟩

/-! ## Keeping the first of each key -/

/-- One more artifact is kept exactly when its key is neither seen nor the key of an
artifact before it. -/
theorem firstOfEachKey_append_singleton (l : List Artifact) (a : Artifact) (seen : List ArtifactKey) :
    firstOfEachKey (l ++ [a]) seen = firstOfEachKey l seen ++
      (if (seen.contains a.key || l.any fun b => b.key == a.key) = true then [] else [a]) := by
  induction l generalizing seen with
  | nil => cases h : seen.contains a.key <;> simp [firstOfEachKey, h]
  | cons b l ih =>
    by_cases hb : b.key ∈ seen
    · -- `b` is dropped; its key, if it is `a`'s, is seen already
      have hcond : (seen.contains a.key || (b :: l).any fun c => c.key == a.key) =
          (seen.contains a.key || l.any fun c => c.key == a.key) := by
        apply Bool.eq_iff_iff.2
        simp only [Bool.or_eq_true, ArtifactKey.contains_iff_mem, ArtifactKey.any_beq_iff, List.mem_cons,
          exists_eq_or_imp]
        constructor
        · rintro (h | h | h)
          · exact .inl h
          · exact .inl (h ▸ hb)
          · exact .inr h
        · rintro (h | h)
          · exact .inl h
          · exact .inr (.inr h)
      have hseen : seen.contains b.key = true := (ArtifactKey.contains_iff_mem _ _).2 hb
      rw [List.cons_append, firstOfEachKey, if_pos hseen, ih, firstOfEachKey, if_pos hseen, hcond]
    · have hcond : ((b.key :: seen).contains a.key || l.any fun c => c.key == a.key) =
          (seen.contains a.key || (b :: l).any fun c => c.key == a.key) := by
        apply Bool.eq_iff_iff.2
        simp only [Bool.or_eq_true, ArtifactKey.contains_iff_mem, ArtifactKey.any_beq_iff, List.mem_cons,
          exists_eq_or_imp]
        constructor
        · rintro ((h | h) | h)
          · exact .inr (.inl h.symm)
          · exact .inl h
          · exact .inr (.inr h)
        · rintro (h | h | h)
          · exact .inl (.inr h)
          · exact .inl (.inl h.symm)
          · exact .inr h
      have hnot : ¬ seen.contains b.key = true := fun h => hb ((ArtifactKey.contains_iff_mem _ _).1 h)
      rw [List.cons_append, firstOfEachKey, if_neg hnot, ih, firstOfEachKey, if_neg hnot, hcond,
        List.cons_append]

theorem select_nil : s.select [] = [] := rfl

/-- Selecting one more artifact adds it exactly when it is accepted and no accepted artifact
before it has its key. -/
theorem select_append_singleton (xs : List Artifact) (a : Artifact) :
    s.select (xs ++ [a]) = s.select xs ++
      (if s.accepts a = true ∧ ∀ b ∈ xs, s.accepts b = true → b.key ≠ a.key then [a] else []) := by
  unfold select
  rw [List.filter_append, List.filter_singleton]
  by_cases ha : s.accepts a = true
  · -- among the accepted artifacts before it, one has `a`'s key or none does
    have hcond : (([] : List ArtifactKey).contains a.key ||
        (xs.filter s.accepts).any fun b => b.key == a.key) = true ↔
        ¬ ∀ b ∈ xs, s.accepts b = true → b.key ≠ a.key := by
      rw [List.contains_nil, Bool.false_or, ArtifactKey.any_beq_iff]
      simp [and_assoc]
    rw [ha, cond_true, firstOfEachKey_append_singleton]
    by_cases h : ∀ b ∈ xs, s.accepts b = true → b.key ≠ a.key
    · rw [if_neg (fun hc => hcond.1 hc h), if_pos ⟨rfl, h⟩]
    · rw [if_pos (hcond.2 h), if_neg (fun hh => h hh.2)]
  · rw [if_neg (fun hh => ha hh.1)]
    simp [ha]

/-- Selection keeps artifacts of the input, in order. -/
theorem select_sublist (xs : List Artifact) : List.Sublist (s.select xs) xs := by
  induction xs using List.reverseRecOn with
  | nil => exact List.Sublist.slnil
  | append_singleton xs a ih =>
    rw [select_append_singleton]
    split
    · exact ih.append (List.Sublist.refl _)
    · simpa using ih.trans (List.sublist_append_left xs [a])

theorem accepts_of_mem_select {xs : List Artifact} {a : Artifact} (h : a ∈ s.select xs) : s.accepts a = true := by
  induction xs using List.reverseRecOn with
  | nil => cases h
  | append_singleton xs b ih =>
    rw [select_append_singleton] at h
    split at h
    · rename_i hb
      rcases List.mem_append.1 h with h | h
      · exact ih h
      · exact (List.mem_singleton.1 h) ▸ hb.1
    · exact ih (by simpa using h)

/-- The selected artifacts have distinct keys. -/
theorem nodup_keys_select (xs : List Artifact) : ((s.select xs).map Artifact.key).Nodup := by
  induction xs using List.reverseRecOn with
  | nil => exact List.nodup_nil
  | append_singleton xs a ih =>
    rw [select_append_singleton]
    split
    · rename_i ha
      rw [List.map_append, List.nodup_append]
      refine ⟨ih, by simp, fun k hk k' hk' => ?_⟩
      obtain ⟨b, hb, rfl⟩ := List.mem_map.1 hk
      obtain rfl : k' = a.key := by simpa using hk'
      exact ha.2 b ((select_sublist s xs).subset hb) (s.accepts_of_mem_select hb)
    · simpa using ih

/-- Accepted artifacts with distinct keys are all selected. -/
theorem select_eq_self {ys : List Artifact} (hacc : ∀ a ∈ ys, s.accepts a = true)
    (hnd : (ys.map Artifact.key).Nodup) : s.select ys = ys := by
  induction ys using List.reverseRecOn with
  | nil => rfl
  | append_singleton ys a ih =>
    rw [List.map_append, List.nodup_append] at hnd
    have hnew : ∀ b ∈ ys, s.accepts b = true → b.key ≠ a.key := fun b hb _ he =>
      hnd.2.2 b.key (List.mem_map_of_mem hb) a.key (by simp) he
    rw [select_append_singleton, if_pos ⟨hacc a (by simp), hnew⟩,
      ih (fun b hb => hacc b (by simp [hb])) hnd.1]

/-- Selecting the selection again changes nothing. -/
theorem select_select (xs : List Artifact) : s.select (s.select xs) = s.select xs :=
  s.select_eq_self (fun _ => s.accepts_of_mem_select) (s.nodup_keys_select xs)

end Selector

/-! ## The file name check -/

namespace Pipeline

variable (p : Pipeline)

/-- The file name the pipeline deploys an artifact under. -/
def deployName (a : Artifact) : String := p.builder.filename a p.settings.outputJarVersions

/-- One round of the file name check of selection: an artifact whose file name an earlier
artifact has is refused, with both artifacts named. -/
def nameCheck (seen : List (String × Artifact)) (a : Artifact) :
    Except SettingsError (List (String × Artifact)) :=
  match collision seen (p.deployName a) with
  | some first => throw (.filenameCollision (p.deployName a) first.display a.display)
  | none => pure (seen ++ [(p.deployName a, a)])

theorem select_eq {sel : Selector} (hsel : Selector.ofPatterns p.settings.dependencies.includes
    p.settings.dependencies.excludes p.settings.excludeTransitive = .ok sel) (xs : List Artifact) :
    p.select xs = (do let _ ← (sel.select xs).foldlM p.nameCheck []; pure (sel.select xs)) := by
  unfold select
  rw [hsel]
  rfl

variable {p}

/-- The artifact recorded under a name, when the names seen are those of a list. -/
theorem collision_map (f : Artifact → String) (T : List Artifact) (n : String) :
    collision (T.map fun a => (f a, a)) n = T.find? (fun a => f a == n) := by
  simp only [collision, List.find?_map, Option.map_map]
  exact Option.map_id'

/-- The name check passes a list of artifacts with distinct names, recording each. -/
theorem foldlM_nameCheck_nodup :
    ∀ (U T : List Artifact),
      ((T ++ U).map fun a => p.deployName a).Nodup →
      U.foldlM p.nameCheck (T.map fun a => (p.deployName a, a)) =
        .ok ((T ++ U).map fun a => (p.deployName a, a))
  | [], T, _ => by
    simp only [List.append_nil, List.foldlM_nil]
    rfl
  | b :: U, T, hnd => by
    have hnew : collision (T.map fun a => (p.deployName a, a))
        (p.deployName b) = none := by
      rw [collision_map, List.find?_eq_none]
      intro a ha hab
      have hnd' := (List.nodup_append.1 (by simpa using hnd)).2.2
      exact hnd' _ (List.mem_map_of_mem ha) _ List.mem_cons_self (by simpa using hab)
    rw [List.foldlM_cons, nameCheck, hnew]
    show U.foldlM p.nameCheck ((T.map fun a => (p.deployName a, a)) ++
      [(p.deployName b, b)]) = _
    have := foldlM_nameCheck_nodup U (T ++ [b]) (by simpa using hnd)
    simpa using this

/-- The name check refuses the first artifact whose name an artifact before it has, naming
that one first. -/
theorem foldlM_nameCheck_repeat {V W : List Artifact} {b c : Artifact}
    (hnd : (V.map fun a => p.deployName a).Nodup) (hc : c ∈ V)
    (hcb : p.deployName c = p.deployName b) :
    (V ++ b :: W).foldlM p.nameCheck [] =
      .error (.filenameCollision (p.deployName b) c.display b.display) := by
  have hV : V.foldlM p.nameCheck [] = .ok (V.map fun a => (p.deployName a, a)) := by
    simpa using foldlM_nameCheck_nodup V [] (by simpa using hnd)
  -- the earlier artifact is the only one of `V` with that name
  have hfind : V.find? (fun a => p.deployName a ==
      p.deployName b) = some c := by
    have hcb' : (p.deployName c ==
        p.deployName b) = true := beq_iff_eq.2 hcb
    obtain ⟨x, hx⟩ : ∃ x, V.find? (fun a => p.deployName a ==
        p.deployName b) = some x := by
      cases h : V.find? (fun a => p.deployName a ==
          p.deployName b) with
      | some x => exact ⟨x, rfl⟩
      | none => exact absurd hcb' (List.find?_eq_none.1 h c hc)
    have hxV := List.mem_of_find?_eq_some hx
    have hxb := List.find?_some hx
    rw [hx, List.inj_on_of_nodup_map hnd hxV hc ((beq_iff_eq.1 hxb).trans hcb.symm)]
  rw [List.foldlM_append, hV]
  show List.foldlM p.nameCheck (V.map fun a => (p.deployName a, a)) (b :: W) = _
  rw [List.foldlM_cons, nameCheck, collision_map, hfind]
  rfl

/-- What selection does with a list of artifacts, for a pipeline whose selector `sel` is read
from its patterns. -/
structure SelectionLaws (p : Pipeline) (sel : Selector) (xs : List Artifact) : Prop where
  /-- The selector's patterns are the settings' texts read as patterns. -/
  includes : p.settings.dependencies.includes.mapM ArtifactPattern.parse = .ok sel.includes
  excludes : p.settings.dependencies.excludes.mapM ArtifactPattern.parse = .ok sel.excludes
  /-- What the selector accepts. -/
  accepts : ∀ a, sel.accepts a = true ↔ a.isJar = true ∧ a.scope.isRuntime = true ∧
    (p.settings.excludeTransitive = true → a.direct = true) ∧
    (sel.includes ≠ [] → ∃ q ∈ sel.includes, q.matchesArtifact a = true) ∧
    ∀ q ∈ sel.excludes, q.matchesArtifact a = false
  /-- Selection takes the artifacts in order, keeping one exactly when it is accepted and no
  accepted artifact before it has its key. -/
  nil : sel.select [] = []
  snoc : ∀ ys a, sel.select (ys ++ [a]) = sel.select ys ++
    (if sel.accepts a = true ∧ ∀ b ∈ ys, sel.accepts b = true → b.key ≠ a.key then [a] else [])
  sublist : List.Sublist (sel.select xs) xs
  idempotent : sel.select (sel.select xs) = sel.select xs
  /-- The pipeline returns the selection exactly when the file names are distinct. -/
  distinct : p.select xs = .ok (sel.select xs) ↔ ((sel.select xs).map p.deployName).Nodup
  /-- Otherwise it refuses the first artifact whose file name an earlier one has, naming that
  one first. -/
  collision : ¬ ((sel.select xs).map p.deployName).Nodup →
    ∃ i j, ∃ (_ : i < j) (hj : j < (sel.select xs).length),
      p.deployName (sel.select xs)[i] = p.deployName (sel.select xs)[j] ∧
      (((sel.select xs).take j).map p.deployName).Nodup ∧
      p.select xs = .error (.filenameCollision (p.deployName (sel.select xs)[j])
        (sel.select xs)[i].display (sel.select xs)[j].display)

/-- Selection is a stable filter that keeps the first accepted artifact of each key, and the
pipeline refuses exactly the selections with a repeated file name, at the first repeat. -/
theorem select_is_stable_filter (p : Pipeline) {sel : Selector}
    (hsel : Selector.ofPatterns p.settings.dependencies.includes p.settings.dependencies.excludes
      p.settings.excludeTransitive = .ok sel) (xs : List Artifact) : SelectionLaws p sel xs := by
  obtain ⟨hinc, hexc, het⟩ := Selector.ofPatterns_eq_ok hsel
  refine ⟨hinc, hexc, fun a => het ▸ sel.accepts_iff a, rfl, sel.select_append_singleton,
    sel.select_sublist xs, sel.select_select xs, ⟨fun h => select_nodup h, fun hnd => ?_⟩, fun hnd => ?_⟩
  · have hfold := foldlM_nameCheck_nodup (sel.select xs) [] (by simpa using hnd)
    simp only [List.map_nil, List.nil_append] at hfold
    exact (select_eq p hsel xs).trans (congrArg (fun r => r >>= fun _ => pure (sel.select xs)) hfold)
  · -- the first file name that repeats an earlier one, and the earlier artifact it repeats
    obtain ⟨j, hj, htake, hmem⟩ := exists_first_repeat _ hnd
    rw [List.length_map] at hj
    obtain ⟨i, hi, hieq⟩ := List.mem_iff_getElem.1 hmem
    have hij : i < j := by simp at hi; omega
    have hname : p.deployName (sel.select xs)[i] = p.deployName (sel.select xs)[j] := by
      simpa using hieq
    refine ⟨i, j, hij, hj, hname, by simpa [← List.map_take] using htake, ?_⟩
    have hsplit : sel.select xs = (sel.select xs).take j ++ (sel.select xs)[j] :: (sel.select xs).drop (j + 1) := by
      rw [List.getElem_cons_drop, List.take_append_drop]
    have hfold := foldlM_nameCheck_repeat (W := (sel.select xs).drop (j + 1))
      (by simpa [← List.map_take] using htake) (List.mem_iff_getElem.2 ⟨i, by simp; omega, by simp⟩) hname
    rw [← hsplit] at hfold
    exact (select_eq p hsel xs).trans (congrArg (fun r => r >>= fun _ => pure (sel.select xs)) hfold)

/-- Two artifacts of one key and a third deployed under the same file name: the second is
dropped and the third is refused. -/
theorem select_is_stable_filter_repeats :
    let p : Pipeline := { settings := {}, toolkit := .scripted }
    let a : Artifact := { groupId := "g", artifactId := "a", version := "1", file := "repo/a.jar" }
    let a' : Artifact := { a with file := "other/a.jar" }
    let b : Artifact := { a with groupId := "h" }
    Selector.ofPatterns p.settings.dependencies.includes p.settings.dependencies.excludes
        p.settings.excludeTransitive = .ok ⟨[], [], false⟩ ∧
      SelectionLaws p ⟨[], [], false⟩ [a, a', b] :=
  ⟨rfl, select_is_stable_filter _ rfl _⟩

end Pipeline

end JarDeploy
