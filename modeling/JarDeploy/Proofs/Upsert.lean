import JarDeploy.Proofs.ManifestMerge

/-!
# Merging is an upsert

`Manifest.merge` takes the entries in order. An entry whose key matches a main attribute,
ignoring ASCII case, replaces the value of the first such attribute when overriding and is
skipped otherwise; an entry that matches no attribute is appended (`Upsert`). The keys of
the entries written are recorded in order.

Keys are never changed or dropped, so once an entry is merged its key is found, and the
first attribute matching a key stays the first one. Merging the same entries again
therefore changes nothing: without override every entry is skipped, and with override the
value at each position is written again by the last entry that wrote it the first time
(`merge_is_idempotent_upsert`).
-/

namespace JarDeploy.Manifest

set_option autoImplicit false

variable {override : Bool}

/-! ## Keys and their first match -/

/-- The keys of a list of attributes, in order. -/
def keys (main : List (String × String)) : List String := main.map Prod.fst

/-- The position of the first key that matches `key`, ignoring ASCII case. -/
def firstMatch (ks : List String) (key : String) : Option Nat := ks.findIdx? (sameKey · key)

/-- Some key of the list matches `key`, ignoring ASCII case. -/
def Found (ks : List String) (key : String) : Prop := ∃ k ∈ ks, sameKey k key = true

@[simp] theorem sameKey_self (k : String) : sameKey k k = true := by simp [sameKey]

@[simp] theorem keys_nil : keys [] = [] := rfl

@[simp] theorem keys_cons (a : String × String) (l : List (String × String)) :
    keys (a :: l) = a.1 :: keys l := rfl

@[simp] theorem keys_append (l l' : List (String × String)) : keys (l ++ l') = keys l ++ keys l' :=
  List.map_append

@[simp] theorem length_keys (l : List (String × String)) : (keys l).length = l.length :=
  List.length_map _

/-- Replacing a value keeps the keys. -/
@[simp] theorem keys_set_value (l : List (String × String)) (i : Nat) (hi : i < l.length) (v : String) :
    keys (l.set i (l[i].1, v)) = keys l := by
  have hlen : i < (l.map Prod.fst).length := by simpa using hi
  have hget : (l.map Prod.fst)[i] = l[i].1 := List.getElem_map ..
  unfold keys
  rw [List.map_set, ← hget, List.set_getElem_self]

theorem found_iff_isSome {ks : List String} {key : String} :
    Found ks key ↔ (firstMatch ks key).isSome := by
  simp [Found, firstMatch, List.findIdx?_isSome, List.any_eq_true]

theorem Found.mono {ks ks' : List String} {key : String} (h : ks <+: ks') (hf : Found ks key) :
    Found ks' key := by
  obtain ⟨k, hk, hkey⟩ := hf
  exact ⟨k, h.subset hk, hkey⟩

/-- A key found in a list keeps its first match when keys are added after it. -/
theorem firstMatch_of_extend {ks ks' : List String} {key : String} (h : ks <+: ks') (hf : Found ks key) :
    firstMatch ks' key = firstMatch ks key := by
  obtain ⟨rest, rfl⟩ := h
  obtain ⟨i, hi⟩ := Option.isSome_iff_exists.1 (found_iff_isSome.1 hf)
  simp only [firstMatch] at hi ⊢
  rw [List.findIdx?_append, hi, Option.some_or]

/-- The key appended after a list in which nothing matches it is its first match. -/
theorem firstMatch_append_new {ks : List String} {key : String} (h : ¬ Found ks key) :
    firstMatch (ks ++ [key]) key = some ks.length := by
  have hnone : firstMatch ks key = none := by
    simpa [found_iff_isSome] using h
  simp only [firstMatch] at hnone ⊢
  rw [List.findIdx?_append, hnone]
  simp

/-- The first match of a key is the position that matches with no match before it. -/
theorem firstMatch_eq_some {ks : List String} {key : String} {i : Nat} (hi : i < ks.length)
    (hkey : sameKey ks[i] key = true) (hbefore : ∀ k ∈ ks.take i, sameKey k key = false) :
    firstMatch ks key = some i := by
  rw [firstMatch, List.findIdx?_eq_some_iff_getElem]
  refine ⟨hi, hkey, fun j hj => ?_⟩
  have hmem : ks[j] ∈ ks.take i := List.mem_iff_getElem.2 ⟨j, by simp; omega, by simp⟩
  simp [hbefore _ hmem]

/-- The first attribute whose key matches, with none before it, is the first match among the
keys. -/
theorem firstMatch_keys_eq_some {main : List (String × String)} {key : String} {i : Nat}
    (hi : i < main.length) (hkey : sameKey main[i].1 key = true)
    (hbefore : ∀ a ∈ main.take i, sameKey a.1 key = false) : firstMatch (keys main) key = some i := by
  refine firstMatch_eq_some (by simpa using hi) (by simpa [keys] using hkey) fun k hk => ?_
  rw [keys, ← List.map_take] at hk
  obtain ⟨a, ha, rfl⟩ := List.mem_map.1 hk
  exact hbefore a ha

/-- No attribute matches a key exactly when none of the keys does. -/
theorem not_found_keys {main : List (String × String)} {key : String}
    (hnone : ∀ a ∈ main, sameKey a.1 key = false) : ¬ Found (keys main) key := by
  rintro ⟨k, hk, hkey⟩
  obtain ⟨a, ha, rfl⟩ := List.mem_map.1 hk
  simp [hnone a ha] at hkey

/-! ## One entry -/

/-- One entry merged into a manifest, as documented: it overwrites the value of the first
main attribute whose key matches its own when overriding, is skipped when not overriding,
and is appended when no key matches. The keys written are recorded. -/
inductive Upsert (override : Bool) :
    Manifest × List String → String × String → Manifest × List String → Prop
  | overwrite {m : Manifest} {applied : List String} {key value : String} (i : Nat)
      (hi : i < m.main.length) (hkey : sameKey m.main[i].1 key = true)
      (hbefore : ∀ a ∈ m.main.take i, sameKey a.1 key = false) (ho : override = true) :
      Upsert override (m, applied) (key, value)
        ({ m with main := m.main.set i (m.main[i].1, value) }, applied ++ [key])
  | skip {m : Manifest} {applied : List String} {key value : String}
      (hmatch : ∃ a ∈ m.main, sameKey a.1 key = true) (ho : override = false) :
      Upsert override (m, applied) (key, value) (m, applied)
  | append {m : Manifest} {applied : List String} {key value : String}
      (hnone : ∀ a ∈ m.main, sameKey a.1 key = false) :
      Upsert override (m, applied) (key, value)
        ({ m with main := m.main ++ [(key, value)] }, applied ++ [key])

/-- Each step of merging is an upsert. -/
theorem mergeStep_upsert (acc : Manifest × List String) (e : String × String) :
    Upsert override acc e (mergeStep override acc e) := by
  obtain ⟨m, applied⟩ := acc
  obtain ⟨key, value⟩ := e
  simp only [mergeStep]
  split
  · rename_i hany
    obtain ⟨a, ha, hak⟩ := List.any_eq_true.1 hany
    split
    · rename_i ho
      split
      · rename_i i hi
        obtain ⟨hlt, hkey, hfirst⟩ := List.findIdx?_eq_some_iff_getElem.1 hi
        have hbefore : ∀ b ∈ m.main.take i, sameKey b.1 key = false := by
          intro b hb
          obtain ⟨j, hj, rfl⟩ := List.mem_iff_getElem.1 hb
          simpa using hfirst j (by simp at hj; omega)
        have hget : m.main.getD i ("", "") = m.main[i] := by simp [List.getD_eq_getElem?_getD, hlt]
        rw [hget]
        exact .overwrite i hlt (by simpa using hkey) hbefore ho
      · rename_i hnone
        have := List.findIdx?_eq_none_iff.1 hnone a ha
        simp_all
    · exact .skip ⟨a, ha, hak⟩ (by simpa using ‹¬override = true›)
  · rename_i hany
    refine .append fun a ha => ?_
    have := List.any_eq_false.1 (Bool.eq_false_iff.2 hany) a ha
    obtain ⟨k, v⟩ := a
    simpa using this

namespace Upsert

variable {s s' : Manifest × List String} {e : String × String}

theorem sections (h : Upsert override s e s') : s'.1.sections = s.1.sections := by
  cases h <;> rfl

/-- An upsert never drops, moves or renames a key. -/
theorem keys_extend (h : Upsert override s e s') : keys s.1.main <+: keys s'.1.main := by
  cases h with
  | overwrite i hi => simp [keys_set_value _ i hi]
  | skip => exact List.prefix_refl _
  | append => simp

/-- After an upsert the entry's key is found. -/
theorem found (h : Upsert override s e s') : Found (keys s'.1.main) e.1 := by
  cases h with
  | overwrite i hi hkey =>
    refine ⟨_, ?_, hkey⟩
    rw [keys_set_value _ i hi]
    exact List.mem_map_of_mem (List.getElem_mem hi)
  | skip hmatch =>
    obtain ⟨a, ha, hak⟩ := hmatch
    exact ⟨a.1, List.mem_map_of_mem ha, hak⟩
  | append => exact ⟨_, by simp [keys], sameKey_self _⟩

/-- An entry whose key is already found is skipped when not overriding. -/
theorem eq_of_found (h : Upsert false s e s') (hf : Found (keys s.1.main) e.1) : s' = s := by
  cases h with
  | overwrite _ _ _ _ ho => cases ho
  | skip => rfl
  | append hnone =>
    obtain ⟨k, hk, hkey⟩ := hf
    obtain ⟨a, ha, rfl⟩ := List.mem_map.1 hk
    simp [hnone a ha] at hkey

/-- With override, an entry whose key is already found overwrites the value at the first
match of its key, and the keys stay as they were. -/
theorem eq_set_of_found (h : Upsert true s e s') (hf : Found (keys s.1.main) e.1) :
    ∃ i, ∃ hi : i < s.1.main.length, firstMatch (keys s.1.main) e.1 = some i ∧
      s'.1 = { s.1 with main := s.1.main.set i (s.1.main[i].1, e.2) } := by
  cases h with
  | overwrite i hi hkey hbefore => exact ⟨i, hi, firstMatch_keys_eq_some hi hkey hbefore, rfl⟩
  | skip _ ho => cases ho
  | append hnone => exact absurd hf (not_found_keys hnone)

/-- With override, an upsert writes the entry's value at the first match of its key in the
manifest after it, and leaves every other position it had as it was. -/
theorem writes (h : Upsert true s e s') :
    ∃ j, firstMatch (keys s'.1.main) e.1 = some j ∧
      (∀ hj : j < s'.1.main.length, s'.1.main[j].2 = e.2) ∧
      ∀ i (hi : i < s'.1.main.length), i ≠ j → ∃ his : i < s.1.main.length, s'.1.main[i] = s.1.main[i] := by
  cases h with
  | overwrite i hi hkey hbefore =>
    refine ⟨i, ?_, fun _ => by simp, fun n hn hni => ⟨by simpa using hn, by simp [Ne.symm hni]⟩⟩
    rw [keys_set_value _ i hi]
    exact firstMatch_keys_eq_some hi hkey hbefore
  | skip _ ho => cases ho
  | @append m _ _ _ hnone =>
    refine ⟨_, by simpa using firstMatch_append_new (not_found_keys hnone), fun _ => by simp,
      fun n hn hnj => ?_⟩
    have hlt : n < m.main.length := by simp at hn; omega
    exact ⟨hlt, List.getElem_append_left hlt⟩

end Upsert

/-! ## All entries -/

theorem merge_append_singleton (m : Manifest) (pre : List (String × String)) (e : String × String) :
    m.merge (pre ++ [e]) override = mergeStep override (m.merge pre override) e := by
  simp [merge, List.foldl_append]

/-- Merging keeps the keys there were, in place, and only adds keys after them. -/
theorem keys_extend_merge (m : Manifest) (entries : List (String × String)) :
    keys m.main <+: keys (m.merge entries override).1.main := by
  induction entries using List.reverseRecOn with
  | nil => exact List.prefix_refl _
  | append_singleton pre e ih =>
    rw [merge_append_singleton]
    exact ih.trans (mergeStep_upsert _ e).keys_extend

/-- Every entry's key is found once the entries are merged. -/
theorem found_merge (m : Manifest) (entries : List (String × String)) :
    ∀ e ∈ entries, Found (keys (m.merge entries override).1.main) e.1 := by
  induction entries using List.reverseRecOn with
  | nil => simp
  | append_singleton pre e ih =>
    intro e' he'
    rw [merge_append_singleton]
    rcases List.mem_append.1 he' with he' | he'
    · exact (ih e' he').mono (mergeStep_upsert _ e).keys_extend
    · rw [List.mem_singleton.1 he']
      exact (mergeStep_upsert _ e).found

/-- Without override, entries whose keys are all found change nothing. -/
theorem foldl_mergeStep_skip (entries : List (String × String)) (acc : Manifest × List String)
    (hf : ∀ e ∈ entries, Found (keys acc.1.main) e.1) : entries.foldl (mergeStep false) acc = acc := by
  induction entries with
  | nil => rfl
  | cons e entries ih =>
    have hstep := (mergeStep_upsert acc e).eq_of_found (hf e List.mem_cons_self)
    rw [List.foldl_cons, hstep]
    exact ih fun e' he' => hf e' (List.mem_cons_of_mem _ he')

/-! ## Overwriting -/

/-- The value at position `i` once an entry is merged with override over keys `ks`: the
entry's value when its key first matches there. -/
def overwriteAt (ks : List String) (i : Nat) (v : String) (e : String × String) : String :=
  if firstMatch ks e.1 = some i then e.2 else v

/-- The main attributes with the values that entries merged with override leave at each
position, over keys that do not change. -/
def overwritten (main : List (String × String)) (entries : List (String × String)) :
    List (String × String) :=
  main.mapIdx fun i a => (a.1, entries.foldl (overwriteAt (keys main) i) a.2)

@[simp] theorem overwritten_nil (main : List (String × String)) : overwritten main [] = main :=
  List.ext_getElem (by simp [overwritten]) fun i _ _ => by simp [overwritten]

/-- Overwriting the first match of a key and then more entries is overwriting with all of them. -/
theorem overwritten_set {main : List (String × String)} {i : Nat} (hi : i < main.length)
    {e : String × String} (hfirst : firstMatch (keys main) e.1 = some i) (entries : List (String × String)) :
    overwritten (main.set i (main[i].1, e.2)) entries = overwritten main (e :: entries) := by
  refine List.ext_getElem (by simp [overwritten]) fun n h₁ h₂ => ?_
  have hn : n < main.length := by simpa [overwritten] using h₂
  simp only [overwritten, keys_set_value _ i hi, List.getElem_mapIdx, List.foldl_cons]
  by_cases hni : n = i
  · subst hni
    simp [overwriteAt, hfirst]
  · simp [overwriteAt, hfirst, Ne.symm hni]

/-- With override, entries whose keys are all found leave at each position the value of the
last entry whose key first matches there. -/
theorem foldl_mergeStep_overwrite (entries : List (String × String)) (acc : Manifest × List String)
    (hf : ∀ e ∈ entries, Found (keys acc.1.main) e.1) :
    (entries.foldl (mergeStep true) acc).1 = { acc.1 with main := overwritten acc.1.main entries } := by
  induction entries generalizing acc with
  | nil => simp
  | cons e entries ih =>
    obtain ⟨i, hi, hfirst, hstep⟩ := (mergeStep_upsert acc e).eq_set_of_found (hf e List.mem_cons_self)
    have hkeys : keys (mergeStep true acc e).1.main = keys acc.1.main := by
      rw [hstep]
      exact keys_set_value _ i hi _
    rw [List.foldl_cons, ih _ fun e' he' => hkeys ▸ hf e' (List.mem_cons_of_mem _ he'), hstep]
    simp only
    rw [overwritten_set hi hfirst]

/-- The values merging leaves with override are written again by the same entries: at each
position, the last entry whose key first matches there wrote the value that stands there. -/
theorem foldl_overwriteAt_merge (m : Manifest) (entries : List (String × String)) :
    ∀ n (hn : n < (m.merge entries true).1.main.length),
      entries.foldl (overwriteAt (keys (m.merge entries true).1.main) n) (m.merge entries true).1.main[n].2 =
        (m.merge entries true).1.main[n].2 := by
  induction entries using List.reverseRecOn with
  | nil => intro n hn; rfl
  | append_singleton pre e ih =>
    have hstep : Upsert true (m.merge pre true) e (mergeStep true (m.merge pre true) e) :=
      mergeStep_upsert _ e
    obtain ⟨j, hj, hval, hkeep⟩ := hstep.writes
    intro n hn
    simp only [merge_append_singleton] at hn ⊢
    rw [List.foldl_append, List.foldl_cons, List.foldl_nil]
    by_cases hnj : n = j
    · subst hnj
      simp [overwriteAt, hj, hval hn]
    · obtain ⟨hns, hkeep⟩ := hkeep n hn hnj
      -- the entries before `e` are found before it, so their first matches do not move
      have hfold : ∀ v, pre.foldl (overwriteAt (keys (mergeStep true (m.merge pre true) e).1.main) n) v =
          pre.foldl (overwriteAt (keys (m.merge pre true).1.main) n) v := by
        refine fun v => List.foldl_ext _ _ v fun v' e' he' => ?_
        simp only [overwriteAt]
        rw [firstMatch_of_extend hstep.keys_extend (found_merge m pre e' he')]
      have hlast : ∀ v, overwriteAt (keys (mergeStep true (m.merge pre true) e).1.main) n v e = v :=
        fun v => if_neg (by rw [hj]; simpa using Ne.symm hnj)
      rw [hlast, hfold, hkeep]
      exact ih n hns

/-- Merged values stay put when merged again with override. -/
theorem overwritten_merge (m : Manifest) (entries : List (String × String)) :
    overwritten (m.merge entries true).1.main entries = (m.merge entries true).1.main :=
  List.ext_getElem (by simp [overwritten]) fun n _ hn => by
    simp only [overwritten, List.getElem_mapIdx]
    rw [foldl_overwriteAt_merge m entries n hn]

/-! ## Looking keys up -/

/-- A main attribute is found by a key exactly when its key matches in any case. -/
theorem get?_isSome_iff (m : Manifest) (key : String) : (m.get? key).isSome ↔ Found (keys m.main) key := by
  simp only [get?, Option.isSome_map, List.find?_isSome, Found, keys, List.mem_map]
  constructor
  · rintro ⟨⟨k, v⟩, ha, hk⟩
    exact ⟨k, ⟨(k, v), ha, rfl⟩, hk⟩
  · rintro ⟨k, ⟨⟨k', v⟩, ha, rfl⟩, hk⟩
    exact ⟨(k', v), ha, hk⟩

/-! ## The merge -/

/-- Merging the same entries a second time changes nothing: every key is then found, so
without override every entry is skipped, and with override every value is written again. -/
theorem merge_merge_self (m : Manifest) (entries : List (String × String)) (override : Bool) :
    ((m.merge entries override).1.merge entries override).1 = (m.merge entries override).1 := by
  have hf := @found_merge override m entries
  cases override with
  | false =>
    have hskip := foldl_mergeStep_skip entries ((m.merge entries false).1, []) hf
    simp only [merge] at hskip ⊢
    rw [hskip]
  | true =>
    rw [merge, foldl_mergeStep_overwrite entries ((m.merge entries true).1, []) hf]
    simp only [overwritten_merge]

/-- Merging entries into a manifest is a case-insensitive upsert, idempotent. Starting with
no key applied, each entry in turn overwrites the value of the first main attribute whose
key matches its own (when overriding; it is skipped otherwise) or is appended, its key
recorded exactly when its value is written. The sections stay, the keys there were stay in
place, every entry's key is then found, and merging the same entries again changes
nothing. -/
theorem merge_is_idempotent_upsert (m : Manifest) (entries : List (String × String)) (override : Bool) :
    m.merge [] override = (m, []) ∧
      (∀ pre e post, entries = pre ++ e :: post →
        Upsert override (m.merge pre override) e (m.merge (pre ++ [e]) override)) ∧
      (m.merge entries override).1.sections = m.sections ∧
      keys m.main <+: keys (m.merge entries override).1.main ∧
      (∀ e ∈ entries, ((m.merge entries override).1.get? e.1).isSome) ∧
      ((m.merge entries override).1.merge entries override).1 = (m.merge entries override).1 := by
  refine ⟨rfl, fun pre e _ _ => ?_, foldl_mergeStep_sections entries (m, []), keys_extend_merge m entries,
    fun e he => (get?_isSome_iff _ _).2 (found_merge m entries e he), merge_merge_self m entries override⟩
  rw [merge_append_singleton]
  exact mergeStep_upsert _ e

/-- Two entries whose keys differ only in case land on one attribute; merging them again
keeps the value of the later one. -/
example :
    (Manifest.basic.merge [("X-A", "1"), ("x-a", "2")] true) =
      (⟨[("Manifest-Version", "1.0"), ("X-A", "2")], []⟩, ["X-A", "x-a"]) := by
  decide

end JarDeploy.Manifest
