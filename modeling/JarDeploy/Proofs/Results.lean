import JarDeploy.Outcome

/-!
# Results keyed by request id

Results keep one outcome per request id, in increasing order of ids. Inserting an outcome
with a new id puts it in its place among the others; inserting outcomes that come in
increasing order of ids appends them. So the results of outcomes with distinct ids hold
each of them once, sorted by id, and exactly in the order given when that order is
already by id.
-/

namespace JarDeploy.Results

set_option autoImplicit false

/-- Outcomes in strictly increasing order of ids. -/
def Sorted (os : List RequestOutcome) : Prop := os.Pairwise (·.id < ·.id)

/-- An outcome with a new id is added. -/
theorem insert_go_perm (o : RequestOutcome) (xs : List RequestOutcome) (h : o.id ∉ xs.map (·.id)) :
    (insert.go o xs).Perm (o :: xs) := by
  fun_induction insert.go o xs with
  | case1 => rfl
  | case2 x xs hx => exact absurd (List.mem_map.2 ⟨x, List.mem_cons_self, hx⟩) h
  | case3 x xs _ _ => rfl
  | case4 x xs _ _ ih =>
    have h' : o.id ∉ xs.map (·.id) := fun hm => h (List.mem_cons_of_mem _ hm)
    exact ((ih h').cons x).trans (List.Perm.swap o x xs)

/-- What inserting gives holds the new outcome and old ones. -/
theorem mem_insert_go {o y : RequestOutcome} {xs : List RequestOutcome} (hy : y ∈ insert.go o xs) :
    y = o ∨ y ∈ xs := by
  fun_induction insert.go o xs with
  | case1 => simpa using hy
  | case2 x xs _ => exact (List.mem_cons.1 hy).imp id (List.mem_cons_of_mem _)
  | case3 x xs _ _ => simpa using hy
  | case4 x xs _ _ ih =>
    rcases List.mem_cons.1 hy with rfl | hy
    · exact .inr List.mem_cons_self
    · exact (ih hy).imp id (List.mem_cons_of_mem _)

/-- Inserting keeps the outcomes sorted. -/
theorem insert_go_sorted (o : RequestOutcome) (xs : List RequestOutcome) (h : Sorted xs) :
    Sorted (insert.go o xs) := by
  fun_induction insert.go o xs with
  | case1 => exact List.pairwise_singleton _ _
  | case2 x xs hx =>
    obtain ⟨hlt, hxs⟩ := List.pairwise_cons.1 h
    exact List.pairwise_cons.2 ⟨fun y hy => hx ▸ hlt y hy, hxs⟩
  | case3 x xs _ hox =>
    refine List.pairwise_cons.2 ⟨fun y hy => ?_, h⟩
    rcases List.mem_cons.1 hy with rfl | hy
    · exact hox
    · exact Nat.lt_trans hox ((List.pairwise_cons.1 h).1 y hy)
  | case4 x xs hne hnlt ih =>
    obtain ⟨hlt, hxs⟩ := List.pairwise_cons.1 h
    refine List.pairwise_cons.2 ⟨fun y hy => ?_, ih hxs⟩
    -- what the rest becomes holds its own outcomes and `o`, all above `x`
    rcases mem_insert_go hy with rfl | hy
    · omega
    · exact hlt y hy

/-- An outcome above every id present goes last. -/
theorem insert_go_of_lt (o : RequestOutcome) (xs : List RequestOutcome) (h : ∀ x ∈ xs, x.id < o.id) :
    insert.go o xs = xs ++ [o] := by
  fun_induction insert.go o xs with
  | case1 => rfl
  | case2 x xs hx => exact absurd (h x List.mem_cons_self) (by omega)
  | case3 x xs _ hox => exact absurd (h x List.mem_cons_self) (by omega)
  | case4 x xs _ _ ih => rw [ih fun y hy => h y (List.mem_cons_of_mem _ hy), List.cons_append]

/-- Outcomes with distinct new ids are all added. -/
theorem foldl_insert_perm (os : List RequestOutcome) (r : Results)
    (h : ((r.outcomes ++ os).map (·.id)).Nodup) :
    (os.foldl insert r).outcomes.Perm (r.outcomes ++ os) := by
  induction os generalizing r with
  | nil => simp
  | cons o os ih =>
    have hnew : o.id ∉ r.outcomes.map (·.id) := by
      simp only [List.map_append, List.map_cons, List.nodup_append, List.nodup_cons] at h
      exact fun hm => h.2.2 _ hm _ List.mem_cons_self rfl
    have step : (r.insert o).outcomes.Perm (r.outcomes ++ [o]) :=
      (insert_go_perm o r.outcomes hnew).trans (List.perm_append_singleton o r.outcomes).symm
    have hnd : (((r.insert o).outcomes ++ os).map (·.id)).Nodup := by
      refine (List.Perm.nodup_iff ((step.append_right os).map _)).2 ?_
      simpa using h
    rw [List.foldl_cons]
    exact (ih (r.insert o) hnd).trans ((step.append_right os).trans (by simp))

/-- Inserting keeps results sorted. -/
theorem foldl_insert_sorted (os : List RequestOutcome) (r : Results) (h : Sorted r.outcomes) :
    Sorted (os.foldl insert r).outcomes := by
  induction os generalizing r with
  | nil => exact h
  | cons o os ih => exact ih (r.insert o) (insert_go_sorted o r.outcomes h)

/-- Outcomes that come in increasing order of ids, after those present, are appended. -/
theorem foldl_insert_of_sorted (os : List RequestOutcome) (r : Results) (h : Sorted (r.outcomes ++ os)) :
    (os.foldl insert r).outcomes = r.outcomes ++ os := by
  induction os generalizing r with
  | nil => simp
  | cons o os ih =>
    have hlt : ∀ x ∈ r.outcomes, x.id < o.id := fun x hx =>
      (List.pairwise_append.1 h).2.2 x hx o List.mem_cons_self
    have step : (r.insert o).outcomes = r.outcomes ++ [o] := insert_go_of_lt o r.outcomes hlt
    rw [List.foldl_cons, ih (r.insert o) (by rwa [step, List.append_assoc]), step, List.append_assoc,
      List.singleton_append]

end JarDeploy.Results
