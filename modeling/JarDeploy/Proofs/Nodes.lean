import JarDeploy.Proofs.LegacyRun

/-!
# Where actions bring new places in

`Disk.NodesFrom S d d'` says that outside `S` the disk `d'` holds nothing where `d` held
nothing: neither a file nor a directory appears there. Creating directories along a plain
relative path brings nodes in only along it, and a write only at the place its path leads to;
stamping and removing bring none. `Act.Sprouts S a` says the same of every run of an action,
and a sequence sprouts what its parts sprout. So generating a keystore at a plain relative
path sprouts only along that path, and staging an artifact only along the directory and at
its staging name.

The directories created along a path are those of its parents: the parent of a plain relative
path is the path of its names but the last (`Path.parent?_plain`).
-/

namespace JarDeploy

set_option autoImplicit false

namespace Path

/-! ## Parents -/

variable {p : Path}

theorem pieceAt_goodName {abs : Bool} {n : String} (hn : GoodName n) (i : Nat) :
    pieceAt abs (n, i) = some (.name n) := by
  obtain ⟨h₁, h₂, h₃, -⟩ := hn
  simp [pieceAt, h₁, h₂, h₃]

theorem filterMap_pieceAt_goodNames (abs : Bool) {ns : List String} (hns : ∀ n ∈ ns, GoodName n) (k : Nat) :
    (ns.zipIdx k).filterMap (pieceAt abs) = ns.map .name := by
  induction ns generalizing k with
  | nil => rfl
  | cons n ns ih =>
    rw [List.zipIdx_cons, List.filterMap_cons, pieceAt_goodName (hns n List.mem_cons_self)]
    simp [ih (fun m hm => hns m (List.mem_cons_of_mem _ hm))]

/-- Texts without separators, written one after another with separators between, come apart
into those texts again. -/
theorem pieces_intercalate {ns : List String} (hns : ∀ n ∈ ns, '/' ∉ n.toList) (hne : ns ≠ []) :
    pieces ("/".intercalate ns) = ns := by
  have hx : ∀ l ∈ ns.map String.toList, '/' ∉ l := by
    simpa using hns
  rw [pieces, String.toList_intercalate]
  have hsl : "/".toList = ['/'] := rfl
  rw [hsl, List.splitOn_intercalate '/' hx (by simpa using hne)]
  simp

theorem isAbsolute_intercalate {n : String} {ns : List String} (hn : n ≠ "") (hslash : '/' ∉ n.toList) :
    (⟨"/".intercalate (n :: ns)⟩ : Path).isAbsolute = false := by
  cases ns with
  | nil => simpa using isAbsolute_name hslash
  | cons m ms =>
    rw [String.intercalate_cons_of_ne_nil (List.cons_ne_nil m ms)]
    have h := isAbsolute_name hslash
    simp only [isAbsolute] at h ⊢
    rw [String.append_assoc, startsWith_slash_append hn, h]

/-- Names written as a path are its components. -/
theorem parts_ofParts_names {ns : List String} (hns : ∀ n ∈ ns, GoodName n) :
    (ofParts (ns.map .name)).parts = ns.map .name := by
  cases ns with
  | nil => rfl
  | cons n ns =>
    have htext : ofParts ((n :: ns).map .name) = ⟨"/".intercalate (n :: ns)⟩ := by
      simp [ofParts, Function.comp_def]
    have hn := hns n List.mem_cons_self
    rw [htext, parts_eq, isAbsolute_intercalate hn.1 hn.2.2.2,
      pieces_intercalate (fun m hm => (hns m hm).2.2.2) (List.cons_ne_nil n ns)]
    simpa using filterMap_pieceAt_goodNames false hns 0

/-- The current directory and names after it, written as a path, are its components. -/
theorem parts_ofParts_current {ns : List String} (hns : ∀ n ∈ ns, GoodName n) :
    (ofParts (.current :: ns.map .name)).parts = .current :: ns.map .name := by
  have htext : ofParts (.current :: ns.map .name) = ⟨"/".intercalate ("." :: ns)⟩ := by
    simp [ofParts, Function.comp_def]
  have hns' : ∀ n ∈ "." :: ns, '/' ∉ n.toList := by
    intro m hm
    rcases List.mem_cons.1 hm with rfl | hm
    · decide
    · exact (hns m hm).2.2.2
  rw [htext, parts_eq, isAbsolute_intercalate (by decide) (by decide),
    pieces_intercalate hns' (List.cons_ne_nil _ _), List.zipIdx_cons, List.filterMap_cons,
    filterMap_pieceAt_goodNames false hns]
  rfl

theorem isAbsolute_ofParts_names {ns : List String} (hns : ∀ n ∈ ns, GoodName n) :
    (ofParts (ns.map .name)).isAbsolute = false := by
  cases ns with
  | nil => rfl
  | cons n ns =>
    have htext : ofParts ((n :: ns).map .name) = ⟨"/".intercalate (n :: ns)⟩ := by
      simp [ofParts, Function.comp_def]
    have hn := hns n List.mem_cons_self
    rw [htext, isAbsolute_intercalate hn.1 hn.2.2.2]

theorem isAbsolute_ofParts_current (ns : List String) :
    (ofParts (.current :: ns.map .name)).isAbsolute = false := by
  have htext : ofParts (.current :: ns.map .name) = ⟨"/".intercalate ("." :: ns)⟩ := by
    simp [ofParts, Function.comp_def]
  rw [htext, isAbsolute_intercalate (by decide) (by decide)]

theorem names_of_parts {q : Path} {ns : List String} (h : q.parts = ns.map .name) : q.names = ns := by
  rw [names, h]
  simp

theorem names_of_parts_current {q : Path} {ns : List String} (h : q.parts = .current :: ns.map .name) :
    q.names = ns := by
  rw [names, h]
  simp

/-- The parent of a plain relative path is plain and relative, and walks the names of the path
but the last. -/
theorem parent?_plain (ha : p.isAbsolute = false) (hp : p.Plain) {q : Path} (h : p.parent? = some q) :
    q.isAbsolute = false ∧ q.Plain ∧ q.names = p.names.dropLast := by
  have hgood : ∀ n ∈ p.names.dropLast, GoodName n := fun n hn => goodName_of_name_mem_parts (by
    have hn' := List.dropLast_subset _ hn
    rcases parts_of_plain ha hp with hparts | hparts <;> rw [hparts] <;> simp [hn'])
  rcases List.eq_nil_or_concat p.names with hnil | ⟨init, last, hsplit⟩
  · -- no names: the path is empty or the current directory, whose parent is the empty path
    rcases parts_of_plain ha hp with hparts | hparts <;> rw [hnil] at hparts
    · simp [parent?, hparts] at h
    · simp only [parent?, hparts, List.map_nil, List.reverse_cons, List.reverse_nil, List.nil_append,
        Option.some.injEq] at h
      subst h
      exact ⟨rfl, by decide, by rw [hnil]; rfl⟩
  rw [List.concat_eq_append] at hsplit
  rw [hsplit, List.dropLast_concat] at hgood ⊢
  rcases parts_of_plain ha hp with hparts | hparts <;> rw [hsplit] at hparts
  · simp only [parent?, hparts, List.map_append, List.map_cons, List.map_nil, List.reverse_append,
      List.reverse_cons, List.reverse_nil, List.nil_append, List.singleton_append, List.reverse_reverse,
      Option.some.injEq] at h
    subst h
    have hq := parts_ofParts_names hgood
    exact ⟨isAbsolute_ofParts_names hgood, by simp [Plain, hq], names_of_parts hq⟩
  · simp only [parent?, hparts, List.map_append, List.map_cons, List.map_nil, List.reverse_cons,
      List.reverse_append, List.reverse_nil, List.nil_append, List.cons_append,
      List.reverse_reverse, Option.some.injEq] at h
    subst h
    have hq := parts_ofParts_current hgood
    exact ⟨isAbsolute_ofParts_current init, by simp [Plain, hq], names_of_parts_current hq⟩

end Path

namespace Disk

variable {d d' d'' : Disk} {pl q : Place} {S S' : Set Place} {p : Path} {t : Nat}

/-! ## Footprints on nodes -/

/-- Outside `S`, every place where `d'` holds something is one where `d` does: nothing new
appears there, neither file nor directory. -/
def NodesFrom (S : Set Place) (d d' : Disk) : Prop := ∀ q ∉ S, d.get? q = none → d'.get? q = none

namespace NodesFrom

theorem refl (S : Set Place) (d : Disk) : NodesFrom S d d := fun _ _ h => h

theorem trans (h : NodesFrom S d d') (h' : NodesFrom S d' d'') : NodesFrom S d d'' :=
  fun q hq hn => h' q hq (h q hq hn)

theorem mono (h : NodesFrom S d d') (hS : S ⊆ S') : NodesFrom S' d d' :=
  fun q hq hn => h q (fun hm => hq (hS hm)) hn

end NodesFrom

theorem nodesFrom_put (d : Disk) (n : Node) : NodesFrom {pl} d (d.put pl n) :=
  fun q hq hn => by rw [get?_put_of_ne _ _ hq]; exact hn

theorem nodesFrom_touchDir (d : Disk) (pl : Place) (t : Nat) : NodesFrom S d (d.touchDir pl t) := by
  intro q _ hn
  rcases get?_touchDir d pl t q with h | ⟨-, t₀, h₀, -⟩
  · rw [h, hn]
  · rw [h₀] at hn
    cases hn

theorem nodesFrom_removeTree (d : Disk) (pl : Place) : NodesFrom S d (d.removeTree pl) := by
  intro q _ hn
  by_cases hq : pl <+: q
  · by_cases hnil : q = []
    · subst hnil
      simp at hn
    · exact get?_removeTree_under d hq hnil
  · rw [← hn]
    exact get?_removeTree_of_not_prefix d hq

/-- Making a directory brings a node in only at its place. -/
theorem makeDir_nodesFrom (h : d.makeDir pl t = .ok d') : NodesFrom {pl} d d' := by
  unfold makeDir at h
  split at h
  · cases h
  · cases h
    exact (nodesFrom_put d _).trans (nodesFrom_touchDir _ _ _)
  · cases h

/-- Making the directory a plain path names brings a node in only at its names. -/
theorem makeDirAt_nodesFrom (hp : p.Plain) (h : d.makeDirAt p t = .ok d') : NodesFrom {p.names} d d' := by
  unfold makeDirAt at h
  cases hl : d.placeIn p with
  | error e => simp [hl] at h
  | ok pl =>
    simp only [hl] at h
    have hloc : d.locate p = .ok pl := by
      unfold placeIn at hl
      split at hl <;> simp_all
    obtain ⟨-, rfl, -⟩ := (locate_plain hp).1 hloc
    exact makeDir_nodesFrom h

/-- Making directories along a plain relative path brings nodes in only at the places along
it. -/
theorem makeDirsAlong_nodesFrom (fuel : Nat) (d : Disk) (p : Path) (ha : p.isAbsolute = false) (hp : p.Plain)
    (h : makeDirsAlong t fuel d p = .ok d') : NodesFrom {q | q <+: p.names} d d' := by
  induction fuel generalizing d d' p with
  | zero =>
    cases h
    exact NodesFrom.refl _ _
  | succ fuel ih =>
    -- making the directory itself brings a node in at its names only
    have hat : ∀ {d₁ d₂ : Disk}, d₁.makeDirAt p t = .ok d₂ → NodesFrom {q | q <+: p.names} d₁ d₂ :=
      fun hd => (makeDirAt_nodesFrom hp hd).mono fun q hq => (Set.mem_singleton_iff.1 hq) ▸ List.prefix_refl _
    unfold makeDirsAlong at h
    split at h
    · cases h
      exact NodesFrom.refl _ _
    · split at h
      · rename_i d₁ hd₁
        cases h
        exact hat hd₁
      · split at h
        · split at h
          · rename_i q hq
            obtain ⟨hqa, hqp, hqn⟩ := Path.parent?_plain ha hp hq
            -- the parent's places lie along the path
            have hsub : {r | r <+: q.names} ⊆ {r | r <+: p.names} :=
              fun r hr => hr.trans (hqn ▸ List.dropLast_prefix _)
            split at h
            · cases h
            · rename_i d₁ hd₁
              have h₁ := (ih d q hqa hqp hd₁).mono hsub
              split at h
              · rename_i d₂ hd₂
                cases h
                exact h₁.trans (hat hd₂)
              · split at h
                · cases h
                  exact h₁
                · cases h
          · cases h
        · split at h
          · cases h
            exact NodesFrom.refl _ _
          · cases h

theorem createDirAll_nodesFrom (ha : p.isAbsolute = false) (hp : p.Plain) (h : d.createDirAll p t = .ok d') :
    NodesFrom {q | q <+: p.names} d d' :=
  makeDirsAlong_nodesFrom _ d p ha hp h

/-- A write brings a node in only at the place its path leads to. -/
theorem write_nodesFrom {x : ByteArray} (h : d.write p x t = .ok d') :
    ∃ pl, d.locate p = .ok pl ∧ NodesFrom {pl} d d' := by
  unfold write placeIn at h
  cases hl : d.locate p with
  | error f => simp [hl] at h
  | ok pl =>
    simp only [hl] at h
    refine ⟨pl, rfl, ?_⟩
    split at h
    · cases h
    · cases h
      exact nodesFrom_put d _
    · cases h
      exact (nodesFrom_put d _).trans (nodesFrom_touchDir _ _ _)
    · cases h

/-- Stamping a file brings no node in. -/
theorem setModified_nodesFrom {time : Nat} (h : d.setModified p time = .ok d') : NodesFrom S d d' := by
  unfold setModified placeIn at h
  cases hl : d.locate p with
  | error f => simp [hl] at h
  | ok pl =>
    simp only [hl] at h
    split at h
    · rename_i n data t₀ hf
      cases h
      obtain ⟨-, hg⟩ := find_eq_node hf
      intro q _ hn
      by_cases hq : q = pl
      · subst hq
        rw [hg] at hn
        cases hn
      · rw [get?_put_of_ne _ _ hq, hn]
    · cases h
    · cases h

/-- Removing a file brings no node in. -/
theorem removeFile_nodesFrom {now : Nat} (h : d.removeFile p now = .ok d') : NodesFrom S d d' := by
  unfold removeFile placeIn at h
  cases hl : d.locate p with
  | error f => simp [hl] at h
  | ok pl =>
    simp only [hl] at h
    split at h
    · cases h
      exact (nodesFrom_removeTree d pl).trans (nodesFrom_touchDir _ _ _)
    · cases h
    · cases h

end Disk

/-! ## Actions -/

namespace Act

variable {ε ε' α β : Type} {S S' : Set Place}

/-- Every run of the action brings a node in only at places of `S`. -/
def Sprouts (S : Set Place) (a : Act ε α) : Prop :=
  ∀ w r w', a.runOn w = (r, w') → w.disk.NodesFrom S w'.disk

theorem Sprouts.mono {a : Act ε α} (h : Sprouts S a) (hS : S ⊆ S') : Sprouts S' a :=
  fun w r w' hrun => (h w r w' hrun).mono hS

theorem sprouts_of_readOnly {a : Act ε α} (h : ReadOnly a) : Sprouts S a := by
  intro w r w' hrun
  obtain rfl := h w r w' hrun
  exact .refl _ _

theorem sprouts_pure (x : α) : Sprouts S (pure x : Act ε α) := sprouts_of_readOnly (readOnly_pure x)

theorem sprouts_throw (e : ε) : Sprouts S (throw e : Act ε α) := sprouts_of_readOnly (readOnly_throw e)

theorem sprouts_disk : Sprouts S (disk : Act ε Disk) := sprouts_of_readOnly readOnly_disk

/-- A sequence sprouts what its parts sprout. -/
theorem sprouts_bind {a : Act ε α} {f : α → Act ε β} (ha : Sprouts S a) (hf : ∀ x, Sprouts S (f x)) :
    Sprouts S (a >>= f) := by
  intro w r w'' h
  rw [runOn_bind] at h
  rcases hrun : a.runOn w with ⟨_ | x, w'⟩ <;> rw [hrun] at h
  · cases h
    exact ha w _ _ hrun
  · exact (ha w _ _ hrun).trans (hf x w' r w'' h)

theorem sprouts_mapError (f : ε → ε') {a : Act ε α} (h : Sprouts S a) : Sprouts S (mapError f a) := by
  intro w r w' hrun
  rw [runOn_mapError] at hrun
  cases hrun
  exact h w _ _ rfl

theorem sprouts_ite {c : Prop} [Decidable c] {a b : Act ε α} (ha : Sprouts S a) (hb : Sprouts S b) :
    Sprouts S (if c then a else b) := by
  split
  · exact ha
  · exact hb

theorem sprouts_exists? (p : Path) : Sprouts S (exists? p : Act ε Bool) :=
  sprouts_bind sprouts_disk fun _ => sprouts_pure _

theorem sprouts_isFile (p : Path) : Sprouts S (isFile p : Act ε Bool) :=
  sprouts_bind sprouts_disk fun _ => sprouts_pure _

/-- A step of the file system sprouts what the disk operation sprouts when it succeeds: a
failed step keeps the disk. -/
theorem sprouts_change {step : Disk → Nat → Except IoError Disk}
    (h : ∀ d t d', step d t = .ok d' → d.NodesFrom S d') : Sprouts S (change step) := by
  intro w r w' hrun
  rw [runOn_change] at hrun
  split at hrun
  · rename_i d hd
    cases hrun
    exact h _ _ _ hd
  · cases hrun
    exact .refl _ _

variable {p : Path}

theorem sprouts_createDirAll (ha : p.isAbsolute = false) (hp : p.Plain) :
    Sprouts {q | q <+: p.names} (createDirAll p) :=
  sprouts_change fun _ _ _ h => Disk.createDirAll_nodesFrom ha hp h

/-- Making the directory of a plain relative path sprouts only along the path. -/
theorem sprouts_createParent (ha : p.isAbsolute = false) (hp : p.Plain) :
    Sprouts {q | q <+: p.names} (createParent p) := by
  unfold createParent
  split
  · rename_i q hq
    obtain ⟨hqa, hqp, hqn⟩ := Path.parent?_plain ha hp hq
    exact (sprouts_createDirAll hqa hqp).mono fun r hr => hr.trans (hqn ▸ List.dropLast_prefix _)
  · exact sprouts_pure _

theorem sprouts_write (hp : p.Plain) (x : ByteArray) : Sprouts {p.names} (write p x) :=
  sprouts_change fun _ _ _ h => by
    obtain ⟨pl, hl, hn⟩ := Disk.write_nodesFrom h
    obtain ⟨-, rfl, -⟩ := (Disk.locate_plain hp).1 hl
    exact hn

/-- A copy that succeeds is a write, so it sprouts only at its destination. -/
theorem sprouts_copy (src : Path) (hp : p.Plain) : Sprouts {p.names} (copy src p) :=
  sprouts_change fun _ _ _ h => by
    obtain ⟨_, _, _, hw, _⟩ := Disk.copy_eq_ok h
    obtain ⟨pl, hl, hn⟩ := Disk.write_nodesFrom hw
    obtain ⟨-, rfl, -⟩ := (Disk.locate_plain hp).1 hl
    exact hn

theorem sprouts_removeFile (p : Path) : Sprouts S (removeFile p) :=
  sprouts_change fun _ _ _ h => Disk.removeFile_nodesFrom h

end Act

/-! ## Stamping, recording and generating a keystore -/

open Act

variable {ε : Type} {S : Set Place}

/-- Stamping a file, with retries, sprouts nothing: each attempt only sets a time. -/
theorem Toucher.sprouts_touch (t : Toucher) (p : Path) : Sprouts S (t.touch p : Act ε TouchReport) := by
  intro w r w' hrun
  unfold Toucher.touch at hrun
  rw [runOn_bind_ok (runOn_now w)] at hrun
  obtain ⟨rep, w₁, hrun₁, -, -, -, hafter⟩ := t.touchAt_runOn p w.clock { w with clock := w.clock + 1 }
  rw [hrun₁, Prod.mk.injEq] at hrun
  obtain ⟨-, rfl⟩ := hrun
  rw [hafter]
  unfold Toucher.diskAfter
  split
  · rename_i d' hd
    unfold Toucher.outcome at hd
    split at hd
    · exact Disk.setModified_nodesFrom hd
    · cases hd
  · exact .refl _ _

/-- Recording a call leaves the disk as it is. -/
theorem Toolkit.sprouts_record (op : ToolOp) (input output : Path) : Sprouts S (record op input output) := by
  intro w r w' h
  unfold record at h
  have hset : ∀ w₀ w₁ : World, (set w₁ : Act ToolError Unit).runOn w₀ = (.ok (), w₁) := fun _ _ => rfl
  rw [runOn_bind_ok (rfl : (get : Act ToolError World).runOn w = (.ok w, w))] at h
  dsimp only at h
  rw [runOn_bind_ok (hset _ _)] at h
  split at h <;> cases h <;> exact .refl _ _

/-- Generating a keystore at a plain relative path sprouts only along the path. -/
theorem Toolkit.sprouts_generateKeystore (t : Toolkit) (r : KeystoreRequest)
    (hp : (⟨r.identity.keystore⟩ : Path).Plain) (ha : (⟨r.identity.keystore⟩ : Path).isAbsolute = false) :
    Sprouts {q | q <+: (⟨r.identity.keystore⟩ : Path).names} (t.generateKeystore r) := by
  have hremove : Sprouts {q | q <+: (⟨r.identity.keystore⟩ : Path).names}
      (Jar.fileStep (removeFile ⟨r.identity.keystore⟩)) :=
    sprouts_mapError _ (sprouts_removeFile _)
  have hparent := sprouts_mapError ToolError.io (sprouts_createParent ha hp)
  unfold generateKeystore
  cases t with
  | scripted =>
    have hwrite : Sprouts {q | q <+: (⟨r.identity.keystore⟩ : Path).names}
        (writeOutput ⟨r.identity.keystore⟩ r.dname.toUTF8) :=
      sprouts_mapError _ (sprouts_bind (sprouts_createParent ha hp) fun _ =>
        (sprouts_write hp _).mono fun q hq => (Set.mem_singleton_iff.1 hq) ▸ List.prefix_refl _)
    refine sprouts_bind (sprouts_record _ _ _) fun _ => sprouts_bind (sprouts_exists? _) fun _ => ?_
    dsimp only
    split
    · exact sprouts_bind hremove fun _ => hwrite
    · exact hwrite
  | command home =>
    -- the tool cannot be started: only removing the old keystore and making its directory remain
    have hrest : Sprouts {q | q <+: (⟨r.identity.keystore⟩ : Path).names} (do
        Jar.fileStep (createParent ⟨r.identity.keystore⟩)
        run home "keytool"
        ensureOutput ⟨r.identity.keystore⟩ : Act ToolError Unit) := by
      refine sprouts_bind hparent fun _ => ?_
      refine sprouts_bind (sprouts_bind (sprouts_exists? _) fun _ => sprouts_throw _) fun _ =>
        sprouts_bind (sprouts_isFile _) fun _ => ?_
      split
      · exact sprouts_throw _
      · exact sprouts_pure _
    refine sprouts_bind (sprouts_exists? _) fun _ => ?_
    dsimp only
    split
    · exact sprouts_bind hremove fun _ => hrest
    · exact hrest

/-- The pipeline's keystore step sprouts only along the path of the keystore it generates,
when that path is plain and relative. -/
theorem Pipeline.sprouts_generateKeystore (p : Pipeline)
    (hks : ∀ r, p.settings.sign.bind (·.keystoreRequest) = some r →
      (⟨r.identity.keystore⟩ : Path).Plain ∧ (⟨r.identity.keystore⟩ : Path).isAbsolute = false) :
    Sprouts {q | ∃ r, p.settings.sign.bind (·.keystoreRequest) = some r ∧
      q <+: (⟨r.identity.keystore⟩ : Path).names} p.generateKeystore := by
  unfold generateKeystore
  split
  · exact sprouts_pure _
  · rename_i r hr
    obtain ⟨hp, ha⟩ := hks r hr
    exact sprouts_bind (sprouts_mapError _ ((Toolkit.sprouts_generateKeystore _ r hp ha).mono
      fun q hq => ⟨r, hr, hq⟩)) fun _ => sprouts_pure _

/-- Staging an artifact in a plain relative directory sprouts only along the directory and at
the staging name. -/
theorem sprouts_stageUnprocessed (a : Artifact) (f : String) {dir : Path} (toucher : Toucher)
    (ha : dir.isAbsolute = false) (hdir : dir.Plain) (hm : Path.GoodName (unprocessedPrefix ++ f)) :
    Sprouts {q | q <+: dir.names ∨ q = dir.names ++ [unprocessedPrefix ++ f]}
      (stageUnprocessed a f dir toucher) := by
  have hstaged : (dir.push (unprocessedPrefix ++ f)).Plain := (Path.plain_push _ hm).2 hdir
  unfold stageUnprocessed
  refine sprouts_bind (sprouts_of_readOnly (readOnly_stat _)) fun _ => sprouts_bind sprouts_disk fun _ => ?_
  refine sprouts_ite (sprouts_pure _) ?_
  refine sprouts_bind ((sprouts_createDirAll ha hdir).mono fun q hq => .inl hq) fun _ => ?_
  refine sprouts_bind ((sprouts_copy _ hstaged).mono fun q hq => .inr ?_) fun _ =>
    sprouts_bind (Toucher.sprouts_touch _ _) fun _ => sprouts_pure _
  rw [Set.mem_singleton_iff.1 hq, Path.names_push _ hm]

end JarDeploy
