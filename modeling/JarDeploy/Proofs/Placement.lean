import Mathlib.Data.List.Nodup
import JarDeploy.Proofs.Refusal
import JarDeploy.Proofs.Stage

/-!
# Where requests put their files

Selection refuses two artifacts deployed under one file name, so the requests of a plan
have distinct file names. A request deploys into the library directory, under its file
name, with its packed companion beside it; it works in `<working>/<base name>`, with its
original copy and its stage directories directly in there. The library directory lies in
the final directory, since the settings refuse a library path that starts at the root or
steps back.

When every file name is one component `<b>.jar`, the base name is `b`: then the deployed
files are distinct entries of the library directory, the working directories are distinct
entries of the working directory, and, as long as the working and final directories do
not lie one inside the other, no deployed file lies inside a working directory. Nothing
weaker holds: a name with a separator leaves the directory it is put in, the names
`.jar` and `.jar.jar` share the base name `.jar`, and a final directory inside the
working directory puts a deployed file inside a working directory.
-/

namespace JarDeploy

set_option autoImplicit false

/-! ## Names -/

/-- A jar name `<b>.jar` whose stem `b` is one component of a path. -/
def SimpleJarName (f : String) : Prop := ∃ b, Path.GoodName b ∧ f = b ++ ".jar"

/-- The base name of `<b>.jar` is `b`, when `b` is not empty. -/
theorem fileBasename_append_jar {b : String} (hb : b ≠ "") : fileBasename (b ++ ".jar") = b := by
  have hjar : "jar".toList.splitOn '.' = ["jar".toList] := List.splitOn_eq_singleton (by decide)
  have hsplit : (((b ++ ".jar").toList.splitOn '.').map String.ofList).reverse =
      "jar" :: ((b.toList.splitOn '.').map String.ofList).reverse := by
    have h : (b ++ ".jar").toList = b.toList ++ '.' :: "jar".toList := by simp
    rw [h, List.splitOn_append_cons_self, hjar]
    simp
  obtain ⟨x, xs, hx⟩ := List.exists_cons_of_ne_nil
    (by simp [List.splitOn_ne_nil] : ((b.toList.splitOn '.').map String.ofList).reverse ≠ [])
  -- what stands before the last dot is `b` itself
  have hstem : ".".intercalate (x :: xs).reverse = b := by
    rw [← hx, List.reverse_reverse]
    apply String.toList_inj.1
    simp
  have hne : (".".intercalate (x :: xs).reverse).isEmpty = false := by
    rw [hstem]
    simpa using hb
  rw [fileBasename, hsplit, hx]
  simp only [hne, Bool.false_eq_true, if_false]
  exact hstem

namespace SimpleJarName

variable {f : String} (h : SimpleJarName f)
include h

theorem endsWith_jar : f.endsWith ".jar" = true := by
  obtain ⟨b, -, rfl⟩ := h
  exact endsWith_append_self _ _

theorem slash_not_mem : '/' ∉ f.toList := by
  obtain ⟨b, hb, rfl⟩ := h
  simpa using hb.2.2.2

theorem goodName : Path.GoodName f :=
  Path.goodName_of_getLast? h.slash_not_mem (getLast?_of_endsWith_jar h.endsWith_jar) (by decide)

theorem goodName_packed (s : Settings) : Path.GoodName (f ++ s.packExtension) := by
  have hs : '/' ∉ (f ++ s.packExtension).toList := by
    simpa using ⟨h.slash_not_mem, Settings.slash_not_mem_packExtension s⟩
  have hlast := getLast?_toList_append f (Settings.packExtension_ne_empty s)
  rcases Settings.packExtension_getLast? s with hk | hk <;>
    exact Path.goodName_of_getLast? hs (hlast.trans hk) (by decide)

theorem goodName_basename : Path.GoodName (fileBasename f) := by
  obtain ⟨b, hb, rfl⟩ := h
  rwa [fileBasename_append_jar hb.1]

/-- A jar name is never a packed name. -/
theorem ne_packed (g : String) (s : Settings) : f ≠ g ++ s.packExtension := by
  intro he
  have hlast := getLast?_of_endsWith_jar h.endsWith_jar
  rw [he, getLast?_toList_append _ (Settings.packExtension_ne_empty s)] at hlast
  rcases Settings.packExtension_getLast? s with hk | hk <;> rw [hk] at hlast <;> cases hlast

end SimpleJarName

/-! ## The settings -/

namespace Settings

/-- Settings that pass their check have a library path that neither starts at the root nor
steps back. -/
theorem check_libPath {s : Settings} (h : s.check = .ok ()) {lib : String} (hlib : s.libPath = some lib) :
    (Path.parts ⟨lib⟩).any (fun p => p == .root || p == .parent) = false := by
  cases hany : (Path.parts ⟨lib⟩).any (fun p => p == .root || p == .parent) with
  | false => rfl
  | true =>
    -- every branch of the check then throws
    unfold check at h
    simp only [hlib, hany, if_true] at h
    split at h
    · cases h
    split at h <;> cases h

/-- Settings that pass their check have a library path that does not start at the root. -/
theorem isAbsolute_libPath {s : Settings} (h : s.check = .ok ()) {lib : String} (hlib : s.libPath = some lib) :
    (⟨lib⟩ : Path).isAbsolute = false := by
  cases ha : (⟨lib⟩ : Path).isAbsolute
  · rfl
  · exact absurd (by simp) (List.any_eq_false.1 (check_libPath h hlib) .root (by simp [Path.parts, ha]))

/-- The library directory lies in the final directory. -/
theorem libDirectory_inside {s : Settings} (h : s.check = .ok ()) : s.libDirectory.Inside s.finalDirectory := by
  unfold libDirectory
  split
  · rename_i lib hlib
    split
    · exact Path.Inside.refl _
    · have hnone := List.any_eq_false.1 (check_libPath h hlib)
      exact Path.inside_join _ (isAbsolute_libPath h hlib) fun hp => hnone _ hp (by simp)
  · exact Path.Inside.refl _

end Settings

/-! ## Planning -/

namespace Pipeline

variable {p : Pipeline} {artifacts : List Artifact}

/-- A fold that adds each artifact under its name to the names seen, and stops at a name seen
before, ends with distinct names. -/
theorem foldlM_collision_nodup (name : Artifact → String)
    (step : List (String × Artifact) → Artifact → Except SettingsError (List (String × Artifact)))
    (hstep : ∀ seen a seen', step seen a = .ok seen' →
      collision seen (name a) = none ∧ seen' = seen ++ [(name a, a)]) :
    ∀ (xs : List Artifact) (seen seen' : List (String × Artifact)), (seen.map (·.1)).Nodup →
      xs.foldlM step seen = .ok seen' → (seen.map (·.1) ++ xs.map name).Nodup
  | [], _, _, h, _ => by simpa using h
  | a :: xs, seen, seen', h, hfold => by
    rw [List.foldlM_cons] at hfold
    cases hs : step seen a with
    | error e =>
      rw [hs] at hfold
      cases hfold
    | ok seen₁ =>
      rw [hs] at hfold
      obtain ⟨hc, rfl⟩ := hstep seen a seen₁ hs
      -- a name no earlier artifact has: the names seen stay distinct
      have hnew : name a ∉ seen.map (·.1) := by
        intro hmem
        obtain ⟨x, hx, hx1⟩ := List.mem_map.1 hmem
        have hfind := List.find?_eq_none.1 (Option.map_eq_none_iff.1 hc) x hx
        simp [hx1] at hfind
      have hseen : ((seen ++ [(name a, a)]).map (·.1)).Nodup := by
        rw [List.map_append, List.nodup_append]
        refine ⟨h, by simp, fun x hx y hy => ?_⟩
        obtain rfl : y = name a := by simpa using hy
        exact fun e => hnew (e ▸ hx)
      simpa using foldlM_collision_nodup name step hstep xs _ seen' hseen hfold

/-- The selected artifacts have distinct file names. -/
theorem select_nodup {selected : List Artifact} (h : p.select artifacts = .ok selected) :
    (selected.map fun a => p.builder.filename a p.settings.outputJarVersions).Nodup := by
  unfold select at h
  cases hsel : Selector.ofPatterns p.settings.dependencies.includes p.settings.dependencies.excludes
    p.settings.excludeTransitive with
  | error e =>
    rw [hsel] at h
    cases h
  | ok sel =>
    rw [hsel] at h
    simp only [bind, Except.bind] at h
    split at h
    · cases h
    · rename_i seen' hfold
      cases h
      -- the fold's own round, taken from `hfold`: it goes on only past a name not seen before
      have key := foldlM_collision_nodup (fun a => p.builder.filename a p.settings.outputJarVersions) _
        ?_ _ [] seen' List.nodup_nil hfold
      · simpa using key
      · intro seen a seen₁ hs
        split at hs
        · cases hs
        · rename_i hc
          cases hs
          exact ⟨hc, rfl⟩

variable (p)

/-- Planning the artifacts `xs` from a builder numbered `k` appends one request per artifact,
each built by the pipeline's builder. -/
theorem foldlM_planRound_returns : ∀ (xs : List Artifact) (k : Nat) (rs : List Request),
    Act.Returns (xs.foldlM p.planRound ({ p.builder with nextId := k }, rs)) fun acc =>
      ∃ rs', acc.2 = rs ++ rs' ∧ List.Forall₂ (fun a r => ∃ j,
        RequestBuilder.Builds { p.builder with nextId := j } a p.settings.outputJarVersions r) xs rs'
  | [], _, rs => Act.returns_pure ⟨[], by simp, .nil⟩
  | x :: xs, k, rs => by
    rw [List.foldlM_cons]
    have hround : Act.Returns (p.planRound ({ p.builder with nextId := k }, rs) x) fun acc =>
        ∃ r, RequestBuilder.Builds { p.builder with nextId := k } x p.settings.outputJarVersions r ∧
          acc = ({ p.builder with nextId := k + 1 }, rs ++ [r]) := by
      intro w acc w' h
      rw [runOn_planRound] at h
      rcases hb : (RequestBuilder.build { p.builder with nextId := k } x p.settings.outputJarVersions).runOn w
        with ⟨re | r, w₁⟩ <;> rw [hb] at h <;> cases h
      exact ⟨r, RequestBuilder.build_returns _ _ _ w r _ hb, rfl⟩
    refine Act.returns_bind hround fun acc ⟨r, hr, hacc⟩ => ?_
    subst hacc
    intro w acc' w' h
    obtain ⟨rs', hrs, hall⟩ := foldlM_planRound_returns xs (k + 1) (rs ++ [r]) w acc' w' h
    exact ⟨r :: rs', by simp [hrs], .cons ⟨k, hr⟩ hall⟩

/-- Planning builds one request per selected artifact, in order, with the pipeline's
settings and naming. -/
theorem plan_returns_builds : Act.Returns (p.plan artifacts) fun requests =>
    ∃ selected, p.select artifacts = .ok selected ∧ List.Forall₂ (fun a r => ∃ j,
      RequestBuilder.Builds { p.builder with nextId := j } a p.settings.outputJarVersions r) selected requests := by
  rw [plan_eq]
  have hsel : Act.Returns (Act.ofExcept ((p.select artifacts).mapError PipelineError.config))
      fun selected => p.select artifacts = .ok selected := by
    intro w selected w' h
    rw [Act.runOn_ofExcept] at h
    cases hs : p.select artifacts <;> simp_all [Except.mapError]
  refine Act.returns_bind hsel fun selected hs => Act.returns_bind
    (foldlM_planRound_returns p selected 0 []) fun acc ⟨rs', hrs, hall⟩ => Act.returns_pure ⟨selected, hs, ?_⟩
  simpa [hrs] using hall

end Pipeline

/-! ## The places of a built request -/

namespace RequestBuilder.Builds

variable {b : RequestBuilder} {a : Artifact} {ov : Bool} {r : Request} (h : b.Builds a ov r)
include h

theorem filename_eq : r.filename = b.naming.fileName a (some ov) b.settings.useUniqueVersions := by
  rw [h.filename, h.config]
  simp [TaskSettings.fileName, TaskSettings.forArtifact]

theorem workingDirectory_eq :
    r.config.workingDirectory = b.settings.workingDirectory.push (fileBasename r.filename) := by
  rw [h.filename, h.config]
  simp [TaskSettings.fileName, TaskSettings.forArtifact]

variable (hn : SimpleJarName r.filename)
include hn

theorem workingDirectory_entry : r.config.workingDirectory.EntryOf b.settings.workingDirectory := by
  rw [h.workingDirectory_eq]
  exact Path.entryOf_push _ hn.goodName_basename

theorem originalFile_entry : r.originalFile.EntryOf r.config.workingDirectory := by
  rw [h.originalFile]
  exact Path.entryOf_push _ hn.goodName

/-- The deployed files of a request: the deployed jar and, when the chain ends by packing,
its packed companion, both entries of the library directory. -/
theorem deployed_eq : r.finalFile :: r.packedFile.toList =
    (r.filename :: if r.tasks.getLast? = some .pack200 then [r.filename ++ b.settings.packExtension] else []).map
      b.settings.libDirectory.push := by
  rw [h.packedFile (hn.goodName.1), h.finalFile]
  split <;> rfl

end RequestBuilder.Builds

theorem Request.stage_entry (r : Request) {s : Nat × Task × Path} (hs : s ∈ r.stages) :
    s.2.2.EntryOf r.config.workingDirectory := by
  obtain ⟨⟨t, i⟩, hti, rfl⟩ := List.mem_map.1 hs
  obtain ⟨-, hi, ht⟩ := List.mem_zipIdx hti
  have hname : toString i ++ "_" ++ t.name = r.stageName i := by
    simp only [Nat.zero_add, Nat.sub_zero] at hi ht
    simp [Request.stageName, List.getD, List.getElem?_eq_getElem hi, ht]
  simp only
  rw [hname]
  exact Path.entryOf_push _ (Request.goodName_stageName (r := r) i)


/-! ## The places of a plan -/

namespace Pipeline

variable {p : Pipeline} {selected : List Artifact} {requests : List Request}

/-- Requests built in order from the selected artifacts carry their file names. -/
theorem map_filename_of_builds (h : List.Forall₂ (fun a r => ∃ j,
      RequestBuilder.Builds { p.builder with nextId := j } a p.settings.outputJarVersions r) selected requests) :
    requests.map (·.filename) = selected.map fun a => p.builder.filename a p.settings.outputJarVersions := by
  induction h with
  | nil => rfl
  | cons hb _ ih =>
    obtain ⟨j, hb⟩ := hb
    rw [List.map_cons, List.map_cons, ih, hb.filename_eq]
    rfl

theorem builds_of_mem (h : List.Forall₂ (fun a r => ∃ j,
      RequestBuilder.Builds { p.builder with nextId := j } a p.settings.outputJarVersions r) selected requests)
    {r : Request} (hr : r ∈ requests) :
    ∃ a j, RequestBuilder.Builds { p.builder with nextId := j } a p.settings.outputJarVersions r := by
  induction h with
  | nil => cases hr
  | cons hb _ ih =>
    rcases List.mem_cons.1 hr with rfl | hr
    · obtain ⟨j, hb⟩ := hb
      exact ⟨_, j, hb⟩
    · exact ih hr

/-- A plan that a computation over its requests sees succeed did succeed, with those
requests. -/
theorem exists_plan_of_toOption {β : Type} {p : Pipeline} {artifacts : List Artifact} {w : World}
    {f : List Request → β} {v : β} (h : ((p.plan artifacts).runOn w).1.toOption.map f = some v) :
    ∃ requests w', (p.plan artifacts).runOn w = (.ok requests, w') ∧ f requests = v := by
  rcases hplan : (p.plan artifacts).runOn w with ⟨_ | requests, w'⟩ <;> rw [hplan] at h
  · cases h
  · exact ⟨requests, w', rfl, by simpa [Except.toOption] using h⟩

/-- The names a request deploys under: its file name, and its packed name when the chain
ends by packing. -/
def deployedNames (r : Request) : List String :=
  r.filename :: if r.tasks.getLast? = some .pack200 then [r.filename ++ r.config.settings.packExtension] else []

theorem deployedNames_nodup {r : Request} (hn : SimpleJarName r.filename) : (deployedNames r).Nodup := by
  unfold deployedNames
  split
  · simpa using hn.ne_packed r.filename r.config.settings
  · simp

/-- Requests with different file names deploy under different names. -/
theorem deployedNames_disjoint {r r' : Request} (hn : SimpleJarName r.filename) (hn' : SimpleJarName r'.filename)
    (hs : r.config.settings = r'.config.settings) (hne : r.filename ≠ r'.filename) :
    (deployedNames r).Disjoint (deployedNames r') := by
  intro n hn₁ hn₂
  have h₁ : n = r.filename ∨ n = r.filename ++ r.config.settings.packExtension := by
    unfold deployedNames at hn₁
    split at hn₁ <;> simp_all
  have h₂ : n = r'.filename ∨ n = r'.filename ++ r.config.settings.packExtension := by
    unfold deployedNames at hn₂
    rw [← hs] at hn₂
    split at hn₂ <;> simp_all
  -- a jar name and a packed name never meet, and two packed names differ as the jars do
  rcases h₁ with h₁ | h₁ <;> rcases h₂ with h₂ | h₂
  · exact hne (h₁.symm.trans h₂)
  · exact hn.ne_packed _ _ (h₁.symm.trans h₂)
  · exact hn'.ne_packed _ _ (h₂.symm.trans h₁)
  · have h := congrArg String.toList (h₁.symm.trans h₂)
    simp only [String.toList_append] at h
    exact hne (String.toList_inj.1 (List.append_cancel_right h))

theorem goodName_of_mem_deployedNames {r : Request} (hn : SimpleJarName r.filename) {n : String}
    (hm : n ∈ deployedNames r) : Path.GoodName n := by
  unfold deployedNames at hm
  split at hm <;> simp only [List.mem_cons, List.not_mem_nil, or_false] at hm
  · rcases hm with rfl | rfl
    · exact hn.goodName
    · exact hn.goodName_packed _
  · rw [hm]
    exact hn.goodName

end Pipeline

namespace RequestBuilder.Builds

variable {b : RequestBuilder} {a : Artifact} {ov : Bool} {r : Request} (h : b.Builds a ov r)
include h

theorem settings_eq : r.config.settings = b.settings := by
  rw [h.config]
  rfl

/-- A request deploys into the library directory under its deployed names. -/
theorem deployed_eq_map (hn : SimpleJarName r.filename) : r.finalFile :: r.packedFile.toList =
    (Pipeline.deployedNames r).map b.settings.libDirectory.push := by
  rw [h.deployed_eq hn, Pipeline.deployedNames, h.settings_eq]

end RequestBuilder.Builds

namespace Pipeline

section Planned

variable {p : Pipeline} {selected : List Artifact} {requests : List Request}
  (hall : List.Forall₂ (fun a r => ∃ j,
    RequestBuilder.Builds { p.builder with nextId := j } a p.settings.outputJarVersions r) selected requests)
  (hnames : ∀ r ∈ requests, SimpleJarName r.filename)

include hnames in
theorem goodName_of_mem_flatMap_deployedNames {n : String} (hm : n ∈ requests.flatMap deployedNames) :
    Path.GoodName n := by
  obtain ⟨r, hr, hm⟩ := List.mem_flatMap.1 hm
  exact goodName_of_mem_deployedNames (hnames r hr) hm

include hall hnames

/-- The deployed files of the requests are the library directory followed by their deployed
names. -/
theorem flatMap_deployed_eq : requests.flatMap (fun r => r.finalFile :: r.packedFile.toList) =
    (requests.flatMap deployedNames).map p.settings.libDirectory.push := by
  rw [List.map_flatMap]
  refine List.flatMap_congr fun r hr => ?_
  obtain ⟨a, j, hb⟩ := builds_of_mem hall hr
  exact hb.deployed_eq_map (hnames r hr)

variable (hdistinct : requests.Pairwise fun r r' => r.filename ≠ r'.filename)
include hdistinct

/-- Requests with distinct file names deploy under distinct names. -/
theorem flatMap_deployedNames_nodup : (requests.flatMap deployedNames).Nodup := by
  refine List.nodup_flatMap.2 ⟨fun r hr => deployedNames_nodup (hnames r hr), ?_⟩
  refine List.Pairwise.imp_of_mem (fun {r r'} hr hr' hne => ?_) hdistinct
  obtain ⟨a, j, hb⟩ := builds_of_mem hall hr
  obtain ⟨a', j', hb'⟩ := builds_of_mem hall hr'
  exact deployedNames_disjoint (hnames r hr) (hnames r' hr') (hb.settings_eq.trans hb'.settings_eq.symm) hne

/-- Requests with distinct file names work in working directories neither of which lies
inside the other. -/
theorem workingDirectories_pairwise :
    (requests.map (·.config.workingDirectory)).Pairwise (fun d d' => ¬ d.Inside d' ∧ ¬ d'.Inside d) := by
  rw [List.pairwise_map]
  refine List.Pairwise.imp_of_mem (fun {r r'} hr hr' hne => ?_) hdistinct
  obtain ⟨a, j, hb⟩ := builds_of_mem hall hr
  obtain ⟨a', j', hb'⟩ := builds_of_mem hall hr'
  -- different jar names have different base names
  have hbase : fileBasename r.filename ≠ fileBasename r'.filename := by
    obtain ⟨b, hgood, hf⟩ := hnames r hr
    obtain ⟨b', hgood', hf'⟩ := hnames r' hr'
    rw [hf, hf', fileBasename_append_jar hgood.1, fileBasename_append_jar hgood'.1]
    rintro rfl
    exact hne (hf.trans hf'.symm)
  have hl := Path.location_push p.settings.workingDirectory (hnames r hr).goodName_basename
  have hl' := Path.location_push p.settings.workingDirectory (hnames r' hr').goodName_basename
  have hw : r.config.workingDirectory = p.settings.workingDirectory.push (fileBasename r.filename) :=
    hb.workingDirectory_eq
  have hw' : r'.config.workingDirectory = p.settings.workingDirectory.push (fileBasename r'.filename) :=
    hb'.workingDirectory_eq
  rw [← hw] at hl
  rw [← hw'] at hl'
  exact ⟨Path.not_inside_of_entryOf hbase hl hl', Path.not_inside_of_entryOf (Ne.symm hbase) hl' hl⟩

end Planned

end Pipeline

end JarDeploy
