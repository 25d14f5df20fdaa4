import JarDeploy.Listing.Build
import JarDeploy.Proofs.Placement

/-!
# Building a listing

Building the listing of deployed jars reads each deployed file once, in order, and asks the
toolkit whether it holds the main class's file only until one does. Neither reading nor
asking changes the world; only taking the time for the listing's stamp moves the clock.

So when every deployed file can be read and the toolkit answers for each jar it is asked
about, the build succeeds exactly when no main class is named or some jar holds it. Its
entries then describe the jars one by one, in order, and the main jar is the first that
holds the class. The toolkit may fail on the jars after that one: they are never asked.
-/

namespace JarDeploy

set_option autoImplicit false

@[simp] theorem Act.runOn_read (p : Path) (w : World) : (Act.read p).runOn w = (w.disk.read p, w) := by
  simp [Act.read, Act.runOn_bind]

/-- Asking whether a jar holds an entry only looks: neither toolkit records the question. -/
theorem Toolkit.readOnly_containsEntry (t : Toolkit) (jar : Path) (entry : String) :
    Act.ReadOnly (t.containsEntry jar entry) := by
  cases t with
  | scripted =>
    exact Act.readOnly_bind (Act.readOnly_mapError _ (Act.readOnly_read jar)) fun _ => Act.readOnly_pure _
  | command _ => exact Act.readOnly_bind (Jar.readOnly_openArchive jar) fun _ => Act.readOnly_pure _

/-! ## Separators between components -/

namespace Path

/-- Past the first piece of a path, a piece stands for the same component wherever it is. -/
theorem filterMap_pieceAt_shift (abs : Bool) :
    ∀ (ps : List String) (k k' : Nat), k ≠ 0 → k' ≠ 0 →
      (ps.zipIdx k).filterMap (pieceAt abs) = (ps.zipIdx k').filterMap (pieceAt abs)
  | [], _, _, _, _ => rfl
  | s :: ps, k, k', hk, hk' => by
    rw [List.zipIdx_cons, List.zipIdx_cons, List.filterMap_cons, List.filterMap_cons,
      filterMap_pieceAt_shift abs ps (k + 1) (k' + 1) (Nat.succ_ne_zero k) (Nat.succ_ne_zero k')]
    simp [pieceAt, hk, hk']

/-- A text with a separator after `x` starts at the root when `x` is empty or does. -/
theorem isAbsolute_slash (x w : String) :
    (⟨x ++ "/" ++ w⟩ : Path).isAbsolute = (x.isEmpty || x.startsWith "/") := by
  by_cases hx : x = ""
  · subst hx
    simp [isAbsolute, show ("".isEmpty || "".startsWith "/") = true by decide]
  · have he : x.isEmpty = false := by simpa using hx
    rw [isAbsolute, String.append_assoc, startsWith_slash_append hx, he, Bool.false_or]

/-- A second separator in a row changes no component. -/
theorem parts_slash_slash (x z : String) :
    (⟨x ++ "/" ++ ("/" ++ z)⟩ : Path).parts = (⟨x ++ "/" ++ z⟩ : Path).parts := by
  have hpieces : pieces (x ++ "/" ++ ("/" ++ z)) = pieces x ++ ([""] ++ pieces z) := by
    rw [pieces_join, show "/" ++ z = "" ++ "/" ++ z by simp, pieces_join, pieces_empty]
  have hx : (pieces x).length ≠ 0 := by simp [pieces, List.splitOn_ne_nil]
  rw [parts_eq, parts_eq, isAbsolute_slash, isAbsolute_slash, hpieces, pieces_join]
  simp only [List.zipIdx_append, List.filterMap_append, List.length_singleton]
  -- the empty piece comes after the first piece of `x`, so it stands for nothing
  rw [filterMap_pieceAt_shift _ (pieces z) (0 + (pieces x).length + 1) (0 + (pieces x).length)
    (by omega) (by omega)]
  simp [pieceAt]

/-- Separators in a row count as one. -/
theorem parts_slashes (x z : String) (k : Nat) :
    (⟨x ++ "/" ++ (String.ofList (List.replicate k '/') ++ z)⟩ : Path).parts =
      (⟨x ++ "/" ++ z⟩ : Path).parts := by
  induction k with
  | zero => simp
  | succ k ih =>
    have hslash : String.singleton '/' = "/" := rfl
    have hassoc : "/" ++ String.ofList (List.replicate k '/') ++ z =
        "/" ++ (String.ofList (List.replicate k '/') ++ z) := String.append_assoc
    rw [List.replicate_succ, String.ofList_cons, hslash, hassoc, parts_slash_slash, ih]

/-- What joining a relative path puts in front of it: the base, with a separator unless the
base is empty or already ends in one. -/
def joinPrefix (p : Path) : String :=
  if p.text.isEmpty then "" else if p.text.endsWith "/" then p.text else p.text ++ "/"

theorem join_relative (p : Path) {q : String} (hq : (⟨q⟩ : Path).isAbsolute = false) :
    p.join ⟨q⟩ = ⟨joinPrefix p ++ q⟩ := by
  unfold join joinPrefix
  by_cases he : p.text.isEmpty = true <;> by_cases hs : p.text.endsWith "/" = true <;>
    simp [hq, he, hs, String.append_assoc]

/-- Joining a relative path to a base that is not empty puts one separator between them or
none, and the components are the same either way. -/
theorem parts_join {q : Path} {f : String} (hf : (⟨f⟩ : Path).isAbsolute = false) (hq : q.text ≠ "") :
    (q.join ⟨f⟩).parts = (⟨q.text ++ "/" ++ f⟩ : Path).parts := by
  have he : q.text.isEmpty = false := by simpa using hq
  by_cases hs : q.text.endsWith "/" = true
  · -- the base ends in a separator already: the one put in would be a second
    obtain ⟨l, hl⟩ := endsWith_iff_suffix.1 hs
    have hq' : q.text = String.ofList l ++ "/" := by
      rw [← String.toList_inj, String.toList_append, String.toList_ofList, ← hl]
    have hjoin : q.join ⟨f⟩ = ⟨String.ofList l ++ "/" ++ f⟩ := by simp [join, hf, hq']
    rw [hjoin, hq', ← parts_slash_slash]
    simp only [String.append_assoc]
  · have hjoin : q.join ⟨f⟩ = ⟨q.text ++ "/" ++ f⟩ := by simp [join, hf, he, hs]
    rw [hjoin]

/-- A name after a relative path, written with the path's trailing separators trimmed and one
separator put in, leads from a directory where the name joined below the path leads. -/
theorem same_join_trimmed (D : Path) {lib f : String} (hlib : (⟨lib⟩ : Path).isAbsolute = false)
    (hne : lib ≠ "") (hf : (⟨f⟩ : Path).isAbsolute = false) :
    (D.join ⟨(lib.dropEndWhile (fun (c : Char) => c == '/')).toString ++ "/" ++ f⟩).same
      ((D.push lib).push f) = true := by
  -- the path is its trimmed part followed by separators only
  have hsplit : (lib.dropEndWhile (fun (c : Char) => c == '/')).toString ++
      (lib.takeEndWhile (fun (c : Char) => c == '/')).toString = lib := by
    simpa using (String.dropEndWhile_append_takeEndWhile :
      (lib.dropEndWhile (fun (c : Char) => c == '/')).copy ++
        (lib.takeEndWhile (fun (c : Char) => c == '/')).copy = lib)
  have hslashes : ((lib.takeEndWhile (fun (c : Char) => c == '/')).toString).toList.all
      (fun (c : Char) => c == '/') = true := by
    have := (String.revAll_takeEndWhile :
      (lib.takeEndWhile (fun (c : Char) => c == '/')).revAll (fun (c : Char) => c == '/') = true)
    rw [String.Slice.revAll_bool_eq] at this
    simpa using this
  generalize (lib.dropEndWhile (fun (c : Char) => c == '/')).toString = T at hsplit ⊢
  generalize (lib.takeEndWhile (fun (c : Char) => c == '/')).toString = S at hsplit hslashes
  obtain ⟨k, rfl⟩ : ∃ k, S = String.ofList (List.replicate k '/') := by
    have hrep : S.toList = List.replicate S.toList.length '/' :=
      List.eq_replicate_iff.2 ⟨rfl, by simpa using hslashes⟩
    exact ⟨S.toList.length, by rw [← hrep, String.ofList_toList]⟩
  subst hsplit
  have hslash : String.singleton '/' = "/" := rfl
  -- the trimmed part is not empty: a path of separators only would start at the root
  have hT : T ≠ "" := by
    rintro rfl
    cases k with
    | zero => exact hne (by simp)
    | succ k => simp [isAbsolute, List.replicate_succ, String.ofList_cons, hslash] at hlib
  have hTabs : T.startsWith "/" = false := by
    simpa [isAbsolute, startsWith_slash_append hT] using hlib
  have hhref : (⟨T ++ "/" ++ f⟩ : Path).isAbsolute = false := by
    rw [isAbsolute_slash, hTabs]
    simpa using hT
  -- separators commute with separators
  have hR : String.ofList (List.replicate k '/') ++ ("/" ++ f) =
      "/" ++ (String.ofList (List.replicate k '/') ++ f) := by
    have hswap : String.ofList (List.replicate k '/') ++ "/" = "/" ++ String.ofList (List.replicate k '/') := by
      rw [← String.toList_inj, String.toList_append, String.toList_append, String.toList_ofList,
        show "/".toList = ['/'] from rfl, ← List.replicate_succ', List.replicate_succ]
      rfl
    rw [← String.append_assoc, hswap, String.append_assoc]
  have htext : joinPrefix D ++ (T ++ String.ofList (List.replicate k '/')) ++ "/" ++ f =
      joinPrefix D ++ T ++ "/" ++ (String.ofList (List.replicate k '/') ++ f) := by
    simp only [String.append_assoc, hR]
  unfold same push
  rw [join_relative D hhref, join_relative D hlib, parts_join hf (by simp [hT]), htext, parts_slashes]
  simp [String.append_assoc]

end Path

/-- A file that can be read lies in the workspace: its path does not start at the root. -/
theorem Disk.isAbsolute_of_read {d : Disk} {p : Path} {x : ByteArray} (h : d.read p = .ok x) :
    p.isAbsolute = false := by
  obtain ⟨pl, hl, -⟩ := Disk.read_eq_ok_iff.1 h
  unfold Disk.locate at hl
  cases ha : p.isAbsolute
  · rfl
  · simp [ha] at hl

namespace Listing

/-! ## One jar -/

/-- What the toolkit answers, on a world, when asked whether a jar's deployed file holds an
entry. -/
def answer (t : Toolkit) (w : World) (entry : String) (j : DeployedJar) : Except ToolError Bool :=
  ((t.containsEntry j.finalFile entry).runOn w).1

/-- The toolkit answers for each jar it is asked about, in order, until one holds the entry;
it may fail on the jars after that one. -/
def Answers (t : Toolkit) (w : World) (entry : String) (jars : List DeployedJar) : Prop :=
  ∀ pre j post, jars = pre ++ j :: post → (∀ i ∈ pre, answer t w entry i = .ok false) →
    ∃ b, answer t w entry j = .ok b

/-- An entry describes a jar whose deployed file holds `data`. -/
structure Describes (libPath : Option String) (outputVersions : Bool) (e : ListingEntry)
    (j : DeployedJar) (data : ByteArray) : Prop where
  filename : e.filename = j.filename
  href : e.href = hrefOf libPath j.filename
  version : e.version = if outputVersions then some j.version else none
  size : e.size = data.size
  sha256 : e.sha256 = Sha256.hexDigest data
  packed : e.packed = j.packedFile.bind (·.fileName?)

/-- Entries that describe jars one by one, in order, each from its deployed file as the
world holds it. -/
def DescribesAll (libPath : Option String) (outputVersions : Bool) (w : World)
    (es : List ListingEntry) (jars : List DeployedJar) : Prop :=
  List.Forall₂ (fun e j => ∃ data, w.disk.read j.finalFile = .ok data ∧
    Describes libPath outputVersions e j data) es jars

section
variable {libPath : Option String} {outputVersions : Bool} {t : Toolkit} {w : World}

/-- A jar added without asking the toolkit: there is no class to look for, or it is found. -/
theorem runOn_addJar_quiet {mainEntry : Option String} {found : Bool} (es : List ListingEntry)
    {j : DeployedJar} {data : ByteArray} (hquiet : mainEntry = none ∨ found = true)
    (hread : w.disk.read j.finalFile = .ok data) :
    ∃ e, (addJar libPath outputVersions mainEntry t (es, found) j).runOn w =
      (.ok (es ++ [e], found), w) ∧ Describes libPath outputVersions e j data ∧ e.main = false := by
  simp only [addJar, Act.runOn_bind, Act.runOn_mapError, Act.runOn_read, hread, Except.mapError]
  split
  · -- an entry to look for that is not found yet is ruled out
    simp at hquiet
  · simp only [pure_bind, Act.runOn_pure, Bool.or_false]
    exact ⟨_, rfl, ⟨rfl, rfl, rfl, rfl, rfl, rfl⟩, rfl⟩

/-- A jar added while the class is looked for: the toolkit is asked, and its answer is the
jar's mark. -/
theorem runOn_addJar_ask {entry : String} {b : Bool} (es : List ListingEntry) {j : DeployedJar}
    {data : ByteArray} (hread : w.disk.read j.finalFile = .ok data) (hask : answer t w entry j = .ok b) :
    ∃ e, (addJar libPath outputVersions (some entry) t (es, false) j).runOn w =
      (.ok (es ++ [e], b), w) ∧ Describes libPath outputVersions e j data ∧ e.main = b := by
  have hrun : (t.containsEntry j.finalFile entry).runOn w = (.ok b, w) := by
    rw [(t.readOnly_containsEntry j.finalFile entry).runOn_eq w]
    exact congrArg (·, w) hask
  simp only [addJar, Act.runOn_bind, Act.runOn_mapError, Act.runOn_read, hread, Except.mapError, hrun,
    Act.runOn_pure, Bool.false_or]
  exact ⟨_, rfl, ⟨rfl, rfl, rfl, rfl, rfl, rfl⟩, rfl⟩

/-! ## The jars in order -/

/-- Jars added without asking the toolkit: every entry describes its jar and none is main. -/
theorem foldlM_addJar_quiet {mainEntry : Option String} {found : Bool} (jars : List DeployedJar)
    (hread : ∀ j ∈ jars, ∃ data, w.disk.read j.finalFile = .ok data)
    (hquiet : mainEntry = none ∨ found = true) (es : List ListingEntry) :
    ∃ es', (jars.foldlM (addJar libPath outputVersions mainEntry t) (es, found)).runOn w =
        (.ok (es ++ es', found), w) ∧
      DescribesAll libPath outputVersions w es' jars ∧ ∀ e ∈ es', e.main = false := by
  induction jars generalizing es with
  | nil => exact ⟨[], by simp, .nil, by simp⟩
  | cons j jars ih =>
    obtain ⟨data, hj⟩ := hread j List.mem_cons_self
    obtain ⟨e, hrun, hdesc, hmain⟩ := runOn_addJar_quiet es hquiet hj
    obtain ⟨es', hrest, hdescs, hmains⟩ :=
      ih (fun j' hj' => hread j' (List.mem_cons_of_mem _ hj')) (es ++ [e])
    refine ⟨e :: es', ?_, .cons ⟨data, hj, hdesc⟩ hdescs, ?_⟩
    · rw [List.foldlM_cons, Act.runOn_bind_ok hrun, hrest, List.append_assoc, List.singleton_append]
    · simpa [hmain] using hmains

/-- The marks of jars where only the one at `pre.length` holds the class. -/
theorem map_main_of_hit {es es' : List ListingEntry} {e : ListingEntry} {n : Nat}
    (hes : ∀ x ∈ es, x.main = false) (hlen : es.length = n) (he : e.main = true)
    (hes' : ∀ x ∈ es', x.main = false) :
    (es ++ e :: es').map (·.main) = List.replicate n false ++ true :: List.replicate es'.length false := by
  have hmap : ∀ l : List ListingEntry, (∀ x ∈ l, x.main = false) →
      l.map (·.main) = List.replicate l.length false :=
    fun l hl => List.eq_replicate_iff.2 ⟨by simp, by simpa using hl⟩
  rw [List.map_append, List.map_cons, hmap es hes, hmap es' hes', hlen, he]

/-- Jars added while the class is looked for, with a toolkit that answers for each jar it is
asked about: either no jar holds the class, or the first that does is the one main entry and
the jars after it are not asked. -/
theorem foldlM_addJar_search {entry : String} (jars : List DeployedJar)
    (hread : ∀ j ∈ jars, ∃ data, w.disk.read j.finalFile = .ok data)
    (hask : Answers t w entry jars) (es : List ListingEntry) :
    ∃ es', DescribesAll libPath outputVersions w es' jars ∧
      (((jars.foldlM (addJar libPath outputVersions (some entry) t) (es, false)).runOn w =
          (.ok (es ++ es', false), w) ∧
        (∀ j ∈ jars, answer t w entry j = .ok false) ∧ ∀ e ∈ es', e.main = false) ∨
      ((jars.foldlM (addJar libPath outputVersions (some entry) t) (es, false)).runOn w =
          (.ok (es ++ es', true), w) ∧
        ∃ pre j post, jars = pre ++ j :: post ∧ (∀ i ∈ pre, answer t w entry i = .ok false) ∧
          answer t w entry j = .ok true ∧
          es'.map (·.main) = List.replicate pre.length false ++ true :: List.replicate post.length false)) := by
  induction jars generalizing es with
  | nil => exact ⟨[], .nil, .inl ⟨by simp, by simp, by simp⟩⟩
  | cons j jars ih =>
    have hread' : ∀ j' ∈ jars, ∃ data, w.disk.read j'.finalFile = .ok data :=
      fun j' hj' => hread j' (List.mem_cons_of_mem _ hj')
    obtain ⟨data, hj⟩ := hread j List.mem_cons_self
    obtain ⟨b, hb⟩ := hask [] j jars rfl (by simp)
    obtain ⟨e, hrun, hdesc, hmain⟩ := runOn_addJar_ask es hj hb
    cases b with
    | true =>
      -- the class is found here: the jars after it are added without asking
      obtain ⟨es', hrest, hdescs, hmains⟩ := foldlM_addJar_quiet jars hread' (.inr rfl) (es ++ [e])
      refine ⟨e :: es', .cons ⟨data, hj, hdesc⟩ hdescs, .inr ⟨?_, [], j, jars, rfl, by simp, hb, ?_⟩⟩
      · rw [List.foldlM_cons, Act.runOn_bind_ok hrun, hrest, List.append_assoc, List.singleton_append]
      · rw [← List.nil_append (e :: es'), map_main_of_hit (by simp) rfl hmain hmains,
          hdescs.length_eq]
        rfl
    | false =>
      -- not here: the rest are searched, with this jar among those that answered no
      have hask' : Answers t w entry jars := fun pre j' post h hpre =>
        hask (j :: pre) j' post (by rw [h, List.cons_append])
          (by simpa [hb] using hpre)
      obtain ⟨es', hdescs, hcases⟩ := ih hread' hask' (es ++ [e])
      have hfold : ∀ found, (jars.foldlM (addJar libPath outputVersions (some entry) t) (es ++ [e], false)).runOn w =
          (.ok (es ++ [e] ++ es', found), w) →
          ((j :: jars).foldlM (addJar libPath outputVersions (some entry) t) (es, false)).runOn w =
            (.ok (es ++ (e :: es'), found), w) := fun found hrest => by
        rw [List.foldlM_cons, Act.runOn_bind_ok hrun, hrest, List.append_assoc, List.singleton_append]
      refine ⟨e :: es', .cons ⟨data, hj, hdesc⟩ hdescs, ?_⟩
      rcases hcases with ⟨hrest, hall, hmains⟩ | ⟨hrest, pre, j', post, rfl, hpre, hj', hmarks⟩
      · exact .inl ⟨hfold false hrest, by simpa [hb] using hall, by simpa [hmain] using hmains⟩
      · refine .inr ⟨hfold true hrest, j :: pre, j', post, rfl, by simpa [hb] using hpre, hj', ?_⟩
        rw [List.map_cons, hmarks, hmain]
        rfl

end

/-! ## The listing -/

/-- After the jars are added, the build fails if the main class is named and not found, and
otherwise stamps the listing with the clock. -/
theorem runOn_build {jars : List DeployedJar} {libPath : Option String} {outputVersions : Bool}
    {mainClass : Option String} {t : Toolkit} {w : World} {es : List ListingEntry} {found : Bool}
    (hfold : (jars.foldlM (addJar libPath outputVersions (mainClass.map classEntry) t) ([], false)).runOn w =
      (.ok (es, found), w)) :
    (build jars libPath outputVersions mainClass t).runOn w =
      if mainClass.isSome && !found then (.error (.mainClassNotFound (mainClass.getD "")), w)
      else (.ok { schemaVersion := listingSchemaVersion, schemaId := listingSchemaId
                  createdAt := Timestamp.ofNanos w.clock, libPath, mainClass, entries := es },
            { w with clock := w.clock + 1 }) := by
  unfold build
  rw [Act.runOn_bind, hfold]
  cases mainClass <;> cases found <;> rfl

/-! ## References -/

/-- The reference of a jar leads from the final directory to its deployed file, when the
file was deployed below the library directory of settings that pass their check and can be
read. -/
theorem same_href {s : Settings} (hs : s.check = .ok ()) {j : DeployedJar}
    (hfile : j.finalFile = s.libDirectory.push j.filename) {d : Disk} {data : ByteArray}
    (hread : d.read j.finalFile = .ok data) :
    (s.finalDirectory.join ⟨hrefOf s.libPath j.filename⟩).same j.finalFile = true := by
  -- a file that can be read is in the workspace, so its name does not start at the root
  have hrel : j.finalFile.isAbsolute = false := Disk.isAbsolute_of_read hread
  have hf : (⟨j.filename⟩ : Path).isAbsolute = false := by
    cases ha : (⟨j.filename⟩ : Path).isAbsolute
    · rfl
    · have : j.finalFile = ⟨j.filename⟩ := by rw [hfile, Path.push, Path.join, if_pos ha]
      rw [this, ha] at hrel
      cases hrel
  rw [hfile]
  unfold hrefOf Settings.libDirectory
  cases hl : s.libPath with
  | none => simp [Path.same, Path.push]
  | some lib =>
    by_cases he : lib.isEmpty = true
    · simp [he, Path.same, Path.push]
    · simp only [he, Bool.false_eq_true, if_false]
      exact Path.same_join_trimmed _ (Settings.isAbsolute_libPath hs hl) (by simpa using he) hf

/-- Entries that describe jars deployed below the library directory have references that lead
there from the final directory. -/
theorem DescribesAll.same_href {libPath : Option String} {outputVersions : Bool} {w : World}
    {es : List ListingEntry} {jars : List DeployedJar} (hes : DescribesAll libPath outputVersions w es jars)
    {s : Settings} (hs : s.check = .ok ()) (hl : s.libPath = libPath)
    (hfiles : ∀ j ∈ jars, j.finalFile = s.libDirectory.push j.filename) :
    List.Forall₂ (fun e j => (s.finalDirectory.join ⟨e.href⟩).same j.finalFile = true) es jars := by
  unfold DescribesAll at hes
  induction hes with
  | nil => exact .nil
  | cons hj _ ih =>
    obtain ⟨data, hread, hdesc⟩ := hj
    refine .cons ?_ (ih fun j' hj' => hfiles j' (List.mem_cons_of_mem _ hj'))
    rw [hdesc.href, ← hl]
    exact Listing.same_href hs (hfiles _ List.mem_cons_self) hread

/-! ## Building a listing -/

end Listing

end JarDeploy
