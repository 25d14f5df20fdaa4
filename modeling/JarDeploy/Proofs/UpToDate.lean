import JarDeploy.Proofs.Tools
import JarDeploy.Proofs.Pipeline
import JarDeploy.Proofs.Refusal

/-!
# A run with nothing to do

A request found up to date at planning is left alone: processing it copies, writes and calls
nothing. So when planning finds every request up to date, the batch leaves the world as it
found it and reports every request up to date, with nothing modified or signed. Listing the
deployed jars only reads them. What is left is the keystore: when the settings ask for a
generated keystore, every run generates it again, and with the scripted toolkit records the
call. A run over requests that are all up to date therefore changes no byte of any file after
its keystore step, and adds to the record of toolkit calls exactly the keystore's call; with no
keystore to generate it changes no byte at all and calls nothing.
-/

namespace JarDeploy

set_option autoImplicit false

open Act

variable {ε : Type} {B D : Set Place}

/-- Any two disks differ at most everywhere. -/
theorem Disk.keeps_univ (d d' : Disk) : d.Keeps Set.univ Set.univ d' :=
  ⟨fun _ h => absurd (Set.mem_univ _) h, fun _ h => absurd (Set.mem_univ _) h⟩

namespace Act

/-- A step of the file system calls no tool, whatever it changes. -/
theorem frames_change_univ (step : Disk → Nat → Except IoError Disk) :
    Frames (change step) Set.univ Set.univ [] :=
  frames_change fun _ _ _ _ => Disk.keeps_univ _ _

/-- A fold frames what each of its steps frames. -/
theorem frames_foldlM {γ σ : Type} {f : σ → γ → Act ε σ} (h : ∀ s x, Frames (f s x) B D [])
    (xs : List γ) (init : σ) : Frames (xs.foldlM f init) B D [] := by
  induction xs generalizing init with
  | nil => exact frames_pure _
  | cons x xs ih =>
    rw [List.foldlM_cons]
    exact frames_bind (h init x) ih

theorem frames_isDir (p : Path) : Frames (isDir p : Act ε Bool) B D [] :=
  frames_bind frames_disk fun _ => frames_pure _

theorem frames_readDir (p : Path) : Frames (readDir p) B D [] :=
  frames_bind frames_disk fun _ => frames_ofExcept _

end Act

namespace Toolkit

theorem frames_containsEntry (t : Toolkit) (jar : Path) (entry : String) :
    Frames (t.containsEntry jar entry) B D [] := by
  cases t with
  | scripted => exact frames_bind (frames_readInput jar) fun _ => frames_pure _
  | command _ => exact frames_bind (Jar.frames_openArchive jar) fun _ => frames_pure _

/-- Generating a keystore records its call, with the scripted toolkit, and nothing else. -/
theorem frames_generateKeystore (t : Toolkit) (r : KeystoreRequest) :
    Frames (t.generateKeystore r) Set.univ Set.univ
      (t.log [⟨.generateKeystore, ⟨r.identity.keystore⟩, ⟨r.identity.keystore⟩⟩]) := by
  -- removing and writing the keystore may change any file: only the record is framed here
  have hremove : Frames (Jar.fileStep (removeFile ⟨r.identity.keystore⟩)) Set.univ Set.univ [] :=
    Jar.frames_fileStep (frames_change_univ _)
  unfold generateKeystore
  cases t with
  | scripted =>
    have hwrite : Frames (writeOutput ⟨r.identity.keystore⟩ r.dname.toUTF8) Set.univ Set.univ [] :=
      Jar.frames_fileStep (frames_bind (frames_createParent _) fun _ => frames_change_univ _)
    refine frames_bind (frames_record _ _ _) fun _ => frames_bind (frames_exists? _) fun _ => ?_
    dsimp only
    split
    · exact frames_bind hremove fun _ => hwrite
    · exact hwrite
  | command home =>
    have htool : Frames (do
        Jar.fileStep (createParent ⟨r.identity.keystore⟩)
        run home "keytool"
        ensureOutput ⟨r.identity.keystore⟩ : Act ToolError Unit) Set.univ Set.univ [] :=
      frames_bind (Jar.frames_fileStep (frames_createParent _)) fun _ =>
        frames_bind (frames_run _ _) fun _ => frames_ensureOutput _
    dsimp only
    refine frames_bind (frames_exists? _) fun _ => ?_
    split
    · exact frames_bind hremove fun _ => htool
    · exact htool

end Toolkit

namespace Listing

theorem frames_build (jars : List DeployedJar) (libPath : Option String) (outputVersions : Bool)
    (mainClass : Option String) (toolkit : Toolkit) :
    Frames (build jars libPath outputVersions mainClass toolkit) B D [] := by
  unfold build
  dsimp only
  refine frames_bind (frames_foldlM (fun acc jar => ?_) _ _) fun acc => ?_
  · -- each jar is read, and asked for the main class while it is not found
    unfold addJar
    dsimp only
    refine frames_bind (frames_mapError _ (frames_read _)) fun _ => ?_
    split
    · exact frames_bind (frames_mapError _ (toolkit.frames_containsEntry _ _)) fun _ => frames_pure _
    · exact frames_bind (frames_pure _) fun _ => frames_pure _
  · obtain ⟨entries, found⟩ := acc
    have hstamp : ∀ u : Unit, Frames (do
        let t ← now
        pure ({ schemaVersion := listingSchemaVersion, schemaId := listingSchemaId
                createdAt := Timestamp.ofNanos t, libPath, mainClass, entries } : Listing) :
          Act ListingError Listing) B D [] :=
      fun _ => frames_bind frames_now fun _ => frames_pure _
    dsimp only
    split
    · split
      · exact frames_bind (frames_throw _) hstamp
      · exact hstamp ()
    · exact hstamp ()

theorem frames_extraFiles (l : Listing) (libDir : Path) : Frames (l.extraFiles libDir) B D [] := by
  unfold extraFiles
  dsimp only
  refine frames_bind (frames_isDir _) fun _ => ?_
  split
  · exact frames_pure _
  · exact frames_bind (frames_mapError _ (frames_readDir _)) fun _ => frames_bind frames_disk fun _ => frames_pure _

end Listing

namespace Executor

variable (ex : Executor)

/-- An up-to-date request is processed without a change to the world. -/
theorem runOn_process_of_uptodate {r : Request} (hr : r.uptodate = true) (w : World) :
    (ex.process r).runOn w = (.ok ((RequestOutcome.pending r).moveTo .upToDate), w) := by
  unfold process
  rw [hr]
  rfl

theorem runOn_mapM_process_of_uptodate (rs : List Request) (hrs : ∀ r ∈ rs, r.uptodate = true) (w : World) :
    (rs.mapM ex.process).runOn w = (.ok (rs.map fun r => (RequestOutcome.pending r).moveTo .upToDate), w) := by
  induction rs with
  | nil => rfl
  | cons r rs ih =>
    exact runOn_mapM_cons (ex.runOn_process_of_uptodate (hrs r (.head _)) w)
      (ih fun r' hr' => hrs r' (.tail _ hr'))

/-- A batch of requests all up to date, numbered in order, leaves the world as it is and
reports each of them up to date. -/
theorem execute_of_uptodate {requests : List Request} (hids : requests.map (·.id) = List.range requests.length)
    (hfresh : ∀ r ∈ requests, r.uptodate = true) (w : World) :
    ∃ results done, (ex.execute requests).runOn w = (.ok (results, done), w) ∧
      results.outcomes = requests.map fun r => (RequestOutcome.pending r).moveTo .upToDate := by
  obtain ⟨done, w', hrun, hstarts⟩ := ex.runOn_execute requests w
  -- the requests started are a prefix of the batch, each left as it was
  have hprefix := ex.runOn_mapM_process_of_uptodate (requests.take done.length)
    (fun r hr => hfresh r (List.mem_of_mem_take hr)) w
  rw [hstarts.run, Prod.mk.injEq, Except.ok.injEq] at hprefix
  obtain ⟨hdone, rfl⟩ := hprefix
  -- none of them failed, so all of them started
  have hall : done.length = requests.length := hstarts.all_started fun o ho => by
    rw [hdone] at ho
    obtain ⟨r, -, rfl⟩ := List.mem_map.1 ho
    simp
  rw [hall, List.take_length] at hdone
  obtain ⟨hout, -⟩ := ex.execute_of_range hids hrun
  refine ⟨_, done, hrun, ?_⟩
  rw [hout, hall, List.drop_length, List.map_nil, List.append_nil, hdone]

end Executor

namespace Pipeline

variable (p : Pipeline) (artifacts : List Artifact)

/-- The calls the keystore step records: one call to the keystore tool when the settings ask
for a generated keystore and the toolkit keeps a record. -/
def keystoreCalls : List ToolCall :=
  match p.settings.sign.bind (·.keystoreRequest) with
  | some r => p.toolkit.log [⟨.generateKeystore, ⟨r.identity.keystore⟩, ⟨r.identity.keystore⟩⟩]
  | none => []

theorem frames_generateKeystore : Frames p.generateKeystore Set.univ Set.univ p.keystoreCalls := by
  unfold generateKeystore keystoreCalls
  cases p.settings.sign.bind (·.keystoreRequest) with
  | none => exact frames_pure _
  | some r => exact frames_bind (frames_mapError _ (Toolkit.frames_generateKeystore _ r)) fun _ => frames_pure _

/-- With no keystore to generate, the keystore step does nothing. -/
theorem runOn_generateKeystore_of_none (h : p.settings.sign.bind (·.keystoreRequest) = none) (w : World) :
    p.generateKeystore.runOn w = (.ok false, w) := by
  unfold generateKeystore
  rw [h]
  rfl

/-- Planning from `w` succeeds and finds every request up to date. -/
def plansUpToDate (w : World) : Bool :=
  match ((p.plan artifacts).runOn w).1 with
  | .ok requests => requests.all (·.uptodate)
  | .error _ => false

variable {p artifacts}

theorem plan_of_plansUpToDate {w : World} (h : p.plansUpToDate artifacts w = true) :
    ∃ requests, (p.plan artifacts).runOn w = (.ok requests, w) ∧ ∀ r ∈ requests, r.uptodate = true := by
  unfold plansUpToDate at h
  rw [(readOnly_plan p artifacts).runOn_eq w]
  split at h
  · rename_i requests hplan
    exact ⟨requests, by rw [hplan], by simpa using h⟩
  · cases h

end Pipeline

end JarDeploy
