import Mathlib.Data.List.Nodup
import JarDeploy.Proofs.JarRead

/-!
# Repacking jars

The tools that repack a jar write the output file, copy the entries one by one, and write
the finished archive over it. Where the output can be written (`Disk.Writable`: its
directories are there and no directory is at it) and the input is another file, every step
reads only the input, so the copying is a fold over the entries, and the output holds the
archive of that fold (`repackInto_runOn`).

Updating the manifest writes the merged manifest in place of the jar's, or first when the
jar has none, and copies every other entry; so the output's manifest is the merged
manifest's text as it reads back (`updateManifest_reads_merged`).
-/

namespace JarDeploy

set_option autoImplicit false

namespace Disk

variable {d : Disk} {p q : Path} {pl : Place}

/-- A path where a file can be created or replaced: plain and relative, with its
directories there, no directory at it, and the directory it names as its parent there. -/
structure Writable (d : Disk) (p : Path) : Prop where
  plain : p.Plain
  relative : p.Relative
  dirs : d.DirsTo p.names
  notDir : d.hasDir p.names = false
  parent : ∀ q, p.parent? = some q → q.text = "" ∨ d.isDir q = true

theorem hasDir_of_bytesAt {x : ByteArray} (h : d.bytesAt pl = some x) : d.hasDir pl = false := by
  unfold bytesAt at h
  unfold hasDir
  split at h <;> simp_all

/-- A file can be written where the directories are there and no directory is. -/
theorem write_eq_ok_of_dirsTo (hp : p.Plain) (hrel : p.Relative) (hdirs : d.DirsTo p.names)
    (hnd : d.hasDir p.names = false) (x : ByteArray) (t : Nat) : ∃ d', d.write p x t = .ok d' := by
  unfold write placeIn
  rw [(locate_plain hp).2 ⟨hrel, rfl, hdirs⟩]
  simp only
  rw [find_of_dirsTo hdirs]
  unfold hasDir at hnd
  cases hg : d.get? p.names with
  | none => exact ⟨_, rfl⟩
  | some n =>
    cases n with
    | file data t₀ => exact ⟨_, rfl⟩
    | dir t₀ => simp [hg] at hnd

/-- Making a directory that is already there fails: it exists. -/
theorem makeDirAt_of_isDir (h : d.isDir q = true) (t : Nat) : d.makeDirAt q t = .error .alreadyExists := by
  unfold isDir findPath at h
  unfold makeDirAt placeIn
  cases hl : d.locate q with
  | error f =>
    simp only [hl] at h
    rcases locate_error hl with rfl | rfl <;> cases h
  | ok pl =>
    simp only [hl] at h ⊢
    unfold makeDir
    split at h
    · rename_i t₀ hf
      simp only [Manifest.ok_bind, hf]
    · cases h

/-- Creating a directory that is there changes nothing. -/
theorem createDirAll_of_isDir (h : d.isDir q = true) (t : Nat) : d.createDirAll q t = .ok d := by
  have hkind : (IoError.alreadyExists.kind == IoKind.notFound) = false := rfl
  unfold createDirAll
  simp only [makeDirsAlong, makeDirAt_of_isDir h t, hkind, h, Bool.false_eq_true, if_false, if_true]
  split <;> rfl

theorem createDirAll_of_empty (h : q.text = "") (t : Nat) : d.createDirAll q t = .ok d := by
  unfold createDirAll
  simp [makeDirsAlong, h]

end Disk

namespace Act

variable {p : Path} {W : World}

/-- Copying a file to a path where one can be written, from a path that leads elsewhere,
leaves its bytes there and changes nothing else. -/
theorem runOn_copy_of {src : Path} {x : ByteArray} (hsrc : W.disk.read src = .ok x) (hdst : W.disk.Writable p)
    (hdiff : ∀ d : Disk, d.locate src ≠ .ok p.names) :
    ∃ W', (copy src p).runOn W = (.ok (), W') ∧ W'.disk.read p = .ok x ∧ W.disk.Keeps {p.names} ∅ W'.disk := by
  obtain ⟨t, hfind⟩ := Disk.findPath_of_read hsrc
  have hdst' : W.disk.locate p = .ok p.names := (Disk.locate_plain hdst.plain).2 ⟨hdst.relative, rfl, hdst.dirs⟩
  -- the source leads to another place, so what is written is what was read
  have hcopy : W.disk.copy src p W.clock = W.disk.write p x W.clock := by
    unfold Disk.copy
    simp only [hfind, hdst']
    cases hl : W.disk.locate src with
    | error f => rfl
    | ok pl =>
      have hne : pl ≠ p.names := fun h => hdiff W.disk (h ▸ hl)
      simp [hne]
  obtain ⟨d', hd'⟩ := Disk.write_eq_ok_of_dirsTo hdst.plain hdst.relative hdst.dirs hdst.notDir x W.clock
  refine ⟨{ W with clock := W.clock + 1, disk := d' }, ?_, Disk.write_plain hdst.plain hd'⟩
  rw [copy, runOn_change, hcopy]
  simp only [hd']

/-- Writing a file where one can be written succeeds, leaves the bytes there, and changes
nothing else. -/
theorem runOn_write_of (hp : p.Plain) (hrel : p.Relative) (hdirs : W.disk.DirsTo p.names)
    (hnd : W.disk.hasDir p.names = false) (x : ByteArray) :
    ∃ W', (write p x).runOn W = (.ok (), W') ∧ W'.disk.read p = .ok x ∧ W.disk.Keeps {p.names} ∅ W'.disk := by
  obtain ⟨d', hd'⟩ := Disk.write_eq_ok_of_dirsTo hp hrel hdirs hnd x W.clock
  refine ⟨{ W with clock := W.clock + 1, disk := d' }, ?_, Disk.write_plain hp hd'⟩
  rw [write, runOn_change]
  simp only [hd']

/-- Creating the parent of a path whose parent is there changes no file or directory. -/
theorem runOn_createParent (h : ∀ q, p.parent? = some q → q.text = "" ∨ W.disk.isDir q = true) :
    ∃ W', (createParent p).runOn W = (.ok (), W') ∧ W'.disk = W.disk := by
  unfold createParent
  split
  · rename_i q hq
    have hcreate : W.disk.createDirAll q W.clock = .ok W.disk := by
      rcases h q hq with hq | hq
      · exact Disk.createDirAll_of_empty hq _
      · exact Disk.createDirAll_of_isDir hq _
    refine ⟨{ W with clock := W.clock + 1, disk := W.disk }, ?_, rfl⟩
    rw [createDirAll, runOn_change]
    simp only [hcreate]
  · exact ⟨W, rfl, rfl⟩

end Act

/-- A manifest without its sections reads back when the manifest does. -/
theorem Manifest.Readable.stripSections {m : Manifest} (h : m.Readable) : m.stripSections.Readable :=
  ⟨.inr rfl, h.main, by simp [Manifest.stripSections], by simp [Manifest.stripSections]⟩

namespace Zip

/-- An entry a writer can copy: as `Writer.copyRaw` writes it, with the flags of its name and
no AES mark, it fits its records. -/
def Entry.Copyable (e : Entry) : Prop :=
  ({ e with flags := Writer.nameFlags e.name, aes := false } : Entry).Fits

instance (e : Entry) : Decidable e.Copyable := inferInstanceAs (Decidable (Entry.Fits _))

/-- The bytes the entries of an archive take written one after another: for each, a local
header with the name, then the stored data. -/
def Archive.storedSize (a : Archive) : Nat :=
  a.entries.foldr (fun e n => 30 + e.name.toUTF8.size + e.compressedSize + n) 0

theorem Writer.fileEntry_fits {name : String} {data : ByteArray} (hname : name.toUTF8.size < 65536)
    (hsize : (Deflate.storedStream data).size < 4294967296) : (Writer.fileEntry name data).Fits where
  versionMadeBy := by simp [Writer.fileEntry]
  versionNeeded := by simp [Writer.fileEntry]
  flags := rfl
  method := by simp [Writer.fileEntry]
  notAes := by simp [Writer.fileEntry]
  time := by simp [Writer.fileEntry]
  date := by simp [Writer.fileEntry]
  compressedSize := hsize
  size := Nat.lt_of_le_of_lt (Inflate.size_le_storedStream data) hsize
  name := hname
  internalAttributes := by simp [Writer.fileEntry]
  externalAttributes := by simp [Writer.fileEntry]
  headerOffset := by simp [Writer.fileEntry]
  aes := rfl

theorem length_pieceBytes (p : Entry × ByteArray) : (pieceBytes p).length = 30 + p.1.name.toUTF8.size + p.2.size := by
  rw [pieceBytes, List.length_append, length_localHeader, ← size_eq_length]

theorem Entry.size_rawData_le (e : Entry) (b : ByteArray) (s : Nat) : (e.rawData b s).size ≤ e.compressedSize := by
  rw [Entry.rawData, ByteArray.size_extract]
  omega

end Zip

namespace Jar

open Act Zip

variable {input output : Path} {b : ByteArray} {W : World}

/-- Copying entries whose every step succeeds without changing the world is a fold. -/
theorem copyEntries_runOn {step : Writer → Entry → Act ToolError Writer} {f : Writer → Entry → Writer}
    {es : List Entry} (h : ∀ w, ∀ e ∈ es, (step w e).runOn W = (.ok (f w e), W)) (w₀ : Writer) :
    (copyEntries step es w₀).runOn W = (.ok (es.foldl f w₀, none), W) := by
  induction es generalizing w₀ with
  | nil => rfl
  | cons e es ih =>
    rw [copyEntries, runOn_bind_ok (runOn_attempt_of (h w₀ e List.mem_cons_self))]
    exact ih (fun w x hx => h w x (List.mem_cons_of_mem e hx)) (f w₀ e)

/-- Repacking from a file into another that can be written, with steps that only read the
input: the output holds the archive the fold of the steps finishes, and nothing else
changes. -/
theorem repackInto_runOn {start : Writer} {es : List Entry} {step : Writer → Entry → Act ToolError Writer}
    {f : Writer → Entry → Writer} (hin : W.disk.read input = .ok b) (hout : W.disk.Writable output)
    (hdiff : ∀ d : Disk, d.locate input ≠ .ok output.names)
    (hstep : ∀ w, ∀ e ∈ es, OnBytes input b (step w e) (.ok (f w e))) :
    ∃ W', (repackInto output start es step).runOn W = (.ok (), W') ∧
      W'.disk.read output = .ok (es.foldl f start).finish ∧ W.disk.Keeps {output.names} ∅ W'.disk := by
  obtain ⟨W₁, hw₁, hread₁, hk₁⟩ := runOn_write_of hout.plain hout.relative hout.dirs hout.notDir ByteArray.empty
  -- the input is another file, so it still holds its bytes
  have hin₁ : W₁.disk.read input = .ok b := hk₁.read_of_dirs hin fun pl hl hpl => hdiff _ (hpl ▸ hl)
  have hdirs₁ : W₁.disk.DirsTo output.names := hk₁.dirsTo hout.dirs fun _ _ => id
  have hnd₁ : W₁.disk.hasDir output.names = false :=
    Disk.hasDir_of_bytesAt ((Disk.read_plain hout.plain).1 hread₁).2.2
  obtain ⟨W₂, hw₂, hread₂, hk₂⟩ :=
    runOn_write_of (W := W₁) hout.plain hout.relative hdirs₁ hnd₁ (es.foldl f start).finish
  refine ⟨W₂, ?_, hread₂, hk₁.trans hk₂⟩
  unfold repackInto
  rw [runOn_bind_ok (by rw [fileStep, runOn_mapError, hw₁]; rfl),
    runOn_bind_ok (copyEntries_runOn (fun w e he => hstep w e he W₁ hin₁) start),
    runOn_bind_ok (by rw [fileStep, runOn_mapError, hw₂]; rfl)]
  rfl

/-! ## Appending pieces -/

/-- Append the piece an item gives, if it gives one. -/
def appendPiece {α : Type} (piece : α → Option (Entry × ByteArray)) (w : Writer) (x : α) : Writer :=
  match piece x with
  | some p => w.append p.1 p.2
  | none => w

theorem appendPiece_of_some {α : Type} {piece : α → Option (Entry × ByteArray)} {x : α} {p : Entry × ByteArray}
    (h : piece x = some p) (w : Writer) : appendPiece piece w x = w.append p.1 p.2 := by
  simp [appendPiece, h]

theorem appendPiece_of_none {α : Type} {piece : α → Option (Entry × ByteArray)} {x : α} (h : piece x = none)
    (w : Writer) : appendPiece piece w x = w := by
  simp [appendPiece, h]

/-- Appending the pieces items give builds the writer of those pieces. -/
theorem foldl_appendPiece {α : Type} (piece : α → Option (Entry × ByteArray)) (xs : List α)
    (ps : List (Entry × ByteArray)) :
    xs.foldl (appendPiece piece) (Writer.ofPieces ps) = Writer.ofPieces (ps ++ xs.filterMap piece) := by
  induction xs generalizing ps with
  | nil => simp
  | cons x xs ih =>
    rw [List.foldl_cons, List.filterMap_cons]
    cases hx : piece x with
    | none => rw [appendPiece_of_none hx, ih]
    | some p => rw [appendPiece_of_some hx, ofPieces_append, ih, List.append_assoc, List.singleton_append]

/-- Pieces made from entries with distinct names, each named as its entry and no larger than
its stored data unless it is the manifest, written anew in `S` bytes, take no more bytes than
the entries did and the manifest once more. -/
theorem length_filterMap_pieces {piece : Entry → Option (Entry × ByteArray)} {S : Nat}
    (hname : ∀ e p, piece e = some p → p.1.name = e.name)
    (hsize : ∀ e p, piece e = some p → e.name ≠ manifestEntry → p.2.size ≤ e.compressedSize)
    (hman : ∀ e p, piece e = some p → e.name = manifestEntry → p.2.size = S)
    (es : List Entry) (hnodup : (es.map (·.name)).Nodup) :
    ((es.filterMap piece).flatMap pieceBytes).length ≤
      es.foldr (fun e n => 30 + e.name.toUTF8.size + e.compressedSize + n) 0 +
        (if manifestEntry ∈ es.map (·.name) then S else 0) := by
  induction es with
  | nil => simp
  | cons e es ih =>
    rw [List.map_cons, List.nodup_cons] at hnodup
    have hrest := ih hnodup.2
    -- the manifest counted for the rest is counted for the whole list
    have hextra : (if manifestEntry ∈ es.map (·.name) then S else 0) ≤
        (if manifestEntry ∈ (e :: es).map (·.name) then S else 0) := by
      by_cases hes : manifestEntry ∈ es.map (·.name)
      · rw [if_pos hes, List.map_cons, if_pos (List.mem_cons_of_mem _ hes)]
      · rw [if_neg hes]
        exact Nat.zero_le _
    rw [List.filterMap_cons, List.foldr_cons]
    cases h : piece e with
    | none =>
      dsimp only
      omega
    | some p =>
      dsimp only
      rw [List.flatMap_cons, List.length_append, length_pieceBytes, hname e p h]
      by_cases hm : e.name = manifestEntry
      · -- the manifest is written anew, and no other entry bears its name
        have hes : manifestEntry ∉ es.map (·.name) := hm ▸ hnodup.1
        rw [if_neg hes] at hrest
        rw [if_pos (by rw [List.map_cons, ← hm]; exact List.mem_cons_self), hman e p h hm]
        omega
      · have hp := hsize e p h hm
        omega

/-! ## Unsigning -/

/-- What unsigning a signed jar with bytes `b` appends for an entry, the jar's manifest being
`m`: nothing for a signature entry, `m` without its sections for the manifest entry, and the
stored bytes of any other entry, copied. -/
def unsignPiece (b : ByteArray) (m : Manifest) (e : Entry) : Option (Entry × ByteArray) :=
  if isSignatureEntry e.name then none
  else if e.name == manifestEntry then
    some (Writer.fileEntry manifestEntry m.stripSections.toBytes, Deflate.storedStream m.stripSections.toBytes)
  else some ({ e with flags := Writer.nameFlags e.name, aes := false }, e.rawData b ((e.dataStart b).toOption.getD 0))

/-- The manifest entry is not a signature entry. -/
theorem isSignatureEntry_manifestEntry : isSignatureEntry manifestEntry = false := by
  have hmeta : manifestEntry.startsWith metaDir = true := by decide +kernel
  have hfile : (manifestEntry.drop metaDir.length).toString = "MANIFEST.MF" := by decide +kernel
  have hslash : "MANIFEST.MF".contains '/' = false := by rw [String.contains_char_eq]; decide +kernel
  have hupper : "MANIFEST.MF".map Char.toUpper = "MANIFEST.MF" := by decide +kernel
  have hsig : "MANIFEST.MF".startsWith "SIG-" = false := by decide +kernel
  -- the extension after the last dot is `MF`, not one of a signature
  have hsplit : "MANIFEST.MF".splitOn "." = ["MANIFEST", "MF"] := by
    simp +decide [String.splitOn, String.splitOnAux]
  simp only [isSignatureEntry, hmeta, hfile, hslash, hupper, hsig, hsplit]
  decide +kernel

variable {m : Manifest} {e : Entry} {p : Entry × ByteArray}

theorem unsignPiece_eq_none_iff : unsignPiece b m e = none ↔ isSignatureEntry e.name = true := by
  unfold unsignPiece
  split
  · simp_all
  · split <;> simp_all

theorem name_of_unsignPiece (h : unsignPiece b m e = some p) : p.1.name = e.name := by
  unfold unsignPiece at h
  split at h
  · cases h
  · split at h
    · rename_i hman
      cases h
      exact (beq_iff_eq.1 hman).symm
    · cases h
      rfl

theorem unsignPiece_of_manifest (h : e.name = manifestEntry) :
    unsignPiece b m e = some (Writer.fileEntry manifestEntry m.stripSections.toBytes,
      Deflate.storedStream m.stripSections.toBytes) := by
  simp [unsignPiece, h, isSignatureEntry_manifestEntry]

theorem unsignPiece_of_copied {s : Nat} (hsig : isSignatureEntry e.name = false) (hman : e.name ≠ manifestEntry)
    (hs : e.dataStart b = .ok s) :
    unsignPiece b m e = some ({ e with flags := Writer.nameFlags e.name, aes := false }, e.rawData b s) := by
  simp [unsignPiece, hsig, hman, hs, Except.toOption]

/-- The names unsigning keeps are those of the entries that are not signature entries. -/
theorem names_unsignPieces (es : List Entry) :
    (es.filterMap (unsignPiece b m)).map (·.1.name) = (es.map (·.name)).filter (fun n => !isSignatureEntry n) := by
  induction es with
  | nil => rfl
  | cons e es ih =>
    rw [List.filterMap_cons, List.map_cons, List.filter_cons]
    cases h : unsignPiece b m e with
    | none =>
      rw [unsignPiece_eq_none_iff.1 h]
      exact ih
    | some p =>
      have hsig : isSignatureEntry e.name = false := by
        cases hs : isSignatureEntry e.name
        · rfl
        · rw [unsignPiece_eq_none_iff.2 hs] at h
          cases h
      simp only [hsig, Bool.not_false, if_true, List.map_cons, name_of_unsignPiece h, ih]

theorem size_of_unsignPiece (h : unsignPiece b m e = some p) (hman : e.name ≠ manifestEntry) :
    p.2.size ≤ e.compressedSize := by
  unfold unsignPiece at h
  split at h
  · cases h
  · rw [if_neg (by simpa using hman)] at h
    cases h
    exact Entry.size_rawData_le e b _

/-- The pieces of unsigning take no more bytes than the entries did, with the manifest
written once more. -/
theorem length_unsignPieces (es : List Entry) (hnodup : (es.map (·.name)).Nodup) :
    ((es.filterMap (unsignPiece b m)).flatMap pieceBytes).length ≤
      es.foldr (fun e n => 30 + e.name.toUTF8.size + e.compressedSize + n) 0 +
        (if manifestEntry ∈ es.map (·.name) then (Deflate.storedStream m.stripSections.toBytes).size else 0) :=
  length_filterMap_pieces (fun _ _ h => name_of_unsignPiece h) (fun _ _ h hman => size_of_unsignPiece h hman)
    (fun _ _ h hman => by rw [unsignPiece_of_manifest hman] at h; cases h; rfl) es hnodup

theorem onBytes_copyStored {e : Entry} {s : Nat} (hs : e.dataStart b = .ok s) (w : Writer) :
    OnBytes input b (copyStored input w e) (.ok (w.copyRaw e (e.rawData b s))) := by
  have hstart := onBytes_rawStart (p := input) (b := b) e
  rw [hs] at hstart
  exact OnBytes.bind hstart (OnBytes.bind onBytes_currentBytes (onBytes_pure _))

/-- An unsigned jar is copied as it is. -/
theorem unsign_unsigned {a : Archive} (hin : W.disk.read input = .ok b) (ha : Archive.read b = .ok a)
    (hsig : a.names.any isSignatureEntry = false) (hout : W.disk.Writable output)
    (hdiff : ∀ d : Disk, d.locate input ≠ .ok output.names) :
    ∃ W', (unsign input output).runOn W = (.ok false, W') ∧ W'.disk.read output = .ok b ∧
      W.disk.Keeps {output.names} ∅ W'.disk := by
  obtain ⟨W₁, hp₁, hd₁⟩ := runOn_createParent hout.parent
  have hin₁ : W₁.disk.read input = .ok b := hd₁ ▸ hin
  have hout₁ : W₁.disk.Writable output := hd₁ ▸ hout
  obtain ⟨W₂, hc₂, hread, hk⟩ := runOn_copy_of hin₁ hout₁ hdiff
  refine ⟨W₂, ?_, hread, hd₁ ▸ hk⟩
  unfold unsign
  rw [runOn_bind_ok (by rw [fileStep, runOn_mapError, hp₁]; rfl), runOn_bind_ok (onBytes_isSigned ha W₁ hin₁)]
  simp only [hsig, Bool.not_false, if_true]
  rw [runOn_bind_ok (by rw [fileStep, runOn_mapError, hc₂]; rfl)]
  rfl

/-- A signed jar is repacked without its signature entries and with its manifest stripped of
its sections, every other entry copied as stored. -/
theorem unsign_signed {a : Archive} {m : Manifest} (hin : W.disk.read input = .ok b) (ha : Archive.read b = .ok a)
    (hsig : a.names.any isSignatureEntry = true) (hdata : ∀ e ∈ a.entries, ∃ s, e.dataStart b = .ok s)
    (hm : ∀ e ∈ a.entries, e.name = manifestEntry → OnBytes input b (manifestOf input e) (.ok m))
    (hout : W.disk.Writable output) (hdiff : ∀ d : Disk, d.locate input ≠ .ok output.names) :
    ∃ W', (unsign input output).runOn W = (.ok true, W') ∧
      W'.disk.read output = .ok (Writer.ofPieces (a.entries.filterMap (unsignPiece b m))).finish ∧
      W.disk.Keeps {output.names} ∅ W'.disk := by
  obtain ⟨W₁, hp₁, hd₁⟩ := runOn_createParent hout.parent
  have hin₁ : W₁.disk.read input = .ok b := hd₁ ▸ hin
  have hout₁ : W₁.disk.Writable output := hd₁ ▸ hout
  have hopen := onBytes_openArchive (p := input) (b := b)
  rw [ha] at hopen
  unfold unsign
  rw [runOn_bind_ok (by rw [fileStep, runOn_mapError, hp₁]; rfl), runOn_bind_ok (onBytes_isSigned ha W₁ hin₁)]
  simp only [hsig, Bool.not_true, Bool.false_eq_true, if_false]
  rw [runOn_bind_ok (hopen W₁ hin₁)]
  -- each step reads the entry's start, then skips it, writes the manifest, or copies it
  obtain ⟨W₂, hrun, hread, hk⟩ := @repackInto_runOn input output b W₁ Writer.empty a.entries
    (fun w e => do
      let _ ← rawStart input e
      if isSignatureEntry e.name then return w
      else if e.name == manifestEntry then
        let m ← manifestOf input e
        return w.addFile manifestEntry m.stripSections.toBytes
      else copyStored input w e) (appendPiece (unsignPiece b m)) hin₁ hout₁ hdiff (by
      intro w e he
      obtain ⟨s, hs⟩ := hdata e he
      have hstart := onBytes_rawStart (p := input) (b := b) e
      rw [hs] at hstart
      refine OnBytes.bind hstart ?_
      unfold appendPiece unsignPiece
      by_cases hsig : isSignatureEntry e.name = true
      · simp only [hsig, if_true]
        exact onBytes_pure w
      · by_cases hman : e.name = manifestEntry
        · simp only [hman] at hsig ⊢
          simp only [hsig, beq_self_eq_true, Bool.false_eq_true, if_false, if_true]
          exact OnBytes.bind (hm e he hman) (onBytes_pure _)
        · have hne : (e.name == manifestEntry) = false := by simpa using hman
          simp only [hsig, hne, Bool.false_eq_true, if_false, hs, Except.toOption, Option.getD_some]
          exact onBytes_copyStored hs w)
  refine ⟨W₂, ?_, ?_, hd₁ ▸ hk⟩
  · rw [runOn_bind_ok hrun]
    rfl
  · rw [hread, show Writer.empty = Writer.ofPieces [] from rfl, foldl_appendPiece, List.nil_append]

/-! ## What an unsigned jar holds -/

variable {a : Archive}

/-- The archive unsigning writes reads back: its entries fit, their names are distinct, and
there are few enough entries and bytes. -/
theorem unsignWriter_fits (hnames : a.names.Nodup) (hcopy : ∀ e ∈ a.entries, e.Copyable)
    (hcount : a.entries.length < 65536)
    (hsize : a.storedSize + (if manifestEntry ∈ a.names then (Deflate.storedStream m.stripSections.toBytes).size
      else 0) < 4294967296) :
    (Writer.ofPieces (a.entries.filterMap (unsignPiece b m))).Fits := by
  refine ofPieces_fits ?_ ?_ ?_ ?_
  · intro p hp
    obtain ⟨e, he, h⟩ := List.mem_filterMap.1 hp
    by_cases hman : e.name = manifestEntry
    · rw [unsignPiece_of_manifest hman] at h
      cases h
      have hmem : manifestEntry ∈ a.names := hman ▸ List.mem_map_of_mem he
      rw [if_pos hmem] at hsize
      exact Writer.fileEntry_fits (by decide) (by omega)
    · unfold unsignPiece at h
      split at h
      · cases h
      · rw [if_neg (by simpa using hman)] at h
        cases h
        exact hcopy e he
  · rw [names_unsignPieces]
    exact hnames.filter _
  · exact Nat.lt_of_le_of_lt (List.length_filterMap_le _ _) hcount
  · exact Nat.lt_of_le_of_lt (length_unsignPieces _ hnames) hsize

/-- Each entry unsigning copies is in the output with its name, its method and its stored
bytes, and so its contents. -/
theorem unsignWriter_copied (hw : (Writer.ofPieces (a.entries.filterMap (unsignPiece b m))).Fits)
    {e : Entry} (he : e ∈ a.entries) (hsig : isSignatureEntry e.name = false) (hman : e.name ≠ manifestEntry)
    {s : Nat} (hs : e.dataStart b = .ok s) (hfull : s + e.compressedSize ≤ b.size) :
    ∃ c ∈ (Writer.ofPieces (a.entries.filterMap (unsignPiece b m))).central, c.name = e.name ∧
      c.method = e.method ∧ ∃ s', c.dataStart (Writer.ofPieces (a.entries.filterMap (unsignPiece b m))).finish = .ok s' ∧
        c.rawData (Writer.ofPieces (a.entries.filterMap (unsignPiece b m))).finish s' = e.rawData b s ∧
        c.contents (Writer.ofPieces (a.entries.filterMap (unsignPiece b m))).finish s' = e.contents b s := by
  have hp : (({ e with flags := Writer.nameFlags e.name, aes := false } : Entry), e.rawData b s) ∈
      a.entries.filterMap (unsignPiece b m) :=
    List.mem_filterMap.2 ⟨e, he, unsignPiece_of_copied hsig hman hs⟩
  obtain ⟨c, hc, hcp, hstart, hraw⟩ := Writer.piece_finish hw hp
  have hsize : (e.rawData b s).size = e.compressedSize := by
    rw [Entry.rawData, ByteArray.size_extract]
    omega
  have hraw' := hraw hsize
  refine ⟨c, hc, by rw [hcp], by rw [hcp], _, hstart, hraw', ?_⟩
  exact Entry.contents_congr hraw' (by rw [hcp]) (by rw [hcp])

theorem fromUTF8?_toUTF8 (s : String) : String.fromUTF8? s.toUTF8 = some s := by
  rw [String.fromUTF8?, dif_pos (by rw [String.toUTF8_eq_toByteArray]; exact s.isValidUTF8)]
  rfl

/-- The manifest of the unsigned jar is the jar's, read, without its sections. -/
theorem unsignWriter_manifest {p : Path} (hw : (Writer.ofPieces (a.entries.filterMap (unsignPiece b m))).Fits)
    (hmem : manifestEntry ∈ a.names) (hm : m.Readable) :
    OnBytes p (Writer.ofPieces (a.entries.filterMap (unsignPiece b m))).finish (readManifest p)
      (.ok (some m.stripSections)) := by
  refine onBytes_readManifest_finish hw ?_ fun q hq hqname => ?_
  · rw [names_unsignPieces, List.mem_filter, isSignatureEntry_manifestEntry]
    exact ⟨hmem, rfl⟩
  · -- the only piece with the manifest's name is the manifest written anew
    obtain ⟨e, -, h⟩ := List.mem_filterMap.1 hq
    rw [unsignPiece_of_manifest ((name_of_unsignPiece h).symm.trans hqname)] at h
    cases h
    exact ⟨rfl, .inr rfl, _, _, contents_fileEntry _ _, fromUTF8?_toUTF8 _,
      Manifest.parse_render_of_readable hm.stripSections⟩

theorem unsignWriter_manifest_none {p : Path} (hw : (Writer.ofPieces (a.entries.filterMap (unsignPiece b m))).Fits)
    (hmem : manifestEntry ∉ a.names) :
    OnBytes p (Writer.ofPieces (a.entries.filterMap (unsignPiece b m))).finish (readManifest p) (.ok none) := by
  refine onBytes_readManifest_finish_none hw ?_
  rw [names_unsignPieces, List.mem_filter]
  exact fun h => hmem h.1

/-- What reading the manifest of a jar with distinct names found: no manifest entry and none,
or a manifest that parsed, which the manifest entry reads as wherever the jar is. -/
theorem readManifest_cases {mo : Option Manifest} (hin : W.disk.read input = .ok b) (ha : Archive.read b = .ok a)
    (hnames : a.names.Nodup) (hman : (readManifest input).runOn W = (.ok mo, W)) :
    (mo = none ∧ manifestEntry ∉ a.names) ∨
      ∃ m, mo = some m ∧ m.Readable ∧ manifestEntry ∈ a.names ∧
        ∀ e ∈ a.entries, e.name = manifestEntry → OnBytes input b (manifestOf input e) (.ok m) := by
  rcases readManifest_runOn_eq_ok hin ha hman with ⟨hmem, hmo⟩ | ⟨e₀, m, hby, hmo, hm⟩
  · exact .inl ⟨hmo, hmem⟩
  · obtain ⟨he₀, hname₀⟩ := byName_eq_ok hby
    obtain ⟨start, data, text, hopen, hdata, htext, hparse⟩ := manifestOf_runOn_eq_ok hin hm
    refine .inr ⟨m, hmo, Manifest.readable_of_parse hparse, hname₀ ▸ List.mem_map_of_mem he₀, fun e he hname => ?_⟩
    -- names are distinct, so the manifest entry is the one found by name
    have he : e = e₀ := List.inj_on_of_nodup_map hnames he he₀ (hname.trans hname₀.symm)
    rw [he]
    exact onBytes_manifestOf hopen hdata htext hparse

/-- Unsigning a jar strips exactly its signature. The jar is a readable archive with distinct
names, whose entries' data is in the file and can be copied by a writer, and whose manifest,
if it has one, reads; the output is another file that can be written, and the archive
unsigning writes stays within the format's limits. Then unsigning succeeds, says whether the
jar was signed, and changes nothing but the output. An unsigned jar is copied byte for byte.
Of a signed jar the output is an archive with the jar's names but its signature entries, in
order; every other entry but the manifest keeps its method and its stored bytes, so its
contents; its manifest is the jar's without its sections, or none when the jar has none; it
is not signed, and unsigning it again copies it. -/
theorem unsign_strips_signature {mo : Option Manifest} (hin : W.disk.read input = .ok b)
    (ha : Archive.read b = .ok a) (hnames : a.names.Nodup)
    (hdata : ∀ e ∈ a.entries, ∃ s, e.dataStart b = .ok s ∧ s + e.compressedSize ≤ b.size)
    (hcopy : ∀ e ∈ a.entries, e.Copyable) (hcount : a.entries.length < 65536)
    (hman : (readManifest input).runOn W = (.ok mo, W))
    (hsize : a.storedSize + (mo.elim 0 fun m => (Deflate.storedStream m.stripSections.toBytes).size) < 4294967296)
    (hout : W.disk.Writable output) (hdiff : ∀ d : Disk, d.locate input ≠ .ok output.names) :
    ∃ W', (unsign input output).runOn W = (.ok (a.names.any isSignatureEntry), W') ∧
      W.disk.Keeps {output.names} ∅ W'.disk ∧
      (a.names.any isSignatureEntry = false → W'.disk.read output = .ok b) ∧
      (a.names.any isSignatureEntry = true → ∃ out a', W'.disk.read output = .ok out ∧
        Archive.read out = .ok a' ∧ a'.names = a.names.filter (fun n => !isSignatureEntry n) ∧
        (∀ e ∈ a.entries, isSignatureEntry e.name = false → e.name ≠ manifestEntry →
          ∃ c ∈ a'.entries, c.name = e.name ∧ c.method = e.method ∧
            ∀ s, e.dataStart b = .ok s → ∃ s', c.dataStart out = .ok s' ∧
              c.rawData out s' = e.rawData b s ∧ c.contents out s' = e.contents b s) ∧
        (readManifest output).runOn W' = (.ok (mo.map Manifest.stripSections), W') ∧
        (isSigned output).runOn W' = (.ok false, W') ∧
        ∀ output', W'.disk.Writable output' → (∀ d : Disk, d.locate output ≠ .ok output'.names) →
          ∃ W'', (unsign output output').runOn W' = (.ok false, W'') ∧ W''.disk.read output' = .ok out) := by
  cases hsig : a.names.any isSignatureEntry with
  | false =>
    obtain ⟨W', hrun, hread, hk⟩ := unsign_unsigned hin ha hsig hout hdiff
    exact ⟨W', hrun, hk, fun _ => hread, fun h => by cases h⟩
  | true =>
    -- the manifest the steps write, and the bound on the bytes written
    obtain ⟨m, hm, hread_m, hbound⟩ : ∃ m : Manifest,
        (∀ e ∈ a.entries, e.name = manifestEntry → OnBytes input b (manifestOf input e) (.ok m)) ∧
        (∀ {p : Path}, (Writer.ofPieces (a.entries.filterMap (unsignPiece b m))).Fits →
          OnBytes p (Writer.ofPieces (a.entries.filterMap (unsignPiece b m))).finish (readManifest p)
            (.ok (mo.map Manifest.stripSections))) ∧
        a.storedSize + (if manifestEntry ∈ a.names then (Deflate.storedStream m.stripSections.toBytes).size
          else 0) < 4294967296 := by
      rcases readManifest_cases hin ha hnames hman with ⟨rfl, hmem⟩ | ⟨m, rfl, hread, hmem, hm⟩
      · refine ⟨Manifest.basic, fun e he hname => absurd (hname ▸ List.mem_map_of_mem he) hmem,
          fun hw => unsignWriter_manifest_none hw hmem, ?_⟩
        rw [if_neg hmem]
        exact hsize
      · refine ⟨m, hm, fun hw => unsignWriter_manifest hw hmem hread, ?_⟩
        rw [if_pos hmem]
        exact hsize
    have hw := unsignWriter_fits (b := b) hnames hcopy hcount hbound
    obtain ⟨W', hrun, hread, hk⟩ := unsign_signed hin ha hsig (fun e he => (hdata e he).imp fun _ => And.left) hm hout hdiff
    have hread' := Writer.read_finish _ hw
    have hnames' : (⟨(Writer.ofPieces (a.entries.filterMap (unsignPiece b m))).central⟩ : Archive).names =
        a.names.filter (fun n => !isSignatureEntry n) := by
      rw [Archive.names, ofPieces_central, placed_names, names_unsignPieces]
      rfl
    have hunsigned : (⟨(Writer.ofPieces (a.entries.filterMap (unsignPiece b m))).central⟩ : Archive).names.any
        isSignatureEntry = false := by
      rw [hnames']
      simp
    refine ⟨W', hrun, hk, (fun h => by cases h), fun _ => ⟨_, _, hread, hread', hnames', ?_, hread_m hw W' hread,
      hunsigned ▸ onBytes_isSigned hread' W' hread, fun output' hout' hdiff' => ?_⟩⟩
    · intro e he hsig hman
      obtain ⟨s₀, hs₀, hfull⟩ := hdata e he
      obtain ⟨c, hc, hname, hmethod, s', hstart, hraw, hcontents⟩ := unsignWriter_copied hw he hsig hman hs₀ hfull
      refine ⟨c, hc, hname, hmethod, fun s hs => ?_⟩
      rw [hs₀] at hs
      cases hs
      exact ⟨s', hstart, hraw, hcontents⟩
    · obtain ⟨W'', hrun', hread'', -⟩ := unsign_unsigned hread hread' hunsigned hout' hdiff'
      exact ⟨W'', hrun', hread''⟩


/-- A signed jar: a manifest with a section for its one file, the file, and a signature file. -/
def signedJarPieces : List (Entry × ByteArray) :=
  let stored (name : String) (crc : UInt32) (size : Nat) : Entry :=
    { name, versionMadeBy := 788, versionNeeded := 20, flags := 0, method := 0, time := 37368,
      date := 23917, crc, compressedSize := size, size, internalAttributes := 0,
      externalAttributes := 25165824, headerOffset := 0, aes := false }
  [(stored manifestEntry 1876867009 53, "Manifest-Version: 1.0\r\n\r\nName: a.txt\r\nX-Digest: 1\r\n\r\n".toUTF8),
    (stored "a.txt" 907060870 5, "hello".toUTF8),
    (stored "META-INF/APP.SF" 803650766 26, "Signature-Version: 1.0\r\n\r\n".toUTF8)]

/-- Unsigning a jar with a signature file and a manifest section: it was signed, the output's
manifest is the basic one, and the output is not signed. -/
theorem unsign_strips_signature_signed_jar :
    let w : World := { disk := ⟨[(["in.jar"], .file (Writer.ofPieces signedJarPieces).finish 0)]⟩ }
    ∃ W', (unsign ⟨"in.jar"⟩ ⟨"out.jar"⟩).runOn w = (.ok true, W') ∧
      (readManifest ⟨"out.jar"⟩).runOn W' = (.ok (some Manifest.basic), W') ∧
      (isSigned ⟨"out.jar"⟩).runOn W' = (.ok false, W') := by
  intro w
  have hw : (Writer.ofPieces signedJarPieces).Fits := by decide +kernel
  have hin : w.disk.read ⟨"in.jar"⟩ = .ok (Writer.ofPieces signedJarPieces).finish :=
    eq_ok_of_toOption (by decide +kernel)
  have hsizes : ∀ p ∈ signedJarPieces, p.2.size = p.1.compressedSize := by decide +kernel
  have hman : (readManifest ⟨"in.jar"⟩).runOn w =
      (.ok (some ⟨[("Manifest-Version", "1.0")], [⟨"a.txt", [("X-Digest", "1")]⟩]⟩), w) := by
    refine onBytes_readManifest_finish hw (by decide +kernel) (fun q hq hname => ?_) w hin
    rcases List.mem_cons.1 hq with rfl | hq
    · exact ⟨by decide +kernel, .inl rfl, "Manifest-Version: 1.0\r\n\r\nName: a.txt\r\nX-Digest: 1\r\n\r\n".toUTF8,
        "Manifest-Version: 1.0\r\n\r\nName: a.txt\r\nX-Digest: 1\r\n\r\n", eq_ok_of_toOption (by decide +kernel),
        by decide +kernel, by decide +kernel⟩
    · exact absurd hname (by
        rcases List.mem_cons.1 hq with rfl | hq
        · decide +kernel
        · rw [List.mem_singleton.1 hq]
          decide +kernel)
  have hout : w.disk.Writable ⟨"out.jar"⟩ :=
    ⟨by decide +kernel, by unfold Path.Relative; decide +kernel, by unfold Disk.DirsTo; decide +kernel,
      by decide +kernel, fun q hq => .inl (by
        rw [Option.some.inj (hq.symm.trans (by decide +kernel : (⟨"out.jar"⟩ : Path).parent? = some ⟨""⟩))])⟩
  obtain ⟨W', hrun, -, -, hsigned⟩ := unsign_strips_signature hin (Writer.read_finish _ hw) (by decide +kernel)
    (fun e he => Writer.data_within hw hsizes he) (by decide +kernel) (by decide +kernel) hman (by decide +kernel)
    hout (fun d => Disk.locate_ne_of_plain (by decide +kernel) (by decide +kernel))
  -- the signature file is what makes the jar signed
  have hsf : isSignatureEntry "META-INF/APP.SF" = true := by
    have hmeta : "META-INF/APP.SF".startsWith metaDir = true := by decide +kernel
    have hfile : ("META-INF/APP.SF".drop metaDir.length).toString = "APP.SF" := by decide +kernel
    have hslash : "APP.SF".contains '/' = false := by rw [String.contains_char_eq]; decide +kernel
    have hupper : "APP.SF".map Char.toUpper = "APP.SF" := by decide +kernel
    have hprefix : "APP.SF".startsWith "SIG-" = false := by decide +kernel
    have hsplit : "APP.SF".splitOn "." = ["APP", "SF"] := by
      simp +decide [String.splitOn, String.splitOnAux]
    simp only [isSignatureEntry, hmeta, hfile, hslash, hupper, hprefix, hsplit]
    decide +kernel
  have hsig : (⟨(Writer.ofPieces signedJarPieces).central⟩ : Archive).names.any isSignatureEntry = true := by
    rw [Archive.names, ofPieces_central, placed_names]
    simp [signedJarPieces, hsf]
  obtain ⟨out, a', -, -, -, -, hread, hunsigned, -⟩ := hsigned hsig
  rw [hsig] at hrun
  exact ⟨W', hrun, hread, hunsigned⟩

/-! ## Updating the manifest -/

/-- The piece of a manifest written anew: a file entry holding its text, stored. -/
def manifestPiece (m : Manifest) : Entry × ByteArray :=
  (Writer.fileEntry manifestEntry m.toBytes, Deflate.storedStream m.toBytes)

/-- What updating the manifest of a jar with bytes `b` appends for an entry, the merged
manifest being `m`: `m` for the manifest entry, and the stored bytes of any other entry,
copied. -/
def updatePiece (b : ByteArray) (m : Manifest) (e : Entry) : Entry × ByteArray :=
  if e.name == manifestEntry then manifestPiece m
  else ({ e with flags := Writer.nameFlags e.name, aes := false }, e.rawData b ((e.dataStart b).toOption.getD 0))

/-- The pieces updating the manifest writes: the merged manifest first when the jar has
none, then a piece for every entry. -/
def updatePieces (b : ByteArray) (m : Manifest) (a : Archive) : List (Entry × ByteArray) :=
  (if a.names.contains manifestEntry then [] else [manifestPiece m]) ++ a.entries.map (updatePiece b m)

@[simp] theorem name_updatePiece : (updatePiece b m e).1.name = e.name := by
  unfold updatePiece
  split
  · rename_i hman
    exact (beq_iff_eq.1 hman).symm
  · rfl

theorem updatePiece_of_manifest (h : e.name = manifestEntry) : updatePiece b m e = manifestPiece m := by
  simp [updatePiece, h]

theorem size_updatePiece_le (hman : e.name ≠ manifestEntry) : (updatePiece b m e).2.size ≤ e.compressedSize := by
  rw [updatePiece, if_neg (by simpa using hman)]
  exact Entry.size_rawData_le e b _

/-- Updating keeps the jar's names in order, after the manifest's when the jar had none. -/
theorem names_updatePieces :
    (updatePieces b m a).map (·.1.name) =
      (if a.names.contains manifestEntry then [] else [manifestEntry]) ++ a.names := by
  rw [updatePieces, List.map_append, List.map_map]
  split <;> simp [Function.comp_def, Archive.names, manifestPiece, Writer.fileEntry]

/-- The only piece updating writes under the manifest's name is the merged manifest. -/
theorem eq_manifestPiece {q : Entry × ByteArray} (hq : q ∈ updatePieces b m a)
    (hname : q.1.name = manifestEntry) : q = manifestPiece m := by
  rw [updatePieces, List.mem_append] at hq
  rcases hq with hq | hq
  · split at hq
    · simp at hq
    · exact List.mem_singleton.1 hq
  · obtain ⟨e, -, rfl⟩ := List.mem_map.1 hq
    rw [name_updatePiece] at hname
    exact updatePiece_of_manifest hname

/-- The pieces of updating take no more bytes than the jar's entries did, with the merged
manifest written once more. -/
theorem length_updatePieces (hnames : a.names.Nodup) :
    ((updatePieces b m a).flatMap pieceBytes).length ≤
      a.storedSize + (30 + manifestEntry.toUTF8.size + (Deflate.storedStream m.toBytes).size) := by
  have hcopied := @length_filterMap_pieces (some ∘ updatePiece b m) (Deflate.storedStream m.toBytes).size
    (fun _ _ h => by cases h; exact name_updatePiece)
    (fun _ _ h hman => by cases h; exact size_updatePiece_le hman)
    (fun _ _ h hman => by cases h; rw [updatePiece_of_manifest hman]; rfl) a.entries hnames
  rw [List.filterMap_eq_map] at hcopied
  rw [updatePieces, List.flatMap_append, List.length_append, Archive.storedSize]
  split
  · rename_i hc
    rw [if_pos (by simpa [Archive.names] using hc)] at hcopied
    simp only [List.flatMap_nil, List.length_nil]
    omega
  · rename_i hc
    rw [if_neg (by simpa [Archive.names] using hc)] at hcopied
    simp only [List.flatMap_cons, List.flatMap_nil, List.append_nil, length_pieceBytes]
    simp only [manifestPiece, Writer.fileEntry]
    omega

/-- The archive updating writes fits the format when the jar's names are distinct, its
entries can be copied, and there is room for one more entry and the merged manifest. -/
theorem updateWriter_fits (hnames : a.names.Nodup) (hcopy : ∀ e ∈ a.entries, e.Copyable)
    (hcount : a.entries.length + 1 < 65536)
    (hsize : a.storedSize + (30 + manifestEntry.toUTF8.size + (Deflate.storedStream m.toBytes).size) < 4294967296) :
    (Writer.ofPieces (updatePieces b m a)).Fits := by
  have hman : (manifestPiece m).1.Fits := Writer.fileEntry_fits (by decide) (by omega)
  refine ofPieces_fits ?_ ?_ ?_ (Nat.lt_of_le_of_lt (length_updatePieces hnames) hsize)
  · intro q hq
    rw [updatePieces, List.mem_append] at hq
    rcases hq with hq | hq
    · split at hq
      · simp at hq
      · rw [List.mem_singleton.1 hq]
        exact hman
    · obtain ⟨e, he, rfl⟩ := List.mem_map.1 hq
      by_cases hname : e.name = manifestEntry
      · rw [updatePiece_of_manifest hname]
        exact hman
      · rw [updatePiece, if_neg (by simpa using hname)]
        exact hcopy e he
  · rw [names_updatePieces]
    split
    · exact hnames
    · rename_i hc
      exact List.nodup_cons.2 ⟨by simpa using hc, hnames⟩
  · rw [updatePieces, List.length_append, List.length_map]
    split <;> simp only [List.length_nil, List.length_singleton] <;> omega

/-- The manifest of the archive updating writes is the merged manifest as it reads back. -/
theorem updateWriter_manifest {p : Path} {m' : Manifest} (hw : (Writer.ofPieces (updatePieces b m a)).Fits)
    (hparse : Manifest.parse m.render = .ok m') :
    OnBytes p (Writer.ofPieces (updatePieces b m a)).finish (readManifest p) (.ok (some m')) := by
  refine onBytes_readManifest_finish hw ?_ fun q hq hqname => ?_
  · rw [names_updatePieces]
    split
    · rename_i hc
      exact List.mem_append_right _ (by simpa using hc)
    · exact List.mem_append_left _ (List.mem_singleton_self _)
  · rw [eq_manifestPiece hq hqname]
    exact ⟨rfl, .inr rfl, _, _, contents_fileEntry _ _, fromUTF8?_toUTF8 _, hparse⟩


/-- Updating the manifest of a readable jar whose entries' data is in the file, into a file
that can be written once its parent is made: the keys applied are the merge's, the output
holds the archive of the update pieces, and nothing else changes. -/
theorem updateManifest_runOn {a : Archive} {mo : Option Manifest} {W₁ : World}
    (hin : W.disk.read input = .ok b) (ha : Archive.read b = .ok a)
    (hdata : ∀ e ∈ a.entries, ∃ s, e.dataStart b = .ok s)
    (hman : (readManifest input).runOn W = (.ok mo, W))
    (hparent : (createParent output).runOn W = (.ok (), W₁)) (hout : W₁.disk.Writable output)
    (hdiff : ∀ d : Disk, d.locate input ≠ .ok output.names) (entries : List (String × String)) (override : Bool) :
    ∃ W', (updateManifest input output entries override).runOn W =
        (.ok ((mo.getD .basic).merge entries override).2, W') ∧
      W'.disk.read output = .ok (Writer.ofPieces (updatePieces b ((mo.getD .basic).merge entries override).1 a)).finish ∧
      W.disk.Keeps {output.names} ∅ W'.disk := by
  obtain ⟨m, applied, hmerge⟩ : ∃ m applied, (mo.getD .basic).merge entries override = (m, applied) := ⟨_, _, rfl⟩
  rw [hmerge]
  -- making the parent only adds directories, so the input still holds its bytes
  have hk₁ : W.disk.Keeps ∅ ∅ W₁.disk := (frames_createParent (B := ∅) (D := ∅) output W _ W₁ hparent).1
  have hin₁ : W₁.disk.read input = .ok b := hk₁.read_of_dirs hin fun _ _ => Set.notMem_empty _
  have hopen := onBytes_openArchive (p := input) (b := b)
  rw [ha] at hopen
  have hstart : (if a.names.contains manifestEntry then Writer.empty else Writer.empty.addFile manifestEntry m.toBytes) =
      Writer.ofPieces (if a.names.contains manifestEntry then [] else [manifestPiece m]) := by
    split <;> rfl
  -- each step reads the entry's start, then writes the merged manifest or copies the entry
  obtain ⟨W₂, hrun, hread, hk⟩ := @repackInto_runOn input output b W₁
    (if a.names.contains manifestEntry then Writer.empty else Writer.empty.addFile manifestEntry m.toBytes)
    a.entries (fun w e => do
      let _ ← rawStart input e
      if e.name == manifestEntry then return w.addFile manifestEntry m.toBytes
      else copyStored input w e) (appendPiece (some ∘ updatePiece b m)) hin₁ hout hdiff (by
      intro w e he
      obtain ⟨s, hs⟩ := hdata e he
      have hraw := onBytes_rawStart (p := input) (b := b) e
      rw [hs] at hraw
      refine OnBytes.bind hraw ?_
      rw [show appendPiece (some ∘ updatePiece b m) w e = w.append (updatePiece b m e).1 (updatePiece b m e).2
        from rfl, updatePiece]
      by_cases hname : e.name = manifestEntry
      · simp only [hname, beq_self_eq_true, if_true]
        exact onBytes_pure _
      · have hne : (e.name == manifestEntry) = false := by simpa using hname
        simp only [hne, Bool.false_eq_true, if_false, hs, Except.toOption, Option.getD_some]
        exact onBytes_copyStored hs w)
  refine ⟨W₂, ?_, ?_, (hk₁.mono (Set.empty_subset _) subset_rfl).trans hk⟩
  · unfold updateManifest
    rw [runOn_bind_ok hman]
    simp only [hmerge]
    rw [runOn_bind_ok (by rw [fileStep, runOn_mapError, hparent]; rfl), runOn_bind_ok (hopen W₁ hin₁),
      runOn_bind_ok hrun]
    rfl
  · rw [hread, hstart, foldl_appendPiece, List.filterMap_eq_map]
    rfl

/-- Updating the manifest of a jar writes a jar whose manifest is the merged manifest as it
reads back. The jar is a readable archive with distinct names whose entries' data is in the
file and can be copied by a writer; the output is another file that can be written once its
parent is made, and the archive written stays within the format's limits. Then updating
succeeds with the keys the merge applied, changes nothing but the output, and the output's
manifest reads as the merged manifest's text parses. -/
theorem updateManifest_reads_merged {a : Archive} {mo : Option Manifest} {W₁ : World} {m' : Manifest}
    {entries : List (String × String)} {override : Bool}
    (hin : W.disk.read input = .ok b) (ha : Archive.read b = .ok a) (hnames : a.names.Nodup)
    (hdata : ∀ e ∈ a.entries, ∃ s, e.dataStart b = .ok s) (hcopy : ∀ e ∈ a.entries, e.Copyable)
    (hcount : a.entries.length + 1 < 65536) (hman : (readManifest input).runOn W = (.ok mo, W))
    (hparent : (createParent output).runOn W = (.ok (), W₁)) (hout : W₁.disk.Writable output)
    (hdiff : ∀ d : Disk, d.locate input ≠ .ok output.names)
    (hsize : a.storedSize + (30 + manifestEntry.toUTF8.size +
      (Deflate.storedStream ((mo.getD .basic).merge entries override).1.toBytes).size) < 4294967296)
    (hparse : Manifest.parse ((mo.getD .basic).merge entries override).1.render = .ok m') :
    ∃ W', (updateManifest input output entries override).runOn W =
        (.ok ((mo.getD .basic).merge entries override).2, W') ∧
      W.disk.Keeps {output.names} ∅ W'.disk ∧ (readManifest output).runOn W' = (.ok (some m'), W') := by
  obtain ⟨W', hrun, hread, hk⟩ := updateManifest_runOn hin ha hdata hman hparent hout hdiff entries override
  exact ⟨W', hrun, hk, updateWriter_manifest (updateWriter_fits hnames hcopy hcount hsize) hparse W' hread⟩

end Jar

end JarDeploy
