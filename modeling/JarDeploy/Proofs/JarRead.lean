import Mathlib.Data.List.Nodup
import JarDeploy.Proofs.StoredBlocks
import JarDeploy.Proofs.Refusal

/-!
# Reading jars from the disk

The jar tools read a jar through its path, but what they find depends only on the bytes
the file holds. `Act.OnBytes p b a r` says so of an action `a`: in every world where the
file at `p` holds `b`, it ends with `r` and leaves the world as it is. Opening the archive,
locating and decoding entries, reading the manifest and asking whether the jar is signed
are such actions, with results read off `b` (`onBytes_openArchive`, `onBytes_manifestOf`,
`onBytes_readManifest_some`, `onBytes_isSigned`).

For an archive a writer finished, the results are known from what was written: every entry
opens where its local header ends, its contents are those of the bytes it was appended
with (`contents_finish`), and a file added with `Writer.addFile` decodes to the data given
(`contents_fileEntry`).
-/

namespace JarDeploy

set_option autoImplicit false

/-- A path that reads as a file leads to a file node with those bytes. -/
theorem Disk.findPath_of_read {d : Disk} {p : Path} {b : ByteArray} (h : d.read p = .ok b) :
    ∃ t, d.findPath p = .node (.file b t) := by
  unfold Disk.read at h
  split at h
  · cases h
    exact ⟨_, ‹_›⟩
  all_goals cases h

namespace Act

variable {ε ε' α β : Type} {p : Path} {b : ByteArray}

/-- In every world where the file at `p` holds `b`, the action ends with `r` and leaves the
world as it is. -/
def OnBytes (p : Path) (b : ByteArray) (a : Act ε α) (r : Except ε α) : Prop :=
  ∀ W : World, W.disk.read p = .ok b → a.runOn W = (r, W)

theorem onBytes_pure (x : α) : OnBytes p b (pure x : Act ε α) (.ok x) := fun _ _ => rfl

theorem onBytes_throw (e : ε) : OnBytes p b (throw e : Act ε α) (.error e) := fun _ _ => rfl

theorem onBytes_ofExcept (r : Except ε α) : OnBytes p b (ofExcept r) r := fun W _ => runOn_ofExcept r W

theorem onBytes_mapError (f : ε → ε') {a : Act ε α} {r : Except ε α} (h : OnBytes p b a r) :
    OnBytes p b (mapError f a) (r.mapError f) := by
  intro W hW
  rw [runOn_mapError, h W hW]

theorem OnBytes.bind {a : Act ε α} {f : α → Act ε β} {x : α} {r : Except ε β}
    (ha : OnBytes p b a (.ok x)) (hf : OnBytes p b (f x) r) : OnBytes p b (a >>= f) r := by
  intro W hW
  rw [runOn_bind_ok (ha W hW), hf W hW]

theorem OnBytes.bind_error {a : Act ε α} {f : α → Act ε β} {e : ε} (ha : OnBytes p b a (.error e)) :
    OnBytes p b (a >>= f) (.error e) :=
  fun W hW => runOn_bind_error (ha W hW)

/-- A run of such an action ends as the action says. -/
theorem OnBytes.eq {a : Act ε α} {r r' : Except ε α} {W W' : World} (h : OnBytes p b a r)
    (hW : W.disk.read p = .ok b) (hrun : a.runOn W = (r', W')) : r' = r ∧ W' = W := by
  rw [h W hW, Prod.mk.injEq] at hrun
  exact ⟨hrun.1.symm, hrun.2.symm⟩

/-- The disk as it is, read where the file at `p` holds `b`. -/
theorem runOn_disk_read {W : World} (hW : W.disk.read p = .ok b) :
    ∃ t, (disk : Act ε Disk).runOn W = (.ok W.disk, W) ∧ W.disk.findPath p = .node (.file b t) := by
  obtain ⟨t, ht⟩ := Disk.findPath_of_read hW
  exact ⟨t, rfl, ht⟩

end Act

namespace Zip

/-! ## Entries of a finished archive -/

/-- The entry `Writer.addFile` appends for a new file. -/
def Writer.fileEntry (name : String) (data : ByteArray) : Entry where
  name := name
  versionMadeBy := 0x031E
  versionNeeded := 20
  flags := Writer.nameFlags name
  method := 8
  time := 0
  date := 0x21
  crc := Crc32.ofBytes data
  compressedSize := (Deflate.storedStream data).size
  size := data.size
  internalAttributes := 0
  externalAttributes := 0o100644 <<< 16
  headerOffset := 0
  aes := false

theorem Writer.addFile_eq (w : Writer) (name : String) (data : ByteArray) :
    w.addFile name data = w.append (Writer.fileEntry name data) (Deflate.storedStream data) := rfl

/-- The contents of an entry depend only on its stored bytes, its method and its checksum. -/
theorem Entry.contents_congr {e e' : Entry} {b b' : ByteArray} {s s' : Nat}
    (hraw : e.rawData b s = e'.rawData b' s') (hmethod : e.method = e'.method) (hcrc : e.crc = e'.crc) :
    e.contents b s = e'.contents b' s' := by
  simp only [Entry.contents, hraw, hmethod, hcrc]

theorem Entry.rawData_self {e : Entry} {stored : ByteArray} (h : stored.size = e.compressedSize) :
    e.rawData stored 0 = stored := by
  rw [Entry.rawData, Nat.zero_add, ← h, ByteArray.extract_zero_size]

/-- A file added to an archive decodes to the data it was added with. -/
theorem contents_fileEntry (name : String) (data : ByteArray) :
    (Writer.fileEntry name data).contents (Deflate.storedStream data) 0 = .ok data := by
  rw [Entry.contents, Entry.rawData_self rfl]
  simp [Writer.fileEntry, Inflate.inflate_storedStream]

/-- No entry a writer sets the flags of is marked as needing a password. -/
theorem Entry.Fits.isEncrypted {e : Entry} (he : e.Fits) : e.isEncrypted = false := by
  rw [Entry.isEncrypted, he.flags, Writer.nameFlags]
  split <;> decide

/-- In a finished archive built from pieces, every entry is one of the pieces, placed: it
opens where its local header ends when its method is one the reader decodes, and its
stored bytes, and so its contents, are those it was appended with. -/
theorem Writer.entry_finish {ps : List (Entry × ByteArray)} {c : Entry} (hw : (Writer.ofPieces ps).Fits)
    (hc : c ∈ (Writer.ofPieces ps).central) :
    ∃ p ∈ ps, c = { p.1 with headerOffset := c.headerOffset } ∧
      ((c.method = 0 ∨ c.method = 8) →
        c.openData (Writer.ofPieces ps).finish = .ok (c.headerOffset + 30 + c.name.toUTF8.size)) ∧
      (p.2.size = p.1.compressedSize →
        c.rawData (Writer.ofPieces ps).finish (c.headerOffset + 30 + c.name.toUTF8.size) = p.2 ∧
        c.contents (Writer.ofPieces ps).finish (c.headerOffset + 30 + c.name.toUTF8.size) = p.1.contents p.2 0) := by
  have hfits := hw.entries c hc
  obtain ⟨p, hp, hcp, hstart, hraw⟩ := Writer.data_finish hc hfits.name
  refine ⟨p, hp, hcp, fun hmethod => ?_, fun hsize => ⟨hraw hsize, ?_⟩⟩
  · unfold Entry.openData
    rw [hfits.isEncrypted]
    simp only [Bool.false_eq_true, if_false, hstart, Manifest.ok_bind]
    rw [if_neg (by omega), hfits.aes]
    rfl
  · refine Entry.contents_congr ?_ (by rw [hcp]) (by rw [hcp])
    rw [hraw hsize, Entry.rawData_self hsize]

theorem exists_placed {ps : List (Entry × ByteArray)} {p : Entry × ByteArray} (hp : p ∈ ps) (at_ : Nat) :
    ∃ c ∈ placed ps at_, c = { p.1 with headerOffset := c.headerOffset } := by
  induction ps generalizing at_ with
  | nil => cases hp
  | cons q ps ih =>
    rcases List.mem_cons.1 hp with rfl | hp
    · exact ⟨_, List.mem_cons_self, rfl⟩
    · obtain ⟨c, hc, hcp⟩ := ih hp _
      exact ⟨c, List.mem_cons_of_mem _ hc, hcp⟩

/-- In a finished archive whose names are distinct, every piece is found at its own entry:
placed, with the stored bytes it was appended with. -/
theorem Writer.piece_finish {ps : List (Entry × ByteArray)} {p : Entry × ByteArray}
    (hw : (Writer.ofPieces ps).Fits) (hp : p ∈ ps) :
    ∃ c ∈ (Writer.ofPieces ps).central, c = { p.1 with headerOffset := c.headerOffset } ∧
      c.dataStart (Writer.ofPieces ps).finish = .ok (c.headerOffset + 30 + c.name.toUTF8.size) ∧
      (p.2.size = p.1.compressedSize →
        c.rawData (Writer.ofPieces ps).finish (c.headerOffset + 30 + c.name.toUTF8.size) = p.2) := by
  obtain ⟨c, hc, hcp⟩ := exists_placed hp 0
  rw [← ofPieces_central] at hc
  obtain ⟨q, hq, hcq, hstart, hraw⟩ := Writer.data_finish hc (hw.entries c hc).name
  have hnames : (ps.map (·.1.name)).Nodup := by
    have h := hw.names
    rw [ofPieces_central, placed_names] at h
    exact h
  -- the entry found for the piece came from a piece of the same name, so from this one
  have hqp : q = p := List.inj_on_of_nodup_map hnames hq hp (by
    show q.1.name = p.1.name
    rw [← congrArg Entry.name hcq, ← congrArg Entry.name hcp])
  subst hqp
  exact ⟨c, hc, hcp, hstart, hraw⟩

/-- In a finished archive built from pieces whose stored bytes are as long as their entries
say, every entry's data lies within the archive. -/
theorem Writer.data_within {ps : List (Entry × ByteArray)} (hw : (Writer.ofPieces ps).Fits)
    (hsizes : ∀ p ∈ ps, p.2.size = p.1.compressedSize) {c : Entry} (hc : c ∈ (Writer.ofPieces ps).central) :
    ∃ s, c.dataStart (Writer.ofPieces ps).finish = .ok s ∧ s + c.compressedSize ≤ (Writer.ofPieces ps).finish.size := by
  obtain ⟨-, -, -, hstart, -⟩ := Writer.data_finish hc (hw.entries c hc).name
  obtain ⟨p, hp, hcp, hend⟩ := Writer.dataEnd_le_size hc
  have hcsize : c.compressedSize = p.2.size := by rw [hsizes p hp, hcp]
  exact ⟨_, hstart, hcsize ▸ hend⟩

end Zip

namespace Jar

open Act Zip

variable {ε : Type} {p : Path} {b : ByteArray}

/-! ## Reading a jar's file -/

theorem onBytes_openArchive : OnBytes p b (openArchive p) ((Archive.read b).mapError .zip) := by
  intro W hW
  obtain ⟨t, hdisk, hfind⟩ := runOn_disk_read (ε := ToolError) hW
  unfold openArchive
  rw [runOn_bind_ok hdisk]
  simp only [hfind]
  exact runOn_ofExcept _ W

theorem onBytes_currentBytes : OnBytes p b (currentBytes p : Act ε ByteArray) (.ok b) := by
  intro W hW
  obtain ⟨t, hdisk, hfind⟩ := runOn_disk_read (ε := ε) hW
  unfold currentBytes
  rw [runOn_bind_ok hdisk]
  simp only [hfind]
  rfl

theorem onBytes_rawStart (e : Entry) : OnBytes p b (rawStart p e) ((e.dataStart b).mapError .zip) :=
  onBytes_currentBytes.bind (onBytes_ofExcept _)

theorem onBytes_openEntry (e : Entry) : OnBytes p b (openEntry p e) ((e.openData b).mapError .zip) :=
  onBytes_currentBytes.bind (onBytes_ofExcept _)

theorem onBytes_entryContents (e : Entry) (start : Nat) :
    OnBytes p b (entryContents p e start) ((e.contents b start).mapError .io) :=
  onBytes_currentBytes.bind (onBytes_ofExcept _)

theorem onBytes_entryText {e : Entry} {start : Nat} {data : ByteArray} {text : String}
    (hdata : e.contents b start = .ok data) (htext : String.fromUTF8? data = some text) :
    OnBytes p b (entryText p e start) (.ok text) := by
  have hcontents := onBytes_entryContents (p := p) (b := b) e start
  rw [hdata] at hcontents
  unfold entryText
  refine OnBytes.bind hcontents ?_
  simp only [htext]
  exact onBytes_pure text

/-- The manifest of an entry that opens, decodes to UTF-8 text, and parses. -/
theorem onBytes_manifestOf {e : Entry} {start : Nat} {data : ByteArray} {text : String} {m : Manifest}
    (hopen : e.openData b = .ok start) (hdata : e.contents b start = .ok data)
    (htext : String.fromUTF8? data = some text) (hparse : Manifest.parse text = .ok m) :
    OnBytes p b (manifestOf p e) (.ok m) := by
  have hstart := onBytes_openEntry (p := p) (b := b) e
  rw [hopen] at hstart
  have hmanifest : OnBytes p b (ofExcept ((Manifest.parse text).mapError ToolError.manifest)) (.ok m) := by
    rw [hparse]
    exact onBytes_ofExcept _
  exact OnBytes.bind hstart (OnBytes.bind (onBytes_entryText hdata htext) hmanifest)

theorem mapError_eq_ok {ε ε' α : Type} {f : ε → ε'} {r : Except ε α} {x : α} (h : r.mapError f = .ok x) :
    r = .ok x := by
  cases r with
  | error e => cases h
  | ok y => cases h; rfl

theorem readOnly_currentBytes (p : Path) : ReadOnly (currentBytes p : Act ε ByteArray) := by
  unfold currentBytes
  refine readOnly_bind readOnly_disk fun d => ?_
  split <;> exact readOnly_pure _

theorem readOnly_manifestOf (p : Path) (e : Entry) : ReadOnly (manifestOf p e) := by
  have hentry : ∀ start, ReadOnly (entryText p e start) := fun start =>
    readOnly_bind (readOnly_bind (readOnly_currentBytes p) fun _ => readOnly_ofExcept _) fun data => by
      split
      · exact readOnly_pure _
      · exact readOnly_throw _
  exact readOnly_bind (readOnly_bind (readOnly_currentBytes p) fun _ => readOnly_ofExcept _) fun start =>
    readOnly_bind (hentry start) fun _ => readOnly_ofExcept _

/-- A manifest read in a world where the file holds `b`: its entry opened, decoded to UTF-8
text and parsed. -/
theorem manifestOf_runOn_eq_ok {e : Entry} {m : Manifest} {W W' : World} (hW : W.disk.read p = .ok b)
    (h : (manifestOf p e).runOn W = (.ok m, W')) :
    ∃ start data text, e.openData b = .ok start ∧ e.contents b start = .ok data ∧
      String.fromUTF8? data = some text ∧ Manifest.parse text = .ok m := by
  obtain ⟨start, W₁, hopen, h₁⟩ := runOn_bind_eq_ok h
  obtain ⟨hstart, hW₁⟩ := (onBytes_openEntry e).eq hW hopen
  rw [hW₁] at h₁
  obtain ⟨text, W₂, htext, h₂⟩ := runOn_bind_eq_ok h₁
  obtain ⟨data, W₃, hcontents, hdecode⟩ := runOn_bind_eq_ok htext
  obtain ⟨hdata, hW₃⟩ := (onBytes_entryContents e start).eq hW hcontents
  -- the text is what decoding the data gave, or reading would have failed
  have htext' : String.fromUTF8? data = some text := by
    revert hdecode
    cases String.fromUTF8? data with
    | none => intro h; cases h
    | some t => intro h; cases h; rfl
  rw [runOn_ofExcept, Prod.mk.injEq] at h₂
  exact ⟨start, data, text, mapError_eq_ok hstart.symm, mapError_eq_ok hdata.symm, htext',
    mapError_eq_ok h₂.1⟩

/-! ## Entries by name -/

theorem byName_of_not_mem {a : Archive} {n : String} (h : n ∉ a.names) : a.byName n = .error .fileNotFound := by
  have hnone : a.entries.find? (·.name == n) = none := by
    rw [List.find?_eq_none]
    intro e he hname
    exact h (List.mem_map.2 ⟨e, he, by simpa using hname⟩)
  simp [Archive.byName, hnone]

theorem byName_eq_ok {a : Archive} {n : String} {e : Entry} (h : a.byName n = .ok e) :
    e ∈ a.entries ∧ e.name = n := by
  unfold Archive.byName at h
  split at h
  · rename_i e' hfind
    cases h
    exact ⟨List.mem_of_find?_eq_some hfind, by simpa using List.find?_some hfind⟩
  · cases h

theorem byName_of_mem {a : Archive} {n : String} (h : n ∈ a.names) : ∃ e, a.byName n = .ok e := by
  unfold Archive.byName
  cases hfind : a.entries.find? (·.name == n) with
  | some e => exact ⟨e, rfl⟩
  | none =>
    obtain ⟨e, he, rfl⟩ := List.mem_map.1 h
    exact absurd (List.find?_eq_none.1 hfind e he) (by simp)

/-! ## The manifest and the signature -/

/-- A jar with no manifest entry has no manifest. -/
theorem onBytes_readManifest_none {a : Archive} (ha : Archive.read b = .ok a) (h : manifestEntry ∉ a.names) :
    OnBytes p b (readManifest p) (.ok none) := by
  have hopen := onBytes_openArchive (p := p) (b := b)
  rw [ha] at hopen
  unfold readManifest
  refine OnBytes.bind hopen ?_
  simp only [byName_of_not_mem h]
  exact onBytes_pure none

/-- A jar's manifest is what its manifest entry reads as. -/
theorem onBytes_readManifest_some {a : Archive} {e : Entry} {m : Manifest} (ha : Archive.read b = .ok a)
    (hby : a.byName manifestEntry = .ok e) (hm : OnBytes p b (manifestOf p e) (.ok m)) :
    OnBytes p b (readManifest p) (.ok (some m)) := by
  have hopen := onBytes_openArchive (p := p) (b := b)
  rw [ha] at hopen
  unfold readManifest
  refine OnBytes.bind hopen ?_
  simp only [hby]
  exact OnBytes.bind hm (onBytes_pure _)

/-- A manifest read in a world where the file holds a readable archive: none when the archive
has no manifest entry, and otherwise what its manifest entry reads as. -/
theorem readManifest_runOn_eq_ok {a : Archive} {mo : Option Manifest} {W W' : World}
    (hW : W.disk.read p = .ok b) (ha : Archive.read b = .ok a) (h : (readManifest p).runOn W = (.ok mo, W')) :
    (manifestEntry ∉ a.names ∧ mo = none) ∨
      ∃ e m, a.byName manifestEntry = .ok e ∧ mo = some m ∧ (manifestOf p e).runOn W = (.ok m, W) := by
  obtain ⟨a', W₁, hopen, h₁⟩ := runOn_bind_eq_ok h
  obtain ⟨ha', hW₁⟩ := (onBytes_openArchive (p := p) (b := b)).eq hW hopen
  rw [ha] at ha'
  cases ha'
  rw [hW₁] at h₁
  by_cases hmem : manifestEntry ∈ a.names
  · obtain ⟨e, hby⟩ := byName_of_mem hmem
    simp only [hby] at h₁
    obtain ⟨m, W₂, hm, h₂⟩ := runOn_bind_eq_ok h₁
    have hW₂ := readOnly_manifestOf p e W _ _ hm
    rw [hW₂] at hm
    cases h₂
    exact .inr ⟨e, m, hby, rfl, hm⟩
  · simp only [byName_of_not_mem hmem] at h₁
    cases h₁
    exact .inl ⟨hmem, rfl⟩

/-- A jar is signed when one of its entries is a signature entry. -/
theorem onBytes_isSigned {a : Archive} (ha : Archive.read b = .ok a) :
    OnBytes p b (isSigned p) (.ok (a.names.any isSignatureEntry)) := by
  have hopen := onBytes_openArchive (p := p) (b := b)
  rw [ha] at hopen
  exact OnBytes.bind hopen (onBytes_pure _)

/-! ## The manifest of a finished archive -/

variable {ps : List (Entry × ByteArray)}

/-- A finished archive with no manifest piece has no manifest. -/
theorem onBytes_readManifest_finish_none (hw : (Writer.ofPieces ps).Fits)
    (h : manifestEntry ∉ ps.map (·.1.name)) :
    OnBytes p (Writer.ofPieces ps).finish (readManifest p) (.ok none) := by
  refine onBytes_readManifest_none (Writer.read_finish _ hw) ?_
  rw [Archive.names, ofPieces_central, placed_names]
  exact h

/-- The manifest of a finished archive is what its manifest piece decodes to. -/
theorem onBytes_readManifest_finish {m : Manifest} (hw : (Writer.ofPieces ps).Fits)
    (hmem : manifestEntry ∈ ps.map (·.1.name))
    (hq : ∀ q ∈ ps, q.1.name = manifestEntry → q.2.size = q.1.compressedSize ∧
      (q.1.method = 0 ∨ q.1.method = 8) ∧
      ∃ data text, q.1.contents q.2 0 = .ok data ∧ String.fromUTF8? data = some text ∧
        Manifest.parse text = .ok m) :
    OnBytes p (Writer.ofPieces ps).finish (readManifest p) (.ok (some m)) := by
  have hread := Writer.read_finish _ hw
  have hnames : manifestEntry ∈ (⟨(Writer.ofPieces ps).central⟩ : Archive).names := by
    rw [Archive.names, ofPieces_central, placed_names]
    exact hmem
  obtain ⟨c, hby⟩ := byName_of_mem hnames
  obtain ⟨hc, hname⟩ := byName_eq_ok hby
  obtain ⟨q, hqmem, hcq, hopen, hdata⟩ := Writer.entry_finish hw hc
  -- the entry found is the placed manifest piece
  have hqname : q.1.name = manifestEntry := by rw [← hname, hcq]
  obtain ⟨hsize, hmethod, data, text, hcontents, htext, hparse⟩ := hq q hqmem hqname
  have hmethod' : c.method = 0 ∨ c.method = 8 := by rw [hcq]; exact hmethod
  refine onBytes_readManifest_some hread hby (onBytes_manifestOf (hopen hmethod') ?_ htext hparse)
  rw [(hdata hsize).2, hcontents]

end Jar

end JarDeploy
