import JarDeploy.Proofs.Decoding

/-!
# A finished archive reads back as written

A writer lays out local headers and stored bytes, then the central directory and the end
record. Reading the finished bytes finds that end record (every later candidate is too close to
the end to hold one), the directory right where it says, and every central record as the
entry that was written, provided each field fits its width: sizes and offsets below 2³², the
other numbers below 2¹⁶, a method other than the AES marker 99, no AES flag, and the name flags
the writer sets. Each entry's local header then leads to the stored bytes that were appended
with it (`Writer.read_finish`, `Writer.rawData_finish`).

Bytes are reasoned about as the lists under the byte arrays: a number is read from a
stretch of the list (`number_at`), and little-endian bytes spell the number they encode
(`leValue_littleEndian`).
-/

namespace JarDeploy.Zip

set_option autoImplicit false

/-! ## Bytes as lists -/

/-- The number little-endian bytes spell. -/
def leValue : List UInt8 → Nat
  | [] => 0
  | x :: xs => leValue xs * 256 + x.toNat

theorem size_eq_length (b : ByteArray) : b.size = b.data.toList.length := by
  simp

/-- Reading a number is reading the bytes from its position on, little end first. -/
theorem number_eq (b : ByteArray) (p w : Nat) :
    number b p w = if p + w ≤ b.size then some (leValue ((b.data.toList.drop p).take w)) else none := by
  unfold number
  split
  · rename_i hle
    congr 1
    induction w generalizing p with
    | zero => simp [leValue]
    | succ w ih =>
      have hp : p < b.data.toList.length := by simp; omega
      rw [List.range_succ_eq_map, List.foldr_cons, List.foldr_map, List.drop_eq_getElem_cons hp,
        List.take_succ_cons, leValue]
      have hrest := ih (p + 1) (by omega)
      simp only [Nat.add_assoc, Nat.add_comm 1] at hrest
      simp only [Nat.succ_eq_add_one, Nat.add_zero, get!_eq_toList hp, hrest]
  · rfl

/-- A number read inside a known stretch of the bytes. -/
theorem number_at {b : ByteArray} {pre mid post : List UInt8} (h : b.data.toList = pre ++ mid ++ post)
    {k w : Nat} (hk : k + w ≤ mid.length) :
    number b (pre.length + k) w = some (leValue ((mid.drop k).take w)) := by
  have hsize : b.size = pre.length + mid.length + post.length := by
    rw [size_eq_length, h]
    simp [Nat.add_assoc]
  have hdrop : (pre ++ mid ++ post).drop (pre.length + k) = mid.drop k ++ post := by
    rw [List.append_assoc, List.drop_append, List.drop_eq_nil_of_le (by omega), List.nil_append,
      Nat.add_sub_cancel_left, List.drop_append_of_le_length (by omega)]
  rw [number_eq, if_pos (show pre.length + k + w ≤ b.size by omega), h, hdrop,
    List.take_append_of_le_length (by simp; omega)]

/-- The bytes cut out of a known stretch. -/
theorem extract_at {b : ByteArray} {pre mid post : List UInt8} (h : b.data.toList = pre ++ mid ++ post) :
    (b.extract pre.length (pre.length + mid.length)).data.toList = mid := by
  rw [ByteArray.data_extract, Array.toList_extract, h, List.extract_eq_take_drop, List.append_assoc,
    List.drop_append,
    List.drop_eq_nil_of_le (by omega), List.nil_append, Nat.sub_self, List.drop_zero,
    Nat.add_sub_cancel_left, List.take_append_of_le_length (by omega), List.take_length]

/-- Byte strings appended one after another by a fold. -/
theorem foldl_append_toList {α : Type} (l : List α) (g : α → ByteArray) (acc : ByteArray) :
    (l.foldl (fun acc a => acc ++ g a) acc).data.toList = acc.data.toList ++ l.flatMap fun a => (g a).data.toList := by
  induction l generalizing acc with
  | nil => simp
  | cons a l ih => simp [ih]

@[simp] theorem littleEndian_toList (n w : Nat) :
    (littleEndian n w).data.toList = (List.range w).map fun i => UInt8.ofNat (n >>> (8 * i)) := by
  simp [littleEndian]

/-- Little-endian bytes spell the number modulo the width's power of 256. -/
@[simp] theorem leValue_littleEndian (n w : Nat) :
    leValue ((List.range w).map fun i => UInt8.ofNat (n >>> (8 * i))) = n % Nat.pow 256 w := by
  induction w generalizing n with
  | zero => simp [leValue, Nat.mod_one]
  | succ w ih =>
    -- the bytes after the first are those of the number shifted by a byte
    have hmap : ((fun i => UInt8.ofNat (n >>> (8 * i))) ∘ Nat.succ) =
        fun i => UInt8.ofNat ((n >>> 8) >>> (8 * i)) := by
      funext i
      simp only [Function.comp_apply, Nat.succ_eq_add_one, Nat.mul_add, Nat.mul_one, Nat.add_comm _ 8,
        Nat.shiftRight_add]
    rw [List.range_succ_eq_map, List.map_cons, List.map_map, leValue, hmap, ih]
    have hpow : Nat.pow 256 (w + 1) = 256 * Nat.pow 256 w := Nat.mul_comm _ _
    have hlow : (UInt8.ofNat (n >>> (8 * 0))).toNat = n % 256 := by simp
    have hdiv : n >>> 8 = n / 256 := by simp [Nat.shiftRight_eq_div_pow]
    rw [hpow, hlow, hdiv, Nat.mod_mul]
    omega

/-- The bytes of little-endian fields, each a value and its width. -/
def fieldBytes (fs : List (Nat × Nat)) : List UInt8 :=
  fs.flatMap fun f => (littleEndian f.1 f.2).data.toList

@[simp] theorem fieldBytes_nil : fieldBytes [] = [] := rfl

theorem fieldBytes_append (fs gs : List (Nat × Nat)) :
    fieldBytes (fs ++ gs) = fieldBytes fs ++ fieldBytes gs := by
  simp [fieldBytes]

/-- The number of bytes fields take. -/
@[simp] def fieldsWidth : List (Nat × Nat) → Nat
  | [] => 0
  | f :: fs => f.2 + fieldsWidth fs

theorem length_fieldBytes (fs : List (Nat × Nat)) : (fieldBytes fs).length = fieldsWidth fs := by
  induction fs with
  | nil => rfl
  | cons f fs ih =>
    simp only [fieldBytes, List.flatMap_cons, List.length_append, littleEndian_toList, List.length_map,
      List.length_range, fieldsWidth] at ih ⊢
    rw [ih]

/-- The field `j` of a run of fields reads as its value, when the value fits its width. -/
theorem number_fields {b : ByteArray} {pre post : List UInt8} {fs : List (Nat × Nat)}
    (h : b.data.toList = pre ++ fieldBytes fs ++ post) (j : Nat) {at_ v w : Nat}
    (hj : fs[j]? = some (v, w)) (hat : pre.length + fieldsWidth (fs.take j) = at_)
    (hfit : v < Nat.pow 256 w) :
    number b at_ w = some v := by
  obtain ⟨hj, hget⟩ := List.getElem?_eq_some_iff.1 hj
  have hsplit : fs = fs.take j ++ (v, w) :: fs.drop (j + 1) := by
    rw [← hget, ← List.drop_eq_getElem_cons hj, List.take_append_drop]
  have hfs : fieldBytes fs = fieldBytes (fs.take j) ++ (littleEndian v w).data.toList
      ++ fieldBytes (fs.drop (j + 1)) := by
    calc fieldBytes fs = fieldBytes (fs.take j ++ (v, w) :: fs.drop (j + 1)) := by rw [← hsplit]
      _ = _ := by rw [fieldBytes_append]; simp only [fieldBytes, List.flatMap_cons, List.append_assoc]
  have h' : b.data.toList = (pre ++ fieldBytes (fs.take j)) ++ (littleEndian v w).data.toList
      ++ (fieldBytes (fs.drop (j + 1)) ++ post) := by
    rw [h, hfs]
    simp only [List.append_assoc]
  have hread := number_at h' (k := 0) (w := w) (by simp)
  rw [List.length_append, length_fieldBytes, hat, Nat.add_zero] at hread
  rw [hread, List.drop_zero, littleEndian_toList, List.take_of_length_le (by simp), leValue_littleEndian,
    Nat.mod_eq_of_lt hfit]

/-- A byte array cut out of a known stretch. -/
theorem extract_eq {b mid : ByteArray} {pre post : List UInt8}
    (h : b.data.toList = pre ++ mid.data.toList ++ post) :
    b.extract pre.length (pre.length + mid.size) = mid := by
  apply ByteArray.ext
  apply Array.toList_inj.mp
  rw [ByteArray.size, ← Array.length_toList]
  exact extract_at h

/-! ## Records -/

/-- The fixed part of a central record, field by field. -/
def centralFields (e : Entry) : List (Nat × Nat) :=
  [(centralSignature, 4), (e.versionMadeBy, 2), (e.versionNeeded, 2), (e.flags, 2), (e.method, 2),
    (e.time, 2), (e.date, 2), (e.crc.toNat, 4), (e.compressedSize, 4), (e.size, 4),
    (e.name.toUTF8.size, 2), (0, 2), (0, 2), (0, 2), (e.internalAttributes, 2),
    (e.externalAttributes, 4), (e.headerOffset, 4)]

theorem centralRecord_toList (e : Entry) :
    (Writer.centralRecord e).data.toList = fieldBytes (centralFields e) ++ e.name.toUTF8.data.toList := by
  unfold Writer.centralRecord
  simp only [ByteArray.data_append, Array.toList_append, centralFields, fieldBytes, List.flatMap_cons,
    List.flatMap_nil, List.append_nil, List.append_assoc]

/-- The fixed part of a local header, field by field. -/
def localFields (e : Entry) (rawName : ByteArray) : List (Nat × Nat) :=
  [(localSignature, 4), (e.versionNeeded, 2), (e.flags, 2), (e.method, 2), (e.time, 2), (e.date, 2),
    (e.crc.toNat, 4), (e.compressedSize, 4), (e.size, 4), (rawName.size, 2), (0, 2)]

theorem localHeader_toList (e : Entry) (rawName : ByteArray) :
    (Writer.localHeader e rawName).data.toList = fieldBytes (localFields e rawName) ++ rawName.data.toList := by
  unfold Writer.localHeader
  simp only [ByteArray.data_append, Array.toList_append, localFields, fieldBytes, List.flatMap_cons,
    List.flatMap_nil, List.append_nil, List.append_assoc]

/-! ## Entries that fit their records -/

/-- An entry its records can hold: every number fits its field, the flags are the ones a
writer sets for the name, and nothing marks it as encrypted with AES. -/
structure Entry.Fits (e : Entry) : Prop where
  versionMadeBy : e.versionMadeBy < 65536
  versionNeeded : e.versionNeeded < 65536
  flags : e.flags = Writer.nameFlags e.name
  method : e.method < 65536
  notAes : e.method ≠ 99
  time : e.time < 65536
  date : e.date < 65536
  compressedSize : e.compressedSize < 4294967296
  size : e.size < 4294967296
  name : e.name.toUTF8.size < 65536
  internalAttributes : e.internalAttributes < 65536
  externalAttributes : e.externalAttributes < 4294967296
  headerOffset : e.headerOffset < 4294967296
  aes : e.aes = false

instance (e : Entry) : Decidable e.Fits :=
  decidable_of_iff (e.versionMadeBy < 65536 ∧ e.versionNeeded < 65536 ∧ e.flags = Writer.nameFlags e.name ∧
      e.method < 65536 ∧ e.method ≠ 99 ∧ e.time < 65536 ∧ e.date < 65536 ∧ e.compressedSize < 4294967296 ∧
      e.size < 4294967296 ∧ e.name.toUTF8.size < 65536 ∧ e.internalAttributes < 65536 ∧
      e.externalAttributes < 4294967296 ∧ e.headerOffset < 4294967296 ∧ e.aes = false)
    ⟨fun ⟨h₁, h₂, h₃, h₄, h₅, h₆, h₇, h₈, h₉, h₁₀, h₁₁, h₁₂, h₁₃, h₁₄⟩ =>
      ⟨h₁, h₂, h₃, h₄, h₅, h₆, h₇, h₈, h₉, h₁₀, h₁₁, h₁₂, h₁₃, h₁₄⟩,
     fun h => ⟨h.1, h.2, h.3, h.4, h.5, h.6, h.7, h.8, h.9, h.10, h.11, h.12, h.13, h.14⟩⟩

theorem nameFlags_lt (name : String) : Writer.nameFlags name < 65536 := by
  unfold Writer.nameFlags
  split <;> decide

/-- Extra data that is used up holds no more fields. -/
theorem readFields_past {ex : ByteArray} {fuel pos : Nat} (d : Draft) (h : ex.size ≤ pos) :
    readFields ex fuel d pos = some d := by
  cases fuel <;> simp [readFields, h]

/-- A central record that fits reads back as its entry, and the next record starts right
after it. -/
theorem readCentral_record {b : ByteArray} {pre post : List UInt8} {e : Entry} (he : e.Fits)
    (h : b.data.toList = pre ++ (Writer.centralRecord e).data.toList ++ post) :
    readCentral b 0 pre.length = some (e, pre.length + 46 + e.name.toUTF8.size) := by
  have hf : b.data.toList = pre ++ fieldBytes (centralFields e) ++ (e.name.toUTF8.data.toList ++ post) := by
    rw [h, centralRecord_toList]
    simp only [List.append_assoc]
  have h46 : fieldsWidth (centralFields e) = 46 := by simp [centralFields]
  have hsize : b.size = pre.length + 46 + e.name.toUTF8.size + post.length := by
    rw [size_eq_length, hf]
    simp only [List.length_append, length_fieldBytes, h46, size_eq_length]
    omega
  have rsig : number b pre.length 4 = some centralSignature :=
    number_fields hf 0 (by simp [centralFields]) (by simp [centralFields]) (show centralSignature < Nat.pow 256 4 by decide)
  have r4 : number b (pre.length + 4) 2 = some e.versionMadeBy := number_fields hf 1 (by simp [centralFields]) (by simp [centralFields]) he.versionMadeBy
  have r6 : number b (pre.length + 6) 2 = some e.versionNeeded := number_fields hf 2 (by simp [centralFields]) (by simp [centralFields]) he.versionNeeded
  have r8 : number b (pre.length + 8) 2 = some e.flags :=
    number_fields hf 3 (by simp [centralFields]) (by simp [centralFields]) (he.flags ▸ nameFlags_lt e.name)
  have r10 : number b (pre.length + 10) 2 = some e.method := number_fields hf 4 (by simp [centralFields]) (by simp [centralFields]) he.method
  have r12 : number b (pre.length + 12) 2 = some e.time := number_fields hf 5 (by simp [centralFields]) (by simp [centralFields]) he.time
  have r14 : number b (pre.length + 14) 2 = some e.date := number_fields hf 6 (by simp [centralFields]) (by simp [centralFields]) he.date
  have r16 : number b (pre.length + 16) 4 = some e.crc.toNat := number_fields hf 7 (by simp [centralFields]) (by simp [centralFields]) e.crc.toNat_lt
  have r20 : number b (pre.length + 20) 4 = some e.compressedSize :=
    number_fields hf 8 (by simp [centralFields]) (by simp [centralFields]) he.compressedSize
  have r24 : number b (pre.length + 24) 4 = some e.size := number_fields hf 9 (by simp [centralFields]) (by simp [centralFields]) he.size
  have r28 : number b (pre.length + 28) 2 = some e.name.toUTF8.size := number_fields hf 10 (by simp [centralFields]) (by simp [centralFields]) he.name
  have r30 : number b (pre.length + 30) 2 = some 0 := number_fields hf 11 (by simp [centralFields]) (by simp [centralFields]) (show 0 < Nat.pow 256 2 by decide)
  have r32 : number b (pre.length + 32) 2 = some 0 := number_fields hf 12 (by simp [centralFields]) (by simp [centralFields]) (show 0 < Nat.pow 256 2 by decide)
  have r36 : number b (pre.length + 36) 2 = some e.internalAttributes :=
    number_fields hf 14 (by simp [centralFields]) (by simp [centralFields]) he.internalAttributes
  have r38 : number b (pre.length + 38) 4 = some e.externalAttributes :=
    number_fields hf 15 (by simp [centralFields]) (by simp [centralFields]) he.externalAttributes
  have r42 : number b (pre.length + 42) 4 = some e.headerOffset := number_fields hf 16 (by simp [centralFields]) (by simp [centralFields]) he.headerOffset
  have hname : b.extract (pre.length + 46) (pre.length + 46 + e.name.toUTF8.size) = e.name.toUTF8 := by
    have := @extract_eq b e.name.toUTF8 (pre ++ fieldBytes (centralFields e)) post
      (by rw [hf]; simp only [List.append_assoc])
    rw [List.length_append, length_fieldBytes, h46] at this
    exact this
  unfold readCentral
  simp only [hasSignature, rsig, r4, r6, r8, r10, r12, r14, r16, r20, r24, r28, r30, r32, r36, r38, r42,
    Option.getD_some, hname]
  have hcrc : e.crc.toNat.toUInt32 = e.crc := UInt32.ofNat_toNat
  rw [if_neg (by simp; omega), if_neg (by omega)]
  simp only [Nat.add_zero]
  rw [readFields_past _ (by simp)]
  simp only [he.notAes, decide_false, Bool.false_and, Bool.false_eq_true, if_false, hcrc]
  have hdecoded : decodeText e.name.toUTF8 (decide ((e.flags >>> 11) % 2 = 1)) = e.name := by
    rw [he.flags]
    exact decodeText_nameFlags e.name
  rw [hdecoded, ← he.aes]

/-! ## The directory -/

/-- The central records of entries, one after another. -/
def directory (cs : List Entry) : List UInt8 :=
  cs.flatMap fun e => (Writer.centralRecord e).data.toList

theorem length_centralRecord (e : Entry) :
    (Writer.centralRecord e).data.toList.length = 46 + e.name.toUTF8.size := by
  have h46 : fieldsWidth (centralFields e) = 46 := by simp [centralFields]
  rw [centralRecord_toList, List.length_append, length_fieldBytes, h46, size_eq_length]

theorem directory_cons (e : Entry) (cs : List Entry) :
    directory (e :: cs) = (Writer.centralRecord e).data.toList ++ directory cs := by
  simp [directory]

theorem foldl_centralRecord (cs : List Entry) (acc : ByteArray) :
    (cs.foldl (fun acc e => acc ++ Writer.centralRecord e) acc).data.toList =
      acc.data.toList ++ directory cs :=
  foldl_append_toList cs _ acc

/-- Adding an entry whose name is new puts it last. -/
theorem insertEntry_fresh {es : List Entry} {e : Entry} (h : e.name ∉ es.map (·.name)) :
    insertEntry es e = es ++ [e] := by
  unfold insertEntry
  rw [if_neg]
  simpa using fun x hx hname => h (List.mem_map.2 ⟨x, hx, hname⟩)

/-- The records of a directory read one after another, each entry joining those read before
it. The loop runs once per record; what it runs over is not looked at. -/
theorem foldlM_records {b : ByteArray} {pre post : List UInt8}
    {f : List Entry × Nat → Nat → Option (List Entry × Nat)}
    (hf : ∀ es pos x, f (es, pos) x = (readCentral b 0 pos).bind fun r => some (insertEntry es r.1, r.2))
    (cs done : List Entry) (xs : List Nat) (hxs : xs.length = cs.length) (hfits : ∀ e ∈ cs, e.Fits)
    (hnames : ((done ++ cs).map (·.name)).Nodup) (h : b.data.toList = pre ++ directory cs ++ post) :
    xs.foldlM f (done, pre.length) = some (done ++ cs, pre.length + (directory cs).length) := by
  induction cs generalizing xs pre done with
  | nil =>
    rw [List.length_nil, List.length_eq_zero_iff] at hxs
    simp [hxs, directory]
  | cons e cs ih =>
    obtain ⟨x, xs, rfl⟩ := List.exists_cons_of_length_eq_add_one hxs
    have hfresh : e.name ∉ done.map (·.name) := fun hmem =>
      (List.nodup_append.1 (List.map_append ▸ hnames)).2.2 _ hmem _
        (List.mem_map_of_mem (List.mem_cons_self ..)) rfl
    have hread := @readCentral_record b pre (directory cs ++ post) e (hfits e (List.mem_cons_self ..))
      (by rw [h, directory_cons]; simp)
    have hrest := @ih (pre ++ (Writer.centralRecord e).data.toList) (done ++ [e]) xs
      (by simpa using hxs) (fun e' he' => hfits e' (List.mem_cons_of_mem _ he'))
      (by simpa using hnames) (by rw [h, directory_cons]; simp)
    simp only [List.length_append, length_centralRecord] at hrest
    rw [List.foldlM_cons, hf, hread, Option.bind_some, insertEntry_fresh hfresh]
    show List.foldlM f (done ++ [e], pre.length + 46 + e.name.toUTF8.size) xs = _
    rw [Nat.add_assoc, hrest, directory_cons, List.length_append, length_centralRecord, List.append_assoc,
      List.singleton_append, Nat.add_assoc]

/-! ## The end record -/

/-- The end record of a directory of `count` records and `size` bytes that starts at
`offset`, field by field. -/
def endFields (count size offset : Nat) : List (Nat × Nat) :=
  [(endSignature, 4), (0, 2), (0, 2), (count, 2), (count, 2), (size, 4), (offset, 4), (0, 2)]

/-- A finished archive: the entries as written, the directory, and the end record. -/
theorem finish_toList (w : Writer) :
    w.finish.data.toList = w.out.data.toList ++ directory w.central ++
      fieldBytes (endFields w.central.length (directory w.central).length w.out.size) := by
  have hzero : (littleEndian 0 4).data.toList = (littleEndian 0 2).data.toList ++ (littleEndian 0 2).data.toList := by
    decide
  unfold Writer.finish
  simp only [ByteArray.data_append, Array.toList_append, foldl_centralRecord, size_eq_length, hzero, endFields,
    fieldBytes, List.flatMap_cons, List.flatMap_nil, List.append_nil, List.append_assoc]
  simp

theorem size_finish (w : Writer) : w.finish.size = w.out.size + (directory w.central).length + 22 := by
  have h22 : fieldsWidth (endFields w.central.length (directory w.central).length w.out.size) = 22 := by
    simp [endFields]
  rw [size_eq_length, finish_toList, List.length_append, List.length_append, length_fieldBytes, h22,
    size_eq_length]

/-- The end record a writer's archive carries. -/
def endRecordOf (w : Writer) : EndRecord :=
  { at_ := w.out.size + (directory w.central).length, disk := 0, directoryDisk := 0,
    entriesHere := w.central.length, entries := w.central.length, directoryOffset := w.out.size }

/-- A candidate too close to the end of the file holds no end record. -/
theorem readEnd_past {b : ByteArray} {c : Nat} (h : b.size < c + 22) : readEnd b c = .error (.io endOfFile) := by
  unfold readEnd
  rw [if_pos h]
  rfl

/-- The end record of a finished archive reads back. -/
theorem readEnd_finish (w : Writer) (hcount : w.central.length < 65536) (hout : w.out.size < 4294967296) :
    readEnd w.finish (w.out.size + (directory w.central).length) = .ok (endRecordOf w) := by
  have h := finish_toList w
  rw [← List.append_nil (_ ++ fieldBytes _)] at h
  have hpre : (w.out.data.toList ++ directory w.central).length = w.out.size + (directory w.central).length := by
    rw [List.length_append, size_eq_length]
  have r4 : number w.finish (w.out.size + (directory w.central).length + 4) 2 = some 0 :=
    number_fields h 1 (by simp [endFields]) (by simp [endFields, hpre]) (show 0 < Nat.pow 256 2 by decide)
  have r6 : number w.finish (w.out.size + (directory w.central).length + 6) 2 = some 0 :=
    number_fields h 2 (by simp [endFields]) (by simp [endFields, hpre]) (show 0 < Nat.pow 256 2 by decide)
  have r8 : number w.finish (w.out.size + (directory w.central).length + 8) 2 = some w.central.length :=
    number_fields h 3 (by simp [endFields]) (by simp [endFields, hpre]) hcount
  have r10 : number w.finish (w.out.size + (directory w.central).length + 10) 2 = some w.central.length :=
    number_fields h 4 (by simp [endFields]) (by simp [endFields, hpre]) hcount
  have r16 : number w.finish (w.out.size + (directory w.central).length + 16) 4 = some w.out.size :=
    number_fields h 6 (by simp [endFields]) (by simp [endFields, hpre]) hout
  have r20 : number w.finish (w.out.size + (directory w.central).length + 20) 2 = some 0 :=
    number_fields h 7 (by simp [endFields]) (by simp [endFields, hpre]) (show 0 < Nat.pow 256 2 by decide)
  unfold readEnd
  simp only [size_finish, r4, r6, r8, r10, r16, r20, Option.getD_some]
  simp [endRecordOf, pure, Except.pure]

/-! ## Finding the directory -/

/-- The end signatures a search from the end of a finished archive meets: its own end record,
after some that stand too close to the end to hold one. -/
theorem endCandidates_finish (w : Writer) :
    ∃ later earlier, endCandidates w.finish w.finish.size =
      later ++ (w.out.size + (directory w.central).length) :: earlier ∧
      ∀ c ∈ later, w.finish.size < c + 22 := by
  have h := finish_toList w
  rw [← List.append_nil (_ ++ fieldBytes _)] at h
  obtain ⟨E, hE⟩ : ∃ E, E = w.out.size + (directory w.central).length := ⟨_, rfl⟩
  rw [← hE]
  have hpre : (w.out.data.toList ++ directory w.central).length = E := by
    rw [List.length_append, ← size_eq_length, hE]
  have hsig : hasSignature w.finish E endSignature = true := by
    have r0 : number w.finish E 4 = some endSignature :=
      number_fields h 0 (by simp [endFields]) (by simp [endFields, hpre])
        (show endSignature < Nat.pow 256 4 by decide)
    rw [hasSignature, r0]
    exact beq_self_eq_true _
  have hrange : List.range (w.finish.size + 1 - 4) = List.range E ++ [E] ++ (List.range 18).map (E + 1 + ·) := by
    rw [size_finish, ← hE, show E + 22 + 1 - 4 = (E + 1) + 18 by omega, List.range_add, List.range_succ]
  refine ⟨(((List.range 18).map (E + 1 + ·)).filter fun i => hasSignature w.finish i endSignature).reverse,
    ((List.range E).filter fun i => hasSignature w.finish i endSignature).reverse, ?_, ?_⟩
  · unfold endCandidates
    rw [hrange, List.filter_append, List.filter_append, List.filter_cons_of_pos (p := fun i => hasSignature w.finish i endSignature) hsig, List.filter_nil]
    simp
  · intro c hc
    simp only [List.mem_reverse, List.mem_filter, List.mem_map, List.mem_range] at hc
    obtain ⟨⟨i, hi, rfl⟩, -⟩ := hc
    rw [size_finish]
    omega

/-- Candidates that cannot hold an end record are passed over. -/
theorem locate_go_skip (b : ByteArray) (later rest : List Nat) (h : ∀ c ∈ later, b.size < c + 22)
    (problem : Option ZipError) :
    ∃ problem', locate.go b problem (later ++ rest) = locate.go b problem' rest := by
  induction later generalizing problem with
  | nil => exact ⟨problem, rfl⟩
  | cons c later ih =>
    obtain ⟨problem', h'⟩ := ih (fun c' hc' => h c' (List.mem_cons_of_mem _ hc'))
      (problem.orElse fun _ => some (.io endOfFile))
    refine ⟨problem', ?_⟩
    rw [List.cons_append, locate.go, readEnd_past (h c (List.mem_cons_self ..))]
    exact h'

/-- The directory search stops at the first central signature. -/
theorem firstCentral_at {b : ByteArray} {lo hi : Nat} (hlt : lo + 4 ≤ hi)
    (hsig : hasSignature b lo centralSignature = true) : firstCentral b lo hi = some lo := by
  unfold firstCentral
  rw [show hi + 1 - 4 - lo = (hi + 1 - 4 - lo - 1) + 1 by omega, List.range'_succ, List.find?_cons_of_pos]
  exact hsig

/-- A central record begins with its signature. -/
theorem hasSignature_record {b : ByteArray} {pre post : List UInt8} {e : Entry}
    (h : b.data.toList = pre ++ (Writer.centralRecord e).data.toList ++ post) :
    hasSignature b pre.length centralSignature = true := by
  have hf : b.data.toList = pre ++ fieldBytes (centralFields e) ++ (e.name.toUTF8.data.toList ++ post) := by
    rw [h, centralRecord_toList]
    simp only [List.append_assoc]
  have r0 : number b pre.length 4 = some centralSignature :=
    number_fields hf 0 (by simp [centralFields]) (by simp [centralFields])
      (show centralSignature < Nat.pow 256 4 by decide)
  rw [hasSignature, r0]
  exact beq_self_eq_true _

/-! ## Reading a finished archive -/

/-- A writer whose archive its reader takes back: every entry fits its records, the names
are distinct, the entries can be counted in two bytes and the directory starts below 4 GiB. -/
structure Writer.Fits (w : Writer) : Prop where
  entries : ∀ e ∈ w.central, e.Fits
  names : (w.central.map (·.name)).Nodup
  count : w.central.length < 65536
  out : w.out.size < 4294967296

instance (w : Writer) : Decidable w.Fits :=
  decidable_of_iff ((∀ e ∈ w.central, e.Fits) ∧ (w.central.map (·.name)).Nodup ∧ w.central.length < 65536 ∧
      w.out.size < 4294967296)
    ⟨fun ⟨h₁, h₂, h₃, h₄⟩ => ⟨h₁, h₂, h₃, h₄⟩, fun h => ⟨h.1, h.2, h.3, h.4⟩⟩

/-- Searching a finished archive from its end finds its end record, and the directory where
the record says it is. -/
theorem locate_finish (w : Writer) (hw : w.Fits) :
    locate w.finish w.finish.size = .ok ⟨endRecordOf w, 0⟩ := by
  obtain ⟨later, earlier, hcand, hlater⟩ := endCandidates_finish w
  obtain ⟨problem, hskip⟩ := locate_go_skip w.finish later _ hlater none
  unfold locate
  rw [hcand, hskip, locate.go, readEnd_finish w hw.count hw.out]
  dsimp only
  by_cases hnil : w.central = []
  · -- no records: the directory is empty and starts at the end record
    rw [if_pos (show (endRecordOf w).entries = 0 by simp [endRecordOf, hnil])]
    have hshift : w.out.size + (directory w.central).length - (endRecordOf w).directoryOffset = 0 := by
      simp [endRecordOf, hnil, directory]
    rw [hshift]
  obtain ⟨e, cs, hc⟩ := List.exists_cons_of_ne_nil hnil
  -- the first record starts where the end record says the directory does
  obtain ⟨post, h⟩ : ∃ post, w.finish.data.toList =
      w.out.data.toList ++ (Writer.centralRecord e).data.toList ++ post := by
    refine ⟨?post, ?eq⟩
    case eq =>
      rw [finish_toList, hc, directory_cons]
      simp only [List.append_assoc]
      rfl
  have hsig : hasSignature w.finish (endRecordOf w).directoryOffset centralSignature = true := by
    have := hasSignature_record h
    rw [← size_eq_length] at this
    exact this
  have hlen : 46 ≤ (directory w.central).length := by
    rw [hc, directory_cons, List.length_append, length_centralRecord]
    omega
  rw [if_neg (show ¬(endRecordOf w).entries = 0 by simp [endRecordOf, hc]),
    if_neg (show ¬(endRecordOf w).directoryOffset ≥ w.out.size + (directory w.central).length by
      simp only [endRecordOf]; omega),
    firstCentral_at (by simp only [endRecordOf]; omega) hsig]
  dsimp only
  rw [Nat.sub_self]

/-- The directory of a finished archive reads as the writer's entries. -/
theorem readDirectory_finish (w : Writer) (hw : w.Fits) :
    readDirectory w.finish ⟨endRecordOf w, 0⟩ = some w.central := by
  have h := finish_toList w
  unfold readDirectory
  simp only [endRecordOf, ne_eq, not_true_eq_false, if_false, Nat.add_zero]
  rw [size_eq_length, foldlM_records (fun _ _ _ => rfl) w.central [] _ List.length_range hw.entries
    (by simpa using hw.names) h]
  rfl

/-- A finished archive whose entries fit reads back as the entries written, in order. -/
theorem Writer.read_finish (w : Writer) (hw : w.Fits) : Archive.read w.finish = .ok ⟨w.central⟩ := by
  unfold Archive.read
  rw [Archive.read.go, locate_finish w hw]
  simp only [bind, Except.bind]
  rw [readDirectory_finish w hw]

/-! ## Entry data -/

/-- The bytes an entry takes up before the directory: its local header, then its stored
bytes. -/
def pieceBytes (p : Entry × ByteArray) : List UInt8 :=
  (Writer.localHeader p.1 p.1.name.toUTF8).data.toList ++ p.2.data.toList

/-- The central records of entries laid out one after another from `at_`. -/
def placed : List (Entry × ByteArray) → Nat → List Entry
  | [], _ => []
  | p :: ps, at_ => { p.1 with headerOffset := at_ } :: placed ps (at_ + (pieceBytes p).length)

/-- The writer that appends entries with their stored bytes, in order, to an empty one. -/
def Writer.ofPieces (ps : List (Entry × ByteArray)) : Writer :=
  ps.foldl (fun w p => w.append p.1 p.2) Writer.empty

theorem append_out (w : Writer) (e : Entry) (stored : ByteArray) :
    (w.append e stored).out.data.toList = w.out.data.toList ++ pieceBytes (e, stored) := by
  simp [Writer.append, pieceBytes, Writer.localHeader]

theorem foldl_append_out (ps : List (Entry × ByteArray)) (w : Writer) :
    (ps.foldl (fun w p => w.append p.1 p.2) w).out.data.toList = w.out.data.toList ++ ps.flatMap pieceBytes := by
  induction ps generalizing w with
  | nil => simp
  | cons p ps ih => simp [ih, append_out]

theorem foldl_append_central (ps : List (Entry × ByteArray)) (w : Writer) :
    (ps.foldl (fun w p => w.append p.1 p.2) w).central = w.central ++ placed ps w.out.size := by
  induction ps generalizing w with
  | nil => simp [placed]
  | cons p ps ih =>
    have hsize : (w.append p.1 p.2).out.size = w.out.size + (pieceBytes p).length := by
      rw [size_eq_length, append_out, List.length_append, ← size_eq_length]
    rw [List.foldl_cons, ih, hsize]
    simp [Writer.append, placed]

@[simp] theorem ofPieces_out (ps : List (Entry × ByteArray)) :
    (Writer.ofPieces ps).out.data.toList = ps.flatMap pieceBytes := by
  simp [Writer.ofPieces, foldl_append_out, Writer.empty]

@[simp] theorem ofPieces_central (ps : List (Entry × ByteArray)) :
    (Writer.ofPieces ps).central = placed ps 0 := by
  simp [Writer.ofPieces, foldl_append_central, Writer.empty]

theorem ofPieces_append (ps : List (Entry × ByteArray)) (e : Entry) (stored : ByteArray) :
    (Writer.ofPieces ps).append e stored = Writer.ofPieces (ps ++ [(e, stored)]) := by
  simp [Writer.ofPieces, List.foldl_append]

/-- Each laid-out entry is one of the pieces, at the position its piece starts. -/
theorem mem_placed {ps : List (Entry × ByteArray)} {at_ : Nat} {c : Entry} (hc : c ∈ placed ps at_) :
    ∃ p ∈ ps, ∃ pre post, ps.flatMap pieceBytes = pre ++ pieceBytes p ++ post ∧
      c = { p.1 with headerOffset := at_ + pre.length } := by
  induction ps generalizing at_ with
  | nil => simp [placed] at hc
  | cons p ps ih =>
    rcases List.mem_cons.1 hc with rfl | hc
    · exact ⟨p, List.mem_cons_self .., [], ps.flatMap pieceBytes, by simp, by simp⟩
    · obtain ⟨q, hq, pre, post, hsplit, rfl⟩ := ih hc
      refine ⟨q, List.mem_cons_of_mem _ hq, pieceBytes p ++ pre, post, ?_, ?_⟩
      · rw [List.flatMap_cons, hsplit]
        simp
      · simp [Nat.add_assoc]

/-- Where an entry's data starts, read from a local header written for it. -/
theorem dataStart_header {b : ByteArray} {pre post : List UInt8} {e c : Entry} {raw : ByteArray}
    (hname : raw.size < 65536) (h : b.data.toList = pre ++ (Writer.localHeader e raw).data.toList ++ post)
    (hc : c.headerOffset = pre.length) : c.dataStart b = .ok (pre.length + 30 + raw.size) := by
  have hf : b.data.toList = pre ++ fieldBytes (localFields e raw) ++ (raw.data.toList ++ post) := by
    rw [h, localHeader_toList]
    simp only [List.append_assoc]
  have h30 : fieldsWidth (localFields e raw) = 30 := by simp [localFields]
  have hsize : b.size = pre.length + 30 + raw.size + post.length := by
    rw [size_eq_length, hf]
    simp only [List.length_append, length_fieldBytes, h30, size_eq_length]
    omega
  have rsig : number b pre.length 4 = some localSignature :=
    number_fields hf 0 (by simp [localFields]) (by simp [localFields])
      (show localSignature < Nat.pow 256 4 by decide)
  have r26 : number b (pre.length + 26) 2 = some raw.size :=
    number_fields hf 9 (by simp [localFields]) (by simp [localFields]) hname
  have r28 : number b (pre.length + 28) 2 = some 0 :=
    number_fields hf 10 (by simp [localFields]) (by simp [localFields]) (show 0 < Nat.pow 256 2 by decide)
  unfold Entry.dataStart
  rw [hc, if_neg (by omega)]
  simp [hasSignature, rsig, r26, r28, pure, Except.pure]

theorem length_localHeader (e : Entry) (raw : ByteArray) :
    (Writer.localHeader e raw).data.toList.length = 30 + raw.size := by
  have h30 : fieldsWidth (localFields e raw) = 30 := by simp [localFields]
  rw [localHeader_toList, List.length_append, length_fieldBytes, h30, size_eq_length]

/-- A finished archive built from pieces holds, at each entry's header offset, the local
header of its piece and then the piece's stored bytes. -/
theorem Writer.finish_split {ps : List (Entry × ByteArray)} {c : Entry}
    (hc : c ∈ (Writer.ofPieces ps).central) :
    ∃ p ∈ ps, ∃ pre rest, c = { p.1 with headerOffset := pre.length } ∧
      (Writer.ofPieces ps).finish.data.toList =
        pre ++ (Writer.localHeader p.1 p.1.name.toUTF8).data.toList ++ (p.2.data.toList ++ rest) := by
  rw [ofPieces_central] at hc
  obtain ⟨p, hp, pre, post, hsplit, rfl⟩ := mem_placed hc
  refine ⟨p, hp, pre, post ++ directory (Writer.ofPieces ps).central ++
    fieldBytes (endFields (Writer.ofPieces ps).central.length (directory (Writer.ofPieces ps).central).length
      (Writer.ofPieces ps).out.size), by simp, ?_⟩
  rw [finish_toList, ofPieces_out, hsplit]
  simp [pieceBytes]

/-- In a finished archive built from pieces, every entry finds the stored bytes it was
appended with. -/
theorem Writer.data_finish {ps : List (Entry × ByteArray)} {c : Entry}
    (hc : c ∈ (Writer.ofPieces ps).central) (hname : c.name.toUTF8.size < 65536) :
    ∃ p ∈ ps, c = { p.1 with headerOffset := c.headerOffset } ∧
      c.dataStart (Writer.ofPieces ps).finish = .ok (c.headerOffset + 30 + c.name.toUTF8.size) ∧
      (p.2.size = p.1.compressedSize →
        c.rawData (Writer.ofPieces ps).finish (c.headerOffset + 30 + c.name.toUTF8.size) = p.2) := by
  obtain ⟨p, hp, pre, rest, rfl, h⟩ := Writer.finish_split hc
  refine ⟨p, hp, rfl, dataStart_header hname h rfl, fun hsize => ?_⟩
  have h' : (Writer.ofPieces ps).finish.data.toList =
      (pre ++ (Writer.localHeader p.1 p.1.name.toUTF8).data.toList) ++ p.2.data.toList ++ rest := by
    rw [h]
    simp only [List.append_assoc]
  have hext := extract_eq h'
  rw [List.length_append, length_localHeader, ← Nat.add_assoc] at hext
  unfold Entry.rawData
  rw [show ({ p.1 with headerOffset := pre.length } : Entry).compressedSize = p.2.size from hsize.symm]
  exact hext

/-- In a finished archive built from pieces, the stored bytes of every entry end within the
archive. -/
theorem Writer.dataEnd_le_size {ps : List (Entry × ByteArray)} {c : Entry}
    (hc : c ∈ (Writer.ofPieces ps).central) :
    ∃ p ∈ ps, c = { p.1 with headerOffset := c.headerOffset } ∧
      c.headerOffset + 30 + c.name.toUTF8.size + p.2.size ≤ (Writer.ofPieces ps).finish.size := by
  obtain ⟨p, hp, pre, rest, rfl, h⟩ := Writer.finish_split hc
  refine ⟨p, hp, rfl, ?_⟩
  have hlen := congrArg List.length h
  simp only [List.length_append, length_localHeader] at hlen
  simp only [← size_eq_length] at hlen
  simp only
  omega

/-- An entry that fits stays fitting wherever it is placed below 4 GiB. -/
theorem Entry.Fits.place {e : Entry} (he : e.Fits) {n : Nat} (hn : n < 4294967296) :
    ({ e with headerOffset := n } : Entry).Fits :=
  ⟨he.versionMadeBy, he.versionNeeded, he.flags, he.method, he.notAes, he.time, he.date, he.compressedSize,
    he.size, he.name, he.internalAttributes, he.externalAttributes, hn, he.aes⟩

theorem placed_names (ps : List (Entry × ByteArray)) (at_ : Nat) :
    (placed ps at_).map (·.name) = ps.map (·.1.name) := by
  induction ps generalizing at_ with
  | nil => rfl
  | cons p ps ih => simp [placed, ih]

theorem length_placed (ps : List (Entry × ByteArray)) (at_ : Nat) : (placed ps at_).length = ps.length := by
  induction ps generalizing at_ with
  | nil => rfl
  | cons p ps ih => simp [placed, ih]

/-- A writer built from pieces reads back when its entries fit, their names are distinct,
there are fewer than 65536 of them and their bytes stay below 4 GiB. -/
theorem ofPieces_fits {ps : List (Entry × ByteArray)} (hfits : ∀ p ∈ ps, p.1.Fits)
    (hnames : (ps.map (·.1.name)).Nodup) (hcount : ps.length < 65536)
    (hout : (ps.flatMap pieceBytes).length < 4294967296) : (Writer.ofPieces ps).Fits where
  entries c hc := by
    rw [ofPieces_central] at hc
    obtain ⟨p, hp, pre, post, hsplit, rfl⟩ := mem_placed hc
    have hlen : pre.length + (pieceBytes p).length + post.length < 4294967296 := by
      rw [hsplit] at hout
      simpa [Nat.add_assoc] using hout
    have hpiece : 30 ≤ (pieceBytes p).length := by
      simp only [pieceBytes, List.length_append, length_localHeader]
      omega
    exact (hfits p hp).place (by omega)
  names := by rw [ofPieces_central, placed_names]; exact hnames
  count := by rw [ofPieces_central, length_placed]; exact hcount
  out := by rw [size_eq_length, ofPieces_out]; exact hout

end JarDeploy.Zip
