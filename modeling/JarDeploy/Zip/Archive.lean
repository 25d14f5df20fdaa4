import JarDeploy.IoError
import JarDeploy.Checksum.Crc32
import JarDeploy.Deflate.Inflate
import JarDeploy.Text.Utf8

/-!
# Reading zip archives

A zip archive ends with an end-of-central-directory record (EOCD), which says where the
central directory starts (counted from the start of the archive) and how many records it
holds. Each central record names an entry and gives its compression method, checksum,
sizes and the offset of its local header; the entry's data follows the local header.

Opening an archive searches the file backwards for the EOCD signature. A candidate must
hold a whole record, comment included. Its directory is the first central record
signature at or after the offset it states and before the EOCD itself: bytes placed
before the archive shift every offset by the same amount. If the directory then cannot
be read in any way, the search goes on below that EOCD; when no candidate is left, the
problem is the first one met while reading candidates (a later candidate whose directory
offset is wrong, or whose directory is nowhere, overrides it), or that there is no EOCD.

A central record may carry extra fields, read in order: zip64 sizes and offset, AES
encryption (whose field names the method underneath), NTFS times, extended timestamps,
and a UTF-8 path or comment guarded by the checksum of the text it replaces. A field
that runs past the end of the extra data ends the reading of fields but keeps what was
read; a field whose contents are wrong makes the whole directory unreadable. Entries are
kept by name: a later record for a name already present replaces it but keeps its
position.

The entry data is read from the file as it is when the entry is opened, so a file that
was truncated after the directory was read fails to give its entries.
-/

namespace JarDeploy.Zip

set_option autoImplicit false

/-- Why an archive or an entry could not be read. -/
inductive ZipError where
  /-- Reading the file failed or ended early. -/
  | io (e : IoError)
  /-- The bytes are not a zip archive. -/
  | invalidArchive (detail : String)
  /-- The archive uses something that is not supported. -/
  | unsupportedArchive (detail : String)
  /-- No entry has the requested name. -/
  | fileNotFound
  /-- The entry is encrypted with AES, and no password was given. -/
  | invalidPassword
  deriving Repr, BEq, Inhabited

/-- The text of an archive error. -/
def ZipError.message : ZipError → String
  | .io _ => "i/o error"
  | .invalidArchive d => "invalid Zip archive: " ++ d
  | .unsupportedArchive d => "unsupported Zip archive: " ++ d
  | .fileNotFound => "specified file not found in archive"
  | .invalidPassword => "provided password is incorrect"

/-- The input error of a read that ran past the end of the file. -/
def endOfFile : IoError := ⟨.other, "failed to fill whole buffer"⟩

/-- The record of one entry in the central directory. The method is the one the data is
compressed with: for an AES entry, the method its AES field names. -/
structure Entry where
  name : String
  versionMadeBy : Nat
  versionNeeded : Nat
  flags : Nat
  method : Nat
  time : Nat
  date : Nat
  crc : UInt32
  compressedSize : Nat
  size : Nat
  internalAttributes : Nat
  externalAttributes : Nat
  /-- Where the local header starts in the file. -/
  headerOffset : Nat
  /-- Is the data encrypted with AES? -/
  aes : Bool
  deriving Inhabited

/-- The compression method as it is usually named: `Stored`, `Deflated`, or
`Unsupported(n)` for any other code. -/
def methodName (m : Nat) : String :=
  if m = 0 then "Stored" else if m = 8 then "Deflated" else s!"Unsupported({m})"

/-- An opened archive: its entries in order. -/
structure Archive where
  entries : List Entry
  deriving Inhabited

/-- A little-endian number of `width` bytes at `at_`, if the bytes are there. -/
def number (b : ByteArray) (at_ width : Nat) : Option Nat :=
  if at_ + width ≤ b.size then
    some ((List.range width).foldr (fun i acc => acc * 256 + (b.get! (at_ + i)).toNat) 0)
  else none

/-- Do the four bytes at `at_` spell the signature `sig`? -/
def hasSignature (b : ByteArray) (at_ : Nat) (sig : Nat) : Bool := number b at_ 4 == some sig

/-- Signatures of the records. -/
def endSignature : Nat := 0x06054b50
def centralSignature : Nat := 0x02014b50
def localSignature : Nat := 0x04034b50

/-- Code page 437, the characters of the bytes 128 to 255. -/
def codePage437High : String :=
  "ÇüéâäàåçêëèïîìÄÅÉæÆôöòûùÿÖÜ¢£¥₧ƒáíóúñÑªº¿⌐¬½¼¡«»░▒▓│┤╡╢╖╕╣║╗╝╜╛┐└┴┬├─┼╞╟╚╔╩╦╠═╬╧╨╤╥╙╘╒╓╫╪┘┌█▄▌▐▀αßΓπΣσµτΦΘΩδ∞φε∩≡±≥≤⌠⌡÷≈°∙·√ⁿ²■ "

/-- A name or comment as stored: UTF-8 (ill-formed parts replaced) when the record says
so, code page 437 otherwise. -/
def decodeText (raw : ByteArray) (utf8 : Bool) : String :=
  if utf8 then Utf8.decodeLossy raw
  else String.ofList (raw.toList.map fun b =>
    if b < 128 then Char.ofNat b.toNat else codePage437High.toList.getD (b.toNat - 128) ' ')

/-- The end record found at `at_`: its disk numbers, how many central records it counts
on this disk and in all, and where the directory starts within the archive. -/
structure EndRecord where
  at_ : Nat
  disk : Nat
  directoryDisk : Nat
  entriesHere : Nat
  entries : Nat
  directoryOffset : Nat

/-- Read an end record at a candidate position: its fixed part must fit in the file (an
input error otherwise), and so must its comment. -/
def readEnd (b : ByteArray) (at_ : Nat) : Except ZipError EndRecord := do
  if at_ + 22 > b.size then throw (.io endOfFile)
  let field := fun (off width : Nat) => (number b (at_ + off) width).getD 0
  if at_ + 22 + field 20 2 > b.size then throw (.invalidArchive "EOCD comment exceeds file boundary")
  return { at_, disk := field 4 2, directoryDisk := field 6 2, entriesHere := field 8 2,
           entries := field 10 2, directoryOffset := field 16 4 }

/-- The positions where the end signature stands whole below `limit`, from the last to
the first. -/
def endCandidates (b : ByteArray) (limit : Nat) : List Nat :=
  ((List.range (limit + 1 - 4)).filter fun i => hasSignature b i endSignature).reverse

/-- The first central record signature standing whole in `[lo, hi)`. -/
def firstCentral (b : ByteArray) (lo hi : Nat) : Option Nat :=
  (List.range' lo (hi + 1 - 4 - lo)).find? fun i => hasSignature b i centralSignature

/-- An end record and how far the archive is shifted within the file. -/
structure Located where
  record : EndRecord
  shift : Nat

/-- Search below `limit` for an end record that reads whole and whose directory is found
before it (an empty archive needs no directory). -/
def locate (b : ByteArray) (limit : Nat) : Except ZipError Located :=
  let rec go (problem : Option ZipError) : List Nat → Except ZipError Located
    | [] => .error (problem.getD (.invalidArchive "Could not find EOCD"))
    | c :: cs =>
      match readEnd b c with
      | .error e => go (problem.orElse fun _ => some e) cs
      | .ok r =>
        if r.entries = 0 then .ok ⟨r, c - r.directoryOffset⟩
        else if r.directoryOffset ≥ c then go (some (.invalidArchive "Invalid CDFH offset in EOCD")) cs
        else
          match firstCentral b r.directoryOffset c with
          | some q => .ok ⟨r, q - r.directoryOffset⟩
          | none => go (some (.invalidArchive "No CDFH found")) cs
  go none (endCandidates b limit)

/-- An entry while its central record is read: the entry, its name as stored, and its
comment as text. -/
structure Draft where
  entry : Entry
  rawName : ByteArray
  comment : String

/-- The outcome of reading one extra field: go on at a position, stop reading fields
(the field ran past the extra data; what was read stays), or refuse the directory. -/
inductive FieldRead where
  | next (d : Draft) (pos : Nat)
  | stop (d : Draft)
  | refuse

/-- The zip64 field of `len` bytes at `pos`: eight-byte values for the size, the
compressed size and the header offset, in that order, each present when its four-byte
field is saturated, or all three when the field holds 24 bytes or more. -/
def zip64Field (ex : ByteArray) (len : Nat) (d : Draft) (pos : Nat) : FieldRead :=
  let wanted (n : Nat) : Bool := len ≥ 24 || n = 0xFFFFFFFF
  let slot (e : Entry) (p used : Nat) (want : Bool) (set : Entry → Nat → Entry) :
      Except Entry (Entry × Nat × Nat) :=
    if !want then .ok (e, p, used)
    else match number ex p 8 with
      | some v => .ok (set e v, p + 8, used + 8)
      | none => .error e
  let read : Except Entry (Entry × Nat × Nat) := do
    let e := d.entry
    let (e, p, used) ← slot e pos 0 (wanted e.size) fun e v => { e with size := v }
    let (e, p, used) ← slot e p used (wanted e.compressedSize) fun e v => { e with compressedSize := v }
    slot e p used (wanted e.headerOffset) fun e v => { e with headerOffset := v }
  match read with
  | .error e => .stop { d with entry := e }
  | .ok (e, p, used) =>
    if used > len then .refuse
    else if p + (len - used) > ex.size then .stop { d with entry := e }
    else .next { d with entry := e } (p + (len - used))

/-- The AES field: seven bytes of vendor version (1 or 2), vendor `AE`, key strength (1
to 3) and the method underneath. -/
def aesField (ex : ByteArray) (len : Nat) (d : Draft) (pos : Nat) : FieldRead :=
  if len ≠ 7 then .refuse
  else
    match number ex pos 2, number ex (pos + 2) 2, number ex (pos + 4) 1, number ex (pos + 5) 2 with
    | some version, some vendor, some strength, some method =>
      if vendor ≠ 0x4541 || (version ≠ 1 && version ≠ 2) || strength < 1 || strength > 3 then .refuse
      else .next { d with entry := { d.entry with method, aes := true } } (pos + 7)
    | _, _, _, _ => .stop d

/-- The NTFS times field: 32 bytes, whose attribute has tag 1 and size 24. -/
def ntfsField (ex : ByteArray) (len : Nat) (d : Draft) (pos : Nat) : FieldRead :=
  if len ≠ 32 then .refuse
  else
    match number ex (pos + 4) 2 with
    | none => .stop d
    | some tag =>
      if tag ≠ 1 then .refuse
      else
        match number ex (pos + 6) 2 with
        | none => .stop d
        | some size =>
          if size ≠ 24 then .refuse
          else if pos + 32 > ex.size then .stop d
          else .next d (pos + 32)

/-- The extended timestamp field: a flag byte, then four bytes for each flag set; a
field of five bytes is also accepted whatever its flags. Only the three low flags
(modification, access and creation times) may be set. -/
def timestampField (ex : ByteArray) (len : Nat) (d : Draft) (pos : Nat) : FieldRead :=
  match ex[pos]? with
  | none => .stop d
  | some flags =>
    let set := (List.range 8).countP fun i => (flags.toNat >>> i) % 2 = 1
    if len ≠ 5 && len ≠ 1 + 4 * set then .refuse
    else if flags.toNat >>> 3 ≠ 0 then .refuse
    else if pos + len > ex.size then .stop d
    else .next d (pos + len)

/-- A UTF-8 text field: a version byte, the checksum of the stored text it replaces
(`plain`), and the new text, which `apply` puts in place. -/
def unicodeField (ex : ByteArray) (len : Nat) (d : Draft) (pos : Nat) (plain : ByteArray)
    (apply : Draft → ByteArray → String → Draft) : FieldRead :=
  match number ex pos 1, number ex (pos + 1) 4 with
  | some _, some crc =>
    if len < 5 then .refuse
    else if pos + len > ex.size then .stop d
    else
      let content := ex.extract (pos + 5) (pos + len)
      if (Crc32.ofBytes plain).toNat ≠ crc then .refuse
      else
        match String.fromUTF8? content with
        | some s => .next (apply d content s) (pos + len)
        | none => .refuse
  | _, _ => .stop d

/-- Read the extra fields from `pos` on: each is a two-byte kind and a two-byte length,
then its data. `none` when the directory is refused. -/
def readFields (ex : ByteArray) : Nat → Draft → Nat → Option Draft
  | 0, d, _ => some d
  | fuel + 1, d, pos =>
    if pos ≥ ex.size then some d
    else
      match number ex pos 2, number ex (pos + 2) 2 with
      | some kind, some len =>
        let at_ := pos + 4
        let step : FieldRead :=
          if kind = 0x0001 then zip64Field ex len d at_
          else if kind = 0x000a then ntfsField ex len d at_
          else if kind = 0x9901 then aesField ex len d at_
          else if kind = 0x5455 then timestampField ex len d at_
          else if kind = 0x6375 then
            unicodeField ex len d at_ d.comment.toUTF8 fun d _ s => { d with comment := s }
          else if kind = 0x7075 then
            unicodeField ex len d at_ d.rawName fun d raw s =>
              { d with rawName := raw, entry := { d.entry with name := s } }
          else if at_ + len > ex.size then .stop d
          else .next d (at_ + len)
        match step with
        | .next d p => readFields ex fuel d p
        | .stop d => some d
        | .refuse => none
      | _, _ => some d

/-- Read the central record at `at_` of an archive shifted by `shift`: the entry and the
position of the next record, or `none` when the record cannot be accepted. An entry
whose method is AES must have an AES field. -/
def readCentral (b : ByteArray) (shift at_ : Nat) : Option (Entry × Nat) :=
  if at_ + 46 > b.size || !hasSignature b at_ centralSignature then none
  else
    let field := fun (off width : Nat) => (number b (at_ + off) width).getD 0
    let nameLength := field 28 2
    let extraLength := field 30 2
    let commentLength := field 32 2
    let start := at_ + 46
    let stop := start + nameLength + extraLength + commentLength
    if stop > b.size then none
    else
      let flags := field 8 2
      let utf8 := (flags >>> 11) % 2 = 1
      let rawName := b.extract start (start + nameLength)
      let entry : Entry := {
        name := decodeText rawName utf8
        versionMadeBy := field 4 2
        versionNeeded := field 6 2
        flags
        method := field 10 2
        time := field 12 2
        date := field 14 2
        crc := (field 16 4).toUInt32
        compressedSize := field 20 4
        size := field 24 4
        internalAttributes := field 36 2
        externalAttributes := field 38 4
        headerOffset := field 42 4
        aes := false }
      let comment := decodeText (b.extract (start + nameLength + extraLength) stop) utf8
      let extra := b.extract (start + nameLength) (start + nameLength + extraLength)
      match readFields extra (extra.size + 1) ⟨entry, rawName, comment⟩ 0 with
      | none => none
      | some d =>
        if d.entry.method = 99 && !d.entry.aes then none
        else some ({ d.entry with headerOffset := d.entry.headerOffset + shift }, stop)

/-- Add an entry, replacing an earlier one of the same name in its place. -/
def insertEntry (es : List Entry) (e : Entry) : List Entry :=
  if es.any (·.name == e.name) then es.map fun x => if x.name == e.name then e else x
  else es ++ [e]

/-- Read the directory an end record points at: as many records as it counts on this
disk, which must be the disk of the directory. -/
def readDirectory (b : ByteArray) (loc : Located) : Option (List Entry) :=
  if loc.record.disk ≠ loc.record.directoryDisk then none
  else
    let read := (List.range loc.record.entriesHere).foldlM (fun (acc : List Entry × Nat) _ => do
      let (e, next) ← readCentral b loc.shift acc.2
      return (insertEntry acc.1 e, next)) ([], loc.record.directoryOffset + loc.shift)
    read.map (·.1)

/-- Open an archive from the bytes of a file: the last end record whose directory reads. -/
def Archive.read (b : ByteArray) : Except ZipError Archive :=
  let rec go : Nat → Nat → Except ZipError Archive
    | 0, _ => .error (.invalidArchive "Could not find EOCD")
    | fuel + 1, limit => do
      let loc ← locate b limit
      match readDirectory b loc with
      | some entries => .ok ⟨entries⟩
      | none => go fuel loc.record.at_
  go (b.size + 1) b.size

namespace Archive

/-- The entry names, in order. -/
def names (a : Archive) : List String := a.entries.map (·.name)

/-- The number of entries. -/
def size (a : Archive) : Nat := a.entries.length

/-- The entry of a name. -/
def byName (a : Archive) (name : String) : Except ZipError Entry :=
  match a.entries.find? (·.name == name) with
  | some e => .ok e
  | none => .error .fileNotFound

end Archive

namespace Entry

/-- Is the entry encrypted with a password (flag bit 0)? -/
def isEncrypted (e : Entry) : Bool := e.flags % 2 = 1

/-- Where the entry's data starts in the current bytes of the file, read from its local
header. -/
def dataStart (e : Entry) (b : ByteArray) : Except ZipError Nat := do
  if e.headerOffset + 30 > b.size then throw (.io endOfFile)
  if !hasSignature b e.headerOffset localSignature then
    throw (.invalidArchive "Invalid local file header")
  let nameLength := (number b (e.headerOffset + 26) 2).getD 0
  let extraLength := (number b (e.headerOffset + 28) 2).getD 0
  return e.headerOffset + 30 + nameLength + extraLength

/-- The stored bytes of the entry, as far as the file holds them. -/
def rawData (e : Entry) (b : ByteArray) (start : Nat) : ByteArray :=
  b.extract start (start + e.compressedSize)

/-- Open the entry for reading its contents: it must not need a password, its local
header must be sound, its method must be one that can be decoded, and it must not be
encrypted with AES. -/
def openData (e : Entry) (b : ByteArray) : Except ZipError Nat := do
  if e.isEncrypted then throw (.unsupportedArchive "Password required to decrypt file")
  let start ← e.dataStart b
  if e.method ≠ 0 ∧ e.method ≠ 8 then
    throw (.unsupportedArchive "Compression method not supported")
  if e.aes then throw .invalidPassword
  return start

/-- The contents of the entry, decoded and checked against the checksum. -/
def contents (e : Entry) (b : ByteArray) (start : Nat) : Except IoError ByteArray := do
  let raw := e.rawData b start
  let data ← if e.method = 8 then
      match Inflate.inflate raw with
      | .ok d => pure d
      | .error .corrupt => throw ⟨.invalidInput, "corrupt deflate stream"⟩
      | .error .truncated => throw ⟨.other, "incomplete deflate stream"⟩
    else pure raw
  if Crc32.ofBytes data ≠ e.crc then throw ⟨.other, "Invalid checksum"⟩
  return data

end Entry

end JarDeploy.Zip
