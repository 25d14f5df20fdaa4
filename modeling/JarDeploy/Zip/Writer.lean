import JarDeploy.Zip.Archive
import JarDeploy.Deflate.Stored

/-!
# Writing zip archives

A writer lays out entries one after another, each a local header followed by its stored
bytes, and remembers a central record for each. Finishing appends the central directory
and the end record. Names are written as UTF-8, marked so when they are not ASCII, and
no record carries extra fields or a comment. New files are compressed with the DEFLATE
method; an entry copied from another archive keeps its method, checksum and stored
bytes.
-/

namespace JarDeploy.Zip

set_option autoImplicit false

/-- The little-endian bytes of a number of `width` bytes. -/
def littleEndian (n width : Nat) : ByteArray :=
  ⟨((List.range width).map fun i => (n >>> (8 * i)).toUInt8).toArray⟩

/-- An archive being written: the bytes so far and the central records. -/
structure Writer where
  out : ByteArray
  central : List Entry
  deriving Inhabited

namespace Writer

/-- A writer with nothing written. -/
def empty : Writer := ⟨ByteArray.empty, []⟩

/-- The local header of an entry. -/
def localHeader (e : Entry) (rawName : ByteArray) : ByteArray :=
  littleEndian localSignature 4 ++ littleEndian e.versionNeeded 2 ++ littleEndian e.flags 2
    ++ littleEndian e.method 2 ++ littleEndian e.time 2 ++ littleEndian e.date 2
    ++ littleEndian e.crc.toNat 4 ++ littleEndian e.compressedSize 4 ++ littleEndian e.size 4
    ++ littleEndian rawName.size 2 ++ littleEndian 0 2 ++ rawName

/-- The central record of an entry. -/
def centralRecord (e : Entry) : ByteArray :=
  let rawName := e.name.toUTF8
  littleEndian centralSignature 4 ++ littleEndian e.versionMadeBy 2
    ++ littleEndian e.versionNeeded 2 ++ littleEndian e.flags 2 ++ littleEndian e.method 2
    ++ littleEndian e.time 2 ++ littleEndian e.date 2 ++ littleEndian e.crc.toNat 4
    ++ littleEndian e.compressedSize 4 ++ littleEndian e.size 4 ++ littleEndian rawName.size 2
    ++ littleEndian 0 2 ++ littleEndian 0 2 ++ littleEndian 0 2
    ++ littleEndian e.internalAttributes 2 ++ littleEndian e.externalAttributes 4
    ++ littleEndian e.headerOffset 4 ++ rawName

/-- The flags of a written entry: only the mark of a name that is not ASCII (UTF-8). -/
def nameFlags (name : String) : Nat :=
  if name.toList.all (fun c => c.toNat < 128) then 0 else 0x800

/-- Append an entry with its stored bytes. -/
def append (w : Writer) (e : Entry) (stored : ByteArray) : Writer :=
  let e := { e with headerOffset := w.out.size }
  ⟨w.out ++ localHeader e e.name.toUTF8 ++ stored, w.central ++ [e]⟩

/-- Add a new file, compressed with DEFLATE. A name that is not ASCII is marked as UTF-8. -/
def addFile (w : Writer) (name : String) (data : ByteArray) : Writer :=
  let stored := Deflate.storedStream data
  let e : Entry := {
    name, versionMadeBy := 0x031E, versionNeeded := 20, flags := nameFlags name
    method := 8, time := 0, date := 0x21, crc := Crc32.ofBytes data
    compressedSize := stored.size, size := data.size, internalAttributes := 0
    externalAttributes := 0o100644 <<< 16, headerOffset := 0, aes := false }
  w.append e stored

/-- Copy an entry of another archive without decoding it: its name (now written as
UTF-8), method, checksum, sizes and stored bytes are kept; its other flags, its AES
field and all other extra data and its comment are not. -/
def copyRaw (w : Writer) (e : Entry) (stored : ByteArray) : Writer :=
  w.append { e with flags := nameFlags e.name, aes := false } stored

/-- The bytes of the finished archive. -/
def finish (w : Writer) : ByteArray :=
  let dir := w.central.foldl (fun acc e => acc ++ centralRecord e) ByteArray.empty
  let count := w.central.length
  w.out ++ dir ++ littleEndian endSignature 4 ++ littleEndian 0 4 ++ littleEndian count 2
    ++ littleEndian count 2 ++ littleEndian dir.size 4 ++ littleEndian w.out.size 4
    ++ littleEndian 0 2

end Writer

end JarDeploy.Zip
