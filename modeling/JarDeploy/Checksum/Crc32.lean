/-!
# CRC-32 of a byte string

The cyclic redundancy check that zip archives store for every entry: the reflected
polynomial `0xEDB88320`, an initial value of all ones and a final complement. The
table holds the remainder of each byte value, and `update` feeds one byte at a time.
-/

namespace JarDeploy.Crc32

set_option autoImplicit false

/-- The reflected generator polynomial. -/
def polynomial : UInt32 := 0xEDB88320

/-- Eight shift steps of the remainder of one byte value. -/
def remainderOf (n : Nat) : UInt32 :=
  (List.range 8).foldl
    (fun (c : UInt32) _ => if c &&& 1 == 1 then polynomial ^^^ (c >>> 1) else c >>> 1)
    n.toUInt32

/-- The remainders of all 256 byte values. -/
def table : Array UInt32 := (List.range 256).toArray.map remainderOf

/-- Feed one byte into a running (complemented) checksum. -/
def step (c : UInt32) (b : UInt8) : UInt32 :=
  table.getD ((c ^^^ b.toUInt32) &&& 0xFF).toNat 0 ^^^ (c >>> 8)

/-- Continue a checksum over more bytes. -/
def update (crc : UInt32) (bytes : ByteArray) : UInt32 :=
  bytes.foldl step (crc ^^^ 0xFFFFFFFF) ^^^ 0xFFFFFFFF

/-- The checksum of a byte string. -/
def ofBytes (bytes : ByteArray) : UInt32 := update 0 bytes

end JarDeploy.Crc32
