/-!
# Encoding DEFLATE streams with stored blocks

The simplest valid DEFLATE stream: the data cut into blocks of at most 65535 bytes, each
stored verbatim after a three-bit header, padding to the byte boundary, and its length
with the complement of that length. Any decoder gives the data back unchanged.
-/

namespace JarDeploy.Deflate

set_option autoImplicit false

/-- The largest block a stored block can hold. -/
def storedLimit : Nat := 65535

/-- One stored block holding `chunk`, marked final or not. -/
def storedBlock (final : Bool) (chunk : ByteArray) : ByteArray :=
  let n := chunk.size
  let m := 65535 - n
  ⟨#[if final then 1 else 0, n.toUInt8, (n >>> 8).toUInt8, m.toUInt8, (m >>> 8).toUInt8]⟩ ++ chunk

/-- A DEFLATE stream of stored blocks that decodes to `data`. -/
def storedStream (data : ByteArray) : ByteArray :=
  let count := (data.size + storedLimit - 1) / storedLimit
  if count = 0 then storedBlock true ByteArray.empty
  else (List.range count).foldl (fun out i =>
    out ++ storedBlock (i + 1 = count) (data.extract (i * storedLimit) ((i + 1) * storedLimit)))
    ByteArray.empty

end JarDeploy.Deflate
