/-!
# Decoding DEFLATE streams

A DEFLATE stream (RFC 1951) is a sequence of blocks, each stored, coded with the fixed
Huffman codes, or coded with codes that the block itself describes. Bits are read from
the least significant end of each byte. A Huffman code is kept canonically, as the number
of codes of each length and the symbols ordered by length then value; decoding walks the
lengths from short to long.

A stream is checked as the decoder goes: a described code must fill its code space
(a code of one symbol may leave part of it empty, and then a code that falls there is
an error), a block may describe at most 286 literal and length codes and 30 distance
codes, and the symbols 286, 287 and the distances 30, 31 are errors. A distance that
reaches back before the first byte of output reads zeros, as from a window that starts
out empty. Data after the final block is ignored.

Every loop here consumes at least one bit per step, so the number of bits of the input
bounds it; that number is passed as fuel.
-/

namespace JarDeploy.Inflate

set_option autoImplicit false

/-- Why a stream could not be decoded: it ended before its final block did, or it is not
a valid stream. -/
inductive Fault where
  | truncated
  | corrupt
  deriving Repr, BEq, DecidableEq

/-- The result of a decoding step. -/
abbrev Decoding := Except Fault

/-- A position in a byte string, counted in bits. -/
structure BitReader where
  data : ByteArray
  pos : Nat

namespace BitReader

/-- The bits left to read. -/
def remaining (r : BitReader) : Nat := r.data.size * 8 - r.pos

/-- The next bit; the stream is cut short if none is left. -/
def bit (r : BitReader) : Decoding (Nat × BitReader) :=
  if r.pos < r.data.size * 8 then
    pure (((r.data.get! (r.pos / 8)).toNat >>> (r.pos % 8)) % 2, { r with pos := r.pos + 1 })
  else throw .truncated

/-- The next `n` bits as a number, the first bit read the least significant. -/
def bits (r : BitReader) (n : Nat) : Decoding (Nat × BitReader) :=
  (List.range n).foldlM (fun (acc : Nat × BitReader) i => do
    let (b, r') ← acc.2.bit
    return (acc.1 ||| (b <<< i), r')) (0, r)

/-- Skip to the next byte boundary. -/
def align (r : BitReader) : BitReader := { r with pos := (r.pos + 7) / 8 * 8 }

end BitReader

/-- A canonical Huffman code: how many codes have each length from 0 to 15, the symbols
ordered by code length, then by value, and whether the lengths fill the code space. -/
structure Code where
  counts : Array Nat
  symbols : Array Nat
  complete : Bool

/-- How much of the code space (`2 ^ 16` in all) codes of the given lengths take up. -/
def codeSpace (counts : Array Nat) : Nat :=
  (List.range 15).foldl (fun total i => (total + counts.getD (i + 1) 0) * 2) 0

/-- The canonical code of a list of code lengths, one per symbol (0: symbol unused). The
lengths must fill the code space exactly, except that at most one used symbol may leave
it partly empty; `strict` (for the code of the code lengths) allows no exception. -/
def Code.ofLengths (lengths : List Nat) (strict : Bool) : Decoding Code :=
  let counts := lengths.foldl (fun (c : Array Nat) l => c.modify l (· + 1)) (Array.replicate 16 0)
  let used := (lengths.zipIdx.filter fun (l, _) => l ≠ 0).mergeSort fun a b => a.1 ≤ b.1
  let complete := codeSpace counts = 65536
  if !complete && (used.length > 1 || strict) then throw .corrupt
  else pure { counts := counts.set! 0 0, symbols := (used.map (·.2)).toArray, complete }

/-- Decode one symbol: read bit by bit, and at each length compare the code read so far
with the first code of that length. In a code that leaves space empty (one symbol at
most, whose code is all zeros), a one bit leads nowhere, and so does any bit of a code
with no symbol at all. -/
def Code.decode (h : Code) (r : BitReader) : Decoding (Nat × BitReader) :=
  let rec go (len code first index : Nat) (r : BitReader) (fuel : Nat) : Decoding (Nat × BitReader) :=
    match fuel with
    | 0 => throw .corrupt
    | fuel + 1 => do
      let (b, r) ← r.bit
      let code := code ||| b
      let count := h.counts.getD len 0
      if code < first + count then
        return (h.symbols.getD (index + (code - first)) 0, r)
      else if !h.complete && (b = 1 || h.symbols.size = 0) then throw .corrupt
      else
        go (len + 1) (code <<< 1) ((first + count) <<< 1) (index + count) r fuel
  go 1 0 0 0 r 15

/-- Base lengths of the length symbols 257 to 285. -/
def lengthBase : Array Nat :=
  #[3, 4, 5, 6, 7, 8, 9, 10, 11, 13, 15, 17, 19, 23, 27, 31, 35, 43, 51, 59, 67, 83, 99, 115,
    131, 163, 195, 227, 258]

/-- Extra bits of the length symbols 257 to 285. -/
def lengthExtra : Array Nat :=
  #[0, 0, 0, 0, 0, 0, 0, 0, 1, 1, 1, 1, 2, 2, 2, 2, 3, 3, 3, 3, 4, 4, 4, 4, 5, 5, 5, 5, 0]

/-- Base distances of the distance symbols 0 to 29. -/
def distanceBase : Array Nat :=
  #[1, 2, 3, 4, 5, 7, 9, 13, 17, 25, 33, 49, 65, 97, 129, 193, 257, 385, 513, 769, 1025, 1537,
    2049, 3073, 4097, 6145, 8193, 12289, 16385, 24577]

/-- Extra bits of the distance symbols 0 to 29. -/
def distanceExtra : Array Nat :=
  #[0, 0, 0, 0, 1, 1, 2, 2, 3, 3, 4, 4, 5, 5, 6, 6, 7, 7, 8, 8, 9, 9, 10, 10, 11, 11, 12, 12,
    13, 13]

/-- The lengths of the fixed literal/length code. -/
def fixedLiteralLengths : List Nat :=
  (List.range 288).map fun s => if s < 144 then 8 else if s < 256 then 9 else if s < 280 then 7 else 8

/-- The fixed codes: literals and lengths, and distances (32 codes of five bits, of which
the last two stand for no distance). -/
def fixedCodes : Decoding (Code × Code) := do
  return (← Code.ofLengths fixedLiteralLengths false, ← Code.ofLengths (List.replicate 32 5) false)

/-- Copy `length` bytes from `distance` bytes back, one at a time, so that a copy may
overlap the bytes it produces. Before the first byte of output the window holds zeros. -/
def copyBack (out : ByteArray) (distance length : Nat) : ByteArray :=
  (List.range length).foldl (fun o _ =>
    o.push (if distance ≤ o.size then o.get! (o.size - distance) else 0)) out

/-- Decode the symbols of one Huffman-coded block up to its end symbol. -/
def codedBlock (lit dist : Code) : Nat → BitReader → ByteArray → Decoding (BitReader × ByteArray)
  | 0, _, _ => throw .truncated
  | fuel + 1, r, out => do
    let (sym, r) ← lit.decode r
    if sym < 256 then codedBlock lit dist fuel r (out.push sym.toUInt8)
    else if sym = 256 then return (r, out)
    else
      let i := sym - 257
      if i ≥ 29 then throw .corrupt else
      let (extra, r) ← r.bits (lengthExtra.getD i 0)
      let length := lengthBase.getD i 0 + extra
      let (dsym, r) ← dist.decode r
      if dsym ≥ 30 then throw .corrupt else
      let (dextra, r) ← r.bits (distanceExtra.getD dsym 0)
      codedBlock lit dist fuel r (copyBack out (distanceBase.getD dsym 0 + dextra) length)

/-- The order in which the lengths of the code-length code are sent. -/
def lengthOrder : List Nat := [16, 17, 18, 0, 8, 7, 9, 6, 10, 5, 11, 4, 12, 3, 13, 2, 14, 1, 15]

/-- Read `count` code lengths with the code-length code, expanding the repeat symbols. -/
def readLengths (h : Code) (count : Nat) : Nat → BitReader → List Nat → Decoding (BitReader × List Nat)
  | 0, _, _ => throw .truncated
  | fuel + 1, r, acc =>
    if acc.length ≥ count then
      if acc.length = count then pure (r, acc) else throw .corrupt
    else do
      let (sym, r) ← h.decode r
      if sym < 16 then readLengths h count fuel r (acc ++ [sym])
      else if sym = 16 then
        let prev ← match acc.getLast? with
          | some p => pure p
          | none => throw .corrupt
        let (n, r) ← r.bits 2
        readLengths h count fuel r (acc ++ List.replicate (3 + n) prev)
      else if sym = 17 then
        let (n, r) ← r.bits 3
        readLengths h count fuel r (acc ++ List.replicate (3 + n) 0)
      else
        let (n, r) ← r.bits 7
        readLengths h count fuel r (acc ++ List.replicate (11 + n) 0)

/-- Read the code description at the start of a dynamic block. At most 286 literal and
length codes and 30 distance codes may be described; the code of the code lengths must
be complete. -/
def dynamicCodes (r : BitReader) : Decoding (Code × Code × BitReader) := do
  let (hlit, r) ← r.bits 5
  let (hdist, r) ← r.bits 5
  let (hclen, r) ← r.bits 4
  if hlit + 257 > 286 || hdist + 1 > 30 then throw .corrupt
  let (clens, r) ← (List.range (hclen + 4)).foldlM (fun (acc : List (Nat × Nat) × BitReader) i => do
    let (l, r') ← acc.2.bits 3
    return (acc.1 ++ [(lengthOrder.getD i 0, l)], r')) ([], r)
  let lengthCode ← Code.ofLengths ((List.range 19).map fun s =>
    ((clens.find? fun p => p.1 = s).map (·.2)).getD 0) true
  let (r, lengths) ← readLengths lengthCode (hlit + 257 + hdist + 1) (r.remaining + 1) r []
  let dist ← Code.ofLengths (lengths.drop (hlit + 257)) false
  let lit ← Code.ofLengths (lengths.take (hlit + 257)) false
  return (lit, dist, r)

/-- Decode the blocks from the reader's position to the final block. -/
def blocks : Nat → BitReader → ByteArray → Decoding ByteArray
  | 0, _, _ => throw .truncated
  | fuel + 1, r, out => do
    let (final, r) ← r.bit
    let (kind, r) ← r.bits 2
    let (r, out) ←
      if kind = 0 then do
        let r := r.align
        let (len, r) ← r.bits 16
        let (nlen, r) ← r.bits 16
        if len + nlen ≠ 0xFFFF then throw .corrupt else
        let start := r.pos / 8
        if start + len > r.data.size then throw .truncated else
        pure ({ r with pos := r.pos + 8 * len }, out ++ r.data.extract start (start + len))
      else if kind = 1 then do
        let (lit, dist) ← fixedCodes
        codedBlock lit dist (r.remaining + 1) r out
      else if kind = 2 then do
        let (lit, dist, r) ← dynamicCodes r
        codedBlock lit dist (r.remaining + 1) r out
      else throw .corrupt
    if final = 1 then return out else blocks fuel r out

/-- The bytes a raw DEFLATE stream encodes, or why it cannot be decoded. -/
def inflate (data : ByteArray) : Decoding ByteArray :=
  blocks (data.size * 8 + 1) ⟨data, 0⟩ ByteArray.empty

end JarDeploy.Inflate
