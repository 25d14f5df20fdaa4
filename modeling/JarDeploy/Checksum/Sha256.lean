/-!
# SHA-256 digests

The secure hash of FIPS 180-4: the message is padded with a one bit, zeros and its
length in bits as a 64-bit big-endian number, then each 64-byte block is expanded to a
schedule of 64 words and folded into the eight-word state by 64 rounds. Listings record
the digest of each deployed file in lower-case hex.
-/

namespace JarDeploy.Sha256

set_option autoImplicit false

/-- The round constants: fractional parts of the cube roots of the first 64 primes. -/
def roundConstants : Array UInt32 := #[
  0x428a2f98, 0x71374491, 0xb5c0fbcf, 0xe9b5dba5, 0x3956c25b, 0x59f111f1, 0x923f82a4, 0xab1c5ed5,
  0xd807aa98, 0x12835b01, 0x243185be, 0x550c7dc3, 0x72be5d74, 0x80deb1fe, 0x9bdc06a7, 0xc19bf174,
  0xe49b69c1, 0xefbe4786, 0x0fc19dc6, 0x240ca1cc, 0x2de92c6f, 0x4a7484aa, 0x5cb0a9dc, 0x76f988da,
  0x983e5152, 0xa831c66d, 0xb00327c8, 0xbf597fc7, 0xc6e00bf3, 0xd5a79147, 0x06ca6351, 0x14292967,
  0x27b70a85, 0x2e1b2138, 0x4d2c6dfc, 0x53380d13, 0x650a7354, 0x766a0abb, 0x81c2c92e, 0x92722c85,
  0xa2bfe8a1, 0xa81a664b, 0xc24b8b70, 0xc76c51a3, 0xd192e819, 0xd6990624, 0xf40e3585, 0x106aa070,
  0x19a4c116, 0x1e376c08, 0x2748774c, 0x34b0bcb5, 0x391c0cb3, 0x4ed8aa4a, 0x5b9cca4f, 0x682e6ff3,
  0x748f82ee, 0x78a5636f, 0x84c87814, 0x8cc70208, 0x90befffa, 0xa4506ceb, 0xbef9a3f7, 0xc67178f2]

/-- The initial state: fractional parts of the square roots of the first eight primes. -/
def initialState : Array UInt32 := #[
  0x6a09e667, 0xbb67ae85, 0x3c6ef372, 0xa54ff53a, 0x510e527f, 0x9b05688c, 0x1f83d9ab, 0x5be0cd19]

/-- Rotation to the right by `n` bits. -/
def rotr (x : UInt32) (n : UInt32) : UInt32 := (x >>> n) ||| (x <<< (32 - n))

/-- The small sigma functions of the message schedule. -/
def smallSigma0 (x : UInt32) : UInt32 := rotr x 7 ^^^ rotr x 18 ^^^ (x >>> 3)
def smallSigma1 (x : UInt32) : UInt32 := rotr x 17 ^^^ rotr x 19 ^^^ (x >>> 10)

/-- The big sigma functions of the rounds. -/
def bigSigma0 (x : UInt32) : UInt32 := rotr x 2 ^^^ rotr x 13 ^^^ rotr x 22
def bigSigma1 (x : UInt32) : UInt32 := rotr x 6 ^^^ rotr x 11 ^^^ rotr x 25

/-- The message followed by its padding: a length that is a multiple of 64 bytes. -/
def pad (msg : ByteArray) : ByteArray :=
  let zeros := (55 + 64 - msg.size % 64) % 64
  let bits := msg.size * 8
  let lengthBytes := (List.range 8).reverse.map fun i => (bits >>> (8 * i)).toUInt8
  msg ++ ⟨#[0x80]⟩ ++ ⟨(List.replicate zeros (0 : UInt8)).toArray⟩ ++ ⟨lengthBytes.toArray⟩

/-- The big-endian word at byte offset `i`. -/
def wordAt (b : ByteArray) (i : Nat) : UInt32 :=
  (List.range 4).foldl (fun (w : UInt32) k => (w <<< 8) ||| (b.get! (i + k)).toUInt32) 0

/-- The 64-word schedule of the block at byte offset `base`. -/
def schedule (b : ByteArray) (base : Nat) : Array UInt32 :=
  let first := ((List.range 16).map fun t => wordAt b (base + 4 * t)).toArray
  (List.range 48).foldl (fun w t =>
    let i := t + 16
    w.push (smallSigma1 (w.getD (i - 2) 0) + w.getD (i - 7) 0 + smallSigma0 (w.getD (i - 15) 0)
      + w.getD (i - 16) 0)) first

/-- The eight working variables of the rounds. -/
structure Working where
  a : UInt32
  b : UInt32
  c : UInt32
  d : UInt32
  e : UInt32
  f : UInt32
  g : UInt32
  h : UInt32

/-- One round with schedule word `w` and round constant `k`. -/
def round (v : Working) (k w : UInt32) : Working :=
  let t1 := v.h + bigSigma1 v.e + ((v.e &&& v.f) ^^^ (~~~v.e &&& v.g)) + k + w
  let t2 := bigSigma0 v.a + ((v.a &&& v.b) ^^^ (v.a &&& v.c) ^^^ (v.b &&& v.c))
  ⟨t1 + t2, v.a, v.b, v.c, v.d + t1, v.e, v.f, v.g⟩

/-- Fold one block into the state. -/
def compress (state : Array UInt32) (b : ByteArray) (base : Nat) : Array UInt32 :=
  let w := schedule b base
  let s := fun i => state.getD i 0
  let start : Working := ⟨s 0, s 1, s 2, s 3, s 4, s 5, s 6, s 7⟩
  let v := (List.range 64).foldl (fun v t => round v (roundConstants.getD t 0) (w.getD t 0)) start
  #[s 0 + v.a, s 1 + v.b, s 2 + v.c, s 3 + v.d, s 4 + v.e, s 5 + v.f, s 6 + v.g, s 7 + v.h]

/-- The 32-byte digest of a message. -/
def digest (msg : ByteArray) : ByteArray :=
  let p := pad msg
  let state := (List.range (p.size / 64)).foldl (fun st i => compress st p (64 * i)) initialState
  ⟨(state.toList.flatMap fun (w : UInt32) => [(w >>> 24).toUInt8, (w >>> 16).toUInt8, (w >>> 8).toUInt8,
    w.toUInt8]).toArray⟩

/-- Two lower-case hex digits per byte. -/
def hex (bytes : ByteArray) : String :=
  let digit := fun (n : Nat) => Nat.digitChar n
  bytes.foldl (fun s b => s.push (digit (b.toNat / 16)) |>.push (digit (b.toNat % 16))) ""

/-- The digest of a message in lower-case hex. -/
def hexDigest (msg : ByteArray) : String := hex (digest msg)

end JarDeploy.Sha256
