import JarDeploy.Proofs.ZipRoundTrip
import JarDeploy.Proofs.Manifest
import JarDeploy.Deflate.Inflate

/-!
# Stored blocks inflate to their data

Inflating a stream of stored blocks gives back the data the blocks hold
(`inflate_storedStream`), so a file a writer adds reads back as it was given. Bits are
counted from the low end of each byte, so the bits of a stream from a position on are the
little-endian value of its bytes shifted right by that position (`bits_eq`); at a byte
boundary that is the value of the bytes from there on (`shiftRight_leValue`). A block's
header, its two lengths and its bytes are read that way (`blocks_storedBlock`), and the
blocks one after another (`blocks_stored`).
-/

namespace JarDeploy.Inflate

set_option autoImplicit false

open Zip (leValue)

/-! ## Bits as numbers -/

/-- Shifting the value of bytes by whole bytes drops them. -/
theorem shiftRight_leValue (l : List UInt8) (q : Nat) : leValue l >>> (8 * q) = leValue (l.drop q) := by
  induction l generalizing q with
  | nil => simp [leValue]
  | cons x xs ih =>
    cases q with
    | zero => simp
    | succ q =>
      have hx := x.toNat_lt
      have hbyte : (leValue xs * 256 + x.toNat) >>> 8 = leValue xs := by
        rw [Nat.shiftRight_eq_div_pow]
        show (leValue xs * 256 + x.toNat) / 256 = leValue xs
        omega
      rw [Nat.mul_succ, Nat.add_comm, Nat.shiftRight_add, leValue, hbyte, ih, List.drop_succ_cons]

/-- The low bits of a byte are not disturbed by the bytes above it. -/
theorem shiftRight_mod_two_low (a x k : Nat) (hk : k < 8) :
    ((a * 256 + x) >>> k) % 2 = (x >>> k) % 2 := by
  have h : k = 0 ∨ k = 1 ∨ k = 2 ∨ k = 3 ∨ k = 4 ∨ k = 5 ∨ k = 6 ∨ k = 7 := by omega
  rcases h with rfl | rfl | rfl | rfl | rfl | rfl | rfl | rfl <;>
    simp only [Nat.shiftRight_eq_div_pow, Nat.reducePow] <;> omega

/-- Bit `p` of a byte string. -/
theorem shiftRight_leValue_mod_two (l : List UInt8) (p : Nat) (hp : p / 8 < l.length) :
    (leValue l >>> p) % 2 = (l[p / 8].toNat >>> (p % 8)) % 2 := by
  have hsplit : leValue l >>> p = leValue l >>> (8 * (p / 8)) >>> (p % 8) := by
    rw [← Nat.shiftRight_add, Nat.div_add_mod]
  rw [hsplit, shiftRight_leValue, List.drop_eq_getElem_cons hp, leValue,
    shiftRight_mod_two_low _ _ _ (Nat.mod_lt _ (by decide))]

/-- One bit, when there is one left. -/
theorem bit_eq (r : BitReader) (h : r.pos < r.data.size * 8) :
    r.bit = .ok ((leValue r.data.data.toList >>> r.pos) % 2, { r with pos := r.pos + 1 }) := by
  have hp : r.pos / 8 < r.data.data.toList.length := by simp; omega
  unfold BitReader.bit
  rw [if_pos h, Zip.get!_eq_toList hp, shiftRight_leValue_mod_two _ _ hp]
  rfl

/-- Putting bit `n` of a number above its `n` low bits gives its `n + 1` low bits. -/
theorem mod_two_pow_or (x n : Nat) :
    x % Nat.pow 2 n ||| ((x >>> n) % 2) <<< n = x % Nat.pow 2 (n + 1) := by
  have hlt := Nat.mod_lt x (Nat.two_pow_pos n)
  rw [Nat.pow_eq, Nat.pow_eq, Nat.or_comm, ← Nat.shiftLeft_add_eq_or_of_lt hlt, Nat.shiftLeft_eq,
    Nat.mod_pow_succ, Nat.shiftRight_eq_div_pow, Nat.add_comm, Nat.mul_comm]

/-- `n` bits, when there are that many left: the value of the bytes shifted to the reader's
position, cut to `n` bits. -/
theorem bits_eq (r : BitReader) (n : Nat) (h : r.pos + n ≤ r.data.size * 8) :
    r.bits n = .ok ((leValue r.data.data.toList >>> r.pos) % Nat.pow 2 n, { r with pos := r.pos + n }) := by
  unfold BitReader.bits
  induction n with
  | zero =>
    show Except.ok (0, r) = _
    simp [Nat.mod_one]
  | succ n ih =>
    have hbit := bit_eq { r with pos := r.pos + n } (by simp; omega)
    rw [List.range_succ, List.foldlM_append, ih (by omega)]
    simp only [Manifest.ok_bind, List.foldlM_cons, List.foldlM_nil, hbit, Manifest.pure_eq_ok]
    rw [Nat.shiftRight_add, mod_two_pow_or, Nat.add_assoc]

/-! ## One stored block -/

/-- Two bytes at a byte boundary: a little-endian 16-bit number. -/
theorem leValue_mod_two_bytes (b0 b1 : UInt8) (rest : List UInt8) :
    leValue (b0 :: b1 :: rest) % Nat.pow 2 16 = b1.toNat * 256 + b0.toNat := by
  have := b0.toNat_lt
  have := b1.toNat_lt
  simp only [leValue]
  show _ % 65536 = _
  omega

/-- A length and the byte above it, written as two bytes, read back. -/
theorem two_bytes_of_lt {n : Nat} (hn : n < 65536) :
    (UInt8.ofNat (n >>> 8)).toNat * 256 + (UInt8.ofNat n).toNat = n := by
  simp [Nat.shiftRight_eq_div_pow]
  omega

theorem storedBlock_toList (final : Bool) (chunk : ByteArray) :
    (Deflate.storedBlock final chunk).data.toList =
      [if final then 1 else 0, UInt8.ofNat chunk.size, UInt8.ofNat (chunk.size >>> 8),
        UInt8.ofNat (65535 - chunk.size), UInt8.ofNat ((65535 - chunk.size) >>> 8)] ++ chunk.data.toList := by
  simp [Deflate.storedBlock]

/-- A stored block read from a byte boundary: its bytes are appended to the output, and the
decoder stops after a final block or goes on at the next byte. -/
theorem blocks_storedBlock {data chunk : ByteArray} {pre post : List UInt8} (final : Bool)
    (hn : chunk.size ≤ 65535) (h : data.data.toList = pre ++ (Deflate.storedBlock final chunk).data.toList ++ post)
    (fuel : Nat) (out : ByteArray) :
    blocks (fuel + 1) ⟨data, 8 * pre.length⟩ out =
      if final then .ok (out ++ chunk) else blocks fuel ⟨data, 8 * (pre.length + 5 + chunk.size)⟩ (out ++ chunk) := by
  have hlist : data.data.toList = pre ++ ([if final then 1 else 0, UInt8.ofNat chunk.size,
      UInt8.ofNat (chunk.size >>> 8), UInt8.ofNat (65535 - chunk.size),
      UInt8.ofNat ((65535 - chunk.size) >>> 8)] ++ chunk.data.toList ++ post) := by
    rw [h, storedBlock_toList]
    simp only [List.append_assoc]
  have hsize : data.size = pre.length + 5 + chunk.size + post.length := by
    rw [Zip.size_eq_length, hlist, Zip.size_eq_length chunk]
    simp only [List.length_append, List.length_cons, List.length_nil]
    omega
  -- every read is of the bytes from the block's start on
  have hat : leValue data.data.toList >>> (8 * pre.length) =
      leValue ([if final then 1 else 0, UInt8.ofNat chunk.size, UInt8.ofNat (chunk.size >>> 8),
        UInt8.ofNat (65535 - chunk.size), UInt8.ofNat ((65535 - chunk.size) >>> 8)] ++ chunk.data.toList ++ post) := by
    rw [shiftRight_leValue, hlist, List.drop_left]
  have hflag : (if final then (1 : UInt8) else 0).toNat = if final then 1 else 0 := by
    cases final <;> rfl
  have h1 : BitReader.bit ⟨data, 8 * pre.length⟩ =
      .ok (if final then 1 else 0, ⟨data, 8 * pre.length + 1⟩) := by
    rw [bit_eq _ (by simp only; omega)]
    simp only [hat, List.cons_append, leValue, hflag]
    cases final <;> simp <;> omega
  have h2 : BitReader.bits ⟨data, 8 * pre.length + 1⟩ 2 = .ok (0, ⟨data, 8 * pre.length + 1 + 2⟩) := by
    rw [bits_eq _ _ (by simp only; omega)]
    simp only [Nat.shiftRight_add, hat, List.cons_append, leValue, hflag]
    have : (if final then 1 else 0) < 2 := by cases final <;> decide
    simp only [Nat.shiftRight_eq_div_pow, Nat.reducePow]
    show Except.ok ((_ + _) / 2 % 4, _) = _
    congr 2
    omega
  have hlen : BitReader.bits ⟨data, 8 * (pre.length + 1)⟩ 16 =
      .ok (chunk.size, ⟨data, 8 * (pre.length + 1) + 16⟩) := by
    rw [bits_eq _ _ (by simp only; omega), Nat.mul_add, Nat.shiftRight_add, hat, Nat.mul_one,
      shiftRight_leValue (q := 1)]
    simp only [List.cons_append, List.drop_succ_cons, List.drop_zero, leValue_mod_two_bytes,
      two_bytes_of_lt (show chunk.size < 65536 by omega)]
  have hcomplement : BitReader.bits ⟨data, 8 * (pre.length + 1) + 16⟩ 16 =
      .ok (65535 - chunk.size, ⟨data, 8 * (pre.length + 1) + 16 + 16⟩) := by
    rw [bits_eq _ _ (by simp only; omega), show 8 * (pre.length + 1) + 16 = 8 * pre.length + 8 * 3 by omega,
      Nat.shiftRight_add, hat, shiftRight_leValue (q := 3)]
    simp only [List.cons_append, List.drop_succ_cons, List.drop_zero, leValue_mod_two_bytes,
      two_bytes_of_lt (show 65535 - chunk.size < 65536 by omega)]
  have hchunk : data.extract (pre.length + 5) (pre.length + 5 + chunk.size) = chunk := by
    have hbytes := @Zip.extract_eq data chunk (pre ++ (Deflate.storedBlock final chunk).data.toList.take 5) post
      (by rw [h, storedBlock_toList]; simp)
    simpa [storedBlock_toList] using hbytes
  have halign : BitReader.align ⟨data, 8 * pre.length + 1 + 2⟩ = ⟨data, 8 * (pre.length + 1)⟩ := by
    simp only [BitReader.align, BitReader.mk.injEq, true_and]
    omega
  have hstart : (8 * (pre.length + 1) + 16 + 16) / 8 = pre.length + 5 := by omega
  rw [blocks, h1]
  simp only [Manifest.ok_bind, h2, if_true, halign, hlen, hcomplement]
  rw [if_neg (by omega)]
  simp only [hstart]
  rw [if_neg (by omega)]
  simp only [Manifest.ok_bind, Manifest.pure_eq_ok, hchunk]
  have hnext : 8 * (pre.length + 1) + 16 + 16 + 8 * chunk.size = 8 * (pre.length + 5 + chunk.size) := by omega
  cases final
  · simp [hnext]
  · simp

/-! ## A stream of stored blocks -/

/-- The bytes of stored blocks holding `cs`, none of them final. -/
def openBlocks (cs : List ByteArray) : List UInt8 :=
  cs.flatMap fun c => (Deflate.storedBlock false c).data.toList

theorem length_storedBlock (final : Bool) (chunk : ByteArray) :
    (Deflate.storedBlock final chunk).data.toList.length = 5 + chunk.size := by
  simp [storedBlock_toList]; omega

theorem length_le_openBlocks (cs : List ByteArray) : cs.length ≤ (openBlocks cs).length := by
  induction cs with
  | nil => simp
  | cons c cs ih =>
    simp only [openBlocks, List.flatMap_cons, List.length_append, List.length_cons, length_storedBlock] at ih ⊢
    omega

/-- Open blocks followed by a final one inflate to their chunks, one after another. -/
theorem blocks_stored {data last : ByteArray} (cs : List ByteArray) {pre post : List UInt8}
    (hcs : ∀ c ∈ cs, c.size ≤ 65535) (hlast : last.size ≤ 65535)
    (h : data.data.toList = pre ++ openBlocks cs ++ (Deflate.storedBlock true last).data.toList ++ post)
    (fuel : Nat) (hfuel : cs.length < fuel) (out : ByteArray) :
    blocks fuel ⟨data, 8 * pre.length⟩ out = .ok (cs.foldl (· ++ ·) out ++ last) := by
  -- one block per step; the reader moves past each block to the next
  induction cs generalizing pre fuel out with
  | nil =>
    obtain ⟨fuel, rfl⟩ : ∃ f, fuel = f + 1 := ⟨fuel - 1, by simp at hfuel; omega⟩
    rw [blocks_storedBlock true hlast (by simpa [openBlocks] using h)]
    rfl
  | cons c cs ih =>
    obtain ⟨fuel, rfl⟩ : ∃ f, fuel = f + 1 := ⟨fuel - 1, by simp at hfuel; omega⟩
    have hc := hcs c (List.mem_cons_self ..)
    have hnext : pre.length + 5 + c.size = (pre ++ (Deflate.storedBlock false c).data.toList).length := by
      rw [List.length_append, length_storedBlock, Nat.add_assoc]
    rw [@blocks_storedBlock data c pre (openBlocks cs ++ (Deflate.storedBlock true last).data.toList ++ post)
      false hc (by rw [h]; simp [openBlocks]) fuel out, if_neg Bool.false_ne_true, hnext,
      ih (fun x hx => hcs x (List.mem_cons_of_mem _ hx)) (by rw [h]; simp [openBlocks]) fuel
        (by simp at hfuel; omega)]
    rfl

/-- The `i`-th piece a stream of stored blocks cuts its data into. -/
def storedChunk (data : ByteArray) (i : Nat) : ByteArray :=
  data.extract (i * Deflate.storedLimit) ((i + 1) * Deflate.storedLimit)

theorem size_storedChunk (data : ByteArray) (i : Nat) : (storedChunk data i).size ≤ 65535 := by
  simp only [storedChunk, ByteArray.size_extract, Deflate.storedLimit]
  omega

/-- The first `k` pieces together are the first `k` blocks' worth of data. -/
theorem foldl_storedChunk (data : ByteArray) (k : Nat) :
    ((List.range k).map (storedChunk data)).foldl (· ++ ·) ByteArray.empty =
      data.extract 0 (k * Deflate.storedLimit) := by
  induction k with
  | zero => simp
  | succ k ih =>
    rw [List.range_succ, List.map_append, List.foldl_append, ih, List.map_cons, List.map_nil,
      List.foldl_cons, List.foldl_nil, storedChunk, ByteArray.extract_append_extract, Nat.zero_min,
      Nat.max_eq_right (Nat.mul_le_mul_right _ (Nat.le_succ k))]

/-- The blocks of a stream: all pieces but the last in open blocks, the last in a final one. -/
theorem storedStream_toList {data : ByteArray} {k : Nat}
    (hk : (data.size + Deflate.storedLimit - 1) / Deflate.storedLimit = k + 1) :
    (Deflate.storedStream data).data.toList =
      [] ++ openBlocks ((List.range k).map (storedChunk data)) ++
        (Deflate.storedBlock true (storedChunk data k)).data.toList ++ [] := by
  have hopen : (List.range k).flatMap (fun i => (Deflate.storedBlock (decide (i + 1 = k + 1))
      (data.extract (i * Deflate.storedLimit) ((i + 1) * Deflate.storedLimit))).data.toList) =
      openBlocks ((List.range k).map (storedChunk data)) := by
    rw [openBlocks, List.flatMap_map, List.flatMap_def, List.flatMap_def]
    congr 1
    apply List.map_congr_left
    intro i hi
    rw [List.mem_range] at hi
    rw [decide_eq_false (by omega), storedChunk]
  unfold Deflate.storedStream
  simp only [hk, Nat.add_one_ne_zero, if_false]
  rw [Zip.foldl_append_toList, List.range_succ, List.flatMap_append, List.flatMap_singleton, hopen,
    decide_eq_true rfl]
  simp only [ByteArray.data_empty, List.nil_append, List.append_nil, storedChunk]

/-- The pieces cover the data: the last one reaches its end. -/
theorem storedChunks_cover {data : ByteArray} {k : Nat}
    (hk : (data.size + Deflate.storedLimit - 1) / Deflate.storedLimit = k + 1) :
    ((List.range k).map (storedChunk data)).foldl (· ++ ·) ByteArray.empty ++ storedChunk data k = data := by
  have hcover : (k + 1) * Deflate.storedLimit = max ((k + 1) * Deflate.storedLimit) data.size := by
    simp only [Deflate.storedLimit] at hk ⊢
    omega
  rw [foldl_storedChunk, storedChunk, ByteArray.extract_append_extract, Nat.zero_min,
    Nat.max_eq_right (Nat.mul_le_mul_right _ (Nat.le_succ k)), hcover, ByteArray.extract_zero_max_size]

theorem length_openBlocks (cs : List ByteArray) (out : ByteArray) :
    (openBlocks cs).length + out.size = (cs.foldl (· ++ ·) out).size + 5 * cs.length := by
  induction cs generalizing out with
  | nil => simp [openBlocks]
  | cons c cs ih =>
    have h := ih (out ++ c)
    simp only [openBlocks, List.flatMap_cons, List.length_append, length_storedBlock, List.foldl_cons,
      ByteArray.size_append, List.length_cons] at h ⊢
    omega

/-- A stream of stored blocks is at least as long as its data. -/
theorem size_le_storedStream (data : ByteArray) : data.size ≤ (Deflate.storedStream data).size := by
  by_cases h0 : data.size = 0
  · omega
  · obtain ⟨k, hk⟩ : ∃ k, (data.size + Deflate.storedLimit - 1) / Deflate.storedLimit = k + 1 :=
      ⟨(data.size + Deflate.storedLimit - 1) / Deflate.storedLimit - 1, by simp only [Deflate.storedLimit]; omega⟩
    have hsize := Zip.size_eq_length (Deflate.storedStream data)
    rw [storedStream_toList hk] at hsize
    have hopen := length_openBlocks ((List.range k).map (storedChunk data)) ByteArray.empty
    have hdata := congrArg ByteArray.size (storedChunks_cover hk)
    simp only [List.length_append, List.nil_append, List.append_nil, length_storedBlock,
      ByteArray.size_append, ByteArray.size_empty] at hsize hopen hdata
    omega

/-- A stream of stored blocks inflates to the data it was made from. -/
theorem inflate_storedStream (data : ByteArray) : inflate (Deflate.storedStream data) = .ok data := by
  unfold inflate
  by_cases h0 : data.size = 0
  · -- no data: one empty final block
    have hs : Deflate.storedStream data = Deflate.storedBlock true ByteArray.empty := by
      simp [Deflate.storedStream, Deflate.storedLimit, h0]
    have hrun := @blocks_stored (Deflate.storedBlock true ByteArray.empty) ByteArray.empty [] [] []
      (by simp) (by decide) (by simp [openBlocks]) ((Deflate.storedBlock true ByteArray.empty).size * 8 + 1)
      (by simp) ByteArray.empty
    rw [List.length_nil, Nat.mul_zero] at hrun
    rw [hs, hrun, ByteArray.size_eq_zero_iff.1 h0]
    rfl
  · obtain ⟨k, hk⟩ : ∃ k, (data.size + Deflate.storedLimit - 1) / Deflate.storedLimit = k + 1 :=
      ⟨(data.size + Deflate.storedLimit - 1) / Deflate.storedLimit - 1, by simp only [Deflate.storedLimit]; omega⟩
    have hlist := storedStream_toList hk
    have hfuel : ((List.range k).map (storedChunk data)).length < (Deflate.storedStream data).size * 8 + 1 := by
      have hopen := length_le_openBlocks ((List.range k).map (storedChunk data))
      have hsize := Zip.size_eq_length (Deflate.storedStream data)
      rw [hlist] at hsize
      simp only [List.length_append] at hsize
      omega
    have hrun := @blocks_stored _ _ ((List.range k).map (storedChunk data)) [] []
      (by simp only [List.mem_map]; rintro _ ⟨i, -, rfl⟩; exact size_storedChunk data i)
      (size_storedChunk data k) hlist _ hfuel ByteArray.empty
    rw [List.length_nil, Nat.mul_zero] at hrun
    rw [hrun, storedChunks_cover hk]

end JarDeploy.Inflate
