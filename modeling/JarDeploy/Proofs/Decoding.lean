import JarDeploy.Zip.Writer

/-!
# Names read back as written

A writer stores an entry's name as its UTF-8 bytes and marks the record as UTF-8 only when
the name is not ASCII; a reader decodes the stored bytes as UTF-8 when the mark is there and
as code page 437 otherwise. Either way the name comes back (`decodeText_nameFlags`): decoding
UTF-8 with replacement reads the encoding of every character as that character
(`Utf8.decodeLossy_toUTF8`), and the bytes of an ASCII name are the same in both encodings.
-/

namespace JarDeploy

set_option autoImplicit false

namespace Zip

/-! ## Byte arrays as lists -/

theorem get!_eq_getElem {b : ByteArray} {i : Nat} (h : i < b.size) : b.get! i = b[i] := by
  cases b with
  | mk bs =>
    have hi : i < bs.size := h
    show bs[i]! = bs[i]
    exact getElem!_pos bs i hi

theorem get!_eq_toList {b : ByteArray} {i : Nat} (h : i < b.data.toList.length) :
    b.get! i = b.data.toList[i] := by
  rw [get!_eq_getElem (by simpa using h)]
  simp [ByteArray.getElem_eq_getElem_data]

/-- The bytes of a byte array, one by one, are those of its array. -/
theorem toList_loop (b : ByteArray) (i : Nat) (r : List UInt8) :
    ByteArray.toList.loop b i r = r.reverse ++ b.data.toList.drop i := by
  fun_induction ByteArray.toList.loop b i r with
  | case1 i r hi ih =>
    rw [ih, get!_eq_toList (by simpa using hi), List.reverse_cons, List.append_assoc, List.singleton_append,
      ← List.drop_eq_getElem_cons]
  | case2 i r hi =>
    rw [List.drop_eq_nil_of_le (by simpa using hi), List.append_nil]

theorem toList_eq (b : ByteArray) : b.toList = b.data.toList := by
  simp [ByteArray.toList, toList_loop]

/-- The stored bytes of a text are the encodings of its characters. -/
theorem toUTF8_toList (s : String) :
    s.toUTF8.data.toList = s.toList.flatMap String.utf8EncodeChar := by
  rw [String.toUTF8_eq_toByteArray, ← String.utf8Encode_toList, List.utf8Encode,
    List.toList_data_toByteArray]

end Zip

namespace Utf8

/-! ## UTF-8 with replacement reads every encoding back -/

theorem width_of_lt {b : UInt8} (h : b.toNat < 128) : width b = 1 := by
  simp [width, UInt8.lt_iff_toNat_lt, h]

theorem width_of_two {b : UInt8} (h1 : 194 ≤ b.toNat) (h2 : b.toNat ≤ 223) : width b = 2 := by
  simp only [width, UInt8.lt_iff_toNat_lt, UInt8.le_iff_toNat_le, UInt8.reduceToNat]
  rw [if_neg (by omega), if_pos ⟨h1, h2⟩]

theorem width_of_three {b : UInt8} (h1 : 224 ≤ b.toNat) (h2 : b.toNat ≤ 239) : width b = 3 := by
  simp only [width, UInt8.lt_iff_toNat_lt, UInt8.le_iff_toNat_le, UInt8.reduceToNat]
  rw [if_neg (by omega), if_neg (by omega), if_pos ⟨h1, h2⟩]

theorem width_of_four {b : UInt8} (h1 : 240 ≤ b.toNat) (h2 : b.toNat ≤ 244) : width b = 4 := by
  simp only [width, UInt8.lt_iff_toNat_lt, UInt8.le_iff_toNat_le, UInt8.reduceToNat]
  rw [if_neg (by omega), if_neg (by omega), if_neg (by omega), if_pos ⟨h1, h2⟩]

/-- The range the lead byte gives its first continuation byte admits every byte that keeps
clear of the lead's exclusions. -/
theorem secondRange_fits {b c : UInt8}
    (h : (b.toNat = 0xE0 → 0xA0 ≤ c.toNat) ∧ (b.toNat = 0xED → c.toNat ≤ 0x9F) ∧
      (b.toNat = 0xF0 → 0x90 ≤ c.toNat) ∧ (b.toNat = 0xF4 → c.toNat ≤ 0x8F) ∧
      0x80 ≤ c.toNat ∧ c.toNat ≤ 0xBF) :
    (secondRange b).1.toNat ≤ c.toNat ∧ c.toNat ≤ (secondRange b).2.toNat := by
  obtain ⟨hE0, hED, hF0, hF4, hlo, hhi⟩ := h
  have hb : ∀ n : UInt8, b = n → b.toNat = n.toNat := fun n h => h ▸ rfl
  unfold secondRange
  split
  · rename_i h; have := hE0 (hb _ h); simp; omega
  split
  · rename_i h; have := hED (hb _ h); simp; omega
  split
  · rename_i h; have := hF0 (hb _ h); simp; omega
  split
  · rename_i h; have := hF4 (hb _ h); simp; omega
  · simp; omega

theorem fitting_cons {c : UInt8} {more : List UInt8} {lo hi : UInt8} {n : Nat}
    (h1 : lo.toNat ≤ c.toNat) (h2 : c.toNat ≤ hi.toNat) :
    fitting (c :: more) lo hi (n + 1) = c :: fitting more 0x80 0xBF n := by
  simp [fitting, UInt8.le_iff_toNat_le, h1, h2]

/-- Continuation bytes after a first one in the lead's range all fit. -/
theorem fitting_eq {lo hi c : UInt8} {cs rest : List UInt8} (h1 : lo.toNat ≤ c.toNat)
    (h2 : c.toNat ≤ hi.toNat) (hcs : ∀ d ∈ cs, 0x80 ≤ d.toNat ∧ d.toNat ≤ 0xBF) :
    fitting (c :: cs ++ rest) lo hi (cs.length + 1) = c :: cs := by
  induction cs generalizing c lo hi with
  | nil => simp [fitting_cons h1 h2, fitting]
  | cons d ds ih =>
    have hd := hcs d (List.mem_cons_self ..)
    rw [List.cons_append, fitting_cons h1 h2, List.length_cons,
      ih (by simpa using hd.1) (by simpa using hd.2) (fun x hx => hcs x (List.mem_cons_of_mem _ hx))]

/-- A lead byte followed by the continuation bytes that fit it reads as one character. -/
theorem charsWith_lead {b : UInt8} {conts rest : List UInt8} {fuel : Nat}
    (hw : width b = conts.length + 1)
    (hfit : fitting (conts ++ rest) (secondRange b).1 (secondRange b).2 conts.length = conts) :
    charsWith (fuel + 1) (b :: (conts ++ rest)) = combine b conts :: charsWith fuel rest := by
  simp only [charsWith, hw, Nat.add_sub_cancel, Nat.add_one_ne_zero, if_false, hfit, if_true,
    List.drop_left]

/-- One character's encoding reads back as the character, whatever follows it. -/
theorem charsWith_utf8EncodeChar (c : Char) (rest : List UInt8) (fuel : Nat) :
    charsWith (fuel + 1) (String.utf8EncodeChar c ++ rest) = c :: charsWith fuel rest := by
  have hv : c.val.toNat < 0xd800 ∨ (0xdfff < c.val.toNat ∧ c.val.toNat < 0x110000) := by
    have := c.valid
    simpa [UInt32.isValidChar, Nat.isValidChar] using this
  have hc : Char.ofNat c.val.toNat = c := Char.ofNat_toNat c
  unfold String.utf8EncodeChar
  simp only []
  -- the encoding is a case split on the code point `v`, one case per length
  generalize c.val.toNat = v at hv hc ⊢
  subst hc
  by_cases h1 : v ≤ 0x7f
  · rw [if_pos h1]
    have hb : (UInt8.ofNat v).toNat = v := by simp; omega
    have h := @charsWith_lead (UInt8.ofNat v) [] rest fuel (width_of_lt (by omega)) (by simp [fitting])
    simpa [combine, hb] using h
  rw [if_neg h1]
  by_cases h2 : v ≤ 0x7ff
  · rw [if_pos h2]
    have hb : (UInt8.ofNat (v / 64 % 32 + 192)).toNat = v / 64 + 192 := by simp; omega
    have hc : (UInt8.ofNat (v % 64 + 128)).toNat = v % 64 + 128 := by simp; omega
    have hr := @secondRange_fits (UInt8.ofNat (v / 64 % 32 + 192)) (UInt8.ofNat (v % 64 + 128))
      (by simp only [hb, hc]; omega)
    rw [List.cons_append, @charsWith_lead _ [_] rest fuel (width_of_two (by omega) (by omega))
      (fitting_eq hr.1 hr.2 (by simp))]
    congr 1
    simp only [combine, List.length_cons, List.length_nil, List.foldl_cons, List.foldl_nil, hb, hc]
    congr 1
    omega
  rw [if_neg h2]
  by_cases h3 : v ≤ 0xffff
  · -- three bytes: the surrogates are excluded by the range after `ED`
    rw [if_pos h3]
    have hb : (UInt8.ofNat (v / 4096 % 16 + 224)).toNat = v / 4096 + 224 := by simp; omega
    have hc1 : (UInt8.ofNat (v / 64 % 64 + 128)).toNat = v / 64 % 64 + 128 := by simp; omega
    have hc2 : (UInt8.ofNat (v % 64 + 128)).toNat = v % 64 + 128 := by simp; omega
    have hr := @secondRange_fits (UInt8.ofNat (v / 4096 % 16 + 224)) (UInt8.ofNat (v / 64 % 64 + 128))
      (by simp only [hb, hc1]; omega)
    rw [List.cons_append, @charsWith_lead _ [_, _] rest fuel (width_of_three (by omega) (by omega))
      (fitting_eq hr.1 hr.2 (by simp; omega))]
    congr 1
    simp only [combine, List.length_cons, List.length_nil, List.foldl_cons, List.foldl_nil, hb, hc1, hc2]
    congr 1
    omega
  · -- four bytes: code points end at `10FFFF`, which the range after `F4` keeps
    rw [if_neg h3]
    have hb : (UInt8.ofNat (v / 262144 % 8 + 240)).toNat = v / 262144 + 240 := by simp; omega
    have hc1 : (UInt8.ofNat (v / 4096 % 64 + 128)).toNat = v / 4096 % 64 + 128 := by simp; omega
    have hc2 : (UInt8.ofNat (v / 64 % 64 + 128)).toNat = v / 64 % 64 + 128 := by simp; omega
    have hc3 : (UInt8.ofNat (v % 64 + 128)).toNat = v % 64 + 128 := by simp; omega
    have hr := @secondRange_fits (UInt8.ofNat (v / 262144 % 8 + 240)) (UInt8.ofNat (v / 4096 % 64 + 128))
      (by simp only [hb, hc1]; omega)
    rw [List.cons_append, @charsWith_lead _ [_, _, _] rest fuel (width_of_four (by omega) (by omega))
      (fitting_eq hr.1 hr.2 (by simp; omega))]
    congr 1
    simp only [combine, List.length_cons, List.length_nil, List.foldl_cons, List.foldl_nil, hb, hc1, hc2,
      hc3]
    congr 1
    omega

theorem charsWith_nil (fuel : Nat) : charsWith fuel [] = [] := by
  cases fuel <;> rfl

/-- The encodings of characters, read with at least one step for each, are the characters. -/
theorem charsWith_flatMap (cs : List Char) (fuel : Nat) (h : cs.length ≤ fuel) :
    charsWith fuel (cs.flatMap String.utf8EncodeChar) = cs := by
  induction cs generalizing fuel with
  | nil => exact charsWith_nil fuel
  | cons c cs ih =>
    obtain ⟨fuel, rfl⟩ : ∃ f, fuel = f + 1 := ⟨fuel - 1, by simp at h; omega⟩
    rw [List.flatMap_cons, charsWith_utf8EncodeChar, ih fuel (by simpa using h)]

theorem length_le_flatMap (cs : List Char) : cs.length ≤ (cs.flatMap String.utf8EncodeChar).length := by
  induction cs with
  | nil => simp
  | cons c cs ih =>
    have : 0 < (String.utf8EncodeChar c).length := List.length_pos_iff.2 String.utf8EncodeChar_ne_nil
    simp only [List.flatMap_cons, List.length_append, List.length_cons]
    omega

/-- Decoding a text's UTF-8 bytes gives the text back. -/
theorem decodeLossy_toUTF8 (s : String) : decodeLossy s.toUTF8 = s := by
  have hsize : s.toList.length ≤ s.toUTF8.size := by
    rw [ByteArray.size, ← Array.length_toList, Zip.toUTF8_toList]
    exact length_le_flatMap s.toList
  rw [decodeLossy, Zip.toList_eq, Zip.toUTF8_toList, charsWith_flatMap _ _ hsize, String.ofList_toList]

end Utf8

namespace Zip

/-! ## Names -/

/-- An ASCII character is its own one byte. -/
theorem utf8EncodeChar_of_lt {c : Char} (h : c.toNat < 128) :
    String.utf8EncodeChar c = [UInt8.ofNat c.toNat] := by
  unfold String.utf8EncodeChar
  simp only []
  have hv : c.val.toNat ≤ 127 := Nat.le_of_lt_succ h
  rw [if_pos hv]
  rfl

/-- The bytes of ASCII characters, read as code page 437, are the characters. -/
theorem codePage437_ascii (cs : List Char) (h : ∀ c ∈ cs, c.toNat < 128) :
    (cs.flatMap String.utf8EncodeChar).map (fun b : UInt8 =>
      if b < 128 then Char.ofNat b.toNat else codePage437High.toList.getD (b.toNat - 128) ' ') = cs := by
  induction cs with
  | nil => rfl
  | cons c cs ih =>
    have hc := h c (List.mem_cons_self ..)
    have hb : (UInt8.ofNat c.toNat).toNat = c.toNat := by simp; omega
    rw [List.flatMap_cons, utf8EncodeChar_of_lt hc, List.singleton_append, List.map_cons,
      ih (fun d hd => h d (List.mem_cons_of_mem _ hd)),
      if_pos (by simpa [UInt8.lt_iff_toNat_lt, hb] using hc), hb, Char.ofNat_toNat]

/-- A name reads back from the bytes and the flags a writer stores for it. -/
theorem decodeText_nameFlags (s : String) :
    decodeText s.toUTF8 (decide ((Writer.nameFlags s >>> 11) % 2 = 1)) = s := by
  unfold Writer.nameFlags decodeText
  split
  · -- ASCII: no mark, read as code page 437
    rename_i hascii
    have h : ∀ c ∈ s.toList, c.toNat < 128 := by simpa using hascii
    rw [if_neg (by decide), toList_eq, toUTF8_toList, codePage437_ascii _ h, String.ofList_toList]
  · rw [if_pos (by decide)]
    exact Utf8.decodeLossy_toUTF8 s

end Zip

end JarDeploy
