/-!
# Reading bytes as UTF-8 text with replacement

Bytes that are not well-formed UTF-8 still read as text when every ill-formed part is
replaced by U+FFFD. The part replaced is the longest prefix of a sequence that could still
have become a character: a lead byte and the continuation bytes that fit it, or one lone
byte. Reading resumes at the first byte that did not fit.
-/

namespace JarDeploy.Utf8

set_option autoImplicit false

/-- The number of bytes of the sequence a lead byte opens, or zero if it opens none. -/
def width (b : UInt8) : Nat :=
  if b < 0x80 then 1
  else if 0xC2 ≤ b ∧ b ≤ 0xDF then 2
  else if 0xE0 ≤ b ∧ b ≤ 0xEF then 3
  else if 0xF0 ≤ b ∧ b ≤ 0xF4 then 4
  else 0

/-- The range the first continuation byte must lie in, which excludes overlong forms,
surrogates and values beyond U+10FFFF. -/
def secondRange (b : UInt8) : UInt8 × UInt8 :=
  if b = 0xE0 then (0xA0, 0xBF)
  else if b = 0xED then (0x80, 0x9F)
  else if b = 0xF0 then (0x90, 0xBF)
  else if b = 0xF4 then (0x80, 0x8F)
  else (0x80, 0xBF)

/-- The continuation bytes at the front of `rest` that fit, at most `count` of them. -/
def fitting (rest : List UInt8) (lo hi : UInt8) (count : Nat) : List UInt8 :=
  match count, rest with
  | 0, _ => []
  | _, [] => []
  | n + 1, c :: more => if lo ≤ c ∧ c ≤ hi then c :: fitting more 0x80 0xBF n else []

/-- The character of a lead byte and its continuation bytes. -/
def combine (lead : UInt8) (conts : List UInt8) : Char :=
  let leadBits := match conts.length with
    | 0 => lead.toNat
    | 1 => lead.toNat % 32
    | 2 => lead.toNat % 16
    | _ => lead.toNat % 8
  Char.ofNat (conts.foldl (fun acc c => acc * 64 + c.toNat % 64) leadBits)

/-- The characters of `bytes`; `fuel` bounds the number of steps, and each step uses up
at least one byte. -/
def charsWith : Nat → List UInt8 → List Char
  | 0, _ => []
  | _, [] => []
  | fuel + 1, b :: rest =>
    let w := width b
    if w = 0 then '�' :: charsWith fuel rest
    else
      let (lo, hi) := secondRange b
      let conts := fitting rest lo hi (w - 1)
      if conts.length = w - 1 then combine b conts :: charsWith fuel (rest.drop (w - 1))
      else '�' :: charsWith fuel (rest.drop conts.length)

/-- The text of a byte string, ill-formed parts replaced. -/
def decodeLossy (bytes : ByteArray) : String :=
  String.ofList (charsWith bytes.size bytes.toList)

/-- The text of a byte string, if it is well-formed UTF-8. -/
def decode? (bytes : ByteArray) : Option String := String.fromUTF8? bytes

end JarDeploy.Utf8
