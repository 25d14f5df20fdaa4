/-!
# Base64 with padding

The standard alphabet of RFC 4648: three bytes become four characters, and a final group
of one or two bytes is completed with `=`. Decoding accepts exactly that form.
-/

namespace JarDeploy.Base64

set_option autoImplicit false

/-- The 64 digits in order. -/
def alphabet : String := "ABCDEFGHIJKLMNOPQRSTUVWXYZabcdefghijklmnopqrstuvwxyz0123456789+/"

/-- The digit of a six-bit value. -/
def digit (n : Nat) : Char := (alphabet.toList.getD n 'A')

/-- The characters of one group of up to three bytes. -/
def group : List UInt8 → List Char
  | [a] =>
    let n := a.toNat <<< 16
    [digit (n >>> 18), digit ((n >>> 12) % 64), '=', '=']
  | [a, b] =>
    let n := (a.toNat <<< 16) ||| (b.toNat <<< 8)
    [digit (n >>> 18), digit ((n >>> 12) % 64), digit ((n >>> 6) % 64), '=']
  | a :: b :: c :: _ =>
    let n := (a.toNat <<< 16) ||| (b.toNat <<< 8) ||| c.toNat
    [digit (n >>> 18), digit ((n >>> 12) % 64), digit ((n >>> 6) % 64), digit (n % 64)]
  | [] => []

/-- The groups of three bytes of a list, the last one possibly shorter. -/
def groups : List UInt8 → List (List UInt8)
  | a :: b :: c :: rest => [a, b, c] :: groups rest
  | [] => []
  | rest => [rest]

/-- The text of a byte string. -/
def encode (bytes : ByteArray) : String :=
  String.ofList ((groups bytes.toList).flatMap group)

/-- The value of a digit, if it is one. -/
def valueOf (c : Char) : Option Nat :=
  if 'A' ≤ c ∧ c ≤ 'Z' then some (c.toNat - 'A'.toNat)
  else if 'a' ≤ c ∧ c ≤ 'z' then some (c.toNat - 'a'.toNat + 26)
  else if '0' ≤ c ∧ c ≤ '9' then some (c.toNat - '0'.toNat + 52)
  else if c = '+' then some 62
  else if c = '/' then some 63
  else none

/-- The bytes of one group of four characters. -/
def decodeGroup : List Char → Option (List UInt8)
  | [a, b, '=', '='] => do
    let n := ((← valueOf a) <<< 18) ||| ((← valueOf b) <<< 12)
    return [(n >>> 16).toUInt8]
  | [a, b, c, '='] => do
    let n := ((← valueOf a) <<< 18) ||| ((← valueOf b) <<< 12) ||| ((← valueOf c) <<< 6)
    return [(n >>> 16).toUInt8, (n >>> 8).toUInt8]
  | [a, b, c, d] => do
    let n := ((← valueOf a) <<< 18) ||| ((← valueOf b) <<< 12) ||| ((← valueOf c) <<< 6)
      ||| (← valueOf d)
    return [(n >>> 16).toUInt8, (n >>> 8).toUInt8, n.toUInt8]
  | _ => none

/-- Decode a list of characters, four at a time; only the last group may be padded. -/
def decodeChars : List Char → Option (List UInt8)
  | [] => some []
  | a :: b :: c :: d :: rest => do
    let here ← decodeGroup [a, b, c, d]
    if here.length < 3 && !rest.isEmpty then none
    else return here ++ (← decodeChars rest)
  | _ => none

/-- The bytes of a padded Base64 text, if it is one. -/
def decode (text : String) : Option ByteArray :=
  (decodeChars text.toList).map fun bs => ⟨bs.toArray⟩

end JarDeploy.Base64
