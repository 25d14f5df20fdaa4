import JarDeploy.Json.Value
import JarDeploy.Decimal.Shortest

/-!
# Reading JSON text

A cursor over the bytes of a JSON text and the steps that read it from left to right.
Each error carries the place where reading stopped: the line (from one) and the number of
bytes read on that line. An error found while looking at the next byte, without taking
it, counts that byte as read. Errors raised by the meaning of a value (a missing member,
a value of the wrong kind) get their place from the cursor when they leave the
container that was being read.

Numbers follow the grammar strictly (no leading zero, digits after a point and in an
exponent). An integer that fits in 64 bits stays an integer; any other number becomes a
double, computed as the significand (its first 19 or 20 digits) scaled by a power of ten,
one rounding per step. A value that is only skipped is held to the grammar alone: its
numbers may be of any size, its escapes need only be well-formed, and its nesting has no
limit.
-/

namespace JarDeploy.Json

set_option autoImplicit false

/-- What went wrong while reading. -/
inductive Fault where
  | eofList
  | eofObject
  | eofString
  | eofValue
  | expectedColon
  | expectedListEnd
  | expectedObjectEnd
  | expectedIdent
  | expectedValue
  | invalidEscape
  | invalidNumber
  | numberOutOfRange
  | invalidCodePoint
  | controlCharacter
  | keyNotString
  | loneSurrogate
  | trailingComma
  | trailingCharacters
  | hexEscapeEnd
  | recursionLimit
  /-- A value that reads but does not mean what was expected. -/
  | data (message : String)
  deriving Inhabited, Repr, BEq

/-- The text of a fault. -/
def Fault.message : Fault → String
  | .eofList => "EOF while parsing a list"
  | .eofObject => "EOF while parsing an object"
  | .eofString => "EOF while parsing a string"
  | .eofValue => "EOF while parsing a value"
  | .expectedColon => "expected `:`"
  | .expectedListEnd => "expected `,` or `]`"
  | .expectedObjectEnd => "expected `,` or `\x7d`"
  | .expectedIdent => "expected ident"
  | .expectedValue => "expected value"
  | .invalidEscape => "invalid escape"
  | .invalidNumber => "invalid number"
  | .numberOutOfRange => "number out of range"
  | .invalidCodePoint => "invalid unicode code point"
  | .controlCharacter => "control character (\\u0000-\\u001F) found while parsing a string"
  | .keyNotString => "key must be a string"
  | .loneSurrogate => "lone leading surrogate in hex escape"
  | .trailingComma => "trailing comma"
  | .trailingCharacters => "trailing characters"
  | .hexEscapeEnd => "unexpected end of hex escape"
  | .recursionLimit => "recursion limit exceeded"
  | .data m => m

/-- A place in the text: line from one, bytes read on that line. -/
structure Position where
  line : Nat
  column : Nat
  deriving Inhabited, Repr, BEq

/-- A reading error and, once known, its place. -/
structure ReadError where
  fault : Fault
  position : Option Position
  deriving Inhabited, Repr

/-- The text of a reading error: the fault, then its place when known. -/
def ReadError.message (e : ReadError) : String :=
  match e.position with
  | some p => e.fault.message ++ " at line " ++ toString p.line ++ " column " ++ toString p.column
  | none => e.fault.message

/-- The place after the first `i` bytes. -/
def positionAt (bytes : ByteArray) (i : Nat) : Position :=
  let step := fun (acc : Nat × Nat × Nat) (b : UInt8) =>
    let (line, start, k) := acc
    if b == 10 then (line + 1, k + 1, k + 1) else (line, start, k + 1)
  let (line, start, _) := (bytes.toList.take i).foldl step (1, 0, 0)
  ⟨line, i - start⟩

/-- The text being read, how many bytes have been taken, and how many more levels of
arrays and objects may be opened. -/
structure Cursor where
  bytes : ByteArray
  index : Nat
  depth : Nat

/-- A reading step: it may fail, and the cursor it leaves is kept either way. -/
abbrev Reader := EStateM ReadError Cursor

/-- The next byte, not taken. -/
def peek : Reader (Option UInt8) := fun s => .ok s.bytes[s.index]? s

/-- Takes one byte. -/
def advance : Reader Unit := fun s => .ok () { s with index := s.index + 1 }

/-- Fails at the place after the bytes taken. -/
def failHere {α : Type} (f : Fault) : Reader α := fun s =>
  .error ⟨f, some (positionAt s.bytes s.index)⟩ s

/-- Fails at the place after the next byte. -/
def failAhead {α : Type} (f : Fault) : Reader α := fun s =>
  .error ⟨f, some (positionAt s.bytes (min s.bytes.size (s.index + 1)))⟩ s

/-- Fails with a meaning error that gets its place later. -/
def failData {α : Type} (message : String) : Reader α := fun s => .error ⟨.data message, none⟩ s

/-- Gives an error without a place the place of the cursor where it surfaced. -/
def placed {α : Type} (x : Reader α) : Reader α := fun s =>
  match x s with
  | .error e s' =>
    match e.position with
    | some _ => .error e s'
    | none => .error { e with position := some (positionAt s'.bytes s'.index) } s'
  | .ok a s' => .ok a s'

/-- Runs `x`, then `y` whatever `x` gave, and keeps the first error. -/
def andThenAlways {α : Type} (x : Reader α) (y : Reader Unit) : Reader α := fun s =>
  match x s with
  | .ok a s' =>
    match y s' with
    | .ok _ s'' => .ok a s''
    | .error e s'' => .error e s''
  | .error e s' =>
    match y s' with
    | .ok _ s'' => .error e s''
    | .error _ s'' => .error e s''

/-- The index of the first byte from `i` on that is not a blank. -/
def skipBlanks (bytes : ByteArray) (i : Nat) : Nat :=
  if h : i < bytes.size then
    let b := bytes[i]
    if b == 32 || b == 10 || b == 9 || b == 13 then skipBlanks bytes (i + 1) else i
  else i
termination_by bytes.size - i

/-- Skips blanks and shows the next byte. -/
def blanks : Reader (Option UInt8) := fun s =>
  let j := skipBlanks s.bytes s.index
  .ok s.bytes[j]? { s with index := j }

/-- Takes the bytes of a keyword's rest, failing on the first that differs. -/
def keyword : List UInt8 → Reader Unit
  | [] => pure ()
  | c :: rest => do
    match ← peek with
    | none => failHere .eofValue
    | some b =>
      advance
      if b == c then keyword rest else failHere .expectedIdent

/-- The value of a hex digit. -/
def hexValue (b : UInt8) : Option Nat :=
  if 48 ≤ b ∧ b ≤ 57 then some (b.toNat - 48)
  else if 97 ≤ b ∧ b ≤ 102 then some (b.toNat - 87)
  else if 65 ≤ b ∧ b ≤ 70 then some (b.toNat - 55)
  else none

/-- Four hex digits at `j`: their value and the index after them, or the fault and the
index where it is reported. -/
def hexQuad (bytes : ByteArray) (j : Nat) : Except (Fault × Nat) (Nat × Nat) :=
  if j + 4 ≤ bytes.size then
    let digit (k : Nat) : Option Nat := bytes[k]? >>= hexValue
    match digit j, digit (j + 1), digit (j + 2), digit (j + 3) with
    | some a, some b, some c, some d => .ok (((a * 16 + b) * 16 + c) * 16 + d, j + 4)
    | _, _, _, _ => .error (.invalidEscape, j + 4)
  else .error (.eofString, bytes.size)

/-- The UTF-8 bytes of a code point. -/
def utf8Of (n : Nat) : ByteArray := (Char.ofNat n).toString.toUTF8

/-- What follows a backslash-u escape at `j` (after the `u`): the bytes it stands for and
the index after it. A leading surrogate must be followed by an escaped trailing one. -/
def unicodeEscape (bytes : ByteArray) (j : Nat) : Except (Fault × Nat) (ByteArray × Nat) := do
  let (n, k) ← hexQuad bytes j
  if 0xDC00 ≤ n ∧ n ≤ 0xDFFF then throw (.loneSurrogate, k)
  if n < 0xD800 ∨ n > 0xDBFF then return (utf8Of n, k)
  match bytes[k]? with
  | none => throw (.eofString, k)
  | some b =>
    if b != 92 then throw (.hexEscapeEnd, k + 1)
    match bytes[k + 1]? with
    | none => throw (.eofString, k + 1)
    | some u =>
      if u != 117 then throw (.hexEscapeEnd, k + 2)
      let (n2, k2) ← hexQuad bytes (k + 2)
      if n2 < 0xDC00 ∨ n2 > 0xDFFF then throw (.loneSurrogate, k2)
      return (utf8Of (((n - 0xD800) * 1024 + (n2 - 0xDC00)) + 0x10000), k2)

/-- Reads a string's content from `i` (after the opening quote), collecting its bytes in
`acc`: the bytes and the index after the closing quote, or the fault and the index where
it is reported. -/
def scanString (bytes : ByteArray) (i : Nat) (acc : ByteArray) :
    Except (Fault × Nat) (ByteArray × Nat) :=
  if h : i < bytes.size then
    let b := bytes[i]
    if b == 34 then .ok (acc, i + 1)
    else if b == 92 then
      if h2 : i + 1 < bytes.size then
        let c := bytes[i + 1]
        let simple : Option UInt8 :=
          if c == 34 then some 34 else if c == 92 then some 92 else if c == 47 then some 47
          else if c == 98 then some 8 else if c == 102 then some 12 else if c == 110 then some 10
          else if c == 114 then some 13 else if c == 116 then some 9 else none
        match simple with
        | some v => scanString bytes (i + 2) (acc.push v)
        | none =>
          if c == 117 then
            match unicodeEscape bytes (i + 2) with
            | .ok (more, k) =>
              if k > i then scanString bytes k (acc ++ more) else .error (.eofString, k)
            | .error e => .error e
          else .error (.invalidEscape, i + 2)
      else .error (.eofString, bytes.size)
    else if b < 32 then .error (.controlCharacter, i + 1)
    else scanString bytes (i + 1) (acc.push b)
  else .error (.eofString, bytes.size)
termination_by bytes.size - i

/-- Reads a string whose opening quote has been taken. -/
def stringBody : Reader String := fun s =>
  match scanString s.bytes s.index ByteArray.empty with
  | .ok (raw, j) =>
    match String.fromUTF8? raw with
    | some t => .ok t { s with index := j }
    | none => .error ⟨.invalidCodePoint, some (positionAt s.bytes j)⟩ { s with index := j }
  | .error (f, j) => .error ⟨f, some (positionAt s.bytes j)⟩ { s with index := j }

/-- A number as read: an unsigned or negative 64-bit integer, or a double. -/
inductive Number where
  | unsigned (n : Nat)
  | negative (n : Int)
  | float (x : Float)

/-- The largest unsigned 64-bit integer. -/
def u64Max : Nat := 18446744073709551615

/-- `10 ^ e` as a double, for `e ≤ 308`. -/
def powerOfTen (e : Nat) : Float := Float.ofScientific 1 false e

/-- The double `significand * 10 ^ exponent`, one rounding per scaling step; none when
it overflows. -/
def scaled (positive : Bool) (significand : Nat) (exponent : Int) : Option Float :=
  let start := significand.toUInt64.toFloat
  let rec go (f : Float) (e : Int) : Nat → Option Float
    | 0 => some f
    | fuel + 1 =>
      if e.natAbs ≤ 308 then
        if e ≥ 0 then
          let g := f * powerOfTen e.toNat
          if g.isInf then none else some g
        else some (f / powerOfTen e.natAbs)
      else if f == 0 then some f
      else if e ≥ 0 then none
      else go (f / powerOfTen 308) (e + 308) fuel
  (go start exponent 20).map fun f => if positive then f else -f

/-- Reading positions of the number grammar: the steps below take the bytes of `bytes`
from an index and give the number and the index after it, or the fault and the index
where it is reported. -/
abbrev NumberScan := Except (Fault × Nat) (Number × Nat)

/-- The double `significand * 10 ^ exponent` read up to index `i`. -/
def finishFloat (positive : Bool) (significand : Nat) (exponent : Int) (i : Nat) : NumberScan :=
  match scaled positive significand exponent with
  | some f => .ok (.float f, i)
  | none => .error (.numberOutOfRange, i)

/-- Is the byte a decimal digit? -/
def isDigit (b : UInt8) : Bool := 48 ≤ b && b ≤ 57

/-- Index of the first byte from `i` that is not a digit. -/
def skipDigits (bytes : ByteArray) (i : Nat) : Nat :=
  if h : i < bytes.size then
    if isDigit bytes[i] then skipDigits bytes (i + 1) else i
  else i
termination_by bytes.size - i

/-- The exponent part after the `e` at `i`. -/
def scanExponent (bytes : ByteArray) (positive : Bool) (significand : Nat) (start : Int)
    (i : Nat) : NumberScan :=
  let j := i + 1
  let (positiveExp, j) :=
    match bytes[j]? with
    | some 43 => (true, j + 1)
    | some 45 => (false, j + 1)
    | _ => (true, j)
  match bytes[j]? with
  | none => .error (.eofValue, j)
  | some b =>
    if !isDigit b then .error (.invalidNumber, j + 1)
    else
      let endIdx := skipDigits bytes (j + 1)
      let digits := (bytes.extract j endIdx).toList
      -- the exponent saturates: past the largest 32-bit value only zero or an error remain
      let rec accumulate (exp : Nat) (k : Nat) : List UInt8 → Option Nat
        | [] => some exp
        | d :: rest =>
          let e2 := exp * 10 + (d.toNat - 48)
          if e2 > 2147483647 then none else accumulate e2 (k + 1) rest
      match accumulate 0 j digits with
      | some exp =>
        let final : Int := if positiveExp then start + exp else start - exp
        let final := max (-2147483648) (min 2147483647 final)
        finishFloat positive significand final endIdx
      | none =>
        if significand != 0 && positiveExp then
          -- the error is raised right after the digit that overflowed
          let rec overflowAt (exp : Nat) (k : Nat) : List UInt8 → Nat
            | [] => k
            | d :: rest =>
              let e2 := exp * 10 + (d.toNat - 48)
              if e2 > 2147483647 then k + 1 else overflowAt e2 (k + 1) rest
          .error (.numberOutOfRange, overflowAt 0 j digits)
        else .ok (.float (if positive then 0.0 else -0.0), endIdx)

/-- Digits after the significand overflowed: they are dropped. -/
def scanDecimalOverflow (bytes : ByteArray) (positive : Bool) (significand : Nat)
    (exponent : Int) (i : Nat) : NumberScan :=
  let j := skipDigits bytes i
  match bytes[j]? with
  | some 101 | some 69 => scanExponent bytes positive significand exponent j
  | _ => finishFloat positive significand exponent j

/-- The fraction after the point at `i`. -/
def scanDecimal (bytes : ByteArray) (positive : Bool) (significand : Nat) (before : Int)
    (i : Nat) : NumberScan :=
  let start := i + 1
  let endIdx := skipDigits bytes start
  let digits := (bytes.extract start endIdx).toList
  let rec go (sig : Nat) (after : Nat) (k : Nat) : List UInt8 → NumberScan
    | [] =>
      if after = 0 then
        match bytes[k]? with
        | some _ => .error (.invalidNumber, min bytes.size (k + 1))
        | none => .error (.eofValue, min bytes.size (k + 1))
      else
        match bytes[k]? with
        | some 101 | some 69 => scanExponent bytes positive sig (before - after) k
        | _ => finishFloat positive sig (before - after) k
    | d :: rest =>
      let s2 := sig * 10 + (d.toNat - 48)
      if s2 > u64Max then scanDecimalOverflow bytes positive sig (before - after) k
      else go s2 (after + 1) (k + 1) rest
  go significand 0 start digits

/-- Digits of an integer past 64 bits: each one raises the exponent. -/
def scanLongInteger (bytes : ByteArray) (positive : Bool) (significand : Nat) (i : Nat) :
    NumberScan :=
  let j := skipDigits bytes i
  let exponent : Int := j - i
  match bytes[j]? with
  | some 46 => scanDecimal bytes positive significand exponent j
  | some 101 | some 69 => scanExponent bytes positive significand exponent j
  | _ => finishFloat positive significand exponent j

/-- What follows the integer digits ending at `i`. -/
def scanAfterInteger (bytes : ByteArray) (positive : Bool) (significand : Nat) (i : Nat) :
    NumberScan :=
  match bytes[i]? with
  | some 46 => scanDecimal bytes positive significand 0 i
  | some 101 | some 69 => scanExponent bytes positive significand 0 i
  | _ =>
    if positive then .ok (.unsigned significand, i)
    else if 1 ≤ significand ∧ significand ≤ 9223372036854775808 then .ok (.negative (-(significand : Int)), i)
    else .ok (.float (-(significand.toUInt64.toFloat)), i)

/-- A number starting at `i` (after any minus sign). -/
def scanNumber (bytes : ByteArray) (positive : Bool) (i : Nat) : NumberScan :=
  match bytes[i]? with
  | none => .error (.eofValue, i)
  | some 48 =>
    match bytes[i + 1]? with
    | some b => if isDigit b then .error (.invalidNumber, min bytes.size (i + 2))
                else scanAfterInteger bytes positive 0 (i + 1)
    | none => scanAfterInteger bytes positive 0 (i + 1)
  | some b =>
    if !isDigit b then .error (.invalidNumber, i + 1)
    else
      let endIdx := skipDigits bytes i
      let digits := (bytes.extract i endIdx).toList
      let rec go (sig : Nat) (k : Nat) : List UInt8 → NumberScan
        | [] => scanAfterInteger bytes positive sig k
        | d :: rest =>
          let s2 := sig * 10 + (d.toNat - 48)
          if s2 > u64Max then scanLongInteger bytes positive sig k else go s2 (k + 1) rest
      go 0 i digits

/-- Reads a number whose sign, if any, has been taken. -/
def number (positive : Bool) : Reader Number := fun s =>
  match scanNumber s.bytes positive s.index with
  | .ok (n, j) => .ok n { s with index := j }
  | .error (f, j) => .error ⟨f, some (positionAt s.bytes j)⟩ { s with index := j }

/-- A number as a JSON value: integers stay exact, doubles become their shortest decimal. -/
def Number.toJson : Number → Json
  | .unsigned n => .num n
  | .negative n => .num n
  | .float x =>
    match Decimal.ofFloat x with
    | (_, none) => .num 0
    | (neg, some (d, k)) => .dec (if neg then -(d : Int) else d) k

/-- How a number is named in an error about its kind or value. -/
def Number.describe : Number → String
  | .unsigned n => "integer `" ++ toString n ++ "`"
  | .negative n => "integer `" ++ toString n ++ "`"
  | .float x => "floating point `" ++ Decimal.scientificLayout x ++ "`"

/-- The deepest nesting of arrays and objects that is read. -/
def depthLimit : Nat := 128

/-- Enters an array or object: takes the bracket, leaving one level fewer; the last level
may not be opened. -/
def enter : Reader Unit := fun s =>
  if s.depth ≤ 1 then failAhead .recursionLimit s
  else .ok () { s with index := s.index + 1, depth := s.depth - 1 }

/-- Leaves an array or object: its level is free again. -/
def leave : Reader Unit := fun s => .ok () { s with depth := s.depth + 1 }

/-- Before an item of a list: `some true` when one follows, `some false` at the end. -/
def listStep (first : Bool) : Reader Bool := do
  match ← blanks with
  | some 93 => return false
  | some 44 =>
    if first then return true
    else
      advance
      match ← blanks with
      | some 93 => failAhead .trailingComma
      | some _ => return true
      | none => failAhead .eofValue
  | some _ => if first then return true else failAhead .expectedListEnd
  | none => failAhead .eofList

/-- After the items of a list: takes the closing bracket. -/
def closeList : Reader Unit := do
  match ← blanks with
  | some 93 => advance
  | some 44 =>
    advance
    match ← blanks with
    | some 93 => failAhead .trailingComma
    | _ => failAhead .trailingCharacters
  | some _ => failAhead .trailingCharacters
  | none => failAhead .eofList

/-- Before a member of an object: `some key` when one follows, `none` at the end. The
first member needs no comma before it; every later one needs one. -/
def memberKey (first : Bool) : Reader (Option String) := do
  match ← blanks with
  | none => failAhead .eofObject
  | some 125 => return none
  | some b =>
    if first then
      if b == 34 then
        advance
        return some (← stringBody)
      else failAhead .keyNotString
    else if b == 44 then
      advance
      match ← blanks with
      | some 34 =>
        advance
        return some (← stringBody)
      | some 125 => failAhead .trailingComma
      | some _ => failAhead .keyNotString
      | none => failAhead .eofValue
    else failAhead .expectedObjectEnd

/-- Takes the colon between a key and its value. -/
def colon : Reader Unit := do
  match ← blanks with
  | some 58 => advance
  | some _ => failAhead .expectedColon
  | none => failAhead .eofObject

/-- After the members of an object: takes the closing brace. -/
def closeObject : Reader Unit := do
  match ← blanks with
  | some 125 => advance
  | some 44 => failAhead .trailingComma
  | some _ => failAhead .trailingCharacters
  | none => failAhead .eofObject

/-- Adds a member to a map kept in key order, a later value replacing an earlier one. -/
def insertSorted (k : String) (v : Json) : List (String × Json) → List (String × Json)
  | [] => [(k, v)]
  | (k', v') :: rest =>
    if k == k' then (k, v) :: rest
    else if k < k' then (k, v) :: (k', v') :: rest
    else (k', v') :: insertSorted k v rest

mutual
/-- Any value. Objects come out with their keys in order and without repeats, the last
value of a repeated key winning. `fuel` bounds the steps (each takes a byte). -/
def anyValue : Nat → Reader Json
  | 0 => failAhead .eofValue
  | fuel + 1 => placed do
    match ← blanks with
    | none => failAhead .eofValue
    | some 110 => advance; keyword [117, 108, 108]; return .null
    | some 116 => advance; keyword [114, 117, 101]; return .bool true
    | some 102 => advance; keyword [97, 108, 115, 101]; return .bool false
    | some 45 => advance; return (← number false).toJson
    | some 34 => advance; return .str (← stringBody)
    | some 91 =>
      enter
      let items ← andThenAlways (listItems fuel true []) closeList
      leave
      return .arr items.reverse
    | some 123 =>
      enter
      let members ← andThenAlways (objectMembers fuel true []) closeObject
      leave
      return .obj members
    | some b =>
      if isDigit b then return (← number true).toJson else failAhead .expectedValue

/-- The items of a list, newest first. -/
def listItems : Nat → Bool → List Json → Reader (List Json)
  | 0, _, _ => failAhead .eofList
  | fuel + 1, first, acc => do
    if ← listStep first then
      let v ← anyValue fuel
      listItems fuel false (v :: acc)
    else return acc

/-- The members of an object, in key order. -/
def objectMembers : Nat → Bool → List (String × Json) → Reader (List (String × Json))
  | 0, _, _ => failAhead .eofObject
  | fuel + 1, first, acc => do
    match ← memberKey first with
    | none => return acc
    | some k =>
      colon
      let v ← anyValue fuel
      objectMembers fuel false (insertSorted k v acc)
end

/-- Runs a reading step over a whole text, with `levels` levels of nesting allowed: after
it only blanks may follow. -/
def readAll {α : Type} (step : Reader α) (levels : Nat) (text : String) : Except ReadError α :=
  let run : Reader α := do
    let a ← step
    match ← blanks with
    | some _ => failAhead .trailingCharacters
    | none => return a
  match run.run ⟨text.toUTF8, 0, levels⟩ with
  | .ok a _ => .ok a
  | .error e _ => .error e

/-- Steps enough for any value of a text of `n` bytes. -/
def fuelFor (n : Nat) : Nat := 2 * n + 4

/-- Skips the rest of a keyword from `i`, failing on the first byte that differs: the
index after it, or the fault and where it is reported. -/
def skipKeyword (bytes : ByteArray) : List UInt8 → Nat → Except (Fault × Nat) Nat
  | [], i => .ok i
  | c :: rest, i =>
    match bytes[i]? with
    | none => .error (.eofValue, i)
    | some b => if b == c then skipKeyword bytes rest (i + 1) else .error (.expectedIdent, i + 1)

/-- Skips a string's content from `i` (after the opening quote) without decoding it: an
escape is checked for its form only, so a lone surrogate passes, and a control character
is reported before itself. The index after the closing quote, or the fault and where it
is reported. -/
def skipString (bytes : ByteArray) (i : Nat) : Except (Fault × Nat) Nat :=
  if h : i < bytes.size then
    let b := bytes[i]
    if b == 34 then .ok (i + 1)
    else if b == 92 then
      match bytes[i + 1]? with
      | none => .error (.eofString, bytes.size)
      | some c =>
        if c == 34 || c == 92 || c == 47 || c == 98 || c == 102 || c == 110 || c == 114 || c == 116 then
          skipString bytes (i + 2)
        else if c == 117 then
          match hexQuad bytes (i + 2) with
          | .ok (_, k) => if k > i then skipString bytes k else .error (.eofString, k)
          | .error e => .error e
        else .error (.invalidEscape, i + 2)
    else if b < 32 then .error (.controlCharacter, i)
    else skipString bytes (i + 1)
  else .error (.eofString, bytes.size)
termination_by bytes.size - i

/-- Skips a number from `i` (after any minus sign) by its grammar alone, so that no size
is out of range: the index after it, or the fault and where it is reported. -/
def skipNumber (bytes : ByteArray) (i : Nat) : Except (Fault × Nat) Nat :=
  let digitAt (k : Nat) : Bool := match bytes[k]? with
    | some b => isDigit b
    | none => false
  let exponent (e : Nat) : Except (Fault × Nat) Nat :=
    let k := if bytes[e + 1]? == some 43 || bytes[e + 1]? == some 45 then e + 2 else e + 1
    match bytes[k]? with
    | some b => if isDigit b then .ok (skipDigits bytes (k + 1)) else .error (.invalidNumber, k + 1)
    | none => .error (.invalidNumber, k)
  let integer : Except (Fault × Nat) Nat :=
    match bytes[i]? with
    | some 48 => if digitAt (i + 1) then .error (.invalidNumber, min bytes.size (i + 2)) else .ok (i + 1)
    | some b => if isDigit b then .ok (skipDigits bytes i) else .error (.invalidNumber, i + 1)
    | none => .error (.invalidNumber, i)
  match integer with
  | .error e => .error e
  | .ok j =>
    match bytes[j]? with
    | some 46 =>
      let k := skipDigits bytes (j + 1)
      if k = j + 1 then .error (.invalidNumber, min bytes.size (j + 2))
      else if bytes[k]? == some 101 || bytes[k]? == some 69 then exponent k
      else .ok k
    | some 101 => exponent j
    | some 69 => exponent j
    | _ => .ok j

/-- Where skipping stands: at the start of a value, or inside the innermost open array
or object, after an item (`true`) or just after its opening bracket (`false`). -/
inductive SkipAt where
  | value
  | inside (afterItem : Bool)

/-- Skips values by the grammar alone, without building them and without a limit on
nesting: `open_` holds the open arrays (`false`) and objects (`true`), innermost first.
The index after the outermost value, or the fault and where it is reported. Inside an
object each member's key and colon are skipped before its value; a comma before the first
item is read as a missing value. -/
def skipLoop (bytes : ByteArray) : Nat → List Bool → SkipAt → Nat → Except (Fault × Nat) Nat
  | 0, _, _, i => .error (.eofValue, i)
  | fuel + 1, open_, .value, i =>
    let j := skipBlanks bytes i
    let ahead := min bytes.size (j + 1)
    let finish (r : Except (Fault × Nat) Nat) : Except (Fault × Nat) Nat :=
      match r with
      | .error e => .error e
      | .ok k => if open_.isEmpty then .ok k else skipLoop bytes fuel open_ (.inside true) k
    match bytes[j]? with
    | none => .error (.eofValue, ahead)
    | some b =>
      if b == 91 then skipLoop bytes fuel (false :: open_) (.inside false) (j + 1)
      else if b == 123 then skipLoop bytes fuel (true :: open_) (.inside false) (j + 1)
      else if b == 110 then finish (skipKeyword bytes [117, 108, 108] (j + 1))
      else if b == 116 then finish (skipKeyword bytes [114, 117, 101] (j + 1))
      else if b == 102 then finish (skipKeyword bytes [97, 108, 115, 101] (j + 1))
      else if b == 45 then finish (skipNumber bytes (j + 1))
      else if isDigit b then finish (skipNumber bytes j)
      else if b == 34 then finish (skipString bytes (j + 1))
      else .error (.expectedValue, ahead)
  | fuel + 1, open_, .inside afterItem, i =>
    let j := skipBlanks bytes i
    let ahead := min bytes.size (j + 1)
    match open_ with
    | [] => .ok i
    | isObject :: outer =>
      let member (k : Nat) : Except (Fault × Nat) Nat :=
        if !isObject then skipLoop bytes fuel open_ .value k
        else
          let q := skipBlanks bytes k
          match bytes[q]? with
          | none => .error (.eofValue, q)
          | some 34 =>
            match skipString bytes (q + 1) with
            | .error e => .error e
            | .ok r =>
              let c := skipBlanks bytes r
              match bytes[c]? with
              | some 58 => skipLoop bytes fuel open_ .value (c + 1)
              | some _ => .error (.expectedColon, min bytes.size (c + 1))
              | none => .error (.eofObject, c)
          | some _ => .error (.keyNotString, min bytes.size (q + 1))
      match bytes[j]? with
      | none => .error (if isObject then .eofObject else .eofList, ahead)
      | some b =>
        if b == 44 && afterItem then member (j + 1)
        else if (b == 93 && !isObject) || (b == 125 && isObject) then
          if outer.isEmpty then .ok (j + 1) else skipLoop bytes fuel outer (.inside true) (j + 1)
        else if afterItem then .error (if isObject then .expectedObjectEnd else .expectedListEnd, ahead)
        else member j

/-- Skips any value by its grammar alone (see `skipLoop`). -/
def skipValue : Reader Unit := fun s =>
  match skipLoop s.bytes (fuelFor (s.bytes.size - s.index)) [] .value s.index with
  | .ok j => .ok () { s with index := j }
  | .error (f, j) => .error ⟨f, some (positionAt s.bytes j)⟩ { s with index := j }

/-- Reads a JSON text as a value. -/
def parse (text : String) : Except ReadError Json :=
  readAll (anyValue (fuelFor text.utf8ByteSize)) depthLimit text

end JarDeploy.Json
