import JarDeploy.Toml.Document

/-!
# Reading TOML text

A reader for TOML 1.0 documents that reports the first problem the way a
committed-choice reader does. Each step either succeeds with the index after what it
read, or fails softly (another alternative may still apply) or hard (the input is
committed and the error stands). A failure records the byte offset where reading
stopped, the labels of the constructs it was inside (innermost first), what was expected
there, and a further cause. Its text is `invalid <innermost label>`, then
`expected <list>`, then the cause, one per line.

After the text is read, key-value pairs and table headers are filed into the document;
defining a key twice, extending a value as if it were a table, or defining a table twice
is refused.
-/

namespace JarDeploy.Toml

set_option autoImplicit false

/-- Where and why reading stopped. -/
structure Failure where
  offset : Nat
  labels : List String := []
  expected : List String := []
  cause : Option String := none
  deriving Repr, Inhabited

/-- The text of a failure: its innermost label, what was expected, and the cause. -/
def Failure.message (f : Failure) : String :=
  let parts := (match f.labels.head? with | some l => ["invalid " ++ l] | none => []) ++
    (if f.expected.isEmpty then [] else ["expected " ++ ", ".intercalate f.expected]) ++
    (match f.cause with | some c => [c] | none => [])
  "\n".intercalate parts

/-- The outcome of a reading step. -/
inductive Step (α : Type) where
  | ok (a : α) (next : Nat)
  | back (f : Failure)
  | cut (f : Failure)
  deriving Inhabited

namespace Step

variable {α β : Type}

/-- Adds a label to a failure. -/
def label (l : String) : Step α → Step α
  | .back f => .back { f with labels := f.labels ++ [l] }
  | .cut f => .cut { f with labels := f.labels ++ [l] }
  | s => s

/-- Adds an expected item to a failure. -/
def expect (e : String) : Step α → Step α
  | .back f => .back { f with expected := f.expected ++ [e] }
  | .cut f => .cut { f with expected := f.expected ++ [e] }
  | s => s

/-- Makes a soft failure hard. -/
def commit : Step α → Step α
  | .back f => .cut f
  | s => s

/-- Continues after a success. -/
def andThen (s : Step α) (k : α → Nat → Step β) : Step β :=
  match s with
  | .ok a i => k a i
  | .back f => .back f
  | .cut f => .cut f

end Step

/-- A soft failure at an offset. -/
def soft {α : Type} (i : Nat) : Step α := .back { offset := i }

/-- How an expected character is named. -/
def charItem (c : Char) : String :=
  if c = '\n' then "newline" else if c = '`' then "'`'" else "`" ++ c.toString ++ "`"

/-- A problem found after reading: an error of the document's structure. -/
inductive Clash where
  | duplicateKey (key : String) (table : Option (List String))
  | extendsValue (path : List String) (actual : String)
  | outOfRange
  | recursionLimit
  deriving Repr, Inhabited

/-- The text of a structural problem. -/
def Clash.message : Clash → String
  | .duplicateKey k none => "duplicate key `" ++ k ++ "`"
  | .duplicateKey k (some []) => "duplicate key `" ++ k ++ "` in document root"
  | .duplicateKey k (some t) => "duplicate key `" ++ k ++ "` in table `" ++ ".".intercalate t ++ "`"
  | .extendsValue p a =>
    "dotted key `" ++ ".".intercalate p ++ "` attempted to extend non-table type (" ++ a ++ ")"
  | .outOfRange => "value is out of range"
  | .recursionLimit => "recursion limit exceeded"

/-- The text being read. -/
structure Source where
  bytes : ByteArray

namespace Source

/-- The byte at `i`. -/
def at? (src : Source) (i : Nat) : Option UInt8 := src.bytes[i]?

/-- Is the byte at `i` one of `cs`? -/
def isAt (src : Source) (i : Nat) (c : Char) : Bool := src.at? i == some c.toNat.toUInt8

/-- The index after the run of bytes from `i` that satisfy `p`. -/
def skipWhile (src : Source) (p : UInt8 → Bool) (i : Nat) : Nat :=
  if h : i < src.bytes.size then
    if p src.bytes[i] then src.skipWhile p (i + 1) else i
  else i
termination_by src.bytes.size - i

/-- The text of bytes `[i, j)`. -/
def text (src : Source) (i j : Nat) : String :=
  String.fromUTF8? (src.bytes.extract i j) |>.getD ""

/-- Does the text at `i` start with `s`? -/
def hasAt (src : Source) (i : Nat) (s : String) : Bool :=
  src.bytes.extract i (i + s.utf8ByteSize) == s.toUTF8

end Source

/-- A space or tab. -/
def isWs (b : UInt8) : Bool := b == 32 || b == 9

/-- An ASCII digit. -/
def isDigitByte (b : UInt8) : Bool := 48 ≤ b && b ≤ 57

/-- A hex digit. -/
def isHexByte (b : UInt8) : Bool := isDigitByte b || (65 ≤ b && b ≤ 70) || (97 ≤ b && b ≤ 102)

/-- A character of a bare key. -/
def isKeyByte (b : UInt8) : Bool :=
  (65 ≤ b && b ≤ 90) || (97 ≤ b && b ≤ 122) || isDigitByte b || b == 45 || b == 95

/-- A character allowed unescaped in a basic string. -/
def isBasicByte (b : UInt8) : Bool :=
  isWs b || b == 0x21 || (0x23 ≤ b && b ≤ 0x5B) || (0x5D ≤ b && b ≤ 0x7E) || b ≥ 0x80

/-- A character allowed in a literal string. -/
def isLiteralByte (b : UInt8) : Bool :=
  b == 9 || (0x20 ≤ b && b ≤ 0x26) || (0x28 ≤ b && b ≤ 0x7E) || b ≥ 0x80

/-- A character allowed in a comment. -/
def isCommentByte (b : UInt8) : Bool := b == 9 || (0x20 ≤ b && b ≤ 0x7E) || b ≥ 0x80

variable (src : Source)

/-- Skips spaces and tabs. -/
def ws (i : Nat) : Nat := src.skipWhile isWs i

/-- A comment at `i`: the index after it. -/
def comment? (i : Nat) : Option Nat :=
  if src.isAt i '#' then some (src.skipWhile isCommentByte (i + 1)) else none

/-- A line break at `i`: the index after it. -/
def newline? (i : Nat) : Option Nat :=
  if src.isAt i '\n' then some (i + 1)
  else if src.isAt i '\r' && src.isAt (i + 1) '\n' then some (i + 2)
  else none

/-- A line break or the end of the text. -/
def lineEnding (i : Nat) : Step Unit :=
  match newline? src i with
  | some j => .ok () j
  | none => if i ≥ src.bytes.size then .ok () i else soft i

/-- Blanks, an optional comment, and the end of the line. -/
def lineTrailing (i : Nat) : Step Unit :=
  let j := ws src i
  let j := (comment? src j).getD j
  lineEnding src j

/-- Blanks, line breaks and comments, as many as there are. -/
def blankLines : Nat → Nat → Nat
  | 0, i => i
  | fuel + 1, i =>
    let j := ws src i
    match newline? src j with
    | some k => blankLines fuel k
    | none =>
      match comment? src j with
      | some k => blankLines fuel k
      | none => j

/-- Reads `n` hex digits at `i`: the character they name. -/
def hexChar (i n : Nat) (name : String) : Step Char :=
  let j := src.skipWhile isHexByte i
  let j := min j (i + n)
  if j - i != n then .cut { offset := i, labels := [name] }
  else
    let value := (src.text i j).foldl (fun acc c =>
      acc * 16 + (if c.isDigit then c.toNat - 48 else if c ≤ 'F' then c.toNat - 55 else c.toNat - 87)) 0
    if value < 0xD800 || (0xDFFF < value && value < 0x110000) then .ok (Char.ofNat value) j
    else .cut { offset := i, labels := [name], cause := some Clash.outOfRange.message }

/-- An escape sequence after the backslash at `i - 1`. -/
def escape (i : Nat) : Step String :=
  match src.at? i with
  | none => soft i
  | some b =>
    let simple : Option String :=
      if b == 98 then some "\x08" else if b == 102 then some "\x0c" else if b == 110 then some "\n"
      else if b == 114 then some "\r" else if b == 116 then some "\t" else if b == 92 then some "\\"
      else if b == 34 then some "\"" else none
    match simple with
    | some s => .ok s (i + 1)
    | none =>
      let escapes : List Char := ['b', 'f', 'n', 'r', 't', 'u', 'U', '\\', '"']
      if b == 117 then (hexChar src (i + 1) 4 "unicode 4-digit hex code").andThen (fun c j => .ok c.toString j)
      else if b == 85 then (hexChar src (i + 1) 8 "unicode 8-digit hex code").andThen (fun c j => .ok c.toString j)
      else .cut { offset := i + 1, labels := ["escape sequence"], expected := escapes.map charItem }

/-- The content of a basic string from `i`, up to a byte that is neither plain nor an
escape. -/
def basicContent : Nat → Nat → String → Step String
  | 0, i, acc => .ok acc i
  | fuel + 1, i, acc =>
    let j := src.skipWhile isBasicByte i
    if j > i then basicContent fuel j (acc ++ src.text i j)
    else if src.isAt i '\\' then
      match escape src (i + 1) with
      | .ok s k => basicContent fuel k (acc ++ s)
      | .cut f => .cut f
      | .back _ => .ok acc i
    else .ok acc i

/-- A basic string at `i` (which holds the opening quote). -/
def basicString (i : Nat) : Step String :=
  if !src.isAt i '"' then soft i
  else
    (basicContent src (src.bytes.size + 1) (i + 1) "").andThen fun s j =>
      if src.isAt j '"' then .ok s (j + 1) else .cut { offset := j, labels := ["basic string"] }

/-- A literal string at `i`. -/
def literalString (i : Nat) : Step String :=
  if !src.isAt i '\'' then soft i
  else
    let j := src.skipWhile isLiteralByte (i + 1)
    if src.isAt j '\'' then .ok (src.text (i + 1) j) (j + 1)
    else .cut { offset := j, labels := ["literal string"] }

/-- The body of a multi-line basic string from `i`, up to the closing quotes. -/
def multiBasicBody : Nat → Nat → String → Step String
  | 0, i, acc => .ok acc i
  | fuel + 1, i, acc =>
    if src.hasAt i "\"\"\"" then
      -- up to two quotes may end the content just before the delimiter
      if src.hasAt (i + 3) "\"\"" then .ok (acc ++ "\"\"") (i + 2)
      else if src.hasAt (i + 3) "\"" then .ok (acc ++ "\"") (i + 1)
      else .ok acc i
    else if src.isAt i '"' then multiBasicBody fuel (i + 1) (acc ++ "\"")
    else
      match newline? src i with
      | some k => multiBasicBody fuel k (acc ++ "\n")
      | none =>
        if src.isAt i '\\' then
          -- a backslash at the end of a line swallows the following blanks and breaks
          let j := ws src (i + 1)
          match newline? src j with
          | some k =>
            let rec skipBlank : Nat → Nat → Nat
              | 0, p => p
              | f + 1, p =>
                let q := ws src p
                match newline? src q with
                | some r => skipBlank f r
                | none => q
            multiBasicBody fuel (skipBlank (src.bytes.size + 1) k) acc
          | none =>
            match escape src (i + 1) with
            | .ok s k => multiBasicBody fuel k (acc ++ s)
            | .cut f => .cut f
            | .back _ => .ok acc i
        else
          let j := src.skipWhile (fun b => isBasicByte b && b != 34) i
          if j > i then multiBasicBody fuel j (acc ++ src.text i j) else .ok acc i

/-- A multi-line basic string at `i`. -/
def multiBasicString (i : Nat) : Step String :=
  if !src.hasAt i "\"\"\"" then soft i
  else
    let j := (newline? src (i + 3)).getD (i + 3)
    ((multiBasicBody src (src.bytes.size + 1) j "").andThen fun s k =>
      if src.hasAt k "\"\"\"" then .ok s (k + 3) else .cut { offset := k }).label "multiline basic string"

/-- The body of a multi-line literal string from `i`. -/
def multiLiteralBody : Nat → Nat → String → Step String
  | 0, i, acc => .ok acc i
  | fuel + 1, i, acc =>
    if src.hasAt i "'''" then
      if src.hasAt (i + 3) "''" then .ok (acc ++ "''") (i + 2)
      else if src.hasAt (i + 3) "'" then .ok (acc ++ "'") (i + 1)
      else .ok acc i
    else if src.isAt i '\'' then multiLiteralBody fuel (i + 1) (acc ++ "'")
    else
      match newline? src i with
      | some k => multiLiteralBody fuel k (acc ++ "\n")
      | none =>
        let j := src.skipWhile (fun b => isLiteralByte b && b != 39) i
        if j > i then multiLiteralBody fuel j (acc ++ src.text i j) else .ok acc i

/-- A multi-line literal string at `i`. -/
def multiLiteralString (i : Nat) : Step String :=
  if !src.hasAt i "'''" then soft i
  else
    let j := (newline? src (i + 3)).getD (i + 3)
    ((multiLiteralBody src (src.bytes.size + 1) j "").andThen fun s k =>
      if src.hasAt k "'''" then .ok s (k + 3) else .cut { offset := k }).label "multiline literal string"

/-- Any string at `i`. -/
def string (i : Nat) : Step String :=
  if src.hasAt i "\"\"\"" then multiBasicString src i
  else if src.isAt i '"' then basicString src i
  else if src.hasAt i "'''" then multiLiteralString src i
  else literalString src i

/-- Digits after a first one, with single underscores between digits; `digit` tells
which bytes are digits. -/
def digitRun (digit : UInt8 → Bool) : Nat → Nat → Step Unit
  | 0, i => .ok () i
  | fuel + 1, i =>
    match src.at? i with
    | some b =>
      if digit b then digitRun digit fuel (i + 1)
      else if b == 95 then
        match src.at? (i + 1) with
        | some d => if digit d then digitRun digit fuel (i + 2)
                    else .cut { offset := i + 1, expected := ["digit"] }
        | none => .cut { offset := i + 1, expected := ["digit"] }
      else .ok () i
    | none => .ok () i

/-- A decimal integer's text at `i`: sign, then `0` or a non-zero digit and more. -/
def decInt (i : Nat) : Step Unit :=
  let j := if src.isAt i '+' || src.isAt i '-' then i + 1 else i
  (match src.at? j with
   | some b =>
     if 49 ≤ b && b ≤ 57 then digitRun src isDigitByte (src.bytes.size + 1) (j + 1)
     else if b == 48 then .ok () (j + 1)
     else soft j
   | none => soft j).label "integer"

/-- Digits that may start with zero. -/
def zeroPrefixable (i : Nat) : Step Unit :=
  match src.at? i with
  | some b => if isDigitByte b then digitRun src isDigitByte (src.bytes.size + 1) (i + 1) else soft i
  | none => soft i

/-- An exponent at `i`. -/
def exponent (i : Nat) : Step Unit :=
  if !(src.isAt i 'e' || src.isAt i 'E') then soft i
  else
    let j := if src.isAt (i + 1) '+' || src.isAt (i + 1) '-' then i + 2 else i + 1
    (zeroPrefixable src j).commit

/-- A fraction at `i`. -/
def fraction (i : Nat) : Step Unit :=
  if !src.isAt i '.' then soft i
  else ((zeroPrefixable src (i + 1)).commit).expect "digit"

/-- Removes underscores. -/
def noUnderscore (s : String) : String := String.ofList (s.toList.filter (· != '_'))

/-- The value of decimal digits. -/
def digitsValue (s : String) : Nat := s.foldl (fun acc c => acc * 10 + (c.toNat - 48)) 0

/-- The double nearest a decimal text `[sign] digits [. digits] [e [sign] digits]`. -/
def floatOfText (s : String) : Float :=
  let (neg, body) := match s.toList with
    | '-' :: r => (true, r)
    | '+' :: r => (false, r)
    | r => (false, r)
  let (mant, expPart) := body.span (fun c => c != 'e' && c != 'E')
  let (intPart, fracPart) := mant.span (· != '.')
  let fracDigits := fracPart.drop 1
  let e : Int := match expPart.drop 1 with
    | '-' :: r => -(digitsValue (String.ofList r) : Int)
    | '+' :: r => digitsValue (String.ofList r)
    | r => digitsValue (String.ofList r)
  let m := digitsValue (String.ofList (intPart ++ fracDigits))
  let e := e - fracDigits.length
  let x := if e ≥ 0 then Float.ofScientific m false e.toNat else Float.ofScientific m true e.natAbs
  if neg then -x else x

/-- A float at `i`. -/
def float (i : Nat) : Step Float :=
  let decimal : Step Float :=
    (decInt src i).andThen fun _ j =>
      let tail : Step Unit :=
        match exponent src j with
        | .ok u k => .ok u k
        | .cut f => .cut f
        | .back _ =>
          (fraction src j).andThen fun _ k =>
            match exponent src k with
            | .ok u m => .ok u m
            | .cut f => .cut f
            | .back _ => .ok () k
      tail.andThen fun _ k =>
        let x := floatOfText (noUnderscore (src.text i k))
        if x.isInf && x > 0 then .cut { offset := i } else .ok x k
  let special : Step Float :=
    let (neg, j) := if src.isAt i '-' then (true, i + 1) else if src.isAt i '+' then (false, i + 1) else (false, i)
    if src.hasAt j "inf" then .ok (if neg then -(1.0 / 0.0) else 1.0 / 0.0) (j + 3)
    else if src.hasAt j "nan" then .ok (0.0 / 0.0) (j + 3)
    else soft j
  (match decimal with
   | .back _ => special
   | s => s).label "floating-point number"

/-- The integer named by digits in a base, with its sign. -/
def integerValue (digits : String) (base : Nat) (negative : Bool) : Int :=
  let n := digits.foldl (fun acc c =>
    let d := if c.isDigit then c.toNat - 48 else if c ≤ 'Z' then c.toNat - 55 else c.toNat - 87
    acc * base + d) 0
  if negative then -(n : Int) else n

/-- Does the integer fit in 64 signed bits? Otherwise the message says which way it missed. -/
def checkRange (n : Int) (start : Nat) : Step Int :=
  if n > 9223372036854775807 then .cut { offset := start, cause := some "number too large to fit in target type" }
  else if n < -9223372036854775808 then .cut { offset := start, cause := some "number too small to fit in target type" }
  else .ok n 0

/-- An integer at `i`: decimal, or hex, octal or binary after a prefix. -/
def integer (i : Nat) : Step Int :=
  let radix (base : Nat) (name : String) (digit : UInt8 → Bool) : Step Int :=
    let body : Step Unit :=
      (match src.at? (i + 2) with
       | some b => if digit b then digitRun src digit (src.bytes.size + 1) (i + 3) else soft (i + 2)
       | none => soft (i + 2)).commit.label name
    body.andThen fun _ j =>
      match checkRange (integerValue (noUnderscore (src.text (i + 2) j)) base false) i with
      | .ok n _ => .ok n j
      | .cut f => .cut f
      | .back f => .back f
  if src.hasAt i "0x" then radix 16 "hexadecimal integer" isHexByte
  else if src.hasAt i "0o" then radix 8 "octal integer" (fun b => 48 ≤ b && b ≤ 55)
  else if src.hasAt i "0b" then radix 2 "binary integer" (fun b => b == 48 || b == 49)
  else
    (decInt src i).andThen fun _ j =>
      let t := noUnderscore (src.text i j)
      let (neg, digits) := match t.toList with
        | '-' :: r => (true, String.ofList r)
        | '+' :: r => (false, String.ofList r)
        | r => (false, String.ofList r)
      match checkRange (integerValue digits 10 neg) i with
      | .ok n _ => .ok n j
      | .cut f => .cut f
      | .back f => .back f

/-- `n` digits at `i`, as a number. -/
def fixedDigits (i n : Nat) : Step Nat :=
  let j := min (src.skipWhile isDigitByte i) (i + n)
  if j - i = n then .ok (digitsValue (src.text i j)) j else soft i

/-- A two-digit field in a range. -/
def rangedDigits (i lo hi : Nat) : Step Nat :=
  (fixedDigits src i 2).andThen fun v j =>
    if lo ≤ v && v ≤ hi then .ok v j else .back { offset := i, cause := some Clash.outOfRange.message }

/-- A time `hh:mm:ss[.frac]` at `i`. -/
def partialTime (i : Nat) : Step Unit :=
  (rangedDigits src i 0 23).andThen fun _ j =>
    if !src.isAt j ':' then soft j
    else
      ((rangedDigits src (j + 1) 0 59).andThen fun _ k =>
        if !src.isAt k ':' then soft k
        else (rangedDigits src (k + 1) 0 60).andThen fun _ m =>
          if src.isAt m '.' then
            let e := src.skipWhile isDigitByte (m + 1)
            if e > m + 1 then .ok () e else .ok () m
          else .ok () m).commit

/-- A date `yyyy-mm-dd` at `i`. -/
def fullDate (i : Nat) : Step Unit :=
  (fixedDigits src i 4).andThen fun year j =>
    if !src.isAt j '-' then soft j
    else
      ((rangedDigits src (j + 1) 1 12).andThen fun month k =>
        if !src.isAt k '-' then soft k
        else (rangedDigits src (k + 1) 1 31).andThen fun day m =>
          let leap := year % 4 = 0 && (year % 100 != 0 || year % 400 = 0)
          let most := if month = 2 then (if leap then 29 else 28)
            else if month = 4 || month = 6 || month = 9 || month = 11 then 30 else 31
          if day > most then .back { offset := k + 1, cause := some Clash.outOfRange.message }
          else .ok () m).commit

/-- An offset `Z` or `+hh:mm` at `i`. -/
def timeOffset (i : Nat) : Step Unit :=
  (if src.isAt i 'Z' || src.isAt i 'z' then .ok () (i + 1)
   else if src.isAt i '+' || src.isAt i '-' then
     ((rangedDigits src (i + 1) 0 23).andThen fun _ j =>
       if !src.isAt j ':' then soft j else rangedDigits src (j + 1) 0 59 |>.andThen fun _ k => .ok () k).commit
   else soft i).label "time offset"

/-- A date, date-time or time at `i`; a failure inside a date is labelled `date-time`,
one inside a time alone `time`. -/
def dateTime (i : Nat) : Step Unit :=
  match (fullDate src i).label "date-time" with
  | .ok _ j =>
    let timed : Step Unit :=
      if src.isAt j 'T' || src.isAt j 't' || src.isAt j ' ' then
        (partialTime src (j + 1)).andThen fun _ k =>
          match timeOffset src k with
          | .ok _ m => .ok () m
          | .cut f => .cut f
          | .back _ => .ok () k
      else soft j
    match timed.label "date-time" with
    | .ok _ k => .ok () k
    | .cut f => .cut f
    | .back _ => .ok () j
  | .cut f => .cut f
  | .back _ => (partialTime src i).label "time"

/-- What a value is expected to start with, added to failures at the start of a value. -/
def valueStart {α : Type} (s : Step α) : Step α :=
  ((s.label "string").expect (charItem '"')).expect (charItem '\'')

/-- Inserts a value under the rest of a dotted path into inline-table entries. `walked`
is the part of the path already passed, `plain` tells whether the whole path is empty and
`dotted` whether the table being filled was made by a dotted key: a dotted path must end
in such a table, a plain key in one that is not. -/
def insertInline (entries : List (Key × Value)) (path walked : List Key) (key : Key) (v : Value)
    (plain dotted : Bool) : Except Clash (List (Key × Value)) :=
  match path with
  | [] =>
    if dotted == plain then .error (.duplicateKey key.name none)
    else if (lookup entries key.name).isSome then .error (.duplicateKey key.name none)
    else .ok (entries ++ [(key, v)])
  | p :: rest =>
    let here := walked ++ [p]
    match lookup entries p.name with
    | none => do
      let sub ← insertInline [] rest here key v plain true
      .ok (entries ++ [(p, .inlineTable sub none true)])
    | some (.inlineTable sub sp d) => do
      let sub' ← insertInline sub rest here key v plain d
      .ok (upsert entries p (.inlineTable sub' sp d))
    | some other => .error (.extendsValue (here.map Key.name) other.typeName)

/-- Files the pairs of an inline table into entries, refusing repeats. -/
def buildInline (pairs : List (List Key × Value)) : Except Clash (List (Key × Value)) :=
  pairs.foldlM (fun entries (path, v) =>
    match path.reverse with
    | [] => .ok entries
    | last :: revPrefix =>
      let lead := revPrefix.reverse
      insertInline entries lead [] last v lead.isEmpty false) []

/-- How many arrays and inline tables may be open at once, and how many parts a key may
have: this many is too many. -/
def nestingLimit : Nat := 80

/-- Opens an array or inline table at `i` (its bracket or brace), inside `level` open
ones: the new level, or a hard failure at `i` when it reaches the limit. -/
def nest (level i : Nat) : Except Failure Nat :=
  if nestingLimit ≤ level + 1 then .error { offset := i, cause := some Clash.recursionLimit.message }
  else .ok (level + 1)

mutual
/-- A value at `i`, inside `level` open arrays and inline tables. -/
def value : Nat → Nat → Nat → Step Value
  | 0, _, i => soft i
  | fuel + 1, level, i =>
    let spanned (v : Option Span → Value) (j : Nat) : Step Value := .ok (v (some ⟨i, j⟩)) j
    match src.at? i with
    | none => soft i
    | some b =>
      if b == 34 || b == 39 then (string src i).andThen fun s j => spanned (.string s) j
      else if b == 91 then (array fuel level i).andThen fun xs j => spanned (.array xs) j
      else if b == 123 then
        (inlineTable fuel level i).andThen fun es j => spanned (fun sp => .inlineTable es sp false) j
      else if b == 43 || b == 45 || isDigitByte b then
        match dateTime src i with
        | .ok _ j => spanned (.datetime (src.text i j)) j
        | .cut f => .cut f
        | .back _ =>
          match float src i with
          | .ok x j => spanned (.float x) j
          | .cut f => .cut f
          | .back _ => (integer src i).andThen fun n j => spanned (.integer n) j
      else if b == 95 then ((integer src i).andThen fun n j => spanned (.integer n) j).expect "leading digit"
      else if b == 46 then ((float src i).andThen fun x j => spanned (.float x) j).expect "leading digit"
      else if b == 116 then
        valueStart (if src.hasAt i "true" then spanned (.boolean true) (i + 4) else .cut { offset := i })
      else if b == 102 then
        valueStart (if src.hasAt i "false" then spanned (.boolean false) (i + 5) else .cut { offset := i })
      else if b == 105 then
        valueStart (if src.hasAt i "inf" then spanned (.float (1.0 / 0.0)) (i + 3) else soft i)
      else if b == 110 then
        valueStart (if src.hasAt i "nan" then spanned (.float (0.0 / 0.0)) (i + 3) else soft i)
      else valueStart (soft i)

/-- An array at `i` (which holds the bracket). -/
def array : Nat → Nat → Nat → Step (List Value)
  | 0, _, i => soft i
  | fuel + 1, level, i =>
    let start := i + 1
    let close (items : List Value) (j : Nat) : Step (List Value) :=
      let j := if items.isEmpty then j else (if src.isAt j ',' then j + 1 else j)
      let j := blankLines src (src.bytes.size + 1) j
      if src.isAt j ']' then .ok items (j + 1)
      else .cut { offset := j, labels := ["array"], expected := [charItem ']'] }
    match nest level i with
    | .error f => .cut f
    | .ok level =>
      if src.isAt start ']' then .ok [] (start + 1)
      else
        match arrayItems fuel level start true [] with
        | .ok items j => close items.reverse j
        | .cut f => .cut f
        | .back f => .cut f

/-- The items of an array from `i`, newest first; a soft failure of an item ends the
list before its separator. -/
def arrayItems : Nat → Nat → Nat → Bool → List Value → Step (List Value)
  | 0, _, i, _, acc => .ok acc i
  | fuel + 1, level, i, first, acc =>
    let itemAt := if first then i else i + 1
    if !first && !src.isAt i ',' then .ok acc i
    else
      let j := blankLines src (src.bytes.size + 1) itemAt
      match value fuel level j with
      | .ok v k =>
        let k := blankLines src (src.bytes.size + 1) k
        arrayItems fuel level k false (v :: acc)
      | .back _ => .ok acc i
      | .cut f => .cut f

/-- An inline table at `i` (which holds the brace). -/
def inlineTable : Nat → Nat → Nat → Step (List (Key × Value))
  | 0, _, i => soft i
  | fuel + 1, level, i =>
    let start := i + 1
    match nest level i with
    | .error f => .cut f
    | .ok level =>
      match inlinePairs fuel level start true [] with
      | .ok pairs j =>
        let j := ws src j
        match buildInline pairs.reverse with
        | .error c => .cut { offset := start, cause := some c.message }
        | .ok entries =>
          if src.isAt j '}' then .ok entries (j + 1)
          else .cut { offset := j, labels := ["inline table"], expected := [charItem '}'] }
      | .cut f => .cut f
      | .back f => .cut f

/-- The key-value pairs of an inline table, newest first. -/
def inlinePairs : Nat → Nat → Nat → Bool → List (List Key × Value) → Step (List (List Key × Value))
  | 0, _, i, _, acc => .ok acc i
  | fuel + 1, level, i, first, acc =>
    let at_ := if first then i else i + 1
    if !first && !src.isAt i ',' then .ok acc i
    else
      match keyPath fuel at_ with
      | .back _ => .ok acc i
      | .cut f => .cut f
      | .ok path j =>
        if !src.isAt j '=' then .cut { offset := j, expected := [charItem '.', charItem '='] }
        else
          match value fuel level (ws src (j + 1)) with
          | .ok v k => inlinePairs fuel level (ws src k) false ((path, v) :: acc)
          | .back f => .cut f
          | .cut f => .cut f

/-- A dotted key at `i`, with the blanks around each part. -/
def keyPath : Nat → Nat → Step (List Key)
  | 0, i => soft i
  | fuel + 1, i =>
    let part (p : Nat) : Step Key :=
      let q := ws src p
      let simple : Step Key :=
        if src.isAt q '"' then (basicString src q).andThen fun s r => .ok ⟨s, some ⟨q, r⟩⟩ r
        else if src.isAt q '\'' then (literalString src q).andThen fun s r => .ok ⟨s, some ⟨q, r⟩⟩ r
        else
          let r := src.skipWhile isKeyByte q
          if r > q then .ok ⟨src.text q r, some ⟨q, r⟩⟩ r else soft q
      simple.andThen fun k r => .ok k (ws src r)
    let rec more : Nat → Nat → List Key → Step (List Key)
      | 0, p, acc => .ok acc.reverse p
      | f + 1, p, acc =>
        if !src.isAt p '.' then .ok acc.reverse p
        else
          match part (p + 1) with
          | .ok k r => more f r (k :: acc)
          | .back _ => .ok acc.reverse p
          | .cut e => .cut e
    (((part i).andThen fun k r => more fuel r [k]).label "key").andThen fun path r =>
      if nestingLimit ≤ path.length then .back { offset := i, cause := some Clash.recursionLimit.message }
      else .ok path r

end

end JarDeploy.Toml
