import JarDeploy.Text.Blank

/-!
# Timestamps

A moment in UTC, read from RFC 3339 text in a lenient way and written back strictly.

Reading takes a date `year-month-day` (a year of up to four digits, or any number of
digits after a sign; month and day of one or two digits), a `T`, `t` or space, a time
`hour:minute:second` with an optional fraction (up to nine digits count), and an offset
(`Z`, `UTC`, or a sign with hours and minutes). Blanks may stand before each number.
Each part must be in range (a second of 60 is a leap second) and the day must exist in
its month; nothing may follow but blanks. A moment whose date is in range only before the
offset is applied matches no possible moment.

Writing gives `YYYY-MM-DDTHH:MM:SS`, a fraction of three, six or nine digits when it is
not zero (the fewest that show it), and `Z`.
-/

namespace JarDeploy

set_option autoImplicit false

/-- Why a text is not a timestamp. -/
inductive TimestampError where
  | outOfRange
  | impossible
  | notEnough
  | invalid
  | tooShort
  | tooLong
  deriving Repr, BEq, Inhabited

/-- The text of a timestamp error. -/
def TimestampError.message : TimestampError → String
  | .outOfRange => "input is out of range"
  | .impossible => "no possible date and time matching input"
  | .notEnough => "input is not enough for unique date and time"
  | .invalid => "input contains invalid characters"
  | .tooShort => "premature end of input"
  | .tooLong => "trailing input"

/-- A moment: whole seconds since 1970-01-01T00:00:00Z and the nanoseconds after them
(at least a second's worth during a leap second). -/
structure Timestamp where
  seconds : Int
  nanos : Nat
  deriving Repr, BEq, Inhabited

namespace Timestamp

/-- Days from 1970-01-01 to a date of the proleptic Gregorian calendar. -/
def daysFromCivil (y : Int) (m d : Nat) : Int :=
  let y := if m ≤ 2 then y - 1 else y
  let era := (if y ≥ 0 then y else y - 399) / 400
  let yoe := y - era * 400
  let mp : Int := if m > 2 then (m : Int) - 3 else (m : Int) + 9
  let doy := (153 * mp + 2) / 5 + (d : Int) - 1
  let doe := yoe * 365 + yoe / 4 - yoe / 100 + doy
  era * 146097 + doe - 719468

/-- The date of a day counted from 1970-01-01. -/
def civilFromDays (z : Int) : Int × Nat × Nat :=
  let z := z + 719468
  let era := (if z ≥ 0 then z else z - 146096) / 146097
  let doe := z - era * 146097
  let yoe := (doe - doe / 1460 + doe / 36524 - doe / 146096) / 365
  let y := yoe + era * 400
  let doy := doe - (365 * yoe + yoe / 4 - yoe / 100)
  let mp := (5 * doy + 2) / 153
  let d := doy - (153 * mp + 2) / 5 + 1
  let m := if mp < 10 then mp + 3 else mp - 9
  (if m ≤ 2 then y + 1 else y, m.toNat, d.toNat)

/-- Is the year a leap year? -/
def isLeap (y : Int) : Bool := y % 4 = 0 && (y % 100 != 0 || y % 400 = 0)

/-- Days in a month. -/
def monthDays (y : Int) (m : Nat) : Nat :=
  if m = 2 then (if isLeap y then 29 else 28)
  else if m = 4 || m = 6 || m = 9 || m = 11 then 30 else 31

/-- Reads up to `max` digits (at least one): the value and the rest. -/
def digits (s : List Char) (max : Nat) : Except TimestampError (Nat × List Char) :=
  match s with
  | [] => .error .tooShort
  | c :: _ =>
    if !c.isDigit then .error .invalid
    else
      let ds := (s.take max).takeWhile Char.isDigit
      .ok (ds.foldl (fun acc d => acc * 10 + (d.toNat - 48)) 0, s.drop ds.length)

/-- Skips leading blanks. -/
def skipBlanks (s : List Char) : List Char := s.dropWhile Text.isBlank

/-- Takes a literal character. -/
def literal (c : Char) (s : List Char) : Except TimestampError (List Char) :=
  match s with
  | [] => .error .tooShort
  | x :: rest => if x = c then .ok rest else .error .invalid

/-- A number after optional blanks, checked against a range. -/
def field (s : List Char) (max lo hi : Nat) : Except TimestampError (Nat × List Char) := do
  let (v, rest) ← digits (skipBlanks s) max
  if v < lo || v > hi then throw .outOfRange
  return (v, rest)

/-- The year: four digits, or a sign and any number of digits. -/
def year (s : List Char) : Except TimestampError (Int × List Char) := do
  let s := skipBlanks s
  match s with
  | '-' :: rest =>
    let (v, r) ← digits rest rest.length
    return (-(v : Int), r)
  | '+' :: rest =>
    let (v, r) ← digits rest rest.length
    return (v, r)
  | _ =>
    let (v, r) ← digits s 4
    return (v, r)

/-- A fraction of a second after the point: nanoseconds, extra digits dropped. -/
def fraction (s : List Char) : Except TimestampError (Nat × List Char) := do
  let (v, rest) ← digits s 9
  let used := s.length - rest.length
  let scaled := v * Nat.pow 10 (9 - used)
  return (scaled, rest.dropWhile Char.isDigit)

/-- The two characters that start `s`, which must be digits, and the rest. Their count is
taken in bytes: a single character of two or more bytes is the wrong kind, not too few. -/
def digitPair (s : List Char) : Except TimestampError (Char × Char × List Char) :=
  match s with
  | a :: b :: rest => if a.isDigit && b.isDigit then .ok (a, b, rest) else .error .invalid
  | [a] => if a.utf8Size ≥ 2 then .error .invalid else .error .tooShort
  | [] => .error .tooShort

/-- An offset in seconds east of UTC. -/
def offset (s : List Char) : Except TimestampError (Int × List Char) :=
  match s with
  | 'Z' :: rest | 'z' :: rest => .ok (0, rest)
  | _ => do
    let (neg, r) ← match s with
      | '+' :: r => pure (false, r)
      | '-' :: r => pure (true, r)
      | '−' :: r => pure (true, r)
      | [] => throw .tooShort
      | _ => throw .invalid
    let (h1, h2, r) ← digitPair r
    let hours := (h1.toNat - 48) * 10 + (h2.toNat - 48)
    let r := r.dropWhile (fun c => c = ':' || Text.isBlank c)
    let (m1, m2, r) ← digitPair r
    if m1.toNat - 48 ≥ 6 then throw .outOfRange
    let secs : Int := hours * 3600 + ((m1.toNat - 48) * 10 + (m2.toNat - 48)) * 60
    return (if neg then -secs else secs, r)

/-- Reads a timestamp. -/
def parse (text : String) : Except TimestampError Timestamp := do
  let s := text.toList
  let (y, s) ← year s
  if y < -2147483648 || y > 2147483647 then throw .outOfRange
  let s ← literal '-' (skipBlanks s)
  let (mo, s) ← field s 2 1 12
  let s ← literal '-' (skipBlanks s)
  let (d, s) ← field s 2 1 31
  let s ← match s with
    | c :: rest => if c = 'T' || c = 't' || c = ' ' then pure rest else throw .invalid
    | [] => throw .tooShort
  let (h, s) ← field s 2 0 23
  let s ← literal ':' (skipBlanks s)
  let (mi, s) ← field s 2 0 59
  let s ← literal ':' (skipBlanks s)
  let (sec, s) ← field s 2 0 60
  let (nano, s) ← match s with
    | '.' :: rest => fraction rest
    | _ => pure (0, s)
  let s := skipBlanks s
  let (off, s) ← match s with
    | a :: b :: c :: rest =>
      if a.toUpper = 'U' && b.toUpper = 'T' && c.toUpper = 'C' then pure ((0 : Int), rest) else offset s
    | _ => offset s
  if !(skipBlanks s).isEmpty then throw .tooLong
  if y < -262143 || y > 262142 || d > monthDays y mo then throw .outOfRange
  if off.natAbs ≥ 86400 then throw .outOfRange
  let (sec, nano) := if sec = 60 then (59, nano + 1000000000) else (sec, nano)
  let local_ := daysFromCivil y mo d * 86400 + (h * 3600 + mi * 60 + sec : Nat)
  let utc := local_ - off
  let (uy, _, _) := civilFromDays (utc / 86400)
  if uy < -262143 || uy > 262142 then throw .impossible
  return ⟨utc, nano⟩

/-- Two digits. -/
def two (n : Nat) : String := if n < 10 then "0" ++ toString n else toString n

/-- Digits padded with zeros to a width. -/
def padded (n width : Nat) : String :=
  let s := toString n
  String.ofList (List.replicate (width - s.length) '0') ++ s

/-- The text of a timestamp in UTC. -/
def render (t : Timestamp) : String :=
  let days := t.seconds / 86400
  let secOfDay := (t.seconds - days * 86400).toNat
  let (y, m, d) := civilFromDays days
  let (sec, nano) := if t.nanos ≥ 1000000000 then (secOfDay % 60 + 1, t.nanos - 1000000000) else (secOfDay % 60, t.nanos)
  let yearText :=
    if 0 ≤ y ∧ y ≤ 9999 then padded y.toNat 4
    else (if y < 0 then "-" else "+") ++ padded y.natAbs 4
  let frac :=
    if nano = 0 then ""
    else if nano % 1000000 = 0 then "." ++ padded (nano / 1000000) 3
    else if nano % 1000 = 0 then "." ++ padded (nano / 1000) 6
    else "." ++ padded nano 9
  yearText ++ "-" ++ two m ++ "-" ++ two d ++ "T" ++ two (secOfDay / 3600) ++ ":" ++
    two (secOfDay / 60 % 60) ++ ":" ++ two sec ++ frac ++ "Z"

end Timestamp

end JarDeploy
