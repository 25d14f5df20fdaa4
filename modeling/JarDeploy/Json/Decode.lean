import JarDeploy.Json.Read
import JarDeploy.Text.Mismatch

/-!
# Reading typed values from JSON text

Readers for strings, Booleans, bounded naturals, optional values, lists, names from a
closed set and records, each working directly on the text so that the first problem in
reading order is the one reported. A record reads an object member by member (a member
given twice is refused at its key, unknown members are skipped, absent members are
reported after the closing brace) or, positionally, a list of its members' values.
-/

namespace JarDeploy.Json

set_option autoImplicit false

/-- Fails because the next value (blanks skipped) is not of the kind `expecting` names. A
scalar is read first so that the message can name it. -/
def mismatched {α : Type} (expecting : String) : Reader α := placed do
  match ← peek with
  | some 110 => advance; keyword [117, 108, 108]; failData (Mismatch.invalidType "null" expecting)
  | some 116 =>
    advance; keyword [114, 117, 101]; failData (Mismatch.invalidType (Mismatch.boolValue true) expecting)
  | some 102 =>
    advance; keyword [97, 108, 115, 101]
    failData (Mismatch.invalidType (Mismatch.boolValue false) expecting)
  | some 45 => advance; failData (Mismatch.invalidType (← number false).describe expecting)
  | some 34 =>
    advance; failData (Mismatch.invalidType (Mismatch.stringValue (← stringBody)) expecting)
  | some 91 => failData (Mismatch.invalidType "sequence" expecting)
  | some 123 => failData (Mismatch.invalidType "map" expecting)
  | some b =>
    if isDigit b then failData (Mismatch.invalidType (← number true).describe expecting)
    else failAhead .expectedValue
  | none => failAhead .eofValue

/-- A string, checked by `read`; `expecting` names the wanted type in errors. -/
def textAs {α : Type} (expecting : String) (read : String → Except String α) : Reader α := placed do
  match ← blanks with
  | none => failAhead .eofValue
  | some 34 =>
    advance
    match read (← stringBody) with
    | .ok a => pure a
    | .error m => failData m
  | some _ => mismatched expecting

/-- A string. -/
def text (expecting : String := "a string") : Reader String := textAs expecting .ok

/-- A Boolean. -/
def flag : Reader Bool := placed do
  match ← blanks with
  | none => failAhead .eofValue
  | some 116 => advance; keyword [114, 117, 101]; pure true
  | some 102 => advance; keyword [97, 108, 115, 101]; pure false
  | some _ => mismatched "a boolean"

/-- A natural number up to `limit`; `expecting` names the type (`u64`, `u32`). -/
def natural (expecting : String) (limit : Nat) : Reader Nat := placed do
  let check : Number → Reader Nat := fun
    | .unsigned n =>
      if n ≤ limit then pure n else failData (Mismatch.invalidValue (Mismatch.integerValue n) expecting)
    | .negative n => failData (Mismatch.invalidValue (Mismatch.integerValue n) expecting)
    | .float x => failData (Mismatch.invalidType (Number.float x).describe expecting)
  match ← blanks with
  | none => failAhead .eofValue
  | some 45 => advance; check (← number false)
  | some b => if isDigit b then check (← number true) else mismatched expecting

/-- `null` or a value. -/
def optional {α : Type} (r : Reader α) : Reader (Option α) := do
  match ← blanks with
  | some 110 => advance; keyword [117, 108, 108]; pure none
  | _ => some <$> r

/-- Runs a loop with a step bound taken from the bytes left. -/
def withFuel {α : Type} (f : Nat → Reader α) : Reader α := fun s => f (s.bytes.size - s.index + 2) s

/-- The items of a list, newest first. -/
def itemsOf {α : Type} (r : Reader α) : Nat → Bool → List α → Reader (List α)
  | 0, _, _ => failAhead .eofList
  | fuel + 1, first, acc => do
    if ← listStep first then
      let v ← r
      itemsOf r fuel false (v :: acc)
    else pure acc

/-- A list of values. -/
def listOf {α : Type} (r : Reader α) : Reader (List α) := placed do
  match ← blanks with
  | none => failAhead .eofValue
  | some 91 =>
    enter
    let items ← andThenAlways (withFuel fun fuel => itemsOf r fuel true []) closeList
    leave
    pure items.reverse
  | some _ => mismatched "a sequence"

/-- One name of a closed set, given as a string (or as the single key of an object whose
value is `null`): its index. -/
def variant (variants : List String) : Reader Nat := placed do
  let pick : String → Reader Nat := fun s =>
    match variants.idxOf? s with
    | some i => pure i
    | none => failData (Mismatch.unknownVariant s variants)
  match ← blanks with
  | some 34 => advance; pick (← stringBody)
  | some 123 =>
    enter
    match ← memberKey true with
    | none => failAhead .expectedValue
    | some k =>
      let i ← pick k
      colon
      match ← blanks with
      | some 110 => advance; keyword [117, 108, 108]
      | some _ => mismatched "unit"
      | none => failAhead .eofValue
      leave
      match ← blanks with
      | some 125 => advance; pure i
      | some _ => failHere .expectedValue
      | none => failHere .eofObject
  | some _ => failAhead .expectedValue
  | none => failAhead .eofValue

/-- How a record is read: its name in messages (`struct Artifact`), its members in
order, a draft that collects them, the reader of member `i` into the draft, the check
that turns the finished draft into the value (or names the first absent member), and
the default a member takes when a positional list stops before it. -/
structure RecordShape (β α : Type) where
  name : String
  fields : List String
  init : β
  field : β → Nat → Reader β
  finish : β → Except String α
  ended : β → Nat → Option β

/-- The members of a record given as an object. -/
def recordMembers {β α : Type} (shape : RecordShape β α) :
    Nat → Bool → List Nat → β → Reader β
  | 0, _, _, _ => failAhead .eofObject
  | fuel + 1, first, seen, draft => do
    match ← memberKey first with
    | none => pure draft
    | some k =>
      match shape.fields.idxOf? k with
      | some i =>
        if seen.contains i then failData (Mismatch.duplicateField k)
        else
          colon
          let d ← shape.field draft i
          recordMembers shape fuel false (i :: seen) d
      | none =>
        colon
        skipValue
        recordMembers shape fuel false seen draft

/-- The members of a record given as a list, from member `i` on. -/
def recordItems {β α : Type} (shape : RecordShape β α) (count : Nat) :
    List Nat → Bool → Bool → β → Reader β
  | [], _, _, draft => pure draft
  | i :: rest, first, open_, draft => do
    let more ← if open_ then listStep first else pure false
    if more then
      let d ← shape.field draft i
      recordItems shape count rest false true d
    else
      match shape.ended draft i with
      | some d => recordItems shape count rest first false d
      | none => failData (Mismatch.invalidLength i shape.name count)

/-- A record, from an object or a positional list. -/
def record {β α : Type} (shape : RecordShape β α) : Reader α := placed do
  let finish : β → Reader α := fun d =>
    match shape.finish d with
    | .ok a => pure a
    | .error m => failData m
  match ← blanks with
  | none => failAhead .eofValue
  | some 123 =>
    enter
    let a ← andThenAlways (do finish (← withFuel fun fuel => recordMembers shape fuel true [] shape.init))
      closeObject
    leave
    pure a
  | some 91 =>
    enter
    let n := shape.fields.length
    let a ← andThenAlways (do finish (← recordItems shape n (List.range n) true true shape.init)) closeList
    leave
    pure a
  | some _ => mismatched shape.name

/-- Reads a whole text as one typed value, arrays and objects nested at most
`depthLimit - 1` deep. -/
def decode {α : Type} (r : Reader α) (text : String) : Except ReadError α := readAll r depthLimit text

/-- Reads a whole text as one typed value, however deeply it nests. -/
def decodeDeep {α : Type} (r : Reader α) (text : String) : Except ReadError α :=
  readAll r (text.utf8ByteSize + 2) text

end JarDeploy.Json
