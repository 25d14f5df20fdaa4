import JarDeploy.Toml.Document
import JarDeploy.Text.Mismatch
import JarDeploy.Decimal.Shortest

/-!
# Typed values from TOML documents

Decoders turn document items into typed values. An error carries the span of the item
it concerns: the innermost item that has one (a value, a table's header and body, or,
for a table made by dotted keys, the key that named it), and the keys that led there.

Records read a table's entries in document order, skip unknown keys, and report the
first absent required member after the last entry; a record may also be given as an
array of its members' values.
-/

namespace JarDeploy.Toml

set_option autoImplicit false

/-- A problem turning a document into typed values. -/
structure DecodeError where
  message : String
  span : Option Span := none
  keys : List String := []
  deriving Repr, Inhabited

/-- A decoder of items. -/
abbrev Decoder (α : Type) := Item → Except DecodeError α

/-- Gives an error without a place the place `sp`. -/
def placeAt {α : Type} (sp : Option Span) (r : Except DecodeError α) : Except DecodeError α :=
  match r with
  | .error e => .error (if e.span.isSome then e else { e with span := sp })
  | ok => ok

/-- How a double is named in a message: never with an exponent, always with a point. -/
def floatText (x : Float) : String :=
  if x.isNaN then "NaN" else if x.isInf then (if x > 0 then "inf" else "-inf")
  else Decimal.positionalLayout x

/-- How an item is named in a message about its kind. -/
def Item.describe : Item → String
  | .value (.string s _) => Mismatch.stringValue s
  | .value (.integer n _) => Mismatch.integerValue n
  | .value (.float x _) => "floating point `" ++ floatText x ++ "`"
  | .value (.boolean b _) => Mismatch.boolValue b
  | .value (.datetime ..) => "map"
  | .value (.array ..) => "sequence"
  | .value (.inlineTable ..) => "map"
  | .table .. => "map"
  | .tables .. => "sequence"

/-- Fails because the item is of the wrong kind. -/
def wrongKind {α : Type} (expecting : String) (it : Item) : Except DecodeError α :=
  .error { message := Mismatch.invalidType it.describe expecting, span := it.span? }

/-- A string; `expecting` names the wanted type in errors. -/
def Decoder.stringAs (expecting : String) : Decoder String := fun it =>
  match it with
  | .value (.string s _) => .ok s
  | _ => wrongKind expecting it

/-- A string. -/
def Decoder.string : Decoder String := Decoder.stringAs "a string"

/-- A Boolean. -/
def Decoder.boolean : Decoder Bool := fun it =>
  match it with
  | .value (.boolean b _) => .ok b
  | _ => wrongKind "a boolean" it

/-- A natural number up to `limit`; `expecting` names its type. -/
def Decoder.natural (expecting : String) (limit : Nat) : Decoder Nat := fun it =>
  match it with
  | .value (.integer n sp) =>
    if 0 ≤ n ∧ n ≤ limit then .ok n.toNat
    else .error { message := Mismatch.invalidValue (Mismatch.integerValue n) expecting, span := sp }
  | _ => wrongKind expecting it

/-- A list of values. -/
def Decoder.list {α : Type} (d : Decoder α) : Decoder (List α) := fun it =>
  let items : Option (List Item) := match it with
    | .value (.array xs _) => some (xs.map Item.value)
    | .tables ts _ => some ts
    | _ => none
  match items with
  | some xs => placeAt it.span? (xs.mapM fun x => placeAt x.span? (d x))
  | none => wrongKind "a sequence" it

/-- The entries of a table or inline table. -/
def tableEntries : Item → Option (List (Key × Item))
  | .table es _ _ _ => some es
  | .value (.inlineTable es _ _) => some (es.map fun (k, v) => (k, Item.value v))
  | _ => none

/-- Decodes the value of an entry: errors get the value's place (or the key's) and the key. -/
def entryValue {α : Type} (d : Decoder α) (k : Key) (v : Item) : Except DecodeError α :=
  match placeAt (v.span?.orElse fun _ => k.span) (d v) with
  | .error e => .error { e with keys := k.name :: e.keys }
  | ok => ok

/-- A map from strings to strings, in key order. -/
def Decoder.stringMap : Decoder (List (String × String)) := fun it =>
  match tableEntries it with
  | some es =>
    placeAt it.span? do
      let pairs ← es.mapM fun (k, v) => do return (k.name, ← entryValue (Decoder.string) k v)
      return pairs.mergeSort (fun a b => a.1 ≤ b.1)
  | none => wrongKind "a map" it

/-- A variant given as a table of one entry: the entry's key names it, its value must be
empty. -/
def variantEntry (variants : List String) (it : Item) (k : Key) (v : Item) : Except DecodeError Nat :=
  match variants.idxOf? k.name with
  | none => .error { message := Mismatch.unknownVariant k.name variants, span := it.span? }
  | some i =>
    match v with
    | .table [] .. | .tables [] _ | .value (.array [] _) | .value (.inlineTable [] ..) => .ok i
    | .table .. | .value (.inlineTable ..) => .error { message := "expected empty table", span := v.span? }
    | .tables .. | .value (.array ..) => .error { message := "expected empty array", span := v.span? }
    | .value x => .error { message := "expected table, found " ++ x.typeName, span := v.span? }

/-- One name of a closed set, given as a string: its index. -/
def Decoder.variant (variants : List String) : Decoder Nat := fun it =>
  match it with
  | .value (.string s sp) =>
    match variants.idxOf? s with
    | some i => .ok i
    | none => .error { message := Mismatch.unknownVariant s variants, span := sp }
  | _ =>
    match tableEntries it with
    | some [] => .error { message := "wanted exactly 1 element, found 0 elements", span := it.span? }
    | some [(k, v)] => variantEntry variants it k v
    | some _ => .error { message := "wanted exactly 1 element, more than 1 element", span := it.span? }
    | none => .error { message := "wanted string or table", span := it.span? }

/-- How a record is decoded: its name in messages (`struct SignConfig`), its members in
order, a draft that collects them, the decoder of member `i` into the draft, the check
that turns the draft into the value, and the defaults for members a positional array
leaves out. -/
structure RecordShape (β α : Type) where
  name : String
  fields : List String
  init : β
  field : β → Nat → Decoder β
  finish : β → Except String α
  ended : β → Nat → Option β

/-- A record from a table (entries in order) or from an array (members by position;
items past the last member are never read). -/
def Decoder.record {β α : Type} (shape : RecordShape β α) : Decoder α := fun it =>
  let finish (d : β) : Except DecodeError α :=
    match shape.finish d with
    | .ok a => .ok a
    | .error m => .error { message := m }
  match tableEntries it with
  | some es =>
    placeAt it.span? do
      let d ← es.foldlM (fun d (k, v) =>
        match shape.fields.idxOf? k.name with
        | some i => entryValue (shape.field d i) k v
        | none => .ok d) shape.init
      finish d
  | none =>
    let items : Option (List Item) := match it with
      | .value (.array xs _) => some (xs.map Item.value)
      | .tables ts _ => some ts
      | _ => none
    match items with
    | some xs =>
      placeAt it.span? do
        let n := shape.fields.length
        let d ← (List.range n).foldlM (fun d i =>
          match xs[i]? with
          | some x => placeAt x.span? (shape.field d i x)
          | none =>
            match shape.ended d i with
            | some d' => .ok d'
            | none => .error { message := Mismatch.invalidLength i shape.name n }) shape.init
        finish d
    | none => wrongKind shape.name it

end JarDeploy.Toml
