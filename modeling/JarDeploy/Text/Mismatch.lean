import JarDeploy.Text.Quoted

/-!
# Messages for values that do not fit their schema

The wording shared by every reader that turns a document into typed values: a value of
the wrong kind, a value out of range, a missing or repeated member, an unknown variant
of a closed set of names, and a list of the wrong length.
-/

namespace JarDeploy.Mismatch

set_option autoImplicit false

/-- A value of the wrong kind: `what` names the value, `expecting` the wanted type. -/
def invalidType (what expecting : String) : String :=
  "invalid type: " ++ what ++ ", expected " ++ expecting

/-- A value of the right kind out of range. -/
def invalidValue (what expecting : String) : String :=
  "invalid value: " ++ what ++ ", expected " ++ expecting

/-- A required member that is absent. -/
def missingField (name : String) : String := "missing field `" ++ name ++ "`"

/-- A member given twice. -/
def duplicateField (name : String) : String := "duplicate field `" ++ name ++ "`"

/-- The names of a closed set as the message lists them: one, two joined by `or`, or
`one of` and a comma list. -/
def oneOf (names : List String) : String :=
  let tick := fun (n : String) => "`" ++ n ++ "`"
  match names with
  | [] => "nothing"
  | [a] => tick a
  | [a, b] => tick a ++ " or " ++ tick b
  | _ => "one of " ++ ", ".intercalate (names.map tick)

/-- A name outside a closed set of variants. -/
def unknownVariant (name : String) (variants : List String) : String :=
  if variants.isEmpty then "unknown variant `" ++ name ++ "`, there are no variants"
  else "unknown variant `" ++ name ++ "`, expected " ++ oneOf variants

/-- A list with too few items for a record of `count` members. -/
def invalidLength (got : Nat) (record : String) (count : Nat) : String :=
  "invalid length " ++ toString got ++ ", expected " ++ record ++ " with " ++ toString count ++
    (if count = 1 then " element" else " elements")

/-- How a string value is named in a message. -/
def stringValue (s : String) : String := "string " ++ Text.debugQuote s

/-- How an integer value is named in a message. -/
def integerValue (n : Int) : String := "integer `" ++ toString n ++ "`"

/-- How a Boolean value is named in a message. -/
def boolValue (b : Bool) : String := "boolean `" ++ (if b then "true" else "false") ++ "`"

end JarDeploy.Mismatch
