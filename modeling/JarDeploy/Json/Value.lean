/-!
# JSON values and their text

A JSON document as a tree whose objects keep their members in the order they were
built, with the two written forms the program uses: the compact form (no blanks at all)
and the indented form (two blanks per level, a blank after each colon, empty containers
written `[]` and `{}`). Strings escape the quote, the backslash and every control
character; `\b \f \n \r \t` have short forms and the rest is `\u00xx` in lower-case hex.
-/

namespace JarDeploy

set_option autoImplicit false

/-- A JSON value. Numbers are integers or decimals `mantissa * 10 ^ exponent`; object
members stay in the order given. -/
inductive Json where
  | null
  | bool (b : Bool)
  | num (n : Int)
  | dec (mantissa : Int) (exponent : Int)
  | str (s : String)
  | arr (items : List Json)
  | obj (fields : List (String × Json))
  deriving Inhabited, Repr

namespace Json

/-- The four lower-case hex digits of a code below `0x10000`. -/
def hex4 (n : Nat) : String :=
  let digit (d : Nat) : Char := if d < 10 then Char.ofNat (48 + d) else Char.ofNat (87 + d)
  String.ofList [digit (n / 4096 % 16), digit (n / 256 % 16), digit (n / 16 % 16), digit (n % 16)]

/-- The escaped form of one character inside a string. -/
def escapeChar (c : Char) : String :=
  if c = '"' then "\\\""
  else if c = '\\' then "\\\\"
  else if c = '\n' then "\\n"
  else if c = '\r' then "\\r"
  else if c = '\t' then "\\t"
  else if c.toNat = 8 then "\\b"
  else if c.toNat = 12 then "\\f"
  else if c.toNat < 32 then "\\u" ++ hex4 c.toNat
  else c.toString

/-- A string in quotes, escaped. -/
def quote (s : String) : String :=
  "\"" ++ s.foldl (fun acc c => acc ++ escapeChar c) "" ++ "\""

/-- The text of a number. -/
def numberText : Json → String
  | .num n => toString n
  | .dec m e => toString m ++ "e" ++ toString e
  | _ => ""

mutual
/-- The compact written form. -/
def compact : Json → String
  | .null => "null"
  | .bool b => if b then "true" else "false"
  | .num n => toString n
  | .dec m e => toString m ++ "e" ++ toString e
  | .str s => quote s
  | .arr items => "[" ++ compactItems items ++ "]"
  | .obj fields => "\x7b" ++ compactFields fields ++ "\x7d"

/-- The items of an array, comma-separated. -/
def compactItems : List Json → String
  | [] => ""
  | [x] => compact x
  | x :: rest => compact x ++ "," ++ compactItems rest

/-- The members of an object, comma-separated. -/
def compactFields : List (String × Json) → String
  | [] => ""
  | [(k, v)] => quote k ++ ":" ++ compact v
  | (k, v) :: rest => quote k ++ ":" ++ compact v ++ "," ++ compactFields rest
end

/-- Two blanks per level. -/
def indent (level : Nat) : String := String.ofList (List.replicate (2 * level) ' ')

mutual
/-- The indented written form, with the value starting at nesting `level`. -/
def pretty (level : Nat) : Json → String
  | .arr [] => "[]"
  | .obj [] => "\x7b\x7d"
  | .arr items => "[\n" ++ prettyItems (level + 1) items ++ "\n" ++ indent level ++ "]"
  | .obj fields => "\x7b\n" ++ prettyFields (level + 1) fields ++ "\n" ++ indent level ++ "\x7d"
  | .null => "null"
  | .bool b => if b then "true" else "false"
  | .num n => toString n
  | .dec m e => toString m ++ "e" ++ toString e
  | .str s => quote s

/-- Array items, one per line at `level`. -/
def prettyItems (level : Nat) : List Json → String
  | [] => ""
  | [x] => indent level ++ pretty level x
  | x :: rest => indent level ++ pretty level x ++ ",\n" ++ prettyItems level rest

/-- Object members, one per line at `level`. -/
def prettyFields (level : Nat) : List (String × Json) → String
  | [] => ""
  | [(k, v)] => indent level ++ quote k ++ ": " ++ pretty level v
  | (k, v) :: rest => indent level ++ quote k ++ ": " ++ pretty level v ++ ",\n" ++ prettyFields level rest
end

/-- The member `key` of an object; the last one when it occurs more than once. -/
def get? (j : Json) (key : String) : Option Json :=
  match j with
  | .obj fields => (fields.reverse.find? (fun p => p.1 == key)).map Prod.snd
  | _ => none

/-- The string at `key`. -/
def str? (j : Json) (key : String) : Option String :=
  match j.get? key with
  | some (.str s) => some s
  | _ => none

/-- The non-negative integer at `key`. -/
def nat? (j : Json) (key : String) : Option Nat :=
  match j.get? key with
  | some (.num n) => if n ≥ 0 then some n.toNat else none
  | _ => none

/-- The Boolean at `key`. -/
def bool? (j : Json) (key : String) : Option Bool :=
  match j.get? key with
  | some (.bool b) => some b
  | _ => none

/-- The array at `key`. -/
def arr? (j : Json) (key : String) : Option (List Json) :=
  match j.get? key with
  | some (.arr xs) => some xs
  | _ => none

/-- The items of an array value, none for any other value. -/
def items : Json → List Json
  | .arr xs => xs
  | _ => []

/-- The string list at `key`, skipping items that are not strings. -/
def strs (j : Json) (key : String) : List String :=
  ((j.arr? key).getD []).filterMap fun
    | .str s => some s
    | _ => none

/-- An optional value, `null` when absent. -/
def opt {α : Type} (f : α → Json) : Option α → Json
  | some a => f a
  | none => .null

/-- A list of strings. -/
def strList (xs : List String) : Json := .arr (xs.map .str)

/-- A natural number. -/
def nat (n : Nat) : Json := .num n

end Json

end JarDeploy
