/-!
# TOML documents

A parsed TOML document: values with the byte span of their text, and tables whose
entries keep the order in which they were first defined. A table remembers whether it
was only implied by a longer header or key (implicit) and whether dotted keys created it;
these decide which later definitions are repeats.
-/

namespace JarDeploy.Toml

set_option autoImplicit false

/-- Byte offsets `[start, stop)` of a piece of the document. -/
structure Span where
  start : Nat
  stop : Nat
  deriving Repr, BEq, Inhabited

/-- A key as written: its text and where it stands. -/
structure Key where
  name : String
  span : Option Span
  deriving Repr, Inhabited

/-- A value. -/
inductive Value where
  | string (s : String) (span : Option Span)
  | integer (i : Int) (span : Option Span)
  | float (x : Float) (span : Option Span)
  | boolean (b : Bool) (span : Option Span)
  | datetime (text : String) (span : Option Span)
  | array (items : List Value) (span : Option Span)
  | inlineTable (entries : List (Key × Value)) (span : Option Span) (dotted : Bool)
  deriving Inhabited

/-- An entry of a table: a value, a table, or an array of tables. -/
inductive Item where
  | value (v : Value)
  | table (entries : List (Key × Item)) (span : Option Span) (implicit : Bool) (dotted : Bool)
  | tables (items : List Item) (span : Option Span)
  deriving Inhabited

namespace Value

/-- Where the value stands. -/
def span? : Value → Option Span
  | .string _ s | .integer _ s | .float _ s | .boolean _ s | .datetime _ s | .array _ s => s
  | .inlineTable _ s _ => s

/-- The name of the value's type in messages. -/
def typeName : Value → String
  | .string .. => "string"
  | .integer .. => "integer"
  | .float .. => "float"
  | .boolean .. => "boolean"
  | .datetime .. => "datetime"
  | .array .. => "array"
  | .inlineTable .. => "inline table"

/-- The value with another span. -/
def withSpan (v : Value) (s : Option Span) : Value :=
  match v with
  | .string x _ => .string x s
  | .integer x _ => .integer x s
  | .float x _ => .float x s
  | .boolean x _ => .boolean x s
  | .datetime x _ => .datetime x s
  | .array x _ => .array x s
  | .inlineTable x _ d => .inlineTable x s d

end Value

namespace Item

/-- Where the item stands. -/
def span? : Item → Option Span
  | .value v => v.span?
  | .table _ s _ _ => s
  | .tables _ s => s

/-- An empty table. -/
def emptyTable (implicit dotted : Bool) : Item := .table [] none implicit dotted

end Item

/-- Looks up a key among entries. -/
def lookup {α : Type} (entries : List (Key × α)) (name : String) : Option α :=
  (entries.find? (fun e => e.1.name == name)).map Prod.snd

/-- Replaces the entry of a key, or adds it at the end. -/
def upsert {α : Type} (entries : List (Key × α)) (k : Key) (v : α) : List (Key × α) :=
  if entries.any (fun e => e.1.name == k.name) then
    entries.map fun e => if e.1.name == k.name then (e.1, v) else e
  else entries ++ [(k, v)]

end JarDeploy.Toml
