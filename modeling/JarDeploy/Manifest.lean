import JarDeploy.Text.Blank
import JarDeploy.Text.Quoted

/-!
# Jar manifests

A manifest is a main block of attributes followed by named sections. In the text, an
attribute is a line `Key: value`; a line that starts with a space continues the value of
the line before it; a blank line ends a block. Line endings may be CRLF, LF or CR.

Reading keeps attributes in order. The key is the text before the first colon, trimmed;
the value is the text after it, without one leading space. Every block after the first
must start with a `Name` attribute (in any case), which names the section.

Writing uses CRLF, a blank line after each block, and wraps long lines: no line is longer
than 72 bytes, a continuation line starting with a space, and a character is never split.
Looking up a main attribute ignores ASCII case.
-/

namespace JarDeploy

set_option autoImplicit false

/-- A named section of a manifest. -/
structure ManifestSection where
  name : String
  attributes : List (String × String)
  deriving Repr, BEq, DecidableEq, Inhabited

/-- The main attributes and the sections of a manifest. -/
structure Manifest where
  main : List (String × String)
  sections : List ManifestSection
  deriving Repr, BEq, DecidableEq, Inhabited

namespace Manifest

/-- The manifest of a jar that has none: only the manifest version. -/
def basic : Manifest := ⟨[("Manifest-Version", "1.0")], []⟩

/-- The longest line a written manifest holds, in bytes, line ending excluded. -/
def maxLineBytes : Nat := 72

/-- Equality of keys that ignores the case of ASCII letters. -/
def sameKey (a b : String) : Bool := a.toList.map Char.toLower == b.toList.map Char.toLower

/-- The text after a leading space, if the text starts with one. -/
def afterSpace? : List Char → Option (List Char)
  | ' ' :: rest => some rest
  | _ => none

/-- The attribute of one logical line: key before the first colon, trimmed, and the value
after it without one leading space. -/
def attributeOf (line : List Char) : Except String (String × String) :=
  match line.span (· != ':') with
  | (key, _ :: value) =>
    .ok (Text.trim (String.ofList key), String.ofList ((afterSpace? value).getD value))
  | (_, []) => .error ("missing ':' in " ++ Text.debugQuote (String.ofList line))

/-- The state of reading: the blocks so far (the last one open) and the logical line
being continued. -/
structure Reading where
  blocks : List (List (String × String))
  pending : Option (List Char)

/-- The blocks with an attribute added to the last one. -/
def addToLast (blocks : List (List (String × String))) (attr : String × String) :
    List (List (String × String)) :=
  match blocks.reverse with
  | last :: before => before.reverse ++ [last ++ [attr]]
  | [] => [[attr]]

/-- Close the pending line into the open block. -/
def Reading.flush (r : Reading) : Except String Reading :=
  match r.pending with
  | none => .ok r
  | some line => do
    let attr ← attributeOf line
    return ⟨addToLast r.blocks attr, none⟩

/-- Read one physical line. -/
def Reading.line (r : Reading) (line : List Char) : Except String Reading :=
  match afterSpace? line with
  | some rest =>
    match r.pending with
    | some current => .ok { r with pending := some (current ++ rest) }
    | none =>
      .error ("continuation line without attribute: " ++ Text.debugQuote (String.ofList line))
  | none => do
    let r ← r.flush
    if line.isEmpty then
      if r.blocks.getLast?.any (!·.isEmpty) then return { r with blocks := r.blocks ++ [[]] }
      else return r
    else return { r with pending := some line }

/-- The section of a block after the first. -/
def sectionOf : List (String × String) → Except String ManifestSection
  | [] => .error "empty section"
  | (key, name) :: attributes =>
    if sameKey key "Name" then .ok ⟨name, attributes⟩
    else .error ("section must start with Name, found " ++ key)

/-- The characters of a text with every line ending made a line feed: a carriage return
before a line feed is dropped, any other becomes a line feed. -/
def unifyBreaks : List Char → List Char
  | [] => []
  | c :: rest =>
    if c = '\r' then
      if rest.head? = some '\n' then unifyBreaks rest else '\n' :: unifyBreaks rest
    else c :: unifyBreaks rest

/-- The manifest of the blocks read: the first block that is not empty holds the main
attributes, each later one that is not empty a section. -/
def ofBlocks (blocks : List (List (String × String))) : Except String Manifest :=
  match blocks.filter (!·.isEmpty) with
  | [] => return ⟨[], []⟩
  | main :: rest => return ⟨main, ← rest.mapM sectionOf⟩

/-- Read a manifest; the error says what is malformed. -/
def parse (text : String) : Except String Manifest := do
  let r ← ((unifyBreaks text.toList).splitOn '\n').foldlM Reading.line ⟨[[]], none⟩
  let r ← r.flush
  ofBlocks r.blocks

/-- The value of a main attribute. -/
def get? (m : Manifest) (key : String) : Option String :=
  (m.main.find? fun (k, _) => sameKey k key).map (·.2)

/-- Add one entry to the main attributes, with the keys applied so far: a new key is
appended, an existing one (in any case) is replaced only when `override` is set. -/
def mergeStep (override : Bool) (acc : Manifest × List String) (entry : String × String) :
    Manifest × List String :=
  let (m, applied) := acc
  let (key, value) := entry
  if m.main.any fun (k, _) => sameKey k key then
    if override then
      let main := match m.main.findIdx? fun (k, _) => sameKey k key with
        | some i => m.main.set i ((m.main.getD i ("", "")).1, value)
        | none => m.main
      ({ m with main }, applied ++ [key])
    else (m, applied)
  else ({ m with main := m.main ++ [(key, value)] }, applied ++ [key])

/-- Add entries to the main attributes, in the order given (`mergeStep`). Also the keys
that were applied. -/
def merge (m : Manifest) (entries : List (String × String)) (override : Bool) :
    Manifest × List String :=
  entries.foldl (mergeStep override) (m, [])

/-- The manifest without its sections. -/
def stripSections (m : Manifest) : Manifest := { m with sections := [] }

/-- One character of an attribute being wrapped, with the text written so far, the piece of
the current line not yet written, its length in bytes and the limit of the current line:
a character that would pass the limit starts a continuation line. -/
def wrapStep (st : String × String × Nat × Nat) (c : Char) : String × String × Nat × Nat :=
  let (out, chunk, len, limit) := st
  if len + c.utf8Size > limit then (out ++ chunk ++ "\r\n ", c.toString, c.utf8Size, maxLineBytes - 1)
  else (out, chunk.push c, len + c.utf8Size, limit)

/-- One attribute as written, wrapped so that no line exceeds the limit: the first line
holds up to 72 bytes, each continuation line a space and up to 71 more. -/
def wrapAttribute (key value : String) : String :=
  let (out, chunk, _, _) := (key ++ ": " ++ value).toList.foldl wrapStep ("", "", 0, maxLineBytes)
  out ++ chunk ++ "\r\n"

/-- The text of a block of attributes followed by its blank line. -/
def renderBlock (attrs : List (String × String)) : String :=
  String.join (attrs.map fun a => wrapAttribute a.1 a.2) ++ "\r\n"

/-- The text of a manifest. -/
def render (m : Manifest) : String :=
  renderBlock m.main ++ String.join (m.sections.map fun s => renderBlock (("Name", s.name) :: s.attributes))

/-- The bytes of a manifest. -/
def toBytes (m : Manifest) : ByteArray := m.render.toUTF8

end Manifest

end JarDeploy
