import JarDeploy.Toml.Document
import JarDeploy.Text.Utf8

/-!
# TOML error reports

A report names the line and column (both from one) where the problem starts, shows that
line under a gutter, marks the problem with carets (at least one, at most to the end of
the line; a problem found in the text marks the character there), and ends with the
message. The column counts characters, except when the character at the problem is wider
than one byte: then it counts the bytes before it on its line. A problem without a place
shows only the message, followed by the path of keys that led to it.
-/

namespace JarDeploy.Toml

set_option autoImplicit false

/-- Line (from zero) and column (from zero) of byte `index`: the column counts the
characters before the index on its line when the line up to and including the byte at
the index is whole UTF-8, and the bytes before it otherwise; an index at or past the end
counts from the last byte. -/
def linePosition (raw : ByteArray) (index : Nat) : Nat × Nat :=
  if raw.size = 0 then (0, index)
  else
    let safe := min index (raw.size - 1)
    let extra := index - safe
    let before := (raw.extract 0 safe).toList
    let lineStart := match (before.zipIdx.filter (fun p => p.1 == 10)).getLast? with
      | some (_, k) => k + 1
      | none => 0
    let line := ((raw.extract 0 lineStart).toList.filter (· == 10)).length
    let column := match String.fromUTF8? (raw.extract lineStart (safe + 1)) with
      | some s => s.length - 1
      | none => safe - lineStart
    (line, column + extra)

/-- The span that marks a problem found at byte `offset` of `raw`: the whole character
that holds the offset (an offset inside a character moves back to its start), or nothing
at the end of the text. -/
def problemSpan (raw : ByteArray) (offset : Nat) : Span :=
  let isStart (k : Nat) : Bool := match raw[k]? with
    | some b => Utf8.width b != 0
    | none => true
  let start := (((List.range 4).map (offset - ·)).find? isStart).getD 0
  let width := match raw[start]? with
    | some b => min (Utf8.width b) (raw.size - start)
    | none => 0
  ⟨start, start + width⟩

/-- `n` copies of a character. -/
def repeatChar (c : Char) (n : Nat) : String := String.ofList (List.replicate n c)

/-- The report of a problem in `raw` at `span`, with `keys` leading to it. -/
def report (raw : String) (span : Option Span) (message : String) (keys : List String) : String :=
  match span with
  | some sp =>
    let bytes := raw.toUTF8
    let (line, column) := linePosition bytes sp.start
    let lineNo := toString (line + 1)
    let gutter := lineNo.length
    let content := ((raw.splitOn "\n")[line]?).getD ""
    let width := min (sp.stop - sp.start) (content.utf8ByteSize - column)
    "TOML parse error at line " ++ lineNo ++ ", column " ++ toString (column + 1) ++ "\n" ++
      repeatChar ' ' (gutter + 1) ++ "|\n" ++
      lineNo ++ " | " ++ content ++ "\n" ++
      repeatChar ' ' (gutter + 1) ++ "|" ++ repeatChar ' ' (column + 1) ++ "^" ++
        repeatChar '^' (width - 1) ++ "\n" ++
      message ++ "\n"
  | none =>
    message ++ "\n" ++ (if keys.isEmpty then "" else "in `" ++ ".".intercalate keys ++ "`\n")

end JarDeploy.Toml
