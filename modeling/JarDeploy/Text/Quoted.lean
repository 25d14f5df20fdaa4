import JarDeploy.Text.Printable

/-!
# Strings quoted for diagnostics

Error messages show a string inside double quotes with the quote, the backslash, the NUL,
tab, carriage return and line feed escaped by a backslash, and any other character that
`needsEscape` picks (controls, characters that are not printable, characters that extend
a grapheme) as `\u` followed by its code in lower-case hex between braces.
-/

namespace JarDeploy.Text

set_option autoImplicit false

/-- Lower-case hex digits of `n`, without leading zeros. -/
def hexDigits (n : Nat) : String := String.ofList (Nat.toDigits 16 n)

/-- One character of a quoted diagnostic string. -/
def debugChar (c : Char) : String :=
  if c = '"' then "\\\""
  else if c = '\\' then "\\\\"
  else if c = '\n' then "\\n"
  else if c = '\r' then "\\r"
  else if c = '\t' then "\\t"
  else if c.toNat = 0 then "\\0"
  else if needsEscape c then "\\u" ++ "\x7b" ++ hexDigits c.toNat ++ "\x7d"
  else c.toString

/-- The string in double quotes, escaped for a diagnostic. -/
def debugQuote (s : String) : String :=
  "\"" ++ s.foldl (fun acc c => acc ++ debugChar c) "" ++ "\""

end JarDeploy.Text
