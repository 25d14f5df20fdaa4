/-!
# Blank characters and trimming

The blank characters are those of the Unicode `White_Space` property: tab, line feed,
vertical tab, form feed, carriage return, space, next line, no-break space, ogham space
mark, the spaces from en quad to hair space, line and paragraph separators, narrow
no-break space, medium mathematical space and ideographic space. Trimming removes them
from the ends of a text.
-/

namespace JarDeploy.Text

set_option autoImplicit false

/-- Is the character blank (Unicode `White_Space`)? -/
def isBlank (c : Char) : Bool :=
  let n := c.toNat
  (9 ≤ n && n ≤ 13) || n = 32 || n = 0x85 || n = 0xA0 || n = 0x1680 ||
    (0x2000 ≤ n && n ≤ 0x200A) || n = 0x2028 || n = 0x2029 || n = 0x202F || n = 0x205F || n = 0x3000

/-- The text without its leading blanks. -/
def trimStart (s : String) : String := String.ofList (s.toList.dropWhile isBlank)

/-- The text without its trailing blanks. -/
def trimEnd (s : String) : String := String.ofList (s.toList.reverse.dropWhile isBlank).reverse

/-- The text without blanks at either end. -/
def trim (s : String) : String := trimEnd (trimStart s)

end JarDeploy.Text
