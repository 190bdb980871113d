/-!
# Blank characters and trimming

A character is blank when it has the Unicode property `White_Space`.  `trimStart`, `trimEnd` and
`trim` take blanks off the ends of a list of characters.  The zero width space, the byte order mark
and the control characters U+001C to U+001F do not have the property.
-/

set_option autoImplicit false

namespace SymbolView
namespace Text

/-- The characters with the Unicode property `White_Space`. -/
def isBlank (c : Char) : Bool :=
  let n := c.toNat
  (0x09 ≤ n && n ≤ 0x0d) || n == 0x20 || n == 0x85 || n == 0xa0 || n == 0x1680
    || (0x2000 ≤ n && n ≤ 0x200a) || n == 0x2028 || n == 0x2029 || n == 0x202f || n == 0x205f
    || n == 0x3000

/-- Takes blanks off the front. -/
def trimStart (cs : List Char) : List Char := cs.dropWhile isBlank

/-- Takes blanks off the end. -/
def trimEnd (cs : List Char) : List Char := (cs.reverse.dropWhile isBlank).reverse

/-- Takes blanks off both ends. -/
def trim (cs : List Char) : List Char := trimEnd (trimStart cs)

end Text
end SymbolView
