import SymbolView.Text.Pieces
import SymbolView.Text.Blank

/-!
# Documentation comments

`DocComment.clean` takes the delimiters and the star gutter off a documentation comment.  A text
that is not delimited like one is only trimmed.

Each line loses its leading blanks, then one star, then one space, then its trailing blanks; the
opening line is treated like every other.  Empty lines at both ends are dropped, those between stay.
-/

set_option autoImplicit false

namespace SymbolView
namespace DocComment

open Text

/-- The characters between the opening and the closing delimiter, which may not overlap. -/
def body? (cs : List Char) : Option (List Char) := do
  let rest ← List.isPrefixOf? "/**".toList cs
  List.isSuffixOf? "*/".toList rest

/-- Drops `c` from the front of a line, once, if it is there. -/
def dropLeading (c : Char) : List Char → List Char
  | [] => []
  | x :: xs => if x = c then xs else x :: xs

/-- One line without its gutter and its trailing blanks. -/
def cleanLine (line : List Char) : List Char :=
  trimEnd (dropLeading ' ' (dropLeading '*' (trimStart line)))

/-- Drops the empty lines at both ends. -/
def dropOuterEmpty (ls : List (List Char)) : List (List Char) :=
  ((ls.dropWhile List.isEmpty).reverse.dropWhile List.isEmpty).reverse

/-- The text of a documentation comment. -/
def clean (raw : String) : String :=
  let trimmed := trim raw.toList
  match body? trimmed with
  | none => String.ofList trimmed
  | some body => "\n".intercalate ((dropOuterEmpty ((lines body).map cleanLine)).map String.ofList)

end DocComment
end SymbolView
