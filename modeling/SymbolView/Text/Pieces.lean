/-!
# Cutting text into pieces

Characters in a list are cut at a separator (`pieces`, `segments`) or at line ends (`lines`).  Both
are structural recursions that put one character after the other in front of the first piece, so
facts about them are inductions on the text.

`segments` leaves out empty pieces; `lines` accepts LF and CRLF and does not count what follows the
last line end as a line when it is empty.
-/

set_option autoImplicit false

namespace SymbolView
namespace Text

/-- Puts one element in front of the first piece, or makes it the only piece. -/
def consHead {α : Type} (a : α) : List (List α) → List (List α)
  | [] => [[a]]
  | p :: ps => (a :: p) :: ps

/-- The stretches between the occurrences of `sep`; always one more than there are separators. -/
def pieces (sep : Char) : List Char → List (List Char)
  | [] => [[]]
  | c :: cs => if c = sep then [] :: pieces sep cs else consHead c (pieces sep cs)

/-- The non-empty pieces of a text. -/
def segments (sep : Char) (text : String) : List String :=
  ((pieces sep text.toList).filter (!·.isEmpty)).map String.ofList

/-- What follows the last occurrence of `sep`; the whole text if there is none. -/
def afterLast (sep : Char) (text : String) : String :=
  String.ofList ((pieces sep text.toList).getLastD [])

/-- The lines of a text without their ends.  A line ends with LF or CRLF; a carriage return
anywhere else is an ordinary character. -/
def lines : List Char → List (List Char)
  | [] => []
  | '\n' :: cs => [] :: lines cs
  | '\r' :: '\n' :: cs => [] :: lines cs
  | c :: cs => consHead c (lines cs)

theorem consHead_ne_nil {α : Type} (a : α) (ps : List (List α)) : consHead a ps ≠ [] := by
  cases ps <;> simp [consHead]

theorem pieces_ne_nil (sep : Char) (cs : List Char) : pieces sep cs ≠ [] := by
  cases cs with
  | nil => simp [pieces]
  | cons c cs =>
    rw [pieces]
    split
    · simp
    · exact consHead_ne_nil c _

end Text
end SymbolView
