/-!
# Lines of a document

A `LineIndex` holds the byte offset at which each line of a text starts; an offset is turned into a
line and a column by a binary search in that table.  The table is never empty, because line 0 starts
at offset 0, and the search never leaves it: its result carries the bound.
-/

set_option autoImplicit false

namespace SymbolView

/-- A line and a column, both counted from 0; columns count bytes. -/
structure LineCol where
  /-- The line. -/
  line : UInt32
  /-- The column. -/
  col : UInt32
deriving DecidableEq

/-- Where the lines of a text start. -/
structure LineIndex where
  /-- The offset of the first byte of each line. -/
  starts : Array UInt32
  /-- There is a first line. -/
  starts_pos : 0 < starts.size
  /-- The length of the text in bytes. -/
  length : UInt32
deriving DecidableEq

namespace LineIndex

/-- The byte that ends a line. -/
def newline : UInt8 := 10

/-- The offsets after the newlines of some bytes, the first of which is at `offset`. -/
def startsAfter (offset : UInt32) : List UInt8 → List UInt32
  | [] => []
  | b :: bs =>
    if b = newline then (offset + 1) :: startsAfter (offset + 1) bs
    else startsAfter (offset + 1) bs

/-- The index of a text. -/
def ofText (text : String) : LineIndex where
  starts := (0 :: startsAfter 0 text.toUTF8.data.toList).toArray
  starts_pos := by simp
  length := UInt32.ofNat text.utf8ByteSize

/-- How many starts at or after place `lo` and before place `hi` come before the first one above
`offset`, by halving; counted from place 0. -/
def searchFrom (starts : Array UInt32) (offset : UInt32) (lo hi : Nat) (le : lo ≤ hi)
    (bound : hi ≤ starts.size) : { p : Nat // p ≤ starts.size } :=
  if lt : lo < hi then
    let mid := lo + (hi - lo) / 2
    have : mid < starts.size := by omega
    if starts[mid] ≤ offset then
      searchFrom starts offset (mid + 1) hi (by omega) bound
    else
      searchFrom starts offset lo mid (by omega) (by omega)
  else ⟨lo, by omega⟩
termination_by hi - lo

/-- How many lines start at or before `offset`. -/
def startsUpTo (index : LineIndex) (offset : UInt32) : { p : Nat // p ≤ index.starts.size } :=
  searchFrom index.starts offset 0 index.starts.size (Nat.zero_le _) (Nat.le_refl _)

/-- The line and column of an offset; an offset beyond the text is taken back to its end. -/
def lineCol (index : LineIndex) (offset : UInt32) : LineCol :=
  let offset := min offset index.length
  let found := index.startsUpTo offset
  have := index.starts_pos
  have := found.property
  ⟨UInt32.ofNat (found.val - 1), offset - index.starts[found.val - 1]⟩

/-- The line of an offset. -/
def lineOf (index : LineIndex) (offset : UInt32) : UInt32 := (index.lineCol offset).line

end LineIndex
end SymbolView
