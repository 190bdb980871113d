/-!
# Keys of symbols, files and sessions

A symbol and a file of the front end are known by 32-bit keys; nothing else about them is kept.  A
session is known by its number.  Two keys are equal exactly when they name the same thing.
-/

set_option autoImplicit false

namespace SymbolView

/-- The identity of a symbol of the front end. -/
structure SymbolId where
  /-- The number the front end gave the symbol. -/
  val : UInt32
deriving DecidableEq

/-- The identity of a file of the front end. -/
structure FileId where
  /-- The number the front end gave the file. -/
  val : UInt32
deriving DecidableEq

/-- The identity of a session. -/
structure SessionId where
  /-- The number of the session. -/
  val : Nat
deriving DecidableEq

/-- The place of a symbol in the table of all symbols. -/
def SymbolId.index (s : SymbolId) : Nat := s.val.toNat

/-- The key of the symbol at a place of the table. -/
def SymbolId.ofIndex (i : Nat) : SymbolId := ⟨UInt32.ofNat i⟩

/-- How many symbols there can be.  A chain of more symbols than that has come back to one. -/
def SymbolId.count : Nat := UInt32.size

/-- A symbol in an error text. -/
def SymbolId.text (s : SymbolId) : String := "#" ++ s.val.toNat.repr

/-- The place of a file in the table of all files. -/
def FileId.index (f : FileId) : Nat := f.val.toNat

/-- The key of the file at a place of the table. -/
def FileId.ofIndex (i : Nat) : FileId := ⟨UInt32.ofNat i⟩

/-- A file in an error text. -/
def FileId.text (f : FileId) : String := "FileId(" ++ f.val.toNat.repr ++ ")"

/-- A session in an error text. -/
def SessionId.text (s : SessionId) : String := "<session " ++ s.val.repr ++ ">"

end SymbolView
