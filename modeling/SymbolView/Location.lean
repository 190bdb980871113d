import SymbolView.Host.Basic

/-!
# Locations

A location is a path with a line counted from 1, or nowhere.  Finding it never fails: what is
written nowhere, or in a file without a document, is nowhere.
-/

set_option autoImplicit false

namespace SymbolView

/-- Where a declaration is written. -/
inductive Location where
  /-- In a file, on a line counted from 1. -/
  | file (path : String) (line : UInt32)
  /-- Nowhere that is known. -/
  | nonExistent
deriving DecidableEq

namespace Location

/-- Whether nothing is known of the place. -/
def isNonExistent : Location → Bool
  | file _ _ => false
  | nonExistent => true

/-- The line, if the place is known. -/
def line? : Location → Option UInt32
  | file _ line => some line
  | nonExistent => none

/-- The path and the line with a colon between. -/
def text : Location → String
  | file path line => path ++ ":" ++ line.toNat.repr
  | nonExistent => "<no location>"

end Location

/-- The location of a position. -/
def Host.locate (host : Host) : Option SourcePosition → Location
  | none => .nonExistent
  | some position =>
    match host.document position.file with
    | none => .nonExistent
    | some document => .file document.path (document.lineIndex.lineOf position.offset + 1)

end SymbolView
