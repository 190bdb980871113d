import SymbolView.Failure
import SymbolView.LineIndex
import SymbolView.Type.Term

/-!
# Hosts

A `Host` is a front end as this library sees it: one answer function per question.  Every question
but the one for a document may be refused.  Nothing is assumed about the answers; a host may name
symbols it knows nothing about, and the links from symbol to symbol may lead in a circle.
-/

set_option autoImplicit false

namespace SymbolView

/-- A position in a file, as an offset in bytes from its start. -/
structure SourcePosition where
  /-- The file. -/
  file : FileId
  /-- The offset. -/
  offset : UInt32
deriving DecidableEq

/-- What is known of the text of a file. -/
structure Document where
  /-- The path of the file. -/
  path : String
  /-- Where its lines start. -/
  lineIndex : LineIndex
deriving DecidableEq

/-- The document of a text. -/
def Document.ofText (path text : String) : Document := ⟨path, .ofText text⟩

/-- The answers of a front end. -/
structure Host where
  /-- What a symbol is. -/
  symbolKind : SymbolId → Except HostError SymbolKind
  /-- The name of a symbol; anonymous symbols have none. -/
  symbolName : SymbolId → Except HostError (Option String)
  /-- How a symbol came to be. -/
  provenance : SymbolId → Except HostError Provenance
  /-- Where a symbol is written; some are written nowhere. -/
  source : SymbolId → Except HostError (Option SourcePosition)
  /-- The annotations written on a symbol, in order. -/
  annotations : SymbolId → Except HostError (List Annotations.Application)
  /-- The symbol around a symbol. -/
  containingSymbol : SymbolId → Except HostError (Option SymbolId)
  /-- The symbol of the file that declares a symbol. -/
  containingFile : SymbolId → Except HostError (Option SymbolId)
  /-- The members declared in a class. -/
  declaredMembers : SymbolId → Except HostError (List SymbolId)
  /-- The static members of a class. -/
  staticMembers : SymbolId → Except HostError (List SymbolId)
  /-- The callable members of a class, inherited ones included. -/
  callableMembers : SymbolId → Except HostError (List SymbolId)
  /-- The constructors of a class. -/
  constructors : SymbolId → Except HostError (List SymbolId)
  /-- Whether a member, given first, is visible inside a class, given second. -/
  isVisibleIn : SymbolId → SymbolId → Except HostError Bool
  /-- The class or type alias of a name that is not local. -/
  classOf : ClassId → Except HostError SymbolId
  /-- The name of a class or type alias; other symbols have none. -/
  classId : SymbolId → Except HostError (Option ClassId)
  /-- The type of a property or parameter, the result of a function, the expansion of an alias. -/
  declaredType : SymbolId → Except HostError (Option TypeTerm)
  /-- Who may use a symbol. -/
  visibility : SymbolId → Except HostError Visibility
  /-- Whether a symbol may be overridden, for those where that can be said. -/
  modality : SymbolId → Except HostError (Option Modality)
  /-- The documentation comment of a symbol, delimiters included. -/
  docComment : SymbolId → Except HostError (Option String)
  /-- What a file holds. -/
  fileKind : FileId → Except HostError FileKind
  /-- The document of a file; files that are not tracked have none. -/
  document : FileId → Option Document

end SymbolView
