import SymbolView.SymbolTable

/-!
# Interposed hosts

An `Interposed` host stands between a symbol table and whoever asks.  It can be told to refuse
questions and to answer the questions for the members of a class with a given list; all else it
passes on to the table.

A refusal counts for all questions of one kind or for those about one symbol or file.  Of several
that apply the oldest counts.  A refusal comes before a given list, and a question for a document
cannot be refused: it is answered as for a file that is not tracked.
-/

set_option autoImplicit false

namespace SymbolView

/-- The questions that a host answers. -/
inductive HostQuestion where
  | symbolKind
  | symbolName
  | provenance
  | source
  | annotations
  | containingSymbol
  | containingFile
  | declaredMembers
  | staticMembers
  | callableMembers
  | constructors
  | isVisibleIn
  | classOf
  | classId
  | declaredType
  | visibility
  | modality
  | docComment
  | fileKind
  | document
deriving DecidableEq

/-- An order to refuse a question. -/
structure Refusal where
  /-- The question. -/
  question : HostQuestion
  /-- The number of the symbol or file it is about; any if none is given. -/
  about : Option UInt32
  /-- What is answered instead. -/
  error : HostError

/-- An order to answer a question for members with a list. -/
structure PrescribedMembers where
  /-- The question. -/
  question : HostQuestion
  /-- The class it is about. -/
  cls : SymbolId
  /-- What is answered. -/
  members : List SymbolId

/-- A symbol table and the orders that go before its answers. -/
structure Interposed where
  /-- The table. -/
  table : SymbolTable := .empty
  /-- The refusals, oldest first. -/
  refusals : List Refusal := []
  /-- The lists of members, latest first. -/
  prescribed : List PrescribedMembers := []

namespace Interposed

variable (host : Interposed)

/-- Changes the table. -/
def withTable (table : SymbolTable) : Interposed := { host with table }

/-- Adds a refusal. -/
def refuse (r : Refusal) : Interposed := { host with refusals := host.refusals ++ [r] }

/-- Forgets all refusals. -/
def clearRefusals : Interposed := { host with refusals := [] }

/-- Adds a list of members. -/
def prescribe (p : PrescribedMembers) : Interposed :=
  { host with prescribed := p :: host.prescribed }

/-- Whether a refusal is meant for a question. -/
def applies (question : HostQuestion) (about : Option UInt32) (r : Refusal) : Bool :=
  r.question == question && (r.about.isNone || r.about == about)

/-- The refusal that is meant for a question, if there is one. -/
def refusal? (question : HostQuestion) (about : Option UInt32) : Option HostError :=
  (host.refusals.find? (applies question about)).map (·.error)

/-- An answer, unless the question is refused. -/
def answer {α : Type} (question : HostQuestion) (about : Option UInt32)
    (otherwise : Except HostError α) : Except HostError α :=
  match host.refusal? question about with
  | some e => .error e
  | none => otherwise

/-- The answer to a question for members. -/
def members (question : HostQuestion) (cls : SymbolId)
    (otherwise : Except HostError (List SymbolId)) : Except HostError (List SymbolId) :=
  host.answer question (some cls.val) <|
    match host.prescribed.find? fun p ↦ p.question == question && p.cls == cls with
    | some p => .ok p.members
    | none => otherwise

/-- The answers of an interposed host. -/
def toHost : Host :=
  let inner := host.table.toHost
  { symbolKind := fun s ↦ host.answer .symbolKind (some s.val) (inner.symbolKind s)
    symbolName := fun s ↦ host.answer .symbolName (some s.val) (inner.symbolName s)
    provenance := fun s ↦ host.answer .provenance (some s.val) (inner.provenance s)
    source := fun s ↦ host.answer .source (some s.val) (inner.source s)
    annotations := fun s ↦ host.answer .annotations (some s.val) (inner.annotations s)
    containingSymbol := fun s ↦
      host.answer .containingSymbol (some s.val) (inner.containingSymbol s)
    containingFile := fun s ↦ host.answer .containingFile (some s.val) (inner.containingFile s)
    declaredMembers := fun s ↦ host.members .declaredMembers s (inner.declaredMembers s)
    staticMembers := fun s ↦ host.members .staticMembers s (inner.staticMembers s)
    callableMembers := fun s ↦ host.members .callableMembers s (inner.callableMembers s)
    constructors := fun s ↦ host.members .constructors s (inner.constructors s)
    isVisibleIn := fun s cls ↦ host.answer .isVisibleIn (some s.val) (inner.isVisibleIn s cls)
    classOf := fun id ↦ host.answer .classOf none (inner.classOf id)
    classId := fun s ↦ host.answer .classId (some s.val) (inner.classId s)
    declaredType := fun s ↦ host.answer .declaredType (some s.val) (inner.declaredType s)
    visibility := fun s ↦ host.answer .visibility (some s.val) (inner.visibility s)
    modality := fun s ↦ host.answer .modality (some s.val) (inner.modality s)
    docComment := fun s ↦ host.answer .docComment (some s.val) (inner.docComment s)
    fileKind := fun f ↦ host.answer .fileKind (some f.val) (inner.fileKind f)
    document := fun f ↦
      match host.refusal? .document (some f.val) with
      | some _ => none
      | none => inner.document f }

end Interposed
end SymbolView
