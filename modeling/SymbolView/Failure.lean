import SymbolView.Key
import SymbolView.QualifiedName
import SymbolView.Host.Kind

/-!
# How a question can fail

A host refuses a question with a `HostError`.  A session refuses with a `QueryError`, which may pass
a host's on.  A `Fault` says that the host showed something this library does not know; it is a
mismatch of versions and not an answer.  `Failure` gathers the ways in which a question ends without
a value; the wording of each is in its `message`.
-/

set_option autoImplicit false

namespace SymbolView

/-- Why a host does not answer. -/
inductive HostError where
  /-- The host knows no such symbol. -/
  | unknownSymbol (symbol : SymbolId)
  /-- The host knows no class or type alias of that name. -/
  | unknownClass (id : ClassId)
  /-- The host knows no such file. -/
  | unknownFile (file : FileId)
  /-- The host itself failed. -/
  | internal (description : String)
deriving DecidableEq

/-- The wording of a host's refusal. -/
def HostError.message : HostError → String
  | unknownSymbol s => "unknown symbol " ++ s.text
  | unknownClass id => "no class symbol for class id " ++ id.text
  | unknownFile f => "unknown file " ++ f.text
  | internal description => "host failure: " ++ description

/-- Why a session does not answer. -/
inductive QueryError where
  /-- The host does not answer a question the session has to ask. -/
  | host (error : HostError)
  /-- The declaration belongs to another session. -/
  | foreignSession (symbol : SymbolId) (owner current : SessionId)
  /-- The declaration has no members; `label` says what it is. -/
  | noMembers (symbol : SymbolId) (label : String)
deriving DecidableEq

/-- The wording of a session's refusal. -/
def QueryError.message : QueryError → String
  | host error => error.message
  | foreignSession symbol owner current =>
    "declaration " ++ symbol.text ++ " belongs to session " ++ owner.text
      ++ ", queried through session " ++ current.text
  | noMembers symbol label => label ++ " " ++ symbol.text ++ " has no member scopes"

/-- The shapes of types that are never written in source code. -/
inductive UnwrittenShape where
  | captured
  | integerLiteral
  | intersection
deriving DecidableEq

/-- The name of a shape in the wording of a fault.  A wording in full would go on with all that the
type is made of; here it ends with the name. -/
def UnwrittenShape.name : UnwrittenShape → String
  | captured => "Captured"
  | integerLiteral => "IntegerLiteral"
  | intersection => "Intersection"

/-- A mismatch between the host and this library. -/
inductive Fault where
  /-- An annotation argument of an unknown form. -/
  | unsupportedValue (what : String)
  /-- A provenance tag outside the table of origins. -/
  | unhandledProvenance (tag : Provenance)
  /-- A type that cannot be the target of a written reference. -/
  | unexpectedElement (shape : UnwrittenShape)
deriving DecidableEq

/-- The wording of a fault. -/
def Fault.message : Fault → String
  | unsupportedValue what => "Unsupported annotation value: " ++ what
  | unhandledProvenance tag => "unhandled origin " ++ tag.name
  | unexpectedElement shape => "Unexpected type element " ++ shape.name

/-- The ways in which a question ends without a value. -/
inductive Failure where
  /-- It is refused. -/
  | error (error : QueryError)
  /-- It cannot be answered by this version. -/
  | fault (fault : Fault)
  /-- It never ends, because the links of the host lead in a circle. -/
  | endless
deriving DecidableEq

end SymbolView
