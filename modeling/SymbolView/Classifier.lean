import SymbolView.Host.Basic

/-!
# Classifiers

The classifier of a type is the class, type alias or type parameter that the type names.  Finding it
never fails: where the host refuses, there is none.

`Host.lookupClass` finds the symbol of a class or type alias by name.  A host indexes only classes
that are not local.  A local class is looked for among the declared members of the class around it;
it is found if it is the only class or type alias there with its name, and it is a class.
-/

set_option autoImplicit false

namespace SymbolView

/-- What a type names. -/
inductive Classifier where
  | classLike (symbol : SymbolId)
  | typeAlias (symbol : SymbolId)
  | typeParameter (symbol : SymbolId)
deriving DecidableEq

/-- The symbol of a classifier. -/
def Classifier.symbol : Classifier → SymbolId
  | classLike s => s
  | typeAlias s => s
  | typeParameter s => s

/-- The classifier of a symbol that is named as a class or as a type alias. -/
def ClassifierKind.classifier : ClassifierKind → SymbolId → Classifier
  | classLike => .classLike
  | typeAlias => .typeAlias

namespace Host

variable (host : Host)

/-- The symbol in the host's index of classes; a name that is not in it is no failure. -/
def lookupIndexed (id : ClassId) : Except HostError (Option SymbolId) :=
  match host.classOf id with
  | .ok s => .ok (some s)
  | .error (.unknownClass _) => .ok none
  | .error e => .error e

/-- Whether a symbol is a class or type alias called `name`. -/
def isClassifierNamed (name : String) (s : SymbolId) : Except HostError Bool := do
  match ← host.symbolKind s with
  | .namedClass | .typeAlias => return (← host.symbolName s) == some name
  | _ => return false

/-- The one class or type alias called `name` among some symbols, the first of which may have been
found already.  The search ends at the second. -/
def onlyClassifierNamed (name : String) :
    Option SymbolId → List SymbolId → Except HostError (Option SymbolId)
  | found, [] => pure found
  | found, s :: rest => do
    if ← host.isClassifierNamed name s then
      match found with
      | some _ => return none
      | none => onlyClassifierNamed name (some s) rest
    else onlyClassifierNamed name found rest

/-- The symbol of a local class, given the symbol of the class around it. -/
def lookupMember (name : String) (outer : SymbolId) : Except HostError (Option SymbolId) := do
  match ← host.onlyClassifierNamed name none (← host.declaredMembers outer) with
  | none => return none
  | some s => return if (← host.symbolKind s) = .namedClass then some s else none

/-- The symbol of a class or type alias. -/
def lookupClass (id : ClassId) : Except HostError (Option SymbolId) :=
  if id.isLocal then
    match id.outer? with
    | none => .ok none
    | some outer => do
      match ← host.lookupIndexed outer with
      | none => return none
      | some o => host.lookupMember id.shortName o
  else host.lookupIndexed id

mutual

/-- The classifier of a type.  A flexible type is taken at its lower bound. -/
def classifierOf : TypeTerm → Option Classifier
  | ⟨shape, _, _⟩ => classifierOfShape shape

/-- The classifier of a type of this shape. -/
def classifierOfShape : TypeShape → Option Classifier
  | .classType _ classifier _ _ =>
    match host.lookupClass classifier.id with
    | .ok (some s) => some (classifier.kind.classifier s)
    | _ => none
  | .typeParameter s _ => some (.typeParameter s)
  | .notNull base => classifierOf base
  | .flexible lower _ => classifierOf lower
  | .unresolved _ _ => none
  | .captured _ => none
  | .dynamic => none
  | .integerLiteral _ => none
  | .intersection _ => none

end

end Host
end SymbolView
