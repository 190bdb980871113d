import SymbolView.Session.State

/-!
# What a declaration lies in

The parent of a declaration is the symbol around it or else its file.  `ancestorOf` climbs from
parent to parent.  There are only `SymbolId.count` symbols, so a climb of more steps than that has
come back to a symbol and would never end.
-/

set_option autoImplicit false

namespace SymbolView
namespace Session

variable (host : Host)

/-- The declaration around this one, or its file; a file has no parent. -/
def parent (d : Declaration) : SessionM (Option Declaration) := do
  check d
  match ← SessionM.ofHost (host.containingSymbol d.symbol) with
  | some container => some <$> adapterFor host container
  | none =>
    match ← SessionM.ofHost (host.containingFile d.symbol) with
    | some file => if file = d.symbol then return none else some <$> adapterFor host file
    | none => return none

/-- The first parent of a category, in a climb of so many steps at most. -/
def climb (category : DeclarationCategory) : Nat → Declaration → SessionM (Option Declaration)
  | 0, _ => throw .endless
  | steps + 1, d => do
    match ← parent host d with
    | none => return none
    | some p => if p.kind.category = category then return some p else climb category steps p

/-- The nearest declaration of a category around this one. -/
def ancestorOf (category : DeclarationCategory) (d : Declaration) : SessionM (Option Declaration) :=
  climb host category SymbolId.count d

/-- Whether declarations of the kind count as enclosing others. -/
def enclosesOthers : DeclarationKind → Bool
  | .cls => true
  | .function => true
  | .property => true
  | _ => false

/-- The class, function or property directly around the declaration. -/
def containingDeclaration (d : Declaration) : SessionM (Option Declaration) := do
  check d
  match ← SessionM.ofHost (host.containingSymbol d.symbol) with
  | none => return none
  | some container =>
    let c ← adapterFor host container
    return if enclosesOthers c.kind then some c else none

/-- The file that the declaration is in. -/
def containingFile (d : Declaration) : SessionM (Option Declaration) := do
  check d
  adapterForOption host (← SessionM.ofHost (host.containingFile d.symbol))

end Session
end SymbolView
