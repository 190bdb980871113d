import SymbolView.Session.State

/-!
# Members of a class

Only classes and enum entries have members.  `members` lists the declared members and then the
static ones; `properties` and `functions` list the callable members that are visible in the class or
lie directly in it, inherited ones included.  Each symbol is listed once, where it comes first.
-/

set_option autoImplicit false

namespace SymbolView

namespace Session

variable (host : Host)

/-- What a symbol is called when it turns out to have no members. -/
def kindLabel (s : SymbolId) : String :=
  match host.symbolKind s with
  | .ok kind => kind.label
  | .error _ => "declaration"

/-- Refuses declarations that have no members. -/
def requireMembers (d : Declaration) : SessionM Unit :=
  if d.kind.hasMembers then return ()
  else throw (.error (.noMembers d.symbol (kindLabel host d.symbol)))

/-- The declared members and then the static ones, as the host has them now. -/
def currentMembers (d : Declaration) : SessionM (List Declaration) := do
  let declared ← SessionM.ofHost (host.declaredMembers d.symbol)
  let static ← SessionM.ofHost (host.staticMembers d.symbol)
  adaptersFor host ((declared ++ static).eraseDups)

/-- The declared members and then the static ones; kept with the adapter if the session says so. -/
def members (d : Declaration) : SessionM (List Declaration) := do
  check d
  requireMembers host d
  if (← get).config.memoizeMembers then memoize .members d.symbol (currentMembers host d)
  else currentMembers host d

/-- Whether a symbol is visible in a class or lies directly in it. -/
def isAccessible (cls s : SymbolId) : Except HostError Bool := do
  if ← host.isVisibleIn s cls then return true
  else return (← host.containingSymbol s) == some cls

/-- Whether a symbol is accessible in a class and of a wanted kind. -/
def isWanted (wanted : SymbolKind → Bool) (cls s : SymbolId) : Except HostError Bool := do
  if ← isAccessible host cls s then return wanted (← host.symbolKind s) else return false

/-- The wanted ones among the candidates. -/
def selectWanted (wanted : SymbolKind → Bool) (cls : SymbolId) :
    List SymbolId → Except HostError (List SymbolId)
  | [] => pure []
  | s :: rest => do
    let keep ← isWanted host wanted cls s
    let others ← selectWanted wanted cls rest
    return if keep then s :: others else others

/-- Whether symbols of the kind are properties. -/
def isProperty : SymbolKind → Bool
  | .property => true
  | .javaField => true
  | _ => false

/-- Whether symbols of the kind are functions. -/
def isFunction : SymbolKind → Bool
  | .functionLike => true
  | _ => false

/-- The adapters of the wanted ones among the candidates; none is made before all are selected. -/
def accessible (wanted : SymbolKind → Bool) (d : Declaration) (candidates : List SymbolId) :
    SessionM (List Declaration) := do
  let selected ← SessionM.ofHost (selectWanted host wanted d.symbol candidates)
  adaptersFor host (selected.eraseDups)

/-- The properties of a class. -/
def properties (d : Declaration) : SessionM (List Declaration) := do
  check d
  requireMembers host d
  let callables ← SessionM.ofHost (host.callableMembers d.symbol)
  accessible host isProperty d callables

/-- The functions of a class and then its constructors. -/
def functions (d : Declaration) : SessionM (List Declaration) := do
  check d
  requireMembers host d
  let callables ← SessionM.ofHost (host.callableMembers d.symbol)
  let constructors ← SessionM.ofHost (host.constructors d.symbol)
  accessible host isFunction d (callables ++ constructors)

end Session
end SymbolView
