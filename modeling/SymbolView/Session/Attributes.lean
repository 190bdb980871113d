import SymbolView.Classifier
import SymbolView.DocComment
import SymbolView.Session.State

/-!
# What a declaration is like

The questions to a session about one declaration: where it comes from, where it is written, its
modifiers, documentation, type and name; and the questions about a type or a name.  The origin, the
location and the text of the type are kept with the adapter.
-/

set_option autoImplicit false

namespace SymbolView
namespace Session

variable (host : Host)

/-- Where the declaration comes from. -/
def origin (d : Declaration) : SessionM Origin := do
  check d
  memoize .origin d.symbol (SessionM.ofOutcome (host.classify d.symbol))

/-- Where the declaration is written. -/
def location (d : Declaration) : SessionM Location := do
  check d
  memoize .location d.symbol do
    return host.locate (← SessionM.ofHost (host.source d.symbol))

/-- The modifier of its visibility and, if there is one, that of its modality. -/
def modifiers (d : Declaration) : SessionM (List Modifier) := do
  check d
  let visibility ← SessionM.ofHost (host.visibility d.symbol)
  let modality ← SessionM.ofHost (host.modality d.symbol)
  return .ofVisibility visibility :: (modality.map .ofModality).toList

/-- The text of its documentation comment. -/
def docText (d : Declaration) : SessionM (Option String) := do
  check d
  return (← SessionM.ofHost (host.docComment d.symbol)).map DocComment.clean

/-- Its type. -/
def declaredType (d : Declaration) : SessionM (Option TypeTerm) := do
  check d
  SessionM.ofHost (host.declaredType d.symbol)

/-- The text of a type under the configuration of the session. -/
def render (type : TypeTerm) : SessionM String := do
  SessionM.ofFault (type.text (← get).config.policy false)

/-- The text of its type. -/
def typeText (d : Declaration) : SessionM (Option String) := do
  check d
  memoize .typeText d.symbol do
    match ← SessionM.ofHost (host.declaredType d.symbol) with
    | none => return none
    | some type => some <$> render type

/-- The name of a class or type alias. -/
def classId (d : Declaration) : SessionM (Option ClassId) := do
  check d
  SessionM.ofHost (host.classId d.symbol)

/-- The declaration of the classifier of a type. -/
def classifierDeclaration (type : TypeTerm) : SessionM (Option Declaration) :=
  adapterForOption host ((host.classifierOf type).map (·.symbol))

/-- The class or type alias of a name, which may be local. -/
def classOf (id : ClassId) : SessionM (Option Declaration) := do
  adapterForOption host (← SessionM.ofHost (host.lookupClass id))

end Session
end SymbolView
