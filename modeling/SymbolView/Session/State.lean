import SymbolView.Annotations.Projection
import SymbolView.Declaration
import SymbolView.Location
import SymbolView.Modifier
import SymbolView.Origin
import SymbolView.Type.Text

/-!
# Sessions

A `Session` is a value: its configuration and the adapters it has made, each with what has been
found out about it.  A computation that asks through a session is a `SessionM`; it ends with an
answer or a `Failure` and, either way, with the session as it is then.

* `adapterFor` returns the adapter of a symbol, which is made when it is first asked for.
* `check` refuses the adapters of other sessions.
* `memoize` keeps an answer with an adapter.  Only answers are kept, never failures, and what has
  been kept is never replaced.
-/

set_option autoImplicit false

namespace SymbolView

/-- What is fixed when a session is opened. -/
structure SessionConfig where
  /-- Where the question mark of nullable types is written. -/
  policy : SuffixPolicy := .uniform
  /-- Whether the members of a class are found out only once. -/
  memoizeMembers : Bool := true
deriving DecidableEq

/-- What has been found out about the symbol of an adapter. -/
structure Memo where
  /-- Its origin. -/
  origin : Option Origin := none
  /-- Its location. -/
  location : Option Location := none
  /-- The text of its type, or that it has none. -/
  typeText : Option (Option String) := none
  /-- Its declared and static members. -/
  members : Option (List Declaration) := none
deriving DecidableEq

/-- An adapter and what has been found out about it. -/
structure Entry where
  /-- The adapter. -/
  declaration : Declaration
  /-- What has been found out. -/
  memo : Memo
deriving DecidableEq

/-- A session. -/
structure Session where
  /-- Its identity. -/
  id : SessionId
  /-- Its configuration. -/
  config : SessionConfig
  /-- The adapters it has made, oldest first. -/
  entries : List Entry
deriving DecidableEq

/-- A computation that asks through a session. -/
abbrev SessionM : Type → Type := ExceptT Failure (StateM Session)

namespace Session

/-- A session that has made no adapters yet. -/
def start (id : SessionId) (config : SessionConfig) : Session := ⟨id, config, []⟩

/-- How many adapters the session has made. -/
def adapterCount (session : Session) : Nat := session.entries.length

/-- The entry of a symbol. -/
def entry? (session : Session) (s : SymbolId) : Option Entry :=
  session.entries.find? (·.declaration.symbol == s)

/-- The adapter of a symbol, if it has been made. -/
def adapter? (session : Session) (s : SymbolId) : Option Declaration :=
  (session.entry? s).map (·.declaration)

/-- What has been found out about a symbol. -/
def memo (session : Session) (s : SymbolId) : Memo :=
  ((session.entry? s).map (·.memo)).getD {}

/-- The adapter that the session would make next. -/
def nextAdapter (session : Session) (s : SymbolId) (kind : SymbolKind) (name : Option String) :
    Declaration :=
  ⟨s, .ofSymbol kind, name, session.id, session.adapterCount⟩

/-- Adds an adapter about which nothing has been found out. -/
def add (session : Session) (d : Declaration) : Session :=
  { session with entries := session.entries ++ [⟨d, {}⟩] }

/-- Changes what has been found out about a symbol. -/
def updateMemo (session : Session) (s : SymbolId) (change : Memo → Memo) : Session :=
  { session with
    entries := session.entries.map fun e ↦
      if e.declaration.symbol = s then { e with memo := change e.memo } else e }

end Session

namespace SessionM

/-- An answer of the host. -/
def ofHost {α : Type} (answer : Except HostError α) : SessionM α :=
  match answer with
  | .ok a => pure a
  | .error e => throw (.ofHost e)

/-- An answer that may be a fault. -/
def ofFault {α : Type} (answer : Except Fault α) : SessionM α :=
  match answer with
  | .ok a => pure a
  | .error f => throw (.fault f)

/-- An answer that may be any failure. -/
def ofOutcome {α : Type} (answer : Except Failure α) : SessionM α :=
  match answer with
  | .ok a => pure a
  | .error f => throw f

end SessionM

/-! ## What is kept with an adapter -/

/-- A place for one answer. -/
structure Cell (α : Type) where
  /-- The answer that is kept there. -/
  read : Memo → Option α
  /-- Keeps an answer there. -/
  write : α → Memo → Memo

namespace Cell

/-- The place for the origin. -/
def origin : Cell Origin := ⟨(·.origin), fun a m ↦ { m with origin := some a }⟩

/-- The place for the location. -/
def location : Cell Location := ⟨(·.location), fun a m ↦ { m with location := some a }⟩

/-- The place for the text of the type. -/
def typeText : Cell (Option String) := ⟨(·.typeText), fun a m ↦ { m with typeText := some a }⟩

/-- The place for the members. -/
def members : Cell (List Declaration) := ⟨(·.members), fun a m ↦ { m with members := some a }⟩

end Cell

/-- The answer kept for a symbol; if there is none yet, the one that is found out now, which is kept
if it is found. -/
def memoize {α : Type} (cell : Cell α) (s : SymbolId) (compute : SessionM α) : SessionM α := do
  match cell.read ((← get).memo s) with
  | some a => return a
  | none =>
    let a ← compute
    modify (·.updateMemo s (cell.write a))
    return a

/-! ## Adapters -/

/-- The adapter of a symbol. -/
def adapterFor (host : Host) (s : SymbolId) : SessionM Declaration := do
  match (← get).adapter? s with
  | some d => return d
  | none =>
    let kind ← SessionM.ofHost (host.symbolKind s)
    let name ← SessionM.ofHost (host.symbolName s)
    let d := (← get).nextAdapter s kind name
    modify (·.add d)
    return d

/-- The adapters of symbols, in order; the first that cannot be made ends it. -/
def adaptersFor (host : Host) : List SymbolId → SessionM (List Declaration)
  | [] => return []
  | s :: rest => do
    let d ← adapterFor host s
    return d :: (← adaptersFor host rest)

/-- The adapter of a symbol that may be absent. -/
def adapterForOption (host : Host) : Option SymbolId → SessionM (Option Declaration)
  | none => return none
  | some s => some <$> adapterFor host s

/-- Refuses the adapters of other sessions. -/
def check (d : Declaration) : SessionM Unit := do
  let current := (← get).id
  if d.session = current then return ()
  else throw (.error (.foreignSession d.symbol d.session current))

end SymbolView
