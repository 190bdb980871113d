import SymbolView.Proofs.Session.Entries
import SymbolView.Session.Query

/-!
# What a session finds out once

Four answers about a declaration are kept with its adapter: its origin, its location, the text of
its type and its members.  A `Finding` is one of the four.  Each has a cell where it is kept
(`Finding.cell`), a question that asks for it (`Finding.question`) and a computation that looks it
up in the host (`Finding.lookUp`).

* `Finding.find_eq` says that the four are found in one way: check the adapter, then answer from the
  cell, or else look up and fill the cell (`Finding.fetch`).
* `Finding.Holds` says when a value is what the host says now, without reference to any cell.
-/

set_option autoImplicit false

namespace SymbolView

/-! ## What a host says -/

/-- What an adapter shows of its symbol. -/
abbrev Face : Type := SymbolId × DeclarationKind × Option String

/-- The symbol, the kind and the name. -/
def Declaration.face (d : Declaration) : Face := (d.symbol, d.kind, d.name)

namespace Host

variable (host : Host)

/-- The kind and the name of a symbol. -/
def kindAndName (s : SymbolId) : Except HostError (SymbolKind × Option String) :=
  return (← host.symbolKind s, ← host.symbolName s)

/-- What the adapter of a symbol would show. -/
def faceOf (s : SymbolId) : Except Failure Face := do
  let (kind, name) ← (host.kindAndName s).mapError Failure.ofHost
  return (s, .ofSymbol kind, name)

/-- Whether an adapter shows what the host says about its symbol. -/
def Shows (d : Declaration) : Prop := host.faceOf d.symbol = .ok d.face

/-- The location of a symbol. -/
def locationOf (s : SymbolId) : Except Failure Location :=
  return host.locate (← (host.source s).mapError Failure.ofHost)

/-- The text of the type of a symbol, if it has a type. -/
def typeTextOf (policy : SuffixPolicy) (s : SymbolId) : Except Failure (Option String) := do
  match ← (host.declaredType s).mapError Failure.ofHost with
  | none => return none
  | some type => some <$> (type.text policy false).mapError Failure.fault

/-- The symbols of the declared members and then of the static ones, each once. -/
def memberSymbols (s : SymbolId) : Except Failure (List SymbolId) := do
  let declared ← (host.declaredMembers s).mapError Failure.ofHost
  let static ← (host.staticMembers s).mapError Failure.ofHost
  return (declared ++ static).eraseDups

end Host

/-! ## Findings -/

/-- An answer that is kept with an adapter once it has been found. -/
inductive Finding where
  | origin
  | location
  | typeText
  | members
deriving DecidableEq

namespace Finding

/-- What is found. -/
abbrev Value : Finding → Type
  | origin => Origin
  | location => Location
  | typeText => Option String
  | members => List Declaration

/-- Where it is kept. -/
def cell : (f : Finding) → Cell f.Value
  | origin => .origin
  | location => .location
  | typeText => .typeText
  | members => .members

/-- What a session keeps for a symbol. -/
def kept (f : Finding) (S : Session) (s : SymbolId) : Option f.Value := f.cell.read (S.memo s)

/-- Whether a session of a configuration keeps it. -/
def isKeptBy (config : SessionConfig) : Finding → Bool
  | members => config.memoizeMembers
  | _ => true

/-- Whether declarations of a kind have such a thing. -/
def isOf (kind : DeclarationKind) : Finding → Bool
  | members => kind.hasMembers
  | _ => true

/-- The question that asks for it. -/
def question (d : Declaration) : Finding → Query
  | origin => .origin d
  | location => .location d
  | typeText => .typeText d
  | members => .members d

/-- The answer that tells it. -/
def answer : (f : Finding) → f.Value → Answer
  | origin => .origin
  | location => .location
  | typeText => .text?
  | members => .declarations

/-- What a session answers. -/
def find (host : Host) (d : Declaration) : (f : Finding) → SessionM f.Value
  | origin => Session.origin host d
  | location => Session.location host d
  | typeText => Session.typeText host d
  | members => Session.members host d

/-- Refuses the declarations that have no such thing. -/
def ensure (host : Host) (d : Declaration) : Finding → SessionM Unit
  | members => Session.requireMembers host d
  | _ => return ()

/-- What the host says now. -/
def lookUp (host : Host) (d : Declaration) : (f : Finding) → SessionM f.Value
  | origin => SessionM.ofOutcome (host.classify d.symbol)
  | location => SessionM.ofOutcome (host.locationOf d.symbol)
  | typeText => do SessionM.ofOutcome (host.typeTextOf (← get).config.policy d.symbol)
  | members => Session.currentMembers host d

/-- What is kept or else, and if nothing is ever kept, what the host says now. -/
def fetch (host : Host) (d : Declaration) (f : Finding) : SessionM f.Value := do
  if f.isKeptBy (← get).config then memoize f.cell d.symbol (f.lookUp host d)
  else f.lookUp host d

/-- Whether a value is what the host says now about a symbol.  Of members it is only the symbols
that the host knows; the adapters have to be the session's. -/
def Holds (host : Host) (S : Session) (s : SymbolId) : (f : Finding) → f.Value → Prop
  | origin, v => host.classify s = .ok v
  | location, v => host.locationOf s = .ok v
  | typeText, v => host.typeTextOf S.config.policy s = .ok v
  | members, v => host.memberSymbols s = .ok (v.map (·.symbol)) ∧ ∀ d ∈ v, d ∈ S.declarations

/-! ## Cells -/

variable {f g : Finding} {S : Session} {s t : SymbolId} {d : Declaration}

theorem read_write (v : f.Value) (m : Memo) : f.cell.read (f.cell.write v m) = some v := by
  cases f <;> rfl

theorem read_write_of_ne (h : g ≠ f) (v : f.Value) (m : Memo) :
    g.cell.read (f.cell.write v m) = g.cell.read m := by
  cases f <;> cases g <;> first | rfl | exact absurd rfl h

@[simp] theorem kept_add (f : Finding) (S : Session) (d : Declaration) (s : SymbolId) :
    f.kept (S.add d) s = f.kept S s := by
  rw [kept, Session.memo_add, kept]

theorem kept_of_adapter?_eq_none (h : S.adapter? s = none) : f.kept S s = none := by
  rw [kept, Session.memo_of_adapter?_eq_none h]
  cases f <;> rfl

/-- What has been written to the cell of an adapter is kept there. -/
theorem kept_write_self (h : S.adapter? s = some d) (v : f.Value) :
    f.kept (S.updateMemo s (f.cell.write v)) s = some v := by
  rw [kept, Session.memo_updateMemo_self h, read_write]

/-- Every other cell stays as it is. -/
theorem kept_write_of_ne (h : ¬ (g = f ∧ t = s)) (v : f.Value) :
    g.kept (S.updateMemo s (f.cell.write v)) t = g.kept S t := by
  by_cases ht : t = s
  · subst ht
    cases hd : S.adapter? t with
    | none => rw [kept, Session.memo_updateMemo_of_eq_none hd, kept]
    | some d =>
      rw [kept, Session.memo_updateMemo_self hd, read_write_of_ne (fun hg ↦ h ⟨hg, rfl⟩), kept]
  · rw [kept, Session.memo_updateMemo_of_ne ht, kept]

/-- A cell that is written holds what is written or, without an adapter, nothing. -/
theorem kept_write (v : f.Value) :
    f.kept (S.updateMemo s (f.cell.write v)) s = (S.adapter? s).map fun _ ↦ v := by
  cases hd : S.adapter? s with
  | none => exact kept_of_adapter?_eq_none (by rwa [Session.adapter?_updateMemo])
  | some d => exact kept_write_self hd v

/-! ## The question behind a finding -/

theorem ofOutcome_locationOf (host : Host) (s : SymbolId) :
    SessionM.ofOutcome (host.locationOf s) =
      (do return host.locate (← SessionM.ofHost (host.source s))) := by
  rw [Host.locationOf]
  cases host.source s <;> rfl

theorem ofOutcome_typeTextOf (host : Host) (s : SymbolId) :
    (do SessionM.ofOutcome (host.typeTextOf (← get).config.policy s) : SessionM (Option String)) =
      (do match ← SessionM.ofHost (host.declaredType s) with
        | none => return none
        | some type => some <$> Session.render type) := by
  funext S
  cases h : host.declaredType s with
  | error e => simp only [Host.typeTextOf, h]; rfl
  | ok type =>
    cases type with
    | none => simp only [Host.typeTextOf, h]; rfl
    | some type =>
      have hrun : ∀ r : Except Fault String,
          (SessionM.ofOutcome (some <$> r.mapError Failure.fault)) S =
            (some <$> SessionM.ofFault r : SessionM (Option String)) S := by
        intro r
        cases r <;> rfl
      simp only [Host.typeTextOf, h]
      exact hrun _

theorem ofOutcome_memberSymbols (host : Host) (d : Declaration) :
    (do adaptersFor host (← SessionM.ofOutcome (host.memberSymbols d.symbol))) =
      Session.currentMembers host d := by
  rw [Host.memberSymbols, Session.currentMembers]
  cases host.declaredMembers d.symbol with
  | error e => rfl
  | ok declared => cases host.staticMembers d.symbol <;> rfl

/-- **The four questions are one.** -/
theorem find_eq (host : Host) (d : Declaration) (f : Finding) :
    f.find host d = (do check d; f.ensure host d; f.fetch host d) := by
  cases f with
  | origin => rfl
  | location =>
    exact congrArg (fun m ↦ (do check d; memoize .location d.symbol m))
      (ofOutcome_locationOf host d.symbol).symm
  | typeText =>
    exact congrArg (fun m ↦ (do check d; memoize .typeText d.symbol m))
      (ofOutcome_typeTextOf host d.symbol).symm
  | members => rfl

theorem run_question (host : Host) (d : Declaration) (f : Finding) :
    (f.question d).run host = f.answer <$> f.find host d := by
  cases f <;> rfl

end Finding
end SymbolView
