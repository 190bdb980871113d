import SymbolView.Proofs.Session.Finding

/-!
# What the operations of a session do

Every question is made of a few operations: those of the monad, `check`, `adapterFor` and the four
findings.  For each of them this file says how it ends and what the session is then, so that no
later proof has to unfold one.
-/

set_option autoImplicit false

namespace SymbolView

/-! ## The monad -/

namespace SessionM

variable {α β : Type}

theorem run_bind (m : SessionM α) (f : α → SessionM β) (S : Session) :
    (m >>= f).run.run S = match m.run.run S with
      | (.ok a, T) => (f a).run.run T
      | (.error e, T) => (.error e, T) := by
  show (ExceptT.bind m f).run S = _
  unfold ExceptT.bind ExceptT.bindCont
  simp only [ExceptT.mk, ExceptT.run, StateT.run, bind, StateT.bind]
  cases h : m S with
  | mk r T => cases r <;> rfl

theorem run_map (g : α → β) (m : SessionM α) (S : Session) :
    (g <$> m).run.run S = (g <$> (m.run.run S).1, (m.run.run S).2) := by
  rw [map_eq_pure_bind, run_bind]
  cases m.run.run S with
  | mk r T => cases r <;> rfl

/-- What is done with the value does not change how a computation ends. -/
theorem run_map_eq_ok_iff {g : α → β} (hg : Function.Injective g) {m : SessionM α} {S T : Session}
    {a : α} : (g <$> m).run.run S = (.ok (g a), T) ↔ m.run.run S = (.ok a, T) := by
  rw [run_map]
  cases m.run.run S with
  | mk r U =>
    cases r with
    | error e => exact ⟨nofun, nofun⟩
    | ok b =>
      show (Except.ok (g b), U) = (Except.ok (g a), T) ↔ _
      rw [Prod.mk.injEq, Prod.mk.injEq, Except.ok.injEq, Except.ok.injEq, hg.eq_iff]

theorem run_get_bind (f : Session → SessionM α) (S : Session) :
    (get >>= f).run.run S = (f S).run.run S := rfl

theorem run_ofOutcome (r : Except Failure α) (S : Session) :
    (ofOutcome r).run.run S = (r, S) := by
  cases r <;> rfl

/-- A computation that has ended with a value has got through its first part. -/
theorem run_bind_eq_ok {m : SessionM α} {f : α → SessionM β} {S T : Session} {b : β}
    (h : (m >>= f).run.run S = (.ok b, T)) :
    ∃ a U, m.run.run S = (.ok a, U) ∧ (f a).run.run U = (.ok b, T) := by
  rw [run_bind] at h
  cases hm : m.run.run S with
  | mk r U =>
    rw [hm] at h
    cases r with
    | error e => cases h
    | ok a => exact ⟨a, U, rfl, h⟩

end SessionM

open SessionM

variable {host : Host} {S T : Session} {d : Declaration} {s : SymbolId}

/-! ## Adapters -/

theorem run_check_of_own (h : d.session = S.id) : (check d).run.run S = (.ok (), S) := by
  rw [check, run_get_bind, if_pos h]
  rfl

theorem run_check_of_foreign (h : d.session ≠ S.id) : (check d).run.run S =
    (.error (.error (.foreignSession d.symbol d.session S.id)), S) := by
  rw [check, run_get_bind, if_neg h]
  rfl

theorem run_adapterFor_of_eq_some (host : Host) (h : S.adapter? s = some d) :
    (adapterFor host s).run.run S = (.ok d, S) := by
  rw [adapterFor, run_get_bind, h]
  rfl

/-- An adapter that has not been made yet is made if the host tells what it shows. -/
theorem run_adapterFor_of_eq_none (host : Host) (h : S.adapter? s = none) :
    (adapterFor host s).run.run S = match host.kindAndName s with
      | .ok (kind, name) => (.ok (S.nextAdapter s kind name), S.add (S.nextAdapter s kind name))
      | .error e => (.error (.ofHost e), S) := by
  rw [adapterFor, run_get_bind, h, Host.kindAndName]
  cases host.symbolKind s with
  | error e => rfl
  | ok kind => cases host.symbolName s <;> rfl

/-- The adapter that is handed out is the one of its symbol from then on. -/
theorem adapter?_of_run_adapterFor (h : (adapterFor host s).run.run S = (.ok d, T)) :
    T.adapter? s = some d := by
  cases hs : S.adapter? s with
  | some e =>
    rw [run_adapterFor_of_eq_some host hs] at h
    cases h
    exact hs
  | none =>
    rw [run_adapterFor_of_eq_none host hs] at h
    cases hf : host.kindAndName s with
    | error e =>
      rw [hf] at h
      cases h
    | ok face =>
      rw [hf] at h
      cases h
      exact Session.adapter?_add hs

theorem symbols_of_run_adaptersFor (l : List SymbolId) :
    ∀ {S T : Session} {ds : List Declaration}, (adaptersFor host l).run.run S = (.ok ds, T) →
      ds.map (·.symbol) = l := by
  induction l with
  | nil =>
    intro S T ds h
    cases h
    rfl
  | cons s l ih =>
    intro S T ds h
    rw [adaptersFor] at h
    obtain ⟨d, U, hd, h⟩ := run_bind_eq_ok h
    obtain ⟨es, V, hes, h⟩ := run_bind_eq_ok h
    cases h
    rw [List.map_cons, ih hes, Session.symbol_of_adapter? (adapter?_of_run_adapterFor hd)]

/-! ## Findings -/

theorem run_memoize_of_eq_some {α : Type} {cell : Cell α} {compute : SessionM α} {a : α}
    (h : cell.read (S.memo s) = some a) : (memoize cell s compute).run.run S = (.ok a, S) := by
  rw [memoize, run_get_bind, h]
  rfl

/-- What is not kept is found out, and kept if it is found. -/
theorem run_memoize_of_eq_none {α : Type} {cell : Cell α} {compute : SessionM α}
    (h : cell.read (S.memo s) = none) : (memoize cell s compute).run.run S =
      match compute.run.run S with
        | (.ok a, T) => (.ok a, T.updateMemo s (cell.write a))
        | (.error e, T) => (.error e, T) := by
  rw [memoize, run_get_bind, h]
  show (compute >>= _).run.run S = _
  rw [run_bind]
  rfl

namespace Finding

variable {f : Finding} {v : f.Value} {r : Except Failure f.Value}

theorem run_ensure (h : f.isOf d.kind = true) : (f.ensure host d).run.run S = (.ok (), S) := by
  cases f with
  | members =>
    have h' : d.kind.hasMembers = true := h
    rw [ensure, Session.requireMembers, if_pos h']
    rfl
  | _ => rfl

theorem run_ensure_of_not (h : f.isOf d.kind = false) : (f.ensure host d).run.run S =
    (.error (.error (.noMembers d.symbol (Session.kindLabel host d.symbol))), S) := by
  cases f with
  | members =>
    have h' : ¬ d.kind.hasMembers = true := by rw [show d.kind.hasMembers = false from h]; simp
    rw [ensure, Session.requireMembers, if_neg h']
    rfl
  | _ => cases h

/-- Only adapters of the session that have such a thing get an answer. -/
theorem of_run_find_eq_ok (h : (f.find host d).run.run S = (.ok v, T)) :
    d.session = S.id ∧ f.isOf d.kind = true := by
  rw [find_eq] at h
  by_cases hd : d.session = S.id
  · rw [run_bind, run_check_of_own hd] at h
    cases hf : f.isOf d.kind with
    | true => exact ⟨hd, rfl⟩
    | false =>
      simp only [run_bind, run_ensure_of_not hf] at h
      cases h
  · rw [run_bind, run_check_of_foreign hd] at h
    cases h

/-- Behind the two checks the answer is fetched. -/
theorem run_find (hd : d.session = S.id) (hf : f.isOf d.kind = true) :
    (f.find host d).run.run S = (f.fetch host d).run.run S := by
  rw [find_eq, run_bind, run_check_of_own hd]
  simp only [run_bind, run_ensure hf]

/-- What is kept is answered. -/
theorem run_fetch_of_kept (hc : f.isKeptBy S.config = true) (hv : f.kept S d.symbol = some v) :
    (f.fetch host d).run.run S = (.ok v, S) := by
  rw [fetch, run_get_bind, if_pos hc, run_memoize_of_eq_some hv]

/-- **What is not kept is looked up**, and kept from then on unless the host fails. -/
theorem run_fetch_of_empty (host : Host) (hc : f.isKeptBy S.config = true)
    (hv : f.kept S d.symbol = none) :
    (f.fetch host d).run.run S = match (f.lookUp host d).run.run S with
      | (.ok v, T) => (.ok v, T.updateMemo d.symbol (f.cell.write v))
      | (.error e, T) => (.error e, T) := by
  rw [fetch, run_get_bind, if_pos hc, run_memoize_of_eq_none hv]
  cases (f.lookUp host d).run.run S with
  | mk r T => cases r <;> rfl

/-- What is never kept is looked up each time. -/
theorem run_fetch_of_not_isKeptBy (hc : f.isKeptBy S.config = false) :
    (f.fetch host d).run.run S = (f.lookUp host d).run.run S := by
  rw [fetch, run_get_bind, hc]
  rfl

end Finding
end SymbolView
