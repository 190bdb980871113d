import SymbolView.Proofs.Session.Change
import SymbolView.Proofs.Session.Questions
import SymbolView.SymbolTable

/-!
# What a question does to a session

A session beside itself is a correspondence too (`Correspondence.alone`), and what is in step there
is what every question keeps up.  So the theorems about all questions give, without another look at
any of them:

* `Session.reaches_ask`: a question does nothing to a session but the changes of `Session.Change`,
  however it ends;
* `Session.mem_of_ask`: what it hands out are adapters of the session;
* `Session.memo_ask`: most questions fill no cell.

`Session.filled_ask` says of the others which of them fills which cell.
-/

set_option autoImplicit false

namespace SymbolView

open SessionM

variable {host : Host} {S T : Session} {d : Declaration} {s : SymbolId}

/-! ## A session beside itself -/

namespace Correspondence

/-- A session beside itself, as long as it has a property. -/
def alone (P : Session → Prop) : Correspondence where
  states S S' := S = S' ∧ P S
  adapters S _ d d' := d ∈ S.declarations ∧ d = d'
  arguments d d' := d = d'

variable {P : Session → Prop}

/-- If adding adapters keeps a property up, the questions that keep nothing do. -/
theorem lawful_alone (hP : ∀ S s kind name, P S → S.adapter? s = none →
    host.kindAndName s = .ok (kind, name) → P (S.add (S.nextAdapter s kind name))) :
    (alone P).Lawful host where
  symbol h := congrArg _ h
  kind h := congrArg _ h
  name h := congrArg _ h
  argument _ h := h.2
  policy h := congrArg (·.config.policy) h.1
  check := by
    rintro d d' rfl S S' ⟨rfl, hS⟩
    by_cases hd : d.session = S.id
    · have hrun := run_check_of_own hd
      exact .of_run hrun hrun ⟨rfl, hS⟩ (fun _ _ h ↦ h) (.ok rfl)
    · have hrun := run_check_of_foreign hd
      exact .of_run hrun hrun ⟨rfl, hS⟩ (fun _ _ h ↦ h) (.error _)
  adapterFor := by
    rintro s S S' ⟨rfl, hS⟩
    cases hs : S.adapter? s with
    | some d =>
      have hrun := run_adapterFor_of_eq_some host hs
      exact .of_run hrun hrun ⟨rfl, hS⟩ (fun _ _ h ↦ h) (.ok ⟨Session.mem_of_adapter? hs, rfl⟩)
    | none =>
      have hrun := run_adapterFor_of_eq_none host hs
      cases hf : host.kindAndName s with
      | error e =>
        rw [hf] at hrun
        exact .of_run hrun hrun ⟨rfl, hS⟩ (fun _ _ h ↦ h) (.error _)
      | ok face =>
        rw [hf] at hrun
        refine .of_run hrun hrun ⟨rfl, hP S s _ _ hS hs hf⟩ ?_ (.ok ⟨?_, rfl⟩)
        · rintro d d' ⟨hd, rfl⟩
          refine ⟨?_, rfl⟩
          rw [Session.declarations_add]
          exact List.mem_append_left _ hd
        · rw [Session.declarations_add]
          exact List.mem_append_right _ (List.mem_singleton.mpr rfl)

theorem lists_alone {ds es : List Declaration} :
    (alone P).lists S T ds es ↔ (∀ d ∈ ds, d ∈ S.declarations) ∧ ds = es := by
  rw [lists, alone, List.forall₂_and_left, List.forall₂_eq_eq_eq]

theorem lawful_alone_memo (host : Host) (S : Session) :
    (alone fun T ↦ ∀ t, T.memo t = S.memo t).Lawful host :=
  lawful_alone fun T s kind name hT _ _ t ↦ by rw [Session.memo_add, hT]

theorem lawful_alone_reaches (host : Host) (S : Session) :
    (alone (Session.Reaches host S)).Lawful host :=
  lawful_alone fun _ _ _ _ hT new face ↦ hT.tail (.adapter new face)

end Correspondence

open Correspondence

/-! ## Looking up -/

namespace Finding

variable {f : Finding} {v : f.Value}

/-- Looking up fills no cell. -/
theorem memo_lookUp (f : Finding) (host : Host) (d : Declaration) (S : Session) (t : SymbolId) :
    ((f.lookUp host d).run.run S).2.memo t = S.memo t :=
  (((lawful_alone_memo host S).lookUp f (d := d) rfl) S S ⟨rfl, fun _ ↦ rfl⟩).states.2 t

theorem kept_of_run_lookUp {r : Except Failure f.Value} (h : (f.lookUp host d).run.run S = (r, T))
    (g : Finding) (t : SymbolId) : g.kept T t = g.kept S t := by
  have hT := memo_lookUp f host d S t
  rw [h] at hT
  rw [kept, kept, hT]

theorem reaches_lookUp (f : Finding) (host : Host) (d : Declaration) (S : Session) :
    Session.Reaches host S ((f.lookUp host d).run.run S).2 :=
  (((lawful_alone_reaches host S).lookUp f (d := d) rfl) S S ⟨rfl, .refl⟩).states.2

/-- What is looked up is what the host says. -/
theorem holds_of_run_lookUp (h : (f.lookUp host d).run.run S = (.ok v, T)) :
    f.Holds host T d.symbol v := by
  cases f with
  | origin =>
    rw [lookUp, run_ofOutcome] at h
    exact congrArg Prod.fst h
  | location =>
    rw [lookUp, run_ofOutcome] at h
    exact congrArg Prod.fst h
  | typeText =>
    rw [lookUp, run_get_bind, run_ofOutcome] at h
    obtain ⟨hv, rfl⟩ := Prod.mk.inj h
    exact hv
  | members =>
    constructor
    · rw [lookUp, ← ofOutcome_memberSymbols] at h
      obtain ⟨symbols, U, hs, h⟩ := run_bind_eq_ok h
      rw [run_ofOutcome] at hs
      rw [symbols_of_run_adaptersFor _ h]
      exact congrArg Prod.fst hs
    · have hstep := (lawful_alone_reaches host S).currentMembers (d := d) rfl
      have hall := (hstep S S ⟨rfl, .refl⟩).alike
      have h' : (Session.currentMembers host d).run.run S = (.ok v, T) := h
      rw [h'] at hall
      cases hall with
      | ok hv => exact (lists_alone.mp hv).1

/-- What is found out is kept in a cell that was empty, or nowhere. -/
theorem run_fetch_cases (f : Finding) (host : Host) (d : Declaration) (S : Session) :
    (∃ v, f.kept S d.symbol = some v ∧ (f.fetch host d).run.run S = (.ok v, S)) ∨
    (∃ v U, (f.lookUp host d).run.run S = (.ok v, U) ∧ f.kept U d.symbol = none ∧
      (f.fetch host d).run.run S = (.ok v, U.updateMemo d.symbol (f.cell.write v))) ∨
    (f.fetch host d).run.run S = (f.lookUp host d).run.run S := by
  cases hc : f.isKeptBy S.config with
  | false => exact .inr (.inr (run_fetch_of_not_isKeptBy hc))
  | true =>
    cases hv : f.kept S d.symbol with
    | some v => exact .inl ⟨v, rfl, run_fetch_of_kept hc hv⟩
    | none =>
      have hrun := run_fetch_of_empty host hc hv
      cases hl : (f.lookUp host d).run.run S with
      | mk r U =>
        rw [hl] at hrun
        cases r with
        | error e => exact .inr (.inr hrun)
        | ok v =>
          have hU := kept_of_run_lookUp hl f d.symbol
          exact .inr (.inl ⟨v, U, rfl, hU.trans hv, hrun⟩)

end Finding

/-! ## Asking -/

namespace Correspondence

/-- Every question is made of changes, and hands out adapters of the session. -/
theorem keeping_alone_reaches (host : Host) (hS : S.WellFormed) :
    (alone (Session.Reaches host S)).Keeping host where
  toLawful := lawful_alone_reaches host S
  fetch := by
    rintro f d d' rfl T T' ⟨rfl, hT⟩
    have hl := (lawful_alone_reaches host S).lookUp f (d := d) rfl T T ⟨rfl, hT⟩
    rcases f.run_fetch_cases host d T with ⟨v, hv, hrun⟩ | ⟨v, U, hlook, empty, hrun⟩ | hrun
    · refine .of_run hrun hrun ⟨rfl, hT⟩ (fun _ _ h ↦ h) (.ok ?_)
      cases f with
      | members => exact lists_alone.mpr ⟨(hT.wellFormed hS).kept d.symbol v hv, rfl⟩
      | _ => rfl
    · obtain ⟨⟨-, hU⟩, honward, hvalue⟩ := hl
      rw [hlook] at hU honward hvalue
      refine .of_run hrun hrun ⟨rfl, hU.tail (.keep f v empty (Finding.holds_of_run_lookUp hlook))⟩
        ?_ (.ok ?_)
      · intro e e' he
        obtain ⟨he, rfl⟩ := honward e e' he
        exact ⟨by rwa [Session.declarations_updateMemo], rfl⟩
      · cases hvalue with
        | ok hvalue =>
          cases f with
          | members =>
            obtain ⟨hmem, -⟩ := lists_alone.mp hvalue
            exact lists_alone.mpr ⟨by rwa [Session.declarations_updateMemo], rfl⟩
          | _ => rfl
    · exact ⟨by rw [hrun]; exact hl.states, by rw [hrun]; exact hl.onward,
        by rw [hrun]; exact hl.alike⟩

end Correspondence

namespace Session

variable {q : Query} {a : Answer} {f : Finding} {v : f.Value}

theorem inStep_ask (hS : S.WellFormed) (host : Host) (q : Query) :
    (alone (Reaches host S)).InStepFrom
      (fun T T' ↦ Answer.Alike ((alone (Reaches host S)).adapters T T'))
      (q.run host) (q.run host) S S := by
  obtain ⟨d, hd⟩ := q.exists_about
  have h := (keeping_alone_reaches host hS).run_about q (d := d) rfl S S ⟨rfl, .refl⟩
  rwa [hd] at h

/-- **A question does nothing to a session but the changes there are**, however it ends. -/
theorem reaches_ask (hS : S.WellFormed) (host : Host) (q : Query) :
    Reaches host S (S.ask host q).2 :=
  (inStep_ask hS host q).states.2

theorem wellFormed_ask (hS : S.WellFormed) (host : Host) (q : Query) :
    (S.ask host q).2.WellFormed :=
  (reaches_ask hS host q).wellFormed hS

theorem grows_ask (hS : S.WellFormed) (host : Host) (q : Query) : S.Grows (S.ask host q).2 :=
  (reaches_ask hS host q).grows

/-- **What a question hands out are adapters of the session.** -/
theorem mem_of_ask (hS : S.WellFormed) (ha : S.ask host q = (.ok a, T)) (hd : d ∈ a.adapters) :
    d ∈ T.declarations := by
  have h := (inStep_ask hS host q).alike
  rw [show (q.run host).run.run S = (.ok a, T) from ha] at h
  cases h with
  | ok h => exact ((List.forall₂_and_left _ _).mp h.adapters).1 d hd

/-- What a session has made it hands out again, whatever the host says. -/
theorem ask_adapter (h : S.adapter? s = some d) :
    S.ask host (.adapter s) = (.ok (.declaration d), S) := by
  rw [ask, Query.run, run_map, run_adapterFor_of_eq_some host h]
  rfl

theorem ask_question (f : Finding) (host : Host) (d : Declaration) (S : Session) :
    S.ask host (f.question d) =
      (f.answer <$> ((f.find host d).run.run S).1, ((f.find host d).run.run S).2) := by
  rw [ask, Finding.run_question, run_map]

/-! ## Which question fills which cell -/

/-- Most questions fill no cell. -/
theorem memo_ask (hq : q.isKept = false) (host : Host) (S : Session) (t : SymbolId) :
    (S.ask host q).2.memo t = S.memo t := by
  obtain ⟨d, hd⟩ := q.exists_about
  have h := (lawful_alone_memo host S).run_about hq (d := d) rfl S S ⟨rfl, fun _ ↦ rfl⟩
  rw [hd] at h
  exact h.states.2 t

/-- The question for a finding fills its own cell with the answer, or none. -/
theorem memo_find (f : Finding) (host : Host) (d : Declaration) (S : Session) :
    (∃ (v : f.Value) (U : Session),
      (f.find host d).run.run S = (.ok v, U.updateMemo d.symbol (f.cell.write v)) ∧
      ∀ t, U.memo t = S.memo t) ∨
    ∀ t, ((f.find host d).run.run S).2.memo t = S.memo t := by
  by_cases hd : d.session = S.id
  · cases hf : f.isOf d.kind with
    | false =>
      refine .inr fun t ↦ ?_
      rw [Finding.find_eq, run_bind, run_check_of_own hd]
      simp only [run_bind, Finding.run_ensure_of_not hf]
    | true =>
      rw [Finding.run_find hd hf]
      rcases f.run_fetch_cases host d S with ⟨v, -, hrun⟩ | ⟨v, U, hlook, -, hrun⟩ | hrun
      · exact .inr fun t ↦ by rw [hrun]
      · refine .inl ⟨v, U, hrun, fun t ↦ ?_⟩
        have hU := f.memo_lookUp host d S t
        rwa [hlook] at hU
      · exact .inr fun t ↦ by rw [hrun, f.memo_lookUp]
  · refine .inr fun t ↦ ?_
    rw [Finding.find_eq, run_bind, run_check_of_foreign hd]

/-- **A cell is filled by the question for it**, which answers what it fills in, or in the course of
a snapshot. -/
theorem filled_ask (hS : f.kept S s = none) (hT : f.kept (S.ask host q).2 s = some v) :
    (∃ d, q = f.question d ∧ d.symbol = s ∧ (S.ask host q).1 = .ok (f.answer v)) ∨
      ∃ d, q = .snapshot d := by
  cases hq : q.isKept with
  | false =>
    rw [Finding.kept, memo_ask hq, ← Finding.kept, hS] at hT
    cases hT
  | true =>
    rcases Query.isKept_iff.mp hq with ⟨g, d, rfl⟩ | hq
    · left
      rw [ask_question] at hT ⊢
      rcases memo_find g host d S with ⟨w, U, hrun, hU⟩ | hsame
      · rw [hrun] at hT ⊢
        have hUs : f.kept U s = none := by rwa [Finding.kept, hU, ← Finding.kept]
        by_cases hfg : f = g ∧ s = d.symbol
        · obtain ⟨rfl, rfl⟩ := hfg
          rw [Finding.kept_write, Option.map_eq_some_iff] at hT
          obtain ⟨-, -, rfl⟩ := hT
          exact ⟨d, rfl, rfl, rfl⟩
        · rw [Finding.kept_write_of_ne hfg, hUs] at hT
          cases hT
      · rw [Finding.kept, hsame, ← Finding.kept, hS] at hT
        cases hT
    · exact .inr hq

end Session

/-! ## A small front end -/

namespace Sample

/-- A class with one property. -/
def table : SymbolTable where
  symbols := #[
    { kind := .namedClass, name := some "Widget", declaredMembers := [⟨1⟩] },
    { kind := .property, name := some "size", container := some ⟨0⟩ }]
  files := #[]
  classes := []

/-- The adapter of the class in a session that makes it first. -/
def widget : Declaration := ⟨⟨0⟩, .cls, some "Widget", ⟨0⟩, 0⟩

/-- The adapter of the property in a session that makes it next. -/
def size : Declaration := ⟨⟨1⟩, .property, some "size", ⟨0⟩, 1⟩

end Sample
end SymbolView
