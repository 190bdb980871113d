import SymbolView.Proofs.Workspace.Runs

/-!
# What is found out is found out once

The origin, the location, the text of the type and the members of a declaration are kept with its
adapter when a question for them is answered first.  `Workspace.asks_question` says what that means
for a run, in which hosts may change and fail between any two steps: from the first answer on the
answer stays the same, until then every question asks the host anew, and there is no other way in
which an answer gets into its cell than by a host having given it.
-/

set_option autoImplicit false

namespace SymbolView

open SessionM

/-! ## One question -/

namespace Finding

variable {f : Finding} {v w : f.Value} {host : Host} {S T : Session} {d : Declaration}
  {r : Except Failure f.Value}

theorem answer_inj : f.answer v = f.answer w ↔ v = w := by
  refine ⟨fun h ↦ ?_, congrArg _⟩
  cases f <;> cases h <;> rfl

theorem map_answer_eq_ok : f.answer <$> r = .ok (f.answer v) ↔ r = .ok v := by
  cases r with
  | error e => exact ⟨fun h ↦ (nomatch h), fun h ↦ (nomatch h)⟩
  | ok w =>
    show Except.ok (f.answer w) = .ok (f.answer v) ↔ _
    rw [Except.ok.injEq, Except.ok.injEq, answer_inj]

/-- What is looked up for an adapter of the session can be written to its cell. -/
theorem kept_write_of_run_lookUp (hS : S.WellFormed) (hd : d ∈ S.declarations)
    (h : (f.lookUp host d).run.run S = (r, T)) :
    f.kept (T.updateMemo d.symbol (f.cell.write v)) d.symbol = some v := by
  have hT := f.reaches_lookUp host d S
  rw [h] at hT
  exact kept_write_self ((hT.wellFormed hS).adapter?_eq_some (hT.grows.mem hd)) v

/-- **A question that meets an empty cell asks the host**, and fills the cell if the host
answers. -/
theorem run_find_of_empty (hS : S.WellFormed) (hd : d ∈ S.declarations)
    (hc : f.isKeptBy S.config = true) (empty : f.kept S d.symbol = none)
    (h : (f.find host d).run.run S = (r, T)) :
    r = ((do f.ensure host d; f.lookUp host d).run.run S).1 ∧
      ∀ v, f.kept T d.symbol = some v ↔ r = .ok v := by
  have hown := hS.own d hd
  cases hf : f.isOf d.kind with
  | false =>
    rw [find_eq, run_bind, run_check_of_own hown] at h
    simp only [run_bind, run_ensure_of_not hf] at h ⊢
    cases h
    exact ⟨rfl, fun v ↦ by rw [empty]; simp⟩
  | true =>
    have hlook : (do f.ensure host d; f.lookUp host d).run.run S = (f.lookUp host d).run.run S := by
      rw [run_bind, run_ensure hf]
    rw [run_find hown hf, run_fetch_of_empty host hc empty] at h
    rw [hlook]
    cases hl : (f.lookUp host d).run.run S with
    | mk r' U =>
      rw [hl] at h
      cases r' with
      | error e =>
        cases h
        refine ⟨rfl, fun v ↦ ?_⟩
        rw [kept_of_run_lookUp hl, empty]
        simp
      | ok w =>
        cases h
        refine ⟨rfl, fun v ↦ ?_⟩
        rw [kept_write_of_run_lookUp hS hd hl, Option.some_inj, Except.ok.injEq]

/-- A question that is answered leaves the answer in the cell. -/
theorem kept_of_run_find (hS : S.WellFormed) (hd : d ∈ S.declarations)
    (hc : f.isKeptBy S.config = true) (h : (f.find host d).run.run S = (.ok v, T)) :
    f.kept T d.symbol = some v := by
  cases hv : f.kept S d.symbol with
  | none => exact ((run_find_of_empty hS hd hc hv h).2 v).mpr rfl
  | some w =>
    obtain ⟨hown, hf⟩ := of_run_find_eq_ok h
    rw [run_find hown hf, run_fetch_of_kept hc hv] at h
    cases h
    exact hv

end Finding

/-! ## Runs -/

namespace Workspace

variable {steps : List Step} {i j : Nat} {id : SessionId} {f : Finding} {v : f.Value} {s : SymbolId}
  {host : Host} {S T : Session} {d : Declaration} {r : Except Failure Answer}

/-- A step of a run fills a cell of a session: the host says what is filled in, and the step is a
question that answers it or a snapshot, which asks that question among others. -/
def Fills (steps : List Step) (i : Nat) (id : SessionId) (f : Finding) (s : SymbolId)
    (v : f.Value) : Prop :=
  ∃ host q S r T, Asks steps i host q S r T ∧ S.id = id ∧ f.kept S s = none ∧ f.kept T s = some v ∧
    f.Holds host T s v ∧
    ((∃ d, q = f.question d ∧ d.symbol = s ∧ r = .ok (f.answer v)) ∨ ∃ d, q = .snapshot d)

/-- **What is kept has been filled in by an earlier step.** -/
theorem exists_fills (steps : List Step) (id : SessionId) {S : Session}
    (hS : (before steps j).session? id = some S) (hv : f.kept S s = some v) :
    ∃ i < j, Fills steps i id f s v := by
  induction j generalizing S with
  | zero => cases hS
  | succ j ih =>
    have step_back (hS : (before steps j).session? id = some S) :
        ∃ i < j + 1, Fills steps i id f s v := by
      obtain ⟨i, hi, h⟩ := ih hS hv
      exact ⟨i, Nat.lt_succ_of_lt hi, h⟩
    cases hs : steps[j]? with
    | none => exact step_back (by rwa [before_succ_of_eq_none hs] at hS)
    | some step =>
      have hw := wellFormed_before steps j
      rw [before_succ hs] at hS
      rcases session?_step hw hS with hS | ⟨config, -, rfl, -⟩ | ⟨host, q, S', rfl, hS', rfl⟩
      · exact step_back hS
      · cases f <;> cases hv
      · have hreach := Session.reaches_ask (hw.session hS') host q
        cases hv' : f.kept S' s with
        | some w =>
          obtain ⟨i, hi, h⟩ := ih hS' (by rw [← hv, hreach.grows.kept f s w hv', hv'])
          exact ⟨i, Nat.lt_succ_of_lt hi, h⟩
        | none =>
          refine ⟨j, Nat.lt_succ_self j, host, q, S', _, _, asks_of_step hs hS', id_of_session? hS',
            hv', hv, hreach.holds_of_kept hv' hv, Session.filled_ask hv' hv⟩

/-- **What is kept is found out once.**  Take a question for something that a session keeps, about
one of its adapters, in a run in which hosts change and fail at will.

* If the question is answered, so is every later one like it, and in the same way.
* If nothing is kept yet, the question asks the host as it is then.  An answer is what that host
  says, and is kept; a failure leaves the cell empty.
* If something is kept already, it is the answer, and it is what an earlier step has been
  answered. -/
theorem asks_question (asks : Asks steps i host (f.question d) S r T) (hd : d ∈ S.declarations)
    (hc : f.isKeptBy S.config = true) :
    (∀ v, r = .ok (f.answer v) → ∀ k host' S', i < k →
      steps[k]? = some (.ask host' S.id (f.question d)) → (before steps k).session? S.id = some S' →
      (run {} steps).1[k]? = some (some (.ok (f.answer v)))) ∧
    (f.kept S d.symbol = none →
      r = f.answer <$> ((do f.ensure host d; f.lookUp host d).run.run S).1 ∧
      ∀ v, (f.kept T d.symbol = some v ↔ r = .ok (f.answer v)) ∧
        (r = .ok (f.answer v) → f.Holds host T d.symbol v)) ∧
    ∀ v, f.kept S d.symbol = some v →
      (f.isOf d.kind = true → r = .ok (f.answer v)) ∧ ∃ h < i, Fills steps h S.id f d.symbol v := by
  have hS := asks.wellFormed
  have hask := asks.eq_ask
  rw [Session.ask_question] at hask
  cases hrun : (f.find host d).run.run S with
  | mk r' T' =>
    rw [hrun] at hask
    obtain ⟨rfl, rfl⟩ : f.answer <$> r' = r ∧ T' = T := Prod.mk.inj hask
    refine ⟨fun v hr k host' S' hk hstep hS' ↦ ?_, fun empty ↦ ?_,
      fun v hv ↦ ⟨fun hf ↦ ?_, exists_fills steps S.id asks.met hv⟩⟩
    · obtain rfl := Finding.map_answer_eq_ok.mp hr
      have hgrows := session_grows asks.left hS' hk
      have hconfig := (session_grows asks.met asks.left (Nat.le_succ i)).config
      obtain ⟨hown, hf⟩ := Finding.of_run_find_eq_ok hrun
      have hv := hgrows.kept f d.symbol v (Finding.kept_of_run_find hS hd hc hrun)
      have hown' : d.session = S'.id := hown.trans (id_of_session? hS').symm
      have hc' : f.isKeptBy S'.config = true := by rwa [hgrows.config, hconfig]
      have hends := (asks_of_step hstep hS').ends
      rwa [Session.ask_question, Finding.run_find hown' hf,
        Finding.run_fetch_of_kept hc' hv] at hends
    · obtain ⟨hr, hT⟩ := Finding.run_find_of_empty hS hd hc empty hrun
      refine ⟨by rw [hr], fun v ↦ ⟨by rw [hT, Finding.map_answer_eq_ok], fun hv ↦ ?_⟩⟩
      have hkept := (hT v).mpr (Finding.map_answer_eq_ok.mp hv)
      have hreach := Session.reaches_ask hS host (f.question d)
      rw [asks.eq_ask] at hreach
      exact hreach.holds_of_kept empty hkept
    · rw [Finding.run_find (hS.own d hd) hf, Finding.run_fetch_of_kept hc hv] at hrun
      cases hrun
      rfl

/-- The members of a class are answered again by a session whose front end has lost the class. -/
theorem asks_question_sample :
    (run {} sampleRun).1[2]? = some (some (.ok (.declarations [Sample.size]))) ∧
      (run {} sampleRun).1[4]? = some (some (.ok (.declarations [Sample.size]))) := by
  have hstep : sampleRun[2]? =
    some (.ask Sample.table.toHost ⟨0⟩ (Finding.members.question Sample.widget)) := rfl
  have hsession : (before sampleRun 2).session? ⟨0⟩ = some _ := rfl
  have hmem : Sample.widget ∈ [Sample.widget] := List.mem_singleton.mpr rfl
  have h := asks_question (f := .members) (asks_of_step hstep hsession) hmem rfl
  exact ⟨rfl, h.1 [Sample.size] rfl 4 _ _ (by decide) rfl rfl⟩

end Workspace
end SymbolView
