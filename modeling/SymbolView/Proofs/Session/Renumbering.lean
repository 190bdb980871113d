import SymbolView.Proofs.Session.Asking

/-!
# Sessions under other numbers

The number of a session says nothing about it: it is only compared with the number in an adapter.
So a session that is given another number, in itself and in its adapters, answers every question
about one of its adapters as before, up to the numbers in the adapters it hands out.
`Session.ask_renumber` says so.  It is one more correspondence in which everything is in step
(`Correspondence.keeping_renumbered`), since making an adapter and keeping an answer commute with
renumbering.
-/

set_option autoImplicit false

namespace SymbolView

open SessionM Correspondence

variable (number : SessionId → SessionId)

/-! ## Renumbering -/

/-- The adapter, of a session that has been given another number. -/
def Declaration.renumber (d : Declaration) : Declaration := { d with session := number d.session }

/-- What has been found out, with the adapters renumbered. -/
def Memo.renumber (m : Memo) : Memo :=
  { m with members := m.members.map (·.map (·.renumber number)) }

/-- The session under another number, with its adapters. -/
def Session.renumber (S : Session) : Session where
  id := number S.id
  config := S.config
  entries := S.entries.map fun e ↦ ⟨e.declaration.renumber number, e.memo.renumber number⟩

/-- The answer, with the adapters in it renumbered. -/
def Answer.renumber : Answer → Answer
  | declaration d => declaration (d.renumber number)
  | declaration? d => declaration? (d.map (·.renumber number))
  | declarations ds => declarations (ds.map (·.renumber number))
  | a => a

/-- The question, about the adapter renumbered. -/
def Query.renumber (q : Query) : Query :=
  match q.subject? with
  | some d => q.about (d.renumber number)
  | none => q

/-- What is found, with the adapters in it renumbered. -/
def Finding.renumber : (f : Finding) → f.Value → f.Value
  | origin => id
  | location => id
  | typeText => id
  | members => List.map (·.renumber number)

/-! ## The views of a session -/

namespace Session

variable (S : Session) (s : SymbolId)

theorem entry?_renumber :
    Session.entry? (S.renumber number) s = (S.entry? s).map fun e ↦
      ⟨e.declaration.renumber number, e.memo.renumber number⟩ := by
  rw [renumber, entry?, entry?, List.find?_map]
  rfl

theorem adapter?_renumber :
    (S.renumber number).adapter? s = (S.adapter? s).map (·.renumber number) := by
  rw [adapter?, adapter?, entry?_renumber, Option.map_map, Option.map_map]
  rfl

theorem memo_renumber : (S.renumber number).memo s = (S.memo s).renumber number := by
  rw [memo, memo, entry?_renumber]
  cases S.entry? s <;> rfl

theorem kept_renumber (f : Finding) :
    f.kept (S.renumber number) s = (f.kept S s).map (f.renumber number) := by
  rw [Finding.kept, Finding.kept, memo_renumber]
  cases f with
  | members => rfl
  | _ => exact Option.map_id_apply.symm

theorem adapterCount_renumber : (S.renumber number).adapterCount = S.adapterCount :=
  List.length_map _

theorem renumber_nextAdapter (kind : SymbolKind) (name : Option String) :
    (S.nextAdapter s kind name).renumber number =
      (S.renumber number).nextAdapter s kind name := by
  simp [nextAdapter, Declaration.renumber, renumber, adapterCount]

theorem renumber_add (d : Declaration) :
    (S.add d).renumber number = (S.renumber number).add (d.renumber number) := by
  simp [renumber, add, Memo.renumber]

theorem renumber_updateMemo {change change' : Memo → Memo}
    (h : ∀ m, (change m).renumber number = change' (m.renumber number)) :
    (S.updateMemo s change).renumber number = (S.renumber number).updateMemo s change' := by
  rw [renumber, updateMemo, updateMemo, renumber, List.map_map, List.map_map]
  congr 1
  refine List.map_congr_left fun e _ ↦ ?_
  by_cases hs : e.declaration.symbol = s <;> simp [Declaration.renumber, hs, h]

theorem renumber_write (f : Finding) (v : f.Value) :
    (S.updateMemo s (f.cell.write v)).renumber number =
      (S.renumber number).updateMemo s (f.cell.write (f.renumber number v)) :=
  S.renumber_updateMemo number s fun m ↦ by cases f <;> rfl

end Session

/-! ## A session beside itself under another number -/

namespace Correspondence

/-- The session of a number beside itself under another number. -/
def renumbered (id : SessionId) : Correspondence where
  states S S' := S.WellFormed ∧ S.id = id ∧ S.renumber number = S'
  adapters _ _ d d' := d.session = id ∧ d.renumber number = d'
  arguments d d' := d.session = id ∧ d.renumber number = d'

variable {number} {host : Host} {id : SessionId} {S T : Session}

theorem lists_renumbered {ds ds' : List Declaration} :
    (renumbered number id).lists S T ds ds' ↔
      (∀ d ∈ ds, d.session = id) ∧ ds.map (·.renumber number) = ds' := by
  rw [lists, renumbered, List.forall₂_and_left, ← List.forall₂_eq_eq_eq,
    List.forall₂_map_left_iff]

theorem values_renumbered {f : Finding} {v v' : f.Value}
    (h : (renumbered number id).values f S T v v') : f.renumber number v = v' := by
  cases f with
  | members => exact (lists_renumbered.mp h).2
  | _ => exact h

/-- The two operations that read the adapters of a session are in step. -/
theorem lawful_renumbered (number : SessionId → SessionId) (host : Host) (id : SessionId) :
    (renumbered number id).Lawful host where
  symbol := by
    rintro d _ ⟨-, rfl⟩
    rfl
  kind := by
    rintro d _ ⟨-, rfl⟩
    rfl
  name := by
    rintro d _ ⟨-, rfl⟩
    rfl
  argument _ h := h
  policy := by
    rintro S _ ⟨-, -, rfl⟩
    rfl
  check := by
    rintro d _ ⟨hd, rfl⟩ S _ ⟨hS, hid, rfl⟩
    have hown : (d.renumber number).session = (S.renumber number).id :=
      congrArg number (hd.trans hid.symm)
    exact .of_run (run_check_of_own (hd.trans hid.symm)) (run_check_of_own hown) ⟨hS, hid, rfl⟩
      (fun _ _ h ↦ h) (.ok rfl)
  adapterFor := by
    rintro s S _ ⟨hS, hid, rfl⟩
    have hrenumber := S.adapter?_renumber number s
    cases hs : S.adapter? s with
    | some d =>
      rw [hs] at hrenumber
      exact .of_run (run_adapterFor_of_eq_some host hs) (run_adapterFor_of_eq_some host hrenumber)
        ⟨hS, hid, rfl⟩ (fun _ _ h ↦ h)
        (.ok ⟨(hS.own d (Session.mem_of_adapter? hs)).trans hid, rfl⟩)
    | none =>
      rw [hs] at hrenumber
      have hrun := run_adapterFor_of_eq_none host hs
      have hrun' := run_adapterFor_of_eq_none host hrenumber
      cases hf : host.kindAndName s with
      | error e =>
        rw [hf] at hrun hrun'
        exact .of_run hrun hrun' ⟨hS, hid, rfl⟩ (fun _ _ h ↦ h) (.error _)
      | ok face =>
        obtain ⟨kind, name⟩ := face
        rw [hf] at hrun hrun'
        dsimp only at hrun hrun'
        rw [← S.renumber_nextAdapter number, ← S.renumber_add number] at hrun'
        exact .of_run hrun hrun' ⟨hS.add hs kind name, hid, rfl⟩ (fun _ _ h ↦ h)
          (.ok ⟨hid, rfl⟩)

/-- What is kept is kept under both numbers. -/
theorem values_of_kept (hS : S.WellFormed) (hid : S.id = id) {f : Finding} {s : SymbolId}
    {v : f.Value} (hv : f.kept S s = some v) :
    (renumbered number id).values f S (S.renumber number) v (f.renumber number v) := by
  cases f with
  | members =>
    refine lists_renumbered.mpr ⟨fun d hd ↦ ?_, rfl⟩
    exact (hS.own d (hS.kept s v hv d hd)).trans hid
  | _ => rfl

/-- **A session answers under another number as under its own.** -/
theorem keeping_renumbered (number : SessionId → SessionId) (host : Host) (id : SessionId) :
    (renumbered number id).Keeping host where
  toLawful := lawful_renumbered number host id
  fetch := by
    rintro f d _ ⟨hd, rfl⟩ S _ ⟨hS, hid, rfl⟩
    have hstep := (lawful_renumbered number host id).lookUp f ⟨hd, rfl⟩ S _ ⟨hS, hid, rfl⟩
    have hkept := S.kept_renumber number d.symbol f
    cases hc : f.isKeptBy S.config with
    | false =>
      have hrun : (f.fetch host d).run.run S = _ := Finding.run_fetch_of_not_isKeptBy hc
      have hrun' : (f.fetch host (d.renumber number)).run.run (S.renumber number) = _ :=
        Finding.run_fetch_of_not_isKeptBy hc
      exact ⟨by rw [hrun, hrun']; exact hstep.states, fun _ _ h ↦ h,
        by rw [hrun, hrun']; exact hstep.alike⟩
    | true =>
      cases hv : f.kept S d.symbol with
      | some v =>
        rw [hv] at hkept
        exact .of_run (Finding.run_fetch_of_kept hc hv) (Finding.run_fetch_of_kept hc hkept)
          ⟨hS, hid, rfl⟩ (fun _ _ h ↦ h) (.ok (values_of_kept hS hid hv))
      | none =>
        rw [hv] at hkept
        have hfetch := (keeping_alone_reaches host hS).fetch f (d := d) rfl S S ⟨rfl, .refl⟩
        have hreach := hfetch.states.2
        have hrun := Finding.run_fetch_of_empty host hc hv
        have hrun' : (f.fetch host (d.renumber number)).run.run (S.renumber number) = _ :=
          Finding.run_fetch_of_empty host hc hkept
        obtain ⟨⟨hT, hidT, hstates⟩, -, halike⟩ := hstep
        cases hl : (f.lookUp host d).run.run S with
        | mk r T =>
          cases hl' : (f.lookUp host (d.renumber number)).run.run (S.renumber number) with
          | mk r' T' =>
            rw [hl] at hrun hT hidT hstates halike
            rw [hl'] at hrun' hstates halike
            subst hstates
            cases halike with
            | error e => exact .of_run hrun hrun' ⟨hT, hidT, rfl⟩ (fun _ _ h ↦ h) (.error e)
            | ok h =>
              rw [hrun] at hreach
              refine .of_run hrun hrun' ⟨hreach.wellFormed hS, hidT, ?_⟩ (fun _ _ h ↦ h) (.ok ?_)
              · rw [← values_renumbered h]
                exact T.renumber_write number d.symbol f _
              · cases f <;> exact h

end Correspondence

/-! ## Questions -/

/-- Outcomes that are alike up to a function differ by that function. -/
theorem Alike.map_eq {α β : Type} {V : α → β → Prop} {r : Except Failure α} {r' : Except Failure β}
    {g : α → β} (h : Alike V r r') (hV : ∀ a b, V a b → g a = b) : g <$> r = r' := by
  cases h with
  | ok h => exact congrArg Except.ok (hV _ _ h)
  | error e => rfl

theorem Answer.renumber_of_alike {number : SessionId → SessionId} {id : SessionId} {a a' : Answer}
    (h : Answer.Alike (fun d d' ↦ d.session = id ∧ d.renumber number = d') a a') :
    a.renumber number = a' := by
  cases h with
  | declaration h => exact congrArg Answer.declaration h.2
  | declaration? h =>
    cases h with
    | none => rfl
    | some h => exact congrArg (Answer.declaration? ∘ some) h.2
  | declarations h =>
    exact congrArg Answer.declarations
      (lists_renumbered (S := .start id {}) (T := .start id {}).mp h).2
  | plain h =>
    cases a with
    | declaration d => cases h
    | declaration? d =>
      cases d with
      | none => rfl
      | some d => cases h
    | declarations ds =>
      cases ds with
      | nil => rfl
      | cons d ds => cases h
    | _ => rfl

/-- A question about an adapter of the session, or about none, is about one of its adapters. -/
theorem Query.exists_about_renumber (number : SessionId → SessionId) {q : Query} {id : SessionId}
    (hq : ∀ d, q.subject? = some d → d.session = id) :
    ∃ d : Declaration, d.session = id ∧ q.about d = q ∧
      q.about (d.renumber number) = q.renumber number := by
  rw [renumber]
  cases h : q.subject? with
  | some d => exact ⟨d, hq d h, about_of_subject? h, rfl⟩
  | none =>
    exact ⟨⟨⟨0⟩, .file, none, id, 0⟩, rfl, about_of_subject?_eq_none h _,
      about_of_subject?_eq_none h _⟩

/-- **The number of a session does not matter.**  Under another number it ends a question about one
of its adapters in the same way, up to the number in the adapters that it hands out, and it makes
the same adapters and keeps the same. -/
theorem Session.ask_renumber (number : SessionId → SessionId) {S : Session} (hS : S.WellFormed)
    {q : Query} (hq : ∀ d, q.subject? = some d → d.session = S.id) (host : Host) :
    (S.renumber number).ask host (q.renumber number) =
      (Answer.renumber number <$> (S.ask host q).1, (S.ask host q).2.renumber number) := by
  obtain ⟨d, hd, hdq, hdq'⟩ := Query.exists_about_renumber number hq
  have h := (keeping_renumbered number host S.id).run_about q ⟨hd, rfl⟩ S _ ⟨hS, rfl, rfl⟩
  rw [hdq, hdq'] at h
  exact Prod.ext (h.alike.map_eq fun _ _ ↦ Answer.renumber_of_alike).symm h.states.2.2.symm

end SymbolView
