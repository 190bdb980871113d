import SymbolView.Proofs.Session.Renumbering
import SymbolView.Proofs.Workspace.Refusal

/-!
# Sessions do not see each other

What a session answers depends on the steps that are its own and on the hosts that they carry, not
on what is done with other sessions in between.  `Workspace.without` takes all steps of a session
out of a run; as the session is never opened then, those that are opened later get smaller numbers.
`Workspace.watch` is what one sees of a session in a run: how its steps end and how many adapters it
has made.  `Workspace.watch_without` says that what one sees of a session stays the same when
another is taken out of the run.

Three facts are behind it:

* `Workspace.session?_step_of_ne`: a step of one session leaves the others as they are;
* `Workspace.step_eq_alone`: a step of a session depends on the state of that session only;
* `Workspace.Step.alone_closeGap`: it does not depend on its number either, by
  `Session.ask_renumber`.

What has been found out about an adapter is part of the state of its session here.  It could be kept
with the adapter instead, which may be handed to another session.  That makes no difference: a
session looks at what is kept with an adapter only after it has checked that the adapter is its own
(`Session.ask_of_foreign`), and has one adapter at most for a symbol (`Session.WellFormed`).  So a
question about an adapter of another session leaves both sessions as they are
(`Workspace.step_of_not_asksOwn`).
-/

set_option autoImplicit false

namespace SymbolView

/-- The number of a session in a run in which another is never opened. -/
def SessionId.closeGap (gone id : SessionId) : SessionId :=
  if gone.val < id.val then ⟨id.val - 1⟩ else id

theorem SessionId.val_closeGap (gone id : SessionId) :
    (gone.closeGap id).val = if gone.val < id.val then id.val - 1 else id.val := by
  rw [closeGap]
  split <;> rfl

theorem SessionId.val_inj {id id' : SessionId} : id.val = id'.val ↔ id = id' :=
  ⟨fun h ↦ by cases id; cases id'; cases h; rfl, congrArg _⟩

/-- Different sessions keep different numbers. -/
theorem SessionId.closeGap_inj {gone id id' : SessionId} (h : id ≠ gone) (h' : id' ≠ gone) :
    gone.closeGap id = gone.closeGap id' ↔ id = id' := by
  rw [ne_eq, ← val_inj] at h h'
  rw [← val_inj, ← val_inj, val_closeGap, val_closeGap]
  split <;> split <;> omega

namespace Workspace

variable {w w' : Workspace} {id gone : SessionId} {s : Step} {steps : List Step}

/-! ## Taking a session out of a run -/

namespace Step

/-- The session that the step opens, closes or asks, when so many have been opened before. -/
def session (opened : Nat) : Step → SessionId
  | start _ => ⟨opened⟩
  | close id => id
  | ask _ id _ => id

/-- Whether the step, if it asks a session, asks about one of its own adapters or about none. -/
def asksOwn (id : SessionId) : Step → Bool
  | ask _ asked q => asked != id || q.subject?.all (·.session == id)
  | _ => true

/-- How many sessions have been opened after the step. -/
def openedAfter (opened : Nat) : Step → Nat
  | start _ => opened + 1
  | _ => opened

/-- The step, in a run in which a session is never opened. -/
def closeGap (gone : SessionId) : Step → Step
  | start config => start config
  | close id => close (gone.closeGap id)
  | ask host id q => ask host (gone.closeGap id) (q.renumber gone.closeGap)

end Step

/-- A run without the steps of a session, when so many have been opened before. -/
def without (gone : SessionId) (opened : Nat) : List Step → List Step
  | [] => []
  | s :: rest =>
    if s.session opened = gone then without gone (s.openedAfter opened) rest
    else s.closeGap gone :: without gone (s.openedAfter opened) rest

/-- What one sees of a session when a step of its own has been carried out. -/
structure Sight where
  /-- How the step ended, if it was a question and the session was open. -/
  answer : Option (Except Failure Answer)
  /-- How many adapters the session has made, if it is still open. -/
  adapterCount : Option Nat

/-- What one sees of a session, after each of its own steps. -/
def watch (id : SessionId) (w : Workspace) : List Step → List Sight
  | [] => []
  | s :: rest =>
    let after := (w.step s).2
    if s.session w.opened = id then
      ⟨(w.step s).1, (after.session? id).map (·.adapterCount)⟩ :: watch id after rest
    else watch id after rest

/-- What one sees, with the adapters in it renumbered. -/
def Sight.renumber (number : SessionId → SessionId) (sight : Sight) : Sight :=
  { sight with answer := sight.answer.map (Answer.renumber number <$> ·) }

/-! ## A step of one session -/

theorem opened_step_eq (w : Workspace) (s : Step) :
    (w.step s).2.opened = s.openedAfter w.opened := by
  cases s with
  | start config => rfl
  | close id => rfl
  | ask host id q =>
    show (w.ask host id q).2.opened = w.opened
    cases hS : w.session? id with
    | none => rw [ask_of_eq_none hS]
    | some S => rw [ask_of_eq_some hS]; rfl

/-- **A step of one session leaves the others as they are.** -/
theorem session?_step_of_ne (hw : w.WellFormed) (h : s.session w.opened ≠ id) :
    (w.step s).2.session? id = w.session? id := by
  cases s with
  | start config =>
    have hid : w.nextId ≠ id := h
    show (w.start config).session? id = _
    rw [session?_start, if_neg hid, Option.or_none]
  | close closed =>
    have hid : id ≠ closed := Ne.symm h
    show (w.close closed).session? id = _
    rw [session?_close, if_neg hid]
  | ask host asked q =>
    have hne : id ≠ asked := Ne.symm h
    show (w.ask host asked q).2.session? id = _
    cases hS : w.session? asked with
    | none => rw [ask_of_eq_none hS]
    | some S =>
      have hid : (S.ask host q).2.id = asked :=
        (Session.grows_ask (hw.session hS) host q).id.trans (id_of_session? hS)
      rw [ask_of_eq_some hS, session?_put (by rw [hid]; exact hS), hid, if_neg hne]

/-- **What is kept with an adapter is reached only behind the check.**  A step in which a session is
asked about an adapter of another changes no session, neither the one that is asked nor the one that
has made the adapter. -/
theorem step_of_not_asksOwn (hw : w.WellFormed) (h : s.asksOwn id = false) :
    (w.step s).2 = w := by
  cases s with
  | start config => cases h
  | close closed => cases h
  | ask host asked q =>
    obtain ⟨rfl, foreign⟩ : asked = id ∧ q.subject?.all (·.session == id) = false := by
      simpa [Step.asksOwn] using h
    cases hq : q.subject? with
    | none =>
      rw [hq] at foreign
      cases foreign
    | some d =>
      have hne : d.session ≠ asked := by simpa [hq] using foreign
      show (w.ask host asked q).2 = w
      cases hS : w.session? asked with
      | none => rw [ask_of_eq_none hS]
      | some S => rw [ask_of_foreign hw hS hq hne host]

/-- How a step of a session ends, and what becomes of the session. -/
def Step.alone (id : SessionId) (S : Option Session) :
    Step → Option (Except Failure Answer) × Option Session
  | start config => (none, some (.start id config))
  | close _ => (none, none)
  | ask host _ q =>
    match S with
    | none => (none, none)
    | some S => (some (S.ask host q).1, some (S.ask host q).2)

/-- **A step of a session depends on that session only.** -/
theorem step_eq_alone (hw : w.WellFormed) (h : s.session w.opened = id) :
    ((w.step s).1, (w.step s).2.session? id) = s.alone id (w.session? id) := by
  cases s with
  | start config =>
    have hid : w.nextId = id := h
    have hnone : w.session? id = none := by
      cases hS : w.session? id with
      | none => rfl
      | some S => exact absurd (hw.lt_opened hS) (by rw [← hid]; exact Nat.lt_irrefl _)
    refine Prod.ext rfl ?_
    show (w.start config).session? id = _
    rw [session?_start, hnone, if_pos hid, hid]
    rfl
  | close closed =>
    obtain rfl : closed = id := h
    refine Prod.ext rfl ?_
    show (w.close closed).session? closed = _
    rw [session?_close, if_pos rfl]
    rfl
  | ask host asked q =>
    obtain rfl : asked = id := h
    show ((w.ask host asked q).1, (w.ask host asked q).2.session? asked) = _
    cases hS : w.session? asked with
    | none =>
      rw [ask_of_eq_none hS, hS]
      rfl
    | some S =>
      have hid : (S.ask host q).2.id = asked :=
        (Session.grows_ask (hw.session hS) host q).id.trans (id_of_session? hS)
      rw [ask_of_eq_some hS, session?_put (by rw [hid]; exact hS), if_pos hid.symm]
      rfl

/-! ## The same step under other numbers -/

theorem Step.session_closeGap (gone : SessionId) (opened : Nat) (s : Step) :
    (s.closeGap gone).session (gone.closeGap ⟨opened⟩).val = gone.closeGap (s.session opened) := by
  cases s <;> rfl

/-- A step that is taken out does not count. -/
theorem Step.closeGap_openedAfter_of_eq {opened : Nat} (h : s.session opened = gone) :
    (gone.closeGap ⟨s.openedAfter opened⟩).val = (gone.closeGap ⟨opened⟩).val := by
  cases s with
  | start config =>
    subst h
    rw [SessionId.val_closeGap, SessionId.val_closeGap]
    show (if opened < opened + 1 then opened + 1 - 1 else opened + 1) =
      if opened < opened then opened - 1 else opened
    split <;> split <;> omega
  | _ => rfl

/-- A step that is not taken out counts as before. -/
theorem Step.closeGap_openedAfter_of_ne {opened : Nat} (h : s.session opened ≠ gone) :
    (gone.closeGap ⟨s.openedAfter opened⟩).val =
      (s.closeGap gone).openedAfter (gone.closeGap ⟨opened⟩).val := by
  cases s with
  | start config =>
    have hne : opened ≠ gone.val := fun heq ↦ h (SessionId.val_inj.mp heq)
    show _ = (gone.closeGap ⟨opened⟩).val + 1
    rw [SessionId.val_closeGap, SessionId.val_closeGap]
    show (if gone.val < opened + 1 then opened + 1 - 1 else opened + 1) =
      (if gone.val < opened then opened - 1 else opened) + 1
    split <;> split <;> omega
  | _ => rfl

/-- A session under another number ends the same step in the same way. -/
theorem Step.alone_closeGap (own : s.asksOwn id = true) {opened : Nat} (hs : s.session opened = id)
    {S : Option Session} (hS : ∀ T, S = some T → T.WellFormed ∧ T.id = id) :
    (s.closeGap gone).alone (gone.closeGap id) (S.map (·.renumber gone.closeGap)) =
      ((s.alone id S).1.map (Answer.renumber gone.closeGap <$> ·),
        (s.alone id S).2.map (·.renumber gone.closeGap)) := by
  cases s with
  | start config => rfl
  | close closed => rfl
  | ask host asked q =>
    cases S with
    | none => rfl
    | some T =>
      obtain rfl : asked = id := hs
      obtain ⟨hT, rfl⟩ := hS T rfl
      have own' : ∀ d, q.subject? = some d → d.session = T.id := fun d hd ↦ by
        simpa [asksOwn, hd] using own
      have h := Session.ask_renumber gone.closeGap hT own' host
      show (some _, some _) = (some _, some _)
      rw [h]

/-! ## Runs -/

/-- Two workspaces side by side; in the second a session has never been opened, and another is as in
the first. -/
structure Apart (gone id : SessionId) (w w' : Workspace) : Prop where
  /-- The first workspace is well-formed. -/
  wellFormed : w.WellFormed
  /-- The second workspace is well-formed. -/
  wellFormed' : w'.WellFormed
  /-- All other sessions have been opened in both. -/
  opened : w'.opened = (gone.closeGap ⟨w.opened⟩).val
  /-- The session is the same up to its number. -/
  session : w'.session? (gone.closeGap id) = (w.session? id).map (·.renumber gone.closeGap)

/-- A step that is taken out makes no difference. -/
theorem Apart.step_of_eq (h : Apart gone id w w') (hid : id ≠ gone)
    (hs : s.session w.opened = gone) : Apart gone id (w.step s).2 w' where
  wellFormed := h.wellFormed.step s
  wellFormed' := h.wellFormed'
  opened := by rw [opened_step_eq, Step.closeGap_openedAfter_of_eq hs, h.opened]
  session := by rw [session?_step_of_ne h.wellFormed (by rw [hs]; exact hid.symm), h.session]

/-- A step that is not taken out is carried out on both sides, and looks the same if it is one of
the session. -/
theorem Apart.step_of_ne (h : Apart gone id w w') (hid : id ≠ gone) (own : s.asksOwn id = true)
    (hs : s.session w.opened ≠ gone) :
    Apart gone id (w.step s).2 (w'.step (s.closeGap gone)).2 ∧
      ((s.closeGap gone).session w'.opened = gone.closeGap id ↔ s.session w.opened = id) ∧
      (s.session w.opened = id →
        (w'.step (s.closeGap gone)).1 =
          (w.step s).1.map (Answer.renumber gone.closeGap <$> ·)) := by
  have hsession : (s.closeGap gone).session w'.opened = gone.closeGap (s.session w.opened) := by
    rw [h.opened, Step.session_closeGap]
  have hiff : (s.closeGap gone).session w'.opened = gone.closeGap id ↔ s.session w.opened = id := by
    rw [hsession, SessionId.closeGap_inj hs hid]
  have hopened : (w'.step (s.closeGap gone)).2.opened =
      (gone.closeGap ⟨(w.step s).2.opened⟩).val := by
    rw [opened_step_eq, opened_step_eq, Step.closeGap_openedAfter_of_ne hs, h.opened]
  have hw := h.wellFormed.step s
  have hw' := h.wellFormed'.step (s.closeGap gone)
  by_cases heq : s.session w.opened = id
  · have hstep := step_eq_alone h.wellFormed heq
    have hstep' := step_eq_alone h.wellFormed' (hiff.mpr heq)
    rw [h.session, Step.alone_closeGap own heq fun T hT ↦
      ⟨h.wellFormed.session hT, id_of_session? hT⟩, ← hstep] at hstep'
    obtain ⟨hanswer, hafter⟩ := Prod.mk.inj hstep'
    exact ⟨⟨hw, hw', hopened, hafter⟩, hiff, fun _ ↦ hanswer⟩
  · refine ⟨⟨hw, hw', hopened, ?_⟩, hiff, fun h ↦ absurd h heq⟩
    rw [session?_step_of_ne h.wellFormed heq, ← h.session]
    exact session?_step_of_ne h.wellFormed' fun h' ↦ heq (hiff.mp h')

/-- What one sees of the session from there on is the same. -/
theorem Apart.watch_eq (h : Apart gone id w w') (hid : id ≠ gone)
    (own : ∀ s ∈ steps, s.asksOwn id = true) :
    watch (gone.closeGap id) w' (without gone w.opened steps) =
      (watch id w steps).map (·.renumber gone.closeGap) := by
  induction steps generalizing w w' with
  | nil => rfl
  | cons s rest ih =>
    have hrest : ∀ t ∈ rest, t.asksOwn id = true := fun t ht ↦ own t (List.mem_cons_of_mem s ht)
    rw [without, watch, ← opened_step_eq]
    by_cases hgone : s.session w.opened = gone
    · have hne : s.session w.opened ≠ id := by rw [hgone]; exact hid.symm
      rw [if_pos hgone, if_neg hne]
      exact ih (h.step_of_eq hid hgone) hrest
    · obtain ⟨hstep, hiff, hanswer⟩ := h.step_of_ne hid (own s List.mem_cons_self) hgone
      rw [if_neg hgone, watch]
      by_cases heq : s.session w.opened = id
      · rw [if_pos heq, if_pos (hiff.mpr heq), List.map_cons, ih hstep hrest, hanswer heq,
          hstep.session, Option.map_map]
        congr 2
        exact Option.map_congr fun S _ ↦ S.adapterCount_renumber _
      · rw [if_neg heq, if_neg (mt hiff.mp heq)]
        exact ih hstep hrest

/-- **Sessions do not see each other.**  Take a run that opens, asks and closes sessions in any
order, in which the hosts change at will and in which one session is asked about its own adapters
only.  When another session is taken out of the run, with all its steps, the questions to the first
one end as before, with the same answers or the same failures, and it has made as many adapters at
each of its steps; only the number of the session changes in its adapters. -/
theorem watch_without {id gone : SessionId} (hid : id ≠ gone) {steps : List Step}
    (own : ∀ s ∈ steps, s.asksOwn id = true) :
    watch (gone.closeGap id) {} (without gone 0 steps) =
      (watch id {} steps).map (·.renumber gone.closeGap) := by
  have hapart : Apart gone id {} {} := by
    refine ⟨wellFormed_empty, wellFormed_empty, ?_, rfl⟩
    rw [SessionId.val_closeGap, if_neg (Nat.not_lt_zero _)]
  exact hapart.watch_eq hid own

/-- Two sessions ask in turns, and the front end loses its symbols on the way. -/
def sampleTurns : List Step := [
  .start {},
  .start { memoizeMembers := false },
  .ask Sample.table.toHost ⟨0⟩ (.adapter ⟨1⟩),
  .ask Sample.table.toHost ⟨1⟩ (.adapter ⟨0⟩),
  .ask Sample.table.toHost ⟨0⟩ (.parent Sample.size),
  .ask Sample.table.toHost ⟨1⟩ (.members { Sample.widget with session := ⟨1⟩ }),
  .close ⟨0⟩,
  .ask SymbolTable.empty.toHost ⟨1⟩ (.members { Sample.widget with session := ⟨1⟩ })]

/-- The second session is seen to do the same when it is the only one. -/
theorem watch_without_sample : (⟨1⟩ : SessionId) ≠ ⟨0⟩ ∧
    (∀ s ∈ sampleTurns, s.asksOwn ⟨1⟩ = true) ∧ (watch ⟨1⟩ {} sampleTurns).length = 4 ∧
    watch ⟨0⟩ {} (without ⟨0⟩ 0 sampleTurns) =
      (watch ⟨1⟩ {} sampleTurns).map (·.renumber (SessionId.closeGap ⟨0⟩)) := by
  have hid : (⟨1⟩ : SessionId) ≠ ⟨0⟩ := by decide
  have own : ∀ s ∈ sampleTurns, s.asksOwn ⟨1⟩ = true := by decide
  exact ⟨hid, own, rfl, watch_without hid own⟩

end Workspace
end SymbolView
