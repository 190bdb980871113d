import SymbolView.Proofs.Session.Asking
import SymbolView.Workspace

/-!
# Runs of a workspace

A run starts with no open session; `Workspace.before` is the workspace between two of its steps.
This file says what a step does to the open sessions, and what is left of a session some steps
later:

* `Workspace.session?_step`: only questions to a session change it.
* `Workspace.WellFormed`: the open sessions are well-formed and have different numbers, which are
  all given already.
* `Workspace.Grows`: a session that is still open has grown.

`Workspace.Asks` is a question that is asked in a run, with all that it meets and does.
-/

set_option autoImplicit false

namespace SymbolView
namespace Workspace

variable {w w' : Workspace} {id : SessionId} {S T : Session} {steps : List Step} {i j : Nat}

/-! ## The workspace between two steps -/

/-- The workspace before a step of a run that starts with no open session. -/
def before (steps : List Step) (i : Nat) : Workspace := (run {} (steps.take i)).2

theorem run_cons (w : Workspace) (s : Step) (rest : List Step) :
    w.run (s :: rest) =
      ((w.step s).1 :: ((w.step s).2.run rest).1, ((w.step s).2.run rest).2) := rfl

theorem getElem?_run (w : Workspace) (steps : List Step) (i : Nat) :
    (w.run steps).1[i]? = steps[i]?.map fun s ↦ ((w.run (steps.take i)).2.step s).1 := by
  induction steps generalizing w i with
  | nil => rfl
  | cons s rest ih =>
    rw [run_cons]
    cases i with
    | zero => rfl
    | succ i =>
      rw [List.getElem?_cons_succ, List.getElem?_cons_succ, ih, List.take_succ_cons, run_cons]

theorem run_take_succ (w : Workspace) {s : Step} (h : steps[i]? = some s) :
    (w.run (steps.take (i + 1))).2 = ((w.run (steps.take i)).2.step s).2 := by
  induction steps generalizing w i with
  | nil => cases h
  | cons t rest ih =>
    cases i with
    | zero =>
      cases h
      rfl
    | succ i =>
      rw [List.take_succ_cons, run_cons, List.take_succ_cons, run_cons]
      exact ih _ h

theorem before_succ {s : Step} (h : steps[i]? = some s) :
    before steps (i + 1) = ((before steps i).step s).2 :=
  run_take_succ {} h

theorem before_succ_of_eq_none (h : steps[i]? = none) : before steps (i + 1) = before steps i := by
  have hi : steps.length ≤ i := List.getElem?_eq_none_iff.mp h
  rw [before, before, List.take_of_length_le hi, List.take_of_length_le (Nat.le_succ_of_le hi)]

/-! ## What a step does to a session -/

theorem id_of_session? (h : w.session? id = some S) : S.id = id := by
  simpa using List.find?_some h

theorem mem_of_session? (h : w.session? id = some S) : S ∈ w.sessions :=
  List.mem_of_find?_eq_some h

theorem session?_start (w : Workspace) (config : SessionConfig) (id : SessionId) :
    (w.start config).session? id =
      (w.session? id).or (if w.nextId = id then some (.start w.nextId config) else none) := by
  rw [session?, start, List.find?_append, session?]
  congr 1
  by_cases h : w.nextId = id <;> simp [Session.start, h]

theorem session?_close (w : Workspace) (closed id : SessionId) :
    (w.close closed).session? id = if id = closed then none else w.session? id := by
  rw [session?, close, List.find?_filter]
  by_cases h : id = closed
  · rw [if_pos h, List.find?_eq_none]
    intro S _
    simp only [bne_iff_ne, ne_eq, beq_iff_eq, Bool.decide_and, Bool.and_eq_true,
      decide_eq_true_eq, not_and]
    exact fun hne hS ↦ hne (hS.trans h)
  · rw [if_neg h, session?]
    congr 1
    funext S
    by_cases hS : S.id = id <;> simp [hS, h]

theorem session?_put (h : w.session? T.id = some S) (id : SessionId) :
    (w.put T).session? id = if id = T.id then some T else w.session? id := by
  have hid : ((fun S : Session ↦ S.id == id) ∘ fun S ↦ if S.id = T.id then T else S) =
      fun S ↦ S.id == id := by
    funext S
    rw [Function.comp_apply]
    split
    · next hS => rw [hS]
    · rfl
  rw [session?, put, List.find?_map, hid, ← session?]
  by_cases hT : id = T.id
  · rw [if_pos hT, hT, h, Option.map_some, if_pos (id_of_session? h)]
  · rw [if_neg hT]
    cases hS : w.session? id with
    | none => rfl
    | some S' => rw [Option.map_some, if_neg (by rwa [id_of_session? hS])]

/-! ## Well-formed workspaces -/

/-- What holds of every workspace. -/
structure WellFormed (w : Workspace) : Prop where
  /-- The open sessions have different numbers. -/
  ids : (w.sessions.map (·.id)).Nodup
  /-- The numbers have been given already. -/
  opened : ∀ S ∈ w.sessions, S.id.val < w.opened
  /-- The open sessions are well-formed. -/
  sessions : ∀ S ∈ w.sessions, S.WellFormed

theorem wellFormed_empty : ({} : Workspace).WellFormed :=
  ⟨List.nodup_nil, by simp, by simp⟩

theorem WellFormed.session (hw : w.WellFormed) (h : w.session? id = some S) : S.WellFormed :=
  hw.sessions S (mem_of_session? h)

theorem WellFormed.lt_opened (hw : w.WellFormed) (h : w.session? id = some S) :
    id.val < w.opened := by
  rw [← id_of_session? h]
  exact hw.opened S (mem_of_session? h)

theorem WellFormed.start (hw : w.WellFormed) (config : SessionConfig) :
    (w.start config).WellFormed where
  ids := by
    rw [Workspace.start, List.map_append, List.nodup_append]
    refine ⟨hw.ids, by simp, ?_⟩
    intro id hid id' hid'
    obtain ⟨S, hS, rfl⟩ := List.mem_map.mp hid
    rw [List.map_singleton, List.mem_singleton] at hid'
    rw [hid']
    exact fun h ↦ absurd (hw.opened S hS) (by rw [h]; exact Nat.lt_irrefl _)
  opened := by
    intro S hS
    rcases List.mem_append.mp hS with hS | hS
    · exact Nat.lt_succ_of_lt (hw.opened S hS)
    · rw [List.mem_singleton.mp hS]
      exact Nat.lt_succ_self _
  sessions := by
    intro S hS
    rcases List.mem_append.mp hS with hS | hS
    · exact hw.sessions S hS
    · rw [List.mem_singleton.mp hS]
      exact Session.wellFormed_start _ _

theorem WellFormed.close (hw : w.WellFormed) (id : SessionId) : (w.close id).WellFormed where
  ids := (List.filter_sublist.map _).nodup hw.ids
  opened S hS := hw.opened S (List.mem_of_mem_filter hS)
  sessions S hS := hw.sessions S (List.mem_of_mem_filter hS)

theorem WellFormed.put (hw : w.WellFormed) (hT : T.WellFormed) (h : T.id.val < w.opened) :
    (w.put T).WellFormed where
  ids := by
    have hids : (w.put T).sessions.map (·.id) = w.sessions.map (·.id) := by
      rw [Workspace.put, List.map_map]
      refine List.map_congr_left fun S _ ↦ ?_
      rw [Function.comp_apply]
      split
      · next hS => exact hS.symm
      · rfl
    rw [hids]
    exact hw.ids
  opened := by
    intro S hS
    obtain ⟨S', hS', rfl⟩ := List.mem_map.mp hS
    split
    · exact h
    · exact hw.opened S' hS'
  sessions := by
    intro S hS
    obtain ⟨S', hS', rfl⟩ := List.mem_map.mp hS
    split
    · exact hT
    · exact hw.sessions S' hS'

theorem ask_of_eq_none (h : w.session? id = none) (host : Host) (q : Query) :
    w.ask host id q = (none, w) := by
  rw [ask, h]

theorem ask_of_eq_some (h : w.session? id = some S) (host : Host) (q : Query) :
    w.ask host id q = (some (S.ask host q).1, w.put (S.ask host q).2) := by
  rw [ask, h]

theorem WellFormed.step (hw : w.WellFormed) (s : Step) : (w.step s).2.WellFormed := by
  cases s with
  | start config => exact hw.start config
  | close id => exact hw.close id
  | ask host id q =>
    show (w.ask host id q).2.WellFormed
    cases hS : w.session? id with
    | none => rwa [ask_of_eq_none hS]
    | some S =>
      rw [ask_of_eq_some hS]
      refine hw.put (Session.wellFormed_ask (hw.session hS) host q) ?_
      rw [(Session.grows_ask (hw.session hS) host q).id, id_of_session? hS]
      exact hw.lt_opened hS

theorem WellFormed.run (hw : w.WellFormed) (steps : List Step) : (w.run steps).2.WellFormed := by
  induction steps generalizing w with
  | nil => exact hw
  | cons s rest ih => exact ih (hw.step s)

theorem wellFormed_before (steps : List Step) (i : Nat) : (before steps i).WellFormed :=
  wellFormed_empty.run _

/-! ## What is left of a session -/

/-- **A session that is open after a step** was open before, was opened by it or was asked by it. -/
theorem session?_step (hw : w.WellFormed) {s : Step} (h : (w.step s).2.session? id = some T) :
    w.session? id = some T ∨ (∃ config, s = .start config ∧ T = .start id config ∧ id = w.nextId) ∨
      ∃ host q S, s = .ask host id q ∧ w.session? id = some S ∧ T = (S.ask host q).2 := by
  cases s with
  | start config =>
    have hT := (session?_start w config id).symm.trans h
    cases hS : w.session? id with
    | some S =>
      rw [hS] at hT
      exact .inl hT
    | none =>
      rw [hS, Option.none_or, Option.ite_none_right_eq_some] at hT
      obtain ⟨rfl, hT⟩ := hT
      exact .inr (.inl ⟨config, rfl, (Option.some_inj.mp hT).symm, rfl⟩)
  | close closed =>
    have hT := (session?_close w closed id).symm.trans h
    rw [Option.ite_none_left_eq_some] at hT
    exact .inl hT.2
  | ask host asked q =>
    have hT : (w.ask host asked q).2.session? id = some T := h
    cases hS : w.session? asked with
    | none =>
      rw [ask_of_eq_none hS] at hT
      exact .inl hT
    | some S =>
      have hid : (S.ask host q).2.id = asked :=
        (Session.grows_ask (hw.session hS) host q).id.trans (id_of_session? hS)
      rw [ask_of_eq_some hS, session?_put (by rw [hid]; exact hS), hid] at hT
      by_cases hasked : id = asked
      · rw [if_pos hasked, Option.some_inj] at hT
        subst hasked
        exact .inr (.inr ⟨host, q, S, rfl, hS, hT.symm⟩)
      · rw [if_neg hasked] at hT
        exact .inl hT

/-- From one workspace of a run to a later one, sessions are opened and closed, and those that are
still open have grown. -/
structure Grows (w w' : Workspace) : Prop where
  /-- No number is taken back. -/
  opened : w.opened ≤ w'.opened
  /-- The open sessions have been opened since or have grown. -/
  sessions : ∀ {id T}, w'.session? id = some T →
    w.opened ≤ id.val ∨ ∃ S, w.session? id = some S ∧ S.Grows T

theorem Grows.refl (w : Workspace) : w.Grows w :=
  ⟨Nat.le_refl _, fun h ↦ .inr ⟨_, h, .refl _⟩⟩

theorem Grows.trans {w'' : Workspace} (h : w.Grows w') (h' : w'.Grows w'') : w.Grows w'' := by
  refine ⟨Nat.le_trans h.opened h'.opened, fun hU ↦ ?_⟩
  rcases h'.sessions hU with hid | ⟨T, hT, hTU⟩
  · exact .inl (Nat.le_trans h.opened hid)
  · rcases h.sessions hT with hid | ⟨S, hS, hST⟩
    · exact .inl hid
    · exact .inr ⟨S, hS, hST.trans hTU⟩

theorem opened_step (w : Workspace) (s : Step) : w.opened ≤ (w.step s).2.opened := by
  cases s with
  | start config => exact Nat.le_succ _
  | close id => exact Nat.le_refl _
  | ask host id q =>
    show w.opened ≤ (w.ask host id q).2.opened
    cases hS : w.session? id with
    | none => exact Nat.le_of_eq (by rw [ask_of_eq_none hS])
    | some S => exact Nat.le_of_eq (by rw [ask_of_eq_some hS]; rfl)

theorem grows_step (hw : w.WellFormed) (s : Step) : w.Grows (w.step s).2 := by
  refine ⟨opened_step w s, fun h ↦ ?_⟩
  rcases session?_step hw h with hS | ⟨config, -, -, rfl⟩ | ⟨host, q, S, -, hS, rfl⟩
  · exact .inr ⟨_, hS, .refl _⟩
  · exact .inl (Nat.le_refl _)
  · exact .inr ⟨S, hS, Session.grows_ask (hw.session hS) host q⟩

theorem grows_before (steps : List Step) (h : i ≤ j) : (before steps i).Grows (before steps j) := by
  induction h with
  | refl => exact .refl _
  | @step j _ ih =>
    cases hs : steps[j]? with
    | none => rwa [before_succ_of_eq_none hs]
    | some s =>
      rw [before_succ hs]
      exact ih.trans (grows_step (wellFormed_before steps j) s)

/-- **A session that is open at two times has only grown in between.** -/
theorem session_grows (hS : (before steps i).session? id = some S)
    (hT : (before steps j).session? id = some T) (h : i ≤ j) : S.Grows T := by
  rcases (grows_before steps h).sessions hT with hid | ⟨S', hS', hg⟩
  · exact absurd ((wellFormed_before steps i).lt_opened hS) (Nat.not_lt.mpr hid)
  · rw [hS, Option.some_inj] at hS'
    rwa [hS']

/-! ## Questions that are asked -/

/-- A question is asked in a step of a run: it meets a session, ends in some way and leaves the
session in some state. -/
structure Asks (steps : List Step) (i : Nat) (host : Host) (q : Query) (S : Session)
    (r : Except Failure Answer) (T : Session) : Prop where
  /-- The step is the question, and the host is as it is then. -/
  step : steps[i]? = some (.ask host S.id q)
  /-- The session as the question meets it. -/
  met : (before steps i).session? S.id = some S
  /-- How the question ends. -/
  ends : (run {} steps).1[i]? = some (some r)
  /-- The session as the question leaves it. -/
  left : (before steps (i + 1)).session? S.id = some T

/-- A session that is open answers. -/
theorem asks_of_step {host : Host} {q : Query} (hi : steps[i]? = some (.ask host id q))
    (hS : (before steps i).session? id = some S) :
    Asks steps i host q S (S.ask host q).1 (S.ask host q).2 := by
  obtain rfl := id_of_session? hS
  have hid := (Session.grows_ask ((wellFormed_before steps i).session hS) host q).id
  refine ⟨hi, hS, ?_, ?_⟩
  · rw [getElem?_run, hi]
    exact congrArg (fun o ↦ some o.1) (ask_of_eq_some hS host q)
  · rw [before_succ hi]
    show ((before steps i).ask host S.id q).2.session? S.id = _
    rw [ask_of_eq_some hS, session?_put (by rw [hid]; exact hS), if_pos hid.symm]

namespace Asks

variable {host : Host} {q : Query} {r : Except Failure Answer}

theorem wellFormed (h : Asks steps i host q S r T) : S.WellFormed :=
  (wellFormed_before steps i).session h.met

theorem eq_ask (h : Asks steps i host q S r T) : S.ask host q = (r, T) := by
  have h' := asks_of_step h.step h.met
  have hr : (S.ask host q).1 = r :=
    Option.some_inj.mp (Option.some_inj.mp (h'.ends.symm.trans h.ends))
  have hT : (S.ask host q).2 = T := Option.some_inj.mp (h'.left.symm.trans h.left)
  exact Prod.ext hr hT

end Asks

/-- A session asks for the members of a class twice; by then the front end has lost the symbols. -/
def sampleRun : List Step := [
  .start {},
  .ask Sample.table.toHost ⟨0⟩ (.adapter ⟨0⟩),
  .ask Sample.table.toHost ⟨0⟩ (.members Sample.widget),
  .ask SymbolTable.empty.toHost ⟨0⟩ (.adapter ⟨1⟩),
  .ask SymbolTable.empty.toHost ⟨0⟩ (.members Sample.widget)]

end Workspace
end SymbolView
