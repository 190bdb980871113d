import SymbolView.Proofs.Session.Asking

/-!
# On a host that does not change the past does not matter

A session reads its list of adapters and its cells before it asks the host.  On a host that always
says the same this changes nothing: `Session.ask_after` says that whatever a session has been asked
before, and whatever of it failed, it ends the next question like a session that has just been
opened, up to the identity of the adapters in the answer.  Whether the sessions keep members does
not matter either.

Two steps lead there.

* A session that has only asked one host agrees with it (`Session.AgreesWith`), and then it finds
  what the host says (`Host.tells`), whether it is kept or looked up: `Finding.map_face_fetch`.
* So two such sessions, side by side, are a correspondence in which everything is in step:
  `Correspondence.keeping_besides`.
-/

set_option autoImplicit false

namespace SymbolView

open SessionM Correspondence

variable {host : Host} {S T : Session} {d : Declaration} {s : SymbolId}

/-! ## What a host says, without a session -/

/-- What is said in a finding, without the identity of adapters. -/
abbrev Finding.Said : Finding → Type
  | members => List Face
  | f => f.Value

/-- Forgets the identity of adapters. -/
def Finding.face : (f : Finding) → f.Value → f.Said
  | origin => id
  | location => id
  | typeText => id
  | members => List.map Declaration.face

/-- What a host says of a symbol. -/
def Host.tells (host : Host) (policy : SuffixPolicy) (s : SymbolId) :
    (f : Finding) → Except Failure f.Said
  | .origin => host.classify s
  | .location => host.locationOf s
  | .typeText => host.typeTextOf policy s
  | .members => do (← host.memberSymbols s).mapM host.faceOf

/-! ## Sessions that agree with a host -/

namespace Session

/-- Whether all that a session has made and kept is as the host would have it now. -/
structure AgreesWith (S : Session) (host : Host) : Prop where
  /-- The adapters show what the host says. -/
  shows : ∀ d ∈ S.declarations, host.Shows d
  /-- What is kept is what the host says. -/
  holds : ∀ (f : Finding) s v, f.kept S s = some v → f.Holds host S s v

theorem agreesWith_start (id : SessionId) (config : SessionConfig) (host : Host) :
    (start id config).AgreesWith host :=
  ⟨fun _ h ↦ (nomatch h), fun f _ _ h ↦ by cases f <;> cases h⟩

/-- Asking a host keeps a session in agreement with it. -/
theorem AgreesWith.reaches (hS : S.AgreesWith host) (h : Reaches host S T) : T.AgreesWith host := by
  refine ⟨fun d hd ↦ ?_, fun f s v hv ↦ ?_⟩
  · rcases h.shows hd with hd | hd
    · exact hS.shows d hd
    · exact hd
  · cases hw : f.kept S s with
    | none => exact h.holds_of_kept hw hv
    | some w =>
      have hw' := h.grows.kept f s w hw
      rw [hv, Option.some_inj] at hw'
      subst hw'
      exact h.grows.holds (hS.holds f s v hw)

end Session

/-! ## What they find -/

/-- The adapter of a symbol shows what the host says. -/
theorem map_face_adapterFor (hS : S.AgreesWith host) (s : SymbolId) :
    Declaration.face <$> ((adapterFor host s).run.run S).1 = host.faceOf s := by
  cases hd : S.adapter? s with
  | some d =>
    rw [run_adapterFor_of_eq_some host hd, ← Session.symbol_of_adapter? hd]
    exact (hS.shows d (Session.mem_of_adapter? hd)).symm
  | none =>
    rw [run_adapterFor_of_eq_none host hd, Host.faceOf]
    cases host.kindAndName s <;> rfl

theorem reaches_adapterFor (host : Host) (S : Session) (s : SymbolId) :
    Session.Reaches host S ((adapterFor host s).run.run S).2 :=
  ((lawful_alone_reaches host S).adapterFor s S S ⟨rfl, .refl⟩).states.2

theorem map_face_adaptersFor (l : List SymbolId) :
    ∀ {S : Session}, S.AgreesWith host →
      List.map Declaration.face <$> ((adaptersFor host l).run.run S).1 = l.mapM host.faceOf := by
  induction l with
  | nil => exact fun _ ↦ rfl
  | cons s l ih =>
    intro S hS
    have hd := map_face_adapterFor hS s
    have hT := hS.reaches (reaches_adapterFor host S s)
    rw [adaptersFor, run_bind, List.mapM_cons, ← hd]
    cases hrun : (adapterFor host s).run.run S with
    | mk r T =>
      rw [hrun] at hT
      cases r with
      | error e => rfl
      | ok d =>
        have hl := ih hT
        simp only [run_bind]
        cases hrun' : (adaptersFor host l).run.run T with
        | mk r' U =>
          rw [hrun'] at hl
          cases r' <;> (show _ = Except.bind _ _; rw [← hl]; rfl)

namespace Finding

variable {f : Finding} {v : f.Value}

theorem map_face_lookUp (hS : S.AgreesWith host) (f : Finding) (d : Declaration) :
    f.face <$> ((f.lookUp host d).run.run S).1 = host.tells S.config.policy d.symbol f := by
  cases f with
  | origin =>
    rw [lookUp, run_ofOutcome]
    exact id_map _
  | location =>
    rw [lookUp, run_ofOutcome]
    exact id_map _
  | typeText =>
    rw [lookUp, run_get_bind, run_ofOutcome]
    exact id_map _
  | members =>
    rw [lookUp, ← ofOutcome_memberSymbols, run_bind, run_ofOutcome, Host.tells]
    cases host.memberSymbols d.symbol with
    | error e => rfl
    | ok symbols => exact map_face_adaptersFor symbols hS

theorem mapM_faceOf {ds : List Declaration} (h : ∀ d ∈ ds, host.Shows d) :
    (ds.map (·.symbol)).mapM host.faceOf = .ok (ds.map Declaration.face) := by
  induction ds with
  | nil => rfl
  | cons d ds ih =>
    rw [List.map_cons, List.mapM_cons, ih fun e he ↦ h e (List.mem_cons_of_mem d he),
      show host.faceOf d.symbol = _ from h d List.mem_cons_self]
    rfl

/-- What is kept is what the host says. -/
theorem tells_of_kept (hS : S.AgreesWith host) (h : f.kept S s = some v) :
    host.tells S.config.policy s f = .ok (f.face v) := by
  have hv := hS.holds f s v h
  cases f with
  | origin => exact hv
  | location => exact hv
  | typeText => exact hv
  | members =>
    obtain ⟨hsymbols, hmem⟩ := hv
    rw [Host.tells, hsymbols]
    exact mapM_faceOf fun d hd ↦ hS.shows d (hmem d hd)

/-- **A session that agrees with a host finds what the host says.** -/
theorem map_face_fetch (hS : S.AgreesWith host) (f : Finding) (d : Declaration) :
    f.face <$> ((f.fetch host d).run.run S).1 = host.tells S.config.policy d.symbol f := by
  have hl := map_face_lookUp hS f d
  rcases f.run_fetch_cases host d S with ⟨v, hv, hrun⟩ | ⟨v, U, hlook, -, hrun⟩ | hrun
  · rw [hrun, tells_of_kept hS hv]
    rfl
  · rw [hlook] at hl
    rwa [hrun]
  · rwa [hrun]

end Finding

/-! ## Two sessions that agree with one host -/

theorem Alike.of_ok {α β : Type} {V : α → β → Prop} {a : α} {b : β}
    (h : Alike V (.ok a) (.ok b)) : V a b := by
  cases h with
  | ok h => exact h

/-- Outcomes are alike if they are the same as far as one looks at them. -/
theorem Alike.of_map_eq {α β γ : Type} {V : α → β → Prop} {r : Except Failure α}
    {r' : Except Failure β} (g : α → γ) (g' : β → γ) (h : g <$> r = g' <$> r')
    (hV : ∀ a b, r = .ok a → r' = .ok b → g a = g' b → V a b) : Alike V r r' := by
  cases r with
  | error e =>
    cases r' with
    | error e' =>
      cases h
      exact .error e
    | ok b => cases h
  | ok a =>
    cases r' with
    | error e' => cases h
    | ok b => exact .ok (hV a b rfl rfl (Except.ok.inj h))

namespace Correspondence

/-- Two sessions that have got further from two others by asking one host. -/
def besides (host : Host) (S₀ S₀' : Session) : Correspondence where
  states S S' := Session.Reaches host S₀ S ∧ Session.Reaches host S₀' S'
  adapters S S' d d' := d ∈ S.declarations ∧ d' ∈ S'.declarations ∧ d.face = d'.face
  arguments d d' := d.session = S₀.id ∧ d'.session = S₀'.id ∧ d.face = d'.face

variable {S₀ S₀' S' : Session} {α : Type} {V V' W : Session → Session → α → α → Prop}
  {m m' : SessionM α}

/-- What each of two sessions does alone they do beside each other. -/
theorem InStepFrom.besides (h : (alone (Session.Reaches host S₀)).InStepFrom V m m S S)
    (h' : (alone (Session.Reaches host S₀')).InStepFrom V' m' m' S' S')
    (hW : Alike (W (m.run.run S).2 (m'.run.run S').2) (m.run.run S).1 (m'.run.run S').1) :
    (besides host S₀ S₀').InStepFrom W m m' S S' where
  states := ⟨h.states.2, h'.states.2⟩
  onward := by
    rintro d d' ⟨hd, hd', hface⟩
    exact ⟨(h.onward d d ⟨hd, rfl⟩).1, (h'.onward d' d' ⟨hd', rfl⟩).1, hface⟩
  alike := hW

theorem lists_besides {ds ds' : List Declaration} (hds : ∀ d ∈ ds, d ∈ S.declarations)
    (hds' : ∀ d ∈ ds', d ∈ S'.declarations)
    (h : ds.map Declaration.face = ds'.map Declaration.face) :
    (besides host S₀ S₀').lists S S' ds ds' := by
  rw [← List.forall₂_eq_eq_eq, List.forall₂_map_left_iff, List.forall₂_map_right_iff] at h
  induction h with
  | nil => exact .nil
  | @cons d d' ds ds' h _ ih =>
    refine .cons ⟨hds d List.mem_cons_self, hds' d' List.mem_cons_self, h⟩ (ih ?_ ?_)
    · exact fun e he ↦ hds e (List.mem_cons_of_mem d he)
    · exact fun e he ↦ hds' e (List.mem_cons_of_mem d' he)

/-- **Everything is in step** in two sessions that have only asked one host and write types in one
way. -/
theorem keeping_besides (hS : S₀.WellFormed) (hS' : S₀'.WellFormed) (hA : S₀.AgreesWith host)
    (hA' : S₀'.AgreesWith host) (hp : S₀.config.policy = S₀'.config.policy) :
    (besides host S₀ S₀').Keeping host where
  symbol h := congrArg Prod.fst h.2.2
  kind h := congrArg (·.2.1) h.2.2
  name h := congrArg (·.2.2) h.2.2
  argument := by
    rintro S S' d d' ⟨h, h'⟩ ⟨hd, hd', hface⟩
    refine ⟨?_, ?_, hface⟩
    · rw [(h.wellFormed hS).own d hd, h.grows.id]
    · rw [(h'.wellFormed hS').own d' hd', h'.grows.id]
  policy := by
    rintro S S' ⟨h, h'⟩
    rw [h.grows.config, h'.grows.config, hp]
  check := by
    rintro d d' ⟨hd, hd', -⟩ S S' ⟨h, h'⟩
    have hrun := run_check_of_own (hd.trans h.grows.id.symm)
    have hrun' := run_check_of_own (hd'.trans h'.grows.id.symm)
    exact .of_run hrun hrun' ⟨h, h'⟩ (fun _ _ h ↦ h) (.ok rfl)
  adapterFor := by
    rintro s S S' ⟨h, h'⟩
    have alone := (lawful_alone_reaches host S₀).adapterFor s S S ⟨rfl, h⟩
    have alone' := (lawful_alone_reaches host S₀').adapterFor s S' S' ⟨rfl, h'⟩
    refine alone.besides alone' (.of_map_eq Declaration.face Declaration.face ?_ ?_)
    · rw [map_face_adapterFor (hA.reaches h), map_face_adapterFor (hA'.reaches h')]
    · intro d d' hd hd' hface
      have hd := hd ▸ alone.alike
      have hd' := hd' ▸ alone'.alike
      exact ⟨hd.of_ok.1, hd'.of_ok.1, hface⟩
  fetch := by
    rintro f d d' ⟨-, -, hd⟩ S S' ⟨h, h'⟩
    have alone := (keeping_alone_reaches host hS).fetch f (d := d) rfl S S ⟨rfl, h⟩
    have alone' := (keeping_alone_reaches host hS').fetch f (d := d') rfl S' S' ⟨rfl, h'⟩
    refine alone.besides alone' (.of_map_eq f.face f.face ?_ ?_)
    · rw [Finding.map_face_fetch (hA.reaches h), Finding.map_face_fetch (hA'.reaches h'),
        h.grows.config, h'.grows.config, hp, show d.symbol = d'.symbol from congrArg Prod.fst hd]
    · intro v v' hv hv' hface
      have hv := hv ▸ alone.alike
      have hv' := hv' ▸ alone'.alike
      cases f with
      | members =>
        exact lists_besides (lists_alone.mp hv.of_ok).1 (lists_alone.mp hv'.of_ok).1 hface
      | _ => exact hface

end Correspondence

/-! ## The past -/

namespace Session

/-- A session after it has asked a host one question after the other. -/
def after (S : Session) (host : Host) (qs : List Query) : Session :=
  qs.foldl (fun S q ↦ (S.ask host q).2) S

theorem reaches_after (hS : S.WellFormed) (host : Host) (qs : List Query) :
    Reaches host S (S.after host qs) := by
  induction qs generalizing S with
  | nil => exact .refl
  | cons q qs ih =>
    exact (reaches_ask hS host q).trans (ih (wellFormed_ask hS host q))

/-- **The past does not matter.**  Whatever a session has been asked before, it ends a question
about the adapter of a symbol like a session that has just been opened and has only made that
adapter: with the same failure, or with an answer that is the same but for the identity of the
adapters in it.  The sessions have to write types in one way; they may differ in whether they keep
members. -/
theorem ask_after (host : Host) {id id' : SessionId} {config config' : SessionConfig}
    (hp : config.policy = config'.policy) (history : List Query)
    (hd : ((start id config).after host history).adapter? s = some d) (q : Query) :
    ∃ d' fresh, (start id' config').ask host (.adapter s) = (.ok (.declaration d'), fresh) ∧
      Alike (Answer.Alike fun e e' ↦ e.face = e'.face)
        (((start id config).after host history).ask host (q.about d)).1
        (fresh.ask host (q.about d')).1 := by
  have hS := wellFormed_start id config
  have hS' := wellFormed_start id' config'
  have hA' := agreesWith_start id' config' host
  have hreach := reaches_after hS host history
  have hshows : host.faceOf s = .ok d.face := by
    rw [← symbol_of_adapter? hd]
    exact ((agreesWith_start id config host).reaches hreach).shows d (mem_of_adapter? hd)
  -- the fresh session makes an adapter that shows the same
  have hface := map_face_adapterFor hA' s
  cases hrun : (adapterFor host s).run.run (start id' config') with
  | mk r fresh =>
    rw [hrun, hshows] at hface
    cases r with
    | error e => cases hface
    | ok d' =>
      refine ⟨d', fresh, by rw [ask, Query.run, run_map, hrun]; rfl, ?_⟩
      have hreach' : Reaches host (start id' config') fresh := by
        have h := reaches_adapterFor host (start id' config') s
        rwa [hrun] at h
      have hC := keeping_besides hS hS' (agreesWith_start id config host) hA' hp
      have hadapters : (besides host (start id config) (start id' config')).adapters _ fresh d d' :=
        ⟨mem_of_adapter? hd, mem_of_adapter? (adapter?_of_run_adapterFor hrun),
          (Except.ok.inj hface).symm⟩
      have hstates : (besides host (start id config) (start id' config')).states _ fresh :=
        ⟨hreach, hreach'⟩
      have h := hC.run_about q (hC.argument hstates hadapters) _ _ hstates
      exact h.alike.imp fun a a' ha ↦ ha.imp fun e e' he ↦ he.2.2

/-- A session that has kept the members of a class answers for one of them like a fresh one that
keeps no members. -/
theorem ask_after_sample : ∃ d' fresh,
    (start ⟨1⟩ { memoizeMembers := false }).ask Sample.table.toHost (.adapter ⟨1⟩) =
      (.ok (.declaration d'), fresh) ∧
    Alike (Answer.Alike fun e e' ↦ e.face = e'.face)
      (((start ⟨0⟩ {}).after Sample.table.toHost [.adapter ⟨0⟩, .members Sample.widget]).ask
        Sample.table.toHost (.parent Sample.size)).1
      (fresh.ask Sample.table.toHost (.parent d')).1 := by
  have hd : ((start ⟨0⟩ {}).after Sample.table.toHost
    [.adapter ⟨0⟩, .members Sample.widget]).adapter? ⟨1⟩ = some Sample.size := rfl
  have hp : (⟨.uniform, true⟩ : SessionConfig).policy =
      (⟨.uniform, false⟩ : SessionConfig).policy := rfl
  exact ask_after Sample.table.toHost hp _ hd (.parent Sample.size)

end Session
end SymbolView
