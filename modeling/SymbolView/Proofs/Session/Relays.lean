import SymbolView.Proofs.Session.Owners

/-!
# A session says of annotations what the host says

A session that has only asked one host answers a question about annotations with the function of the
host that `Owners` writes down, whatever it has been asked before: `Steady.ask_annotationsFor` and
`Steady.ask_useSiteAnnotations`.  Whoever compares such answers compares these functions and has no
adapters to look at.

The proofs follow the computations.  `Session.Relays` is the rule for one run: unlike
`Session.Completes` it speaks of runs that fail as well, and tells how.  Where the host does answer,
what is relayed is settled: `Settles.of_relays`.
-/

set_option autoImplicit false

namespace SymbolView

open SessionM

/-! ## Sessions that have only asked one host -/

namespace Session

section Relays

variable {α β γ δ : Type}

/-- Whether a computation started in a session only asks a host and ends like an outcome: with the
same failure, or with a value that stands for the value of the outcome in the session as it is
then. -/
structure Relays (host : Host) (S : Session) (V : Session → α → β → Prop) (m : SessionM α)
    (r : Except Failure β) : Prop where
  /-- The session has changed only by asking the host. -/
  reaches : Reaches host S (m.run.run S).2
  /-- It ends like the outcome. -/
  alike : Alike (V (m.run.run S).2) (m.run.run S).1 r

/-- The value itself. -/
def Itself (_ : Session) (a b : α) : Prop := a = b

/-- An adapter of the session that shows what it stands for. -/
def Shown (T : Session) (d : Declaration) (face : Face) : Prop := d ∈ T.declarations ∧ d.face = face

/-- Such an adapter, if there is one. -/
def ShownIfAny (T : Session) : Option Declaration → Option Face → Prop := Option.Rel (Shown T)

/-- The adapters of symbols. -/
def Symbols (_ : Session) (ds : List Declaration) (l : List SymbolId) : Prop :=
  ds.map (·.symbol) = l

variable {host : Host} {policy : SuffixPolicy} {S : Session} {V : Session → α → β → Prop}
  {W : Session → γ → δ → Prop} {m : SessionM α} {r : Except Failure β} {f : α → SessionM γ}
  {g : β → Except Failure δ} {d : Declaration}

namespace Relays

theorem pure {a : α} {b : β} (h : V S a b) : Relays host S V (Pure.pure a) (.ok b) :=
  ⟨.refl, .ok h⟩

theorem throw (e : Failure) : Relays host S V (MonadExcept.throw e) (.error e) :=
  ⟨.refl, .error e⟩

theorem bind (hm : Relays host S V m r)
    (hf : ∀ T a b, Reaches host S T → V T a b → Relays host T W (f a) (g b)) :
    Relays host S W (m >>= f) (r >>= g) := by
  obtain ⟨hS, ha⟩ := hm
  constructor <;> rw [run_bind]
  all_goals
    cases hrun : m.run.run S with
    | mk q T =>
      rw [hrun] at hS ha
      cases ha with
      | error e => first | exact hS | exact .error e
      | ok h =>
        have next := hf T _ _ hS h
        first | exact hS.trans next.reaches | exact next.alike

/-- The rule for values that stand for themselves. -/
theorem bind_itself {m : SessionM α} {r : Except Failure α} {g : α → Except Failure δ}
    (hm : Relays host S Itself m r)
    (hf : ∀ T a, Reaches host S T → Relays host T W (f a) (g a)) :
    Relays host S W (m >>= f) (r >>= g) := by
  refine hm.bind fun T a b hT h ↦ ?_
  obtain rfl : a = b := h
  exact hf T a hT

theorem ofHost (answer : Except HostError α) :
    Relays host S Itself (SessionM.ofHost answer) (answer.mapError Failure.ofHost) := by
  cases answer with
  | ok a => exact .pure rfl
  | error e => exact .throw _

theorem ofFault (answer : Except Fault α) :
    Relays host S Itself (SessionM.ofFault answer) (answer.mapError Failure.fault) := by
  cases answer with
  | ok a => exact .pure rfl
  | error e => exact .throw _

end Relays

/-! ### Operations -/

theorem Steady.relays_adapterFor (hS : S.Steady host policy) (s : SymbolId) :
    Relays host S Shown (adapterFor host s) (host.faceOf s) := by
  refine ⟨reaches_adapterFor host S s, .of_map_eq Declaration.face (fun face ↦ face) ?_
    fun d face hd _ h ↦ ?_⟩
  · rw [map_face_adapterFor hS.agrees, id_map']
  · exact ⟨mem_of_adapter? (adapter?_of_run_adapterFor (Prod.ext hd rfl)), h⟩

/-- The adapter of its symbol is the adapter itself. -/
theorem Steady.relays_self {f : Declaration → SessionM α} (hS : S.Steady host policy)
    (hd : d ∈ S.declarations) (hf : Relays host S V (f d) r) :
    Relays host S V (adapterFor host d.symbol >>= f) r := by
  have hrun := run_adapterFor_of_eq_some host (hS.wellFormed.adapter?_eq_some hd)
  constructor <;> rw [run_bind, hrun]
  · exact hf.reaches
  · exact hf.alike

/-- The session does not refuse its own adapters. -/
theorem Steady.relays_check (hS : S.Steady host policy) (hd : d ∈ S.declarations)
    (hm : Relays host S V m r) : Relays host S V (check d >>= fun _ ↦ m) r := by
  constructor <;> rw [run_bind, run_check_of_own (hS.wellFormed.own d hd)]
  · exact hm.reaches
  · exact hm.alike

theorem Steady.relays_parent (hS : S.Steady host policy) (hd : d ∈ S.declarations) :
    Relays host S ShownIfAny (Session.parent host d) (host.parentFace d.symbol) := by
  rw [parent_eq]
  refine hS.relays_check hd ((Relays.ofHost _).bind_itself fun T o hT ↦ ?_)
  cases o with
  | none => exact .pure .none
  | some p =>
    show Relays host T ShownIfAny (some <$> adapterFor host p) (some <$> host.faceOf p)
    rw [map_eq_pure_bind, map_eq_pure_bind]
    exact ((hS.reaches hT).relays_adapterFor p).bind fun _ _ _ _ h ↦ .pure (.some h)

theorem relays_writtenFor (host : Host) (target : UseSiteTarget) (d : Declaration) :
    Relays host S Itself (Session.writtenFor host target d) (host.writtenFor target d.symbol) :=
  (Relays.ofHost _).bind_itself fun _ _ _ ↦ .ofFault _

theorem relays_writtenOnAll (target : UseSiteTarget) (ds : List Declaration) : ∀ {S : Session},
    Relays host S Itself (Session.writtenOnAll host target ds)
      (host.writtenOnAll target (ds.map (·.symbol))) := by
  induction ds with
  | nil => exact .pure rfl
  | cons d ds ih =>
    intro S
    exact (relays_writtenFor host target d).bind_itself fun _ _ _ ↦
      ih.bind_itself fun _ _ _ ↦ .pure rfl

/-! ### Walks -/

/-- The rule for questions that are passed on to the parent. -/
theorem Steady.relays_parent_bind {onParent : Option Declaration → SessionM α}
    {onFace : Option Face → Except Failure β} (hS : S.Steady host policy)
    (hd : d ∈ S.declarations) (hnone : ∀ T, Relays host T V (onParent none) (onFace none))
    (hsome : ∀ {T p}, T.Steady host policy → p ∈ T.declarations →
      Relays host T V (onParent (some p)) (onFace (some p.face))) :
    Relays host S V (Session.parent host d >>= onParent)
      (host.parentFace d.symbol >>= onFace) := by
  refine (hS.relays_parent hd).bind fun T o face hT shown ↦ ?_
  cases shown with
  | none => exact hnone T
  | some shown =>
    obtain ⟨hp, rfl⟩ := shown
    exact hsome (hS.reaches hT) hp

theorem Steady.relays_owner (hS : S.Steady host policy) (hd : d ∈ S.declarations) :
    Relays host S ShownIfAny (Session.owner host d) (host.ownerFace d.symbol d.kind) := by
  rw [Session.owner, Host.ownerFace]
  split
  · exact hS.relays_parent hd
  · exact .pure .none

theorem Steady.relays_ownersAbove (steps : Nat) : ∀ {S : Session} {d : Declaration},
    S.Steady host policy → d ∈ S.declarations →
      Relays host S Symbols (Session.ownersAbove host steps d)
        (host.ownersAbove steps d.symbol d.kind) := by
  induction steps with
  | zero => exact fun _ _ ↦ .throw _
  | succ steps ih =>
    intro S d hS hd
    refine (hS.relays_owner hd).bind fun T o face hT shown ↦ ?_
    cases shown with
    | none => exact .pure rfl
    | @some p face shown =>
      obtain ⟨hp, rfl⟩ := shown
      show Relays host T Symbols (if p.kind.isAccessor || p.kind.isPropertyLike then _ else _)
        (if p.kind.isAccessor || p.kind.isPropertyLike then _ else _)
      split
      · refine (ih (hS.reaches hT) hp).bind fun U ds symbols _ h ↦ .pure ?_
        exact congrArg (p.symbol :: ·) h
      · exact .pure rfl

theorem Steady.relays_owners (hS : S.Steady host policy) (hd : d ∈ S.declarations) :
    Relays host S Symbols (Session.owners host d) (host.owners d.symbol d.kind) := by
  refine hS.relays_self hd ((hS.relays_ownersAbove _ hd).bind fun _ _ _ _ h ↦ .pure ?_)
  exact congrArg (d.symbol :: ·) h

theorem Steady.relays_annotationsFor (hS : S.Steady host policy) (hd : d ∈ S.declarations)
    (target : UseSiteTarget) :
    Relays host S Itself (Session.annotationsFor host target d)
      (host.annotationsFor target d.symbol d.kind) := by
  rw [Session.annotationsFor, Host.annotationsFor]
  refine hS.relays_check hd ?_
  split
  · refine (hS.relays_owners hd).bind fun T ds symbols _ h ↦ ?_
    obtain rfl : ds.map (·.symbol) = symbols := h
    exact relays_writtenOnAll target ds
  · exact hS.relays_self hd (relays_writtenOnAll target [d])

theorem Steady.relays_fromProperty (hS : S.Steady host policy) (hd : d ∈ S.declarations)
    (target : UseSiteTarget) :
    Relays host S Itself (Session.fromProperty host target d)
      (host.fromProperty target d.symbol) := by
  refine hS.relays_parent_bind hd (fun _ ↦ .pure rfl) fun {T p} _ _ ↦ ?_
  show Relays host T Itself (if p.kind.isPropertyLike then _ else _)
    (if p.kind.isPropertyLike then _ else _)
  split
  · exact relays_writtenFor host target p
  · exact .pure rfl

theorem Steady.relays_fromSetter (hS : S.Steady host policy) (hd : d ∈ S.declarations) :
    Relays host S Itself (Session.fromSetter host d) (host.fromSetter d.symbol) := by
  refine hS.relays_parent_bind hd (fun _ ↦ .pure rfl) fun {T setter} hT hsetter ↦ ?_
  show Relays host T Itself (if setter.kind = .setter then _ else _)
    (if setter.kind = .setter then _ else _)
  split
  · refine (relays_writtenFor host .setParam setter).bind_itself fun U own hU ↦ ?_
    have others := (hT.reaches hU).relays_fromProperty (hU.grows.mem hsetter) .setParam
    exact others.bind_itself fun _ _ _ ↦ .pure rfl
  · exact .pure rfl

theorem Steady.relays_useSiteAnnotations (hS : S.Steady host policy) (hd : d ∈ S.declarations) :
    Relays host S Itself (Session.useSiteAnnotations host d)
      (host.useSiteAnnotations d.symbol d.kind) := by
  rw [Session.useSiteAnnotations]
  refine hS.relays_check hd ?_
  cases d.kind with
  | getter => exact hS.relays_fromProperty hd .get
  | setter => exact hS.relays_fromProperty hd .set
  | valueParameter => exact hS.relays_fromSetter hd
  | _ => exact .pure rfl

/-! ## What is answered -/

theorem Relays.run_eq {m : SessionM α} {r : Except Failure α} (h : Relays host S Itself m r) :
    (m.run.run S).1 = r := by
  obtain ⟨-, alike⟩ := h
  generalize (m.run.run S).1 = q at alike ⊢
  cases alike with
  | ok h => exact congrArg _ h
  | error e => rfl

/-- **What is answered to a question for the annotations with a target is a function of the host**,
the symbol and its kind. -/
theorem Steady.ask_annotationsFor (hS : S.Steady host policy) (hd : d ∈ S.declarations)
    (target : UseSiteTarget) : (S.ask host (.annotationsFor target d)).1 =
      Answer.annotations <$> host.annotationsFor target d.symbol d.kind := by
  rw [ask, Query.run, run_map, (hS.relays_annotationsFor hd target).run_eq]

/-- So is the answer to a question for what reaches a declaration. -/
theorem Steady.ask_useSiteAnnotations (hS : S.Steady host policy) (hd : d ∈ S.declarations) :
    (S.ask host (.useSiteAnnotations d)).1 =
      Answer.annotations <$> host.useSiteAnnotations d.symbol d.kind := by
  rw [ask, Query.run, run_map, (hS.relays_useSiteAnnotations hd).run_eq]

theorem Relays.completes {m : SessionM α} {v : α} (h : Relays host S Itself m (.ok v)) :
    Completes host m S fun _ a ↦ a = v :=
  ⟨v, _, Prod.ext h.run_eq rfl, h.reaches, rfl⟩

end Relays

/-! ## What is settled -/

section Settles

variable {α : Type} {host : Host} {known : SymbolId → Prop} {policy : SuffixPolicy} {s : SymbolId}
  {question : Declaration → SessionM α} {kind : DeclarationKind} {name : Option String} {v : α}

/-- What is relayed from a host that answers is settled. -/
theorem Settles.of_relays {said : SymbolId → DeclarationKind → Except Failure α}
    (face : host.faceOf s = .ok (s, kind, name))
    (h : ∀ {S : Session} {d : Declaration}, S.Steady host policy → d ∈ S.declarations →
      Relays host S Itself (question d) (said d.symbol d.kind))
    (hv : said s kind = .ok v) : Settles host policy s question v := by
  refine ⟨fun {S d} hS hd hs ↦ Relays.completes ?_⟩
  have kind_eq : d.kind = kind := (hS.kind_and_name_eq hd (hs ▸ face)).1
  rw [← hv, ← kind_eq, ← hs]
  exact h hS hd

variable (policy) (serves : host.Serves known) (hs : known s)
include serves hs

theorem exists_useSiteAnnotations :
    ∃ as, Settles host policy s (Session.useSiteAnnotations host) as := by
  obtain ⟨kind, name, face⟩ := serves.faceOf hs
  obtain ⟨as, has⟩ : ∃ as, host.useSiteAnnotations s kind = .ok as := by
    cases implied : impliedTarget kind with
    | some target =>
      exact Host.Clear.exists_useSiteAnnotations (fun p hp ↦ serves.clear hs hp) face implied
    | none => exact ⟨[], by cases kind <;> first | rfl | cases implied⟩
  exact ⟨as, .of_relays face (fun hS hd ↦ hS.relays_useSiteAnnotations hd) has⟩

theorem exists_resolvedAnnotations :
    ∃ as, Settles host policy s (Session.resolvedAnnotations host) as := by
  obtain ⟨own, hown⟩ := exists_annotations policy serves hs
  obtain ⟨others, hothers⟩ := exists_useSiteAnnotations policy serves hs
  exact ⟨own ++ others, .bind hown (.bind hothers (.pure _))⟩

end Settles
end Session
end SymbolView
