import SymbolView.Proofs.Session.Correspondence

/-!
# Every question is in step

A correspondence of sessions is lawful if the two operations that read the list of adapters are in
step.  This file shows that every question is in step then, so that whoever compares sessions has
those two operations to look at and nothing else:

* `Lawful.run_about` is about the questions of which no answer is kept, and builds on one lemma for
  each of them, such as `Lawful.parent`.
* `Keeping.run_about` adds the four findings and the snapshot, for correspondences in which the
  findings are in step as well.

What it means that two answers are alike is `Answer.Alike`: they are the same but for the adapters
in them, which are compared as one likes.
-/

set_option autoImplicit false

namespace SymbolView

/-! ## Answers -/

/-- The adapters that an answer hands out. -/
def Answer.adapters : Answer → List Declaration
  | declaration d => [d]
  | declaration? d => d.toList
  | declarations ds => ds
  | _ => []

/-- Two answers are the same but for the adapters in them, which are related. -/
inductive Answer.Alike (V : Declaration → Declaration → Prop) : Answer → Answer → Prop
  | declaration {d d' : Declaration} (h : V d d') : Alike V (.declaration d) (.declaration d')
  | declaration? {d d' : Option Declaration} (h : Option.Rel V d d') :
      Alike V (.declaration? d) (.declaration? d')
  | declarations {ds ds' : List Declaration} (h : List.Forall₂ V ds ds') :
      Alike V (.declarations ds) (.declarations ds')
  | plain {a : Answer} (h : a.adapters = []) : Alike V a a

theorem Answer.Alike.imp {V W : Declaration → Declaration → Prop} {a a' : Answer}
    (h : Answer.Alike V a a') (hVW : ∀ d d', V d d' → W d d') : Answer.Alike W a a' := by
  cases h with
  | declaration h => exact .declaration (hVW _ _ h)
  | declaration? h =>
    cases h with
    | none => exact .declaration? .none
    | some h => exact .declaration? (.some (hVW _ _ h))
  | declarations h => exact .declarations (h.imp hVW)
  | plain h => exact .plain h

theorem Answer.Alike.adapters {V : Declaration → Declaration → Prop} {a a' : Answer}
    (h : Answer.Alike V a a') : List.Forall₂ V a.adapters a'.adapters := by
  cases h with
  | declaration h => exact .cons h .nil
  | declaration? h =>
    cases h with
    | none => exact .nil
    | some h => exact .cons h .nil
  | declarations h => exact h
  | plain h =>
    rw [h]
    exact .nil

/-! ## Questions -/

namespace Query

/-- The same question about another declaration; a question that is about none stays as it is. -/
def about (d : Declaration) : Query → Query
  | adapter s => adapter s
  | origin _ => origin d
  | location _ => location d
  | modifiers _ => modifiers d
  | docText _ => docText d
  | parent _ => parent d
  | ancestorOf category _ => ancestorOf category d
  | containingDeclaration _ => containingDeclaration d
  | containingFile _ => containingFile d
  | declaredType _ => declaredType d
  | typeText _ => typeText d
  | render type => render type
  | classifierOf type => classifierOf type
  | classifierDeclaration type => classifierDeclaration type
  | classId _ => classId d
  | classOf id => classOf id
  | members _ => members d
  | properties _ => properties d
  | functions _ => functions d
  | annotations _ => annotations d
  | annotationsFor target _ => annotationsFor target d
  | annotationsForOption target _ => annotationsForOption target d
  | useSiteAnnotations _ => useSiteAnnotations d
  | resolvedAnnotations _ => resolvedAnnotations d
  | snapshot _ => snapshot d

/-- The declaration that a question is about. -/
def subject? : Query → Option Declaration
  | adapter _ | render _ | classifierOf _ | classifierDeclaration _ | classOf _ => none
  | origin d | location d | modifiers d | docText d | parent d | ancestorOf _ d
  | containingDeclaration d | containingFile d | declaredType d | typeText d | classId d | members d
  | properties d | functions d | annotations d | annotationsFor _ d | annotationsForOption _ d
  | useSiteAnnotations d | resolvedAnnotations d | snapshot d => some d

/-- Whether something that the question finds out is kept. -/
def isKept : Query → Bool
  | origin _ | location _ | typeText _ | members _ | snapshot _ => true
  | _ => false

theorem isKept_iff {q : Query} :
    q.isKept = true ↔ (∃ f d, q = Finding.question d f) ∨ ∃ d, q = .snapshot d := by
  constructor
  · intro h
    cases q with
    | origin d => exact .inl ⟨.origin, d, rfl⟩
    | location d => exact .inl ⟨.location, d, rfl⟩
    | typeText d => exact .inl ⟨.typeText, d, rfl⟩
    | members d => exact .inl ⟨.members, d, rfl⟩
    | snapshot d => exact .inr ⟨d, rfl⟩
    | _ => cases h
  · rintro (⟨f, d, rfl⟩ | ⟨d, rfl⟩)
    · cases f <;> rfl
    · rfl

theorem about_of_subject? {q : Query} {d : Declaration} (h : q.subject? = some d) :
    q.about d = q := by
  cases q <;> cases h <;> rfl

theorem about_of_subject?_eq_none {q : Query} (h : q.subject? = none) (d : Declaration) :
    q.about d = q := by
  cases q <;> first | rfl | cases h

/-- Every question is about some declaration, if only because it is about none in particular. -/
theorem exists_about (q : Query) : ∃ d, q.about d = q := by
  cases h : q.subject? with
  | some d => exact ⟨d, about_of_subject? h⟩
  | none => exact ⟨⟨⟨0⟩, .file, none, ⟨0⟩, 0⟩, about_of_subject?_eq_none h _⟩

end Query

/-! ## Questions that keep nothing -/

namespace Correspondence

variable {C : Correspondence} {host : Host} {d d' : Declaration}

/-- The rule for answers that hand out no adapters. -/
theorem InStep.map_plain {α : Type} {m m' : SessionM α} {g : α → Answer} (hm : C.InStep Same m m')
    (h : ∀ a, (g a).adapters = []) :
    C.InStep (fun S S' ↦ Answer.Alike (C.adapters S S')) (g <$> m) (g <$> m') := by
  refine hm.map fun T T' a a' ha ↦ ?_
  obtain rfl : a = a' := ha
  exact .plain (h a)

namespace Lawful

variable (hC : C.Lawful host)
include hC

theorem adaptersFor (l : List SymbolId) :
    C.InStep C.lists (adaptersFor host l) (adaptersFor host l) := by
  induction l with
  | nil => exact .pure fun _ _ ↦ .nil
  | cons s l ih =>
    rw [SymbolView.adaptersFor]
    -- the first adapter has to correspond still when the others have been made
    refine (hC.adapterFor s).bind fun T T' a a' hT ha ↦ ?_
    exact (ih T T' hT).bind fun U U' l l' hU hon hl ↦ .pure hU (.cons (hon a a' ha) hl)

theorem someAdapterFor (s : SymbolId) :
    C.InStep C.options (some <$> SymbolView.adapterFor host s)
      (some <$> SymbolView.adapterFor host s) :=
  (hC.adapterFor s).map fun _ _ _ _ h ↦ .some h

theorem adapterForOption (s : Option SymbolId) :
    C.InStep C.options (adapterForOption host s) (adapterForOption host s) := by
  cases s with
  | none => exact .pure fun _ _ ↦ .none
  | some s => exact hC.someAdapterFor s

section Parents

theorem parent (h : C.arguments d d') :
    C.InStep C.options (Session.parent host d) (Session.parent host d') := by
  rw [Session.parent, Session.parent, ← hC.symbol h]
  refine (hC.check h).bind_same fun _ ↦ (InStep.ofHost _).bind_same fun container ↦ ?_
  cases container with
  | some container => exact hC.someAdapterFor container
  | none =>
    refine (InStep.ofHost _).bind_same fun file ↦ ?_
    cases file with
    | none => exact .pure fun _ _ ↦ .none
    | some file =>
      by_cases hf : file = d.symbol
      · simp only [if_pos hf]
        exact .pure fun _ _ ↦ .none
      · simp only [if_neg hf]
        exact hC.someAdapterFor file

theorem climb (category : DeclarationCategory) (steps : Nat) :
    ∀ {d d' : Declaration}, C.arguments d d' →
      C.InStep C.options (Session.climb host category steps d)
        (Session.climb host category steps d') := by
  induction steps with
  | zero => exact fun _ ↦ .throw _
  | succ steps ih =>
    intro d d' h
    rw [Session.climb, Session.climb]
    refine (hC.parent h).bind fun T T' p p' hT hp ↦ ?_
    cases hp with
    | none => exact .pure hT .none
    | @some p p' hp =>
      have ha := hC.argument hT hp
      simp only [← hC.kind ha]
      by_cases hk : p.kind.category = category
      · simp only [if_pos hk]
        exact .pure hT (.some hp)
      · simp only [if_neg hk]
        exact ih ha T T' hT

theorem ancestorOf (category : DeclarationCategory) (h : C.arguments d d') :
    C.InStep C.options (Session.ancestorOf host category d) (Session.ancestorOf host category d') :=
  hC.climb category SymbolId.count h

theorem containingDeclaration (h : C.arguments d d') :
    C.InStep C.options (Session.containingDeclaration host d)
      (Session.containingDeclaration host d') := by
  rw [Session.containingDeclaration, Session.containingDeclaration, ← hC.symbol h]
  refine (hC.check h).bind_same fun _ ↦ (InStep.ofHost _).bind_same fun container ↦ ?_
  cases container with
  | none => exact .pure fun _ _ ↦ .none
  | some container =>
    refine (hC.adapterFor container).bind fun T T' c c' hT hc ↦ ?_
    rw [← hC.kind (hC.argument hT hc)]
    split
    · exact .pure hT (.some hc)
    · exact .pure hT .none

theorem containingFile (h : C.arguments d d') :
    C.InStep C.options (Session.containingFile host d) (Session.containingFile host d') := by
  rw [Session.containingFile, Session.containingFile, ← hC.symbol h]
  exact (hC.check h).bind_same fun _ ↦ (InStep.ofHost _).bind_same hC.adapterForOption

end Parents

section Members

theorem requireMembers (h : C.arguments d d') :
    C.InStep Same (Session.requireMembers host d) (Session.requireMembers host d') := by
  rw [Session.requireMembers, Session.requireMembers, ← hC.kind h, ← hC.symbol h]
  split
  · exact .pure fun _ _ ↦ rfl
  · exact .throw _

theorem currentMembers (h : C.arguments d d') :
    C.InStep C.lists (Session.currentMembers host d) (Session.currentMembers host d') := by
  rw [Session.currentMembers, Session.currentMembers, ← hC.symbol h]
  exact (InStep.ofHost _).bind_same fun _ ↦ (InStep.ofHost _).bind_same fun _ ↦ hC.adaptersFor _

theorem accessible (wanted : SymbolKind → Bool) (candidates : List SymbolId)
    (h : C.arguments d d') :
    C.InStep C.lists (Session.accessible host wanted d candidates)
      (Session.accessible host wanted d' candidates) := by
  rw [Session.accessible, Session.accessible, ← hC.symbol h]
  exact (InStep.ofHost _).bind_same fun _ ↦ hC.adaptersFor _

theorem properties (h : C.arguments d d') :
    C.InStep C.lists (Session.properties host d) (Session.properties host d') := by
  rw [Session.properties, Session.properties, ← hC.symbol h]
  exact (hC.check h).bind_same fun _ ↦ (hC.requireMembers h).bind_same fun _ ↦
    (InStep.ofHost _).bind_same fun _ ↦ hC.accessible _ _ h

theorem functions (h : C.arguments d d') :
    C.InStep C.lists (Session.functions host d) (Session.functions host d') := by
  rw [Session.functions, Session.functions, ← hC.symbol h]
  exact (hC.check h).bind_same fun _ ↦ (hC.requireMembers h).bind_same fun _ ↦
    (InStep.ofHost _).bind_same fun _ ↦ (InStep.ofHost _).bind_same fun _ ↦ hC.accessible _ _ h

end Members

section Annotations

theorem annotations (h : C.arguments d d') :
    C.InStep Same (Session.annotations host d) (Session.annotations host d') := by
  rw [Session.annotations, Session.annotations, ← hC.symbol h]
  exact (hC.check h).bind_same fun _ ↦ (InStep.ofHost _).bind_same fun _ ↦ InStep.ofFault _

theorem writtenFor (target : UseSiteTarget) (h : C.arguments d d') :
    C.InStep Same (Session.writtenFor host target d) (Session.writtenFor host target d') := by
  rw [Session.writtenFor, Session.writtenFor, ← hC.symbol h]
  exact (InStep.ofHost _).bind_same fun _ ↦ InStep.ofFault _

theorem owner (h : C.arguments d d') :
    C.InStep C.options (Session.owner host d) (Session.owner host d') := by
  rw [Session.owner, Session.owner, ← hC.kind h]
  split
  · exact hC.parent h
  · exact .pure fun _ _ ↦ .none

theorem ownersAbove (steps : Nat) :
    ∀ {d d' : Declaration}, C.arguments d d' →
      C.InStep C.lists (Session.ownersAbove host steps d) (Session.ownersAbove host steps d') := by
  induction steps with
  | zero => exact fun _ ↦ .throw _
  | succ steps ih =>
    intro d d' h
    rw [Session.ownersAbove, Session.ownersAbove]
    refine (hC.owner h).bind fun T T' p p' hT hp ↦ ?_
    cases hp with
    | none => exact .pure hT .nil
    | @some p p' hp =>
      have ha := hC.argument hT hp
      simp only [← hC.kind ha]
      split
      · exact (ih ha T T' hT).bind fun U U' l l' hU hon hl ↦ .pure hU (.cons (hon p p' hp) hl)
      · exact .pure hT .nil

theorem owners (h : C.arguments d d') :
    C.InStep C.lists (Session.owners host d) (Session.owners host d') := by
  rw [Session.owners, Session.owners, ← hC.symbol h]
  refine (hC.adapterFor _).bind fun T T' a a' hT ha ↦ ?_
  exact (hC.ownersAbove _ (hC.argument hT ha) T T' hT).bind fun U U' l l' hU hon hl ↦
    .pure hU (.cons (hon a a' ha) hl)

theorem writtenOnAll (target : UseSiteTarget) {l l' : List Declaration}
    (h : List.Forall₂ C.arguments l l') :
    C.InStep Same (Session.writtenOnAll host target l) (Session.writtenOnAll host target l') := by
  induction h with
  | nil => exact .pure fun _ _ ↦ rfl
  | cons h _ ih =>
    rw [Session.writtenOnAll, Session.writtenOnAll]
    exact (hC.writtenFor target h).bind_same fun _ ↦ ih.bind_same fun _ ↦ .pure fun _ _ ↦ rfl

theorem annotationsFor (target : UseSiteTarget) (h : C.arguments d d') :
    C.InStep Same (Session.annotationsFor host target d)
      (Session.annotationsFor host target d') := by
  rw [Session.annotationsFor, Session.annotationsFor, ← hC.kind h, ← hC.symbol h]
  refine (hC.check h).bind_same fun _ ↦ ?_
  split
  · refine (hC.owners h).bind fun T T' l l' hT hl ↦ ?_
    exact hC.writtenOnAll target (hl.imp fun _ _ ↦ hC.argument hT) T T' hT
  · refine (hC.adapterFor _).bind fun T T' a a' hT ha ↦ ?_
    exact hC.writtenOnAll target (.cons (hC.argument hT ha) .nil) T T' hT

theorem annotationsForOption (target : Option UseSiteTarget) (h : C.arguments d d') :
    C.InStep Same (Session.annotationsForOption host target d)
      (Session.annotationsForOption host target d') := by
  cases target with
  | none => exact hC.annotations h
  | some target => exact hC.annotationsFor target h

theorem fromProperty (target : UseSiteTarget) (h : C.arguments d d') :
    C.InStep Same (Session.fromProperty host target d) (Session.fromProperty host target d') := by
  rw [Session.fromProperty, Session.fromProperty]
  refine (hC.parent h).bind fun T T' p p' hT hp ↦ ?_
  cases hp with
  | none => exact .pure hT rfl
  | some hp =>
    have ha := hC.argument hT hp
    simp only [← hC.kind ha]
    split
    · exact hC.writtenFor target ha T T' hT
    · exact .pure hT rfl

theorem fromSetter (h : C.arguments d d') :
    C.InStep Same (Session.fromSetter host d) (Session.fromSetter host d') := by
  rw [Session.fromSetter, Session.fromSetter]
  refine (hC.parent h).bind fun T T' p p' hT hp ↦ ?_
  cases hp with
  | none => exact .pure hT rfl
  | some hp =>
    have ha := hC.argument hT hp
    simp only [← hC.kind ha]
    split
    · exact ((hC.writtenFor _ ha).bind_same fun _ ↦
        (hC.fromProperty _ ha).bind_same fun _ ↦ .pure fun _ _ ↦ rfl) T T' hT
    · exact .pure hT rfl

theorem useSiteAnnotations (h : C.arguments d d') :
    C.InStep Same (Session.useSiteAnnotations host d) (Session.useSiteAnnotations host d') := by
  rw [Session.useSiteAnnotations, Session.useSiteAnnotations, ← hC.kind h]
  refine (hC.check h).bind_same fun _ ↦ ?_
  split
  · exact hC.fromProperty _ h
  · exact hC.fromProperty _ h
  · exact hC.fromSetter h
  · exact .pure fun _ _ ↦ rfl

theorem resolvedAnnotations (h : C.arguments d d') :
    C.InStep Same (Session.resolvedAnnotations host d) (Session.resolvedAnnotations host d') := by
  rw [Session.resolvedAnnotations, Session.resolvedAnnotations]
  exact (hC.annotations h).bind_same fun _ ↦
    (hC.useSiteAnnotations h).bind_same fun _ ↦ .pure fun _ _ ↦ rfl

end Annotations

section Attributes

theorem modifiers (h : C.arguments d d') :
    C.InStep Same (Session.modifiers host d) (Session.modifiers host d') := by
  rw [Session.modifiers, Session.modifiers, ← hC.symbol h]
  exact (hC.check h).bind_same fun _ ↦ (InStep.ofHost _).bind_same fun _ ↦
    (InStep.ofHost _).bind_same fun _ ↦ .pure fun _ _ ↦ rfl

theorem docText (h : C.arguments d d') :
    C.InStep Same (Session.docText host d) (Session.docText host d') := by
  rw [Session.docText, Session.docText, ← hC.symbol h]
  exact (hC.check h).bind_same fun _ ↦ (InStep.ofHost _).bind_same fun _ ↦ .pure fun _ _ ↦ rfl

theorem declaredType (h : C.arguments d d') :
    C.InStep Same (Session.declaredType host d) (Session.declaredType host d') := by
  rw [Session.declaredType, Session.declaredType, ← hC.symbol h]
  exact (hC.check h).bind_same fun _ ↦ InStep.ofHost _

theorem classId (h : C.arguments d d') :
    C.InStep Same (Session.classId host d) (Session.classId host d') := by
  rw [Session.classId, Session.classId, ← hC.symbol h]
  exact (hC.check h).bind_same fun _ ↦ InStep.ofHost _

theorem render (type : TypeTerm) : C.InStep Same (Session.render type) (Session.render type) := by
  intro S S' hS
  refine .get_bind ?_
  rw [← hC.policy hS]
  exact InStep.ofFault _ S S' hS

theorem classifierDeclaration (type : TypeTerm) :
    C.InStep C.options (Session.classifierDeclaration host type)
      (Session.classifierDeclaration host type) :=
  hC.adapterForOption _

theorem classOf (id : ClassId) :
    C.InStep C.options (Session.classOf host id) (Session.classOf host id) :=
  (InStep.ofHost _).bind_same hC.adapterForOption

end Attributes

section Findings

theorem ensure (f : Finding) (h : C.arguments d d') :
    C.InStep Same (f.ensure host d) (f.ensure host d') := by
  cases f with
  | members => exact hC.requireMembers h
  | _ => exact .pure fun _ _ ↦ rfl

/-- What is looked up in the host is the same on both sides. -/
theorem lookUp (f : Finding) (h : C.arguments d d') :
    C.InStep (C.values f) (f.lookUp host d) (f.lookUp host d') := by
  cases f with
  | origin =>
    rw [Finding.lookUp, Finding.lookUp, ← hC.symbol h]
    exact InStep.ofOutcome _
  | location =>
    rw [Finding.lookUp, Finding.lookUp, ← hC.symbol h]
    exact InStep.ofOutcome _
  | typeText =>
    intro S S' hS
    refine .get_bind ?_
    rw [← hC.policy hS, ← hC.symbol h]
    exact InStep.ofOutcome _ S S' hS
  | members => exact hC.currentMembers h

end Findings

/-- **The questions that keep nothing are in step.** -/
theorem run_about {q : Query} (hq : q.isKept = false) (h : C.arguments d d') :
    C.InStep (fun S S' ↦ Answer.Alike (C.adapters S S')) ((q.about d).run host)
      ((q.about d').run host) := by
  cases q with
  | adapter s => exact (hC.adapterFor s).map fun _ _ _ _ h ↦ .declaration h
  | modifiers => exact (hC.modifiers h).map_plain fun _ ↦ rfl
  | docText => exact (hC.docText h).map_plain fun _ ↦ rfl
  | parent => exact (hC.parent h).map fun _ _ _ _ h ↦ .declaration? h
  | ancestorOf category => exact (hC.ancestorOf category h).map fun _ _ _ _ h ↦ .declaration? h
  | containingDeclaration => exact (hC.containingDeclaration h).map fun _ _ _ _ h ↦ .declaration? h
  | containingFile => exact (hC.containingFile h).map fun _ _ _ _ h ↦ .declaration? h
  | declaredType => exact (hC.declaredType h).map_plain fun _ ↦ rfl
  | render type => exact (hC.render type).map_plain fun _ ↦ rfl
  | classifierOf type => exact .pure fun _ _ ↦ .plain rfl
  | classifierDeclaration type =>
    exact (hC.classifierDeclaration type).map fun _ _ _ _ h ↦ .declaration? h
  | classId => exact (hC.classId h).map_plain fun _ ↦ rfl
  | classOf id => exact (hC.classOf id).map fun _ _ _ _ h ↦ .declaration? h
  | properties => exact (hC.properties h).map fun _ _ _ _ h ↦ .declarations h
  | functions => exact (hC.functions h).map fun _ _ _ _ h ↦ .declarations h
  | annotations => exact (hC.annotations h).map_plain fun _ ↦ rfl
  | annotationsFor target => exact (hC.annotationsFor target h).map_plain fun _ ↦ rfl
  | annotationsForOption target => exact (hC.annotationsForOption target h).map_plain fun _ ↦ rfl
  | useSiteAnnotations => exact (hC.useSiteAnnotations h).map_plain fun _ ↦ rfl
  | resolvedAnnotations => exact (hC.resolvedAnnotations h).map_plain fun _ ↦ rfl
  | origin => cases hq
  | location => cases hq
  | typeText => cases hq
  | members => cases hq
  | snapshot => cases hq

end Lawful

/-! ## All questions -/

namespace Keeping

variable (hC : C.Keeping host)
include hC

theorem find (f : Finding) (h : C.arguments d d') :
    C.InStep (C.values f) (f.find host d) (f.find host d') := by
  rw [Finding.find_eq, Finding.find_eq]
  exact (hC.check h).bind_same fun _ ↦ (hC.ensure f h).bind_same fun _ ↦ hC.fetch f h

theorem describe (below : List Snapshot) (h : C.arguments d d') :
    C.InStep Same (Session.describe host d below) (Session.describe host d' below) := by
  rw [Session.describe, Session.describe, ← hC.name h, ← hC.kind h]
  exact (hC.classId h).bind_same fun _ ↦ (hC.find .origin h).bind_same fun _ ↦
    (hC.find .location h).bind_same fun _ ↦ (hC.modifiers h).bind_same fun _ ↦
    (hC.find .typeText h).bind_same fun _ ↦ (hC.resolvedAnnotations h).bind_same fun _ ↦
    .pure fun _ _ ↦ rfl

theorem snapshotWithin (depth : Nat) :
    ∀ {d d' : Declaration}, C.arguments d d' →
      C.InStep Same (Session.snapshotWithin host depth d)
        (Session.snapshotWithin host depth d') := by
  induction depth with
  | zero => exact fun _ ↦ .throw _
  | succ depth ih =>
    intro d d' h
    rw [Session.snapshotWithin, Session.snapshotWithin, ← hC.kind h]
    split
    · refine InStep.bind (hC.find .members h) fun T T' l l' hT hl ↦ ?_
      have hl' : List.Forall₂ C.arguments l l' := List.Forall₂.imp (fun _ _ ↦ hC.argument hT) hl
      exact ((InStep.mapM hl' fun _ _ ↦ ih).bind_same fun below ↦ hC.describe below h) T T' hT
    · exact hC.describe [] h

theorem snapshot (h : C.arguments d d') :
    C.InStep Same (Session.snapshot host d) (Session.snapshot host d') :=
  hC.snapshotWithin SymbolId.count h

/-- **All questions are in step.** -/
theorem run_about (q : Query) (h : C.arguments d d') :
    C.InStep (fun S S' ↦ Answer.Alike (C.adapters S S')) ((q.about d).run host)
      ((q.about d').run host) := by
  cases hq : q.isKept with
  | false => exact hC.toLawful.run_about hq h
  | true =>
    cases q with
    | origin => exact InStep.map_plain (hC.find .origin h) fun _ ↦ rfl
    | location => exact InStep.map_plain (hC.find .location h) fun _ ↦ rfl
    | typeText => exact InStep.map_plain (hC.find .typeText h) fun _ ↦ rfl
    | members => exact InStep.map (hC.find .members h) fun _ _ _ _ h ↦ .declarations h
    | snapshot => exact (hC.snapshot h).map_plain fun _ ↦ rfl
    | _ => cases hq

end Keeping
end Correspondence
end SymbolView
