import SymbolView.Proofs.Classifier.LocalClasses
import SymbolView.Proofs.Session.Operations

/-!
# Two ways to the declaration of a class

A session finds the declaration of a class by its name (`Session.classOf`), or as the classifier of
a type that refers to the class (`Session.classifierDeclaration`).  Both look the name up in the
same way, and differ in what they do if the lookup fails: the first passes the failure on, and for
the second there is no classifier then.

What a type refers to does not depend on all of it.  `TypeTerm.Refers` says to which class or type
alias it refers, past the wrappers around it, and `TypeTerm.spine` is the type without anything that
does not matter for that.
-/

set_option autoImplicit false

namespace SymbolView

open SessionM

/-! ## What a type refers to -/

/-- Whether a type is a class type of a class or type alias, or becomes one if it is taken without
its marks and at its lower bound. -/
inductive TypeTerm.Refers (c : ClassifierRef) : TypeTerm → Prop
  | named {role : ClassRole} {qualifiers : List ClassQualifier} {expansion : Option TypeTerm}
      {nullability : Nullability} {annotations : List Annotations.Application} :
      Refers c ⟨.classType role c qualifiers expansion, nullability, annotations⟩
  | notNull {base : TypeTerm} {nullability : Nullability}
      {annotations : List Annotations.Application} (h : base.Refers c) :
      Refers c ⟨.notNull base, nullability, annotations⟩
  | flexible {lower upper : TypeTerm} {nullability : Nullability}
      {annotations : List Annotations.Application} (h : lower.Refers c) :
      Refers c ⟨.flexible lower upper, nullability, annotations⟩

mutual

/-- The type without nullability and annotations, qualifiers and expansions, and upper bounds,
anywhere in it. -/
def TypeTerm.spine : TypeTerm → TypeTerm
  | ⟨shape, _, _⟩ => .plain shape.spine

/-- The shape without them. -/
def TypeShape.spine : TypeShape → TypeShape
  | .classType role classifier _ _ => .classType role classifier [] none
  | .unresolved what message => .unresolved what message
  | .captured projection => .captured projection.spine
  | .notNull base => .notNull base.spine
  | .dynamic => .dynamic
  | .flexible lower _ => .flexible lower.spine (.plain .dynamic)
  | .integerLiteral value => .integerLiteral value
  | .intersection conjuncts => .intersection (spineTypes conjuncts)
  | .typeParameter symbol name => .typeParameter symbol name

/-- Types without them. -/
def spineTypes : List TypeTerm → List TypeTerm
  | [] => []
  | t :: rest => t.spine :: spineTypes rest

/-- A type argument without them. -/
def TypeProjection.spine : TypeProjection → TypeProjection
  | .star => .star
  | .typed variance type => .typed variance type.spine

end

namespace Host

variable {host : Host} {c : ClassifierRef} {t : TypeTerm} {found : Option SymbolId} {e : HostError}
  {id : ClassId} {s : SymbolId}

/-- A name that is not local is looked up in the index of the host. -/
theorem lookupClass_eq_ok_some_iff (indexed : id.isLocal = false) :
    host.lookupClass id = .ok (some s) ↔ host.classOf id = .ok s := by
  rw [lookupClass, indexed, if_neg Bool.false_ne_true, lookupIndexed]
  cases host.classOf id with
  | ok t => rw [Except.ok.injEq, Except.ok.injEq, Option.some_inj]
  | error e => cases e <;> simp

/-- The classifier of a type is that of its class type. -/
theorem classifierOf_of_refers (h : t.Refers c) :
    host.classifierOf t = match host.lookupClass c.id with
      | .ok (some s) => some (c.kind.classifier s)
      | _ => none := by
  induction h with
  | named => rfl
  | notNull _ ih => rw [classifierOf, classifierOfShape, ih]
  | flexible _ ih => rw [classifierOf, classifierOfShape, ih]

theorem classifierOf_of_lookupClass (h : t.Refers c) (lookUp : host.lookupClass c.id = .ok found) :
    host.classifierOf t = found.map c.kind.classifier := by
  rw [classifierOf_of_refers h, lookUp]
  cases found <;> rfl

/-- Where the lookup fails there is no classifier. -/
theorem classifierOf_of_lookupClass_error (h : t.Refers c)
    (lookUp : host.lookupClass c.id = .error e) : host.classifierOf t = none := by
  rw [classifierOf_of_refers h, lookUp]

theorem symbol_classifier (kind : ClassifierKind) (s : SymbolId) :
    (kind.classifier s).symbol = s := by
  cases kind <;> rfl

mutual

/-- What is left out does not matter for the classifier. -/
theorem classifierOf_spine (host : Host) :
    ∀ t : TypeTerm, host.classifierOf t.spine = host.classifierOf t
  | ⟨shape, _, _⟩ => by
    rw [TypeTerm.spine, TypeTerm.plain, classifierOf, classifierOf, classifierOfShape_spine]

theorem classifierOfShape_spine (host : Host) :
    ∀ shape : TypeShape, host.classifierOfShape shape.spine = host.classifierOfShape shape
  | .classType _ _ _ _ => rfl
  | .unresolved _ _ => rfl
  | .captured _ => rfl
  | .notNull base => by
    rw [TypeShape.spine, classifierOfShape, classifierOfShape, classifierOf_spine]
  | .dynamic => rfl
  | .flexible lower _ => by
    rw [TypeShape.spine, classifierOfShape, classifierOfShape, classifierOf_spine]
  | .integerLiteral _ => rfl
  | .intersection _ => rfl
  | .typeParameter _ _ => rfl

end

end Host

/-! ## What a session answers -/

namespace Session

variable {host : Host} {S T : Session} {id : ClassId} {found : Option SymbolId} {e : HostError}

theorem ask_classOf (S : Session) (h : host.lookupClass id = .ok found) :
    S.ask host (.classOf id) = (Answer.declaration? <$> adapterForOption host found).run.run S := by
  rw [ask, Query.run, classOf, h]
  rfl

theorem ask_classOf_of_error (S : Session) (h : host.lookupClass id = .error e) :
    S.ask host (.classOf id) = (.error (.ofHost e), S) := by
  rw [ask, Query.run, classOf, h]
  rfl

/-- **The two ways agree, unless the lookup fails.**  Take any host and any session, and a type that
refers to a class or type alias past any number of wrappers.

* If the lookup of the name does not fail, the question for the declaration of the classifier and
  the question for the class end in the same way and leave the session in the same state.  The
  classifier of the type is the symbol that is looked up, if there is one, as a class or a type
  alias, whichever the type says.
* If the lookup fails, only the question for the class does, with what the host says.  There is no
  classifier then, and no declaration of it.

Two types that have a spine in common are not told apart. -/
theorem ask_classifierDeclaration (host : Host) (S : Session) {c : ClassifierRef} {t : TypeTerm}
    (refers : t.Refers c) :
    (∀ found, host.lookupClass c.id = .ok found →
      S.ask host (.classifierDeclaration t) = S.ask host (.classOf c.id) ∧
        S.ask host (.classifierOf t) = (.ok (.classifier? (found.map c.kind.classifier)), S)) ∧
    (∀ e, host.lookupClass c.id = .error e →
      S.ask host (.classOf c.id) = (.error (.ofHost e), S) ∧
        S.ask host (.classifierOf t) = (.ok (.classifier? none), S) ∧
        S.ask host (.classifierDeclaration t) = (.ok (.declaration? none), S)) ∧
    ∀ u u' : TypeTerm, u.spine = u'.spine →
      S.ask host (.classifierOf u) = S.ask host (.classifierOf u') ∧
        S.ask host (.classifierDeclaration u) = S.ask host (.classifierDeclaration u') := by
  have answered (t : TypeTerm) :
      S.ask host (.classifierOf t) = (.ok (.classifier? (host.classifierOf t)), S) := rfl
  have declared (t : TypeTerm) : S.ask host (.classifierDeclaration t) =
      (Answer.declaration? <$> adapterForOption host
        ((host.classifierOf t).map (·.symbol))).run.run S := rfl
  refine ⟨fun found lookUp ↦ ?_, fun e lookUp ↦ ?_, fun u u' same ↦ ?_⟩
  · have classifier := Host.classifierOf_of_lookupClass refers lookUp
    have symbol : (host.classifierOf t).map (·.symbol) = found := by
      rw [classifier, Option.map_map]
      exact (Option.map_congr fun s _ ↦ Host.symbol_classifier c.kind s).trans Option.map_id'
    rw [declared, symbol, ask_classOf S lookUp, answered, classifier]
    exact ⟨rfl, rfl⟩
  · have classifier := Host.classifierOf_of_lookupClass_error refers lookUp
    rw [ask_classOf_of_error S lookUp, answered, declared, classifier]
    exact ⟨rfl, rfl, rfl⟩
  · have classifier : host.classifierOf u = host.classifierOf u' := by
      rw [← host.classifierOf_spine, same, host.classifierOf_spine]
    rw [answered, answered, declared, declared, classifier]
    exact ⟨rfl, rfl⟩

/-- A flexible type whose lower bound is a function type without its null. -/
def sampleReference (arguments : List TypeProjection) (upper : TypeTerm) : TypeTerm :=
  .plain (.flexible
    (.plain (.notNull (.ofClass .functional ⟨["shop"], ["Cart"], false⟩ arguments))) upper)

/-- The type refers to the class below it, whatever its arguments and its upper bound are. -/
theorem ask_classifierDeclaration_sample :
    (start ⟨0⟩ {}).ask SymbolTable.sampleScope.toHost
          (.classifierDeclaration (sampleReference [] (.plain .dynamic))) =
        (start ⟨0⟩ {}).ask SymbolTable.sampleScope.toHost
          (.classOf ⟨["shop"], ["Cart"], false⟩) ∧
      (start ⟨0⟩ {}).ask SymbolTable.sampleScope.toHost
          (.classifierOf (sampleReference [.star] (.plain (.intersection [])))) =
        (.ok (.classifier? (some (.classLike ⟨0⟩))), start ⟨0⟩ {}) := by
  have refers : (sampleReference [] (.plain .dynamic)).Refers
      ⟨.classLike, ⟨["shop"], ["Cart"], false⟩⟩ := .flexible (.notNull .named)
  obtain ⟨agree, -, same⟩ :=
    ask_classifierDeclaration SymbolTable.sampleScope.toHost (start ⟨0⟩ {}) refers
  obtain ⟨declaration, classifier⟩ := agree (some ⟨0⟩) rfl
  have alike := same (sampleReference [.star] (.plain (.intersection [])))
    (sampleReference [] (.plain .dynamic)) rfl
  exact ⟨declaration, alike.1.trans classifier⟩

end Session
end SymbolView
