import SymbolView.Proofs.Type.Chars
import SymbolView.Proofs.Type.Expansion

/-!
# Tidy types

An alias that is written as its expansion adds a question mark of its own if it is marked nullable.
A type is tidy (`TypeTerm.isTidy`) if wherever that would happen in it the expansion takes the
question mark.  In function position tidy types expand plainly
(`TypeTerm.expandsPlainly_of_isTidy`).

An unadorned type (`TypeTerm.isUnadorned`) has no annotations, and no marks in its names.  So all
marks in its text are there because of how it is put together.
-/

set_option autoImplicit false

namespace SymbolView

variable {policy : SuffixPolicy}

/-- Whether the shape is written as a marker. -/
def TypeShape.isMarker : TypeShape → Bool
  | .unresolved _ _ => true
  | .dynamic => true
  | _ => false

theorem SuffixPolicy.appliesTo_eq_false_iff {shape : TypeShape} :
    policy.appliesTo shape = false ↔ policy = .skipMarkers ∧ shape.isMarker = true := by
  cases policy <;> cases shape <;> simp [appliesTo, TypeShape.isMarker]

/-! ## Unadorned types -/

mutual

/-- Whether a type and all that is in it have no annotations, and names without marks. -/
def TypeTerm.isUnadorned : TypeTerm → Bool
  | ⟨shape, _, annotations⟩ => annotations.isEmpty && shape.isUnadorned

/-- Whether what is in a shape is unadorned. -/
def TypeShape.isUnadorned : TypeShape → Bool
  | .classType _ classifier qualifiers expansion =>
    classifier.id.shortName.toList.all (· ∉ typeMarks) && areQualifiersUnadorned qualifiers
      && (match expansion with
        | some type => type.isUnadorned
        | none => true)
  | .unresolved _ _ => true
  | .captured projection => projection.isUnadorned
  | .notNull base => base.isUnadorned
  | .dynamic => true
  | .flexible lower upper => lower.isUnadorned && upper.isUnadorned
  | .integerLiteral _ => true
  | .intersection conjuncts => areTypesUnadorned conjuncts
  | .typeParameter _ name => name.toList.all (· ∉ typeMarks)

/-- Whether types are unadorned. -/
def areTypesUnadorned : List TypeTerm → Bool
  | [] => true
  | t :: rest => t.isUnadorned && areTypesUnadorned rest

/-- Whether the arguments of qualifiers are unadorned. -/
def areQualifiersUnadorned : List ClassQualifier → Bool
  | [] => true
  | ⟨_, arguments⟩ :: rest => areQualifiersUnadorned rest && areArgumentsUnadorned arguments

/-- Whether type arguments are unadorned. -/
def areArgumentsUnadorned : List TypeProjection → Bool
  | [] => true
  | p :: rest => p.isUnadorned && areArgumentsUnadorned rest

/-- Whether a type argument is unadorned. -/
def TypeProjection.isUnadorned : TypeProjection → Bool
  | .star => true
  | .typed _ type => type.isUnadorned

end

theorem TypeTerm.isUnadorned_iff {shape : TypeShape} {nullability : Nullability}
    {as : List Annotations.Application} :
    TypeTerm.isUnadorned ⟨shape, nullability, as⟩ = true ↔
      as = [] ∧ shape.isUnadorned = true := by
  rw [isUnadorned, Bool.and_eq_true, List.isEmpty_iff]

theorem TypeShape.isUnadorned_classType_iff {role : ClassRole} {classifier : ClassifierRef}
    {qualifiers : List ClassQualifier} {expansion : Option TypeTerm} :
    (TypeShape.classType role classifier qualifiers expansion).isUnadorned = true ↔
      (∀ c ∈ classifier.id.shortName.toList, c ∉ typeMarks) ∧
        areQualifiersUnadorned qualifiers = true ∧ ∀ e ∈ expansion, e.isUnadorned = true := by
  cases expansion <;> simp [isUnadorned, and_assoc]

theorem TypeTerm.annotations_expanded : ∀ t : TypeTerm, t.isUnadorned = true →
    t.expanded.annotations = []
  | ⟨.classType _ classifier _ (some e), _, as⟩, h => by
    obtain ⟨rfl, hshape⟩ := isUnadorned_iff.mp h
    rw [expanded]
    split
    · exact e.annotations_expanded ((TypeShape.isUnadorned_classType_iff.mp hshape).2.2 e rfl)
    · rfl
  | ⟨.classType _ _ _ none, _, _⟩, h | ⟨.notNull _, _, _⟩, h | ⟨.flexible _ _, _, _⟩, h
  | ⟨.intersection _, _, _⟩, h | ⟨.unresolved _ _, _, _⟩, h | ⟨.captured _, _, _⟩, h
  | ⟨.dynamic, _, _⟩, h | ⟨.integerLiteral _, _, _⟩, h | ⟨.typeParameter _ _, _, _⟩, h =>
    (isUnadorned_iff.mp h).1

/-! ## Tidy types -/

mutual

/-- Whether every alias that is written as its expansion and is marked nullable has an expansion
that takes the question mark. -/
def TypeTerm.isTidy (policy : SuffixPolicy) (inFunction : Bool) : TypeTerm → Bool
  | ⟨.classType role classifier qualifiers none, _, _⟩ =>
    classifier.isAlias || areQualifiersTidy policy (role == .functional) qualifiers
  | ⟨.classType role classifier qualifiers (some e), nullability, _⟩ =>
    if classifier.isAlias then
      !inFunction ||
        e.isTidy policy true && (nullability != .nullable || e.expanded.takesMark policy)
    else areQualifiersTidy policy (role == .functional) qualifiers
  | ⟨.captured projection, _, _⟩ => projection.isTidy policy false
  | ⟨.notNull base, _, _⟩ => base.isTidy policy inFunction
  | ⟨.flexible lower upper, _, _⟩ =>
    lower.isTidy policy inFunction && upper.isTidy policy inFunction
  | ⟨.intersection conjuncts, _, _⟩ => areTypesTidy policy inFunction conjuncts
  | _ => true

/-- Whether types are tidy. -/
def areTypesTidy (policy : SuffixPolicy) (inFunction : Bool) : List TypeTerm → Bool
  | [] => true
  | t :: rest => t.isTidy policy inFunction && areTypesTidy policy inFunction rest

/-- Whether the arguments of qualifiers are tidy. -/
def areQualifiersTidy (policy : SuffixPolicy) (inFunction : Bool) : List ClassQualifier → Bool
  | [] => true
  | ⟨_, arguments⟩ :: rest =>
    areQualifiersTidy policy inFunction rest && areArgumentsTidy policy inFunction arguments

/-- Whether type arguments are tidy. -/
def areArgumentsTidy (policy : SuffixPolicy) (inFunction : Bool) : List TypeProjection → Bool
  | [] => true
  | p :: rest => p.isTidy policy inFunction && areArgumentsTidy policy inFunction rest

/-- Whether a type argument is tidy. -/
def TypeProjection.isTidy (policy : SuffixPolicy) (inFunction : Bool) : TypeProjection → Bool
  | .star => true
  | .typed _ type => type.isTidy policy inFunction

end

section Tidiness

variable {classifier : ClassifierRef} (role : ClassRole) (qualifiers : List ClassQualifier)
  (nullability : Nullability) (as : List Annotations.Application)

theorem TypeTerm.isTidy_of_not_isAlias (h : ¬ classifier.isAlias = true)
    (expansion : Option TypeTerm) (f : Bool) :
    TypeTerm.isTidy policy f ⟨.classType role classifier qualifiers expansion, nullability, as⟩ =
      areQualifiersTidy policy (role == .functional) qualifiers := by
  cases expansion <;> simp [isTidy, h]

theorem TypeTerm.isTidy_of_no_expansion (h : classifier.isAlias = true) (f : Bool) :
    TypeTerm.isTidy policy f ⟨.classType role classifier qualifiers none, nullability, as⟩ =
      true := by
  simp [isTidy, h]

theorem TypeTerm.isTidy_alias_outside (h : classifier.isAlias = true) (e : TypeTerm) :
    TypeTerm.isTidy policy false ⟨.classType role classifier qualifiers (some e), nullability, as⟩ =
      true := by
  simp [isTidy, h]

theorem TypeTerm.isTidy_alias_inside (h : classifier.isAlias = true) (e : TypeTerm) :
    TypeTerm.isTidy policy true ⟨.classType role classifier qualifiers (some e), nullability, as⟩ =
      (e.isTidy policy true && (nullability != .nullable || e.expanded.takesMark policy)) := by
  simp [isTidy, h]

end Tidiness

mutual

/-- In a type that is tidy in function position no question mark is lost or doubled. -/
theorem TypeTerm.expandsPlainly_of_isTidy : ∀ t : TypeTerm, t.isTidy policy true = true →
    t.expandsPlainly policy = true
  | ⟨.classType role classifier qualifiers none, nullability, as⟩, _ => rfl
  | ⟨.classType role classifier qualifiers (some e), nullability, as⟩, h => by
    rw [TypeTerm.expandsPlainly]
    by_cases isAlias : classifier.isAlias = true
    · rw [TypeTerm.isTidy_alias_inside role qualifiers nullability as isAlias,
        Bool.and_eq_true] at h
      simp only [e.expandsPlainly_of_isTidy h.1, h.2, Bool.and_self, Bool.or_true]
    · simp [isAlias]
  | ⟨.notNull base, _, _⟩, h => base.expandsPlainly_of_isTidy h
  | ⟨.flexible lower upper, _, _⟩, h => by
    rw [TypeTerm.isTidy, Bool.and_eq_true] at h
    rw [TypeTerm.expandsPlainly, lower.expandsPlainly_of_isTidy h.1,
      upper.expandsPlainly_of_isTidy h.2]
    rfl
  | ⟨.intersection conjuncts, _, _⟩, h => expandPlainly_of_areTypesTidy conjuncts h
  | ⟨.unresolved _ _, _, _⟩, _ => rfl
  | ⟨.captured _, _, _⟩, _ => rfl
  | ⟨.dynamic, _, _⟩, _ => rfl
  | ⟨.integerLiteral _, _, _⟩, _ => rfl
  | ⟨.typeParameter _ _, _, _⟩, _ => rfl

theorem expandPlainly_of_areTypesTidy : ∀ ts : List TypeTerm,
    areTypesTidy policy true ts = true → expandPlainly policy ts = true
  | [], _ => rfl
  | t :: rest, h => by
    rw [areTypesTidy, Bool.and_eq_true] at h
    rw [expandPlainly, t.expandsPlainly_of_isTidy h.1, expandPlainly_of_areTypesTidy rest h.2]
    rfl

end

end SymbolView
