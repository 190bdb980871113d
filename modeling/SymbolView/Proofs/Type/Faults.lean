import Mathlib.Logic.Relation
import SymbolView.Proofs.Annotations.Faults
import SymbolView.Proofs.Type.Expansion

/-!
# Types that cannot be written

A type cannot be written if one of the annotations that are written with it cannot be.  Not all
annotations are written: what an alias expands to is passed over where the alias is written by name.
`TypeTerm.Visits` says step by step which types are written when a type is, and `TypeTerm.visited`
lists them in the order of writing.  `TypeTerm.text_eq_error_iff` says which types cannot be written
and which fault they end with.
-/

set_option autoImplicit false

namespace SymbolView

open Relation

/-! ## Which types are written -/

/-- Whether a type is written directly as a part of a shape.  With the shape and with the type goes
whether it is in function position. -/
inductive TypeShape.Writes : Bool → TypeShape → Bool → TypeTerm → Prop
  | argument {f role classifier qualifiers expansion qualifier variance t}
      (isClass : classifier.isAlias = false) (mem : qualifier ∈ qualifiers)
      (argument : .typed variance t ∈ qualifier.arguments) :
      Writes f (.classType role classifier qualifiers expansion) (role == .functional) t
  | expansion {role classifier qualifiers t} (isAlias : classifier.isAlias = true) :
      Writes true (.classType role classifier qualifiers (some t)) true t
  | captured {f variance t} : Writes f (.captured (.typed variance t)) false t
  | notNull {f t} : Writes f (.notNull t) f t
  | lower {f t other} : Writes f (.flexible t other) f t
  | upper {f t other} : Writes f (.flexible other t) f t
  | conjunct {f t conjuncts} (mem : t ∈ conjuncts) : Writes f (.intersection conjuncts) f t

/-- Whether a type is written directly as a part of another. -/
def TypeTerm.Writes (p q : Bool × TypeTerm) : Prop := p.2.shape.Writes p.1 q.1 q.2

/-- Whether a type is written when another is, which is in function position or not. -/
def TypeTerm.Visits (f : Bool) (t u : TypeTerm) : Prop :=
  ∃ g, ReflTransGen TypeTerm.Writes (f, t) (g, u)

mutual

/-- The types that are written when a type is, each before those in it, from left to right. -/
def TypeTerm.visited (f : Bool) : TypeTerm → List TypeTerm
  | ⟨shape, nullability, annotations⟩ => ⟨shape, nullability, annotations⟩ :: shape.visited f

/-- The types that are written when a shape is, from left to right. -/
def TypeShape.visited (f : Bool) : TypeShape → List TypeTerm
  | .classType role classifier qualifiers none =>
    if classifier.isAlias then [] else visitedQualifiers (role == .functional) qualifiers
  | .classType role classifier qualifiers (some expansion) =>
    if classifier.isAlias then if f then expansion.visited true else []
    else visitedQualifiers (role == .functional) qualifiers
  | .captured projection => projection.visited false
  | .notNull base => base.visited f
  | .flexible lower upper => lower.visited f ++ upper.visited f
  | .intersection conjuncts => visitedTypes f conjuncts
  | _ => []

/-- The types that are written when some types are. -/
def visitedTypes (f : Bool) : List TypeTerm → List TypeTerm
  | [] => []
  | t :: rest => t.visited f ++ visitedTypes f rest

/-- The types that are written when the arguments of qualifiers are, those of the last first. -/
def visitedQualifiers (f : Bool) : List ClassQualifier → List TypeTerm
  | [] => []
  | ⟨_, arguments⟩ :: rest => visitedQualifiers f rest ++ visitedArguments f arguments

/-- The types that are written when type arguments are. -/
def visitedArguments (f : Bool) : List TypeProjection → List TypeTerm
  | [] => []
  | p :: rest => p.visited f ++ visitedArguments f rest

/-- The types that are written when a type argument is. -/
def TypeProjection.visited (f : Bool) : TypeProjection → List TypeTerm
  | .star => []
  | .typed _ type => type.visited f

end

/-- What is of an unsupported form in the annotations on some types, in order. -/
def unwritableOn (types : List TypeTerm) : List String :=
  types.flatMap fun t ↦ t.annotations.flatMap (·.unwritable)

/-- What cannot be written when a type is written, from left to right. -/
def TypeTerm.unwritable (f : Bool) (t : TypeTerm) : List String := unwritableOn (t.visited f)

/-! ## What is written in a part is written in the whole -/

section Visits

variable {f g : Bool} {t u s : TypeTerm}

theorem visitedTypes_eq_flatMap (f : Bool) (ts : List TypeTerm) :
    visitedTypes f ts = ts.flatMap (TypeTerm.visited f) := by
  induction ts with
  | nil => rfl
  | cons t rest ih => rw [visitedTypes, ih, List.flatMap_cons]

theorem visitedArguments_eq_flatMap (f : Bool) (ps : List TypeProjection) :
    visitedArguments f ps = ps.flatMap (TypeProjection.visited f) := by
  induction ps with
  | nil => rfl
  | cons p rest ih => rw [visitedArguments, ih, List.flatMap_cons]

theorem visitedQualifiers_eq_flatMap (f : Bool) (qs : List ClassQualifier) :
    visitedQualifiers f qs = qs.reverse.flatMap fun q ↦ visitedArguments f q.arguments := by
  induction qs with
  | nil => rfl
  | cons q rest ih =>
    obtain ⟨name, arguments⟩ := q
    rw [visitedQualifiers, ih, List.reverse_cons, List.flatMap_append, List.flatMap_singleton]

theorem TypeShape.visited_of_not_isAlias {classifier : ClassifierRef}
    (h : classifier.isAlias = false) (role : ClassRole) (qualifiers : List ClassQualifier)
    (expansion : Option TypeTerm) (f : Bool) :
    (TypeShape.classType role classifier qualifiers expansion).visited f =
      visitedQualifiers (role == .functional) qualifiers := by
  cases expansion <;> simp [visited, h]

theorem TypeShape.visited_alias {classifier : ClassifierRef} (h : classifier.isAlias = true)
    (role : ClassRole) (qualifiers : List ClassQualifier) (expansion : Option TypeTerm) (f : Bool) :
    (TypeShape.classType role classifier qualifiers expansion).visited f =
      if f then expansion.elim [] (TypeTerm.visited true) else [] := by
  cases expansion <;> cases f <;> simp [visited, h]

theorem TypeTerm.visited_eq (f : Bool) : ∀ t : TypeTerm, t.visited f = t :: t.shape.visited f
  | ⟨_, _, _⟩ => rfl

/-- What is written when a part is, is written when the whole is. -/
theorem TypeShape.Writes.mem_visited {shape : TypeShape} (h : shape.Writes f g s)
    (hu : u ∈ s.visited g) : u ∈ shape.visited f := by
  cases h with
  | argument isClass mem argument =>
    rw [TypeShape.visited_of_not_isAlias isClass, visitedQualifiers_eq_flatMap]
    refine List.mem_flatMap.mpr ⟨_, List.mem_reverse.mpr mem, ?_⟩
    rw [visitedArguments_eq_flatMap]
    exact List.mem_flatMap.mpr ⟨_, argument, hu⟩
  | expansion isAlias =>
    rw [TypeShape.visited_alias isAlias]
    exact hu
  | captured => exact hu
  | notNull => exact hu
  | lower => exact List.mem_append_left _ hu
  | upper => exact List.mem_append_right _ hu
  | conjunct mem =>
    rw [TypeShape.visited, visitedTypes_eq_flatMap]
    exact List.mem_flatMap.mpr ⟨_, mem, hu⟩

theorem TypeTerm.Visits.refl (f : Bool) (t : TypeTerm) : t.Visits f t := ⟨f, .refl⟩

theorem TypeTerm.Visits.head (step : t.shape.Writes f g s) (hu : s.Visits g u) : t.Visits f u :=
  hu.imp fun _ steps ↦ .head (show TypeTerm.Writes (f, t) (g, s) from step) steps

theorem TypeTerm.Visits.mem_visited (h : t.Visits f u) : u ∈ t.visited f := by
  obtain ⟨g, steps⟩ := h
  suffices whole : ∀ p : Bool × TypeTerm, ReflTransGen TypeTerm.Writes p (g, u) →
      u ∈ p.2.visited p.1 from whole (f, t) steps
  intro p steps
  induction steps using ReflTransGen.head_induction_on with
  | refl =>
    rw [TypeTerm.visited_eq]
    exact .head _
  | head step _ ih =>
    rw [TypeTerm.visited_eq]
    exact .tail _ (step.mem_visited ih)

mutual

theorem TypeTerm.visits_of_mem (f : Bool) : ∀ t : TypeTerm, u ∈ t.visited f → t.Visits f u
  | ⟨shape, nullability, annotations⟩, h => by
    rw [TypeTerm.visited, List.mem_cons] at h
    rcases h with rfl | h
    · exact .refl f _
    · obtain ⟨g, s, step, visits⟩ := shape.visits_of_mem f h
      exact .head step visits

/-- What is written when a shape is, is written when one of its parts is. -/
theorem TypeShape.visits_of_mem (f : Bool) : ∀ shape : TypeShape, u ∈ shape.visited f →
    ∃ g s, shape.Writes f g s ∧ s.Visits g u
  | .classType role classifier qualifiers expansion, h => by
    cases isAlias : classifier.isAlias with
    | false =>
      rw [TypeShape.visited_of_not_isAlias isAlias] at h
      obtain ⟨q, hq, v, s, hs, visits⟩ := visits_of_mem_qualifiers _ qualifiers h
      exact ⟨_, s, .argument isAlias hq hs, visits⟩
    | true =>
      rw [TypeShape.visited_alias isAlias] at h
      cases f with
      | false => cases h
      | true =>
        cases expansion with
        | none => cases h
        | some e => exact ⟨true, e, .expansion isAlias, e.visits_of_mem true h⟩
  | .captured projection, h => by
    obtain ⟨v, s, rfl, visits⟩ := projection.visits_of_mem false h
    exact ⟨false, s, .captured, visits⟩
  | .notNull base, h => ⟨f, base, .notNull, base.visits_of_mem f h⟩
  | .flexible lower upper, h => by
    rcases List.mem_append.mp h with h | h
    · exact ⟨f, lower, .lower, lower.visits_of_mem f h⟩
    · exact ⟨f, upper, .upper, upper.visits_of_mem f h⟩
  | .intersection conjuncts, h => by
    obtain ⟨s, hs, visits⟩ := visits_of_mem_types f conjuncts h
    exact ⟨f, s, .conjunct hs, visits⟩

theorem visits_of_mem_types (f : Bool) : ∀ ts : List TypeTerm, u ∈ visitedTypes f ts →
    ∃ t ∈ ts, t.Visits f u
  | t :: rest, h => by
    rw [visitedTypes, List.mem_append] at h
    rcases h with h | h
    · exact ⟨t, .head _, t.visits_of_mem f h⟩
    · obtain ⟨s, hs, visits⟩ := visits_of_mem_types f rest h
      exact ⟨s, .tail _ hs, visits⟩

theorem visits_of_mem_qualifiers (f : Bool) : ∀ qs : List ClassQualifier,
    u ∈ visitedQualifiers f qs → ∃ q ∈ qs, ∃ v t, .typed v t ∈ q.arguments ∧ t.Visits f u
  | ⟨name, arguments⟩ :: rest, h => by
    rw [visitedQualifiers, List.mem_append] at h
    rcases h with h | h
    · obtain ⟨q, hq, visits⟩ := visits_of_mem_qualifiers f rest h
      exact ⟨q, .tail _ hq, visits⟩
    · exact ⟨⟨name, arguments⟩, .head _, visits_of_mem_arguments f arguments h⟩

theorem visits_of_mem_arguments (f : Bool) : ∀ ps : List TypeProjection,
    u ∈ visitedArguments f ps → ∃ v t, .typed v t ∈ ps ∧ t.Visits f u
  | p :: rest, h => by
    rw [visitedArguments, List.mem_append] at h
    rcases h with h | h
    · obtain ⟨v, t, rfl, visits⟩ := p.visits_of_mem f h
      exact ⟨v, t, .head _, visits⟩
    · obtain ⟨v, t, ht, visits⟩ := visits_of_mem_arguments f rest h
      exact ⟨v, t, .tail _ ht, visits⟩

theorem TypeProjection.visits_of_mem (f : Bool) : ∀ p : TypeProjection, u ∈ p.visited f →
    ∃ v t, p = .typed v t ∧ t.Visits f u
  | .typed v t, h => ⟨v, t, rfl, t.visits_of_mem f h⟩

end

theorem TypeTerm.mem_visited_iff : u ∈ t.visited f ↔ t.Visits f u :=
  ⟨visits_of_mem f t, Visits.mem_visited⟩

/-- **A value cannot be written if it is in an annotation on a type that is written.** -/
theorem TypeTerm.mem_unwritable_iff {what : String} : what ∈ t.unwritable f ↔
    ∃ u, t.Visits f u ∧ ∃ a ∈ u.annotations, a.Holds what := by
  simp only [unwritable, unwritableOn, List.mem_flatMap, mem_visited_iff,
    Annotations.Application.mem_unwritable_iff]

end Visits

/-! ## Writing -/

section Writing

variable {policy : SuffixPolicy}

theorem unwritableOn_append (ts us : List TypeTerm) :
    unwritableOn (ts ++ us) = unwritableOn ts ++ unwritableOn us :=
  List.flatMap_append

theorem TypeText.stopsAt_annotations (applications : List Annotations.Application) :
    StopsAt (applications.flatMap (·.unwritable)) (annotations applications) := by
  induction applications with
  | nil => exact .ok ""
  | cons a rest ih =>
    rw [annotations, List.flatMap_cons]
    exact a.stopsAt.bind fun _ ↦ ih.map _

mutual

theorem TypeTerm.stopsAt (f : Bool) : ∀ t : TypeTerm, StopsAt (t.unwritable f) (t.text policy f)
  | ⟨shape, nullability, annotations⟩ => by
    rw [TypeTerm.unwritable, TypeTerm.visited, TypeTerm.text]
    exact (TypeText.stopsAt_annotations annotations).bind fun _ ↦ (shape.stopsAt f).map _

theorem TypeShape.stopsAt (f : Bool) : ∀ s : TypeShape,
    StopsAt (unwritableOn (s.visited f)) (s.text policy f)
  | .classType role classifier qualifiers expansion => by
    cases isAlias : classifier.isAlias with
    | false =>
      have isClass : ¬ classifier.isAlias = true := by rw [isAlias]; exact Bool.false_ne_true
      rw [TypeShape.visited_of_not_isAlias isAlias, TypeShape.text_of_not_isAlias isClass]
      exact (stopsAt_qualifierTexts (role == .functional) qualifiers).map _
    | true =>
      rw [TypeShape.visited_alias isAlias]
      cases f with
      | false =>
        rw [TypeShape.text_alias_outside isAlias]
        exact .ok _
      | true =>
        cases expansion with
        | none =>
          rw [TypeShape.text_of_no_expansion isAlias]
          exact .ok _
        | some e =>
          rw [TypeShape.text_alias_inside isAlias]
          exact e.stopsAt true
  | .unresolved _ _ => .ok _
  | .captured projection => by
    rw [TypeShape.visited, TypeShape.text]
    exact (projection.stopsAt false).map _
  | .notNull base => by
    rw [TypeShape.visited, TypeShape.text]
    exact (base.stopsAt f).map _
  | .dynamic => .ok _
  | .flexible lower upper => by
    rw [TypeShape.visited, TypeShape.text, unwritableOn_append]
    exact (lower.stopsAt f).bind fun _ ↦ (upper.stopsAt f).map _
  | .integerLiteral _ => .ok _
  | .intersection conjuncts => by
    rw [TypeShape.visited, TypeShape.text]
    exact (stopsAt_typeTexts f conjuncts).map _
  | .typeParameter _ _ => .ok _

theorem stopsAt_typeTexts (f : Bool) : ∀ ts : List TypeTerm,
    StopsAt (unwritableOn (visitedTypes f ts)) (typeTexts policy f ts)
  | [] => .ok []
  | t :: rest => by
    rw [visitedTypes, typeTexts, unwritableOn_append]
    exact (t.stopsAt f).bind fun _ ↦ (stopsAt_typeTexts f rest).map _

theorem stopsAt_qualifierTexts (f : Bool) : ∀ qs : List ClassQualifier,
    StopsAt (unwritableOn (visitedQualifiers f qs)) (qualifierTexts policy f qs)
  | [] => .ok []
  | ⟨_, arguments⟩ :: rest => by
    rw [visitedQualifiers, qualifierTexts, unwritableOn_append]
    exact (stopsAt_qualifierTexts f rest).bind fun _ ↦ (stopsAt_argumentTexts f arguments).map _

theorem stopsAt_argumentTexts (f : Bool) : ∀ ps : List TypeProjection,
    StopsAt (unwritableOn (visitedArguments f ps)) (argumentTexts policy f ps)
  | [] => .ok []
  | p :: rest => by
    rw [visitedArguments, argumentTexts, unwritableOn_append]
    exact (p.stopsAt f).bind fun _ ↦ (stopsAt_argumentTexts f rest).map _

theorem TypeProjection.stopsAt (f : Bool) : ∀ p : TypeProjection,
    StopsAt (unwritableOn (p.visited f)) (p.text policy f)
  | .star => .ok _
  | .typed _ type => by
    rw [TypeProjection.visited, TypeProjection.text]
    exact (type.stopsAt f).map _

end

/-- A type in which nothing else is written ends with a fault only for its own annotations. -/
theorem TypeTerm.exists_error_iff_of_visited (policy : SuffixPolicy) {f : Bool}
    {shape : TypeShape} (h : shape.visited f = []) (nullability : Nullability)
    (as : List Annotations.Application) :
    (∃ fault, TypeTerm.text policy f ⟨shape, nullability, as⟩ = .error fault) ↔
      ∃ a ∈ as, ∃ what, a.Holds what := by
  have own : TypeTerm.unwritable f ⟨shape, nullability, as⟩ = as.flatMap (·.unwritable) := by
    rw [unwritable, visited, h, unwritableOn, List.flatMap_singleton]
  rw [(TypeTerm.stopsAt f _).exists_error_iff, own]
  simp only [List.mem_flatMap, Annotations.Application.mem_unwritable_iff]
  exact ⟨fun ⟨what, a, ha, holds⟩ ↦ ⟨a, ha, what, holds⟩,
    fun ⟨a, ha, what, holds⟩ ↦ ⟨what, a, ha, holds⟩⟩

/-- **What cannot be written, and why.**  A type cannot be written exactly if a value of an
unsupported form is in an annotation on a type that is written with it.  The fault names the first
of these values from left to right.  The policy does not matter, and of an alias that is written by
name only the annotations on the alias itself do. -/
theorem TypeTerm.text_eq_error_iff (policy : SuffixPolicy) :
    (∀ f (t : TypeTerm), (∃ fault, t.text policy f = .error fault) ↔
      ∃ u, t.Visits f u ∧ ∃ a ∈ u.annotations, ∃ what, a.Holds what) ∧
    (∀ f (t : TypeTerm) fault, t.text policy f = .error fault ↔
      ∃ what, fault = .unsupportedValue what ∧ (t.unwritable f).head? = some what) ∧
    (∀ f (t : TypeTerm) what, what ∈ t.unwritable f ↔
      ∃ u, t.Visits f u ∧ ∃ a ∈ u.annotations, a.Holds what) ∧
    (∀ policy' f (t : TypeTerm) fault,
      t.text policy' f = .error fault ↔ t.text policy f = .error fault) ∧
    (∀ role id qualifiers expansion nullability as,
      (∃ fault, TypeTerm.text policy false
        ⟨.classType role ⟨.typeAlias, id⟩ qualifiers expansion, nullability, as⟩ = .error fault) ↔
        ∃ a ∈ as, ∃ what, a.Holds what) ∧
    (∀ f role id qualifiers nullability as,
      (∃ fault, TypeTerm.text policy f
        ⟨.classType role ⟨.typeAlias, id⟩ qualifiers none, nullability, as⟩ = .error fault) ↔
        ∃ a ∈ as, ∃ what, a.Holds what) := by
  refine ⟨fun f t ↦ ?_, fun f t ↦ t.stopsAt f, fun _ _ _ ↦ mem_unwritable_iff,
    fun policy' f t fault ↦ ?_, ?outside, ?unknown⟩
  · rw [(t.stopsAt f).exists_error_iff]
    simp only [mem_unwritable_iff]
    exact ⟨fun ⟨what, u, hu, a, ha, holds⟩ ↦ ⟨u, hu, a, ha, what, holds⟩,
      fun ⟨u, hu, a, ha, what, holds⟩ ↦ ⟨what, u, hu, a, ha, holds⟩⟩
  · exact (t.stopsAt f fault).trans (t.stopsAt f fault).symm
  case outside =>
    intro role id qualifiers expansion nullability as
    have isAlias : (⟨.typeAlias, id⟩ : ClassifierRef).isAlias = true := rfl
    have passed := TypeShape.visited_alias isAlias role qualifiers expansion false
    exact exists_error_iff_of_visited policy passed nullability as
  case unknown =>
    intro f role id qualifiers nullability as
    have isAlias : (⟨.typeAlias, id⟩ : ClassifierRef).isAlias = true := rfl
    have passed := TypeShape.visited_alias isAlias role qualifiers none f
    refine exists_error_iff_of_visited policy (passed.trans ?_) nullability as
    cases f <;> rfl

/-- The arguments of the inner class are written first, so they are at fault. -/
example :
    let marked (what : String) : TypeTerm :=
      ⟨.dynamic, .nonNullable, [⟨.ofDotted "a" "Mark", none, [⟨"of", .array [.unsupported what]⟩]⟩]⟩
    let qualifiers : List ClassQualifier :=
      [⟨"Outer", [.typed .invariant (marked "outer")]⟩,
        ⟨"Inner", [.star, .typed .covariant (marked "inner")]⟩]
    TypeTerm.text .uniform false
        (.plain (.classType .usual ⟨.classLike, .ofDotted "a" "Outer.Inner"⟩ qualifiers none)) =
      .error (.unsupportedValue "inner") :=
  rfl

end Writing
end SymbolView
