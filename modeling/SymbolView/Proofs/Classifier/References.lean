import SymbolView.Proofs.Classifier.Resolution
import SymbolView.Type.Reference

/-!
# What a reference points at and what the type names

What a written reference to a type points at (`TypeTerm.referenceElement`) and what the type names
(`Host.classifierOf`) are found by two walks over the type.  Both follow the lower bounds of
flexible types to the same place, the core of the type (`TypeTerm.core`).  There the first walk
ends, maybe in a fault, while the second goes on below the mark of a type without its null.

`Host.Suits` says for each way in which the first walk can end what the type can name then.  A type
that names something has an element, so a caller who has its classifier can ask for its element
without a fault.
-/

set_option autoImplicit false

namespace SymbolView

variable {host : Host} {c : ClassifierRef} {t : TypeTerm}

/-! ## The core of a type -/

/-- Which of the shapes that are never written a shape is. -/
def TypeShape.unwritten? : TypeShape → Option UnwrittenShape
  | .captured _ => some .captured
  | .integerLiteral _ => some .integerLiteral
  | .intersection _ => some .intersection
  | _ => none

namespace TypeTerm

/-- The type at its lower bound, and that one at its own, until it is not flexible. -/
def core : TypeTerm → TypeTerm
  | ⟨.flexible lower _, _, _⟩ => lower.core
  | t => t

theorem shape_core_ne_flexible (t lower upper : TypeTerm) :
    t.core.shape ≠ .flexible lower upper := by
  fun_induction core t with
  | case1 _ _ _ _ ih => exact ih
  | case2 t rigid =>
    obtain ⟨shape, nullability, annotations⟩ := t
    rintro rfl
    exact rigid _ _ _ _ rfl

theorem referenceElement_core (t : TypeTerm) : t.core.referenceElement = t.referenceElement := by
  fun_induction core t with
  | case1 _ _ _ _ ih => exact ih
  | case2 => rfl

theorem Refers.of_core (h : t.core.Refers c) : t.Refers c := by
  fun_induction core t with
  | case1 _ _ _ _ ih => exact .flexible (ih h)
  | case2 => exact h

/-- **A reference is a fault exactly if the core of the type is never written.** -/
theorem referenceElement_eq_error_iff {f : Fault} : t.referenceElement = .error f ↔
    ∃ what, t.core.shape.unwritten? = some what ∧ f = .unexpectedElement what := by
  have rigid := t.shape_core_ne_flexible
  rw [← t.referenceElement_core]
  generalize t.core = core at *
  obtain ⟨shape, nullability, annotations⟩ := core
  have fault (what : UnwrittenShape) :
      (throw (.unexpectedElement what) : Except Fault (Option ReferenceElement)) = .error f ↔
        ∃ what', some what = some what' ∧ f = .unexpectedElement what' := by
    constructor
    · rintro ⟨⟩
      exact ⟨what, rfl, rfl⟩
    · rintro ⟨_, ⟨⟩, rfl⟩
      rfl
  cases shape with
  | flexible lower upper => exact absurd rfl (rigid lower upper)
  | captured projection => exact fault .captured
  | integerLiteral value => exact fault .integerLiteral
  | intersection conjuncts => exact fault .intersection
  | classType role classifier qualifiers expansion => cases role <;> exact ⟨nofun, nofun⟩
  | _ => exact ⟨nofun, nofun⟩

end TypeTerm

/-! ## What goes with an element -/

namespace Host

theorem classifierOf_core (host : Host) (t : TypeTerm) :
    host.classifierOf t.core = host.classifierOf t := by
  fun_induction TypeTerm.core t with
  | case1 _ _ _ _ ih => exact ih
  | case2 => rfl

/-- Whether a type refers to a class or type alias, and names either that or nothing. -/
def Resolves (host : Host) (t : TypeTerm) (c : ClassifierRef) : Prop :=
  t.Refers c ∧ (host.classifierOf t = none ∨
    ∃ s, host.lookupClass c.id = .ok (some s) ∧
      host.classifierOf t = some (c.kind.classifier s))

theorem resolves_of_refers (h : t.Refers c) : host.Resolves t c := by
  refine ⟨h, ?_⟩
  rw [classifierOf_of_refers h]
  split
  next s found => exact .inr ⟨s, found, rfl⟩
  next => exact .inl rfl

/-- Whether the classifier of a type suits what a reference to it points at. -/
def Suits (host : Host) (t : TypeTerm) : Except Fault (Option ReferenceElement) → Prop
  | .error _ => host.classifierOf t = none
  | .ok none => host.classifierOf t = none
  | .ok (some .dynamic) => host.classifierOf t = none
  | .ok (some (.parameter s _)) => host.classifierOf t = some (.typeParameter s)
  | .ok (some (.classifier name _)) => ∃ c, c.id.shortName = name ∧ host.Resolves t c
  | .ok (some .callable) => ∃ c, host.Resolves t c
  | .ok (some .definitelyNonNull) =>
    ∃ base, t.core.shape = .notNull base ∧ host.classifierOf t = host.classifierOf base

theorem suits_referenceElement (host : Host) (t : TypeTerm) : host.Suits t t.referenceElement := by
  have rigid := t.shape_core_ne_flexible
  have named := host.classifierOf_core t
  have refers {c : ClassifierRef} : t.core.Refers c → t.Refers c := .of_core
  rw [← t.referenceElement_core]
  -- From here on the core is taken apart, and all that is said of the type is about its core.
  generalize hcore : t.core = core at *
  obtain ⟨shape, nullability, annotations⟩ := core
  cases shape with
  | flexible lower upper => exact absurd rfl (rigid lower upper)
  | classType role c qualifiers expansion =>
    have resolves : host.Resolves t c := resolves_of_refers (refers .named)
    cases role with
    | usual => exact ⟨c, rfl, resolves⟩
    | functional => exact ⟨c, resolves⟩
  | notNull base => exact ⟨base, congrArg TypeTerm.shape hcore, named.symm⟩
  | _ => exact named.symm

theorem Suits.exists_element {e : Except Fault (Option ReferenceElement)} (suits : host.Suits t e)
    {named : Classifier} (h : host.classifierOf t = some named) :
    ∃ element, e = .ok (some element) := by
  match e, suits with
  | .error _, absent => cases h.symm.trans absent
  | .ok none, absent => cases h.symm.trans absent
  | .ok (some element), _ => exact ⟨element, rfl⟩

/-- **What a reference points at goes with what the type names.**  Take any host and any type.

* Asking for what a reference to the type points at is a fault exactly if the core of the type is
  captured, an integer literal or an intersection, and the fault says which.
* The classifier of the type suits the outcome.  There is none for a fault, an unresolved type and
  the dynamic type; for a type parameter it is that parameter; for a class or type alias, and for a
  function type, it is what the host finds under the name, if anything.
* If the type has a classifier, then there is something that a reference to it points at. -/
theorem classifierOf_referenceElement (host : Host) (t : TypeTerm) :
    (∀ f, t.referenceElement = .error f ↔
      ∃ what, t.core.shape.unwritten? = some what ∧ f = .unexpectedElement what) ∧
    host.Suits t t.referenceElement ∧
    ∀ named, host.classifierOf t = some named →
      ∃ element, t.referenceElement = .ok (some element) :=
  ⟨fun _ ↦ t.referenceElement_eq_error_iff, host.suits_referenceElement t,
    fun _ h ↦ (host.suits_referenceElement t).exists_element h⟩

/-- A class between two bounds, and a captured type between two bounds: the first has both a
classifier and an element, the second neither. -/
theorem classifierOf_referenceElement_sample :
    let host := SymbolTable.sampleScope.toHost
    let between (lower : TypeTerm) : TypeTerm :=
      .plain (.flexible (.plain (.flexible lower (.plain .dynamic))) (.plain (.captured .star)))
    let cart : ClassId := ⟨["shop"], ["Cart"], false⟩
    host.classifierOf (between (.ofClass .usual cart [])) = some (.classLike ⟨0⟩) ∧
      (∃ element, (between (.ofClass .usual cart [])).referenceElement = .ok (some element)) ∧
      (between (.plain (.captured .star))).referenceElement =
        .error (.unexpectedElement .captured) ∧
      host.classifierOf (between (.plain (.captured .star))) = none := by
  intro host between cart
  obtain ⟨-, -, element⟩ :=
    classifierOf_referenceElement host (between (.ofClass .usual cart []))
  obtain ⟨fault, absent, -⟩ :=
    classifierOf_referenceElement host (between (.plain (.captured .star)))
  have named : host.classifierOf (between (.ofClass .usual cart [])) = some (.classLike ⟨0⟩) := rfl
  exact ⟨named, element _ named, (fault _).mpr ⟨.captured, rfl, rfl⟩, absent⟩

end Host
end SymbolView
