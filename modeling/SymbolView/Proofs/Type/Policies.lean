import SymbolView.Proofs.Type.Tidy

/-!
# The two policies for question marks

The policies differ in the markers, which stand for types that are unresolved or dynamic: after a
nullable marker `uniform` writes a question mark and `skipMarkers` does not.  So under `skipMarkers`
a type is written like the type with bare markers (`TypeTerm.bared`) under `uniform`
(`TypeTerm.text_skipMarkers_eq`).

The policy is handed down to every part of a type, so there is a statement for each kind of part.
Markers are bared even where nothing is written, as in the arguments of an alias, which does no
harm.
-/

set_option autoImplicit false

namespace SymbolView

mutual

/-- The type with all markers in it, wherever they stand, marked as not nullable. -/
def TypeTerm.bared : TypeTerm → TypeTerm
  | ⟨shape, nullability, annotations⟩ =>
    ⟨shape.bared, if shape.isMarker then .nonNullable else nullability, annotations⟩

/-- The shape with all markers in it bared. -/
def TypeShape.bared : TypeShape → TypeShape
  | .classType role classifier qualifiers none =>
    .classType role classifier (baredQualifiers qualifiers) none
  | .classType role classifier qualifiers (some expansion) =>
    .classType role classifier (baredQualifiers qualifiers) (some expansion.bared)
  | .unresolved what message => .unresolved what message
  | .captured projection => .captured projection.bared
  | .notNull base => .notNull base.bared
  | .dynamic => .dynamic
  | .flexible lower upper => .flexible lower.bared upper.bared
  | .integerLiteral value => .integerLiteral value
  | .intersection conjuncts => .intersection (baredTypes conjuncts)
  | .typeParameter symbol name => .typeParameter symbol name

/-- Types with all markers bared. -/
def baredTypes : List TypeTerm → List TypeTerm
  | [] => []
  | t :: rest => t.bared :: baredTypes rest

/-- Qualifiers with all markers bared. -/
def baredQualifiers : List ClassQualifier → List ClassQualifier
  | [] => []
  | ⟨name, arguments⟩ :: rest => ⟨name, baredArguments arguments⟩ :: baredQualifiers rest

/-- Type arguments with all markers bared. -/
def baredArguments : List TypeProjection → List TypeProjection
  | [] => []
  | p :: rest => p.bared :: baredArguments rest

/-- A type argument with all markers bared. -/
def TypeProjection.bared : TypeProjection → TypeProjection
  | .star => .star
  | .typed variance type => .typed variance type.bared

end

/-- The question mark after a type.  Under `uniform` it does not depend on the shape. -/
theorem TypeText.suffix_skipMarkers (nullability : Nullability) (shape other : TypeShape) :
    suffix .skipMarkers nullability shape =
      suffix .uniform (if shape.isMarker then .nonNullable else nullability) other := by
  cases nullability <;> cases shape <;> rfl

mutual

theorem TypeTerm.text_bared (f : Bool) : ∀ t : TypeTerm,
    t.text .skipMarkers f = t.bared.text .uniform f
  | ⟨shape, nullability, annotations⟩ => by
    rw [TypeTerm.bared, TypeTerm.text, TypeTerm.text, shape.text_bared f,
      TypeText.suffix_skipMarkers nullability shape shape.bared]

theorem TypeShape.text_bared (f : Bool) : ∀ s : TypeShape,
    s.text .skipMarkers f = s.bared.text .uniform f
  | .classType role classifier qualifiers none => by
    have arguments := qualifierTexts_bared (role == .functional) qualifiers
    rw [TypeShape.bared, TypeShape.text.eq_def, TypeShape.text.eq_def]
    simp only [arguments]
  | .classType role classifier qualifiers (some expansion) => by
    have arguments := qualifierTexts_bared (role == .functional) qualifiers
    have inside := expansion.text_bared true
    rw [TypeShape.bared, TypeShape.text.eq_def, TypeShape.text.eq_def]
    cases f <;> simp only [arguments, inside]
  | .unresolved _ _ => rfl
  | .captured projection => by
    rw [TypeShape.bared, TypeShape.text, TypeShape.text, projection.text_bared false]
  | .notNull base => by
    rw [TypeShape.bared, TypeShape.text, TypeShape.text, base.text_bared f]
  | .dynamic => rfl
  | .flexible lower upper => by
    rw [TypeShape.bared, TypeShape.text, TypeShape.text, lower.text_bared f,
      upper.text_bared f]
  | .integerLiteral _ => rfl
  | .intersection conjuncts => by
    rw [TypeShape.bared, TypeShape.text, TypeShape.text, typeTexts_bared f conjuncts]
  | .typeParameter _ _ => rfl

theorem typeTexts_bared (f : Bool) : ∀ ts : List TypeTerm,
    typeTexts .skipMarkers f ts = typeTexts .uniform f (baredTypes ts)
  | [] => rfl
  | t :: rest => by
    rw [baredTypes, typeTexts, typeTexts, t.text_bared f, typeTexts_bared f rest]

theorem qualifierTexts_bared (f : Bool) : ∀ qs : List ClassQualifier,
    qualifierTexts .skipMarkers f qs = qualifierTexts .uniform f (baredQualifiers qs)
  | [] => rfl
  | ⟨_, arguments⟩ :: rest => by
    rw [baredQualifiers, qualifierTexts, qualifierTexts, qualifierTexts_bared f rest,
      argumentTexts_bared f arguments]

theorem argumentTexts_bared (f : Bool) : ∀ ps : List TypeProjection,
    argumentTexts .skipMarkers f ps = argumentTexts .uniform f (baredArguments ps)
  | [] => rfl
  | p :: rest => by
    rw [baredArguments, argumentTexts, argumentTexts, p.text_bared f,
      argumentTexts_bared f rest]

theorem TypeProjection.text_bared (f : Bool) : ∀ p : TypeProjection,
    p.text .skipMarkers f = p.bared.text .uniform f
  | .star => rfl
  | .typed _ type => by
    rw [TypeProjection.bared, TypeProjection.text, TypeProjection.text, type.text_bared f]

end

/-- **The policies differ in the markers only.**  A type is written without question marks after
markers like the type with bare markers is written with all question marks, in function position and
outside; and if it cannot be written, the fault is the same. -/
theorem TypeTerm.text_skipMarkers_eq (t : TypeTerm) (f : Bool) :
    t.text .skipMarkers f = t.bared.text .uniform f :=
  t.text_bared f

end SymbolView
