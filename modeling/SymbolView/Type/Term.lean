import SymbolView.Annotations.Value
import SymbolView.Key

/-!
# Types of a front end

A `TypeTerm` is a shape with a nullability marker and type annotations.  There are eleven shapes:
usual and functional class types, two kinds of unresolved types, captured types, definitely non-null
types, the dynamic type, flexible types, integer literal types, intersections and type parameters.

A class type may be nested, as in `Outer<A>.Inner<B>`: it has one qualifier per segment, outermost
first, each with arguments of its own.  If its classifier is a type alias it may carry the type the
alias expands to.

`TypeTerm.same` compares two types in everything, annotations by `Annotations.Application.same`.
-/

set_option autoImplicit false

namespace SymbolView

/-- Whether a type admits null. -/
inductive Nullability where
  | nonNullable
  | nullable
  | unknown
deriving DecidableEq

/-- How a type argument may vary. -/
inductive Variance where
  | invariant
  | contravariant
  | covariant
deriving DecidableEq

/-- The keyword of a variance; empty for invariant arguments. -/
def Variance.label : Variance → String
  | invariant => ""
  | contravariant => "in"
  | covariant => "out"

/-- What a class type names. -/
inductive ClassifierKind where
  | classLike
  | typeAlias
deriving DecidableEq

/-- The class or type alias that a class type names. -/
structure ClassifierRef where
  /-- Whether it is a class or a type alias. -/
  kind : ClassifierKind
  /-- Its name. -/
  id : ClassId
deriving DecidableEq

/-- Whether a class type is one of the function types. -/
inductive ClassRole where
  | usual
  | functional
deriving DecidableEq

/-- What could not be resolved. -/
inductive Unresolved where
  | classReference
  | type
deriving DecidableEq

mutual

/-- A type. -/
structure TypeTerm where
  /-- What kind of type it is. -/
  shape : TypeShape
  /-- Whether it admits null. -/
  nullability : Nullability
  /-- The annotations on the type itself. -/
  annotations : List Annotations.Application

/-- The shape of a type. -/
inductive TypeShape where
  /-- A class or type alias with arguments for each qualifier and, for an alias, its expansion. -/
  | classType (role : ClassRole) (classifier : ClassifierRef) (qualifiers : List ClassQualifier)
      (expansion : Option TypeTerm)
  /-- A type that could not be resolved. -/
  | unresolved (what : Unresolved) (message : String)
  /-- A type captured from an argument. -/
  | captured (projection : TypeProjection)
  /-- A type without its null. -/
  | notNull (base : TypeTerm)
  /-- The dynamic type. -/
  | dynamic
  /-- A type known up to two bounds. -/
  | flexible (lower upper : TypeTerm)
  /-- The type of an integer literal. -/
  | integerLiteral (value : Int64)
  /-- What is common to several types. -/
  | intersection (conjuncts : List TypeTerm)
  /-- A type parameter. -/
  | typeParameter (symbol : SymbolId) (name : String)

/-- One segment of a class type. -/
structure ClassQualifier where
  /-- The name of the segment. -/
  name : String
  /-- The arguments of the segment. -/
  arguments : List TypeProjection

/-- A type argument. -/
inductive TypeProjection where
  /-- Any type at all. -/
  | star
  /-- A type with a variance. -/
  | typed (variance : Variance) (type : TypeTerm)

end

/-- Whether the classifier is a type alias. -/
def ClassifierRef.isAlias (c : ClassifierRef) : Bool := c.kind == .typeAlias

namespace TypeTerm

/-- A type that is not nullable and has no annotations. -/
def plain (shape : TypeShape) : TypeTerm := ⟨shape, .nonNullable, []⟩

/-- A class type that is not nested. -/
def ofClass (role : ClassRole) (id : ClassId) (arguments : List TypeProjection) : TypeTerm :=
  plain (.classType role ⟨.classLike, id⟩ [⟨id.shortName, arguments⟩] none)

/-- A type alias and the type it expands to. -/
def ofAlias (id : ClassId) (expansion : TypeTerm) : TypeTerm :=
  plain (.classType .usual ⟨.typeAlias, id⟩ [⟨id.shortName, []⟩] (some expansion))

/-- Whether the type is marked nullable; a type of unknown nullability is not. -/
def isNullable (t : TypeTerm) : Bool := t.nullability == .nullable

/-- The classifier of a class type. -/
def classifier? (t : TypeTerm) : Option ClassifierRef :=
  match t.shape with
  | .classType _ classifier _ _ => some classifier
  | _ => none

/-- The type arguments of a class type, those of the innermost qualifier first. -/
def arguments (t : TypeTerm) : List TypeProjection :=
  match t.shape with
  | .classType _ _ qualifiers _ => qualifiers.reverse.flatMap (·.arguments)
  | _ => []

end TypeTerm

/-! ## Comparison -/

mutual

/-- Whether two types agree in everything. -/
def TypeTerm.same : TypeTerm → TypeTerm → Bool
  | ⟨shape, nullability, annotations⟩, other =>
    shape.same other.shape && nullability == other.nullability
      && Annotations.sameApplications annotations other.annotations

/-- Whether two shapes agree in everything. -/
def TypeShape.same : TypeShape → TypeShape → Bool
  | .classType role classifier qualifiers expansion, .classType role' classifier' qualifiers' e' =>
    role == role' && classifier == classifier' && sameQualifiers qualifiers qualifiers'
      && (match expansion, e' with
        | some t, some u => t.same u
        | none, none => true
        | _, _ => false)
  | .unresolved what message, .unresolved what' message' => what == what' && message == message'
  | .captured p, .captured q => p.same q
  | .notNull t, .notNull u => t.same u
  | .dynamic, .dynamic => true
  | .flexible lower upper, .flexible lower' upper' => lower.same lower' && upper.same upper'
  | .integerLiteral n, .integerLiteral m => n == m
  | .intersection ts, .intersection us => sameTypes ts us
  | .typeParameter symbol name, .typeParameter symbol' name' => symbol == symbol' && name == name'
  | _, _ => false

/-- Whether two lists of types agree in everything. -/
def sameTypes : List TypeTerm → List TypeTerm → Bool
  | [], [] => true
  | t :: ts, u :: us => t.same u && sameTypes ts us
  | _, _ => false

/-- Whether two lists of qualifiers agree in everything. -/
def sameQualifiers : List ClassQualifier → List ClassQualifier → Bool
  | [], [] => true
  | ⟨name, arguments⟩ :: qs, r :: rs =>
    name == r.name && sameProjections arguments r.arguments && sameQualifiers qs rs
  | _, _ => false

/-- Whether two lists of type arguments agree in everything. -/
def sameProjections : List TypeProjection → List TypeProjection → Bool
  | [], [] => true
  | p :: ps, q :: qs => p.same q && sameProjections ps qs
  | _, _ => false

/-- Whether two type arguments agree in everything. -/
def TypeProjection.same : TypeProjection → TypeProjection → Bool
  | .star, .star => true
  | .typed variance t, .typed variance' u => variance == variance' && t.same u
  | _, _ => false

end

end SymbolView
