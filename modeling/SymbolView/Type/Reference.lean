import SymbolView.Type.Term
import SymbolView.Failure

/-!
# References to types

`TypeTerm.referenceElement` says what a written type reference points at.  Captured types, integer
literal types and intersections are never written; asking for their element is a fault.

`TypeArgument.projection` turns an argument that a generator gives into one the front end knows.
-/

set_option autoImplicit false

namespace SymbolView

/-- What a written type reference points at. -/
inductive ReferenceElement where
  /-- A function type. -/
  | callable
  /-- The dynamic type. -/
  | dynamic
  /-- A class or type alias; `qualifier` is the place of the innermost qualifier. -/
  | classifier (name : String) (qualifier : Nat)
  /-- A type parameter. -/
  | parameter (symbol : SymbolId) (name : String)
  /-- A type without its null. -/
  | definitelyNonNull
deriving DecidableEq

mutual

/-- What a reference to the type points at; nothing if the type could not be resolved.  A flexible
type is taken at its lower bound. -/
def TypeTerm.referenceElement : TypeTerm → Except Fault (Option ReferenceElement)
  | ⟨shape, _, _⟩ => shape.referenceElement

/-- What a reference to a type of this shape points at. -/
def TypeShape.referenceElement : TypeShape → Except Fault (Option ReferenceElement)
  | .classType .functional _ _ _ => pure (some .callable)
  | .classType .usual classifier qualifiers _ =>
    pure (some (.classifier classifier.id.shortName (qualifiers.length - 1)))
  | .unresolved _ _ => pure none
  | .captured _ => throw (.unexpectedElement .captured)
  | .notNull _ => pure (some .definitelyNonNull)
  | .dynamic => pure (some .dynamic)
  | .flexible lower _ => lower.referenceElement
  | .integerLiteral _ => throw (.unexpectedElement .integerLiteral)
  | .intersection _ => throw (.unexpectedElement .intersection)
  | .typeParameter symbol name => pure (some (.parameter symbol name))

end

/-- A type argument as a generator gives it; its type may not have been resolved. -/
inductive TypeArgument where
  /-- Any type at all. -/
  | star (type : Option TypeTerm)
  /-- A type with a variance. -/
  | typed (variance : Variance) (type : Option TypeTerm)

/-- The argument as the front end knows it: without a type it is a star. -/
def TypeArgument.projection : TypeArgument → TypeProjection
  | typed variance (some type) => .typed variance type
  | _ => .star

end SymbolView
