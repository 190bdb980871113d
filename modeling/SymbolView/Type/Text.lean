import SymbolView.Type.Term
import SymbolView.Annotations.Text

/-!
# Types as text

`TypeTerm.text` is the canonical text of a type: the annotations in brackets, the body, and a
question mark if the type is nullable.  Generators compare these texts, so every branch is fixed.

A type alias is written by name, in brackets.  Only in function position, that is among the
arguments of a functional type and in what is reached from there without passing another class type
or a captured type, it is written as its expansion, if that is known.
-/

set_option autoImplicit false

namespace SymbolView

/-- Where the question mark of nullable types is written. -/
inductive SuffixPolicy where
  /-- After every nullable type. -/
  | uniform
  /-- After every nullable type that is neither unresolved nor dynamic. -/
  | skipMarkers
deriving DecidableEq

/-- Whether a nullable type of this shape gets a question mark. -/
def SuffixPolicy.appliesTo : SuffixPolicy → TypeShape → Bool
  | skipMarkers, .unresolved _ _ => false
  | skipMarkers, .dynamic => false
  | _, _ => true

/-- What is written for a type that could not be resolved. -/
def unresolvedMarker : String := "<ERROR TYPE>"

/-- What is written for the dynamic type. -/
def dynamicMarker : String := "<dynamic type>"

namespace TypeText

/-- The annotations of a type, each in brackets and followed by a blank. -/
def annotations : List Annotations.Application → Except Fault String
  | [] => pure ""
  | a :: rest => do
    let text ← a.text
    return "[" ++ text ++ "] " ++ (← annotations rest)

/-- The question mark of a nullable type. -/
def suffix (policy : SuffixPolicy) (nullability : Nullability) (shape : TypeShape) : String :=
  if nullability == .nullable && policy.appliesTo shape then "?" else ""

/-- A type argument, given the text of its type. -/
def withVariance : Variance → String → String
  | .invariant, text => text
  | v, text => v.label ++ " " ++ text

/-- Type arguments in angle brackets; nothing if there are none. -/
def bracketed : List String → String
  | [] => ""
  | arguments => "<" ++ ", ".intercalate arguments ++ ">"

/-- A type alias by name. -/
def aliasName (id : ClassId) : String := "[typealias " ++ id.shortName ++ "]"

end TypeText

variable (policy : SuffixPolicy)

mutual

/-- The text of a type.  `inFunction` says whether it is in function position. -/
def TypeTerm.text (inFunction : Bool) : TypeTerm → Except Fault String
  | ⟨shape, nullability, annotations⟩ => do
    let front ← TypeText.annotations annotations
    let body ← shape.text inFunction
    return front ++ body ++ TypeText.suffix policy nullability shape

/-- The text of a shape. -/
def TypeShape.text (inFunction : Bool) : TypeShape → Except Fault String
  | .classType role classifier qualifiers expansion =>
    if classifier.isAlias then
      match expansion, inFunction with
      | some type, true => type.text true
      | _, _ => pure (TypeText.aliasName classifier.id)
    else do
      let arguments ← qualifierTexts (role == .functional) qualifiers
      return classifier.id.shortName ++ TypeText.bracketed arguments
  | .unresolved _ _ => pure unresolvedMarker
  | .captured projection => do
    let text ← projection.text false
    return "CapturedType(" ++ text ++ ")"
  | .notNull base => do
    let text ← base.text inFunction
    return text ++ " & Any"
  | .dynamic => pure dynamicMarker
  | .flexible lower upper => do
    let low ← lower.text inFunction
    let high ← upper.text inFunction
    return "(" ++ low ++ ".." ++ high ++ ")"
  | .integerLiteral value => pure ("ILT: " ++ value.toInt.repr)
  | .intersection conjuncts => do
    let texts ← typeTexts inFunction conjuncts
    return "(" ++ " & ".intercalate texts ++ ")"
  | .typeParameter _ name => pure name

/-- The texts of types. -/
def typeTexts (inFunction : Bool) : List TypeTerm → Except Fault (List String)
  | [] => pure []
  | t :: rest => do
    let text ← t.text inFunction
    return text :: (← typeTexts inFunction rest)

/-- The texts of the arguments of qualifiers, those of the last qualifier first. -/
def qualifierTexts (inFunction : Bool) : List ClassQualifier → Except Fault (List String)
  | [] => pure []
  | ⟨_, arguments⟩ :: rest => do
    let inner ← qualifierTexts inFunction rest
    return inner ++ (← argumentTexts inFunction arguments)

/-- The texts of type arguments. -/
def argumentTexts (inFunction : Bool) : List TypeProjection → Except Fault (List String)
  | [] => pure []
  | p :: rest => do
    let text ← p.text inFunction
    return text :: (← argumentTexts inFunction rest)

/-- The text of a type argument. -/
def TypeProjection.text (inFunction : Bool) : TypeProjection → Except Fault String
  | .star => pure "*"
  | .typed variance type => do
    let text ← type.text inFunction
    return TypeText.withVariance variance text

end

end SymbolView
