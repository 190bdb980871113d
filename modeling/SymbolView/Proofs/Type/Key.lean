import SymbolView.Type.Text

/-!
# What the text of a type shows

A `TypeKey` is a type without what its text does not show.  Of a class only the short name is left,
and its arguments in one row; of an alias only the short name; a class without arguments is the same
as a type parameter of that name, and whether a class is functional, what a failure was about or
whether a type that is not marked nullable is known not to be is lost.

The text of a type without annotations is that of its key (`TypeTerm.text_of_isBare`), unless an
alias is written as its expansion somewhere.
-/

set_option autoImplicit false

namespace SymbolView

mutual

/-- What the text of a type shows. -/
structure TypeKey where
  /-- What it shows of the shape. -/
  shape : ShapeKey
  /-- Whether the type is marked nullable. -/
  nullable : Bool

/-- What the text of a type shows of its shape. -/
inductive ShapeKey where
  /-- A class or a type parameter, with the arguments of all qualifiers. -/
  | named (name : String) (arguments : List ArgumentKey)
  /-- A type alias. -/
  | typeAlias (name : String)
  /-- A type that could not be resolved. -/
  | unresolved
  /-- A type captured from an argument. -/
  | captured (argument : ArgumentKey)
  /-- A type without its null. -/
  | notNull (base : TypeKey)
  /-- The dynamic type. -/
  | dynamic
  /-- A type known up to two bounds. -/
  | flexible (lower upper : TypeKey)
  /-- The type of an integer literal. -/
  | integerLiteral (value : Int64)
  /-- What is common to several types. -/
  | intersection (conjuncts : List TypeKey)

/-- What the text of a type argument shows. -/
inductive ArgumentKey where
  /-- Any type at all. -/
  | star
  /-- A type with a variance. -/
  | typed (variance : Variance) (type : TypeKey)

end

/-! ## The key of a type -/

mutual

/-- The key of a type. -/
def TypeTerm.key : TypeTerm → TypeKey
  | ⟨shape, nullability, _⟩ => ⟨shape.key, nullability == .nullable⟩

/-- The key of a shape. -/
def TypeShape.key : TypeShape → ShapeKey
  | .classType _ classifier qualifiers _ =>
    if classifier.isAlias then .typeAlias classifier.id.shortName
    else .named classifier.id.shortName (qualifierKeys qualifiers)
  | .unresolved _ _ => .unresolved
  | .captured projection => .captured projection.key
  | .notNull base => .notNull base.key
  | .dynamic => .dynamic
  | .flexible lower upper => .flexible lower.key upper.key
  | .integerLiteral value => .integerLiteral value
  | .intersection conjuncts => .intersection (typeKeys conjuncts)
  | .typeParameter _ name => .named name []

/-- The keys of types. -/
def typeKeys : List TypeTerm → List TypeKey
  | [] => []
  | t :: rest => t.key :: typeKeys rest

/-- The keys of the arguments of qualifiers, those of the last qualifier first. -/
def qualifierKeys : List ClassQualifier → List ArgumentKey
  | [] => []
  | ⟨_, arguments⟩ :: rest => qualifierKeys rest ++ argumentKeys arguments

/-- The keys of type arguments. -/
def argumentKeys : List TypeProjection → List ArgumentKey
  | [] => []
  | p :: rest => p.key :: argumentKeys rest

/-- The key of a type argument. -/
def TypeProjection.key : TypeProjection → ArgumentKey
  | .star => .star
  | .typed variance type => .typed variance type.key

end

theorem argumentKeys_eq_map (ps : List TypeProjection) : argumentKeys ps = ps.map (·.key) := by
  induction ps with
  | nil => rfl
  | cons p rest ih => rw [argumentKeys, ih, List.map_cons]

/-- The arguments in a key are all arguments of the class type, in the order of
`TypeTerm.arguments`. -/
theorem qualifierKeys_eq (qs : List ClassQualifier) :
    qualifierKeys qs = (qs.reverse.flatMap (·.arguments)).map (·.key) := by
  induction qs with
  | nil => rfl
  | cons q rest ih =>
    obtain ⟨name, arguments⟩ := q
    rw [qualifierKeys, ih, argumentKeys_eq_map]
    simp

/-! ## The text of a key -/

mutual

/-- The text of a type, as far as its key tells. -/
def TypeKey.text : TypeKey → String
  | ⟨shape, nullable⟩ => shape.text ++ if nullable then "?" else ""

/-- The text of a shape. -/
def ShapeKey.text : ShapeKey → String
  | .named name arguments => name ++ TypeText.bracketed (argumentKeyTexts arguments)
  | .typeAlias name => "[typealias " ++ name ++ "]"
  | .unresolved => unresolvedMarker
  | .captured argument => "CapturedType(" ++ argument.text ++ ")"
  | .notNull base => base.text ++ " & Any"
  | .dynamic => dynamicMarker
  | .flexible lower upper => "(" ++ lower.text ++ ".." ++ upper.text ++ ")"
  | .integerLiteral value => "ILT: " ++ value.toInt.repr
  | .intersection conjuncts => "(" ++ " & ".intercalate (typeKeyTexts conjuncts) ++ ")"

/-- The texts of types. -/
def typeKeyTexts : List TypeKey → List String
  | [] => []
  | t :: rest => t.text :: typeKeyTexts rest

/-- The texts of type arguments. -/
def argumentKeyTexts : List ArgumentKey → List String
  | [] => []
  | a :: rest => a.text :: argumentKeyTexts rest

/-- The text of a type argument. -/
def ArgumentKey.text : ArgumentKey → String
  | .star => "*"
  | .typed variance type => TypeText.withVariance variance type.text

end

theorem typeKeyTexts_eq_map (ts : List TypeKey) : typeKeyTexts ts = ts.map (·.text) := by
  induction ts with
  | nil => rfl
  | cons t rest ih => rw [typeKeyTexts, ih, List.map_cons]

theorem argumentKeyTexts_eq_map (as : List ArgumentKey) :
    argumentKeyTexts as = as.map (·.text) := by
  induction as with
  | nil => rfl
  | cons a rest ih => rw [argumentKeyTexts, ih, List.map_cons]

/-! ## Types whose text is that of their key -/

mutual

/-- Whether a type that is written in function position or outside of it has no annotations, and no
alias with an expansion in function position, in any part that is written. -/
def TypeTerm.isBare (inFunction : Bool) : TypeTerm → Bool
  | ⟨shape, _, annotations⟩ => annotations.isEmpty && shape.isBare inFunction

/-- Whether the parts of a shape are bare. -/
def TypeShape.isBare (inFunction : Bool) : TypeShape → Bool
  | .classType role classifier qualifiers expansion =>
    if classifier.isAlias then !inFunction || expansion.isNone
    else areQualifiersBare (role == .functional) qualifiers
  | .unresolved _ _ => true
  | .captured projection => projection.isBare false
  | .notNull base => base.isBare inFunction
  | .dynamic => true
  | .flexible lower upper => lower.isBare inFunction && upper.isBare inFunction
  | .integerLiteral _ => true
  | .intersection conjuncts => areTypesBare inFunction conjuncts
  | .typeParameter _ _ => true

/-- Whether types are bare. -/
def areTypesBare (inFunction : Bool) : List TypeTerm → Bool
  | [] => true
  | t :: rest => t.isBare inFunction && areTypesBare inFunction rest

/-- Whether the arguments of qualifiers are bare. -/
def areQualifiersBare (inFunction : Bool) : List ClassQualifier → Bool
  | [] => true
  | ⟨_, arguments⟩ :: rest =>
    areQualifiersBare inFunction rest && areArgumentsBare inFunction arguments

/-- Whether type arguments are bare. -/
def areArgumentsBare (inFunction : Bool) : List TypeProjection → Bool
  | [] => true
  | p :: rest => p.isBare inFunction && areArgumentsBare inFunction rest

/-- Whether a type argument is bare. -/
def TypeProjection.isBare (inFunction : Bool) : TypeProjection → Bool
  | .star => true
  | .typed _ type => type.isBare inFunction

end

theorem suffix_uniform (nullability : Nullability) (shape : TypeShape) :
    TypeText.suffix .uniform nullability shape = if nullability == .nullable then "?" else "" := by
  cases shape <;> simp [TypeText.suffix, SuffixPolicy.appliesTo]

mutual

/-- The text of a bare type is that of its key. -/
theorem TypeTerm.text_of_isBare (f : Bool) : ∀ t : TypeTerm, t.isBare f = true →
    t.text .uniform f = .ok t.key.text
  | ⟨shape, nullability, annotations⟩, h => by
    rw [TypeTerm.isBare, Bool.and_eq_true, List.isEmpty_iff] at h
    obtain ⟨rfl, h⟩ := h
    rw [TypeTerm.text, shape.text_of_isBare f h, TypeTerm.key, TypeKey.text,
      ← suffix_uniform nullability shape]
    show Except.ok ("" ++ shape.key.text ++ _) = _
    rw [String.empty_append]

/-- The text of a shape with bare parts is that of its key. -/
theorem TypeShape.text_of_isBare (f : Bool) : ∀ s : TypeShape, s.isBare f = true →
    s.text .uniform f = .ok s.key.text
  | .classType role classifier qualifiers expansion, h => by
    rw [TypeShape.isBare] at h
    rw [TypeShape.key]
    split at h
    next isAlias =>
      rw [if_pos isAlias]
      have unexpanded : f = false ∨ expansion = none := by simpa using h
      unfold TypeShape.text
      obtain rfl | rfl := unexpanded
      · rw [if_pos isAlias]
        cases expansion <;> rfl
      · rw [if_pos isAlias]
        rfl
    next isClass =>
      rw [if_neg isClass, TypeShape.text.eq_def]
      simp only [if_neg isClass, qualifierTexts_of_areBare (role == .functional) qualifiers h]
      rfl
  | .unresolved _ _, _ => rfl
  | .captured projection, h => by
    rw [TypeShape.text, projection.text_of_isBare false h]
    rfl
  | .notNull base, h => by
    rw [TypeShape.text, base.text_of_isBare f h]
    rfl
  | .dynamic, _ => rfl
  | .flexible lower upper, h => by
    rw [TypeShape.isBare, Bool.and_eq_true] at h
    rw [TypeShape.text, lower.text_of_isBare f h.1, upper.text_of_isBare f h.2]
    rfl
  | .integerLiteral _, _ => rfl
  | .intersection conjuncts, h => by
    rw [TypeShape.text, typeTexts_of_areBare f conjuncts h]
    rfl
  | .typeParameter _ name, _ => by
    rw [TypeShape.text, TypeShape.key, ShapeKey.text]
    exact congrArg Except.ok (String.append_empty).symm

theorem typeTexts_of_areBare (f : Bool) : ∀ ts : List TypeTerm, areTypesBare f ts = true →
    typeTexts .uniform f ts = .ok (typeKeyTexts (typeKeys ts))
  | [], _ => rfl
  | t :: rest, h => by
    rw [areTypesBare, Bool.and_eq_true] at h
    rw [typeTexts, t.text_of_isBare f h.1, typeTexts_of_areBare f rest h.2]
    rfl

theorem qualifierTexts_of_areBare (f : Bool) : ∀ qs : List ClassQualifier,
    areQualifiersBare f qs = true →
      qualifierTexts .uniform f qs = .ok (argumentKeyTexts (qualifierKeys qs))
  | [], _ => rfl
  | ⟨_, arguments⟩ :: rest, h => by
    rw [areQualifiersBare, Bool.and_eq_true] at h
    rw [qualifierTexts, qualifierTexts_of_areBare f rest h.1,
      argumentTexts_of_areBare f arguments h.2, qualifierKeys]
    simp only [argumentKeyTexts_eq_map, List.map_append]
    rfl

theorem argumentTexts_of_areBare (f : Bool) : ∀ ps : List TypeProjection,
    areArgumentsBare f ps = true →
      argumentTexts .uniform f ps = .ok (argumentKeyTexts (argumentKeys ps))
  | [], _ => rfl
  | p :: rest, h => by
    rw [areArgumentsBare, Bool.and_eq_true] at h
    rw [argumentTexts, p.text_of_isBare f h.1, argumentTexts_of_areBare f rest h.2]
    rfl

/-- The text of a bare type argument is that of its key. -/
theorem TypeProjection.text_of_isBare (f : Bool) : ∀ p : TypeProjection, p.isBare f = true →
    p.text .uniform f = .ok p.key.text
  | .star, _ => rfl
  | .typed variance type, h => by
    rw [TypeProjection.text, type.text_of_isBare f h]
    rfl

end

end SymbolView
