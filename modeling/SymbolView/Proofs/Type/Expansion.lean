import Mathlib.Data.List.Forall2
import SymbolView.Type.Text

/-!
# Aliases in function position

In function position an alias is written as its expansion.  `TypeTerm.expanded` does with the type
what is done there with the text: it puts expansions in the place of aliases, as far as function
position reaches.  So the text of a type in function position is that of the expanded type outside
of it (`TypeTerm.text_expanded`).

An alias that is marked nullable writes a question mark of its own after its expansion, and the
expanded type can be marked only once.  Hence `TypeTerm.expandsPlainly` asks that the expansion
takes a question mark and has none yet.

What is an argument of a usual class, or captured, is not in function position, wherever the class
or the captured type itself is.  There the expansion of an alias does not matter
(`TypeTerm.unexpanded`).
-/

set_option autoImplicit false

namespace SymbolView

/-- Whether a question mark is written after the type if it is marked nullable now. -/
def TypeTerm.takesMark (policy : SuffixPolicy) (t : TypeTerm) : Bool :=
  !t.isNullable && policy.appliesTo t.shape

/-- The expansion of an alias in the place of the alias: it takes over the annotations of the alias,
and its mark if it is marked nullable. -/
def TypeTerm.inPlaceOf (e : TypeTerm) (nullability : Nullability)
    (annotations : List Annotations.Application) : TypeTerm :=
  ⟨e.shape, if nullability == .nullable then .nullable else e.nullability,
    annotations ++ e.annotations⟩

mutual

/-- The type with the expansions of aliases in their place, as far as function position reaches:
type arguments are left alone. -/
def TypeTerm.expanded : TypeTerm → TypeTerm
  | ⟨.classType role classifier qualifiers (some e), nullability, annotations⟩ =>
    if classifier.isAlias then e.expanded.inPlaceOf nullability annotations
    else ⟨.classType role classifier qualifiers (some e), nullability, annotations⟩
  | ⟨.notNull base, nullability, annotations⟩ =>
    ⟨.notNull base.expanded, nullability, annotations⟩
  | ⟨.flexible lower upper, nullability, annotations⟩ =>
    ⟨.flexible lower.expanded upper.expanded, nullability, annotations⟩
  | ⟨.intersection conjuncts, nullability, annotations⟩ =>
    ⟨.intersection (expandedTypes conjuncts), nullability, annotations⟩
  | t => t

/-- Types with the expansions of aliases in their place. -/
def expandedTypes : List TypeTerm → List TypeTerm
  | [] => []
  | t :: rest => t.expanded :: expandedTypes rest

end

mutual

/-- Whether every alias that is replaced and is marked nullable has an expansion that takes the
question mark. -/
def TypeTerm.expandsPlainly (policy : SuffixPolicy) : TypeTerm → Bool
  | ⟨.classType _ classifier _ (some e), nullability, _⟩ =>
    !classifier.isAlias
      || e.expandsPlainly policy && (nullability != .nullable || e.expanded.takesMark policy)
  | ⟨.notNull base, _, _⟩ => base.expandsPlainly policy
  | ⟨.flexible lower upper, _, _⟩ => lower.expandsPlainly policy && upper.expandsPlainly policy
  | ⟨.intersection conjuncts, _, _⟩ => expandPlainly policy conjuncts
  | _ => true

/-- Whether types expand plainly. -/
def expandPlainly (policy : SuffixPolicy) : List TypeTerm → Bool
  | [] => true
  | t :: rest => t.expandsPlainly policy && expandPlainly policy rest

end

variable {policy : SuffixPolicy}

/-! ## Annotations and marks -/

namespace TypeText

theorem annotations_append (as bs : List Annotations.Application) :
    annotations (as ++ bs) =
      (do let front ← annotations as; let rest ← annotations bs; return front ++ rest) := by
  induction as with
  | nil =>
    rw [List.nil_append]
    cases annotations bs with
    | error _ => rfl
    | ok back => exact congrArg Except.ok String.empty_append.symm
  | cons a as ih =>
    rw [List.cons_append, annotations, annotations, ih]
    cases a.text with
    | error _ => rfl
    | ok text =>
      cases annotations as with
      | error _ => rfl
      | ok front =>
        cases annotations bs with
        | error _ => rfl
        | ok back =>
          show Except.ok _ = Except.ok _
          simp only [String.append_assoc]

theorem suffix_of_ne {nullability : Nullability} (h : nullability ≠ .nullable)
    (shape : TypeShape) : suffix policy nullability shape = "" := by
  simp [suffix, h]

end TypeText

/-- The mark of an alias is written after the text of its expansion. -/
theorem TypeTerm.text_inPlaceOf {e : TypeTerm} {nullability : Nullability}
    (as : List Annotations.Application)
    (h : nullability = .nullable → e.takesMark policy = true) (f : Bool) :
    (e.inPlaceOf nullability as).text policy f =
      (do let front ← TypeText.annotations as; let body ← e.text policy f
          return front ++ body ++ if nullability == .nullable then "?" else "") := by
  obtain ⟨shape, own, bs⟩ := e
  rw [inPlaceOf, text, TypeText.annotations_append, text]
  cases TypeText.annotations as with
  | error _ => rfl
  | ok front =>
    cases TypeText.annotations bs with
    | error _ => rfl
    | ok back =>
      cases shape.text policy f with
      | error _ => rfl
      | ok body =>
        show Except.ok _ = Except.ok _
        by_cases hn : nullability = .nullable
        · have marks := h hn
          rw [takesMark, Bool.and_eq_true, Bool.not_eq_true'] at marks
          have hown : own ≠ .nullable := by
            have := marks.1
            rintro rfl
            cases this
          rw [TypeText.suffix_of_ne hown]
          have applies : policy.appliesTo shape = true := marks.2
          simp [hn, TypeText.suffix, applies, String.append_assoc]
        · simp [hn, String.append_assoc]

/-! ## The text in function position -/

/-- What is written for a class does not depend on where it stands. -/
theorem TypeShape.text_of_not_isAlias {classifier : ClassifierRef} (h : ¬ classifier.isAlias = true)
    (role : ClassRole) (qualifiers : List ClassQualifier) (expansion : Option TypeTerm) (f : Bool) :
    (TypeShape.classType role classifier qualifiers expansion).text policy f =
      (do let arguments ← qualifierTexts policy (role == .functional) qualifiers
          return classifier.id.shortName ++ TypeText.bracketed arguments) := by
  rw [TypeShape.text.eq_def]
  simp only [if_neg h]

/-- An alias whose expansion is not known is written by name. -/
theorem TypeShape.text_of_no_expansion {classifier : ClassifierRef} (h : classifier.isAlias = true)
    (role : ClassRole) (qualifiers : List ClassQualifier) (f : Bool) :
    (TypeShape.classType role classifier qualifiers none).text policy f =
      .ok (TypeText.aliasName classifier.id) := by
  rw [TypeShape.text.eq_def]
  simp only [if_pos h]
  rfl

/-- Outside of function position every alias is written by name. -/
theorem TypeShape.text_alias_outside {classifier : ClassifierRef} (h : classifier.isAlias = true)
    (role : ClassRole) (qualifiers : List ClassQualifier) (expansion : Option TypeTerm) :
    (TypeShape.classType role classifier qualifiers expansion).text policy false =
      .ok (TypeText.aliasName classifier.id) := by
  rw [TypeShape.text.eq_def]
  simp only [if_pos h]
  cases expansion <;> rfl

/-- In function position an alias is written as its expansion. -/
theorem TypeShape.text_alias_inside {classifier : ClassifierRef} (h : classifier.isAlias = true)
    (role : ClassRole) (qualifiers : List ClassQualifier) (e : TypeTerm) :
    (TypeShape.classType role classifier qualifiers (some e)).text policy true =
      e.text policy true := by
  rw [TypeShape.text.eq_def]
  simp only [if_pos h]

mutual

/-- **In function position a type is written like the expanded type outside.** -/
theorem TypeTerm.text_expanded : ∀ t : TypeTerm, t.expandsPlainly policy = true →
    t.text policy true = t.expanded.text policy false
  | ⟨.classType role classifier qualifiers none, nullability, as⟩, _ => by
    rw [TypeTerm.expanded, TypeTerm.text, TypeTerm.text]
    by_cases isAlias : classifier.isAlias = true
    · rw [TypeShape.text_of_no_expansion isAlias, TypeShape.text_of_no_expansion isAlias]
    · rw [TypeShape.text_of_not_isAlias isAlias, TypeShape.text_of_not_isAlias isAlias]
    all_goals nofun
  | ⟨.classType role classifier qualifiers (some e), nullability, as⟩, h => by
    rw [TypeTerm.expandsPlainly] at h
    rw [TypeTerm.expanded]
    by_cases isAlias : classifier.isAlias = true
    · simp only [isAlias, Bool.not_true, Bool.false_or, Bool.and_eq_true, Bool.or_eq_true,
        bne_iff_ne, ne_eq] at h
      have marks : nullability = .nullable → e.expanded.takesMark policy = true :=
        fun hn ↦ h.2.resolve_left fun hne ↦ hne hn
      rw [if_pos isAlias, TypeTerm.text_inPlaceOf as marks, ← e.text_expanded h.1, TypeTerm.text,
        TypeShape.text_alias_inside isAlias]
      have applies : policy.appliesTo (.classType role classifier qualifiers (some e)) = true := by
        cases policy <;> rfl
      simp only [TypeText.suffix, applies, Bool.and_true]
    · rw [if_neg isAlias, TypeTerm.text, TypeTerm.text, TypeShape.text_of_not_isAlias isAlias,
        TypeShape.text_of_not_isAlias isAlias]
  | ⟨.notNull base, nullability, as⟩, h => by
    have ih := base.text_expanded h
    rw [TypeTerm.expanded, TypeTerm.text, TypeTerm.text, TypeShape.text, TypeShape.text, ih]
    cases policy <;> rfl
  | ⟨.flexible lower upper, nullability, as⟩, h => by
    rw [TypeTerm.expandsPlainly, Bool.and_eq_true] at h
    rw [TypeTerm.expanded, TypeTerm.text, TypeTerm.text, TypeShape.text, TypeShape.text,
      lower.text_expanded h.1, upper.text_expanded h.2]
    cases policy <;> rfl
  | ⟨.intersection conjuncts, nullability, as⟩, h => by
    have ih := typeTexts_expandedTypes conjuncts h
    rw [TypeTerm.expanded, TypeTerm.text, TypeTerm.text, TypeShape.text, TypeShape.text, ih]
    cases policy <;> rfl
  | ⟨.unresolved _ _, _, _⟩, _ => rfl
  | ⟨.captured _, _, _⟩, _ => rfl
  | ⟨.dynamic, _, _⟩, _ => rfl
  | ⟨.integerLiteral _, _, _⟩, _ => rfl
  | ⟨.typeParameter _ _, _, _⟩, _ => rfl

theorem typeTexts_expandedTypes : ∀ ts : List TypeTerm, expandPlainly policy ts = true →
    typeTexts policy true ts = typeTexts policy false (expandedTypes ts)
  | [], _ => rfl
  | t :: rest, h => by
    rw [expandPlainly, Bool.and_eq_true] at h
    rw [typeTexts, expandedTypes, typeTexts, t.text_expanded h.1, typeTexts_expandedTypes rest h.2]

end

/-! ## Type arguments -/

theorem TypeTerm.text_congr {t : TypeTerm} {f g : Bool}
    (h : t.shape.text policy f = t.shape.text policy g) : t.text policy f = t.text policy g := by
  obtain ⟨shape, nullability, as⟩ := t
  have h' : shape.text policy f = shape.text policy g := h
  rw [text, text, h']

mutual

/-- An expanded type is written in one way wherever it stands. -/
theorem TypeTerm.text_shape_expanded (f : Bool) : ∀ t : TypeTerm,
    t.expanded.shape.text policy f = t.expanded.shape.text policy false
  | ⟨.classType role classifier qualifiers none, nullability, as⟩ => by
    show TypeShape.text policy f (.classType role classifier qualifiers none) = _
    by_cases isAlias : classifier.isAlias = true
    · exact (TypeShape.text_of_no_expansion isAlias role qualifiers f).trans
        (TypeShape.text_of_no_expansion isAlias role qualifiers false).symm
    · exact (TypeShape.text_of_not_isAlias isAlias role qualifiers none f).trans
        (TypeShape.text_of_not_isAlias isAlias role qualifiers none false).symm
  | ⟨.classType role classifier qualifiers (some e), nullability, as⟩ => by
    rw [TypeTerm.expanded]
    by_cases isAlias : classifier.isAlias = true
    · rw [if_pos isAlias]
      exact e.text_shape_expanded f
    · rw [if_neg isAlias, TypeShape.text_of_not_isAlias isAlias,
        TypeShape.text_of_not_isAlias isAlias]
  | ⟨.notNull base, _, _⟩ => by
    rw [TypeTerm.expanded, TypeShape.text, TypeShape.text,
      TypeTerm.text_congr (base.text_shape_expanded f)]
  | ⟨.flexible lower upper, _, _⟩ => by
    rw [TypeTerm.expanded, TypeShape.text, TypeShape.text,
      TypeTerm.text_congr (lower.text_shape_expanded f),
      TypeTerm.text_congr (upper.text_shape_expanded f)]
  | ⟨.intersection conjuncts, _, _⟩ => by
    rw [TypeTerm.expanded, TypeShape.text, TypeShape.text, typeTexts_expandedTypes_eq f conjuncts]
  | ⟨.unresolved _ _, _, _⟩ => rfl
  | ⟨.captured _, _, _⟩ => rfl
  | ⟨.dynamic, _, _⟩ => rfl
  | ⟨.integerLiteral _, _, _⟩ => rfl
  | ⟨.typeParameter _ _, _, _⟩ => rfl

theorem typeTexts_expandedTypes_eq (f : Bool) : ∀ ts : List TypeTerm,
    typeTexts policy f (expandedTypes ts) = typeTexts policy false (expandedTypes ts)
  | [] => rfl
  | t :: rest => by
    rw [expandedTypes, typeTexts, typeTexts, TypeTerm.text_congr (t.text_shape_expanded f),
      typeTexts_expandedTypes_eq f rest]

end

/-- Two type arguments that are the same but for their types, which are related. -/
inductive TypeProjection.Related (R : TypeTerm → TypeTerm → Prop) :
    TypeProjection → TypeProjection → Prop
  | star : Related R .star .star
  | typed (v : Variance) {t u : TypeTerm} (h : R t u) : Related R (.typed v t) (.typed v u)

/-- Two qualifiers that are the same but for the types of their arguments, which are related. -/
structure ClassQualifier.Related (R : TypeTerm → TypeTerm → Prop) (q r : ClassQualifier) :
    Prop where
  name : q.name = r.name
  arguments : List.Forall₂ (TypeProjection.Related R) q.arguments r.arguments

section Related

variable {R : TypeTerm → TypeTerm → Prop} {f : Bool}
  (same : ∀ t u, R t u → t.text policy f = u.text policy f)

include same

theorem TypeProjection.text_related {p q : TypeProjection} (h : Related R p q) :
    p.text policy f = q.text policy f := by
  cases h with
  | star => rfl
  | typed v h => rw [text, text, same _ _ h]

theorem argumentTexts_related {ps qs : List TypeProjection}
    (h : List.Forall₂ (TypeProjection.Related R) ps qs) :
    argumentTexts policy f ps = argumentTexts policy f qs := by
  induction h with
  | nil => rfl
  | cons h _ ih => rw [argumentTexts, argumentTexts, TypeProjection.text_related same h, ih]

theorem qualifierTexts_related {qs rs : List ClassQualifier}
    (h : List.Forall₂ (ClassQualifier.Related R) qs rs) :
    qualifierTexts policy f qs = qualifierTexts policy f rs := by
  induction h with
  | nil => rfl
  | @cons q r _ _ h _ ih =>
    obtain ⟨name, ps⟩ := q
    obtain ⟨name', ps'⟩ := r
    rw [qualifierTexts, qualifierTexts, ih, argumentTexts_related same h.arguments]

end Related

/-- The arguments of a class are written in the way that goes with its role; those of an alias are
not written at all. -/
theorem TypeTerm.text_related {R : TypeTerm → TypeTerm → Prop} {role : ClassRole}
    (same : ∀ t u, R t u →
      t.text policy (role == .functional) = u.text policy (role == .functional))
    {qs rs : List ClassQualifier} (h : List.Forall₂ (ClassQualifier.Related R) qs rs)
    (classifier : ClassifierRef) (expansion : Option TypeTerm) (nullability : Nullability)
    (as : List Annotations.Application) (f : Bool) :
    TypeTerm.text policy f ⟨.classType role classifier qs expansion, nullability, as⟩ =
      TypeTerm.text policy f ⟨.classType role classifier rs expansion, nullability, as⟩ := by
  have body : (TypeShape.classType role classifier qs expansion).text policy f =
      (TypeShape.classType role classifier rs expansion).text policy f := by
    rw [TypeShape.text.eq_def, TypeShape.text.eq_def]
    simp only [qualifierTexts_related same h]
  rw [text, text, body]
  cases policy <;> rfl

/-! ## What becomes of an alias -/

/-- An alias without what it expands to; any other type as it is. -/
def TypeTerm.unexpanded (t : TypeTerm) : TypeTerm :=
  match t.shape with
  | .classType role classifier qualifiers _ =>
    if classifier.isAlias then { t with shape := .classType role classifier qualifiers none } else t
  | _ => t

theorem TypeTerm.text_unexpanded (t : TypeTerm) :
    t.unexpanded.text policy false = t.text policy false := by
  obtain ⟨shape, nullability, as⟩ := t
  cases shape with
  | classType role classifier qualifiers expansion =>
    rw [unexpanded]
    dsimp only
    split
    next isAlias =>
      rw [text, text, TypeShape.text_alias_outside isAlias, TypeShape.text_alias_outside isAlias]
      cases policy <;> rfl
    next => rfl
  | _ => rfl

/-- **Aliases are transparent in function position, and only there.**  A type is written there like
the expanded type outside, as long as no question mark is lost or doubled.  So a functional type is
written the same when types of its arguments are replaced by the expanded ones.  What the aliases
among the arguments of a usual class expand to does not matter, wherever the class stands, nor does
it in a captured type: they are written by name. -/
theorem TypeTerm.text_inFunction (policy : SuffixPolicy) :
    (∀ t : TypeTerm, t.expandsPlainly policy = true →
      t.text policy true = t.expanded.text policy false) ∧
    (∀ qs rs, List.Forall₂ (ClassQualifier.Related fun t u ↦
        u = t ∨ t.expandsPlainly policy = true ∧ u = t.expanded) qs rs →
      ∀ classifier expansion nullability as f,
        TypeTerm.text policy f ⟨.classType .functional classifier qs expansion, nullability, as⟩ =
          TypeTerm.text policy f
            ⟨.classType .functional classifier rs expansion, nullability, as⟩) ∧
    (∀ qs rs, List.Forall₂ (ClassQualifier.Related fun t u ↦ u = t ∨ u = t.unexpanded) qs rs →
      ∀ classifier expansion nullability as f,
        TypeTerm.text policy f ⟨.classType .usual classifier qs expansion, nullability, as⟩ =
          TypeTerm.text policy f ⟨.classType .usual classifier rs expansion, nullability, as⟩) ∧
    (∀ p q, TypeProjection.Related (fun t u ↦ u = t ∨ u = t.unexpanded) p q →
      ∀ nullability as f, TypeTerm.text policy f ⟨.captured p, nullability, as⟩ =
        TypeTerm.text policy f ⟨.captured q, nullability, as⟩) ∧
    (∀ (t : TypeTerm) (classifier : ClassifierRef), t.classifier? = some classifier →
      classifier.isAlias = true → ∀ f, t.unexpanded.text policy f =
        (do let front ← TypeText.annotations t.annotations
            return front ++ TypeText.aliasName classifier.id
              ++ if t.isNullable then "?" else "")) := by
  have unexpanded : ∀ t u : TypeTerm, u = t ∨ u = t.unexpanded →
      t.text policy false = u.text policy false := by
    rintro t _ (rfl | rfl)
    · rfl
    · exact t.text_unexpanded.symm
  refine ⟨TypeTerm.text_expanded, ?functional, ?usual, ?captured, ?byName⟩
  case functional =>
    intro qs rs h classifier expansion nullability as f
    refine TypeTerm.text_related ?_ h classifier expansion nullability as f
    rintro t _ (rfl | ⟨plainly, rfl⟩)
    · rfl
    · exact (t.text_expanded plainly).trans (TypeTerm.text_congr (t.text_shape_expanded true)).symm
  case usual =>
    intro qs rs h classifier expansion nullability as f
    exact TypeTerm.text_related unexpanded h classifier expansion nullability as f
  case captured =>
    intro p q h nullability as f
    rw [text, text, TypeShape.text, TypeShape.text, TypeProjection.text_related unexpanded h]
    cases policy <;> rfl
  case byName =>
    rintro ⟨shape, nullability, as⟩ classifier hc isAlias f
    cases shape with
    | classType role own qualifiers expansion =>
      obtain rfl : own = classifier := Option.some_inj.mp hc
      rw [TypeTerm.unexpanded]
      dsimp only
      rw [if_pos isAlias, text, TypeShape.text_of_no_expansion isAlias]
      cases policy <;> cases nullability <;> rfl
    | _ => cases hc

namespace Sample

/-- A class that is a list of what an alias stands for. -/
def listOfAlias : TypeTerm :=
  .ofClass .usual (.ofDotted "a" "List")
    [.typed .covariant (.ofAlias (.ofDotted "a" "Text") (.plain .dynamic))]

/-- An alias, marked nullable and annotated, of an annotated alias of that list. -/
def aliasOfAlias : TypeTerm :=
  { TypeTerm.ofAlias (.ofDotted "a" "Lines")
      { TypeTerm.ofAlias (.ofDotted "a" "Page") listOfAlias with
        annotations := [⟨.ofDotted "a" "Inner", none, []⟩] } with
    nullability := .nullable
    annotations := [⟨.ofDotted "a" "Outer", some .field, []⟩] }

end Sample

/-- A chain of aliases is written as the list at its end, the alias in the list by name. -/
theorem TypeTerm.text_inFunction_sample :
    Sample.aliasOfAlias.expandsPlainly .skipMarkers = true ∧
    Sample.aliasOfAlias.text .skipMarkers true =
      .ok "[@field:Outer] [@Inner] List<out [typealias Text]>?" ∧
    TypeTerm.text .skipMarkers false
        (.ofClass .functional (.ofDotted "a" "F") [.typed .invariant Sample.aliasOfAlias]) =
      TypeTerm.text .skipMarkers false
        (.ofClass .functional (.ofDotted "a" "F")
          [.typed .invariant Sample.aliasOfAlias.expanded]) ∧
    TypeTerm.text .skipMarkers true
        (.ofClass .usual (.ofDotted "a" "C") [.typed .invariant Sample.aliasOfAlias]) =
      TypeTerm.text .skipMarkers true
        (.ofClass .usual (.ofDotted "a" "C") [.typed .invariant Sample.aliasOfAlias.unexpanded]) ∧
    TypeTerm.text .skipMarkers true
        (.plain (.captured (.typed .invariant Sample.aliasOfAlias))) =
      TypeTerm.text .skipMarkers true
        (.plain (.captured (.typed .invariant Sample.aliasOfAlias.unexpanded))) ∧
    Sample.aliasOfAlias.unexpanded.text .skipMarkers true =
      .ok "[@field:Outer] [typealias Lines]?" := by
  have plainly : Sample.aliasOfAlias.expandsPlainly .skipMarkers = true := by decide
  obtain ⟨inside, functional, usual, captured, byName⟩ := TypeTerm.text_inFunction .skipMarkers
  refine ⟨plainly, (inside _ plainly).trans (by decide +kernel), ?_, ?_, ?_, ?_⟩
  · refine functional _ [⟨_, [.typed _ Sample.aliasOfAlias.expanded]⟩] ?_ _ _ _ _ _
    exact .cons ⟨rfl, .cons (.typed _ (.inr ⟨plainly, rfl⟩)) .nil⟩ .nil
  · refine usual _ [⟨_, [.typed _ Sample.aliasOfAlias.unexpanded]⟩] ?_ _ _ _ _ _
    exact .cons ⟨rfl, .cons (.typed _ (.inr rfl)) .nil⟩ .nil
  · exact captured _ (.typed _ Sample.aliasOfAlias.unexpanded) (.typed _ (.inr rfl)) _ _ _
  · exact (byName _ _ rfl rfl true).trans (by decide +kernel)

end SymbolView
