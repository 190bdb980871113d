import SymbolView.Proofs.Type.Ending
import SymbolView.Proofs.Type.Tidy

/-!
# At most one question mark

A type has one question mark at most, and markers of types that are not known may have to stand bare
(`SuffixPolicy.forbidden`).  Nearly all types are written like that.  The exception are aliases that
are written as their expansion: an alias that is marked nullable adds its question mark even if the
expansion ends in one, or is such a marker.  `TypeTerm.text_marks_iff` says that a text is as it
should be exactly if the type has no such alias where it would be written (`TypeTerm.isTidy`).

That nothing forbidden is written is shown by reading the text from left to right (`Ending`).  What
is known when the text of a type has been read is `TypeRead`, and there is such a statement for each
kind of part of a type (`TypeTerm.exists_typeRead`).
-/

set_option autoImplicit false

namespace SymbolView

open Ending

variable {policy : SuffixPolicy} {tidy : Bool}

/-! ## What is known of the text of a type -/

/-- Whether the text of a type may end like that. -/
def Ending.Fits (t : TypeTerm) : Ending → Prop
  | plain | letter => True
  | mark => t.isNullable = true
  | closed => t.shape.isMarker = true
  | gap | word | slip => False

theorem Ending.Fits.isOpen {t : TypeTerm} {q : Ending} (h : q.Fits t) : q.IsOpen := by
  cases q <;> trivial

/-- What a type is written as where it stands. -/
def TypeTerm.seen (f : Bool) (t : TypeTerm) : TypeTerm := if f then t.expanded else t

/-- What is known of the text of a type: if the type is tidy, the text ends in a question mark or in
a marker only if the type that is seen is like that, and else something forbidden is written. -/
structure TypeRead (policy : SuffixPolicy) (tidy : Bool) (t : TypeTerm) (text : String) : Prop where
  fits : tidy = true → (plain.readAll policy text.toList).Fits t
  slips : tidy = false → policy.Slips text

theorem TypeRead.parts {t : TypeTerm} {text : String} (h : TypeRead policy tidy t text) :
    PartsRead policy tidy [text] where
  isOpen isTidy := by
    intro other hother
    obtain rfl := List.mem_singleton.mp hother
    exact (h.fits isTidy).isOpen
  slips untidy := ⟨text, .head _, h.slips untidy⟩

theorem readAll_snoc_mark (text : String) : plain.readAll policy (text ++ "?").toList =
    (plain.readAll policy text.toList).read policy '?' := by
  rw [String.toList_append, readAll_append]
  rfl

/-- A marker takes the question mark only if markers need not stand bare. -/
theorem read_closed_mark {shape : TypeShape} (applies : policy.appliesTo shape = true)
    (marker : shape.isMarker = true) : closed.read policy '?' = .mark := by
  have uniform : policy ≠ .skipMarkers := by
    intro skip
    rw [SuffixPolicy.appliesTo_eq_false_iff.mpr ⟨skip, marker⟩] at applies
    cases applies
  rw [Ending.read, if_neg uniform]

/-- The question mark of a type, after its body. -/
theorem BodyRead.type {shape : TypeShape} {body : String} {nullability : Nullability}
    (h : BodyRead policy tidy shape.isMarker body) {t : TypeTerm}
    (hnull : t.isNullable = (nullability == .nullable))
    (hmarker : t.shape.isMarker = shape.isMarker) :
    TypeRead policy tidy t (body ++ TypeText.suffix policy nullability shape) where
  fits isTidy := by
    rw [TypeText.suffix]
    split
    next marked =>
      rw [Bool.and_eq_true] at marked
      have fits : Ending.Fits t .mark := hnull.trans marked.1
      rw [readAll_snoc_mark]
      rcases h.ending isTidy with hq | hq | ⟨hq, marker⟩ <;> rw [hq]
      · exact fits
      · exact fits
      · rw [read_closed_mark marked.2 marker]
        exact fits
    next =>
      rw [String.append_empty]
      rcases h.ending isTidy with hq | hq | ⟨hq, marker⟩ <;> rw [hq]
      · trivial
      · trivial
      · exact hmarker.trans marker
  slips untidy := (h.slips untidy).append _

theorem TypeTerm.exists_typeRead_of_body {shape : TypeShape} {body : String} {f : Bool}
    (hbody : shape.text policy f = .ok body) (h : BodyRead policy tidy shape.isMarker body)
    (nullability : Nullability) {t : TypeTerm} (hnull : t.isNullable = (nullability == .nullable))
    (hmarker : t.shape.isMarker = shape.isMarker) :
    ∃ text, TypeTerm.text policy f ⟨shape, nullability, []⟩ = .ok text ∧
      TypeRead policy tidy t text := by
  refine ⟨body ++ TypeText.suffix policy nullability shape, ?_, h.type hnull hmarker⟩
  rw [TypeTerm.text, hbody]
  show Except.ok ("" ++ body ++ _) = _
  rw [String.empty_append]

/-! ## Aliases -/

/-- The text of an alias that is marked nullable, if its expansion does not take the question
mark: it is doubled, or stands after a marker. -/
theorem TypeTerm.slips_of_not_takesMark {e : TypeTerm} {text : String}
    (hun : e.isUnadorned = true) (tidy : e.isTidy policy true = true)
    (htext : e.text policy true = .ok text) (h : e.expanded.takesMark policy = false) :
    policy.Slips (text ++ "?") := by
  rw [e.text_expanded (e.expandsPlainly_of_isTidy tidy)] at htext
  have bare := e.annotations_expanded hun
  rw [takesMark, isNullable] at h
  cases hexpanded : e.expanded with
  | mk shape nullability as =>
    rw [hexpanded] at htext h bare
    obtain rfl : as = [] := bare
    rw [TypeTerm.text] at htext
    cases hbody : shape.text policy false with
    | error _ =>
      rw [hbody] at htext
      cases htext
    | ok body =>
      rw [hbody] at htext
      obtain rfl := Except.ok.inj htext
      cases applies : policy.appliesTo shape with
      | true =>
        simp only [applies, Bool.and_true, Bool.not_eq_false'] at h
        refine ⟨"??", ?_, ?_⟩
        · cases policy <;> simp [SuffixPolicy.forbidden]
        · rw [TypeText.suffix, h, applies, String.toList_append, String.toList_append]
          exact ⟨("" ++ body).toList, [], by simp⟩
      | false =>
        obtain ⟨rfl, marker⟩ := SuffixPolicy.appliesTo_eq_false_iff.mp applies
        have hsuffix : TypeText.suffix .skipMarkers nullability shape = "" := by
          rw [TypeText.suffix, applies, Bool.and_false]
          rfl
        rw [hsuffix, String.append_empty, String.empty_append]
        cases shape with
        | unresolved what message =>
          cases hbody
          exact ⟨_, .tail _ (.head _), List.infix_rfl⟩
        | dynamic =>
          cases hbody
          exact ⟨_, .tail _ (.tail _ (.head _)), List.infix_rfl⟩
        | _ => cases marker

/-- The text of an alias whose expansion is written, given that of the expansion. -/
theorem TypeRead.alias {e : TypeTerm} {text : String} {nullability : Nullability}
    (h : TypeRead policy tidy e.expanded text)
    (slips : tidy = true → e.expanded.takesMark policy = false → policy.Slips (text ++ "?"))
    (as : List Annotations.Application) :
    TypeRead policy (tidy && (nullability != .nullable || e.expanded.takesMark policy))
      (e.expanded.inPlaceOf nullability as)
      (text ++ if nullability == .nullable then "?" else "") where
  fits both := by
    rw [Bool.and_eq_true, Bool.or_eq_true, bne_iff_ne] at both
    have fits := h.fits both.1
    by_cases hn : nullability = .nullable
    · have marks := both.2.resolve_left fun hne ↦ hne hn
      rw [TypeTerm.takesMark, Bool.and_eq_true, Bool.not_eq_true'] at marks
      have nullable : Ending.Fits (e.expanded.inPlaceOf nullability as) .mark := by
        simp [hn, Ending.Fits, TypeTerm.inPlaceOf, TypeTerm.isNullable]
      rw [hn, beq_self_eq_true, if_pos rfl, readAll_snoc_mark, ← hn]
      cases hq : plain.readAll policy text.toList with
      | plain => exact nullable
      | letter => exact nullable
      | mark =>
        rw [hq] at fits
        exact absurd fits (Bool.eq_false_iff.mp marks.1)
      | closed =>
        rw [hq] at fits
        rw [read_closed_mark marks.2 fits]
        exact nullable
      | _ =>
        rw [hq] at fits
        cases fits
    · rw [beq_eq_false_iff_ne.mpr hn]
      simp only [Bool.false_eq_true, if_false, String.append_empty]
      have same : e.expanded.isNullable = (e.expanded.inPlaceOf nullability as).isNullable := by
        simp [TypeTerm.inPlaceOf, TypeTerm.isNullable, hn]
      cases hq : plain.readAll policy text.toList <;> rw [hq] at fits
      case mark => exact same.symm.trans fits
      all_goals exact fits
  slips one := by
    rcases Bool.and_eq_false_iff.mp one with untidy | lost
    · exact (h.slips untidy).append _
    · rw [Bool.or_eq_false_iff, bne_eq_false_iff_eq] at lost
      cases htidy : tidy with
      | true =>
        rw [lost.1]
        exact slips htidy lost.2
      | false => exact (h.slips htidy).append _

/-- The text of an alias in function position: that of the expansion and a question mark. -/
theorem TypeTerm.exists_typeRead_inside {classifier : ClassifierRef} (isAlias : classifier.isAlias)
    (role : ClassRole) (qualifiers : List ClassQualifier) (nullability : Nullability)
    {e : TypeTerm} {text : String} (hun : e.isUnadorned = true)
    (htext : e.text policy true = .ok text)
    (read : TypeRead policy (e.isTidy policy true) e.expanded text) :
    let type : TypeTerm := ⟨.classType role classifier qualifiers (some e), nullability, []⟩
    ∃ text, type.text policy true = .ok text ∧
      TypeRead policy (e.isTidy policy true &&
        (nullability != .nullable || e.expanded.takesMark policy)) (type.seen true) text := by
  refine ⟨text ++ if nullability == .nullable then "?" else "", ?_, ?_⟩
  · have applies : policy.appliesTo (.classType role classifier qualifiers (some e)) = true := by
      cases policy <;> rfl
    rw [TypeTerm.text, TypeShape.text_alias_inside isAlias, htext]
    simp only [TypeText.suffix, applies, Bool.and_true]
    exact congrArg (fun line ↦ Except.ok (line ++ _)) String.empty_append
  · rw [TypeTerm.seen, if_pos rfl, TypeTerm.expanded, if_pos isAlias]
    exact read.alias (fun tidy ↦ TypeTerm.slips_of_not_takesMark hun tidy htext) []

/-! ## Types and their parts -/

mutual

/-- The text of an unadorned type, read from left to right. -/
theorem TypeTerm.exists_typeRead (f : Bool) : ∀ t : TypeTerm, t.isUnadorned = true →
    ∃ text, t.text policy f = .ok text ∧ TypeRead policy (t.isTidy policy f) (t.seen f) text
  | ⟨.classType role classifier qualifiers expansion, nullability, as⟩, h => by
    obtain ⟨rfl, hshape⟩ := TypeTerm.isUnadorned_iff.mp h
    obtain ⟨name, hqualifiers, hexpansion⟩ := TypeShape.isUnadorned_classType_iff.mp hshape
    by_cases isAlias : classifier.isAlias = true
    · cases expansion with
      | none =>
        rw [TypeTerm.isTidy_of_no_expansion role qualifiers nullability _ isAlias]
        exact TypeTerm.exists_typeRead_of_body (TypeShape.text_of_no_expansion isAlias ..)
          (bodyRead_aliasName name) nullability (by cases f <;> rfl) (by cases f <;> rfl)
      | some e =>
        cases f with
        | false =>
          rw [TypeTerm.isTidy_alias_outside role qualifiers nullability _ isAlias]
          exact TypeTerm.exists_typeRead_of_body (TypeShape.text_alias_outside isAlias ..)
            (bodyRead_aliasName name) nullability rfl rfl
        | true =>
          obtain ⟨text, htext, read⟩ := e.exists_typeRead true (hexpansion e rfl)
          rw [TypeTerm.isTidy_alias_inside role qualifiers nullability _ isAlias]
          exact TypeTerm.exists_typeRead_inside isAlias role qualifiers nullability
            (hexpansion e rfl) htext read
    · obtain ⟨texts, htexts, read⟩ :=
        exists_partsRead_qualifiers (role == .functional) qualifiers hqualifiers
      have hbody : (TypeShape.classType role classifier qualifiers expansion).text policy f = _ :=
        TypeShape.text_of_not_isAlias isAlias role qualifiers expansion f
      rw [htexts] at hbody
      have seen : TypeTerm.seen f ⟨.classType role classifier qualifiers expansion, nullability, []⟩
          = ⟨.classType role classifier qualifiers expansion, nullability, []⟩ := by
        cases f <;> cases expansion <;> simp [TypeTerm.seen, TypeTerm.expanded, isAlias]
      rw [TypeTerm.isTidy_of_not_isAlias role qualifiers nullability _ isAlias, seen]
      exact TypeTerm.exists_typeRead_of_body hbody (read.named name false) nullability rfl rfl
  | ⟨.unresolved what message, nullability, as⟩, h => by
    obtain ⟨rfl, -⟩ := TypeTerm.isUnadorned_iff.mp h
    have read : BodyRead policy true true unresolvedMarker :=
      ⟨fun _ ↦ .inr (.inr ⟨rfl, rfl⟩), nofun⟩
    exact TypeTerm.exists_typeRead_of_body rfl read nullability (by cases f <;> rfl)
      (by cases f <;> rfl)
  | ⟨.captured p, nullability, as⟩, h => by
    obtain ⟨rfl, hp⟩ := TypeTerm.isUnadorned_iff.mp h
    obtain ⟨text, htext, read⟩ := p.exists_partsRead false hp
    have body : BodyRead policy (p.isTidy policy false) false ("CapturedType(" ++ text ++ ")") := by
      simpa using
        read.body "CapturedType(" ", " ")" rfl (clears (by decide)) (clears (by decide)) false
    have hbody : (TypeShape.captured p).text policy f = .ok ("CapturedType(" ++ text ++ ")") := by
      rw [TypeShape.text, htext]
      rfl
    exact TypeTerm.exists_typeRead_of_body hbody body nullability (by cases f <;> rfl)
      (by cases f <;> rfl)
  | ⟨.notNull base, nullability, as⟩, h => by
    obtain ⟨rfl, hbase⟩ := TypeTerm.isUnadorned_iff.mp h
    obtain ⟨text, htext, read⟩ := base.exists_typeRead f hbase
    have body : BodyRead policy (base.isTidy policy f) false (text ++ " & Any") := by
      simpa using
        read.parts.body "" ", " " & Any" rfl (clears (by decide)) (clears (by decide)) false
    have hbody : (TypeShape.notNull base).text policy f = .ok (text ++ " & Any") := by
      rw [TypeShape.text, htext]
      rfl
    exact TypeTerm.exists_typeRead_of_body hbody body nullability (by cases f <;> rfl)
      (by cases f <;> rfl)
  | ⟨.dynamic, nullability, as⟩, h => by
    obtain ⟨rfl, -⟩ := TypeTerm.isUnadorned_iff.mp h
    have read : BodyRead policy true true dynamicMarker :=
      ⟨fun _ ↦ .inr (.inr ⟨rfl, rfl⟩), nofun⟩
    exact TypeTerm.exists_typeRead_of_body rfl read nullability (by cases f <;> rfl)
      (by cases f <;> rfl)
  | ⟨.flexible lower upper, nullability, as⟩, h => by
    obtain ⟨rfl, hshape⟩ := TypeTerm.isUnadorned_iff.mp h
    rw [TypeShape.isUnadorned, Bool.and_eq_true] at hshape
    obtain ⟨hlower, hupper⟩ := hshape
    obtain ⟨low, hlow, readLow⟩ := lower.exists_typeRead f hlower
    obtain ⟨high, hhigh, readHigh⟩ := upper.exists_typeRead f hupper
    have body : BodyRead policy (lower.isTidy policy f && upper.isTidy policy f) false
        ("(" ++ low ++ ".." ++ high ++ ")") := by
      simpa [String.append_assoc] using (readLow.parts.append readHigh.parts).body "(" ".." ")" rfl
        (clears (by decide)) (clears (by decide)) false
    have hbody : (TypeShape.flexible lower upper).text policy f =
        .ok ("(" ++ low ++ ".." ++ high ++ ")") := by
      rw [TypeShape.text, hlow, hhigh]
      rfl
    exact TypeTerm.exists_typeRead_of_body hbody body nullability (by cases f <;> rfl)
      (by cases f <;> rfl)
  | ⟨.integerLiteral value, nullability, as⟩, h => by
    obtain ⟨rfl, -⟩ := TypeTerm.isUnadorned_iff.mp h
    have read : BodyRead policy true false ("ILT: " ++ value.toInt.repr) := by
      refine ⟨fun _ ↦ ?_, nofun⟩
      rw [String.toList_append, readAll_append]
      exact (readAll_name policy (.inl rfl) (unmarked_repr value)).imp_right .inl
    exact TypeTerm.exists_typeRead_of_body rfl read nullability (by cases f <;> rfl)
      (by cases f <;> rfl)
  | ⟨.intersection conjuncts, nullability, as⟩, h => by
    obtain ⟨rfl, hconjuncts⟩ := TypeTerm.isUnadorned_iff.mp h
    obtain ⟨texts, htexts, read⟩ := exists_partsRead_types f conjuncts hconjuncts
    have body := read.body "(" " & " ")" rfl (clears (by decide)) (clears (by decide)) false
    have hbody : (TypeShape.intersection conjuncts).text policy f =
        .ok ("(" ++ " & ".intercalate texts ++ ")") := by
      rw [TypeShape.text, htexts]
      rfl
    exact TypeTerm.exists_typeRead_of_body hbody body nullability (by cases f <;> rfl)
      (by cases f <;> rfl)
  | ⟨.typeParameter symbol name, nullability, as⟩, h => by
    obtain ⟨rfl, hname⟩ := TypeTerm.isUnadorned_iff.mp h
    rw [TypeShape.isUnadorned] at hname
    have name : ∀ c ∈ name.toList, c ∉ typeMarks := by simpa using hname
    exact TypeTerm.exists_typeRead_of_body rfl (bodyRead_name name false) nullability
      (by cases f <;> rfl) (by cases f <;> rfl)

theorem exists_partsRead_types (f : Bool) : ∀ ts : List TypeTerm, areTypesUnadorned ts = true →
    ∃ texts, typeTexts policy f ts = .ok texts ∧
      PartsRead policy (areTypesTidy policy f ts) texts
  | [], _ => ⟨[], rfl, .nil⟩
  | t :: rest, h => by
    rw [areTypesUnadorned, Bool.and_eq_true] at h
    obtain ⟨text, htext, read⟩ := t.exists_typeRead f h.1
    obtain ⟨texts, htexts, reads⟩ := exists_partsRead_types f rest h.2
    refine ⟨text :: texts, ?_, read.parts.append reads⟩
    rw [typeTexts, htext, htexts]
    rfl

theorem exists_partsRead_qualifiers (f : Bool) : ∀ qs : List ClassQualifier,
    areQualifiersUnadorned qs = true → ∃ texts, qualifierTexts policy f qs = .ok texts ∧
      PartsRead policy (areQualifiersTidy policy f qs) texts
  | [], _ => ⟨[], rfl, .nil⟩
  | ⟨_, arguments⟩ :: rest, h => by
    rw [areQualifiersUnadorned, Bool.and_eq_true] at h
    obtain ⟨inner, hinner, reads⟩ := exists_partsRead_qualifiers f rest h.1
    obtain ⟨own, hown, read⟩ := exists_partsRead_arguments f arguments h.2
    refine ⟨inner ++ own, ?_, reads.append read⟩
    rw [qualifierTexts, hinner, hown]
    rfl

theorem exists_partsRead_arguments (f : Bool) : ∀ ps : List TypeProjection,
    areArgumentsUnadorned ps = true → ∃ texts, argumentTexts policy f ps = .ok texts ∧
      PartsRead policy (areArgumentsTidy policy f ps) texts
  | [], _ => ⟨[], rfl, .nil⟩
  | p :: rest, h => by
    rw [areArgumentsUnadorned, Bool.and_eq_true] at h
    obtain ⟨text, htext, read⟩ := p.exists_partsRead f h.1
    obtain ⟨texts, htexts, reads⟩ := exists_partsRead_arguments f rest h.2
    refine ⟨text :: texts, ?_, read.append reads⟩
    rw [argumentTexts, htext, htexts]
    rfl

theorem TypeProjection.exists_partsRead (f : Bool) : ∀ p : TypeProjection,
    p.isUnadorned = true → ∃ text, p.text policy f = .ok text ∧
      PartsRead policy (p.isTidy policy f) [text]
  | .star, _ => ⟨"*", rfl, .star⟩
  | .typed v t, h => by
    obtain ⟨text, htext, read⟩ := t.exists_typeRead f h
    refine ⟨TypeText.withVariance v text, ?_, read.parts.withVariance v⟩
    rw [TypeProjection.text, htext]
    rfl

end

/-- **A type without annotations, whose names have no marks in them, always has a text, and
something forbidden is written in it exactly if the type is not tidy**: if somewhere in it, where
aliases are written as their expansion, an alias is marked nullable whose expansion is nullable
already or is written as a marker that stands bare. -/
theorem TypeTerm.text_marks_iff (policy : SuffixPolicy) (f : Bool) (t : TypeTerm)
    (h : t.isUnadorned = true) :
    ∃ text, t.text policy f = .ok text ∧ (policy.Slips text ↔ t.isTidy policy f = false) := by
  obtain ⟨text, htext, read⟩ : ∃ text, t.text policy f = .ok text ∧
      TypeRead policy (t.isTidy policy f) (t.seen f) text := t.exists_typeRead f h
  refine ⟨text, htext, fun slips ↦ ?_, read.slips⟩
  rw [Bool.eq_false_iff]
  intro isTidy
  have fits := read.fits isTidy
  rw [readAll_of_slips slips] at fits
  exact fits

namespace Sample

/-- A nullable alias of a type. -/
def nullableAlias (expansion : TypeTerm) : TypeTerm :=
  { TypeTerm.ofAlias (.ofDotted "a" "Name") expansion with nullability := .nullable }

/-- A nullable class. -/
def nullableInt : TypeTerm :=
  { TypeTerm.ofClass .usual (.ofDotted "a" "Int") [] with nullability := .nullable }

/-- A nullable function that takes a list of what a nullable alias stands for, and an alias of a
nullable class that is not nullable itself. -/
def nullableFunction : TypeTerm :=
  { TypeTerm.ofClass .functional (.ofDotted "a" "F")
      [.typed .contravariant (.ofClass .usual (.ofDotted "a" "List")
        [.typed .invariant (nullableAlias nullableInt)]),
       .typed .covariant (.ofAlias (.ofDotted "a" "Name") nullableInt)] with
    nullability := .nullable }

end Sample

theorem TypeTerm.text_marks_iff_sample :
    Sample.nullableFunction.isUnadorned = true ∧
    Sample.nullableFunction.text .skipMarkers false =
      .ok "F<in List<[typealias Name]?>, out Int?>?" ∧
    ¬ SuffixPolicy.skipMarkers.Slips "F<in List<[typealias Name]?>, out Int?>?" := by
  have unadorned : Sample.nullableFunction.isUnadorned = true := by decide +kernel
  obtain ⟨text, htext, slips⟩ :=
    TypeTerm.text_marks_iff .skipMarkers false Sample.nullableFunction unadorned
  have written : Sample.nullableFunction.text .skipMarkers false =
      .ok "F<in List<[typealias Name]?>, out Int?>?" := by decide +kernel
  obtain rfl := Except.ok.inj (written.symm.trans htext)
  refine ⟨unadorned, written, fun h ↦ ?_⟩
  have tidy : Sample.nullableFunction.isTidy .skipMarkers false = true := by decide +kernel
  rw [slips.mp h] at tidy
  cases tidy

/-- Question marks are doubled, and markers do not stand bare, where nullable aliases are written as
their expansion. -/
theorem TypeTerm.exists_slips :
    (Sample.nullableAlias Sample.nullableInt).isUnadorned = true ∧
    (Sample.nullableAlias Sample.nullableInt).text .uniform true = .ok "Int??" ∧
    SuffixPolicy.uniform.Slips "Int??" ∧
    (Sample.nullableAlias (.plain .dynamic)).isUnadorned = true ∧
    (Sample.nullableAlias (.plain .dynamic)).text .skipMarkers true = .ok "<dynamic type>?" ∧
    SuffixPolicy.skipMarkers.Slips "<dynamic type>?" := by
  refine ⟨by decide +kernel, by decide +kernel, ?_, by decide +kernel, by decide +kernel, ?_⟩
  · exact ⟨"??", .head _, ⟨"Int".toList, [], by decide⟩⟩
  · exact ⟨"<dynamic type>?", by decide, List.infix_rfl⟩

end SymbolView
