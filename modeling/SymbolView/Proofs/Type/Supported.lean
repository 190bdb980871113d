import SymbolView.Annotations.Projection
import SymbolView.Proofs.Type.Faults

/-!
# What can always be written

The only values of annotation arguments that cannot be written are those of an unsupported form.
An annotation is supported if no such value is anywhere in it, and a type if all annotations
anywhere in it are, those of an expansion included.  What is supported is written without a fault,
in function position and outside: whatever is written with a supported type is supported too
(`TypeTerm.Visits.isSupported`), so there is nothing that could be at fault.
-/

set_option autoImplicit false

namespace SymbolView

/-! ## Outcomes that are values -/

section Outcomes

variable {ε α β : Type}

theorem bind_eq_ok {x : Except ε α} {f : α → Except ε β} {b : β} :
    (x >>= f) = .ok b ↔ ∃ a, x = .ok a ∧ f a = .ok b := by
  cases x with
  | error e => exact ⟨nofun, nofun⟩
  | ok a => exact ⟨fun h ↦ ⟨a, rfl, h⟩, by rintro ⟨_, ⟨⟩, h⟩; exact h⟩

/-- What is done with a value has to be the same only for the value that there is. -/
theorem bind_congr_of_ok {x : Except ε α} {f g : α → Except ε β}
    (h : ∀ a, x = .ok a → f a = g a) : (x >>= f) = (x >>= g) := by
  cases x with
  | error e => rfl
  | ok a => exact h a rfl

theorem mapError_eq_ok {γ : Type} {x : Except ε α} {g : ε → γ} {a : α} :
    x.mapError g = .ok a ↔ x = .ok a := by
  cases x <;> simp [Except.mapError]

theorem exists_bind_eq_ok {x : Except ε α} {f : α → Except ε β} (hx : ∃ a, x = .ok a)
    (hf : ∀ a, ∃ b, f a = .ok b) : ∃ b, (x >>= f) = .ok b := by
  obtain ⟨a, rfl⟩ := hx
  exact hf a

theorem exists_mapM_eq_ok {f : α → Except ε β} {l : List α} (h : ∀ a ∈ l, ∃ b, f a = .ok b) :
    ∃ bs, l.mapM f = .ok bs := by
  induction l with
  | nil => exact ⟨[], rfl⟩
  | cons a l ih =>
    rw [List.mapM_cons]
    exact exists_bind_eq_ok (h a (.head _)) fun _ ↦
      exists_bind_eq_ok (ih fun b hb ↦ h b (.tail _ hb)) fun _ ↦ ⟨_, rfl⟩

theorem exists_of_mem_mapM {f : α → Except ε β} {l : List α} {bs : List β}
    (h : l.mapM f = .ok bs) {b : β} (hb : b ∈ bs) : ∃ a ∈ l, f a = .ok b := by
  induction l generalizing bs with
  | nil =>
    cases h
    cases hb
  | cons a l ih =>
    rw [List.mapM_cons] at h
    obtain ⟨c, hc, h⟩ := bind_eq_ok.mp h
    obtain ⟨cs, hcs, h⟩ := bind_eq_ok.mp h
    cases h
    rcases List.mem_cons.mp hb with rfl | hb
    · exact ⟨a, .head _, hc⟩
    · obtain ⟨a', ha', hfa⟩ := ih hcs hb
      exact ⟨a', .tail _ ha', hfa⟩

end Outcomes

/-! ## Annotations -/

namespace Annotations

mutual

/-- Whether no value in an application is of an unsupported form. -/
def Application.isSupported : Application → Bool
  | ⟨_, _, arguments⟩ => areArgumentsSupported arguments

/-- Whether no value in some arguments is of an unsupported form. -/
def areArgumentsSupported : List Argument → Bool
  | [] => true
  | ⟨_, value⟩ :: rest => value.isSupported && areArgumentsSupported rest

/-- Whether a value and all values in it are of supported forms. -/
def Value.isSupported : Value → Bool
  | .nested application => application.isSupported
  | .array values => areValuesSupported values
  | .unsupported _ => false
  | _ => true

/-- Whether some values and all values in them are of supported forms. -/
def areValuesSupported : List Value → Bool
  | [] => true
  | value :: rest => value.isSupported && areValuesSupported rest

end

theorem areArgumentsSupported_iff {arguments : List Argument} :
    areArgumentsSupported arguments = true ↔ ∀ a ∈ arguments, a.value.isSupported = true := by
  induction arguments with
  | nil => exact ⟨nofun, fun _ ↦ rfl⟩
  | cons a rest ih =>
    obtain ⟨name, value⟩ := a
    rw [areArgumentsSupported, Bool.and_eq_true, ih, List.forall_mem_cons]

theorem areValuesSupported_iff {values : List Value} :
    areValuesSupported values = true ↔ ∀ v ∈ values, v.isSupported = true := by
  induction values with
  | nil => exact ⟨nofun, fun _ ↦ rfl⟩
  | cons v rest ih => rw [areValuesSupported, Bool.and_eq_true, ih, List.forall_mem_cons]

theorem Application.isSupported_iff {a : Application} :
    a.isSupported = true ↔ ∀ b ∈ a.arguments, b.value.isSupported = true := by
  obtain ⟨classId, target, arguments⟩ := a
  rw [Application.isSupported, areArgumentsSupported_iff]

/-- A value of an unsupported form is in no supported value. -/
theorem Value.Holds.not_isSupported {what : String} {v : Value} (h : v.Holds what) :
    ¬ v.isSupported = true := by
  induction h with
  | unsupported => exact nofun
  | array mem _ ih =>
    rw [Value.isSupported]
    exact fun supported ↦ ih (areValuesSupported_iff.mp supported _ mem)
  | nested mem _ ih =>
    rw [Value.isSupported]
    exact fun supported ↦ ih (Application.isSupported_iff.mp supported _ mem)

/-- Supported values are written without a fault. -/
theorem Value.exists_text (v : Value) (h : v.isSupported = true) : ∃ text, v.text = .ok text := by
  have none : v.unwritable = [] := List.eq_nil_iff_forall_not_mem.mpr fun what mem ↦
    (v.holds_of_mem mem).not_isSupported h
  exact (none ▸ v.stopsAt).exists_ok

theorem Application.not_holds {a : Application} (h : a.isSupported = true) (what : String) :
    ¬ a.Holds what :=
  fun ⟨b, mem, holds⟩ ↦ holds.not_isSupported (isSupported_iff.mp h b mem)

/-- Supported applications are written without a fault. -/
theorem Application.exists_text (a : Application) (h : a.isSupported = true) :
    ∃ text, a.text = .ok text := by
  have none : a.unwritable = [] := List.eq_nil_iff_forall_not_mem.mpr fun what mem ↦
    not_holds h what (mem_unwritable_iff.mp mem)
  exact (none ▸ a.stopsAt).exists_ok

theorem Argument.exists_project (a : Argument) (h : a.value.isSupported = true) :
    ∃ p, a.project = .ok p :=
  exists_bind_eq_ok (a.value.exists_text h) fun _ ↦ ⟨_, rfl⟩

theorem Application.exists_project (a : Application) (h : a.isSupported = true) :
    ∃ p, a.project = .ok p := by
  have arguments : ∃ ps, a.arguments.mapM Argument.project = .ok ps :=
    exists_mapM_eq_ok fun b hb ↦ b.exists_project (isSupported_iff.mp h b hb)
  exact exists_bind_eq_ok arguments fun _ ↦ exists_bind_eq_ok (a.exists_text h) fun _ ↦ ⟨_, rfl⟩

/-- Supported applications are converted without a fault. -/
theorem exists_project {applications : List Application}
    (h : ∀ a ∈ applications, a.isSupported = true) : ∃ as, project applications = .ok as :=
  exists_mapM_eq_ok fun a ha ↦ a.exists_project (h a ha)

theorem exists_projectFor (target : UseSiteTarget) {applications : List Application}
    (h : ∀ a ∈ applications, a.target = some target → a.isSupported = true) :
    ∃ as, projectFor target applications = .ok as := by
  refine exists_project fun a ha ↦ ?_
  obtain ⟨ha, recorded⟩ := List.mem_filter.mp ha
  exact h a ha (beq_iff_eq.mp recorded)

end Annotations

/-! ## Types -/

mutual

/-- Whether all annotations in a type are supported. -/
def TypeTerm.isSupported : TypeTerm → Bool
  | ⟨shape, _, annotations⟩ => annotations.all (·.isSupported) && shape.isSupported

/-- Whether all annotations in a shape are supported. -/
def TypeShape.isSupported : TypeShape → Bool
  | .classType _ _ qualifiers none => areQualifiersSupported qualifiers
  | .classType _ _ qualifiers (some expansion) =>
    areQualifiersSupported qualifiers && expansion.isSupported
  | .captured projection => projection.isSupported
  | .notNull base => base.isSupported
  | .flexible lower upper => lower.isSupported && upper.isSupported
  | .intersection conjuncts => areTypesSupported conjuncts
  | _ => true

/-- Whether all annotations in some types are supported. -/
def areTypesSupported : List TypeTerm → Bool
  | [] => true
  | t :: rest => t.isSupported && areTypesSupported rest

/-- Whether all annotations in some qualifiers are supported. -/
def areQualifiersSupported : List ClassQualifier → Bool
  | [] => true
  | ⟨_, arguments⟩ :: rest => areProjectionsSupported arguments && areQualifiersSupported rest

/-- Whether all annotations in some type arguments are supported. -/
def areProjectionsSupported : List TypeProjection → Bool
  | [] => true
  | p :: rest => p.isSupported && areProjectionsSupported rest

/-- Whether all annotations in a type argument are supported. -/
def TypeProjection.isSupported : TypeProjection → Bool
  | .star => true
  | .typed _ type => type.isSupported

end

theorem areTypesSupported_iff {ts : List TypeTerm} :
    areTypesSupported ts = true ↔ ∀ t ∈ ts, t.isSupported = true := by
  induction ts with
  | nil => exact ⟨nofun, fun _ ↦ rfl⟩
  | cons t rest ih => rw [areTypesSupported, Bool.and_eq_true, ih, List.forall_mem_cons]

theorem areProjectionsSupported_iff {ps : List TypeProjection} :
    areProjectionsSupported ps = true ↔ ∀ p ∈ ps, p.isSupported = true := by
  induction ps with
  | nil => exact ⟨nofun, fun _ ↦ rfl⟩
  | cons p rest ih => rw [areProjectionsSupported, Bool.and_eq_true, ih, List.forall_mem_cons]

theorem areQualifiersSupported_iff {qs : List ClassQualifier} :
    areQualifiersSupported qs = true ↔
      ∀ q ∈ qs, ∀ p ∈ q.arguments, p.isSupported = true := by
  induction qs with
  | nil => exact ⟨nofun, fun _ ↦ rfl⟩
  | cons q rest ih =>
    obtain ⟨name, arguments⟩ := q
    rw [areQualifiersSupported, Bool.and_eq_true, ih, List.forall_mem_cons,
      areProjectionsSupported_iff]

variable {f g : Bool} {t u : TypeTerm}

/-- The types that are written directly as parts of a supported shape are supported. -/
theorem TypeShape.Writes.isSupported {shape : TypeShape} (h : shape.Writes f g t)
    (supported : shape.isSupported = true) : t.isSupported = true := by
  cases h with
  | @argument _ _ _ qualifiers expansion _ _ _ _ mem argument =>
    have all : areQualifiersSupported qualifiers = true := by
      cases expansion with
      | none => exact supported
      | some expansion => exact (Bool.and_eq_true_iff.mp supported).1
    exact areQualifiersSupported_iff.mp all _ mem _ argument
  | expansion => exact (Bool.and_eq_true_iff.mp supported).2
  | captured => exact supported
  | notNull => exact supported
  | lower => exact (Bool.and_eq_true_iff.mp supported).1
  | upper => exact (Bool.and_eq_true_iff.mp supported).2
  | conjunct mem => exact areTypesSupported_iff.mp supported _ mem

theorem TypeTerm.isSupported_iff : t.isSupported = true ↔
    (∀ a ∈ t.annotations, a.isSupported = true) ∧ t.shape.isSupported = true := by
  obtain ⟨shape, nullability, annotations⟩ := t
  rw [TypeTerm.isSupported, Bool.and_eq_true, List.all_eq_true]

/-- Whatever is written with a supported type is supported. -/
theorem TypeTerm.Visits.isSupported (h : t.Visits f u) (supported : t.isSupported = true) :
    u.isSupported = true := by
  obtain ⟨g, steps⟩ := h
  suffices whole : ∀ q, Relation.ReflTransGen TypeTerm.Writes (f, t) q → q.2.isSupported = true from
    whole (g, u) steps
  intro q steps
  induction steps with
  | refl => exact supported
  | tail _ step ih => exact TypeShape.Writes.isSupported step (isSupported_iff.mp ih).2

/-- **A type with supported annotations is written without a fault.** -/
theorem TypeTerm.exists_text {policy : SuffixPolicy} (f : Bool) (t : TypeTerm)
    (h : t.isSupported = true) : ∃ text, t.text policy f = .ok text := by
  have none : t.unwritable f = [] := by
    refine List.eq_nil_iff_forall_not_mem.mpr fun what mem ↦ ?_
    obtain ⟨u, visits, a, ha, holds⟩ := mem_unwritable_iff.mp mem
    exact Annotations.Application.not_holds ((isSupported_iff.mp (visits.isSupported h)).1 a ha)
      what holds
  exact (none ▸ t.stopsAt f).exists_ok

end SymbolView
