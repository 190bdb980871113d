import SymbolView.Annotations.Text

/-!
# Annotations that cannot be written

An annotation cannot be written if a value of an unsupported form is in one of its arguments, at any
depth (`Annotations.Value.Holds`).  `Annotations.Application.unwritable` lists these values in the
order of writing, and writing ends with the first of them as its fault.

`StopsAt` says so of any computation.  It goes through each step of a computation (`StopsAt.bind`),
so the functions that write need one short case for each form.
-/

set_option autoImplicit false

namespace SymbolView

/-! ## Computations that stop -/

section StopsAt

variable {α β : Type} {values others : List String} {x : Except Fault α} {f : α → Except Fault β}

/-- Whether a computation ends with the first of some values as its fault, or without a fault if
there are none. -/
def StopsAt (values : List String) (x : Except Fault α) : Prop :=
  ∀ fault, x = .error fault ↔ ∃ what, fault = .unsupportedValue what ∧ values.head? = some what

namespace StopsAt

theorem ok (a : α) : StopsAt [] (.ok a : Except Fault α) := fun _ ↦
  ⟨nofun, fun ⟨_, _, h⟩ ↦ nomatch h⟩

theorem error (what : String) (rest : List String) :
    StopsAt (what :: rest) (.error (.unsupportedValue what) : Except Fault α) := by
  intro fault
  constructor
  · rintro ⟨rfl⟩
    exact ⟨what, rfl, rfl⟩
  · rintro ⟨_, rfl, ⟨rfl⟩⟩
    rfl

/-- A computation that stops nowhere ends with a value. -/
theorem exists_ok (h : StopsAt [] x) : ∃ a, x = .ok a := by
  cases x with
  | ok a => exact ⟨a, rfl⟩
  | error fault =>
    obtain ⟨_, _, none⟩ := (h fault).mp rfl
    cases none

theorem bind (h : StopsAt values x) (hf : ∀ a, StopsAt others (f a)) :
    StopsAt (values ++ others) (x >>= f) := by
  cases values with
  | nil =>
    obtain ⟨a, rfl⟩ := h.exists_ok
    exact hf a
  | cons what rest =>
    obtain rfl := (h _).mpr ⟨what, rfl, rfl⟩
    exact error what _

/-- The rule for what is done with the values of computations. -/
theorem map (h : StopsAt values x) (g : α → β) : StopsAt values (x >>= fun a ↦ .ok (g a)) := by
  have := h.bind fun a ↦ ok (g a)
  rwa [List.append_nil] at this

theorem exists_error_iff (h : StopsAt values x) :
    (∃ fault, x = .error fault) ↔ ∃ what, what ∈ values := by
  cases values with
  | nil =>
    obtain ⟨a, rfl⟩ := h.exists_ok
    exact ⟨nofun, nofun⟩
  | cons what rest => exact ⟨fun _ ↦ ⟨what, .head _⟩, fun _ ↦ ⟨_, (h _).mpr ⟨what, rfl, rfl⟩⟩⟩

end StopsAt
end StopsAt

/-! ## Annotations -/

namespace Annotations

/-- Whether a value of an unsupported form is a value or somewhere in it. -/
inductive Value.Holds (what : String) : Value → Prop
  | unsupported : Holds what (.unsupported what)
  | array {values : List Value} {value : Value} (mem : value ∈ values) (h : Holds what value) :
      Holds what (.array values)
  | nested {application : Application} {argument : Argument}
      (mem : argument ∈ application.arguments) (h : Holds what argument.value) :
      Holds what (.nested application)

/-- Whether a value of an unsupported form is in an argument of an application. -/
def Application.Holds (what : String) (a : Application) : Prop :=
  ∃ argument ∈ a.arguments, argument.value.Holds what

mutual

/-- What is of an unsupported form in an application, from left to right. -/
def Application.unwritable : Application → List String
  | ⟨_, _, arguments⟩ => unwritableArguments arguments

/-- What is of an unsupported form in some arguments, from left to right. -/
def unwritableArguments : List Argument → List String
  | [] => []
  | ⟨_, value⟩ :: rest => value.unwritable ++ unwritableArguments rest

/-- What is of an unsupported form in a value, from left to right. -/
def Value.unwritable : Value → List String
  | .nested application => application.unwritable
  | .array values => unwritableValues values
  | .unsupported what => [what]
  | _ => []

/-- What is of an unsupported form in some values, from left to right. -/
def unwritableValues : List Value → List String
  | [] => []
  | value :: rest => value.unwritable ++ unwritableValues rest

end

theorem unwritableArguments_eq_flatMap (arguments : List Argument) :
    unwritableArguments arguments = arguments.flatMap (·.value.unwritable) := by
  induction arguments with
  | nil => rfl
  | cons a rest ih =>
    obtain ⟨name, value⟩ := a
    rw [unwritableArguments, ih, List.flatMap_cons]

theorem Application.unwritable_eq_flatMap : ∀ a : Application,
    a.unwritable = a.arguments.flatMap (·.value.unwritable)
  | ⟨_, _, arguments⟩ => unwritableArguments_eq_flatMap arguments

theorem unwritableValues_eq_flatMap (values : List Value) :
    unwritableValues values = values.flatMap Value.unwritable := by
  induction values with
  | nil => rfl
  | cons value rest ih => rw [unwritableValues, ih, List.flatMap_cons]

variable {what : String}

theorem Value.Holds.mem_unwritable {v : Value} (h : v.Holds what) : what ∈ v.unwritable := by
  induction h with
  | unsupported => exact .head _
  | array mem _ ih =>
    rw [unwritable, unwritableValues_eq_flatMap]
    exact List.mem_flatMap.mpr ⟨_, mem, ih⟩
  | nested mem _ ih =>
    rw [unwritable, Application.unwritable_eq_flatMap]
    exact List.mem_flatMap.mpr ⟨_, mem, ih⟩

mutual

theorem Application.holds_of_mem : ∀ a : Application, what ∈ a.unwritable → a.Holds what
  | ⟨_, _, arguments⟩, h => holds_of_mem_arguments arguments h

theorem holds_of_mem_arguments : ∀ arguments : List Argument, what ∈ unwritableArguments arguments →
    ∃ a ∈ arguments, a.value.Holds what
  | ⟨name, value⟩ :: rest, h => by
    rw [unwritableArguments, List.mem_append] at h
    rcases h with h | h
    · exact ⟨⟨name, value⟩, .head _, value.holds_of_mem h⟩
    · obtain ⟨a, ha, holds⟩ := holds_of_mem_arguments rest h
      exact ⟨a, .tail _ ha, holds⟩

theorem Value.holds_of_mem : ∀ v : Value, what ∈ v.unwritable → v.Holds what
  | .nested application, h => by
    obtain ⟨a, ha, holds⟩ := application.holds_of_mem h
    exact .nested ha holds
  | .array values, h => by
    obtain ⟨v, hv, holds⟩ := holds_of_mem_values values h
    exact .array hv holds
  | .unsupported _, h => by
    obtain rfl := List.mem_singleton.mp h
    exact .unsupported

theorem holds_of_mem_values : ∀ values : List Value, what ∈ unwritableValues values →
    ∃ v ∈ values, v.Holds what
  | value :: rest, h => by
    rw [unwritableValues, List.mem_append] at h
    rcases h with h | h
    · exact ⟨value, .head _, value.holds_of_mem h⟩
    · obtain ⟨v, hv, holds⟩ := holds_of_mem_values rest h
      exact ⟨v, .tail _ hv, holds⟩

end

theorem Application.mem_unwritable_iff {a : Application} : what ∈ a.unwritable ↔ a.Holds what := by
  refine ⟨a.holds_of_mem, fun ⟨argument, mem, h⟩ ↦ ?_⟩
  rw [unwritable_eq_flatMap]
  exact List.mem_flatMap.mpr ⟨argument, mem, h.mem_unwritable⟩

mutual

theorem Application.stopsAt : ∀ a : Application, StopsAt a.unwritable a.text
  | ⟨_, _, arguments⟩ => by
    rw [Application.unwritable, Application.text]
    exact (stopsAt_argumentTexts arguments).map _

theorem stopsAt_argumentTexts : ∀ arguments : List Argument,
    StopsAt (unwritableArguments arguments) (argumentTexts arguments)
  | [] => .ok []
  | ⟨_, value⟩ :: rest => by
    rw [unwritableArguments, argumentTexts]
    exact value.stopsAt.bind fun _ ↦ (stopsAt_argumentTexts rest).map _

theorem Value.stopsAt : ∀ v : Value, StopsAt v.unwritable v.text
  | .nested application => by
    rw [Value.unwritable, Value.text]
    exact application.stopsAt
  | .array values => by
    rw [Value.unwritable, Value.text]
    exact (stopsAt_valueTexts values).map _
  | .constant _ => .ok _
  | .enumEntry _ => .ok _
  | .errorClass => .ok _
  | .localClass _ => .ok _
  | .nonLocalClass _ => .ok _
  | .unsupported what => .error what []

theorem stopsAt_valueTexts : ∀ values : List Value,
    StopsAt (unwritableValues values) (valueTexts values)
  | [] => .ok []
  | value :: rest => by
    rw [unwritableValues, valueTexts]
    exact value.stopsAt.bind fun _ ↦ (stopsAt_valueTexts rest).map _

end

end Annotations

end SymbolView
