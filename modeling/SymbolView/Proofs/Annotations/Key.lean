import SymbolView.Annotations.Text
import SymbolView.Proofs.Annotations.Names

/-!
# What the text of an annotation shows

An `ApplicationKey` is an annotation without what its text does not show: the package and the outer
classes of the annotation class, the names of the arguments, and whether a class is local.

A key is readable (`ApplicationKey.isReadable`) if its names are names and its values are known ones
other than floating-point numbers, literals of local classes, which are written like those of
classes without a package, and callables outside of classes.  Then the text of the annotation is
that of its key (`Application.text_of_isReadable`).
-/

set_option autoImplicit false

namespace SymbolView
namespace Annotations

mutual

/-- What the text of an annotation shows. -/
structure ApplicationKey where
  /-- Where the annotation is to land, if that is written. -/
  target : Option UseSiteTarget
  /-- The innermost name of its class. -/
  name : String
  /-- The values of the arguments in order. -/
  values : List ValueKey

/-- What the text of a value shows. -/
inductive ValueKey where
  /-- Another annotation. -/
  | nested (application : ApplicationKey)
  /-- A list of values. -/
  | array (values : List ValueKey)
  /-- A literal. -/
  | constant (constant : Constant)
  /-- An enum entry. -/
  | enumEntry (entry : CallableId)
  /-- A class literal that could not be resolved. -/
  | errorClass
  /-- The literal of a class inside a function body. -/
  | localClass (name : String)
  /-- The literal of any other class. -/
  | nonLocalClass (id : ClassId)
  /-- A form of value that is not written. -/
  | unsupported (what : String)

end

mutual

/-- The key of an application. -/
def Application.key : Application → ApplicationKey
  | ⟨classId, target, arguments⟩ => ⟨target, classId.shortName, argumentKeys arguments⟩

/-- The keys of the values of arguments. -/
def argumentKeys : List Argument → List ValueKey
  | [] => []
  | ⟨_, value⟩ :: rest => value.key :: argumentKeys rest

/-- The key of a value. -/
def Value.key : Value → ValueKey
  | .nested application => .nested application.key
  | .array values => .array (valueKeys values)
  | .constant c => .constant c
  | .enumEntry entry => .enumEntry entry.asNonLocal
  | .errorClass => .errorClass
  | .localClass name => .localClass name
  | .nonLocalClass id => .nonLocalClass id.asNonLocal
  | .unsupported what => .unsupported what

/-- The keys of values. -/
def valueKeys : List Value → List ValueKey
  | [] => []
  | value :: rest => value.key :: valueKeys rest

end

theorem argumentKeys_eq_map (arguments : List Argument) :
    argumentKeys arguments = arguments.map (·.value.key) := by
  induction arguments with
  | nil => rfl
  | cons argument rest ih =>
    obtain ⟨name, value⟩ := argument
    rw [argumentKeys, ih, List.map_cons]

/-! ## Keys that can be read back -/

/-- Whether the text of a constant tells it: floating-point numbers are left out. -/
def isReadableConstant : Constant → Bool
  | .float _ | .double _ => false
  | _ => true

mutual

/-- Whether the text of an application tells its key. -/
def ApplicationKey.isReadable : ApplicationKey → Bool
  | ⟨_, name, values⟩ => isName name && areReadable values

/-- Whether the text of a value tells its key. -/
def ValueKey.isReadable : ValueKey → Bool
  | .nested application => application.isReadable
  | .array values => areReadable values
  | .constant c => isReadableConstant c
  | .enumEntry entry => entry.isNamed && entry == entry.asNonLocal
  | .errorClass => true
  | .localClass _ => false
  | .nonLocalClass id => id.isNamed && id == id.asNonLocal
  | .unsupported _ => false

/-- Whether the texts of values tell their keys. -/
def areReadable : List ValueKey → Bool
  | [] => true
  | value :: rest => value.isReadable && areReadable rest

end

theorem areReadable_iff {values : List ValueKey} :
    areReadable values = true ↔ ∀ value ∈ values, value.isReadable = true := by
  induction values with
  | nil => simp [areReadable]
  | cons value rest ih => simp [areReadable, ih]

/-! ## The characters of a text -/

/-- What stands between the sign of an annotation and its name. -/
def targetChars : Option UseSiteTarget → List Char
  | some target => target.keyword.toList ++ [':']
  | none => []

/-- Values in round brackets; nothing if there are none. -/
def inBrackets : List (List Char) → List Char
  | [] => []
  | lines => '(' :: ([',', ' '].intercalate lines ++ [')'])

/-- What stands for a class that could not be resolved. -/
def errorClassChars : List Char := "<Error class>".toList

/-- What stands after the name of a class in its literal. -/
def classSuffix : List Char := "::class".toList

mutual

/-- The characters of the text of an application. -/
def ApplicationKey.chars : ApplicationKey → List Char
  | ⟨target, name, values⟩ =>
    '@' :: (targetChars target ++ (name.toList ++ inBrackets (valueChars values)))

/-- The characters of the text of a value. -/
def ValueKey.chars : ValueKey → List Char
  | .nested application => application.chars
  | .array values => '\x7b' :: ([','].intercalate (valueChars values) ++ ['\x7d'])
  | .constant c => c.text.toList
  | .enumEntry entry => entry.text.toList
  | .errorClass => errorClassChars
  | .localClass name => name.toList ++ classSuffix
  | .nonLocalClass id => id.text.toList ++ classSuffix
  | .unsupported _ => []

/-- The characters of the texts of values. -/
def valueChars : List ValueKey → List (List Char)
  | [] => []
  | value :: rest => value.chars :: valueChars rest

end

theorem valueChars_eq_map (values : List ValueKey) : valueChars values = values.map (·.chars) := by
  induction values with
  | nil => rfl
  | cons value rest ih => rw [valueChars, ih, List.map_cons]

theorem toList_parenthesized (texts : List String) :
    (parenthesized texts).toList = inBrackets (texts.map String.toList) := by
  cases texts with
  | nil => rfl
  | cons text rest =>
    show ("(" ++ ", ".intercalate (text :: rest) ++ ")").toList = _
    rw [String.toList_append, String.toList_append, String.toList_intercalate]
    rfl

theorem toList_head (classId : ClassId) (target : Option UseSiteTarget) :
    (head classId target).toList = '@' :: (targetChars target ++ classId.shortName.toList) := by
  cases target <;> simp [head, targetChars]

mutual

/-- The text of an application, if its key can be read back. -/
theorem Application.text_of_isReadable : ∀ a : Application, a.key.isReadable = true →
    ∃ text, a.text = .ok text ∧ text.toList = a.key.chars
  | ⟨classId, target, arguments⟩, h => by
    rw [Application.key, ApplicationKey.isReadable, Bool.and_eq_true] at h
    obtain ⟨texts, htexts, hchars⟩ := argumentTexts_of_areReadable arguments h.2
    refine ⟨head classId target ++ parenthesized texts, ?_, ?_⟩
    · rw [Application.text, htexts]
      rfl
    · rw [String.toList_append, toList_head, toList_parenthesized, hchars, Application.key,
        ApplicationKey.chars, List.cons_append, List.append_assoc]

theorem argumentTexts_of_areReadable : ∀ arguments : List Argument,
    areReadable (argumentKeys arguments) = true →
      ∃ texts, argumentTexts arguments = .ok texts ∧
        texts.map String.toList = valueChars (argumentKeys arguments)
  | [], _ => ⟨[], rfl, rfl⟩
  | ⟨name, value⟩ :: rest, h => by
    rw [argumentKeys, areReadable, Bool.and_eq_true] at h
    obtain ⟨text, htext, hchars⟩ := value.text_of_isReadable h.1
    obtain ⟨texts, htexts, hrest⟩ := argumentTexts_of_areReadable rest h.2
    refine ⟨text :: texts, ?_, ?_⟩
    · rw [argumentTexts, htext, htexts]
      rfl
    · rw [List.map_cons, hchars, hrest, argumentKeys, valueChars]

/-- The text of a value, if its key can be read back. -/
theorem Value.text_of_isReadable : ∀ v : Value, v.key.isReadable = true →
    ∃ text, v.text = .ok text ∧ text.toList = v.key.chars
  | .nested application, h => application.text_of_isReadable h
  | .array values, h => by
    obtain ⟨texts, htexts, hchars⟩ := valueTexts_of_areReadable values h
    refine ⟨"\x7b" ++ ",".intercalate texts ++ "\x7d", ?_, ?_⟩
    · rw [Value.text, htexts]
      rfl
    · rw [String.toList_append, String.toList_append, String.toList_intercalate, hchars]
      rfl
  | .constant c, _ => ⟨c.text, rfl, rfl⟩
  | .enumEntry entry, _ => by
    refine ⟨entry.text, rfl, ?_⟩
    obtain ⟨package, owner, name⟩ := entry
    cases owner <;> rfl
  | .errorClass, _ => ⟨_, rfl, rfl⟩
  | .localClass name, h => by cases h
  | .nonLocalClass id, _ => ⟨id.text ++ "::class", rfl, String.toList_append⟩
  | .unsupported what, h => by cases h

theorem valueTexts_of_areReadable : ∀ values : List Value,
    areReadable (valueKeys values) = true →
      ∃ texts, valueTexts values = .ok texts ∧
        texts.map String.toList = valueChars (valueKeys values)
  | [], _ => ⟨[], rfl, rfl⟩
  | value :: rest, h => by
    rw [valueKeys, areReadable, Bool.and_eq_true] at h
    obtain ⟨text, htext, hchars⟩ := value.text_of_isReadable h.1
    obtain ⟨texts, htexts, hrest⟩ := valueTexts_of_areReadable rest h.2
    refine ⟨text :: texts, ?_, ?_⟩
    · rw [valueTexts, htext, htexts]
      rfl
    · rw [List.map_cons, hchars, hrest, valueKeys, valueChars]

end

end Annotations
end SymbolView
