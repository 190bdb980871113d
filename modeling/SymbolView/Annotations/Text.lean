import SymbolView.Annotations.Value
import SymbolView.Failure

/-!
# Annotations as text

An application is written as in source code: `@target:Name(value, value)`, with the short name of
the annotation class and without the names of the arguments.  Values of an unsupported form cannot
be written; the first one from the left is the fault of the whole text.
-/

set_option autoImplicit false

namespace SymbolView
namespace Annotations

/-- What stands before the arguments of an annotation. -/
def head (classId : ClassId) (target : Option UseSiteTarget) : String :=
  "@" ++ (match target with
    | some t => t.keyword ++ ":"
    | none => "") ++ classId.shortName

/-- The arguments in parentheses; nothing if there are none. -/
def parenthesized : List String → String
  | [] => ""
  | values => "(" ++ ", ".intercalate values ++ ")"

mutual

/-- The text of an application. -/
def Application.text : Application → Except Fault String
  | ⟨classId, target, arguments⟩ => do
    return head classId target ++ parenthesized (← argumentTexts arguments)

/-- The texts of the values of arguments. -/
def argumentTexts : List Argument → Except Fault (List String)
  | [] => pure []
  | ⟨_, value⟩ :: rest => do
    let text ← value.text
    return text :: (← argumentTexts rest)

/-- The text of a value. -/
def Value.text : Value → Except Fault String
  | .nested application => application.text
  | .array values => do return "\x7b" ++ ",".intercalate (← valueTexts values) ++ "\x7d"
  | .constant c => pure c.text
  | .enumEntry entry => pure entry.text
  | .errorClass => pure "<Error class>"
  | .localClass name => pure (name ++ "::class")
  | .nonLocalClass id => pure (id.text ++ "::class")
  | .unsupported what => throw (.unsupportedValue what)

/-- The texts of values. -/
def valueTexts : List Value → Except Fault (List String)
  | [] => pure []
  | value :: rest => do
    let text ← value.text
    return text :: (← valueTexts rest)

end

end Annotations
end SymbolView
