import SymbolView.Annotations.Text

/-!
# Annotations as generators see them

A `Projected` annotation holds text in place of values, so it can outlive the host it came from.
`project` converts applications one by one; `projectFor` keeps those recorded with one use-site
target and converts only those.
-/

set_option autoImplicit false

namespace SymbolView
namespace Annotations

/-- An argument whose value has been written. -/
structure ProjectedArgument where
  /-- The name of the parameter. -/
  name : String
  /-- The text of the value. -/
  value : String
deriving DecidableEq

/-- An annotation whose values have been written. -/
structure Projected where
  /-- The class of the annotation. -/
  classId : ClassId
  /-- Where the annotation is to land, if that is written. -/
  target : Option UseSiteTarget
  /-- The arguments in order. -/
  arguments : List ProjectedArgument
  /-- The text of the whole annotation. -/
  rendered : String
deriving DecidableEq

/-- The value of the first argument of that name. -/
def Projected.argument? (a : Projected) (name : String) : Option String :=
  (a.arguments.find? (·.name == name)).map (·.value)

/-- One argument with its value written. -/
def Argument.project (a : Argument) : Except Fault ProjectedArgument := do
  return ⟨a.name, ← a.value.text⟩

/-- One application with its values written. -/
def Application.project (a : Application) : Except Fault Projected := do
  let arguments ← a.arguments.mapM Argument.project
  return ⟨a.classId, a.target, arguments, ← a.text⟩

/-- All applications with their values written, in order. -/
def project (applications : List Application) : Except Fault (List Projected) :=
  applications.mapM Application.project

/-- The applications recorded with a use-site target, with their values written, in order. -/
def projectFor (target : UseSiteTarget) (applications : List Application) :
    Except Fault (List Projected) :=
  project (applications.filter (·.target == some target))

end Annotations
end SymbolView
