import SymbolView.Constant
import SymbolView.QualifiedName
import SymbolView.Host.Kind

/-!
# Annotations as a host records them

An application of an annotation names the annotation class, the use-site target if one is written,
and the arguments in order.  An argument value may be an annotation or a list of values, so
applications, arguments and values are defined together.

`Application.same` compares two applications in everything, constants by `Constant.same`.
-/

set_option autoImplicit false

namespace SymbolView
namespace Annotations

mutual

/-- One use of an annotation. -/
structure Application where
  /-- The class of the annotation. -/
  classId : ClassId
  /-- Where the annotation is to land, if that is written. -/
  target : Option UseSiteTarget
  /-- The arguments in order. -/
  arguments : List Argument

/-- A named argument of an annotation. -/
structure Argument where
  /-- The name of the parameter. -/
  name : String
  /-- The value given for it. -/
  value : Value

/-- The value of an annotation argument. -/
inductive Value where
  /-- Another annotation. -/
  | nested (application : Application)
  /-- A list of values. -/
  | array (values : List Value)
  /-- A literal. -/
  | constant (constant : Constant)
  /-- An enum entry. -/
  | enumEntry (entry : CallableId)
  /-- A class literal that could not be resolved. -/
  | errorClass
  /-- The literal of a class inside a function body. -/
  | localClass (name : String)
  /-- The literal of any other class. -/
  | nonLocalClass (id : ClassId)
  /-- A form of value that is not known here. -/
  | unsupported (what : String)

end

mutual

/-- Whether two applications agree in everything. -/
def Application.same : Application → Application → Bool
  | ⟨classId, target, arguments⟩, other =>
    classId == other.classId && target == other.target && sameArguments arguments other.arguments

/-- Whether two lists of arguments agree in everything. -/
def sameArguments : List Argument → List Argument → Bool
  | [], [] => true
  | ⟨name, value⟩ :: rest, other :: others =>
    name == other.name && value.same other.value && sameArguments rest others
  | _, _ => false

/-- Whether two values agree in everything. -/
def Value.same : Value → Value → Bool
  | .nested a, .nested b => a.same b
  | .array vs, .array ws => sameValues vs ws
  | .constant c, .constant d => c.same d
  | .enumEntry c, .enumEntry d => c == d
  | .errorClass, .errorClass => true
  | .localClass m, .localClass n => m == n
  | .nonLocalClass c, .nonLocalClass d => c == d
  | .unsupported m, .unsupported n => m == n
  | _, _ => false

/-- Whether two lists of values agree in everything. -/
def sameValues : List Value → List Value → Bool
  | [], [] => true
  | v :: vs, w :: ws => v.same w && sameValues vs ws
  | _, _ => false

end

/-- Whether two lists of applications agree in everything. -/
def sameApplications : List Application → List Application → Bool
  | [], [] => true
  | a :: as, b :: bs => a.same b && sameApplications as bs
  | _, _ => false

end Annotations
end SymbolView
