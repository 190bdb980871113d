import SymbolView.Text.Pieces

/-!
# Names of classes and callables

A `ClassId` and a `CallableId` name a class and a callable independently of the front end that
declares them.  Package segments are written with slashes, nested classes with dots, so the text of
an id looks like `a/b/Outer.Inner`.
-/

set_option autoImplicit false

namespace SymbolView

/-- The name of a class or type alias. -/
structure ClassId where
  /-- The segments of the package, outermost first. -/
  package : List String
  /-- The class and the classes around it, outermost first. -/
  relative : List String
  /-- Whether the class is declared inside a function body. -/
  isLocal : Bool
deriving DecidableEq

namespace ClassId

/-- The id with a dotted package and a dotted class path; empty segments are left out. -/
def ofDotted (package relative : String) : ClassId :=
  ⟨Text.segments '.' package, Text.segments '.' relative, false⟩

/-- The same id, of a local class. -/
def asLocal (id : ClassId) : ClassId := { id with isLocal := true }

/-- The innermost class name; empty if the class path is. -/
def shortName (id : ClassId) : String := id.relative.getLastD ""

/-- The class around this one.  It is looked up like a class that is not local, whatever the inner
class is. -/
def outer? (id : ClassId) : Option ClassId :=
  if id.relative.length < 2 then none else some ⟨id.package, id.relative.dropLast, false⟩

/-- The class `name` inside this one. -/
def nested (id : ClassId) (name : String) : ClassId :=
  { id with relative := id.relative ++ [name] }

/-- All segments, joined with dots. -/
def qualifiedName (id : ClassId) : String := ".".intercalate (id.package ++ id.relative)

/-- The package with a slash after each segment, then the class path joined with dots. -/
def text (id : ClassId) : String :=
  (if id.package.isEmpty then "" else "/".intercalate id.package ++ "/")
    ++ ".".intercalate id.relative

end ClassId

/-- The name of a function, property or enum entry. -/
structure CallableId where
  /-- The segments of the package, outermost first. -/
  package : List String
  /-- The class that declares the callable, if one does. -/
  owner : Option ClassId
  /-- The callable's own name. -/
  name : String
deriving DecidableEq

namespace CallableId

/-- A callable declared in a class; it is in the package of the class. -/
def member (owner : ClassId) (name : String) : CallableId := ⟨owner.package, some owner, name⟩

/-- A callable outside all classes, in a dotted package. -/
def ofDotted (package name : String) : CallableId := ⟨Text.segments '.' package, none, name⟩

/-- The class and the name with a dot between, or the package and the name with a slash between. A
package whose text is empty is left out with its slash. -/
def text (id : CallableId) : String :=
  match id.owner with
  | some owner => owner.text ++ "." ++ id.name
  | none =>
    let package := "/".intercalate id.package
    if package.isEmpty then id.name else package ++ "/" ++ id.name

end CallableId
end SymbolView
