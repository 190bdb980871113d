/-!
# JSON values

A `Json` is what a JSON text says.  Fields keep their order, and a name may come twice.  Natural
numbers are told apart from other numbers, which keep their notation.  A string literal may contain
an escape for half of a surrogate pair; it is then a legal literal, but no text.
-/

set_option autoImplicit false

namespace SymbolView

mutual

/-- A JSON value. -/
inductive Json where
  | null
  | bool (value : Bool)
  /-- A number that is written with digits alone. -/
  | natural (value : Nat)
  /-- A number in any other notation. -/
  | number (literal : List Char)
  /-- A string literal and the text it stands for. -/
  | string (content : Option String)
  | array (items : List Json)
  | object (fields : List JsonField)

/-- A name and its value in an object. -/
structure JsonField where
  /-- The name, which is a string literal too. -/
  key : Option String
  /-- The value. -/
  value : Json

end

/-- A string. -/
def Json.text (s : String) : Json := .string (some s)

/-- A field of an object. -/
def Json.field (name : String) (value : Json) : JsonField := ⟨some name, value⟩

end SymbolView
