import SymbolView.Host.Kind
import SymbolView.Key
import SymbolView.Text.Quoted

/-!
# Declarations

A `Declaration` is the adapter through which generators see a symbol.  A session makes one per
symbol and hands out that one ever after; the session and the serial number tell adapters apart.
-/

set_option autoImplicit false

namespace SymbolView

/-- What a declaration is. -/
inductive DeclarationKind where
  | cls
  | enumEntry
  | function
  | property
  | javaField
  | localVariable
  | typeAlias
  | file
  | typeParameter
  | getter
  | setter
  | valueParameter
deriving DecidableEq

/-- What a declaration is, coarsely. -/
inductive DeclarationCategory where
  | classLike
  | function
  | property
  | typeAlias
  | file
  | typeParameter
  | accessor
  | valueParameter
deriving DecidableEq

namespace DeclarationKind

/-- The kind of the declaration of a symbol. -/
def ofSymbol : SymbolKind → DeclarationKind
  | .property => property
  | .namedClass => cls
  | .functionLike => function
  | .typeAlias => typeAlias
  | .javaField => javaField
  | .file => file
  | .enumEntry => enumEntry
  | .typeParameter => typeParameter
  | .localVariable => localVariable
  | .propertyGetter => getter
  | .propertySetter => setter
  | .valueParameter => valueParameter

/-- The word for a kind. -/
def label : DeclarationKind → String
  | cls => "class"
  | enumEntry => "enum_entry"
  | function => "function"
  | property => "property"
  | javaField => "java_field"
  | localVariable => "local_variable"
  | typeAlias => "type_alias"
  | file => "file"
  | typeParameter => "type_parameter"
  | getter => "getter"
  | setter => "setter"
  | valueParameter => "value_parameter"

/-- The name of a kind in a summary. -/
def name : DeclarationKind → String
  | cls => "Class"
  | enumEntry => "EnumEntry"
  | function => "Function"
  | property => "Property"
  | javaField => "JavaField"
  | localVariable => "LocalVariable"
  | typeAlias => "TypeAlias"
  | file => "File"
  | typeParameter => "TypeParameter"
  | getter => "Getter"
  | setter => "Setter"
  | valueParameter => "ValueParameter"

/-- The category of a kind. -/
def category : DeclarationKind → DeclarationCategory
  | cls => .classLike
  | enumEntry => .classLike
  | function => .function
  | property => .property
  | javaField => .property
  | localVariable => .property
  | typeAlias => .typeAlias
  | file => .file
  | typeParameter => .typeParameter
  | getter => .accessor
  | setter => .accessor
  | valueParameter => .valueParameter

/-- Whether declarations of the kind have members. -/
def hasMembers (kind : DeclarationKind) : Bool := kind.category == .classLike

/-- Whether declarations of the kind are properties or exposed like them. -/
def isPropertyLike (kind : DeclarationKind) : Bool := kind.category == .property

/-- Whether declarations of the kind are getters or setters. -/
def isAccessor (kind : DeclarationKind) : Bool := kind.category == .accessor

end DeclarationKind

/-- The adapter of a symbol in a session. -/
structure Declaration where
  /-- The symbol. -/
  symbol : SymbolId
  /-- What the symbol was when the adapter was made. -/
  kind : DeclarationKind
  /-- The name of the symbol when the adapter was made. -/
  name : Option String
  /-- The session that made the adapter. -/
  session : SessionId
  /-- How many adapters the session had made before. -/
  serial : Nat
deriving DecidableEq

/-- The name, or a word in its place. -/
def Declaration.text (d : Declaration) : String := d.name.getD "<anonymous>"

/-- The symbol, the kind and the name, for whoever looks for a mistake. -/
def Declaration.summary (d : Declaration) : String :=
  "Declaration \x7b symbol: SymbolId(" ++ d.symbol.val.toNat.repr ++ "), kind: " ++ d.kind.name
    ++ ", name: " ++ (match d.name with
      | some name => "Some(" ++ Text.quoted name ++ ")"
      | none => "None") ++ " \x7d"

end SymbolView
