/-!
# What a host says about symbols and files

The closed sets of words in which a host describes symbols and files: the kind of a symbol, where it
comes from, its visibility and modality, and the kind of a file.
-/

set_option autoImplicit false

namespace SymbolView

/-- What a symbol is. -/
inductive SymbolKind where
  | property
  | namedClass
  | functionLike
  | typeAlias
  | javaField
  | file
  | enumEntry
  | typeParameter
  | localVariable
  | propertyGetter
  | propertySetter
  | valueParameter
deriving DecidableEq

/-- What a symbol is, in plain words. -/
def SymbolKind.label : SymbolKind → String
  | property => "property"
  | namedClass => "class"
  | functionLike => "function"
  | typeAlias => "type alias"
  | javaField => "java field"
  | file => "file"
  | enumEntry => "enum entry"
  | typeParameter => "type parameter"
  | localVariable => "local variable"
  | propertyGetter => "getter"
  | propertySetter => "setter"
  | valueParameter => "value parameter"

/-- How a symbol came to be. -/
inductive Provenance where
  | source
  | sourceMemberGenerated
  | library
  | java
  | samConstructor
  | intersectionOverride
  | substitutionOverride
  | delegated
  | javaSyntheticProperty
  | propertyBackingField
  | plugin
  | jsDynamic
deriving DecidableEq

/-- The tag of a provenance. -/
def Provenance.name : Provenance → String
  | source => "SOURCE"
  | sourceMemberGenerated => "SOURCE_MEMBER_GENERATED"
  | library => "LIBRARY"
  | java => "JAVA"
  | samConstructor => "SAM_CONSTRUCTOR"
  | intersectionOverride => "INTERSECTION_OVERRIDE"
  | substitutionOverride => "SUBSTITUTION_OVERRIDE"
  | delegated => "DELEGATED"
  | javaSyntheticProperty => "JAVA_SYNTHETIC_PROPERTY"
  | propertyBackingField => "PROPERTY_BACKING_FIELD"
  | plugin => "PLUGIN"
  | jsDynamic => "JS_DYNAMIC"

/-- Who may use a symbol. -/
inductive Visibility where
  | publicAccess
  | privateAccess
  | internalAccess
  | protectedAccess
  | localAccess
  | packageAccess
deriving DecidableEq

/-- Whether a symbol may be overridden. -/
inductive Modality where
  | isFinal
  | isAbstract
  | isOpen
  | isSealed
deriving DecidableEq

/-- What a file holds. -/
inductive FileKind where
  | kotlin
  | java
  | binary
deriving DecidableEq

/-- Whether a file is a compiled artifact. -/
def FileKind.isBinary : FileKind → Bool
  | binary => true
  | _ => false

/-- Where an annotation is to land, as written before its name. -/
inductive UseSiteTarget where
  | field
  | file
  | property
  | get
  | set
  | receiver
  | param
  | setParam
  | delegate
deriving DecidableEq

/-- The word before the colon of an annotation. -/
def UseSiteTarget.keyword : UseSiteTarget → String
  | field => "field"
  | file => "file"
  | property => "property"
  | get => "get"
  | set => "set"
  | receiver => "receiver"
  | param => "param"
  | setParam => "setparam"
  | delegate => "delegate"

end SymbolView
