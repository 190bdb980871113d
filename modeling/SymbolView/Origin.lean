import SymbolView.Host.Basic

/-!
# Origins

The origin of a declaration says whether it was authored, compiled or generated, and in which
language.  It follows from the provenance tag by a fixed table, except that a declaration of Java
origin whose file is a compiled artifact belongs to a Java library.
-/

set_option autoImplicit false

namespace SymbolView

/-- Where a declaration comes from. -/
inductive Origin where
  | kotlin
  | kotlinLibrary
  | java
  | javaLibrary
  | synthetic
deriving DecidableEq

namespace Origin

/-- The word for an origin. -/
def label : Origin → String
  | kotlin => "KOTLIN"
  | kotlinLibrary => "KOTLIN_LIB"
  | java => "JAVA"
  | javaLibrary => "JAVA_LIB"
  | synthetic => "SYNTHETIC"

/-- The table of origins; tags that are not in it are not understood. -/
def ofProvenance? : Provenance → Option Origin
  | .java => some java
  | .source => some kotlin
  | .samConstructor => some synthetic
  | .sourceMemberGenerated => some synthetic
  | .delegated => some synthetic
  | .propertyBackingField => some kotlin
  | .javaSyntheticProperty => some synthetic
  | .intersectionOverride => some kotlin
  | .library => some kotlinLibrary
  | .substitutionOverride => some javaLibrary
  | .plugin => none
  | .jsDynamic => none

end Origin

/-- A refusal of a host, passed on. -/
def Failure.ofHost (e : HostError) : Failure := .error (.host e)

namespace Host

variable (host : Host)

/-- Whether a symbol is written in a compiled artifact. -/
def isInBinary (s : SymbolId) : Except HostError Bool := do
  match ← host.source s with
  | none => return false
  | some position => return (← host.fileKind position.file).isBinary

/-- The origin of a symbol. -/
def classify (s : SymbolId) : Except Failure Origin := do
  let tag ← (host.provenance s).mapError Failure.ofHost
  match Origin.ofProvenance? tag with
  | none => throw (.fault (.unhandledProvenance tag))
  | some .java =>
    if ← (host.isInBinary s).mapError Failure.ofHost then return .javaLibrary else return .java
  | some origin => return origin

end Host
end SymbolView
