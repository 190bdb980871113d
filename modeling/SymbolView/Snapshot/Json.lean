import SymbolView.Json.Printer
import SymbolView.Json.Reader
import SymbolView.Snapshot.Basic

/-!
# Snapshots as JSON

`Snapshot.toJson` writes a snapshot as a JSON text and `Snapshot.ofJson?` reads one.

A record is written as an object with its fields in order; absent names and texts, and empty lists,
are left out where that says enough.  A record is read from an object, whose unknown fields are
ignored, or from a list of its fields in order.  A word that stands for one of several cases may
also be read from an object that has the word as its only name.  Lists and objects may be nested
`maxDepth` deep, except in what is ignored.
-/

set_option autoImplicit false

namespace SymbolView

/-! ## Words -/

/-- All kinds of declarations. -/
def DeclarationKind.all : List DeclarationKind :=
  [.cls, .enumEntry, .function, .property, .javaField, .localVariable, .typeAlias, .file,
    .typeParameter, .getter, .setter, .valueParameter]

/-- All origins. -/
def Origin.all : List Origin := [.kotlin, .kotlinLibrary, .java, .javaLibrary, .synthetic]

/-- All modifiers. -/
def Modifier.all : List Modifier :=
  [.publicAccess, .privateAccess, .internalAccess, .protectedAccess, .isFinal, .isAbstract, .isOpen,
    .isSealed]

/-- All use-site targets. -/
def UseSiteTarget.all : List UseSiteTarget :=
  [.field, .file, .property, .get, .set, .receiver, .param, .setParam, .delegate]

/-- The word for a use-site target in a snapshot. -/
def UseSiteTarget.label : UseSiteTarget → String
  | field => "Field"
  | file => "File"
  | property => "Property"
  | get => "Get"
  | set => "Set"
  | receiver => "Receiver"
  | param => "Param"
  | setParam => "SetParam"
  | delegate => "Delegate"

/-! ## Writing -/

namespace Snapshot

open Json

/-- A list of strings. -/
def stringsToJson (l : List String) : Json := .array (l.map text)

/-- A string or nothing. -/
def optionToJson : Option String → Json
  | none => .null
  | some s => text s

/-- The name of a class. -/
def classIdToJson (id : ClassId) : Json :=
  .object [field "package" (stringsToJson id.package), field "relative" (stringsToJson id.relative),
    field "local" (.bool id.isLocal)]

/-- An argument of an annotation. -/
def argumentToJson (a : Annotations.ProjectedArgument) : Json :=
  .object [field "name" (text a.name), field "value" (text a.value)]

/-- An annotation. -/
def projectedToJson (a : Annotations.Projected) : Json :=
  .object [field "annotation_type" (classIdToJson a.classId),
    field "use_site_target" (optionToJson (a.target.map (·.label))),
    field "arguments" (.array (a.arguments.map argumentToJson)),
    field "rendered" (text a.rendered)]

/-- A location. -/
def locationToJson : Location → Json
  | .file path line =>
    .object [field "File" (.object [field "path" (text path), field "line" (.natural line.toNat)])]
  | .nonExistent => text "NonExistent"

/-- A field that is left out if there is nothing to say. -/
def optionField (name : String) : Option String → List JsonField
  | none => []
  | some s => [field name (text s)]

/-- A field that is left out if its list is empty. -/
def listField (name : String) : List Json → List JsonField
  | [] => []
  | items => [field name (.array items)]

mutual

/-- A snapshot as a JSON value. -/
def encode : Snapshot → Json
  | ⟨name, qualifiedName, kind, origin, location, modifiers, typeText, annotations, members⟩ =>
    .object (field "name" (optionToJson name) :: (optionField "qualified_name" qualifiedName
      ++ [field "kind" (text kind.label), field "origin" (text origin.label),
        field "location" (locationToJson location)]
      ++ listField "modifiers" (modifiers.map fun m ↦ text m.label)
      ++ optionField "rendered_type" typeText
      ++ listField "annotations" (annotations.map projectedToJson)
      ++ listField "members" (encodeAll members)))

/-- Snapshots as JSON values. -/
def encodeAll : List Snapshot → List Json
  | [] => []
  | s :: rest => encode s :: encodeAll rest

end

/-- A snapshot as a JSON text. -/
def toJson (s : Snapshot) : String := (encode s).print

/-! ## Reading -/

/-- How deep lists and objects may be nested in what is read. -/
def maxDepth : Nat := 127

/-- A way to read a value in which lists and objects may be nested so deep. -/
abbrev Decoder (α : Type) : Type := Nat → Json → Option α

namespace Decoder

/-- A string. -/
def text : Decoder String
  | _, .string content => content
  | _, _ => none

/-- A truth value. -/
def bool : Decoder Bool
  | _, .bool b => some b
  | _, _ => none

/-- A number of 32 bits, written with digits alone. -/
def nat32 : Decoder UInt32
  | _, .natural n => if n < UInt32.size then some (UInt32.ofNat n) else none
  | _, _ => none

/-- A list. -/
def list {α : Type} (item : Decoder α) : Decoder (List α)
  | depth + 1, .array items => items.mapM (item depth)
  | _, _ => none

/-- One of several cases, told apart by their words. -/
def word {α : Type} (cases : List α) (label : α → String) : Decoder α
  | _, .string (some s) => cases.find? (label · == s)
  | _ + 1, .object [⟨some s, .null⟩] => cases.find? (label · == s)
  | _, _ => none

/-- Whether every name is a text and none of the given names comes twice. -/
def isWellNamed (names : List String) (fields : List JsonField) : Bool :=
  fields.all (·.key.isSome)
    && names.all fun name ↦ (fields.filter (·.key == some name)).length ≤ 1

/-- The fields of a record with the given names, in order, as far as they are there. -/
def record (names : List String) : Decoder (Nat × List (Option Json))
  | depth + 1, .object fields =>
    if isWellNamed names fields then
      some (depth, names.map fun name ↦ (fields.find? (·.key == some name)).map (·.value))
    else none
  | depth + 1, .array items =>
    if items.length ≤ names.length then
      some (depth, items.map some ++ List.replicate (names.length - items.length) none)
    else none
  | _, _ => none

/-- A field that has to be there. -/
def required {α : Type} (read : Decoder α) (depth : Nat) : Option Json → Option α
  | none => none
  | some j => read depth j

/-- A field that may be missing or null. -/
def optional {α : Type} (read : Decoder α) (depth : Nat) : Option Json → Option (Option α)
  | none => some none
  | some .null => some none
  | some j => some <$> read depth j

/-- A list that may be missing. -/
def listed {α : Type} (read : Decoder (List α)) (depth : Nat) : Option Json → Option (List α)
  | none => some []
  | some j => read depth j

end Decoder

open Decoder

/-- The name of a class. -/
def decodeClassId : Decoder ClassId := fun depth j ↦
  match record ["package", "relative", "local"] depth j with
  | some (depth, [package, relative, isLocal]) => do
    return ⟨← required (list Decoder.text) depth package,
      ← required (list Decoder.text) depth relative, ← required Decoder.bool depth isLocal⟩
  | _ => none

/-- An argument of an annotation. -/
def decodeArgument : Decoder Annotations.ProjectedArgument := fun depth j ↦
  match record ["name", "value"] depth j with
  | some (depth, [name, value]) => do
    return ⟨← required Decoder.text depth name, ← required Decoder.text depth value⟩
  | _ => none

/-- An annotation. -/
def decodeProjected : Decoder Annotations.Projected := fun depth j ↦
  match record ["annotation_type", "use_site_target", "arguments", "rendered"] depth j with
  | some (depth, [classId, target, arguments, rendered]) => do
    return ⟨← required decodeClassId depth classId,
      ← Decoder.optional (word UseSiteTarget.all UseSiteTarget.label) depth target,
      ← required (list decodeArgument) depth arguments, ← required Decoder.text depth rendered⟩
  | _ => none

/-- A path with a line. -/
def decodePlace : Decoder Location := fun depth j ↦
  match record ["path", "line"] depth j with
  | some (depth, [path, line]) => do
    return .file (← required Decoder.text depth path) (← required nat32 depth line)
  | _ => none

/-- A location. -/
def decodeLocation : Decoder Location
  | _, .string (some "NonExistent") => some .nonExistent
  | _ + 1, .object [⟨some "NonExistent", .null⟩] => some .nonExistent
  | depth + 1, .object [⟨some "File", place⟩] => decodePlace depth place
  | _, _ => none

/-- The names of the fields of a snapshot. -/
def fieldNames : List String :=
  ["name", "qualified_name", "kind", "origin", "location", "modifiers", "rendered_type",
    "annotations", "members"]

/-- A snapshot. -/
def decode : Decoder Snapshot
  | 0, _ => none
  | depth + 1, j =>
    match record fieldNames (depth + 1) j with
    | some (_, [name, qualifiedName, kind, origin, location, modifiers, typeText, annotations,
        members]) => do
      let name ← Decoder.optional Decoder.text depth name
      let qualifiedName ← Decoder.optional Decoder.text depth qualifiedName
      let kind ← required (word DeclarationKind.all DeclarationKind.label) depth kind
      let origin ← required (word Origin.all Origin.label) depth origin
      let location ← required decodeLocation depth location
      let modifiers ← listed (list (word Modifier.all Modifier.label)) depth modifiers
      let typeText ← Decoder.optional Decoder.text depth typeText
      let annotations ← listed (list decodeProjected) depth annotations
      let members ← match members, depth with
        | none, _ => some []
        | some (.array items), depth + 1 => items.mapM (decode depth)
        | _, _ => none
      return {
        name, qualifiedName, kind, origin, location, modifiers, typeText, annotations, members }
    | _ => none

/-- The snapshot that a JSON text holds. -/
def ofJson? (source : String) : Option Snapshot := do
  decode maxDepth (← Json.read? source)

end Snapshot
end SymbolView
