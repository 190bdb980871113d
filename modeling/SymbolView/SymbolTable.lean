import SymbolView.Host.Basic

/-!
# Symbol tables

A `SymbolTable` is a host whose answers lie in memory.  It is filled by adding files, declaring
symbols and inheriting members; what has been added is never taken away.  `SymbolTable.toHost` are
its answers.

Symbols and files are numbered in the order in which they are added, and a file adds a symbol of its
own.  A symbol that is declared inside another takes over its file unless it is positioned itself.
-/

set_option autoImplicit false

namespace SymbolView

/-- All that a table knows of a symbol. -/
structure SymbolRecord where
  /-- What the symbol is. -/
  kind : SymbolKind
  /-- Its name. -/
  name : Option String
  /-- How it came to be. -/
  provenance : Provenance := .source
  /-- Where it is written. -/
  source : Option SourcePosition := none
  /-- The annotations on it. -/
  annotations : List Annotations.Application := []
  /-- The symbol around it. -/
  container : Option SymbolId := none
  /-- The symbol of its file. -/
  file : Option SymbolId := none
  /-- The members declared in it. -/
  declaredMembers : List SymbolId := []
  /-- Its static members. -/
  staticMembers : List SymbolId := []
  /-- The members it inherits. -/
  inheritedMembers : List SymbolId := []
  /-- Its constructors. -/
  constructors : List SymbolId := []
  /-- Its name as a class or type alias. -/
  classId : Option ClassId := none
  /-- Its type. -/
  declaredType : Option TypeTerm := none
  /-- Who may use it. -/
  visibility : Visibility := .publicAccess
  /-- Whether it may be overridden. -/
  modality : Option Modality := none
  /-- The documentation comment on it. -/
  docComment : Option String := none

/-- All that a table knows of a file. -/
structure FileRecord where
  /-- What the file holds. -/
  kind : FileKind
  /-- Its text, if it is tracked. -/
  document : Option Document
  /-- Its symbol. -/
  symbol : SymbolId

/-- A host in memory. -/
structure SymbolTable where
  /-- The symbols, in the order of their numbers. -/
  symbols : Array SymbolRecord
  /-- The files, in the order of their numbers. -/
  files : Array FileRecord
  /-- The index of classes and type aliases; the latest entry for a name counts. -/
  classes : List (ClassId × SymbolId)

/-- The list of its container that a symbol is entered in. -/
inductive Placement where
  /-- The declared members. -/
  | asMember
  /-- The static members. -/
  | asStatic
  /-- The constructors. -/
  | asConstructor
  /-- None: the symbol only lies inside its container. -/
  | contained
deriving DecidableEq

/-- Something said about a symbol when it is declared. -/
inductive Attribute where
  /-- How it came to be. -/
  | provenance (tag : Provenance)
  /-- Where it is written. -/
  | positioned (position : SourcePosition)
  /-- One more annotation on it. -/
  | annotated (application : Annotations.Application)
  /-- The symbol around it, and the list there that it is entered in. -/
  | placed (placement : Placement) (container : SymbolId)
  /-- Its name as a class or type alias. -/
  | classId (id : ClassId)
  /-- Its type. -/
  | declaredType (type : TypeTerm)
  /-- Who may use it. -/
  | visibility (visibility : Visibility)
  /-- Whether it may be overridden. -/
  | modality (modality : Modality)
  /-- The documentation comment on it. -/
  | docComment (comment : String)

/-- A symbol that is being declared. -/
structure Draft where
  /-- What has been said about it. -/
  record : SymbolRecord
  /-- How it is placed in its container. -/
  placement : Placement := .contained

namespace SymbolRecord

/-- Enters a symbol in the list that goes with a placement. -/
def enter (r : SymbolRecord) (s : SymbolId) : Placement → SymbolRecord
  | .asMember => { r with declaredMembers := r.declaredMembers ++ [s] }
  | .asStatic => { r with staticMembers := r.staticMembers ++ [s] }
  | .asConstructor => { r with constructors := r.constructors ++ [s] }
  | .contained => r

/-- Enters an inherited member. -/
def inherit (r : SymbolRecord) (s : SymbolId) : SymbolRecord :=
  { r with inheritedMembers := r.inheritedMembers ++ [s] }

end SymbolRecord

namespace SymbolTable

/-- The table without symbols and files. -/
def empty : SymbolTable := ⟨#[], #[], []⟩

variable (table : SymbolTable)

/-- What is known of a symbol. -/
def record (s : SymbolId) : Except HostError SymbolRecord :=
  match table.symbols[s.index]? with
  | some r => .ok r
  | none => .error (.unknownSymbol s)

/-- What is known of a file. -/
def fileRecord (f : FileId) : Except HostError FileRecord :=
  match table.files[f.index]? with
  | some r => .ok r
  | none => .error (.unknownFile f)

/-- The symbol of a file. -/
def fileSymbol (f : FileId) : Except HostError SymbolId := (·.symbol) <$> table.fileRecord f

/-! ## Filling a table -/

/-- Changes what is known of a symbol, if anything is. -/
def update (s : SymbolId) (change : SymbolRecord → SymbolRecord) : SymbolTable :=
  { table with symbols := table.symbols.modify s.index change }

/-- Adds a symbol; its number is the number of symbols before. -/
def push (r : SymbolRecord) : SymbolTable × SymbolId :=
  ({ table with symbols := table.symbols.push r }, .ofIndex table.symbols.size)

/-- Adds a file and its symbol, which is called like the last segment of the path and lies in
itself.  Without a text the file is not tracked. -/
def addFile (path : String) (text : Option String) (kind : FileKind) : SymbolTable × FileId :=
  let file := FileId.ofIndex table.files.size
  let symbol := SymbolId.ofIndex table.symbols.size
  let record : SymbolRecord :=
    { kind := .file
      name := some (Text.afterLast '/' path)
      source := some ⟨file, 0⟩
      file := some symbol }
  let added := (table.push record).1
  let document := text.map (Document.ofText path)
  ({ added with files := added.files.push ⟨kind, document, symbol⟩ }, file)

/-- Takes one more statement about a symbol into account.  A later statement overrides an earlier
one, except that annotations add up. -/
def amend (draft : Draft) : Attribute → Draft
  | .provenance tag => { draft with record.provenance := tag }
  | .positioned position =>
    { draft with
      record.source := some position
      record.file := (table.fileSymbol position.file).toOption }
  | .annotated application =>
    { draft with record.annotations := draft.record.annotations ++ [application] }
  | .placed placement container =>
    { draft with record.container := some container, placement }
  | .classId id => { draft with record.classId := some id }
  | .declaredType type => { draft with record.declaredType := some type }
  | .visibility visibility => { draft with record.visibility := visibility }
  | .modality modality => { draft with record.modality := some modality }
  | .docComment comment => { draft with record.docComment := some comment }

/-- All that is said about a symbol, in order. -/
def draft (kind : SymbolKind) (name : Option String) (attributes : List Attribute) : Draft :=
  attributes.foldl table.amend { record := { kind, name } }

/-- The file of a symbol that is being declared: its own, or that of its container. -/
def fileOf (r : SymbolRecord) : Option SymbolId :=
  r.file.or (r.container.bind fun c ↦ (table.record c).toOption.bind (·.file))

/-- Enters a class or type alias in the index. -/
def index (id : Option ClassId) (s : SymbolId) : SymbolTable :=
  match id with
  | none => table
  | some id => { table with classes := (id, s) :: table.classes }

/-- Declares a symbol: adds it, enters it in the index and in the lists of its container. -/
def declare (kind : SymbolKind) (name : Option String) (attributes : List Attribute) :
    SymbolTable × SymbolId :=
  let draft := table.draft kind name attributes
  let (added, s) := table.push { draft.record with file := table.fileOf draft.record }
  let indexed := added.index draft.record.classId s
  match draft.record.container with
  | none => (indexed, s)
  | some c => (indexed.update c (·.enter s draft.placement), s)

/-- Makes a member visible in a class that did not declare it; a class that is not known is left
alone. -/
def inherit (cls member : SymbolId) : SymbolTable := table.update cls (·.inherit member)

/-! ## Answers -/

/-- Whether symbols of the kind are callable members. -/
def isCallableMember : SymbolKind → Bool
  | .property => true
  | .functionLike => true
  | .javaField => true
  | _ => false

/-- The callable ones among some symbols, all of which have to be known. -/
def callables : List SymbolId → Except HostError (List SymbolId)
  | [] => pure []
  | s :: rest => do
    let r ← table.record s
    let others ← callables rest
    return if isCallableMember r.kind then s :: others else others

/-- Whether a symbol is visible inside a class: it is, unless it is private or local to another. -/
def isVisibleIn (r : SymbolRecord) (cls : SymbolId) : Bool :=
  match r.visibility with
  | .privateAccess => r.container == some cls
  | .localAccess => r.container == some cls
  | _ => true

/-- The answers of a table. -/
def toHost : Host where
  symbolKind s := (·.kind) <$> table.record s
  symbolName s := (·.name) <$> table.record s
  provenance s := (·.provenance) <$> table.record s
  source s := (·.source) <$> table.record s
  annotations s := (·.annotations) <$> table.record s
  containingSymbol s := (·.container) <$> table.record s
  containingFile s := (·.file) <$> table.record s
  declaredMembers s := (·.declaredMembers) <$> table.record s
  staticMembers s := (·.staticMembers) <$> table.record s
  callableMembers s := do
    let r ← table.record s
    table.callables (r.declaredMembers ++ r.inheritedMembers)
  constructors s := (·.constructors) <$> table.record s
  isVisibleIn member cls := (isVisibleIn · cls) <$> table.record member
  classOf id :=
    match table.classes.lookup id with
    | some s => .ok s
    | none => .error (.unknownClass id)
  classId s := (·.classId) <$> table.record s
  declaredType s := (·.declaredType) <$> table.record s
  visibility s := (·.visibility) <$> table.record s
  modality s := (·.modality) <$> table.record s
  docComment s := (·.docComment) <$> table.record s
  fileKind f := (·.kind) <$> table.fileRecord f
  document f := (table.fileRecord f).toOption.bind (·.document)

end SymbolTable
end SymbolView
