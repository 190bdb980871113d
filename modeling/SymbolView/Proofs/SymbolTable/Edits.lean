import SymbolView.SymbolTable

/-!
# Building a symbol table

A table is read through `SymbolTable.record`, `SymbolTable.fileSymbol` and its index of classes.
This file says what each operation does to these views, and what it means for a table to be built:
`SymbolTable.Built` tables come from the empty one by edits that name only symbols and files which
the table knows at that moment.  What an edit returns is known from then on (`knows_declare`,
`knowsFile_addFile`, `Knows.edit`, `KnowsFile.edit`), so a caller who passes in only what was
returned before builds such a table.

Symbols are numbered with 32 bits, so a table has room for `SymbolId.count` of them.
-/

set_option autoImplicit false

namespace SymbolView

namespace SymbolId

theorem index_inj {s t : SymbolId} : s.index = t.index ↔ s = t :=
  ⟨fun h ↦ congrArg SymbolId.mk (UInt32.toNat_inj.mp h), congrArg index⟩

theorem index_ofIndex {i : Nat} (h : i < count) : (ofIndex i).index = i :=
  UInt32.toNat_ofNat_of_lt' h

/-- Numbers above the last one start again at the first. -/
theorem index_ofIndex_le (i : Nat) : (ofIndex i).index ≤ i := by
  show (UInt32.ofNat i).toNat ≤ i
  rw [UInt32.toNat_ofNat']
  exact Nat.mod_le ..

end SymbolId

theorem FileId.index_ofIndex {i : Nat} (h : i < SymbolId.count) : (ofIndex i).index = i :=
  UInt32.toNat_ofNat_of_lt' h

theorem FileId.index_ofIndex_le (i : Nat) : (ofIndex i).index ≤ i := by
  show (UInt32.ofNat i).toNat ≤ i
  rw [UInt32.toNat_ofNat']
  exact Nat.mod_le ..

/-- An answer that is computed from another one. -/
theorem map_eq_ok {α β : Type} {f : α → β} {x : Except HostError α} {b : β} :
    f <$> x = .ok b ↔ ∃ a, x = .ok a ∧ f a = b := by
  cases x with
  | error e => exact ⟨nofun, nofun⟩
  | ok a => exact ⟨fun h ↦ ⟨a, rfl, Except.ok.inj h⟩, fun ⟨_, ha, hb⟩ ↦ by cases ha; exact hb ▸ rfl⟩

theorem toOption_eq_some {α : Type} {x : Except HostError α} {a : α} :
    x.toOption = some a ↔ x = .ok a := by
  cases x with
  | error e => exact ⟨nofun, nofun⟩
  | ok b => exact Option.some_inj.trans (Except.ok.injEq b a).symm.to_iff

namespace SymbolTable

variable {table : SymbolTable} {s t : SymbolId} {f : FileId} {r : SymbolRecord}

/-! ## The views of a table -/

/-- Whether a table knows a symbol. -/
def Knows (table : SymbolTable) (s : SymbolId) : Prop := ∃ r, table.record s = .ok r

/-- Whether a table knows a file. -/
def KnowsFile (table : SymbolTable) (f : FileId) : Prop := ∃ s, table.fileSymbol f = .ok s

theorem record_eq_ok : table.record s = .ok r ↔ table.symbols[s.index]? = some r := by
  rw [record]
  split <;> simp_all

theorem fileSymbol_eq_ok :
    table.fileSymbol f = .ok s ↔ ∃ r, table.files[f.index]? = some r ∧ r.symbol = s := by
  rw [fileSymbol, map_eq_ok, fileRecord]
  split <;> simp_all

theorem knows_iff : table.Knows s ↔ s.index < table.symbols.size := by
  simp only [Knows, record_eq_ok, Array.getElem?_eq_some_iff]
  exact ⟨fun ⟨_, h, _⟩ ↦ h, fun h ↦ ⟨_, h, rfl⟩⟩

theorem knowsFile_iff : table.KnowsFile f ↔ f.index < table.files.size := by
  simp only [KnowsFile, fileSymbol_eq_ok, Array.getElem?_eq_some_iff]
  exact ⟨fun ⟨_, _, ⟨h, _⟩, _⟩ ↦ h, fun h ↦ ⟨_, _, ⟨h, rfl⟩, rfl⟩⟩

theorem index_lt_size (h : table.record s = .ok r) : s.index < table.symbols.size :=
  knows_iff.mp ⟨r, h⟩

theorem classOf_eq_ok {id : ClassId} :
    table.toHost.classOf id = .ok s ↔ table.classes.lookup id = some s := by
  unfold toHost
  dsimp only
  split
  next t found => rw [found, Except.ok.injEq, Option.some_inj]
  next absent => rw [absent]; exact ⟨nofun, nofun⟩

/-! ## What the operations do -/

theorem record_push (table : SymbolTable) (r : SymbolRecord) (s : SymbolId) :
    (table.push r).1.record s = if s.index = table.symbols.size then .ok r else table.record s := by
  rw [record, push, Array.getElem?_push]
  by_cases h : s.index = table.symbols.size
  · simp [h]
  · simp [h, record]

theorem record_update (table : SymbolTable) (c : SymbolId) (change : SymbolRecord → SymbolRecord)
    (s : SymbolId) : (table.update c change).record s =
      if s = c then change <$> table.record s else table.record s := by
  rw [record, update, Array.getElem?_modify, record]
  by_cases h : s = c
  · subst h
    rw [if_pos rfl, if_pos rfl]
    cases table.symbols[s.index]? <;> rfl
  · have hne : c.index ≠ s.index := fun heq ↦ h (SymbolId.index_inj.mp heq).symm
    simp [h, hne]

theorem record_index (table : SymbolTable) (id : Option ClassId) (s t : SymbolId) :
    (table.index id s).record t = table.record t := by
  cases id <;> rfl

theorem fileSymbol_push_file (table : SymbolTable) (r : FileRecord) (f : FileId) :
    { table with files := table.files.push r }.fileSymbol f =
      if f.index = table.files.size then .ok r.symbol else table.fileSymbol f := by
  rw [fileSymbol, fileRecord, Array.getElem?_push]
  by_cases h : f.index = table.files.size
  · rw [if_pos h, if_pos h]
    rfl
  · simp [h, fileSymbol, fileRecord]

/-- The record of the symbol of a file that is added. -/
def recordOfFile (table : SymbolTable) (path : String) : SymbolRecord where
  kind := .file
  name := some (Text.afterLast '/' path)
  source := some ⟨.ofIndex table.files.size, 0⟩
  file := some (.ofIndex table.symbols.size)

/-- The record of a symbol that is declared, before anything is entered in its lists. -/
def recordOf (table : SymbolTable) (kind : SymbolKind) (name : Option String)
    (attributes : List Attribute) : SymbolRecord :=
  let r := (table.draft kind name attributes).record
  { r with file := table.fileOf r }

/-- A table to which a symbol has been added that no list names yet. -/
def add (table : SymbolTable) (r : SymbolRecord) : SymbolTable :=
  (table.push r).1.index r.classId (.ofIndex table.symbols.size)

/-- A declaration adds a symbol and then enters it in the list it is placed in. -/
theorem declare_eq (table : SymbolTable) (kind : SymbolKind) (name : Option String)
    (attributes : List Attribute) : table.declare kind name attributes =
      let r := table.recordOf kind name attributes
      let s := SymbolId.ofIndex table.symbols.size
      (match r.container with
        | none => table.add r
        | some c => (table.add r).update c (·.enter s (table.draft kind name attributes).placement),
        s) := by
  dsimp only [declare, recordOf, add, push]
  cases (table.draft kind name attributes).record.container <;> rfl

/-! ## Edits -/

/-- A change to a table. -/
inductive Edit where
  /-- Adds a file. -/
  | addFile (path : String) (text : Option String) (kind : FileKind)
  /-- Declares a symbol. -/
  | declare (kind : SymbolKind) (name : Option String) (attributes : List Attribute)
  /-- Makes a member visible in a class that did not declare it. -/
  | inherit (cls member : SymbolId)

/-- Carries out an edit. -/
def edit (table : SymbolTable) : Edit → SymbolTable
  | .addFile path text kind => (table.addFile path text kind).1
  | .declare kind name attributes => (table.declare kind name attributes).1
  | .inherit cls member => table.inherit cls member

/-- Whether a statement about a symbol names only what a table knows. -/
def Admits (table : SymbolTable) : Attribute → Prop
  | .positioned position => table.KnowsFile position.file
  | .placed _ container => table.Knows container
  | _ => True

/-- Whether an edit names only what a table knows. -/
def Allows (table : SymbolTable) : Edit → Prop
  | .addFile .. => True
  | .declare _ _ attributes => ∀ a ∈ attributes, table.Admits a
  | .inherit cls member => table.Knows cls ∧ table.Knows member

instance : Decidable (table.Knows s) := decidable_of_iff _ knows_iff.symm

instance : Decidable (table.KnowsFile f) := decidable_of_iff _ knowsFile_iff.symm

instance : (a : Attribute) → Decidable (table.Admits a)
  | .positioned position => inferInstanceAs (Decidable (table.KnowsFile position.file))
  | .placed _ container => inferInstanceAs (Decidable (table.Knows container))
  | .provenance _ | .annotated _ | .classId _ | .declaredType _ | .visibility _ | .modality _
  | .docComment _ => isTrue trivial

instance : (e : Edit) → Decidable (table.Allows e)
  | .addFile .. => isTrue trivial
  | .declare _ _ attributes => inferInstanceAs (Decidable (∀ a ∈ attributes, table.Admits a))
  | .inherit cls member => inferInstanceAs (Decidable (table.Knows cls ∧ table.Knows member))

/-- The tables that are built from the empty one by edits that name only what is known. -/
inductive Built : SymbolTable → Prop
  | empty : Built .empty
  | edit {table : SymbolTable} {e : Edit} (built : Built table) (allowed : table.Allows e) :
    Built (table.edit e)

@[simp] theorem size_update (table : SymbolTable) (c : SymbolId)
    (change : SymbolRecord → SymbolRecord) :
    (table.update c change).symbols.size = table.symbols.size :=
  Array.size_modify

@[simp] theorem size_add (table : SymbolTable) (r : SymbolRecord) :
    (table.add r).symbols.size = table.symbols.size + 1 := by
  unfold add
  cases r.classId <;> exact Array.size_push ..

@[simp] theorem files_add (table : SymbolTable) (r : SymbolRecord) :
    (table.add r).files = table.files := by
  unfold add
  cases r.classId <;> rfl

theorem fileSymbol_add (table : SymbolTable) (r : SymbolRecord) (f : FileId) :
    (table.add r).fileSymbol f = table.fileSymbol f := by
  simp only [fileSymbol, fileRecord, files_add]

/-- The symbol that is added stands for its name from then on. -/
theorem lookup_add (table : SymbolTable) (r : SymbolRecord) (id : ClassId) :
    (table.add r).classes.lookup id =
      if r.classId = some id then some (.ofIndex table.symbols.size)
      else table.classes.lookup id := by
  unfold add
  cases r.classId with
  | none => rfl
  | some own =>
    show ((own, _) :: table.classes).lookup id = _
    rw [List.lookup_cons]
    by_cases h : own = id
    · simp [h]
    · simp [h, beq_eq_false_iff_ne.mpr (Ne.symm h)]

theorem size_addFile (path : String) (text : Option String) (kind : FileKind) :
    (table.addFile path text kind).1.symbols.size = table.symbols.size + 1 :=
  Array.size_push ..

theorem size_declare (kind : SymbolKind) (name : Option String) (attributes : List Attribute) :
    (table.declare kind name attributes).1.symbols.size = table.symbols.size + 1 := by
  rw [declare_eq]
  dsimp only
  split <;> simp

/-- The number of a declared symbol is the number of symbols before. -/
theorem declare_snd (table : SymbolTable) (kind : SymbolKind) (name : Option String)
    (attributes : List Attribute) :
    (table.declare kind name attributes).2 = .ofIndex table.symbols.size := by
  rw [declare_eq]

theorem files_declare (kind : SymbolKind) (name : Option String) (attributes : List Attribute) :
    (table.declare kind name attributes).1.files = table.files := by
  rw [declare_eq]
  dsimp only
  split <;> simp [update]

theorem size_le_edit (e : Edit) : table.symbols.size ≤ (table.edit e).symbols.size := by
  cases e with
  | addFile path text kind => exact (size_addFile path text kind).symm ▸ Nat.le_succ _
  | declare kind name attributes => exact (size_declare kind name attributes).symm ▸ Nat.le_succ _
  | inherit cls member => exact (size_update table cls _).symm ▸ Nat.le_refl _

theorem files_size_le_edit (e : Edit) : table.files.size ≤ (table.edit e).files.size := by
  cases e with
  | addFile path text kind =>
    show table.files.size ≤ (table.files.push _).size
    rw [Array.size_push]
    exact Nat.le_succ _
  | declare kind name attributes => exact (files_declare kind name attributes) ▸ Nat.le_refl _
  | inherit cls member => exact Nat.le_refl _

/-- What is known stays known. -/
theorem Knows.edit (h : table.Knows s) (e : Edit) : (table.edit e).Knows s :=
  knows_iff.mpr (Nat.lt_of_lt_of_le (knows_iff.mp h) (size_le_edit e))

theorem KnowsFile.edit (h : table.KnowsFile f) (e : Edit) : (table.edit e).KnowsFile f :=
  knowsFile_iff.mpr (Nat.lt_of_lt_of_le (knowsFile_iff.mp h) (files_size_le_edit e))

/-- A declared symbol is known. -/
theorem knows_declare (kind : SymbolKind) (name : Option String) (attributes : List Attribute) :
    (table.declare kind name attributes).1.Knows (table.declare kind name attributes).2 := by
  rw [knows_iff, size_declare, declare_snd]
  exact Nat.lt_succ_of_le (SymbolId.index_ofIndex_le _)

/-- A declared symbol is numbered after all that were known before. -/
theorem index_lt_declare (known : table.Knows t) (room : table.symbols.size < SymbolId.count)
    (kind : SymbolKind) (name : Option String) (attributes : List Attribute) :
    t.index < (table.declare kind name attributes).2.index := by
  rw [declare_snd]
  exact (SymbolId.index_ofIndex room).symm ▸ knows_iff.mp known

/-- A file that has been added is known. -/
theorem knowsFile_addFile (path : String) (text : Option String) (kind : FileKind) :
    (table.addFile path text kind).1.KnowsFile (table.addFile path text kind).2 := by
  rw [knowsFile_iff]
  show _ < (table.files.push _).size
  rw [Array.size_push]
  exact Nat.lt_succ_of_le (FileId.index_ofIndex_le _)

end SymbolTable
end SymbolView
