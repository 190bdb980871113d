import SymbolView.Proofs.SymbolTable.Lists

/-!
# What an edit leaves alone

What a table knows of a symbol, its lists of members apart, never changes again once the symbol has
been added (`exists_record_edit`).  So an invariant of built tables is settled by what an edit adds:
`record_edit_cases` and `fileSymbol_edit_cases` say that all else was there before.  Nothing of this
depends on what the edit names.

Where a declaration lies is said by its statements: its file is that of its position (`file_draft`),
and its container is one that it is placed in (`container_draft`).
-/

set_option autoImplicit false

namespace SymbolView
namespace SymbolTable

variable {table : SymbolTable} {e : Edit} {s t c : SymbolId} {f : FileId} {r q : SymbolRecord}

/-! ## Records -/

/-- What is known of the symbol that an edit adds, apart from its lists. -/
def added (table : SymbolTable) : Edit → Option SymbolRecord
  | .addFile path _ _ => some (table.recordOfFile path)
  | .declare kind name attributes => some (table.recordOf kind name attributes)
  | .inherit .. => none

/-- A symbol with the number that comes next is the one that is added next, and there is a number
for it. -/
theorem eq_ofIndex_size (new : s.index = table.symbols.size) :
    table.symbols.size < SymbolId.count ∧ s = .ofIndex table.symbols.size := by
  have room : table.symbols.size < SymbolId.count := new ▸ UInt32.toNat_lt_size s.val
  exact ⟨room, SymbolId.index_inj.mp (new.trans (SymbolId.index_ofIndex room).symm)⟩

/-- A declaration adds a symbol, and what it changes besides are lists. -/
theorem record_declare (table : SymbolTable) (kind : SymbolKind) (name : Option String)
    (attributes : List Attribute) (s : SymbolId) : ∃ change : SymbolRecord → SymbolRecord,
      (∀ r, (change r).bare = r.bare) ∧ (table.declare kind name attributes).1.record s =
        change <$> (table.add (table.recordOf kind name attributes)).record s := by
  rw [declare_eq]
  dsimp only
  split
  next => exact ⟨fun r ↦ r, fun _ ↦ rfl, (id_map' _).symm⟩
  next c _ =>
    rw [record_update]
    split
    next => exact ⟨_, fun r ↦ r.bare_enter _ _, rfl⟩
    next => exact ⟨fun r ↦ r, fun _ ↦ rfl, (id_map' _).symm⟩

/-- What is known of a declared symbol, its lists apart, is what is said of it. -/
theorem exists_record_declare (kind : SymbolKind) (name : Option String)
    (attributes : List Attribute) (room : table.symbols.size < SymbolId.count) :
    ∃ q, (table.declare kind name attributes).1.record
        (table.declare kind name attributes).2 = .ok q ∧
      q.bare = (table.recordOf kind name attributes).bare := by
  obtain ⟨change, bare, changed⟩ :=
    table.record_declare kind name attributes (.ofIndex table.symbols.size)
  rw [record_add, if_pos (SymbolId.index_ofIndex room)] at changed
  rw [declare_snd]
  exact ⟨_, changed, bare _⟩

/-- **What an edit knows of a symbol was known before, or is what it adds.** -/
theorem record_edit_cases (h : (table.edit e).record s = .ok q) :
    (∃ r, table.record s = .ok r ∧ q.bare = r.bare) ∨
      s.index = table.symbols.size ∧ ∃ r, table.added e = some r ∧ q.bare = r.bare := by
  cases e with
  | addFile path text kind =>
    have h := (record_push table (table.recordOfFile path) s).symm.trans h
    split at h
    next new => exact .inr ⟨new, _, rfl, congrArg _ (Except.ok.inj h).symm⟩
    next => exact .inl ⟨q, h, rfl⟩
  | declare kind name attributes =>
    obtain ⟨change, bare, same⟩ := table.record_declare kind name attributes s
    obtain ⟨p, hp, rfl⟩ := map_eq_ok.mp (same.symm.trans h)
    rw [record_add] at hp
    split at hp
    next new =>
      cases hp
      exact .inr ⟨new, _, rfl, bare _⟩
    next => exact .inl ⟨p, hp, bare p⟩
  | inherit cls member =>
    have bare (r : SymbolRecord) : (r.inherit member).bare = r.bare := rfl
    exact .inl (record_of_update bare h)

/-- What is known of a symbol is still known after an edit. -/
theorem exists_record_edit (h : table.record s = .ok r) (e : Edit) :
    ∃ q, (table.edit e).record s = .ok q ∧ q.bare = r.bare :=
  ⟨_, record_edit h e, rfl⟩

/-! ## Files -/

/-- The symbol of a file was its symbol before, or is the one that is added. -/
theorem fileSymbol_edit_cases (h : (table.edit e).fileSymbol f = .ok t) :
    table.fileSymbol f = .ok t ∨
      f.index = table.files.size ∧ t = .ofIndex table.symbols.size ∧
        ∃ path text kind, e = .addFile path text kind := by
  cases e with
  | addFile path text kind =>
    have h : (if f.index = table.files.size then Except.ok (.ofIndex table.symbols.size)
        else table.fileSymbol f) = .ok t := (fileSymbol_push_file ..).symm.trans h
    split at h
    next new => exact .inr ⟨new, (Except.ok.inj h).symm, path, text, kind, rfl⟩
    next => exact .inl h
  | declare kind name attributes =>
    left
    rwa [edit, fileSymbol, fileRecord, files_declare, ← fileRecord, ← fileSymbol] at h
  | inherit cls member => exact .inl h

/-! ## Declarations -/

/-- Where a symbol lies is where it is positioned. -/
theorem file_draft (table : SymbolTable) (kind : SymbolKind) (name : Option String)
    (attributes : List Attribute) : (table.draft kind name attributes).record.file =
      (table.draft kind name attributes).record.source.bind
        fun p ↦ (table.fileSymbol p.file).toOption := by
  refine List.foldlRecOn attributes table.amend (b := { record := { kind, name } })
    (motive := fun d ↦ d.record.file =
      d.record.source.bind fun p ↦ (table.fileSymbol p.file).toOption) rfl fun d h a _ ↦ ?_
  cases a with
  | positioned position => rfl
  | _ => exact h

/-- What a symbol lies in is something that it is placed in. -/
theorem container_draft {kind : SymbolKind} {name : Option String} {attributes : List Attribute}
    (h : (table.draft kind name attributes).record.container = some c) :
    ∃ placement, .placed placement c ∈ attributes := by
  revert h
  refine List.foldlRecOn attributes table.amend (b := { record := { kind, name } })
    (motive := fun d ↦ d.record.container = some c → ∃ placement, .placed placement c ∈ attributes)
    nofun fun d ih a ha ↦ ?_
  cases a with
  | placed placement container =>
    rintro ⟨⟩
    exact ⟨placement, ha⟩
  | _ => exact ih

end SymbolTable
end SymbolView
