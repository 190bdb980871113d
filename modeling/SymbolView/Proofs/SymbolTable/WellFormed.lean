import SymbolView.Proofs.SymbolTable.Edits

/-!
# Built tables are well-formed

`SymbolTable.WellFormed` says how the records of a table hang together: containers come before what
they contain, a file lies in itself, lists and containers agree, and the index names the latest
class of a name.  Adding a symbol that no list names yet keeps this (`Adds.wellFormed`), and so does
a change to the lists of one class as long as the new lists agree with the containers
(`WellFormed.update`).  A file is the first, an inherited member the second, and a declaration both
after another.
-/

set_option autoImplicit false

namespace SymbolView

namespace SymbolRecord

/-- The symbols entered in a class, in any of its lists. -/
def entries (r : SymbolRecord) : List SymbolId :=
  r.declaredMembers ++ r.staticMembers ++ r.constructors

/-- What is known of a symbol apart from its lists. -/
def bare (r : SymbolRecord) : SymbolRecord :=
  { r with declaredMembers := [], staticMembers := [], inheritedMembers := [], constructors := [] }

theorem bare_enter (r : SymbolRecord) (s : SymbolId) (p : Placement) :
    (r.enter s p).bare = r.bare := by
  cases p <;> rfl

theorem inheritedMembers_enter (r : SymbolRecord) (s : SymbolId) (p : Placement) :
    (r.enter s p).inheritedMembers = r.inheritedMembers := by
  cases p <;> rfl

/-- Entering a symbol adds it to the entries, or leaves them alone. -/
theorem entries_enter (r : SymbolRecord) (s : SymbolId) (p : Placement) :
    (r.enter s p).entries.Perm (s :: r.entries) ∨ (r.enter s p).entries = r.entries := by
  cases p with
  | asMember => exact .inl (by simp [enter, entries])
  | asStatic =>
    have h : (r.declaredMembers ++ r.staticMembers ++ s :: r.constructors).Perm _ :=
      List.perm_middle
    exact .inl (by simpa [enter, entries] using h)
  | asConstructor =>
    have h := List.perm_append_singleton s r.entries
    exact .inl (by simpa [enter, entries] using h)
  | contained => exact .inr rfl

end SymbolRecord

namespace SymbolTable

variable {table after : SymbolTable} {s t c m : SymbolId} {f : FileId} {r q : SymbolRecord}
  {id : ClassId}

/-- Whether a symbol is the latest class or type alias of a name. -/
def Latest (table : SymbolTable) (id : ClassId) (s : SymbolId) : Prop :=
  (∃ r, table.record s = .ok r ∧ r.classId = some id) ∧
    ∀ t r, table.record t = .ok r → r.classId = some id → t.index ≤ s.index

/-- How the records of a table hang together. -/
structure WellFormed (table : SymbolTable) : Prop where
  /-- There are no more files than symbols. -/
  files_le : table.files.size ≤ table.symbols.size
  /-- A container is older than what it contains. -/
  container : ∀ {s r c}, table.record s = .ok r → r.container = some c → c.index < s.index
  /-- What lies in a file lies in one that has been added. -/
  file : ∀ {s r t}, table.record s = .ok r → r.file = some t → ∃ f, table.fileSymbol f = .ok t
  /-- A file lies in itself and nowhere else. -/
  fileSymbol : ∀ {f t}, table.fileSymbol f = .ok t →
    ∃ r, table.record t = .ok r ∧ r.kind = .file ∧ r.file = some t ∧ r.container = none
  /-- What is written somewhere is written in a file that has been added. -/
  source : ∀ {s r p}, table.record s = .ok r → r.source = some p → table.KnowsFile p.file
  /-- What is entered in a class has the class as its container. -/
  entries : ∀ {s r m}, table.record s = .ok r → m ∈ r.entries →
    ∃ q, table.record m = .ok q ∧ q.container = some s
  /-- A symbol is entered once. -/
  nodup : ∀ {s r}, table.record s = .ok r → r.entries.Nodup
  /-- Inherited members are known. -/
  inherited : ∀ {s r m}, table.record s = .ok r → m ∈ r.inheritedMembers → table.Knows m
  /-- The index names the latest class of a name. -/
  index : ∀ {id s}, table.classes.lookup id = some s ↔ table.Latest id s

theorem wellFormed_empty : WellFormed .empty where
  files_le := Nat.le_refl _
  container h := nomatch h
  file h := nomatch h
  fileSymbol h := nomatch h
  source h := nomatch h
  entries h := nomatch h
  nodup h := nomatch h
  inherited h := nomatch h
  index := ⟨nofun, fun ⟨⟨_, hr, _⟩, _⟩ ↦ nomatch hr⟩

/-! ## One more symbol -/

/-- How a table comes out when a symbol with a given record is added. -/
structure Adds (table : SymbolTable) (r : SymbolRecord) (after : SymbolTable) : Prop where
  /-- There is a number for the symbol. -/
  room : table.symbols.size < SymbolId.count
  files_le : after.files.size ≤ after.symbols.size
  record : ∀ s, after.record s =
    if s.index = table.symbols.size then .ok r else table.record s
  classes : ∀ id, after.classes.lookup id =
    if r.classId = some id then some (.ofIndex table.symbols.size) else table.classes.lookup id
  /-- The files of before are still there. -/
  file_of : ∀ {f t}, table.fileSymbol f = .ok t → after.fileSymbol f = .ok t
  /-- A file that was not there before is the new symbol. -/
  file_cases : ∀ {f t}, after.fileSymbol f = .ok t → table.fileSymbol f = .ok t ∨
    t.index = table.symbols.size ∧ r.kind = .file ∧ r.file = some t ∧ r.container = none
  container : ∀ {c}, r.container = some c → table.Knows c
  file : ∀ {t}, r.file = some t → ∃ f, after.fileSymbol f = .ok t
  source : ∀ {p}, r.source = some p → after.KnowsFile p.file
  entries : r.entries = []
  inherited : r.inheritedMembers = []

namespace Adds

/-- A record is the new one, or there before. -/
theorem record_cases (adds : Adds table r after) (h : after.record s = .ok q) :
    (s.index = table.symbols.size ∧ q = r) ∨
      (s.index < table.symbols.size ∧ table.record s = .ok q) := by
  rw [adds.record] at h
  split at h
  next new => exact .inl ⟨new, (Except.ok.inj h).symm⟩
  next => exact .inr ⟨index_lt_size h, h⟩

theorem record_of (adds : Adds table r after) (h : table.record s = .ok q) :
    after.record s = .ok q := by
  rw [adds.record, if_neg (Nat.ne_of_lt (index_lt_size h)), h]

theorem record_new (adds : Adds table r after) :
    after.record (.ofIndex table.symbols.size) = .ok r := by
  rw [adds.record, if_pos (SymbolId.index_ofIndex adds.room)]

/-- The new symbol is the latest class of its name; for any other name nothing changes. -/
theorem latest_iff (adds : Adds table r after) :
    after.Latest id s ↔
      if r.classId = some id then s = .ofIndex table.symbols.size else table.Latest id s := by
  have new := SymbolId.index_ofIndex adds.room
  split
  next named =>
    constructor
    · rintro ⟨⟨q, hq, -⟩, latest⟩
      have hle := latest _ _ adds.record_new named
      rw [← SymbolId.index_inj]
      obtain ⟨hs, -⟩ | ⟨hs, -⟩ := adds.record_cases hq <;> omega
    · rintro rfl
      refine ⟨⟨r, adds.record_new, named⟩, fun t q hq _ ↦ ?_⟩
      obtain ⟨ht, -⟩ | ⟨ht, -⟩ := adds.record_cases hq <;> omega
  next other =>
    constructor
    · rintro ⟨⟨q, hq, named⟩, latest⟩
      obtain ⟨-, rfl⟩ | ⟨-, hq⟩ := adds.record_cases hq
      · exact absurd named other
      · exact ⟨⟨q, hq, named⟩, fun t p hp ↦ latest t p (adds.record_of hp)⟩
    · rintro ⟨⟨q, hq, named⟩, latest⟩
      refine ⟨⟨q, adds.record_of hq, named⟩, fun t p hp hnamed ↦ ?_⟩
      obtain ⟨-, rfl⟩ | ⟨-, hp⟩ := adds.record_cases hp
      · exact absurd hnamed other
      · exact latest t p hp hnamed

/-- The new symbol is in no list yet, since what is in a list was known before. -/
theorem not_mem_entries (adds : Adds table r after) (wf : table.WellFormed)
    (h : after.record s = .ok q) : SymbolId.ofIndex table.symbols.size ∉ q.entries := by
  intro hm
  obtain ⟨-, rfl⟩ | ⟨-, h⟩ := adds.record_cases h
  · exact nomatch adds.entries ▸ hm
  · obtain ⟨p, hp, -⟩ := wf.entries h hm
    exact Nat.ne_of_lt (index_lt_size hp) (SymbolId.index_ofIndex adds.room)

/-- Adding a symbol that no list names keeps a table well-formed. -/
theorem wellFormed (adds : Adds table r after) (wf : table.WellFormed) : after.WellFormed where
  files_le := adds.files_le
  container {s q c} hq hc := by
    obtain ⟨hs, rfl⟩ | ⟨-, hq⟩ := adds.record_cases hq
    · exact hs ▸ knows_iff.mp (adds.container hc)
    · exact wf.container hq hc
  file {s q t} hq ht := by
    obtain ⟨-, rfl⟩ | ⟨-, hq⟩ := adds.record_cases hq
    · exact adds.file ht
    · exact (wf.file hq ht).imp fun _ ↦ adds.file_of
  fileSymbol {f t} h := by
    obtain h | ⟨ht, kind, file, container⟩ := adds.file_cases h
    · obtain ⟨q, hq, rest⟩ := wf.fileSymbol h
      exact ⟨q, adds.record_of hq, rest⟩
    · exact ⟨r, by rw [adds.record, if_pos ht], kind, file, container⟩
  source {s q p} hq hp := by
    obtain ⟨-, rfl⟩ | ⟨-, hq⟩ := adds.record_cases hq
    · exact adds.source hp
    · exact (wf.source hq hp).imp fun _ ↦ adds.file_of
  entries {s q m} hq hm := by
    obtain ⟨-, rfl⟩ | ⟨-, hq⟩ := adds.record_cases hq
    · exact nomatch adds.entries ▸ hm
    · obtain ⟨p, hp, hs⟩ := wf.entries hq hm
      exact ⟨p, adds.record_of hp, hs⟩
  nodup {s q} hq := by
    obtain ⟨-, rfl⟩ | ⟨-, hq⟩ := adds.record_cases hq
    · exact adds.entries ▸ List.nodup_nil
    · exact wf.nodup hq
  inherited {s q m} hq hm := by
    obtain ⟨-, rfl⟩ | ⟨-, hq⟩ := adds.record_cases hq
    · exact nomatch adds.inherited ▸ hm
    · exact (wf.inherited hq hm).imp fun _ ↦ adds.record_of
  index {id s} := by
    rw [adds.classes, adds.latest_iff]
    split
    next => exact Option.some_inj.trans eq_comm
    next => exact wf.index

end Adds

/-! ## Other lists in one class -/

section Update

variable {change : SymbolRecord → SymbolRecord} (bare : ∀ r, (change r).bare = r.bare)

/-- A record is the changed one, or as before. -/
theorem record_update_cases (h : (table.update c change).record s = .ok q) :
    (∃ p, table.record c = .ok p ∧ s = c ∧ q = change p) ∨ table.record s = .ok q := by
  rw [record_update] at h
  split at h
  next hs =>
    obtain ⟨p, hp, rfl⟩ := map_eq_ok.mp h
    exact .inl ⟨p, hs ▸ hp, hs, rfl⟩
  next => exact .inr h

include bare in
theorem record_of_update (h : (table.update c change).record s = .ok q) :
    ∃ p, table.record s = .ok p ∧ q.bare = p.bare := by
  obtain ⟨p, hp, rfl, rfl⟩ | h := record_update_cases h
  · exact ⟨p, hp, bare p⟩
  · exact ⟨q, h, rfl⟩

include bare in
theorem update_record_of (h : table.record s = .ok q) :
    ∃ p, (table.update c change).record s = .ok p ∧ p.bare = q.bare := by
  rw [record_update]
  split
  next => exact ⟨change q, map_eq_ok.mpr ⟨q, h, rfl⟩, bare q⟩
  next => exact ⟨q, h, rfl⟩

include bare in
theorem latest_update : (table.update c change).Latest id s ↔ table.Latest id s := by
  constructor
  · rintro ⟨⟨q, hq, named⟩, latest⟩
    obtain ⟨p, hp, same⟩ := record_of_update bare hq
    refine ⟨⟨p, hp, (congrArg SymbolRecord.classId same).symm.trans named⟩, fun t r hr hnamed ↦ ?_⟩
    obtain ⟨o, ho, same⟩ := update_record_of (c := c) bare hr
    exact latest t o ho ((congrArg SymbolRecord.classId same).trans hnamed)
  · rintro ⟨⟨q, hq, named⟩, latest⟩
    obtain ⟨p, hp, same⟩ := update_record_of (c := c) bare hq
    refine ⟨⟨p, hp, (congrArg SymbolRecord.classId same).trans named⟩, fun t r hr hnamed ↦ ?_⟩
    obtain ⟨o, ho, same⟩ := record_of_update bare hr
    exact latest t o ho ((congrArg SymbolRecord.classId same).symm.trans hnamed)

include bare in
/-- Changing the lists of one class keeps a table well-formed if the new lists agree with the
containers. -/
theorem WellFormed.update (wf : table.WellFormed)
    (entries : ∀ {r m}, table.record c = .ok r → m ∈ (change r).entries →
      ∃ q, table.record m = .ok q ∧ q.container = some c)
    (nodup : ∀ {r}, table.record c = .ok r → (change r).entries.Nodup)
    (inherited : ∀ {r m}, table.record c = .ok r → m ∈ (change r).inheritedMembers →
      table.Knows m) : (table.update c change).WellFormed where
  files_le := (size_update table c change).symm ▸ wf.files_le
  container hq hc := by
    obtain ⟨p, hp, same⟩ := record_of_update bare hq
    exact wf.container hp ((congrArg SymbolRecord.container same).symm.trans hc)
  file hq ht := by
    obtain ⟨p, hp, same⟩ := record_of_update bare hq
    exact wf.file hp ((congrArg SymbolRecord.file same).symm.trans ht)
  fileSymbol h := by
    obtain ⟨q, hq, kind, file, container⟩ := wf.fileSymbol h
    obtain ⟨p, hp, same⟩ := update_record_of (c := c) bare hq
    exact ⟨p, hp, (congrArg SymbolRecord.kind same).trans kind,
      (congrArg SymbolRecord.file same).trans file,
      (congrArg SymbolRecord.container same).trans container⟩
  source hq hp := by
    obtain ⟨p, hp', same⟩ := record_of_update bare hq
    exact wf.source hp' ((congrArg SymbolRecord.source same).symm.trans hp)
  entries {s r m} hq hm := by
    have agrees : ∃ q, table.record m = .ok q ∧ q.container = some s := by
      obtain ⟨p, hp, rfl, rfl⟩ | hq := record_update_cases hq
      · exact entries hp hm
      · exact wf.entries hq hm
    obtain ⟨p, hp, hs⟩ := agrees
    obtain ⟨o, ho, same⟩ := update_record_of (c := c) bare hp
    exact ⟨o, ho, (congrArg SymbolRecord.container same).trans hs⟩
  nodup hq := by
    obtain ⟨p, hp, rfl, rfl⟩ | hq := record_update_cases hq
    · exact nodup hp
    · exact wf.nodup hq
  inherited {s r m} hq hm := by
    have known : table.Knows m := by
      obtain ⟨p, hp, rfl, rfl⟩ | hq := record_update_cases hq
      · exact inherited hp hm
      · exact wf.inherited hq hm
    exact knows_iff.mpr ((size_update table c change).symm ▸ knows_iff.mp known)
  index := wf.index.trans (latest_update bare).symm

end Update

/-! ## The edits -/

theorem adds_addFile (wf : table.WellFormed) (room : table.symbols.size < SymbolId.count)
    (path : String) (text : Option String) (kind : FileKind) :
    Adds table (table.recordOfFile path) (table.addFile path text kind).1 := by
  have fileSymbol (f : FileId) : (table.addFile path text kind).1.fileSymbol f =
      if f.index = table.files.size then .ok (.ofIndex table.symbols.size)
      else table.fileSymbol f :=
    fileSymbol_push_file ..
  have added : (table.addFile path text kind).1.fileSymbol (.ofIndex table.files.size) =
      .ok (.ofIndex table.symbols.size) := by
    rw [fileSymbol, if_pos (FileId.index_ofIndex (Nat.lt_of_le_of_lt wf.files_le room))]
  constructor
  case room => exact room
  case files_le =>
    show (table.files.push _).size ≤ (table.symbols.push _).size
    rw [Array.size_push, Array.size_push]
    exact Nat.succ_le_succ wf.files_le
  case record => exact record_push table _
  case classes => exact fun _ ↦ rfl
  case file_of =>
    intro f t h
    rw [fileSymbol, if_neg (Nat.ne_of_lt (knowsFile_iff.mp ⟨t, h⟩)), h]
  case file_cases =>
    intro f t h
    rw [fileSymbol] at h
    split at h
    next =>
      cases h
      exact .inr ⟨SymbolId.index_ofIndex room, rfl, rfl, rfl⟩
    next => exact .inl h
  case container => exact nofun
  case file =>
    rintro t ⟨⟩
    exact ⟨_, added⟩
  case source =>
    rintro p ⟨⟩
    exact ⟨_, added⟩
  case entries => rfl
  case inherited => rfl

/-- What holds of a symbol that is being declared by statements that name only what is known. -/
structure Fits (table : SymbolTable) (r : SymbolRecord) : Prop where
  container : ∀ {c}, r.container = some c → table.Knows c
  file : ∀ {t}, r.file = some t → ∃ f, table.fileSymbol f = .ok t
  source : ∀ {p}, r.source = some p → table.KnowsFile p.file
  entries : r.entries = []
  inherited : r.inheritedMembers = []

theorem Fits.amend {d : Draft} (fits : table.Fits d.record) {a : Attribute}
    (admits : table.Admits a) : table.Fits (table.amend d a).record := by
  cases a with
  | positioned position =>
    refine { fits with file := fun {t} ht ↦ ⟨position.file, ?_⟩, source := ?_ }
    · exact toOption_eq_some.mp ht
    · rintro p ⟨⟩
      exact admits
  | placed placement container =>
    refine { fits with container := ?_ }
    rintro c ⟨⟩
    exact admits
  | _ => exact { fits with }

/-- The statements about a symbol are taken in one by one. -/
theorem fits_draft (kind : SymbolKind) (name : Option String) {attributes : List Attribute}
    (admits : ∀ a ∈ attributes, table.Admits a) :
    table.Fits (table.draft kind name attributes).record := by
  have blank : table.Fits { kind, name } :=
    { container := nofun, file := nofun, source := nofun, entries := rfl, inherited := rfl }
  exact List.foldlRecOn attributes table.amend (motive := fun d ↦ table.Fits d.record)
    (b := { record := { kind, name } }) blank fun d fits a ha ↦ fits.amend (admits a ha)

theorem fits_recordOf (wf : table.WellFormed) (kind : SymbolKind) (name : Option String)
    {attributes : List Attribute} (admits : ∀ a ∈ attributes, table.Admits a) :
    table.Fits (table.recordOf kind name attributes) := by
  have fits := fits_draft kind name admits
  refine { fits with file := fun {t} ht ↦ ?_ }
  obtain h | ⟨-, h⟩ := Option.or_eq_some_iff.mp ht
  · exact fits.file h
  · obtain ⟨c, -, h⟩ := Option.bind_eq_some_iff.mp h
    obtain ⟨r, hr, h⟩ := Option.bind_eq_some_iff.mp h
    exact wf.file (toOption_eq_some.mp hr) h

theorem adds_add (wf : table.WellFormed) (room : table.symbols.size < SymbolId.count)
    (fits : table.Fits r) : Adds table r (table.add r) where
  room := room
  files_le := by
    rw [files_add, size_add]
    exact Nat.le_succ_of_le wf.files_le
  record s := (record_index ..).trans (record_push ..)
  classes := table.lookup_add r
  file_of h := (fileSymbol_add ..).trans h
  file_cases h := .inl ((fileSymbol_add ..).symm.trans h)
  container := fits.container
  file ht := (fits.file ht).imp fun _ ↦ (fileSymbol_add ..).trans
  source hp := (fits.source hp).imp fun _ ↦ (fileSymbol_add ..).trans
  entries := fits.entries
  inherited := fits.inherited

theorem WellFormed.declare (wf : table.WellFormed) (room : table.symbols.size < SymbolId.count)
    (kind : SymbolKind) (name : Option String) {attributes : List Attribute}
    (admits : ∀ a ∈ attributes, table.Admits a) :
    (table.declare kind name attributes).1.WellFormed := by
  have adds := adds_add wf room (fits_recordOf wf kind name admits)
  have added := adds.wellFormed wf
  rw [declare_eq]
  dsimp only
  split
  next => exact added
  next c hc =>
    refine added.update (fun r ↦ r.bare_enter _ _) ?entries ?nodup ?inherited
    case entries =>
      intro r m hr hm
      obtain perm | same := r.entries_enter (.ofIndex table.symbols.size)
        (table.draft kind name attributes).placement
      · obtain rfl | hm := List.mem_cons.mp (perm.mem_iff.mp hm)
        · exact ⟨_, adds.record_new, hc⟩
        · exact added.entries hr hm
      · exact added.entries hr (same ▸ hm)
    case nodup =>
      intro r hr
      obtain perm | same := r.entries_enter (.ofIndex table.symbols.size)
        (table.draft kind name attributes).placement
      · exact perm.nodup_iff.mpr (List.nodup_cons.mpr ⟨adds.not_mem_entries wf hr, added.nodup hr⟩)
      · exact same ▸ added.nodup hr
    case inherited =>
      intro r m hr hm
      exact added.inherited hr (r.inheritedMembers_enter _ _ ▸ hm)

theorem WellFormed.inherit (wf : table.WellFormed) (known : table.Knows m) (cls : SymbolId) :
    (table.inherit cls m).WellFormed := by
  refine wf.update (fun _ ↦ rfl) wf.entries wf.nodup ?_
  intro r s hr hs
  obtain hs | hs := List.mem_append.mp hs
  · exact wf.inherited hr hs
  · exact List.mem_singleton.mp hs ▸ known

/-- One edit keeps a table well-formed, as long as there is room for one more symbol. -/
theorem WellFormed.edit (wf : table.WellFormed) {e : Edit} (allowed : table.Allows e)
    (fits : (table.edit e).symbols.size ≤ SymbolId.count) : (table.edit e).WellFormed := by
  cases e with
  | addFile path text kind =>
    have room := Nat.le_trans (Nat.le_of_eq (size_addFile path text kind).symm) fits
    exact (adds_addFile wf room path text kind).wellFormed wf
  | declare kind name attributes =>
    have room := Nat.le_trans (Nat.le_of_eq (size_declare kind name attributes).symm) fits
    exact wf.declare room kind name allowed
  | inherit cls member => exact wf.inherit allowed.2 cls

theorem Built.wellFormed (built : Built table) (fits : table.symbols.size ≤ SymbolId.count) :
    table.WellFormed := by
  induction built with
  | empty => exact wellFormed_empty
  | @edit table e _ allowed ih =>
    exact (ih (Nat.le_trans (size_le_edit e) fits)).edit allowed fits

end SymbolTable
end SymbolView
