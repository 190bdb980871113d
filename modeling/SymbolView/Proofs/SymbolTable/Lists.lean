import Mathlib.Data.List.Induction
import SymbolView.Proofs.SymbolTable.WellFormed

/-!
# What an edit enters where

An edit puts the symbol that it declares at the end of one list of its container, and a member that
it makes visible at the end of the inherited members of the class: `record_edit` says so of every
record that was there before.  Which list of which container it is, and which name the index has for
the symbol (`lookup_edit`), is decided by the last statement of the declaration that says so
(`Edit.place?`, `Edit.className?`).

What is in the lists is known if edits name only what is known (`Built.knowsMembers`).

The numbers of symbols start again when there is none left.  Nothing here depends on there being
one: what is entered is the number that the edit returns.
-/

set_option autoImplicit false

namespace SymbolView

/-- Whether a host says of a symbol that it is a property, a function or a Java field. -/
def Host.isCallable (host : Host) (s : SymbolId) : Bool :=
  match host.symbolKind s with
  | .ok kind => kind ∈ [.property, .functionLike, .javaField]
  | .error _ => false

/-! ## What is said last -/

/-- Where a statement about a symbol places it. -/
def Attribute.place? : Attribute → Option (Placement × SymbolId)
  | .placed placement container => some (placement, container)
  | _ => none

/-- The name as a class or type alias that a statement gives to a symbol. -/
def Attribute.className? : Attribute → Option ClassId
  | .classId id => some id
  | _ => none

namespace SymbolTable

variable {table : SymbolTable} {e : Edit} {s c m : SymbolId} {f : FileId} {r q : SymbolRecord}

/-- Where an edit places the symbol that it declares. -/
def Edit.place? : Edit → Option (Placement × SymbolId)
  | .declare _ _ attributes => (attributes.filterMap Attribute.place?).getLast?
  | _ => none

/-- The name as a class or type alias that an edit gives to the symbol that it declares. -/
def Edit.className? : Edit → Option ClassId
  | .declare _ _ attributes => (attributes.filterMap Attribute.className?).getLast?
  | _ => none

/-- What each statement overrides is in the end as the last statement about it says. -/
theorem getLast?_filterMap_eq_draft {α : Type} {pick : Attribute → Option α}
    (read : Draft → Option α) (kind : SymbolKind) (name : Option String)
    (blank : read { record := { kind, name } } = none)
    (override : ∀ d a, read (table.amend d a) = (pick a).or (read d))
    (attributes : List Attribute) :
    (attributes.filterMap pick).getLast? = read (table.draft kind name attributes) := by
  induction attributes using List.reverseRecOn with
  | nil => exact blank.symm
  | append_singleton attributes a ih =>
    have last : table.draft kind name (attributes ++ [a]) =
        table.amend (table.draft kind name attributes) a := List.foldl_append
    have single : ([a].filterMap pick).getLast? = pick a := by
      cases h : pick a <;> simp [h]
    rw [last, override, ← ih, List.filterMap_append, List.getLast?_append, single]

theorem place?_eq_draft (table : SymbolTable) (kind : SymbolKind) (name : Option String)
    (attributes : List Attribute) : (Edit.declare kind name attributes).place? =
      (table.draft kind name attributes).record.container.map
        ((table.draft kind name attributes).placement, ·) := by
  refine getLast?_filterMap_eq_draft (fun d ↦ d.record.container.map (d.placement, ·)) kind name rfl
    (fun d a ↦ ?_) attributes
  cases a <;> rfl

theorem className?_eq_draft (table : SymbolTable) (kind : SymbolKind) (name : Option String)
    (attributes : List Attribute) : (Edit.declare kind name attributes).className? =
      (table.draft kind name attributes).record.classId := by
  refine getLast?_filterMap_eq_draft (fun d ↦ d.record.classId) kind name rfl (fun d a ↦ ?_)
    attributes
  cases a <;> rfl

end SymbolTable

/-! ## Records -/

namespace SymbolRecord

/-- The record with more symbols at the ends of its lists. -/
def extend (r : SymbolRecord) (entered : Placement → List SymbolId)
    (shown : List SymbolId) : SymbolRecord :=
  { r with
    declaredMembers := r.declaredMembers ++ entered .asMember
    staticMembers := r.staticMembers ++ entered .asStatic
    constructors := r.constructors ++ entered .asConstructor
    inheritedMembers := r.inheritedMembers ++ shown }

theorem extend_nil (r : SymbolRecord) : r.extend (fun _ ↦ []) [] = r := by
  simp [extend]

theorem enter_eq_extend (r : SymbolRecord) (s : SymbolId) (p : Placement) :
    r.enter s p = r.extend (fun p' ↦ if p = p' then [s] else []) [] := by
  cases p <;> simp [enter, extend]

theorem inherit_eq_extend (r : SymbolRecord) (s : SymbolId) :
    r.inherit s = r.extend (fun _ ↦ []) [s] := by
  simp [inherit, extend]

theorem extend_extend (r : SymbolRecord) (entered entered' : Placement → List SymbolId)
    (shown shown' : List SymbolId) : (r.extend entered shown).extend entered' shown' =
      r.extend (fun p ↦ entered p ++ entered' p) (shown ++ shown') := by
  simp [extend]

end SymbolRecord

namespace SymbolTable

variable {table : SymbolTable} {e : Edit} {s c m : SymbolId} {f : FileId} {r q : SymbolRecord}

/-- The symbol that an edit declares. -/
def declared (table : SymbolTable) : Edit → Option SymbolId
  | .declare kind name attributes => some (table.declare kind name attributes).2
  | _ => none

/-- What an edit enters in a list of a symbol: the symbol that it declares if it is placed there. -/
def entered (table : SymbolTable) (e : Edit) (p : Placement) (c : SymbolId) : List SymbolId :=
  if e.place? = some (p, c) then (table.declared e).toList else []

/-- What an edit makes visible in a class. -/
def Edit.shown : Edit → SymbolId → List SymbolId
  | .inherit cls member, c => if cls = c then [member] else []
  | _, _ => []

theorem entered_eq_nil (table : SymbolTable) {p : Placement} (elsewhere : e.place? ≠ some (p, c)) :
    table.entered e p c = [] :=
  if_neg elsewhere

theorem record_add (table : SymbolTable) (r : SymbolRecord) (s : SymbolId) :
    (table.add r).record s = if s.index = table.symbols.size then .ok r else table.record s :=
  (record_index ..).trans (record_push ..)

theorem record_update_of_eq_ok (h : table.record s = .ok r) (c : SymbolId)
    (change : SymbolRecord → SymbolRecord) :
    (table.update c change).record s = .ok (if s = c then change r else r) := by
  rw [record_update, h]
  split <;> rfl

theorem extend_of_elsewhere (table : SymbolTable) (r : SymbolRecord) {c : SymbolId}
    (elsewhere : ∀ p, e.place? ≠ some (p, c)) : r.extend (table.entered e · c) [] = r := by
  rw [funext fun p ↦ table.entered_eq_nil (elsewhere p), r.extend_nil]

/-- A declared symbol is put at the end of the list that it is placed in, and of no other. -/
theorem record_declare_of_eq_ok (h : table.record s = .ok r) (kind : SymbolKind)
    (name : Option String) (attributes : List Attribute) :
    (table.declare kind name attributes).1.record s =
      .ok (r.extend (table.entered (.declare kind name attributes) · s) []) := by
  have same : (table.add (table.recordOf kind name attributes)).record s = .ok r := by
    rw [record_add, if_neg (Nat.ne_of_lt (index_lt_size h)), h]
  have placed := table.place?_eq_draft kind name attributes
  rw [declare_eq]
  dsimp only
  split
  next detached =>
    have detached : (table.draft kind name attributes).record.container = none := detached
    rw [same, table.extend_of_elsewhere r fun p ↦ by simp [placed, detached]]
  next c hc =>
    have hc : (table.draft kind name attributes).record.container = some c := hc
    rw [hc] at placed
    rw [record_update_of_eq_ok same]
    congr 1
    split
    next hs =>
      rw [r.enter_eq_extend]
      congr 1
      funext p
      simp [entered, placed, declared, declare_snd, hs]
    next hs => exact (table.extend_of_elsewhere r fun p ↦ by simp [placed, Ne.symm hs]).symm

/-- **An edit puts symbols at the ends of lists.** -/
theorem record_edit (h : table.record s = .ok r) (e : Edit) :
    (table.edit e).record s = .ok (r.extend (table.entered e · s) (e.shown s)) := by
  cases e with
  | addFile path text kind =>
    have old : s.index ≠ table.symbols.size := Nat.ne_of_lt (index_lt_size h)
    have same : (table.addFile path text kind).1.record s = .ok r :=
      (record_push table (table.recordOfFile path) s).trans ((if_neg old).trans h)
    exact same.trans (congrArg _ r.extend_nil.symm)
  | declare kind name attributes => exact record_declare_of_eq_ok h kind name attributes
  | inherit cls member =>
    show (table.update cls (·.inherit member)).record s = .ok (r.extend (fun _ ↦ []) _)
    rw [record_update_of_eq_ok h, Edit.shown]
    congr 1
    split
    next hs => rw [if_pos hs.symm, r.inherit_eq_extend]
    next hs => rw [if_neg (Ne.symm hs), r.extend_nil]

/-! ## Members are known -/

/-- Whether all members that are declared in a symbol or inherited by it are known. -/
def KnowsMembers (table : SymbolTable) : Prop :=
  ∀ {s r m}, table.record s = .ok r → m ∈ r.declaredMembers ++ r.inheritedMembers → table.Knows m

/-- A symbol that was not known before is added without members. -/
theorem members_of_new (allowed : table.Allows e) (new : ¬ table.Knows s)
    (h : (table.edit e).record s = .ok q) : q.declaredMembers ++ q.inheritedMembers = [] := by
  have unknown (h : table.record s = .ok q) : False := new ⟨q, h⟩
  cases e with
  | addFile path text kind =>
    have h := (record_push table (table.recordOfFile path) s).symm.trans h
    split at h
    next => exact Except.ok.inj h ▸ rfl
    next => exact (unknown h).elim
  | declare kind name attributes =>
    have fits := fits_draft kind name allowed
    have blank : (table.recordOf kind name attributes).declaredMembers ++
        (table.recordOf kind name attributes).inheritedMembers = [] := by
      have entries := fits.entries
      simp only [SymbolRecord.entries, List.append_eq_nil_iff] at entries
      exact List.append_eq_nil_iff.mpr ⟨entries.1.1, fits.inherited⟩
    have added (h : (table.add (table.recordOf kind name attributes)).record s = .ok q) :
        q.declaredMembers ++ q.inheritedMembers = [] := by
      rw [record_add] at h
      split at h
      next => exact Except.ok.inj h ▸ blank
      next => exact (unknown h).elim
    have h : (table.declare kind name attributes).1.record s = .ok q := h
    rw [declare_eq] at h
    dsimp only at h
    split at h
    next => exact added h
    next c hc =>
      rw [record_update, if_neg ?_] at h
      · exact added h
      · rintro rfl
        exact new (fits.container hc)
  | inherit cls member =>
    have h : (table.update cls (·.inherit member)).record s = .ok q := h
    obtain ⟨p, hp, rfl, -⟩ | h := record_update_cases h
    · exact (new ⟨p, hp⟩).elim
    · exact (unknown h).elim

/-- A declared symbol is known. -/
theorem knows_declared (h : table.declared e = some m) : (table.edit e).Knows m := by
  cases e with
  | declare kind name attributes => exact Option.some.inj h ▸ knows_declare kind name attributes
  | addFile path text kind => cases h
  | inherit cls member => cases h

theorem knows_of_mem_entered {p : Placement} (h : m ∈ table.entered e p c) :
    (table.edit e).Knows m := by
  rw [entered] at h
  split at h
  next => exact knows_declared (Option.mem_toList.mp h)
  next => cases h

theorem knows_of_mem_shown (allowed : table.Allows e) (h : m ∈ e.shown c) : table.Knows m := by
  cases e with
  | inherit cls member =>
    rw [Edit.shown] at h
    split at h
    next => exact List.mem_singleton.mp h ▸ allowed.2
    next => cases h
  | addFile path text kind => cases h
  | declare kind name attributes => cases h

theorem KnowsMembers.edit (h : table.KnowsMembers) (allowed : table.Allows e) :
    (table.edit e).KnowsMembers := by
  intro s q m hq hm
  by_cases known : table.Knows s
  · obtain ⟨r, hr⟩ := known
    cases hq.symm.trans (record_edit hr e)
    have cases : m ∈ r.declaredMembers ++ r.inheritedMembers ∨
        m ∈ table.entered e .asMember s ∨ m ∈ e.shown s := by
      simp only [SymbolRecord.extend, List.mem_append] at hm ⊢
      tauto
    obtain old | entered | shown := cases
    · exact (h hr old).edit e
    · exact knows_of_mem_entered entered
    · exact (knows_of_mem_shown allowed shown).edit e
  · rw [members_of_new allowed known hq] at hm
    cases hm

theorem Built.knowsMembers (built : Built table) : table.KnowsMembers := by
  induction built with
  | empty => exact fun h _ ↦ nomatch h
  | edit _ allowed ih => exact ih.edit allowed

/-! ## Callable members -/

theorem isCallable_toHost (h : table.record s = .ok r) :
    table.toHost.isCallable s = isCallableMember r.kind := by
  have kind : table.toHost.symbolKind s = .ok r.kind := map_eq_ok.mpr ⟨r, h, rfl⟩
  rw [Host.isCallable, kind]
  cases r.kind <;> rfl

/-- The callable ones among symbols that are known. -/
theorem callables_eq_filter {symbols : List SymbolId} (known : ∀ s ∈ symbols, table.Knows s) :
    table.callables symbols = .ok (symbols.filter table.toHost.isCallable) := by
  induction symbols with
  | nil => rfl
  | cons s rest ih =>
    obtain ⟨r, hr⟩ := known s List.mem_cons_self
    have others := ih fun t ht ↦ known t (List.mem_cons_of_mem s ht)
    rw [callables, hr, others, List.filter_cons, isCallable_toHost hr]
    rfl

theorem callableMembers_eq_ok (h : table.record s = .ok r) (members : table.KnowsMembers) :
    table.toHost.callableMembers s =
      .ok ((r.declaredMembers ++ r.inheritedMembers).filter table.toHost.isCallable) := by
  show (table.record s >>= fun r ↦ table.callables (r.declaredMembers ++ r.inheritedMembers)) = _
  rw [h]
  exact callables_eq_filter fun _ hm ↦ members h hm

/-! ## Files and names -/

theorem fileRecord_edit (known : table.KnowsFile f) (e : Edit) :
    (table.edit e).fileRecord f = table.fileRecord f := by
  have old := Nat.ne_of_lt (knowsFile_iff.mp known)
  cases e with
  | addFile path text kind =>
    show ({ table with files := table.files.push _ } : SymbolTable).fileRecord f = _
    rw [fileRecord, Array.getElem?_push, if_neg old, fileRecord]
  | declare kind name attributes => rw [edit, fileRecord, files_declare, fileRecord]
  | inherit cls member => rfl

/-- A name is redirected if it is the one that the declared symbol is given. -/
theorem lookup_edit (table : SymbolTable) (e : Edit) (id : ClassId) :
    (table.edit e).classes.lookup id =
      if e.className? = some id then table.declared e else table.classes.lookup id := by
  cases e with
  | addFile path text kind => rfl
  | inherit cls member => rfl
  | declare kind name attributes =>
    have added : (table.declare kind name attributes).1.classes =
        (table.add (table.recordOf kind name attributes)).classes := by
      rw [declare_eq]
      dsimp only
      split <;> rfl
    show (table.declare kind name attributes).1.classes.lookup id = _
    rw [added, lookup_add, className?_eq_draft, declared, declare_snd]
    rfl

end SymbolTable
end SymbolView
