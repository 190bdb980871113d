import SymbolView.Proofs.SymbolTable.Coherence
import SymbolView.Proofs.SymbolTable.FileRoutes

/-!
# Tables only grow

An edit adds at most one symbol or file, and of what there was before it changes only lists, at
their ends.  `SymbolTable.Extends` says which answers of a table change, and how, and
`Built.extends_edit` that an edit of a built table that names only what is known changes no others.
So a host may be edited while it is in use: `Built.continues_later` says what is left of this after
any number of edits.

Both come from the records.  A record that has been extended tells the same of its symbol apart from
the lists (`agrees_of_extend`), and its lists have grown (`grown_of_extend`).  Which of the members
are callable depends on the records of the members, and so on their being known before
(`callableMembers_of_extend`).
-/

set_option autoImplicit false

namespace SymbolView

/-! ## What may change -/

/-- Whether two hosts agree in all that they tell of a symbol, its lists of members apart. -/
structure Host.Agrees (host host' : Host) (s : SymbolId) : Prop where
  symbolKind : host'.symbolKind s = host.symbolKind s
  symbolName : host'.symbolName s = host.symbolName s
  provenance : host'.provenance s = host.provenance s
  source : host'.source s = host.source s
  annotations : host'.annotations s = host.annotations s
  containingSymbol : host'.containingSymbol s = host.containingSymbol s
  containingFile : host'.containingFile s = host.containingFile s
  isVisibleIn : ∀ cls, host'.isVisibleIn s cls = host.isVisibleIn s cls
  classId : host'.classId s = host.classId s
  declaredType : host'.declaredType s = host.declaredType s
  visibility : host'.visibility s = host.visibility s
  modality : host'.modality s = host.modality s
  docComment : host'.docComment s = host.docComment s

/-- Whether two answers are lists, the second of which is the first with more at its end. -/
def Grown (new : List SymbolId) (before after : Except HostError (List SymbolId)) : Prop :=
  ∃ l, before = .ok l ∧ after = .ok (l ++ new)

namespace SymbolTable

variable {table after : SymbolTable} {e : Edit} {s : SymbolId} {r : SymbolRecord} {id : ClassId}

/-! ## Before and after an edit -/

section Extended

variable {entered : Placement → List SymbolId} {shown : List SymbolId}
  (h : table.record s = .ok r) (h' : after.record s = .ok (r.extend entered shown))

include h h'

theorem agrees_of_extend : table.toHost.Agrees after.toHost s := by
  have same {α : Type} (read : SymbolRecord → α)
      (apart : ∀ r entered shown, read (r.extend entered shown) = read r) :
      read <$> after.record s = read <$> table.record s := by
    rw [h, h']
    exact congrArg Except.ok (apart r entered shown)
  constructor
  case isVisibleIn => exact fun cls ↦ same (isVisibleIn · cls) fun _ _ _ ↦ rfl
  all_goals exact same _ fun _ _ _ ↦ rfl

theorem grown_of_extend (read : SymbolRecord → List SymbolId) {new : List SymbolId}
    (reads : read (r.extend entered shown) = read r ++ new) :
    Grown new (read <$> table.record s) (read <$> after.record s) :=
  ⟨read r, map_eq_ok.mpr ⟨r, h, rfl⟩, map_eq_ok.mpr ⟨_, h', reads⟩⟩

/-- The callable members that are entered come after those that are declared, and those that are
made visible after those that are inherited. -/
theorem callableMembers_of_extend (members : table.KnowsMembers) (members' : after.KnowsMembers)
    (agrees : ∀ {m}, table.Knows m → table.toHost.Agrees after.toHost m) :
    after.toHost.callableMembers s =
      .ok (r.declaredMembers.filter table.toHost.isCallable ++
        (entered .asMember).filter after.toHost.isCallable ++
        (r.inheritedMembers.filter table.toHost.isCallable ++
          shown.filter after.toHost.isCallable)) := by
  have told : ∀ m ∈ r.declaredMembers ++ r.inheritedMembers,
      after.toHost.isCallable m = table.toHost.isCallable m := by
    intro m hm
    rw [Host.isCallable, (agrees (members h hm)).symbolKind, Host.isCallable]
  obtain ⟨declared, inherited⟩ := List.forall_mem_append.mp told
  rw [callableMembers_eq_ok h' members', ← List.filter_congr declared,
    ← List.filter_congr inherited]
  simp only [SymbolRecord.extend, List.filter_append]

end Extended

theorem agrees_edit (known : table.Knows s) (e : Edit) :
    table.toHost.Agrees (table.edit e).toHost s := by
  obtain ⟨r, hr⟩ := known
  exact agrees_of_extend hr (record_edit hr e)

theorem classOf_congr {table' : SymbolTable}
    (h : table'.classes.lookup id = table.classes.lookup id) :
    table'.toHost.classOf id = table.toHost.classOf id := by
  unfold toHost
  dsimp only
  rw [h]

/-- A declared symbol is of the kind that it is declared with. -/
theorem symbolKind_declare (kind : SymbolKind) (name : Option String) (attributes : List Attribute)
    (room : table.symbols.size < SymbolId.count) :
    (table.declare kind name attributes).1.toHost.symbolKind
      (table.declare kind name attributes).2 = .ok kind := by
  obtain ⟨q, hq, bare⟩ := exists_record_declare kind name attributes room
  refine map_eq_ok.mpr ⟨q, hq, ?_⟩
  exact (congrArg SymbolRecord.kind bare).trans (table.kind_draft kind name attributes)

/-! ## One edit -/

/-- How a table answers after an edit, compared with how it answered before. -/
structure Extends (table : SymbolTable) (e : Edit) : Prop where
  /-- Of a symbol that was known the same is told, its lists apart. -/
  told : ∀ {s}, table.Knows s → table.toHost.Agrees (table.edit e).toHost s
  /-- The declared symbol comes last among the members it is declared with. -/
  declaredMembers : ∀ {s}, table.Knows s → Grown (table.entered e .asMember s)
    (table.toHost.declaredMembers s) ((table.edit e).toHost.declaredMembers s)
  /-- So it does among static members. -/
  staticMembers : ∀ {s}, table.Knows s → Grown (table.entered e .asStatic s)
    (table.toHost.staticMembers s) ((table.edit e).toHost.staticMembers s)
  /-- So it does among constructors. -/
  constructors : ∀ {s}, table.Knows s → Grown (table.entered e .asConstructor s)
    (table.toHost.constructors s) ((table.edit e).toHost.constructors s)
  /-- If it is callable, it comes after the callable ones of the declared members, and before those
  that are inherited.  An inherited member comes last, if it is callable. -/
  callableMembers : ∀ {s}, table.Knows s → ∃ members inherited,
    table.toHost.declaredMembers s = .ok members ∧
    table.toHost.callableMembers s =
      .ok (members.filter table.toHost.isCallable ++ inherited) ∧
    (table.edit e).toHost.callableMembers s =
      .ok (members.filter table.toHost.isCallable ++
        (table.entered e .asMember s).filter (table.edit e).toHost.isCallable ++
        (inherited ++ (e.shown s).filter (table.edit e).toHost.isCallable))
  /-- The declared symbol is of the kind that it is declared with, as long as there are numbers. -/
  kind : ∀ {kind name attributes}, e = .declare kind name attributes →
    table.symbols.size < SymbolId.count →
    (table.edit e).toHost.symbolKind (table.declare kind name attributes).2 = .ok kind
  /-- Its name stands for it from then on. -/
  renamed : ∀ {id s}, e.className? = some id → table.declared e = some s →
    (table.edit e).toHost.classOf id = .ok s
  /-- Any other name stands for what it stood for, or for nothing. -/
  classOf : ∀ {id}, e.className? ≠ some id →
    (table.edit e).toHost.classOf id = table.toHost.classOf id
  /-- Of a file that was known the same is told. -/
  fileKind : ∀ {f}, table.KnowsFile f →
    (table.edit e).toHost.fileKind f = table.toHost.fileKind f
  document : ∀ {f}, table.KnowsFile f →
    (table.edit e).toHost.document f = table.toHost.document f
  fileSymbol : ∀ {f}, table.KnowsFile f → (table.edit e).fileSymbol f = table.fileSymbol f

/-- **An edit does not disturb what has been built.**  Take a table that is built by naming only
what is known, and one more edit of this sort.  Every question about a symbol, a file or a name that
was known before is answered as before, except that

* a symbol that is declared comes last in the list that it is placed in, of the container that it is
  placed in, and in no other;
* if it is a property, a function or a Java field and placed among the members, then it also comes
  right after the callable members that are declared there, before those that are inherited;
* if it is given a name as a class or type alias, then that name stands for it;
* a property, function or Java field that is made visible in a class comes last among the callable
  members of the class. -/
theorem Built.extends_edit (built : Built table) (allowed : table.Allows e) : table.Extends e := by
  have members : table.KnowsMembers := built.knowsMembers
  constructor
  case told => exact fun known ↦ agrees_edit known e
  case declaredMembers => exact fun ⟨_, hr⟩ ↦ grown_of_extend hr (record_edit hr e) _ rfl
  case staticMembers => exact fun ⟨_, hr⟩ ↦ grown_of_extend hr (record_edit hr e) _ rfl
  case constructors => exact fun ⟨_, hr⟩ ↦ grown_of_extend hr (record_edit hr e) _ rfl
  case callableMembers =>
    rintro s ⟨r, hr⟩
    refine ⟨r.declaredMembers, r.inheritedMembers.filter table.toHost.isCallable,
      map_eq_ok.mpr ⟨r, hr, rfl⟩, ?_, ?_⟩
    · rw [callableMembers_eq_ok hr members, List.filter_append]
    · exact callableMembers_of_extend hr (record_edit hr e) members (members.edit allowed)
        fun known ↦ agrees_edit known e
  case kind =>
    rintro kind name attributes rfl room
    exact symbolKind_declare kind name attributes room
  case renamed =>
    intro id s named hs
    rw [classOf_eq_ok, lookup_edit, if_pos named, hs]
  case classOf =>
    intro id other
    exact classOf_congr ((table.lookup_edit e id).trans (if_neg other))
  case fileKind =>
    intro f known
    exact congrArg (FileRecord.kind <$> ·) (fileRecord_edit known e)
  case document =>
    intro f known
    exact congrArg (fun r ↦ r.toOption.bind (·.document)) (fileRecord_edit known e)
  case fileSymbol =>
    intro f known
    exact congrArg (FileRecord.symbol <$> ·) (fileRecord_edit known e)

/-- The second of two classes of a name gets a function: it comes before the property that the class
inherits, and the name stands for the class as before. -/
theorem Built.extends_edit_sample :
    let e : Edit := .declare .functionLike (some "total")
      [.placed .asStatic ⟨1⟩, .placed .asMember ⟨4⟩]
    sampleBuild.toHost.callableMembers ⟨4⟩ = .ok [⟨2⟩] ∧
      (sampleBuild.edit e).toHost.callableMembers ⟨4⟩ = .ok [⟨5⟩, ⟨2⟩] ∧
      (sampleBuild.edit e).toHost.staticMembers ⟨1⟩ = sampleBuild.toHost.staticMembers ⟨1⟩ ∧
      (sampleBuild.edit e).toHost.classOf ⟨["shop"], ["Cart"], false⟩ = .ok ⟨4⟩ := by
  intro e
  have allowed : sampleBuild.Allows e := by decide
  have extended : sampleBuild.Extends e := built_sampleBuild.extends_edit allowed
  have known : sampleBuild.Knows ⟨4⟩ := by decide
  have statics : sampleBuild.toHost.staticMembers ⟨1⟩ = .ok [] := rfl
  obtain ⟨members, inherited, hmembers, hbefore, hafter⟩ := extended.callableMembers known
  obtain ⟨l, hl, hstatic⟩ := extended.staticMembers (s := ⟨1⟩) (by decide)
  cases hmembers
  cases hbefore
  cases statics.symm.trans hl
  exact ⟨rfl, hafter, hstatic, (extended.classOf (by decide)).trans rfl⟩

/-! ## Any number of edits -/

/-- The tables that come from a table by more edits that name only what is known. -/
inductive Later (table : SymbolTable) : SymbolTable → Prop
  | refl : Later table table
  | edit {after : SymbolTable} {e : Edit} (later : Later table after) (allowed : after.Allows e) :
    Later table (after.edit e)

theorem Later.built (later : table.Later after) (built : Built table) : Built after := by
  induction later with
  | refl => exact built
  | edit _ allowed ih => exact .edit ih allowed

theorem Later.exists_record (later : table.Later after) (h : table.record s = .ok r) :
    ∃ entered shown, after.record s = .ok (r.extend entered shown) := by
  induction later with
  | refl => exact ⟨fun _ ↦ [], [], r.extend_nil.symm ▸ h⟩
  | @edit after e _ _ ih =>
    obtain ⟨entered, shown, hr⟩ := ih
    exact ⟨_, _, (record_edit hr e).trans (congrArg _ (r.extend_extend ..))⟩

theorem Later.agrees (later : table.Later after) (known : table.Knows s) :
    table.toHost.Agrees after.toHost s := by
  obtain ⟨r, hr⟩ := known
  obtain ⟨_, _, hr'⟩ := later.exists_record hr
  exact agrees_of_extend hr hr'

/-- The name of a declared symbol is in all later tables the one that its declaration says last. -/
theorem Later.classId_declared (later : (table.edit e).Later after) (h : table.declared e = some s)
    (room : table.symbols.size < SymbolId.count) :
    after.toHost.classId s = .ok e.className? :=
  (later.agrees (knows_declared h)).classId.trans (SymbolTable.classId_declared h room)

/-- What a later table still answers of a symbol as an earlier one did. -/
structure Continues (table after : SymbolTable) (s : SymbolId) : Prop where
  /-- The same is told of it, its lists apart. -/
  told : table.toHost.Agrees after.toHost s
  declaredMembers : ∃ new,
    Grown new (table.toHost.declaredMembers s) (after.toHost.declaredMembers s)
  staticMembers : ∃ new, Grown new (table.toHost.staticMembers s) (after.toHost.staticMembers s)
  constructors : ∃ new, Grown new (table.toHost.constructors s) (after.toHost.constructors s)
  /-- The callable members stay in their order, and there may be others between them. -/
  callableMembers : ∃ l l', table.toHost.callableMembers s = .ok l ∧
    after.toHost.callableMembers s = .ok l' ∧ l.Sublist l'

/-- **A host may be edited while it is in use.**  After any number of edits that name only what is
known, all that is told of a symbol is as before, and no list of members has lost anything or
changed its order. -/
theorem Built.continues_later (built : Built table) (later : table.Later after)
    (known : table.Knows s) : table.Continues after s := by
  obtain ⟨r, hr⟩ := known
  obtain ⟨entered, shown, hr'⟩ := later.exists_record hr
  have callables := callableMembers_of_extend hr hr' built.knowsMembers
    (later.built built).knowsMembers fun known ↦ later.agrees known
  have before := callableMembers_eq_ok hr built.knowsMembers
  rw [List.filter_append] at before
  refine ⟨later.agrees ⟨r, hr⟩, ⟨_, grown_of_extend hr hr' _ rfl⟩,
    ⟨_, grown_of_extend hr hr' _ rfl⟩, ⟨_, grown_of_extend hr hr' _ rfl⟩,
    _, _, before, callables, ?_⟩
  exact (List.sublist_append_left _ _).append (List.sublist_append_left _ _)

end SymbolTable
end SymbolView
