import SymbolView.Proofs.Session.Listing
import SymbolView.Proofs.SymbolTable.Coherence

/-!
# What the properties and functions of a class are

The callable members of a class that a host names may be visible in the class or not, and of any
kind.  `Host.Offers` says of one symbol whether it is listed, in terms of what the host answers;
the properties and the functions of a class are the symbols that are offered, each once where the
host names it first (`Session.ask_callables`).

On a table that is built by naming only what is known this comes to the following: what is declared
in the class is listed, however private it is, since it has the class as its container
(`SymbolTable.WellFormed.offers_of_mem_entries`), and what is private or local to another symbol is
not (`SymbolTable.not_offers_of_isHidden`).
-/

set_option autoImplicit false

namespace SymbolView

open SessionM

/-! ## What is offered -/

section Offers

variable {host : Host} {kinds : List SymbolKind} {wanted : SymbolKind → Bool} {cls s : SymbolId}
  {candidates : List SymbolId}

/-- Whether a host says that a symbol is of one of some kinds, and that it is visible in a class or
lies directly in it. -/
structure Host.Offers (host : Host) (kinds : List SymbolKind) (cls s : SymbolId) : Prop where
  accessible : host.isVisibleIn s cls = .ok true ∨ host.containingSymbol s = .ok (some cls)
  kind : ∃ kind ∈ kinds, host.symbolKind s = .ok kind

namespace Session

theorem isAccessible_eq_ok (answers : host.Answers s) (cls : SymbolId) :
    ∃ b, isAccessible host cls s = .ok b ∧ (b = true ↔
      host.isVisibleIn s cls = .ok true ∨ host.containingSymbol s = .ok (some cls)) := by
  obtain ⟨visible, hvisible⟩ := answers.isVisibleIn cls
  obtain ⟨container, hcontainer⟩ := answers.containingSymbol
  rw [isAccessible, hvisible, hcontainer]
  cases visible with
  | true => exact ⟨true, rfl, by simp⟩
  | false => exact ⟨container == some cls, rfl, by simp⟩

/-- **One symbol is looked at at a time**, and what is offered is wanted. -/
theorem isWanted_eq_ok (answers : host.Answers s) (hk : ∀ kind, wanted kind = true ↔ kind ∈ kinds)
    (cls : SymbolId) :
    ∃ b, isWanted host wanted cls s = .ok b ∧ (b = true ↔ host.Offers kinds cls s) := by
  obtain ⟨accessible, haccessible, iff⟩ := isAccessible_eq_ok answers cls
  obtain ⟨kind, hkind⟩ := answers.symbolKind
  rw [isWanted, haccessible]
  cases accessible with
  | false => exact ⟨false, rfl, by simpa using fun offers ↦ iff.mpr offers.accessible⟩
  | true =>
    refine ⟨wanted kind, by rw [hkind]; rfl,
      (hk kind).trans ⟨fun h ↦ ⟨iff.mp rfl, kind, h, hkind⟩, ?_⟩⟩
    rintro ⟨-, other, h, hother⟩
    cases hkind.symm.trans hother
    exact h

/-- The candidates that are wanted are selected, in order. -/
theorem selectWanted_eq_filter (h : ∀ s ∈ candidates, ∃ b, isWanted host wanted cls s = .ok b) :
    selectWanted host wanted cls candidates =
      .ok (candidates.filter fun s ↦ isWanted host wanted cls s = .ok true) := by
  induction candidates with
  | nil => rfl
  | cons s rest ih =>
    obtain ⟨b, hb⟩ := h s List.mem_cons_self
    rw [selectWanted, hb, ih fun t ht ↦ h t (List.mem_cons_of_mem s ht)]
    cases b with
    | true =>
      rw [List.filter_cons_of_pos (by simp [hb])]
      rfl
    | false =>
      rw [List.filter_cons_of_neg (by simp [hb])]
      rfl

/-- **What is selected is what is offered.** -/
theorem selectWanted_eq_ok (answers : ∀ s ∈ candidates, host.Answers s)
    (hk : ∀ kind, wanted kind = true ↔ kind ∈ kinds) (cls : SymbolId) :
    ∃ selected, selectWanted host wanted cls candidates = .ok selected ∧
      FirstOccurrences (host.Offers kinds cls) candidates selected.eraseDups := by
  have told (s : SymbolId) (hs : s ∈ candidates) := isWanted_eq_ok (answers s hs) hk cls
  refine ⟨_, selectWanted_eq_filter fun s hs ↦ (told s hs).imp fun _ ↦ And.left,
    firstOccurrences_eraseDups_filter fun s hs ↦ ?_⟩
  obtain ⟨b, hb, iff⟩ := told s hs
  rw [hb, decide_eq_true_eq, Except.ok.injEq]
  exact iff

end Session
end Offers

/-! ## What is listed -/

/-- Whether lists of properties and functions of a class are what a host offers among the callable
members and constructors that it names. -/
structure Host.Lists (host : Host) (cls : SymbolId) (callables constructors ps fs : List SymbolId) :
    Prop where
  properties : FirstOccurrences (host.Offers [.property, .javaField] cls) callables ps
  functions : FirstOccurrences (host.Offers [.functionLike] cls) (callables ++ constructors) fs
  /-- Neither list has repetitions, and they have nothing in common. -/
  nodup : (ps ++ fs).Nodup

namespace Session

variable {host : Host} {kinds : List SymbolKind} {wanted : SymbolKind → Bool} {S : Session}
  {d : Declaration} {s : SymbolId} {callables constructors candidates : List SymbolId}

theorem canAdapt_of_answers (answers : host.Answers s) : S.CanAdapt host s := by
  obtain ⟨kind, hkind⟩ := answers.symbolKind
  obtain ⟨name, hname⟩ := answers.symbolName
  exact .inr ⟨(kind, name), by rw [Host.kindAndName, hkind, hname]; rfl⟩

/-- The adapters of what is offered are handed out. -/
theorem run_accessible (S : Session) (d : Declaration) (answers : ∀ s ∈ candidates, host.Answers s)
    (hk : ∀ kind, wanted kind = true ↔ kind ∈ kinds) :
    ∃ ds T, (accessible host wanted d candidates).run.run S = (.ok ds, T) ∧
      FirstOccurrences (host.Offers kinds d.symbol) candidates (ds.map (·.symbol)) := by
  obtain ⟨selected, hselected, offered⟩ := selectWanted_eq_ok answers hk d.symbol
  have adaptable : ∀ s ∈ selected.eraseDups, S.CanAdapt host s := fun s hs ↦
    canAdapt_of_answers (answers s ((offered.mem_iff s).mp hs).1)
  obtain ⟨ds, T, hrun, symbols, -⟩ := run_adaptersFor offered.nodup adaptable
  refine ⟨ds, T, ?_, symbols ▸ offered⟩
  rw [accessible, hselected]
  exact hrun

theorem isProperty_iff (kind : SymbolKind) :
    isProperty kind = true ↔ kind ∈ [SymbolKind.property, .javaField] := by
  cases kind <;> decide

theorem isFunction_iff (kind : SymbolKind) :
    isFunction kind = true ↔ kind ∈ [SymbolKind.functionLike] := by
  cases kind <;> decide

/-- Behind the two checks a question about a class is answered. -/
theorem run_checks {α : Type} (own : d.session = S.id) (classLike : d.kind.hasMembers = true)
    (m : SessionM α) :
    (check d >>= fun _ ↦ requireMembers host d >>= fun _ ↦ m).run.run S = m.run.run S := by
  rw [run_bind, run_check_of_own own]
  simp only [run_bind, requireMembers, if_pos classLike]
  rfl

/-- A question for the properties is answered with the callable members that are offered as
properties. -/
theorem ask_properties (own : d.session = S.id) (classLike : d.kind.hasMembers = true)
    (hcallables : host.callableMembers d.symbol = .ok callables)
    (answers : ∀ s ∈ callables, host.Answers s) :
    ∃ ds, (S.ask host (.properties d)).1 = .ok (.declarations ds) ∧
      FirstOccurrences (host.Offers [.property, .javaField] d.symbol) callables
        (ds.map (·.symbol)) := by
  obtain ⟨ds, T, hrun, offered⟩ := run_accessible S d answers isProperty_iff
  refine ⟨ds, ?_, offered⟩
  rw [ask, Query.run, run_map, properties, run_checks own classLike, hcallables]
  exact congrArg (fun x ↦ Answer.declarations <$> x.1) hrun

/-- A question for the functions is answered with the callable members and the constructors that are
offered as functions. -/
theorem ask_functions (own : d.session = S.id) (classLike : d.kind.hasMembers = true)
    (hcallables : host.callableMembers d.symbol = .ok callables)
    (hconstructors : host.constructors d.symbol = .ok constructors)
    (answers : ∀ s ∈ callables ++ constructors, host.Answers s) :
    ∃ ds, (S.ask host (.functions d)).1 = .ok (.declarations ds) ∧
      FirstOccurrences (host.Offers [.functionLike] d.symbol) (callables ++ constructors)
        (ds.map (·.symbol)) := by
  obtain ⟨ds, T, hrun, offered⟩ := run_accessible S d answers isFunction_iff
  refine ⟨ds, ?_, offered⟩
  rw [ask, Query.run, run_map, functions, run_checks own classLike, hcallables, hconstructors]
  exact congrArg (fun x ↦ Answer.declarations <$> x.1) hrun

/-- Nothing is a property and a function. -/
theorem nodup_append_of_offers {cls : SymbolId} {l l' ps fs : List SymbolId}
    (h : FirstOccurrences (host.Offers [.property, .javaField] cls) l ps)
    (h' : FirstOccurrences (host.Offers [.functionLike] cls) l' fs) : (ps ++ fs).Nodup := by
  refine List.nodup_append'.mpr ⟨h.nodup, h'.nodup, fun s hs hs' ↦ ?_⟩
  obtain ⟨kind, hkind, told⟩ := ((h.mem_iff s).mp hs).2.kind
  obtain ⟨kind', hkind', told'⟩ := ((h'.mem_iff s).mp hs').2.kind
  obtain rfl := Except.ok.inj (told.symm.trans told')
  obtain rfl := List.mem_singleton.mp hkind'
  exact absurd hkind (by decide)

/-- The lists are the answers of a session to the two questions. -/
theorem ask_lists (own : d.session = S.id) (classLike : d.kind.hasMembers = true)
    (hcallables : host.callableMembers d.symbol = .ok callables)
    (hconstructors : host.constructors d.symbol = .ok constructors)
    (answers : ∀ s ∈ callables ++ constructors, host.Answers s) :
    ∃ ps fs, (S.ask host (.properties d)).1 = .ok (.declarations ps) ∧
      (S.ask host (.functions d)).1 = .ok (.declarations fs) ∧
      host.Lists d.symbol callables constructors (ps.map (·.symbol)) (fs.map (·.symbol)) := by
  obtain ⟨ps, hps, properties⟩ := ask_properties own classLike hcallables fun s hs ↦
    answers s (List.mem_append_left _ hs)
  obtain ⟨fs, hfs, functions⟩ := ask_functions own classLike hcallables hconstructors answers
  exact ⟨ps, fs, hps, hfs, properties, functions, nodup_append_of_offers properties functions⟩

end Session

/-! ## Tables -/

namespace SymbolTable

variable {table : SymbolTable} {kinds : List SymbolKind} {kind : SymbolKind} {v : Visibility}
  {cls s m : SymbolId} {r : SymbolRecord}
  {symbols callable callables constructors ps fs : List SymbolId}

/-- The callable ones among some symbols are those of such a kind. -/
theorem mem_callables (h : table.callables symbols = .ok callable) : s ∈ callable ↔
    s ∈ symbols ∧ ∃ r, table.record s = .ok r ∧ isCallableMember r.kind = true := by
  induction symbols generalizing callable with
  | nil =>
    cases h
    simp
  | cons t rest ih =>
    rw [callables] at h
    obtain ⟨q, hq, h⟩ := bind_eq_ok.mp h
    obtain ⟨others, hothers, h⟩ := bind_eq_ok.mp h
    obtain rfl := Except.ok.inj h
    split
    next isCallable =>
      rw [List.mem_cons, List.mem_cons, ih hothers, or_and_right]
      refine or_congr_left (and_iff_left_of_imp ?_).symm
      rintro rfl
      exact ⟨q, hq, isCallable⟩
    next notCallable =>
      rw [List.mem_cons, ih hothers, or_and_right]
      refine (or_iff_right ?_).symm
      rintro ⟨rfl, r, hr, isCallable⟩
      cases hq.symm.trans hr
      exact notCallable isCallable

/-- The callable members of a class are the callable ones that are declared or inherited. -/
theorem mem_callableMembers (hr : table.record cls = .ok r)
    (h : table.toHost.callableMembers cls = .ok callable) : m ∈ callable ↔
      m ∈ r.declaredMembers ++ r.inheritedMembers ∧
        ∃ q, table.record m = .ok q ∧ isCallableMember q.kind = true := by
  have h : (table.record cls >>= fun r ↦ table.callables _) = .ok callable := h
  rw [hr] at h
  exact mem_callables h

/-- **What is entered in a class is offered**, however private it is: it lies directly in the
class. -/
theorem WellFormed.offers_of_mem_entries (wf : table.WellFormed) (hr : table.record cls = .ok r)
    (hm : m ∈ r.entries) (hkind : table.toHost.symbolKind m = .ok kind) (hkinds : kind ∈ kinds) :
    table.toHost.Offers kinds cls m := by
  obtain ⟨q, hq, container⟩ := wf.entries hr hm
  exact ⟨.inr (map_eq_ok.mpr ⟨q, hq, container⟩), kind, hkinds, hkind⟩

/-- **What is private or local to another symbol is not offered.** -/
theorem not_offers_of_hidden (hv : table.toHost.visibility m = .ok v)
    (hidden : v = .privateAccess ∨ v = .localAccess)
    (outside : table.toHost.containingSymbol m ≠ .ok (some cls)) :
    ¬ table.toHost.Offers kinds cls m := by
  obtain ⟨q, hq, rfl⟩ := map_eq_ok.mp hv
  rintro ⟨visible | inside, -⟩
  · obtain ⟨q', hq', visible⟩ := map_eq_ok.mp visible
    cases hq.symm.trans hq'
    have inside : q.container = some cls := by
      rcases hidden with hidden | hidden <;> simpa [isVisibleIn, hidden] using visible
    exact outside (map_eq_ok.mpr ⟨q, hq, inside⟩)
  · exact outside inside

/-- Whether lists of properties and functions of a class have all that is declared in it and nothing
that is hidden from it. -/
structure ListsOwn (table : SymbolTable) (cls : SymbolId) (ps fs : List SymbolId) : Prop where
  /-- A declared property, field or function is listed. -/
  declared : ∀ {l m kind}, table.toHost.declaredMembers cls = .ok l → m ∈ l →
    table.toHost.symbolKind m = .ok kind →
      (kind = .property ∨ kind = .javaField → m ∈ ps) ∧ (kind = .functionLike → m ∈ fs)
  /-- So is a constructor. -/
  constructors : ∀ {l m}, table.toHost.constructors cls = .ok l → m ∈ l →
    table.toHost.symbolKind m = .ok .functionLike → m ∈ fs
  /-- What is private or local and does not lie in the class itself is not. -/
  hidden : ∀ {m v}, table.toHost.visibility m = .ok v → v = .privateAccess ∨ v = .localAccess →
    table.toHost.containingSymbol m ≠ .ok (some cls) → m ∉ ps ∧ m ∉ fs

/-- What a table offers is all that is declared in a class and nothing that is hidden from it. -/
theorem WellFormed.listsOwn (wf : table.WellFormed) (hr : table.record cls = .ok r)
    (hcallables : table.toHost.callableMembers cls = .ok callables)
    (hconstructors : table.toHost.constructors cls = .ok constructors)
    (lists : table.toHost.Lists cls callables constructors ps fs) : table.ListsOwn cls ps fs := by
  constructor
  case declared =>
    intro l m kind hl hm hkind
    obtain ⟨q, hq, rfl⟩ := map_eq_ok.mp hl
    cases hr.symm.trans hq
    obtain ⟨p, hp, rfl⟩ := map_eq_ok.mp hkind
    have entered : m ∈ r.entries := List.mem_append_left _ (List.mem_append_left _ hm)
    have callable (h : isCallableMember p.kind = true) : m ∈ callables :=
      (mem_callableMembers hr hcallables).mpr ⟨List.mem_append_left _ hm, p, hp, h⟩
    constructor
    · intro isProperty
      have hkinds : p.kind ∈ [.property, .javaField] := List.mem_pair.mpr isProperty
      refine (lists.properties.mem_iff m).mpr
        ⟨callable ?_, wf.offers_of_mem_entries hr entered hkind hkinds⟩
      rcases isProperty with h | h <;> rw [h] <;> rfl
    · intro isFunction
      have hkinds : p.kind ∈ [.functionLike] := List.mem_singleton.mpr isFunction
      refine (lists.functions.mem_iff m).mpr
        ⟨List.mem_append_left _ (callable ?_), wf.offers_of_mem_entries hr entered hkind hkinds⟩
      rw [isFunction]
      rfl
  case constructors =>
    intro l m hl hm hkind
    cases hconstructors.symm.trans hl
    obtain ⟨q, hq, rfl⟩ := map_eq_ok.mp hl
    cases hr.symm.trans hq
    have entered : m ∈ r.entries := List.mem_append_right _ hm
    exact (lists.functions.mem_iff m).mpr ⟨List.mem_append_right _ hm,
      wf.offers_of_mem_entries hr entered hkind List.mem_cons_self⟩
  case hidden =>
    intro m v hv hidden outside
    exact ⟨fun hm ↦ not_offers_of_hidden hv hidden outside ((lists.properties.mem_iff m).mp hm).2,
      fun hm ↦ not_offers_of_hidden hv hidden outside ((lists.functions.mem_iff m).mp hm).2⟩

/-- A well-formed table answers all questions about what it names for a class. -/
theorem WellFormed.answers_callables (wf : table.WellFormed) (hr : table.record cls = .ok r)
    (hcallables : table.toHost.callableMembers cls = .ok callables)
    (hconstructors : table.toHost.constructors cls = .ok constructors) :
    ∀ s ∈ callables ++ constructors, table.toHost.Answers s := by
  intro s hs
  refine wf.answers ?_
  rcases List.mem_append.mp hs with hs | hs
  · obtain ⟨-, q, hq, -⟩ := (mem_callableMembers hr hcallables).mp hs
    exact ⟨q, hq⟩
  · obtain ⟨q, hq, rfl⟩ := map_eq_ok.mp hconstructors
    exact (wf.entries hq (List.mem_append_right _ hs)).imp fun _ ↦ And.left

end SymbolTable

/-! ## The questions -/

namespace Session

/-- **The enumeration of callable members is exact.**  Take a class and a session, whatever it has
been asked before.

* On a host that answers for the callable members and the constructors that it names, the properties
  are the callable members that it offers as properties or fields, the functions are those callable
  members and constructors that it offers as functions, each once where the host names it first.
* On a table that has been built by naming only what was known and has room for its symbols, all
  that is declared in the class is listed, however private it is, and nothing that is private or
  local to another symbol. -/
theorem ask_callables {S : Session} {d : Declaration} (own : d.session = S.id)
    (classLike : d.kind.hasMembers = true) :
    (∀ host callables constructors, host.callableMembers d.symbol = .ok callables →
      host.constructors d.symbol = .ok constructors →
      (∀ s ∈ callables ++ constructors, host.Answers s) →
      ∃ ps fs, (S.ask host (.properties d)).1 = .ok (.declarations ps) ∧
        (S.ask host (.functions d)).1 = .ok (.declarations fs) ∧
        host.Lists d.symbol callables constructors (ps.map (·.symbol)) (fs.map (·.symbol))) ∧
    ∀ table, SymbolTable.Built table → table.symbols.size ≤ SymbolId.count →
      table.Knows d.symbol →
      ∃ ps fs, (S.ask table.toHost (.properties d)).1 = .ok (.declarations ps) ∧
        (S.ask table.toHost (.functions d)).1 = .ok (.declarations fs) ∧
        table.ListsOwn d.symbol (ps.map (·.symbol)) (fs.map (·.symbol)) := by
  refine ⟨fun host callables constructors ↦ ask_lists own classLike, ?_⟩
  rintro table built fits ⟨r, hr⟩
  have wf := built.wellFormed fits
  obtain ⟨callables, hcallables⟩ := (wf.answers ⟨r, hr⟩).callableMembers
  obtain ⟨constructors, hconstructors⟩ := (wf.answers ⟨r, hr⟩).constructors
  obtain ⟨ps, fs, hps, hfs, lists⟩ := ask_lists (S := S) own classLike hcallables hconstructors
    (wf.answers_callables hr hcallables hconstructors)
  exact ⟨ps, fs, hps, hfs, wf.listsOwn hr hcallables hconstructors lists⟩

/-- A class with a private property, a function and a private constructor of its own.  It inherits a
private property and a field from another class, and names its own property once more. -/
def sampleCallables : SymbolTable :=
  [ .addFile "shop/Cart.kt" none .kotlin,
    .declare .namedClass (some "Base") [],
    .declare .namedClass (some "Cart") [],
    .declare .property (some "size") [.visibility .privateAccess, .placed .asMember ⟨2⟩],
    .declare .functionLike (some "fill") [.placed .asMember ⟨2⟩],
    .declare .functionLike none [.visibility .privateAccess, .placed .asConstructor ⟨2⟩],
    .declare .property (some "secret") [.visibility .privateAccess, .placed .asMember ⟨1⟩],
    .declare .javaField (some "LIMIT") [.placed .asMember ⟨1⟩],
    .inherit ⟨2⟩ ⟨6⟩, .inherit ⟨2⟩ ⟨7⟩, .inherit ⟨2⟩ ⟨3⟩ ].foldl SymbolTable.edit .empty

theorem built_sampleCallables : SymbolTable.Built sampleCallables := by
  dsimp only [sampleCallables, List.foldl_cons, List.foldl_nil]
  iterate 11 refine .edit ?_ (by decide)
  exact .empty

/-- The private property and the private constructor are listed, the property that is private to the
other class is not. -/
theorem ask_callables_sample :
    let host := sampleCallables.toHost
    let S := (start ⟨0⟩ {}).after host [.adapter ⟨2⟩]
    let cart : Declaration := ⟨⟨2⟩, .cls, some "Cart", ⟨0⟩, 0⟩
    (∃ ps fs, (S.ask host (.properties cart)).1 = .ok (.declarations ps) ∧
      (S.ask host (.functions cart)).1 = .ok (.declarations fs) ∧
      host.Lists ⟨2⟩ [⟨3⟩, ⟨4⟩, ⟨6⟩, ⟨7⟩, ⟨3⟩] [⟨5⟩] (ps.map (·.symbol)) (fs.map (·.symbol))) ∧
    ∃ ps fs, (S.ask host (.properties cart)).1 = .ok (.declarations ps) ∧
      (S.ask host (.functions cart)).1 = .ok (.declarations fs) ∧
      ⟨3⟩ ∈ ps.map (·.symbol) ∧ ⟨6⟩ ∉ ps.map (·.symbol) ∧ ⟨5⟩ ∈ fs.map (·.symbol) := by
  intro host S cart
  have fits : sampleCallables.symbols.size ≤ SymbolId.count := by decide
  have known : ∀ s ∈ [⟨3⟩, ⟨4⟩, ⟨6⟩, ⟨7⟩, ⟨3⟩] ++ [⟨5⟩], sampleCallables.Knows s := by decide
  obtain ⟨onHost, onTable⟩ := ask_callables (S := S) (d := cart) rfl rfl
  constructor
  · exact onHost host _ _ rfl rfl fun s hs ↦
      (built_sampleCallables.wellFormed fits).answers (known s hs)
  · obtain ⟨ps, fs, hps, hfs, own⟩ := onTable sampleCallables built_sampleCallables fits (by decide)
    exact ⟨ps, fs, hps, hfs, (own.declared rfl List.mem_cons_self rfl).1 (.inl rfl),
      (own.hidden rfl (.inl rfl) (by decide)).1, own.constructors rfl List.mem_cons_self rfl⟩

end Session
end SymbolView
