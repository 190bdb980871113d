import Mathlib.Data.List.Nodup
import SymbolView.Proofs.SymbolTable.Records

/-!
# What the answers of a built table have in common

A table that is built by naming only what is known answers every question about every symbol it
knows, and its answers fit together: `SymbolTable.Coherent` lists how, and `Built.coherent` is the
result.  Which name a symbol has is what its declaration says last (`SymbolTable.classId_declared`).
The walk from a symbol to its container goes to ever smaller numbers, and so comes to an
end.
-/

set_option autoImplicit false

namespace SymbolView

/-- A host that refuses no question about a symbol. -/
structure Host.Answers (host : Host) (s : SymbolId) : Prop where
  symbolKind : ∃ a, host.symbolKind s = .ok a
  symbolName : ∃ a, host.symbolName s = .ok a
  provenance : ∃ a, host.provenance s = .ok a
  source : ∃ a, host.source s = .ok a
  annotations : ∃ a, host.annotations s = .ok a
  containingSymbol : ∃ a, host.containingSymbol s = .ok a
  containingFile : ∃ a, host.containingFile s = .ok a
  declaredMembers : ∃ a, host.declaredMembers s = .ok a
  staticMembers : ∃ a, host.staticMembers s = .ok a
  callableMembers : ∃ a, host.callableMembers s = .ok a
  constructors : ∃ a, host.constructors s = .ok a
  isVisibleIn : ∀ cls, ∃ a, host.isVisibleIn s cls = .ok a
  classId : ∃ a, host.classId s = .ok a
  declaredType : ∃ a, host.declaredType s = .ok a
  visibility : ∃ a, host.visibility s = .ok a
  modality : ∃ a, host.modality s = .ok a
  docComment : ∃ a, host.docComment s = .ok a

/-- All symbols that the record of a symbol names. -/
def SymbolRecord.mentions (r : SymbolRecord) : List SymbolId :=
  r.container.toList ++ r.file.toList ++ r.entries ++ r.inheritedMembers

namespace SymbolTable

variable {table : SymbolTable} {s t m : SymbolId} {r : SymbolRecord}

/-- A table whose answers fit together. -/
structure Coherent (table : SymbolTable) : Prop where
  /-- No question about a symbol that is known is refused. -/
  answers : ∀ {s}, table.Knows s → table.toHost.Answers s
  /-- All symbols that are named in a record are known. -/
  mentions : ∀ {s r m}, table.record s = .ok r → m ∈ r.mentions → table.Knows m
  /-- A container has a smaller number than what it contains. -/
  container : ∀ {s c}, table.toHost.containingSymbol s = .ok (some c) → c.index < s.index
  /-- What is in a list of a class has the class as its container, and a larger number. -/
  entries : ∀ {s r m}, table.record s = .ok r → m ∈ r.entries →
    table.toHost.containingSymbol m = .ok (some s) ∧ s.index < m.index
  /-- No symbol is twice in the lists of all classes together. -/
  nodup : (table.symbols.toList.flatMap SymbolRecord.entries).Nodup
  /-- The file around a symbol has been added as a file, lies in itself, and in nothing else. -/
  file : ∀ {s t}, table.toHost.containingFile s = .ok (some t) →
    (∃ f, table.fileSymbol f = .ok t) ∧ table.toHost.symbolKind t = .ok .file ∧
      table.toHost.containingFile t = .ok (some t) ∧ table.toHost.containingSymbol t = .ok none
  /-- A position lies in a file that is known. -/
  source : ∀ {s p}, table.toHost.source s = .ok (some p) →
    ∃ kind, table.toHost.fileKind p.file = .ok kind
  /-- A name stands for the symbol that was last declared with it.  What is told as the name of a
  symbol is what its declaration says last (`classId_declared`), and a symbol that is declared later
  has a larger number (`index_lt_declare`). -/
  classOf : ∀ {id s}, table.toHost.classOf id = .ok s ↔
    table.toHost.classId s = .ok (some id) ∧
      ∀ t, table.toHost.classId t = .ok (some id) → t.index ≤ s.index

namespace WellFormed

variable (wf : table.WellFormed)

include wf

theorem knows_of_mentions (hr : table.record s = .ok r) (hm : m ∈ r.mentions) :
    table.Knows m := by
  simp only [SymbolRecord.mentions, List.mem_append, Option.mem_toList] at hm
  obtain ((hm | hm) | hm) | hm := hm
  · exact knows_iff.mpr (Nat.lt_trans (wf.container hr hm) (index_lt_size hr))
  · obtain ⟨f, hf⟩ := wf.file hr hm
    exact (wf.fileSymbol hf).imp fun _ h ↦ h.1
  · exact (wf.entries hr hm).imp fun _ h ↦ h.1
  · exact wf.inherited hr hm

theorem answers (known : table.Knows s) : table.toHost.Answers s := by
  obtain ⟨r, hr⟩ := known
  have read {α : Type} (f : SymbolRecord → α) : ∃ a, f <$> table.record s = .ok a :=
    ⟨_, map_eq_ok.mpr ⟨r, hr, rfl⟩⟩
  have callable : ∃ a, table.toHost.callableMembers s = .ok a := by
    have members : ∀ m ∈ r.declaredMembers ++ r.inheritedMembers, table.Knows m := by
      intro m hm
      refine wf.knows_of_mentions hr ?_
      simp only [SymbolRecord.mentions, SymbolRecord.entries, List.mem_append] at hm ⊢
      tauto
    show ∃ a, (table.record s >>= fun r ↦ table.callables _) = .ok a
    rw [hr]
    exact ⟨_, callables_eq_filter members⟩
  exact
    { symbolKind := read _
      symbolName := read _
      provenance := read _
      source := read _
      annotations := read _
      containingSymbol := read _
      containingFile := read _
      declaredMembers := read _
      staticMembers := read _
      callableMembers := callable
      constructors := read _
      isVisibleIn := fun _ ↦ read _
      classId := read _
      declaredType := read _
      visibility := read _
      modality := read _
      docComment := read _ }

theorem nodup_entries (fits : table.symbols.size ≤ SymbolId.count) :
    (table.symbols.toList.flatMap SymbolRecord.entries).Nodup := by
  have stored {i : Nat} (hi : i < table.symbols.toList.length) :
      table.record (.ofIndex i) = .ok table.symbols.toList[i] := by
    rw [Array.length_toList] at hi
    rw [record_eq_ok, SymbolId.index_ofIndex (Nat.lt_of_lt_of_le hi fits)]
    simp [hi]
  refine List.nodup_flatMap.mpr ⟨fun r hr ↦ ?_, List.pairwise_iff_getElem.mpr ?_⟩
  · obtain ⟨i, hi, rfl⟩ := List.getElem_of_mem hr
    exact wf.nodup (stored hi)
  · intro i j hi hj hij m hmi hmj
    obtain ⟨q, hq, hqi⟩ := wf.entries (stored hi) hmi
    obtain ⟨p, hp, hpj⟩ := wf.entries (stored hj) hmj
    cases hq.symm.trans hp
    have same : SymbolId.ofIndex i = .ofIndex j := Option.some_inj.mp (hqi.symm.trans hpj)
    rw [← SymbolId.index_inj, SymbolId.index_ofIndex, SymbolId.index_ofIndex] at same
    · exact Nat.ne_of_lt hij same
    · exact Nat.lt_of_lt_of_le (Array.length_toList ▸ hj) fits
    · exact Nat.lt_of_lt_of_le (Array.length_toList ▸ hi) fits

end WellFormed

/-- The name that is told of a declared symbol is the one that the last statement of its declaration
about a name gives it, and none if no statement is about a name. -/
theorem classId_declared {e : Edit} (h : table.declared e = some s)
    (room : table.symbols.size < SymbolId.count) :
    (table.edit e).toHost.classId s = .ok e.className? := by
  cases e with
  | declare kind name attributes =>
    obtain rfl := Option.some.inj h
    obtain ⟨q, hq, bare⟩ := exists_record_declare kind name attributes room
    have said := congrArg SymbolRecord.classId bare
    rw [className?_eq_draft table kind name attributes]
    exact map_eq_ok.mpr ⟨q, hq, said⟩
  | addFile path text kind => cases h
  | inherit cls member => cases h

/-- The answers of a table fit together if it has been built by naming only what was known, and
has room for its symbols. -/
theorem Built.coherent (built : Built table) (fits : table.symbols.size ≤ SymbolId.count) :
    table.Coherent := by
  have wf := built.wellFormed fits
  constructor
  case answers => exact wf.answers
  case mentions => exact wf.knows_of_mentions
  case container =>
    intro s c h
    obtain ⟨r, hr, hc⟩ := map_eq_ok.mp h
    exact wf.container hr hc
  case entries =>
    intro s r m hr hm
    obtain ⟨q, hq, hs⟩ := wf.entries hr hm
    exact ⟨map_eq_ok.mpr ⟨q, hq, hs⟩, wf.container hq hs⟩
  case nodup => exact wf.nodup_entries fits
  case file =>
    intro s t h
    obtain ⟨r, hr, ht⟩ := map_eq_ok.mp h
    obtain ⟨f, hf⟩ := wf.file hr ht
    obtain ⟨q, hq, kind, file, container⟩ := wf.fileSymbol hf
    exact ⟨⟨f, hf⟩, map_eq_ok.mpr ⟨q, hq, kind⟩, map_eq_ok.mpr ⟨q, hq, file⟩,
      map_eq_ok.mpr ⟨q, hq, container⟩⟩
  case source =>
    intro s p h
    obtain ⟨r, hr, hp⟩ := map_eq_ok.mp h
    obtain ⟨t, ht⟩ := wf.source hr hp
    obtain ⟨file, hfile, -⟩ := map_eq_ok.mp ht
    exact ⟨file.kind, map_eq_ok.mpr ⟨file, hfile, rfl⟩⟩
  case classOf =>
    intro id s
    have classId (t : SymbolId) : table.toHost.classId t = .ok (some id) ↔
        ∃ r, table.record t = .ok r ∧ r.classId = some id := map_eq_ok
    simp only [classOf_eq_ok, wf.index, Latest, classId]
    exact and_congr_right fun _ ↦
      ⟨fun h t ⟨r, hr, named⟩ ↦ h t r hr named, fun h t r hr named ↦ h t ⟨r, hr, named⟩⟩

/-- A table with a file, a class with a member and a constructor, and a second class that takes over
the name of the first and shows its member. -/
def sampleBuild : SymbolTable :=
  let id : ClassId := ⟨["shop"], ["Cart"], false⟩
  [ .addFile "shop/Cart.kt" (some "class Cart") .kotlin,
    .declare .namedClass (some "Cart")
      [.classId id, .positioned ⟨⟨0⟩, 0⟩, .placed .contained ⟨0⟩],
    .declare .property (some "items") [.placed .asStatic ⟨0⟩, .placed .asMember ⟨1⟩],
    .declare .functionLike none [.placed .asConstructor ⟨1⟩],
    .declare .namedClass (some "Cart") [.classId id],
    .inherit ⟨4⟩ ⟨2⟩ ].foldl edit empty

theorem built_sampleBuild : Built sampleBuild := by
  dsimp only [sampleBuild, List.foldl_cons, List.foldl_nil]
  refine .edit (.edit (.edit (.edit (.edit (.edit .empty ?_) ?_) ?_) ?_) ?_) ?_ <;> decide

theorem coherent_sampleBuild : Built sampleBuild ∧ sampleBuild.symbols.size ≤ SymbolId.count ∧
    sampleBuild.Coherent := by
  have fits : sampleBuild.symbols.size ≤ SymbolId.count := by decide
  exact ⟨built_sampleBuild, fits, built_sampleBuild.coherent fits⟩

end SymbolTable
end SymbolView
