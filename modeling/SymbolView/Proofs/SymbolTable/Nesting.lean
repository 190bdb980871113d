import SymbolView.Proofs.Session.Lineage
import SymbolView.Proofs.Snapshot.Portrait
import SymbolView.Proofs.SymbolTable.Records

/-!
# Every way up a table ends

A climb follows the links of a host without looking where it has been.  On a table it comes to an
end as soon as one thing is seen to when the table is built: that symbols are placed in containers
that are known already (`SymbolTable.Nested`).  Nothing else that an edit names has to be known.

A container then has a smaller number than what it contains, and the file that is looked up at the
outermost container is at the top: it lies in itself and has no container.  These two facts are
`Rooted`, they are kept by every such edit, and they give the way up from each symbol that is known
(`Rooted.exists_lineage`).  There may be more symbols than there are numbers; those beyond the last
number are never met.
-/

set_option autoImplicit false

namespace SymbolView
namespace SymbolTable

variable {table : SymbolTable} {e : Edit} {s t c : SymbolId} {f : FileId} {r q : SymbolRecord}

/-! ## Tables with known containers -/

/-- Whether a statement about a symbol that places it names a container that a table knows. -/
def Encloses (table : SymbolTable) : Attribute → Prop
  | .placed _ container => table.Knows container
  | _ => True

/-- Whether an edit places symbols only in what a table knows. -/
def Nests (table : SymbolTable) : Edit → Prop
  | .declare _ _ attributes => ∀ a ∈ attributes, table.Encloses a
  | _ => True

instance : (a : Attribute) → Decidable (table.Encloses a)
  | .placed _ container => inferInstanceAs (Decidable (table.Knows container))
  | .provenance _ | .positioned _ | .annotated _ | .classId _ | .declaredType _ | .visibility _
  | .modality _ | .docComment _ => isTrue trivial

instance : (e : Edit) → Decidable (table.Nests e)
  | .declare _ _ attributes => inferInstanceAs (Decidable (∀ a ∈ attributes, table.Encloses a))
  | .addFile .. | .inherit .. => isTrue trivial

/-- The tables that are built from the empty one by edits that place symbols only in what is known;
the files, classes and members that the edits name may be unknown. -/
inductive Nested : SymbolTable → Prop
  | empty : Nested .empty
  | edit {table : SymbolTable} {e : Edit} (nested : Nested table) (nests : table.Nests e) :
    Nested (table.edit e)

theorem Built.nested (built : Built table) : Nested table := by
  induction built with
  | empty => exact .empty
  | @edit table e _ allowed nested =>
    refine .edit nested ?_
    cases e with
    | declare kind name attributes =>
      intro a ha
      have admits := allowed a ha
      cases a with
      | placed placement container => exact admits
      | _ => trivial
    | _ => trivial

/-! ## They are rooted -/

/-- Whether a symbol lies in itself as a file and in nothing else. -/
def IsTop (table : SymbolTable) (t : SymbolId) : Prop :=
  ∃ q, table.record t = .ok q ∧ q.container = none ∧ q.file = some t

/-- What makes every way up end. -/
structure Rooted (table : SymbolTable) : Prop where
  /-- A container is older than what it contains. -/
  container : ∀ {s r c}, table.record s = .ok r → r.container = some c → c.index < s.index
  /-- The file that a symbol lies in is at the top. -/
  file : ∀ {s r t}, table.record s = .ok r → r.file = some t → table.IsTop t
  /-- So is the symbol of every file, as long as the numbers have not started again. -/
  fileSymbol : table.symbols.size ≤ SymbolId.count →
    ∀ {f t}, table.fileSymbol f = .ok t → table.IsTop t

theorem rooted_empty : Rooted .empty where
  container h := nomatch h
  file h := nomatch h
  fileSymbol _ _ _ h := nomatch h

theorem IsTop.edit (h : table.IsTop t) (e : Edit) : (table.edit e).IsTop t := by
  obtain ⟨r, hr, container, file⟩ := h
  obtain ⟨q, hq, bare⟩ := exists_record_edit hr e
  exact ⟨q, hq, (congrArg SymbolRecord.container bare).trans container,
    (congrArg SymbolRecord.file bare).trans file⟩

/-- The container of a symbol that is added is known. -/
theorem knows_of_added (nests : table.Nests e) (hr : table.added e = some r)
    (hc : r.container = some c) : table.Knows c := by
  cases e with
  | addFile path text kind =>
    cases hr
    cases hc
  | declare kind name attributes =>
    cases hr
    obtain ⟨placement, ha⟩ := container_draft hc
    exact nests _ ha
  | inherit cls member => cases hr

/-- The file of a symbol that is declared was at the top before. -/
theorem Rooted.file_of_recordOf (rooted : table.Rooted)
    (room : table.symbols.size < SymbolId.count) {kind : SymbolKind} {name : Option String}
    {attributes : List Attribute} (ht : (table.recordOf kind name attributes).file = some t) :
    table.IsTop t := by
  obtain own | ⟨-, inherited⟩ := Option.or_eq_some_iff.mp ht
  · rw [file_draft] at own
    obtain ⟨p, -, own⟩ := Option.bind_eq_some_iff.mp own
    exact rooted.fileSymbol (Nat.le_of_lt room) (toOption_eq_some.mp own)
  · obtain ⟨c, -, inherited⟩ := Option.bind_eq_some_iff.mp inherited
    obtain ⟨q, hq, file⟩ := Option.bind_eq_some_iff.mp inherited
    exact rooted.file (toOption_eq_some.mp hq) file

/-- The file of a symbol that is added is the symbol itself, or it was at the top before. -/
theorem Rooted.file_of_added (rooted : table.Rooted) (room : table.symbols.size < SymbolId.count)
    (hr : table.added e = some r) (ht : r.file = some t) :
    table.IsTop t ∨ t = .ofIndex table.symbols.size ∧ r.container = none := by
  cases e with
  | addFile path text kind =>
    cases hr
    cases ht
    exact .inr ⟨rfl, rfl⟩
  | declare kind name attributes =>
    cases hr
    exact .inl (rooted.file_of_recordOf room ht)
  | inherit cls member => cases hr

theorem Rooted.edit (rooted : table.Rooted) (nests : table.Nests e) : (table.edit e).Rooted where
  container {s q c} hq hc := by
    obtain ⟨r, hr, bare⟩ | ⟨new, r, hr, bare⟩ := record_edit_cases hq
    · exact rooted.container hr ((congrArg SymbolRecord.container bare).symm.trans hc)
    · rw [new]
      exact knows_iff.mp
        (knows_of_added nests hr ((congrArg SymbolRecord.container bare).symm.trans hc))
  file {s q t} hq ht := by
    obtain ⟨r, hr, bare⟩ | ⟨new, r, hr, bare⟩ := record_edit_cases hq
    · exact (rooted.file hr ((congrArg SymbolRecord.file bare).symm.trans ht)).edit e
    · obtain ⟨room, rfl⟩ := eq_ofIndex_size new
      have ht' : r.file = some t := (congrArg SymbolRecord.file bare).symm.trans ht
      obtain top | ⟨rfl, container⟩ := rooted.file_of_added room hr ht'
      · exact top.edit e
      · -- the symbol is a file that is being added
        exact ⟨q, hq, (congrArg SymbolRecord.container bare).trans container, ht⟩
  fileSymbol fits {f t} h := by
    obtain old | ⟨-, rfl, path, text, kind, rfl⟩ := fileSymbol_edit_cases h
    · exact (rooted.fileSymbol (Nat.le_trans (size_le_edit _) fits) old).edit _
    · have room : table.symbols.size < SymbolId.count :=
        Nat.le_trans (Nat.le_of_eq (size_addFile path text kind).symm) fits
      refine ⟨table.recordOfFile path, ?_, rfl, rfl⟩
      exact (record_push table (table.recordOfFile path) _).trans
        (if_pos (SymbolId.index_ofIndex room))

/-- A table whose symbols are placed in what is known is rooted. -/
theorem Nested.rooted (nested : Nested table) : table.Rooted := by
  induction nested with
  | empty => exact rooted_empty
  | edit _ nests ih => exact ih.edit nests

/-! ## The ways up -/

/-- The parent of a symbol is its container, or its file unless it is the file itself. -/
theorem parentOf_toHost (hr : table.record s = .ok r) :
    table.toHost.parentOf s = .ok (r.container.or (r.file.filter (· ≠ s))) := by
  have container : table.toHost.containingSymbol s = .ok r.container := map_eq_ok.mpr ⟨r, hr, rfl⟩
  have file : table.toHost.containingFile s = .ok r.file := map_eq_ok.mpr ⟨r, hr, rfl⟩
  rw [Host.parentOf, container, file]
  cases r.container <;> rfl

theorem parentFace_toHost_none (hr : table.record s = .ok r)
    (h : r.container.or (r.file.filter (· ≠ s)) = none) : table.toHost.parentFace s = .ok none := by
  rw [Host.parentFace, parentOf_toHost hr, h]
  rfl

theorem parentFace_toHost_some (hr : table.record s = .ok r)
    (h : r.container.or (r.file.filter (· ≠ s)) = some t) (hq : table.record t = .ok q) :
    table.toHost.parentFace s = .ok (some (t, .ofSymbol q.kind, q.name)) := by
  rw [Host.parentFace, parentOf_toHost hr, h]
  show some <$> table.toHost.faceOf t = _
  rw [faceOf_toHost hq]
  rfl

/-- What is at the top has no parent. -/
theorem IsTop.lineage (h : table.IsTop t) : table.toHost.Lineage t [] := by
  obtain ⟨q, hq, container, file⟩ := h
  refine .top (parentFace_toHost_none hq ?_)
  rw [container, file]
  simp

/-- **Every way up a rooted table ends**: it goes to ever smaller numbers and at last, if at all, to
a file, which is at the top. -/
theorem Rooted.exists_lineage (rooted : table.Rooted) {s : SymbolId} {r : SymbolRecord}
    (hr : table.record s = .ok r) : ∃ line, table.toHost.Lineage s line := by
  cases hc : r.container with
  | some c =>
    have older : c.index < s.index := rooted.container hr hc
    obtain ⟨q, hq⟩ := knows_iff.mpr (Nat.lt_trans older (index_lt_size hr))
    obtain ⟨line, above⟩ := rooted.exists_lineage hq
    exact ⟨_, .next (parentFace_toHost_some hr (by rw [hc]; rfl) hq) above⟩
  | none =>
    cases ht : r.file.filter (· ≠ s) with
    | none => exact ⟨[], .top (parentFace_toHost_none hr (by rw [hc, ht]; rfl))⟩
    | some t =>
      have top : table.IsTop t := rooted.file hr (Option.filter_eq_some_iff.mp ht).1
      obtain ⟨q, hq, -⟩ := id top
      exact ⟨_, .next (parentFace_toHost_some hr (by rw [hc, ht]; rfl) hq) top.lineage⟩
termination_by s.index

open Session in
/-- **Upward walks end and find the nearest match.**  On a table whose symbols are placed in what is
known, whatever else it has been told, a session that is asked for the parent of a declaration, the
parent of that, and so on, comes to an end; what it hands out shows the way up that the host tells.
The question for the nearest declaration of a category around it is answered with the first of that
category on the way, or with none if there is none; and the climb for annotations collects the
declaration and then the beginning of the way up. -/
theorem Nested.ask_ancestorOf (nested : Nested table) (id : SessionId) (config : SessionConfig)
    (history : List Query) {d : Declaration}
    (hd : d ∈ ((start id config).after table.toHost history).declarations)
    (category : DeclarationCategory) :
    ∃ line, Ascends table.toHost ((start id config).after table.toHost history) d line ∧
      table.toHost.Lineage d.symbol (line.map Declaration.face) ∧
      (((start id config).after table.toHost history).ask table.toHost (.ancestorOf category d)).1 =
        .ok (.declaration? (line.find? fun p ↦ p.kind.category = category)) ∧
      ((owners table.toHost d).run.run ((start id config).after table.toHost history)).1 =
        .ok (d :: ownersAmong d line) ∧
      ownersAmong d line <+: line := by
  have hS := steady_after id config table.toHost history
  obtain ⟨r, hr⟩ := knows_of_shows (hS.agrees.shows d hd)
  obtain ⟨faces, lineage⟩ := nested.rooted.exists_lineage hr
  obtain ⟨line, ascends, rfl⟩ := hS.exists_ascends hd lineage
  have enough := lineage.length_lt_count
  exact ⟨line, ascends, lineage, ascends.ask_climb category enough,
    ascends.run_owners hS.wellFormed hd enough, ownersAmong_prefix d line⟩

/-- The parameter of the setter of a property of a class in a file.  The setter is positioned in a
file that is not there, and the class inherits a symbol that is not there. -/
def sampleNesting : SymbolTable :=
  [ .addFile "shop/Cart.kt" none .kotlin,
    .declare .namedClass (some "Cart") [.positioned ⟨⟨0⟩, 0⟩],
    .declare .property (some "size") [.placed .asMember ⟨1⟩],
    .declare .propertySetter none [.positioned ⟨⟨7⟩, 4⟩, .placed .contained ⟨2⟩],
    .declare .valueParameter (some "value") [.placed .contained ⟨3⟩],
    .inherit ⟨1⟩ ⟨9⟩ ].foldl edit empty

theorem nested_sampleNesting : Nested sampleNesting := by
  dsimp only [sampleNesting, List.foldl_cons, List.foldl_nil]
  refine .edit (.edit (.edit (.edit (.edit (.edit .empty ?_) ?_) ?_) ?_) ?_) ?_ <;> decide

open Session in
/-- From the parameter the way goes up to the file, past the class. -/
theorem Nested.ask_ancestorOf_sample : ∃ line,
    Ascends sampleNesting.toHost ((start ⟨0⟩ {}).after sampleNesting.toHost [.adapter ⟨4⟩])
        ⟨⟨4⟩, .valueParameter, some "value", ⟨0⟩, 0⟩ line ∧
      (((start ⟨0⟩ {}).after sampleNesting.toHost [.adapter ⟨4⟩]).ask sampleNesting.toHost
          (.ancestorOf .classLike ⟨⟨4⟩, .valueParameter, some "value", ⟨0⟩, 0⟩)).1 =
        .ok (.declaration? (line.find? fun p ↦ p.kind.category = .classLike)) ∧
      line.find? (fun p ↦ p.kind.category = .classLike) = some ⟨⟨1⟩, .cls, some "Cart", ⟨0⟩, 3⟩ := by
  obtain ⟨line, ascends, -, answer, -⟩ := nested_sampleNesting.ask_ancestorOf ⟨0⟩ {} [.adapter ⟨4⟩]
    (d := ⟨⟨4⟩, .valueParameter, some "value", ⟨0⟩, 0⟩) (by decide) .classLike
  exact ⟨line, ascends, answer, (Answer.declaration?.inj (Except.ok.inj answer)).symm⟩

end SymbolTable
end SymbolView
