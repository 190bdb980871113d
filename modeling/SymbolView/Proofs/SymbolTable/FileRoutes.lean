import SymbolView.Proofs.SymbolTable.Nesting

/-!
# Two routes to the file

The file around a declaration is found by climbing to the nearest file, or it is asked for.  The
climb follows containers and looks at a file only where there is no container left; what is asked
for was taken over from the container when the symbol was declared.

That both lead to one file takes two things of the way a table is built
(`SymbolTable.KeepsFiles`): files are added as files, and a symbol that is placed in another and
positioned as well is positioned in the file of the other.  In such a table a symbol and its parent
lie in one file (`Anchored.file_eq_parent`), and the files are the symbols that lie in themselves,
so that the climb ends where it should (`Anchored.find?_lineage`).
-/

set_option autoImplicit false

namespace SymbolView
namespace SymbolTable

variable {table : SymbolTable} {e : Edit} {s t c : SymbolId} {r q : SymbolRecord} {line : List Face}

/-! ## Tables that keep to their files -/

/-- Whether an edit declares no files, and positions what it places in the file of its container. -/
def KeepsFiles (table : SymbolTable) : Edit → Prop
  | .declare kind name attributes =>
    kind ≠ .file ∧ ∀ c ∈ (table.draft kind name attributes).record.container,
      ∀ p ∈ (table.draft kind name attributes).record.source,
        table.toHost.containingFile c = some <$> table.fileSymbol p.file
  | _ => True

instance : (e : Edit) → Decidable (table.KeepsFiles e)
  | .declare .. => inferInstanceAs (Decidable (_ ∧ _))
  | .addFile .. | .inherit .. => isTrue trivial

/-- The tables that are built from the empty one by edits that name only what is known and keep to
the files. -/
inductive Filed : SymbolTable → Prop
  | empty : Filed .empty
  | edit {table : SymbolTable} {e : Edit} (filed : Filed table) (allowed : table.Allows e)
      (keeps : table.KeepsFiles e) : Filed (table.edit e)

theorem Filed.built (filed : Filed table) : Built table := by
  induction filed with
  | empty => exact .empty
  | edit _ allowed _ built => exact built.edit allowed

/-! ## What lies in one file -/

/-- How the symbols of a table hang on to files. -/
structure Anchored (table : SymbolTable) : Prop where
  /-- A symbol lies in the file of its container. -/
  container : ∀ {s r c}, table.record s = .ok r → r.container = some c →
    ∃ q, table.record c = .ok q ∧ r.file = q.file
  /-- The files are what lies in itself. -/
  kind : ∀ {s r}, table.record s = .ok r → (r.kind = .file ↔ r.file = some s)

theorem anchored_empty : Anchored .empty where
  container h := nomatch h
  kind h := nomatch h

theorem kind_draft (table : SymbolTable) (kind : SymbolKind) (name : Option String)
    (attributes : List Attribute) : (table.draft kind name attributes).record.kind = kind := by
  refine List.foldlRecOn attributes table.amend (b := { record := { kind, name } })
    (motive := fun d ↦ d.record.kind = kind) rfl fun d h a _ ↦ ?_
  cases a <;> exact h

/-- A symbol that is added lies in the file of its container: in none of its own if it is not
positioned, and in the right one if it is. -/
theorem file_of_added_of_container (allowed : table.Allows e) (keeps : table.KeepsFiles e)
    (hr : table.added e = some r) (hc : r.container = some c) :
    ∃ q, table.record c = .ok q ∧ r.file = q.file := by
  cases e with
  | addFile path text kind =>
    cases hr
    cases hc
  | declare kind name attributes =>
    cases hr
    obtain ⟨placement, ha⟩ := container_draft hc
    obtain ⟨q, hq⟩ : table.Knows c := allowed _ ha
    refine ⟨q, hq, ?_⟩
    have inherited : (table.recordOf kind name attributes).file =
        (table.draft kind name attributes).record.file.or q.file := by
      show Option.or _ ((table.draft kind name attributes).record.container.bind _) = _
      rw [show (table.draft kind name attributes).record.container = some c from hc,
        Option.bind_some, hq]
      rfl
    rw [inherited, file_draft]
    cases hp : (table.draft kind name attributes).record.source with
    | none => rfl
    | some p =>
      obtain ⟨t, ht, file⟩ := map_eq_ok.mp
        ((keeps.2 c hc p hp).symm.trans (map_eq_ok.mpr ⟨q, hq, rfl⟩))
      rw [Option.bind_some, ht, ← file]
      rfl
  | inherit cls member => cases hr

/-- A symbol that is added is a file if it lies in itself, and only then. -/
theorem Rooted.kind_of_added (rooted : table.Rooted) (room : table.symbols.size < SymbolId.count)
    (keeps : table.KeepsFiles e) (hr : table.added e = some r) :
    r.kind = .file ↔ r.file = some (.ofIndex table.symbols.size) := by
  cases e with
  | addFile path text kind =>
    cases hr
    exact iff_of_true rfl rfl
  | declare kind name attributes =>
    cases hr
    refine iff_of_false (fun isFile ↦ keeps.1 ?_) fun itself ↦ ?_
    · exact (table.kind_draft kind name attributes).symm.trans isFile
    · -- its file was there before the symbol itself
      obtain ⟨q, hq, -⟩ := rooted.file_of_recordOf room itself
      exact Nat.ne_of_lt (index_lt_size hq) (SymbolId.index_ofIndex room)
  | inherit cls member => cases hr

theorem Anchored.edit (anchored : table.Anchored) (rooted : table.Rooted)
    (allowed : table.Allows e) (keeps : table.KeepsFiles e) : (table.edit e).Anchored where
  container {s q c} hq hc := by
    have before : ∃ p, table.record c = .ok p ∧ q.file = p.file := by
      obtain ⟨r, hr, bare⟩ | ⟨-, r, hr, bare⟩ := record_edit_cases hq
      all_goals
        rw [show q.file = r.file from (congrArg SymbolRecord.file bare :)]
        have hc' : r.container = some c := (congrArg SymbolRecord.container bare).symm.trans hc
      · exact anchored.container hr hc'
      · exact file_of_added_of_container allowed keeps hr hc'
    obtain ⟨p, hp, same⟩ := before
    obtain ⟨p', hp', bare⟩ := exists_record_edit hp e
    exact ⟨p', hp', same.trans (congrArg SymbolRecord.file bare).symm⟩
  kind {s q} hq := by
    obtain ⟨r, hr, bare⟩ | ⟨new, r, hr, bare⟩ := record_edit_cases hq
    all_goals
      rw [show q.kind = r.kind from (congrArg SymbolRecord.kind bare :),
        show q.file = r.file from (congrArg SymbolRecord.file bare :)]
    · exact anchored.kind hr
    · obtain ⟨room, rfl⟩ := eq_ofIndex_size new
      exact rooted.kind_of_added room keeps hr

/-- A table that keeps to its files is anchored. -/
theorem Filed.anchored (filed : Filed table) : table.Anchored := by
  induction filed with
  | empty => exact anchored_empty
  | edit filed allowed keeps anchored =>
    exact anchored.edit filed.built.nested.rooted allowed keeps

/-! ## The climb -/

/-- **A symbol and its parent lie in one file.** -/
theorem Anchored.file_eq_parent (anchored : table.Anchored) (rooted : table.Rooted)
    (hr : table.record s = .ok r) (ht : r.container.or (r.file.filter (· ≠ s)) = some t) :
    ∃ q, table.record t = .ok q ∧ r.file = q.file := by
  obtain container | ⟨-, file⟩ := Option.or_eq_some_iff.mp ht
  · exact anchored.container hr container
  · have file : r.file = some t := (Option.filter_eq_some_iff.mp file).1
    obtain ⟨q, hq, -, itself⟩ := rooted.file hr file
    exact ⟨q, hq, file.trans itself.symm⟩

/-- What has no parent is a file or lies in none. -/
theorem Anchored.file_eq_none (anchored : table.Anchored) (hr : table.record s = .ok r)
    (hk : r.kind ≠ .file) (top : r.container.or (r.file.filter (· ≠ s)) = none) :
    r.file = none := by
  cases file : r.file with
  | none => rfl
  | some t =>
    have other : t ≠ s := fun same ↦ hk ((anchored.kind hr).mpr (same ▸ file))
    rw [file, Option.filter_some, if_pos (by simpa using other)] at top
    cases (Option.or_eq_none_iff.mp top).2

theorem category_ofSymbol_eq_file {kind : SymbolKind} :
    (DeclarationKind.ofSymbol kind).category = .file ↔ kind = .file := by
  cases kind <;> decide

/-- **The first file on the way up is the file that a symbol lies in.** -/
theorem Anchored.find?_lineage (anchored : table.Anchored) (rooted : table.Rooted)
    (lineage : table.toHost.Lineage s line) (hr : table.record s = .ok r) (hk : r.kind ≠ .file) :
    (line.find? fun p ↦ p.2.1.category = .file).map (·.1) = r.file := by
  induction lineage generalizing r with
  | top parent =>
    cases up : r.container.or (r.file.filter (· ≠ _)) with
    | none => exact (anchored.file_eq_none hr hk up).symm
    | some t =>
      obtain ⟨q, hq, -⟩ := anchored.file_eq_parent rooted hr up
      cases parent.symm.trans (parentFace_toHost_some hr up hq)
  | next parent _ ih =>
    cases up : r.container.or (r.file.filter (· ≠ _)) with
    | none => cases parent.symm.trans (parentFace_toHost_none hr up)
    | some t =>
      obtain ⟨q, hq, same⟩ := anchored.file_eq_parent rooted hr up
      cases parent.symm.trans (parentFace_toHost_some hr up hq)
      rw [same]
      by_cases isFile : q.kind = .file
      · rw [List.find?_cons_of_pos (by simpa [category_ofSymbol_eq_file] using isFile)]
        exact ((anchored.kind hq).mp isFile).symm
      · rw [List.find?_cons_of_neg (by simpa [category_ofSymbol_eq_file] using isFile)]
        exact ih hq isFile

end SymbolTable

/-! ## The questions -/

namespace Session

open SessionM

variable {host : Host} {policy : SuffixPolicy} {S T : Session} {d : Declaration}

/-- The two questions for the file that a declaration is in. -/
def fileRoutes (d : Declaration) : List Query := [.ancestorOf .file d, .containingFile d]

/-- An adapter that may be absent is determined by its symbol. -/
theorem WellFormed.eq_of_map_symbol_eq (hS : S.WellFormed) {o o' : Option Declaration}
    (ho : ∀ d ∈ o, d ∈ S.declarations) (ho' : ∀ d ∈ o', d ∈ S.declarations)
    (h : o.map (·.symbol) = o'.map (·.symbol)) : o = o' := by
  cases o <;> cases o'
  case none.none => rfl
  case some.some d e =>
    exact congrArg some (hS.eq_of_symbol_eq (ho d rfl) (ho' e rfl) (Option.some.inj h))
  all_goals cases h

/-- The file that a host tells is handed out. -/
theorem Steady.ask_containingFile (hS : S.Steady host policy) (hd : d ∈ S.declarations)
    {file : Option SymbolId} (h : host.containingFile d.symbol = .ok file)
    (known : ∀ t ∈ file, ∃ face, host.faceOf t = .ok face) :
    ∃ found, (S.ask host (.containingFile d)).1 = .ok (.declaration? found) ∧
      found.map (·.symbol) = file := by
  have completes : Completes host (adapterForOption host file) S fun _ found ↦
      found.map (·.symbol) = file := by
    cases file with
    | none => exact .pure rfl
    | some t =>
      obtain ⟨face, hface⟩ := known t rfl
      exact (hS.completes_adapterFor hface).map fun _ _ made ↦ congrArg some made.2
  obtain ⟨found, T, hrun, -, symbol⟩ := completes
  refine ⟨found, ?_, symbol⟩
  rw [ask, Query.run, run_map, Session.containingFile, run_bind,
    run_check_of_own (hS.wellFormed.own d hd), h]
  show (Answer.declaration? <$> ((adapterForOption host file).run.run S).1) = _
  rw [hrun]
  rfl

/-- What a climb finds shows the first face of the category among those on the way up. -/
theorem Steady.ask_climb (hS : S.Steady host policy) (hd : d ∈ S.declarations)
    {line : List Face} (lineage : host.Lineage d.symbol line) (category : DeclarationCategory) :
    ∃ found, (S.ask host (.ancestorOf category d)).1 = .ok (.declaration? found) ∧
      found.map Declaration.face = line.find? fun p ↦ p.2.1.category = category := by
  obtain ⟨adapters, ascends, rfl⟩ := hS.exists_ascends hd lineage
  refine ⟨_, ascends.ask_climb category lineage.length_lt_count, ?_⟩
  rw [List.find?_map]
  rfl

end Session

namespace SymbolTable

open Session

variable {table : SymbolTable} {policy : SuffixPolicy} {S : Session} {d : Declaration}
  {r : SymbolRecord}

/-- Either question is answered with the adapter of the file that the symbol lies in, if any. -/
theorem Filed.ask_fileRoute (filed : Filed table) (hS : S.Steady table.toHost policy)
    (hd : d ∈ S.declarations) (hk : d.kind ≠ .file) (hr : table.record d.symbol = .ok r)
    {q : Query} (hq : q ∈ fileRoutes d) :
    ∃ found, (S.ask table.toHost q).1 = .ok (.declaration? found) ∧
      found.map (·.symbol) = r.file := by
  have rooted := filed.built.nested.rooted
  rcases List.mem_pair.mp hq with rfl | rfl
  · have notFile : r.kind ≠ .file := by
      intro isFile
      obtain ⟨kind_eq, -⟩ := hS.kind_and_name_eq hd (faceOf_toHost hr)
      exact hk (kind_eq.trans (congrArg _ isFile))
    obtain ⟨line, lineage⟩ := rooted.exists_lineage hr
    obtain ⟨found, answer, face⟩ := hS.ask_climb hd lineage .file
    refine ⟨found, answer, ?_⟩
    rw [← filed.anchored.find?_lineage rooted lineage hr notFile, ← face, Option.map_map]
    rfl
  · refine hS.ask_containingFile hd (map_eq_ok.mpr ⟨r, hr, rfl⟩) fun t ht ↦ ?_
    obtain ⟨q, hq, -⟩ := rooted.file hr ht
    exact ⟨_, faceOf_toHost hq⟩

/-- **Two routes to the file agree.**  In a table that has been built by naming only what was known
and keeps to its files, the nearest file around a declaration that is not a file is the file that it
is in: whichever of the two a session is asked first, and whatever it is asked in between, both
answers hand out the same adapter, or none.  It is the adapter of the file that the host tells. -/
theorem Filed.ask_fileRoutes (filed : Filed table) (id : SessionId) (config : SessionConfig)
    (history : List Query) {d : Declaration}
    (hd : d ∈ ((start id config).after table.toHost history).declarations) (hk : d.kind ≠ .file)
    {q q' : Query} (hq : q ∈ fileRoutes d) (hq' : q' ∈ fileRoutes d) (between : List Query) :
    ∃ found, table.toHost.containingFile d.symbol = .ok (found.map (·.symbol)) ∧
      (((start id config).after table.toHost history).ask table.toHost q).1 =
        .ok (.declaration? found) ∧
      (((((start id config).after table.toHost history).ask table.toHost q).2.after table.toHost
        between).ask table.toHost q').1 = .ok (.declaration? found) := by
  have hS := steady_after id config table.toHost history
  generalize (start id config).after table.toHost history = S at hS hd ⊢
  obtain ⟨r, hr⟩ := knows_of_shows (hS.agrees.shows d hd)
  obtain ⟨found, answer, symbol⟩ := filed.ask_fileRoute hS hd hk hr hq
  have asked := reaches_ask hS.wellFormed table.toHost q
  have later := reaches_after (hS.reaches asked).wellFormed table.toHost between
  have hT := (hS.reaches asked).reaches later
  obtain ⟨again, answer', symbol'⟩ :=
    filed.ask_fileRoute hT (later.grows.mem (asked.grows.mem hd)) hk hr hq'
  -- the first answer is still an adapter of the session when the second has been given
  have same : again = found := by
    refine (wellFormed_ask hT.wellFormed table.toHost q').eq_of_map_symbol_eq (fun e he ↦ ?_)
      (fun e he ↦ ?_) (symbol'.trans symbol.symm)
    · exact mem_of_ask hT.wellFormed (Prod.ext answer' rfl) (Option.mem_toList.mpr he)
    · refine (grows_ask hT.wellFormed table.toHost q').mem (later.grows.mem ?_)
      exact mem_of_ask hS.wellFormed (Prod.ext answer rfl) (Option.mem_toList.mpr he)
  exact ⟨found, map_eq_ok.mpr ⟨r, hr, symbol.symm⟩, answer, same ▸ answer'⟩

/-- Two classes with a member each in one file: the first is only positioned there, the second has
the file as its container and is not positioned. -/
def sampleRoutes : SymbolTable :=
  [ .addFile "shop/Cart.kt" none .kotlin,
    .declare .namedClass (some "Cart") [.positioned ⟨⟨0⟩, 0⟩],
    .declare .property (some "size") [.placed .asMember ⟨1⟩],
    .declare .namedClass (some "Bag") [.placed .contained ⟨0⟩],
    .declare .functionLike (some "fill") [.positioned ⟨⟨0⟩, 9⟩, .placed .asMember ⟨3⟩] ].foldl
    edit empty

theorem filed_sampleRoutes : Filed sampleRoutes := by
  dsimp only [sampleRoutes, List.foldl_cons, List.foldl_nil]
  refine .edit (.edit (.edit (.edit (.edit .empty ?_ ?_) ?_ ?_) ?_ ?_) ?_ ?_) ?_ ?_ <;> decide

/-- For the member of the first class one route is asked first, for that of the second the other. -/
theorem Filed.ask_fileRoutes_sample :
    let host := sampleRoutes.toHost
    let S := (start ⟨0⟩ {}).after host [.adapter ⟨2⟩, .adapter ⟨4⟩]
    let size : Declaration := ⟨⟨2⟩, .property, some "size", ⟨0⟩, 0⟩
    let fill : Declaration := ⟨⟨4⟩, .function, some "fill", ⟨0⟩, 1⟩
    let T := (S.ask host (.ancestorOf .file size)).2.after host [.parent fill]
    let U := (S.ask host (.containingFile fill)).2.after host [.location fill]
    (∃ found, host.containingFile ⟨2⟩ = .ok (found.map (·.symbol)) ∧
      (S.ask host (.ancestorOf .file size)).1 = .ok (.declaration? found) ∧
      (T.ask host (.containingFile size)).1 = .ok (.declaration? found)) ∧
    ∃ found, host.containingFile ⟨4⟩ = .ok (found.map (·.symbol)) ∧
      (S.ask host (.containingFile fill)).1 = .ok (.declaration? found) ∧
      (U.ask host (.ancestorOf .file fill)).1 = .ok (.declaration? found) := by
  intro host S size fill T U
  constructor
  · exact filed_sampleRoutes.ask_fileRoutes ⟨0⟩ {} [.adapter ⟨2⟩, .adapter ⟨4⟩] (d := size)
      (by decide) (by decide) (List.mem_pair.mpr (.inl rfl)) (List.mem_pair.mpr (.inr rfl)) _
  · exact filed_sampleRoutes.ask_fileRoutes ⟨0⟩ {} [.adapter ⟨2⟩, .adapter ⟨4⟩] (d := fill)
      (by decide) (by decide) (List.mem_pair.mpr (.inr rfl)) (List.mem_pair.mpr (.inl rfl)) _

end SymbolTable
end SymbolView
