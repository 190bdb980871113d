import SymbolView.Proofs.Session.Relays
import SymbolView.Proofs.SymbolTable.MemberTree

/-!
# A snapshot is a portrait of the members below a declaration

A snapshot follows links of the host, so it might never end, fail at any symbol it comes to, or show
a symbol twice.  On a table that has been built by naming only what was known it does none of these.
It has the form of the tree that unfolds the table below the symbol (`SymbolTree.Portrays`), and in
each node it says what every session answers about the symbol there (`Snapshot.Reports`).

The depth of the snapshot is enough because members have larger numbers than their class: where
`depth` levels are left, the symbol has at least the number `SymbolId.count - depth`.
-/

set_option autoImplicit false

namespace SymbolView

open Session Relation

/-! ## What a snapshot says -/

/-- Whether a snapshot says of a declaration, its members apart, what a session answers. -/
structure Snapshot.Repeats (snap : Snapshot) (host : Host) (S : Session) (d : Declaration) :
    Prop where
  name : snap.name = d.name
  kind : snap.kind = d.kind
  origin : (S.ask host (.origin d)).1 = .ok (.origin snap.origin)
  location : (S.ask host (.location d)).1 = .ok (.location snap.location)
  modifiers : (S.ask host (.modifiers d)).1 = .ok (.modifiers snap.modifiers)
  typeText : (S.ask host (.typeText d)).1 = .ok (.text? snap.typeText)
  annotations : (S.ask host (.resolvedAnnotations d)).1 = .ok (.annotations snap.annotations)
  qualifiedName : ∃ id, (S.ask host (.classId d)).1 = .ok (.classId? id) ∧
    snap.qualifiedName = id.map (·.qualifiedName)

/-- Whether a snapshot says of a symbol, its members apart, what any session answers that writes
types in a given way, whatever it has been asked before. -/
def Snapshot.Reports (host : Host) (policy : SuffixPolicy) (s : SymbolId) (snap : Snapshot) :
    Prop :=
  ∀ (id : SessionId) (config : SessionConfig) (history : List Query), config.policy = policy →
    ∃ d S,
      ((start id config).after host history).ask host (.adapter s) = (.ok (.declaration d), S) ∧
        snap.Repeats host S d

/-- Whether a snapshot has the form of a tree, in order, with a report in each node. -/
inductive SymbolTree.Portrays (report : SymbolId → Snapshot → Prop) : SymbolTree → Snapshot → Prop
  | node {s : SymbolId} {snap : Snapshot} {below : List SymbolTree} (own : report s snap)
      (members : List.Forall₂ (Portrays report) below snap.members) :
      Portrays report (.node s below) snap

section Describe

variable {host : Host} {known : SymbolId → Prop} {s : SymbolId}

/-- **A known symbol is described** by the answers about it. -/
theorem exists_describe (policy : SuffixPolicy) (serves : host.Serves known) (hs : known s)
    (below : List Snapshot) : ∃ snap : Snapshot, snap.members = below ∧
      Settles host policy s (fun d ↦ describe host d below) snap ∧ snap.Reports host policy s := by
  obtain ⟨kind, name, face⟩ := serves.faceOf hs
  obtain ⟨id, hid⟩ := exists_classId policy serves hs
  obtain ⟨origin, horigin⟩ := exists_origin policy serves hs
  obtain ⟨location, hlocation⟩ := exists_location policy serves hs
  obtain ⟨modifiers, hmodifiers⟩ := exists_modifiers policy serves hs
  obtain ⟨typeText, htypeText⟩ := exists_typeText policy serves hs
  obtain ⟨annotations, hannotations⟩ := exists_resolvedAnnotations policy serves hs
  refine ⟨⟨name, id.map (·.qualifiedName), kind, origin, location, modifiers, typeText, annotations,
    below⟩, rfl, ?_, ?_⟩
  · refine .bind hid (.bind horigin (.bind hlocation (.bind hmodifiers (.bind htypeText
      (.bind hannotations ?_)))))
    exact .of_face (m := fun kind name _ ↦ pure (Snapshot.mk name (id.map ClassId.qualifiedName)
      kind origin location modifiers typeText annotations below)) face (.pure _)
  · rintro id' config history rfl
    have hS := steady_after id' config host history
    obtain ⟨d, T, hrun, hT, hd, rfl⟩ := hS.completes_adapterFor face
    have hT' := hS.reaches hT
    obtain ⟨rfl, rfl⟩ := hT'.kind_and_name_eq hd face
    refine ⟨d, T, ?_, ?_⟩
    · rw [ask, Query.run, SessionM.run_map, hrun]
      rfl
    · exact
        { name := rfl
          kind := rfl
          origin := horigin.answer (fun _ ↦ rfl) hT' hd rfl
          location := hlocation.answer (fun _ ↦ rfl) hT' hd rfl
          modifiers := hmodifiers.answer (fun _ ↦ rfl) hT' hd rfl
          typeText := htypeText.answer (fun _ ↦ rfl) hT' hd rfl
          annotations := hannotations.answer (fun _ ↦ rfl) hT' hd rfl
          qualifiedName := ⟨id, hid.answer (fun _ ↦ rfl) hT' hd rfl, rfl⟩ }

end Describe

/-! ## What a table says -/

theorem eraseDups_of_nodup {α : Type} [BEq α] [LawfulBEq α] {l : List α} (h : l.Nodup) :
    l.eraseDups = l := by
  induction l with
  | nil => rfl
  | cons a l ih =>
    rw [List.nodup_cons] at h
    have others : ∀ b ∈ l, (!b == a) = true := by
      intro b hb
      have hne : b ≠ a := fun hba ↦ h.1 (hba ▸ hb)
      simpa using hne
    rw [List.eraseDups_cons, List.filter_eq_self.mpr others, ih h.2]

/-- Whether all that a table knows of a symbol is understood: its provenance is in the table of
origins, and no annotation of the symbol or of its type has a value of an unsupported form. -/
def SymbolRecord.isUnderstood (r : SymbolRecord) : Bool :=
  r.provenance != .plugin && r.provenance != .jsDynamic
    && r.annotations.all (·.isSupported) && r.declaredType.all (·.isSupported)

theorem SymbolRecord.isUnderstood_iff {r : SymbolRecord} : r.isUnderstood = true ↔
    r.provenance ≠ .plugin ∧ r.provenance ≠ .jsDynamic ∧
      (∀ a ∈ r.annotations, a.isSupported = true) ∧ ∀ t ∈ r.declaredType, t.isSupported = true := by
  simp [isUnderstood, Option.all_eq_true, and_assoc]

namespace SymbolTable

variable {table : SymbolTable} {policy : SuffixPolicy} {s : SymbolId} {r : SymbolRecord}

theorem faceOf_toHost (hr : table.record s = .ok r) :
    table.toHost.faceOf s = .ok (s, .ofSymbol r.kind, r.name) := by
  simp only [Host.faceOf, Host.kindAndName, toHost, hr]
  rfl

theorem WellFormed.memberSymbols_eq (wf : table.WellFormed) (hr : table.record s = .ok r) :
    table.toHost.memberSymbols s = .ok r.members := by
  simp only [Host.memberSymbols, toHost, hr]
  show Except.ok r.members.eraseDups = _
  rw [eraseDups_of_nodup (wf.nodup_members hr)]

theorem WellFormed.exists_isInBinary (wf : table.WellFormed) (hr : table.record s = .ok r) :
    ∃ b, table.toHost.isInBinary s = .ok b := by
  have source : table.toHost.source s = .ok r.source := map_eq_ok.mpr ⟨r, hr, rfl⟩
  rw [Host.isInBinary, source]
  cases hp : r.source with
  | none => exact ⟨false, rfl⟩
  | some p =>
    obtain ⟨t, ht⟩ := wf.source hr hp
    obtain ⟨file, hfile, -⟩ := map_eq_ok.mp ht
    have kind : table.toHost.fileKind p.file = .ok file.kind := map_eq_ok.mpr ⟨file, hfile, rfl⟩
    refine ⟨file.kind.isBinary, ?_⟩
    show (do return (← table.toHost.fileKind p.file).isBinary) = _
    rw [kind]
    rfl

theorem WellFormed.exists_classify (wf : table.WellFormed) (hr : table.record s = .ok r)
    (h : r.provenance ≠ .plugin) (h' : r.provenance ≠ .jsDynamic) :
    ∃ origin, table.toHost.classify s = .ok origin := by
  obtain ⟨binary, hbinary⟩ := wf.exists_isInBinary hr
  have tag : table.toHost.provenance s = .ok r.provenance := map_eq_ok.mpr ⟨r, hr, rfl⟩
  rw [Host.classify, tag, hbinary]
  cases hp : r.provenance with
  | plugin => exact absurd hp h
  | jsDynamic => exact absurd hp h'
  | java => cases binary <;> exact ⟨_, rfl⟩
  | _ => exact ⟨_, rfl⟩

theorem exists_typeTextOf (hr : table.record s = .ok r)
    (h : ∀ t ∈ r.declaredType, t.isSupported = true) (policy : SuffixPolicy) :
    ∃ text, table.toHost.typeTextOf policy s = .ok text := by
  have declared : table.toHost.declaredType s = .ok r.declaredType := map_eq_ok.mpr ⟨r, hr, rfl⟩
  rw [Host.typeTextOf, declared]
  cases ht : r.declaredType with
  | none => exact ⟨none, rfl⟩
  | some t =>
    obtain ⟨text, htext⟩ : ∃ text, t.text policy false = .ok text := t.exists_text false (h t ht)
    refine ⟨some text, ?_⟩
    show some <$> (t.text policy false).mapError Failure.fault = _
    rw [htext]
    rfl

/-- A well-formed table whose symbols are understood serves all symbols that it knows. -/
theorem WellFormed.serves (wf : table.WellFormed)
    (understood : ∀ r ∈ table.symbols, r.isUnderstood = true) :
    table.toHost.Serves table.Knows := by
  have ofRecord {s : SymbolId} {r : SymbolRecord} (hr : table.record s = .ok r) :=
    SymbolRecord.isUnderstood_iff.mp (understood r (Array.mem_of_getElem? (record_eq_ok.mp hr)))
  constructor
  case answers => exact wf.answers
  case classify =>
    rintro s ⟨r, hr⟩
    exact wf.exists_classify hr (ofRecord hr).1 (ofRecord hr).2.1
  case typeTextOf =>
    rintro policy s ⟨r, hr⟩
    exact exists_typeTextOf hr (ofRecord hr).2.2.2 policy
  case supported =>
    rintro s applications a - written ha
    obtain ⟨r, hr, rfl⟩ := map_eq_ok.mp written
    exact (ofRecord hr).2.2.1 a ha
  case container =>
    rintro s c - h
    obtain ⟨r, hr, hc⟩ := map_eq_ok.mp h
    exact wf.knows_of_mentions hr (by simp [SymbolRecord.mentions, hc])
  case file =>
    rintro s t - h
    obtain ⟨r, hr, ht⟩ := map_eq_ok.mp h
    exact wf.knows_of_mentions hr (by simp [SymbolRecord.mentions, ht])
  case members =>
    rintro s ⟨r, hr⟩
    exact ⟨r.members, wf.memberSymbols_eq hr, fun m ↦ wf.knows_of_mem_members hr⟩

/-! ## The snapshots of a table -/

/-- Whether a tree and a snapshot of some depth belong to a symbol. -/
structure Portrait (table : SymbolTable) (policy : SuffixPolicy) (depth : Nat) (s : SymbolId)
    (tree : SymbolTree) (snap : Snapshot) : Prop where
  symbol : tree.symbol = s
  unfolds : tree.Unfolds table
  settles : Settles table.toHost policy s (snapshotWithin table.toHost depth) snap
  portrays : tree.Portrays (Snapshot.Reports table.toHost policy) snap

theorem exists_portraits {depth : Nat} {symbols : List SymbolId}
    (h : ∀ m ∈ symbols, ∃ tree snap, Portrait table policy depth m tree snap) :
    ∃ trees snaps, trees.map SymbolTree.symbol = symbols ∧
      (∀ tree ∈ trees, tree.Unfolds table) ∧
      List.Forall₂ (fun m snap ↦
        Settles table.toHost policy m (snapshotWithin table.toHost depth) snap) symbols snaps ∧
      List.Forall₂ (SymbolTree.Portrays (Snapshot.Reports table.toHost policy)) trees snaps := by
  induction symbols with
  | nil => exact ⟨[], [], rfl, nofun, .nil, .nil⟩
  | cons m rest ih =>
    obtain ⟨tree, snap, first⟩ := h m (.head _)
    obtain ⟨trees, snaps, hrest, unfolds, settle, portray⟩ := ih fun t ht ↦ h t (.tail _ ht)
    refine ⟨tree :: trees, snap :: snaps, ?_, ?_, .cons first.settles settle,
      .cons first.portrays portray⟩
    · rw [List.map_cons, first.symbol, hrest]
    · exact List.forall_mem_cons.mpr ⟨first.unfolds, unfolds⟩

/-- One level of a snapshot: what is settled of the members and of the class itself is settled of
both together. -/
theorem WellFormed.settles_snapshotWithin (wf : table.WellFormed)
    (serves : table.toHost.Serves table.Knows) {depth : Nat} {snaps : List Snapshot}
    {snap : Snapshot} (hr : table.record s = .ok r)
    (below : List.Forall₂ (fun m snap ↦
      Settles table.toHost policy m (snapshotWithin table.toHost depth) snap) r.shown snaps)
    (own : Settles table.toHost policy s (fun d ↦ describe table.toHost d snaps) snap) :
    Settles table.toHost policy s (snapshotWithin table.toHost (depth + 1)) snap := by
  refine ⟨?_⟩
  rintro S d hS hd rfl
  obtain ⟨hkind, -⟩ := hS.kind_and_name_eq hd (faceOf_toHost hr)
  rw [SymbolRecord.shown_eq, ← hkind] at below
  rw [snapshotWithin]
  split
  next classLike =>
    rw [if_pos classLike] at below
    refine (hS.completes_members serves hd classLike (wf.memberSymbols_eq hr)
      fun m ↦ wf.knows_of_mem_members hr).bind fun T ds hT hds ↦ ?_
    obtain ⟨hmem, hsymbols⟩ := hds
    have hT' := hS.reaches hT
    have inOrder : Completes table.toHost (ds.mapM (snapshotWithin table.toHost depth)) T
        fun _ found ↦ found = snaps := by
      rw [← hsymbols, List.forall₂_map_left_iff] at below
      have each := (List.forall₂_and_left ds snaps).mpr ⟨hmem, below⟩
      refine .mapM (each.imp ?_)
      rintro e snap ⟨he, settles⟩ U hU
      exact settles.completes (hT'.reaches hU) (hU.grows.mem he) rfl
    refine inOrder.bind fun U found hU hfound ↦ ?_
    rw [hfound]
    exact own.completes (hT'.reaches hU) (hU.grows.mem (hT.grows.mem hd)) rfl
  next plain =>
    rw [if_neg plain] at below
    cases below
    exact own.completes hS hd rfl

/-- **A snapshot of sufficient depth is a portrait.** -/
theorem WellFormed.exists_portrait (wf : table.WellFormed)
    (serves : table.toHost.Serves table.Knows) (policy : SuffixPolicy) (depth : Nat) :
    ∀ {s}, table.Knows s → SymbolId.count ≤ depth + s.index →
      ∃ tree snap, Portrait table policy depth s tree snap := by
  induction depth with
  | zero =>
    -- no symbol has so large a number
    intro s _ hdepth
    rw [Nat.zero_add] at hdepth
    exact absurd (UInt32.toNat_lt_size s.val) (Nat.not_lt.mpr hdepth)
  | succ depth ih =>
    rintro s ⟨r, hr⟩ hdepth
    have later : ∀ m ∈ r.shown, ∃ tree snap, Portrait table policy depth m tree snap := by
      intro m hm
      have hlt := wf.index_lt_of_below ⟨r, hr, hm⟩
      have known := wf.knows_of_mem_members hr (r.shown_sublist_members.subset hm)
      exact ih known (by omega)
    obtain ⟨trees, snaps, symbols, unfolds, settle, portray⟩ := exists_portraits later
    obtain ⟨snap, members, own, reports⟩ := exists_describe policy serves ⟨r, hr⟩ snaps
    exact ⟨.node s trees, snap,
      { symbol := rfl
        unfolds := .node hr symbols unfolds
        settles := wf.settles_snapshotWithin serves hr settle own
        portrays := .node reports (members ▸ portray) }⟩

/-- Whether a snapshot shows all symbols that are reached from one, in order and each once. -/
structure Covers (table : SymbolTable) (policy : SuffixPolicy) (s : SymbolId) (tree : SymbolTree)
    (snap : Snapshot) : Prop where
  /-- The tree starts at the symbol. -/
  symbol : tree.symbol = s
  /-- Below each symbol of the tree are its declared members and then its static ones. -/
  unfolds : tree.Unfolds table
  /-- The symbols of the tree are those that are reached. -/
  mem_symbols_iff : ∀ t, t ∈ tree.symbols ↔ ReflTransGen table.Below s t
  /-- No symbol is at two places of the tree. -/
  nodup : tree.symbols.Nodup
  /-- The snapshot has the form of the tree, and says of each symbol what sessions answer. -/
  portrays : tree.Portrays (Snapshot.Reports table.toHost policy) snap

theorem knows_of_shows {d : Declaration} (h : table.toHost.Shows d) : table.Knows d.symbol := by
  cases hr : table.record d.symbol with
  | ok r => exact ⟨r, hr⟩
  | error e =>
    have refused : table.toHost.faceOf d.symbol = .error (.ofHost e) := by
      simp only [Host.faceOf, Host.kindAndName, toHost, hr]
      rfl
    cases refused.symm.trans h

/-- **A snapshot loses and repeats nothing.**  If a table has been built by naming only what was
known, has room for its symbols, and all of them are understood, then a session over it answers
every question for the snapshot of a declaration.  The snapshot shows each symbol that is reached
from the declaration through the members of classes, in order and once, and says of it what any
session answers that writes types in the same way. -/
theorem Built.ask_snapshot (built : Built table) (fits : table.symbols.size ≤ SymbolId.count)
    (understood : ∀ r ∈ table.symbols, r.isUnderstood = true) (id : SessionId)
    (config : SessionConfig) (history : List Query) {d : Declaration}
    (hd : d ∈ ((start id config).after table.toHost history).declarations) :
    ∃ snap tree, (((start id config).after table.toHost history).ask table.toHost (.snapshot d)).1 =
        .ok (.snapshot snap) ∧
      table.Covers config.policy d.symbol tree snap := by
  have wf := built.wellFormed fits
  have hS := steady_after id config table.toHost history
  have known : table.Knows d.symbol := knows_of_shows (hS.agrees.shows d hd)
  obtain ⟨tree, snap, portrait⟩ := wf.exists_portrait (wf.serves understood)
    config.policy SymbolId.count known (Nat.le_add_right _ _)
  refine ⟨snap, tree, portrait.settles.answer (fun _ ↦ rfl) hS hd rfl, ?_⟩
  exact
    { symbol := portrait.symbol
      unfolds := portrait.unfolds
      mem_symbols_iff := fun t ↦ portrait.symbol ▸ portrait.unfolds.mem_symbols_iff t
      nodup := portrait.unfolds.nodup wf
      portrays := portrait.portrays }

/-- A file with a class.  The class has a static class, declared first, that is written in a binary
file, and an annotated property whose type is an alias; the static class has a method, and the
property a getter, which no class shows. -/
def sampleShop : SymbolTable :=
  let list : ClassId := ⟨["std"], ["List"], false⟩
  let marker : Annotations.Application :=
    ⟨⟨["shop"], ["Mark"], false⟩, some .get, [⟨"values", .array [.localClass "Here", .errorClass]⟩]⟩
  let lines : TypeTerm := .ofAlias ⟨["shop"], ["Lines"], false⟩
    ⟨.classType .usual ⟨.classLike, list⟩ [⟨"List", [.star]⟩] none, .nullable, [marker]⟩
  [ .addFile "shop/Cart.kt" (some "class Cart") .kotlin,
    .addFile "shop/Item.class" none .binary,
    .declare .namedClass (some "Cart")
      [.placed .contained ⟨0⟩, .classId ⟨["shop"], ["Cart"], false⟩],
    .declare .namedClass (some "Item")
      [.placed .asStatic ⟨2⟩, .provenance .java, .positioned ⟨⟨1⟩, 4⟩],
    .declare .property (some "lines")
      [.placed .asMember ⟨2⟩, .annotated marker, .declaredType lines],
    .declare .propertyGetter none [.placed .contained ⟨4⟩],
    .declare .functionLike (some "price") [.placed .asMember ⟨3⟩] ].foldl edit empty

theorem built_sampleShop : Built sampleShop := by
  dsimp only [sampleShop, List.foldl_cons, List.foldl_nil]
  refine .edit (.edit (.edit (.edit (.edit (.edit (.edit .empty ?_) ?_) ?_) ?_) ?_) ?_) ?_ <;>
    decide

/-- A snapshot of the class, in a session that has been asked about the property before. -/
theorem Built.ask_snapshot_sample : ∃ snap tree,
    (((start ⟨0⟩ {}).after sampleShop.toHost
        [.adapter ⟨4⟩, .typeText ⟨⟨4⟩, .property, some "lines", ⟨0⟩, 0⟩, .adapter ⟨2⟩]).ask
      sampleShop.toHost (.snapshot ⟨⟨2⟩, .cls, some "Cart", ⟨0⟩, 1⟩)).1 = .ok (.snapshot snap) ∧
    sampleShop.Covers .uniform ⟨2⟩ tree snap := by
  have fits : sampleShop.symbols.size ≤ SymbolId.count := by decide
  have understood : ∀ r ∈ sampleShop.symbols, r.isUnderstood = true := by decide
  exact built_sampleShop.ask_snapshot fits understood ⟨0⟩ {} _ (by decide)

end SymbolTable
end SymbolView
