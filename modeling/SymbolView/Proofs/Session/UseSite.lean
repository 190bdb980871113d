import SymbolView.Proofs.Session.Relays
import SymbolView.Proofs.Snapshot.Portrait

/-!
# The two ways to ask for inherited annotations agree

A getter, a setter or a value parameter can be asked in two ways for the annotations that reach it
from what it lies in.  `Session.annotationsFor`, with the target that goes with the kind
(`Session.impliedTarget`), climbs from owner to owner in a loop and puts the declaration's own in
front.  `Session.useSiteAnnotations` looks at one parent or two, each chosen by hand.  On a host
that keeps to the documented containment (`Host.KeepsContainment`) the two find the same:
`Session.ask_annotationsFor_eq_append`.

The climb is as long as the other way because of what lies in what: around an accessor is something
like a property or else the file, and neither has an owner.  So one step settles it for an accessor
(`KeepsContainment.ownersAbove_accessor`) and two do for a value parameter.  The two ways ask the
host in different orders, so if several of its answers are failures they may fail differently; they
always fail together (`KeepsContainment.annotationsFor_eq_ok_iff`), and neither fails if no answer
on the way up does (`Host.Clear`).
-/

set_option autoImplicit false

namespace SymbolView

open Relation

/-! ## Containment -/

/-- Whether a symbol of one kind may lie directly in one of another, as far as it is documented:
accessors lie in properties and in what is exposed like them, value parameters in functions and
setters. -/
def SymbolKind.mayLieIn : SymbolKind → SymbolKind → Bool
  | propertyGetter, c => c == property || c == javaField || c == localVariable
  | propertySetter, c => c == property || c == javaField || c == localVariable
  | valueParameter, c => c == functionLike || c == propertySetter
  | _, _ => true

/-- What is documented of the links from a symbol to what it lies in. -/
structure Host.KeepsContainment (host : Host) : Prop where
  /-- What is around a symbol is of a kind that it may lie in. -/
  container : ∀ {s c kind kind'}, host.symbolKind s = .ok kind →
    host.containingSymbol s = .ok (some c) → host.symbolKind c = .ok kind' →
    kind.mayLieIn kind' = true
  /-- The symbol of a file is a file. -/
  file : ∀ {s f kind}, host.containingFile s = .ok (some f) → host.symbolKind f = .ok kind →
    kind = .file

namespace Host

variable {host : Host} {target : UseSiteTarget} {s p : SymbolId} {kind kind' : DeclarationKind}
  {name name' : Option String} {steps : Nat} {all inherited : List Annotations.Projected}

/-! ## What is found on the way up -/

theorem writtenOnAll_singleton (target : UseSiteTarget) (s : SymbolId) :
    host.writtenOnAll target [s] = host.writtenFor target s := by
  rw [writtenOnAll]
  cases host.writtenFor target s with
  | error e => rfl
  | ok own => exact congrArg Except.ok (List.append_nil own)

/-- What is found on a symbol and above is what is written on it and what is found above. -/
theorem writtenOnAll_cons_eq_ok_iff {climb : Except Failure (List SymbolId)} :
    ((do return s :: (← climb)) >>= host.writtenOnAll target) = .ok all ↔ ∃ own others,
      host.writtenFor target s = .ok own ∧ (climb >>= host.writtenOnAll target) = .ok others ∧
        all = own ++ others := by
  constructor
  · intro h
    obtain ⟨l, hl, h⟩ := bind_eq_ok.mp h
    obtain ⟨above, habove, hl⟩ := bind_eq_ok.mp hl
    cases hl
    obtain ⟨own, others, hown, hothers, rfl⟩ := append_eq_ok_iff.mp h
    exact ⟨own, others, hown, bind_eq_ok.mpr ⟨above, habove, hothers⟩, rfl⟩
  · rintro ⟨own, others, hown, h, rfl⟩
    obtain ⟨above, habove, hothers⟩ := bind_eq_ok.mp h
    exact bind_eq_ok.mpr ⟨s :: above, bind_eq_ok.mpr ⟨above, habove, rfl⟩,
      append_eq_ok_iff.mpr ⟨own, others, hown, hothers, rfl⟩⟩

theorem fromSetter_of_setter {setter : SymbolId}
    (h : host.parentFace s = .ok (some (setter, .setter, name))) :
    host.fromSetter s = .ok inherited ↔ ∃ own others,
      host.writtenFor .setParam setter = .ok own ∧
        host.fromProperty .setParam setter = .ok others ∧ inherited = own ++ others := by
  rw [fromSetter, h]
  exact append_eq_ok_iff

theorem eq_nil_of_fromSetter
    (noSetter : ∀ setter name, host.parentFace s ≠ .ok (some (setter, .setter, name)))
    (h : host.fromSetter s = .ok inherited) : inherited = [] := by
  obtain ⟨o, hparent, h⟩ := bind_eq_ok.mp h
  cases o with
  | none =>
    cases h
    rfl
  | some shown =>
    obtain ⟨p, kind, name⟩ := shown
    have other : kind ≠ .setter := fun setter ↦ noSetter p name (setter ▸ hparent)
    exact Except.ok.inj (h.symm.trans (if_neg other))

theorem kind_of_faceOf (h : host.faceOf s = .ok (s, kind, name)) :
    ∃ k, host.symbolKind s = .ok k ∧ kind = .ofSymbol k := by
  obtain ⟨⟨k, n⟩, hk, h⟩ := bind_eq_ok.mp h
  obtain ⟨k', hk', hn⟩ := bind_eq_ok.mp (mapError_eq_ok.mp hk)
  obtain ⟨n', -, hn⟩ := bind_eq_ok.mp hn
  cases h
  cases hn
  exact ⟨k, hk', rfl⟩

namespace KeepsContainment

variable (keeps : host.KeepsContainment)
include keeps

/-- The parent of a symbol is a file, or of a kind that the symbol may lie in. -/
theorem parent (face : host.faceOf s = .ok (s, kind, name))
    (h : host.parentFace s = .ok (some (p, kind', name'))) : kind' = .file ∨
      (kind.isAccessor = true → kind'.isPropertyLike = true) ∧
      (kind = .valueParameter → kind' = .function ∨ kind' = .setter) := by
  obtain ⟨k, hk, rfl⟩ := kind_of_faceOf face
  obtain ⟨hparent, hface⟩ := of_parentFace h
  obtain ⟨k', hk', rfl⟩ := kind_of_faceOf hface
  obtain ⟨container, hcontainer, hrest⟩ := bind_eq_ok.mp hparent
  cases container with
  | some c =>
    cases hrest
    right
    have lies := keeps.container hk hcontainer hk'
    revert lies
    cases k <;> cases k' <;> decide
  | none =>
    obtain ⟨file, hfile, hrest⟩ := bind_eq_ok.mp hrest
    obtain ⟨rfl, -⟩ := Option.filter_eq_some_iff.mp (Except.ok.inj hrest)
    left
    rw [keeps.file hfile hk']
    rfl

/-- From an accessor the climb finds the property around it, if there is one, and stops. -/
theorem ownersAbove_accessor (steps : Nat) (face : host.faceOf s = .ok (s, kind, name))
    (accessor : kind.isAccessor = true) :
    (host.ownersAbove (steps + 2) s kind >>= host.writtenOnAll target) =
      host.fromProperty target s := by
  have howner : host.ownerFace s kind = host.parentFace s :=
    if_pos (Session.hasOwner_of_isAccessor accessor)
  rw [ownersAbove, howner, fromProperty, bind_assoc]
  refine bind_congr_of_ok fun o hparent ↦ ?_
  cases o with
  | none => rfl
  | some shown =>
    obtain ⟨p, kind', name'⟩ := shown
    rcases keeps.parent face hparent with rfl | ⟨property, -⟩
    · rfl
    · have property := property accessor
      have stops : host.ownersAbove (steps + 1) p kind' = .ok [] := by
        have unowned : Session.hasOwner kind' = false := by
          revert property
          cases kind' <;> decide
        rw [ownersAbove, ownerFace, unowned]
        rfl
      show ((if kind'.isAccessor || kind'.isPropertyLike then _ else _) >>= _) =
        if kind'.isPropertyLike then _ else _
      rw [property, Bool.or_true, if_pos rfl, if_pos rfl, stops]
      exact writtenOnAll_singleton target p

/-- From a value parameter it finds the setter around it, if there is one, and the property around
that, and stops. -/
theorem ownersAbove_parameter (steps : Nat)
    (face : host.faceOf s = .ok (s, .valueParameter, name)) :
    (host.ownersAbove (steps + 3) s .valueParameter >>= host.writtenOnAll .setParam) =
      .ok inherited ↔ host.fromSetter s = .ok inherited := by
  have howner : host.ownerFace s .valueParameter = host.parentFace s := rfl
  rw [ownersAbove, howner, fromSetter, bind_assoc, bind_eq_ok, bind_eq_ok]
  refine exists_congr fun o ↦ and_congr_right fun hparent ↦ ?_
  cases o with
  | none => exact Iff.rfl
  | some shown =>
    obtain ⟨p, kind', name'⟩ := shown
    rcases keeps.parent face hparent with rfl | ⟨-, lies⟩
    · exact Iff.rfl
    · rcases lies rfl with rfl | rfl
      · exact Iff.rfl
      · -- the climb is at the property before it reads what is written on the setter
        have above : (host.ownersAbove (steps + 2) p .setter >>= host.writtenOnAll .setParam) =
            host.fromProperty .setParam p :=
          keeps.ownersAbove_accessor steps (of_parentFace hparent).2 rfl
        refine writtenOnAll_cons_eq_ok_iff.trans ?_
        rw [above]
        exact append_eq_ok_iff.symm

/-- **Both ways find the same**, or else both fail. -/
theorem annotationsFor_eq_ok_iff (face : host.faceOf s = .ok (s, kind, name))
    (implied : Session.impliedTarget kind = some target) :
    host.annotationsFor target s kind = .ok all ↔ ∃ own inherited,
      host.writtenFor target s = .ok own ∧ host.useSiteAnnotations s kind = .ok inherited ∧
        all = own ++ inherited := by
  have lands : Session.landsOn kind target = true := by
    revert implied
    cases kind <;> cases target <;> decide
  obtain ⟨steps, hsteps⟩ : ∃ steps, SymbolId.count = steps + 3 := ⟨4294967293, rfl⟩
  have climb {inherited : List Annotations.Projected} :
      (host.ownersAbove SymbolId.count s kind >>= host.writtenOnAll target) = .ok inherited ↔
        host.useSiteAnnotations s kind = .ok inherited := by
    rw [hsteps]
    rcases Session.impliedTarget_cases implied with accessor | ⟨rfl, rfl⟩
    · rw [keeps.ownersAbove_accessor (steps + 1) face accessor,
        useSiteAnnotations_of_isAccessor accessor implied]
    · exact keeps.ownersAbove_parameter steps face
  rw [annotationsFor, if_pos lands, owners]
  refine writtenOnAll_cons_eq_ok_iff.trans ?_
  simp only [climb]

end KeepsContainment

end Host

/-! ### Tables -/

namespace SymbolTable

variable {table : SymbolTable}

/-- Whether what is known of a symbol keeps to the containment that is documented. -/
def keeps (table : SymbolTable) (r : SymbolRecord) : Bool :=
  r.container.all (fun c ↦ (table.record c).toOption.all fun q ↦ r.kind.mayLieIn q.kind) &&
    r.file.all fun f ↦ (table.record f).toOption.all fun q ↦ q.kind == .file

theorem keepsContainment (h : ∀ r ∈ table.symbols, table.keeps r = true) :
    table.toHost.KeepsContainment := by
  have ofRecord {s : SymbolId} {r : SymbolRecord} (hr : table.record s = .ok r) :=
    Bool.and_eq_true_iff.mp (h r (Array.mem_of_getElem? (record_eq_ok.mp hr)))
  constructor
  case container =>
    intro s c kind kind' hs hc hkind
    obtain ⟨r, hr, rfl⟩ := map_eq_ok.mp hs
    obtain ⟨r', hr', around⟩ := map_eq_ok.mp hc
    obtain ⟨q, hq, rfl⟩ := map_eq_ok.mp hkind
    cases hr.symm.trans hr'
    have kept := (ofRecord hr).1
    rw [around, Option.all_some, hq] at kept
    exact kept
  case file =>
    intro s f kind hs hkind
    obtain ⟨r, hr, inFile⟩ := map_eq_ok.mp hs
    obtain ⟨q, hq, rfl⟩ := map_eq_ok.mp hkind
    have kept := (ofRecord hr).2
    rw [inFile, Option.all_some, hq] at kept
    exact beq_iff_eq.mp kept

theorem built_sampleSetter : Built sampleSetter := by
  dsimp only [sampleSetter, List.foldl_cons, List.foldl_nil]
  refine .edit (.edit (.edit (.edit .empty ?_) ?_) ?_) ?_ <;> decide

end SymbolTable

/-! ## The agreement -/

namespace Session

/-- **The two ways agree.**  On a host that keeps to the documented containment, a getter, a setter
or a value parameter is asked for the annotations with the target of its kind.  If nothing fails on
the way up from it, they are those written on it and then those that reach it from what it lies in.
An accessor is reached by what is written on the property around it.  Nothing reaches a value
parameter that lies in anything but a setter; the parameter of a setter is reached by what is
written on the setter and then by what is written on the property around that. -/
theorem ask_annotationsFor_eq_append (id : SessionId) (config : SessionConfig) {host : Host}
    (keeps : host.KeepsContainment) (history : List Query) {d : Declaration}
    (hd : d ∈ ((start id config).after host history).declarations) {target : UseSiteTarget}
    (implied : impliedTarget d.kind = some target)
    (clear : ∀ p, ReflTransGen host.OwnedBy d.symbol p → host.Clear target p) :
    ∃ own inherited, host.writtenFor target d.symbol = .ok own ∧
      (((start id config).after host history).ask host (.useSiteAnnotations d)).1 =
        .ok (.annotations inherited) ∧
      (((start id config).after host history).ask host (.annotationsFor target d)).1 =
        .ok (.annotations (own ++ inherited)) ∧
      (d.kind.isAccessor = true → host.fromProperty target d.symbol = .ok inherited) ∧
      (d.kind = .valueParameter →
        (∀ setter name, host.parentFace d.symbol ≠ .ok (some (setter, .setter, name))) →
        inherited = []) ∧
      (d.kind = .valueParameter → ∀ setter name,
        host.parentFace d.symbol = .ok (some (setter, .setter, name)) →
        ∃ onSetter onProperty, host.writtenFor .setParam setter = .ok onSetter ∧
          host.fromProperty .setParam setter = .ok onProperty ∧
          inherited = onSetter ++ onProperty) := by
  have hS := steady_after id config host history
  have face : host.faceOf d.symbol = .ok (d.symbol, d.kind, d.name) := hS.agrees.shows d hd
  obtain ⟨own, hown⟩ := Host.Clear.exists_writtenFor clear
  obtain ⟨inherited, huse⟩ := Host.Clear.exists_useSiteAnnotations clear face implied
  have all : host.annotationsFor target d.symbol d.kind = .ok (own ++ inherited) :=
    (keeps.annotationsFor_eq_ok_iff face implied).mpr ⟨own, inherited, hown, huse, rfl⟩
  refine ⟨own, inherited, hown, ?_, ?_, fun accessor ↦ ?_, fun parameter noSetter ↦ ?_,
    fun parameter setter name inSetter ↦ ?_⟩
  · rw [hS.ask_useSiteAnnotations hd, huse]
    rfl
  · rw [hS.ask_annotationsFor hd, all]
    rfl
  · rwa [← Host.useSiteAnnotations_of_isAccessor accessor implied]
  · rw [parameter] at huse
    exact Host.eq_nil_of_fromSetter noSetter huse
  · rw [parameter] at huse
    exact (Host.fromSetter_of_setter inSetter).mp huse

/-- What reaches the parameter of a setter, in a session that has been asked about it before. -/
theorem ask_annotationsFor_eq_append_sample : ∃ own inherited,
    SymbolTable.sampleSetter.toHost.writtenFor .setParam ⟨3⟩ = .ok own ∧
    (((start ⟨0⟩ {}).after SymbolTable.sampleSetter.toHost [.adapter ⟨3⟩]).ask
      SymbolTable.sampleSetter.toHost (.useSiteAnnotations
        ⟨⟨3⟩, .valueParameter, some "value", ⟨0⟩, 0⟩)).1 = .ok (.annotations inherited) ∧
    (((start ⟨0⟩ {}).after SymbolTable.sampleSetter.toHost [.adapter ⟨3⟩]).ask
      SymbolTable.sampleSetter.toHost (.annotationsFor .setParam
        ⟨⟨3⟩, .valueParameter, some "value", ⟨0⟩, 0⟩)).1 = .ok (.annotations (own ++ inherited)) ∧
    inherited.map (·.classId.relative) = [["OnSetter"], ["OnProperty"]] := by
  have built := SymbolTable.built_sampleSetter
  have fits : SymbolTable.sampleSetter.symbols.size ≤ SymbolId.count := by decide
  have understood : ∀ r ∈ SymbolTable.sampleSetter.symbols, r.isUnderstood = true := by decide
  have keeps : SymbolTable.sampleSetter.toHost.KeepsContainment :=
    SymbolTable.keepsContainment (by decide)
  have serves := (built.wellFormed fits).serves understood
  have known : SymbolTable.sampleSetter.Knows ⟨3⟩ := by decide
  obtain ⟨own, inherited, hown, huse, hall, -, -, inSetter⟩ :=
    ask_annotationsFor_eq_append ⟨0⟩ {} keeps [.adapter ⟨3⟩]
      (d := ⟨⟨3⟩, .valueParameter, some "value", ⟨0⟩, 0⟩) (by decide) rfl
      fun p hp ↦ serves.clear known hp
  obtain ⟨onSetter, onProperty, hs, hp, rfl⟩ := inSetter rfl ⟨2⟩ none rfl
  refine ⟨own, _, hown, huse, hall, ?_⟩
  cases hs
  cases hp
  rfl

end Session
end SymbolView
