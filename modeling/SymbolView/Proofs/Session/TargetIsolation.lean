import SymbolView.Proofs.Session.Relays

/-!
# Annotations stay with their use-site target

The answer about annotations with one target is put together from lists that hold annotations with
other targets as well, some of them of forms that cannot be written.  None of those shows in the
answer, not even as a fault.  This file compares two hosts that differ in nothing but the
annotations written on symbols: where they have the same annotations with a target, in the same
order, or refuse to tell in the same way (`Host.SameFor`), their sessions give the same answer.
`Session.ask_annotationsFor_isolated` says so in full.

* A list of annotations is read only through its part with the target, which is taken before
  anything is written: `Host.writtenFor_congr`.
* The climb to the owners reads no annotations: `Host.ownersAbove_withAnnotations`.  So it is the
  same climb on both hosts, and only the symbols on it have to agree: `Host.annotationsFor_congr`.
-/

set_option autoImplicit false

namespace SymbolView

open Relation

/-! ## Lists of annotations -/

namespace Annotations

/-- The applications recorded with a use-site target, in order. -/
def recordedFor (target : UseSiteTarget) (applications : List Application) : List Application :=
  applications.filter (·.target == some target)

theorem target_of_project {a : Application} {p : Projected} (h : a.project = .ok p) :
    p.target = a.target := by
  obtain ⟨arguments, -, h⟩ := bind_eq_ok.mp h
  obtain ⟨text, -, h⟩ := bind_eq_ok.mp h
  cases h
  rfl

theorem target_of_mem_projectFor {target : UseSiteTarget} {applications : List Application}
    {as : List Projected} (h : projectFor target applications = .ok as) {p : Projected}
    (hp : p ∈ as) : p.target = some target := by
  obtain ⟨a, ha, hproject⟩ := exists_of_mem_mapM h hp
  rw [target_of_project hproject]
  exact beq_iff_eq.mp (List.mem_filter.mp ha).2

end Annotations

/-! ## Two hosts -/

namespace Host

/-- The host with other annotations on its symbols. -/
def withAnnotations (host : Host)
    (others : SymbolId → Except HostError (List Annotations.Application)) : Host :=
  { host with annotations := others }

/-- Whether a host and other annotations agree, for one symbol, in the annotations recorded with a
target, or else in the refusal to tell them. -/
def SameFor (host : Host) (others : SymbolId → Except HostError (List Annotations.Application))
    (target : UseSiteTarget) (s : SymbolId) : Prop :=
  Annotations.recordedFor target <$> host.annotations s =
    Annotations.recordedFor target <$> others s

variable {host : Host} {others : SymbolId → Except HostError (List Annotations.Application)}
  {target : UseSiteTarget} {s : SymbolId} {kind : DeclarationKind} {name : Option String}
  {as : List Annotations.Projected}

theorem ownerFace_withAnnotations (s : SymbolId) (kind : DeclarationKind) :
    (host.withAnnotations others).ownerFace s kind = host.ownerFace s kind := rfl

theorem parentFace_withAnnotations (s : SymbolId) :
    (host.withAnnotations others).parentFace s = host.parentFace s := rfl

/-- The climb reads no annotations. -/
theorem ownersAbove_withAnnotations (steps : Nat) (s : SymbolId) (kind : DeclarationKind) :
    (host.withAnnotations others).ownersAbove steps s kind = host.ownersAbove steps s kind := by
  induction steps generalizing s kind with
  | zero => rfl
  | succ steps ih => simp only [ownersAbove, ownerFace_withAnnotations, ih]

/-- Of a list of annotations only the part with the target is read. -/
theorem writtenFor_eq (host : Host) (target : UseSiteTarget) (s : SymbolId) :
    host.writtenFor target s =
      (do let recorded ← (Annotations.recordedFor target <$> host.annotations s).mapError .ofHost
          (Annotations.project recorded).mapError .fault) := by
  rw [writtenFor]
  cases host.annotations s <;> rfl

theorem writtenFor_congr (h : host.SameFor others target s) :
    host.writtenFor target s = (host.withAnnotations others).writtenFor target s := by
  rw [writtenFor_eq, writtenFor_eq]
  exact congrArg (fun r ↦ do
    let recorded ← r.mapError Failure.ofHost
    (Annotations.project recorded).mapError Failure.fault) h

theorem writtenOnAll_congr {l : List SymbolId} (h : ∀ s ∈ l, host.SameFor others target s) :
    host.writtenOnAll target l = (host.withAnnotations others).writtenOnAll target l := by
  induction l with
  | nil => rfl
  | cons s l ih =>
    rw [writtenOnAll, writtenOnAll, writtenFor_congr (h s (.head _)),
      ih fun t ht ↦ h t (.tail _ ht)]

/-- **Only the symbols on the climb have to agree.** -/
theorem annotationsFor_congr (face : host.faceOf s = .ok (s, kind, name))
    (h : ∀ p, ReflTransGen host.OwnedBy s p → host.SameFor others target p) :
    host.annotationsFor target s kind =
      (host.withAnnotations others).annotationsFor target s kind := by
  rw [annotationsFor, annotationsFor, owners, owners, ownersAbove_withAnnotations]
  split
  · refine bind_congr_of_ok fun l hl ↦ writtenOnAll_congr fun p hp ↦ h p ?_
    obtain ⟨above, habove, hl⟩ := bind_eq_ok.mp hl
    cases hl
    rcases List.mem_cons.mp hp with rfl | hp
    · exact .refl
    · exact (mem_ownersAbove face habove hp).to_reflTransGen
  · refine writtenOnAll_congr fun p hp ↦ ?_
    rw [List.mem_singleton.mp hp]
    exact h s .refl

/-- Where the target does not land, the owners do not matter. -/
theorem annotationsFor_congr_of_not_landsOn (lands : Session.landsOn kind target = false)
    (h : host.SameFor others target s) :
    host.annotationsFor target s kind =
      (host.withAnnotations others).annotationsFor target s kind := by
  rw [annotationsFor, annotationsFor, lands]
  refine writtenOnAll_congr fun p hp ↦ ?_
  rwa [List.mem_singleton.mp hp]

/-- What reaches a symbol from the property around it depends on the owners only. -/
theorem fromProperty_congr (face : host.faceOf s = .ok (s, kind, name))
    (owned : Session.hasOwner kind = true)
    (h : ∀ p, TransGen host.OwnedBy s p → host.SameFor others target p) :
    host.fromProperty target s = (host.withAnnotations others).fromProperty target s := by
  rw [fromProperty, fromProperty, parentFace_withAnnotations]
  refine bind_congr_of_ok fun o hparent ↦ ?_
  cases o with
  | none => rfl
  | some shown =>
    obtain ⟨p, kind', name'⟩ := shown
    show (if kind'.isPropertyLike then _ else _) = if kind'.isPropertyLike then _ else _
    split
    next property =>
      have hp : host.OwnedBy s p := ⟨kind, name, kind', name', face,
        (if_pos owned).trans hparent, by rw [property, Bool.or_true]⟩
      exact writtenFor_congr (h p (.single hp))
    next => rfl

/-- What reaches a value parameter from its setter and the property of that depends on the owners
only. -/
theorem fromSetter_congr (face : host.faceOf s = .ok (s, .valueParameter, name))
    (h : ∀ p, TransGen host.OwnedBy s p → host.SameFor others .setParam p) :
    host.fromSetter s = (host.withAnnotations others).fromSetter s := by
  rw [fromSetter, fromSetter, parentFace_withAnnotations]
  refine bind_congr_of_ok fun o hparent ↦ ?_
  cases o with
  | none => rfl
  | some shown =>
    obtain ⟨p, kind', name'⟩ := shown
    show (if kind' = .setter then _ else _) = if kind' = .setter then _ else _
    split
    next setter =>
      subst setter
      have hp : host.OwnedBy s p := ⟨_, _, _, _, face, hparent, rfl⟩
      rw [writtenFor_congr (h p (.single hp)),
        fromProperty_congr (of_parentFace hparent).2 rfl fun q hq ↦ h q (.head hp hq)]
    next => rfl

theorem useSiteAnnotations_congr (face : host.faceOf s = .ok (s, kind, name))
    (implied : Session.impliedTarget kind = some target)
    (h : ∀ p, TransGen host.OwnedBy s p → host.SameFor others target p) :
    host.useSiteAnnotations s kind = (host.withAnnotations others).useSiteAnnotations s kind := by
  rcases Session.impliedTarget_cases implied with accessor | ⟨rfl, rfl⟩
  · rw [useSiteAnnotations_of_isAccessor accessor implied,
      useSiteAnnotations_of_isAccessor accessor implied]
    exact fromProperty_congr face (Session.hasOwner_of_isAccessor accessor) h
  · exact fromSetter_congr face h

/-! ## What is answered -/

theorem target_of_mem_writtenFor (h : host.writtenFor target s = .ok as)
    {a : Annotations.Projected} (ha : a ∈ as) : a.target = some target := by
  obtain ⟨applications, -, h⟩ := bind_eq_ok.mp h
  exact Annotations.target_of_mem_projectFor (mapError_eq_ok.mp h) ha

theorem target_of_mem_writtenOnAll {l : List SymbolId} (h : host.writtenOnAll target l = .ok as)
    {a : Annotations.Projected} (ha : a ∈ as) : a.target = some target := by
  induction l generalizing as with
  | nil =>
    cases h
    cases ha
  | cons s l ih =>
    obtain ⟨own, hown, h⟩ := bind_eq_ok.mp h
    obtain ⟨rest, hrest, h⟩ := bind_eq_ok.mp h
    cases h
    rcases List.mem_append.mp ha with ha | ha
    · exact target_of_mem_writtenFor hown ha
    · exact ih hrest ha

/-- What is written on a symbol itself comes first. -/
theorem prefix_of_writtenOnAll {l : List SymbolId}
    (h : host.writtenOnAll target (s :: l) = .ok as) :
    ∃ applications own, host.annotations s = .ok applications ∧
      Annotations.projectFor target applications = .ok own ∧ own <+: as := by
  obtain ⟨own, hown, h⟩ := bind_eq_ok.mp h
  obtain ⟨rest, -, h⟩ := bind_eq_ok.mp h
  obtain ⟨applications, written, projected⟩ := bind_eq_ok.mp hown
  cases h
  exact ⟨applications, own, mapError_eq_ok.mp written, mapError_eq_ok.mp projected,
    List.prefix_append own rest⟩

/-- An answer is what is written on the symbol and on some above. -/
theorem exists_writtenOnAll (h : host.annotationsFor target s kind = .ok as) :
    ∃ above, host.writtenOnAll target (s :: above) = .ok as := by
  rw [annotationsFor] at h
  split at h
  · obtain ⟨l, hl, h⟩ := bind_eq_ok.mp h
    obtain ⟨above, -, hl⟩ := bind_eq_ok.mp hl
    cases hl
    exact ⟨above, h⟩
  · exact ⟨[], h⟩

end Host

namespace Session

variable {host : Host} {others : SymbolId → Except HostError (List Annotations.Application)}

/-- **Annotations stay with their use-site target.**  Two sessions over hosts that differ only in
the annotations on symbols are asked about one symbol.  They end alike when asked for the
annotations with a target, if the hosts agree in those with that target on the symbol and on all
owners it has; on the symbol alone is enough where the target does not land.  All annotations in the
answer are recorded with the target, and those on the symbol itself come first.  What reaches the
symbol from its owners depends on what is written there with the one target that its kind
implies. -/
theorem ask_annotationsFor_isolated (id id' : SessionId) (config config' : SessionConfig)
    (history history' : List Query) {d d' : Declaration}
    (hd : d ∈ ((start id config).after host history).declarations)
    (hd' : d' ∈ ((start id' config').after (host.withAnnotations others) history').declarations)
    (same : d.symbol = d'.symbol) (target : UseSiteTarget) :
    ((∀ p, ReflTransGen host.OwnedBy d.symbol p → host.SameFor others target p) →
      (((start id config).after host history).ask host (.annotationsFor target d)).1 =
        (((start id' config').after (host.withAnnotations others) history').ask
          (host.withAnnotations others) (.annotationsFor target d')).1) ∧
    ((d.kind, target) ∉ [(.getter, .get), (.getter, .field), (.setter, .set), (.setter, .setParam),
        (.valueParameter, .setParam)] → host.SameFor others target d.symbol →
      (((start id config).after host history).ask host (.annotationsFor target d)).1 =
        (((start id' config').after (host.withAnnotations others) history').ask
          (host.withAnnotations others) (.annotationsFor target d')).1) ∧
    (∀ as, (((start id config).after host history).ask host (.annotationsFor target d)).1 =
        .ok (.annotations as) → (∀ a ∈ as, a.target = some target) ∧
      ∃ applications own, host.annotations d.symbol = .ok applications ∧
        Annotations.projectFor target applications = .ok own ∧ own <+: as) ∧
    (impliedTarget d.kind = some target →
      (∀ p, TransGen host.OwnedBy d.symbol p → host.SameFor others target p) →
      (((start id config).after host history).ask host (.useSiteAnnotations d)).1 =
        (((start id' config').after (host.withAnnotations others) history').ask
          (host.withAnnotations others) (.useSiteAnnotations d')).1) := by
  have hS := steady_after id config host history
  have hS' := steady_after id' config' (host.withAnnotations others) history'
  have face : host.faceOf d.symbol = .ok (d.symbol, d.kind, d.name) := hS.agrees.shows d hd
  have face' : host.faceOf d.symbol = .ok d'.face := same ▸ hS'.agrees.shows d' hd'
  have kind : d.kind = d'.kind := congrArg (·.2.1) (Except.ok.inj (face.symm.trans face'))
  rw [hS.ask_annotationsFor hd, hS'.ask_annotationsFor hd', hS.ask_useSiteAnnotations hd,
    hS'.ask_useSiteAnnotations hd', ← same, ← kind]
  refine ⟨fun h ↦ ?_, fun elsewhere h ↦ ?_, fun as has ↦ ?_, fun implied h ↦ ?_⟩
  · rw [Host.annotationsFor_congr face h]
  · have lands : landsOn d.kind target = false := by
      revert elsewhere
      cases d.kind <;> cases target <;> decide
    rw [Host.annotationsFor_congr_of_not_landsOn lands h]
  · cases hall : host.annotationsFor target d.symbol d.kind with
    | error e =>
      rw [hall] at has
      cases has
    | ok all =>
      rw [hall] at has
      cases has
      obtain ⟨above, h⟩ := Host.exists_writtenOnAll hall
      exact ⟨fun a ha ↦ Host.target_of_mem_writtenOnAll h ha, Host.prefix_of_writtenOnAll h⟩
  · rw [Host.useSiteAnnotations_congr face implied h]

/-- Annotations on the symbols of a small table that have one more each, which cannot be written and
is for getters. -/
def sampleNoise (s : SymbolId) : Except HostError (List Annotations.Application) :=
  (· ++ [⟨⟨["shop"], ["Noise"], false⟩, some .get, [⟨"value", .unsupported "lambda"⟩]⟩]) <$>
    SymbolTable.sampleSetter.toHost.annotations s

/-- What cannot be written shows to those who ask for annotations for getters, and not to those who
ask for those of the parameter of a setter. -/
theorem ask_annotationsFor_isolated_sample :
    (((start ⟨0⟩ {}).after SymbolTable.sampleSetter.toHost [.adapter ⟨3⟩]).ask
        SymbolTable.sampleSetter.toHost
        (.annotationsFor .setParam ⟨⟨3⟩, .valueParameter, some "value", ⟨0⟩, 0⟩)).1 =
      (((start ⟨1⟩ {}).after (SymbolTable.sampleSetter.toHost.withAnnotations sampleNoise)
          [.adapter ⟨1⟩, .adapter ⟨3⟩]).ask
        (SymbolTable.sampleSetter.toHost.withAnnotations sampleNoise)
        (.annotationsFor .setParam ⟨⟨3⟩, .valueParameter, some "value", ⟨1⟩, 1⟩)).1 ∧
    (((start ⟨1⟩ {}).after (SymbolTable.sampleSetter.toHost.withAnnotations sampleNoise)
        [.adapter ⟨1⟩]).ask (SymbolTable.sampleSetter.toHost.withAnnotations sampleNoise)
      (.annotationsFor .get ⟨⟨1⟩, .property, some "size", ⟨1⟩, 0⟩)).1 =
        .error (.fault (.unsupportedValue "lambda")) := by
  have agree (s : SymbolId) :
      SymbolTable.sampleSetter.toHost.SameFor sampleNoise .setParam s := by
    rw [Host.SameFor, sampleNoise]
    cases SymbolTable.sampleSetter.toHost.annotations s with
    | error e => rfl
    | ok applications => exact congrArg Except.ok (by simp [Annotations.recordedFor])
  have hd : ⟨⟨3⟩, .valueParameter, some "value", ⟨0⟩, 0⟩ ∈
      ((start ⟨0⟩ {}).after SymbolTable.sampleSetter.toHost [.adapter ⟨3⟩]).declarations := by
    decide
  have hd' : ⟨⟨3⟩, .valueParameter, some "value", ⟨1⟩, 1⟩ ∈
      ((start ⟨1⟩ {}).after (SymbolTable.sampleSetter.toHost.withAnnotations sampleNoise)
        [.adapter ⟨1⟩, .adapter ⟨3⟩]).declarations := by
    decide
  have isolated := ask_annotationsFor_isolated ⟨0⟩ ⟨1⟩ {} {} _ _ hd hd' rfl .setParam
  exact ⟨isolated.1 fun p _ ↦ agree p, rfl⟩

end Session
end SymbolView
