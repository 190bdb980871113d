import SymbolView.Proofs.Session.Settled

/-!
# Where the annotations of a declaration come from

A session answers a question about annotations from what its adapters show and from what the host
says at the time, and it keeps none of it.  So the answer is a function of the host.  This file
writes that function down, with symbols in place of adapters: `Host.annotationsFor` and
`Host.useSiteAnnotations`.

`Host.OwnedBy` says from which symbols annotations may reach a symbol in one step.  The symbols that
are reached in such steps are all that matters: a climb meets no others (`Host.mem_ownersAbove`),
and if nothing fails at any of them (`Host.Clear`) there is an answer
(`Host.Clear.exists_useSiteAnnotations`).
-/

set_option autoImplicit false

namespace SymbolView

open Relation

/-! ## What the host says -/

namespace Host

variable (host : Host)

/-- What the adapter of the parent of a symbol would show. -/
def parentFace (s : SymbolId) : Except Failure (Option Face) := do
  match ← (host.parentOf s).mapError Failure.ofHost with
  | none => return none
  | some p => some <$> host.faceOf p

/-- The annotations written on a symbol with a use-site target. -/
def writtenFor (target : UseSiteTarget) (s : SymbolId) :
    Except Failure (List Annotations.Projected) := do
  let written ← (host.annotations s).mapError Failure.ofHost
  (Annotations.projectFor target written).mapError Failure.fault

/-- The annotations with a use-site target that are written on symbols, one after the other. -/
def writtenOnAll (target : UseSiteTarget) :
    List SymbolId → Except Failure (List Annotations.Projected)
  | [] => return []
  | s :: rest => do
    let own ← host.writtenFor target s
    return own ++ (← writtenOnAll target rest)

/-- What annotations reach a symbol of a kind from. -/
def ownerFace (s : SymbolId) (kind : DeclarationKind) : Except Failure (Option Face) :=
  if Session.hasOwner kind then host.parentFace s else return none

/-- The accessor and the property around a symbol, in a climb of so many steps at most. -/
def ownersAbove : Nat → SymbolId → DeclarationKind → Except Failure (List SymbolId)
  | 0, _, _ => throw .endless
  | steps + 1, s, kind => do
    match ← host.ownerFace s kind with
    | none => return []
    | some (p, kind, _) =>
      if kind.isAccessor || kind.isPropertyLike then return p :: (← ownersAbove steps p kind)
      else return []

/-- The symbol, then the accessor and the property around it. -/
def owners (s : SymbolId) (kind : DeclarationKind) : Except Failure (List SymbolId) :=
  return s :: (← host.ownersAbove SymbolId.count s kind)

/-- The annotations with a use-site target that belong to a symbol of a kind. -/
def annotationsFor (target : UseSiteTarget) (s : SymbolId) (kind : DeclarationKind) :
    Except Failure (List Annotations.Projected) :=
  if Session.landsOn kind target then do
    let all ← host.owners s kind
    host.writtenOnAll target all
  else host.writtenOnAll target [s]

/-- The annotations with a use-site target that are written on the property around an accessor. -/
def fromProperty (target : UseSiteTarget) (s : SymbolId) :
    Except Failure (List Annotations.Projected) := do
  match ← host.parentFace s with
  | none => return []
  | some (p, kind, _) => if kind.isPropertyLike then host.writtenFor target p else return []

/-- The annotations that reach a value parameter from its setter and the property of that. -/
def fromSetter (s : SymbolId) : Except Failure (List Annotations.Projected) := do
  match ← host.parentFace s with
  | none => return []
  | some (setter, kind, _) =>
    if kind = .setter then
      let own ← host.writtenFor .setParam setter
      return own ++ (← host.fromProperty .setParam setter)
    else return []

/-- The annotations that reach a symbol of a kind from what it lies in. -/
def useSiteAnnotations (s : SymbolId) :
    DeclarationKind → Except Failure (List Annotations.Projected)
  | .getter => host.fromProperty .get s
  | .setter => host.fromProperty .set s
  | .valueParameter => host.fromSetter s
  | _ => return []

end Host

/-- The use-site target of the annotations that reach declarations of a kind from what they lie
in. -/
def Session.impliedTarget : DeclarationKind → Option UseSiteTarget
  | .getter => some .get
  | .setter => some .set
  | .valueParameter => some .setParam
  | _ => none

section Implied

variable {host : Host} {kind : DeclarationKind} {target : UseSiteTarget}

theorem Session.hasOwner_of_isAccessor (h : kind.isAccessor = true) :
    Session.hasOwner kind = true := by
  rw [hasOwner, h, Bool.or_true]

theorem Session.impliedTarget_cases (implied : Session.impliedTarget kind = some target) :
    kind.isAccessor = true ∨ kind = .valueParameter ∧ target = .setParam := by
  cases kind with
  | getter => exact .inl rfl
  | setter => exact .inl rfl
  | valueParameter =>
    cases implied
    exact .inr ⟨rfl, rfl⟩
  | _ => cases implied

/-- An accessor is reached from the property around it. -/
theorem Host.useSiteAnnotations_of_isAccessor (accessor : kind.isAccessor = true)
    (implied : Session.impliedTarget kind = some target) (s : SymbolId) :
    host.useSiteAnnotations s kind = host.fromProperty target s := by
  cases kind with
  | getter =>
    cases implied
    rfl
  | setter =>
    cases implied
    rfl
  | _ => cases accessor

end Implied

/-! ## Owners -/

namespace Host

variable (host : Host)

/-- Whether annotations may reach a symbol from another directly: they reach symbols of its kind
from what they lie in, and it lies in the other, which is an accessor or exposed like a property. -/
def OwnedBy (s p : SymbolId) : Prop :=
  ∃ kind name kind' name', host.faceOf s = .ok (s, kind, name) ∧
    host.ownerFace s kind = .ok (some (p, kind', name')) ∧
    (kind'.isAccessor || kind'.isPropertyLike) = true

variable {host} {s p : SymbolId} {kind kind' : DeclarationKind} {name name' : Option String}

theorem symbol_of_faceOf {face : Face} (h : host.faceOf s = .ok face) : face.1 = s := by
  obtain ⟨_, -, h⟩ := bind_eq_ok.mp h
  cases h
  rfl

/-- The parent is shown as the host shows it. -/
theorem of_parentFace (h : host.parentFace s = .ok (some (p, kind, name))) :
    host.parentOf s = .ok (some p) ∧ host.faceOf p = .ok (p, kind, name) := by
  obtain ⟨o, ho, h⟩ := bind_eq_ok.mp h
  cases o with
  | none => cases h
  | some q =>
    obtain ⟨face, hface, h⟩ := bind_eq_ok.mp h
    cases h
    obtain rfl : p = q := symbol_of_faceOf hface
    exact ⟨mapError_eq_ok.mp ho, hface⟩

theorem face_of_ownerFace (h : host.ownerFace s kind = .ok (some (p, kind', name'))) :
    host.faceOf p = .ok (p, kind', name') := by
  rw [ownerFace] at h
  split at h
  · exact (of_parentFace h).2
  · cases h

/-- A climb meets only symbols that annotations may reach the first one from. -/
theorem mem_ownersAbove {steps : Nat} {above : List SymbolId}
    (face : host.faceOf s = .ok (s, kind, name)) (h : host.ownersAbove steps s kind = .ok above)
    (hp : p ∈ above) : TransGen host.OwnedBy s p := by
  induction steps generalizing s kind name above with
  | zero => cases h
  | succ steps ih =>
    obtain ⟨o, howner, h⟩ := bind_eq_ok.mp h
    cases o with
    | none =>
      cases h
      cases hp
    | some shown =>
      obtain ⟨q, kind', name'⟩ := shown
      change (if kind'.isAccessor || kind'.isPropertyLike then _ else _) = _ at h
      split at h
      next climbs =>
        obtain ⟨rest, hrest, h⟩ := bind_eq_ok.mp h
        cases h
        have owned : host.OwnedBy s q := ⟨kind, name, kind', name', face, howner, climbs⟩
        rcases List.mem_cons.mp hp with rfl | hp
        · exact .single owned
        · exact .head owned (ih (face_of_ownerFace howner) hrest hp)
      next =>
        cases h
        cases hp

end Host

/-! ## What does not fail -/

/-- Whether nothing fails that is asked about a symbol in search of annotations with a target. -/
structure Host.Clear (host : Host) (target : UseSiteTarget) (s : SymbolId) : Prop where
  /-- Its annotations are told, and those with the target hold no unsupported value. -/
  written : ∃ applications, host.annotations s = .ok applications ∧
    ∀ a ∈ applications, a.target = some target → a.isSupported = true
  /-- What it lies in is told, if annotations may reach it from there. -/
  owner : ∀ {kind name}, host.faceOf s = .ok (s, kind, name) → ∃ o, host.ownerFace s kind = .ok o

namespace Host

variable {host : Host} {target : UseSiteTarget} {s p : SymbolId} {kind : DeclarationKind}
  {name : Option String} {all : List Annotations.Projected}

theorem append_eq_ok_iff {x y : Except Failure (List Annotations.Projected)} :
    (do let own ← x; return own ++ (← y)) = .ok all ↔
      ∃ own others, x = .ok own ∧ y = .ok others ∧ all = own ++ others := by
  constructor
  · intro h
    obtain ⟨own, hown, h⟩ := bind_eq_ok.mp h
    obtain ⟨others, hothers, h⟩ := bind_eq_ok.mp h
    cases h
    exact ⟨own, others, hown, hothers, rfl⟩
  · rintro ⟨own, others, rfl, rfl, rfl⟩
    rfl

namespace Clear

variable (clear : ∀ p, ReflTransGen host.OwnedBy s p → host.Clear target p)
include clear

theorem exists_writtenFor : ∃ own, host.writtenFor target s = .ok own := by
  obtain ⟨applications, written, supported⟩ := (clear s .refl).written
  obtain ⟨own, projected⟩ := Annotations.exists_projectFor target supported
  exact ⟨own, bind_eq_ok.mpr ⟨applications, mapError_eq_ok.mpr written,
    mapError_eq_ok.mpr projected⟩⟩

theorem exists_fromProperty (face : host.faceOf s = .ok (s, kind, name))
    (owned : Session.hasOwner kind = true) :
    ∃ others, host.fromProperty target s = .ok others := by
  obtain ⟨o, howner⟩ := (clear s .refl).owner face
  have hparent : host.parentFace s = .ok o := (if_pos owned).symm.trans howner
  rw [fromProperty, hparent]
  cases o with
  | none => exact ⟨[], rfl⟩
  | some shown =>
    obtain ⟨p, kind', name'⟩ := shown
    show ∃ others, (if kind'.isPropertyLike then _ else _) = _
    split
    next property =>
      have hp : host.OwnedBy s p :=
        ⟨kind, name, kind', name', face, howner, by rw [property, Bool.or_true]⟩
      exact exists_writtenFor fun q hq ↦ clear q (.head hp hq)
    next => exact ⟨[], rfl⟩

omit clear in
theorem exists_fromSetter
    (clear : ∀ p, ReflTransGen host.OwnedBy s p → host.Clear .setParam p)
    (face : host.faceOf s = .ok (s, .valueParameter, name)) :
    ∃ others, host.fromSetter s = .ok others := by
  obtain ⟨o, howner⟩ := (clear s .refl).owner face
  have hparent : host.parentFace s = .ok o := howner
  rw [fromSetter, hparent]
  cases o with
  | none => exact ⟨[], rfl⟩
  | some shown =>
    obtain ⟨p, kind', name'⟩ := shown
    show ∃ others, (if kind' = .setter then _ else _) = _
    split
    next setter =>
      subst setter
      have hp : host.OwnedBy s p := ⟨_, _, _, _, face, howner, rfl⟩
      have clear' : ∀ q, ReflTransGen host.OwnedBy p q → host.Clear .setParam q :=
        fun q hq ↦ clear q (.head hp hq)
      obtain ⟨own, hown⟩ := exists_writtenFor clear'
      obtain ⟨others, hothers⟩ := exists_fromProperty clear' (of_parentFace hparent).2 rfl
      exact ⟨own ++ others, append_eq_ok_iff.mpr ⟨own, others, hown, hothers, rfl⟩⟩
    next => exact ⟨[], rfl⟩

/-- If nothing fails on the way up, there is an answer. -/
theorem exists_useSiteAnnotations (face : host.faceOf s = .ok (s, kind, name))
    (implied : Session.impliedTarget kind = some target) :
    ∃ inherited, host.useSiteAnnotations s kind = .ok inherited := by
  rcases Session.impliedTarget_cases implied with accessor | ⟨rfl, rfl⟩
  · rw [useSiteAnnotations_of_isAccessor accessor implied]
    exact exists_fromProperty clear face (Session.hasOwner_of_isAccessor accessor)
  · exact exists_fromSetter clear face

end Clear

/-! ### Hosts that serve symbols -/

theorem Serves.ownerFace {known : SymbolId → Prop} (serves : host.Serves known) (hs : known s)
    (kind : DeclarationKind) :
    ∃ o, host.ownerFace s kind = .ok o ∧ ∀ face ∈ o, known face.1 := by
  rw [Host.ownerFace, parentFace]
  split
  · obtain ⟨o, hparent, ho⟩ := serves.parentOf hs
    rw [hparent]
    cases o with
    | none => exact ⟨none, rfl, nofun⟩
    | some p =>
      obtain ⟨kind, name, face⟩ := serves.faceOf (ho p rfl)
      refine ⟨some (p, kind, name), congrArg (some <$> ·) face, ?_⟩
      rintro _ ⟨⟩
      exact ho p rfl
  · exact ⟨none, rfl, nofun⟩

/-- A host that serves a symbol is clear on all the way up from there. -/
theorem Serves.clear {known : SymbolId → Prop} (serves : host.Serves known) (hs : known s)
    (hp : ReflTransGen host.OwnedBy s p) : host.Clear target p := by
  have known_p : known p := by
    induction hp with
    | refl => exact hs
    | tail _ owned ih =>
      obtain ⟨kind, -, kind', name', -, howner, -⟩ := owned
      obtain ⟨o, howner', ho⟩ := serves.ownerFace ih kind
      cases howner.symm.trans howner'
      exact ho _ rfl
  constructor
  case written =>
    obtain ⟨applications, written⟩ := (serves.answers known_p).annotations
    exact ⟨applications, written, fun a ha _ ↦ serves.supported known_p written ha⟩
  case owner =>
    intro kind _ _
    exact (serves.ownerFace known_p kind).imp fun _ h ↦ h.1

end Host

/-! ## A small table -/

namespace SymbolTable

/-- A property with a setter and the parameter of that, and annotations for the parameter on each of
the three. -/
def sampleSetter : SymbolTable :=
  let mark (name : String) (target : UseSiteTarget) : Annotations.Application :=
    ⟨⟨["shop"], [name], false⟩, some target, []⟩
  [ .addFile "shop/Cart.kt" none .kotlin,
    .declare .property (some "size")
      [.positioned ⟨⟨0⟩, 4⟩, .annotated (mark "OnProperty" .setParam),
        .annotated (mark "Other" .get)],
    .declare .propertySetter none
      [.placed .contained ⟨1⟩, .annotated (mark "OnSetter" .setParam)],
    .declare .valueParameter (some "value")
      [.placed .contained ⟨2⟩, .annotated (mark "Own" .setParam)] ].foldl edit empty

end SymbolTable
end SymbolView
