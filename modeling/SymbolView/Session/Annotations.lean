import SymbolView.Session.Parents

/-!
# Annotations of a declaration

An annotation that is written on a property with a use-site target, such as `@get:A`, belongs to an
accessor of the property.  Besides the annotations that are written on a declaration itself
(`annotations`), a session therefore knows those that reach it from the accessor or property it lies
in:

* `annotationsFor` takes all annotations with one target, from the declaration and from the accessor
  and property around it if annotations with that target land on it.
* `useSiteAnnotations` takes those from around it whose target follows from what it is.
* `resolvedAnnotations` are its own and then those.
-/

set_option autoImplicit false

namespace SymbolView
namespace Session

variable (host : Host)

/-- The annotations written on the declaration. -/
def annotations (d : Declaration) : SessionM (List Annotations.Projected) := do
  check d
  let written ← SessionM.ofHost (host.annotations d.symbol)
  SessionM.ofFault (Annotations.project written)

/-- The annotations written on a declaration with a use-site target. -/
def writtenFor (target : UseSiteTarget) (d : Declaration) :
    SessionM (List Annotations.Projected) := do
  let written ← SessionM.ofHost (host.annotations d.symbol)
  SessionM.ofFault (Annotations.projectFor target written)

/-- Whether annotations with that target, written around a declaration of that kind, land on it. -/
def landsOn : DeclarationKind → UseSiteTarget → Bool
  | .getter, .get => true
  | .getter, .field => true
  | .setter, .set => true
  | .setter, .setParam => true
  | .valueParameter, .setParam => true
  | _, _ => false

/-- Whether annotations reach declarations of the kind from what they lie in. -/
def hasOwner (kind : DeclarationKind) : Bool := kind == .valueParameter || kind.isAccessor

/-- What annotations reach the declaration from. -/
def owner (d : Declaration) : SessionM (Option Declaration) :=
  if hasOwner d.kind then parent host d else return none

/-- The accessor and the property around a declaration, in a climb of so many steps at most. -/
def ownersAbove : Nat → Declaration → SessionM (List Declaration)
  | 0, _ => throw .endless
  | steps + 1, d => do
    match ← owner host d with
    | none => return []
    | some p =>
      if p.kind.isAccessor || p.kind.isPropertyLike then return p :: (← ownersAbove steps p)
      else return []

/-- The declaration, then the accessor and the property around it. -/
def owners (d : Declaration) : SessionM (List Declaration) := do
  let self ← adapterFor host d.symbol
  return self :: (← ownersAbove host SymbolId.count self)

/-- The annotations with a use-site target that are written on declarations, one after the other. -/
def writtenOnAll (target : UseSiteTarget) : List Declaration → SessionM (List Annotations.Projected)
  | [] => return []
  | d :: rest => do
    let own ← writtenFor host target d
    return own ++ (← writtenOnAll target rest)

/-- The annotations with a use-site target that belong to the declaration. -/
def annotationsFor (target : UseSiteTarget) (d : Declaration) :
    SessionM (List Annotations.Projected) := do
  check d
  if landsOn d.kind target then
    let all ← owners host d
    writtenOnAll host target all
  else
    let self ← adapterFor host d.symbol
    writtenOnAll host target [self]

/-- The annotations with a use-site target, or those written on the declaration if none is given. -/
def annotationsForOption (target : Option UseSiteTarget) (d : Declaration) :
    SessionM (List Annotations.Projected) :=
  match target with
  | none => annotations host d
  | some t => annotationsFor host t d

/-- The annotations with a use-site target that are written on the property around an accessor. -/
def fromProperty (target : UseSiteTarget) (accessor : Declaration) :
    SessionM (List Annotations.Projected) := do
  match ← parent host accessor with
  | none => return []
  | some p => if p.kind.isPropertyLike then writtenFor host target p else return []

/-- The annotations that reach a value parameter from its setter and the property of that. -/
def fromSetter (d : Declaration) : SessionM (List Annotations.Projected) := do
  match ← parent host d with
  | none => return []
  | some setter =>
    if setter.kind = .setter then
      let own ← writtenFor host .setParam setter
      return own ++ (← fromProperty host .setParam setter)
    else return []

/-- The annotations that reach the declaration from what it lies in. -/
def useSiteAnnotations (d : Declaration) : SessionM (List Annotations.Projected) := do
  check d
  match d.kind with
  | .getter => fromProperty host .get d
  | .setter => fromProperty host .set d
  | .valueParameter => fromSetter host d
  | _ => return []

/-- The annotations written on the declaration, then those that reach it from what it lies in. -/
def resolvedAnnotations (d : Declaration) : SessionM (List Annotations.Projected) := do
  let own ← annotations host d
  return own ++ (← useSiteAnnotations host d)

end Session
end SymbolView
