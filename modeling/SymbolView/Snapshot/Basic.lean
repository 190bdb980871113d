import SymbolView.Session.Annotations
import SymbolView.Session.Attributes
import SymbolView.Session.Members

/-!
# Snapshots

A snapshot holds all that a session answers about a declaration and, for a class, about its members
and theirs.  It is plain data, so it can outlive the session.
-/

set_option autoImplicit false

namespace SymbolView

/-- All that is known about a declaration. -/
structure Snapshot where
  /-- Its name. -/
  name : Option String
  /-- For a class or type alias, its package and class path, joined with dots. -/
  qualifiedName : Option String
  /-- What it is. -/
  kind : DeclarationKind
  /-- Where it comes from. -/
  origin : Origin
  /-- Where it is written. -/
  location : Location
  /-- Its modifiers. -/
  modifiers : List Modifier
  /-- The text of its type. -/
  typeText : Option String
  /-- The annotations on it and those that reach it. -/
  annotations : List Annotations.Projected
  /-- Its declared and static members. -/
  members : List Snapshot

mutual

/-- Whether two snapshots agree in everything. -/
def Snapshot.same : Snapshot → Snapshot → Bool
  | ⟨name, qualifiedName, kind, origin, location, modifiers, typeText, annotations, members⟩,
      other =>
    name == other.name && qualifiedName == other.qualifiedName && kind == other.kind
      && origin == other.origin && location == other.location && modifiers == other.modifiers
      && typeText == other.typeText && annotations == other.annotations
      && sameSnapshots members other.members

/-- Whether two lists of snapshots agree in everything. -/
def sameSnapshots : List Snapshot → List Snapshot → Bool
  | [], [] => true
  | s :: rest, t :: others => s.same t && sameSnapshots rest others
  | _, _ => false

end

namespace Session

variable (host : Host)

/-- All that is known about a declaration apart from its members, which are given. -/
def describe (d : Declaration) (members : List Snapshot) : SessionM Snapshot := do
  let id ← classId host d
  let origin ← origin host d
  let location ← location host d
  let modifiers ← modifiers host d
  let typeText ← typeText host d
  let annotations ← resolvedAnnotations host d
  return {
    name := d.name
    qualifiedName := id.map (·.qualifiedName)
    kind := d.kind
    origin, location, modifiers, typeText, annotations, members }

/-- The snapshot of a declaration whose members are nested so deep at most. -/
def snapshotWithin : Nat → Declaration → SessionM Snapshot
  | 0, _ => throw .endless
  | depth + 1, d => do
    if d.kind.hasMembers then
      let below ← (← members host d).mapM (snapshotWithin depth)
      describe host d below
    else describe host d []

/-- The snapshot of a declaration.  There are only `SymbolId.count` symbols, so members that are
nested deeper lie in themselves. -/
def snapshot (d : Declaration) : SessionM Snapshot := snapshotWithin host SymbolId.count d

end Session
end SymbolView
