import Mathlib.Data.Fintype.Card
import SymbolView.Proofs.Session.Relays

/-!
# Going up from a declaration

The parent of a declaration, the parent of that, and so on: `Session.Ascends` says which adapters a
session hands out that is asked for them one after the other, and `Host.Lineage` which symbols these
are, without a session.  Neither has to come to an end, since the links of a host may lead in a
circle.  Where they do, the two climbs of this library are read off the line:

* `Ascends.run_climb`: a climb to a category finds the first of that category in the line;
* `Ascends.run_ownersAbove`: a climb to owners takes the beginning of it, `Session.ownersAmong`.

Both climbs are cut off after `SymbolId.count` steps.  That is never too early: a line that ends
meets no symbol twice (`Lineage.nodup`), as from a symbol there is but one way up.
-/

set_option autoImplicit false

namespace SymbolView

open SessionM

/-- There are no more symbols than numbers. -/
theorem SymbolId.length_le_count {l : List SymbolId} (h : l.Nodup) : l.length ≤ count := by
  have number (s : SymbolId) : s.index < count := UInt32.toNat_lt_size s.val
  have distinct : (l.map fun s ↦ (⟨s.index, number s⟩ : Fin count)).Nodup :=
    h.map fun s t hst ↦ index_inj.mp (Fin.mk.inj hst)
  have bound := distinct.length_le_card
  rwa [List.length_map, Fintype.card_fin] at bound

/-! ## The symbols on the way up -/

namespace Host

variable {host : Host} {s t : SymbolId} {line line' : List Face}

/-- Whether the symbols above a symbol show these faces, from its parent to the last. -/
inductive Lineage (host : Host) : SymbolId → List Face → Prop
  | top {s : SymbolId} (parent : host.parentFace s = .ok none) : Lineage host s []
  | next {s : SymbolId} {p : Face} {line : List Face} (parent : host.parentFace s = .ok (some p))
      (above : Lineage host p.1 line) : Lineage host s (p :: line)

namespace Lineage

/-- There is but one way up. -/
theorem unique (h : host.Lineage s line) (h' : host.Lineage s line') : line = line' := by
  induction h generalizing line' with
  | top parent =>
    cases h' with
    | top => rfl
    | next parent' => cases parent.symm.trans parent'
  | next parent _ ih =>
    cases h' with
    | top parent' => cases parent.symm.trans parent'
    | next parent' above =>
      cases parent.symm.trans parent'
      rw [ih above]

/-- From a symbol on the way up the way is shorter. -/
theorem of_mem (h : host.Lineage s line) (ht : t ∈ line.map (·.1)) :
    ∃ above, host.Lineage t above ∧ above.length < line.length := by
  induction h with
  | top => cases ht
  | @next s p line _ above ih =>
    rcases List.mem_cons.mp ht with rfl | ht
    · exact ⟨line, above, Nat.lt_succ_self _⟩
    · obtain ⟨rest, hrest, hlt⟩ := ih ht
      exact ⟨rest, hrest, Nat.lt_succ_of_lt hlt⟩

/-- **No symbol is met twice**, since from there the way would be longer than itself. -/
theorem nodup (h : host.Lineage s line) : (s :: line.map (·.1)).Nodup := by
  have distinct {s : SymbolId} {line : List Face} (h : host.Lineage s line) :
      s ∉ line.map (·.1) := by
    intro hs
    obtain ⟨above, habove, hlt⟩ := h.of_mem hs
    rw [h.unique habove] at hlt
    exact Nat.lt_irrefl _ hlt
  induction h with
  | top => exact List.nodup_singleton _
  | next parent above ih => exact List.nodup_cons.mpr ⟨distinct (.next parent above), ih⟩

theorem length_lt_count {ds : List Declaration} (h : host.Lineage s (ds.map Declaration.face)) :
    ds.length < SymbolId.count := by
  have bound := SymbolId.length_le_count h.nodup
  rwa [List.length_cons, List.length_map, List.length_map] at bound

end Lineage
end Host

/-! ## The adapters on the way up -/

namespace Session

variable {host : Host} {policy : SuffixPolicy} {S T : Session} {d p : Declaration}
  {line : List Declaration} {faces : List Face} {steps : Nat}

/-- Whether a session that is asked for the parent of a declaration, then for the parent of that,
and so on, hands out these adapters until there is no parent. -/
inductive Ascends (host : Host) : Session → Declaration → List Declaration → Prop
  | top {S T : Session} {d : Declaration}
      (parent : S.ask host (.parent d) = (.ok (.declaration? none), T)) : Ascends host S d []
  | next {S T : Session} {d p : Declaration} {line : List Declaration}
      (parent : S.ask host (.parent d) = (.ok (.declaration? (some p)), T))
      (above : Ascends host T p line) : Ascends host S d (p :: line)

/-- The rule for questions that are answered with an adapter, if there is one. -/
theorem ask_eq_ok_iff {q : Query} {m : SessionM (Option Declaration)} {o : Option Declaration}
    (hq : q.run host = .declaration? <$> m) :
    S.ask host q = (.ok (.declaration? o), T) ↔ m.run.run S = (.ok o, T) := by
  rw [ask, hq]
  exact run_map_eq_ok_iff fun _ _ ↦ Answer.declaration?.inj

theorem run_parent {o : Option Declaration}
    (h : S.ask host (.parent d) = (.ok (.declaration? o), T)) :
    (Session.parent host d).run.run S = (.ok o, T) :=
  (ask_eq_ok_iff rfl).mp h

/-- Those among the adapters above a declaration that annotations reach it from: the accessor and
the property around it, as far as they follow one after the other. -/
def ownersAmong : Declaration → List Declaration → List Declaration
  | _, [] => []
  | d, p :: line =>
    if hasOwner d.kind && (p.kind.isAccessor || p.kind.isPropertyLike) then p :: ownersAmong p line
    else []

theorem ownersAmong_prefix (d : Declaration) (line : List Declaration) :
    ownersAmong d line <+: line := by
  induction line generalizing d with
  | nil => exact List.prefix_rfl
  | cons p line ih =>
    rw [ownersAmong]
    split
    · exact List.cons_prefix_cons.mpr ⟨rfl, ih p⟩
    · exact List.nil_prefix

namespace Ascends

/-- **A climb to a category finds the first of the category on the way up**, or nothing if there is
none. -/
theorem run_climb (h : Ascends host S d line) (category : DeclarationCategory)
    (enough : line.length < steps) :
    ((climb host category steps d).run.run S).1 =
      .ok (line.find? fun p ↦ p.kind.category = category) := by
  induction h generalizing steps with
  | top parent =>
    obtain ⟨steps, rfl⟩ := Nat.exists_eq_add_one_of_ne_zero (Nat.ne_zero_of_lt enough)
    rw [climb, run_bind, run_parent parent]
    rfl
  | @next S T d p line parent _ ih =>
    obtain ⟨steps, rfl⟩ := Nat.exists_eq_add_one_of_ne_zero (Nat.ne_zero_of_lt enough)
    rw [climb, run_bind, run_parent parent]
    show ((if p.kind.category = category then pure (some p)
      else climb host category steps p).run.run T).1 = _
    by_cases found : p.kind.category = category
    · rw [if_pos found, List.find?_cons_of_pos (by simpa using found)]
      rfl
    · rw [if_neg found, List.find?_cons_of_neg (by simpa using found)]
      exact ih (Nat.lt_of_succ_lt_succ enough)

/-- So that is the answer to the question for the nearest declaration of the category. -/
theorem ask_climb (h : Ascends host S d line) (category : DeclarationCategory)
    (enough : line.length < SymbolId.count) : (S.ask host (.ancestorOf category d)).1 =
      .ok (.declaration? (line.find? fun p ↦ p.kind.category = category)) := by
  rw [ask, Query.run, run_map, ancestorOf, h.run_climb category enough]
  rfl

/-- **A climb to owners takes the beginning of the way up.** -/
theorem run_ownersAbove (h : Ascends host S d line) (enough : line.length < steps) :
    ((ownersAbove host steps d).run.run S).1 = .ok (ownersAmong d line) := by
  induction h generalizing steps with
  | @top S T d parent =>
    obtain ⟨steps, rfl⟩ := Nat.exists_eq_add_one_of_ne_zero (Nat.ne_zero_of_lt enough)
    rw [ownersAbove, run_bind, owner]
    cases hasOwner d.kind with
    | false => rfl
    | true =>
      rw [if_pos rfl, run_parent parent]
      rfl
  | @next S T d p line parent _ ih =>
    obtain ⟨steps, rfl⟩ := Nat.exists_eq_add_one_of_ne_zero (Nat.ne_zero_of_lt enough)
    rw [ownersAbove, run_bind, owner, ownersAmong]
    cases owned : hasOwner d.kind with
    | false => rfl
    | true =>
      rw [if_pos rfl, run_parent parent, Bool.true_and]
      show ((if p.kind.isAccessor || p.kind.isPropertyLike then
        (do return p :: (← ownersAbove host steps p)) else return []).run.run T).1 = _
      split
      next =>
        have rest := ih (Nat.lt_of_succ_lt_succ enough)
        rw [run_bind]
        cases hrun : (ownersAbove host steps p).run.run T with
        | mk r U =>
          rw [hrun] at rest
          cases rest
          rfl
      next => rfl

/-- A collection of owners takes the declaration and the beginning of the way up. -/
theorem run_owners (h : Ascends host S d line) (hS : S.WellFormed) (hd : d ∈ S.declarations)
    (enough : line.length < SymbolId.count) :
    ((owners host d).run.run S).1 = .ok (d :: ownersAmong d line) := by
  have above := h.run_ownersAbove enough
  rw [owners, run_bind, run_adapterFor_of_eq_some host (hS.adapter?_eq_some hd)]
  show ((ownersAbove host SymbolId.count d >>= fun above ↦ return d :: above).run.run S).1 = _
  rw [run_bind]
  cases hrun : (ownersAbove host SymbolId.count d).run.run S with
  | mk r T =>
    rw [hrun] at above
    cases above
    rfl

end Ascends

/-! ## From the symbols to the adapters -/

/-- The parents that a host tells are handed out. -/
theorem Steady.exists_ascends (hS : S.Steady host policy) (hd : d ∈ S.declarations)
    (lineage : host.Lineage d.symbol faces) :
    ∃ line, Ascends host S d line ∧ line.map Declaration.face = faces := by
  generalize hs : d.symbol = s at lineage
  induction lineage generalizing S d with
  | top parent =>
    obtain ⟨-, alike⟩ := hS.relays_parent hd
    rw [hs, parent] at alike
    cases hrun : (Session.parent host d).run.run S with
    | mk r T =>
      rw [hrun] at alike
      cases alike with
      | ok shown =>
        cases shown
        exact ⟨[], .top ((ask_eq_ok_iff rfl).mpr hrun), rfl⟩
  | @next s face faces parent _ ih =>
    obtain ⟨reaches, alike⟩ := hS.relays_parent hd
    rw [hs, parent] at alike
    cases hrun : (Session.parent host d).run.run S with
    | mk r T =>
      rw [hrun] at reaches alike
      cases alike with
      | ok shown =>
        cases shown with
        | @some p _ shown =>
          obtain ⟨hp, rfl⟩ := shown
          obtain ⟨line, above, hline⟩ := ih (hS.reaches reaches) hp rfl
          refine ⟨p :: line, .next ((ask_eq_ok_iff rfl).mpr hrun) above, ?_⟩
          rw [List.map_cons, hline]

end Session
end SymbolView
