import Mathlib.Data.List.Nodup
import Mathlib.Logic.Relation
import SymbolView.Declaration
import SymbolView.Proofs.SymbolTable.WellFormed

/-!
# The members below a symbol

A class or enum entry shows its declared members and then its static ones, each of these shows its
own, and so on.  `SymbolTable.Below` is one such step.  A `SymbolTree.Unfolds` a table if it takes
all of these steps from its root, in order, until there are none left.

The steps are links between records, and links may meet again or lead in a circle.  In a well-formed
table they do neither, as a member has one container, which has a smaller number:

* `Unfolds.mem_symbols_iff`: the symbols of the tree are those that are reached from its root;
* `Unfolds.nodup`: none of them is at two places of the tree.
-/

set_option autoImplicit false

namespace SymbolView

open Relation

/-! ## One step -/

/-- The declared members of a symbol and then the static ones. -/
def SymbolRecord.members (r : SymbolRecord) : List SymbolId := r.declaredMembers ++ r.staticMembers

/-- The members that a symbol shows: only those of classes and enum entries are shown. -/
def SymbolRecord.shown (r : SymbolRecord) : List SymbolId :=
  match r.kind with
  | .namedClass => r.members
  | .enumEntry => r.members
  | _ => []

theorem SymbolRecord.shown_eq (r : SymbolRecord) :
    r.shown = if (DeclarationKind.ofSymbol r.kind).hasMembers then r.members else [] := by
  unfold shown
  cases r.kind <;> rfl

theorem SymbolRecord.members_sublist_entries (r : SymbolRecord) : r.members.Sublist r.entries :=
  List.sublist_append_left _ _

theorem SymbolRecord.shown_sublist_members (r : SymbolRecord) : r.shown.Sublist r.members := by
  rw [shown_eq]
  split
  · exact List.Sublist.refl _
  · exact List.nil_sublist _

namespace SymbolTable

variable {table : SymbolTable} {s t m : SymbolId} {r : SymbolRecord}

/-- Whether a symbol shows another as its member. -/
def Below (table : SymbolTable) (s m : SymbolId) : Prop :=
  ∃ r, table.record s = .ok r ∧ m ∈ r.shown

namespace WellFormed

variable (wf : table.WellFormed)
include wf

theorem knows_of_mem_members (hr : table.record s = .ok r) (hm : m ∈ r.members) :
    table.Knows m :=
  (wf.entries hr (r.members_sublist_entries.subset hm)).imp fun _ h ↦ h.1

theorem nodup_members (hr : table.record s = .ok r) : r.members.Nodup :=
  (wf.nodup hr).sublist r.members_sublist_entries

/-- A member lies in the class that shows it. -/
theorem container_of_below (h : table.Below s m) :
    ∃ q, table.record m = .ok q ∧ q.container = some s := by
  obtain ⟨r, hr, hm⟩ := h
  exact wf.entries hr (r.members_sublist_entries.subset (r.shown_sublist_members.subset hm))

/-- It lies in nothing else. -/
theorem eq_of_below (hs : table.Below s m) (ht : table.Below t m) : s = t := by
  obtain ⟨q, hq, hqs⟩ := wf.container_of_below hs
  obtain ⟨p, hp, hpt⟩ := wf.container_of_below ht
  cases hq.symm.trans hp
  exact Option.some_inj.mp (hqs.symm.trans hpt)

theorem index_lt_of_below (h : table.Below s m) : s.index < m.index := by
  obtain ⟨q, hq, hs⟩ := wf.container_of_below h
  exact wf.container hq hs

theorem index_le_of_reflTransGen (h : ReflTransGen table.Below s m) : s.index ≤ m.index := by
  induction h with
  | refl => exact Nat.le_refl _
  | tail _ step ih => exact Nat.le_trans ih (Nat.le_of_lt (wf.index_lt_of_below step))

/-- **Two ways down to one symbol are one.**  What two members of a class both lead to would lie
in both, so that one of them would lie in the other. -/
theorem eq_of_common (hs : table.Below s m) (ht : table.Below s t) {x : SymbolId}
    (hx : ReflTransGen table.Below m x) (hy : ReflTransGen table.Below t x) : m = t := by
  have apart {m t : SymbolId} (hs : table.Below s m) (ht : table.Below s t)
      (h : ReflTransGen table.Below m t) : m = t := by
    obtain rfl | ⟨c, hc, last⟩ := h.cases_tail
    · rfl
    -- the last step to `t` comes from `s`, which is before `m`
    · obtain rfl := wf.eq_of_below ht last
      exact absurd (wf.index_lt_of_below hs) (Nat.not_lt.mpr (wf.index_le_of_reflTransGen hc))
  have unique : Relator.RightUnique (Function.swap table.Below) :=
    fun _ _ _ hc hd ↦ wf.eq_of_below hc hd
  obtain h | h := ReflTransGen.total_of_right_unique unique (reflTransGen_swap.mpr hx)
    (reflTransGen_swap.mpr hy)
  · exact (apart ht hs (reflTransGen_swap.mp h)).symm
  · exact apart hs ht (reflTransGen_swap.mp h)

end WellFormed
end SymbolTable

/-! ## All steps -/

/-- A symbol, and trees of symbols in order. -/
inductive SymbolTree where
  | node (symbol : SymbolId) (below : List SymbolTree)

namespace SymbolTree

/-- The symbol at the root. -/
def symbol : SymbolTree → SymbolId
  | node s _ => s

mutual

/-- All symbols of a tree, each before those below it. -/
def symbols : SymbolTree → List SymbolId
  | node s below => s :: symbolsOf below

/-- All symbols of some trees. -/
def symbolsOf : List SymbolTree → List SymbolId
  | [] => []
  | tree :: rest => tree.symbols ++ symbolsOf rest

end

theorem symbolsOf_eq_flatMap (trees : List SymbolTree) :
    symbolsOf trees = trees.flatMap symbols := by
  induction trees with
  | nil => rfl
  | cons tree rest ih => rw [symbolsOf, ih, List.flatMap_cons]

theorem mem_symbols_node {s x : SymbolId} {below : List SymbolTree} :
    x ∈ (node s below).symbols ↔ x = s ∨ ∃ tree ∈ below, x ∈ tree.symbols := by
  rw [symbols, symbolsOf_eq_flatMap, List.mem_cons, List.mem_flatMap]

/-- Whether a tree shows below each symbol the members of that symbol, in order. -/
inductive Unfolds (table : SymbolTable) : SymbolTree → Prop
  | node {s : SymbolId} {r : SymbolRecord} {below : List SymbolTree}
      (record : table.record s = .ok r) (members : below.map symbol = r.shown)
      (each : ∀ tree ∈ below, Unfolds table tree) : Unfolds table (node s below)

namespace Unfolds

variable {table : SymbolTable} {tree : SymbolTree}

/-- **The symbols of a tree that unfolds a table are those that are reached from its root.** -/
theorem mem_symbols_iff (h : tree.Unfolds table) (x : SymbolId) :
    x ∈ tree.symbols ↔ ReflTransGen table.Below tree.symbol x := by
  induction h with
  | @node s r below hr members each ih =>
    have step (m : SymbolId) : table.Below s m ↔ ∃ tree ∈ below, tree.symbol = m := by
      rw [← List.mem_map, members]
      exact ⟨fun ⟨q, hq, hm⟩ ↦ by cases hr.symm.trans hq; exact hm, fun hm ↦ ⟨r, hr, hm⟩⟩
    rw [mem_symbols_node, ReflTransGen.cases_head_iff]
    refine or_congr eq_comm ⟨?_, ?_⟩
    · rintro ⟨tree, ht, hx⟩
      exact ⟨tree.symbol, (step _).mpr ⟨tree, ht, rfl⟩, (ih tree ht).mp hx⟩
    · rintro ⟨m, hm, hx⟩
      obtain ⟨tree, ht, rfl⟩ := (step m).mp hm
      exact ⟨tree, ht, (ih tree ht).mpr hx⟩

/-- **No symbol is at two places** of a tree that unfolds a well-formed table. -/
theorem nodup (wf : table.WellFormed) (h : tree.Unfolds table) : tree.symbols.Nodup := by
  induction h with
  | @node s r below hr members each ih =>
    have down {tree : SymbolTree} (ht : tree ∈ below) : table.Below s tree.symbol :=
      ⟨r, hr, members ▸ List.mem_map_of_mem ht⟩
    rw [symbols, symbolsOf_eq_flatMap, List.nodup_cons, List.nodup_flatMap]
    refine ⟨fun hs ↦ ?root, ih, ?children⟩
    case root =>
      obtain ⟨tree, ht, hs⟩ := List.mem_flatMap.mp hs
      have hle := wf.index_le_of_reflTransGen (((each tree ht).mem_symbols_iff s).mp hs)
      exact absurd (wf.index_lt_of_below (down ht)) (Nat.not_lt.mpr hle)
    case children =>
      have distinct : below.Pairwise fun t u ↦ t.symbol ≠ u.symbol :=
        List.pairwise_map.mp (members ▸ (wf.nodup_members hr).sublist r.shown_sublist_members)
      refine distinct.imp_of_mem fun {t u} ht hu hne x hx hy ↦ hne ?_
      exact wf.eq_of_common (down ht) (down hu) (((each t ht).mem_symbols_iff x).mp hx)
        (((each u hu).mem_symbols_iff x).mp hy)

end Unfolds
end SymbolTree
end SymbolView
