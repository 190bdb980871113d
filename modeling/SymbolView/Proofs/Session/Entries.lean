import Mathlib.Data.List.Nodup
import SymbolView.Session.State

/-!
# The adapters of a session and what is kept with them

A session changes in two ways only: it adds an adapter (`Session.add`), or it keeps an answer with
an adapter that it has (`Session.updateMemo`).  This file says what the two do to the views through
which a session is read: the list of its adapters (`Session.declarations`), the adapter of a symbol
(`Session.adapter?`) and what is kept for a symbol (`Session.memo`).

`Session.WellFormed` is what holds of every session: its adapters are its own, are numbered in the
order in which they were made and belong to different symbols, and the lists of members that it
keeps hold adapters of its own.
-/

set_option autoImplicit false

namespace SymbolView
namespace Session

/-- The adapters that the session has made, oldest first. -/
def declarations (S : Session) : List Declaration := S.entries.map (·.declaration)

variable {S : Session} {d : Declaration} {s t : SymbolId} {change : Memo → Memo}

@[simp] theorem length_declarations (S : Session) : S.declarations.length = S.adapterCount :=
  List.length_map _

/-! ## The adapter of a symbol -/

theorem adapter?_eq (S : Session) (s : SymbolId) :
    S.adapter? s = S.declarations.find? (·.symbol == s) := by
  rw [adapter?, entry?, declarations, List.find?_map]
  rfl

theorem mem_of_adapter? (h : S.adapter? s = some d) : d ∈ S.declarations := by
  rw [adapter?_eq] at h
  exact List.mem_of_find?_eq_some h

theorem symbol_of_adapter? (h : S.adapter? s = some d) : d.symbol = s := by
  rw [adapter?_eq] at h
  simpa using List.find?_some h

theorem adapter?_eq_none : S.adapter? s = none ↔ ∀ d ∈ S.declarations, d.symbol ≠ s := by
  rw [adapter?_eq, List.find?_eq_none]
  simp

/-- Where each symbol has one adapter at most, every adapter is the one of its symbol. -/
theorem adapter?_of_mem (hS : (S.declarations.map (·.symbol)).Nodup) (h : d ∈ S.declarations) :
    S.adapter? d.symbol = some d := by
  cases hd : S.adapter? d.symbol with
  | none => exact absurd rfl (adapter?_eq_none.mp hd d h)
  | some e =>
    have he : e = d := List.inj_on_of_nodup_map hS (mem_of_adapter? hd) h (symbol_of_adapter? hd)
    rw [he]

theorem entry?_eq_none : S.entry? s = none ↔ S.adapter? s = none := by
  rw [adapter?, Option.map_eq_none_iff]

theorem memo_of_adapter?_eq_none (h : S.adapter? s = none) : S.memo s = {} := by
  rw [memo, entry?_eq_none.mpr h]
  rfl

/-! ## Adding an adapter -/

@[simp] theorem declarations_add (S : Session) (d : Declaration) :
    (S.add d).declarations = S.declarations ++ [d] := by
  simp [declarations, add]

/-- An adapter that is added is the one of its symbol, if there was none. -/
theorem adapter?_add (h : S.adapter? d.symbol = none) : (S.add d).adapter? d.symbol = some d := by
  rw [adapter?_eq] at h
  rw [adapter?_eq, declarations_add, List.find?_append, h]
  simp

/-- Nothing is known yet about an adapter that is added, and nothing more about the others. -/
@[simp] theorem memo_add (S : Session) (d : Declaration) (s : SymbolId) :
    (S.add d).memo s = S.memo s := by
  have h : Session.entry? (S.add d) s =
      (S.entry? s).or ([⟨d, {}⟩].find? (·.declaration.symbol == s)) :=
    List.find?_append
  rw [memo, memo, h]
  cases S.entry? s with
  | some e => rfl
  | none => by_cases hs : d.symbol = s <;> simp [hs]

/-! ## Keeping an answer -/

@[simp] theorem declarations_updateMemo (S : Session) (s : SymbolId) (change : Memo → Memo) :
    (S.updateMemo s change).declarations = S.declarations := by
  rw [declarations, declarations, updateMemo, List.map_map]
  refine List.map_congr_left fun e _ ↦ ?_
  rw [Function.comp_apply]
  split <;> rfl

@[simp] theorem adapter?_updateMemo (S : Session) (s t : SymbolId) (change : Memo → Memo) :
    (S.updateMemo s change).adapter? t = S.adapter? t := by
  rw [adapter?_eq, adapter?_eq, declarations_updateMemo]

theorem entry?_updateMemo (S : Session) (s t : SymbolId) (change : Memo → Memo) :
    Session.entry? (S.updateMemo s change) t = (S.entry? t).map fun e ↦
      if e.declaration.symbol = s then { e with memo := change e.memo } else e := by
  have h : ((fun e : Entry ↦ e.declaration.symbol == t) ∘ fun e ↦
      if e.declaration.symbol = s then { e with memo := change e.memo } else e) =
      fun e ↦ e.declaration.symbol == t := by
    funext e
    rw [Function.comp_apply]
    split <;> rfl
  unfold entry? updateMemo
  rw [List.find?_map, h]

theorem symbol_of_entry {e : Entry} (h : S.entry? s = some e) : e.declaration.symbol = s := by
  simpa using List.find?_some h

/-- What is kept for a symbol that has an adapter changes as told. -/
theorem memo_updateMemo_self (h : S.adapter? s = some d) :
    (S.updateMemo s change).memo s = change (S.memo s) := by
  obtain ⟨e, he, -⟩ := Option.map_eq_some_iff.mp h
  rw [memo, memo, entry?_updateMemo, he]
  simp [symbol_of_entry he]

/-- What is kept for the other symbols stays. -/
theorem memo_updateMemo_of_ne (h : t ≠ s) : (S.updateMemo s change).memo t = S.memo t := by
  rw [memo, memo, entry?_updateMemo]
  cases he : S.entry? t with
  | none => rfl
  | some e => simp [symbol_of_entry he, h]

/-- Nothing is kept for a symbol that has no adapter. -/
theorem memo_updateMemo_of_eq_none (h : S.adapter? s = none) (t : SymbolId) :
    (S.updateMemo s change).memo t = S.memo t := by
  by_cases ht : t = s
  · subst ht
    rw [memo_of_adapter?_eq_none h, memo_of_adapter?_eq_none (by rwa [adapter?_updateMemo])]
  · exact memo_updateMemo_of_ne ht

/-! ## Well-formed sessions -/

/-- What holds of every session. -/
structure WellFormed (S : Session) : Prop where
  /-- The adapters are the session's own. -/
  own : ∀ d ∈ S.declarations, d.session = S.id
  /-- They are numbered in the order in which they were made. -/
  serials : S.declarations.map (·.serial) = List.range S.adapterCount
  /-- Each belongs to another symbol. -/
  symbols : (S.declarations.map (·.symbol)).Nodup
  /-- The lists of members that are kept hold adapters of the session. -/
  kept : ∀ s ds, (S.memo s).members = some ds → ∀ d ∈ ds, d ∈ S.declarations

theorem wellFormed_start (id : SessionId) (config : SessionConfig) :
    (start id config).WellFormed where
  own _ hd := absurd hd List.not_mem_nil
  serials := rfl
  symbols := List.nodup_nil
  kept := by simp [memo, entry?, start]

/-- **An adapter is determined by its symbol.** -/
theorem WellFormed.eq_of_symbol_eq {d e : Declaration} (hS : S.WellFormed) (hd : d ∈ S.declarations)
    (he : e ∈ S.declarations) (h : d.symbol = e.symbol) : d = e :=
  List.inj_on_of_nodup_map hS.symbols hd he h

/-- **An adapter is determined by its number.** -/
theorem WellFormed.eq_of_serial_eq {d e : Declaration} (hS : S.WellFormed) (hd : d ∈ S.declarations)
    (he : e ∈ S.declarations) (h : d.serial = e.serial) : d = e := by
  have hnodup : (S.declarations.map (·.serial)).Nodup := hS.serials ▸ List.nodup_range
  exact List.inj_on_of_nodup_map hnodup hd he h

theorem WellFormed.adapter?_eq_some (hS : S.WellFormed) (h : d ∈ S.declarations) :
    S.adapter? d.symbol = some d :=
  adapter?_of_mem hS.symbols h

end Session
end SymbolView
