import Mathlib.Logic.Relation
import SymbolView.Proofs.Session.Finding

/-!
# How a session changes

`Session.Change` lists the two changes that a session makes while it asks a host: it makes the
adapter of a symbol that has none, or it fills an empty cell with what the host says.
`Session.Reaches` is any number of them.  What is said of a change here is all that is known of it
later, and what holds of sessions that are reached follows by induction on the changes:

* `Session.Grows` says what is never lost: adapters stay, in order, and what is kept is kept for
  good.
* `Reaches.holds_of_kept` says that what has been found on the way is what the host says.
-/

set_option autoImplicit false

namespace SymbolView

namespace Session

/-- One change of a session that asks a host. -/
inductive Change (host : Host) : Session → Session → Prop
  /-- The adapter of a symbol is made. -/
  | adapter {S : Session} {s : SymbolId} {kind : SymbolKind} {name : Option String}
      (new : S.adapter? s = none) (face : host.kindAndName s = .ok (kind, name)) :
      Change host S (S.add (S.nextAdapter s kind name))
  /-- What the host says is kept. -/
  | keep {S : Session} {s : SymbolId} (f : Finding) (v : f.Value) (empty : f.kept S s = none)
      (holds : f.Holds host S s v) : Change host S (S.updateMemo s (f.cell.write v))

/-- Any number of changes of a session that asks a host. -/
abbrev Reaches (host : Host) : Session → Session → Prop := Relation.ReflTransGen (Change host)

/-! ## What is never lost -/

/-- What is never lost from one state of a session to a later one. -/
structure Grows (S T : Session) : Prop where
  /-- The session is the same. -/
  id : T.id = S.id
  /-- Its configuration is the same. -/
  config : T.config = S.config
  /-- The adapters stay, in order. -/
  declarations : S.declarations <+: T.declarations
  /-- What is kept is kept for good. -/
  kept : ∀ (f : Finding) (s : SymbolId) (v : f.Value), f.kept S s = some v → f.kept T s = some v

theorem Grows.refl (S : Session) : S.Grows S :=
  ⟨rfl, rfl, List.prefix_rfl, fun _ _ _ h ↦ h⟩

theorem Grows.trans {S T U : Session} (h : S.Grows T) (h' : T.Grows U) : S.Grows U :=
  ⟨h'.id.trans h.id, h'.config.trans h.config, h.declarations.trans h'.declarations,
    fun f s v hv ↦ h'.kept f s v (h.kept f s v hv)⟩

variable {host : Host} {S T : Session} {d : Declaration} {s : SymbolId} {f : Finding} {v : f.Value}

theorem Grows.mem (h : S.Grows T) (hd : d ∈ S.declarations) : d ∈ T.declarations :=
  h.declarations.subset hd

/-- What the host says of a symbol does not depend on what the session has done before. -/
theorem Grows.holds (h : S.Grows T) (hv : f.Holds host S s v) : f.Holds host T s v := by
  cases f with
  | origin => exact hv
  | location => exact hv
  | typeText =>
    rw [Finding.Holds] at hv ⊢
    rwa [h.config]
  | members => exact ⟨hv.1, fun d hd ↦ h.mem (hv.2 d hd)⟩

theorem Change.grows (h : Change host S T) : S.Grows T := by
  cases h with
  | adapter =>
    refine ⟨rfl, rfl, ?_, fun f s v hv ↦ by rwa [Finding.kept_add]⟩
    rw [declarations_add]
    exact List.prefix_append _ _
  | @keep s f v empty holds =>
    refine ⟨rfl, rfl, (declarations_updateMemo S s _).symm ▸ List.prefix_rfl, fun g t w hw ↦ ?_⟩
    have hne : ¬ (g = f ∧ t = s) := by
      rintro ⟨rfl, rfl⟩
      rw [empty] at hw
      exact absurd hw (by simp)
    rwa [Finding.kept_write_of_ne hne]

theorem Reaches.grows (h : Reaches host S T) : S.Grows T := by
  induction h with
  | refl => exact Grows.refl S
  | tail _ hc ih => exact ih.trans hc.grows

/-! ## What is found on the way -/

/-- A change that fills a cell fills it with what the host says. -/
theorem Change.holds_of_kept (h : Change host S T) (hS : f.kept S s = none)
    (hT : f.kept T s = some v) : f.Holds host T s v := by
  refine h.grows.holds ?_
  cases h with
  | adapter =>
    rw [Finding.kept_add, hS] at hT
    exact absurd hT (by simp)
  | @keep t g w empty holds =>
    by_cases hg : f = g ∧ s = t
    · obtain ⟨rfl, rfl⟩ := hg
      rw [Finding.kept_write, Option.map_eq_some_iff] at hT
      obtain ⟨-, -, rfl⟩ := hT
      exact holds
    · rw [Finding.kept_write_of_ne hg, hS] at hT
      exact absurd hT (by simp)

/-- **What is kept was kept before or is what the host says.** -/
theorem Reaches.holds_of_kept (h : Reaches host S T) (hS : f.kept S s = none)
    (hT : f.kept T s = some v) : f.Holds host T s v := by
  induction h with
  | refl =>
    rw [hS] at hT
    exact absurd hT (by simp)
  | @tail U V _ hc ih =>
    cases hU : f.kept U s with
    | none => exact hc.holds_of_kept hU hT
    | some w =>
      have hw := hc.grows.kept f s w hU
      rw [hT, Option.some_inj] at hw
      subst hw
      exact hc.grows.holds (ih hU)

/-- An adapter was there before or shows what the host says. -/
theorem Reaches.shows (h : Reaches host S T) (hd : d ∈ T.declarations) :
    d ∈ S.declarations ∨ host.Shows d := by
  induction h with
  | refl => exact .inl hd
  | @tail U V _ hc ih =>
    cases hc with
    | @adapter s kind name new face =>
      rw [declarations_add, List.mem_append, List.mem_singleton] at hd
      rcases hd with hd | rfl
      · exact ih hd
      · right
        show host.faceOf s = _
        rw [Host.faceOf, face]
        rfl
    | keep =>
      rw [declarations_updateMemo] at hd
      exact ih hd

/-! ## Sessions stay well-formed -/

theorem WellFormed.add (hS : S.WellFormed) (new : S.adapter? s = none) (kind : SymbolKind)
    (name : Option String) : (S.add (S.nextAdapter s kind name)).WellFormed where
  own := by
    rw [declarations_add]
    intro d hd
    rcases List.mem_append.mp hd with hd | hd
    · exact hS.own d hd
    · rw [List.mem_singleton.mp hd]
      rfl
  serials := by
    rw [declarations_add, List.map_append, hS.serials, ← length_declarations, ← length_declarations,
      declarations_add, List.length_append, List.length_singleton, List.range_succ]
    simp [nextAdapter]
  symbols := by
    rw [declarations_add, List.map_append]
    refine List.nodup_append.mpr ⟨hS.symbols, by simp, ?_⟩
    intro t ht u hu
    obtain ⟨d, hd, rfl⟩ := List.mem_map.mp ht
    rw [List.map_singleton, List.mem_singleton] at hu
    rw [hu]
    exact adapter?_eq_none.mp new d hd
  kept := by
    intro t ds h d hd
    rw [memo_add] at h
    rw [declarations_add]
    exact List.mem_append_left _ (hS.kept t ds h d hd)

theorem Change.wellFormed (h : Change host S T) (hS : S.WellFormed) : T.WellFormed := by
  have hT : ∀ s ds, (T.memo s).members = some ds → ∀ d ∈ ds, d ∈ T.declarations := by
    intro s ds hds d hd
    cases hk : Finding.members.kept S s with
    | none => exact (h.holds_of_kept (f := .members) hk hds).2 d hd
    | some es =>
      have hes := h.grows.kept .members s es hk
      have he : es = ds := Option.some_inj.mp (hes.symm.trans hds)
      exact h.grows.mem (hS.kept s es hk d (he ▸ hd))
  cases h with
  | adapter new => exact hS.add new _ _
  | keep f v =>
    refine ⟨?_, ?_, ?_, hT⟩
    · rw [declarations_updateMemo]
      exact hS.own
    · rw [declarations_updateMemo, ← length_declarations, declarations_updateMemo,
        length_declarations]
      exact hS.serials
    · rw [declarations_updateMemo]
      exact hS.symbols

theorem Reaches.wellFormed (h : Reaches host S T) (hS : S.WellFormed) : T.WellFormed := by
  induction h with
  | refl => exact hS
  | tail _ hc ih => exact hc.wellFormed ih

end Session
end SymbolView
