import SymbolView.Proofs.Workspace.Runs

/-!
# Adapters keep their identity

Within a session there is one adapter for each symbol, whatever is asked, whatever the hosts say and
whichever questions fail.  `Workspace.ComesUp` tells the two ways in which an adapter comes to
light: a question hands it out, or it stands in a list of members that the session keeps.
`Workspace.comesUp_unique` says that two adapters which come to light are the same if they have the
symbol or the number in common, and that a session that has handed an adapter out always will.
-/

set_option autoImplicit false

namespace SymbolView
namespace Workspace

variable {steps : List Step} {i j : Nat} {id : SessionId} {d e : Declaration} {T : Session}

/-- An adapter comes to light in a session at a step of a run. -/
inductive ComesUp (steps : List Step) (i : Nat) (id : SessionId) (d : Declaration) : Prop
  /-- The step hands it out. -/
  | answered {host : Host} {q : Query} {S T : Session} {a : Answer}
      (asks : Asks steps i host q S (.ok a) T) (session : S.id = id) (mem : d ∈ a.adapters)
  /-- Before the step it is in a list of members that is kept. -/
  | kept {S : Session} {s : SymbolId} {ds : List Declaration}
      (session : (before steps i).session? id = some S) (kept : (S.memo s).members = some ds)
      (mem : d ∈ ds)

/-- What comes to light has been made by then. -/
theorem ComesUp.exists_mem (h : ComesUp steps i id d) :
    ∃ k T, k ≤ i + 1 ∧ (before steps k).session? id = some T ∧ d ∈ T.declarations := by
  cases h with
  | @answered host q S T a asks session mem =>
    have hmem := Session.mem_of_ask asks.wellFormed asks.eq_ask mem
    exact ⟨i + 1, T, Nat.le_refl _, session ▸ asks.left, hmem⟩
  | @kept S s ds session kept mem =>
    have hS := (wellFormed_before steps i).session session
    exact ⟨i, S, Nat.le_succ i, session, hS.kept s ds kept d mem⟩

/-- Two adapters that come to light in a session have been in it together. -/
theorem ComesUp.exists_mem_mem (hd : ComesUp steps i id d) (he : ComesUp steps j id e) :
    ∃ T : Session, T.WellFormed ∧ T.id = id ∧ d ∈ T.declarations ∧ e ∈ T.declarations := by
  obtain ⟨k, S, -, hS, hd⟩ := hd.exists_mem
  obtain ⟨l, T, -, hT, he⟩ := he.exists_mem
  rcases Nat.le_total k l with h | h
  · have hT' := (wellFormed_before steps l).session hT
    exact ⟨T, hT', id_of_session? hT, (session_grows hS hT h).mem hd, he⟩
  · have hS' := (wellFormed_before steps k).session hS
    exact ⟨S, hS', id_of_session? hS, hd, (session_grows hT hS h).mem he⟩

/-- **One adapter per symbol, for good.**  The adapters that come to light in a session are its own.
Two that belong to one symbol are the same, and so are two with one number, which is the identity of
an adapter; so neither the symbol nor the kind nor the name of an adapter ever changes.  Once an
adapter has come to light the session answers with it whenever it is asked for the adapter of its
symbol, even if the host knows nothing of the symbol by then. -/
theorem comesUp_unique (hd : ComesUp steps i id d) (he : ComesUp steps j id e) :
    d.session = id ∧ (d.symbol = e.symbol ↔ d = e) ∧ (d.serial = e.serial ↔ d = e) ∧
      ∀ k host S, i < k → steps[k]? = some (.ask host id (.adapter d.symbol)) →
        (before steps k).session? id = some S →
        (run {} steps).1[k]? = some (some (.ok (.declaration d))) := by
  obtain ⟨T, hT, hid, hdT, heT⟩ := hd.exists_mem_mem he
  refine ⟨(hT.own d hdT).trans hid, ⟨hT.eq_of_symbol_eq hdT heT, fun h ↦ congrArg _ h⟩,
    ⟨hT.eq_of_serial_eq hdT heT, fun h ↦ congrArg _ h⟩, ?_⟩
  intro k host S hk hstep hS
  obtain ⟨l, S', hl, hS', hmem⟩ := hd.exists_mem
  have hgrows := session_grows hS' hS (Nat.le_trans hl hk)
  have hadapter := ((wellFormed_before steps k).session hS).adapter?_eq_some (hgrows.mem hmem)
  have hends := (asks_of_step hstep hS).ends
  rwa [Session.ask_adapter hadapter] at hends

/-- The property comes to light as a member, and is handed out again by a session whose front end
has lost it. -/
theorem comesUp_unique_sample : ComesUp sampleRun 2 ⟨0⟩ Sample.size ∧
    (run {} sampleRun).1[3]? = some (some (.ok (.declaration Sample.size))) := by
  have hstep : sampleRun[2]? = some (.ask Sample.table.toHost ⟨0⟩ (.members Sample.widget)) := rfl
  have hsession : (before sampleRun 2).session? ⟨0⟩ = some _ := rfl
  have h : ComesUp sampleRun 2 ⟨0⟩ Sample.size :=
    .answered (a := .declarations [Sample.size]) (asks_of_step hstep hsession) rfl
      (List.mem_singleton.mpr rfl)
  exact ⟨h, (comesUp_unique h h).2.2.2 3 _ _ (by decide) rfl rfl⟩

end Workspace
end SymbolView
