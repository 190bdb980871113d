import SymbolView.Proofs.Workspace.Runs

/-!
# Adapters of other sessions are refused

A session that is asked about an adapter of another session refuses before it does anything else:
before it looks into a cell, before it asks the host and before it looks at what the adapter is.
`Session.Refuses` says so of a computation.  A computation that begins with one that refuses refuses
itself, so every question comes down to the `check` it begins with: `Session.ask_of_foreign`.

`Workspace.ask_foreign` is about two sessions of a run.
-/

set_option autoImplicit false

namespace SymbolView

open SessionM

/-! ## One question -/

namespace Session

variable {α β : Type} {host : Host} {S : Session} {d : Declaration} {m : SessionM α}

/-- A computation refuses a declaration: it ends with an error that names the symbol and both
sessions, and the session is as it was. -/
def Refuses (S : Session) (d : Declaration) (m : SessionM α) : Prop :=
  m.run.run S = (.error (.error (.foreignSession d.symbol d.session S.id)), S)

theorem refuses_check (h : d.session ≠ S.id) : S.Refuses d (check d) :=
  run_check_of_foreign h

theorem Refuses.bind (h : S.Refuses d m) (f : α → SessionM β) : S.Refuses d (m >>= f) := by
  rw [Refuses, run_bind, h]

theorem Refuses.map (h : S.Refuses d m) (g : α → β) : S.Refuses d (g <$> m) := by
  rw [Refuses, run_map, h]
  rfl

theorem refuses_annotations (h : d.session ≠ S.id) (host : Host) :
    S.Refuses d (annotations host d) :=
  (refuses_check h).bind _

theorem refuses_annotationsFor (h : d.session ≠ S.id) (host : Host) (target : UseSiteTarget) :
    S.Refuses d (annotationsFor host target d) :=
  (refuses_check h).bind _

theorem refuses_members (h : d.session ≠ S.id) (host : Host) : S.Refuses d (members host d) :=
  (refuses_check h).bind _

/-- A climb begins with the parent of the declaration, and that with the check. -/
theorem refuses_climb (h : d.session ≠ S.id) (host : Host) (category : DeclarationCategory)
    (steps : Nat) : S.Refuses d (climb host category (steps + 1) d) :=
  ((refuses_check h).bind _).bind _

/-- A snapshot begins with the members of a class, or else with its name. -/
theorem refuses_snapshotWithin (h : d.session ≠ S.id) (host : Host) (depth : Nat) :
    S.Refuses d (snapshotWithin host (depth + 1) d) := by
  rw [snapshotWithin]
  split
  · exact (refuses_members h host).bind _
  · exact ((refuses_check h).bind _).bind _

/-- **Every question about an adapter of another session is refused**, and changes nothing. -/
theorem ask_of_foreign {q : Query} (hq : q.subject? = some d) (h : d.session ≠ S.id)
    (host : Host) :
    S.ask host q = (.error (.error (.foreignSession d.symbol d.session S.id)), S) := by
  have hcheck := refuses_check h
  show S.Refuses d (q.run host)
  cases q <;> cases hq
  case ancestorOf category => exact (refuses_climb h host category _).map _
  case members => exact (refuses_members h host).map _
  case annotations => exact (refuses_annotations h host).map _
  case annotationsFor target => exact (refuses_annotationsFor h host target).map _
  case annotationsForOption target =>
    cases target with
    | none => exact (refuses_annotations h host).map _
    | some target => exact (refuses_annotationsFor h host target).map _
  case resolvedAnnotations => exact ((refuses_annotations h host).bind _).map _
  case snapshot => exact (refuses_snapshotWithin h host _).map _
  -- the others are answered by a computation that begins with the check itself
  all_goals exact (hcheck.bind _).map _

end Session

/-! ## Two sessions of a run -/

namespace Workspace

variable {w : Workspace} {steps : List Step} {i j : Nat} {id owner : SessionId} {S T : Session}
  {d : Declaration}

/-- To put a session in the state that it is in changes nothing. -/
theorem put_of_session? (hw : w.WellFormed) (h : w.session? id = some S) : w.put S = w := by
  have hmap : w.sessions.map (fun T ↦ if T.id = S.id then S else T) = w.sessions := by
    refine (List.map_congr_left fun T hT ↦ ?_).trans (List.map_id _)
    split
    · next hid => exact (List.inj_on_of_nodup_map hw.ids hT (mem_of_session? h) hid).symm
    · rfl
  rw [put, hmap]

/-- A session that is asked about an adapter of another refuses, and no session changes by it. -/
theorem ask_of_foreign (hw : w.WellFormed) (hS : w.session? id = some S) {q : Query}
    (hq : q.subject? = some d) (h : d.session ≠ id) (host : Host) :
    w.ask host id q = (some (.error (.error (.foreignSession d.symbol d.session id))), w) := by
  obtain rfl := id_of_session? hS
  rw [ask_of_eq_some hS, Session.ask_of_foreign hq h host]
  exact congrArg (Prod.mk _) (put_of_session? hw hS)

/-- **Adapters of other sessions are refused before anything happens.**  Whatever has been done in
a workspace, whatever the host says or refuses to say, and whatever is known of an adapter that one
session has made: another session refuses every question about it, with an error that names the
symbol and both sessions.  No session changes by that. -/
theorem ask_foreign (hT : (before steps j).session? owner = some T) (hd : d ∈ T.declarations)
    (hS : (before steps i).session? id = some S) (hne : owner ≠ id) {q : Query}
    (hq : q.subject? = some d) (host : Host) :
    (before steps i).ask host id q =
      (some (.error (.error (.foreignSession d.symbol owner id))), before steps i) := by
  have howner : d.session = owner :=
    (((wellFormed_before steps j).session hT).own d hd).trans (id_of_session? hT)
  have hforeign : d.session ≠ id := by rwa [howner]
  rw [ask_of_foreign (wellFormed_before steps i) hS hq hforeign host, howner]

/-- A class whose members one session keeps is refused by another, which asks a front end that
knows of nothing. -/
theorem ask_foreign_sample :
    (before (sampleRun ++ [.start {}]) 6).ask SymbolTable.empty.toHost ⟨1⟩
        (.members Sample.widget) =
      (some (.error (.error (.foreignSession ⟨0⟩ ⟨0⟩ ⟨1⟩))),
        before (sampleRun ++ [.start {}]) 6) := by
  have howner : (before (sampleRun ++ [.start {}]) 6).session? ⟨0⟩ = some _ := rfl
  have hmem : Sample.widget ∈ [Sample.widget, Sample.size] := List.mem_cons_self
  have hasked : (before (sampleRun ++ [.start {}]) 6).session? ⟨1⟩ = some _ := rfl
  exact ask_foreign howner hmem hasked (by decide) rfl _

end Workspace
end SymbolView
