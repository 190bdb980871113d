import SymbolView.Proofs.Session.Additions
import SymbolView.Proofs.SymbolTable.Nesting
import SymbolView.Proofs.Workspace.Runs

/-!
# What a question adds to a session of a run

A session that is asked in a run keeps all its adapters, and what it makes besides depends on the
question (`Workspace.asks_additions`).  That holds however the question ends: hosts may have changed
since the last question, refuse at any point or lead in a circle.  So a session never has fewer
adapters than before.
-/

set_option autoImplicit false

namespace SymbolView
namespace Workspace

open Session

variable {steps : List Step} {i : Nat} {host : Host} {q : Query} {S T : Session}
  {r : Except Failure Answer}

/-- **What a question adds.**  Take a question in a run, in which hosts change and fail at will,
about an adapter that is not forged: if it names the session as its own then the session has made
it.  However the question ends, each adapter stays the one of its symbol.  Besides,

* a question about what a declaration or a type is like makes no adapters, and neither does the
  question for an adapter if it fails;
* a climb to a category makes the adapters on the way, up to the match if there is one;
* a question for properties or functions makes the adapters that it answers with.  If it fails these
  are some of those that are wanted, and none if not all of the candidates have been looked at.

So a session that is open at a later time has at least as many adapters. -/
theorem asks_additions (asks : Asks steps i host q S r T)
    (genuine : ∀ d ∈ q.subject?, d.session = S.id → d ∈ S.declarations) :
    (∀ s d, S.adapter? s = some d → T.adapter? s = some d) ∧
      (q.isPlain = true → T.declarations = S.declarations) ∧
      (∀ s e, q = .adapter s → r = .error e → T.declarations = S.declarations) ∧
      (∀ category d, q = .ancestorOf category d →
        ∃ o line, r = Answer.declaration? <$> o ∧ Climbs host category S T d o line) ∧
      (∀ d, q = .properties d → ∃ o made, r = Answer.declarations <$> o ∧
        AddsWanted host isProperty (host.callableMembers d.symbol) S T d o made) ∧
      (∀ d, q = .functions d → ∃ o made, r = Answer.declarations <$> o ∧
        AddsWanted host isFunction (host.functionCandidates d.symbol) S T d o made) ∧
      ∀ j U, i ≤ j → (before steps j).session? S.id = some U → S.adapterCount ≤ U.adapterCount := by
  have asked := asks.eq_ask
  have ends {α : Type} {m : SessionM α} {g : α → Answer} (h : q.run host = g <$> m) :
      r = g <$> (m.run.run S).1 ∧ T = (m.run.run S).2 := by
    rw [Session.ask, h, SessionM.run_map] at asked
    exact ⟨(congrArg Prod.fst asked).symm, (congrArg Prod.snd asked).symm⟩
  refine ⟨fun s d hd ↦ ?_, fun plain ↦ ?_, ?_, ?_, ?_, ?_, fun j U later hU ↦ ?_⟩
  · have grows := grows_ask asks.wellFormed host q
    rw [asked] at grows
    exact adapter?_of_prefix grows.declarations hd
  · have kept := declarations_ask_of_isPlain asks.wellFormed genuine plain host
    rwa [asked] at kept
  · rintro s e rfl rfl
    obtain ⟨hr, rfl⟩ := ends rfl
    rcases run_adapterFor_cases host S s with ⟨d, U, hrun, -, -⟩ | ⟨e', hrun⟩
    · rw [hrun] at hr
      cases hr
    · rw [hrun]
  · rintro category d rfl
    obtain ⟨rfl, rfl⟩ := ends rfl
    obtain ⟨line, climbed⟩ := climbs host category SymbolId.count S d
    exact ⟨_, line, rfl, climbed⟩
  · rintro d rfl
    obtain ⟨rfl, rfl⟩ := ends rfl
    obtain ⟨made, adds⟩ := addsWanted host isProperty (host.callableMembers d.symbol) S d rfl
    exact ⟨_, made, rfl, adds⟩
  · rintro d rfl
    obtain ⟨rfl, rfl⟩ := ends rfl
    obtain ⟨made, adds⟩ := addsWanted host isFunction (host.functionCandidates d.symbol) S d
      (functions_eq host d)
    exact ⟨_, made, rfl, adds⟩
  · have grows := session_grows asks.met hU later
    rw [← length_declarations, ← length_declarations]
    exact grows.declarations.length_le

/-- The class around a parameter is looked for. -/
def sampleClimbing : List Step := [
  .start {},
  .ask SymbolTable.sampleNesting.toHost ⟨0⟩ (.adapter ⟨4⟩),
  .ask SymbolTable.sampleNesting.toHost ⟨0⟩
    (.ancestorOf .classLike ⟨⟨4⟩, .valueParameter, some "value", ⟨0⟩, 0⟩)]

/-- The adapters of the setter, the property and the class are made, and not that of the file. -/
theorem asks_additions_sample : ∃ S T o line,
    Asks sampleClimbing 2 SymbolTable.sampleNesting.toHost
        (.ancestorOf .classLike ⟨⟨4⟩, .valueParameter, some "value", ⟨0⟩, 0⟩) S
        (Answer.declaration? <$> o) T ∧
      Climbs SymbolTable.sampleNesting.toHost .classLike S T
        ⟨⟨4⟩, .valueParameter, some "value", ⟨0⟩, 0⟩ o line ∧
      T.declarations.map (·.symbol) = [⟨4⟩, ⟨3⟩, ⟨2⟩, ⟨1⟩] := by
  have met : (before sampleClimbing 2).session? ⟨0⟩ = some _ := rfl
  have asks := asks_of_step (i := 2) rfl met
  obtain ⟨-, -, -, climbs, -⟩ := asks_additions asks (by rintro d ⟨⟩ -; decide)
  obtain ⟨o, line, hr, climbed⟩ := climbs .classLike _ rfl
  rw [hr] at asks
  exact ⟨_, _, o, line, asks, climbed, rfl⟩

end Workspace
end SymbolView
