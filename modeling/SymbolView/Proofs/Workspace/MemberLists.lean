import SymbolView.Proofs.Session.Listing
import SymbolView.Proofs.SymbolTable.Edits
import SymbolView.Proofs.Workspace.Runs

/-!
# What the members of a class are

A question for the members of a class that is not answered from the cell of the class lists the
declared members and then the static ones, as the host names them, each once where it comes first
(`Workspace.asks_members`).  Nothing is assumed of the two lists: they may have repetitions, overlap
and name symbols that the session has adapters for or that the host says no more about.  In the last
case the question fails at the first such symbol; what has been made for those before it stays, and
nothing is kept.
-/

set_option autoImplicit false

namespace SymbolView

open SessionM Session

/-! ## Questions that meet an empty cell -/

namespace Finding

variable {f : Finding} {v : f.Value} {host : Host} {S T : Session} {d : Declaration} {e : Failure}

/-- What is looked up is answered, and all that may happen besides is that it is kept. -/
theorem run_find_of_lookUp_eq_ok (own : d.session = S.id) (hf : f.isOf d.kind = true)
    (empty : f.isKeptBy S.config = true → f.kept S d.symbol = none)
    (h : (f.lookUp host d).run.run S = (.ok v, T)) :
    (f.find host d).run.run S = (.ok v, T) ∨
      (f.find host d).run.run S = (.ok v, T.updateMemo d.symbol (f.cell.write v)) := by
  rw [run_find own hf]
  cases hc : f.isKeptBy S.config with
  | true => exact .inr (by rw [run_fetch_of_empty host hc (empty hc), h])
  | false => exact .inl ((run_fetch_of_not_isKeptBy hc).trans h)

/-- What cannot be looked up is not answered. -/
theorem run_find_of_lookUp_eq_error (own : d.session = S.id) (hf : f.isOf d.kind = true)
    (empty : f.isKeptBy S.config = true → f.kept S d.symbol = none)
    (h : (f.lookUp host d).run.run S = (.error e, T)) :
    (f.find host d).run.run S = (.error e, T) := by
  rw [run_find own hf]
  cases hc : f.isKeptBy S.config with
  | true => rw [run_fetch_of_empty host hc (empty hc), h]
  | false => exact (run_fetch_of_not_isKeptBy hc).trans h

/-- The members of a class are looked up by listing the symbols that the host names. -/
theorem run_lookUp_members {declared static : List SymbolId}
    (hdeclared : host.declaredMembers d.symbol = .ok declared)
    (hstatic : host.staticMembers d.symbol = .ok static) :
    (members.lookUp host d).run.run S =
      (adaptersFor host (declared ++ static).eraseDups).run.run S := by
  rw [lookUp, currentMembers, hdeclared, hstatic]
  rfl

end Finding

/-- A table tells what it shows of each symbol that it knows. -/
theorem SymbolTable.canAdapt_toHost {table : SymbolTable} {s : SymbolId} {S : Session}
    (known : table.Knows s) : S.CanAdapt table.toHost s := by
  obtain ⟨r, hr⟩ := known
  refine .inr ⟨(r.kind, r.name), ?_⟩
  simp only [Host.kindAndName, toHost, hr]
  rfl

/-! ## Runs -/

namespace Workspace

variable {steps : List Step} {i : Nat} {host : Host} {S T : Session} {d : Declaration}
  {r : Except Failure Answer} {declared static : List SymbolId}

/-- **The members of a class are the declared ones and then the static ones, each once.**  Take a
question for the members of a class in a run, in which hosts change and fail at will, that is not
answered from the cell of the class.  Let the host name the declared and the static members.

* If each of them has an adapter or one can be made, the answer are adapters of the session for the
  symbols that are named, each once where it is named first.  Those that were there are used again.
* If there is a first symbol among them that has no adapter and that the host refuses to tell the
  kind or the name of, the question fails with what the host says.  The adapters of the symbols
  before it have been made and no others, and nothing has been kept. -/
theorem asks_members (asks : Asks steps i host (.members d) S r T) (hd : d ∈ S.declarations)
    (classLike : d.kind.hasMembers = true)
    (empty : S.config.memoizeMembers = true → (S.memo d.symbol).members = none)
    (hdeclared : host.declaredMembers d.symbol = .ok declared)
    (hstatic : host.staticMembers d.symbol = .ok static) :
    ((∀ s ∈ declared ++ static, S.CanAdapt host s) →
      ∃ ds, r = .ok (.declarations ds) ∧
        FirstOccurrences (fun _ ↦ True) (declared ++ static) (ds.map (·.symbol)) ∧
        Adapts host S T ds) ∧
    ∀ before s rest e, FirstOccurrences (fun _ ↦ True) (declared ++ static) (before ++ s :: rest) →
      (∀ t ∈ before, S.CanAdapt host t) → S.adapter? s = none → host.kindAndName s = .error e →
      r = .error (.ofHost e) ∧ (∃ ds, ds.map (·.symbol) = before ∧ Adapts host S T ds) ∧
        ∀ t, T.memo t = S.memo t := by
  have own := asks.wellFormed.own d hd
  have listed := firstOccurrences_eraseDups (declared ++ static)
  have lookUp := Finding.run_lookUp_members (S := S) hdeclared hstatic
  have asked : S.ask host (Finding.members.question d) = (r, T) := asks.eq_ask
  rw [ask_question] at asked
  constructor
  · intro adaptable
    obtain ⟨ds, U, hrun, symbols, adapts⟩ := run_adaptersFor listed.nodup fun s hs ↦
      adaptable s ((listed.mem_iff s).mp hs).1
    rw [hrun] at lookUp
    have found := Finding.run_find_of_lookUp_eq_ok (f := .members) own classLike empty lookUp
    rcases found with found | found
    all_goals
      rw [found] at asked
      cases asked
      refine ⟨ds, rfl, symbols ▸ listed, ?_⟩
    · exact adapts
    · exact adapts.updateMemo ..
  · intro before s rest e taken adaptable new refused
    obtain ⟨ds, U, hrun, symbols, adapts⟩ :=
      run_adaptersFor_of_error taken.nodup adaptable new refused
    rw [taken.unique listed] at hrun
    rw [hrun] at lookUp
    rw [Finding.run_find_of_lookUp_eq_error (f := .members) own classLike empty lookUp] at asked
    cases asked
    refine ⟨rfl, ⟨ds, symbols, adapts⟩, fun t ↦ ?_⟩
    have kept := Finding.memo_lookUp .members host d S t
    rwa [lookUp] at kept

/-- A class that names members twice, with static members as given. -/
def sampleRepeats (static : List SymbolId) : SymbolTable where
  symbols := #[
    { kind := .namedClass, name := some "Cart", declaredMembers := [⟨1⟩, ⟨2⟩, ⟨1⟩],
      staticMembers := static },
    { kind := .property, name := some "size" },
    { kind := .functionLike, name := some "fill" },
    { kind := .property, name := some "limit" }]
  files := #[]
  classes := []

/-- The members of the class are asked for twice, after the adapter of one of them has been made.
At first one of the static members is a symbol that is not there. -/
def sampleListing : List Step :=
  let cart : Declaration := ⟨⟨0⟩, .cls, some "Cart", ⟨0⟩, 0⟩
  [ .start {},
    .ask (sampleRepeats []).toHost ⟨0⟩ (.adapter ⟨0⟩),
    .ask (sampleRepeats []).toHost ⟨0⟩ (.adapter ⟨2⟩),
    .ask (sampleRepeats [⟨2⟩, ⟨9⟩, ⟨3⟩]).toHost ⟨0⟩ (.members cart),
    .ask (sampleRepeats [⟨2⟩, ⟨3⟩, ⟨1⟩]).toHost ⟨0⟩ (.members cart) ]

/-- The first question fails, when the adapter of one more member has been made; the second lists
three members. -/
theorem asks_members_sample :
    (run {} sampleListing).1[3]? = some (some (.error (.ofHost (.unknownSymbol ⟨9⟩)))) ∧
      ∃ ds, (run {} sampleListing).1[4]? = some (some (.ok (.declarations ds))) ∧
        FirstOccurrences (fun _ ↦ True) [⟨1⟩, ⟨2⟩, ⟨1⟩, ⟨2⟩, ⟨3⟩, ⟨1⟩] (ds.map (·.symbol)) := by
  have known {S : Session} {static l : List SymbolId}
      (h : ∀ s ∈ l, (sampleRepeats static).Knows s) :
      ∀ s ∈ l, S.CanAdapt (sampleRepeats static).toHost s :=
    fun s hs ↦ SymbolTable.canAdapt_toHost (h s hs)
  have met : (before sampleListing 3).session? ⟨0⟩ = some _ := rfl
  have met' : (before sampleListing 4).session? ⟨0⟩ = some _ := rfl
  have asks := asks_of_step (i := 3) rfl met
  have asks' := asks_of_step (i := 4) rfl met'
  obtain ⟨-, fails⟩ := asks_members asks (by decide) rfl (fun _ ↦ rfl) rfl rfl
  obtain ⟨answers, -⟩ := asks_members asks' (by decide) rfl (fun _ ↦ rfl) rfl rfl
  constructor
  · obtain ⟨failed, -⟩ := fails [⟨1⟩, ⟨2⟩] ⟨9⟩ [⟨3⟩] _ (firstOccurrences_eraseDups _)
      (known (by decide)) rfl rfl
    rw [← failed]
    exact asks.ends
  · obtain ⟨ds, answered, taken, -⟩ := answers (known (by decide))
    refine ⟨ds, ?_, taken⟩
    rw [← answered]
    exact asks'.ends

end Workspace
end SymbolView
