import SymbolView.Proofs.Classifier.Resolution
import SymbolView.Proofs.SymbolTable.Coherence
import SymbolView.Proofs.Workspace.MemberLists

/-!
# Classes come back under their names

A session tells the name of a class (`Session.classId`) and finds the class of a name
(`Session.classOf`).  On a table that is built by naming only what is known the two are inverse to
each other as far as that can be:

* a name that is not local leads to the latest class or type alias of the name, and from there back
  to the name (`SymbolTable.WellFormed.lookupClass_eq_ok_some_iff`);
* a local name is not indexed.  It leads to a class that is entered among the members of the latest
  class around it, if no other class or type alias there has the name (`SymbolTable.DeclaresLocal`).

`Workspace.session_ask_classOf` says so of any session of a run.
-/

set_option autoImplicit false

namespace SymbolView

open SessionM Session

/-! ## Names of local classes -/

namespace ClassId

theorem shortName_nested (outer : ClassId) (name : String) :
    (outer.nested name).asLocal.shortName = name :=
  List.getLastD_concat ..

theorem around_nested {outer : ClassId} (indexed : outer.isLocal = false) (name : String) :
    (outer.nested name).asLocal.around = outer := by
  obtain ⟨package, relative, isLocal⟩ := outer
  obtain rfl : isLocal = false := indexed
  show ClassId.mk package (relative ++ [name]).dropLast false = _
  rw [List.dropLast_concat]

theorem length_nested (outer : ClassId) (name : String) :
    (outer.nested name).asLocal.relative.length = outer.relative.length + 1 :=
  List.length_append

end ClassId

/-! ## What a table finds -/

namespace SymbolTable

variable {table : SymbolTable} {id outer : ClassId} {name : String} {s o m : SymbolId}

/-- A table tells of each symbol that it knows whether it is a class of a name. -/
theorem tellsClassifier_toHost (known : table.Knows m) : table.toHost.TellsClassifier m := by
  obtain ⟨r, hr⟩ := known
  exact ⟨r.kind, map_eq_ok.mpr ⟨r, hr, rfl⟩, fun _ ↦ ⟨r.name, map_eq_ok.mpr ⟨r, hr, rfl⟩⟩⟩

/-- A name is in the index of a table, or the table says that it does not know it. -/
theorem classOf_cases (table : SymbolTable) (id : ClassId) :
    (∃ s, table.toHost.classOf id = .ok s) ∨
      table.toHost.classOf id = .error (.unknownClass id) := by
  cases found : table.classes.lookup id with
  | some s => exact .inl ⟨s, classOf_eq_ok.mpr found⟩
  | none =>
    right
    unfold toHost
    dsimp only
    rw [found]

namespace WellFormed

variable (wf : table.WellFormed)
include wf

/-- **A name that is not local leads to the latest class of the name.** -/
theorem lookupClass_eq_ok_some_iff (indexed : id.isLocal = false) :
    table.toHost.lookupClass id = .ok (some s) ↔ table.Latest id s := by
  rw [Host.lookupClass_eq_ok_some_iff indexed, classOf_eq_ok, wf.index]

/-- A name that is not local and that no symbol has leads nowhere. -/
theorem lookupClass_of_unnamed (indexed : id.isLocal = false)
    (unnamed : ∀ t, table.toHost.classId t ≠ .ok (some id)) :
    table.toHost.lookupClass id = .ok none := by
  rcases table.classOf_cases id with ⟨s, hs⟩ | unknown
  · obtain ⟨⟨r, hr, named⟩, -⟩ := wf.index.mp (classOf_eq_ok.mp hs)
    exact absurd (map_eq_ok.mpr ⟨r, hr, named⟩) (unnamed s)
  · rw [Host.lookupClass, indexed, if_neg Bool.false_ne_true, Host.lookupIndexed, unknown]

/-- A lookup in a table does not fail, since what is in a list of members is known. -/
theorem answersLookup (id : ClassId) : table.toHost.AnswersLookup id := by
  constructor
  case around =>
    intro _ e he
    rcases table.classOf_cases id.around with ⟨s, hs⟩ | unknown
    · cases hs.symm.trans he
    · exact ⟨_, Except.error.inj (he.symm.trans unknown)⟩
  case members =>
    rintro o ⟨-, ho⟩
    obtain ⟨⟨r, hr, -⟩, -⟩ := wf.index.mp (classOf_eq_ok.mp ho)
    refine ⟨r.declaredMembers, map_eq_ok.mpr ⟨r, hr, rfl⟩, fun before m after hl _ ↦ ?_⟩
    have hm : m ∈ r.entries := by
      rw [SymbolRecord.entries, hl]
      simp
    exact tellsClassifier_toHost ((wf.entries hr hm).imp fun _ h ↦ h.1)

end WellFormed

/-- Whether a class that is not local declares a local class of a name.  The first is the latest of
its own name, and among its members no other class or type alias has the name of the second. -/
structure DeclaresLocal (table : SymbolTable) (outer : ClassId) (name : String) (s : SymbolId) :
    Prop where
  /-- The first is not local. -/
  indexed : outer.isLocal = false
  /-- It is a class, and not a package. -/
  nonempty : outer.relative ≠ []
  /-- The second is a class. -/
  isClass : table.toHost.symbolKind s = .ok .namedClass
  /-- It is called like that. -/
  named : table.toHost.symbolName s = .ok (some name)
  /-- Its name as a class says that it is local. -/
  classId : table.toHost.classId s = .ok (some (outer.nested name).asLocal)
  /-- It is a member of the first, and no other class or type alias there is called like that. -/
  member : ∃ o l, table.Latest outer o ∧ table.toHost.declaredMembers o = .ok l ∧ s ∈ l ∧
    ∀ m ∈ l, m ≠ s → ¬ table.toHost.NamesClassifier name m

/-- **A local class is held alone by the class that declares it.** -/
theorem DeclaresLocal.holdsAlone (h : table.DeclaresLocal outer name s) (wf : table.WellFormed) :
    table.toHost.HoldsAlone (outer.nested name).asLocal s := by
  obtain ⟨o, l, latest, hl, hs, others⟩ := h.member
  obtain ⟨r, hr, rfl⟩ := map_eq_ok.mp hl
  have distinct : r.declaredMembers.Nodup :=
    ((wf.nodup hr).sublist (List.sublist_append_left ..)).sublist (List.sublist_append_left ..)
  obtain ⟨before, after, split⟩ := List.append_of_mem hs
  rw [split] at distinct others hl
  obtain ⟨apart, -⟩ := List.nodup_cons.mp (List.nodup_middle.mp distinct)
  have long : 2 ≤ (outer.nested name).asLocal.relative.length := by
    rw [ClassId.length_nested]
    exact Nat.succ_le_succ (List.length_pos_iff.mpr h.nonempty)
  have around : table.toHost.classOf (outer.nested name).asLocal.around = .ok o := by
    rw [ClassId.around_nested h.indexed, classOf_eq_ok, wf.index]
    exact latest
  refine ⟨o, before, after, ⟨long, around⟩, hl, ?_, h.isClass, fun m hm ↦ ?_⟩
  · rw [ClassId.shortName_nested]
    exact ⟨.inl h.isClass, h.named⟩
  · rw [ClassId.shortName_nested]
    refine others m (List.perm_middle.mem_iff.mpr (List.mem_cons_of_mem s hm)) ?_
    rintro rfl
    exact apart hm

/-- So its name leads to it. -/
theorem DeclaresLocal.lookupClass_eq (h : table.DeclaresLocal outer name s)
    (wf : table.WellFormed) :
    table.toHost.lookupClass (outer.nested name).asLocal = .ok (some s) :=
  ((wf.answersLookup _).lookupClass_eq_ok_some_iff rfl).mpr (h.holdsAlone wf)

end SymbolTable

/-! ## What a session answers -/

namespace Session

variable {host : Host} {S T : Session} {d : Declaration} {id : ClassId} {s : SymbolId}
  {o : Option ClassId}

/-- Whether a session comes back to the adapter of a symbol if it is asked for the name of it and
then for the class of that name.  It answers the latter in the same way if it has not been asked
for the adapter before. -/
def ComesBack (S : Session) (host : Host) (s : SymbolId) (id : ClassId) : Prop :=
  ∃ d T, S.ask host (.adapter s) = (.ok (.declaration d), T) ∧
    T.ask host (.classId d) = (.ok (.classId? (some id)), T) ∧
    T.ask host (.classOf id) = (.ok (.declaration? (some d)), T) ∧
    S.ask host (.classOf id) = (.ok (.declaration? (some d)), T)

theorem ask_classId (own : d.session = S.id) (h : host.classId d.symbol = .ok o) :
    S.ask host (.classId d) = (.ok (.classId? o), S) := by
  rw [ask, Query.run, run_map, classId, run_bind, run_check_of_own own, h]
  rfl

/-- The class of a name is handed out like any symbol. -/
theorem ask_classOf_eq_ok_iff (lookUp : host.lookupClass id = .ok (some s)) :
    S.ask host (.classOf id) = (.ok (.declaration? (some d)), T) ↔
      (adapterFor host s).run.run S = (.ok d, T) := by
  rw [ask_classOf S lookUp]
  exact (run_map_eq_ok_iff fun _ _ ↦ Answer.declaration?.inj).trans
    (run_map_eq_ok_iff fun _ _ ↦ Option.some.inj)

theorem comesBack (hS : S.WellFormed) (can : S.CanAdapt host s)
    (named : host.classId s = .ok (some id)) (lookUp : host.lookupClass id = .ok (some s)) :
    S.ComesBack host s id := by
  obtain ⟨d, T, hrun, rfl, adapts⟩ := run_adapterFor_of_canAdapt can
  have made : T.adapter? d.symbol = some d := adapts.handed d List.mem_cons_self
  have asked : S.ask host (.adapter d.symbol) = (.ok (.declaration d), T) := by
    rw [ask, Query.run, run_map, hrun]
    rfl
  have hT : T.WellFormed := by
    have hT := wellFormed_ask hS host (.adapter d.symbol)
    rwa [asked] at hT
  refine ⟨d, T, asked, ask_classId (hT.own d (mem_of_adapter? made)) named, ?_, ?_⟩
  · exact (ask_classOf_eq_ok_iff lookUp).mpr (run_adapterFor_of_eq_some host made)
  · exact (ask_classOf_eq_ok_iff lookUp).mpr hrun

/-- A class that is handed out for a name has been looked up. -/
theorem exists_lookupClass_of_ask_classOf
    (h : S.ask host (.classOf id) = (.ok (.declaration? (some d)), T)) :
    host.lookupClass id = .ok (some d.symbol) ∧ T.adapter? d.symbol = some d := by
  cases lookUp : host.lookupClass id with
  | error e => cases (ask_classOf_of_error S lookUp).symm.trans h
  | ok found =>
    cases found with
    | none => cases (ask_classOf S lookUp).symm.trans h
    | some s =>
      have made := adapter?_of_run_adapterFor ((ask_classOf_eq_ok_iff lookUp).mp h)
      obtain rfl := symbol_of_adapter? made
      exact ⟨rfl, made⟩

end Session

/-! ## Runs -/

/-- A class with a local class and an enum entry of the same name in it. -/
def SymbolTable.sampleNames : SymbolTable :=
  let cart : ClassId := ⟨["shop"], ["Cart"], false⟩
  [ .declare .namedClass (some "Cart") [.classId cart],
    .declare .namedClass (some "Red") [.classId (cart.nested "Red").asLocal, .placed .asMember ⟨0⟩],
    .declare .enumEntry (some "Red") [.placed .asMember ⟨0⟩] ].foldl edit empty

theorem SymbolTable.built_sampleNames : Built sampleNames := by
  dsimp only [sampleNames, List.foldl_cons, List.foldl_nil]
  refine .edit (.edit (.edit .empty ?_) ?_) ?_ <;> decide

namespace Workspace

variable {steps : List Step} {i : Nat} {id : SessionId} {S : Session} {table : SymbolTable}

/-- **Classes come back under their names.**  Take a table that is built by naming only what is
known and has room for its symbols, and any session of a run, whatever it has been asked.

* The latest class or type alias of a name that is not local comes back under it.
* A local class comes back under its name if a class that is not local declares it.
* If a class is handed out for a name that is not local, then that is its name; and if no symbol has
  the name, then there is no class of the name, which is not a failure. -/
theorem classes_comeBack (built : table.Built) (fits : table.symbols.size ≤ SymbolId.count)
    (met : (before steps i).session? id = some S) :
    (∀ s cls, cls.isLocal = false → table.Latest cls s → S.ComesBack table.toHost s cls) ∧
      (∀ outer name s, table.DeclaresLocal outer name s →
        S.ComesBack table.toHost s (outer.nested name).asLocal) ∧
      ∀ cls, cls.isLocal = false →
        (∀ d T, S.ask table.toHost (.classOf cls) = (.ok (.declaration? (some d)), T) →
          T.ask table.toHost (.classId d) = (.ok (.classId? (some cls)), T)) ∧
        ((∀ t, table.toHost.classId t ≠ .ok (some cls)) →
          S.ask table.toHost (.classOf cls) = (.ok (.declaration? none), S)) := by
  have wf := built.wellFormed fits
  have hS := (wellFormed_before steps i).session met
  have named {cls : ClassId} {s : SymbolId} (latest : table.Latest cls s) :
      table.toHost.classId s = .ok (some cls) := by
    obtain ⟨⟨r, hr, named⟩, -⟩ := latest
    exact map_eq_ok.mpr ⟨r, hr, named⟩
  refine ⟨fun s cls indexed latest ↦ ?_, fun outer name s h ↦ ?_, fun cls indexed ↦ ⟨?_, ?_⟩⟩
  · have known : table.Knows s := latest.1.imp fun _ h ↦ h.1
    exact comesBack hS (SymbolTable.canAdapt_toHost known) (named latest)
      ((wf.lookupClass_eq_ok_some_iff indexed).mpr latest)
  · obtain ⟨r, hr, -⟩ := map_eq_ok.mp h.isClass
    exact comesBack hS (SymbolTable.canAdapt_toHost ⟨r, hr⟩) h.classId (h.lookupClass_eq wf)
  · intro d T answered
    have hT := wellFormed_ask hS table.toHost (.classOf cls)
    rw [answered] at hT
    obtain ⟨lookUp, made⟩ := exists_lookupClass_of_ask_classOf answered
    exact ask_classId (hT.own d (mem_of_adapter? made))
      (named ((wf.lookupClass_eq_ok_some_iff indexed).mp lookUp))
  · intro unnamed
    exact ask_classOf S (wf.lookupClass_of_unnamed indexed unnamed)

/-- A session is asked for the adapter of the enum entry. -/
def sampleNaming : List Step := [
  .start {},
  .ask SymbolTable.sampleNames.toHost ⟨0⟩ (.adapter ⟨2⟩)]

/-- The class and the local class in it come back, though the enum entry has the name of the
latter. -/
theorem classes_comeBack_sample : ∃ S, (before sampleNaming 2).session? ⟨0⟩ = some S ∧
    S.ComesBack SymbolTable.sampleNames.toHost ⟨0⟩ ⟨["shop"], ["Cart"], false⟩ ∧
    S.ComesBack SymbolTable.sampleNames.toHost ⟨1⟩ ⟨["shop"], ["Cart", "Red"], true⟩ := by
  have fits : SymbolTable.sampleNames.symbols.size ≤ SymbolId.count := by decide
  have met : (before sampleNaming 2).session? ⟨0⟩ = some _ := rfl
  obtain ⟨indexed, enclosed, -⟩ := classes_comeBack SymbolTable.built_sampleNames fits met
  have latest : SymbolTable.sampleNames.Latest ⟨["shop"], ["Cart"], false⟩ ⟨0⟩ :=
    (SymbolTable.built_sampleNames.wellFormed fits).index.mp rfl
  refine ⟨_, met, indexed ⟨0⟩ _ rfl latest, enclosed ⟨["shop"], ["Cart"], false⟩ "Red" ⟨1⟩ ?_⟩
  refine ⟨rfl, List.cons_ne_nil _ _, rfl, rfl, rfl, ⟨0⟩, [⟨1⟩, ⟨2⟩], latest, rfl, ?_, ?_⟩
  · exact List.mem_cons_self
  · decide

end Workspace
end SymbolView
