import SymbolView.Proofs.Session.Callables

/-!
# Which adapters a question makes

A session makes the adapter of a symbol when it is first handed out.  `Session.Adds` says that from
one state of a session to a later one the adapters of some symbols have been made, as far as they
were not there, and no others.  Which symbols these are depends on the question, and on how far it
got if it failed:

* none, if the question is about the declaration itself or about a type
  (`Session.declarations_ask_of_isPlain`);
* those on the way up to the match, if it is a climb (`Session.climbs`);
* those that are selected, if it asks for properties or functions, and so none at all before it is
  settled which of the candidates these are (`Session.addsWanted`).
-/

set_option autoImplicit false

namespace SymbolView

open SessionM

variable {α β : Type} {host : Host} {S T U : Session} {d : Declaration} {s : SymbolId}
  {l l' : List SymbolId} {ds : List Declaration}

/-! ## The adapters of some symbols -/

namespace Session

/-- Whether a session becomes another one by making the adapters of some symbols, as far as they are
not there. -/
def Adds (S T : Session) (l : List SymbolId) : Prop :=
  ∃ new, T.declarations = S.declarations ++ new ∧ (new.map (·.symbol)).Nodup ∧
    ∀ s, s ∈ new.map (·.symbol) ↔ s ∈ l ∧ S.adapter? s = none

namespace Adds

theorem nil (h : T.declarations = S.declarations) : S.Adds T [] :=
  ⟨[], by simp [h], List.nodup_nil, by simp⟩

/-- The adapters that are there stay. -/
theorem adapter?_of_eq_some (h : S.Adds T l) (hd : S.adapter? s = some d) :
    T.adapter? s = some d := by
  obtain ⟨new, hT, -⟩ := h
  exact adapter?_of_prefix (hT ▸ List.prefix_append _ _) hd

/-- Just the symbols that are named have an adapter now as well. -/
theorem adapter?_eq_none_iff (h : S.Adds T l) :
    T.adapter? s = none ↔ S.adapter? s = none ∧ s ∉ l := by
  obtain ⟨new, hT, -, mem_new⟩ := h
  have hnew : (∀ d ∈ new, d.symbol ≠ s) ↔ ¬ (s ∈ l ∧ S.adapter? s = none) := by
    rw [← mem_new, List.mem_map, not_exists]
    exact forall_congr' fun d ↦ not_and.symm
  rw [adapter?_eq_none, hT, List.forall_mem_append, ← adapter?_eq_none, hnew, not_and']
  exact and_congr_right fun hS ↦ ⟨fun h ↦ h hS, fun h _ ↦ h⟩

/-- What is made in one go and then in another is made altogether. -/
theorem append (h : S.Adds T l) (h' : T.Adds U l') : S.Adds U (l ++ l') := by
  have still (s : SymbolId) := h.adapter?_eq_none_iff (s := s)
  obtain ⟨new, hT, distinct, mem_new⟩ := h
  obtain ⟨new', hU, distinct', mem_new'⟩ := h'
  refine ⟨new ++ new', by rw [hU, hT, List.append_assoc], ?_, fun s ↦ ?_⟩
  · rw [List.map_append]
    refine List.nodup_append'.mpr ⟨distinct, distinct', fun s hs hs' ↦ ?_⟩
    exact ((still s).mp ((mem_new' s).mp hs').2).2 ((mem_new s).mp hs).1
  · rw [List.map_append, List.mem_append, List.mem_append, mem_new, mem_new', still]
    by_cases hs : s ∈ l <;> simp [hs]

theorem of_adapts (h : Adapts host S T ds) (distinct : (ds.map (·.symbol)).Nodup) :
    S.Adds T (ds.map (·.symbol)) := by
  refine ⟨_, h.added, (List.filter_sublist.map _).nodup distinct, fun s ↦ ?_⟩
  simp only [List.mem_map, List.mem_filter, Option.isNone_iff_eq_none]
  constructor
  · rintro ⟨d, ⟨hd, new⟩, rfl⟩
    exact ⟨⟨d, hd, rfl⟩, new⟩
  · rintro ⟨⟨d, hd, rfl⟩, new⟩
    exact ⟨d, ⟨hd, new⟩, rfl⟩

end Adds

/-- The adapter of a symbol is handed out, or nothing happens. -/
theorem run_adapterFor_cases (host : Host) (S : Session) (s : SymbolId) :
    (∃ d T, (adapterFor host s).run.run S = (.ok d, T) ∧ T.adapter? s = some d ∧ S.Adds T [s]) ∨
      ∃ e, (adapterFor host s).run.run S = (.error e, S) := by
  by_cases can : S.CanAdapt host s
  · obtain ⟨d, T, hrun, rfl, adapts⟩ := run_adapterFor_of_canAdapt can
    exact .inl ⟨d, T, hrun, adapts.handed d List.mem_cons_self,
      .of_adapts adapts (List.nodup_singleton _)⟩
  · obtain ⟨new, refused⟩ := not_or.mp can
    right
    cases hf : host.kindAndName s with
    | ok face => exact absurd ⟨face, hf⟩ refused
    | error e =>
      refine ⟨.ofHost e, ?_⟩
      rw [run_adapterFor_of_eq_none host (not_not.mp new), hf]

/-- The adapters of symbols are handed out, or those before the first that fails are made. -/
theorem run_adaptersFor_cases (host : Host) (S : Session) (l : List SymbolId) :
    (∃ ds T, (adaptersFor host l).run.run S = (.ok ds, T) ∧ S.Adds T l) ∨
      ∃ e T made, (adaptersFor host l).run.run S = (.error e, T) ∧ made <+: l ∧
        S.Adds T made := by
  induction l generalizing S with
  | nil => exact .inl ⟨[], S, rfl, .nil rfl⟩
  | cons s l ih =>
    rw [adaptersFor, run_bind]
    rcases run_adapterFor_cases host S s with ⟨d, T, hrun, -, adds⟩ | ⟨e, hrun⟩
    · rw [hrun]
      simp only [run_bind]
      rcases ih T with ⟨ds, U, hrun, adds'⟩ | ⟨e, U, made, hrun, hmade, adds'⟩
      · exact .inl ⟨d :: ds, U, by rw [hrun]; rfl, adds.append adds'⟩
      · exact .inr ⟨e, U, s :: made, by rw [hrun], List.cons_prefix_cons.mpr ⟨rfl, hmade⟩,
          adds.append adds'⟩
    · exact .inr ⟨e, S, [], by rw [hrun], List.nil_prefix, .nil rfl⟩

/-! ## Questions that make no adapters -/

/-- Whether a computation makes no adapters, however it ends. -/
def KeepsAdapters (m : SessionM α) : Prop :=
  ∀ S : Session, (m.run.run S).2.declarations = S.declarations

namespace KeepsAdapters

variable {m : SessionM α} {f : α → SessionM β}

theorem pure (a : α) : KeepsAdapters (Pure.pure a : SessionM α) := fun _ ↦ rfl

theorem ofHost (answer : Except HostError α) : KeepsAdapters (SessionM.ofHost answer) := by
  cases answer <;> exact fun _ ↦ rfl

theorem ofFault (answer : Except Fault α) : KeepsAdapters (SessionM.ofFault answer) := by
  cases answer <;> exact fun _ ↦ rfl

theorem ofOutcome (answer : Except Failure α) : KeepsAdapters (SessionM.ofOutcome answer) := by
  cases answer <;> exact fun _ ↦ rfl

theorem bind (hm : KeepsAdapters m) (hf : ∀ a, KeepsAdapters (f a)) : KeepsAdapters (m >>= f) := by
  intro S
  have hT := hm S
  rw [run_bind]
  cases hrun : m.run.run S with
  | mk r T =>
    rw [hrun] at hT
    cases r with
    | error e => exact hT
    | ok a => exact (hf a T).trans hT

theorem map (hm : KeepsAdapters m) (g : α → β) : KeepsAdapters (g <$> m) := by
  intro S
  rw [run_map]
  exact hm S

theorem check (d : Declaration) : KeepsAdapters (SymbolView.check d) := by
  intro S
  by_cases own : d.session = S.id
  · rw [run_check_of_own own]
  · rw [run_check_of_foreign own]

theorem memoize {cell : Cell α} (hm : KeepsAdapters m) (s : SymbolId) :
    KeepsAdapters (SymbolView.memoize cell s m) := by
  intro S
  have hT := hm S
  cases kept : cell.read (S.memo s) with
  | some a => rw [run_memoize_of_eq_some kept]
  | none =>
    rw [run_memoize_of_eq_none kept]
    cases hrun : m.run.run S with
    | mk r T =>
      rw [hrun] at hT
      cases r with
      | error e => exact hT
      | ok a => exact (declarations_updateMemo ..).trans hT

theorem render (type : TypeTerm) : KeepsAdapters (Session.render type) := by
  intro S
  rw [Session.render, run_get_bind]
  exact ofFault _ S

theorem annotations (host : Host) (d : Declaration) : KeepsAdapters (Session.annotations host d) :=
  (check d).bind fun _ ↦ (ofHost _).bind fun _ ↦ ofFault _

theorem writtenOnAll (host : Host) (target : UseSiteTarget) (ds : List Declaration) :
    KeepsAdapters (Session.writtenOnAll host target ds) := by
  induction ds with
  | nil => exact pure []
  | cons d ds ih =>
    rw [Session.writtenOnAll]
    exact ((ofHost _).bind fun _ ↦ ofFault _).bind fun _ ↦ ih.bind fun _ ↦ pure _

end KeepsAdapters

/-- Annotations with a target that does not land on an adapter are looked for on the adapter alone,
and that is there. -/
theorem declarations_annotationsFor {target : UseSiteTarget} (hS : S.WellFormed)
    (genuine : d.session = S.id → d ∈ S.declarations) (away : landsOn d.kind target = false)
    (host : Host) :
    ((annotationsFor host target d).run.run S).2.declarations = S.declarations := by
  rw [annotationsFor, run_bind]
  by_cases own : d.session = S.id
  · rw [run_check_of_own own]
    show ((if landsOn d.kind target then _ else _ : SessionM _).run.run S).2.declarations = _
    rw [away, if_neg Bool.false_ne_true, run_bind,
      run_adapterFor_of_eq_some host (hS.adapter?_eq_some (genuine own))]
    exact KeepsAdapters.writtenOnAll host target [d] S
  · rw [run_check_of_foreign own]

end Session

/-- Whether a question is about what a declaration or a type is like, and does not lead to another
declaration.  For annotations with a target that means that the target does not land on the
declaration. -/
def Query.isPlain : Query → Bool
  | origin _ | location _ | modifiers _ | docText _ | declaredType _ | typeText _ => true
  | render _ | classifierOf _ | classId _ | annotations _ => true
  | annotationsFor target d => !Session.landsOn d.kind target
  | annotationsForOption target d => target.all fun t ↦ !Session.landsOn d.kind t
  | _ => false

namespace Session

variable {q : Query}

/-- **A question about what a declaration or a type is like makes no adapters**, however it ends. -/
theorem declarations_ask_of_isPlain (hS : S.WellFormed)
    (genuine : ∀ d ∈ q.subject?, d.session = S.id → d ∈ S.declarations) (plain : q.isPlain = true)
    (host : Host) : (S.ask host q).2.declarations = S.declarations := by
  have checked {α : Type} (d : Declaration) {m : SessionM α} (hm : KeepsAdapters m)
      (g : α → Answer) : KeepsAdapters (g <$> (check d >>= fun _ ↦ m)) :=
    ((KeepsAdapters.check d).bind fun _ ↦ hm).map g
  have away {d : Declaration} {target : UseSiteTarget} (hd : d ∈ q.subject?)
      (h : (!landsOn d.kind target) = true) :
      ((Answer.annotations <$> annotationsFor host target d).run.run S).2.declarations =
        S.declarations := by
    rw [run_map]
    exact declarations_annotationsFor hS (genuine d hd) (by simpa using h) host
  rw [ask]
  cases q
  case origin d => exact checked d ((KeepsAdapters.ofOutcome _).memoize d.symbol) _ S
  case location d =>
    refine checked d (KeepsAdapters.memoize ?_ d.symbol) _ S
    exact (KeepsAdapters.ofHost _).bind fun _ ↦ .pure _
  case modifiers d =>
    exact checked d ((KeepsAdapters.ofHost _).bind fun _ ↦
      (KeepsAdapters.ofHost _).bind fun _ ↦ .pure _) _ S
  case docText d => exact checked d ((KeepsAdapters.ofHost _).bind fun _ ↦ .pure _) _ S
  case declaredType d => exact checked d (.ofHost _) _ S
  case typeText d =>
    refine checked d (KeepsAdapters.memoize ?_ d.symbol) _ S
    refine (KeepsAdapters.ofHost _).bind fun type ↦ ?_
    cases type with
    | none => exact .pure _
    | some type => exact (KeepsAdapters.render type).map _
  case render type => exact (KeepsAdapters.render type).map _ S
  case classifierOf => rfl
  case classId d => exact checked d (.ofHost _) _ S
  case annotations d => exact (KeepsAdapters.annotations host d).map _ S
  case annotationsFor target d => exact away rfl plain
  case annotationsForOption target d =>
    cases target with
    | none => exact (KeepsAdapters.annotations host d).map _ S
    | some target => exact away rfl plain
  all_goals cases plain

end Session

/-! ## Climbs -/

/-- Whether symbols lie in each other, from the parent of a symbol upwards. -/
def Host.Ascent (host : Host) : SymbolId → List SymbolId → Prop
  | _, [] => True
  | s, p :: line => host.parentOf s = .ok (some p) ∧ host.Ascent p line

namespace Session

variable {category : DeclarationCategory} {line : List Declaration}
  {r : Except Failure (Option Declaration)} {steps : Nat}

/-- What a climb from a declaration to a category does to a session that hands out the adapters
`line` on the way and then ends with `r`. -/
structure Climbs (host : Host) (category : DeclarationCategory) (S T : Session) (d : Declaration)
    (r : Except Failure (Option Declaration)) (line : List Declaration) : Prop where
  /-- They belong to the symbols on the way up. -/
  way : host.Ascent d.symbol (line.map (·.symbol))
  /-- They are the adapters of the session for them. -/
  handed : ∀ p ∈ line, T.adapter? p.symbol = some p
  /-- Just these have been made, as far as they were not there. -/
  added : S.Adds T (line.map (·.symbol))
  /-- Only the last may be of the category. -/
  passed : ∀ p ∈ line.dropLast, p.kind.category ≠ category
  /-- If it is, then that is the match. -/
  found : ∀ m, r = .ok (some m) ↔ line.getLast? = some m ∧ m.kind.category = category
  /-- If there is no match, the way goes to the top. -/
  top : r = .ok none →
    ∀ s ∈ (d.symbol :: line.map (·.symbol)).getLast?, host.parentOf s = .ok none

/-- The parent is handed out, or there is none, or nothing happens. -/
theorem run_parent_cases (host : Host) (S : Session) (d : Declaration) :
    (∃ p T, (parent host d).run.run S = (.ok (some p), T) ∧
        host.parentOf d.symbol = .ok (some p.symbol) ∧ T.adapter? p.symbol = some p ∧
        S.Adds T [p.symbol]) ∨
      ((parent host d).run.run S = (.ok none, S) ∧ host.parentOf d.symbol = .ok none) ∨
      ∃ e, (parent host d).run.run S = (.error e, S) := by
  rw [parent_eq, run_bind]
  by_cases own : d.session = S.id
  · rw [run_check_of_own own]
    cases host.parentOf d.symbol with
    | error e => exact .inr (.inr ⟨_, rfl⟩)
    | ok above =>
      cases above with
      | none => exact .inr (.inl ⟨rfl, rfl⟩)
      | some s =>
        show (∃ p T, (some <$> adapterFor host s).run.run S = _ ∧ _) ∨
          ((some <$> adapterFor host s).run.run S = _ ∧ _) ∨
          ∃ e, (some <$> adapterFor host s).run.run S = _
        rw [run_map]
        rcases run_adapterFor_cases host S s with ⟨p, T, hrun, hp, adds⟩ | ⟨e, hrun⟩
        · rw [hrun]
          obtain rfl := symbol_of_adapter? hp
          exact .inl ⟨p, T, rfl, rfl, hp, adds⟩
        · rw [hrun]
          exact .inr (.inr ⟨e, rfl⟩)
  · rw [run_check_of_foreign own]
    exact .inr (.inr ⟨_, rfl⟩)

namespace Climbs

/-- A climb that fails at once. -/
theorem failed (e : Failure) : Climbs host category S S d (.error e) [] where
  way := trivial
  handed := nofun
  added := .nil rfl
  passed := nofun
  found _ := ⟨nofun, nofun⟩
  top := nofun

/-- A climb from the top. -/
theorem ended (top : host.parentOf d.symbol = .ok none) :
    Climbs host category S S d (.ok none) [] where
  way := trivial
  handed := nofun
  added := .nil rfl
  passed := nofun
  found _ := ⟨nofun, nofun⟩
  top := by
    rintro - s ⟨⟩
    exact top

variable {p : Declaration} (way : host.parentOf d.symbol = .ok (some p.symbol))
  (hp : T.adapter? p.symbol = some p) (adds : S.Adds T [p.symbol])
include way hp adds

/-- A climb that ends at the parent. -/
theorem single (hcategory : p.kind.category = category) :
    Climbs host category S T d (.ok (some p)) [p] where
  way := ⟨way, trivial⟩
  handed := List.forall_mem_singleton.mpr hp
  added := adds
  passed := nofun
  found m := by
    constructor
    · rintro ⟨⟩
      exact ⟨rfl, hcategory⟩
    · rintro ⟨⟨⟩, -⟩
      rfl
  top := nofun

/-- A climb that goes on from the parent. -/
theorem next (hcategory : p.kind.category ≠ category) (above : Climbs host category T U p r line) :
    Climbs host category S U d r (p :: line) where
  way := ⟨way, above.way⟩
  handed := List.forall_mem_cons.mpr ⟨above.added.adapter?_of_eq_some hp, above.handed⟩
  added := adds.append above.added
  passed := by
    cases line with
    | nil => exact nofun
    | cons q line => exact List.forall_mem_cons.mpr ⟨hcategory, above.passed⟩
  found m := by
    cases line with
    | nil =>
      refine (above.found m).trans ⟨nofun, ?_⟩
      rintro ⟨⟨⟩, hm⟩
      exact absurd hm hcategory
    | cons q line => exact above.found m
  top := above.top

end Climbs

/-- **A climb makes the adapters on the way up to the match**, and no others. -/
theorem climbs (host : Host) (category : DeclarationCategory) (steps : Nat) (S : Session)
    (d : Declaration) : ∃ line, Climbs host category S ((climb host category steps d).run.run S).2 d
      ((climb host category steps d).run.run S).1 line := by
  -- the parent is the first of the line, and the rest of it comes from the climb from there
  induction steps generalizing S d with
  | zero => exact ⟨[], .failed _⟩
  | succ steps ih =>
    rw [climb, run_bind]
    rcases run_parent_cases host S d with ⟨p, T, hrun, way, hp, adds⟩ | ⟨hrun, top⟩ | ⟨e, hrun⟩
    · rw [hrun]
      dsimp only
      by_cases found : p.kind.category = category
      · rw [if_pos found]
        exact ⟨[p], .single way hp adds found⟩
      · rw [if_neg found]
        obtain ⟨line, above⟩ := ih T p
        exact ⟨p :: line, above.next way hp adds found⟩
    · rw [hrun]
      exact ⟨[], .ended top⟩
    · rw [hrun]
      exact ⟨[], .failed e⟩

end Session

/-! ## Properties and functions -/

/-- The symbols among which the functions of a class are. -/
def Host.functionCandidates (host : Host) (cls : SymbolId) : Except HostError (List SymbolId) :=
  return (← host.callableMembers cls) ++ (← host.constructors cls)

namespace Session

variable {wanted : SymbolKind → Bool} {cls : SymbolId} {selected : List SymbolId}
  {candidates : Except HostError (List SymbolId)} {r : Except Failure (List Declaration)}
  {made : List SymbolId}

/-- Whether a host fails before it is settled for each candidate whether it is wanted. -/
def Unsettled (host : Host) (wanted : SymbolKind → Bool) (cls : SymbolId)
    (candidates : Except HostError (List SymbolId)) : Prop :=
  ∀ l, candidates = .ok l → ∃ s ∈ l, ∃ e, isWanted host wanted cls s = .error e

/-- What a question for the wanted ones among the candidates does to a session if it makes some
adapters and ends with `r`. -/
structure AddsWanted (host : Host) (wanted : SymbolKind → Bool)
    (candidates : Except HostError (List SymbolId)) (S T : Session) (d : Declaration)
    (r : Except Failure (List Declaration)) (made : List SymbolId) : Prop where
  /-- The adapters are made as far as they were not there. -/
  added : S.Adds T made
  /-- Each belongs to a symbol that is wanted. -/
  chosen : ∀ s ∈ made, isWanted host wanted d.symbol s = .ok true
  /-- If there is an answer, it consists of them. -/
  answered : ∀ ds, r = .ok ds → ds.map (·.symbol) = made
  /-- None is made if the declaration is refused, or the host fails too early. -/
  unsettled : (d.session = S.id → d.kind.hasMembers = true →
    Unsettled host wanted d.symbol candidates) → made = []

theorem isWanted_of_selectWanted (h : selectWanted host wanted cls l = .ok selected) :
    ∀ s ∈ l, ∃ b, isWanted host wanted cls s = .ok b := by
  induction l generalizing selected with
  | nil => exact nofun
  | cons s l ih =>
    obtain ⟨keep, hkeep, h⟩ := bind_eq_ok.mp h
    obtain ⟨others, hothers, -⟩ := bind_eq_ok.mp h
    exact List.forall_mem_cons.mpr ⟨⟨keep, hkeep⟩, ih hothers⟩

/-- To select the wanted ones is to settle for each whether it is wanted. -/
theorem not_unsettled (h : selectWanted host wanted cls l = .ok selected) :
    ¬ Unsettled host wanted cls (.ok l) := by
  intro unsettled
  obtain ⟨s, hs, e, failed⟩ := unsettled l rfl
  obtain ⟨b, told⟩ := isWanted_of_selectWanted h s hs
  cases failed.symm.trans told

theorem isWanted_of_mem_selected (h : selectWanted host wanted cls l = .ok selected)
    (hs : s ∈ selected) : isWanted host wanted cls s = .ok true := by
  cases h.symm.trans (selectWanted_eq_filter (isWanted_of_selectWanted h))
  simpa using (List.mem_filter.mp hs).2

theorem AddsWanted.nothing (e : Failure) : AddsWanted host wanted candidates S S d (.error e) [] :=
  ⟨.nil rfl, nofun, nofun, fun _ ↦ rfl⟩

/-- The adapters of what is selected are made, or those before the first that fails. -/
theorem AddsWanted.of_selects (own : d.session = S.id) (classLike : d.kind.hasMembers = true)
    (selects : selectWanted host wanted d.symbol l = .ok selected)
    (hrun : (adaptersFor host selected.eraseDups).run.run S = (r, T)) :
    ∃ made, AddsWanted host wanted (.ok l) S T d r made := by
  -- what has been selected is settled, so nothing is claimed about how early the host failed
  have settled (made : List SymbolId) (h : d.session = S.id → d.kind.hasMembers = true →
      Unsettled host wanted d.symbol (.ok l)) : made = [] :=
    absurd (h own classLike) (not_unsettled selects)
  have chosen : ∀ s ∈ selected.eraseDups, isWanted host wanted d.symbol s = .ok true :=
    fun s hs ↦ isWanted_of_mem_selected selects (List.mem_eraseDups.mp hs)
  rcases run_adaptersFor_cases host S selected.eraseDups with
    ⟨ds, T, hrun', adds⟩ | ⟨e, T, made, hrun', hmade, adds⟩
  · cases hrun.symm.trans hrun'
    refine ⟨_, adds, chosen, ?_, settled _⟩
    rintro _ ⟨⟩
    exact symbols_of_run_adaptersFor _ hrun
  · cases hrun.symm.trans hrun'
    exact ⟨made, adds, fun s hs ↦ chosen s (hmade.subset hs), nofun, settled _⟩

/-- **A question for the wanted ones makes the adapters that it answers with**, and none unless all
of them are selected. -/
theorem addsWanted (host : Host) (wanted : SymbolKind → Bool)
    (candidates : Except HostError (List SymbolId)) (S : Session) (d : Declaration)
    {m : SessionM (List Declaration)} (hm : m = (do
      check d
      requireMembers host d
      accessible host wanted d (← SessionM.ofHost candidates))) :
    ∃ made, AddsWanted host wanted candidates S (m.run.run S).2 d (m.run.run S).1 made := by
  -- whatever fails before the adapters are made leaves the session as it was
  by_cases own : d.session = S.id
  case neg =>
    rw [hm, run_bind, run_check_of_foreign own]
    exact ⟨[], .nothing _⟩
  by_cases classLike : d.kind.hasMembers = true
  case neg =>
    rw [hm, run_bind, run_check_of_own own]
    dsimp only
    rw [requireMembers, if_neg classLike]
    exact ⟨[], .nothing _⟩
  rw [hm, run_checks own classLike]
  cases candidates with
  | error e => exact ⟨[], .nothing _⟩
  | ok l =>
    show ∃ made, AddsWanted host wanted (.ok l) S ((accessible host wanted d l).run.run S).2 d
      ((accessible host wanted d l).run.run S).1 made
    rw [accessible]
    cases selects : selectWanted host wanted d.symbol l with
    | error e => exact ⟨[], .nothing _⟩
    | ok selected => exact AddsWanted.of_selects own classLike selects rfl

theorem functions_eq (host : Host) (d : Declaration) : functions host d = (do
    check d
    requireMembers host d
    accessible host isFunction d (← SessionM.ofHost (host.functionCandidates d.symbol))) := by
  rw [functions, Host.functionCandidates]
  cases host.callableMembers d.symbol with
  | error e => rfl
  | ok callables => cases host.constructors d.symbol <;> rfl

end Session
end SymbolView
