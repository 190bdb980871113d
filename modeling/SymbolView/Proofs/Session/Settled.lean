import SymbolView.Proofs.Session.History
import SymbolView.Proofs.SymbolTable.Coherence
import SymbolView.Proofs.Type.Supported

/-!
# Questions that are always answered

A session refuses a question if the host does, if the host shows something unknown, or if the
declaration is not its own.  A host `Serves` some symbols if nothing of the first two kinds happens
for them, and the symbols they lie in are among them.  This file shows that a question about such a
symbol is answered, and more: the answer is settled.  `Session.Settles` says that one value is the
answer in all sessions that have only asked this host and write types in one way, whatever adapter
of the symbol they are asked about and whatever they have been asked before.

The proofs follow the computations: `Session.Completes` is the rule for one run of one session, and
`Settles.bind` and its neighbours carry it over to all of them.
-/

set_option autoImplicit false

namespace SymbolView

open SessionM Correspondence

/-! ## Parents -/

/-- The symbol around a symbol or else its file; a file has no parent. -/
def Host.parentOf (host : Host) (s : SymbolId) : Except HostError (Option SymbolId) := do
  match ← host.containingSymbol s with
  | some container => return some container
  | none => return (← host.containingFile s).filter (· ≠ s)

/-- The parent of a declaration is the adapter of that symbol. -/
theorem Session.parent_eq (host : Host) (d : Declaration) : Session.parent host d = (do
    check d
    adapterForOption host (← SessionM.ofHost (host.parentOf d.symbol))) := by
  rw [Session.parent, Host.parentOf]
  cases host.containingSymbol d.symbol with
  | error e => rfl
  | ok container =>
    cases container with
    | some c => rfl
    | none =>
      cases host.containingFile d.symbol with
      | error e => rfl
      | ok file =>
        cases file with
        | none => rfl
        | some file =>
          show (check d >>= fun _ ↦ if file = d.symbol then pure none
              else some <$> adapterFor host file) =
            check d >>= fun _ ↦ adapterForOption host ((some file).filter (· ≠ d.symbol))
          by_cases own : file = d.symbol <;> simp [own, adapterForOption, Option.filter]

/-! ## Hosts -/

/-- A host that answers all questions about some symbols in a way that is understood. -/
structure Host.Serves (host : Host) (known : SymbolId → Prop) : Prop where
  /-- No question is refused. -/
  answers : ∀ {s}, known s → host.Answers s
  /-- All origins are in the table of origins. -/
  classify : ∀ {s}, known s → ∃ origin, host.classify s = .ok origin
  /-- All types can be written. -/
  typeTextOf : ∀ policy {s}, known s → ∃ text, host.typeTextOf policy s = .ok text
  /-- All annotations can be written. -/
  supported : ∀ {s applications a}, known s → host.annotations s = .ok applications →
    a ∈ applications → a.isSupported = true
  /-- What a symbol lies in is known too. -/
  container : ∀ {s c}, known s → host.containingSymbol s = .ok (some c) → known c
  /-- The file a symbol lies in is known too. -/
  file : ∀ {s t}, known s → host.containingFile s = .ok (some t) → known t
  /-- The members of a symbol are known too. -/
  members : ∀ {s}, known s → ∃ symbols, host.memberSymbols s = .ok symbols ∧ ∀ m ∈ symbols, known m

namespace Host.Serves

variable {host : Host} {known : SymbolId → Prop} {s : SymbolId}

theorem faceOf (serves : host.Serves known) (hs : known s) :
    ∃ kind name, host.faceOf s = .ok (s, kind, name) := by
  obtain ⟨kind, hkind⟩ := (serves.answers hs).symbolKind
  obtain ⟨name, hname⟩ := (serves.answers hs).symbolName
  refine ⟨.ofSymbol kind, name, ?_⟩
  rw [Host.faceOf, Host.kindAndName, hkind, hname]
  rfl

theorem locationOf (serves : host.Serves known) (hs : known s) :
    ∃ location, host.locationOf s = .ok location := by
  obtain ⟨source, hsource⟩ := (serves.answers hs).source
  refine ⟨host.locate source, ?_⟩
  rw [Host.locationOf, hsource]
  rfl

theorem faces (serves : host.Serves known) {symbols : List SymbolId} (h : ∀ m ∈ symbols, known m) :
    ∃ faces, symbols.mapM host.faceOf = .ok faces ∧ faces.map Prod.fst = symbols := by
  induction symbols with
  | nil => exact ⟨[], rfl, rfl⟩
  | cons s rest ih =>
    obtain ⟨kind, name, face⟩ := serves.faceOf (h s (.head _))
    obtain ⟨faces, hfaces, hrest⟩ := ih fun m hm ↦ h m (.tail _ hm)
    refine ⟨(s, kind, name) :: faces, ?_, by rw [List.map_cons, hrest]⟩
    rw [List.mapM_cons, face, hfaces]
    rfl

/-- The parent of a known symbol is known. -/
theorem parentOf (serves : host.Serves known) (hs : known s) :
    ∃ o, host.parentOf s = .ok o ∧ ∀ t ∈ o, known t := by
  obtain ⟨container, hcontainer⟩ := (serves.answers hs).containingSymbol
  obtain ⟨file, hfile⟩ := (serves.answers hs).containingFile
  rw [Host.parentOf, hcontainer]
  cases container with
  | some c =>
    refine ⟨some c, rfl, fun t ht ↦ ?_⟩
    cases ht
    exact serves.container hs hcontainer
  | none =>
    refine ⟨file.filter (· ≠ s), by rw [hfile]; rfl, fun t ht ↦ ?_⟩
    obtain ⟨rfl, -⟩ := Option.filter_eq_some_iff.mp ht
    exact serves.file hs hfile

end Host.Serves

namespace Session

/-! ## Steady sessions -/

/-- A session that has only asked a host, and writes types in a given way. -/
structure Steady (host : Host) (policy : SuffixPolicy) (S : Session) : Prop where
  wellFormed : S.WellFormed
  /-- What it has made and kept is what the host says. -/
  agrees : S.AgreesWith host
  /-- It writes types in the given way. -/
  policy_eq : S.config.policy = policy

section Steady

variable {host : Host} {policy : SuffixPolicy} {S T : Session} {d : Declaration} {s : SymbolId}

theorem Steady.reaches (hS : S.Steady host policy) (h : Reaches host S T) :
    T.Steady host policy where
  wellFormed := h.wellFormed hS.wellFormed
  agrees := hS.agrees.reaches h
  policy_eq := by rw [h.grows.config, hS.policy_eq]

/-- A session is steady whatever it has been asked. -/
theorem steady_after (id : SessionId) (config : SessionConfig) (host : Host)
    (history : List Query) : ((start id config).after host history).Steady host config.policy :=
  have fresh : (start id config).Steady host config.policy :=
    ⟨wellFormed_start id config, agreesWith_start id config host, rfl⟩
  fresh.reaches (reaches_after fresh.wellFormed host history)

/-- The adapters show what the host says. -/
theorem Steady.kind_and_name_eq (hS : S.Steady host policy) (hd : d ∈ S.declarations)
    {kind : DeclarationKind} {name : Option String}
    (h : host.faceOf d.symbol = .ok (d.symbol, kind, name)) : d.kind = kind ∧ d.name = name := by
  have face : d.face = (d.symbol, kind, name) :=
    Except.ok.inj ((hS.agrees.shows d hd).symm.trans h)
  exact ⟨congrArg (·.2.1) face, congrArg (·.2.2) face⟩

end Steady

/-! ## One run -/

section Completes

variable {α β : Type}

/-- Whether a computation started in a session ends with a value of which something holds. -/
def Completes (host : Host) (m : SessionM α) (S : Session) (V : Session → α → Prop) : Prop :=
  ∃ a T, m.run.run S = (.ok a, T) ∧ Reaches host S T ∧ V T a

variable {host : Host} {policy : SuffixPolicy} {m : SessionM α} {f : α → SessionM β} {S : Session}
  {V : Session → α → Prop} {W : Session → β → Prop}

theorem Completes.pure {a : α} (h : V S a) : Completes host (Pure.pure a) S V :=
  ⟨a, S, rfl, .refl, h⟩

theorem Completes.bind (hm : Completes host m S V)
    (hf : ∀ T a, Reaches host S T → V T a → Completes host (f a) T W) :
    Completes host (m >>= f) S W := by
  obtain ⟨a, T, hrun, hT, ha⟩ := hm
  obtain ⟨b, U, hrun', hU, hb⟩ := hf T a hT ha
  exact ⟨b, U, by rw [run_bind, hrun]; exact hrun', hT.trans hU, hb⟩

theorem Completes.map {g : α → β} (hm : Completes host m S V) (h : ∀ T a, V T a → W T (g a)) :
    Completes host (g <$> m) S W := by
  rw [map_eq_pure_bind]
  exact hm.bind fun T a _ ha ↦ .pure (h T a ha)

theorem Completes.imp {V' : Session → α → Prop} (hm : Completes host m S V)
    (h : ∀ T a, V T a → V' T a) : Completes host m S V' := by
  obtain ⟨a, T, hrun, hT, ha⟩ := hm
  exact ⟨a, T, hrun, hT, h T a ha⟩

/-- The rule for a computation of which it is known what it ends with, up to a function. -/
theorem Completes.of_map_eq {γ : Type} {g : α → γ} {c : γ} (hm : g <$> (m.run.run S).1 = .ok c)
    (hT : Reaches host S (m.run.run S).2) (h : ∀ a T, m.run.run S = (.ok a, T) → g a = c → V T a) :
    Completes host m S V := by
  cases hrun : m.run.run S with
  | mk r T =>
    rw [hrun] at hm hT
    cases r with
    | error e => cases hm
    | ok a => exact ⟨a, T, hrun, hT, h a T hrun (Except.ok.inj hm)⟩

/-- The rule for a computation on each of some items. -/
theorem Completes.mapM {l : List α} {bs : List β}
    (h : List.Forall₂ (fun a b ↦ ∀ T, Reaches host S T → Completes host (f a) T fun _ c ↦ c = b)
      l bs) : Completes host (l.mapM f) S fun _ cs ↦ cs = bs := by
  suffices later : ∀ T, Reaches host S T → Completes host (l.mapM f) T fun _ cs ↦ cs = bs from
    later S .refl
  induction h with
  | nil => exact fun T _ ↦ .pure rfl
  | cons h _ ih =>
    intro T hT
    rw [List.mapM_cons]
    refine (h T hT).bind fun U b hU hb ↦ (ih U (hT.trans hU)).bind fun _ bs _ hbs ↦ .pure ?_
    rw [hb, hbs]

/-! ### Operations -/

theorem Steady.completes_adapterFor (hS : S.Steady host policy) {s : SymbolId} {face : Face}
    (h : host.faceOf s = .ok face) : Completes host (adapterFor host s) S fun T d ↦
      d ∈ T.declarations ∧ d.symbol = s := by
  refine .of_map_eq ((map_face_adapterFor hS.agrees s).trans h) (reaches_adapterFor host S s)
    fun d T hrun _ ↦ ?_
  have made := adapter?_of_run_adapterFor hrun
  exact ⟨mem_of_adapter? made, symbol_of_adapter? made⟩

/-- What the host tells is found. -/
theorem Steady.completes_find (hS : S.Steady host policy) {f : Finding} {d : Declaration}
    (hd : d ∈ S.declarations) (hf : f.isOf d.kind = true) {said : f.Said}
    (h : host.tells policy d.symbol f = .ok said) : Completes host (f.find host d) S fun T v ↦
      f.face v = said ∧ ∀ e ∈ (f.answer v).adapters, e ∈ T.declarations := by
  have run : (f.find host d).run.run S = (f.fetch host d).run.run S :=
    Finding.run_find (hS.wellFormed.own d hd) hf
  have found : f.face <$> ((f.find host d).run.run S).1 = .ok said := by
    rw [run, Finding.map_face_fetch hS.agrees, hS.policy_eq, h]
  have reached := reaches_ask hS.wellFormed host (f.question d)
  rw [ask_question] at reached
  refine .of_map_eq found reached fun v T hrun hv ↦ ⟨hv, fun e he ↦ ?_⟩
  have asked : S.ask host (f.question d) = (.ok (f.answer v), T) := by
    rw [ask_question, hrun]
    rfl
  exact mem_of_ask hS.wellFormed asked he

/-- The members of a class are found. -/
theorem Steady.completes_members (hS : S.Steady host policy) {known : SymbolId → Prop}
    (serves : host.Serves known) {d : Declaration} (hd : d ∈ S.declarations)
    (classLike : d.kind.hasMembers = true) {symbols : List SymbolId}
    (h : host.memberSymbols d.symbol = .ok symbols) (hknown : ∀ m ∈ symbols, known m) :
    Completes host (Session.members host d) S fun T ds ↦
      (∀ e ∈ ds, e ∈ T.declarations) ∧ ds.map (·.symbol) = symbols := by
  obtain ⟨faces, hfaces, hsymbols⟩ := serves.faces hknown
  have told : host.tells policy d.symbol .members = .ok faces := by
    rw [Host.tells, h]
    exact hfaces
  have found := hS.completes_find (f := .members) hd classLike told
  refine found.imp fun T ds hds ↦ ⟨hds.2, ?_⟩
  rw [← hsymbols, ← hds.1]
  exact (List.map_map (f := Declaration.face) (g := Prod.fst)).symm

end Completes

/-! ## All runs -/

section Settles

variable {α β : Type}

/-- Whether a value is what a question about a symbol is answered with, in all sessions that have
only asked a host and write types in a given way. -/
structure Settles (host : Host) (policy : SuffixPolicy) (s : SymbolId)
    (question : Declaration → SessionM α) (v : α) : Prop where
  completes : ∀ {S d}, S.Steady host policy → d ∈ S.declarations → d.symbol = s →
    Completes host (question d) S fun _ a ↦ a = v

variable {host : Host} {known : SymbolId → Prop} {policy : SuffixPolicy} {s : SymbolId}
  {question : Declaration → SessionM α} {next : α → Declaration → SessionM β} {v : α} {w : β}

namespace Settles

theorem pure (v : α) : Settles host policy s (fun _ ↦ Pure.pure v) v :=
  ⟨fun _ _ _ ↦ .pure rfl⟩

theorem bind (h : Settles host policy s question v) (hn : Settles host policy s (next v) w) :
    Settles host policy s (fun d ↦ question d >>= fun a ↦ next a d) w := by
  refine ⟨fun {S d} hS hd hs ↦ (h.completes hS hd hs).bind fun T a hT ha ↦ ?_⟩
  rw [ha]
  exact hn.completes (hS.reaches hT) (hT.grows.mem hd) hs

theorem check : Settles host policy s SymbolView.check () :=
  ⟨fun hS hd _ ↦ ⟨(), _, run_check_of_own (hS.wellFormed.own _ hd), .refl, rfl⟩⟩

theorem ofHost {query : SymbolId → Except HostError α} (h : query s = .ok v) :
    Settles host policy s (fun d ↦ SessionM.ofHost (query d.symbol)) v := by
  refine ⟨fun {S d} _ _ hs ↦ ?_⟩
  rw [hs, h]
  exact .pure rfl

theorem ofFault {answer : Except Fault α} (h : answer = .ok v) :
    Settles host policy s (fun _ ↦ SessionM.ofFault answer) v := by
  rw [h]
  exact .pure v

/-- The rule for questions that depend on what the adapter shows. -/
theorem of_face {m : DeclarationKind → Option String → Declaration → SessionM α}
    {kind : DeclarationKind} {name : Option String} (face : host.faceOf s = .ok (s, kind, name))
    (h : Settles host policy s (m kind name) v) :
    Settles host policy s (fun d ↦ m d.kind d.name d) v := by
  refine ⟨fun {S d} hS hd hs ↦ ?_⟩
  obtain ⟨hkind, hname⟩ := hS.kind_and_name_eq hd (hs ▸ face)
  rw [hkind, hname]
  exact h.completes hS hd hs

/-- The rule for the findings without members. -/
theorem find {f : Finding} {v : f.Value} (hf : ∀ kind, f.isOf kind = true)
    (h : host.tells policy s f = .ok (f.face v)) (inj : Function.Injective f.face) :
    Settles host policy s (fun d ↦ f.find host d) v := by
  refine ⟨fun {S d} hS hd hs ↦ ?_⟩
  exact (hS.completes_find hd (hf _) (hs ▸ h)).imp fun _ _ found ↦ inj found.1

/-- What is settled is what a session answers. -/
theorem answer {S : Session} {d : Declaration} {q : Declaration → Query} {g : α → Answer}
    (h : Settles host policy s question v) (hq : ∀ d, (q d).run host = g <$> question d)
    (hS : S.Steady host policy) (hd : d ∈ S.declarations) (hs : d.symbol = s) :
    (S.ask host (q d)).1 = .ok (g v) := by
  obtain ⟨a, T, hrun, -, rfl⟩ := h.completes hS hd hs
  rw [ask, hq, run_map, hrun]
  rfl

end Settles

variable (policy) (serves : host.Serves known) (hs : known s)
include serves hs

/-! ### Attributes -/

theorem exists_classId : ∃ id, Settles host policy s (Session.classId host) id := by
  obtain ⟨id, hid⟩ := (serves.answers hs).classId
  exact ⟨id, .bind .check (.ofHost hid)⟩

theorem exists_origin : ∃ origin, Settles host policy s (Session.origin host) origin := by
  obtain ⟨origin, h⟩ := serves.classify hs
  exact ⟨origin, .find (f := .origin) (fun _ ↦ rfl) h Function.injective_id⟩

theorem exists_location : ∃ location, Settles host policy s (Session.location host) location := by
  obtain ⟨location, h⟩ := serves.locationOf hs
  exact ⟨location, .find (f := .location) (fun _ ↦ rfl) h Function.injective_id⟩

theorem exists_typeText : ∃ text, Settles host policy s (Session.typeText host) text := by
  obtain ⟨text, h⟩ := serves.typeTextOf policy hs
  exact ⟨text, .find (f := .typeText) (fun _ ↦ rfl) h Function.injective_id⟩

theorem exists_modifiers :
    ∃ modifiers, Settles host policy s (Session.modifiers host) modifiers := by
  obtain ⟨visibility, hvisibility⟩ := (serves.answers hs).visibility
  obtain ⟨modality, hmodality⟩ := (serves.answers hs).modality
  exact ⟨_, .bind .check (.bind (.ofHost hvisibility) (.bind (.ofHost hmodality) (.pure _)))⟩

/-! ### Annotations -/

theorem exists_annotations : ∃ as, Settles host policy s (Session.annotations host) as := by
  obtain ⟨applications, written⟩ := (serves.answers hs).annotations
  obtain ⟨as, projected⟩ := Annotations.exists_project fun a ↦ serves.supported hs written (a := a)
  exact ⟨as, .bind .check (.bind (.ofHost written) (.ofFault projected))⟩

end Settles
end Session
end SymbolView
