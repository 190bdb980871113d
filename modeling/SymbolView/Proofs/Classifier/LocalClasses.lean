import SymbolView.Classifier
import SymbolView.Proofs.Type.Supported
import SymbolView.SymbolTable

/-!
# How a local class is looked up

A local class is looked for among the declared members of the class around it.  The search goes
through the members once, keeps the first class or type alias that has the name and gives up at the
second.  This file says what comes out of it in terms of the whole list: `Host.HoldsAlone` says that
among the members just one is a class or type alias of the name, and that this one is a class.

The search does not look at every member, so it may succeed although the host fails for some of
them.  `Host.AnswersLookup` says of the questions that it does ask the host that they are answered;
then, and only then, there is an answer, and it is the symbol that is held alone, if there is one
(`Host.lookupClass_of_isLocal`).  So it depends on the list of members only through the classes and
type aliases of the name in it, and not on their order.
-/

set_option autoImplicit false

namespace SymbolView

/-! ## The only element of a list -/

section Sole

variable {α : Type} {l l' : List α} {a : α} {p : α → Bool}

/-- The only element of a list; other lists than those of one element have none. -/
def sole : List α → Option α
  | [a] => some a
  | _ => none

theorem sole_eq_some_iff : sole l = some a ↔ l = [a] := by
  match l with
  | [] => exact ⟨nofun, nofun⟩
  | [b] =>
    rw [sole, Option.some_inj, List.singleton_inj]
  | b :: c :: l => exact ⟨nofun, nofun⟩

theorem sole_toList (o : Option α) : sole o.toList = o := by
  cases o <;> rfl

/-- The order does not matter. -/
theorem sole_eq_of_perm (h : l.Perm l') : sole l = sole l' := by
  refine Option.ext fun a ↦ ?_
  rw [sole_eq_some_iff, sole_eq_some_iff, ← List.perm_singleton, ← List.perm_singleton]
  exact ⟨h.symm.trans, h.trans⟩

/-- To be the only one that meets a condition is to meet it at one position, and at no other. -/
theorem filter_eq_singleton_iff : l.filter p = [a] ↔
    ∃ before after, l = before ++ a :: after ∧ p a = true ∧ ∀ b ∈ before ++ after, p b = false := by
  rw [List.filter_eq_cons_iff]
  simp only [List.filter_eq_nil_iff, List.forall_mem_append, Bool.not_eq_true]
  constructor
  · rintro ⟨before, after, rfl, hbefore, ha, hafter⟩
    exact ⟨before, after, rfl, ha, hbefore, hafter⟩
  · rintro ⟨before, after, rfl, ha, hbefore, hafter⟩
    exact ⟨before, after, rfl, hbefore, ha, hafter⟩

end Sole

/-- The class around a local class, as one that is not local. -/
def ClassId.around (id : ClassId) : ClassId := ⟨id.package, id.relative.dropLast, false⟩

namespace Host

variable {host : Host} {name : String} {id : ClassId} {s o : SymbolId} {l : List SymbolId}
  {others : SymbolId → Except HostError (List SymbolId)} {b : Bool} {found r : Option SymbolId}

/-! ## One symbol -/

/-- Whether a host says of a symbol that it is a class or type alias called `name`. -/
def NamesClassifier (host : Host) (name : String) (s : SymbolId) : Prop :=
  (host.symbolKind s = .ok .namedClass ∨ host.symbolKind s = .ok .typeAlias) ∧
    host.symbolName s = .ok (some name)

instance : DecidablePred (host.NamesClassifier name) := fun _ ↦ inferInstanceAs (Decidable (_ ∧ _))

/-- Whether a host tells the kind of a symbol and, if it is a class or type alias, its name. -/
def TellsClassifier (host : Host) (s : SymbolId) : Prop :=
  ∃ kind, host.symbolKind s = .ok kind ∧
    (kind = .namedClass ∨ kind = .typeAlias → ∃ name, host.symbolName s = .ok name)

theorem isClassifierNamed_of_classifier
    (h : host.symbolKind s = .ok .namedClass ∨ host.symbolKind s = .ok .typeAlias) :
    host.isClassifierNamed name s = (return (← host.symbolName s) == some name) := by
  rcases h with h | h
  all_goals
    rw [isClassifierNamed, h]
    rfl

theorem isClassifierNamed_of_other {kind : SymbolKind} (h : host.symbolKind s = .ok kind)
    (other : ¬ (kind = .namedClass ∨ kind = .typeAlias)) :
    host.isClassifierNamed name s = .ok false := by
  rw [isClassifierNamed, h]
  cases kind
  case namedClass => exact absurd (.inl rfl) other
  case typeAlias => exact absurd (.inr rfl) other
  all_goals rfl

/-- One symbol is looked at at a time. -/
theorem isClassifierNamed_eq_ok_iff : host.isClassifierNamed name s = .ok b ↔
    host.TellsClassifier s ∧ (b = true ↔ host.NamesClassifier name s) := by
  cases hkind : host.symbolKind s with
  | error e =>
    rw [isClassifierNamed, hkind, TellsClassifier, hkind]
    exact ⟨nofun, by rintro ⟨⟨_, ⟨⟩, -⟩, -⟩⟩
  | ok kind =>
    by_cases classifier : kind = .namedClass ∨ kind = .typeAlias
    · have hkind' : host.symbolKind s = .ok .namedClass ∨ host.symbolKind s = .ok .typeAlias := by
        rcases classifier with rfl | rfl
        · exact .inl hkind
        · exact .inr hkind
      have tells : host.TellsClassifier s ↔ ∃ name, host.symbolName s = .ok name := by
        refine ⟨fun ⟨kind', hkind', told⟩ ↦ ?_, fun told ↦ ⟨kind, hkind, fun _ ↦ told⟩⟩
        cases hkind.symm.trans hkind'
        exact told classifier
      have names : host.NamesClassifier name s ↔ host.symbolName s = .ok (some name) :=
        and_iff_right hkind'
      rw [isClassifierNamed_of_classifier hkind', tells, names]
      cases host.symbolName s with
      | error e => exact ⟨nofun, by rintro ⟨⟨_, ⟨⟩⟩, -⟩⟩
      | ok n =>
        show Except.ok (n == some name) = .ok b ↔ _
        rw [and_iff_right ⟨n, rfl⟩, Except.ok.injEq, Except.ok.injEq, ← beq_iff_eq (a := n)]
        exact ⟨fun h ↦ h ▸ Iff.rfl, fun h ↦ (Bool.eq_iff_iff.mpr h).symm⟩
    · have tells : host.TellsClassifier s := ⟨kind, hkind, fun h ↦ absurd h classifier⟩
      have other : ¬ host.NamesClassifier name s := by
        rintro ⟨h | h, -⟩
        · exact classifier (.inl (Except.ok.inj (hkind.symm.trans h)))
        · exact classifier (.inr (Except.ok.inj (hkind.symm.trans h)))
      rw [isClassifierNamed_of_other hkind classifier, and_iff_right tells, iff_false_right other,
        Except.ok.injEq, Bool.not_eq_true, eq_comm]

/-! ## The search -/

/-- Whether a host tells of the symbols in a list which of them are classes or type aliases called
`name`, up to the second that is.  One may have been found before. -/
def TellsScope (host : Host) (name : String) (found : Option SymbolId) (l : List SymbolId) : Prop :=
  ∀ before m after, l = before ++ m :: after →
    (found.toList ++ before.filter (host.NamesClassifier name ·)).length ≤ 1 →
      host.TellsClassifier m

theorem tellsScope_nil : host.TellsScope name found [] := by
  intro before m after h
  cases List.append_ne_nil_of_right_ne_nil before (List.cons_ne_nil m after) h.symm

theorem tellsScope_cons : host.TellsScope name found (s :: l) ↔ host.TellsClassifier s ∧
    ∀ before m after, l = before ++ m :: after →
      (found.toList ++ (s :: before).filter (host.NamesClassifier name ·)).length ≤ 1 →
        host.TellsClassifier m := by
  constructor
  · intro h
    refine ⟨h [] s l rfl (by cases found <;> simp), fun before m after hl ↦ ?_⟩
    exact h (s :: before) m after (congrArg (s :: ·) hl)
  · rintro ⟨hs, h⟩ before m after hl count
    cases before with
    | nil =>
      cases hl
      exact hs
    | cons t before =>
      cases hl
      exact h before m after rfl count

/-- What is of another name does not count. -/
theorem tellsScope_cons_of_not (hs : ¬ host.NamesClassifier name s) :
    host.TellsScope name found (s :: l) ↔
      host.TellsClassifier s ∧ host.TellsScope name found l := by
  have other (before : List SymbolId) : (s :: before).filter (host.NamesClassifier name ·) =
      before.filter (host.NamesClassifier name ·) :=
    List.filter_cons_of_neg (by simpa using hs)
  simp only [tellsScope_cons, other]
  rfl

/-- The first of the name is kept. -/
theorem tellsScope_none_cons (hs : host.NamesClassifier name s) :
    host.TellsScope name none (s :: l) ↔
      host.TellsClassifier s ∧ host.TellsScope name (some s) l := by
  have first (before : List SymbolId) : (s :: before).filter (host.NamesClassifier name ·) =
      s :: before.filter (host.NamesClassifier name ·) :=
    List.filter_cons_of_pos (by simpa using hs)
  simp only [tellsScope_cons, first]
  rfl

/-- The second of the name ends the search. -/
theorem tellsScope_some_cons (hs : host.NamesClassifier name s) (t : SymbolId) :
    host.TellsScope name (some t) (s :: l) ↔ host.TellsClassifier s := by
  rw [tellsScope_cons, and_iff_left]
  intro before m after _ count
  rw [List.filter_cons_of_pos (by simpa using hs)] at count
  cases Nat.le_of_succ_le_succ count

/-- The search goes on from one symbol to the next. -/
theorem onlyClassifierNamed_cons_eq_ok_iff :
    host.onlyClassifierNamed name found (s :: l) = .ok r ↔ host.TellsClassifier s ∧
      (if host.NamesClassifier name s then
          match found with
          | some _ => .ok none
          | none => host.onlyClassifierNamed name (some s) l
        else host.onlyClassifierNamed name found l) = .ok r := by
  have step : host.onlyClassifierNamed name found (s :: l) = (do
      if ← host.isClassifierNamed name s then
        match found with
        | some _ => return none
        | none => host.onlyClassifierNamed name (some s) l
      else host.onlyClassifierNamed name found l) := onlyClassifierNamed.eq_def ..
  rw [step, bind_eq_ok]
  simp only [isClassifierNamed_eq_ok_iff]
  constructor
  · rintro ⟨b, ⟨told, hb⟩, h⟩
    simp only [hb] at h
    exact ⟨told, h⟩
  · rintro ⟨told, h⟩
    refine ⟨_, ⟨told, decide_eq_true_iff⟩, ?_⟩
    simp only [decide_eq_true_iff]
    exact h

/-- **The search finds the only class or type alias of the name**, if there is just one. -/
theorem onlyClassifierNamed_eq_ok_iff : host.onlyClassifierNamed name found l = .ok r ↔
    host.TellsScope name found l ∧
      r = sole (found.toList ++ l.filter (host.NamesClassifier name ·)) := by
  -- on the symbols that are left, whatever has been found among those before
  induction l generalizing found with
  | nil =>
    show Except.ok found = .ok r ↔ _
    rw [List.filter_nil, List.append_nil, sole_toList, and_iff_right tellsScope_nil,
      Except.ok.injEq, eq_comm]
  | cons s l ih =>
    rw [onlyClassifierNamed_cons_eq_ok_iff]
    by_cases hs : host.NamesClassifier name s
    · rw [if_pos hs, List.filter_cons_of_pos (by simpa using hs)]
      cases found with
      | some t =>
        rw [tellsScope_some_cons hs, Except.ok.injEq, eq_comm]
        rfl
      | none =>
        rw [tellsScope_none_cons hs, and_assoc]
        exact and_congr_right fun _ ↦ ih
    · rw [if_neg hs, tellsScope_cons_of_not hs, List.filter_cons_of_neg (by simpa using hs), ih,
        and_assoc]

theorem exists_symbolKind_of_namesClassifier (hs : host.NamesClassifier name s) :
    ∃ kind, host.symbolKind s = .ok kind :=
  hs.1.elim (fun h ↦ ⟨_, h⟩) fun h ↦ ⟨_, h⟩

/-- What is found among the members is left out if it is not a class. -/
theorem lookupMember_eq_ok_iff : host.lookupMember name o = .ok r ↔
    ∃ l, host.declaredMembers o = .ok l ∧ host.TellsScope name none l ∧
      r = (sole (l.filter (host.NamesClassifier name ·))).filter
        (host.symbolKind · = .ok .namedClass) := by
  rw [lookupMember, bind_eq_ok]
  refine exists_congr fun l ↦ and_congr_right fun _ ↦ ?_
  rw [bind_eq_ok]
  simp only [onlyClassifierNamed_eq_ok_iff, Option.toList_none, List.nil_append, and_assoc,
    exists_and_left, exists_eq_left]
  refine and_congr_right fun _ ↦ ?_
  cases only : sole (l.filter (host.NamesClassifier name ·)) with
  | none =>
    show Except.ok none = .ok r ↔ r = none
    rw [Except.ok.injEq, eq_comm]
  | some s =>
    have hs : s ∈ l.filter (host.NamesClassifier name ·) := by
      rw [sole_eq_some_iff.mp only]
      exact List.mem_singleton_self s
    have named : host.NamesClassifier name s := by simpa using (List.mem_filter.mp hs).2
    obtain ⟨kind, hkind⟩ := exists_symbolKind_of_namesClassifier named
    show (host.symbolKind s >>= fun kind ↦
      .ok (if kind = .namedClass then some s else none)) = .ok r ↔ _
    rw [hkind]
    show Except.ok (if kind = .namedClass then some s else none) = .ok r ↔ _
    rw [Except.ok.injEq, eq_comm, Option.filter_some, hkind]
    by_cases isClass : kind = .namedClass <;> simp [isClass]

/-! ## The lookup -/

/-- Whether a symbol is the class around a local class. -/
def Surrounds (host : Host) (id : ClassId) (o : SymbolId) : Prop :=
  2 ≤ id.relative.length ∧ host.classOf id.around = .ok o

/-- Whether a host answers all that it is asked in the search for a local class.  It may know no
class around it. -/
structure AnswersLookup (host : Host) (id : ClassId) : Prop where
  /-- The class around it is told, or is unknown. -/
  around : 2 ≤ id.relative.length → ∀ e, host.classOf id.around = .error e →
    ∃ unknown, e = .unknownClass unknown
  /-- The members of that class are told, and what they are, up to the second of the name. -/
  members : ∀ o, host.Surrounds id o →
    ∃ l, host.declaredMembers o = .ok l ∧ host.TellsScope id.shortName none l

/-- Whether the class around a local class declares just one class or type alias of its name, and
that is a class. -/
def HoldsAlone (host : Host) (id : ClassId) (s : SymbolId) : Prop :=
  ∃ o before after, host.Surrounds id o ∧ host.declaredMembers o = .ok (before ++ s :: after) ∧
    host.NamesClassifier id.shortName s ∧ host.symbolKind s = .ok .namedClass ∧
      ∀ m ∈ before ++ after, ¬ host.NamesClassifier id.shortName m

theorem holdsAlone_iff (ho : host.Surrounds id o) (hl : host.declaredMembers o = .ok l) :
    (sole (l.filter (host.NamesClassifier id.shortName ·))).filter
        (host.symbolKind · = .ok .namedClass) = some s ↔ host.HoldsAlone id s := by
  rw [Option.filter_eq_some_iff, sole_eq_some_iff, filter_eq_singleton_iff]
  simp only [decide_eq_true_iff, decide_eq_false_iff_not]
  constructor
  · rintro ⟨⟨before, after, rfl, named, others⟩, isClass⟩
    exact ⟨o, before, after, ho, hl, named, isClass, others⟩
  · rintro ⟨o', before, after, ho', hl', named, isClass, others⟩
    cases ho.2.symm.trans ho'.2
    cases hl.symm.trans hl'
    exact ⟨⟨before, after, rfl, named, others⟩, isClass⟩

theorem outer?_eq_around (h : 2 ≤ id.relative.length) : id.outer? = some id.around :=
  if_neg (Nat.not_lt.mpr h)

theorem not_holdsAlone (nowhere : ∀ o, ¬ host.Surrounds id o) : ¬ host.HoldsAlone id s :=
  fun ⟨o, _, _, ho, _⟩ ↦ nowhere o ho

theorem lookupClass_of_surrounds (isLocal : id.isLocal = true) (ho : host.Surrounds id o) :
    host.lookupClass id = host.lookupMember id.shortName o := by
  rw [lookupClass, if_pos isLocal, outer?_eq_around ho.1]
  dsimp only
  rw [lookupIndexed, ho.2]
  rfl

/-- Without a class around it, a local class is not found; but the host may fail instead of saying
that it knows none. -/
theorem lookupClass_of_nowhere (isLocal : id.isLocal = true)
    (nowhere : ∀ o, ¬ host.Surrounds id o) :
    host.lookupClass id = .ok r ↔ host.AnswersLookup id ∧ r = none := by
  rw [lookupClass, if_pos isLocal]
  by_cases long : 2 ≤ id.relative.length
  case neg =>
    have short : id.outer? = none := if_pos (Nat.not_le.mp long)
    have answers : host.AnswersLookup id :=
      ⟨fun h ↦ absurd h long, fun o ho ↦ absurd ho (nowhere o)⟩
    rw [short, and_iff_right answers, Except.ok.injEq, eq_comm]
  rw [outer?_eq_around long]
  cases around : host.classOf id.around with
  | ok o => exact absurd ⟨long, around⟩ (nowhere o)
  | error e =>
    dsimp only
    rw [lookupIndexed, around]
    cases e
    case unknownClass unknown =>
      have answers : host.AnswersLookup id := by
        refine ⟨fun _ e he ↦ ⟨unknown, ?_⟩, fun o ho ↦ absurd ho (nowhere o)⟩
        exact (Except.error.inj (around.symm.trans he)).symm
      show Except.ok none = .ok r ↔ _
      rw [and_iff_right answers, Except.ok.injEq, eq_comm]
    all_goals
      refine ⟨nofun, fun ⟨answers, _⟩ ↦ ?_⟩
      obtain ⟨unknown, h⟩ := answers.around long _ around
      cases h

/-- **A local class is found if it is held alone**, and the lookup fails if the host does. -/
theorem lookupClass_eq_ok_iff_of_isLocal (isLocal : id.isLocal = true) :
    host.lookupClass id = .ok r ↔
      host.AnswersLookup id ∧ ∀ s, r = some s ↔ host.HoldsAlone id s := by
  by_cases surrounded : ∃ o, host.Surrounds id o
  · obtain ⟨o, ho⟩ := surrounded
    rw [lookupClass_of_surrounds isLocal ho, lookupMember_eq_ok_iff]
    constructor
    · rintro ⟨l, hl, told, rfl⟩
      refine ⟨⟨fun _ e he ↦ ?_, fun o' ho' ↦ ?_⟩, fun s ↦ holdsAlone_iff ho hl⟩
      · cases ho.2.symm.trans he
      · cases ho.2.symm.trans ho'.2
        exact ⟨l, hl, told⟩
    · rintro ⟨answers, iff⟩
      obtain ⟨l, hl, told⟩ := answers.members o ho
      exact ⟨l, hl, told, Option.ext fun s ↦ (iff s).trans (holdsAlone_iff ho hl).symm⟩
  · have nowhere := not_exists.mp surrounded
    rw [lookupClass_of_nowhere isLocal nowhere, Option.eq_none_iff_forall_ne_some]
    refine and_congr_right fun _ ↦ forall_congr' fun s ↦ ?_
    rw [iff_false_right (not_holdsAlone nowhere)]

/-- The lookup does not fail if the host does not. -/
theorem AnswersLookup.exists_lookupClass_eq_ok (answers : host.AnswersLookup id)
    (isLocal : id.isLocal = true) : ∃ found, host.lookupClass id = .ok found := by
  by_cases surrounded : ∃ o, host.Surrounds id o
  · obtain ⟨o, ho⟩ := surrounded
    obtain ⟨l, hl, told⟩ := answers.members o ho
    rw [lookupClass_of_surrounds isLocal ho]
    exact ⟨_, lookupMember_eq_ok_iff.mpr ⟨l, hl, told, rfl⟩⟩
  · exact ⟨none, (lookupClass_of_nowhere isLocal (not_exists.mp surrounded)).mpr ⟨answers, rfl⟩⟩

/-- Then it finds what is held alone. -/
theorem AnswersLookup.lookupClass_eq_ok_some_iff (answers : host.AnswersLookup id)
    (isLocal : id.isLocal = true) : host.lookupClass id = .ok (some s) ↔ host.HoldsAlone id s := by
  obtain ⟨r, hr⟩ := answers.exists_lookupClass_eq_ok isLocal
  rw [hr, Except.ok.injEq, ((lookupClass_eq_ok_iff_of_isLocal isLocal).mp hr).2]

/-- Only the classes and type aliases of the name count, in any order. -/
theorem holdsAlone_congr (answers : host.AnswersLookup id)
    (answers' : { host with declaredMembers := others }.AnswersLookup id)
    (perm : ∀ o l l', host.Surrounds id o → host.declaredMembers o = .ok l → others o = .ok l' →
      (l.filter (host.NamesClassifier id.shortName ·)).Perm
        (l'.filter (host.NamesClassifier id.shortName ·))) :
    { host with declaredMembers := others }.HoldsAlone id s ↔ host.HoldsAlone id s := by
  by_cases surrounded : ∃ o, host.Surrounds id o
  · obtain ⟨o, ho⟩ := surrounded
    have ho' : { host with declaredMembers := others }.Surrounds id o := ho
    obtain ⟨l, hl, -⟩ := answers.members o ho
    obtain ⟨l', hl', -⟩ := answers'.members o ho'
    rw [← holdsAlone_iff ho hl, ← holdsAlone_iff ho' hl',
      sole_eq_of_perm (perm o l l' ho hl hl')]
    rfl
  · have nowhere := not_exists.mp surrounded
    exact iff_of_false (not_holdsAlone nowhere) (not_holdsAlone nowhere)

/-- **A local class is the only class or type alias of its name**, in the class around it.  The
lookup of a local class does not fail if, and only if, the host answers all that it is asked, where
it may know no class around it.  Then

* a symbol is found if and only if it is held alone, and nothing is found if no symbol is;
* the same is found if the members of that class are listed in another way, as long as the classes
  and type aliases of the name are the same up to their order. -/
theorem lookupClass_of_isLocal (host : Host) {id : ClassId} (isLocal : id.isLocal = true) :
    (host.AnswersLookup id ↔ ∃ found, host.lookupClass id = .ok found) ∧
      (host.AnswersLookup id →
        (∀ s, host.lookupClass id = .ok (some s) ↔ host.HoldsAlone id s) ∧
        ((∀ s, ¬ host.HoldsAlone id s) → host.lookupClass id = .ok none) ∧
        ∀ others : SymbolId → Except HostError (List SymbolId),
          { host with declaredMembers := others }.AnswersLookup id →
          (∀ o l l', host.Surrounds id o → host.declaredMembers o = .ok l → others o = .ok l' →
            (l.filter (host.NamesClassifier id.shortName ·)).Perm
              (l'.filter (host.NamesClassifier id.shortName ·))) →
          { host with declaredMembers := others }.lookupClass id = host.lookupClass id) := by
  refine ⟨⟨fun answers ↦ answers.exists_lookupClass_eq_ok isLocal,
    fun ⟨r, hr⟩ ↦ ((lookupClass_eq_ok_iff_of_isLocal isLocal).mp hr).1⟩, fun answers ↦ ?_⟩
  obtain ⟨r, hr⟩ := answers.exists_lookupClass_eq_ok isLocal
  have held := ((lookupClass_eq_ok_iff_of_isLocal isLocal).mp hr).2
  refine ⟨fun s ↦ answers.lookupClass_eq_ok_some_iff isLocal, fun unheld ↦ ?_,
    fun others answers' perm ↦ ?_⟩
  · rw [hr, Except.ok.injEq, Option.eq_none_iff_forall_ne_some]
    exact fun s hs ↦ unheld s ((held s).mp hs)
  · obtain ⟨r', hr'⟩ := answers'.exists_lookupClass_eq_ok isLocal
    have held' := ((lookupClass_eq_ok_iff_of_isLocal isLocal).mp hr').2
    rw [hr, hr']
    refine congrArg Except.ok (Option.ext fun s ↦ ?_)
    exact (held' s).trans ((holdsAlone_congr answers answers' perm).trans (held s).symm)

end Host

/-- A class, with an enum entry, a class and a property without a name in it. -/
def SymbolTable.sampleScope : SymbolTable where
  symbols := #[
    { kind := .namedClass, name := some "Cart", declaredMembers := [⟨1⟩, ⟨2⟩, ⟨3⟩] },
    { kind := .enumEntry, name := some "Red" },
    { kind := .namedClass, name := some "Red" },
    { kind := .property, name := none }]
  files := #[]
  classes := [(⟨["shop"], ["Cart"], false⟩, ⟨0⟩)]

open SymbolTable in
/-- The enum entry of the same name does not matter, and neither do the other members. -/
theorem Host.lookupClass_of_isLocal_sample :
    sampleScope.toHost.HoldsAlone ⟨["shop"], ["Cart", "Red"], true⟩ ⟨2⟩ ∧
      { sampleScope.toHost with declaredMembers := fun _ ↦ .ok [⟨2⟩, ⟨1⟩] }.lookupClass
        ⟨["shop"], ["Cart", "Red"], true⟩ = .ok (some ⟨2⟩) := by
  have isLocal : (⟨["shop"], ["Cart", "Red"], true⟩ : ClassId).isLocal = true := rfl
  obtain ⟨answers_iff, found⟩ := lookupClass_of_isLocal sampleScope.toHost isLocal
  have answers := answers_iff.mpr ⟨some ⟨2⟩, rfl⟩
  obtain ⟨iff, -, congr⟩ := found answers
  have answers' := (lookupClass_of_isLocal { sampleScope.toHost with
    declaredMembers := fun _ ↦ .ok [⟨2⟩, ⟨1⟩] } isLocal).1.mpr ⟨some ⟨2⟩, rfl⟩
  refine ⟨(iff ⟨2⟩).mp rfl, (congr _ answers' ?_).trans rfl⟩
  rintro o l l' ⟨-, ho⟩ hl ⟨⟩
  cases ho
  cases hl
  decide

end SymbolView
