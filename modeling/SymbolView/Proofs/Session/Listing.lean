import SymbolView.Proofs.Session.Settled

/-!
# Lists of members

A session that lists the members of a class takes the symbols that the host names, each once where
it comes first, and hands out their adapters.  Both halves are specified here without the code:

* `FirstOccurrences` says what it is to take some elements of a list, each once where it comes
  first.  There is one way to do so (`FirstOccurrences.unique`).
* `Session.Adapts` says what it is to hand out the adapters of symbols: those that have been made
  are used again, and the others are made, in order.  Where each adapter is there or can be made
  this is what happens (`run_adaptersFor`); otherwise it is what has happened to the symbols before
  the first that fails (`run_adaptersFor_of_error`).
-/

set_option autoImplicit false

namespace SymbolView

/-! ## Each once, where it comes first -/

section FirstOccurrences

variable {α : Type} [BEq α] [LawfulBEq α] {p : α → Prop} {keep : α → Bool} {l l' l'' : List α}
  {a b : α}

/-- Whether a list has the elements of another that meet a condition, each once, in the order in
which they come first there. -/
structure FirstOccurrences (p : α → Prop) (l l' : List α) : Prop where
  mem_iff : ∀ a, a ∈ l' ↔ a ∈ l ∧ p a
  inOrder : l'.Pairwise fun a b ↦ l.idxOf a < l.idxOf b

namespace FirstOccurrences

omit [LawfulBEq α]

theorem nodup (h : FirstOccurrences p l l') : l'.Nodup :=
  h.inOrder.imp fun hlt heq ↦ Nat.ne_of_lt hlt (congrArg l.idxOf heq)

/-- There is one such list. -/
theorem unique (h : FirstOccurrences p l l') (h' : FirstOccurrences p l l'') : l' = l'' := by
  have perm : l'.Perm l'' :=
    (List.perm_ext_iff_of_nodup h.nodup h'.nodup).mpr fun a ↦
      (h.mem_iff a).trans (h'.mem_iff a).symm
  exact perm.eq_of_pairwise (fun _ _ _ _ hab hba ↦ absurd hab (Nat.lt_asymm hba)) h.inOrder
    h'.inOrder

end FirstOccurrences

/-- What is filtered out in between does not change which of two elements comes first. -/
theorem idxOf_lt_of_filter (ha : a ∈ l.filter keep) (hb : b ∈ l.filter keep)
    (h : (l.filter keep).idxOf a < (l.filter keep).idxOf b) : l.idxOf a < l.idxOf b := by
  induction l with
  | nil => cases ha
  | cons c l ih =>
    have ne_of_dropped {x : α} (hx : x ∈ (c :: l).filter keep) (dropped : keep c = false) :
        c ≠ x := by
      rintro rfl
      exact absurd (List.mem_filter.mp hx).2 (by simp [dropped])
    cases hc : keep c with
    | false =>
      have hca := ne_of_dropped ha hc
      have hcb := ne_of_dropped hb hc
      rw [List.filter_cons_of_neg (by simp [hc])] at ha hb h
      rw [List.idxOf_cons_ne l hca, List.idxOf_cons_ne l hcb]
      exact Nat.succ_lt_succ (ih ha hb h)
    | true =>
      rw [List.filter_cons_of_pos hc] at ha hb h
      by_cases hcb : c = b
      · subst hcb
        rw [List.idxOf_cons_self] at h
        cases h
      · rw [List.idxOf_cons_ne l hcb]
        rw [List.idxOf_cons_ne _ hcb] at h
        by_cases hca : c = a
        · subst hca
          rw [List.idxOf_cons_self]
          exact Nat.succ_pos _
        · rw [List.idxOf_cons_ne l hca]
          rw [List.idxOf_cons_ne _ hca] at h
          have ha' := (List.mem_cons.mp ha).resolve_left fun h ↦ hca h.symm
          have hb' := (List.mem_cons.mp hb).resolve_left fun h ↦ hcb h.symm
          exact Nat.succ_lt_succ (ih ha' hb' (Nat.lt_of_succ_lt_succ h))

/-- The elements of a list without repetitions come in the order in which they come first. -/
theorem pairwise_idxOf_eraseDups : (l : List α) →
    l.eraseDups.Pairwise fun a b ↦ l.idxOf a < l.idxOf b
  | [] => .nil
  | c :: l => by
    have others {x : α} (hx : x ∈ (l.filter fun x ↦ !x == c).eraseDups) :
        c ≠ x ∧ x ∈ l.filter fun x ↦ !x == c := by
      rw [List.mem_eraseDups] at hx
      exact ⟨fun h ↦ by simpa [h] using (List.mem_filter.mp hx).2, hx⟩
    have shorter : (l.filter fun x ↦ !x == c).length < l.length + 1 :=
      Nat.lt_succ_of_le (List.length_filter_le ..)
    rw [List.eraseDups_cons]
    refine .cons (fun b hb ↦ ?_) ((pairwise_idxOf_eraseDups _).imp_of_mem fun ha hb h ↦ ?_)
    · rw [List.idxOf_cons_self, List.idxOf_cons_ne l (others hb).1]
      exact Nat.succ_pos _
    · rw [List.idxOf_cons_ne l (others ha).1, List.idxOf_cons_ne l (others hb).1]
      exact Nat.succ_lt_succ (idxOf_lt_of_filter (others ha).2 (others hb).2 h)
termination_by l => l.length

/-- To drop repetitions is to take each element once where it comes first. -/
theorem firstOccurrences_eraseDups (l : List α) :
    FirstOccurrences (fun _ ↦ True) l l.eraseDups where
  mem_iff _ := List.mem_eraseDups.trans (iff_of_eq (and_true _)).symm
  inOrder := pairwise_idxOf_eraseDups l

/-- So it is to filter before, for those that meet the condition. -/
theorem firstOccurrences_eraseDups_filter (h : ∀ a ∈ l, keep a = true ↔ p a) :
    FirstOccurrences p l (l.filter keep).eraseDups where
  mem_iff a := by
    rw [List.mem_eraseDups, List.mem_filter]
    exact and_congr_right (h a)
  inOrder := (pairwise_idxOf_eraseDups _).imp_of_mem fun ha hb ↦
    idxOf_lt_of_filter (List.mem_eraseDups.mp ha) (List.mem_eraseDups.mp hb)

end FirstOccurrences

/-! ## The adapters of symbols -/

open SessionM

namespace Session

variable {host : Host} {S T U : Session} {ds es : List Declaration} {d : Declaration} {s : SymbolId}
  {l rest : List SymbolId} {e : HostError}

/-- Whether a session has the adapter of a symbol or a host tells what it shows. -/
def CanAdapt (S : Session) (host : Host) (s : SymbolId) : Prop :=
  S.adapter? s ≠ none ∨ ∃ face, host.kindAndName s = .ok face

/-- Whether a session that hands out adapters of different symbols becomes another one. -/
structure Adapts (host : Host) (S T : Session) (ds : List Declaration) : Prop where
  /-- They are the adapters of their symbols. -/
  handed : ∀ d ∈ ds, T.adapter? d.symbol = some d
  /-- An adapter that has been made is used again. -/
  reused : ∀ d ∈ ds, ∀ e, S.adapter? d.symbol = some e → d = e
  /-- An adapter that is made shows what the host says. -/
  shows : ∀ d ∈ ds, S.adapter? d.symbol = none → host.Shows d
  /-- Just those that were not there are added to the session, in order. -/
  added : T.declarations = S.declarations ++ ds.filter fun d ↦ (S.adapter? d.symbol).isNone

theorem adapter?_of_prefix (h : S.declarations <+: T.declarations) (hd : S.adapter? s = some d) :
    T.adapter? s = some d := by
  obtain ⟨more, hmore⟩ := h
  rw [adapter?_eq] at hd
  rw [adapter?_eq, ← hmore, List.find?_append, hd]
  rfl

namespace Adapts

theorem nil : Adapts host S S [] := ⟨nofun, nofun, nofun, (List.append_nil _).symm⟩

theorem reuse (h : S.adapter? d.symbol = some d) : Adapts host S S [d] where
  handed := List.forall_mem_singleton.mpr h
  reused := List.forall_mem_singleton.mpr fun _ he ↦ Option.some.inj (h.symm.trans he)
  shows := List.forall_mem_singleton.mpr fun new ↦ nomatch h.symm.trans new
  added := by simp [h]

theorem make {kind : SymbolKind} {name : Option String} (new : S.adapter? s = none)
    (face : host.kindAndName s = .ok (kind, name)) :
    Adapts host S (S.add (S.nextAdapter s kind name)) [S.nextAdapter s kind name] where
  handed := List.forall_mem_singleton.mpr (adapter?_add new)
  reused := List.forall_mem_singleton.mpr fun _ he ↦ nomatch new.symm.trans he
  shows := List.forall_mem_singleton.mpr fun _ ↦ by
    show host.faceOf s = _
    rw [Host.faceOf, face]
    rfl
  added := by simp [nextAdapter, new]

/-- Nothing changes for the other symbols. -/
theorem adapter?_of_ne (h : Adapts host S T ds) (hs : ∀ d ∈ ds, d.symbol ≠ s) :
    T.adapter? s = S.adapter? s := by
  have others : (ds.filter fun d ↦ (S.adapter? d.symbol).isNone).find? (·.symbol == s) = none := by
    rw [List.find?_eq_none]
    intro d hd
    simpa using hs d (List.mem_of_mem_filter hd)
  rw [adapter?_eq, adapter?_eq, h.added, List.find?_append, others, Option.or_none]

theorem canAdapt_iff (h : Adapts host S T ds) (hs : ∀ d ∈ ds, d.symbol ≠ s) :
    T.CanAdapt host s ↔ S.CanAdapt host s := by
  rw [CanAdapt, CanAdapt, h.adapter?_of_ne hs]

/-- What is handed out one after the other is handed out together. -/
theorem append (h : Adapts host S T ds) (h' : Adapts host T U es)
    (distinct : ∀ d ∈ ds, ∀ e ∈ es, d.symbol ≠ e.symbol) : Adapts host S U (ds ++ es) := by
  have same (e : Declaration) (he : e ∈ es) : T.adapter? e.symbol = S.adapter? e.symbol :=
    h.adapter?_of_ne fun d hd ↦ distinct d hd e he
  constructor
  case handed =>
    intro d hd
    rcases List.mem_append.mp hd with hd | hd
    · exact adapter?_of_prefix (h'.added ▸ List.prefix_append _ _) (h.handed d hd)
    · exact h'.handed d hd
  case reused =>
    intro d hd e he
    rcases List.mem_append.mp hd with hd | hd
    · exact h.reused d hd e he
    · exact h'.reused d hd e ((same d hd).trans he)
  case shows =>
    intro d hd new
    rcases List.mem_append.mp hd with hd | hd
    · exact h.shows d hd new
    · exact h'.shows d hd ((same d hd).trans new)
  case added =>
    rw [h'.added, h.added, List.filter_append, List.append_assoc]
    congr 2
    exact List.filter_congr fun e he ↦ by rw [same e he]

/-- To keep an answer changes no adapters. -/
theorem updateMemo (h : Adapts host S T ds) (s : SymbolId) (change : Memo → Memo) :
    Adapts host S (T.updateMemo s change) ds where
  handed d hd := (adapter?_updateMemo ..).trans (h.handed d hd)
  reused := h.reused
  shows := h.shows
  added := (declarations_updateMemo ..).trans h.added

end Adapts

/-- The adapter of a symbol is handed out, or made first. -/
theorem run_adapterFor_of_canAdapt (h : S.CanAdapt host s) :
    ∃ d T, (adapterFor host s).run.run S = (.ok d, T) ∧ d.symbol = s ∧ Adapts host S T [d] := by
  cases hs : S.adapter? s with
  | some d =>
    obtain rfl := symbol_of_adapter? hs
    exact ⟨d, S, run_adapterFor_of_eq_some host hs, rfl, .reuse hs⟩
  | none =>
    obtain ⟨⟨kind, name⟩, face⟩ := h.resolve_left fun known ↦ known hs
    refine ⟨S.nextAdapter s kind name, _, ?_, rfl, .make hs face⟩
    rw [run_adapterFor_of_eq_none host hs, face]

/-- **Where each adapter is there or can be made, all are handed out.** -/
theorem run_adaptersFor (distinct : l.Nodup) (h : ∀ s ∈ l, S.CanAdapt host s) :
    ∃ ds T, (adaptersFor host l).run.run S = (.ok ds, T) ∧ ds.map (·.symbol) = l ∧
      Adapts host S T ds := by
  induction l generalizing S with
  | nil => exact ⟨[], S, rfl, rfl, .nil⟩
  | cons s l ih =>
    obtain ⟨hs, distinct'⟩ := List.nodup_cons.mp distinct
    obtain ⟨d, T, hrun, rfl, made⟩ := run_adapterFor_of_canAdapt (h s List.mem_cons_self)
    have others (t : SymbolId) (ht : t ∈ l) : ∀ e ∈ [d], e.symbol ≠ t := by
      rintro e he rfl
      exact hs (List.mem_singleton.mp he ▸ ht)
    obtain ⟨ds, U, hrun', rfl, made'⟩ := ih distinct' fun t ht ↦
      (made.canAdapt_iff (others t ht)).mpr (h t (List.mem_cons_of_mem _ ht))
    refine ⟨d :: ds, U, ?_, rfl, made.append made' fun e he e' he' ↦ ?_⟩
    · rw [adaptersFor, run_bind, hrun]
      simp only [run_bind, hrun']
      rfl
    · exact others e'.symbol (List.mem_map_of_mem he') e he

theorem adaptersFor_append (host : Host) (l l' : List SymbolId) : adaptersFor host (l ++ l') = do
    let ds ← adaptersFor host l
    let es ← adaptersFor host l'
    return ds ++ es := by
  induction l with
  | nil => simp [adaptersFor]
  | cons s l ih => simp [adaptersFor, ih]

/-- **The first adapter that cannot be made ends it**, when those before it have been handed out. -/
theorem run_adaptersFor_of_error (distinct : (l ++ s :: rest).Nodup)
    (h : ∀ t ∈ l, S.CanAdapt host t) (new : S.adapter? s = none)
    (refused : host.kindAndName s = .error e) :
    ∃ ds T, (adaptersFor host (l ++ s :: rest)).run.run S = (.error (.ofHost e), T) ∧
      ds.map (·.symbol) = l ∧ Adapts host S T ds := by
  obtain ⟨distinct, -, apart⟩ := List.nodup_append.mp distinct
  obtain ⟨ds, T, hrun, rfl, made⟩ := run_adaptersFor distinct h
  have other : ∀ d ∈ ds, d.symbol ≠ s := fun d hd ↦
    apart d.symbol (List.mem_map_of_mem hd) s List.mem_cons_self
  refine ⟨ds, T, ?_, rfl, made⟩
  rw [adaptersFor_append, run_bind, hrun]
  simp only [adaptersFor, run_bind, run_adapterFor_of_eq_none host
    ((made.adapter?_of_ne other).trans new), refused]

end Session
end SymbolView
