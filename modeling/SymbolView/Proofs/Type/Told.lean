import Mathlib.Data.List.Basic

/-!
# Telling texts from what follows them

A text that stands between others can be read back if one can tell where it ends.  `Told` says so
for the texts of two things: if both are followed by nothing or by one of some marks, and the whole
lines agree, then the two things agree and so does what follows them.

Words without marks are told from each other (`append_inj_of_unmarked`), and lists are if their
entries are and the separator starts with a mark that does not follow the list (`told_writeList`).
-/

set_option autoImplicit false

namespace SymbolView

variable {α : Type} {write : α → List Char} {marks inner : List Char} {a b : α}

/-- Whether a line is empty or starts with one of some marks. -/
def Follows (marks line : List Char) : Prop := ∀ c ∈ line.head?, c ∈ marks

/-- Whether two things are told from each other by their texts when marks follow. -/
def Told (write : α → List Char) (marks : List Char) (a b : α) : Prop :=
  ∀ ⦃r s⦄, Follows marks r → Follows marks s → write a ++ r = write b ++ s → a = b ∧ r = s

theorem follows_nil (marks : List Char) : Follows marks [] := nofun

theorem follows_cons {c : Char} (h : c ∈ marks) (line : List Char) : Follows marks (c :: line) := by
  rintro _ ⟨⟩
  exact h

theorem Follows.mem {c : Char} {line : List Char} (h : Follows marks (c :: line)) : c ∈ marks :=
  h c rfl

theorem Follows.mono {line : List Char} (h : Follows marks line) (sub : marks ⊆ inner) :
    Follows inner line :=
  fun c hc ↦ sub (h c hc)

theorem Told.symm (h : Told write marks a b) : Told write marks b a := by
  intro r s hr hs heq
  obtain ⟨rfl, rfl⟩ := h hs hr heq.symm
  exact ⟨rfl, rfl⟩

/-- A word without marks ends where the first mark is. -/
theorem append_inj_of_unmarked {v w r s : List Char} (hv : ∀ c ∈ v, c ∉ marks)
    (hw : ∀ c ∈ w, c ∉ marks) (hr : Follows marks r) (hs : Follows marks s)
    (h : v ++ r = w ++ s) : v = w ∧ r = s := by
  induction v generalizing w with
  | nil =>
    cases w with
    | nil => exact ⟨rfl, h⟩
    | cons c w =>
      rw [List.nil_append] at h
      subst h
      exact absurd hr.mem (hw c List.mem_cons_self)
  | cons c v ih =>
    cases w with
    | nil =>
      rw [List.nil_append] at h
      subst h
      exact absurd hs.mem (hv c List.mem_cons_self)
    | cons d w =>
      obtain ⟨rfl, hrest⟩ := List.cons.inj h
      obtain ⟨rfl, rfl⟩ := ih (fun e he ↦ hv e (.tail _ he)) (fun e he ↦ hw e (.tail _ he)) hrest
      exact ⟨rfl, rfl⟩

/-- Numbers are words of digits, after a minus sign if they are negative. -/
theorem minus_or_isDigit_of_mem_repr {n : Int} {c : Char} (h : c ∈ n.repr.toList) :
    c = '-' ∨ c.isDigit = true := by
  have digits (m : Nat) (hc : c ∈ m.repr.toList) : c.isDigit = true := by
    rw [Nat.repr, String.toList_ofList] at hc
    exact Nat.isDigit_of_mem_toDigits (Nat.succ_pos 9) (Nat.le_refl 10) hc
  cases n with
  | ofNat m => exact .inr (digits m h)
  | negSucc m =>
    rw [Int.repr, String.toList_append] at h
    rcases List.mem_append.mp h with h | h
    · exact .inl (List.mem_singleton.mp h)
    · exact .inr (digits _ h)

theorem unmarked_repr_of_noDigit (h : ∀ d ∈ marks, d ≠ '-' ∧ d.isDigit = false) (n : Int) :
    ∀ c ∈ n.repr.toList, c ∉ marks := by
  intro c hc hmark
  rcases minus_or_isDigit_of_mem_repr hc with rfl | hdigit
  · exact (h _ hmark).1 rfl
  · rw [(h c hmark).2] at hdigit
    cases hdigit

/-- The text of a list, entry by entry with separators between. -/
def writeList (write : α → List Char) (separator : List Char) (as : List α) : List Char :=
  separator.intercalate (as.map write)

section List

variable {separator : List Char}

theorem writeList_singleton (a : α) : writeList write separator [a] = write a :=
  List.intercalate_singleton

theorem writeList_cons_cons (a b : α) (rest : List α) :
    writeList write separator (a :: b :: rest) =
      write a ++ (separator ++ writeList write separator (b :: rest)) := by
  rw [writeList, List.map_cons, List.map_cons, List.intercalate_cons_cons, List.append_assoc]
  rfl

theorem writeList_append_singleton (a : α) {as : List α} (h : as ≠ []) :
    writeList write separator (as ++ [a]) =
      writeList write separator as ++ (separator ++ write a) := by
  induction as with
  | nil => exact absurd rfl h
  | cons b rest ih =>
    cases rest with
    | nil =>
      rw [List.singleton_append, writeList_cons_cons, writeList_singleton, writeList_singleton]
    | cons c rest =>
      rw [List.cons_append, List.cons_append, writeList_cons_cons, ← List.cons_append,
        ih (List.cons_ne_nil c rest), writeList_cons_cons]
      simp only [List.append_assoc]

theorem length_le_writeList {as : List α} (h : a ∈ as) :
    (write a).length ≤ (writeList write separator as).length := by
  induction as with
  | nil => cases h
  | cons b rest ih =>
    cases rest with
    | nil =>
      obtain rfl := List.mem_singleton.mp h
      exact Nat.le_of_eq (congrArg List.length (writeList_singleton a).symm)
    | cons c rest =>
      rw [writeList_cons_cons, List.length_append, List.length_append]
      obtain rfl | h := List.mem_cons.mp h
      · omega
      · have := ih h
        omega

/-- Lists are told from each other if their entries are, and if no mark that follows a list could be
the start of a separator. -/
theorem told_writeList {c : Char} {as bs : List α} (hsep : c ∈ inner) (hsub : marks ⊆ inner)
    (hc : c ∉ marks) (told : ∀ a ∈ as, ∀ b ∈ bs, Told write inner a b) (ha : as ≠ [])
    (hb : bs ≠ []) : Told (writeList write (c :: separator)) marks as bs := by
  intro r s hr hs h
  induction as generalizing bs with
  | nil => exact absurd rfl ha
  | cons a as ih =>
    obtain ⟨b, bs, rfl⟩ := List.exists_cons_of_ne_nil hb
    have head := told a List.mem_cons_self b List.mem_cons_self
    cases as with
    | nil =>
      cases bs with
      | nil =>
        rw [writeList_singleton, writeList_singleton] at h
        obtain ⟨rfl, rfl⟩ := head (hr.mono hsub) (hs.mono hsub) h
        exact ⟨rfl, rfl⟩
      | cons b' bs =>
        rw [writeList_singleton, writeList_cons_cons, List.append_assoc] at h
        obtain ⟨-, rfl⟩ := head (hr.mono hsub) (follows_cons hsep _) h
        exact absurd hr.mem hc
    | cons a' as =>
      cases bs with
      | nil =>
        rw [writeList_singleton, writeList_cons_cons, List.append_assoc] at h
        obtain ⟨-, rfl⟩ := head (follows_cons hsep _) (hs.mono hsub) h
        exact absurd hs.mem hc
      | cons b' bs =>
        simp only [writeList_cons_cons, List.append_assoc] at h
        obtain ⟨rfl, hrest⟩ := head (follows_cons hsep _) (follows_cons hsep _) h
        obtain ⟨hlist, rfl⟩ := ih (fun x hx y hy ↦ told x (.tail _ hx) y (.tail _ hy))
          (List.cons_ne_nil a' as) (List.cons_ne_nil b' bs)
          ((List.append_right_inj (c :: separator)).mp hrest)
        exact ⟨congrArg (a :: ·) hlist, rfl⟩

end List

end SymbolView
