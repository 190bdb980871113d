import Mathlib.Data.List.DropRight
import SymbolView.Text.Blank
import SymbolView.Text.Pieces

/-!
# Trimming a text and cutting it into lines

What trimming takes away (`dropWhile_both`) and what it leaves alone (`trimStart_cons`,
`trimEnd_of_endsInk`), and the lines of a text that is put together from lines (`lines_append`,
`lines_of_unbroken`).  A carriage return belongs to the end of a line only before a line feed, so a
line may contain any, but it may not have one at its end.
-/

set_option autoImplicit false

namespace SymbolView
namespace Text

variable {l cs blanks rest : List Char} {c : Char}

/-- What is dropped from both ends of a list is what was put there. -/
theorem dropWhile_both {α : Type} {p : α → Bool} {before l after : List α}
    (hbefore : ∀ a ∈ before, p a = true) (hafter : ∀ a ∈ after, p a = true)
    (first : ∃ a ∈ l.head?, p a = false) (last : ∃ a ∈ l.getLast?, p a = false) :
    (((before ++ l ++ after).dropWhile p).reverse.dropWhile p).reverse = l := by
  obtain ⟨a, ha, stops⟩ := first
  obtain ⟨b, hb, stops'⟩ := last
  have front : (before ++ l ++ after).dropWhile p = l ++ after := by
    obtain ⟨l', rfl⟩ := List.head?_eq_some_iff.mp ha
    rw [List.append_assoc, List.dropWhile_append_of_pos hbefore, List.cons_append,
      List.dropWhile_cons_of_neg (Bool.not_eq_true _ ▸ stops)]
  obtain ⟨l', rfl⟩ := List.getLast?_eq_some_iff.mp hb
  rw [front, List.reverse_append, List.dropWhile_append_of_pos (by simpa using hafter),
    List.reverse_concat, List.dropWhile_cons_of_neg (Bool.not_eq_true _ ▸ stops'),
    ← List.reverse_concat, List.reverse_reverse]

/-- Whether a text does not end with a blank. -/
def EndsInk (cs : List Char) : Prop := ∀ c ∈ cs.getLast?, isBlank c = false

instance : Decidable (EndsInk cs) :=
  decidable_of_iff (cs.getLast?.all (!isBlank ·) = true) (by simp [EndsInk, Option.all_eq_true])

theorem EndsInk.of_suffix (h : EndsInk cs) (suffix : rest <:+ cs) : EndsInk rest := by
  obtain ⟨start, rfl⟩ := suffix
  intro c hc
  exact h c (by rw [Option.mem_def, List.getLast?_append, Option.mem_def.mp hc]; rfl)

theorem trimStart_append (blank : ∀ c ∈ blanks, isBlank c = true) :
    trimStart (blanks ++ cs) = trimStart cs :=
  List.dropWhile_append_of_pos blank

theorem trimStart_cons (ink : isBlank c = false) : trimStart (c :: cs) = c :: cs :=
  List.dropWhile_cons_of_neg (Bool.not_eq_true _ ▸ ink)

theorem trimStart_of_blank (blank : ∀ c ∈ cs, isBlank c = true) : trimStart cs = [] :=
  List.dropWhile_eq_nil_iff.mpr blank

theorem trimEnd_of_endsInk (h : EndsInk cs) : trimEnd cs = cs :=
  List.rdropWhile_eq_self_iff.mpr fun nonempty ↦
    Bool.not_eq_true _ ▸ h _ (List.getLast?_eq_some_getLast nonempty)

theorem trimEnd_concat (blank : isBlank c = true) : trimEnd (cs ++ [c]) = trimEnd cs :=
  List.rdropWhile_concat_pos isBlank cs c blank

/-- How a line ends. -/
inductive LineEnd where
  | lineFeed
  | carriageReturnLineFeed
deriving DecidableEq

/-- The characters at the end of a line. -/
def LineEnd.chars : LineEnd → List Char
  | lineFeed => ['\n']
  | carriageReturnLineFeed => ['\r', '\n']

theorem lines_cons (other : c ≠ '\n') (apart : c = '\r' → cs.head? ≠ some '\n') :
    lines (c :: cs) = consHead c (lines cs) := by
  rw [lines]
  · exact other
  · rintro cs' rfl rfl
    exact apart rfl rfl

/-- What ends a line is the first line end in the text. -/
theorem lines_append (unbroken : '\n' ∉ l) (last : l.getLast? ≠ some '\r') (e : LineEnd)
    (rest : List Char) : lines (l ++ e.chars ++ rest) = l :: lines rest := by
  induction l with
  | nil => cases e <;> rfl
  | cons c l ih =>
    obtain ⟨other, unbroken'⟩ := not_or.mp (mt List.mem_cons.mpr unbroken)
    -- A carriage return is followed by a line feed only if it is the last character of the line.
    have apart : c = '\r' → (l ++ e.chars ++ rest).head? ≠ some '\n' := by
      rintro rfl h
      cases l with
      | nil => exact last rfl
      | cons d l => exact unbroken' (Option.some_inj.mp h ▸ List.mem_cons_self)
    have last : l.getLast? ≠ some '\r' := by
      cases l with
      | nil => exact nofun
      | cons d l => rwa [List.getLast?_cons_cons] at last
    rw [List.cons_append, List.cons_append, lines_cons (Ne.symm other) apart, ih unbroken' last]
    rfl

/-- A text without a line end is one line. -/
theorem lines_of_unbroken (unbroken : '\n' ∉ cs) (nonempty : cs ≠ []) : lines cs = [cs] := by
  induction cs with
  | nil => exact absurd rfl nonempty
  | cons c cs ih =>
    obtain ⟨other, unbroken'⟩ := not_or.mp (mt List.mem_cons.mpr unbroken)
    have apart : c = '\r' → cs.head? ≠ some '\n' :=
      fun _ h ↦ unbroken' (List.mem_of_mem_head? h)
    rw [lines_cons (Ne.symm other) apart]
    cases cs with
    | nil => rfl
    | cons d cs =>
      rw [ih unbroken' (List.cons_ne_nil d cs)]
      rfl

end Text
end SymbolView
