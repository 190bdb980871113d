import Mathlib
import SymbolView.Constant
import SymbolView.Proofs.Type.Told

/-!
# Literals can be read back

The text of a constant other than a floating-point number tells which constant it is, and where it
ends if something follows it that may follow an argument of an annotation (`afterValue`).

Quoted texts end at the first quote that is not escaped, whatever they hold (`quoted_append_inj`).
Whole numbers end where their digits do, and are followed by what tells their kind
(`told_of_numeral`).
-/

set_option autoImplicit false

namespace SymbolView
namespace Annotations

/-- What may follow the text of a value inside another text. -/
def afterValue : List Char := [',', ')', '\x7d']

end Annotations

open Annotations

namespace Constant

/-! ## Quoted texts -/

/-- The character that an escape with this letter stands for. -/
def unescape : Char → Char
  | 'n' => '\n'
  | 't' => '\t'
  | 'r' => '\r'
  | c => c

/-- The characters that literals are delimited by. -/
def quotes : List Char := ['\x27', '\x22']

variable {quote c d : Char} {r s : List Char}

theorem escapeChar_cases (hquote : quote ∈ quotes) (c : Char) :
    escapeChar quote c = [c] ∧ c ≠ '\\' ∧ c ≠ quote ∨
      ∃ letter, escapeChar quote c = ['\\', letter] ∧ unescape letter = c := by
  have literal : unescape quote = quote := by
    rcases List.mem_cons.mp hquote with rfl | hquote
    · rfl
    · obtain rfl := List.mem_singleton.mp hquote
      rfl
  unfold escapeChar
  split_ifs with h₁ h₂ h₃ h₄ h₅ h₆
  · exact .inr ⟨'\\', rfl, h₁.symm⟩
  · exact .inr ⟨'n', rfl, h₂.symm⟩
  · exact .inr ⟨'t', rfl, h₃.symm⟩
  · exact .inr ⟨'r', rfl, h₄.symm⟩
  · exact .inr ⟨'$', rfl, h₅.symm⟩
  · exact .inr ⟨quote, rfl, literal.trans h₆.symm⟩
  · exact .inl ⟨rfl, h₁, h₆⟩

/-- A character inside a literal can be read back. -/
theorem escapeChar_append_inj (hquote : quote ∈ quotes)
    (h : escapeChar quote c ++ r = escapeChar quote d ++ s) : c = d ∧ r = s := by
  rcases escapeChar_cases hquote c with ⟨hc, hslash, -⟩ | ⟨m, hc, rfl⟩ <;>
    rcases escapeChar_cases hquote d with ⟨hd, hslash', -⟩ | ⟨n, hd, rfl⟩ <;>
    rw [hc, hd] at h <;> injection h with hhead htail
  · exact ⟨hhead, htail⟩
  · exact absurd hhead hslash
  · exact absurd hhead.symm hslash'
  · obtain ⟨rfl, rfl⟩ := List.cons.inj htail
    exact ⟨rfl, rfl⟩

theorem escapeChar_append_ne (hquote : quote ∈ quotes) : escapeChar quote c ++ r ≠ quote :: s := by
  intro h
  rcases escapeChar_cases hquote c with ⟨hc, -, hne⟩ | ⟨m, hc, -⟩ <;> rw [hc] at h
  · exact hne (List.cons.inj h).1
  · obtain rfl : '\\' = quote := (List.cons.inj h).1
    revert hquote
    decide

/-- A literal ends at the first quote that is not escaped. -/
theorem quoted_append_inj (hquote : quote ∈ quotes) {u v : List Char}
    (h : (quoted quote u).toList ++ r = (quoted quote v).toList ++ s) : u = v ∧ r = s := by
  simp only [quoted, String.toList_ofList, List.cons_append, List.append_assoc,
    List.cons.injEq, true_and, List.nil_append] at h
  induction u generalizing v with
  | nil =>
    cases v with
    | nil => exact ⟨rfl, (List.cons.inj h).2⟩
    | cons d v =>
      rw [List.flatMap_cons, List.append_assoc] at h
      exact absurd h.symm (escapeChar_append_ne hquote)
  | cons c u ih =>
    cases v with
    | nil =>
      rw [List.flatMap_cons, List.append_assoc] at h
      exact absurd h (escapeChar_append_ne hquote)
    | cons d v =>
      rw [List.flatMap_cons, List.flatMap_cons, List.append_assoc, List.append_assoc] at h
      obtain ⟨rfl, hrest⟩ := escapeChar_append_inj hquote h
      obtain ⟨rfl, rfl⟩ := ih hrest
      exact ⟨rfl, rfl⟩

/-! ## Whole numbers -/

/-- What follows the digits of a whole number: letters, and a pair of brackets after a dot. -/
structure Suffix where
  /-- The letters, with a dot before them if it is a call. -/
  word : String
  /-- Whether brackets follow. -/
  isCall : Bool
deriving DecidableEq

/-- The brackets of a suffix. -/
def Suffix.brackets (suffix : Suffix) : List Char := if suffix.isCall then ['(', ')'] else []

/-- The text of a suffix. -/
def Suffix.chars (suffix : Suffix) : List Char :=
  suffix.word.toList ++ suffix.brackets

/-- The value and the suffix of a whole number. -/
def numeral? : Constant → Option (Int × Suffix)
  | byte n => some (n.toInt, ⟨".toByte", true⟩)
  | short n => some (n.toInt, ⟨".toShort", true⟩)
  | int n => some (n.toInt, ⟨"", false⟩)
  | long n => some (n.toInt, ⟨"L", false⟩)
  | ubyte n => some (n.toNat, ⟨".toUByte", true⟩)
  | ushort n => some (n.toNat, ⟨".toUShort", true⟩)
  | uint n => some (n.toNat, ⟨"u", false⟩)
  | ulong n => some (n.toNat, ⟨"uL", false⟩)
  | _ => none

/-- What ends a whole number with the letters of its suffix. -/
def afterWord : List Char := '(' :: afterValue

/-- What the letters of a suffix start with. -/
def suffixStarts : List Char := ['.', 'L', 'u']

variable {a b : Constant} {n : Int} {suffix : Suffix}

theorem text_of_numeral (h : a.numeral? = some (n, suffix)) :
    a.text.toList = n.repr.toList ++ suffix.chars := by
  cases a <;> simp only [numeral?, Option.some.injEq, Prod.mk.injEq, reduceCtorEq] at h <;>
    obtain ⟨rfl, rfl⟩ := h
  case int => exact (List.append_nil _).symm
  all_goals rw [text, String.toList_append]; rfl

theorem numeral?_inj {p : Int × Suffix} (ha : a.numeral? = some p) (hb : b.numeral? = some p) :
    a = b := by
  cases a <;> simp only [numeral?, Option.some.injEq, reduceCtorEq] at ha <;> subst ha <;>
    cases b <;> simp [numeral?, Int8.toInt_inj, Int16.toInt_inj, Int32.toInt_inj, Int64.toInt_inj,
      UInt8.toNat_inj, UInt16.toNat_inj, UInt32.toNat_inj, UInt64.toNat_inj] at hb
  all_goals rw [hb]

theorem suffix_of_numeral (h : a.numeral? = some (n, suffix)) :
    (∀ c ∈ suffix.word.toList, c ∉ afterWord) ∧ Follows suffixStarts suffix.word.toList ∧
      (suffix.isCall = true ↔ suffix.word.toList.head? = some '.') := by
  cases a <;> simp only [numeral?, Option.some.injEq, Prod.mk.injEq, reduceCtorEq] at h <;>
    obtain ⟨rfl, rfl⟩ := h <;> simp [Follows] <;> decide

theorem Suffix.follows_brackets (suffix : Suffix) {rest : List Char} (h : Follows afterValue rest) :
    Follows afterWord (suffix.brackets ++ rest) := by
  rw [brackets]
  split
  · exact follows_cons (.head _) _
  · exact h.mono (List.subset_cons_self ..)

/-- Digits and a minus sign are neither what a suffix starts with nor what follows it. -/
theorem unmarked_repr (n : Int) : ∀ c ∈ n.repr.toList, c ∉ suffixStarts ++ afterWord :=
  unmarked_repr_of_noDigit (by simp [suffixStarts, afterWord, afterValue]) n

theorem unmarked_word (n : Int) {word : List Char} (h : ∀ c ∈ word, c ∉ afterWord) :
    ∀ c ∈ n.repr.toList ++ word, c ∉ afterWord := by
  intro c hc
  rcases List.mem_append.mp hc with hc | hc
  · exact fun hmark ↦ unmarked_repr n c hc (List.mem_append_right _ hmark)
  · exact h c hc

/-- Whole numbers can be read back, with their kind. -/
theorem told_of_numeral {p q : Int × Suffix} (ha : a.numeral? = some p) (hb : b.numeral? = some q) :
    Told (fun c ↦ c.text.toList) afterValue a b := by
  obtain ⟨m, u⟩ := p
  obtain ⟨n, v⟩ := q
  intro r s hr hs h
  obtain ⟨letters, starts, isCall⟩ := suffix_of_numeral ha
  obtain ⟨letters', starts', isCall'⟩ := suffix_of_numeral hb
  simp only [text_of_numeral ha, text_of_numeral hb, Suffix.chars, List.append_assoc] at h
  simp only [← List.append_assoc _ _ (_ ++ r), ← List.append_assoc _ _ (_ ++ s)] at h
  -- first the number with its letters is cut off, then the letters are
  obtain ⟨hwords, hrest⟩ := append_inj_of_unmarked (unmarked_word m letters)
    (unmarked_word n letters') (u.follows_brackets hr) (v.follows_brackets hs) h
  have starting {n : Int} : ∀ c ∈ n.repr.toList, c ∉ suffixStarts :=
    fun c hc hmark ↦ unmarked_repr n c hc (List.mem_append_left _ hmark)
  obtain ⟨hvalue, hword⟩ := append_inj_of_unmarked starting starting starts starts' hwords
  have hcall : u.isCall = v.isCall := by
    rw [Bool.eq_iff_iff, isCall, isCall', hword]
  have hsuffix : u = v := by
    cases u
    cases v
    rw [Suffix.mk.injEq]
    exact ⟨String.toList_inj.mp hword, hcall⟩
  subst hsuffix
  obtain rfl := Int.repr_inj.mp (String.toList_inj.mp hvalue)
  exact ⟨numeral?_inj ha hb, List.append_cancel_left hrest⟩

end Constant

end SymbolView
