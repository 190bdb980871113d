import Mathlib.Data.List.Forall2
import SymbolView.Json.Printer
import SymbolView.Json.Reader

/-!
# Literals are read back

A string literal that is written by `Json.quote` and a natural number that is written with
`Nat.toDigits` are read back as what they were, whatever text follows; after a number the text must
not go on as a number does (`Json.EndsNumber`).

Strings are read in two stages, so there is one lemma for each: `units?_flatMap_escapeChar` cuts the
literal into one unit for each character, and `chars?_of_standsFor` puts the characters together
again.
-/

set_option autoImplicit false

namespace SymbolView
namespace Json

variable {c : Char} {cs rest : List Char} {u : StringUnit} {us : List StringUnit}

/-! ## Strings -/

/-- Whether a unit of a string literal stands for a character.  Only control characters are written
by their numbers. -/
inductive StandsFor : StringUnit → Char → Prop
  | char (c : Char) : StandsFor (.char c) c
  | escaped (c : Char) (h : c.toNat < 0x20) : StandsFor (.escaped c.toNat) c

theorem hexValue?_hexDigit : ∀ n < 16, hexValue? (hexDigit n) = some n := by decide

theorem hexValue4?_hexDigit {n : Nat} (h : n < 0x20) :
    hexValue4? '0' '0' (hexDigit (n / 16)) (hexDigit (n % 16)) = some n := by
  have hhigh := hexValue?_hexDigit (n / 16) (by omega)
  have hlow := hexValue?_hexDigit (n % 16) (by omega)
  have hzero : hexValue? '0' = some 0 := rfl
  rw [hexValue4?, hhigh, hlow, hzero]
  show some _ = _
  congr 1
  omega

/-- A letter or sign after a backslash. -/
theorem units?_letter {e : Char} (he : e ≠ 'u') (hc : unescape? e = some c) (rest : List Char) :
    units? ('\\' :: e :: rest) = (units? rest).map fun p ↦ (.char c :: p.1, p.2) := by
  rw [units?.eq_def]
  split
  · next h => cases h
  · next h => cases h
  · next h =>
    obtain ⟨-, h⟩ := List.cons.inj h
    exact absurd (List.cons.inj h).1 he
  · next h =>
    cases h
    rw [hc]
    cases units? rest <;> rfl
  · next hletter h =>
    cases h
    exact (hletter e rest rfl rfl).elim

/-- A number after a backslash. -/
theorem units?_number (h : c.toNat < 0x20) (rest : List Char) :
    units? ('\\' :: 'u' :: '0' :: '0' :: hexDigit (c.toNat / 16) ::
        hexDigit (c.toNat % 16) :: rest) =
      (units? rest).map fun p ↦ (.escaped c.toNat :: p.1, p.2) := by
  rw [units?.eq_def]
  simp only [hexValue4?_hexDigit h]
  cases units? rest <;> rfl

/-- A character that stands for itself. -/
theorem units?_plain (hquote : c ≠ '\x22') (hslash : c ≠ '\\') (h : ¬ c.toNat < 0x20)
    (rest : List Char) : units? (c :: rest) = (units? rest).map fun p ↦ (.char c :: p.1, p.2) := by
  rw [units?.eq_def]
  split
  · next hc => cases hc
  · next hc =>
    cases hc
    exact absurd rfl hquote
  · next hc =>
    cases hc
    exact absurd rfl hslash
  · next hc =>
    cases hc
    exact absurd rfl hslash
  · next hc =>
    cases hc
    rw [if_neg (by simp [hslash, h])]
    cases units? rest <;> rfl

/-- A character is written as one unit. -/
theorem units?_escapeChar (c : Char) (rest : List Char) : ∃ u, StandsFor u c ∧
    units? (escapeChar c ++ rest) = (units? rest).map fun p ↦ (u :: p.1, p.2) := by
  have letter {e : Char} (he : e ≠ 'u') (hc : unescape? e = some c) : ∃ u, StandsFor u c ∧
      units? (['\\', e] ++ rest) = (units? rest).map fun p ↦ (u :: p.1, p.2) :=
    ⟨.char c, .char c, units?_letter he hc rest⟩
  unfold escapeChar
  split
  · next h => subst h; exact letter (by decide) rfl
  split
  · next h => subst h; exact letter (by decide) rfl
  split
  · next h => subst h; exact letter (by decide) rfl
  split
  · next h => subst h; exact letter (by decide) rfl
  split
  · next h => subst h; exact letter (by decide) rfl
  split
  · next h => subst h; exact letter (by decide) rfl
  split
  · next h => subst h; exact letter (by decide) rfl
  split
  · next h => exact ⟨.escaped c.toNat, .escaped c h, units?_number h rest⟩
  · next hquote hslash _ _ _ _ _ h => exact ⟨.char c, .char c, units?_plain hquote hslash h rest⟩

/-- A string literal is cut into one unit for each character. -/
theorem units?_flatMap_escapeChar (cs rest : List Char) : ∃ us, List.Forall₂ StandsFor us cs ∧
    units? (cs.flatMap escapeChar ++ '\x22' :: rest) = some (us, rest) := by
  induction cs with
  | nil => exact ⟨[], .nil, rfl⟩
  | cons c cs ih =>
    obtain ⟨us, hus, hread⟩ := ih
    obtain ⟨u, hu, hc⟩ := units?_escapeChar c (cs.flatMap escapeChar ++ '\x22' :: rest)
    refine ⟨u :: us, .cons hu hus, ?_⟩
    rw [List.flatMap_cons, List.append_assoc, hc, hread]
    rfl

/-- Units of which none is half of a surrogate pair are put together one by one. -/
theorem chars?_cons (hu : StandsFor u c) (us : List StringUnit) :
    chars? (u :: us) = (c :: ·) <$> chars? us := by
  cases hu with
  | char => rfl
  | escaped c h =>
    have hhigh : isHighSurrogate c.toNat = false := by simp [isHighSurrogate]; omega
    have hlow : isLowSurrogate c.toNat = false := by simp [isLowSurrogate]; omega
    cases us with
    | nil =>
      simp only [chars?, hhigh, hlow, Char.ofNat_toNat]
      rfl
    | cons v us =>
      cases v <;> simp [chars?, hhigh, hlow, Char.ofNat_toNat]

theorem chars?_of_standsFor (h : List.Forall₂ StandsFor us cs) : chars? us = some cs := by
  induction h with
  | nil => rfl
  | cons hu _ ih =>
    rw [chars?_cons hu, ih]
    rfl

/-- **A string literal is read back**; so is one that stands for no text. -/
theorem stringLiteral?_quote (s : Option String) (rest : List Char) :
    ∃ body, quote s ++ rest = '\x22' :: body ∧ stringLiteral? body = some (s, rest) := by
  cases s with
  | none =>
    have hquote : quote none = ['\x22', '\\', 'u', 'd', '8', '0', '0', '\x22'] := by decide
    refine ⟨'\\' :: 'u' :: 'd' :: '8' :: '0' :: '0' :: '\x22' :: rest, by rw [hquote]; rfl, ?_⟩
    have hunits : units? ('\\' :: 'u' :: 'd' :: '8' :: '0' :: '0' :: '\x22' :: rest) =
      some ([.escaped 0xd800], rest) := rfl
    have hchars : chars? [.escaped 0xd800] = none := by decide
    rw [stringLiteral?, hunits]
    simp only [Option.bind_eq_bind, Option.bind_some, hchars]
    rfl
  | some s =>
    obtain ⟨us, hus, hread⟩ := units?_flatMap_escapeChar s.toList rest
    refine ⟨s.toList.flatMap escapeChar ++ '\x22' :: rest, ?_, ?_⟩
    · show '\x22' :: (s.toList.flatMap escapeChar ++ ['\x22']) ++ rest = _
      rw [List.cons_append, List.append_assoc, List.singleton_append]
    · rw [stringLiteral?, hread]
      simp only [Option.bind_eq_bind, Option.bind_some, chars?_of_standsFor hus, Option.map_some,
        String.ofList_toList]
      rfl

/-! ## Numbers -/

/-- Whether a number that stands before a text ends where the text begins. -/
def EndsNumber : List Char → Prop
  | [] => True
  | c :: _ => c.isDigit = false ∧ c ≠ '.' ∧ c ≠ 'e' ∧ c ≠ 'E'

theorem ofDigits_toDigits (n : Nat) : ofDigits (Nat.toDigits 10 n) = n := by
  have h : ∀ ds init, ds.foldl (fun n (d : Char) ↦ n * 10 + (d.toNat - 0x30)) init =
      Nat.ofDigitChars 10 ds init := by
    intro ds init
    rw [Nat.ofDigitChars]
    congr 1
    funext n d
    rw [Nat.mul_comm]
    rfl
  rw [ofDigits, h, Nat.ofDigitChars_ten_toDigits]

/-- No digit stands in vain before the others. -/
theorem head?_toDigits {n : Nat} (hn : n ≠ 0) : (Nat.toDigits 10 n).head? ≠ some '0' := by
  induction n using Nat.strongRecOn with
  | _ n ih =>
    rw [Nat.toDigits_eq_if (by decide)]
    split
    · next h =>
      have hdigit : ∀ k < 10, k ≠ 0 → k.digitChar ≠ '0' := by decide
      simpa using hdigit n h hn
    · next h =>
      rw [List.head?_append_of_ne_nil _ Nat.toDigits_ne_nil]
      exact ih (n / 10) (by omega) (by omega)

theorem digits?_append {ds : List Char} (hne : ds ≠ []) (hds : ∀ c ∈ ds, c.isDigit = true)
    (hrest : EndsNumber rest) : digits? (ds ++ rest) = some (ds, rest) := by
  have htake : rest.takeWhile Char.isDigit = [] := by
    cases rest with
    | nil => rfl
    | cons c rest => rw [List.takeWhile_cons_of_neg (by rw [hrest.1]; simp)]
  have hdrop : rest.dropWhile Char.isDigit = rest := by
    cases rest with
    | nil => rfl
    | cons c rest => rw [List.dropWhile_cons_of_neg (by rw [hrest.1]; simp)]
  rw [digits?, List.takeWhile_append_of_pos hds, List.dropWhile_append_of_pos hds, htake, hdrop,
    List.append_nil]
  cases ds with
  | nil => exact absurd rfl hne
  | cons d ds => rfl

theorem whole?_toDigits (n : Nat) (hrest : EndsNumber rest) :
    whole? (Nat.toDigits 10 n ++ rest) = some (Nat.toDigits 10 n, rest) := by
  have hdigits : digits? (Nat.toDigits 10 n ++ rest) = some (Nat.toDigits 10 n, rest) :=
    digits?_append Nat.toDigits_ne_nil
      (fun c hc ↦ Nat.isDigit_of_mem_toDigits (by decide) (by decide) hc) hrest
  rw [whole?, hdigits]
  split
  · next heq =>
    simp only [Option.some.injEq, Prod.mk.injEq] at heq
    by_cases hn : n = 0
    · subst hn
      simp at heq
    · exact absurd (by rw [heq.1]; rfl) (head?_toDigits hn)
  · rfl

/-- **A natural number is read back.** -/
theorem number?_toDigits (n : Nat) (hrest : EndsNumber rest) :
    number? (Nat.toDigits 10 n ++ rest) = some (.natural n, rest) := by
  have hsign : sign ['-'] (Nat.toDigits 10 n ++ rest) = ([], Nat.toDigits 10 n ++ rest) := by
    cases hd : Nat.toDigits 10 n with
    | nil => exact absurd hd Nat.toDigits_ne_nil
    | cons d ds =>
      have hdigit : d.isDigit = true :=
        Nat.isDigit_of_mem_toDigits (by decide) (by decide) (hd ▸ List.mem_cons_self)
      have hminus : d ∉ ['-'] := by
        rintro h
        rw [List.mem_singleton.mp h] at hdigit
        exact absurd hdigit (by decide)
      rw [List.cons_append, sign, if_neg hminus]
  have hfraction : fraction? rest = some ([], rest) := by
    cases rest with
    | nil => rfl
    | cons c rest =>
      rw [fraction?.eq_def]
      split
      · next h =>
        cases h
        exact absurd rfl hrest.2.1
      · rfl
  have hexponent : exponent? rest = some ([], rest) := by
    cases rest with
    | nil => rfl
    | cons c rest => rw [exponent?, if_neg (by simp [hrest.2.2.1, hrest.2.2.2])]
  rw [number?, hsign]
  simp only [whole?_toDigits n hrest, Option.bind_eq_bind, Option.bind_some, hfraction, hexponent,
    ofDigits_toDigits]
  rfl

end Json
end SymbolView
