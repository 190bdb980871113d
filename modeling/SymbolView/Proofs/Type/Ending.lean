import Mathlib.Data.List.Infix
import SymbolView.Proofs.Type.Chars

/-!
# Reading a type from left to right

Question marks must not be doubled, and markers of types that are not known may have to stand bare
(`SuffixPolicy.forbidden`).  That nothing forbidden is written is shown by reading the text from
left to right.  An `Ending` is what has to be remembered of what has been read, and nothing
forbidden goes unnoticed (`Ending.readAll_of_slips`).  Markers are the only words in which a blank
stands between certain letters, so they are recognised by that.

What separates the parts of a text leaves nothing to remember (`Ending.Clears`), so a text can be
read one part after the other: `PartsRead` is what is known of the parts, and `BodyRead` what is
known of the text that is put together from them.
-/

set_option autoImplicit false

namespace SymbolView

/-- What must not be written. -/
def SuffixPolicy.forbidden : SuffixPolicy → List String
  | uniform => ["??"]
  | skipMarkers => ["??", unresolvedMarker ++ "?", dynamicMarker ++ "?"]

/-- Whether something forbidden is written in a text. -/
def SuffixPolicy.Slips (policy : SuffixPolicy) (text : String) : Prop :=
  ∃ word ∈ policy.forbidden, word.toList <:+: text.toList

/-! ## Reading from left to right -/

/-- What has to be remembered of what has been read. -/
inductive Ending where
  /-- Nothing. -/
  | plain
  /-- The last character is a question mark. -/
  | mark
  /-- The last character is a letter that stands before the blank of a marker. -/
  | letter
  /-- After such a letter comes a blank. -/
  | gap
  /-- The second word of a marker has begun. -/
  | word
  /-- A marker has just been closed. -/
  | closed
  /-- Something forbidden has been read. -/
  | slip
deriving DecidableEq

namespace Ending

/-- What is remembered after one more character. -/
def read (policy : SuffixPolicy) : Ending → Char → Ending
  | slip, _ => slip
  | mark, '?' => slip
  | closed, '?' => if policy = .skipMarkers then slip else mark
  | _, '?' => mark
  | _, '<' => plain
  | word, '>' => closed
  | word, _ => word
  | gap, 'T' => word
  | gap, 't' => word
  | letter, ' ' => gap
  | _, 'R' => letter
  | _, 'c' => letter
  | _, _ => plain

/-- What is remembered after a line. -/
def readAll (policy : SuffixPolicy) (q : Ending) (line : List Char) : Ending :=
  line.foldl (read policy) q

/-- Whether a text may end there. -/
def IsOpen : Ending → Prop
  | plain | letter | mark | closed => True
  | gap | word | slip => False

variable {policy : SuffixPolicy} {q : Ending} {line : List Char}

theorem readAll_append (q : Ending) (u v : List Char) :
    q.readAll policy (u ++ v) = (q.readAll policy u).readAll policy v :=
  List.foldl_append

@[simp] theorem readAll_slip (line : List Char) : slip.readAll policy line = slip := by
  induction line with
  | nil => rfl
  | cons c rest ih => exact ih

/-- Where something forbidden is written it is noticed. -/
theorem readAll_of_slips {text : String} (h : policy.Slips text) :
    plain.readAll policy text.toList = slip := by
  obtain ⟨word, hword, before, after, heq⟩ := h
  have noticed (q : Ending) : q.readAll policy word.toList = slip := by
    cases policy with
    | uniform =>
      obtain rfl := List.mem_singleton.mp hword
      cases q <;> rfl
    | skipMarkers =>
      simp only [SuffixPolicy.forbidden, List.mem_cons, List.not_mem_nil, or_false] at hword
      obtain rfl | rfl | rfl := hword <;> cases q <;> decide
  rw [← heq, readAll_append, readAll_append, noticed, readAll_slip]

/-- Names are read without anything of note but a last letter. -/
theorem readAll_name (policy : SuffixPolicy) (hq : q = plain ∨ q = letter)
    (h : ∀ c ∈ line, c ∉ typeMarks) :
    q.readAll policy line = plain ∨ q.readAll policy line = letter := by
  induction line generalizing q with
  | nil => exact hq
  | cons c rest ih =>
    refine ih ?_ fun d hd ↦ h d (.tail _ hd)
    have hc := h c (.head _)
    have named : c ≠ '?' ∧ c ≠ '<' ∧ c ≠ ' ' := by
      refine ⟨?_, ?_, ?_⟩ <;> rintro rfl <;> exact hc (by decide)
    obtain rfl | rfl := hq <;> unfold read <;> split <;> simp_all

/-- What separates parts of a text, or closes it, leaves nothing to remember. -/
def Clears (policy : SuffixPolicy) (line : List Char) : Prop :=
  ∀ q : Ending, q.IsOpen → q.readAll policy line = plain

/-- Parts with separators between leave nothing to remember once they are closed. -/
theorem readAll_intercalate {separator close : List Char} (hsep : Clears policy separator)
    (hclose : Clears policy close) {parts : List (List Char)}
    (h : ∀ part ∈ parts, (plain.readAll policy part).IsOpen) :
    plain.readAll policy (separator.intercalate parts ++ close) = plain := by
  induction parts with
  | nil => exact hclose plain trivial
  | cons part rest ih =>
    have hpart := h part (.head _)
    cases rest with
    | nil =>
      rw [List.intercalate_singleton, readAll_append]
      exact hclose _ hpart
    | cons next rest =>
      rw [List.intercalate_cons_cons, List.append_assoc, List.append_assoc, readAll_append,
        readAll_append, hsep _ hpart]
      exact ih fun other hother ↦ h other (.tail _ hother)

end Ending

open Ending

/-! ## The parts of a text -/

variable {policy : SuffixPolicy} {tidy : Bool} {texts : List String}

theorem SuffixPolicy.Slips.mono {text whole : String} (h : policy.Slips text)
    (sub : text.toList <:+: whole.toList) : policy.Slips whole := by
  obtain ⟨word, hword, hsub⟩ := h
  exact ⟨word, hword, hsub.trans sub⟩

theorem SuffixPolicy.Slips.append {text : String} (h : policy.Slips text) (rest : String) :
    policy.Slips (text ++ rest) := by
  refine h.mono ?_
  rw [String.toList_append]
  exact (List.prefix_append _ _).isInfix

theorem infix_intercalate {separator part : List Char} {parts : List (List Char)}
    (h : part ∈ parts) : part <:+: separator.intercalate parts := by
  induction parts with
  | nil => cases h
  | cons first rest ih =>
    cases rest with
    | nil =>
      obtain rfl := List.mem_singleton.mp h
      rw [List.intercalate_singleton]
    | cons next rest =>
      rw [List.intercalate_cons_cons, List.append_assoc]
      rcases List.mem_cons.mp h with rfl | h
      · exact (List.prefix_append _ _).isInfix
      · exact ((ih h).trans (List.suffix_append _ _).isInfix).trans
          (List.suffix_append _ _).isInfix

/-- What is known of the texts of the parts of a type: if the parts are tidy, one may go on after
each of them, and else something forbidden is written in one. -/
structure PartsRead (policy : SuffixPolicy) (tidy : Bool) (texts : List String) : Prop where
  isOpen : tidy = true → ∀ text ∈ texts, (plain.readAll policy text.toList).IsOpen
  slips : tidy = false → ∃ text ∈ texts, policy.Slips text

namespace PartsRead

theorem nil : PartsRead policy true [] := ⟨nofun, nofun⟩

theorem append {tidy' : Bool} {texts' : List String} (h : PartsRead policy tidy texts)
    (h' : PartsRead policy tidy' texts') : PartsRead policy (tidy && tidy') (texts ++ texts') where
  isOpen both := by
    rw [Bool.and_eq_true] at both
    intro text ht
    rcases List.mem_append.mp ht with ht | ht
    · exact h.isOpen both.1 text ht
    · exact h'.isOpen both.2 text ht
  slips one := by
    rcases Bool.and_eq_false_iff.mp one with one | one
    · obtain ⟨text, ht, slips⟩ := h.slips one
      exact ⟨text, List.mem_append_left _ ht, slips⟩
    · obtain ⟨text, ht, slips⟩ := h'.slips one
      exact ⟨text, List.mem_append_right _ ht, slips⟩

theorem star : PartsRead policy true ["*"] where
  isOpen _ := by
    intro text ht
    obtain rfl := List.mem_singleton.mp ht
    trivial
  slips := nofun

theorem withVariance {text : String} (h : PartsRead policy tidy [text]) (v : Variance) :
    PartsRead policy tidy [TypeText.withVariance v text] where
  isOpen isTidy := by
    intro other hother
    obtain rfl := List.mem_singleton.mp hother
    have keyword : plain.readAll policy (ArgumentKey.keyword v) = .plain := by cases v <;> rfl
    rw [ArgumentKey.toList_withVariance, readAll_append, keyword]
    exact h.isOpen isTidy text (.head _)
  slips untidy := by
    obtain ⟨other, hother, slips⟩ := h.slips untidy
    obtain rfl := List.mem_singleton.mp hother
    refine ⟨_, .head _, slips.mono ?_⟩
    rw [ArgumentKey.toList_withVariance]
    exact (List.suffix_append _ _).isInfix

end PartsRead

/-- What is known of the text of a shape: if its parts are tidy, nothing is left to remember but a
last letter or the end of a marker, and else something forbidden is written in it. -/
structure BodyRead (policy : SuffixPolicy) (tidy marker : Bool) (text : String) : Prop where
  ending : tidy = true → plain.readAll policy text.toList = .plain ∨
    plain.readAll policy text.toList = .letter ∨
      plain.readAll policy text.toList = .closed ∧ marker = true
  slips : tidy = false → policy.Slips text

/-- A text whose parts stand between an opening and a closing word. -/
theorem PartsRead.body (h : PartsRead policy tidy texts) (first separator last : String)
    (hfirst : plain.readAll policy first.toList = .plain) (hsep : Clears policy separator.toList)
    (hlast : Clears policy last.toList) (marker : Bool) :
    BodyRead policy tidy marker (first ++ separator.intercalate texts ++ last) where
  ending isTidy := by
    left
    rw [String.toList_append, String.toList_append, String.toList_intercalate, List.append_assoc,
      readAll_append, hfirst]
    refine readAll_intercalate hsep hlast fun part hpart ↦ ?_
    obtain ⟨text, ht, rfl⟩ := List.mem_map.mp hpart
    exact h.isOpen isTidy text ht
  slips untidy := by
    obtain ⟨text, ht, slips⟩ := h.slips untidy
    refine slips.mono ?_
    rw [String.toList_append, String.toList_append, String.toList_intercalate]
    have inner : text.toList <:+: separator.toList.intercalate (texts.map String.toList) :=
      infix_intercalate (List.mem_map_of_mem ht)
    exact (inner.trans (List.suffix_append _ _).isInfix).trans (List.prefix_append _ _).isInfix

/-- The words that separate the parts of a text or close it. -/
def closingWords : List String := [", ", "..", " & ", " & Any", ")", ">", "]"]

theorem clears {word : String} (h : word ∈ closingWords) : Clears policy word.toList := by
  intro q hq
  simp only [closingWords, List.mem_cons, List.not_mem_nil, or_false] at h
  rcases h with rfl | rfl | rfl | rfl | rfl | rfl | rfl <;> cases q <;> first | rfl | cases hq

theorem bodyRead_name {name : String} (h : ∀ c ∈ name.toList, c ∉ typeMarks) (marker : Bool) :
    BodyRead policy true marker name where
  ending _ := (readAll_name policy (.inl rfl) h).imp_right .inl
  slips := nofun

/-- The text of an alias that is written by name. -/
theorem bodyRead_aliasName {id : ClassId} (h : ∀ c ∈ id.shortName.toList, c ∉ typeMarks) :
    BodyRead policy true false (TypeText.aliasName id) := by
  have parts : PartsRead policy true [id.shortName] := by
    refine ⟨fun _ text ht ↦ ?_, nofun⟩
    obtain rfl := List.mem_singleton.mp ht
    rcases readAll_name policy (.inl rfl) h with hq | hq <;> rw [hq] <;> trivial
  simpa [TypeText.aliasName] using
    parts.body "[typealias " ", " "]" rfl (clears (by decide)) (clears (by decide)) false

/-- The text of a class: its name, and its arguments if there are any. -/
theorem PartsRead.named (h : PartsRead policy tidy texts) {name : String}
    (hname : ∀ c ∈ name.toList, c ∉ typeMarks) (marker : Bool) :
    BodyRead policy tidy marker (name ++ TypeText.bracketed texts) := by
  cases texts with
  | nil =>
    cases tidy with
    | true =>
      rw [TypeText.bracketed, String.append_empty]
      exact bodyRead_name hname marker
    | false =>
      obtain ⟨text, ht, -⟩ := h.slips rfl
      cases ht
  | cons text rest =>
    have first : plain.readAll policy (name ++ "<").toList = .plain := by
      rw [String.toList_append, readAll_append]
      rcases readAll_name policy (.inl rfl) hname with hq | hq <;> rw [hq] <;> rfl
    have body := h.body (name ++ "<") ", " ">" first (clears (by decide)) (clears (by decide))
      marker
    simpa only [TypeText.bracketed, String.append_assoc] using body

end SymbolView
