import SymbolView.DocComment
import SymbolView.Proofs.Text.Lines

/-!
# Cleaning gives back what was written

A documentation comment is written in one of two ways: its text on lines of their own behind a
gutter of stars (`Layout.write`), or one line of text between the delimiters (`oneLine`).  This file
says when `clean` gives the text back.

* It does so for every text behind a gutter whose lines have no blanks at their ends and whose first
  and last lines are not empty (`clean_write`): a text that is not like that could not be told from
  the layout around it.
* It does so for one line exactly if the line does not begin with a star (`clean_oneLine_eq_iff`).
  There is no gutter before that line, and a star of the text is taken for one.

Both go through the same steps.  The delimiters are cut off (`clean_of_delimited`), the rest falls
into the lines that were written (`lines_append`, `lines_of_unbroken`), and each is taken out of its
gutter (`cleanLine_gutter`, `cleanLine_opening`).
-/

set_option autoImplicit false

namespace SymbolView

namespace DocComment

open Text

/-! ## The steps of cleaning -/

variable {text before after blanks cs : List Char} {c : Char} {first last : List Char}
  {ls tail : List (List Char)}

theorem body?_eq_some (cs : List Char) :
    body? ("/**".toList ++ cs ++ "*/".toList) = some cs := by
  have opened : List.isPrefixOf? "/**".toList ("/**".toList ++ cs ++ "*/".toList) =
      some (cs ++ "*/".toList) :=
    List.isPrefixOf?_eq_some_iff_append_eq.mpr (List.append_assoc ..).symm
  rw [body?, opened]
  exact List.isSuffixOf?_eq_some_iff_append_eq.mpr rfl

/-- The delimiters are cut off, with what is blank around them. -/
theorem clean_of_delimited (hbefore : ∀ c ∈ before, isBlank c = true)
    (hafter : ∀ c ∈ after, isBlank c = true) (cs : List Char) :
    clean (String.ofList (before ++ ("/**".toList ++ cs ++ "*/".toList) ++ after)) =
      "\n".intercalate ((dropOuterEmpty ((lines cs).map cleanLine)).map String.ofList) := by
  have trimmed : trim (before ++ ("/**".toList ++ cs ++ "*/".toList) ++ after) =
      "/**".toList ++ cs ++ "*/".toList := by
    refine dropWhile_both hbefore hafter ⟨'/', by simp, by decide⟩ ⟨'/', ?_, by decide⟩
    rw [List.getLast?_append]
    rfl
  rw [clean, String.toList_ofList, trimmed, body?_eq_some]

theorem cleanLine_of_blank (blank : ∀ c ∈ cs, isBlank c = true) : cleanLine cs = [] := by
  rw [cleanLine, trimStart_of_blank blank]
  rfl

/-- One star and one space are taken from a line, and the rest is left as it is. -/
theorem cleanLine_gutter (blank : ∀ c ∈ blanks, isBlank c = true) (ends : EndsInk text) :
    cleanLine (blanks ++ '*' :: ' ' :: text) = text := by
  have star : trimStart ('*' :: ' ' :: text) = '*' :: ' ' :: text := trimStart_cons (by decide)
  rw [cleanLine, trimStart_append blank, star]
  exact trimEnd_of_endsInk ends

theorem dropLeading_suffix (c : Char) (cs : List Char) : dropLeading c cs <:+ cs := by
  cases cs with
  | nil => exact List.suffix_rfl
  | cons x xs =>
    rw [dropLeading]
    split
    · exact List.suffix_cons x xs
    · exact List.suffix_rfl

theorem dropLeading_cons_append (c x : Char) (xs rest : List Char) :
    dropLeading c (x :: xs ++ rest) = dropLeading c (x :: xs) ++ rest := by
  rw [List.cons_append, dropLeading, dropLeading]
  split <;> rfl

theorem trimEnd_dropLeading (ends : EndsInk cs) :
    trimEnd (dropLeading ' ' (cs ++ [' '])) = dropLeading ' ' cs := by
  cases cs with
  | nil => rfl
  | cons x xs =>
    rw [dropLeading_cons_append, trimEnd_concat (by decide)]
    exact trimEnd_of_endsInk (ends.of_suffix (dropLeading_suffix ' ' (x :: xs)))

/-- The opening line has no gutter, but it is treated as if it had one. -/
theorem cleanLine_opening (ink : isBlank c = false) (ends : EndsInk (c :: cs)) :
    cleanLine (' ' :: (c :: cs ++ [' '])) = dropLeading ' ' (dropLeading '*' (c :: cs)) := by
  have space : ∀ c ∈ [' '], isBlank c = true := List.forall_mem_singleton.mpr rfl
  have start : trimStart (' ' :: (c :: cs ++ [' '])) = c :: cs ++ [' '] :=
    (trimStart_append space).trans (trimStart_cons ink)
  rw [cleanLine, start, dropLeading_cons_append]
  exact trimEnd_dropLeading (ends.of_suffix (dropLeading_suffix '*' (c :: cs)))

/-! ## Text behind a gutter -/

/-- How a comment is laid out that has lines of their own for its text. -/
structure Layout where
  /-- What stands before the comment. -/
  before : List Char
  /-- What stands after it. -/
  after : List Char
  /-- What each line but the opening one begins with. -/
  indentation : List Char
  /-- How the opening line ends. -/
  opening : LineEnd
  blank_before : ∀ c ∈ before, isBlank c = true
  blank_after : ∀ c ∈ after, isBlank c = true
  spaces_or_tabs : ∀ c ∈ indentation, c = ' ' ∨ c = '\t'

/-- A line of text that can be told from the layout around it. -/
structure Row where
  /-- The text. -/
  text : String
  /-- How the line ends. -/
  ending : LineEnd
  unbroken : '\n' ∉ text.toList
  endsInk : EndsInk text.toList

namespace Layout

variable (layout : Layout)

/-- A line of text in the comment, without its end. -/
def line (row : Row) : List Char := layout.indentation ++ '*' :: ' ' :: row.text.toList

/-- The comment without its delimiters. -/
def body (rows : List Row) : List Char :=
  layout.opening.chars ++ rows.flatMap (fun row ↦ layout.line row ++ row.ending.chars)
    ++ layout.indentation

/-- The comment. -/
def write (rows : List Row) : String :=
  .ofList (layout.before ++ ("/**".toList ++ layout.body rows ++ "*/".toList) ++ layout.after)

theorem isBlank_indentation : ∀ c ∈ layout.indentation, isBlank c = true := by
  intro c hc
  rcases layout.spaces_or_tabs c hc with rfl | rfl <;> decide

theorem unbroken_indentation : '\n' ∉ layout.indentation := by
  intro h
  rcases layout.spaces_or_tabs '\n' h with h | h <;> cases h

theorem unbroken_line (row : Row) : '\n' ∉ layout.line row := by
  intro h
  rcases List.mem_append.mp h with h | h
  · exact layout.unbroken_indentation h
  · simp only [List.mem_cons, Char.reduceEq, false_or] at h
    exact row.unbroken h

/-- The end of a line is not taken for more than it is: a carriage return is blank. -/
theorem getLast?_line (row : Row) : (layout.line row).getLast? ≠ some '\r' := by
  intro h
  rw [line, List.getLast?_append, List.getLast?_cons_cons] at h
  cases last : row.text.toList.getLast? with
  | none =>
    rw [List.getLast?_cons, last] at h
    cases h
  | some c =>
    rw [List.getLast?_cons, last] at h
    cases h
    cases row.endsInk '\r' last

theorem lines_body (rows : List Row) : lines (layout.body rows) =
    [] :: rows.map layout.line ++ lines layout.indentation := by
  have opening := lines_append (l := []) (by decide) nofun layout.opening
  rw [body, List.append_assoc, ← List.nil_append layout.opening.chars, opening, List.cons_append]
  congr 1
  induction rows with
  | nil => rfl
  | cons row rows ih =>
    rw [List.flatMap_cons, List.append_assoc,
      lines_append (layout.unbroken_line row) (layout.getLast?_line row) row.ending, ih]
    rfl

theorem cleanLine_line (row : Row) : cleanLine (layout.line row) = row.text.toList :=
  cleanLine_gutter layout.isBlank_indentation row.endsInk

/-- Nothing comes of what stands before the closing delimiter. -/
theorem cleanLine_closing : ∀ l ∈ (lines layout.indentation).map cleanLine, l.isEmpty = true := by
  cases hempty : layout.indentation with
  | nil => exact nofun
  | cons c cs =>
    have cleaned := cleanLine_of_blank layout.isBlank_indentation
    rw [← hempty, lines_of_unbroken layout.unbroken_indentation (by simp [hempty])]
    rw [List.map_singleton, cleaned]
    exact List.forall_mem_singleton.mpr rfl

end Layout

/-- **A text behind a gutter comes back.**  Take a list of lines without blanks at their ends, the
first and the last of which are not empty, and write them on lines of their own, each behind the
same spaces and tabs, a star and a space.  Cleaning gives the lines, joined by line feeds: whatever
they contain and however they end, whatever the indentation is and whatever is blank around the
comment. -/
theorem clean_write (layout : Layout) {rows : List Row}
    (first : ∃ row ∈ rows.head?, row.text ≠ "") (last : ∃ row ∈ rows.getLast?, row.text ≠ "") :
    clean (layout.write rows) = "\n".intercalate (rows.map (·.text)) := by
  have inked {row : Row} (h : row.text ≠ "") : row.text.toList.isEmpty = false := by
    simpa using h
  have cleaned : (lines (layout.body rows)).map cleanLine =
      [[]] ++ rows.map (·.text.toList) ++ (lines layout.indentation).map cleanLine := by
    rw [layout.lines_body, List.map_append, List.map_cons, List.map_map]
    congr 2
    exact List.map_congr_left fun row _ ↦ layout.cleanLine_line row
  have kept : dropOuterEmpty ((lines (layout.body rows)).map cleanLine) =
      rows.map (·.text.toList) := by
    rw [cleaned]
    refine dropWhile_both (by simp) layout.cleanLine_closing ?_ ?_
    · obtain ⟨row, hrow, ink⟩ := first
      exact ⟨_, by rw [List.head?_map, Option.mem_def.mp hrow]; rfl, inked ink⟩
    · obtain ⟨row, hrow, ink⟩ := last
      exact ⟨_, by rw [List.getLast?_map, Option.mem_def.mp hrow]; rfl, inked ink⟩
  rw [Layout.write, clean_of_delimited layout.blank_before layout.blank_after, kept, List.map_map]
  congr 1
  exact List.map_congr_left fun row _ ↦ String.ofList_toList

/-- An indented comment on a text with a bullet, an empty line, and delimiters of its own. -/
def sampleLayout : Layout where
  before := ['\t']
  after := ['\n']
  indentation := ['\t', ' ']
  opening := .carriageReturnLineFeed
  blank_before := List.forall_mem_singleton.mpr rfl
  blank_after := List.forall_mem_singleton.mpr rfl
  spaces_or_tabs := by simp

/-- The text of the comment. -/
def sampleRows : List Row :=
  [⟨"* a bullet", .carriageReturnLineFeed, by decide, by decide⟩,
    ⟨"", .lineFeed, by decide, by decide⟩,
    ⟨"  /** code */", .carriageReturnLineFeed, by decide, by decide⟩]

theorem clean_write_sample :
    sampleLayout.write sampleRows =
        "\t/**\r\n\t * * a bullet\r\n\t * \n\t *   /** code */\r\n\t */\n" ∧
      clean (sampleLayout.write sampleRows) = "* a bullet\n\n  /** code */" := by
  refine ⟨by decide, (clean_write sampleLayout ?_ ?_).trans (by decide)⟩
  · exact ⟨_, rfl, by decide⟩
  · exact ⟨_, rfl, by decide⟩

/-! ## Text between the delimiters -/

/-- A comment on one line. -/
def oneLine (text : String) : String := "/** " ++ text ++ " */"

/-- A text that can be told from the delimiters around it. -/
structure FitsOneLine (text : String) : Prop where
  unbroken : '\n' ∉ text.toList
  beginsInk : ∃ c ∈ text.toList.head?, isBlank c = false
  endsInk : EndsInk text.toList

/-- What is taken from one line is what would be the gutter of another. -/
theorem clean_oneLine {text : String} (fits : FitsOneLine text) :
    clean (oneLine text) = String.ofList (dropLeading ' ' (dropLeading '*' text.toList)) := by
  obtain ⟨c, hc, ink⟩ := fits.beginsInk
  obtain ⟨cs, hcs⟩ := List.head?_eq_some_iff.mp hc
  have written : oneLine text = String.ofList ([] ++
      ("/**".toList ++ ' ' :: (text.toList ++ [' ']) ++ "*/".toList) ++ []) := by
    rw [← String.toList_inj]
    simp [oneLine]
  have unbroken : '\n' ∉ ' ' :: (text.toList ++ [' ']) := by
    simpa using fits.unbroken
  rw [written, clean_of_delimited (List.forall_mem_nil _) (List.forall_mem_nil _),
     lines_of_unbroken unbroken (List.cons_ne_nil _ _),
    List.map_singleton, hcs, cleanLine_opening ink (hcs ▸ fits.endsInk)]
  cases dropLeading ' ' (dropLeading '*' (c :: cs)) <;> rfl

/-- **One line comes back if it does not begin with a star.**  Take a text on one line that neither
begins nor ends with a blank, and write it between the delimiters, with a space on either side.
Cleaning gives the text back if and only if it does not begin with a star.  If it does, the star is
lost, and with it one space after the star. -/
theorem clean_oneLine_eq_iff {text : String} (fits : FitsOneLine text) :
    (clean (oneLine text) = text ↔ text.toList.head? ≠ some '*') ∧
      ∀ rest, text.toList = '*' :: rest →
        clean (oneLine text) = String.ofList (dropLeading ' ' rest) := by
  have lost (rest : List Char) (star : text.toList = '*' :: rest) :
      clean (oneLine text) = String.ofList (dropLeading ' ' rest) := by
    rw [clean_oneLine fits, star]
    rfl
  refine ⟨⟨fun same star ↦ ?_, fun other ↦ ?_⟩, lost⟩
  · obtain ⟨rest, hrest⟩ := List.head?_eq_some_iff.mp star
    have shorter := (dropLeading_suffix ' ' rest).length_le
    rw [lost rest hrest, ← String.toList_inj, String.toList_ofList, hrest] at same
    rw [same, List.length_cons] at shorter
    exact Nat.not_succ_le_self _ shorter
  · obtain ⟨c, hc, ink⟩ := fits.beginsInk
    obtain ⟨cs, hcs⟩ := List.head?_eq_some_iff.mp hc
    have notStar : c ≠ '*' := by
      rintro rfl
      exact other hc
    have notSpace : c ≠ ' ' := by
      rintro rfl
      cases ink
    rw [clean_oneLine fits, hcs, dropLeading, if_neg notStar, dropLeading, if_neg notSpace, ← hcs,
      String.ofList_toList]

theorem clean_oneLine_eq_iff_sample :
    FitsOneLine "a * b" ∧ clean (oneLine "a * b") = "a * b" ∧
      FitsOneLine "*  b" ∧ clean (oneLine "*  b") = " b" := by
  have plain : FitsOneLine "a * b" := ⟨by decide, ⟨'a', rfl, by decide⟩, by decide⟩
  have starred : FitsOneLine "*  b" := ⟨by decide, ⟨'*', rfl, by decide⟩, by decide⟩
  exact ⟨plain, (clean_oneLine_eq_iff plain).1.mpr (by decide),
    starred, (clean_oneLine_eq_iff starred).2 [' ', ' ', 'b'] rfl⟩

/-- A bullet on the opening line is text, and it is lost. -/
theorem clean_oneLine_bullet : FitsOneLine "* a" ∧ oneLine "* a" = "/** * a */" ∧
    clean (oneLine "* a") = "a" ∧ clean (oneLine "* a") ≠ "* a" := by
  have cleaned : clean (oneLine "* a") = "a" := by decide
  refine ⟨⟨by decide, ⟨'*', rfl, by decide⟩, by decide⟩, by decide, cleaned, ?_⟩
  rw [cleaned]
  decide

end DocComment
end SymbolView
