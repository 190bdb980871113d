import Mathlib.Data.List.Basic
import Mathlib.Data.List.Pairwise
import Mathlib.Order.Bounds.Basic
import SymbolView.Location
import SymbolView.SymbolTable

/-!
# Offsets are found on their lines

The line of an offset is the number of newlines before it, and its column is its distance from the
place after the last of them (`Pinpoints`).  `lineCol_ofText` says that a lookup in the index of a
text finds them for every offset, if the text is short enough for its lines to be counted from 1.

* The search keeps a stretch of the table with no start above the offset before it, and no start up
  to the offset after it (`Encloses`).  It ends with an empty stretch, and there is only one place
  for that (`Encloses.place_unique`).
* The table of a text is 0 and the places after its newlines (`map_toNat_starts`).  It begins with
  the table of the text up to the offset, and what follows is above the offset
  (`lineStarts_eq_append`).  So this is where the search ends, and the entry before is where the
  line begins (`isGreatest_beginnings`).

A lookup cannot read outside of the table, since it carries the bounds with it, and a subtraction of
offsets always has an answer.  That this hides no failure is said with a lookup that does not carry
bounds and checks each operation (`lineCol?`).
-/

set_option autoImplicit false

namespace SymbolView

/-- Positions are ordered by their lines, and on one line by their columns. -/
instance : LE LineCol where
  le a b := a.line < b.line ∨ a.line = b.line ∧ a.col ≤ b.col

namespace LineIndex

/-! ## The search -/

variable {starts : Array UInt32} {offset : UInt32} {lo hi mid : Nat}

/-- Whether the starts that are not above an offset end in a stretch of a table: those before the
stretch are not above it, and those after the stretch are. -/
structure Encloses (starts : Array UInt32) (offset : UInt32) (lo hi : Nat) : Prop where
  below : ∀ {i : Nat} (h : i < starts.size), i < lo → starts[i] ≤ offset
  above : ∀ {i : Nat} (h : i < starts.size), hi ≤ i → offset < starts[i]

/-- Whether the starts in a table are in ascending order. -/
def Ascending (starts : Array UInt32) : Prop :=
  ∀ {i j : Nat} (hj : j < starts.size) (hij : i ≤ j), starts[i] ≤ starts[j]

namespace Encloses

theorem whole (starts : Array UInt32) (offset : UInt32) :
    Encloses starts offset 0 starts.size where
  below _ early := absurd early (Nat.not_lt_zero _)
  above inside late := absurd inside (Nat.not_lt_of_le late)

variable (ascending : Ascending starts) (h : Encloses starts offset lo hi)
include ascending h

theorem upper (inside : mid < starts.size) (small : starts[mid] ≤ offset) :
    Encloses starts offset (mid + 1) hi where
  below _ early := UInt32.le_trans (ascending inside (Nat.le_of_lt_succ early)) small
  above := h.above

theorem lower (inside : mid < starts.size) (large : ¬ starts[mid] ≤ offset) :
    Encloses starts offset lo mid where
  below := h.below
  above bound late := UInt32.lt_of_lt_of_le (UInt32.not_le.mp large) (ascending bound late)

end Encloses

/-- The search goes on until nothing is left of the stretch. -/
theorem encloses_searchFrom (ascending : Ascending starts) {le : lo ≤ hi}
    {bound : hi ≤ starts.size} (h : Encloses starts offset lo hi) :
    let p := (searchFrom starts offset lo hi le bound).val
    Encloses starts offset p p := by
  fun_induction searchFrom starts offset lo hi le bound with
  | case1 lo hi le bound lt mid inside small ih => exact ih (h.upper ascending inside small)
  | case2 lo hi le bound lt mid inside large ih => exact ih (h.lower ascending inside large)
  | case3 lo hi le bound done =>
    obtain rfl : hi = lo := Nat.le_antisymm (Nat.le_of_not_lt done) le
    exact h

theorem encloses_startsUpTo {index : LineIndex} (ascending : Ascending index.starts) :
    let p := (index.startsUpTo offset).val
    Encloses index.starts offset p p :=
  encloses_searchFrom ascending (.whole index.starts offset)

/-- An empty stretch can only be in one place. -/
theorem Encloses.place_unique {p q : Nat} (h : Encloses starts offset p p)
    (h' : Encloses starts offset q q) (hp : p ≤ starts.size) (hq : q ≤ starts.size) : p = q := by
  by_contra apart
  rcases Nat.lt_or_gt_of_ne apart with lt | lt
  · have bound := Nat.lt_of_lt_of_le lt hq
    exact UInt32.not_le.mpr (h.above bound (Nat.le_refl p)) (h'.below bound lt)
  · have bound := Nat.lt_of_lt_of_le lt hp
    exact UInt32.not_le.mpr (h'.above bound (Nat.le_refl q)) (h.below bound lt)

/-! ## With every operation checked -/

/-- The search, with every look into the table checked. -/
def searchChecked (starts : Array UInt32) (offset : UInt32) (lo hi : Nat) : Option Nat :=
  if lo < hi then
    let mid := lo + (hi - lo) / 2
    match starts[mid]? with
    | none => none
    | some start =>
      if start ≤ offset then searchChecked starts offset (mid + 1) hi
      else searchChecked starts offset lo mid
  else some lo
termination_by hi - lo

/-- The line and column of an offset; nothing if a place is looked up that is not in the table, or
if an offset is subtracted from a smaller one. -/
def lineCol? (index : LineIndex) (offset : UInt32) : Option LineCol := do
  let offset := min offset index.length
  let found ← searchChecked index.starts offset 0 index.starts.size
  let start ← index.starts[found - 1]?
  if start ≤ offset then some ⟨UInt32.ofNat (found - 1), offset - start⟩ else none

theorem searchChecked_of_lt (lt : lo < hi) (inside : lo + (hi - lo) / 2 < starts.size) :
    searchChecked starts offset lo hi =
      if starts[lo + (hi - lo) / 2] ≤ offset then
        searchChecked starts offset (lo + (hi - lo) / 2 + 1) hi
      else searchChecked starts offset lo (lo + (hi - lo) / 2) := by
  rw [searchChecked, if_pos lt]
  dsimp only
  rw [Array.getElem?_eq_getElem inside]

theorem searchChecked_eq (le : lo ≤ hi) (bound : hi ≤ starts.size) :
    searchChecked starts offset lo hi = some (searchFrom starts offset lo hi le bound).val := by
  fun_induction searchFrom starts offset lo hi le bound with
  | case1 lo hi le bound lt mid inside small ih =>
    rw [searchChecked_of_lt lt inside, if_pos small, ih]
  | case2 lo hi le bound lt mid inside large ih =>
    rw [searchChecked_of_lt lt inside, if_neg large, ih]
  | case3 lo hi le bound done => rw [searchChecked, if_neg done]

theorem searchChecked_whole (index : LineIndex) (offset : UInt32) :
    searchChecked index.starts offset 0 index.starts.size = some (index.startsUpTo offset).val :=
  searchChecked_eq (Nat.zero_le _) (Nat.le_refl _)

/-! ## The table of a text -/

/-- The bytes of a text. -/
def bytes (text : String) : List UInt8 := text.toUTF8.data.toList

/-- Where the lines of a text start, given its bytes. -/
def lineStarts (bs : List UInt8) : List Nat := 0 :: bs.idxsOf newline 1

/-- Where lines begin up to place `p` of a text: at the start, and after each newline before `p`. -/
def beginnings (bs : List UInt8) (p : Nat) : Set Nat :=
  {q | q = 0 ∨ ∃ i < p, bs[i]? = some newline ∧ q = i + 1}

/-- How many newlines there are among the first `p` bytes of a text. -/
def newlinesBefore (bs : List UInt8) (p : Nat) : Nat := (bs.take p).count newline

variable {bs : List UInt8} {p q : Nat} {text : String}

theorem length_bytes (text : String) : (bytes text).length = text.utf8ByteSize := by
  simp [bytes]

theorem map_toNat_startsAfter (fits : offset.toNat + bs.length < UInt32.size) :
    (startsAfter offset bs).map UInt32.toNat = bs.idxsOf newline (offset.toNat + 1) := by
  induction bs generalizing offset with
  | nil => rfl
  | cons b bs ih =>
    rw [List.length_cons] at fits
    have next : (offset + 1).toNat = offset.toNat + 1 := by
      rw [UInt32.toNat_add]
      exact Nat.mod_eq_of_lt (Nat.lt_of_le_of_lt (by simp) fits)
    have rest := @ih (offset + 1) (by rw [next]; omega)
    rw [next] at rest
    rw [startsAfter, List.idxsOf_cons, ← rest]
    split
    next h => rw [h, beq_self_eq_true, if_pos rfl, List.map_cons, next]
    next h => rw [beq_eq_false_iff_ne.mpr h, if_neg Bool.false_ne_true]

/-- No offset in the table of a text overflows. -/
theorem map_toNat_starts (fits : text.utf8ByteSize < UInt32.size) :
    (ofText text).starts.toList.map UInt32.toNat = lineStarts (bytes text) := by
  have rest : (startsAfter 0 (bytes text)).map UInt32.toNat = (bytes text).idxsOf newline 1 :=
    map_toNat_startsAfter (by rwa [length_bytes, UInt32.toNat_zero, Nat.zero_add])
  exact congrArg (0 :: ·) rest

theorem lineStarts_eq_append (hp : p ≤ bs.length) :
    lineStarts bs = lineStarts (bs.take p) ++ (bs.drop p).idxsOf newline (p + 1) := by
  have cut : (bs.take p ++ bs.drop p).idxsOf newline 1 = _ := List.idxsOf_append
  rw [List.take_append_drop, List.length_take_of_le hp, Nat.add_comm] at cut
  exact congrArg (0 :: ·) cut

theorem length_lineStarts (bs : List UInt8) : (lineStarts bs).length = bs.count newline + 1 :=
  congrArg (· + 1) List.length_idxsOf

theorem length_lineStarts_take (bs : List UInt8) (p : Nat) :
    (lineStarts (bs.take p)).length = newlinesBefore bs p + 1 :=
  length_lineStarts (bs.take p)

theorem newlinesBefore_le_count (bs : List UInt8) (p : Nat) :
    newlinesBefore bs p ≤ bs.count newline :=
  (List.take_sublist p bs).count_le newline

theorem newlinesBefore_mono (bs : List UInt8) (h : p ≤ q) :
    newlinesBefore bs p ≤ newlinesBefore bs q :=
  (List.take_sublist_take_left h).count_le newline

theorem newlinesBefore_le_utf8ByteSize (text : String) (p : Nat) :
    newlinesBefore (bytes text) p ≤ text.utf8ByteSize := by
  rw [← length_bytes]
  exact (newlinesBefore_le_count _ p).trans List.count_le_length

theorem mem_lineStarts_take : q ∈ lineStarts (bs.take p) ↔ q ∈ beginnings bs p := by
  rw [lineStarts, List.mem_cons, List.mem_idxsOf_iff_getElem_sub_pos]
  refine or_congr_right ⟨?_, ?_⟩
  · rintro ⟨positive, inside, found⟩
    rw [List.length_take] at inside
    refine ⟨q - 1, by omega, ?_, by omega⟩
    rw [List.getElem_take] at found
    rw [List.getElem?_eq_getElem (by omega), eq_of_beq found]
  · rintro ⟨i, below, found, rfl⟩
    obtain ⟨inside, found⟩ := List.getElem?_eq_some_iff.mp found
    refine ⟨Nat.le_add_left 1 i, ?_, ?_⟩
    · rw [List.length_take]
      omega
    · rw [List.getElem_take]
      exact beq_iff_eq.mpr found

theorem le_of_mem_beginnings (h : q ∈ beginnings bs p) : q ≤ p := by
  obtain rfl | ⟨i, below, -, rfl⟩ := h
  · exact Nat.zero_le p
  · exact below

theorem pairwise_lineStarts (bs : List UInt8) : (lineStarts bs).Pairwise (· ≤ ·) :=
  List.pairwise_cons.mpr ⟨fun q _ ↦ Nat.zero_le q, List.pairwise_idxsOf.imp Nat.le_of_lt⟩

theorem ascending_starts (fits : text.utf8ByteSize < UInt32.size) :
    Ascending (ofText text).starts := by
  intro i j hj hij
  have sorted := pairwise_lineStarts (bytes text)
  rw [← map_toNat_starts fits, List.pairwise_map] at sorted
  rcases Nat.lt_or_eq_of_le hij with lt | rfl
  · exact List.pairwise_iff_getElem.mp sorted i j _ hj lt
  · exact UInt32.le_refl _

theorem getElem?_lineStarts (fits : text.utf8ByteSize < UInt32.size) (i : Nat) :
    (lineStarts (bytes text))[i]? = (ofText text).starts[i]?.map UInt32.toNat := by
  rw [← map_toNat_starts fits, List.getElem?_map, Array.getElem?_toList]

/-- The starts up to an offset are those of the text up to there. -/
theorem encloses_starts (fits : text.utf8ByteSize < UInt32.size)
    (hp : offset.toNat ≤ text.utf8ByteSize) :
    let n := newlinesBefore (bytes text) offset.toNat + 1
    Encloses (ofText text).starts offset n n := by
  rw [← length_bytes] at hp
  -- an entry stands in the table of the text up to the offset, or in what follows that table
  have entry {i : Nat} (h : i < (ofText text).starts.size) :
      (lineStarts ((bytes text).take offset.toNat) ++
        ((bytes text).drop offset.toNat).idxsOf newline (offset.toNat + 1))[i]? =
        some (ofText text).starts[i].toNat := by
    rw [← lineStarts_eq_append hp, getElem?_lineStarts fits, Array.getElem?_eq_getElem h]
    rfl
  dsimp only
  rw [← length_lineStarts_take]
  refine ⟨fun h below ↦ ?_, fun h above ↦ ?_⟩
  · have early := entry h
    rw [List.getElem?_append_left below] at early
    exact le_of_mem_beginnings (mem_lineStarts_take.mp (List.mem_of_getElem? early))
  · have late := entry h
    rw [List.getElem?_append_right above] at late
    exact List.ge_of_mem_idxsOf _ (List.mem_of_getElem? late)

theorem startsUpTo_ofText (fits : text.utf8ByteSize < UInt32.size)
    (hp : offset.toNat ≤ text.utf8ByteSize) :
    ((ofText text).startsUpTo offset).val = newlinesBefore (bytes text) offset.toNat + 1 := by
  refine (encloses_startsUpTo (ascending_starts fits)).place_unique (encloses_starts fits hp)
    ((ofText text).startsUpTo offset).property ?_
  have size := congrArg List.length (map_toNat_starts fits)
  rw [List.length_map, Array.length_toList, length_lineStarts] at size
  rw [size]
  exact Nat.succ_le_succ (newlinesBefore_le_count _ _)

/-- The last start up to an offset is where the line begins. -/
theorem isGreatest_beginnings (hp : p ≤ bs.length)
    (entry : (lineStarts bs)[newlinesBefore bs p]? = some q) : IsGreatest (beginnings bs p) q := by
  -- the entry is the last one in the table of the text up to `p`, and that table is in order
  have last : (lineStarts (bs.take p)).getLast? = some q := by
    rw [lineStarts_eq_append hp,
      List.getElem?_append_left (length_lineStarts_take bs p ▸ Nat.lt_succ_self _)] at entry
    rw [List.getLast?_eq_getElem?, length_lineStarts_take, Nat.add_sub_cancel]
    exact entry
  have nonempty : lineStarts (bs.take p) ≠ [] := List.cons_ne_nil _ _
  refine ⟨mem_lineStarts_take.mp (List.mem_of_getLast? last), fun q' hq' ↦ ?_⟩
  rw [← (List.getLast_eq_iff_getLast?_eq_some nonempty).mpr last]
  exact (pairwise_lineStarts (bs.take p)).rel_getLast (mem_lineStarts_take.mpr hq')

/-! ## The position -/

/-- Whether a position is that of the place after the first `p` bytes: its line is the number of
newlines among them, and its column is the distance from where the line begins. -/
structure Pinpoints (bs : List UInt8) (p : Nat) (position : LineCol) : Prop where
  line : position.line.toNat = newlinesBefore bs p
  col : ∃ start, IsGreatest (beginnings bs p) start ∧ start + position.col.toNat = p

/-- Where a line begins depends on its number only. -/
theorem beginnings_congr (same : newlinesBefore bs p = newlinesBefore bs q) :
    beginnings bs p = beginnings bs q := by
  have cut : lineStarts (bs.take p) = lineStarts (bs.take q) := by
    rw [lineStarts, lineStarts, List.idxsOf_take, List.idxsOf_take]
    exact congrArg (fun n ↦ 0 :: (bs.idxsOf newline 1).take n) same
  ext start
  rw [← mem_lineStarts_take, cut, mem_lineStarts_take]

theorem Pinpoints.mono {earlier later : LineCol} (h : Pinpoints bs p earlier)
    (h' : Pinpoints bs q later) (hpq : p ≤ q) : earlier ≤ later := by
  rcases Nat.lt_or_eq_of_le (newlinesBefore_mono bs hpq) with lt | same
  · left
    rw [UInt32.lt_iff_toNat_lt, h.line, h'.line]
    exact lt
  · right
    obtain ⟨start, greatest, col⟩ := h.col
    obtain ⟨start', greatest', col'⟩ := h'.col
    obtain rfl : start = start' := (beginnings_congr same ▸ greatest).unique greatest'
    rw [← UInt32.toNat_inj, h.line, h'.line, UInt32.le_iff_toNat_le]
    exact ⟨same, by omega⟩

section Lookup

variable {index : LineIndex} {n : Nat} {start : UInt32}
  (found : (index.startsUpTo (min offset index.length)).val = n + 1)
  (entry : index.starts[n]? = some start)
include found entry

theorem lineCol_eq :
    index.lineCol offset = ⟨UInt32.ofNat n, min offset index.length - start⟩ := by
  obtain ⟨inside, entry⟩ := Array.getElem?_eq_some_iff.mp entry
  simp only [lineCol, found, Nat.add_sub_cancel, entry]

theorem lineCol?_eq (le : start ≤ min offset index.length) :
    index.lineCol? offset = some (index.lineCol offset) := by
  rw [lineCol_eq found entry, lineCol?, searchChecked_whole, found]
  simp only [Option.bind_eq_bind, Option.bind_some, Nat.add_sub_cancel, entry, if_pos le]

end Lookup

/-- The place of an offset in a text: an offset beyond the end is taken back to it. -/
def place (text : String) (offset : UInt32) : Nat := min offset.toNat text.utf8ByteSize

theorem place_mono (text : String) {later : UInt32} (h : offset ≤ later) :
    place text offset ≤ place text later :=
  inf_le_inf_right text.utf8ByteSize (UInt32.le_iff_toNat_le.mp h)

section Text

variable (fits : text.utf8ByteSize < UInt32.size) (offset : UInt32)
include fits

theorem toNat_min_length : (min offset (ofText text).length).toNat = place text offset := by
  rw [UInt32.toNat_min]
  exact congrArg (min offset.toNat) (UInt32.toNat_ofNat_of_lt' fits)

/-- What a lookup finds: the line begins at an entry of the table. -/
theorem exists_start :
    ((ofText text).startsUpTo (min offset (ofText text).length)).val =
        newlinesBefore (bytes text) (place text offset) + 1 ∧
      ∃ start, (ofText text).starts[newlinesBefore (bytes text) (place text offset)]? = some start ∧
        IsGreatest (beginnings (bytes text) (place text offset)) start.toNat := by
  have hp := toNat_min_length fits offset
  have le : place text offset ≤ text.utf8ByteSize := Nat.min_le_right _ _
  rw [← hp] at le ⊢
  have found := startsUpTo_ofText fits le
  have inside := ((ofText text).startsUpTo (min offset (ofText text).length)).property
  rw [found] at inside
  refine ⟨found, _, Array.getElem?_eq_getElem inside, ?_⟩
  refine isGreatest_beginnings (length_bytes text ▸ le) ?_
  rw [getElem?_lineStarts fits, Array.getElem?_eq_getElem inside]
  rfl

theorem pinpoints_lineCol :
    Pinpoints (bytes text) (place text offset) ((ofText text).lineCol offset) := by
  obtain ⟨found, start, entry, greatest⟩ := exists_start fits offset
  have hp := toNat_min_length fits offset
  have le := le_of_mem_beginnings greatest.1
  have col := UInt32.toNat_sub_of_le _ start (UInt32.le_iff_toNat_le.mpr (hp ▸ le))
  rw [lineCol_eq found entry]
  refine ⟨?_, start.toNat, greatest, ?_⟩
  · exact UInt32.toNat_ofNat_of_lt'
      (Nat.lt_of_le_of_lt (newlinesBefore_le_utf8ByteSize text _) fits)
  · dsimp only
    rw [col, hp, Nat.add_sub_cancel' le]

/-- A lookup that checks every operation finds the same. -/
theorem lineCol?_ofText :
    (ofText text).lineCol? offset = some ((ofText text).lineCol offset) := by
  obtain ⟨found, start, entry, greatest⟩ := exists_start fits offset
  refine lineCol?_eq found entry ?_
  rw [UInt32.le_iff_toNat_le, toNat_min_length fits]
  exact le_of_mem_beginnings greatest.1

end Text

/-- The number of a line can be counted from 1. -/
theorem toNat_line_add_one (short : text.utf8ByteSize < UInt32.size - 1) (offset : UInt32) :
    (((ofText text).lineCol offset).line + 1).toNat =
      newlinesBefore (bytes text) (place text offset) + 1 := by
  have fits : text.utf8ByteSize < UInt32.size := Nat.lt_of_lt_of_le short (Nat.sub_le _ 1)
  have few := newlinesBefore_le_utf8ByteSize text (place text offset)
  rw [UInt32.toNat_add, (pinpoints_lineCol fits offset).line]
  exact Nat.mod_eq_of_lt (Nat.succ_lt_of_lt_pred (Nat.lt_of_le_of_lt few short))

/-- **Line lookup is exact.**  Take a text of fewer than `UInt32.size - 1` bytes and an offset.  The
line found is the number of newlines before the offset, or before the end of the text if the offset
is beyond it, and the column is the distance from the place after the last of them.  No place is
looked up that is not in the table, and no offset is subtracted from a smaller one.  A later offset
is not found at an earlier position.  A host that has the text as a document tells the number of the
line counted from 1, which is at most one more than the number of newlines. -/
theorem lineCol_ofText (short : text.utf8ByteSize < UInt32.size - 1) (offset : UInt32) :
    Pinpoints (bytes text) (place text offset) ((ofText text).lineCol offset) ∧
      (ofText text).lineCol? offset = some ((ofText text).lineCol offset) ∧
      (∀ later, offset ≤ later → (ofText text).lineCol offset ≤ (ofText text).lineCol later) ∧
      ∀ (host : Host) (file : FileId) (path : String),
        host.document file = some (.ofText path text) →
        ∃ line, host.locate (some ⟨file, offset⟩) = .file path line ∧
          line.toNat = ((ofText text).lineCol offset).line.toNat + 1 ∧
          1 ≤ line.toNat ∧ line.toNat ≤ (bytes text).count newline + 1 := by
  have fits : text.utf8ByteSize < UInt32.size := Nat.lt_of_lt_of_le short (Nat.sub_le _ 1)
  have found (offset : UInt32) := pinpoints_lineCol fits offset
  refine ⟨found offset, lineCol?_ofText fits offset, fun later h ↦ ?_, fun host file path h ↦ ?_⟩
  · exact (found offset).mono (found later) (place_mono text h)
  · have next := toNat_line_add_one short offset
    refine ⟨_, by rw [Host.locate, h]; rfl, ?_, ?_, ?_⟩
    · rw [(found offset).line]
      exact next
    · exact next ▸ Nat.le_add_left 1 _
    · exact next ▸ Nat.succ_le_succ (newlinesBefore_le_count _ _)

/-- A text with a letter of two bytes, both kinds of line ends and an empty line. -/
def sampleText : String := "\u00e9\r\n\nb"

/-- A host that has the text as a document. -/
def sampleHost : Host := (SymbolTable.empty.addFile "p/A.kt" sampleText .kotlin).1.toHost

theorem lineCol_ofText_sample :
    sampleText.utf8ByteSize < UInt32.size - 1 ∧
      sampleHost.document ⟨0⟩ = some (.ofText "p/A.kt" sampleText) ∧
      ((ofText sampleText).lineCol 4).line.toNat = 1 ∧
      (ofText sampleText).lineCol 4 ≤ (ofText sampleText).lineCol 100 ∧
      ∃ line, sampleHost.locate (some ⟨⟨0⟩, 100⟩) = .file "p/A.kt" line ∧ line.toNat = 3 := by
  have short : sampleText.utf8ByteSize < UInt32.size - 1 := by decide
  have document : sampleHost.document ⟨0⟩ = some (.ofText "p/A.kt" sampleText) := rfl
  obtain ⟨found, -, later, -⟩ := lineCol_ofText short 4
  obtain ⟨last, -, -, located⟩ := lineCol_ofText short 100
  obtain ⟨line, hline, next, -⟩ := located sampleHost ⟨0⟩ "p/A.kt" document
  refine ⟨short, document, found.line.trans (by decide), later 100 (by decide), line, hline, ?_⟩
  rw [next, last.line]
  decide

end LineIndex
end SymbolView
