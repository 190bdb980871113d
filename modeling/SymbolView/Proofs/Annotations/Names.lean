import SymbolView.Proofs.QualifiedName.Segments
import SymbolView.Proofs.Type.Told

/-!
# Names of classes and callables can be read back

If the segments of an id are names, the text of the id tells the segments: slashes stand only after
those of the package, and dots only between those of the class.  It does not tell whether the class
is local.  The text of a callable of a class is told from that of another by its last dot.
-/

set_option autoImplicit false

namespace SymbolView

/-- The characters that no name has in it: what names are joined with, and what stands around values
or opens one. -/
def nameMarks : List Char :=
  ['/', '.', ':', ',', '(', ')', '\x7b', '\x7d', '\x27', '\x22', '@', '<', '-']

/-- Whether a name can be told from what is written around it: it is not empty, does not start with
a digit and has no marks in it. -/
def isName (name : String) : Bool :=
  match name.toList with
  | [] => false
  | c :: rest => !c.isDigit && (c :: rest).all (· ∉ nameMarks)

theorem isName_iff {name : String} : isName name = true ↔
    ∃ c rest, name.toList = c :: rest ∧ c.isDigit = false ∧ ∀ d ∈ c :: rest, d ∉ nameMarks := by
  unfold isName
  split <;> simp_all

variable {name : String}

theorem unmarked_of_isName (h : isName name = true) : ∀ c ∈ name.toList, c ∉ nameMarks := by
  obtain ⟨c, rest, heq, -, unmarked⟩ := isName_iff.mp h
  exact heq ▸ unmarked

theorem isSegment_of_isName (h : isName name = true) : IsSegment name where
  noDot hdot := unmarked_of_isName h '.' hdot (by decide)
  noSlash hslash := unmarked_of_isName h '/' hslash (by decide)
  inhabited := by
    rintro rfl
    cases h

/-- Names are told from each other if marks follow. -/
theorem told_of_isName {name' : String} {marks : List Char} (hmarks : marks ⊆ nameMarks)
    (h : isName name = true) (h' : isName name' = true) : Told String.toList marks name name' := by
  intro r s hr hs heq
  obtain ⟨hname, hrest⟩ := append_inj_of_unmarked (unmarked_of_isName h) (unmarked_of_isName h')
    (hr.mono hmarks) (hs.mono hmarks) heq
  exact ⟨String.toList_inj.mp hname, hrest⟩

/-- Words of letters, digits and underscores that do not start with a digit are names. -/
theorem isName_of_isAlphanum {c : Char} {rest : List Char} (heq : name.toList = c :: rest)
    (hc : c.isDigit = false) (h : ∀ d ∈ c :: rest, d.isAlphanum = true ∨ d = '_') :
    isName name = true := by
  refine isName_iff.mpr ⟨c, rest, heq, hc, fun d hd hmark ↦ ?_⟩
  have noLetter : ∀ m ∈ nameMarks, ¬ (m.isAlphanum = true ∨ m = '_') := by simp [nameMarks]
  exact noLetter d hmark (h d hd)

namespace ClassId

/-- Whether all segments of an id are names. -/
def isNamed (id : ClassId) : Bool := id.package.all isName && id.relative.all isName

/-- The same id, of a class that is not local. -/
def asNonLocal (id : ClassId) : ClassId := { id with isLocal := false }

variable {id other : ClassId}

theorem isNamed_iff : id.isNamed = true ↔
    (∀ name ∈ id.package, isName name = true) ∧ ∀ name ∈ id.relative, isName name = true := by
  simp [isNamed]

/-- The segments of a package, with a slash after each. -/
def packageChars (package : List String) : List Char := package.flatMap (·.toList ++ ['/'])

/-- The segments of a class path, with dots between. -/
def relativeChars (relative : List String) : List Char := writeList String.toList ['.'] relative

theorem toList_text (id : ClassId) :
    id.text.toList = packageChars id.package ++ relativeChars id.relative := by
  have package : ∀ segments : List String, segments ≠ [] →
      ['/'].intercalate (segments.map String.toList) ++ ['/'] = packageChars segments := by
    intro segments hne
    induction segments with
    | nil => exact absurd rfl hne
    | cons name rest ih =>
      cases rest with
      | nil => simp [packageChars]
      | cons next rest =>
        rw [List.map_cons, List.map_cons, List.intercalate_cons_cons, List.append_assoc,
          ← List.map_cons, ih (List.cons_ne_nil next rest)]
        simp [packageChars]
  rw [text, String.toList_append, String.toList_intercalate]
  congr 1
  split
  next empty => rw [List.isEmpty_iff.mp empty]; rfl
  next nonempty =>
    rw [String.toList_append, String.toList_intercalate]
    exact package id.package (mt List.isEmpty_iff.mpr nonempty)

theorem mem_relativeChars {names : List String} (h : ∀ name ∈ names, isName name = true) {c : Char}
    (hc : c ∈ relativeChars names) : c = '.' ∨ c ∉ nameMarks := by
  rcases Text.mem_intercalate hc with hdot | ⟨chars, hchars, hc⟩
  · exact .inl (List.mem_singleton.mp hdot)
  · obtain ⟨name, hname, rfl⟩ := List.mem_map.mp hchars
    exact .inr (unmarked_of_isName (h name hname) c hc)

/-- The text of an id tells the id, but for the mark of local classes. -/
theorem text_inj (h : id.isNamed = true) (h' : other.isNamed = true) (heq : id.text = other.text) :
    id.asNonLocal = other.asNonLocal := by
  obtain ⟨hp, hr⟩ := isNamed_iff.mp h
  obtain ⟨hp', hr'⟩ := isNamed_iff.mp h'
  have segments {names : List String} (h : ∀ name ∈ names, isName name = true) :
      ∀ name ∈ names, IsSegment name :=
    fun name hname ↦ isSegment_of_isName (h name hname)
  obtain ⟨hpackage, hrelative⟩ :=
    segments_of_text (segments hp) (segments hp') (segments hr) (segments hr') heq
  rw [asNonLocal, asNonLocal, hpackage, hrelative]

/-- Besides what joins them there are only characters of names in the text of an id. -/
theorem mem_text (h : id.isNamed = true) {c : Char} (hc : c ∈ id.text.toList) :
    c = '/' ∨ c = '.' ∨ c ∉ nameMarks := by
  obtain ⟨hp, hr⟩ := isNamed_iff.mp h
  rw [toList_text] at hc
  rcases List.mem_append.mp hc with hc | hc
  · obtain ⟨name, hname, hc⟩ := List.mem_flatMap.mp hc
    rcases List.mem_append.mp hc with hc | hc
    · exact .inr (.inr (unmarked_of_isName (hp name hname) c hc))
    · exact .inl (List.mem_singleton.mp hc)
  · exact .inr (mem_relativeChars hr hc)

/-- The text of an id does not start with a digit. -/
theorem head_text (h : id.isNamed = true) : ∀ c ∈ id.text.toList.head?, c.isDigit = false := by
  obtain ⟨hp, hr⟩ := isNamed_iff.mp h
  rw [toList_text]
  have first {name : String} (hname : isName name = true) (line : List Char) :
      ∀ c ∈ (name.toList ++ line).head?, c.isDigit = false := by
    obtain ⟨c, rest, heq, hc, -⟩ := isName_iff.mp hname
    rw [heq]
    rintro _ ⟨⟩
    exact hc
  obtain ⟨package, relative, isLocal⟩ := id
  cases package with
  | cons name rest =>
    simp only [packageChars, List.flatMap_cons, List.append_assoc]
    exact first (hp name (.head _)) _
  | nil =>
    cases relative with
    | nil => nofun
    | cons name rest =>
      show ∀ c ∈ (relativeChars (name :: rest)).head?, _
      cases rest with
      | nil =>
        rw [relativeChars, writeList_singleton, ← List.append_nil name.toList]
        exact first (hr name (.head _)) _
      | cons next rest =>
        rw [relativeChars, writeList_cons_cons]
        exact first (hr name (.head _)) _

end ClassId

namespace CallableId

/-- Whether a callable is one of a class, and its name and the segments of the class are names. -/
def isNamed (id : CallableId) : Bool :=
  match id.owner with
  | some owner => id == member owner id.name && owner.isNamed && isName id.name
  | none => false

/-- The same id, of a class that is not local. -/
def asNonLocal (id : CallableId) : CallableId :=
  { id with owner := id.owner.map ClassId.asNonLocal }

variable {id other : CallableId}

theorem isNamed_iff : id.isNamed = true ↔
    ∃ owner, id = member owner id.name ∧ owner.isNamed = true ∧ isName id.name = true := by
  obtain ⟨package, owner, name⟩ := id
  cases owner <;> simp [isNamed, member, and_assoc]

theorem asNonLocal_member (owner : ClassId) (name : String) :
    (member owner name).asNonLocal = member owner.asNonLocal name := rfl

theorem toList_text_member (owner : ClassId) (name : String) :
    (member owner name).text.toList = owner.text.toList ++ '.' :: name.toList := by
  simp [text, member]

/-- The text of a callable of a class tells the class and the callable, but for the mark of local
classes. -/
theorem text_inj (h : id.isNamed = true) (h' : other.isNamed = true) (heq : id.text = other.text) :
    id.asNonLocal = other.asNonLocal := by
  obtain ⟨owner, hid, howner, hname⟩ := isNamed_iff.mp h
  obtain ⟨owner', hid', howner', hname'⟩ := isNamed_iff.mp h'
  have hchars := congrArg String.toList heq
  rw [hid, hid', toList_text_member, toList_text_member] at hchars
  -- read from the end, the name stops at the first dot
  have hreverse := congrArg List.reverse hchars
  simp only [List.reverse_append, List.reverse_cons, List.append_assoc, List.singleton_append]
    at hreverse
  have noDot {name : String} (h : isName name = true) : ∀ c ∈ name.toList.reverse, c ∉ ['.'] := by
    intro c hc hdot
    exact unmarked_of_isName h c (List.mem_reverse.mp hc) (by
      rw [List.mem_singleton.mp hdot]
      decide)
  obtain ⟨hnames, howners⟩ := append_inj_of_unmarked (noDot hname) (noDot hname')
    (follows_cons (.head _) _) (follows_cons (.head _) _) hreverse
  have hnames : id.name = other.name :=
    String.toList_inj.mp (List.reverse_inj.mp hnames)
  have howners : owner.asNonLocal = owner'.asNonLocal :=
    ClassId.text_inj howner howner'
      (String.toList_inj.mp (List.reverse_inj.mp (List.cons.inj howners).2))
  rw [hid, hid', hnames, asNonLocal_member, asNonLocal_member, howners]

end CallableId

end SymbolView
