import SymbolView.QualifiedName

/-!
# The text of an id tells its segments

Ids are written with two separators: slashes after the segments of the package, and dots between the
classes and before a callable.  So every text is that of a path of segments with dots between, in a
package of segments with slashes between (`pathText`), and the path says what kind of id it is: a
callable outside all classes has a path of one segment, a callable of a class has a longer one.

What is joined with a separator can be taken apart again, if the separator is in none of the parts
(`pieces_intercalate`).  Only no part at all and a single empty part are joined to the same text, so
a part may be empty only where there has to be one.  Main statement: `text_tells_id`.
-/

set_option autoImplicit false

namespace SymbolView

/-! ## Joining and taking apart -/

namespace Text

theorem consHead_eq_modifyHead {α : Type} (a : α) {ps : List (List α)} (h : ps ≠ []) :
    consHead a ps = ps.modifyHead (List.cons a) := by
  cases ps with
  | nil => exact absurd rfl h
  | cons p ps => rfl

theorem pieces_eq_splitOn (sep : Char) (cs : List Char) : pieces sep cs = cs.splitOn sep := by
  induction cs with
  | nil => rfl
  | cons c cs ih =>
    rw [pieces, consHead_eq_modifyHead c (pieces_ne_nil sep cs), ih, List.splitOn_eq_splitOnP,
      List.splitOn_eq_splitOnP, List.splitOnP_cons_eq_if_modifyHead]
    simp only [beq_iff_eq]

variable {sep : Char} {separator : String} {parts parts' : List String}

/-- What is joined with a separator falls into the same parts. -/
theorem pieces_intercalate (hsep : separator.toList = [sep])
    (h : ∀ part ∈ parts, sep ∉ part.toList) (nonempty : parts ≠ []) :
    pieces sep (separator.intercalate parts).toList = parts.map String.toList := by
  rw [pieces_eq_splitOn, String.toList_intercalate, hsep]
  refine List.splitOn_intercalate sep ?_ (mt List.map_eq_nil_iff.mp nonempty)
  exact List.forall_mem_map.mpr h

theorem intercalate_inj (hsep : separator.toList = [sep])
    (h : ∀ part ∈ parts, sep ∉ part.toList) (h' : ∀ part ∈ parts', sep ∉ part.toList)
    (nonempty : parts ≠ []) (nonempty' : parts' ≠ [])
    (heq : separator.intercalate parts = separator.intercalate parts') : parts = parts' := by
  have hmap : parts.map String.toList = parts'.map String.toList := by
    rw [← pieces_intercalate hsep h nonempty, heq, pieces_intercalate hsep h' nonempty']
  exact (List.map_inj_right fun _ _ ↦ String.toList_inj.mp).mp hmap

/-- If no part is empty, leaving out what is empty loses nothing. -/
theorem segments_intercalate (hsep : separator.toList = [sep])
    (h : ∀ part ∈ parts, sep ∉ part.toList) (inhabited : ∀ part ∈ parts, part ≠ "") :
    segments sep (separator.intercalate parts) = parts := by
  cases hparts : parts with
  | nil => rfl
  | cons part rest =>
    have kept : ∀ piece ∈ parts.map String.toList, (!piece.isEmpty) = true := by
      simpa using inhabited
    rw [← hparts, segments, pieces_intercalate hsep h (hparts ▸ List.cons_ne_nil part rest),
      List.filter_eq_self.mpr kept, List.map_map]
    exact (List.map_congr_left fun part _ ↦ String.ofList_toList).trans (List.map_id parts)

/-- There is nothing in a join but the separator and the parts. -/
theorem mem_intercalate {α : Type} {a : α} {separator : List α} {parts : List (List α)}
    (h : a ∈ separator.intercalate parts) : a ∈ separator ∨ ∃ part ∈ parts, a ∈ part := by
  induction parts with
  | nil => cases h
  | cons part rest ih =>
    cases rest with
    | nil =>
      rw [List.intercalate_singleton] at h
      exact .inr ⟨part, .head _, h⟩
    | cons next rest =>
      rw [List.intercalate_cons_cons, List.append_assoc] at h
      rcases List.mem_append.mp h with h | h
      · exact .inr ⟨part, .head _, h⟩
      · rcases List.mem_append.mp h with h | h
        · exact .inl h
        · exact (ih h).imp_right fun ⟨other, hother, h⟩ ↦ ⟨other, .tail _ hother, h⟩

end Text

/-- Whether no separator of ids is in a text. -/
structure Unseparated (text : String) : Prop where
  noDot : '.' ∉ text.toList
  noSlash : '/' ∉ text.toList

/-- Whether a text can be a segment of an id: no separator is in it, and it is not left out. -/
structure IsSegment (text : String) : Prop extends Unseparated text where
  inhabited : text ≠ ""

instance (text : String) : Decidable (Unseparated text) :=
  decidable_of_iff ('.' ∉ text.toList ∧ '/' ∉ text.toList)
    ⟨fun h ↦ ⟨h.1, h.2⟩, fun h ↦ ⟨h.noDot, h.noSlash⟩⟩

instance (text : String) : Decidable (IsSegment text) :=
  decidable_of_iff (Unseparated text ∧ text ≠ "")
    ⟨fun h ↦ ⟨h.1, h.2⟩, fun h ↦ ⟨h.toUnseparated, h.inhabited⟩⟩

/-- The text of a path in a package. -/
def pathText (package path : List String) : String :=
  "/".intercalate (package ++ [".".intercalate path])

variable {package package' path path' : List String}

theorem unseparated_of_isSegment (h : ∀ segment ∈ path, IsSegment segment) :
    ∀ segment ∈ path, Unseparated segment :=
  fun segment hsegment ↦ (h segment hsegment).toUnseparated

/-- Segments joined with dots are the segments of the join. -/
theorem segments_dots (h : ∀ segment ∈ path, IsSegment segment) :
    Text.segments '.' (".".intercalate path) = path :=
  Text.segments_intercalate rfl (fun s hs ↦ (h s hs).noDot) (fun s hs ↦ (h s hs).inhabited)

theorem pathText_eq_append (package path : List String) : pathText package path =
    (if package.isEmpty then "" else "/".intercalate package ++ "/") ++ ".".intercalate path := by
  cases package with
  | nil => rw [pathText, List.nil_append, String.intercalate_singleton]; rfl
  | cons segment rest =>
    rw [pathText, String.intercalate_append_of_ne_nil (List.cons_ne_nil _ _) (List.cons_ne_nil _ _),
      String.intercalate_singleton]
    rfl

/-- There is no slash in the text of a path, so it cannot be taken for segments of the package. -/
theorem pathText_inj (hpackage : ∀ segment ∈ package, Unseparated segment)
    (hpackage' : ∀ segment ∈ package', Unseparated segment)
    (hpath : ∀ segment ∈ path, Unseparated segment)
    (hpath' : ∀ segment ∈ path', Unseparated segment)
    (heq : pathText package path = pathText package' path') :
    package = package' ∧ ".".intercalate path = ".".intercalate path' := by
  have noSlash {package path : List String} (hpackage : ∀ segment ∈ package, Unseparated segment)
      (hpath : ∀ segment ∈ path, Unseparated segment) :
      ∀ part ∈ package ++ [".".intercalate path], '/' ∉ part.toList := by
    intro part hpart hslash
    rcases List.mem_append.mp hpart with hpart | hpart
    · exact (hpackage part hpart).noSlash hslash
    · rw [List.mem_singleton.mp hpart, String.toList_intercalate] at hslash
      rcases Text.mem_intercalate hslash with hdot | ⟨_, hmem, hslash⟩
      · cases List.mem_singleton.mp hdot
      · obtain ⟨segment, hsegment, rfl⟩ := List.mem_map.mp hmem
        exact (hpath segment hsegment).noSlash hslash
  have parts := Text.intercalate_inj rfl (noSlash hpackage hpath) (noSlash hpackage' hpath')
    (List.concat_ne_nil _ _) (List.concat_ne_nil _ _) heq
  obtain ⟨hpackage, hpath⟩ := List.append_inj' parts rfl
  exact ⟨hpackage, List.singleton_inj.mp hpath⟩

/-! ## Classes -/

namespace ClassId

theorem text_eq_pathText (id : ClassId) : id.text = pathText id.package id.relative :=
  (pathText_eq_append id.package id.relative).symm

/-- An id is given back from its dotted package and its dotted class path. -/
theorem ofDotted_intercalate (hpackage : ∀ segment ∈ package, IsSegment segment)
    (hpath : ∀ segment ∈ path, IsSegment segment) :
    ofDotted (".".intercalate package) (".".intercalate path) = ⟨package, path, false⟩ := by
  rw [ofDotted, segments_dots hpackage, segments_dots hpath]

variable {id other : ClassId}

theorem asLocal_eq_iff :
    id.asLocal = other.asLocal ↔ id.package = other.package ∧ id.relative = other.relative := by
  rw [asLocal, asLocal, ClassId.mk.injEq]
  exact and_congr_right fun _ ↦ and_iff_left rfl

/-- The text of an id tells its segments. -/
theorem segments_of_text (hpackage : ∀ segment ∈ id.package, IsSegment segment)
    (hpackage' : ∀ segment ∈ other.package, IsSegment segment)
    (hrelative : ∀ segment ∈ id.relative, IsSegment segment)
    (hrelative' : ∀ segment ∈ other.relative, IsSegment segment) (heq : id.text = other.text) :
    id.package = other.package ∧ id.relative = other.relative := by
  rw [text_eq_pathText, text_eq_pathText] at heq
  obtain ⟨hp, hr⟩ := pathText_inj (unseparated_of_isSegment hpackage)
    (unseparated_of_isSegment hpackage') (unseparated_of_isSegment hrelative)
    (unseparated_of_isSegment hrelative') heq
  refine ⟨hp, ?_⟩
  rw [← segments_dots hrelative, hr, segments_dots hrelative']

/-- Whether an id names a class, and does so by segments. -/
structure IsSegmented (id : ClassId) : Prop where
  package : ∀ segment ∈ id.package, IsSegment segment
  relative : ∀ segment ∈ id.relative, IsSegment segment
  nonempty : id.relative ≠ []

end ClassId

/-! ## Callables -/

namespace CallableId

/-- Whether an id names a callable of a class or one outside all classes, and does so by segments.
The callable's own name may be empty. -/
inductive IsSegmented : CallableId → Prop where
  | member {owner : ClassId} {name : String} (howner : owner.IsSegmented)
      (hname : Unseparated name) : IsSegmented (member owner name)
  | topLevel {package : List String} {name : String}
      (hpackage : ∀ segment ∈ package, IsSegment segment) (hname : Unseparated name) :
      IsSegmented ⟨package, none, name⟩

/-- The classes around a callable, outermost first, and the callable. -/
def segments (id : CallableId) : List String := id.owner.elim [] (·.relative) ++ [id.name]

theorem text_member {owner : ClassId} (nonempty : owner.relative ≠ []) (name : String) :
    (member owner name).text = pathText owner.package (owner.relative ++ [name]) := by
  show owner.text ++ "." ++ name = _
  rw [ClassId.text_eq_pathText, pathText_eq_append, pathText_eq_append,
    String.intercalate_append_of_ne_nil nonempty (List.cons_ne_nil _ _),
    String.intercalate_singleton]
  simp only [String.append_assoc]

theorem text_topLevel (hpackage : ∀ segment ∈ package, segment ≠ "") (name : String) :
    (CallableId.mk package none name).text = pathText package [name] := by
  rw [pathText_eq_append, String.intercalate_singleton]
  -- what is tested is whether the text of the package is empty: one empty segment would do
  cases package with
  | nil => simp [text]
  | cons segment rest =>
    have : ("/".intercalate (segment :: rest)).isEmpty = false := by
      have := hpackage segment (.head _)
      cases rest <;> simp [this]
    simp [text, this]

variable {id other : CallableId}

namespace IsSegmented

variable (h : id.IsSegmented)
include h

theorem text_eq_pathText : id.text = pathText id.package id.segments := by
  cases h with
  | member howner hname => exact text_member howner.nonempty _
  | topLevel hpackage hname => exact text_topLevel (fun s hs ↦ (hpackage s hs).inhabited) _

theorem unseparated_package : ∀ segment ∈ id.package, Unseparated segment := by
  cases h with
  | member howner hname => exact unseparated_of_isSegment howner.package
  | topLevel hpackage hname => exact unseparated_of_isSegment hpackage

theorem unseparated_segments : ∀ segment ∈ id.segments, Unseparated segment := by
  cases h with
  | member howner hname =>
    refine List.forall_mem_append.mpr ⟨unseparated_of_isSegment howner.relative, ?_⟩
    exact List.forall_mem_singleton.mpr hname
  | topLevel hpackage hname => exact List.forall_mem_singleton.mpr hname

end IsSegmented

/-- The text of an id tells its segments. -/
theorem text_eq_iff_segments (h : id.IsSegmented) (h' : other.IsSegmented) :
    id.text = other.text ↔ id.package = other.package ∧ id.segments = other.segments := by
  rw [h.text_eq_pathText, h'.text_eq_pathText]
  constructor
  · intro heq
    obtain ⟨hpackage, hjoin⟩ := pathText_inj h.unseparated_package h'.unseparated_package
      h.unseparated_segments h'.unseparated_segments heq
    refine ⟨hpackage, Text.intercalate_inj rfl ?_ ?_ (List.concat_ne_nil _ _)
      (List.concat_ne_nil _ _) hjoin⟩
    · exact fun s hs ↦ (h.unseparated_segments s hs).noDot
    · exact fun s hs ↦ (h'.unseparated_segments s hs).noDot
  · rintro ⟨hpackage, hsegments⟩
    rw [hpackage, hsegments]

/-- The segments tell the class and the name: there are at least two for a callable of a class, and
one for a callable outside all classes. -/
theorem segments_eq_iff (h : id.IsSegmented) (h' : other.IsSegmented)
    (hpackage : id.package = other.package) :
    id.segments = other.segments ↔
      id.owner.map ClassId.asLocal = other.owner.map ClassId.asLocal ∧ id.name = other.name := by
  constructor
  · intro hsegments
    -- the last segment is the name, and what is before it is empty only outside all classes
    obtain ⟨hclasses, hname⟩ := List.append_inj' hsegments rfl
    refine ⟨?_, List.singleton_inj.mp hname⟩
    cases h with
    | member howner _ =>
      cases h' with
      | member howner' _ => exact congrArg some (ClassId.asLocal_eq_iff.mpr ⟨hpackage, hclasses⟩)
      | topLevel _ _ => exact absurd hclasses howner.nonempty
    | topLevel _ _ =>
      cases h' with
      | member howner' _ => exact absurd hclasses.symm howner'.nonempty
      | topLevel _ _ => rfl
  · rintro ⟨howner, hname⟩
    have classes (id : CallableId) : id.owner.elim [] (·.relative) =
        (id.owner.map ClassId.asLocal).elim [] (·.relative) := by
      cases id.owner <;> rfl
    rw [segments, segments, classes, classes, howner, hname]

end CallableId

/-- **The text of an id tells the id.**  Take segments that are not empty and have no separator in
them.  An id is given back from its dotted package and its dotted class path.  Two ids of classes
have the same text if and only if they have the same segments.  Two ids of callables, each of a
class or outside all classes, have the same text if and only if they have the same package, the same
class or none, and the same name.  Whether a class is local is not in the text. -/
theorem text_tells_id :
    (∀ package relative : List String, (∀ segment ∈ package, IsSegment segment) →
      (∀ segment ∈ relative, IsSegment segment) →
      ClassId.ofDotted (".".intercalate package) (".".intercalate relative) =
        ⟨package, relative, false⟩) ∧
    (∀ id other : ClassId, id.IsSegmented → other.IsSegmented →
      (id.text = other.text ↔ id.package = other.package ∧ id.relative = other.relative)) ∧
    ∀ id other : CallableId, id.IsSegmented → other.IsSegmented →
      (id.text = other.text ↔ id.package = other.package ∧
        id.owner.map ClassId.asLocal = other.owner.map ClassId.asLocal ∧ id.name = other.name) := by
  refine ⟨fun package relative hpackage hrelative ↦ ?_, fun id other h h' ↦ ?_,
    fun id other h h' ↦ ?_⟩
  · exact ClassId.ofDotted_intercalate hpackage hrelative
  · refine ⟨ClassId.segments_of_text h.package h'.package h.relative h'.relative, ?_⟩
    rintro ⟨hpackage, hrelative⟩
    rw [id.text_eq_pathText, other.text_eq_pathText, hpackage, hrelative]
  · rw [CallableId.text_eq_iff_segments h h']
    exact and_congr_right (CallableId.segments_eq_iff h h')

/-- A class in a class, local or not. -/
def sampleNestedId (isLocal : Bool) : ClassId := ⟨["a", "b"], ["C", "D"], isLocal⟩

theorem text_tells_id_sample :
    (∀ segment ∈ ["a", "b"], IsSegment segment) ∧ (∀ segment ∈ ["C", "D"], IsSegment segment) ∧
      ClassId.ofDotted "a.b" "C.D" = sampleNestedId false ∧
      (∀ isLocal, (sampleNestedId isLocal).IsSegmented) ∧
      (sampleNestedId true).text = (sampleNestedId false).text ∧
      (CallableId.member (sampleNestedId true) "e").IsSegmented ∧
      (CallableId.mk ["a", "b", "C", "D"] none "e").IsSegmented ∧
      (CallableId.member (sampleNestedId true) "e").text ≠
        (CallableId.mk ["a", "b", "C", "D"] none "e").text := by
  have package : ∀ segment ∈ ["a", "b"], IsSegment segment := by decide
  have relative : ∀ segment ∈ ["C", "D"], IsSegment segment := by decide
  have nested (isLocal : Bool) : (sampleNestedId isLocal).IsSegmented :=
    ⟨package, relative, List.cons_ne_nil _ _⟩
  have member : (CallableId.member (sampleNestedId true) "e").IsSegmented :=
    .member (nested true) (by decide)
  have topLevel : (CallableId.mk ["a", "b", "C", "D"] none "e").IsSegmented :=
    .topLevel (by decide) (by decide)
  refine ⟨package, relative, text_tells_id.1 _ _ package relative, nested,
    (text_tells_id.2.1 _ _ (nested true) (nested false)).mpr ⟨rfl, rfl⟩, member, topLevel, ?_⟩
  intro same
  exact absurd ((text_tells_id.2.2 _ _ member topLevel).mp same).1 (by decide)

end SymbolView
