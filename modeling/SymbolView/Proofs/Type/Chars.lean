import Mathlib.Data.List.Basic
import SymbolView.Proofs.Type.Key
import SymbolView.Proofs.Type.Told

/-!
# How the text of a type is put together

The text of a type is looked at in two ways.  From the outside it is a list of pieces with
ampersands between: the type itself or, for `A & Any`, the pieces of `A` and one more
(`TypeKey.pieces`).  From the inside a piece is a shape and its question mark, and the first
characters tell which kind of shape it is (`lineLead_chars`), except that two kinds open with a
round bracket.

Two things are asked for (`TypeKey.isReadable`).  Names are not empty and have none of `typeMarks`
in them; letters, digits and underscores are no such marks.  And no conjunct of an intersection ends
in `& Any` itself, since it would be written without brackets of its own.
-/

set_option autoImplicit false

namespace SymbolView

/-- The characters that no name has in it. -/
def typeMarks : List Char := [' ', '?', '<', '>', ',', '.', '(', ')', '[', ']', ':', '*', '&']

/-- Whether a name can be told from what is written around it. -/
def isTypeName (name : String) : Bool :=
  !name.toList.isEmpty && name.toList.all (· ∉ typeMarks)

theorem isTypeName_iff {name : String} :
    isTypeName name = true ↔ name.toList ≠ [] ∧ ∀ c ∈ name.toList, c ∉ typeMarks := by
  simp [isTypeName]

/-- Words of letters, digits and underscores are names. -/
theorem isTypeName_of_isAlphanum {name : String} (hne : name.toList ≠ [])
    (h : ∀ c ∈ name.toList, c.isAlphanum = true ∨ c = '_') : isTypeName name = true := by
  refine isTypeName_iff.mpr ⟨hne, fun c hc hmark ↦ ?_⟩
  have noLetter : ∀ d ∈ typeMarks, ¬ (d.isAlphanum = true ∨ d = '_') := by simp [typeMarks]
  exact noLetter c hmark (h c hc)

theorem unmarked_repr (value : Int64) : ∀ c ∈ value.toInt.repr.toList, c ∉ typeMarks :=
  unmarked_repr_of_noDigit (by simp [typeMarks]) value.toInt

/-! ## Keys that can be read back -/

/-- Whether a shape is written without `& Any` at its end. -/
def ShapeKey.isPiece : ShapeKey → Bool
  | .notNull _ => false
  | _ => true

mutual

/-- Whether the names in a key are told from what is around them, and no conjunct of an intersection
ends in `& Any`. -/
def TypeKey.isReadable : TypeKey → Bool
  | ⟨shape, _⟩ => shape.isReadable

/-- Whether the parts of a shape can be read back. -/
def ShapeKey.isReadable : ShapeKey → Bool
  | .named name arguments => isTypeName name && areArgumentsReadable arguments
  | .typeAlias name => isTypeName name
  | .unresolved => true
  | .captured argument => argument.isReadable
  | .notNull base => base.isReadable
  | .dynamic => true
  | .flexible lower upper => lower.isReadable && upper.isReadable
  | .integerLiteral _ => true
  | .intersection conjuncts => areConjunctsReadable conjuncts

/-- Whether conjuncts can be read back. -/
def areConjunctsReadable : List TypeKey → Bool
  | [] => true
  | t :: rest => t.shape.isPiece && t.isReadable && areConjunctsReadable rest

/-- Whether type arguments can be read back. -/
def areArgumentsReadable : List ArgumentKey → Bool
  | [] => true
  | a :: rest => a.isReadable && areArgumentsReadable rest

/-- Whether a type argument can be read back. -/
def ArgumentKey.isReadable : ArgumentKey → Bool
  | .star => true
  | .typed _ type => type.isReadable

end

theorem areConjunctsReadable_iff {ts : List TypeKey} : areConjunctsReadable ts = true ↔
    ∀ t ∈ ts, t.shape.isPiece = true ∧ t.isReadable = true := by
  induction ts with
  | nil => simp [areConjunctsReadable]
  | cons t rest ih => simp [areConjunctsReadable, ih]

theorem areArgumentsReadable_iff {as : List ArgumentKey} : areArgumentsReadable as = true ↔
    ∀ a ∈ as, a.isReadable = true := by
  induction as with
  | nil => simp [areArgumentsReadable]
  | cons a rest ih => simp [areArgumentsReadable, ih]

/-! ## The characters of a text -/

/-- The characters of the text of a type. -/
def TypeKey.chars (t : TypeKey) : List Char := t.text.toList

/-- The characters of the text of a shape. -/
def ShapeKey.chars (s : ShapeKey) : List Char := s.text.toList

/-- The characters of the text of a type argument. -/
def ArgumentKey.chars (a : ArgumentKey) : List Char := a.text.toList

/-- The characters of the texts of conjuncts. -/
def conjunctChars (ts : List TypeKey) : List Char := writeList TypeKey.chars [' ', '&', ' '] ts

/-- The characters of type arguments in brackets. -/
def argumentChars : List ArgumentKey → List Char
  | [] => []
  | as => '<' :: (writeList ArgumentKey.chars [',', ' '] as ++ ['>'])

theorem length_le_conjunctChars {t : TypeKey} {ts : List TypeKey} (h : t ∈ ts) :
    t.chars.length ≤ (conjunctChars ts).length :=
  length_le_writeList h

theorem length_lt_argumentChars {a : ArgumentKey} {as : List ArgumentKey} (h : a ∈ as) :
    a.chars.length < (argumentChars as).length := by
  obtain ⟨b, rest, rfl⟩ := List.exists_cons_of_ne_nil (List.ne_nil_of_mem h)
  rw [argumentChars, List.length_cons, List.length_append]
  · exact Nat.lt_succ_of_le (Nat.le_add_right_of_le (length_le_writeList h))
  · nofun

theorem TypeKey.chars_mk (shape : ShapeKey) (nullable : Bool) :
    TypeKey.chars ⟨shape, nullable⟩ = shape.chars ++ if nullable then ['?'] else [] := by
  rw [TypeKey.chars, TypeKey.text, String.toList_append]
  cases nullable <;> rfl

namespace ShapeKey

theorem chars_named (name : String) (arguments : List ArgumentKey) :
    (named name arguments).chars = name.toList ++ argumentChars arguments := by
  rw [chars, text, argumentKeyTexts_eq_map]
  cases arguments with
  | nil => exact (congrArg String.toList String.append_empty).trans (List.append_nil _).symm
  | cons a rest =>
    show (name ++ ("<" ++ ", ".intercalate ((a :: rest).map (·.text)) ++ ">")).toList = _
    simp only [String.toList_append, String.toList_intercalate, List.map_map, List.append_assoc]
    rfl

theorem chars_typeAlias (name : String) :
    (typeAlias name).chars = "[typealias ".toList ++ (name.toList ++ [']']) := by
  simp [chars, text]

theorem chars_captured (a : ArgumentKey) :
    (captured a).chars = "CapturedType(".toList ++ (a.chars ++ [')']) := by
  simp [chars, text, ArgumentKey.chars]

theorem chars_notNull (base : TypeKey) :
    (notNull base).chars = base.chars ++ [' ', '&', ' ', 'A', 'n', 'y'] := by
  simp [chars, text, TypeKey.chars]

theorem chars_flexible (lower upper : TypeKey) : (flexible lower upper).chars =
    '(' :: (lower.chars ++ ('.' :: '.' :: (upper.chars ++ [')']))) := by
  simp [chars, text, TypeKey.chars]

theorem chars_integerLiteral (value : Int64) :
    (integerLiteral value).chars = "ILT: ".toList ++ value.toInt.repr.toList := by
  simp [chars, text]

theorem chars_intersection (ts : List TypeKey) :
    (intersection ts).chars = '(' :: (conjunctChars ts ++ [')']) := by
  rw [chars, text, typeKeyTexts_eq_map, String.toList_append, String.toList_append,
    String.toList_intercalate, List.map_map]
  rfl

end ShapeKey

/-! ## Pieces -/

/-- What a type is written as: itself or, if it ends in `& Any`, the pieces before that and a last
one. -/
def TypeKey.pieces : TypeKey → List TypeKey
  | ⟨.notNull base, nullable⟩ => pieces base ++ [⟨.named "Any" [], nullable⟩]
  | t => [t]

namespace TypeKey

/-- A type is a piece, or one piece more than another type. -/
@[elab_as_elim]
theorem piecesRec {motive : TypeKey → Prop}
    (piece : ∀ t : TypeKey, t.shape.isPiece = true → motive t)
    (notNull : ∀ base nullable, motive base → motive ⟨.notNull base, nullable⟩) :
    ∀ t, motive t
  | ⟨.notNull base, nullable⟩ => notNull base nullable (piecesRec piece notNull base)
  | ⟨.named _ _, _⟩ | ⟨.typeAlias _, _⟩ | ⟨.unresolved, _⟩ | ⟨.captured _, _⟩ | ⟨.dynamic, _⟩
  | ⟨.flexible _ _, _⟩ | ⟨.integerLiteral _, _⟩ | ⟨.intersection _, _⟩ => piece _ rfl

theorem pieces_of_isPiece {t : TypeKey} (h : t.shape.isPiece = true) : t.pieces = [t] := by
  obtain ⟨shape, nullable⟩ := t
  cases shape <;> first | rfl | cases h

theorem pieces_ne_nil (t : TypeKey) : t.pieces ≠ [] := by
  cases t using piecesRec with
  | piece t h => exact pieces_of_isPiece h ▸ List.cons_ne_nil _ _
  | notNull base nullable => exact List.append_ne_nil_of_right_ne_nil _ (List.cons_ne_nil _ _)

theorem pieces_notNull_ne_singleton (base : TypeKey) (nullable : Bool) (t : TypeKey) :
    pieces ⟨.notNull base, nullable⟩ ≠ [t] := by
  intro h
  have happend : base.pieces ++ [⟨.named "Any" [], nullable⟩] = [] ++ [t] := h
  exact base.pieces_ne_nil (List.append_inj' happend rfl).1

/-- The text of a type is that of its pieces. -/
theorem chars_eq_conjunctChars (t : TypeKey) : t.chars = conjunctChars t.pieces := by
  induction t using piecesRec with
  | piece t h => rw [pieces_of_isPiece h, conjunctChars, writeList_singleton]
  | notNull base nullable ih =>
    rw [pieces, conjunctChars, writeList_append_singleton _ base.pieces_ne_nil, ← conjunctChars,
      ← ih, chars_mk, ShapeKey.chars_notNull, chars_mk, ShapeKey.chars_named, List.append_assoc]
    rfl

/-- A type can be put together from its pieces. -/
theorem pieces_inj {t u : TypeKey} (h : t.pieces = u.pieces) : t = u := by
  induction t using piecesRec generalizing u with
  | piece t ht =>
    rw [pieces_of_isPiece ht] at h
    cases u using piecesRec with
    | piece u hu => exact List.singleton_inj.mp (h.trans (pieces_of_isPiece hu))
    | notNull base nullable => exact absurd h.symm (pieces_notNull_ne_singleton _ _ _)
  | notNull base nullable ih =>
    cases u using piecesRec with
    | piece u hu =>
      rw [pieces_of_isPiece hu] at h
      exact absurd h (pieces_notNull_ne_singleton _ _ _)
    | notNull base' nullable' =>
      obtain ⟨hbase, hlast⟩ := List.append_inj' h rfl
      rw [ih hbase, (TypeKey.mk.inj (List.singleton_inj.mp hlast)).2]

theorem of_mem_pieces {t p : TypeKey} (h : t.isReadable = true) (hp : p ∈ t.pieces) :
    p.shape.isPiece = true ∧ p.isReadable = true := by
  induction t using piecesRec with
  | piece t ht =>
    rw [pieces_of_isPiece ht] at hp
    obtain rfl := List.mem_singleton.mp hp
    exact ⟨ht, h⟩
  | notNull base nullable ih =>
    obtain hp | hp := List.mem_append.mp hp
    · exact ih h hp
    · obtain rfl := List.mem_singleton.mp hp
      have hany : (ShapeKey.named "Any" []).isReadable = true := by decide
      exact ⟨rfl, hany⟩

theorem length_le_of_mem_pieces {t p : TypeKey} (h : p ∈ t.pieces) :
    p.chars.length ≤ t.chars.length := by
  rw [t.chars_eq_conjunctChars]
  exact length_le_conjunctChars h

end TypeKey

/-! ## How a text opens -/

/-- How a piece opens. -/
inductive Lead where
  /-- With a name. -/
  | name
  /-- With the announcement of a literal. -/
  | literal
  /-- With the announcement of a captured type. -/
  | captured
  /-- With a square bracket. -/
  | typeAlias
  /-- With a round bracket. -/
  | group
  /-- With the marker of an unresolved type. -/
  | unresolved
  /-- With the marker of the dynamic type. -/
  | dynamic
  /-- Not at all: this is no piece. -/
  | notPiece

/-- How a piece of a shape opens. -/
def ShapeKey.lead : ShapeKey → Lead
  | .named _ _ => .name
  | .typeAlias _ => .typeAlias
  | .unresolved => .unresolved
  | .captured _ => .captured
  | .notNull _ => .notPiece
  | .dynamic => .dynamic
  | .flexible _ _ => .group
  | .integerLiteral _ => .literal
  | .intersection _ => .group

/-- How a line opens that starts with a word and goes on with a mark. -/
def leadOf : List Char → List Char → Lead
  | [], '[' :: _ => .typeAlias
  | [], '(' :: _ => .group
  | [], '<' :: 'E' :: _ => .unresolved
  | [], _ => .dynamic
  | _ :: _, ':' :: _ => .literal
  | _ :: _, '(' :: _ => .captured
  | _ :: _, _ => .name

/-- How a line opens. -/
def lineLead (line : List Char) : Lead :=
  leadOf (line.takeWhile (· ∉ typeMarks)) (line.dropWhile (· ∉ typeMarks))

/-- What may follow a type or a type argument inside a text. -/
def afterType : List Char := ['>', ',', ')', '.']

/-- What may follow a piece of a type. -/
def afterPiece : List Char := ' ' :: afterType

/-- What may follow the shape of a piece. -/
def afterShape : List Char := '?' :: afterPiece

theorem lineLead_append {word line : List Char} (hword : ∀ c ∈ word, c ∉ typeMarks)
    (hline : Follows typeMarks line) : lineLead (word ++ line) = leadOf word line := by
  have hall : ∀ c ∈ word, decide (c ∉ typeMarks) = true := fun c hc ↦ decide_eq_true (hword c hc)
  have stops : line.takeWhile (· ∉ typeMarks) = [] ∧ line.dropWhile (· ∉ typeMarks) = line := by
    cases line with
    | nil => exact ⟨rfl, rfl⟩
    | cons c rest => simp [hline.mem]
  rw [lineLead, List.takeWhile_append_of_pos hall, List.dropWhile_append_of_pos hall, stops.1,
    stops.2, List.append_nil]

/-- What follows a name: arguments, or what follows the type. -/
theorem follows_argumentChars (as : List ArgumentKey) {r : List Char} (hr : Follows afterShape r) :
    Follows ('<' :: afterShape) (argumentChars as ++ r) := by
  cases as with
  | nil => exact hr.mono (List.subset_cons_self ..)
  | cons a rest => exact follows_cons List.mem_cons_self _

theorem lineLead_chars {s : ShapeKey} (piece : s.isPiece = true) (readable : s.isReadable = true)
    {r : List Char} (hr : Follows afterShape r) : lineLead (s.chars ++ r) = s.lead := by
  cases s with
  | named name as =>
    rw [ShapeKey.isReadable, Bool.and_eq_true, isTypeName_iff] at readable
    obtain ⟨⟨hne, hname⟩, -⟩ := readable
    have after := follows_argumentChars as hr
    rw [ShapeKey.chars_named, List.append_assoc,
      lineLead_append hname (after.mono (by decide))]
    obtain ⟨c, rest, hcons⟩ := List.exists_cons_of_ne_nil hne
    rw [hcons]
    cases hline : argumentChars as ++ r with
    | nil => rfl
    | cons d line =>
      rw [hline] at after
      have hd : d ≠ ':' ∧ d ≠ '(' := by
        have := after.mem
        constructor <;> rintro rfl <;> revert this <;> decide
      unfold leadOf
      split <;> simp_all [ShapeKey.lead]
  | typeAlias name => rw [ShapeKey.chars_typeAlias]; rfl
  | unresolved => rfl
  | captured a => rw [ShapeKey.chars_captured]; rfl
  | notNull base => cases piece
  | dynamic => rfl
  | flexible lower upper => rw [ShapeKey.chars_flexible]; rfl
  | integerLiteral value => rw [ShapeKey.chars_integerLiteral]; rfl
  | intersection ts => rw [ShapeKey.chars_intersection]; rfl

/-- No type starts with one of these. -/
def noStart : List Char := ['&', ')', '*']

/-- Whether a line starts like a type. -/
def Begins (line : List Char) : Prop := ∃ c rest, line = c :: rest ∧ c ∉ noStart

theorem Begins.append {line : List Char} (h : Begins line) (rest : List Char) :
    Begins (line ++ rest) := by
  obtain ⟨c, cs, rfl, hc⟩ := h
  exact ⟨c, cs ++ rest, rfl, hc⟩

theorem Begins.ne_cons {line : List Char} (h : Begins line) {c : Char} (hc : c ∈ noStart)
    (rest : List Char) : line ≠ c :: rest := by
  rintro rfl
  obtain ⟨d, cs, hd, hnot⟩ := h
  obtain ⟨rfl, -⟩ := List.cons.inj hd
  exact hnot hc

theorem Begins.not_follows {line marks : List Char} (h : Begins line) (sub : marks ⊆ noStart) :
    ¬ Follows marks line := by
  obtain ⟨c, rest, rfl, hc⟩ := h
  exact fun hline ↦ hc (sub hline.mem)

theorem ShapeKey.begins {s : ShapeKey} (piece : s.isPiece = true) (h : s.isReadable = true) :
    Begins s.chars := by
  cases s with
  | named name as =>
    rw [isReadable, Bool.and_eq_true, isTypeName_iff] at h
    obtain ⟨⟨hne, hname⟩, -⟩ := h
    obtain ⟨c, rest, hcons⟩ := List.exists_cons_of_ne_nil hne
    have hc : c ∉ noStart := by
      intro hmem
      have sub : noStart ⊆ typeMarks := by decide
      exact hname c (hcons ▸ List.mem_cons_self) (sub hmem)
    rw [chars_named, hcons]
    exact ⟨c, rest ++ argumentChars as, rfl, hc⟩
  | typeAlias name => exact chars_typeAlias name ▸ ⟨_, _, rfl, by decide⟩
  | unresolved => exact ⟨_, _, rfl, by decide⟩
  | captured a => exact chars_captured a ▸ ⟨_, _, rfl, by decide⟩
  | notNull base => cases piece
  | dynamic => exact ⟨_, _, rfl, by decide⟩
  | flexible lower upper => exact chars_flexible lower upper ▸ ⟨_, _, rfl, by decide⟩
  | integerLiteral value => exact chars_integerLiteral value ▸ ⟨_, _, rfl, by decide⟩
  | intersection ts => exact chars_intersection ts ▸ ⟨_, _, rfl, by decide⟩

theorem TypeKey.begins {t : TypeKey} (h : t.isReadable = true) : Begins t.chars := by
  induction t using piecesRec with
  | piece t piece =>
    obtain ⟨shape, nullable⟩ := t
    exact chars_mk shape nullable ▸ (ShapeKey.begins piece h).append _
  | notNull base nullable ih =>
    rw [chars_mk, ShapeKey.chars_notNull]
    exact ((ih h).append _).append _

theorem begins_conjunctChars {t : TypeKey} (h : t.isReadable = true) (rest : List TypeKey) :
    Begins (conjunctChars (t :: rest)) := by
  cases rest with
  | nil =>
    rw [conjunctChars, writeList_singleton]
    exact t.begins h
  | cons u rest =>
    rw [conjunctChars, writeList_cons_cons]
    exact (t.begins h).append _

namespace ArgumentKey

/-- What is written before the type of an argument. -/
def keyword : Variance → List Char
  | .invariant => []
  | .contravariant => ['i', 'n', ' ']
  | .covariant => ['o', 'u', 't', ' ']

theorem toList_withVariance (v : Variance) (text : String) :
    (TypeText.withVariance v text).toList = keyword v ++ text.toList := by
  cases v with
  | invariant => rfl
  | contravariant => simp [TypeText.withVariance, Variance.label, keyword]
  | covariant => simp [TypeText.withVariance, Variance.label, keyword]

theorem chars_typed (v : Variance) (t : TypeKey) : (typed v t).chars = keyword v ++ t.chars := by
  rw [chars, text, toList_withVariance, TypeKey.chars]

theorem begins_typed (v : Variance) {t : TypeKey} (h : t.isReadable = true) :
    Begins (typed v t).chars := by
  rw [chars_typed]
  cases v with
  | invariant => exact t.begins h
  | contravariant => exact ⟨_, _, rfl, by decide⟩
  | covariant => exact ⟨_, _, rfl, by decide⟩

/-- A keyword reads like a type of its own, up to the blank. -/
theorem keyword_eq {v : Variance} (h : v ≠ .invariant) : ∃ p : TypeKey,
    p.shape.isPiece = true ∧ p.isReadable = true ∧ keyword v = p.chars ++ [' '] := by
  cases v with
  | invariant => exact absurd rfl h
  | contravariant => exact ⟨⟨.named "in" [], false⟩, by decide⟩
  | covariant => exact ⟨⟨.named "out" [], false⟩, by decide⟩

theorem keyword_append_ne {v w : Variance} (hv : v ≠ .invariant) (hw : w ≠ .invariant)
    (hvw : v ≠ w) (x y : List Char) : keyword v ++ x ≠ keyword w ++ y := by
  cases v <;> cases w <;> simp_all [keyword]

end ArgumentKey

end SymbolView
