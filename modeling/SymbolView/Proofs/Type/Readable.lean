import Mathlib
import SymbolView.Proofs.Type.Chars

/-!
# The text of a type tells its key

Keys that can be read back have different texts if they are different (`TypeKey.text_inj`), and so
the text of a type stands for its key and nothing else (`TypeTerm.text_eq_iff`).

Inside a text one has to tell where a type ends.  Types are told from each other by their pieces,
pieces by how they open and by what is inside, and what is inside has a shorter text.  So the proof
is an induction on the length of the text; `ToldBelow` is its hypothesis.  Two places need more than
that.  The two kinds of round brackets are told apart by what follows the first type inside
(`flexible_ne_intersection`), and a class may have the name of a keyword (`keyword_ne`).
-/

set_option autoImplicit false

namespace SymbolView

theorem told_typeAlias {name name' : String} (ha : (ShapeKey.typeAlias name).isReadable = true)
    (hb : (ShapeKey.typeAlias name').isReadable = true) :
    Told ShapeKey.chars afterShape (.typeAlias name) (.typeAlias name') := by
  intro r s _ _ h
  rw [ShapeKey.isReadable, isTypeName_iff] at ha hb
  have hclose (line : List Char) : Follows typeMarks ([']'] ++ line) :=
    follows_cons (by decide) line
  rw [ShapeKey.chars_typeAlias, ShapeKey.chars_typeAlias] at h
  simp only [List.append_assoc] at h
  obtain ⟨hname, hrest⟩ := append_inj_of_unmarked ha.2 hb.2 (hclose r) (hclose s)
    (List.append_cancel_left h)
  exact ⟨by rw [String.toList_inj.mp hname], (List.cons.inj hrest).2⟩

theorem told_integerLiteral (value value' : Int64) :
    Told ShapeKey.chars afterShape (.integerLiteral value) (.integerLiteral value') := by
  intro r s hr hs h
  rw [ShapeKey.chars_integerLiteral, ShapeKey.chars_integerLiteral, List.append_assoc,
    List.append_assoc] at h
  obtain ⟨hvalue, rfl⟩ := append_inj_of_unmarked (unmarked_repr value) (unmarked_repr value')
    (hr.mono (by decide)) (hs.mono (by decide)) (List.append_cancel_left h)
  exact ⟨by rw [Int64.toInt_inj.mp (Int.repr_inj.mp (String.toList_inj.mp hvalue))], rfl⟩

/-- Whether pieces with a short text are told from other pieces. -/
def ToldBelow (n : Nat) : Prop := ∀ p q : TypeKey, p.shape.isPiece = true → p.isReadable = true →
  q.shape.isPiece = true → q.isReadable = true → p.chars.length < n →
    Told TypeKey.chars afterPiece p q

/-- A type after a keyword is not a type without one: after a piece comes no blank, unless an
ampersand comes next. -/
theorem keyword_ne {p t u : TypeKey} (ht : t.isReadable = true)
    (told : ∀ q ∈ u.pieces, Told TypeKey.chars afterPiece p q) {r s : List Char}
    (hs : Follows afterType s) : p.chars ++ ' ' :: (t.chars ++ r) ≠ u.chars ++ s := by
  intro h
  obtain ⟨q, rest, hq⟩ := List.exists_cons_of_ne_nil u.pieces_ne_nil
  have toldq := told q (hq ▸ List.mem_cons_self)
  have hblank : ' ' ∈ afterPiece := by decide
  rw [u.chars_eq_conjunctChars, hq] at h
  cases rest with
  | nil =>
    rw [conjunctChars, writeList_singleton] at h
    obtain ⟨-, rfl⟩ := toldq (follows_cons hblank _) (hs.mono (List.subset_cons_self ..)) h
    exact absurd hs.mem (by decide)
  | cons q' rest =>
    rw [conjunctChars, writeList_cons_cons, List.append_assoc] at h
    obtain ⟨-, h⟩ := toldq (follows_cons hblank _) (follows_cons hblank _) h
    exact ((t.begins ht).append r).ne_cons (by decide) _ (List.cons.inj h).2

/-- What is known up to two bounds is not written like an intersection. -/
theorem flexible_ne_intersection {lower upper : TypeKey} {ts : List TypeKey}
    (hlower : lower.isReadable = true)
    (told : ∀ p ∈ lower.pieces, ∀ q ∈ ts, Told TypeKey.chars afterPiece p q) {r s : List Char} :
    (ShapeKey.flexible lower upper).chars ++ r ≠ (ShapeKey.intersection ts).chars ++ s := by
  intro h
  rw [ShapeKey.chars_flexible, ShapeKey.chars_intersection, List.cons_append, List.cons_append,
    List.append_assoc, List.append_assoc] at h
  replace h := (List.cons.inj h).2
  cases ts with
  | nil => exact ((lower.begins hlower).append _).ne_cons (by decide) _ h
  | cons t rest =>
    have hdot : Follows afterType ('.' :: '.' :: (upper.chars ++ [')']) ++ r) :=
      follows_cons (by decide) _
    have hclose : Follows afterType ([')'] ++ s) := follows_cons (by decide) _
    rw [lower.chars_eq_conjunctChars] at h
    obtain ⟨-, h⟩ := told_writeList (by decide) (List.subset_cons_self ..) (by decide) told
      lower.pieces_ne_nil (List.cons_ne_nil t rest) hdot hclose h
    exact absurd (List.cons.inj h).1 (by decide)

namespace ToldBelow

variable {n : Nat} (below : ToldBelow n)

include below

theorem type {t u : TypeKey} (ht : t.isReadable = true) (hu : u.isReadable = true)
    (hn : t.chars.length < n) : Told TypeKey.chars afterType t u := by
  intro r s hr hs h
  rw [t.chars_eq_conjunctChars, u.chars_eq_conjunctChars] at h
  have told : ∀ p ∈ t.pieces, ∀ q ∈ u.pieces, Told TypeKey.chars afterPiece p q := by
    intro p hp q hq
    obtain ⟨piece, readable⟩ := TypeKey.of_mem_pieces ht hp
    obtain ⟨piece', readable'⟩ := TypeKey.of_mem_pieces hu hq
    exact below p q piece readable piece' readable'
      (Nat.lt_of_le_of_lt (TypeKey.length_le_of_mem_pieces hp) hn)
  obtain ⟨hpieces, rfl⟩ := told_writeList (by decide) (List.subset_cons_self ..) (by decide) told
    t.pieces_ne_nil u.pieces_ne_nil hr hs h
  exact ⟨TypeKey.pieces_inj hpieces, rfl⟩

/-- Arguments of different variances have different texts. -/
theorem keywords_ne {v w : Variance} {t u : TypeKey} (ht : t.isReadable = true)
    (hu : u.isReadable = true) (hvw : v ≠ w)
    (hn : (ArgumentKey.keyword v).length + t.chars.length < n) {r s : List Char}
    (hr : Follows afterType r) (hs : Follows afterType s) :
    ArgumentKey.keyword v ++ (t.chars ++ r) ≠ ArgumentKey.keyword w ++ (u.chars ++ s) := by
  by_cases hv : v = .invariant
  · subst hv
    obtain ⟨p, piece, readable, hp⟩ := ArgumentKey.keyword_eq (Ne.symm hvw)
    rw [hp, List.append_assoc]
    refine (keyword_ne hu (fun q hq ↦ Told.symm ?_) hr).symm
    obtain ⟨piece', readable'⟩ := TypeKey.of_mem_pieces ht hq
    have hlen := TypeKey.length_le_of_mem_pieces hq
    exact below q p piece' readable' piece readable (by omega)
  · obtain ⟨p, piece, readable, hp⟩ := ArgumentKey.keyword_eq hv
    by_cases hw : w = .invariant
    · subst hw
      rw [hp, List.length_append] at hn
      rw [hp, List.append_assoc]
      refine keyword_ne ht (fun q hq ↦ ?_) hs
      obtain ⟨piece', readable'⟩ := TypeKey.of_mem_pieces hu hq
      exact below p q piece readable piece' readable' (by omega)
    · exact ArgumentKey.keyword_append_ne hv hw hvw _ _

theorem argument {a b : ArgumentKey} (ha : a.isReadable = true) (hb : b.isReadable = true)
    (hn : a.chars.length < n) : Told ArgumentKey.chars afterType a b := by
  intro r s hr hs h
  have hstar : '*' ∈ noStart := by decide
  cases a with
  | star =>
    cases b with
    | star => exact ⟨rfl, (List.cons.inj h).2⟩
    | typed w u => exact absurd h.symm (((ArgumentKey.begins_typed w hb).append s).ne_cons hstar _)
  | typed v t =>
    cases b with
    | star => exact absurd h (((ArgumentKey.begins_typed v ha).append r).ne_cons hstar _)
    | typed w u =>
      have hlen : (ArgumentKey.keyword v).length + t.chars.length < n := by
        rwa [ArgumentKey.chars_typed, List.length_append] at hn
      have ht : t.chars.length < n := Nat.lt_of_le_of_lt (Nat.le_add_left ..) hlen
      rw [ArgumentKey.chars_typed, ArgumentKey.chars_typed, List.append_assoc,
        List.append_assoc] at h
      by_cases hvw : v = w
      · subst hvw
        obtain ⟨rfl, rfl⟩ := below.type ha hb ht hr hs (List.append_cancel_left h)
        exact ⟨rfl, rfl⟩
      · exact absurd h (below.keywords_ne ha hb hvw hlen hr hs)

theorem arguments {as bs : List ArgumentKey} (ha : areArgumentsReadable as = true)
    (hb : areArgumentsReadable bs = true) (hn : (argumentChars as).length ≤ n) :
    Told argumentChars afterShape as bs := by
  intro r s hr hs h
  have hopen : '<' ∉ afterShape := by decide
  cases as with
  | nil =>
    cases bs with
    | nil => exact ⟨rfl, h⟩
    | cons b bs =>
      have hr' : Follows afterShape (argumentChars (b :: bs) ++ s) := h ▸ hr
      exact absurd hr'.mem hopen
  | cons a as =>
    cases bs with
    | nil =>
      have hs' : Follows afterShape (argumentChars (a :: as) ++ r) := h.symm ▸ hs
      exact absurd hs'.mem hopen
    | cons b bs =>
      rw [areArgumentsReadable_iff] at ha hb
      have told : ∀ x ∈ a :: as, ∀ y ∈ b :: bs, Told ArgumentKey.chars afterType x y := by
        intro x hx y hy
        exact below.argument (ha x hx) (hb y hy)
          (Nat.lt_of_lt_of_le (length_lt_argumentChars hx) hn)
      have hclose (line : List Char) : Follows ['>'] (['>'] ++ line) :=
        follows_cons List.mem_cons_self line
      simp only [argumentChars, List.cons_append, List.append_assoc] at h
      obtain ⟨hlist, hrest⟩ := told_writeList (by decide) (by decide) (by decide) told
        (List.cons_ne_nil a as) (List.cons_ne_nil b bs) (hclose r) (hclose s) (List.cons.inj h).2
      exact ⟨hlist, (List.cons.inj hrest).2⟩

theorem conjuncts {ts us : List TypeKey} (ht : areConjunctsReadable ts = true)
    (hu : areConjunctsReadable us = true) (hn : (conjunctChars ts).length < n) :
    Told conjunctChars [')'] ts us := by
  intro r s hr hs h
  rw [areConjunctsReadable_iff] at ht hu
  have sub : [')'] ⊆ noStart := by decide
  cases ts with
  | nil =>
    cases us with
    | nil => exact ⟨rfl, h⟩
    | cons u us =>
      have hbegins := (begins_conjunctChars (hu u List.mem_cons_self).2 us).append s
      exact absurd (h ▸ hr) (hbegins.not_follows sub)
  | cons t ts =>
    cases us with
    | nil =>
      have hbegins := (begins_conjunctChars (ht t List.mem_cons_self).2 ts).append r
      exact absurd (h.symm ▸ hs) (hbegins.not_follows sub)
    | cons u us =>
      have told : ∀ p ∈ t :: ts, ∀ q ∈ u :: us, Told TypeKey.chars afterPiece p q := by
        intro p hp q hq
        exact below p q (ht p hp).1 (ht p hp).2 (hu q hq).1 (hu q hq).2
          (Nat.lt_of_le_of_lt (length_le_conjunctChars hp) hn)
      exact told_writeList (by decide) (by decide) (by decide) told (List.cons_ne_nil t ts)
        (List.cons_ne_nil u us) hr hs h

theorem named {name name' : String} {as bs : List ArgumentKey}
    (ha : (ShapeKey.named name as).isReadable = true)
    (hb : (ShapeKey.named name' bs).isReadable = true)
    (hn : (ShapeKey.named name as).chars.length ≤ n) :
    Told ShapeKey.chars afterShape (.named name as) (.named name' bs) := by
  intro r s hr hs h
  rw [ShapeKey.isReadable, Bool.and_eq_true, isTypeName_iff] at ha hb
  rw [ShapeKey.chars_named, List.length_append] at hn
  rw [ShapeKey.chars_named, ShapeKey.chars_named, List.append_assoc, List.append_assoc] at h
  obtain ⟨hname, hrest⟩ := append_inj_of_unmarked ha.1.2 hb.1.2
    ((follows_argumentChars as hr).mono (by decide))
    ((follows_argumentChars bs hs).mono (by decide)) h
  obtain ⟨rfl, rfl⟩ := below.arguments ha.2 hb.2 (by omega) hr hs hrest
  exact ⟨by rw [String.toList_inj.mp hname], rfl⟩

theorem captured {x y : ArgumentKey} (hx : x.isReadable = true) (hy : y.isReadable = true)
    (hn : (ShapeKey.captured x).chars.length ≤ n) :
    Told ShapeKey.chars afterShape (.captured x) (.captured y) := by
  intro r s _ _ h
  have hclose (line : List Char) : Follows afterType ([')'] ++ line) :=
    follows_cons (by decide) line
  rw [ShapeKey.chars_captured, List.length_append, List.length_append] at hn
  rw [ShapeKey.chars_captured, ShapeKey.chars_captured] at h
  simp only [List.append_assoc] at h
  obtain ⟨rfl, hrest⟩ := below.argument hx hy
    (Nat.lt_of_lt_of_le (Nat.lt_add_left _ (Nat.lt_succ_self _)) hn) (hclose r) (hclose s)
    (List.append_cancel_left h)
  exact ⟨rfl, (List.cons.inj hrest).2⟩

theorem flexible {lower upper lower' upper' : TypeKey}
    (ha : (ShapeKey.flexible lower upper).isReadable = true)
    (hb : (ShapeKey.flexible lower' upper').isReadable = true)
    (hn : (ShapeKey.flexible lower upper).chars.length ≤ n) :
    Told ShapeKey.chars afterShape (.flexible lower upper) (.flexible lower' upper') := by
  intro r s _ _ h
  rw [ShapeKey.isReadable, Bool.and_eq_true] at ha hb
  rw [ShapeKey.chars_flexible] at hn
  simp only [List.length_cons, List.length_append] at hn
  have hdots (line : List Char) : Follows afterType ('.' :: '.' :: line) :=
    follows_cons (by decide) _
  have hclose (line : List Char) : Follows afterType ([')'] ++ line) :=
    follows_cons (by decide) line
  rw [ShapeKey.chars_flexible, ShapeKey.chars_flexible] at h
  simp only [List.cons_append, List.append_assoc] at h
  obtain ⟨rfl, hupper⟩ := below.type ha.1 hb.1 (by omega) (hdots _) (hdots _) (List.cons.inj h).2
  obtain ⟨rfl, hrest⟩ := below.type ha.2 hb.2 (by omega) (hclose r) (hclose s)
    (List.cons.inj (List.cons.inj hupper).2).2
  exact ⟨rfl, (List.cons.inj hrest).2⟩

theorem intersection {ts us : List TypeKey} (ht : areConjunctsReadable ts = true)
    (hu : areConjunctsReadable us = true) (hn : (ShapeKey.intersection ts).chars.length ≤ n) :
    Told ShapeKey.chars afterShape (.intersection ts) (.intersection us) := by
  intro r s _ _ h
  have hclose (line : List Char) : Follows [')'] ([')'] ++ line) :=
    follows_cons List.mem_cons_self line
  rw [ShapeKey.chars_intersection] at hn
  simp only [List.length_cons, List.length_append] at hn
  rw [ShapeKey.chars_intersection, ShapeKey.chars_intersection] at h
  simp only [List.cons_append, List.append_assoc] at h
  obtain ⟨rfl, hrest⟩ := below.conjuncts ht hu (by omega) (hclose r) (hclose s) (List.cons.inj h).2
  exact ⟨rfl, (List.cons.inj hrest).2⟩

/-- Shapes whose text is no longer than this are told from other shapes: those that open in the same
way are of the same kind, or differ by `flexible_ne_intersection`. -/
theorem shape {a b : ShapeKey} (pa : a.isPiece = true) (ha : a.isReadable = true)
    (pb : b.isPiece = true) (hb : b.isReadable = true) (hn : a.chars.length ≤ n) :
    Told ShapeKey.chars afterShape a b := by
  intro r s hr hs h
  have hlead : a.lead = b.lead := by
    rw [← lineLead_chars pa ha hr, ← lineLead_chars pb hb hs, h]
  cases a with
  | named name as =>
    cases b with
    | named name' bs => exact below.named ha hb hn hr hs h
    | _ => cases hlead
  | typeAlias name =>
    cases b with
    | typeAlias name' => exact told_typeAlias ha hb hr hs h
    | _ => cases hlead
  | unresolved =>
    cases b with
    | unresolved => exact ⟨rfl, List.append_cancel_left h⟩
    | _ => cases hlead
  | captured x =>
    cases b with
    | captured y => exact below.captured ha hb hn hr hs h
    | _ => cases hlead
  | notNull base => cases pa
  | dynamic =>
    cases b with
    | dynamic => exact ⟨rfl, List.append_cancel_left h⟩
    | _ => cases hlead
  | flexible lower upper =>
    cases b with
    | flexible lower' upper' => exact below.flexible ha hb hn hr hs h
    | intersection us =>
      rw [ShapeKey.isReadable, Bool.and_eq_true] at ha
      rw [ShapeKey.isReadable, areConjunctsReadable_iff] at hb
      rw [ShapeKey.chars_flexible] at hn
      simp only [List.length_cons, List.length_append] at hn
      refine absurd h (flexible_ne_intersection ha.1 fun p hp q hq ↦ ?_)
      obtain ⟨piece, readable⟩ := TypeKey.of_mem_pieces ha.1 hp
      have hlen := TypeKey.length_le_of_mem_pieces hp
      exact below p q piece readable (hb q hq).1 (hb q hq).2 (by omega)
    | _ => cases hlead
  | integerLiteral value =>
    cases b with
    | integerLiteral value' => exact told_integerLiteral value value' hr hs h
    | _ => cases hlead
  | intersection ts =>
    cases b with
    | intersection us => exact below.intersection ha hb hn hr hs h
    | flexible lower' upper' =>
      rw [ShapeKey.isReadable, areConjunctsReadable_iff] at ha
      rw [ShapeKey.isReadable, Bool.and_eq_true] at hb
      rw [ShapeKey.chars_intersection] at hn
      simp only [List.length_cons, List.length_append] at hn
      refine absurd h.symm (flexible_ne_intersection hb.1 fun p hp q hq ↦ Told.symm ?_)
      obtain ⟨piece, readable⟩ := TypeKey.of_mem_pieces hb.1 hp
      have hlen := length_le_conjunctChars hq
      exact below q p (ha q hq).1 (ha q hq).2 piece readable (by omega)
    | _ => cases hlead

/-- Pieces whose text is no longer than this are told from other pieces too. -/
theorem piece {p q : TypeKey} (pp : p.shape.isPiece = true) (hp : p.isReadable = true)
    (pq : q.shape.isPiece = true) (hq : q.isReadable = true) (hn : p.chars.length ≤ n) :
    Told TypeKey.chars afterPiece p q := by
  intro r s hr hs h
  obtain ⟨a, x⟩ := p
  obtain ⟨b, y⟩ := q
  have hmark (nullable : Bool) {line : List Char} (hline : Follows afterPiece line) :
      Follows afterShape ((if nullable then ['?'] else []) ++ line) := by
    cases nullable with
    | true => exact follows_cons List.mem_cons_self line
    | false => exact hline.mono (List.subset_cons_self ..)
  have hopen : '?' ∉ afterPiece := by decide
  rw [TypeKey.chars_mk, List.length_append] at hn
  rw [TypeKey.chars_mk, TypeKey.chars_mk, List.append_assoc, List.append_assoc] at h
  obtain ⟨rfl, hrest⟩ := below.shape pp hp pq hq (Nat.le_of_add_right_le hn) (hmark x hr)
    (hmark y hs) h
  cases x with
  | false =>
    cases y with
    | false => exact ⟨rfl, hrest⟩
    | true =>
      have hr' : Follows afterPiece (['?'] ++ s) := hrest ▸ hr
      exact absurd hr'.mem hopen
  | true =>
    cases y with
    | false =>
      have hs' : Follows afterPiece (['?'] ++ r) := hrest.symm ▸ hs
      exact absurd hs'.mem hopen
    | true => exact ⟨rfl, (List.cons.inj hrest).2⟩

end ToldBelow

theorem toldBelow (n : Nat) : ToldBelow n := by
  induction n with
  | zero => exact fun p q _ _ _ _ hn ↦ absurd hn (Nat.not_lt_zero _)
  | succ n ih =>
    intro p q pp hp pq hq hn
    exact ih.piece pp hp pq hq (Nat.lt_succ_iff.mp hn)

/-- Different keys have different texts. -/
theorem TypeKey.text_inj {t u : TypeKey} (ht : t.isReadable = true) (hu : u.isReadable = true) :
    t.text = u.text ↔ t = u := by
  refine ⟨fun h ↦ ?_, congrArg text⟩
  have hchars : t.chars ++ [] = u.chars ++ [] := by rw [chars, chars, h]
  exact ((toldBelow _).type ht hu (Nat.lt_succ_self _) (follows_nil _) (follows_nil _) hchars).1

/-- **The text of a type stands for its key.**  Take types without annotations and without aliases
that are written as their expansions, whose names are words and whose intersections are not made of
types ending in `& Any`.  Two of them have the same text exactly if they have the same key, that is,
if they agree in the tree of shapes, question marks, arguments, variances, literals and short
names. -/
theorem TypeTerm.text_eq_iff {t u : TypeTerm} {f g : Bool} (ht : t.isBare f = true)
    (hu : u.isBare g = true) (hkt : t.key.isReadable = true) (hku : u.key.isReadable = true) :
    t.text .uniform f = u.text .uniform g ↔ t.key = u.key := by
  rw [t.text_of_isBare f ht, u.text_of_isBare g hu, Except.ok.injEq, TypeKey.text_inj hkt hku]

/-- An argument of some class. -/
def sampleArgument (package name : String) (v : Variance) : TypeProjection :=
  .typed v (.ofClass .usual (.ofDotted package name) [])

/-- A nested class type, whose outer class is called like a keyword. -/
def sampleNested : TypeTerm :=
  .plain (.notNull (.plain (.classType .usual ⟨.classLike, ⟨["a"], ["in", "Inner"], false⟩⟩
    [⟨"in", [sampleArgument "a" "in" .invariant]⟩, ⟨"Inner", [sampleArgument "a" "T" .covariant]⟩]
    none)))

/-- A functional type that is written in the same way. -/
def sampleFlat : TypeTerm :=
  .plain (.notNull (.ofClass .functional ⟨["b"], ["Inner"], false⟩
    [.typed .covariant (.plain (.typeParameter ⟨7⟩ "T")), sampleArgument "" "in" .invariant]))

theorem text_sampleNested_eq : sampleNested.isBare false = true ∧ sampleFlat.isBare false = true ∧
    sampleNested.key.isReadable = true ∧ sampleFlat.key.isReadable = true ∧
    sampleNested.text .uniform false = sampleFlat.text .uniform false := by
  have ht : sampleNested.isBare false = true := by decide
  have hu : sampleFlat.isBare false = true := by decide
  have hkt : sampleNested.key.isReadable = true := by decide
  have hku : sampleFlat.key.isReadable = true := by decide
  exact ⟨ht, hu, hkt, hku, (TypeTerm.text_eq_iff ht hu hkt hku).mpr rfl⟩

end SymbolView
