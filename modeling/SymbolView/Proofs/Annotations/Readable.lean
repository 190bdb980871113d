import SymbolView.Proofs.Annotations.Key
import SymbolView.Proofs.Annotations.Literals

/-!
# The text of an annotation tells its key

Values end where the text of a value can end, and how a text opens tells which kind of value it is
(`leadOf_chars`).  Words are left: the literals of truth values and of null, enum entries, which
have a dot in them, and class literals, after whose word a colon comes.  Annotations and lists of
values are told from each other if what is in them is, so the proof is an induction on the key.

The main result is `Application.text_eq_text_iff`.
-/

set_option autoImplicit false

namespace SymbolView
namespace Annotations

/-! ## How a text opens -/

/-- How the text of a value opens. -/
inductive ValueLead where
  /-- With the sign of an annotation. -/
  | sign
  /-- With a curly bracket. -/
  | array
  /-- With the quote of a character. -/
  | char
  /-- With the quote of a text. -/
  | string
  /-- With a marker. -/
  | marker
  /-- With a digit or a minus sign. -/
  | number
  /-- With a word. -/
  | word
  /-- Like no value. -/
  | nothing
deriving DecidableEq

/-- How a line opens. -/
def leadOf : List Char → ValueLead
  | [] => .nothing
  | c :: _ =>
    if c = '@' then .sign
    else if c = '\x7b' then .array
    else if c = '\x27' then .char
    else if c = '\x22' then .string
    else if c = '<' then .marker
    else if c = '-' ∨ c.isDigit = true then .number
    else if c = '\x7d' then .nothing
    else .word

/-- How the text of a constant opens. -/
def constantLead : Constant → ValueLead
  | .boolean _ | .null => .word
  | .char _ => .char
  | .string _ => .string
  | _ => .number

/-- How the text of a value opens. -/
def ValueKey.lead : ValueKey → ValueLead
  | .nested _ => .sign
  | .array _ => .array
  | .constant c => constantLead c
  | .enumEntry _ | .nonLocalClass _ => .word
  | .errorClass => .marker
  | .localClass _ | .unsupported _ => .nothing

theorem leadOf_word {line : List Char} (hne : line ≠ [])
    (h : ∀ c ∈ line.head?, c.isDigit = false ∧ (c ∈ ['/', '.', ':'] ∨ c ∉ nameMarks)) :
    leadOf line = .word := by
  cases line with
  | nil => exact absurd rfl hne
  | cons c rest =>
    obtain ⟨noDigit, hc⟩ := h c rfl
    have openings : ∀ d ∈ ['@', '\x7b', '\x27', '\x22', '<', '-', '\x7d'],
        d ∈ nameMarks ∧ d ∉ ['/', '.', ':'] := by simp [nameMarks]
    have other : ∀ d ∈ ['@', '\x7b', '\x27', '\x22', '<', '-', '\x7d'], c ≠ d := by
      rintro d hd rfl
      exact hc.elim (openings c hd).2 fun hn ↦ hn (openings c hd).1
    simp_all [leadOf]

theorem exists_numeral {c : Constant} (readable : isReadableConstant c = true)
    (h : constantLead c = .number) : ∃ p, c.numeral? = some p := by
  cases c <;> simp_all [isReadableConstant, constantLead, Constant.numeral?]

theorem leadOf_number (n : Int) (line : List Char) : leadOf (n.repr.toList ++ line) = .number := by
  cases heq : n.repr.toList with
  | nil =>
    cases n with
    | ofNat m => exact absurd (String.toList_eq_nil_iff.mp heq) Nat.repr_ne_empty
    | negSucc m => simp [Int.repr] at heq
  | cons c rest =>
    have mem : c ∈ n.repr.toList := heq ▸ List.mem_cons_self
    have others : ∀ d ∈ ['@', '\x7b', '\x27', '\x22', '<'], ¬ (d = '-' ∨ d.isDigit = true) := by
      simp
    have hc := minus_or_isDigit_of_mem_repr mem
    have other : ∀ d ∈ ['@', '\x7b', '\x27', '\x22', '<'], c ≠ d := by
      rintro d hd rfl
      exact others c hd hc
    simp_all [leadOf]

theorem leadOf_quoted (content r : List Char) :
    leadOf ((Constant.quoted '\x27' content).toList ++ r) = .char ∧
      leadOf ((Constant.quoted '\x22' content).toList ++ r) = .string := by
  simp [Constant.quoted, leadOf]

theorem leadOf_constant {c : Constant} (readable : isReadableConstant c = true) (r : List Char) :
    leadOf (c.text.toList ++ r) = constantLead c := by
  by_cases h : constantLead c = .number
  · obtain ⟨⟨n, suffix⟩, hn⟩ := exists_numeral readable h
    rw [Constant.text_of_numeral hn, List.append_assoc, leadOf_number, h]
  · cases c with
    | boolean value => cases value <;> rfl
    | null => rfl
    | char c => exact (leadOf_quoted _ r).1
    | string s => exact (leadOf_quoted _ r).2
    | _ => exact absurd rfl h

theorem leadOf_name {id : ClassId} (named : id.isNamed = true) {c : Char} (hc : c ∈ ['.', ':'])
    (line : List Char) : leadOf (id.text.toList ++ c :: line) = .word := by
  refine leadOf_word (List.append_ne_nil_of_right_ne_nil _ (List.cons_ne_nil _ _)) fun d hd ↦ ?_
  cases htext : id.text.toList with
  | nil =>
    rw [htext] at hd
    obtain rfl : c = d := by simpa using hd
    have joint : ∀ c ∈ ['.', ':'], c.isDigit = false ∧ (c ∈ ['/', '.', ':'] ∨ c ∉ nameMarks) := by
      simp
    exact joint c hc
  | cons e rest =>
    rw [htext] at hd
    obtain rfl : e = d := by simpa using hd
    refine ⟨id.head_text named e (by rw [htext]; rfl), ?_⟩
    rcases id.mem_text named (htext ▸ List.mem_cons_self) with rfl | rfl | hmark
    · exact .inl (by decide)
    · exact .inl (by decide)
    · exact .inr hmark

/-- How the text of a value opens, whatever follows it. -/
theorem leadOf_chars {v : ValueKey} (readable : v.isReadable = true) (r : List Char) :
    leadOf (v.chars ++ r) = v.lead := by
  cases v with
  | nested application =>
    obtain ⟨target, name, values⟩ := application
    rfl
  | array values => rfl
  | constant c => exact leadOf_constant readable r
  | enumEntry entry =>
    rw [ValueKey.isReadable, Bool.and_eq_true] at readable
    obtain ⟨owner, hentry, named, -⟩ := CallableId.isNamed_iff.mp readable.1
    rw [ValueKey.chars, hentry, CallableId.toList_text_member, List.append_assoc]
    exact leadOf_name named (by decide) _
  | errorClass => rfl
  | localClass name => cases readable
  | nonLocalClass id =>
    rw [ValueKey.isReadable, Bool.and_eq_true] at readable
    rw [ValueKey.chars, List.append_assoc]
    exact leadOf_name readable.1 (by decide) _
  | unsupported what => cases readable

/-! ## Values that have no values in them -/

/-- The word that a value opens with, if it opens with one. -/
def ValueKey.word : ValueKey → List Char
  | .constant c => c.text.toList
  | .enumEntry entry => entry.text.toList
  | .nonLocalClass id => id.text.toList
  | _ => []

/-- What follows that word. -/
def ValueKey.ending : ValueKey → List Char
  | .nonLocalClass _ => classSuffix
  | _ => []

variable {v w : ValueKey}

/-- The constants that are written as words. -/
def wordConstants : List Constant := [.boolean true, .boolean false, .null]

theorem mem_wordConstants {c : Constant} (h : constantLead c = .word) : c ∈ wordConstants := by
  cases c with
  | boolean value => cases value <;> decide
  | null => decide
  | _ => cases h

theorem chars_of_word (h : v.lead = .word) : v.chars = v.word ++ v.ending := by
  cases v <;> first | simp [ValueKey.chars, ValueKey.word, ValueKey.ending]; done | cases h

theorem follows_ending (v : ValueKey) {r : List Char} (hr : Follows afterValue r) :
    Follows (':' :: afterValue) (v.ending ++ r) := by
  cases v with
  | nonLocalClass id => exact follows_cons (.head _) _
  | _ => exact hr.mono (List.subset_cons_self ..)

theorem word_enumEntry {owner : ClassId} {entry : CallableId}
    (h : entry = CallableId.member owner entry.name) :
    (ValueKey.enumEntry entry).word = owner.text.toList ++ '.' :: entry.name.toList := by
  conv_lhs => rw [ValueKey.word, h]
  exact CallableId.toList_text_member owner entry.name

theorem unmarked_of_named {id : ClassId} (named : id.isNamed = true) :
    ∀ c ∈ id.text.toList, c ∉ ':' :: afterValue := by
  intro c hc
  rcases id.mem_text named hc with rfl | rfl | hmark
  · decide
  · decide
  · exact fun h ↦ hmark ((by decide : ':' :: afterValue ⊆ nameMarks) h)

theorem unmarked_word (readable : v.isReadable = true) (h : v.lead = .word) :
    ∀ c ∈ v.word, c ∉ ':' :: afterValue := by
  cases v with
  | constant c =>
    have unmarked : ∀ d ∈ wordConstants, ∀ e ∈ d.text.toList, e ∉ ':' :: afterValue := by
      simp [wordConstants, Constant.text, afterValue]
    exact unmarked c (mem_wordConstants h)
  | enumEntry entry =>
    rw [ValueKey.isReadable, Bool.and_eq_true] at readable
    obtain ⟨owner, hentry, howner, hname⟩ := CallableId.isNamed_iff.mp readable.1
    intro c hc
    rw [word_enumEntry hentry] at hc
    rcases List.mem_append.mp hc with hc | hc
    · exact unmarked_of_named howner c hc
    · rcases List.mem_cons.mp hc with rfl | hc
      · decide
      · exact fun hmark ↦ unmarked_of_isName hname c hc
          ((by decide : ':' :: afterValue ⊆ nameMarks) hmark)
  | nonLocalClass id =>
    rw [ValueKey.isReadable, Bool.and_eq_true] at readable
    exact unmarked_of_named readable.1
  | _ => cases h

/-- The literals that are words have no dots in them. -/
theorem word_constant_ne {c : Constant} (h : constantLead c = .word) (u r : List Char) :
    (ValueKey.constant c).word ≠ u ++ '.' :: r := by
  have noDot : ∀ d ∈ wordConstants, '.' ∉ d.text.toList := by decide
  intro heq
  refine noDot c (mem_wordConstants h) ?_
  rw [← ValueKey.word, heq]
  simp

theorem ending_cases (v : ValueKey) : v.ending = [] ∨ v.ending = classSuffix := by
  cases v <;> first | exact .inl rfl | exact .inr rfl

/-- Words can be read back, if one knows whether the ending of a class literal follows. -/
theorem word_inj (hv : v.isReadable = true) (hw : w.isReadable = true) (hlead : v.lead = .word)
    (hlead' : w.lead = .word) (hword : v.word = w.word) (hend : v.ending = w.ending) : v = w := by
  cases v with
  | constant c =>
    cases w with
    | constant d =>
      have inj : ∀ c ∈ wordConstants, ∀ d ∈ wordConstants, c.text = d.text → c = d := by decide
      rw [inj c (mem_wordConstants hlead) d (mem_wordConstants hlead') (String.toList_inj.mp hword)]
    | enumEntry entry =>
      rw [ValueKey.isReadable, Bool.and_eq_true] at hw
      obtain ⟨owner, hentry, -, -⟩ := CallableId.isNamed_iff.mp hw.1
      exact absurd (hword.trans (word_enumEntry hentry)) (word_constant_ne hlead _ _)
    | nonLocalClass id => cases hend
    | _ => cases hlead'
  | enumEntry entry =>
    rw [ValueKey.isReadable, Bool.and_eq_true, beq_iff_eq] at hv
    cases w with
    | constant d =>
      obtain ⟨owner, hentry, -, -⟩ := CallableId.isNamed_iff.mp hv.1
      exact absurd (hword.symm.trans (word_enumEntry hentry)) (word_constant_ne hlead' _ _)
    | enumEntry entry' =>
      rw [ValueKey.isReadable, Bool.and_eq_true, beq_iff_eq] at hw
      have hid := CallableId.text_inj hv.1 hw.1 (String.toList_inj.mp hword)
      rw [hv.2, hw.2, hid]
    | nonLocalClass id => cases hend
    | _ => cases hlead'
  | nonLocalClass id =>
    rw [ValueKey.isReadable, Bool.and_eq_true, beq_iff_eq] at hv
    cases w with
    | nonLocalClass id' =>
      rw [ValueKey.isReadable, Bool.and_eq_true, beq_iff_eq] at hw
      have hid := ClassId.text_inj hv.1 hw.1 (String.toList_inj.mp hword)
      rw [hv.2, hw.2, hid]
    | constant d => cases hend
    | enumEntry entry => cases hend
    | _ => cases hlead'
  | _ => cases hlead

theorem told_word (hv : v.isReadable = true) (hw : w.isReadable = true) (hlead : v.lead = .word)
    (hlead' : w.lead = .word) : Told ValueKey.chars afterValue v w := by
  intro r s hr hs heq
  rw [chars_of_word hlead, chars_of_word hlead', List.append_assoc, List.append_assoc] at heq
  obtain ⟨hword, hrest⟩ := append_inj_of_unmarked (unmarked_word hv hlead)
    (unmarked_word hw hlead') (follows_ending v hr) (follows_ending w hs) heq
  have noColon {line rest : List Char} (hline : Follows afterValue line) :
      line ≠ classSuffix ++ rest := by
    rintro rfl
    exact absurd hline.mem (by decide)
  have hend : v.ending = w.ending := by
    rcases ending_cases v with hv | hv <;> rcases ending_cases w with hw | hw <;>
      rw [hv, hw] at hrest ⊢
    · exact absurd hrest (noColon hr)
    · exact absurd hrest.symm (noColon hs)
  rw [hend] at hrest
  exact ⟨word_inj hv hw hlead hlead' hword hend, List.append_cancel_left hrest⟩

/-- What a value is, by how it opens. -/
def ValueLead.Describes : ValueLead → ValueKey → Prop
  | sign, v => ∃ application, v = .nested application
  | array, v => ∃ values, v = .array values
  | char, v => ∃ c, v = .constant (.char c)
  | string, v => ∃ s, v = .constant (.string s)
  | marker, v => v = .errorClass
  | number, v => ∃ c p, v = .constant c ∧ c.numeral? = some p
  | word, _ => True
  | nothing, _ => False

theorem describes_lead (h : v.isReadable = true) : v.lead.Describes v := by
  cases v with
  | nested application => exact ⟨application, rfl⟩
  | array values => exact ⟨values, rfl⟩
  | constant c =>
    cases c with
    | boolean value => trivial
    | null => trivial
    | char c => exact ⟨c, rfl⟩
    | string s => exact ⟨s, rfl⟩
    | float word => cases h
    | double word => cases h
    | _ => exact ⟨_, _, rfl, rfl⟩
  | enumEntry entry => trivial
  | errorClass => rfl
  | localClass name => cases h
  | nonLocalClass id => trivial
  | unsupported what => cases h

theorem lead_eq (hv : v.isReadable = true) (hw : w.isReadable = true) {r s : List Char}
    (h : v.chars ++ r = w.chars ++ s) : v.lead = w.lead := by
  rw [← leadOf_chars hv r, h, leadOf_chars hw s]

/-- Values without values in them can be read back. -/
theorem told_plain (hv : v.isReadable = true) (hw : w.isReadable = true)
    (sign : v.lead ≠ .sign) (array : v.lead ≠ .array) :
    Told ValueKey.chars afterValue v w := by
  intro r s hr hs heq
  have hlead := lead_eq hv hw heq
  have is := describes_lead hv
  have is' := describes_lead hw
  rw [← hlead] at is'
  cases lead : v.lead <;> rw [lead] at is is'
  case sign => exact absurd lead sign
  case array => exact absurd lead array
  case char =>
    obtain ⟨c, rfl⟩ := is
    obtain ⟨d, rfl⟩ := is'
    obtain ⟨hchars, rfl⟩ := Constant.quoted_append_inj (.head _) heq
    exact ⟨by rw [List.singleton_inj.mp hchars], rfl⟩
  case string =>
    obtain ⟨c, rfl⟩ := is
    obtain ⟨d, rfl⟩ := is'
    obtain ⟨hchars, rfl⟩ := Constant.quoted_append_inj (.tail _ (.head _)) heq
    exact ⟨by rw [String.toList_inj.mp hchars], rfl⟩
  case marker =>
    obtain rfl := is
    obtain rfl := is'
    exact ⟨rfl, List.append_cancel_left heq⟩
  case number =>
    obtain ⟨c, p, rfl, hc⟩ := is
    obtain ⟨d, q, rfl, hd⟩ := is'
    obtain ⟨rfl, rfl⟩ := Constant.told_of_numeral hc hd hr hs heq
    exact ⟨rfl, rfl⟩
  case word => exact told_word hv hw lead (hlead ▸ lead) hr hs heq
  case nothing => cases is

/-! ## Lists of values -/

variable {vs ws : List ValueKey}

theorem told_separated {close : Char} (hclose : close ∈ afterValue) (hcomma : ',' ≠ close)
    (separator : List Char) (told : ∀ v ∈ vs, ∀ w ∈ ws, Told ValueKey.chars afterValue v w)
    (hv : vs ≠ []) (hw : ws ≠ []) {r s : List Char}
    (h : writeList ValueKey.chars (',' :: separator) vs ++ close :: r =
      writeList ValueKey.chars (',' :: separator) ws ++ close :: s) : vs = ws ∧ r = s := by
  have sub : [close] ⊆ afterValue := by simpa using hclose
  have toldList : Told (writeList ValueKey.chars (',' :: separator)) [close] vs ws :=
    told_writeList (.head _) sub (mt List.mem_singleton.mp hcomma) told hv hw
  obtain ⟨hvalues, hrest⟩ := toldList (follows_cons (.head _) r) (follows_cons (.head _) s) h
  exact ⟨hvalues, (List.cons.inj hrest).2⟩

theorem told_inBrackets (told : ∀ v ∈ vs, ∀ w ∈ ws, Told ValueKey.chars afterValue v w) :
    Told (fun values ↦ inBrackets (valueChars values)) afterValue vs ws := by
  intro r s hr hs h
  have bracketed (v : ValueKey) (rest : List ValueKey) (line : List Char) :
      inBrackets (valueChars (v :: rest)) ++ line =
        '(' :: (writeList ValueKey.chars [',', ' '] (v :: rest) ++ ')' :: line) := by
    simp [valueChars_eq_map, inBrackets, writeList]
  have noBracket {line rest : List Char} (hline : Follows afterValue line) :
      line ≠ '(' :: rest := by
    rintro rfl
    exact absurd hline.mem (by decide)
  dsimp only at h
  cases vs with
  | nil =>
    cases ws with
    | nil => exact ⟨rfl, h⟩
    | cons w ws => exact absurd (h.trans (bracketed w ws s)) (noBracket hr)
  | cons v vs =>
    cases ws with
    | nil => exact absurd (h.symm.trans (bracketed v vs r)) (noBracket hs)
    | cons w ws =>
      rw [bracketed, bracketed] at h
      exact told_separated (by decide) (by decide) [' '] told (List.cons_ne_nil _ _)
        (List.cons_ne_nil _ _) (List.cons.inj h).2

/-- No value starts with the bracket that closes a list of values. -/
theorem writeList_ne_close (hv : v.isReadable = true) (r s : List Char) :
    writeList ValueKey.chars [','] (v :: vs) ++ s ≠ '\x7d' :: r := by
  intro h
  have first : ∃ rest, writeList ValueKey.chars [','] (v :: vs) ++ s = v.chars ++ rest := by
    cases vs with
    | nil => exact ⟨s, by rw [writeList_singleton]⟩
    | cons w ws => exact ⟨_, by rw [writeList_cons_cons, List.append_assoc]⟩
  obtain ⟨rest, hrest⟩ := first
  have lead : v.lead = .nothing := by
    rw [← leadOf_chars hv rest, ← hrest, h]
    rfl
  have is := describes_lead hv
  rw [lead] at is
  exact is

theorem told_array (hvs : areReadable vs = true) (hws : areReadable ws = true)
    (told : ∀ v ∈ vs, ∀ w ∈ ws, Told ValueKey.chars afterValue v w) :
    Told ValueKey.chars afterValue (.array vs) (.array ws) := by
  intro r s hr hs h
  have braced (values : List ValueKey) (line : List Char) : (ValueKey.array values).chars ++ line =
      '\x7b' :: (writeList ValueKey.chars [','] values ++ '\x7d' :: line) := by
    simp [ValueKey.chars, valueChars_eq_map, writeList]
  rw [areReadable_iff] at hvs hws
  rw [braced, braced] at h
  have h := (List.cons.inj h).2
  cases vs with
  | nil =>
    cases ws with
    | nil => exact ⟨rfl, (List.cons.inj h).2⟩
    | cons w ws => exact absurd h.symm (writeList_ne_close (hws w (.head _)) _ _)
  | cons v vs =>
    cases ws with
    | nil => exact absurd h (writeList_ne_close (hvs v (.head _)) _ _)
    | cons w ws =>
      obtain ⟨hvalues, rfl⟩ := told_separated (by decide) (by decide) [] told
        (List.cons_ne_nil _ _) (List.cons_ne_nil _ _) h
      exact ⟨by rw [hvalues], rfl⟩

/-! ## Annotations -/

theorem keyword_inj {target target' : UseSiteTarget} (h : target.keyword = target'.keyword) :
    target = target' := by
  cases target <;> cases target' <;> first | rfl | simp [UseSiteTarget.keyword] at h

theorem unmarked_keyword (target : UseSiteTarget) : ∀ c ∈ target.keyword.toList, c ∉ nameMarks := by
  cases target <;> simp [UseSiteTarget.keyword, nameMarks]

/-- The word at the start of an annotation is its target if a colon comes next. -/
theorem told_target {target target' : Option UseSiteTarget} {name name' : String}
    (hname : isName name = true) (hname' : isName name' = true) {r s : List Char}
    (hr : Follows ('(' :: afterValue) r) (hs : Follows ('(' :: afterValue) s)
    (h : targetChars target ++ (name.toList ++ r) = targetChars target' ++ (name'.toList ++ s)) :
    target = target' ∧ name = name' ∧ r = s := by
  have sub : '(' :: afterValue ⊆ nameMarks := by decide
  have colon (line : List Char) : Follows nameMarks (':' :: line) := follows_cons (by decide) line
  have ne {target : UseSiteTarget} {name : String} {line rest : List Char}
      (hname : isName name = true) (hline : Follows ('(' :: afterValue) line) :
      name.toList ++ line ≠ targetChars (some target) ++ rest := by
    intro heq
    rw [targetChars, List.append_assoc, List.singleton_append] at heq
    obtain ⟨-, rfl⟩ := append_inj_of_unmarked (unmarked_of_isName hname) (unmarked_keyword target)
      (hline.mono sub) (colon rest) heq
    exact absurd hline.mem (by decide)
  have told : name.toList ++ r = name'.toList ++ s → name = name' ∧ r = s :=
    fun h ↦ told_of_isName sub hname hname' hr hs h
  cases target with
  | none =>
    cases target' with
    | none => exact ⟨rfl, told h⟩
    | some target' => exact absurd h (ne hname hr)
  | some target =>
    cases target' with
    | none => exact absurd h.symm (ne hname' hs)
    | some target' =>
      simp only [targetChars, List.append_assoc, List.singleton_append] at h
      obtain ⟨hword, hrest⟩ := append_inj_of_unmarked (unmarked_keyword target)
        (unmarked_keyword target') (colon _) (colon _) h
      obtain rfl := keyword_inj (String.toList_inj.mp hword)
      exact ⟨rfl, told (List.cons.inj hrest).2⟩

theorem follows_inBrackets (lines : List (List Char)) {r : List Char} (hr : Follows afterValue r) :
    Follows ('(' :: afterValue) (inBrackets lines ++ r) := by
  cases lines with
  | nil => exact hr.mono (List.subset_cons_self ..)
  | cons line rest => exact follows_cons (.head _) _

theorem told_application {target target' : Option UseSiteTarget} {name name' : String}
    (hname : isName name = true) (hname' : isName name' = true)
    (told : ∀ v ∈ vs, ∀ w ∈ ws, Told ValueKey.chars afterValue v w) :
    Told ApplicationKey.chars afterValue ⟨target, name, vs⟩ ⟨target', name', ws⟩ := by
  intro r s hr hs h
  simp only [ApplicationKey.chars, List.cons_append, List.append_assoc] at h
  obtain ⟨rfl, rfl, hrest⟩ := told_target hname hname' (follows_inBrackets _ hr)
    (follows_inBrackets _ hs) (List.cons.inj h).2
  obtain ⟨rfl, rfl⟩ := told_inBrackets told hr hs hrest
  exact ⟨rfl, rfl⟩

mutual

/-- Annotations are told from each other by their texts if their keys can be read back. -/
theorem ApplicationKey.told : ∀ a b : ApplicationKey, a.isReadable = true → b.isReadable = true →
    Told ApplicationKey.chars afterValue a b
  | ⟨target, name, values⟩, ⟨target', name', values'⟩, ha, hb => by
    rw [ApplicationKey.isReadable, Bool.and_eq_true] at ha hb
    exact told_application ha.1 hb.1 fun v hv w hw ↦
      told_values values ha.2 v hv w (areReadable_iff.mp hb.2 w hw)

/-- Values are told from each other by their texts if their keys can be read back. -/
theorem ValueKey.told : ∀ v w : ValueKey, v.isReadable = true → w.isReadable = true →
    Told ValueKey.chars afterValue v w
  | .nested a, w, hv, hw => by
    intro r s hr hs h
    have is := describes_lead hw
    rw [← lead_eq hv hw h] at is
    obtain ⟨b, rfl⟩ := is
    obtain ⟨rfl, rfl⟩ := a.told b hv hw hr hs h
    exact ⟨rfl, rfl⟩
  | .array values, w, hv, hw => by
    intro r s hr hs h
    have is := describes_lead hw
    rw [← lead_eq hv hw h] at is
    obtain ⟨values', rfl⟩ := is
    refine told_array hv hw (fun v hmem w hmem' ↦ ?_) hr hs h
    exact told_values values hv v hmem w (areReadable_iff.mp hw w hmem')
  | .constant c, w, hv, hw => by
    refine told_plain hv hw ?_ ?_ <;> cases c <;> nofun
  | .enumEntry entry, w, hv, hw => told_plain hv hw nofun nofun
  | .errorClass, w, hv, hw => told_plain hv hw nofun nofun
  | .localClass name, w, hv, hw => told_plain hv hw nofun nofun
  | .nonLocalClass id, w, hv, hw => told_plain hv hw nofun nofun
  | .unsupported what, w, hv, hw => told_plain hv hw nofun nofun

theorem told_values : ∀ values : List ValueKey, areReadable values = true →
    ∀ v ∈ values, ∀ w : ValueKey, w.isReadable = true → Told ValueKey.chars afterValue v w
  | [], _ => nofun
  | value :: rest, h => by
    rw [areReadable, Bool.and_eq_true] at h
    intro v hv w hw
    rcases List.mem_cons.mp hv with first | hv
    · exact first ▸ value.told w h.1 hw
    · exact told_values rest h.2 v hv w hw

end

/-- **Two annotations that can be read back have the same text exactly if they have the same
use-site target, the same short name and the same values in the same order**, where values are
compared by their keys: the names of arguments, the packages of annotation classes and whether a
class is local are not shown. -/
theorem Application.text_eq_text_iff (a b : Application) (ha : a.key.isReadable = true)
    (hb : b.key.isReadable = true) :
    a.text = b.text ↔ a.target = b.target ∧ a.classId.shortName = b.classId.shortName ∧
      a.arguments.map (·.value.key) = b.arguments.map (·.value.key) := by
  have keys : a.key = b.key ↔ a.target = b.target ∧
      a.classId.shortName = b.classId.shortName ∧
        a.arguments.map (·.value.key) = b.arguments.map (·.value.key) := by
    obtain ⟨classId, target, arguments⟩ := a
    obtain ⟨classId', target', arguments'⟩ := b
    simp [Application.key, argumentKeys_eq_map]
  obtain ⟨text, htext, hchars⟩ := a.text_of_isReadable ha
  obtain ⟨text', htext', hchars'⟩ := b.text_of_isReadable hb
  rw [← keys, htext, htext', Except.ok.injEq]
  constructor
  · rintro rfl
    have line : a.key.chars ++ [] = b.key.chars ++ [] := by rw [← hchars, ← hchars']
    exact (a.key.told b.key ha hb (follows_nil _) (follows_nil _) line).1
  · intro hkey
    rw [← String.toList_inj, hchars, hchars', hkey]

namespace Sample

/-- An annotation with values of most kinds, among them a text that looks like the end of a list of
arguments. -/
def marked (package argument : String) (isLocal : Bool) : Application :=
  ⟨.ofDotted package "Outer.Marked", some .field,
    [⟨argument, .constant (.string "1\", $)")⟩,
     ⟨argument, .array [.constant (.ubyte 1), .constant (.uint 1), .constant (.int (-1))]⟩,
     ⟨argument, .nested ⟨.ofDotted package "Inner", none, [⟨argument, .constant .null⟩]⟩⟩,
     ⟨argument, .enumEntry (.member ⟨["a"], ["E"], isLocal⟩ "X")⟩,
     ⟨argument, .nonLocalClass ⟨["a", "b"], ["C", "D"], isLocal⟩⟩,
     ⟨argument, .array []⟩]⟩

end Sample

/-- Packages, the names of arguments and the marks of local classes are not shown. -/
theorem Application.text_eq_text_iff_sample :
    (Sample.marked "p" "x" false).key.isReadable = true ∧
    (Sample.marked "q.r" "y" true).key.isReadable = true ∧
    (Sample.marked "p" "x" false).text = (Sample.marked "q.r" "y" true).text ∧
    (Sample.marked "p" "x" false).text =
      .ok ("@field:Marked(\"1\\\", \\$)\", \x7b1.toUByte(),1u,-1\x7d, @Inner(null), a/E.X, " ++
        "a/b/C.D::class, \x7b\x7d)") := by
  have readable : (Sample.marked "p" "x" false).key.isReadable = true := by decide +kernel
  have readable' : (Sample.marked "q.r" "y" true).key.isReadable = true := by decide +kernel
  refine ⟨readable, readable', ?_, by decide +kernel⟩
  exact (Application.text_eq_text_iff _ _ readable readable').mpr ⟨rfl, by decide +kernel, rfl⟩

end Annotations
end SymbolView
