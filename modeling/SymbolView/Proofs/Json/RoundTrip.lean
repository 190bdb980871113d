import SymbolView.Proofs.Json.Literals

/-!
# JSON texts are read back

`Json.read?_print` says that a value which has been written is read back as it was.  There is one
exception: a number in any other notation than digits alone is written as it stands, and may be
anything, so the theorem is about values without such numbers (`Json.Plain`).

The reader takes a value off the front of a text and leaves the rest, so what is proved by induction
on the value is about texts that go on (`Json.value?_printAt`), and there is one such theorem for
each of the four functions of the reader.  Its fuel is enough if it exceeds the length of what is to
be read.
-/

set_option autoImplicit false

namespace SymbolView
namespace Json

variable {c : Char} {cs rest : List Char} {fuel level : Nat}

/-! ## Plain values -/

mutual

/-- Whether all numbers in a value are written with digits alone. -/
def Plain : Json → Prop
  | .number _ => False
  | .array items => PlainItems items
  | .object fields => PlainFields fields
  | _ => True

/-- Whether values are plain. -/
def PlainItems : List Json → Prop
  | [] => True
  | item :: rest => Plain item ∧ PlainItems rest

/-- Whether the value of a field is plain. -/
def PlainField : JsonField → Prop
  | ⟨_, value⟩ => Plain value

/-- Whether the values of fields are plain. -/
def PlainFields : List JsonField → Prop
  | [] => True
  | field :: rest => PlainField field ∧ PlainFields rest

end

theorem plainItems_iff {items : List Json} : PlainItems items ↔ ∀ j ∈ items, j.Plain := by
  induction items with
  | nil => simp [PlainItems]
  | cons item items ih => simp [PlainItems, ih]

theorem plainField_iff {field : JsonField} : PlainField field ↔ field.value.Plain := by
  cases field
  rfl

theorem plainFields_iff {fields : List JsonField} :
    PlainFields fields ↔ ∀ f ∈ fields, f.value.Plain := by
  induction fields with
  | nil => simp [PlainFields]
  | cons field fields ih => simp [PlainFields, plainField_iff, ih]

/-! ## Blanks -/

theorem skipSpace_cons (h : isSpace c = false) (cs : List Char) : skipSpace (c :: cs) = c :: cs :=
  List.dropWhile_cons_of_neg (by rw [h]; simp)

theorem skipSpace_lineBreak (level : Nat) (cs : List Char) :
    skipSpace (lineBreak level ++ cs) = skipSpace cs := by
  have hblank : ∀ c ∈ lineBreak level, isSpace c = true := by
    intro c hc
    rcases List.mem_cons.mp hc with rfl | hc
    · rfl
    · rw [List.eq_of_mem_replicate hc]
      rfl
  rw [skipSpace, List.dropWhile_append_of_pos hblank, skipSpace]

theorem value?_lineBreak (fuel level : Nat) (cs : List Char) :
    value? fuel (lineBreak level ++ cs) = value? fuel cs := by
  cases fuel with
  | zero => rfl
  | succ fuel => rw [value?, value?, skipSpace_lineBreak]

theorem field?_lineBreak (fuel level : Nat) (cs : List Char) :
    field? fuel (lineBreak level ++ cs) = field? fuel cs := by
  cases fuel with
  | zero => rfl
  | succ fuel => rw [field?, field?, skipSpace_lineBreak]

theorem value?_blank (fuel : Nat) (cs : List Char) : value? fuel (' ' :: cs) = value? fuel cs := by
  cases fuel with
  | zero => rfl
  | succ fuel => rw [value?, value?, show skipSpace (' ' :: cs) = skipSpace cs from rfl]

/-! ## What the reader does at the first character -/

theorem isSpace_of_isDigit (h : c.isDigit = true) : isSpace c = false := by
  rw [Bool.eq_false_iff]
  intro hc
  simp only [isSpace, Bool.or_eq_true, beq_iff_eq] at hc
  obtain ((rfl | rfl) | rfl) | rfl := hc <;> exact absurd h (by decide)

/-- What begins with a digit is a number. -/
theorem value?_digit (h : c.isDigit = true) (fuel : Nat) (cs : List Char) :
    value? (fuel + 1) (c :: cs) = number? (c :: cs) := by
  rw [value?, skipSpace_cons (isSpace_of_isDigit h)]
  split
  case h_7 => rfl
  all_goals
    next hc =>
      cases hc
      exact absurd h (by decide)

theorem value?_natural (n : Nat) (hrest : EndsNumber rest) :
    value? (fuel + 1) (Nat.toDigits 10 n ++ rest) = some (.natural n, rest) := by
  rw [← number?_toDigits n hrest]
  cases hd : Nat.toDigits 10 n with
  | nil => exact absurd hd Nat.toDigits_ne_nil
  | cons d ds =>
    have hdigit : d.isDigit = true :=
      Nat.isDigit_of_mem_toDigits (by decide) (by decide) (hd ▸ List.mem_cons_self)
    exact value?_digit hdigit fuel (ds ++ rest)

theorem value?_string (content : Option String) (rest : List Char) :
    value? (fuel + 1) (quote content ++ rest) = some (.string content, rest) := by
  obtain ⟨body, hbody, hread⟩ := stringLiteral?_quote content rest
  rw [hbody, value?, skipSpace_cons rfl]
  simp only [hread, Option.bind_eq_bind, Option.bind_some]
  rfl

/-- A list that does not end at once. -/
theorem value?_array (h : ∀ after, skipSpace cs ≠ ']' :: after) :
    value? (fuel + 1) ('[' :: cs) = do
      let (item, rest) ← value? fuel cs
      let (items, after) ← items? fuel rest
      return (.array (item :: items), after) := by
  -- the hypothesis rules the first case of the inner match out
  simp only [value?, skipSpace_cons (c := '[') rfl]

/-- An object that does not end at once. -/
theorem value?_object (h : ∀ after, skipSpace cs ≠ '\x7d' :: after) :
    value? (fuel + 1) ('\x7b' :: cs) = do
      let (field, rest) ← field? fuel cs
      let (fields, after) ← fields? fuel rest
      return (.object (field :: fields), after) := by
  simp only [value?, skipSpace_cons (c := '\x7b') rfl]

/-- The text of a value begins with a character that is no blank and closes no list. -/
theorem printAt_begins (level : Nat) (j : Json) (hj : j.Plain) :
    ∃ c cs, printAt level j = c :: cs ∧ isSpace c = false ∧ c ≠ ']' := by
  cases j with
  | null => exact ⟨'n', _, rfl, rfl, by decide⟩
  | bool b => cases b <;> exact ⟨_, _, rfl, rfl, by decide⟩
  | natural n =>
    cases hd : Nat.toDigits 10 n with
    | nil => exact absurd hd Nat.toDigits_ne_nil
    | cons d ds =>
      have hdigit : d.isDigit = true :=
        Nat.isDigit_of_mem_toDigits (by decide) (by decide) (hd ▸ List.mem_cons_self)
      refine ⟨d, ds, hd, isSpace_of_isDigit hdigit, ?_⟩
      rintro rfl
      exact absurd hdigit (by decide)
  | number literal => exact hj.elim
  | string content =>
    obtain ⟨body, hbody, -⟩ := stringLiteral?_quote content []
    rw [List.append_nil] at hbody
    exact ⟨_, body, hbody, rfl, by decide⟩
  | array items => cases items <;> exact ⟨'[', _, rfl, rfl, by decide⟩
  | object fields => cases fields <;> exact ⟨'\x7b', _, rfl, rfl, by decide⟩

/-! ## Reading what has been written -/

theorem endsNumber_printItems (level outer : Nat) (items : List Json) (rest : List Char) :
    EndsNumber (printItems level items ++ (lineBreak outer ++ rest)) := by
  cases items <;> exact ⟨rfl, by decide, by decide, by decide⟩

theorem endsNumber_printFields (level outer : Nat) (fields : List JsonField) (rest : List Char) :
    EndsNumber (printFields level fields ++ (lineBreak outer ++ rest)) := by
  cases fields <;> exact ⟨rfl, by decide, by decide, by decide⟩

theorem skipSpace_printAt (level : Nat) {j : Json} (hj : j.Plain) (rest after : List Char) :
    skipSpace (printAt level j ++ rest) ≠ ']' :: after := by
  obtain ⟨c, cs, hprint, hspace, hc⟩ := printAt_begins level j hj
  rw [hprint, List.cons_append, skipSpace_cons hspace]
  exact fun h ↦ hc (List.cons.inj h).1

theorem skipSpace_printField (level : Nat) (field : JsonField) (rest after : List Char) :
    skipSpace (printField level field ++ rest) ≠ '\x7d' :: after := by
  obtain ⟨key, value⟩ := field
  obtain ⟨body, hbody, -⟩ := stringLiteral?_quote key (':' :: ' ' :: printAt level value ++ rest)
  rw [printField, List.append_assoc, hbody, skipSpace_cons rfl]
  exact fun h ↦ absurd (List.cons.inj h).1 (by decide)

mutual

/-- **A value is read back**, whatever follows. -/
theorem value?_printAt : ∀ (j : Json) (level fuel : Nat) (rest : List Char), j.Plain →
    (printAt level j).length < fuel → EndsNumber rest →
    value? fuel (printAt level j ++ rest) = some (j, rest)
  | _, _, 0, _, _, hfuel, _ => absurd hfuel (Nat.not_lt_zero _)
  | .null, _, fuel + 1, _, _, _, _ => rfl
  | .bool true, _, fuel + 1, _, _, _, _ => rfl
  | .bool false, _, fuel + 1, _, _, _, _ => rfl
  | .natural n, _, fuel + 1, _, _, _, hrest => value?_natural n hrest
  | .number _, _, _, _, hj, _, _ => hj.elim
  | .string content, _, fuel + 1, rest, _, _, _ => value?_string content rest
  | .array [], _, fuel + 1, _, _, _, _ => rfl
  | .array (item :: items), level, fuel + 1, rest, hj, hfuel, _ => by
    obtain ⟨hitem, hitems⟩ := hj
    simp only [printAt, List.length_cons, List.length_append] at hfuel
    have hread := value?_printAt item (level + 1) fuel
      (printItems (level + 1) items ++ (lineBreak level ++ ']' :: rest)) hitem (by omega)
      (endsNumber_printItems _ _ _ _)
    have hrest := items?_printItems items (level + 1) level fuel rest hitems (by omega)
    simp only [printAt, List.cons_append, List.append_assoc, List.nil_append]
    rw [value?_array, value?_lineBreak, hread]
    · show (do let (items, after) ← items? fuel _; return (Json.array (item :: items), after)) = _
      rw [hrest]
      rfl
    · intro after
      rw [skipSpace_lineBreak]
      exact skipSpace_printAt _ hitem _ after
  | .object [], _, fuel + 1, _, _, _, _ => rfl
  | .object (field :: fields), level, fuel + 1, rest, hj, hfuel, _ => by
    obtain ⟨hfield, hfields⟩ := hj
    simp only [printAt, List.length_cons, List.length_append] at hfuel
    have hread := field?_printField field (level + 1) fuel
      (printFields (level + 1) fields ++ (lineBreak level ++ '\x7d' :: rest)) hfield (by omega)
      (endsNumber_printFields _ _ _ _)
    have hrest := fields?_printFields fields (level + 1) level fuel rest hfields (by omega)
    simp only [printAt, List.cons_append, List.append_assoc, List.nil_append]
    rw [value?_object, field?_lineBreak, hread]
    · show (do
        let (fields, after) ← fields? fuel _
        return (Json.object (field :: fields), after)) = _
      rw [hrest]
      rfl
    · intro after
      rw [skipSpace_lineBreak]
      exact skipSpace_printField _ field _ after

/-- The items of a list after the first are read back. -/
theorem items?_printItems : ∀ (items : List Json) (level outer fuel : Nat) (rest : List Char),
    PlainItems items → (printItems level items).length < fuel →
    items? fuel (printItems level items ++ (lineBreak outer ++ ']' :: rest)) = some (items, rest)
  | _, _, _, 0, _, _, hfuel => absurd hfuel (Nat.not_lt_zero _)
  | [], _, outer, fuel + 1, rest, _, _ => by
    rw [printItems, List.nil_append, items?, skipSpace_lineBreak, skipSpace_cons rfl]
    rfl
  | item :: items, level, outer, fuel + 1, rest, ⟨hitem, hitems⟩, hfuel => by
    simp only [printItems, List.length_cons, List.length_append] at hfuel
    have hread := value?_printAt item level fuel
      (printItems level items ++ (lineBreak outer ++ ']' :: rest)) hitem (by omega)
      (endsNumber_printItems _ _ _ _)
    have hrest := items?_printItems items level outer fuel rest hitems (by omega)
    simp only [printItems, List.cons_append, List.append_assoc]
    rw [items?, skipSpace_cons rfl]
    show (do
      let (item, rest) ← value? fuel _
      let (items, after) ← items? fuel rest
      return (item :: items, after)) = _
    rw [value?_lineBreak, hread]
    show (do let (items, after) ← items? fuel _; return (item :: items, after)) = _
    rw [hrest]
    rfl

/-- A field is read back. -/
theorem field?_printField : ∀ (field : JsonField) (level fuel : Nat) (rest : List Char),
    PlainField field → (printField level field).length < fuel → EndsNumber rest →
    field? fuel (printField level field ++ rest) = some (field, rest)
  | _, _, 0, _, _, hfuel, _ => absurd hfuel (Nat.not_lt_zero _)
  | ⟨key, value⟩, level, fuel + 1, rest, hvalue, hfuel, hends => by
    simp only [printField, List.length_cons, List.length_append] at hfuel
    have hread := value?_printAt value level fuel rest hvalue (by omega) hends
    obtain ⟨body, hbody, hkey⟩ :=
      stringLiteral?_quote key (':' :: ' ' :: (printAt level value ++ rest))
    simp only [printField, List.cons_append, List.append_assoc]
    rw [hbody, field?, skipSpace_cons rfl]
    show (do
      let (key, rest) ← stringLiteral? body
      match skipSpace rest with
      | ':' :: rest => do
        let (value, after) ← value? fuel rest
        return ((⟨key, value⟩ : JsonField), after)
      | _ => none) = _
    rw [hkey]
    show (do let (value, after) ← value? fuel _; return ((⟨key, value⟩ : JsonField), after)) = _
    rw [value?_blank, hread]
    rfl

/-- The fields of an object after the first are read back. -/
theorem fields?_printFields :
    ∀ (fields : List JsonField) (level outer fuel : Nat) (rest : List Char),
    PlainFields fields → (printFields level fields).length < fuel →
    fields? fuel (printFields level fields ++ (lineBreak outer ++ '\x7d' :: rest)) =
      some (fields, rest)
  | _, _, _, 0, _, _, hfuel => absurd hfuel (Nat.not_lt_zero _)
  | [], _, outer, fuel + 1, rest, _, _ => by
    rw [printFields, List.nil_append, fields?, skipSpace_lineBreak, skipSpace_cons rfl]
    rfl
  | field :: fields, level, outer, fuel + 1, rest, ⟨hfield, hfields⟩, hfuel => by
    simp only [printFields, List.length_cons, List.length_append] at hfuel
    have hread := field?_printField field level fuel
      (printFields level fields ++ (lineBreak outer ++ '\x7d' :: rest)) hfield (by omega)
      (endsNumber_printFields _ _ _ _)
    have hrest := fields?_printFields fields level outer fuel rest hfields (by omega)
    simp only [printFields, List.cons_append, List.append_assoc]
    rw [fields?, skipSpace_cons rfl]
    show (do
      let (field, rest) ← field? fuel _
      let (fields, after) ← fields? fuel rest
      return (field :: fields, after)) = _
    rw [field?_lineBreak, hread]
    show (do let (fields, after) ← fields? fuel _; return (field :: fields, after)) = _
    rw [hrest]
    rfl

end

/-- **What has been written is read back.** -/
theorem read?_print {j : Json} (hj : j.Plain) : read? j.print = some j := by
  have hread := value?_printAt j 0 ((printAt 0 j).length + 1) [] hj (Nat.lt_succ_self _) trivial
  rw [List.append_nil] at hread
  rw [read?, print, String.toList_ofList]
  simp only [Option.bind_eq_bind, hread, Option.bind_some]
  rfl

end Json
end SymbolView
