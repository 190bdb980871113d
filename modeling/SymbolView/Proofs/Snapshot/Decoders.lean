import Mathlib.Data.List.Nodup
import Mathlib.Data.Option.Basic
import SymbolView.Proofs.Json.RoundTrip
import SymbolView.Snapshot.Json

/-!
# Decoders undo what has been encoded

A decoder of snapshots is put together from smaller ones.  For each of the ways to do so this file
says when the result reads a JSON value back as what was encoded by it (`Snapshot.Reads`), provided
lists and objects are not nested deeper than the decoder allows (`Json.depth`).

A record is an object of which fields may be left out.  `Snapshot.fieldsOf` are its fields, for
given names and values, and `Snapshot.record_fieldsOf` finds the values again.
-/

set_option autoImplicit false

namespace SymbolView

/-! ## Depth -/

namespace Json

mutual

/-- How deep lists and objects are nested in a value. -/
def depth : Json → Nat
  | .array items => depthItems items + 1
  | .object fields => depthFields fields + 1
  | _ => 0

/-- How deep they are nested in values. -/
def depthItems : List Json → Nat
  | [] => 0
  | item :: rest => max (depth item) (depthItems rest)

/-- How deep they are nested in the value of a field. -/
def depthField : JsonField → Nat
  | ⟨_, value⟩ => depth value

/-- How deep they are nested in the values of fields. -/
def depthFields : List JsonField → Nat
  | [] => 0
  | field :: rest => max (depthField field) (depthFields rest)

end

variable {n : Nat}

theorem depthItems_le {items : List Json} : depthItems items ≤ n ↔ ∀ j ∈ items, j.depth ≤ n := by
  induction items with
  | nil => simp [depthItems]
  | cons item items ih => rw [depthItems, Nat.max_le, ih, List.forall_mem_cons]

theorem depthField_eq (field : JsonField) : depthField field = field.value.depth := by
  cases field
  rfl

theorem depthFields_le {fields : List JsonField} :
    depthFields fields ≤ n ↔ ∀ f ∈ fields, f.value.depth ≤ n := by
  induction fields with
  | nil => simp [depthFields]
  | cons field fields ih =>
    rw [depthFields, Nat.max_le, depthField_eq, ih, List.forall_mem_cons]

end Json

namespace Snapshot

open Json Decoder

variable {α β : Type}

/-! ## Values -/

/-- Whether a decoder reads a JSON value as something if it is not nested too deep, and the value
can be written. -/
structure Reads (read : Decoder α) (j : Json) (a : α) : Prop where
  /-- The value can be written. -/
  plain : j.Plain
  /-- It is read, unless it is nested too deep. -/
  reads : ∀ n, read n j = if j.depth ≤ n then some a else none

/-- What is not nested is always read. -/
theorem reads_of_depth_eq_zero {read : Decoder α} {j : Json} {a : α} (plain : j.Plain)
    (hj : j.depth = 0) (h : ∀ n, read n j = some a) : Reads read j a where
  plain := plain
  reads n := by rw [h n, hj, if_pos (Nat.zero_le n)]

theorem reads_text (s : String) : Reads Decoder.text (Json.text s) s :=
  reads_of_depth_eq_zero trivial rfl fun _ ↦ rfl

theorem reads_bool (b : Bool) : Reads Decoder.bool (.bool b) b :=
  reads_of_depth_eq_zero trivial rfl fun _ ↦ rfl

theorem reads_nat32 (n : UInt32) : Reads nat32 (.natural n.toNat) n := by
  refine reads_of_depth_eq_zero trivial rfl fun _ ↦ ?_
  rw [nat32, if_pos n.toNat_lt, UInt32.ofNat_toNat]

/-- A word is read back if it tells its case apart. -/
theorem reads_word {cases : List α} {label : α → String} {a : α}
    (h : cases.find? (label · == label a) = some a) :
    Reads (word cases label) (Json.text (label a)) a :=
  reads_of_depth_eq_zero trivial rfl fun _ ↦ h

/-- Where the first part of a computation succeeds on a condition, so does the whole. -/
theorem bind_ite_none (p : Prop) [Decidable p] (a : α) (f : α → Option β) :
    (if p then some a else none) >>= f = if p then f a else none := by
  by_cases hp : p
  · rw [if_pos hp, if_pos hp]
    rfl
  · rw [if_neg hp, if_neg hp]
    rfl

theorem mapM_map {read : β → Option α} {write : α → β} {p : β → Prop} [DecidablePred p] {l : List α}
    (h : ∀ a ∈ l, read (write a) = if p (write a) then some a else none) :
    (l.map write).mapM read = if ∀ b ∈ l.map write, p b then some l else none := by
  induction l with
  | nil => rfl
  | cons a l ih =>
    rw [List.map_cons, List.mapM_cons, h a List.mem_cons_self,
      ih fun b hb ↦ h b (List.mem_cons_of_mem a hb), bind_ite_none, bind_ite_none]
    simp only [List.forall_mem_cons, ite_and]
    rfl

theorem reads_list {item : Decoder α} {write : α → Json} {l : List α}
    (h : ∀ a ∈ l, Reads item (write a) a) : Reads (list item) (.array (l.map write)) l where
  plain := by
    refine plainItems_iff.mpr fun j hj ↦ ?_
    obtain ⟨a, ha, rfl⟩ := List.mem_map.mp hj
    exact (h a ha).plain
  reads := by
    intro n
    cases n with
    | zero => rfl
    | succ n =>
      rw [list, mapM_map (p := (Json.depth · ≤ n)) fun a ha ↦ (h a ha).reads n]
      simp only [Json.depth, Nat.add_le_add_iff_right, depthItems_le]

/-! ## Fields -/

/-- Whether what reads a field of a record reads a value, or the lack of one, as something. -/
structure ReadsField (read : Nat → Option Json → Option α) (value : Option Json) (a : α) :
    Prop where
  /-- The value can be written. -/
  plain : ∀ j ∈ value, j.Plain
  /-- It is read, unless it is nested too deep. -/
  reads : ∀ n, read n value = if ∀ j ∈ value, j.depth ≤ n then some a else none

variable {read : Decoder α} {j : Json} {a : α}

theorem Reads.required (h : Reads read j a) : ReadsField (required read) (some j) a where
  plain := by simpa using h.plain
  reads n := by
    rw [Decoder.required, h.reads n]
    simp only [Option.mem_some_iff, forall_eq']

theorem readsField_optional_none : ReadsField (Decoder.optional read) none none :=
  ⟨by simp, fun n ↦ by simp [Decoder.optional]⟩

theorem readsField_optional_null : ReadsField (Decoder.optional read) (some .null) none :=
  ⟨by simp [Plain], fun n ↦ by simp [Decoder.optional, Json.depth]⟩

theorem Reads.optional (h : Reads read j a) (hj : j ≠ .null) :
    ReadsField (Decoder.optional read) (some j) (some a) where
  plain := by simpa using h.plain
  reads n := by
    rw [Decoder.optional]
    · rw [h.reads n]
      simp only [Option.mem_some_iff, forall_eq']
      by_cases hn : j.depth ≤ n
      · rw [if_pos hn, if_pos hn]
        rfl
      · rw [if_neg hn, if_neg hn]
        rfl
    · rintro rfl
      exact hj rfl

/-- The value of a field that is left out if its list is empty. -/
def listValue : List Json → Option Json
  | [] => none
  | items => some (.array items)

theorem readsField_listed {item : Decoder α} {items : List Json} {l : List α}
    (h : Reads (list item) (.array items) l) (hnil : items = [] → l = []) :
    ReadsField (listed (list item)) (listValue items) l := by
  cases items with
  | nil =>
    rw [hnil rfl]
    exact ⟨by simp [listValue], fun n ↦ by simp [listValue, listed]⟩
  | cons item items => exact ⟨h.required.plain, h.required.reads⟩

/-! ## Records -/

/-- The fields of a record, those that are left out being none. -/
def fieldsOf (names : List String) (values : List (Option Json)) : List JsonField :=
  (names.zip values).filterMap fun p ↦ p.2.map (field p.1)

section Records

variable {names : List String} {values : List (Option Json)} {n : Nat}

theorem mem_fieldsOf {f : JsonField} :
    f ∈ fieldsOf names values ↔ ∃ p ∈ names.zip values, ∃ j ∈ p.2, field p.1 j = f := by
  simp [fieldsOf, List.mem_filterMap]

theorem fieldsOf_cons (name : String) (names : List String) (value : Option Json)
    (values : List (Option Json)) : fieldsOf (name :: names) (value :: values) =
      (value.map (field name)).toList ++ fieldsOf names values := by
  cases value <;> rfl

theorem key_fieldsOf (names : List String) :
    ∀ values, ((fieldsOf names values).map (·.key)).Sublist (names.map some) := by
  induction names with
  | nil => exact fun _ ↦ .slnil
  | cons name names ih =>
    intro values
    cases values with
    | nil => exact List.nil_sublist _
    | cons value values =>
      cases value with
      | none => exact (ih values).cons _
      | some j => exact (ih values).cons_cons _

theorem nodup_key_fieldsOf (hnames : names.Nodup) (values : List (Option Json)) :
    ((fieldsOf names values).map (·.key)).Nodup :=
  (key_fieldsOf names values).nodup (hnames.map (Option.some_injective _))

theorem isWellNamed_fieldsOf (hnames : names.Nodup) :
    isWellNamed names (fieldsOf names values) = true := by
  rw [isWellNamed, Bool.and_eq_true, List.all_eq_true, List.all_eq_true]
  refine ⟨fun f hf ↦ ?_, fun name _ ↦ ?_⟩
  · obtain ⟨p, -, j, -, rfl⟩ := mem_fieldsOf.mp hf
    rfl
  · have hcount := List.nodup_iff_count_le_one.mp (nodup_key_fieldsOf hnames values) (some name)
    rw [List.count_eq_countP, List.countP_map, List.countP_eq_length_filter] at hcount
    exact decide_eq_true hcount

/-- The value of a field is found under its name. -/
theorem find?_fieldsOf (hnames : names.Nodup) (hlen : names.length = values.length)
    {p : String × Option Json} (hp : p ∈ names.zip values) :
    ((fieldsOf names values).find? (·.key == some p.1)).map (·.value) = p.2 := by
  have hfst : ((names.zip values).map Prod.fst).Nodup := by
    rwa [List.map_fst_zip (Nat.le_of_eq hlen)]
  obtain ⟨name, value⟩ := p
  cases hf : (fieldsOf names values).find? (·.key == some name) with
  | some f =>
    obtain ⟨q, hq, j, hj, rfl⟩ := mem_fieldsOf.mp (List.mem_of_find?_eq_some hf)
    have hkey : (field q.1 j).key = some name := by simpa using List.find?_some hf
    rw [List.inj_on_of_nodup_map hfst hq hp (Option.some_inj.mp hkey)] at hj
    exact hj.symm
  | none =>
    cases value with
    | none => rfl
    | some j =>
      have hmem := mem_fieldsOf.mpr ⟨(name, some j), hp, j, rfl, rfl⟩
      exact absurd (beq_self_eq_true _) (List.find?_eq_none.mp hf _ hmem)

theorem record_fieldsOf (hnames : names.Nodup) (hlen : names.length = values.length) (n : Nat) :
    record names (n + 1) (.object (fieldsOf names values)) = some (n, values) := by
  rw [record, if_pos (isWellNamed_fieldsOf hnames)]
  congr 2
  calc names.map _
      = ((names.zip values).map Prod.fst).map _ := by rw [List.map_fst_zip (Nat.le_of_eq hlen)]
    _ = (names.zip values).map Prod.snd := by
      rw [List.map_map]
      exact List.map_congr_left fun p hp ↦ find?_fieldsOf hnames hlen hp
    _ = values := List.map_snd_zip (Nat.le_of_eq hlen.symm)

theorem plain_fieldsOf (h : ∀ v ∈ values, ∀ j ∈ v, j.Plain) :
    (Json.object (fieldsOf names values)).Plain := by
  refine plainFields_iff.mpr fun f hf ↦ ?_
  obtain ⟨p, hp, j, hj, rfl⟩ := mem_fieldsOf.mp hf
  exact h p.2 (List.of_mem_zip hp).2 j hj

theorem depth_fieldsOf (hlen : names.length = values.length) :
    (Json.object (fieldsOf names values)).depth ≤ n + 1 ↔ ∀ v ∈ values, ∀ j ∈ v, j.depth ≤ n := by
  rw [Json.depth, Nat.add_le_add_iff_right, depthFields_le]
  refine ⟨fun h v hv j hj ↦ ?_, fun h f hf ↦ ?_⟩
  · rw [← List.map_snd_zip (Nat.le_of_eq hlen.symm)] at hv
    obtain ⟨p, hp, rfl⟩ := List.mem_map.mp hv
    exact h _ (mem_fieldsOf.mpr ⟨p, hp, j, hj, rfl⟩)
  · obtain ⟨p, hp, j, hj, rfl⟩ := mem_fieldsOf.mp hf
    exact h p.2 (List.of_mem_zip hp).2 j hj

/-- **A record is read back** by what reads its fields back. -/
theorem reads_record (hnames : names.Nodup) (hlen : names.length = values.length)
    (hplain : ∀ v ∈ values, ∀ j ∈ v, j.Plain) (hzero : ∀ fields, read 0 (.object fields) = none)
    (h : ∀ n, record names (n + 1) (.object (fieldsOf names values)) = some (n, values) →
      read (n + 1) (.object (fieldsOf names values)) =
        if ∀ v ∈ values, ∀ j ∈ v, j.depth ≤ n then some a else none) :
    Reads read (.object (fieldsOf names values)) a where
  plain := plain_fieldsOf hplain
  reads := by
    intro n
    cases n with
    | zero => exact hzero _
    | succ n =>
      rw [h n (record_fieldsOf hnames hlen n)]
      simp only [depth_fieldsOf hlen]

end Records

end Snapshot
end SymbolView
