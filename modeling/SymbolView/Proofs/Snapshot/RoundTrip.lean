import SymbolView.Proofs.Snapshot.Decoders

/-!
# Snapshots survive their JSON form

`Snapshot.ofJson?_toJson` says that the JSON text of a snapshot is read back as that very snapshot,
whatever texts are in it and however its fields are left out, as long as the text is not nested
deeper than the reader allows.
-/

set_option autoImplicit false

namespace SymbolView
namespace Snapshot

open Json Decoder

variable {α : Type}

/-! ## Parts of a snapshot -/

theorem reads_strings (l : List String) : Reads (list Decoder.text) (stringsToJson l) l :=
  reads_list fun s _ ↦ reads_text s

theorem reads_classId (id : ClassId) : Reads decodeClassId (classIdToJson id) id := by
  have package := (reads_strings id.package).required
  have relative := (reads_strings id.relative).required
  have isLocal := (reads_bool id.isLocal).required
  show Reads _ (.object (fieldsOf ["package", "relative", "local"]
    [some (stringsToJson id.package), some (stringsToJson id.relative), some (.bool id.isLocal)])) _
  refine reads_record (by decide) rfl ?_ (fun _ ↦ rfl) fun n hrecord ↦ ?_
  · simp only [List.forall_mem_cons]
    exact ⟨package.plain, relative.plain, isLocal.plain, nofun⟩
  · simp only [decodeClassId, hrecord, package.reads n, relative.reads n, isLocal.reads n,
      bind_ite_none, List.forall_mem_cons, ite_and]
    rfl

theorem reads_argument (a : Annotations.ProjectedArgument) :
    Reads decodeArgument (argumentToJson a) a := by
  have name := (reads_text a.name).required
  have value := (reads_text a.value).required
  show Reads _ (.object (fieldsOf ["name", "value"]
    [some (Json.text a.name), some (Json.text a.value)])) _
  refine reads_record (by decide) rfl ?_ (fun _ ↦ rfl) fun n hrecord ↦ ?_
  · simp only [List.forall_mem_cons]
    exact ⟨name.plain, value.plain, nofun⟩
  · simp only [decodeArgument, hrecord, name.reads n, value.reads n, bind_ite_none,
      List.forall_mem_cons, ite_and]
    rfl

/-- Something that is written as a text or else as null. -/
theorem readsField_optionToJson {read : Decoder α} {label : α → String}
    (h : ∀ a, Reads read (Json.text (label a)) a) (o : Option α) :
    ReadsField (Decoder.optional read) (some (optionToJson (o.map label))) o := by
  cases o with
  | none => exact readsField_optional_null
  | some a => exact (h a).optional nofun

theorem reads_target (t : UseSiteTarget) :
    Reads (word UseSiteTarget.all UseSiteTarget.label) (Json.text t.label) t :=
  reads_word (by cases t <;> decide)

theorem reads_projected (a : Annotations.Projected) :
    Reads decodeProjected (projectedToJson a) a := by
  have classId := (reads_classId a.classId).required
  have target := readsField_optionToJson reads_target a.target
  have arguments := (reads_list fun x (_ : x ∈ a.arguments) ↦ reads_argument x).required
  have rendered := (reads_text a.rendered).required
  show Reads _ (.object (fieldsOf ["annotation_type", "use_site_target", "arguments", "rendered"]
    [some (classIdToJson a.classId), some (optionToJson (a.target.map (·.label))),
      some (.array (a.arguments.map argumentToJson)), some (Json.text a.rendered)])) _
  refine reads_record (by decide) rfl ?_ (fun _ ↦ rfl) fun n hrecord ↦ ?_
  · simp only [List.forall_mem_cons]
    exact ⟨classId.plain, target.plain, arguments.plain, rendered.plain, nofun⟩
  · simp only [decodeProjected, hrecord, classId.reads n, target.reads n, arguments.reads n,
      rendered.reads n, bind_ite_none, List.forall_mem_cons, ite_and]
    rfl

theorem reads_place (path : String) (line : UInt32) : Reads decodePlace
    (.object [field "path" (Json.text path), field "line" (.natural line.toNat)])
    (.file path line) := by
  have hpath := (reads_text path).required
  have hline := (reads_nat32 line).required
  show Reads _ (.object (fieldsOf ["path", "line"]
    [some (Json.text path), some (.natural line.toNat)])) _
  refine reads_record (by decide) rfl ?_ (fun _ ↦ rfl) fun n hrecord ↦ ?_
  · simp only [List.forall_mem_cons]
    exact ⟨hpath.plain, hline.plain, nofun⟩
  · simp only [decodePlace, hrecord, hpath.reads n, hline.reads n, bind_ite_none,
      List.forall_mem_cons, ite_and]
    rfl

theorem reads_location (l : Location) : Reads decodeLocation (locationToJson l) l := by
  cases l with
  | nonExistent => exact reads_of_depth_eq_zero trivial rfl fun n ↦ by cases n <;> rfl
  | file path line =>
    have place := reads_place path line
    refine ⟨⟨place.plain, trivial⟩, fun n ↦ ?_⟩
    cases n with
    | zero => rfl
    | succ n =>
      refine (place.reads n).trans ?_
      simp only [locationToJson, Json.depth, depthFields, depthField, field, Nat.max_zero,
        Nat.add_le_add_iff_right]

/-! ## Snapshots -/

theorem toList_textField (name : String) (o : Option String) :
    ((o.map Json.text).map (field name)).toList = optionField name o := by
  cases o <;> rfl

theorem toList_listField (name : String) (items : List Json) :
    ((listValue items).map (field name)).toList = listField name items := by
  cases items <;> rfl

theorem encodeAll_eq_map (l : List Snapshot) : encodeAll l = l.map encode := by
  induction l with
  | nil => rfl
  | cons s l ih => rw [encodeAll, ih, List.map_cons]

/-- The values of the fields of a snapshot. -/
def fieldValues (s : Snapshot) : List (Option Json) :=
  [some (optionToJson s.name), s.qualifiedName.map Json.text, some (Json.text s.kind.label),
    some (Json.text s.origin.label), some (locationToJson s.location),
    listValue (s.modifiers.map fun m ↦ Json.text m.label), s.typeText.map Json.text,
    listValue (s.annotations.map projectedToJson), listValue (s.members.map encode)]

/-- What is left out of a snapshot are the fields without a value. -/
theorem encode_eq (s : Snapshot) : encode s = .object (fieldsOf fieldNames (fieldValues s)) := by
  cases s
  simp only [encode, fieldNames, fieldValues, fieldsOf_cons, toList_textField, toList_listField,
    encodeAll_eq_map]
  simp [fieldsOf]

theorem readsField_text (o : Option String) :
    ReadsField (Decoder.optional Decoder.text) (o.map Json.text) o := by
  cases o with
  | none => exact readsField_optional_none
  | some s => exact (reads_text s).optional nofun

theorem reads_modifiers (l : List Modifier) : Reads (list (word Modifier.all Modifier.label))
    (.array (l.map fun m ↦ Json.text m.label)) l :=
  reads_list fun m _ ↦ reads_word (by cases m <;> decide)

theorem reads_kind (k : DeclarationKind) :
    Reads (word DeclarationKind.all DeclarationKind.label) (Json.text k.label) k :=
  reads_word (by cases k <;> decide)

theorem reads_origin (o : Origin) : Reads (word Origin.all Origin.label) (Json.text o.label) o :=
  reads_word (by cases o <;> decide)

/-- A snapshot is read from the values of its fields. -/
theorem decode_of_record {n m : Nat} {j : Json}
    {name qualifiedName kind origin location modifiers typeText annotations members : Option Json}
    (h : record fieldNames (n + 1) j = some (m, [name, qualifiedName, kind, origin, location,
      modifiers, typeText, annotations, members])) :
    decode (n + 1) j = (do
      return {
        name := ← Decoder.optional Decoder.text n name
        qualifiedName := ← Decoder.optional Decoder.text n qualifiedName
        kind := ← required (word DeclarationKind.all DeclarationKind.label) n kind
        origin := ← required (word Origin.all Origin.label) n origin
        location := ← required decodeLocation n location
        modifiers := ← listed (list (word Modifier.all Modifier.label)) n modifiers
        typeText := ← Decoder.optional Decoder.text n typeText
        annotations := ← listed (list decodeProjected) n annotations
        members := ← listed (list decode) n members }) := by
  -- the equations of such a long match are slow to derive
  delta decode
  conv =>
    lhs
    whnf
    rw [h]
  cases members with
  | none => rfl
  | some j => cases j <;> cases n <;> rfl

/-- A snapshot is read back if its members are. -/
theorem reads_encode_of_members {s : Snapshot} (h : ∀ m ∈ s.members, Reads decode (encode m) m) :
    Reads decode (encode s) s := by
  have hname : ReadsField (Decoder.optional Decoder.text) (some (optionToJson s.name)) s.name := by
    simpa using readsField_optionToJson reads_text s.name
  have hqualified := readsField_text s.qualifiedName
  have hkind := (reads_kind s.kind).required
  have horigin := (reads_origin s.origin).required
  have hlocation := (reads_location s.location).required
  have hmodifiers := readsField_listed (reads_modifiers s.modifiers) List.map_eq_nil_iff.mp
  have htype := readsField_text s.typeText
  have hannotations := readsField_listed
    (reads_list fun a (_ : a ∈ s.annotations) ↦ reads_projected a) List.map_eq_nil_iff.mp
  have hmembers := readsField_listed (reads_list h) List.map_eq_nil_iff.mp
  rw [encode_eq]
  refine reads_record (by decide) rfl ?_ (fun _ ↦ rfl) fun n hrecord ↦ ?_
  · simp only [fieldValues, List.forall_mem_cons]
    exact ⟨hname.plain, hqualified.plain, hkind.plain, horigin.plain, hlocation.plain,
      hmodifiers.plain, htype.plain, hannotations.plain, hmembers.plain, nofun⟩
  · rw [decode_of_record hrecord]
    simp only [hname.reads n, hqualified.reads n, hkind.reads n, horigin.reads n, hlocation.reads n,
      hmodifiers.reads n, htype.reads n, hannotations.reads n, hmembers.reads n, bind_ite_none,
      fieldValues, List.forall_mem_cons, ite_and]
    cases s
    rfl

mutual

theorem reads_encode : ∀ s : Snapshot, Reads decode (encode s) s
  | ⟨_, _, _, _, _, _, _, _, members⟩ => reads_encode_of_members (reads_encodeAll members)

theorem reads_encodeAll : ∀ l : List Snapshot, ∀ s ∈ l, Reads decode (encode s) s
  | [], _, hs => nomatch hs
  | s :: rest, t, ht => by
    rcases List.mem_cons.mp ht with h | h
    · rw [h]
      exact reads_encode s
    · exact reads_encodeAll rest t h

end

/-- **A snapshot survives its JSON form.**  Only if it is nested too deep it is not read at all. -/
theorem ofJson?_toJson (s : Snapshot) :
    ofJson? s.toJson = if (encode s).depth ≤ maxDepth then some s else none := by
  have hread := reads_encode s
  rw [ofJson?, toJson, read?_print hread.plain]
  exact hread.reads maxDepth

end Snapshot
end SymbolView
