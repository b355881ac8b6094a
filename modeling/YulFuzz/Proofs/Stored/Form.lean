/-
Module: YulFuzz.Proofs.Stored.Form
Purpose: The forms in which data are stored, without the types of the data: names, variants with a payload, lists,
  and records whose fields may have a default. A form has one encoding and many spellings: records are objects or
  arrays, fields at their default may be missing, and names may be keys of a null. The containers that are open
  at once are counted in a whole value, and along the parts of a spelling that a reader looks into.
Main exports: Corpus.Form, Corpus.Form.encode, Corpus.Form.Spelled, Corpus.Form.depthOn, Corpus.Form.Fits,
  Corpus.Form.Sound, Json.depth
-/
import YulFuzz.Proofs.Json.Record
import YulFuzz.Proofs.Json.Text

namespace YulFuzz

/-! ### Containers that are open at once -/

namespace Json

mutual

/-- The largest number of containers that are open at once in a value. -/
def depth : Json → Nat
  | .array items => itemsDepth items + 1
  | .object members => membersDepth members + 1
  | _ => 0

/-- The largest number of containers that are open at once in one of the items. -/
def itemsDepth : List Json → Nat
  | [] => 0
  | item :: rest => max item.depth (itemsDepth rest)

/-- The largest number of containers that are open at once in the value of one of the members. -/
def membersDepth : List (Option String × Json) → Nat
  | [] => 0
  | (_, value) :: rest => max value.depth (membersDepth rest)

end

theorem depth_array_le {items : List Json} {n : Nat} :
    (array items).depth ≤ n ↔ ∃ m, n = m + 1 ∧ ∀ item ∈ items, item.depth ≤ m := by
  have each (m : Nat) : itemsDepth items ≤ m ↔ ∀ item ∈ items, item.depth ≤ m := by
    induction items with
    | nil => simp [itemsDepth]
    | cons item rest ih => rw [itemsDepth, Nat.max_le, ih, List.forall_mem_cons]
  rw [depth]
  cases n with
  | zero => simp
  | succ m => simp [each]

theorem depth_object_le {members : List (Option String × Json)} {n : Nat} :
    (object members).depth ≤ n ↔ ∃ m, n = m + 1 ∧ ∀ member ∈ members, member.2.depth ≤ m := by
  have each (m : Nat) : membersDepth members ≤ m ↔ ∀ member ∈ members, member.2.depth ≤ m := by
    induction members with
    | nil => simp [membersDepth]
    | cons member rest ih => rw [membersDepth, Nat.max_le, ih, List.forall_mem_cons]
  rw [depth]
  cases n with
  | zero => simp
  | succ m => simp [each]

end Json

namespace Corpus

open Json (fields? member? text)

/-! ### Forms -/

/-- How a field stands to its default. -/
inductive Presence where
  /-- There is no default. -/
  | required
  /-- There is a default, and the value is another one. -/
  | given
  /-- The value is the default. -/
  | default
deriving DecidableEq

/-- A value that has one spelling and opens no container. -/
inductive Leaf where
  | null
  | natural (value : Nat)
  | text (value : String)

/-- The value itself. -/
def Leaf.encode : Leaf → Json
  | .null => .null
  | .natural value => .natural value
  | .text value => Json.text value

mutual

/-- The form in which something is stored. -/
inductive Form where
  | leaf (leaf : Leaf)
  /-- A variant without payload. -/
  | unit (name : String)
  /-- A variant with a payload. -/
  | tagged (name : String) (payload : Form)
  | list (items : List Form)
  | record (fields : List Field)

/-- A field of a record. -/
structure Field where
  name : String
  presence : Presence
  value : Form

end

/-- A field without default. -/
def Field.required (name : String) (value : Form) : Field := ⟨name, .required, value⟩

/-- A field that has a default. -/
def Field.optional (name : String) (isDefault : Bool) (value : Form) : Field :=
  ⟨name, if isDefault then .default else .given, value⟩

@[simp]
theorem Field.name_required (name : String) (value : Form) : (Field.required name value).name = name := rfl

@[simp]
theorem Field.name_optional (name : String) (isDefault : Bool) (value : Form) :
    (Field.optional name isDefault value).name = name := rfl

namespace Form

/-- What holds of a form if it holds of its parts holds of every form. -/
theorem induction {motive : Form → Prop} (leaf : ∀ l, motive (.leaf l)) (unit : ∀ name, motive (.unit name))
    (tagged : ∀ name payload, motive payload → motive (.tagged name payload))
    (list : ∀ items, (∀ item ∈ items, motive item) → motive (.list items))
    (record : ∀ fields, (∀ field ∈ fields, motive field.value) → motive (.record fields)) (form : Form) :
    motive form :=
  @Form.rec motive (fun field => motive field.value) (fun items => ∀ item ∈ items, motive item)
    (fun fields => ∀ field ∈ fields, motive field.value) leaf unit tagged list record (fun _ _ _ here => here)
    nofun (fun _ _ here there => List.forall_mem_cons.2 ⟨here, there⟩)
    nofun (fun _ _ here there => List.forall_mem_cons.2 ⟨here, there⟩) form

/-- The payload of a variant. -/
def payload : Form → Form
  | .tagged _ payload => payload
  | form => form

/-! ### The encoding -/

mutual

/-- The encoding of a form: every field is present, in its place, and names are bare. -/
def encode : Form → Json
  | .leaf l => l.encode
  | .unit name => text name
  | .tagged name payload => Json.record [(name, payload.encode)]
  | .list items => .array (encodeItems items)
  | .record fields => Json.record (encodeFields fields)

/-- The encodings of the items of a list. -/
def encodeItems : List Form → List Json
  | [] => []
  | item :: rest => item.encode :: encodeItems rest

/-- The encodings of the fields of a record. -/
def encodeFields : List Field → List (String × Json)
  | [] => []
  | ⟨name, _, value⟩ :: rest => (name, value.encode) :: encodeFields rest

end

theorem encodeItems_eq_map (items : List Form) : encodeItems items = items.map encode := by
  induction items with
  | nil => rfl
  | cons item rest ih => rw [encodeItems, List.map_cons, ih]

theorem encodeFields_eq_map (fields : List Field) :
    encodeFields fields = fields.map fun field => (field.name, field.value.encode) := by
  induction fields with
  | nil => rfl
  | cons field rest ih =>
      obtain ⟨name, presence, value⟩ := field
      rw [encodeFields, List.map_cons, ih]

/-! ### The spellings -/

mutual

/-- The value spells the form. -/
def Spelled : Form → Json → Prop
  | .leaf l, value => value = l.encode
  | .unit name, value => value = text name ∨ value = .object [(some name, .null)]
  | .tagged name payload, value => ∃ inner, value = .object [(some name, inner)] ∧ payload.Spelled inner
  | .list items, value => ∃ values, value = .array values ∧ ItemsSpelled items values
  | .record fields, value =>
    ∃ slots, fields? (fields.map Field.name) value = some slots ∧ FieldsSpelled fields slots

/-- The values spell the items of a list. -/
def ItemsSpelled : List Form → List Json → Prop
  | [], [] => True
  | item :: items, value :: values => item.Spelled value ∧ ItemsSpelled items values
  | _, _ => False

/-- The slots spell the fields of a record. A slot is empty only where the value of the field is its default. -/
def FieldsSpelled : List Field → List (Option Json) → Prop
  | [], [] => True
  | ⟨_, presence, value⟩ :: fields, slot :: slots =>
    (match slot with
      | none => presence = .default
      | some found => value.Spelled found) ∧ FieldsSpelled fields slots
  | _, _ => False

end

mutual

/-- The largest number of containers that are open at once in a spelling of the form, along the parts that spell
    something: values of unknown keys do not count. -/
def depthOn : Form → Json → Nat
  | .unit _, .object _ => 1
  | .tagged _ payload, .object [(_, inner)] => payload.depthOn inner + 1
  | .list items, .array values => itemsDepthOn items values + 1
  | .record fields, value =>
    match fields? (fields.map Field.name) value with
    | some slots => fieldsDepthOn fields slots + 1
    | none => 0
  | _, _ => 0

/-- The largest number of containers that are open at once in the spelling of one of the items. -/
def itemsDepthOn : List Form → List Json → Nat
  | item :: items, value :: values => max (item.depthOn value) (itemsDepthOn items values)
  | _, _ => 0

/-- The largest number of containers that are open at once in the spelling of one of the fields. -/
def fieldsDepthOn : List Field → List (Option Json) → Nat
  | ⟨_, _, value⟩ :: fields, some found :: slots => max (value.depthOn found) (fieldsDepthOn fields slots)
  | _ :: fields, none :: slots => fieldsDepthOn fields slots
  | _, _ => 0

end

/-- The value spells the form, and opens at most a number of containers at once. -/
def Fits (nesting : Nat) (form : Form) (value : Json) : Prop := form.Spelled value ∧ form.depthOn value ≤ nesting

end Form

namespace Field

/-- The slot spells the field. -/
def Spelled (field : Field) : Option Json → Prop
  | none => field.presence = .default
  | some value => field.value.Spelled value

/-- The slot spells the field, and opens at most a number of containers at once. -/
def Fits (nesting : Nat) (field : Field) : Option Json → Prop
  | none => field.presence = .default
  | some value => field.value.Fits nesting value

end Field

namespace Form

variable {nesting : Nat} {items : List Form} {fields : List Field} {values : List Json} {slots : List (Option Json)}
  {value : Json} {name : String} {payload : Form}

theorem itemsSpelled_iff : ItemsSpelled items values ↔ List.Forall₂ Spelled items values := by
  induction items generalizing values with
  | nil => cases values <;> simp [ItemsSpelled]
  | cons item rest ih => cases values <;> simp [ItemsSpelled, ih]

theorem fieldsSpelled_iff : FieldsSpelled fields slots ↔ List.Forall₂ Field.Spelled fields slots := by
  induction fields generalizing slots with
  | nil => cases slots <;> simp [FieldsSpelled]
  | cons field rest ih =>
      obtain ⟨name, presence, value⟩ := field
      cases slots with
      | nil => simp [FieldsSpelled]
      | cons slot slots => cases slot <;> simp [FieldsSpelled, Field.Spelled, ih]

theorem items_fit : ItemsSpelled items values ∧ itemsDepthOn items values ≤ nesting ↔
    List.Forall₂ (Fits nesting) items values := by
  induction items generalizing values with
  | nil => cases values <;> simp [ItemsSpelled, itemsDepthOn]
  | cons item rest ih =>
      cases values with
      | nil => simp [ItemsSpelled]
      | cons value values =>
          rw [ItemsSpelled, itemsDepthOn, Nat.max_le, List.forall₂_cons, ← ih, Fits]
          tauto

theorem fields_fit : FieldsSpelled fields slots ∧ fieldsDepthOn fields slots ≤ nesting ↔
    List.Forall₂ (Field.Fits nesting) fields slots := by
  induction fields generalizing slots with
  | nil => cases slots <;> simp [FieldsSpelled, fieldsDepthOn]
  | cons field rest ih =>
      obtain ⟨name, presence, value⟩ := field
      cases slots with
      | nil => simp [FieldsSpelled]
      | cons slot slots =>
          cases slot with
          | none =>
              rw [FieldsSpelled, fieldsDepthOn, List.forall₂_cons, ← ih, Field.Fits]
              tauto
          | some found =>
              rw [FieldsSpelled, fieldsDepthOn, Nat.max_le, List.forall₂_cons, ← ih, Field.Fits, Fits]
              tauto

/-! ### What fits, form by form -/

theorem fits_leaf {l : Leaf} : (Form.leaf l).Fits nesting value ↔ value = l.encode := by
  rw [Fits, Spelled]
  refine and_iff_left_of_imp fun same => ?_
  rw [same]
  cases l <;> simp [depthOn]

theorem fits_unit : (Form.unit name).Fits nesting value ↔
    value = text name ∨ 0 < nesting ∧ value = .object [(some name, .null)] := by
  rw [Fits, Spelled]
  constructor
  · rintro ⟨rfl | rfl, deep⟩
    · exact .inl rfl
    · exact .inr ⟨deep, rfl⟩
  · rintro (rfl | ⟨deep, rfl⟩)
    · exact ⟨.inl rfl, Nat.zero_le _⟩
    · exact ⟨.inr rfl, deep⟩

theorem fits_tagged : (Form.tagged name payload).Fits nesting value ↔
    ∃ n inner, nesting = n + 1 ∧ value = .object [(some name, inner)] ∧ payload.Fits n inner := by
  rw [Fits, Spelled]
  constructor
  · rintro ⟨⟨inner, rfl, spelled⟩, deep⟩
    rw [depthOn] at deep
    obtain ⟨n, rfl⟩ := Nat.exists_eq_add_one_of_ne_zero (Nat.ne_zero_of_lt deep)
    exact ⟨n, inner, rfl, rfl, spelled, Nat.le_of_succ_le_succ deep⟩
  · rintro ⟨n, inner, rfl, rfl, spelled, deep⟩
    exact ⟨⟨inner, rfl, spelled⟩, Nat.succ_le_succ deep⟩

theorem fits_list : (Form.list items).Fits nesting value ↔
    ∃ n values, nesting = n + 1 ∧ value = .array values ∧ List.Forall₂ (Fits n) items values := by
  rw [Fits, Spelled]
  constructor
  · rintro ⟨⟨values, rfl, spelled⟩, deep⟩
    rw [depthOn] at deep
    obtain ⟨n, rfl⟩ := Nat.exists_eq_add_one_of_ne_zero (Nat.ne_zero_of_lt deep)
    exact ⟨n, values, rfl, rfl, items_fit.1 ⟨spelled, Nat.le_of_succ_le_succ deep⟩⟩
  · rintro ⟨n, values, rfl, rfl, fit⟩
    obtain ⟨spelled, deep⟩ := items_fit.2 fit
    exact ⟨⟨values, rfl, spelled⟩, Nat.succ_le_succ deep⟩

theorem fits_record : (Form.record fields).Fits nesting value ↔
    ∃ n slots, nesting = n + 1 ∧ fields? (fields.map Field.name) value = some slots ∧
      List.Forall₂ (Field.Fits n) fields slots := by
  rw [Fits, Spelled]
  constructor
  · rintro ⟨⟨slots, found, spelled⟩, deep⟩
    rw [depthOn, found] at deep
    obtain ⟨n, rfl⟩ := Nat.exists_eq_add_one_of_ne_zero (Nat.ne_zero_of_lt deep)
    exact ⟨n, slots, rfl, found, fields_fit.1 ⟨spelled, Nat.le_of_succ_le_succ deep⟩⟩
  · rintro ⟨n, slots, rfl, found, fit⟩
    obtain ⟨spelled, deep⟩ := fields_fit.2 fit
    refine ⟨⟨slots, found, spelled⟩, ?_⟩
    rw [depthOn, found]
    exact Nat.succ_le_succ deep

/-! ### The encoding is a spelling -/

mutual

/-- No record has two fields of one name, and the default of a field opens at most two containers. -/
def Sound : Form → Prop
  | .leaf _ | .unit _ => True
  | .tagged _ payload => payload.Sound
  | .list items => ItemsSound items
  | .record fields => (fields.map Field.name).Nodup ∧ FieldsSound fields

/-- All items of a list are sound. -/
def ItemsSound : List Form → Prop
  | [] => True
  | item :: rest => item.Sound ∧ ItemsSound rest

/-- All fields of a record are sound. -/
def FieldsSound : List Field → Prop
  | [] => True
  | ⟨_, presence, value⟩ :: rest =>
    value.Sound ∧ (presence = .default → value.encode.depth ≤ 2) ∧ FieldsSound rest

end

theorem itemsSound_iff : ItemsSound items ↔ ∀ item ∈ items, item.Sound := by
  induction items with
  | nil => simp [ItemsSound]
  | cons item rest ih => rw [ItemsSound, ih, List.forall_mem_cons]

theorem fieldsSound_iff : FieldsSound fields ↔
    ∀ field ∈ fields, field.value.Sound ∧ (field.presence = .default → field.value.encode.depth ≤ 2) := by
  induction fields with
  | nil => simp [FieldsSound]
  | cons field rest ih =>
      obtain ⟨name, presence, value⟩ := field
      rw [FieldsSound, ih, List.forall_mem_cons, and_assoc]

theorem encode_record (fields : List Field) : (Form.record fields).encode =
    .object (fields.map fun field => (some field.name, field.value.encode)) := by
  rw [encode, encodeFields_eq_map, Json.record, List.map_map]
  rfl

/-- The fields of an encoded record are found in it. -/
theorem fields?_encode (distinct : (fields.map Field.name).Nodup) :
    fields? (fields.map Field.name) (Form.record fields).encode =
      some (fields.map fun field => some field.value.encode) := by
  rw [encode_record, Json.fields?_object]
  refine ⟨by simp, ?_⟩
  rw [List.forall₂_map_left_iff, List.forall₂_map_right_iff, List.forall₂_same]
  intro field member
  obtain ⟨front, rest, rfl⟩ := List.append_of_mem member
  rw [List.map_append, List.map_cons, List.perm_middle.nodup_iff, List.nodup_cons, ← List.map_append] at distinct
  rw [List.map_append, List.map_cons]
  refine Json.member?_insert_self.2 ⟨rfl, Json.member?_absent ?_⟩
  rw [← List.map_append, List.forall_mem_map]
  intro other here same
  exact distinct.1 (List.mem_map.2 ⟨other, here, Option.some.inj same⟩)

/-- The encoding fits as far as its containers do. -/
theorem fits_encode {form : Form} (sound : form.Sound) :
    form.Fits nesting form.encode ↔ form.encode.depth ≤ nesting := by
  induction form using induction generalizing nesting with
  | leaf l => cases l <;> simp [fits_leaf, encode, Leaf.encode, text, Json.depth]
  | unit name => simp [fits_unit, encode, text, Json.depth]
  | tagged name payload ih =>
      rw [fits_tagged, encode, Json.record, Json.depth_object_le]
      simp [ih sound]
  | list items ih =>
      have each (n : Nat) : List.Forall₂ (Fits n) items (items.map encode) ↔
          ∀ value ∈ items.map encode, value.depth ≤ n := by
        rw [List.forall₂_map_right_iff, List.forall₂_same, List.forall_mem_map]
        exact forall₂_congr fun item member => ih item member (itemsSound_iff.1 sound item member)
      rw [fits_list, encode, encodeItems_eq_map, Json.depth_array_le]
      simp only [Json.array.injEq, exists_and_left, exists_eq_left', each]
  | record fields ih =>
      have each (n : Nat) : List.Forall₂ (Field.Fits n) fields (fields.map fun field => some field.value.encode) ↔
          ∀ member ∈ fields.map fun field => (some field.name, field.value.encode), member.2.depth ≤ n := by
        rw [List.forall₂_map_right_iff, List.forall₂_same, List.forall_mem_map]
        exact forall₂_congr fun field member => ih field member (fieldsSound_iff.1 sound.2 field member).1
      rw [fits_record, fields?_encode sound.1, encode_record, Json.depth_object_le]
      simp only [Option.some.injEq, exists_and_left, exists_eq_left', each]

/-- The encoding of a form opens at most two containers more than any of its spellings. -/
theorem depth_encode_le {form : Form} (sound : form.Sound) (fits : form.Fits nesting value) :
    form.encode.depth ≤ nesting + 2 := by
  induction form using induction generalizing nesting value with
  | leaf l => cases l <;> exact Nat.zero_le _
  | unit name => exact Nat.zero_le _
  | tagged name payload ih =>
      obtain ⟨n, inner, rfl, rfl, inside⟩ := fits_tagged.1 fits
      exact Json.depth_object_le.2 ⟨n + 2, rfl, List.forall_mem_singleton.2 (ih sound inside)⟩
  | list items ih =>
      obtain ⟨n, values, rfl, rfl, fit⟩ := fits_list.1 fits
      rw [encode, encodeItems_eq_map]
      refine Json.depth_array_le.2 ⟨n + 2, rfl, List.forall_mem_map.2 fun item member => ?_⟩
      obtain ⟨value, _, fits⟩ := Json.exists_zip_of_forall₂ fit member
      exact ih item member (itemsSound_iff.1 sound item member) fits
  | record fields ih =>
      obtain ⟨n, slots, rfl, _, fit⟩ := fits_record.1 fits
      rw [encode_record]
      refine Json.depth_object_le.2 ⟨n + 2, rfl, List.forall_mem_map.2 fun field member => ?_⟩
      obtain ⟨sound, atDefault⟩ := fieldsSound_iff.1 sound.2 field member
      obtain ⟨slot, _, fits⟩ := Json.exists_zip_of_forall₂ fit member
      cases slot with
      | none => exact Nat.le_trans (atDefault fits) (Nat.le_add_left 2 n)
      | some value => exact ih field member sound fits

/-- The encoding of a form is printed as JSON text. -/
theorem printable_encode (form : Form) : form.encode.Printable := by
  induction form using induction with
  | leaf l => cases l <;> exact trivial
  | unit name => exact trivial
  | tagged name payload ih => exact ⟨ih, trivial⟩
  | list items ih =>
      rw [encode, encodeItems_eq_map, Json.printable_array, List.forall_mem_map]
      exact ih
  | record fields ih =>
      rw [encode_record, Json.printable_object, List.forall_mem_map]
      exact ih

end Form

end Corpus

end YulFuzz
