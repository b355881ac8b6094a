/-
Module: YulFuzz.Proofs.Stored.Damage
Purpose: Spoiling a spelling of a form at any place in it: a required field is left out, the key of a field is
  repeated, or a variant is given a second key. The outcome is broken: somewhere along its parts there is a record
  or a variant that no reader accepts.
Main exports: Corpus.Form.Broken, Corpus.Form.Damage, Corpus.Form.broken_of_damage
-/
import YulFuzz.Proofs.Stored.Respelling

namespace YulFuzz.Corpus

open Json (fields? member?)

namespace Form

mutual

/-- Along the parts of the form, the value has a variant with several keys, a record without a required field, or a
    record that repeats a field or is none. -/
def Broken : Form → Json → Prop
  | .leaf _, _ => False
  | .unit _, value => ∃ members, value = .object members ∧ 2 ≤ members.length
  | .tagged name payload, value =>
    (∃ members, value = .object members ∧ 2 ≤ members.length) ∨
      ∃ inner, value = .object [(some name, inner)] ∧ payload.Broken inner
  | .list items, value => ∃ values, value = .array values ∧ ItemsBroken items values
  | .record fields, value =>
    value ≠ .null ∧ ∀ slots, fields? (fields.map Field.name) value = some slots → FieldsBroken fields slots

/-- One of the items is broken. -/
def ItemsBroken : List Form → List Json → Prop
  | item :: items, value :: values => item.Broken value ∨ ItemsBroken items values
  | _, _ => False

/-- One of the fields is broken: it is required and missing, or its value is broken. -/
def FieldsBroken : List Field → List (Option Json) → Prop
  | ⟨_, presence, value⟩ :: fields, slot :: slots =>
    (match slot with
      | none => presence = .required
      | some found => value.Broken found) ∨ FieldsBroken fields slots
  | _, _ => False

end

end Form

/-- The slot is broken: it is empty and the field is required, or its value is broken. -/
def Field.Broken (field : Field) : Option Json → Prop
  | none => field.presence = .required
  | some value => field.value.Broken value

namespace Form

theorem itemsBroken_iff {items : List Form} {values : List Json} :
    ItemsBroken items values ↔ ∃ pair ∈ items.zip values, pair.1.Broken pair.2 := by
  induction items generalizing values with
  | nil => simp [ItemsBroken]
  | cons item rest ih => cases values <;> simp [ItemsBroken, ih]

theorem fieldsBroken_cons {field : Field} {fields : List Field} {slot : Option Json} {slots : List (Option Json)} :
    FieldsBroken (field :: fields) (slot :: slots) ↔ field.Broken slot ∨ FieldsBroken fields slots := by
  obtain ⟨name, presence, value⟩ := field
  cases slot <;> rfl

theorem fieldsBroken_iff {fields : List Field} {slots : List (Option Json)} :
    FieldsBroken fields slots ↔ ∃ pair ∈ fields.zip slots, pair.1.Broken pair.2 := by
  induction fields generalizing slots with
  | nil => simp [FieldsBroken]
  | cons field rest ih =>
      cases slots with
      | nil => simp [FieldsBroken]
      | cons slot slots => simp [fieldsBroken_cons, ih]

/-- A variant with one key is broken in its payload. -/
theorem broken_payload {key : Option String} {name : String} {payload : Form} {inner : Json}
    (broken : (Form.tagged name payload).Broken (.object [(key, inner)])) : payload.Broken inner := by
  rcases broken with ⟨members, same, wide⟩ | ⟨_, same, broken⟩
  · cases same
    exact absurd wide (Nat.not_succ_le_self 1)
  · cases same
    exact broken

/-- The ways of spoiling a spelling of a form. -/
inductive Damage : Form → Json → Json → Prop where
  /-- A required field is left out. -/
  | leaveOut {fields : List Field} {field : Field} {before after : List (Option String × Json)} {value : Json} :
    field ∈ fields → field.presence = .required →
    Damage (.record fields) (.object (before ++ (some field.name, value) :: after)) (.object (before ++ after))
  /-- The key of a field is repeated. -/
  | addKnown {fields : List Field} {field : Field} {before after : List (Option String × Json)}
    {value value' : Json} : field ∈ fields → (some field.name, value) ∈ before ++ after →
    Damage (.record fields) (.object (before ++ after)) (.object (before ++ (some field.name, value') :: after))
  /-- The name of a variant becomes one of two keys. -/
  | addKey {form : Form} {member member' : Option String × Json} {before after : List (Option String × Json)} :
    (∃ name, form = .unit name ∨ ∃ payload, form = .tagged name payload) → before ++ after = [member] →
    Damage form (.object (before ++ after)) (.object (before ++ member' :: after))

/-! ### Damage breaks a spelling -/

section Records

variable {fields front rest : List Field} {field : Field} {members : List (Option String × Json)}

/-- An object is broken by one field that has no slot it could fill. -/
theorem broken_object (mem : field ∈ fields)
    (broken : ∀ slot, member? members field.name = some slot → field.Broken slot) :
    (Form.record fields).Broken (.object members) := by
  refine ⟨nofun, fun slots found => ?_⟩
  have slotsFound := List.forall₂_map_left_iff.1 (Json.fields?_object.1 found).2
  obtain ⟨slot, there, here⟩ := Json.exists_zip_of_forall₂ slotsFound mem
  exact fieldsBroken_iff.2 ⟨_, there, broken slot here⟩

theorem broken_array {before after : List Json} {value : Json} (same : before.length = front.length)
    (broken : field.value.Broken value) :
    (Form.record (front ++ field :: rest)).Broken (.array (before ++ value :: after)) := by
  refine ⟨nofun, fun slots found => ?_⟩
  obtain ⟨_, rfl⟩ := Json.fields?_array.1 found
  rw [fieldsBroken_iff, List.map_append, List.append_assoc, List.zip_append (by rw [List.length_map, same])]
  exact ⟨_, List.mem_append_right _ List.mem_cons_self, broken⟩

end Records

variable {form : Form} {value value' : Json}

theorem Damage.broken (sound : form.Sound) (damage : Damage form value value') (spelled : form.Spelled value) :
    form.Broken value' := by
  cases damage with
  | leaveOut mem required =>
      obtain ⟨_, alone, _⟩ := (spelled_member sound.1 mem).1 spelled
      refine broken_object mem fun slot found => ?_
      rw [alone] at found
      cases found
      exact required
  | addKnown mem there =>
      refine broken_object mem fun slot found => ?_
      exact absurd (Json.member?_of_mem (Json.member?_insert_self.1 found).2 there) nofun
  | @addKey _ member member' before after variant one =>
      have two : 2 ≤ (before ++ member' :: after).length := by
        have length := congrArg List.length one
        simp only [List.length_append, List.length_cons, List.length_nil] at length ⊢
        omega
      obtain ⟨name, rfl | ⟨payload, rfl⟩⟩ := variant
      · exact ⟨_, rfl, two⟩
      · exact .inl ⟨_, rfl, two⟩

/-- A spelling that is spoiled in any of its parts is broken. -/
theorem broken_of_damage (sound : form.Sound) (damage : Somewhere Damage form value value')
    (spelled : form.Spelled value) : form.Broken value' := by
  induction damage with
  | here damage => exact damage.broken sound spelled
  | payload _ ih =>
      obtain ⟨_, same, inside⟩ := spelled
      cases same
      exact .inr ⟨_, rfl, ih sound inside⟩
  | item same _ ih =>
      obtain ⟨_, array, items⟩ := spelled
      cases array
      rw [itemsSpelled_iff, Json.forall₂_append same, List.forall₂_cons] at items
      have inside := (itemsSound_iff.1 sound) _ (List.mem_append_right _ List.mem_cons_self)
      refine ⟨_, rfl, itemsBroken_iff.2 ?_⟩
      rw [List.zip_append same.symm]
      exact ⟨_, List.mem_append_right _ List.mem_cons_self, ih inside items.2.1⟩
  | member mem _ ih =>
      refine broken_object mem fun slot found => ?_
      rw [(Json.member?_insert_self.1 found).1]
      exact ih (fieldsSound_iff.1 sound.2 _ mem).1 ((spelled_member sound.1 mem).1 spelled).1
  | element same _ ih =>
      have inside := fieldsSound_iff.1 sound.2 _ (List.mem_append_right _ List.mem_cons_self)
      exact broken_array same (ih inside.1 ((spelled_element same).1 spelled).2.2.1)

end Form

end YulFuzz.Corpus
