/-
Module: YulFuzz.Proofs.Stored.Respelling
Purpose: Rewriting a spelling of a form into another one, at any place in it: the members of a record are put into
  another order, a field at its default is left out, an unknown key is put in, a name becomes the key of a null, a
  record becomes the array of its fields, and a field at its default is cut off the end of such an array. What a
  value spells is not changed by any of them.
Main exports: Corpus.Form.Somewhere, Corpus.Form.Respelling, Corpus.Form.Spelled.respell
-/
import Mathlib.Data.List.Nodup
import YulFuzz.Proofs.Stored.Form

namespace YulFuzz.Corpus

open Json (fields? member?)

namespace Form

/-- A rewriting at one place in a spelling of a form: of the spelling itself, or inside one of its parts. -/
inductive Somewhere (step : Form → Json → Json → Prop) : Form → Json → Json → Prop where
  | here {form : Form} {value value' : Json} : step form value value' → Somewhere step form value value'
  | payload {name : String} {form : Form} {inner inner' : Json} : Somewhere step form inner inner' →
    Somewhere step (.tagged name form) (.object [(some name, inner)]) (.object [(some name, inner')])
  | item {front rest : List Form} {form : Form} {before after : List Json} {value value' : Json} :
    before.length = front.length → Somewhere step form value value' →
    Somewhere step (.list (front ++ form :: rest)) (.array (before ++ value :: after))
      (.array (before ++ value' :: after))
  | member {fields : List Field} {field : Field} {before after : List (Option String × Json)}
    {value value' : Json} : field ∈ fields → Somewhere step field.value value value' →
    Somewhere step (.record fields) (.object (before ++ (some field.name, value) :: after))
      (.object (before ++ (some field.name, value') :: after))
  | element {front rest : List Field} {field : Field} {before after : List Json} {value value' : Json} :
    before.length = front.length → Somewhere step field.value value value' →
    Somewhere step (.record (front ++ field :: rest)) (.array (before ++ value :: after))
      (.array (before ++ value' :: after))

/-- The ways of writing a spelling of a form differently. -/
inductive Respelling : Form → Json → Json → Prop where
  /-- The members of a record may stand in any order. -/
  | permute {fields : List Field} {members members' : List (Option String × Json)} :
    members.Perm members' → Respelling (.record fields) (.object members) (.object members')
  /-- A field at its default may be missing. -/
  | leaveOut {fields : List Field} {field : Field} {before after : List (Option String × Json)} {value : Json} :
    field ∈ fields → field.presence = .default →
    Respelling (.record fields) (.object (before ++ (some field.name, value) :: after)) (.object (before ++ after))
  /-- A key that is no field may have any value. -/
  | addUnknown {fields : List Field} {key : String} {before after : List (Option String × Json)} {value : Json} :
    (∀ field ∈ fields, field.name ≠ key) →
    Respelling (.record fields) (.object (before ++ after)) (.object (before ++ (some key, value) :: after))
  /-- A name may be the key of a null. -/
  | wrap {name : String} : Respelling (.unit name) (Json.text name) (.object [(some name, .null)])
  /-- A record may be the array of its fields, without fields at their default at the end. -/
  | toArray {front rest : List Field} {members : List (Option String × Json)} {values : List Json} :
    List.Forall₂ (fun field value => (some field.name, value) ∈ members) front values →
    (∀ field ∈ rest, field.presence = .default) →
    Respelling (.record (front ++ rest)) (.object members) (.array values)
  /-- A field at its default may be cut off the end of an array. -/
  | cut {front rest : List Field} {field : Field} {values : List Json} {value : Json} :
    values.length = front.length → field.presence = .default →
    Respelling (.record (front ++ field :: rest)) (.array (values ++ [value])) (.array values)

/-! ### Spellings of records -/

section Records

variable {fields front rest : List Field} {field : Field} {members before after : List (Option String × Json)}
  {values : List Json} {value value' : Json}

theorem spelled_object : (Form.record fields).Spelled (.object members) ↔
    (∀ member ∈ members, member.1 ≠ none) ∧
      ∀ field ∈ fields, ∃ slot, member? members field.name = some slot ∧ field.Spelled slot := by
  rw [Spelled]
  simp only [fieldsSpelled_iff, Json.fields?_object, List.forall₂_map_left_iff, and_assoc]
  rw [exists_and_left, Json.exists_forall₂_iff]

theorem spelled_array : (Form.record fields).Spelled (.array values) ↔ values.length ≤ fields.length ∧
    List.Forall₂ Field.Spelled fields (values.map some ++ List.replicate (fields.length - values.length) none) := by
  rw [Spelled]
  simp only [fieldsSpelled_iff, Json.fields?_array, List.length_map]
  constructor
  · rintro ⟨_, ⟨short, rfl⟩, spelled⟩
    exact ⟨short, spelled⟩
  · rintro ⟨short, spelled⟩
    exact ⟨_, ⟨short, rfl⟩, spelled⟩

/-- At a place of an array stands the field that has its place in the record. -/
theorem spelled_element {before after : List Json} (same : before.length = front.length) :
    (Form.record (front ++ field :: rest)).Spelled (.array (before ++ value :: after)) ↔
      after.length ≤ rest.length ∧ List.Forall₂ Field.Spelled front (before.map some) ∧
        field.value.Spelled value ∧
        List.Forall₂ Field.Spelled rest (after.map some ++ List.replicate (rest.length - after.length) none) := by
  have length : (front ++ field :: rest).length - (before ++ value :: after).length = rest.length - after.length := by
    simp only [List.length_append, List.length_cons]
    omega
  rw [spelled_array, length, List.map_append, List.map_cons, List.append_assoc, List.cons_append,
    Json.forall₂_append (by rw [List.length_map, same]), List.forall₂_cons, Field.Spelled]
  refine and_congr ?_ Iff.rfl
  simp only [List.length_append, List.length_cons]
  omega

/-- An array that ends early has fields at their default from there on. -/
theorem spelled_front (same : values.length = front.length) :
    (Form.record (front ++ rest)).Spelled (.array values) ↔
      List.Forall₂ Field.Spelled front (values.map some) ∧ ∀ field ∈ rest, field.presence = .default := by
  have length : (front ++ rest).length - values.length = rest.length := by
    rw [List.length_append, same, Nat.add_sub_cancel_left]
  have short : values.length ≤ (front ++ rest).length := by
    rw [List.length_append, same]
    exact Nat.le_add_right ..
  rw [spelled_array, and_iff_right short, length]
  exact (Json.forall₂_append (by rw [List.length_map, same])).trans (and_congr_right fun _ => Json.forall₂_replicate)

/-- A member with the name of a field stands for the field, and the others for the other fields. -/
theorem spelled_member (distinct : (fields.map Field.name).Nodup) (mem : field ∈ fields) :
    (Form.record fields).Spelled (.object (before ++ (some field.name, value) :: after)) ↔
      field.value.Spelled value ∧ member? (before ++ after) field.name = some none ∧
        (∀ member ∈ before ++ after, member.1 ≠ none) ∧
          ∀ other ∈ fields, other ≠ field →
            ∃ slot, member? (before ++ after) other.name = some slot ∧ other.Spelled slot := by
  have name_ne {other : Field} (there : other ∈ fields) (differs : other ≠ field) :
      some field.name ≠ some other.name := fun same =>
    differs (List.inj_on_of_nodup_map distinct mem there (Option.some.inj same)).symm
  rw [spelled_object]
  constructor
  · rintro ⟨keys, spelled⟩
    obtain ⟨slot, found, here⟩ := spelled field mem
    obtain ⟨rfl, alone⟩ := Json.member?_insert_self.1 found
    refine ⟨here, alone, fun member there => keys member ?_, fun other there differs => ?_⟩
    · exact List.perm_middle.mem_iff.2 (List.mem_cons_of_mem _ there)
    · rw [← Json.member?_insert_other (name_ne there differs)]
      exact spelled other there
  · rintro ⟨here, alone, keys, others⟩
    refine ⟨fun member there => ?_, fun other there => ?_⟩
    · rcases List.mem_cons.1 (List.perm_middle.mem_iff.1 there) with rfl | inside
      · exact Option.some_ne_none _
      · exact keys member inside
    · by_cases same : other = field
      · rw [same]
        exact ⟨_, Json.member?_insert_self.2 ⟨rfl, alone⟩, here⟩
      · rw [Json.member?_insert_other (name_ne there same)]
        exact others other there same

end Records

/-! ### What a value spells is kept -/

variable {form : Form} {value value' : Json}

theorem Spelled.respell (sound : form.Sound) (step : Respelling form value value') (spelled : form.Spelled value) :
    form.Spelled value' := by
  cases step with
  | permute same =>
      rw [spelled_object] at spelled ⊢
      refine ⟨fun member there => spelled.1 member (same.mem_iff.2 there), fun field there => ?_⟩
      rw [← Json.member?_perm same]
      exact spelled.2 field there
  | @leaveOut fields field before after value mem default =>
      obtain ⟨_, alone, keys, others⟩ := (spelled_member sound.1 mem).1 spelled
      refine spelled_object.2 ⟨keys, fun other there => ?_⟩
      by_cases same : other = field
      · rw [same]
        exact ⟨none, alone, default⟩
      · exact others other there same
  | addUnknown unknown =>
      rw [spelled_object] at spelled ⊢
      refine ⟨fun member there => ?_, fun field there => ?_⟩
      · rcases List.mem_cons.1 (List.perm_middle.mem_iff.1 there) with rfl | inside
        · exact Option.some_ne_none _
        · exact spelled.1 member inside
      · rw [Json.member?_insert_other fun same => unknown field there (Option.some.inj same).symm]
        exact spelled.2 field there
  | wrap => exact .inr rfl
  | @toArray front rest members values found default =>
      refine (spelled_front found.length_eq.symm).2 ⟨List.forall₂_map_right_iff.2 ?_, default⟩
      have placed := (List.forall₂_and_left (p := (· ∈ front)) _ _).2 ⟨fun _ there => there, found⟩
      refine placed.imp fun field value both => ?_
      obtain ⟨slot, there, here⟩ := (spelled_object.1 spelled).2 field (List.mem_append_left _ both.1)
      rwa [Json.member?_of_mem there both.2] at here
  | @cut front rest field values value same default =>
      obtain ⟨_, before, _, after⟩ := (spelled_element same).1 spelled
      refine (spelled_front same).2 ⟨before, List.forall_mem_cons.2 ⟨default, ?_⟩⟩
      exact Json.forall₂_replicate.1 after

/-- Respelling any part of a spelling gives a spelling of the same form. -/
theorem Spelled.respell_somewhere (sound : form.Sound) (step : Somewhere Respelling form value value')
    (spelled : form.Spelled value) : form.Spelled value' := by
  induction step with
  | here step => exact spelled.respell sound step
  | payload _ ih =>
      obtain ⟨_, same, inside⟩ := spelled
      cases same
      exact ⟨_, rfl, ih sound inside⟩
  | item same _ ih =>
      obtain ⟨_, array, items⟩ := spelled
      cases array
      rw [itemsSpelled_iff, Json.forall₂_append same, List.forall₂_cons] at items
      have inside := (itemsSound_iff.1 sound) _ (List.mem_append_right _ List.mem_cons_self)
      refine ⟨_, rfl, itemsSpelled_iff.2 ?_⟩
      rw [Json.forall₂_append same, List.forall₂_cons]
      exact ⟨items.1, ih inside items.2.1, items.2.2⟩
  | member mem _ ih =>
      rw [spelled_member sound.1 mem] at spelled ⊢
      exact ⟨ih (fieldsSound_iff.1 sound.2 _ mem).1 spelled.1, spelled.2⟩
  | element same _ ih =>
      have inside := fieldsSound_iff.1 sound.2 _ (List.mem_append_right _ List.mem_cons_self)
      rw [spelled_element same] at spelled ⊢
      exact ⟨spelled.1, spelled.2.1, ih inside.1 spelled.2.2.1, spelled.2.2.2⟩

end Form

end YulFuzz.Corpus
