/-
Module: YulFuzz.Proofs.Json.Record
Purpose: What the readers of records and variants find: the value of a key among the members of an object, how it
  changes when a member is put in or the members are reordered, and the fields of a record in either shape.
Main exports: Json.member?_insert_self, Json.member?_insert_other, Json.member?_perm, Json.fields?_object,
  Json.fields?_array, Json.variant?_eq_tagged
-/
import Mathlib.Data.List.Forall2
import YulFuzz.Json.Record

namespace YulFuzz.Json

/-- Reading every item of a list succeeds where reading each of them does. -/
theorem mapM_eq_some {α β : Type} {read : α → Option β} {items : List α} {found : List β} :
    items.mapM read = some found ↔ List.Forall₂ (fun item value => read item = some value) items found := by
  induction items generalizing found with
  | nil => simp [eq_comm]
  | cons item rest ih =>
      rw [List.mapM_cons, List.forall₂_cons_left_iff]
      simp only [Option.bind_eq_bind, Option.bind_eq_some_iff, Option.pure_def, Option.some.injEq, ih]
      constructor
      · rintro ⟨value, here, values, there, rfl⟩
        exact ⟨value, values, here, there, rfl⟩
      · rintro ⟨value, values, here, there, rfl⟩
        exact ⟨value, here, values, there, rfl⟩

/-- Lists that agree item by item agree in two parts. -/
theorem forall₂_append {α β : Type} {R : α → β → Prop} {front rest : List α} {before after : List β}
    (same : before.length = front.length) :
    List.Forall₂ R (front ++ rest) (before ++ after) ↔
      List.Forall₂ R front before ∧ List.Forall₂ R rest after := by
  induction front generalizing before with
  | nil =>
      obtain rfl := List.length_eq_zero_iff.1 same
      simp
  | cons x front ih =>
      obtain ⟨y, before, rfl⟩ := List.exists_cons_of_length_eq_add_one same
      rw [List.cons_append, List.cons_append, List.forall₂_cons, List.forall₂_cons, ih (Nat.succ.inj same), and_assoc]

/-- Each item of a list has its counterpart. -/
theorem exists_zip_of_forall₂ {α β : Type} {R : α → β → Prop} {items : List α} {found : List β} {item : α}
    (all : List.Forall₂ R items found) (member : item ∈ items) :
    ∃ value, (item, value) ∈ items.zip found ∧ R item value := by
  induction all with
  | nil => cases member
  | cons here _ ih =>
      rw [List.zip_cons_cons]
      cases member with
      | head => exact ⟨_, List.mem_cons_self, here⟩
      | tail _ later =>
          obtain ⟨value, found, related⟩ := ih later
          exact ⟨value, List.mem_cons_of_mem _ found, related⟩

/-- Counterparts can be chosen item by item. -/
theorem exists_forall₂_iff {α β : Type} {R S : α → β → Prop} {items : List α} :
    (∃ found, List.Forall₂ R items found ∧ List.Forall₂ S items found) ↔
      ∀ item ∈ items, ∃ value, R item value ∧ S item value := by
  induction items with
  | nil => simp
  | cons item rest ih =>
      rw [List.forall_mem_cons, ← ih]
      constructor
      · rintro ⟨found, first, second⟩
        cases first with
        | cons here there =>
            cases second with
            | cons here' there' => exact ⟨⟨_, here, here'⟩, _, there, there'⟩
      · rintro ⟨⟨value, here, here'⟩, found, there, there'⟩
        exact ⟨value :: found, .cons here there, .cons here' there'⟩

/-- Slots for items that may do without one are left empty. -/
theorem forall₂_replicate {α β : Type} {R : α → Option β → Prop} {items : List α} :
    List.Forall₂ R items (List.replicate items.length none) ↔ ∀ item ∈ items, R item none := by
  induction items with
  | nil => simp
  | cons item rest ih => rw [List.length_cons, List.replicate_succ, List.forall₂_cons, ih, List.forall_mem_cons]

/-! ### The members of an object -/

section Members

variable {members before after : List (Option String × Json)} {name : String} {value : Json}

/-- The order of the members does not matter. -/
theorem member?_perm {members' : List (Option String × Json)} (same : members.Perm members') :
    member? members name = member? members' name := by
  have filtered := same.filter fun member => member.1 == some name
  unfold member?
  generalize members.filter _ = here at filtered ⊢
  generalize members'.filter _ = there at filtered ⊢
  match here, there, filtered with
  | [], _, filtered => rw [filtered.nil_eq]
  | [_], _, filtered => rw [filtered.singleton_eq]
  | _ :: _ :: _, [], filtered => exact absurd filtered.eq_nil (List.cons_ne_nil _ _)
  | _ :: _ :: _, [_], filtered => exact absurd filtered.length_eq (by simp)
  | _ :: _ :: _, _ :: _ :: _, _ => rfl

/-- A member with another key does not matter. -/
theorem member?_insert_other {key : Option String} (other : key ≠ some name) :
    member? (before ++ (key, value) :: after) name = member? (before ++ after) name := by
  have skipped : ((key, value) :: after).filter (fun member => member.1 == some name) =
      after.filter fun member => member.1 == some name := List.filter_cons_of_neg (by simpa using other)
  unfold member?
  rw [List.filter_append, skipped, List.filter_append]

/-- A member with the key itself has to be the only one. -/
theorem member?_insert_self {slot : Option Json} :
    member? (before ++ (some name, value) :: after) name = some slot ↔
      slot = some value ∧ member? (before ++ after) name = some none := by
  have found : ((some name, value) :: (before ++ after)).filter (fun member => member.1 == some name) =
      (some name, value) :: (before ++ after).filter fun member => member.1 == some name :=
    List.filter_cons_of_pos (by simp)
  rw [member?_perm List.perm_middle]
  unfold member?
  rw [found]
  generalize (before ++ after).filter _ = others
  match others with
  | [] => simp [eq_comm]
  | [_] => simp
  | _ :: _ :: _ => simp

theorem member?_absent (absent : ∀ member ∈ members, member.1 ≠ some name) :
    member? members name = some none := by
  have none : members.filter (fun member => member.1 == some name) = [] :=
    List.filter_eq_nil_iff.2 fun member here => by simpa using absent member here
  unfold member?
  rw [none]

/-- A key that stands at most once has the value of its member. -/
theorem member?_of_mem {slot : Option Json} (found : member? members name = some slot)
    (member : (some name, value) ∈ members) : slot = some value := by
  obtain ⟨before, after, rfl⟩ := List.append_of_mem member
  exact (member?_insert_self.1 found).1

end Members

/-! ### The fields of a record -/

section Fields

variable {names : List String} {slots : List (Option Json)}

theorem fields?_object {members : List (Option String × Json)} :
    fields? names (.object members) = some slots ↔ (∀ member ∈ members, member.1 ≠ none) ∧
      List.Forall₂ (fun name slot => member? members name = some slot) names slots := by
  rw [fields?, ← mapM_eq_some]
  split
  case isTrue noText =>
      obtain ⟨member, found, none⟩ := List.any_eq_true.1 noText
      exact ⟨nofun, fun both => absurd (Option.isNone_iff_eq_none.1 none) (both.1 member found)⟩
  case isFalse text =>
      refine ⟨fun found => ⟨fun member here none => text ?_, found⟩, And.right⟩
      exact List.any_eq_true.2 ⟨member, here, Option.isNone_iff_eq_none.2 none⟩

theorem fields?_array {items : List Json} :
    fields? names (.array items) = some slots ↔ items.length ≤ names.length ∧
      slots = items.map some ++ List.replicate (names.length - items.length) none := by
  rw [fields?]
  split
  case isTrue fits => simp [fits, eq_comm]
  case isFalse long => exact ⟨nofun, fun both => absurd both.1 long⟩

/-- There is a slot for each name. -/
theorem length_fields? {value : Json} (found : fields? names value = some slots) : slots.length = names.length := by
  cases value with
  | object members => exact (fields?_object.1 found).2.length_eq.symm
  | array items =>
      obtain ⟨fits, rfl⟩ := fields?_array.1 found
      simp
      omega
  | null | bool | natural | number | string => simp [fields?] at found

end Fields

/-! ### Variants -/

theorem variant?_eq_bare {value : Json} {name : String} :
    variant? value = some (.bare name) ↔ value = text name := by
  unfold variant?
  split <;> simp_all [text]

theorem variant?_eq_tagged {value payload : Json} {name : String} :
    variant? value = some (.tagged name payload) ↔ value = .object [(some name, payload)] := by
  unfold variant?
  split <;> simp_all

end YulFuzz.Json
