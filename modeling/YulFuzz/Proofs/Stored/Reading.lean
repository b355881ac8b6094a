/-
Module: YulFuzz.Proofs.Stored.Reading
Purpose: What it means that a reader reads a form: it finds a tree in a value if and only if the value spells the
  form of the tree and opens no more containers than it may, and it finds nothing in a value that is broken. The
  readers of leaves, names, lists, fields and records do, if the readers of their parts do.
Main exports: Corpus.Reads, Corpus.ReadsSlot, Corpus.ReadsSlots, Corpus.ReadsVariant, Corpus.ReadsAt
-/
import Mathlib.Data.List.Nodup
import YulFuzz.Corpus.Decoding
import YulFuzz.Proofs.Stored.Damage

namespace YulFuzz.Corpus

open Json (fields? variant? text)

variable {α β γ δ ε : Type} {nesting n : Nat} {name tag : String} {value payload : Json}

/-- The reader finds in a value what the value fits, and nothing in a broken one. -/
structure Reads (nesting : Nat) (form : α → Form) (read : Json → Option α) : Prop where
  iff : ∀ value found, read value = some found ↔ (form found).Fits nesting value
  rejects : ∀ value other, (form other).Broken value → read value = none

/-- The reader finds in the slot of a field what the slot fits, and nothing in a broken one. -/
structure ReadsSlot (nesting : Nat) (name : String) (field : α → Field) (read : Option Json → Option α) :
    Prop where
  name_field : ∀ found, (field found).name = name
  iff : ∀ slot found, read slot = some found ↔ (field found).Fits nesting slot
  rejects : ∀ slot other, (field other).Broken slot → read slot = none

/-- The reader finds in the payload of a variant those of the trees in question that the variant fits, and nothing
    if it is a broken one of them. -/
structure ReadsVariant (nesting : Nat) (tag : String) (form : α → Form) (here : α → Prop)
    (read : Json → Option α) : Prop where
  iff : ∀ payload found, read payload = some found ↔
    here found ∧ (form found).Fits nesting (.object [(some tag, payload)])
  rejects : ∀ payload other, here other → (form other).Broken (.object [(some tag, payload)]) → read payload = none

/-- The reader finds a tree in all that fits its form, and nothing in what is broken. -/
structure ReadsAt (nesting : Nat) (form : α → Form) (read : Json → Option α) (tree : α) : Prop where
  found : ∀ value, (form tree).Fits nesting value → read value = some tree
  rejects : ∀ value, (form tree).Broken value → read value = none

/-! ### Leaves, names and lists -/

/-- Numbers of a type with finitely many of them are read from their natural numbers. -/
theorem natural_eq_some {size : Nat} {ofNat : Nat → α} {toNat : α → Nat} {found : α}
    (bound : ∀ a, toNat a < size) (there : ∀ number < size, toNat (ofNat number) = number)
    (back : ∀ a, ofNat (toNat a) = a) :
    (match value with
      | .natural number => if number < size then some (ofNat number) else none
      | _ => none) = some found ↔ value = .natural (toNat found) := by
  split
  case h_1 number =>
      rw [Json.natural.injEq]
      split
      case isTrue small =>
          rw [Option.some.injEq]
          constructor
          · rintro rfl
            exact (there number small).symm
          · rintro rfl
            exact back found
      case isFalse large => exact ⟨nofun, fun same => absurd (same ▸ bound found) large⟩
  case h_2 other => exact ⟨nofun, fun same => absurd same (other _)⟩

/-- A reader of leaves. -/
theorem reads_leaf {leaf : α → Leaf} {read : Json → Option α}
    (iff : ∀ value found, read value = some found ↔ value = (leaf found).encode) :
    Reads nesting (fun found => .leaf (leaf found)) read where
  iff value found := by rw [iff, Form.fits_leaf]
  rejects _ _ broken := broken.elim

theorem reads_uint32 : Reads nesting (fun value => .leaf (.natural value.toNat)) uint32? :=
  reads_leaf fun _ _ =>
    natural_eq_some UInt32.toNat_lt (fun _ => UInt32.toNat_ofNat_of_lt) fun _ => UInt32.ofNat_toNat

theorem reads_uint64 : Reads nesting (fun value => .leaf (.natural value.toNat)) uint64? :=
  reads_leaf fun _ _ =>
    natural_eq_some UInt64.toNat_lt (fun _ => UInt64.toNat_ofNat_of_lt) fun _ => UInt64.ofNat_toNat

theorem text?_eq_some {found : String} : text? value = some found ↔ value = text found := by
  cases value <;> simp [text?, text]

theorem reads_text : Reads nesting (fun value => .leaf (.text value)) text? :=
  reads_leaf fun _ _ => text?_eq_some

theorem variant?_of_wide {members : List (Option String × Json)} (wide : 2 ≤ members.length) :
    variant? (.object members) = none := by
  unfold variant?
  split <;> simp_all

theorem name?_eq_some : name? nesting value = some name ↔ (Form.unit name).Fits nesting value := by
  rw [Form.fits_unit, ← Json.variant?_eq_bare, ← Json.variant?_eq_tagged]
  unfold name?
  split
  case h_1 => simp_all
  case h_2 => simp_all
  case h_3 bare tagged =>
      refine ⟨nofun, ?_⟩
      rintro (spelled | ⟨deep, spelled⟩)
      · exact absurd spelled (bare name)
      · exact absurd (Nat.sub_add_cancel deep).symm (tagged name _ spelled)

/-- Operations, kinds, types and usages are found by their names. -/
theorem reads_named {all : List α} {nameOf : α → String} (complete : ∀ a, a ∈ all)
    (distinct : (all.map nameOf).Nodup) :
    Reads nesting (fun found => .unit (nameOf found)) (named? all nameOf nesting) where
  iff value found := by
    rw [← name?_eq_some, named?, Option.bind_eq_bind, Option.bind_eq_some_iff]
    constructor
    · rintro ⟨name, read, candidate⟩
      have same : nameOf found = name := by simpa using List.find?_some candidate
      rwa [same]
    · intro read
      refine ⟨_, read, ?_⟩
      cases candidate : all.find? fun other => nameOf other == nameOf found with
      | none => exact absurd (List.find?_eq_none.1 candidate found (complete found)) (by simp)
      | some other =>
          have same : nameOf other = nameOf found := by simpa using List.find?_some candidate
          rw [List.inj_on_of_nodup_map distinct (complete other) (complete found) same]
  rejects := by
    rintro _ _ ⟨members, rfl, wide⟩
    have noName : name? nesting (.object members) = none := by
      unfold name?
      rw [variant?_of_wide wide]
    rw [named?, noName]
    rfl

/-- A list is read item by item. -/
theorem reads_items {form : α → Form} {read : Json → Option α} (reads : Reads n form read) :
    Reads (n + 1) (fun found => .list (found.map form)) fun
      | .array values => values.mapM read
      | _ => none where
  iff value found := by
    rw [Form.fits_list]
    split
    case h_1 values =>
        rw [Json.mapM_eq_some]
        simp only [Nat.add_right_cancel_iff, Json.array.injEq, exists_and_left, exists_eq_left',
          List.forall₂_map_left_iff]
        exact ⟨fun all => (all.imp fun value a => (reads.iff value a).1).flip,
          fun all => (all.imp fun a value => (reads.iff value a).2).flip⟩
    case h_2 other =>
        refine ⟨nofun, ?_⟩
        rintro ⟨_, values, _, rfl, _⟩
        exact absurd rfl (other values)
  rejects := by
    rintro _ others ⟨values, rfl, broken⟩
    rw [Form.itemsBroken_iff] at broken
    obtain ⟨⟨form, value⟩, there, broken⟩ := broken
    obtain ⟨other, _, rfl⟩ := List.mem_map.1 (List.of_mem_zip there).1
    refine Option.eq_none_iff_forall_ne_some.2 fun found all => ?_
    obtain ⟨a, _, read⟩ := Json.exists_zip_of_forall₂ (Json.mapM_eq_some.1 all) (List.of_mem_zip there).2
    rw [reads.rejects value other broken] at read
    cases read

/-! ### Fields -/

section Slots

variable {form : α → Form} {read : Json → Option α}

theorem readsSlot_required (reads : Reads nesting form read) :
    ReadsSlot nesting name (fun found => .required name (form found)) (required read) where
  name_field _ := rfl
  iff slot found := by
    cases slot with
    | none => simp [required, Field.required, Field.Fits]
    | some value => exact reads.iff value found
  rejects slot other broken := by
    cases slot with
    | none => rfl
    | some value => exact reads.rejects value other broken

theorem readsSlot_optional {isDefault : α → Bool} {default : α} (reads : Reads nesting form read)
    (only : ∀ found, isDefault found = true ↔ default = found) :
    ReadsSlot nesting name (fun found => .optional name (isDefault found) (form found)) (optional default read) where
  name_field _ := rfl
  iff slot found := by
    cases slot with
    | none => simp [optional, Field.optional, Field.Fits, only]
    | some value => exact reads.iff value found
  rejects slot other broken := by
    cases slot with
    | none =>
        simp only [Field.Broken, Field.optional] at broken
        split at broken <;> cases broken
    | some value => exact reads.rejects value other broken

/-- A part that may be null is none where its field is missing or null. -/
theorem readsSlot_nullable {fields : α → List Field} {whole : Option α → Form}
    (reads : Reads nesting (fun found => .record (fields found)) read) (absent : whole none = .leaf .null)
    (present : ∀ found, whole (some found) = .record (fields found)) :
    ReadsSlot nesting name (fun found => .optional name found.isNone (whole found)) (nullable read) where
  name_field _ := rfl
  iff slot found := by
    have leaf (value : Json) : (Form.leaf .null).Fits nesting value ↔ value = .null := Form.fits_leaf
    have null (found : α) : ¬ (Form.record (fields found)).Fits nesting .null := by simp [Form.fits_record, fields?]
    unfold nullable
    split
    case h_1 => cases found <;> simp [Field.optional, Field.Fits]
    case h_2 => cases found <;> simp [Field.optional, Field.Fits, absent, present, leaf, null]
    case h_3 value other =>
        cases found with
        | none =>
            have notNull : value ≠ .null := fun same => other (same ▸ rfl)
            simp [Field.optional, Field.Fits, absent, leaf, notNull]
        | some found => simp [Field.optional, Field.Fits, present, reads.iff]
  rejects slot other broken := by
    cases other with
    | none => cases slot <;> simp [Field.optional, Field.Broken, absent, Form.Broken] at broken
    | some other =>
        unfold nullable
        split
        case h_1 => cases broken
        case h_2 =>
            simp only [Field.optional, Field.Broken, present] at broken
            exact absurd rfl broken.1
        case h_3 value _ =>
            simp only [Field.optional, Field.Broken, present] at broken
            rw [reads.rejects value other broken]
            rfl

end Slots

/-! ### Variants whose payload is their only part -/

/-- A variant is read where its payload is. -/
theorem readsVariant_part {form : ε → Form} {part : α → Form} {make : α → ε} {read : Json → Option α}
    (reads : Reads n part read) (shape : ∀ a, form (make a) = .tagged tag (part a)) :
    ReadsVariant (n + 1) tag form (fun node => ∃ a, node = make a) fun payload => make <$> read payload where
  iff payload node := by
    rw [Option.map_eq_map, Option.map_eq_some_iff]
    simp only [reads.iff]
    constructor
    · rintro ⟨a, fits, rfl⟩
      exact ⟨⟨a, rfl⟩, by rw [shape]; exact Form.fits_tagged.2 ⟨n, payload, rfl, rfl, fits⟩⟩
    · rintro ⟨⟨a, rfl⟩, fits⟩
      rw [shape] at fits
      obtain ⟨_, inner, same, object, fits⟩ := Form.fits_tagged.1 fits
      cases same
      cases object
      exact ⟨a, fits, rfl⟩
  rejects := by
    rintro payload _ ⟨a, rfl⟩ broken
    rw [shape] at broken
    rw [reads.rejects payload a (Form.broken_payload broken)]
    rfl

/-! ### Records -/

section Records

variable {k₁ k₂ k₃ k₄ : String} {f₁ : α → Field} {f₂ : β → Field} {f₃ : γ → Field} {f₄ : δ → Field}
  {r₁ : Option Json → Option α} {r₂ : Option Json → Option β} {r₃ : Option Json → Option γ}
  {r₄ : Option Json → Option δ}

/-- A reader for no slots. -/
def noSlots : List (Option Json) → Option Unit
  | [] => some ()
  | _ :: _ => none

/-- A reader for one slot in front of further ones. -/
def slotThen (first : Option Json → Option α) (others : List (Option Json) → Option β) :
    List (Option Json) → Option (α × β)
  | [] => none
  | slot :: slots => do return (← first slot, ← others slots)

/-- The reader finds in the slots of several fields what the slots fit, and nothing if one of them is broken. -/
structure ReadsSlots (nesting : Nat) (names : List String) (fields : α → List Field)
    (read : List (Option Json) → Option α) : Prop where
  names_fields : ∀ found, (fields found).map Field.name = names
  iff : ∀ slots found, read slots = some found ↔ List.Forall₂ (Field.Fits nesting) (fields found) slots
  rejects : ∀ slots other, Form.FieldsBroken (fields other) slots → read slots = none

theorem ReadsSlots.nil : ReadsSlots n [] (fun _ => []) noSlots where
  names_fields _ := rfl
  iff slots _ := by cases slots <;> simp [noSlots]
  rejects _ _ broken := by simp [Form.FieldsBroken] at broken

theorem ReadsSlot.cons {names : List String} {fields : β → List Field} {others : List (Option Json) → Option β}
    (one : ReadsSlot n k₁ f₁ r₁) (more : ReadsSlots n names fields others) :
    ReadsSlots n (k₁ :: names) (fun found => f₁ found.1 :: fields found.2) (slotThen r₁ others) where
  names_fields found := by rw [List.map_cons, one.name_field, more.names_fields]
  iff slots found := by
    cases slots with
    | nil => simp [slotThen]
    | cons slot slots =>
        obtain ⟨a, b⟩ := found
        simp [slotThen, Option.bind_eq_some_iff, one.iff, more.iff]
  rejects slots other broken := by
    cases slots with
    | nil => rfl
    | cons slot slots =>
        rcases Form.fieldsBroken_cons.1 broken with here | there
        · simp [slotThen, one.rejects _ _ here]
        · simp [slotThen, more.rejects _ _ there]

/-- A record is read through the slots of its fields. -/
theorem reads_record {names : List String} {fields : α → List Field} {read : List (Option Json) → Option α}
    (reads : ReadsSlots n names fields read) :
    Reads (n + 1) (fun found => .record (fields found)) fun value => (fields? names value).bind read where
  iff value found := by
    rw [Form.fits_record, Option.bind_eq_some_iff, reads.names_fields]
    simp [reads.iff]
  rejects value other broken := by
    rw [Form.Broken, reads.names_fields] at broken
    exact Option.bind_eq_none_iff.2 fun slots there => reads.rejects slots other (broken.2 slots there)

/-- The same trees in question, read in the same way. -/
theorem ReadsVariant.congr {form : ε → Form} {here here' : ε → Prop} {read read' : Json → Option ε}
    (variant : ReadsVariant n tag form here read) (sameTrees : ∀ node, here' node ↔ here node)
    (sameReader : ∀ payload, read' payload = read payload) : ReadsVariant n tag form here' read' := by
  obtain rfl : here' = here := funext fun node => propext (sameTrees node)
  obtain rfl : read' = read := funext sameReader
  exact variant

variable {form : ε → Form}

attribute [local simp] slotThen noSlots Option.bind_assoc Option.map_eq_bind Function.comp_def

/-- A record of one field that stands for the field itself. -/
theorem reads_field (one : ReadsSlot n k₁ f₁ r₁) :
    Reads (n + 1) (fun a => .record [f₁ a]) fun value => do
      let [first] ← fields? [k₁] value | none
      r₁ first where
  iff value a := by
    rw [Form.fits_record]
    cases found : fields? [k₁] value with
    | none => simp [one.name_field, found]
    | some slots =>
        match slots, Json.length_fields? found with
        | [first], _ => simp [one.name_field, found, one.iff]
  rejects value other broken := by
    have unread := (reads_record (one.cons .nil)).rejects value (other, ()) broken
    cases found : fields? [k₁] value with
    | none => rfl
    | some slots =>
        match slots, Json.length_fields? found with
        | [first], _ => exact Option.eq_none_iff_forall_ne_some.2 (by simpa [found] using unread)

/-! Nodes of the trees are read field by field, and put together from what was found in the slots. -/

/-- A node with one field. -/
theorem readsVariant_one {make : α → ε} (shape : ∀ a, form (make a) = .tagged tag (.record [f₁ a]))
    (one : ReadsSlot n k₁ f₁ r₁) :
    ReadsVariant (n + 2) tag form (fun node => ∃ a, node = make a) fun payload => do
      let [first] ← fields? [k₁] payload | none
      return make (← r₁ first) := by
  have node : ∀ found : α × Unit, form (make found.1) = .tagged tag (.record [f₁ found.1]) :=
    fun found => shape found.1
  refine (readsVariant_part (reads_record (one.cons .nil)) node).congr (by simp) fun payload => ?_
  cases found : fields? [k₁] payload with
  | none => rfl
  | some slots =>
      match slots, Json.length_fields? found with
      | [first], _ => simp

/-- A node with two fields. -/
theorem readsVariant_two {make : α → β → ε} (shape : ∀ a b, form (make a b) = .tagged tag (.record [f₁ a, f₂ b]))
    (one : ReadsSlot n k₁ f₁ r₁) (two : ReadsSlot n k₂ f₂ r₂) :
    ReadsVariant (n + 2) tag form (fun node => ∃ a b, node = make a b) fun payload => do
      let [first, second] ← fields? [k₁, k₂] payload | none
      return make (← r₁ first) (← r₂ second) := by
  have node : ∀ found : α × β × Unit,
      form (make found.1 found.2.1) = .tagged tag (.record [f₁ found.1, f₂ found.2.1]) :=
    fun found => shape found.1 found.2.1
  refine (readsVariant_part (reads_record (one.cons (two.cons .nil))) node).congr (by simp) fun payload => ?_
  cases found : fields? [k₁, k₂] payload with
  | none => rfl
  | some slots =>
      match slots, Json.length_fields? found with
      | [first, second], _ => simp

/-- A node with three fields. -/
theorem readsVariant_three {make : α → β → γ → ε}
    (shape : ∀ a b c, form (make a b c) = .tagged tag (.record [f₁ a, f₂ b, f₃ c]))
    (one : ReadsSlot n k₁ f₁ r₁) (two : ReadsSlot n k₂ f₂ r₂) (three : ReadsSlot n k₃ f₃ r₃) :
    ReadsVariant (n + 2) tag form (fun node => ∃ a b c, node = make a b c) fun payload => do
      let [first, second, third] ← fields? [k₁, k₂, k₃] payload | none
      return make (← r₁ first) (← r₂ second) (← r₃ third) := by
  have node : ∀ found : α × β × γ × Unit, form (make found.1 found.2.1 found.2.2.1) =
      .tagged tag (.record [f₁ found.1, f₂ found.2.1, f₃ found.2.2.1]) :=
    fun found => shape found.1 found.2.1 found.2.2.1
  refine (readsVariant_part (reads_record (one.cons (two.cons (three.cons .nil)))) node).congr (by simp)
    fun payload => ?_
  cases found : fields? [k₁, k₂, k₃] payload with
  | none => rfl
  | some slots =>
      match slots, Json.length_fields? found with
      | [first, second, third], _ => simp

/-- A node with four fields. -/
theorem readsVariant_four {make : α → β → γ → δ → ε}
    (shape : ∀ a b c d, form (make a b c d) = .tagged tag (.record [f₁ a, f₂ b, f₃ c, f₄ d]))
    (one : ReadsSlot n k₁ f₁ r₁) (two : ReadsSlot n k₂ f₂ r₂)
    (three : ReadsSlot n k₃ f₃ r₃) (four : ReadsSlot n k₄ f₄ r₄) :
    ReadsVariant (n + 2) tag form (fun node => ∃ a b c d, node = make a b c d) fun payload => do
      let [first, second, third, fourth] ← fields? [k₁, k₂, k₃, k₄] payload | none
      return make (← r₁ first) (← r₂ second) (← r₃ third) (← r₄ fourth) := by
  have node : ∀ found : α × β × γ × δ × Unit, form (make found.1 found.2.1 found.2.2.1 found.2.2.2.1) =
      .tagged tag (.record [f₁ found.1, f₂ found.2.1, f₃ found.2.2.1, f₄ found.2.2.2.1]) :=
    fun found => shape found.1 found.2.1 found.2.2.1 found.2.2.2.1
  refine (readsVariant_part (reads_record (one.cons (two.cons (three.cons (four.cons .nil))))) node).congr
    (by simp) fun payload => ?_
  cases found : fields? [k₁, k₂, k₃, k₄] payload with
  | none => rfl
  | some slots =>
      match slots, Json.length_fields? found with
      | [first, second, third, fourth], _ => simp

end Records

/-! ### Variants -/

section Variants

variable {form : ε → Form} {here : ε → Prop} {tree : ε}

/-- What is read as the payload of a variant, whatever its name, is read on its own. -/
theorem reads_payload (tag : String) {read : Json → Option ε} (all : ∀ node, here node)
    (variant : ReadsVariant (n + 1) tag (fun node => .tagged tag (form node)) here read) : Reads n form read where
  iff payload node := by
    rw [variant.iff payload node, and_iff_right (all node), Form.fits_tagged]
    simp
  rejects payload node broken := variant.rejects payload node (all node) (.inr ⟨payload, rfl, broken⟩)

/-- A variant whose payload is read as the trees in question. -/
theorem readsVariant_payload {read : Json → Option ε}
    (shape : ∀ node, here node → form node = .tagged tag (form node).payload)
    (sound : ∀ value node, read value = some node → here node ∧ (form node).payload.Fits n value)
    (at_ : ∀ node, here node → ReadsAt n (fun node => (form node).payload) read node) :
    ReadsVariant (n + 1) tag form here read where
  iff value node := by
    constructor
    · intro found
      obtain ⟨this, fits⟩ := sound value node found
      rw [shape node this]
      exact ⟨this, Form.fits_tagged.2 ⟨n, value, rfl, rfl, fits⟩⟩
    · rintro ⟨this, fits⟩
      rw [shape node this] at fits
      obtain ⟨_, inner, same, object, fits⟩ := Form.fits_tagged.1 fits
      cases same
      cases object
      exact (at_ node this).found value fits
  rejects value node this broken := by
    rw [shape node this] at broken
    exact (at_ node this).rejects value (Form.broken_payload broken)

variable {read : Nat → Json → Option ε}

/-- A variant without payload is found bare and as the key of a null. -/
theorem readsAt_unit (shape : form tree = .unit name)
    (wide : ∀ members, 2 ≤ members.length → read nesting (.object members) = none)
    (bare : read nesting (text name) = some tree)
    (wrapped : ∀ n, read (n + 1) (.object [(some name, .null)]) = some tree) :
    ReadsAt nesting form (read nesting) tree where
  found value fits := by
    rw [shape] at fits
    rcases Form.fits_unit.1 fits with rfl | ⟨deep, rfl⟩
    · exact bare
    · obtain ⟨n, rfl⟩ := Nat.exists_eq_add_one_of_ne_zero (Nat.ne_zero_of_lt deep)
      exact wrapped n
  rejects value broken := by
    rw [shape] at broken
    obtain ⟨members, rfl, several⟩ := broken
    exact wide members several

/-- A variant with a payload is found where the reader of the payload finds it. -/
theorem readsAt_tagged {payload : Form} (shape : form tree = .tagged tag payload)
    (wide : ∀ members, 2 ≤ members.length → read nesting (.object members) = none)
    (found : ∀ inner, (form tree).Fits nesting (.object [(some tag, inner)]) →
      read nesting (.object [(some tag, inner)]) = some tree)
    (rejects : ∀ inner, (form tree).Broken (.object [(some tag, inner)]) →
      read nesting (.object [(some tag, inner)]) = none) :
    ReadsAt nesting form (read nesting) tree where
  found value fits := by
    obtain ⟨_, inner, _, rfl, _⟩ := Form.fits_tagged.1 (shape ▸ fits)
    exact found inner fits
  rejects value broken := by
    rw [shape] at broken rejects
    rcases broken with ⟨members, rfl, several⟩ | ⟨inner, rfl, broken⟩
    · exact wide members several
    · exact rejects inner (.inr ⟨inner, rfl, broken⟩)

/-- A variant with a payload needs room for a container. -/
theorem readsAt_part {payload : Form} (shape : form tree = .tagged tag payload)
    (wide : ∀ members, 2 ≤ members.length → read nesting (.object members) = none)
    (closed : ∀ inner, read 0 (.object [(some tag, inner)]) = none)
    (variant : ∀ n, nesting = n + 1 →
      ReadsVariant (n + 1) tag form here fun inner => read (n + 1) (.object [(some tag, inner)]))
    (this : here tree) : ReadsAt nesting form (read nesting) tree := by
  cases nesting with
  | zero =>
      refine readsAt_tagged shape wide (fun inner fits => ?_) fun inner _ => closed inner
      obtain ⟨n, _, same, _⟩ := Form.fits_tagged.1 (shape ▸ fits)
      cases same
  | succ n =>
      exact readsAt_tagged shape wide (fun inner fits => ((variant n rfl).iff inner tree).2 ⟨this, fits⟩)
        fun inner broken => (variant n rfl).rejects inner tree this broken

/-- A variant whose payload is a record needs room for two containers. -/
theorem readsAt_node {fields : List Field} (shape : form tree = .tagged tag (.record fields))
    (wide : ∀ members, 2 ≤ members.length → read nesting (.object members) = none)
    (closed : ∀ inner, read 0 (.object [(some tag, inner)]) = none)
    (narrow : ∀ inner, read 1 (.object [(some tag, inner)]) = none)
    (variant : ∀ n, nesting = n + 2 →
      ReadsVariant (n + 2) tag form here fun inner => read (n + 2) (.object [(some tag, inner)]))
    (this : here tree) : ReadsAt nesting form (read nesting) tree := by
  match nesting with
  | 0 =>
      refine readsAt_tagged shape wide (fun inner fits => ?_) fun inner _ => closed inner
      obtain ⟨n, _, same, _⟩ := Form.fits_tagged.1 (shape ▸ fits)
      cases same
  | 1 =>
      refine readsAt_tagged shape wide (fun inner fits => ?_) fun inner _ => narrow inner
      obtain ⟨n, _, same, _, fits⟩ := Form.fits_tagged.1 (shape ▸ fits)
      cases same
      obtain ⟨n, _, same, _⟩ := Form.fits_record.1 fits
      cases same
  | n + 2 =>
      exact readsAt_tagged shape wide (fun inner fits => ((variant n rfl).iff inner tree).2 ⟨this, fits⟩)
        fun inner broken => (variant n rfl).rejects inner tree this broken

/-- A reader of variants reads a form if it finds every tree, and only trees that fit. -/
theorem reads_of_readsAt {read : Json → Option ε}
    (sound : ∀ value tree, read value = some tree → (form tree).Fits nesting value)
    (at_ : ∀ tree, ReadsAt nesting form read tree) : Reads nesting form read where
  iff value tree := ⟨sound value tree, (at_ tree).found value⟩
  rejects value other := (at_ other).rejects value

end Variants

end YulFuzz.Corpus
