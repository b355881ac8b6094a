/-
Module: YulFuzz.Proofs.Stored.RoundTrip
Purpose: Storing a program tree as text and loading it again. The text of a tree is loaded as the tree up to the limit
  on open containers and not beyond it. A tree that has been loaded from some text opens at most two containers more
  in its own text than on the way through that one, so that it may be just out of reach when it is stored again.
Main exports: Tree.Program.ofValue_of_spelled, Tree.Program.ofText_toText, Tree.Program.reload_of_ofText,
  Tree.Program.tower_not_reloaded
-/
import YulFuzz.Corpus.Stored
import YulFuzz.Proofs.Stored.Decoding

namespace YulFuzz.Tree.Program

open Corpus (Form)

variable {program : Program} {value : Json} {text : String}

/-! ### Loading -/

/-- The outcome for a text that is JSON but stores no program. -/
def notAProgram : Except Error Program := .error (.input "the value is not a program")

/-- Any text of a value is loaded as the value. -/
theorem ofText_of_isText (written : value.IsText text) : ofText text = ofValue value := by
  unfold ofText
  rw [Json.read?_of_isText written]

/-- A value spells at most one program. -/
theorem eq_of_spelled {other : Program} (one : program.form.Spelled value) (two : other.form.Spelled value) :
    program = other := by
  have first := (Corpus.reads_program.iff value program).2 ⟨one, Nat.le_max_left _ (other.form.depthOn value)⟩
  have second := (Corpus.reads_program.iff value other).2 ⟨two, Nat.le_max_right (program.form.depthOn value) _⟩
  exact Option.some.inj (first.symm.trans second)

/-- A spelling of a program is loaded as the program unless it opens too many containers. -/
theorem ofValue_of_spelled (spelled : program.form.Spelled value) :
    ofValue value = if program.form.depthOn value ≤ 127 then .ok program else notAProgram := by
  unfold ofValue ofJson?
  split
  case h_1 other read =>
      have fits := (Corpus.reads_program.iff value other).1 read
      obtain rfl := eq_of_spelled spelled fits.1
      have shallow : program.form.depthOn value ≤ 127 := fits.2
      rw [if_pos shallow]
  case h_2 unread =>
      have deep : ¬ program.form.depthOn value ≤ 127 := fun shallow => by
        have read : Corpus.program? Corpus.maxNesting value = some program :=
          (Corpus.reads_program.iff value program).2 ⟨spelled, shallow⟩
        rw [read] at unread
        cases unread
      rw [if_neg deep, notAProgram]

/-- A value that is broken along the form of a program is not loaded. -/
theorem ofValue_of_broken (broken : program.form.Broken value) : ofValue value = notAProgram := by
  unfold ofValue ofJson?
  rw [Corpus.reads_program.rejects value program broken, notAProgram]

/-- A text that is loaded as a program spells it. -/
theorem spelled_of_ofText (loaded : ofText text = .ok program) :
    ∃ value, Json.read? text = some value ∧ program.form.Fits 127 value := by
  unfold ofText at loaded
  split at loaded
  case h_1 value read =>
      unfold ofValue ofJson? at loaded
      split at loaded
      case h_1 other found =>
          cases loaded
          exact ⟨value, read, (Corpus.reads_program.iff value program).1 found⟩
      case h_2 => cases loaded
  case h_2 => cases loaded

/-! ### Storing -/

theorem isText_toText (program : Program) : program.toJson.IsText program.toText := by
  refine Json.isText_print ?_
  rw [← encode_form]
  exact Form.printable_encode program.form

theorem fits_toJson {nesting : Nat} : program.form.Fits nesting program.toJson ↔ program.toJson.depth ≤ nesting := by
  rw [← encode_form]
  exact Form.fits_encode program.sound_form

theorem spelled_toJson (program : Program) : program.form.Spelled program.toJson :=
  (fits_toJson.2 (Nat.le_refl _)).1

theorem depthOn_toJson (program : Program) : program.form.depthOn program.toJson = program.toJson.depth :=
  Nat.le_antisymm (fits_toJson.2 (Nat.le_refl _)).2
    (fits_toJson.1 ⟨program.spelled_toJson, Nat.le_refl _⟩)

theorem ofValue_toJson (program : Program) :
    ofValue program.toJson = if program.toJson.depth ≤ 127 then .ok program else notAProgram := by
  rw [ofValue_of_spelled program.spelled_toJson, depthOn_toJson]

/-- The text of a program is loaded as the program if and only if it opens at most 127 containers at once. -/
theorem ofText_toText (program : Program) :
    ofText program.toText =
      if program.toJson.depth ≤ 127 then .ok program else .error (.input "the value is not a program") := by
  rw [ofText_of_isText program.isText_toText, ofValue_toJson, notAProgram]

/-! ### Storing what was loaded -/

/-- A program that was loaded from some text opens at most two containers more in its own text than on the way
    through that one, and its own text is loaded as the program again unless this is too many. -/
theorem reload_of_ofText (loaded : ofText text = .ok program) :
    ∃ value, Json.read? text = some value ∧ program.toJson.depth ≤ program.form.depthOn value + 2 ∧
      ofText program.toText =
        if program.toJson.depth ≤ 127 then .ok program else .error (.input "the value is not a program") := by
  obtain ⟨value, read, spelled, _⟩ := spelled_of_ofText loaded
  refine ⟨value, read, ?_, ?_⟩
  · rw [← encode_form]
    exact Form.depth_encode_le program.sound_form ⟨spelled, Nat.le_refl _⟩
  · rw [ofText_of_isText program.isText_toText, ofValue_toJson, notAProgram]

/-! ### A tree that is out of reach once it is stored -/

/-- Blocks in blocks, around a switch with a case. -/
def tower : Nat → Stmt
  | 0 => .switch .unset [(.unset, [])] none
  | height + 1 => .block [tower height]

/-- The tower as a program. -/
def towerProgram (height : Nat) : Program := ⟨[tower height]⟩

/-- A spelling of the tower in which the switch has nothing but a case of which nothing is written. -/
def towerValue : Nat → Json
  | 0 => .record [("switch", .record [("cases", .array [.record []])])]
  | height + 1 => .record [("block", .record [("statements", .array [towerValue height])])]

/-- The spelling as a text. The outermost block of a program looks like one of the blocks inside it. -/
def towerText (height : Nat) : String := (towerValue (height + 1)).print

theorem fits_blockForm {form : Form} {n : Nat} : (blockForm [form]).Fits (n + 2)
    (.record [("statements", .array [value])]) ↔ form.Fits n value := by
  simp [blockForm, Corpus.Field.optional, Form.fits_record, Form.fits_list, Corpus.Field.Fits, Json.record,
    Json.fields?, Json.member?]

theorem fits_tower (height : Nat) : (tower height).form.Fits (3 * height + 4) (towerValue height) := by
  induction height with
  | zero => exact (Corpus.reads_statement.iff _ _).1 rfl
  | succ height ih =>
      rw [tower, towerValue, Stmt.form]
      exact Form.fits_tagged.2 ⟨_, _, rfl, rfl, fits_blockForm.2 ih⟩

theorem depth_tower (height : Nat) : (Corpus.statement (tower height)).depth = 3 * height + 6 := by
  induction height with
  | zero => rfl
  | succ height ih =>
      simp [tower, Corpus.statement, Corpus.statements, Corpus.tagged, Corpus.blockOf, Json.record, Json.depth,
        Json.membersDepth, Json.itemsDepth, ih]
      omega

theorem depth_towerProgram (height : Nat) : (towerProgram height).toJson.depth = 3 * height + 9 := by
  simp [towerProgram, toJson, Corpus.statements, Corpus.blockOf, Json.record, Json.depth, Json.membersDepth,
    Json.itemsDepth, depth_tower]

theorem printable_towerValue (height : Nat) : (towerValue height).Printable := by
  induction height with
  | zero => simp [towerValue, Json.record, Json.printable_object, Json.printable_array]
  | succ height ih => simp [towerValue, Json.record, Json.printable_object, Json.printable_array, ih]

theorem fits_towerProgram (height : Nat) :
    (towerProgram height).form.Fits (3 * height + 7) (towerValue (height + 1)) := by
  have block := fits_blockForm.2 (fits_tower height)
  rw [towerProgram, form, Stmt.forms, Stmt.forms]
  exact Form.fits_record.2 ⟨_, _, rfl, rfl, .cons block .nil⟩

theorem ofText_towerText {height : Nat} (low : 3 * height + 7 ≤ 127) :
    ofText (towerText height) = .ok (towerProgram height) := by
  obtain ⟨spelled, shallow⟩ := fits_towerProgram height
  rw [towerText, ofText_of_isText (Json.isText_print (printable_towerValue _)), ofValue_of_spelled spelled,
    if_pos (Nat.le_trans shallow low)]

/-- A tower of 39 blocks opens 126 containers once it is stored, and is loaded again. -/
theorem tower_reloaded : ofText (towerText 39) = .ok (towerProgram 39) ∧
    ofText (towerProgram 39).toText = .ok (towerProgram 39) := by
  have loaded : ofText (towerText 39) = .ok (towerProgram 39) := ofText_towerText (by decide)
  obtain ⟨_, _, _, reloaded⟩ := reload_of_ofText loaded
  refine ⟨loaded, ?_⟩
  rw [reloaded, depth_towerProgram]
  rfl

/-- A tower of 40 blocks is loaded from a text that opens 127 containers, but opens 129 once it is stored. -/
theorem tower_not_reloaded : ofText (towerText 40) = .ok (towerProgram 40) ∧
    ofText (towerProgram 40).toText = .error (.input "the value is not a program") := by
  refine ⟨ofText_towerText (Nat.le_refl _), ?_⟩
  rw [ofText_of_isText (isText_toText _), ofValue_toJson, depth_towerProgram]
  rfl

end YulFuzz.Tree.Program
