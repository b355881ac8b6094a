/-
Module: YulFuzz.Proofs.Stored.Spellings
Purpose: All spellings of a program tree are loaded alike. The encoding of a tree may be respelled any number of times
  and anywhere in it, and it may be written as text in any way: the tree itself is loaded, up to the limit on open
  containers. Where a respelling is damaged, nothing is loaded.
Main exports: Tree.Program.ofText_of_respelling
-/
import Mathlib.Logic.Relation
import YulFuzz.Proofs.Stored.RoundTrip

namespace YulFuzz.Tree.Program

open Corpus (Field Form)

/-- One value is a respelling of another, as spellings of a form: it comes from it by rewriting it anywhere. -/
def Respelled (form : Form) : Json → Json → Prop := Relation.ReflTransGen (Form.Somewhere Form.Respelling form)

theorem spelled_of_respelled {program : Program} {value : Json}
    (respelled : Respelled program.form program.toJson value) : program.form.Spelled value := by
  induction respelled with
  | refl => exact program.spelled_toJson
  | tail _ step spelled => exact spelled.respell_somewhere program.sound_form step

/-- Every text of a respelling of the encoding of a program is loaded as the program, as long as no more than 127
    containers are open at once on the way through it, and no text of a damaged respelling is loaded. -/
theorem ofText_of_respelling {program : Program} {value : Json}
    (respelled : Respelled program.form program.toJson value) :
    (∀ text, value.IsText text → ofText text =
      if program.form.depthOn value ≤ 127 then .ok program else .error (.input "the value is not a program")) ∧
    ∀ damaged, Form.Somewhere Form.Damage program.form value damaged → ∀ text, damaged.IsText text →
      ofText text = .error (.input "the value is not a program") := by
  have spelled := spelled_of_respelled respelled
  constructor
  · intro text written
    rw [ofText_of_isText written, ofValue_of_spelled spelled, notAProgram]
  · intro damaged damage text written
    rw [ofText_of_isText written, ofValue_of_broken (Form.broken_of_damage program.sound_form damage spelled),
      notAProgram]

/-! ### A respelling of a small program -/

/-- A program that discards the gas that is left. -/
def gasProgram : Program := ⟨[.pop (.nullary .gas)]⟩

/-- The form of the operation in it. -/
def gasForm : Form := .record [.required "op" (.unit "gas")]

/-- The encoding of the program, with another value in the place of the operation. -/
def gasValue (operation : Json) : Json :=
  .record [("block", .record [("statements", .array [.record [("pop", .record [("nullary", operation)])]])])]

theorem somewhere_gasValue {step : Form → Json → Json → Prop} {operation operation' : Json}
    (inside : Form.Somewhere step gasForm operation operation') :
    Form.Somewhere step gasProgram.form (gasValue operation) (gasValue operation') := by
  rw [gasProgram, form, Stmt.forms, Stmt.forms, Stmt.form, Expr.form]
  have statement : Form.Somewhere step (.tagged "pop" (nodeForm "nullary" [.required "op" (.unit "gas")]))
      (.record [("pop", .record [("nullary", operation)])])
      (.record [("pop", .record [("nullary", operation')])]) := .payload (.payload inside)
  have list := @Form.Somewhere.item step [] [] _ [] [] _ _ rfl statement
  have block := @Form.Somewhere.member step _ _ [] [] _ _
    (List.mem_singleton_self (.optional "statements" false (.list _))) list
  exact @Form.Somewhere.member step _ _ [] [] _ _ (List.mem_singleton_self (.optional "block" false _)) block

/-- The operation as the key of a null, after an unknown key whose value is half of a surrogate pair. -/
def gasRespelled : Json := .record [("note", .string none), ("op", .record [("gas", .null)])]

theorem respelled_gas : Respelled gasProgram.form gasProgram.toJson (gasValue gasRespelled) := by
  have encoded : gasProgram.toJson = gasValue (.record [("op", .text "gas")]) := rfl
  have wrapped : Form.Somewhere Form.Respelling gasForm (.record [("op", .text "gas")])
      (.record [("op", .record [("gas", .null)])]) :=
    @Form.Somewhere.member _ _ _ [] [] _ _ (List.mem_singleton_self (.required "op" (.unit "gas"))) (.here .wrap)
  have noted : Form.Somewhere Form.Respelling gasForm (.record [("op", .record [("gas", .null)])]) gasRespelled :=
    .here (@Form.Respelling.addUnknown _ "note" [] _ _ (by simp))
  rw [encoded]
  exact (Relation.ReflTransGen.single (somewhere_gasValue wrapped)).tail (somewhere_gasValue noted)

theorem damaged_gas : Form.Somewhere Form.Damage gasProgram.form (gasValue gasRespelled)
    (gasValue (.record [("note", .string none)])) := by
  have operation : Field.required "op" (.unit "gas") ∈ [Field.required "op" (.unit "gas")] :=
    List.mem_singleton_self _
  exact somewhere_gasValue
    (.here (@Form.Damage.leaveOut _ _ [(some "note", .string none)] [] (.record [("gas", .null)]) operation rfl))

theorem shallow_gas : gasProgram.form.depthOn (gasValue gasRespelled) ≤ 127 := by
  have read : Corpus.program? 8 (gasValue gasRespelled) = some gasProgram := rfl
  exact Nat.le_trans ((Corpus.reads_program.iff _ _).1 read).2 (by decide)

/-- Printed, the respelling is loaded as the program. Without the required operation it is not loaded. -/
theorem ofText_gasRespelled : ofText (gasValue gasRespelled).print = .ok gasProgram ∧
    ofText (gasValue (.record [("note", .string none)])).print = .error (.input "the value is not a program") := by
  have printed (operation : Json) (printable : operation.Printable) :
      (gasValue operation).IsText (gasValue operation).print :=
    Json.isText_print (by simp [gasValue, Json.record, Json.printable_object, Json.printable_array, printable])
  have first : gasRespelled.Printable := by
    simp [gasRespelled, Json.record, Json.printable_object, Json.Printable, Json.MembersPrintable]
  have second : (Json.record [("note", .string none)]).Printable := by
    simp [Json.record, Json.printable_object, Json.Printable]
  obtain ⟨loaded, rejected⟩ := ofText_of_respelling respelled_gas
  refine ⟨?_, rejected _ damaged_gas _ (printed _ second)⟩
  rw [loaded _ (printed _ first), if_pos shallow_gas]

end YulFuzz.Tree.Program
