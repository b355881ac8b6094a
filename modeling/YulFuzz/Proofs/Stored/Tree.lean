/-
Module: YulFuzz.Proofs.Stored.Tree
Purpose: The forms in which program trees are stored: for each kind of node its name and its fields in their order,
  and whether a field has a default and is at it. The encoding of a tree is the encoding of its form.
Main exports: Tree.Expr.form, Tree.Stmt.form, Tree.Program.form, Tree.Program.encode_form, Tree.Program.sound_form
-/
import YulFuzz.Corpus.Encoding
import YulFuzz.Proofs.Stored.Form

namespace YulFuzz.Tree

open Corpus (Field Form)

/-! ### The forms of trees -/

/-- The form of a number below 2 to the 32. -/
def countForm (value : UInt32) : Form := .leaf (.natural value.toNat)

/-- A node: a variant whose payload is a record. -/
def nodeForm (name : String) (fields : List Field) : Form := .tagged name (.record fields)

/-- The form of a reference to a variable. -/
def varRefForm (number : UInt32) : Form := .record [.required "varnum" (countForm number)]

/-- The form of a block with the given statements. -/
def blockForm (statements : List Form) : Form :=
  .record [.optional "statements" statements.isEmpty (.list statements)]

/-- The form of a literal. -/
def Literal.form : Literal → Form
  | .int value => .tagged "int" (.leaf (.natural value.toNat))
  | .hex raw => .tagged "hex" (.leaf (.text raw))
  | .str raw => .tagged "str" (.leaf (.text raw))
  | .unset => .unit "unset"

/-- The literal is left open. -/
def Literal.isUnset : Literal → Bool
  | .unset => true
  | _ => false

theorem Literal.isUnset_iff (l : Literal) : l.isUnset = true ↔ .unset = l := by
  cases l <;> simp [Literal.isUnset]

/-- The expression is left open. -/
def Expr.isUnset : Expr → Bool
  | .unset => true
  | _ => false

theorem Expr.isUnset_iff (e : Expr) : e.isUnset = true ↔ .unset = e := by
  cases e <;> simp [Expr.isUnset]

mutual

/-- The form of an expression. -/
def Expr.form : Expr → Form
  | .varRef number => .tagged "var_ref" (varRefForm number)
  | .literal l => .tagged "literal" l.form
  | .binary op left right =>
    nodeForm "binary" [.required "op" (.unit op.name), .optional "left" left.isUnset left.form,
      .optional "right" right.isUnset right.form]
  | .unary op operand =>
    nodeForm "unary" [.required "op" (.unit op.name), .optional "operand" operand.isUnset operand.form]
  | .ternary op first second third =>
    nodeForm "ternary" [.required "op" (.unit op.name), .optional "arg1" first.isUnset first.form,
      .optional "arg2" second.isUnset second.form, .optional "arg3" third.isUnset third.form]
  | .nullary op => nodeForm "nullary" [.required "op" (.unit op.name)]
  | .call usage selector args targets =>
    nodeForm "function_call" [.required "ret" (.unit usage.name),
      .optional "func_index" (selector == 0) (countForm selector),
      .optional "in_params" args.isEmpty (.list (Expr.forms args)),
      .optional "out_params" targets.isEmpty (.list (targets.map varRefForm))]
  | .unset => .unit "unset"

/-- The forms of the expressions of a list. -/
def Expr.forms : List Expr → List Form
  | [] => []
  | expr :: rest => expr.form :: Expr.forms rest

end

mutual

/-- The form of a statement. -/
def Stmt.form : Stmt → Form
  | .declare none value => nodeForm "var_decl" [.optional "expr" value.isUnset value.form]
  | .declare (some type) value =>
    nodeForm "typed_var_decl" [.required "type" (.unit type.name), .optional "expr" value.isUnset value.form]
  | .assign target value =>
    nodeForm "assignment" [.optional "target" (target == 0) (varRefForm target),
      .optional "expr" value.isUnset value.form]
  | .ifThen cond body =>
    nodeForm "if" [.optional "cond" cond.isUnset cond.form,
      .optional "body" body.isEmpty (blockForm (Stmt.forms body))]
  | .store op location value =>
    nodeForm "store" [.required "kind" (.unit op.name), .optional "loc" location.isUnset location.form,
      .optional "val" value.isUnset value.form]
  | .block body => .tagged "block" (blockForm (Stmt.forms body))
  | .forLoop init cond post body =>
    nodeForm "for" [.optional "init" init.isEmpty (blockForm (Stmt.forms init)),
      .optional "cond" cond.isUnset cond.form, .optional "post" post.isEmpty (blockForm (Stmt.forms post)),
      .optional "body" body.isEmpty (blockForm (Stmt.forms body))]
  | .boundedFor body => nodeForm "bounded_for" [.optional "body" body.isEmpty (blockForm (Stmt.forms body))]
  | .switch scrutinee cases default =>
    nodeForm "switch" [.optional "expr" scrutinee.isUnset scrutinee.form,
      .optional "cases" cases.isEmpty (.list (Stmt.caseForms cases)),
      .optional "default" default.isNone (Stmt.defaultForm default)]
  | .breakLoop => .unit "break"
  | .continueLoop => .unit "continue"
  | .log position size topics =>
    nodeForm "log" [.optional "pos" position.isUnset position.form, .optional "size" size.isUnset size.form,
      .optional "topics" topics.isEmpty (.list (Expr.forms topics))]
  | .copy region target source size =>
    nodeForm "copy" [.required "kind" (.unit region.name), .optional "target" target.isUnset target.form,
      .optional "source" source.isUnset source.form, .optional "size" size.isUnset size.form]
  | .extCodeCopy address target source size =>
    nodeForm "ext_code_copy" [.optional "addr" address.isUnset address.form,
      .optional "target" target.isUnset target.form, .optional "source" source.isUnset source.form,
      .optional "size" size.isUnset size.form]
  | .halt op => .tagged "terminating" (.tagged "stop_invalid" (.unit op.name))
  | .exit op position size =>
    .tagged "terminating" (nodeForm "ret_rev" [.required "kind" (.unit op.name),
      .optional "pos" position.isUnset position.form, .optional "size" size.isUnset size.form])
  | .selfDestruct address =>
    .tagged "terminating" (nodeForm "self_destruct" [.optional "addr" address.isUnset address.form])
  | .call usage selector args targets =>
    nodeForm "function_call" [.required "ret" (.unit usage.name),
      .optional "func_index" (selector == 0) (countForm selector),
      .optional "in_params" args.isEmpty (.list (Expr.forms args)),
      .optional "out_params" targets.isEmpty (.list (targets.map varRefForm))]
  | .define inputs outputs body =>
    nodeForm "function_def" [.optional "num_input_params" (inputs == 0) (countForm inputs),
      .optional "num_output_params" (outputs == 0) (countForm outputs),
      .optional "block" body.isEmpty (blockForm (Stmt.forms body))]
  | .pop value => .tagged "pop" value.form

/-- The forms of the statements of a block. -/
def Stmt.forms : List Stmt → List Form
  | [] => []
  | stmt :: rest => stmt.form :: Stmt.forms rest

/-- The form of the default of a switch. -/
def Stmt.defaultForm : Option (List Stmt) → Form
  | none => .leaf .null
  | some body => blockForm (Stmt.forms body)

/-- The forms of the cases of a switch. -/
def Stmt.caseForms : List (Literal × List Stmt) → List Form
  | [] => []
  | (label, body) :: rest =>
    .record [.optional "literal" label.isUnset label.form,
      .optional "block" body.isEmpty (blockForm (Stmt.forms body))] :: Stmt.caseForms rest

end

/-- The form of a program. -/
def Program.form (program : Program) : Form :=
  .record [.optional "block" program.block.isEmpty (blockForm (Stmt.forms program.block))]

/-- The form of a case of a switch. -/
def caseForm (case : Literal × List Stmt) : Form :=
  .record [.optional "literal" case.1.isUnset case.1.form,
    .optional "block" case.2.isEmpty (blockForm (Stmt.forms case.2))]

theorem Expr.forms_eq_map (es : List Expr) : Expr.forms es = es.map Expr.form := by
  induction es with
  | nil => rw [Expr.forms, List.map_nil]
  | cons e rest ih => rw [Expr.forms, List.map_cons, ih]

theorem Stmt.forms_eq_map (ss : List Stmt) : Stmt.forms ss = ss.map Stmt.form := by
  induction ss with
  | nil => rw [Stmt.forms, List.map_nil]
  | cons s rest ih => rw [Stmt.forms, List.map_cons, ih]

theorem Stmt.caseForms_eq_map (cases : List (Literal × List Stmt)) :
    Stmt.caseForms cases = cases.map caseForm := by
  induction cases with
  | nil => rw [Stmt.caseForms, List.map_nil]
  | cons case rest ih => rw [Stmt.caseForms, List.map_cons, ih, caseForm]

/-! ### Their encodings -/

section Encoding

attribute [local simp] Form.encode Form.encodeItems Form.encodeFields Field.required Field.optional
  Corpus.Leaf.encode countForm nodeForm varRefForm blockForm Corpus.tagged Corpus.node Corpus.uint32 Corpus.varRef
  Corpus.varRefs Corpus.blockOf

theorem Literal.encode_form (l : Literal) : l.form.encode = Corpus.literal l := by
  cases l <;> simp [Literal.form, Corpus.literal]

theorem encode_varRefForms (targets : List UInt32) :
    Form.encodeItems (targets.map varRefForm) = targets.map Corpus.varRef := by
  rw [Form.encodeItems_eq_map, List.map_map]
  exact List.map_congr_left fun _ _ => by simp

mutual

theorem Expr.encode_form : ∀ e : Expr, e.form.encode = Corpus.expression e
  | .varRef _ | .nullary _ | .unset => by simp [Expr.form, Corpus.expression]
  | .literal l => by simp [Expr.form, Corpus.expression, l.encode_form]
  | .binary _ left right => by simp [Expr.form, Corpus.expression, left.encode_form, right.encode_form]
  | .unary _ operand => by simp [Expr.form, Corpus.expression, operand.encode_form]
  | .ternary _ first second third => by
      simp [Expr.form, Corpus.expression, first.encode_form, second.encode_form, third.encode_form]
  | .call _ _ args targets => by
      simp [Expr.form, Corpus.expression, Expr.encode_forms args, encode_varRefForms]

theorem Expr.encode_forms : ∀ es : List Expr, Form.encodeItems (Expr.forms es) = Corpus.expressions es
  | [] => rfl
  | e :: rest => by simp [Expr.forms, Corpus.expressions, e.encode_form, Expr.encode_forms rest]

end

mutual

theorem Stmt.encode_form : ∀ s : Stmt, s.form.encode = Corpus.statement s
  | .declare none value => by simp [Stmt.form, Corpus.statement, value.encode_form]
  | .declare (some _) value => by simp [Stmt.form, Corpus.statement, value.encode_form]
  | .assign _ value => by simp [Stmt.form, Corpus.statement, value.encode_form]
  | .ifThen cond body => by simp [Stmt.form, Corpus.statement, cond.encode_form, Stmt.encode_forms body]
  | .store _ location value => by simp [Stmt.form, Corpus.statement, location.encode_form, value.encode_form]
  | .block body => by simp [Stmt.form, Corpus.statement, Stmt.encode_forms body]
  | .forLoop init cond post body => by
      simp [Stmt.form, Corpus.statement, Stmt.encode_forms init, cond.encode_form, Stmt.encode_forms post,
        Stmt.encode_forms body]
  | .boundedFor body => by simp [Stmt.form, Corpus.statement, Stmt.encode_forms body]
  | .switch scrutinee cases none => by
      simp [Stmt.form, Stmt.defaultForm, Corpus.statement, scrutinee.encode_form, Stmt.encode_caseForms cases]
  | .switch scrutinee cases (some default) => by
      simp [Stmt.form, Stmt.defaultForm, Corpus.statement, scrutinee.encode_form, Stmt.encode_caseForms cases,
        Stmt.encode_forms default]
  | .breakLoop | .continueLoop | .halt _ => by simp [Stmt.form, Corpus.statement]
  | .log position size topics => by
      simp [Stmt.form, Corpus.statement, position.encode_form, size.encode_form, Expr.encode_forms topics]
  | .copy _ target source size => by
      simp [Stmt.form, Corpus.statement, target.encode_form, source.encode_form, size.encode_form]
  | .extCodeCopy address target source size => by
      simp [Stmt.form, Corpus.statement, address.encode_form, target.encode_form, source.encode_form,
        size.encode_form]
  | .exit _ position size => by simp [Stmt.form, Corpus.statement, position.encode_form, size.encode_form]
  | .selfDestruct address => by simp [Stmt.form, Corpus.statement, address.encode_form]
  | .call _ _ args targets => by
      simp [Stmt.form, Corpus.statement, Expr.encode_forms args, encode_varRefForms]
  | .define _ _ body => by simp [Stmt.form, Corpus.statement, Stmt.encode_forms body]
  | .pop value => by simp [Stmt.form, Corpus.statement, value.encode_form]

theorem Stmt.encode_forms : ∀ ss : List Stmt, Form.encodeItems (Stmt.forms ss) = Corpus.statements ss
  | [] => rfl
  | s :: rest => by simp [Stmt.forms, Corpus.statements, s.encode_form, Stmt.encode_forms rest]

theorem Stmt.encode_caseForms :
    ∀ cases : List (Literal × List Stmt), Form.encodeItems (Stmt.caseForms cases) = Corpus.cases cases
  | [] => rfl
  | (label, body) :: rest => by
      simp [Stmt.caseForms, Corpus.cases, label.encode_form, Stmt.encode_forms body, Stmt.encode_caseForms rest]

end

/-- The encoding of a program is that of its form. -/
theorem Program.encode_form (program : Program) : program.form.encode = program.toJson := by
  simp [Program.form, Program.toJson, Stmt.encode_forms]

end Encoding

/-! ### Their soundness -/

section Soundness

variable {name : String} {fields : List Field}

theorem sound_node : (nodeForm name fields).Sound ↔ (fields.map Field.name).Nodup ∧ Form.FieldsSound fields :=
  Iff.rfl

theorem sound_required {value : Form} :
    Form.FieldsSound (.required name value :: fields) ↔ value.Sound ∧ Form.FieldsSound fields := by
  simp [Form.FieldsSound, Field.required]

theorem sound_optional {isDefault : Bool} {value : Form} (sound : value.Sound)
    (shallow : isDefault → value.encode.depth ≤ 2) :
    Form.FieldsSound (.optional name isDefault value :: fields) ↔ Form.FieldsSound fields := by
  cases isDefault <;> simp_all [Form.FieldsSound, Field.optional]

theorem sound_countField (value : UInt32) :
    Form.FieldsSound (.optional name (value == 0) (countForm value) :: fields) ↔ Form.FieldsSound fields :=
  sound_optional trivial fun _ => Nat.zero_le 2

theorem sound_varRef (number : UInt32) : (varRefForm number).Sound := by
  simp [varRefForm, countForm, Form.Sound, Form.FieldsSound, sound_required]

theorem sound_varRefField (number : UInt32) :
    Form.FieldsSound (.optional name (number == 0) (varRefForm number) :: fields) ↔ Form.FieldsSound fields := by
  refine sound_optional (sound_varRef number) fun _ => ?_
  rw [varRefForm, Form.encode_record]
  exact Nat.le_succ 1

/-- A list may be missing where it is empty. -/
theorem sound_listField {α : Type} {parts : List α} {items : List Form} (sound : Form.ItemsSound items)
    (same : parts = [] → items = []) :
    Form.FieldsSound (.optional name parts.isEmpty (.list items) :: fields) ↔ Form.FieldsSound fields := by
  have list : (Form.list items).Sound := sound
  refine sound_optional list fun empty => ?_
  rw [same (List.isEmpty_iff.1 empty)]
  exact Nat.le_succ 1

theorem sound_varRefsField (targets : List UInt32) :
    Form.FieldsSound (.optional name targets.isEmpty (.list (targets.map varRefForm)) :: fields) ↔
      Form.FieldsSound fields :=
  sound_listField (Form.itemsSound_iff.2 (List.forall_mem_map.2 fun number _ => sound_varRef number))
    List.map_eq_nil_iff.2

theorem Literal.sound_form (l : Literal) : l.form.Sound := by
  cases l <;> trivial

theorem sound_literalField (l : Literal) :
    Form.FieldsSound (.optional name l.isUnset l.form :: fields) ↔ Form.FieldsSound fields := by
  refine sound_optional l.sound_form fun unset => ?_
  cases l
  case unset => exact Nat.zero_le 2
  all_goals cases unset

theorem sound_exprField {e : Expr} (sound : e.form.Sound) :
    Form.FieldsSound (.optional name e.isUnset e.form :: fields) ↔ Form.FieldsSound fields := by
  refine sound_optional sound fun unset => ?_
  cases e
  case unset => rw [Expr.form]; exact Nat.zero_le 2
  all_goals cases unset

theorem sound_exprsField {es : List Expr} (sound : Form.ItemsSound (Expr.forms es)) :
    Form.FieldsSound (.optional name es.isEmpty (.list (Expr.forms es)) :: fields) ↔ Form.FieldsSound fields :=
  sound_listField sound fun empty => by rw [empty, Expr.forms]

theorem sound_casesField {cases : List (Literal × List Stmt)} (sound : Form.ItemsSound (Stmt.caseForms cases)) :
    Form.FieldsSound (.optional name cases.isEmpty (.list (Stmt.caseForms cases)) :: fields) ↔
      Form.FieldsSound fields :=
  sound_listField sound fun empty => by rw [empty, Stmt.caseForms]

theorem sound_block {statements : List Form} (sound : Form.ItemsSound statements) :
    (blockForm statements).Sound := by
  exact ⟨List.nodup_cons.2 ⟨nofun, .nil⟩, (sound_listField sound id).2 trivial⟩

theorem sound_blockField {ss : List Stmt} (sound : Form.ItemsSound (Stmt.forms ss)) :
    Form.FieldsSound (.optional name ss.isEmpty (blockForm (Stmt.forms ss)) :: fields) ↔
      Form.FieldsSound fields := by
  refine sound_optional (sound_block sound) fun empty => ?_
  rw [List.isEmpty_iff.1 empty, Stmt.forms, blockForm, Form.encode_record]
  exact Nat.le_refl 2

theorem sound_defaultField {default : Option (List Stmt)} (sound : (Stmt.defaultForm default).Sound) :
    Form.FieldsSound (.optional name default.isNone (Stmt.defaultForm default) :: fields) ↔
      Form.FieldsSound fields := by
  refine sound_optional sound fun none => ?_
  rw [Option.isNone_iff_eq_none.1 none, Stmt.defaultForm]
  exact Nat.zero_le 2

attribute [local simp] sound_node sound_required sound_countField sound_varRef sound_varRefField
  sound_varRefsField sound_literalField sound_exprField sound_exprsField sound_block sound_blockField Form.Sound
  Form.ItemsSound Form.FieldsSound Literal.sound_form

mutual

theorem Expr.sound_form : ∀ e : Expr, e.form.Sound
  | .varRef _ | .literal _ | .nullary _ | .unset => by simp [Expr.form]
  | .binary _ left right => by simp [Expr.form, left.sound_form, right.sound_form]
  | .unary _ operand => by simp [Expr.form, operand.sound_form]
  | .ternary _ first second third => by simp [Expr.form, first.sound_form, second.sound_form, third.sound_form]
  | .call _ _ args targets => by simp [Expr.form, Expr.sound_forms args]

theorem Expr.sound_forms : ∀ es : List Expr, Form.ItemsSound (Expr.forms es)
  | [] => trivial
  | e :: rest => ⟨e.sound_form, Expr.sound_forms rest⟩

end

attribute [local simp] Expr.sound_form Expr.sound_forms

mutual

theorem Stmt.sound_form : ∀ s : Stmt, s.form.Sound
  | .declare none _ | .declare (some _) _ | .assign .. | .store .. | .breakLoop | .continueLoop | .log .. | .copy ..
  | .extCodeCopy .. | .halt _ | .exit .. | .selfDestruct _ | .call .. | .pop _ => by simp [Stmt.form]
  | .ifThen _ body | .block body | .boundedFor body | .define _ _ body => by
      simp [Stmt.form, Stmt.sound_forms body]
  | .forLoop init _ post body => by
      simp [Stmt.form, Stmt.sound_forms init, Stmt.sound_forms post, Stmt.sound_forms body]
  | .switch _ cases default => by
      simp [Stmt.form, sound_casesField (Stmt.sound_caseForms cases),
        sound_defaultField (Stmt.sound_defaultForm default)]

theorem Stmt.sound_forms : ∀ ss : List Stmt, Form.ItemsSound (Stmt.forms ss)
  | [] => trivial
  | s :: rest => ⟨s.sound_form, Stmt.sound_forms rest⟩

theorem Stmt.sound_defaultForm : ∀ default : Option (List Stmt), (Stmt.defaultForm default).Sound
  | none => trivial
  | some body => sound_block (Stmt.sound_forms body)

theorem Stmt.sound_caseForms : ∀ cases : List (Literal × List Stmt), Form.ItemsSound (Stmt.caseForms cases)
  | [] => trivial
  | (_, body) :: rest => by simp [Stmt.caseForms, Stmt.sound_forms body, Stmt.sound_caseForms rest]

end

theorem Program.sound_form (program : Program) : program.form.Sound := by
  simp [Program.form, Stmt.sound_forms]

end Soundness

end YulFuzz.Tree
