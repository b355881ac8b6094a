/-
Module: YulFuzz.Proofs.Stored.Decoding
Purpose: The readers of program trees read their forms: with a number of containers left to open, a value is read as
  a tree if and only if it spells the form of the tree and opens no more containers than that, and a value that is
  broken along the form of some tree is not read at all.
Main exports: Corpus.reads_expression, Corpus.reads_statement, Corpus.reads_program
-/
import YulFuzz.Proofs.Stored.Reading
import YulFuzz.Proofs.Stored.Tree

namespace YulFuzz.Corpus

open Json (fields? variant? text)
open YulFuzz.Tree

variable {nesting n : Nat} {name : String} {value payload : Json}

theorem isEmpty_iff_nil {α : Type} (items : List α) : items.isEmpty = true ↔ [] = items := by
  rw [List.isEmpty_iff, eq_comm]

/-! ### Numbers and references -/

theorem readsSlot_count :
    ReadsSlot n name (fun count => .optional name (count == 0) (countForm count)) (optional 0 uint32?) :=
  readsSlot_optional reads_uint32 fun count => by rw [beq_iff_eq, eq_comm]

theorem readsSlot_named {α : Type} {all : List α} {nameOf : α → String} (complete : ∀ a, a ∈ all)
    (distinct : (all.map nameOf).Nodup) :
    ReadsSlot n name (fun found => .required name (.unit (nameOf found))) (required (named? all nameOf n)) :=
  readsSlot_required (reads_named complete distinct)

theorem reads_varRef : Reads nesting varRefForm (varRef? nesting) := by
  cases nesting with
  | zero => exact ⟨fun value number => by simp [varRef?, varRefForm, Form.fits_record], fun _ _ _ => rfl⟩
  | succ n => exact reads_field (readsSlot_required reads_uint32)

/-- A list is read where its items are read inside it. -/
theorem reads_list {α : Type} {form : α → Form} {forms : List α → List Form} {read : Nat → Json → Option α}
    {reads : Nat → Json → Option (List α)} (map : ∀ items, forms items = items.map form)
    (closed : ∀ value, reads 0 value = none)
    (opened : ∀ n, reads (n + 1) = fun
      | .array values => values.mapM (read n)
      | _ => none)
    (each : ∀ n, nesting = n + 1 → Reads n form (read n)) :
    Reads nesting (fun items => .list (forms items)) (reads nesting) := by
  obtain rfl : forms = List.map form := funext map
  cases nesting with
  | zero => exact ⟨fun value items => by simp [closed, Form.fits_list], fun value _ _ => closed value⟩
  | succ n =>
      rw [opened]
      exact reads_items (each n rfl)

theorem reads_varRefs : Reads nesting (fun targets => .list (targets.map varRefForm)) (varRefs? nesting) :=
  reads_list (fun _ => rfl) (fun _ => rfl) (fun _ => funext fun value => by cases value <;> rfl)
    fun _ _ => reads_varRef

theorem readsSlot_varRefs : ReadsSlot n name
    (fun targets => .optional name targets.isEmpty (.list (targets.map varRefForm))) (optional [] (varRefs? n)) :=
  readsSlot_optional reads_varRefs isEmpty_iff_nil

/-! ### Literals -/

theorem literal?_wide {members : List (Option String × Json)} (wide : 2 ≤ members.length) :
    literal? nesting (.object members) = none := by
  unfold literal?
  rw [variant?_of_wide wide]

theorem readsVariant_int : ReadsVariant (n + 1) "int" Literal.form (fun l => ∃ number, l = .int number)
    fun payload => literal? (n + 1) (.object [(some "int", payload)]) :=
  readsVariant_part reads_uint64 fun _ => rfl

theorem readsVariant_hex : ReadsVariant (n + 1) "hex" Literal.form (fun l => ∃ raw, l = .hex raw)
    fun payload => literal? (n + 1) (.object [(some "hex", payload)]) :=
  readsVariant_part reads_text fun _ => rfl

theorem readsVariant_str : ReadsVariant (n + 1) "str" Literal.form (fun l => ∃ raw, l = .str raw)
    fun payload => literal? (n + 1) (.object [(some "str", payload)]) :=
  readsVariant_part reads_text fun _ => rfl

theorem fits_of_literal? {l : Literal} (read : literal? nesting value = some l) : l.form.Fits nesting value := by
  have unfolded := read
  unfold literal? at unfolded
  split at unfolded
  case h_1 bare =>
      cases unfolded
      exact Form.fits_unit.2 (.inl (Json.variant?_eq_bare.1 bare))
  case h_2 tagged =>
      obtain rfl := Json.variant?_eq_tagged.1 tagged
      split at unfolded
      case h_1 => exact ((readsVariant_int.iff _ _).1 read).2
      case h_2 => exact ((readsVariant_hex.iff _ _).1 read).2
      case h_3 => exact ((readsVariant_str.iff _ _).1 read).2
      case h_4 =>
          split at unfolded
          case h_1 =>
              cases unfolded
              exact Form.fits_unit.2 (.inr ⟨Nat.succ_pos _, rfl⟩)
          case h_2 => cases unfolded
      case h_5 => cases unfolded
  case h_3 => cases unfolded

theorem readsAt_literal : ∀ l : Literal, ReadsAt nesting Literal.form (literal? nesting) l
  | .int number =>
      readsAt_part rfl (fun _ => literal?_wide) (fun _ => rfl) (fun _ _ => readsVariant_int) ⟨number, rfl⟩
  | .hex raw =>
      readsAt_part rfl (fun _ => literal?_wide) (fun _ => rfl) (fun _ _ => readsVariant_hex) ⟨raw, rfl⟩
  | .str raw =>
      readsAt_part rfl (fun _ => literal?_wide) (fun _ => rfl) (fun _ _ => readsVariant_str) ⟨raw, rfl⟩
  | .unset => readsAt_unit rfl (fun _ => literal?_wide) (by cases nesting <;> rfl) (fun _ => rfl)

theorem reads_literal : Reads nesting Literal.form (literal? nesting) :=
  reads_of_readsAt (fun _ _ => fits_of_literal?) readsAt_literal

/-! ### Expressions -/

section Expressions

theorem expression?_wide {members : List (Option String × Json)} (wide : 2 ≤ members.length) :
    expression? nesting (.object members) = none := by
  unfold expression?
  rw [variant?_of_wide wide]

/-- With so many containers left to open, expressions and lists of them are read. -/
structure ReadsExpressions (n : Nat) : Prop where
  single : Reads n Expr.form (expression? n)
  list : Reads n (fun es => .list (Expr.forms es)) (expressions? n)

namespace ReadsExpressions

variable (reads : ReadsExpressions n)

include reads

theorem slot : ReadsSlot n name (fun e => .optional name e.isUnset e.form) (optional .unset (expression? n)) :=
  readsSlot_optional reads.single Expr.isUnset_iff

theorem slots : ReadsSlot n name (fun es => .optional name es.isEmpty (.list (Expr.forms es)))
    (optional [] (expressions? n)) :=
  readsSlot_optional reads.list isEmpty_iff_nil

end ReadsExpressions

theorem readsVariant_varRef : ReadsVariant (n + 1) "var_ref" Expr.form (fun e => ∃ number, e = .varRef number)
    fun payload => expression? (n + 1) (.object [(some "var_ref", payload)]) :=
  readsVariant_part reads_varRef fun _ => by rw [Expr.form]

theorem readsVariant_literal : ReadsVariant (n + 1) "literal" Expr.form (fun e => ∃ l, e = .literal l)
    fun payload => expression? (n + 1) (.object [(some "literal", payload)]) :=
  readsVariant_part reads_literal fun _ => by rw [Expr.form]

theorem readsVariant_binary (reads : ReadsExpressions n) :
    ReadsVariant (n + 2) "binary" Expr.form (fun e => ∃ op left right, e = .binary op left right)
      fun payload => expression? (n + 2) (.object [(some "binary", payload)]) :=
  readsVariant_three (fun _ _ _ => by rw [Expr.form]; rfl)
    (readsSlot_named (by rintro ⟨⟩ <;> decide) (by decide)) reads.slot reads.slot

theorem readsVariant_unary (reads : ReadsExpressions n) :
    ReadsVariant (n + 2) "unary" Expr.form (fun e => ∃ op operand, e = .unary op operand)
      fun payload => expression? (n + 2) (.object [(some "unary", payload)]) :=
  readsVariant_two (fun _ _ => by rw [Expr.form]; rfl)
    (readsSlot_named (by rintro ⟨⟩ <;> decide) (by decide)) reads.slot

theorem readsVariant_ternary (reads : ReadsExpressions n) :
    ReadsVariant (n + 2) "ternary" Expr.form (fun e => ∃ op first second third, e = .ternary op first second third)
      fun payload => expression? (n + 2) (.object [(some "ternary", payload)]) :=
  readsVariant_four (fun _ _ _ _ => by rw [Expr.form]; rfl)
    (readsSlot_named (by rintro ⟨⟩ <;> decide) (by decide)) reads.slot reads.slot reads.slot

theorem readsVariant_nullary : ReadsVariant (n + 2) "nullary" Expr.form (fun e => ∃ op, e = .nullary op)
    fun payload => expression? (n + 2) (.object [(some "nullary", payload)]) :=
  readsVariant_one (fun _ => by rw [Expr.form]; rfl) (readsSlot_named (by rintro ⟨⟩ <;> decide) (by decide))

theorem readsSlot_usage : ReadsSlot n name (fun usage => .required name (.unit (CallUsage.name usage)))
    (required (named? CallUsage.all CallUsage.name n)) :=
  readsSlot_named (by rintro ⟨⟩ <;> decide) (by decide)

theorem readsVariant_exprCall (reads : ReadsExpressions n) :
    ReadsVariant (n + 2) "function_call" Expr.form
      (fun e => ∃ usage selector args targets, e = .call usage selector args targets)
      fun payload => expression? (n + 2) (.object [(some "function_call", payload)]) :=
  readsVariant_four (fun _ _ _ _ => by rw [Expr.form]; rfl) readsSlot_usage readsSlot_count reads.slots
    readsSlot_varRefs

theorem fits_of_expression? (below : ∀ n < nesting, ReadsExpressions n) {e : Expr}
    (read : expression? nesting value = some e) : e.form.Fits nesting value := by
  have unfolded := read
  unfold expression? at unfolded
  split at unfolded
  case h_1 bare =>
      cases unfolded
      rw [Expr.form]
      exact Form.fits_unit.2 (.inl (Json.variant?_eq_bare.1 bare))
  case h_2 tagged =>
      obtain rfl := Json.variant?_eq_tagged.1 tagged
      cases unfolded
      rw [Expr.form]
      exact Form.fits_unit.2 (.inr ⟨Nat.succ_pos _, rfl⟩)
  case h_3 tagged =>
      obtain rfl := Json.variant?_eq_tagged.1 tagged
      exact ((readsVariant_literal.iff _ _).1 read).2
  case h_4 tagged =>
      obtain rfl := Json.variant?_eq_tagged.1 tagged
      exact ((readsVariant_varRef.iff _ _).1 read).2
  case h_5 n _ _ _ tagged =>
      obtain rfl := Json.variant?_eq_tagged.1 tagged
      have reads := below n (by omega)
      split at unfolded
      case h_1 => exact (((readsVariant_binary reads).iff _ _).1 read).2
      case h_2 => exact (((readsVariant_unary reads).iff _ _).1 read).2
      case h_3 => exact (((readsVariant_ternary reads).iff _ _).1 read).2
      case h_4 => exact ((readsVariant_nullary.iff _ _).1 read).2
      case h_5 => exact (((readsVariant_exprCall reads).iff _ _).1 read).2
      case h_6 => cases unfolded
  case h_6 => cases unfolded

theorem readsAt_expression (below : ∀ n < nesting, ReadsExpressions n) (e : Expr) :
    ReadsAt nesting Expr.form (expression? nesting) e := by
  have inside (n : Nat) (same : nesting = n + 2) : ReadsExpressions n := below n (by omega)
  cases e with
  | varRef number =>
      exact readsAt_part (by rw [Expr.form]) (fun _ => expression?_wide) (fun _ => rfl)
        (fun _ _ => readsVariant_varRef) ⟨number, rfl⟩
  | literal l =>
      exact readsAt_part (by rw [Expr.form]) (fun _ => expression?_wide) (fun _ => rfl)
        (fun _ _ => readsVariant_literal) ⟨l, rfl⟩
  | binary op left right =>
      exact readsAt_node (by rw [Expr.form]; rfl) (fun _ => expression?_wide) (fun _ => rfl) (fun _ => rfl)
        (fun n same => readsVariant_binary (inside n same)) ⟨op, left, right, rfl⟩
  | unary op operand =>
      exact readsAt_node (by rw [Expr.form]; rfl) (fun _ => expression?_wide) (fun _ => rfl) (fun _ => rfl)
        (fun n same => readsVariant_unary (inside n same)) ⟨op, operand, rfl⟩
  | ternary op first second third =>
      exact readsAt_node (by rw [Expr.form]; rfl) (fun _ => expression?_wide) (fun _ => rfl) (fun _ => rfl)
        (fun n same => readsVariant_ternary (inside n same)) ⟨op, first, second, third, rfl⟩
  | nullary op =>
      exact readsAt_node (by rw [Expr.form]; rfl) (fun _ => expression?_wide) (fun _ => rfl) (fun _ => rfl)
        (fun _ _ => readsVariant_nullary) ⟨op, rfl⟩
  | call usage selector args targets =>
      exact readsAt_node (by rw [Expr.form]; rfl) (fun _ => expression?_wide) (fun _ => rfl) (fun _ => rfl)
        (fun n same => readsVariant_exprCall (inside n same)) ⟨usage, selector, args, targets, rfl⟩
  | unset =>
      exact readsAt_unit (by rw [Expr.form]) (fun _ => expression?_wide) (by cases nesting <;> rfl) (fun _ => rfl)

/-- Lists of expressions are read if expressions are with less containers left to open. -/
theorem reads_expressions (below : ∀ n < nesting, Reads n Expr.form (expression? n)) :
    Reads nesting (fun es => .list (Expr.forms es)) (expressions? nesting) :=
  reads_list Expr.forms_eq_map (fun _ => rfl) (fun _ => funext fun value => by cases value <;> rfl)
    fun n same => below n (by omega)

theorem reads_expression : Reads nesting Expr.form (expression? nesting) := by
  induction nesting using Nat.strongRecOn with
  | ind nesting below =>
      have inside (n : Nat) (less : n < nesting) : ReadsExpressions n :=
        ⟨below n less, reads_expressions fun k smaller => below k (Nat.lt_trans smaller less)⟩
      exact reads_of_readsAt (fun _ _ => fits_of_expression? inside) (readsAt_expression inside)

theorem readsExpressions : ReadsExpressions n := ⟨reads_expression, reads_expressions fun _ _ => reads_expression⟩

end Expressions

/-! ### Statements that end execution -/

section Endings

/-- The form inside the wrapper of the statements that end execution. -/
def endForm (s : Stmt) : Form := s.form.payload

/-- The statement ends execution. -/
def Ends (s : Stmt) : Prop :=
  (∃ op, s = .halt op) ∨ (∃ op position size, s = .exit op position size) ∨ ∃ address, s = .selfDestruct address

theorem terminating?_wide {members : List (Option String × Json)} (wide : 2 ≤ members.length) :
    terminating? nesting (.object members) = none := by
  unfold terminating?
  rw [variant?_of_wide wide]

theorem readsVariant_halt : ReadsVariant (n + 1) "stop_invalid" endForm (fun s => ∃ op, s = .halt op)
    fun payload => terminating? (n + 1) (.object [(some "stop_invalid", payload)]) :=
  readsVariant_part (reads_named (by rintro ⟨⟩ <;> decide) (by decide)) fun _ => by
    rw [endForm, Stmt.form, Form.payload]

theorem readsVariant_exit : ReadsVariant (n + 2) "ret_rev" endForm
    (fun s => ∃ op position size, s = .exit op position size)
    fun payload => terminating? (n + 2) (.object [(some "ret_rev", payload)]) :=
  readsVariant_three (fun _ _ _ => by rw [endForm, Stmt.form]; rfl)
    (readsSlot_named (by rintro ⟨⟩ <;> decide) (by decide)) readsExpressions.slot readsExpressions.slot

theorem readsVariant_selfDestruct : ReadsVariant (n + 2) "self_destruct" endForm
    (fun s => ∃ address, s = .selfDestruct address)
    fun payload => terminating? (n + 2) (.object [(some "self_destruct", payload)]) :=
  readsVariant_one (fun _ => by rw [endForm, Stmt.form]; rfl) readsExpressions.slot

theorem fits_of_terminating? {s : Stmt} (read : terminating? nesting value = some s) :
    Ends s ∧ (endForm s).Fits nesting value := by
  have unfolded := read
  unfold terminating? at unfolded
  split at unfolded
  case h_1 tagged =>
      obtain rfl := Json.variant?_eq_tagged.1 tagged
      obtain ⟨this, fits⟩ := (readsVariant_halt.iff _ _).1 read
      exact ⟨.inl this, fits⟩
  case h_2 tagged =>
      obtain rfl := Json.variant?_eq_tagged.1 tagged
      obtain ⟨this, fits⟩ := (readsVariant_exit.iff _ _).1 read
      exact ⟨.inr (.inl this), fits⟩
  case h_3 tagged =>
      obtain rfl := Json.variant?_eq_tagged.1 tagged
      obtain ⟨this, fits⟩ := (readsVariant_selfDestruct.iff _ _).1 read
      exact ⟨.inr (.inr this), fits⟩
  case h_4 => cases unfolded

theorem readsAt_terminating {s : Stmt} (ends : Ends s) : ReadsAt nesting endForm (terminating? nesting) s := by
  rcases ends with ⟨op, rfl⟩ | ⟨op, position, size, rfl⟩ | ⟨address, rfl⟩
  · exact readsAt_part (by rw [endForm, Stmt.form]; rfl) (fun _ => terminating?_wide) (fun _ => rfl)
      (fun _ _ => readsVariant_halt) ⟨op, rfl⟩
  · exact readsAt_node (by rw [endForm, Stmt.form]; rfl) (fun _ => terminating?_wide) (fun _ => rfl) (fun _ => rfl)
      (fun _ _ => readsVariant_exit) ⟨op, position, size, rfl⟩
  · exact readsAt_node (by rw [endForm, Stmt.form]; rfl) (fun _ => terminating?_wide) (fun _ => rfl) (fun _ => rfl)
      (fun _ _ => readsVariant_selfDestruct) ⟨address, rfl⟩

theorem shape_of_ends {s : Stmt} (ends : Ends s) : s.form = .tagged "terminating" (endForm s) := by
  rcases ends with ⟨op, rfl⟩ | ⟨op, position, size, rfl⟩ | ⟨address, rfl⟩ <;>
    rw [endForm, Stmt.form, Form.payload]

theorem readsVariant_terminating : ReadsVariant (n + 1) "terminating" Stmt.form Ends
    fun payload => statement? (n + 1) (.object [(some "terminating", payload)]) :=
  readsVariant_payload (fun _ => shape_of_ends) (fun _ _ => fits_of_terminating?) fun _ => readsAt_terminating

end Endings

/-! ### Statements -/

section Statements

theorem statement?_wide {members : List (Option String × Json)} (wide : 2 ≤ members.length) :
    statement? nesting (.object members) = none := by
  unfold statement?
  rw [variant?_of_wide wide]

/-- With so many containers left to open, blocks and lists of cases are read. -/
structure ReadsBlocks (n : Nat) : Prop where
  block : Reads n (fun body => blockForm (Stmt.forms body)) (block? n)
  cases : Reads n (fun cases => .list (Stmt.caseForms cases)) (cases? n)

namespace ReadsBlocks

variable (reads : ReadsBlocks n)

include reads

theorem slot : ReadsSlot n name (fun body => .optional name body.isEmpty (blockForm (Stmt.forms body)))
    (optional [] (block? n)) :=
  readsSlot_optional reads.block isEmpty_iff_nil

theorem casesSlot : ReadsSlot n name (fun cases => .optional name cases.isEmpty (.list (Stmt.caseForms cases)))
    (optional [] (cases? n)) :=
  readsSlot_optional reads.cases isEmpty_iff_nil

theorem defaultSlot : ReadsSlot n name (fun default => .optional name default.isNone (Stmt.defaultForm default))
    (nullable (block? n)) :=
  readsSlot_nullable reads.block (by rw [Stmt.defaultForm]) fun _ => by rw [Stmt.defaultForm]; rfl

end ReadsBlocks

theorem readsVariant_block (reads : ReadsBlocks n) :
    ReadsVariant (n + 1) "block" Stmt.form (fun s => ∃ body, s = .block body)
      fun payload => statement? (n + 1) (.object [(some "block", payload)]) :=
  readsVariant_part reads.block fun _ => by rw [Stmt.form]

theorem readsVariant_pop : ReadsVariant (n + 1) "pop" Stmt.form (fun s => ∃ value, s = .pop value)
    fun payload => statement? (n + 1) (.object [(some "pop", payload)]) :=
  readsVariant_part reads_expression fun _ => by rw [Stmt.form]

theorem readsSlot_target : ReadsSlot n name
    (fun target => .optional name (target == 0) (varRefForm target)) (optional 0 (varRef? n)) :=
  readsSlot_optional reads_varRef fun target => by rw [beq_iff_eq, eq_comm]

theorem readsVariant_declare :
    ReadsVariant (n + 2) "var_decl" Stmt.form (fun s => ∃ value, s = .declare none value)
      fun payload => statement? (n + 2) (.object [(some "var_decl", payload)]) :=
  readsVariant_one (fun _ => by rw [Stmt.form]; rfl) readsExpressions.slot

theorem readsVariant_declareTyped :
    ReadsVariant (n + 2) "typed_var_decl" Stmt.form (fun s => ∃ type value, s = .declare (some type) value)
      fun payload => statement? (n + 2) (.object [(some "typed_var_decl", payload)]) :=
  readsVariant_two (fun _ _ => by rw [Stmt.form]; rfl)
    (readsSlot_named (by rintro ⟨⟩ <;> decide) (by decide)) readsExpressions.slot

theorem readsVariant_assign :
    ReadsVariant (n + 2) "assignment" Stmt.form (fun s => ∃ target value, s = .assign target value)
      fun payload => statement? (n + 2) (.object [(some "assignment", payload)]) :=
  readsVariant_two (fun _ _ => by rw [Stmt.form]; rfl) readsSlot_target readsExpressions.slot

theorem readsVariant_ifThen (reads : ReadsBlocks n) :
    ReadsVariant (n + 2) "if" Stmt.form (fun s => ∃ cond body, s = .ifThen cond body)
      fun payload => statement? (n + 2) (.object [(some "if", payload)]) :=
  readsVariant_two (fun _ _ => by rw [Stmt.form]; rfl) readsExpressions.slot reads.slot

theorem readsVariant_store :
    ReadsVariant (n + 2) "store" Stmt.form (fun s => ∃ op location value, s = .store op location value)
      fun payload => statement? (n + 2) (.object [(some "store", payload)]) :=
  readsVariant_three (fun _ _ _ => by rw [Stmt.form]; rfl)
    (readsSlot_named (by rintro ⟨⟩ <;> decide) (by decide)) readsExpressions.slot readsExpressions.slot

theorem readsVariant_forLoop (reads : ReadsBlocks n) :
    ReadsVariant (n + 2) "for" Stmt.form (fun s => ∃ init cond post body, s = .forLoop init cond post body)
      fun payload => statement? (n + 2) (.object [(some "for", payload)]) :=
  readsVariant_four (fun _ _ _ _ => by rw [Stmt.form]; rfl) reads.slot readsExpressions.slot reads.slot
    reads.slot

theorem readsVariant_boundedFor (reads : ReadsBlocks n) :
    ReadsVariant (n + 2) "bounded_for" Stmt.form (fun s => ∃ body, s = .boundedFor body)
      fun payload => statement? (n + 2) (.object [(some "bounded_for", payload)]) :=
  readsVariant_one (fun _ => by rw [Stmt.form]; rfl) reads.slot

theorem readsVariant_log :
    ReadsVariant (n + 2) "log" Stmt.form (fun s => ∃ position size topics, s = .log position size topics)
      fun payload => statement? (n + 2) (.object [(some "log", payload)]) :=
  readsVariant_three (fun _ _ _ => by rw [Stmt.form]; rfl) readsExpressions.slot readsExpressions.slot
    readsExpressions.slots

theorem readsVariant_copy :
    ReadsVariant (n + 2) "copy" Stmt.form (fun s => ∃ region target source size, s = .copy region target source size)
      fun payload => statement? (n + 2) (.object [(some "copy", payload)]) :=
  readsVariant_four (fun _ _ _ _ => by rw [Stmt.form]; rfl)
    (readsSlot_named (by rintro ⟨⟩ <;> decide) (by decide)) readsExpressions.slot readsExpressions.slot
    readsExpressions.slot

theorem readsVariant_extCodeCopy :
    ReadsVariant (n + 2) "ext_code_copy" Stmt.form
      (fun s => ∃ address target source size, s = .extCodeCopy address target source size)
      fun payload => statement? (n + 2) (.object [(some "ext_code_copy", payload)]) :=
  readsVariant_four (fun _ _ _ _ => by rw [Stmt.form]; rfl) readsExpressions.slot readsExpressions.slot
    readsExpressions.slot readsExpressions.slot

theorem readsVariant_stmtCall :
    ReadsVariant (n + 2) "function_call" Stmt.form
      (fun s => ∃ usage selector args targets, s = .call usage selector args targets)
      fun payload => statement? (n + 2) (.object [(some "function_call", payload)]) :=
  readsVariant_four (fun _ _ _ _ => by rw [Stmt.form]; rfl) readsSlot_usage readsSlot_count
    readsExpressions.slots readsSlot_varRefs

theorem readsVariant_define (reads : ReadsBlocks n) :
    ReadsVariant (n + 2) "function_def" Stmt.form (fun s => ∃ inputs outputs body, s = .define inputs outputs body)
      fun payload => statement? (n + 2) (.object [(some "function_def", payload)]) :=
  readsVariant_three (fun _ _ _ => by rw [Stmt.form]; rfl) readsSlot_count readsSlot_count reads.slot

theorem readsVariant_switch (reads : ReadsBlocks n) :
    ReadsVariant (n + 2) "switch" Stmt.form (fun s => ∃ scrutinee cases default, s = .switch scrutinee cases default)
      fun payload => statement? (n + 2) (.object [(some "switch", payload)]) :=
  readsVariant_three (fun _ _ _ => by rw [Stmt.form]; rfl) readsExpressions.slot reads.casesSlot
    reads.defaultSlot

theorem fits_of_statement? (below : ∀ n < nesting, ReadsBlocks n) {s : Stmt}
    (read : statement? nesting value = some s) : s.form.Fits nesting value := by
  have unfolded := read
  unfold statement? at unfolded
  split at unfolded
  case h_1 bare | h_2 bare =>
      cases unfolded
      rw [Stmt.form]
      exact Form.fits_unit.2 (.inl (Json.variant?_eq_bare.1 bare))
  case h_3 tagged | h_4 tagged =>
      obtain rfl := Json.variant?_eq_tagged.1 tagged
      cases unfolded
      rw [Stmt.form]
      exact Form.fits_unit.2 (.inr ⟨Nat.succ_pos _, rfl⟩)
  case h_5 n tagged =>
      obtain rfl := Json.variant?_eq_tagged.1 tagged
      exact (((readsVariant_block (below n (by omega))).iff _ _).1 read).2
  case h_6 tagged =>
      obtain rfl := Json.variant?_eq_tagged.1 tagged
      exact ((readsVariant_terminating.iff _ _).1 read).2
  case h_7 tagged =>
      obtain rfl := Json.variant?_eq_tagged.1 tagged
      exact ((readsVariant_pop.iff _ _).1 read).2
  case h_8 n _ _ _ _ _ tagged =>
      obtain rfl := Json.variant?_eq_tagged.1 tagged
      have reads := below n (by omega)
      split at unfolded
      case h_1 => exact ((readsVariant_declare.iff _ _).1 read).2
      case h_2 => exact ((readsVariant_declareTyped.iff _ _).1 read).2
      case h_3 => exact ((readsVariant_assign.iff _ _).1 read).2
      case h_4 => exact (((readsVariant_ifThen reads).iff _ _).1 read).2
      case h_5 => exact ((readsVariant_store.iff _ _).1 read).2
      case h_6 => exact (((readsVariant_forLoop reads).iff _ _).1 read).2
      case h_7 => exact (((readsVariant_boundedFor reads).iff _ _).1 read).2
      case h_8 => exact (((readsVariant_switch reads).iff _ _).1 read).2
      case h_9 => exact ((readsVariant_log.iff _ _).1 read).2
      case h_10 => exact ((readsVariant_copy.iff _ _).1 read).2
      case h_11 => exact ((readsVariant_extCodeCopy.iff _ _).1 read).2
      case h_12 => exact ((readsVariant_stmtCall.iff _ _).1 read).2
      case h_13 => exact (((readsVariant_define reads).iff _ _).1 read).2
      case h_14 => cases unfolded
  case h_9 => cases unfolded

theorem readsAt_ending {s : Stmt} (ends : Ends s) : ReadsAt nesting Stmt.form (statement? nesting) s :=
  readsAt_part (shape_of_ends ends) (fun _ => statement?_wide) (fun _ => rfl)
    (fun _ _ => readsVariant_terminating) ends

theorem readsAt_statement (below : ∀ n < nesting, ReadsBlocks n) (s : Stmt) :
    ReadsAt nesting Stmt.form (statement? nesting) s := by
  have inside (n : Nat) (same : nesting = n + 2) : ReadsBlocks n := below n (by omega)
  match s with
  | .declare none value =>
      exact readsAt_node (by rw [Stmt.form]; rfl) (fun _ => statement?_wide) (fun _ => rfl) (fun _ => rfl)
        (fun _ _ => readsVariant_declare) ⟨value, rfl⟩
  | .declare (some type) value =>
      exact readsAt_node (by rw [Stmt.form]; rfl) (fun _ => statement?_wide) (fun _ => rfl) (fun _ => rfl)
        (fun _ _ => readsVariant_declareTyped) ⟨type, value, rfl⟩
  | .assign target value =>
      exact readsAt_node (by rw [Stmt.form]; rfl) (fun _ => statement?_wide) (fun _ => rfl) (fun _ => rfl)
        (fun _ _ => readsVariant_assign) ⟨target, value, rfl⟩
  | .ifThen cond body =>
      exact readsAt_node (by rw [Stmt.form]; rfl) (fun _ => statement?_wide) (fun _ => rfl) (fun _ => rfl)
        (fun n same => readsVariant_ifThen (inside n same)) ⟨cond, body, rfl⟩
  | .store op location value =>
      exact readsAt_node (by rw [Stmt.form]; rfl) (fun _ => statement?_wide) (fun _ => rfl) (fun _ => rfl)
        (fun _ _ => readsVariant_store) ⟨op, location, value, rfl⟩
  | .block body =>
      exact readsAt_part (by rw [Stmt.form]) (fun _ => statement?_wide) (fun _ => rfl)
        (fun n same => readsVariant_block (below n (by omega))) ⟨body, rfl⟩
  | .forLoop init cond post body =>
      exact readsAt_node (by rw [Stmt.form]; rfl) (fun _ => statement?_wide) (fun _ => rfl) (fun _ => rfl)
        (fun n same => readsVariant_forLoop (inside n same)) ⟨init, cond, post, body, rfl⟩
  | .boundedFor body =>
      exact readsAt_node (by rw [Stmt.form]; rfl) (fun _ => statement?_wide) (fun _ => rfl) (fun _ => rfl)
        (fun n same => readsVariant_boundedFor (inside n same)) ⟨body, rfl⟩
  | .switch scrutinee cases default =>
      exact readsAt_node (by rw [Stmt.form]; rfl) (fun _ => statement?_wide) (fun _ => rfl) (fun _ => rfl)
        (fun n same => readsVariant_switch (inside n same)) ⟨scrutinee, cases, default, rfl⟩
  | .breakLoop =>
      exact readsAt_unit (by rw [Stmt.form]) (fun _ => statement?_wide) (by cases nesting <;> rfl) (fun _ => rfl)
  | .continueLoop =>
      exact readsAt_unit (by rw [Stmt.form]) (fun _ => statement?_wide) (by cases nesting <;> rfl) (fun _ => rfl)
  | .log position size topics =>
      exact readsAt_node (by rw [Stmt.form]; rfl) (fun _ => statement?_wide) (fun _ => rfl) (fun _ => rfl)
        (fun _ _ => readsVariant_log) ⟨position, size, topics, rfl⟩
  | .copy region target source size =>
      exact readsAt_node (by rw [Stmt.form]; rfl) (fun _ => statement?_wide) (fun _ => rfl) (fun _ => rfl)
        (fun _ _ => readsVariant_copy) ⟨region, target, source, size, rfl⟩
  | .extCodeCopy address target source size =>
      exact readsAt_node (by rw [Stmt.form]; rfl) (fun _ => statement?_wide) (fun _ => rfl) (fun _ => rfl)
        (fun _ _ => readsVariant_extCodeCopy) ⟨address, target, source, size, rfl⟩
  | .halt op => exact readsAt_ending (.inl ⟨op, rfl⟩)
  | .exit op position size => exact readsAt_ending (.inr (.inl ⟨op, position, size, rfl⟩))
  | .selfDestruct address => exact readsAt_ending (.inr (.inr ⟨address, rfl⟩))
  | .call usage selector args targets =>
      exact readsAt_node (by rw [Stmt.form]; rfl) (fun _ => statement?_wide) (fun _ => rfl) (fun _ => rfl)
        (fun _ _ => readsVariant_stmtCall) ⟨usage, selector, args, targets, rfl⟩
  | .define inputs outputs body =>
      exact readsAt_node (by rw [Stmt.form]; rfl) (fun _ => statement?_wide) (fun _ => rfl) (fun _ => rfl)
        (fun n same => readsVariant_define (inside n same)) ⟨inputs, outputs, body, rfl⟩
  | .pop value =>
      exact readsAt_part (by rw [Stmt.form]) (fun _ => statement?_wide) (fun _ => rfl)
        (fun _ _ => readsVariant_pop) ⟨value, rfl⟩

/-- Lists of statements are read if statements are with less containers left to open. -/
theorem reads_statements (below : ∀ n < nesting, Reads n Stmt.form (statement? n)) :
    Reads nesting (fun ss => .list (Stmt.forms ss)) (statements? nesting) :=
  reads_list Stmt.forms_eq_map (fun _ => rfl) (fun _ => funext fun value => by cases value <;> rfl)
    fun n same => below n (by omega)

theorem reads_block (below : ∀ n < nesting, Reads n Stmt.form (statement? n)) :
    Reads nesting (fun body => blockForm (Stmt.forms body)) (block? nesting) := by
  cases nesting with
  | zero => exact ⟨fun value body => by simp [block?, blockForm, Form.fits_record], fun _ _ _ => rfl⟩
  | succ n =>
      have statements := reads_statements fun k (less : k < n) => below k (Nat.lt_succ_of_lt less)
      exact reads_field (readsSlot_optional statements fun body => by
        rw [Stmt.forms_eq_map, List.isEmpty_map, isEmpty_iff_nil])

theorem reads_case (below : ∀ n < nesting, Reads n Stmt.form (statement? n)) :
    Reads nesting caseForm (case? nesting) := by
  cases nesting with
  | zero => exact ⟨fun value case => by simp [case?, caseForm, Form.fits_record], fun _ _ _ => rfl⟩
  | succ n =>
      have block := reads_block fun k (less : k < n) => below k (Nat.lt_succ_of_lt less)
      exact reads_payload "case" (fun case => ⟨case.1, case.2, rfl⟩) (readsVariant_two (fun _ _ => rfl)
        (readsSlot_optional reads_literal Literal.isUnset_iff) (readsSlot_optional block isEmpty_iff_nil))

theorem reads_cases (below : ∀ n < nesting, Reads n Stmt.form (statement? n)) :
    Reads nesting (fun cases => .list (Stmt.caseForms cases)) (cases? nesting) :=
  reads_list Stmt.caseForms_eq_map (fun _ => rfl) (fun _ => funext fun value => by cases value <;> rfl)
    fun n same => reads_case fun k less => below k (by omega)

theorem reads_statement : Reads nesting Stmt.form (statement? nesting) := by
  induction nesting using Nat.strongRecOn with
  | ind nesting below =>
      have inside (n : Nat) (less : n < nesting) : ReadsBlocks n :=
        have smaller (k : Nat) (lesser : k < n) := below k (Nat.lt_trans lesser less)
        ⟨reads_block smaller, reads_cases smaller⟩
      exact reads_of_readsAt (fun _ _ => fits_of_statement? inside) (readsAt_statement inside)

end Statements

/-! ### Programs -/

/-- Program trees are read from what fits their form, and nothing is read from what is broken along one. -/
theorem reads_program : Reads nesting Program.form (program? nesting) := by
  cases nesting with
  | zero => exact ⟨fun value program => by simp [program?, Program.form, Form.fits_record], fun _ _ _ => rfl⟩
  | succ n =>
      have block : Reads n _ (block? n) := reads_block fun _ _ => reads_statement
      exact reads_payload "program" (fun program => ⟨program.block, rfl⟩)
        (readsVariant_one (fun _ => rfl) (readsSlot_optional block isEmpty_iff_nil))

end YulFuzz.Corpus
