/-
Module: YulFuzz.Proofs.Validity
Purpose: Every generated program is valid: each builtin function is applied to its fixed number of arguments,
  each literal is one of Yul that fits a word, and each switch has an arm. So the text of a generation is
  read as one valid block, whose lines are indented for the blocks around them.
Main exports: Builtin.arity, validCall_builtin, Lexical.expression_valid, Lexical.statement_valid,
  Lexical.statements_valid, Lexical.program_valid, Lexical.exists_reading, generate_valid
-/
import Mathlib.Tactic.IntervalCases
import YulFuzz.Proofs.Layout
import YulFuzz.Proofs.Lexical.Refinement
import YulFuzz.Proofs.Literals

namespace YulFuzz

open Grammar (ValidCall exprSyntax exprsSyntax stmtsSyntax blockSyntax casesSyntax literalSyntax)
open Grammar.Stmt (AllValid CasesValid)

/-! ### Calls -/

/-- The number of arguments of a builtin function. -/
def Builtin.arity : Builtin → Nat
  | .nullary _ | .halt _ => 0
  | .unary _ | .selfdestruct | .pop => 1
  | .binary _ | .store _ | .exit _ => 2
  | .ternary _ | .copy _ => 3
  | .extcodecopy => 4
  | .log topics => topics + 2

/-- A builtin function takes as many arguments as the table has for it, as long as a log entry has at most as
    many topics as it can have. -/
theorem lookup_builtin (builtin : Builtin)
    (few : ∀ topics, builtin = .log topics → topics ≤ Walk.maxTopics) :
    Grammar.builtins.lookup builtin.name = some builtin.arity := by
  cases builtin with
  | nullary op | unary op | binary op | ternary op | store op | halt op | exit op =>
      cases op <;> decide +kernel
  | copy region => cases region <;> decide +kernel
  | extcodecopy | selfdestruct | pop => decide +kernel
  | log topics =>
      have few : topics ≤ 4 := few topics rfl
      interval_cases topics <;> decide +kernel

theorem validCall_builtin (builtin : Builtin)
    (few : ∀ topics, builtin = .log topics → topics ≤ Walk.maxTopics) :
    ValidCall builtin.name builtin.arity := by
  unfold ValidCall
  rw [lookup_builtin builtin few]

/-- No builtin function is named like a function of a program. -/
theorem lookup_functionName (f : FunctionName) : Grammar.builtins.lookup f.text = none := by
  have plain : ∀ builtin ∈ Grammar.builtins, '_' ∉ builtin.1.toList := by decide +kernel
  have underscore : '_' ∈ f.text.toList := by simp [FunctionName.text]
  rw [List.lookup_eq_none_iff]
  intro builtin member
  rw [bne_iff_ne]
  intro same
  rw [same] at underscore
  exact plain builtin member underscore

theorem validCall_functionName (f : FunctionName) (count : Nat) : ValidCall f.text count := by
  unfold ValidCall
  rw [lookup_functionName]
  exact ⟨f, rfl⟩

namespace Lexical

variable {typed : Bool}

/-! ### Literals -/

theorem valid_token (seed : Seed) (drawn : Nat) : (literalSyntax (.hex (seed.token drawn))).Valid := by
  have token := seed.isToken_token drawn
  refine ⟨?_, token.length_le, token.2.2⟩
  intro empty
  exact token.1 (String.toList_eq_nil_iff.1 empty)

theorem valid_hexDigits {digits : List Char} (nonempty : digits ≠ [])
    (short : digits.length ≤ Word.digitCount) (hex : ∀ c ∈ digits, c.isHexDigit) :
    (literalSyntax (.hex (String.ofList (Walk.evenly digits)))).Valid := by
  simp only [literalSyntax, Grammar.Literal.Valid, String.toList_ofList]
  exact ⟨Walk.evenly_ne_nil nonempty, Walk.length_evenly_le short, Walk.isHexDigit_of_mem_evenly hex⟩

/-- Every literal is valid, whatever characters the tree has for it. -/
theorem literal_valid (seed : Seed) (node : Tree.Literal) (t : Thread) :
    (literalSyntax (literal seed node t).1).Valid := by
  cases node with
  | int value => exact ⟨value.toNat, value.toNat_lt_size, rfl⟩
  | str raw => exact ⟨Walk.length_alphanumerics_le raw, fun _ => Walk.isAlphanum_of_mem_alphanumerics⟩
  | unset => exact valid_token seed t.drawn
  | hex raw =>
      simp only [literal]
      cases digits : Walk.hexDigits raw with
      | nil =>
          have token := seed.isToken_token t.drawn
          exact valid_hexDigits (fun empty => token.1 (String.toList_eq_nil_iff.1 empty)) token.length_le
            token.2.2
      | cons first others =>
          have short := Walk.length_hexDigits_le raw
          have hex : ∀ c ∈ Walk.hexDigits raw, c.isHexDigit := fun _ => Walk.isHexDigit_of_mem_hexDigits
          rw [digits] at short hex
          exact valid_hexDigits (List.cons_ne_nil _ _) short hex

/-! ### Expressions -/

/-- A builtin function applied to its number of valid arguments. -/
theorem valid_builtinCall {builtin : Builtin} {args : List Yul.Expr}
    (few : ∀ topics, builtin = .log topics → topics ≤ Walk.maxTopics)
    (count : args.length = builtin.arity) (valid : Grammar.Expr.AllValid typed (exprsSyntax args)) :
    (exprSyntax (.call (.builtin builtin) args)).Valid typed := by
  have call := validCall_builtin builtin few
  rw [← count, ← Grammar.length_exprsSyntax] at call
  exact ⟨call, valid⟩

theorem valid_functionCall (f : FunctionName) {args : List Yul.Expr}
    (valid : Grammar.Expr.AllValid typed (exprsSyntax args)) :
    (exprSyntax (.call (.function f) args)).Valid typed :=
  ⟨validCall_functionName f _, valid⟩

theorem tokenExpr_valid (seed : Seed) (t : Thread) :
    (exprSyntax (tokenExpr seed t).1).Valid typed :=
  ⟨valid_token seed t.drawn, nofun⟩

theorem tokenExprs_valid (seed : Seed) (wanted : Nat) (t : Thread) :
    Grammar.Expr.AllValid typed (exprsSyntax (tokenExprs seed wanted t).1) := by
  induction wanted generalizing t with
  | zero => trivial
  | succ wanted ih => exact ⟨tokenExpr_valid seed t, ih _⟩

mutual

/-- Every expression is valid. -/
theorem expression_valid (seed : Seed) (env : Env) :
    ∀ (expr : Tree.Expr) (t : Thread), (exprSyntax (expression seed env expr t).1).Valid typed
  | .varRef number, t => by
      rw [expression]
      cases env.resolve number with
      | none => exact tokenExpr_valid seed t
      | some found => trivial
  | .literal node, t => ⟨literal_valid seed node t, nofun⟩
  | .binary op left right, t =>
      valid_builtinCall nofun rfl
        ⟨expression_valid seed env left t, expression_valid seed env right _, trivial⟩
  | .unary op operand, t =>
      valid_builtinCall nofun rfl ⟨expression_valid seed env operand t, trivial⟩
  | .ternary op first second third, t =>
      valid_builtinCall nofun rfl ⟨expression_valid seed env first t, expression_valid seed env second _,
        expression_valid seed env third _, trivial⟩
  | .nullary op, t => valid_builtinCall nofun rfl trivial
  | .call usage selector args targets, t => by
      rw [expression]
      cases env.pick .singleReturn selector with
      | none => exact tokenExpr_valid seed _
      | some callee => exact valid_functionCall callee.name (arguments_valid seed env callee.inputs args _)
  | .unset, t => tokenExpr_valid seed t

/-- All arguments of a call are valid. -/
theorem arguments_valid (seed : Seed) (env : Env) :
    ∀ (wanted : Nat) (args : List Tree.Expr) (t : Thread),
      Grammar.Expr.AllValid typed (exprsSyntax (arguments seed env wanted args t).1)
  | wanted, [], t => by
      rw [arguments]
      exact tokenExprs_valid seed wanted t
  | 0, _ :: _, t => trivial
  | wanted + 1, arg :: args, t =>
      ⟨expression_valid seed env arg t, arguments_valid seed env wanted args _⟩

end

theorem expressions_valid (seed : Seed) (env : Env) (exprs : List Tree.Expr) (t : Thread) :
    Grammar.Expr.AllValid typed (exprsSyntax (expressions seed env exprs t).1) := by
  induction exprs generalizing t with
  | nil => trivial
  | cons expr rest ih => exact ⟨expression_valid seed env expr t, ih _⟩

@[simp] theorem length_expressions (seed : Seed) (env : Env) (exprs : List Tree.Expr) (t : Thread) :
    (expressions seed env exprs t).1.length = exprs.length := by
  induction exprs generalizing t with
  | nil => rfl
  | cons expr rest ih => exact congrArg (· + 1) (ih _)

/-! ### Statements -/

theorem builtinStatement_valid (seed : Seed) (env : Env) {builtin : Builtin} {args : List Tree.Expr}
    (t : Thread) (few : ∀ topics, builtin = .log topics → topics ≤ Walk.maxTopics)
    (count : args.length = builtin.arity) :
    AllValid typed (stmtsSyntax (builtinStatement seed env builtin args t).1.1) :=
  ⟨valid_builtinCall few ((length_expressions seed env args t).trans count)
    (expressions_valid seed env args t), trivial⟩

theorem call_valid (seed : Seed) (env : Env) (callee : Callable) (args : List Tree.Expr) (t : Thread) :
    (exprSyntax (call seed env callee args t).1).Valid typed :=
  valid_functionCall callee.name (arguments_valid seed env callee.inputs args _)

theorem valid_discard {value : Yul.Expr} (valid : (exprSyntax value).Valid typed) :
    (Grammar.stmtSyntax (Walk.discard value)).Valid typed :=
  valid_builtinCall nofun rfl ⟨valid, trivial⟩

/-- A declaration without types is valid if it declares something. -/
theorem valid_letMany {vars : List Yul.Var} {value : Yul.Expr} (nonempty : vars ≠ [])
    (valid : (exprSyntax value).Valid typed) :
    (Grammar.stmtSyntax (.letMany vars value)).Valid typed := by
  refine ⟨by simpa using nonempty, fun name member => ?_, valid⟩
  obtain ⟨var, _, rfl⟩ := List.mem_map.1 member
  nofun

theorem allValid_map {α : Type} {f : α → Yul.Stmt} {list : List α}
    (valid : ∀ a ∈ list, (Grammar.stmtSyntax (f a)).Valid typed) :
    AllValid typed (stmtsSyntax (list.map f)) := by
  induction list with
  | nil => trivial
  | cons a rest ih =>
      exact ⟨valid a List.mem_cons_self, ih fun b member => valid b (List.mem_cons_of_mem _ member)⟩

theorem allValid_exprs_map {α : Type} {f : α → Yul.Expr} {list : List α}
    (valid : ∀ a ∈ list, (exprSyntax (f a)).Valid typed) :
    Grammar.Expr.AllValid typed (exprsSyntax (list.map f)) := by
  induction list with
  | nil => trivial
  | cons a rest ih =>
      exact ⟨valid a List.mem_cons_self, ih fun b member => valid b (List.mem_cons_of_mem _ member)⟩

theorem valid_decimal (value : UInt64) : (exprSyntax (Walk.decimal value)).Valid typed :=
  ⟨⟨value.toNat, value.toNat_lt_size, rfl⟩, nofun⟩

theorem declared_ne_nil (env : Env) {count : Nat} (some : count ≠ 0) : env.declared count ≠ [] := by
  simpa [Env.declared] using some

theorem callOnCalldata_valid (callable : Callable) :
    (exprSyntax (callOnCalldata callable)).Valid typed :=
  valid_functionCall _ (allValid_exprs_map fun _ _ =>
    valid_builtinCall nofun rfl ⟨valid_decimal _, trivial⟩)

theorem stores_valid (vars : List Yul.Var) : AllValid typed (stmtsSyntax (stores vars)) :=
  allValid_map fun _ _ => valid_builtinCall nofun rfl ⟨valid_decimal _, trivial, trivial⟩

theorem callAfterDefinition_valid (env : Env) (callable : Callable) (t : Thread) :
    (Grammar.stmtSyntax (callAfterDefinition env callable t).1).Valid typed := by
  have call : (exprSyntax _).Valid typed := callOnCalldata_valid callable
  rw [callAfterDefinition_run]
  split
  · exact call
  · rename_i some
    exact ⟨valid_letMany (declared_ne_nil env some) call, stores_valid _⟩

theorem callStatement_valid (seed : Seed) {env : Env} (coherent : env.Coherent) (usage : Tree.CallUsage)
    (selector : UInt32) (args : List Tree.Expr) (requests : List UInt32) (t : Thread) :
    (Grammar.stmtSyntax (callStatement seed env usage selector args requests t).1.1).Valid typed := by
  unfold callStatement
  cases found : env.callee? usage selector with
  | none => exact valid_discard (tokenExpr_valid seed _)
  | some callee =>
      have value : (exprSyntax _).Valid typed := call_valid seed env callee args t
      cases usage with
      | none | single => exact value
      | multiDecl =>
          have proper := coherent.proper .multiReturn callee (Env.mem_of_pick found)
          have several := FunctionKind.ofOutputs_eq_multiReturn.1 (proper.2.kind.symm.trans proper.1)
          exact valid_letMany (declared_ne_nil env (by omega)) value
      | multiAssign =>
          have proper := coherent.proper .multiReturn callee (Env.mem_of_pickAssignable found)
          have several := FunctionKind.ofOutputs_eq_multiReturn.1 (proper.2.kind.symm.trans proper.1)
          have count : (env.targets requests [] 0 callee.outputs).length = callee.outputs :=
            Env.length_targets coherent.nodup requests
              (by simpa using Env.outputs_le_of_pickAssignable found)
          refine ⟨fun empty => ?_, value⟩
          have := congrArg List.length empty
          simp only [List.length_map, count, List.length_nil] at this
          omega

theorem allValid_append {first rest : List Yul.Stmt} (valid : AllValid typed (stmtsSyntax first))
    (validRest : AllValid typed (stmtsSyntax rest)) : AllValid typed (stmtsSyntax (first ++ rest)) := by
  induction first with
  | nil => exact validRest
  | cons stmt others ih => exact ⟨valid.1, ih valid.2⟩

theorem braces_valid {isEmpty : Bool} {part : Threaded (List Yul.Stmt × Env)}
    (inside : ∀ t, AllValid typed (stmtsSyntax (part t).1.1)) (t : Thread) :
    AllValid typed (blockSyntax (braces isEmpty part t).1) := by
  cases isEmpty with
  | true => trivial
  | false => exact inside t

theorem loopControl_valid (env : Env) (control : Yul.Stmt)
    (valid : (Grammar.stmtSyntax control).Valid typed) (t : Thread) :
    AllValid typed (stmtsSyntax (loopControl env control t).1.1) := by
  unfold loopControl
  split
  · exact ⟨valid, trivial⟩
  · trivial

theorem valid_opening {isEmpty : Bool} {opening : List Yul.Stmt}
    (valid : AllValid typed (stmtsSyntax opening)) :
    AllValid typed (blockSyntax (if isEmpty then .compact else .spread opening)) := by
  cases isEmpty with
  | true => trivial
  | false => exact valid

theorem casesSyntax_ne_nil {arms : List (Yul.Literal × Yul.Block)} (nonempty : arms ≠ []) :
    casesSyntax arms ≠ [] := by
  cases arms with
  | nil => exact absurd rfl nonempty
  | cons arm rest => exact List.cons_ne_nil _ _

/-- The first case of a switch is never left out. -/
theorem caseArms_ne_nil (settings : Settings) {env : Env} (fresh : env.labels = [])
    {cases : List (Tree.Literal × List Tree.Stmt)} (nonempty : cases ≠ []) (t : Thread) :
    (caseArms settings env cases t).1 ≠ [] := by
  cases cases with
  | nil => exact absurd rfl nonempty
  | cons arm rest =>
      rw [caseArms]
      simp only [bind_run, fresh]
      rw [if_neg List.not_mem_nil]
      exact List.cons_ne_nil _ _

/-- The header of a bounded loop is valid. -/
theorem valid_bounded (counter : String) {body : List Grammar.Stmt} (valid : AllValid typed body) :
    (Grammar.boundedSyntax counter body).Valid typed := by
  have zero : (Grammar.Literal.number "0").Valid := ⟨0, by decide, rfl⟩
  have bound : (Grammar.Literal.hex "60").Valid := ⟨by decide, by decide, List.all_eq_true.1 rfl⟩
  have width : (Grammar.Literal.hex "20").Valid := ⟨by decide, by decide, List.all_eq_true.1 rfl⟩
  refine ⟨⟨⟨List.cons_ne_nil _ _, by simp, zero, nofun⟩, trivial⟩, ⟨rfl, trivial, ?_, trivial⟩,
    ⟨⟨List.cons_ne_nil _ _, rfl, trivial, ?_, trivial⟩, trivial⟩, valid⟩
  · exact ⟨bound, nofun⟩
  · exact ⟨width, nofun⟩

/-- Only a number has its type in the declaration, and it is written only where declarations are typed. -/
theorem declareVariable_valid (settings : Settings) (env : Env) (type : Option TypeName)
    (value : Tree.Expr) (t : Thread) :
    (Grammar.stmtSyntax (declareVariable settings env type value t).1).Valid
      settings.typedDeclarations := by
  have valid (typed : Bool) : (exprSyntax _).Valid typed := expression_valid settings.seed env value t
  simp only [declareVariable, ascription, bind_run, pure_run]
  cases typed : settings.typedDeclarations with
  | false =>
      exact ⟨List.cons_ne_nil _ _, by simp, valid _⟩
  | true =>
      cases type with
      | none => exact ⟨List.cons_ne_nil _ _, by simp, valid _⟩
      | some type =>
          refine ⟨List.cons_ne_nil _ _, by simp, ?_⟩
          cases value with
          | literal node =>
              have number := literal_valid settings.seed node t
              cases node <;> cases type <;> exact ⟨number, fun _ => rfl⟩
          | _ => exact valid true

theorem assign_valid (seed : Seed) (env : Env) (target : UInt32) (value : Tree.Expr) (t : Thread) :
    (Grammar.stmtSyntax (assign seed env target value t).1).Valid typed := by
  simp only [assign, bind_run]
  cases env.resolve target with
  | none => exact valid_discard (expression_valid seed env value t)
  | some found => exact ⟨List.cons_ne_nil _ _, expression_valid seed env value t⟩

mutual

/-- Every statement is valid. -/
theorem statement_valid (settings : Settings) : ∀ (stmt : Tree.Stmt) {env : Env} (t : Thread),
    env.Coherent → AllValid settings.typedDeclarations (stmtsSyntax (statement settings env stmt t).1.1)
  | .declare type value, env, t, _ => ⟨declareVariable_valid settings env type value t, trivial⟩
  | .assign target value, env, t, _ => ⟨assign_valid settings.seed env target value t, trivial⟩
  | .ifThen cond body, env, t, coherent =>
      ⟨⟨expression_valid settings.seed env cond t,
        braces_valid (statements_valid settings body coherent) _⟩, trivial⟩
  | .store op location value, env, t, _ => builtinStatement_valid settings.seed env t nofun rfl
  | .block body, env, t, coherent => ⟨braces_valid (statements_valid settings body coherent) t, trivial⟩
  | .forLoop init cond post body, env, t, coherent => by
      have start := coherent.inLoopContext false true
      have inside := (start.extends_ (statements_extends settings init _ t)).inLoopContext
      exact ⟨⟨valid_opening (statements_valid settings init start t),
        expression_valid settings.seed _ cond _,
        braces_valid (statements_valid settings post (inside false false)) _,
        braces_valid (statements_valid settings body (inside true false)) _⟩, trivial⟩
  | .boundedFor body, env, t, coherent =>
      ⟨valid_bounded _ (braces_valid (statements_valid settings body coherent.inBoundedLoop) t), trivial⟩
  | .switch scrutinee cases default, env, t, coherent => by
      rw [statement]
      split
      · trivial
      · rename_i some
        have arms := caseArms_valid settings cases (coherent.withLabels [])
          (expression settings.seed env scrutinee t).2
        have scrutineeValid : (exprSyntax _).Valid settings.typedDeclarations :=
          expression_valid settings.seed env scrutinee t
        cases default with
        | none =>
            have nonempty : cases ≠ [] := by simpa using some
            exact ⟨⟨.inl (casesSyntax_ne_nil (caseArms_ne_nil settings rfl nonempty _)), scrutineeValid,
              arms, trivial⟩, trivial⟩
        | some body =>
            exact ⟨⟨.inr rfl, scrutineeValid, arms,
              braces_valid (statements_valid settings body coherent) _⟩, trivial⟩
  | .breakLoop, env, t, _ => loopControl_valid env .breakLoop trivial t
  | .continueLoop, env, t, _ => loopControl_valid env .continueLoop trivial t
  | .log position size topics, env, t, _ => by
      refine builtinStatement_valid settings.seed env t ?_ rfl
      rintro _ ⟨⟩
      exact List.length_take_le _ _
  | .copy region target source size, env, t, _ => builtinStatement_valid settings.seed env t nofun rfl
  | .extCodeCopy address target source size, env, t, _ =>
      builtinStatement_valid settings.seed env t nofun rfl
  | .halt op, env, t, _ => ⟨valid_builtinCall nofun rfl trivial, trivial⟩
  | .exit op position size, env, t, _ => builtinStatement_valid settings.seed env t nofun rfl
  | .selfDestruct address, env, t, _ => builtinStatement_valid settings.seed env t nofun rfl
  | .call usage selector args targets, env, t, coherent =>
      ⟨callStatement_valid settings.seed coherent usage selector args targets t, trivial⟩
  | .define inputs outputs body, env, t, coherent => by
      rw [statement]
      split
      · trivial
      · have after := Env.Extends.define env (proper_defined t inputs outputs)
        have inside := Env.Coherent.inFunctionBody (coherent.extends_ after).proper
        exact ⟨braces_valid (statements_valid settings body (inside _)) _, callAfterDefinition_valid _ _ _,
          trivial⟩
  | .pop value, env, t, _ => builtinStatement_valid settings.seed env t nofun rfl

/-- All statements of a block are valid. -/
theorem statements_valid (settings : Settings) : ∀ (body : List Tree.Stmt) {env : Env},
    env.Coherent → ∀ t,
      AllValid settings.typedDeclarations (stmtsSyntax (statements settings env body t).1.1)
  | [], _, _, _ => trivial
  | stmt :: rest, env, coherent, t =>
      allValid_append (statement_valid settings stmt t coherent)
        (statements_valid settings rest (coherent.extends_ (statement_extends settings env stmt t)) _)

/-- All arms of a switch are valid. -/
theorem caseArms_valid (settings : Settings) :
    ∀ (cases : List (Tree.Literal × List Tree.Stmt)) {env : Env}, env.Coherent → ∀ t,
      CasesValid settings.typedDeclarations (casesSyntax (caseArms settings env cases t).1)
  | [], _, _, _ => trivial
  | (label, body) :: rest, env, coherent, t => by
      rw [caseArms]
      simp only [bind_run]
      split
      · exact caseArms_valid settings rest coherent _
      · have after := coherent.withLabels ((literal settings.seed label t).1.word :: env.labels)
        exact ⟨literal_valid settings.seed label t, braces_valid (statements_valid settings body after) _,
          caseArms_valid settings rest after _⟩

end

/-- Every generated program is valid. -/
theorem program_valid (settings : Settings) (tree : Tree.Program) :
    AllValid settings.typedDeclarations (blockSyntax (program settings tree).1) :=
  braces_valid (statements_valid settings tree.block .initial) {}

/-- Every tree has a generation, whose text is read as the tree of the lexical translation. -/
theorem exists_reading (settings : Settings) (tree : Tree.Program) :
    ∃ g, tree.generate settings = .ok g ∧ g.yul = (program settings tree).1.render ∧
      Grammar.read g.yul = some (blockSyntax (program settings tree).1) := by
  obtain ⟨g, generated, text⟩ := exists_generation settings tree
  have reading := Grammar.read_render (program_valid settings tree)
  rw [← text] at reading
  exact ⟨g, generated, text, reading⟩

end Lexical

/-- Every tree has a generation, and without types its text is read as one valid block, consists of the tokens
    of this block, and is indented by two spaces for each block that is open around a line. -/
theorem generate_valid (settings : Settings) (tree : Tree.Program)
    (untyped : settings.typedDeclarations = false) :
    ∃ g block, tree.generate settings = .ok g ∧ Grammar.read g.yul = some block ∧
      Grammar.tokens g.yul = some (Grammar.braced (Grammar.Stmt.listTokens block)) ∧
      AllValid false block ∧ Layout.Indented g.yul := by
  obtain ⟨g, generated, text, reading⟩ := Lexical.exists_reading settings tree
  have valid := Lexical.program_valid settings tree
  have whole := Grammar.tokens_render valid
  have indented := Layout.indented_render valid
  rw [← text] at whole indented
  rw [untyped] at valid
  exact ⟨g, _, generated, reading, whole, valid, indented⟩

/-- The characters of a text in the tree end neither the literal nor the block around it. -/
theorem generate_valid_hostile_text :
    ({} : Settings).typedDeclarations = false ∧
      ∃ g block, Tree.Program.generate {} ⟨[.ifThen (.literal (.str "a\" \x7d stop()")) [.pop .unset]]⟩ =
        .ok g ∧ Grammar.read g.yul = some block ∧
        Grammar.tokens g.yul = some (Grammar.braced (Grammar.Stmt.listTokens block)) ∧
        AllValid false block ∧ Layout.Indented g.yul :=
  ⟨rfl, generate_valid {} _ rfl⟩

end YulFuzz
