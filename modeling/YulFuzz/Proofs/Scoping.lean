/-
Module: YulFuzz.Proofs.Scoping
Purpose: Variables of generated programs are well scoped. The numbers of an environment stand for the names
  that are open at a point of the text: visible variables are visible names, and all names that are taken are
  those of numbers below the next one, or of counters of the bounded loops around.
Main exports: Lexical.Env.Used, Lexical.Env.Names, Lexical.statement_fit, Lexical.statements_fit,
  Lexical.program_scoped
-/
import YulFuzz.Proofs.Grammar.Printed
import YulFuzz.Proofs.Grammar.Scope
import YulFuzz.Proofs.Lexical.Extension
import YulFuzz.Proofs.Targets

namespace YulFuzz

open Grammar (Scope exprSyntax exprsSyntax stmtSyntax stmtsSyntax blockSyntax casesSyntax letSyntax)
open Grammar.Stmt (AllScoped CasesScoped)

/-! ### Trees of generated code -/

namespace Grammar

variable {scope : Scope}

/-- A declaration of one variable declares its name, with and without a type. -/
theorem declares_letSyntax (var : Yul.Var) (ascription : Option Yul.Ascription) (value : Yul.Expr) :
    (letSyntax var ascription value).declares = [var.text] := by
  cases ascription <;> rfl

theorem scoped_letSyntax {var : Yul.Var} {value : Yul.Expr} (ascription : Option Yul.Ascription)
    (inScope : (exprSyntax value).Scoped scope) (free : scope.Free [var.text]) :
    (letSyntax var ascription value).Scoped scope := by
  cases ascription with
  | none => exact ⟨inScope, free, by simp⟩
  | some ascription =>
      obtain ⟨type, onValue⟩ := ascription
      have plain : ∀ name ∈ [(⟨var.text, some type.name⟩ : TypedName)], ∀ type ∈ name.type,
          ¬ IsVariable type := by
        simpa using not_isVariable_typeName type
      refine ⟨?_, free, plain⟩
      cases onValue with
      | false => exact inScope
      | true =>
          have ascribed (literal : Literal) : (Expr.literal literal (some type.name)).Scoped scope := by
            rintro _ ⟨⟩
            exact not_isVariable_typeName type
          cases value <;> exact ascribed _

theorem scoped_letMany {vars : List Yul.Var} {value : Yul.Expr}
    (inScope : (exprSyntax value).Scoped scope) (free : scope.Free (vars.map Yul.Var.text)) :
    (stmtSyntax (.letMany vars value)).Scoped scope := by
  refine ⟨inScope, ?_, ?_⟩
  · rw [List.map_map]
    exact free
  · intro name member
    obtain ⟨var, _, rfl⟩ := List.mem_map.1 member
    nofun

theorem declares_letMany (vars : List Yul.Var) (value : Yul.Expr) :
    (stmtSyntax (.letMany vars value)).declares = vars.map Yul.Var.text := by
  rw [stmtSyntax, Stmt.declares, List.map_map]
  rfl

theorem scoped_call (callee : Yul.Callee) {args : List Yul.Expr}
    (inScope : Expr.AllScoped scope (exprsSyntax args)) :
    (exprSyntax (.call callee args)).Scoped scope :=
  ⟨not_isVariable_callee callee, inScope⟩

theorem allScoped_exprs {exprs : List Yul.Expr} (inScope : ∀ expr ∈ exprs, (exprSyntax expr).Scoped scope) :
    Expr.AllScoped scope (exprsSyntax exprs) := by
  induction exprs with
  | nil => trivial
  | cons expr rest ih =>
      exact ⟨inScope expr List.mem_cons_self,
        ih fun other member => inScope other (List.mem_cons_of_mem _ member)⟩

/-- Statements that declare nothing are each in the scope of the block. -/
theorem allScoped_of_declares_eq_nil {body : List Stmt} (none : ∀ stmt ∈ body, stmt.declares = [])
    (inScope : ∀ stmt ∈ body, stmt.Scoped scope) : AllScoped scope body := by
  induction body with
  | nil => trivial
  | cons stmt rest ih =>
      refine ⟨inScope stmt List.mem_cons_self, ?_⟩
      rw [none stmt List.mem_cons_self]
      exact ih (fun other member => none other (List.mem_cons_of_mem _ member)) fun other member =>
        inScope other (List.mem_cons_of_mem _ member)

end Grammar

namespace Lexical

/-! ### Names of an environment

No name is stored in an environment, only numbers. They stand for a scope of the text if the visible numbers
are visible names, and every taken name is that of a used number. The numbers from `fresh` on are then free
names, also inside of function bodies, where the numbers around them stay used but are visible no more. -/

namespace Env

/-- The variable may be declared at a point with this environment, or around it. -/
def Used (env : Env) : Yul.Var → Prop
  | .user number => number < env.fresh
  | .loop depth => depth < env.loopDepth

/-- The environment stands for the scope: its variables are visible, and what is taken is used. -/
structure Names (env : Env) (scope : Scope) : Prop where
  visible : ∀ number ∈ env.vars, (Yul.Var.user number).text ∈ scope.visible
  used : ∀ var : Yul.Var, var.text ∈ scope.taken → env.Used var

variable {env : Env} {scope : Scope} {var : Yul.Var}

namespace Names

theorem initial : Names {} {} := ⟨nofun, nofun⟩

/-- Variables that are not used can be declared. -/
theorem free {vars : List Yul.Var} (names : env.Names scope) (nodup : vars.Nodup)
    (unused : ∀ var ∈ vars, ¬ env.Used var) : scope.Free (vars.map Yul.Var.text) := by
  refine ⟨nodup.map Grammar.var_text_injective, ?_⟩
  intro name member taken
  obtain ⟨var, declared, rfl⟩ := List.mem_map.1 member
  exact unused var declared (names.used var taken)

theorem free_declared (names : env.Names scope) (count : Nat) :
    scope.Free ((env.declared count).map Yul.Var.text) := by
  apply names.free (env.nodup_declared count)
  intro var member
  obtain ⟨number, rfl, old, _⟩ := mem_declared.1 member
  exact Nat.not_lt.2 old

theorem free_loop (names : env.Names scope) : scope.Free [(Yul.Var.loop env.loopDepth).text] := by
  apply names.free (List.nodup_singleton (Yul.Var.loop env.loopDepth))
  intro var member
  obtain rfl := List.mem_singleton.1 member
  exact Nat.lt_irrefl _

/-- A name that is taken after a declaration is used after it. -/
theorem used_of_mem_append {vars : List Yul.Var} {after : Env} (names : env.Names scope)
    (declared : ∀ var ∈ vars, after.Used var) (kept : ∀ var, env.Used var → after.Used var)
    (taken : var.text ∈ vars.map Yul.Var.text ++ scope.taken) : after.Used var := by
  rcases List.mem_append.1 taken with new | old
  · rw [List.mem_map_of_injective Grammar.var_text_injective] at new
    exact declared var new
  · exact kept var (names.used var old)

theorem used_of_mem_declared {count : Nat} (names : env.Names scope)
    (taken : var.text ∈ (env.declared count).map Yul.Var.text ++ scope.taken) :
    (env.declare count).Used var := by
  refine names.used_of_mem_append (fun var member => ?_) (fun var used => ?_) taken
  · obtain ⟨number, rfl, _, new⟩ := mem_declared.1 member
    exact new
  · cases var with
    | user number => exact Nat.lt_add_right count used
    | loop depth => exact used

theorem declare (names : env.Names scope) (count : Nat) :
    (env.declare count).Names (scope.extend ((env.declared count).map Yul.Var.text)) := by
  refine ⟨fun number member => ?_, fun var taken => names.used_of_mem_declared taken⟩
  rcases List.mem_append.1 member with old | new
  · exact List.mem_append_right _ (names.visible number old)
  · refine List.mem_append_left _ (List.mem_map_of_mem (mem_declared.2 ?_))
    exact ⟨number, rfl, List.mem_range'_1.1 new⟩

/-- A function body sees its parameters and results, and nothing from around it. -/
theorem inFunctionBody (names : env.Names scope) (count : Nat) :
    (env.inFunctionBody count).Names (scope.inFunction ((env.declared count).map Yul.Var.text)) := by
  refine ⟨fun number member => ?_, fun var taken => ?_⟩
  · have new : number ∈ List.range' env.fresh count := member
    exact List.mem_map_of_mem (mem_declared.2 ⟨number, rfl, List.mem_range'_1.1 new⟩)
  · have used := names.used_of_mem_declared taken
    cases var <;> exact used

theorem inBoundedLoop (names : env.Names scope) :
    env.inBoundedLoop.Names (scope.extend [(Yul.Var.loop env.loopDepth).text]) := by
  refine ⟨fun number member => List.mem_append_right _ (names.visible number member), ?_⟩
  have declared : ∀ var ∈ [Yul.Var.loop env.loopDepth], env.inBoundedLoop.Used var := by
    intro var member
    obtain rfl := List.mem_singleton.1 member
    exact Nat.lt_succ_self _
  have kept : ∀ var, env.Used var → env.inBoundedLoop.Used var := by
    intro var used
    cases var with
    | user number => exact used
    | loop depth => exact Nat.lt_succ_of_lt used
  exact fun var taken => names.used_of_mem_append declared kept taken

theorem inLoopContext (names : env.Names scope) (inLoopBody inLoopInit : Bool) :
    (env.inLoopContext inLoopBody inLoopInit).Names scope :=
  ⟨names.visible, fun var taken => by cases var <;> exact names.used _ taken⟩

theorem withLabels (names : env.Names scope) (labels : List Word) : (env.withLabels labels).Names scope :=
  ⟨names.visible, fun var taken => by cases var <;> exact names.used _ taken⟩

theorem define (names : env.Names scope) (callable : Callable) : (env.define callable).Names scope :=
  ⟨names.visible, fun var taken => by cases var <;> exact names.used _ taken⟩

/-- A variable that a number of the tree stands for is visible. -/
theorem mem_of_resolve {number : UInt32} (names : env.Names scope) (found : env.resolve number = some var) :
    var.text ∈ scope.visible := by
  obtain ⟨visible, place, rfl⟩ := Option.map_eq_some_iff.1 found
  exact names.visible visible (List.mem_of_getElem? place)

end Names

end Env

/-! ### Expressions -/

variable {env : Env} {scope : Scope}

/-- A literal without a type has no names. -/
theorem scoped_literal (value : Yul.Literal) : (exprSyntax (.literal value)).Scoped scope := nofun

theorem allScoped_tokenExprs (seed : Seed) (wanted : Nat) (t : Thread) :
    Grammar.Expr.AllScoped scope (exprsSyntax (tokenExprs seed wanted t).1) := by
  induction wanted generalizing t with
  | zero => trivial
  | succ wanted ih => exact ⟨scoped_literal _, ih _⟩

mutual

/-- Every name in an expression is visible. -/
theorem expression_scoped (seed : Seed) (names : env.Names scope) : ∀ (expr : Tree.Expr) (t : Thread),
    (exprSyntax (expression seed env expr t).1).Scoped scope
  | .varRef number, t => by
      rw [expression]
      cases found : env.resolve number with
      | none => exact scoped_literal _
      | some var => exact names.mem_of_resolve found
  | .literal node, t => scoped_literal _
  | .binary op left right, t =>
      Grammar.scoped_call _
        ⟨expression_scoped seed names left t, expression_scoped seed names right _, trivial⟩
  | .unary op operand, t => Grammar.scoped_call _ ⟨expression_scoped seed names operand t, trivial⟩
  | .ternary op first second third, t =>
      Grammar.scoped_call _ ⟨expression_scoped seed names first t, expression_scoped seed names second _,
        expression_scoped seed names third _, trivial⟩
  | .nullary op, t => Grammar.scoped_call _ trivial
  | .call usage selector args targets, t => by
      rw [expression]
      cases env.pick .singleReturn selector with
      | none => exact scoped_literal _
      | some callee => exact Grammar.scoped_call _ (arguments_scoped seed names callee.inputs args _)
  | .unset, t => scoped_literal _

/-- Every name in the arguments of a call is visible. -/
theorem arguments_scoped (seed : Seed) (names : env.Names scope) :
    ∀ (wanted : Nat) (args : List Tree.Expr) (t : Thread),
      Grammar.Expr.AllScoped scope (exprsSyntax (arguments seed env wanted args t).1)
  | wanted, [], t => by
      rw [arguments]
      exact allScoped_tokenExprs seed wanted t
  | 0, _ :: _, t => trivial
  | wanted + 1, arg :: args, t =>
      ⟨expression_scoped seed names arg t, arguments_scoped seed names wanted args _⟩

end

theorem expressions_scoped (seed : Seed) (names : env.Names scope) (exprs : List Tree.Expr) (t : Thread) :
    Grammar.Expr.AllScoped scope (exprsSyntax (expressions seed env exprs t).1) := by
  induction exprs generalizing t with
  | nil => trivial
  | cons expr rest ih => exact ⟨expression_scoped seed names expr t, ih _⟩

/-! ### Statements -/

/-- Statements are in scope, and the environment after them stands for the scope that they leave. -/
structure Fit (scope : Scope) (body : List Yul.Stmt) (after : Env) : Prop where
  inScope : AllScoped scope (stmtsSyntax body)
  names : after.Names (scope.after (stmtsSyntax body))

namespace Fit

variable {after : Env} {body rest : List Yul.Stmt} {stmt : Yul.Stmt}

theorem nil (names : env.Names scope) : Fit scope [] env := ⟨trivial, names⟩

theorem append (first : Fit scope body env) (second : Fit (scope.after (stmtsSyntax body)) rest after) :
    Fit scope (body ++ rest) after := by
  refine ⟨?_, ?_⟩ <;> rw [Grammar.stmtsSyntax_append]
  · exact Grammar.Stmt.allScoped_append first.inScope second.inScope
  · rw [Grammar.Scope.after_append]
    exact second.names

/-- A statement that declares nothing keeps the scope. -/
theorem keeping (inScope : (stmtSyntax stmt).Scoped scope) (none : (stmtSyntax stmt).declares = [])
    (names : after.Names scope) : Fit scope [stmt] after := by
  refine ⟨⟨inScope, trivial⟩, ?_⟩
  change after.Names (scope.extend (stmtSyntax stmt).declares)
  rw [none]
  exact names

/-- A statement that declares the next variables. -/
theorem declaring {count : Nat} (inScope : (stmtSyntax stmt).Scoped scope)
    (declares : (stmtSyntax stmt).declares = (env.declared count).map Yul.Var.text)
    (names : env.Names scope) : Fit scope [stmt] (env.declare count) := by
  refine ⟨⟨inScope, trivial⟩, ?_⟩
  change (env.declare count).Names (scope.extend (stmtSyntax stmt).declares)
  rw [declares]
  exact names.declare count

end Fit

theorem builtinStatement_fit (seed : Seed) (names : env.Names scope) (builtin : Builtin)
    (args : List Tree.Expr) (t : Thread) :
    Fit scope (builtinStatement seed env builtin args t).1.1 (builtinStatement seed env builtin args t).1.2 :=
  .keeping (Grammar.scoped_call (.builtin builtin) (expressions_scoped seed names args t)) rfl names

theorem scoped_discard {value : Yul.Expr} (inScope : (exprSyntax value).Scoped scope) :
    (stmtSyntax (Walk.discard value)).Scoped scope :=
  Grammar.scoped_call (.builtin .pop) ⟨inScope, trivial⟩

theorem call_scoped (seed : Seed) (names : env.Names scope) (callee : Callable) (args : List Tree.Expr)
    (t : Thread) : (exprSyntax (call seed env callee args t).1).Scoped scope :=
  Grammar.scoped_call _ (arguments_scoped seed names callee.inputs args _)

theorem callStatement_fit (seed : Seed) (names : env.Names scope) (usage : Tree.CallUsage)
    (selector : UInt32) (args : List Tree.Expr) (requests : List UInt32) (t : Thread) :
    Fit scope [(callStatement seed env usage selector args requests t).1.1]
      (callStatement seed env usage selector args requests t).1.2 := by
  unfold callStatement
  cases env.callee? usage selector with
  | none => exact .keeping (scoped_discard (scoped_literal _)) rfl names
  | some callee =>
      have value : (exprSyntax _).Scoped scope := call_scoped seed names callee args t
      cases usage with
      | none | single => exact .keeping value rfl names
      | multiDecl =>
          exact .declaring (Grammar.scoped_letMany value (names.free_declared _))
            (Grammar.declares_letMany _ _) names
      | multiAssign =>
          refine .keeping ⟨fun name member => ?_, value⟩ rfl names
          obtain ⟨var, target, rfl⟩ := List.mem_map.1 member
          obtain ⟨number, chosen, rfl⟩ := List.mem_map.1 target
          exact names.visible number (Env.mem_of_mem_targets chosen).1

theorem callOnCalldata_scoped (callable : Callable) :
    (exprSyntax (callOnCalldata callable)).Scoped scope := by
  refine Grammar.scoped_call (.function callable.name) (Grammar.allScoped_exprs fun expr member => ?_)
  obtain ⟨i, _, rfl⟩ := List.mem_map.1 member
  exact Grammar.scoped_call (.builtin (.unary .calldataload)) ⟨scoped_literal _, trivial⟩

theorem stores_scoped {vars : List Yul.Var} (visible : ∀ var ∈ vars, var.text ∈ scope.visible) :
    AllScoped scope (stmtsSyntax (stores vars)) := by
  rw [Grammar.stmtsSyntax_eq_map, stores, List.map_map]
  refine Grammar.allScoped_of_declares_eq_nil ?_ ?_
  · simp only [List.mem_map]
    rintro _ ⟨store, _, rfl⟩
    rfl
  · simp only [List.mem_map]
    rintro _ ⟨⟨var, i⟩, member, rfl⟩
    have inside := (List.mem_zipIdx' member).2 ▸ List.getElem_mem _
    exact Grammar.scoped_call (.builtin (.store .sstore)) ⟨scoped_literal _, visible var inside, trivial⟩

/-- The call after a definition declares its results in a block of their own. -/
theorem callAfterDefinition_fit (names : env.Names scope) (callable : Callable) (t : Thread) :
    Fit scope [(callAfterDefinition env callable t).1] env := by
  have call : (exprSyntax _).Scoped scope := callOnCalldata_scoped callable
  rw [callAfterDefinition_run]
  split
  · exact .keeping call rfl names
  · refine .keeping ⟨Grammar.scoped_letMany call (names.free_declared _), ?_⟩ rfl names
    rw [Grammar.declares_letMany]
    exact stores_scoped fun var member => List.mem_append_left _ (List.mem_map_of_mem member)

theorem loopControl_fit (names : env.Names scope) (control : Yul.Stmt)
    (inScope : (stmtSyntax control).Scoped scope) (none : (stmtSyntax control).declares = []) (t : Thread) :
    Fit scope (loopControl env control t).1.1 (loopControl env control t).1.2 := by
  unfold loopControl
  split
  · exact .keeping inScope none names
  · exact .nil names

theorem assign_fit (seed : Seed) (names : env.Names scope) (target : UInt32) (value : Tree.Expr)
    (t : Thread) : Fit scope [(assign seed env target value t).1] env := by
  have inScope := expression_scoped seed names value t
  simp only [assign, bind_run]
  cases found : env.resolve target with
  | none => exact .keeping (scoped_discard inScope) rfl names
  | some var =>
      refine .keeping ⟨fun name member => ?_, inScope⟩ rfl names
      obtain rfl := List.mem_singleton.1 member
      exact names.mem_of_resolve found

theorem braces_scoped {isEmpty : Bool} {part : Threaded (List Yul.Stmt × Env)}
    (inside : ∀ t, Fit scope (part t).1.1 (part t).1.2) (t : Thread) :
    AllScoped scope (blockSyntax (braces isEmpty part t).1) := by
  cases isEmpty with
  | true => trivial
  | false => exact (inside t).inScope

/-- A bounded loop over a counter that is free. -/
theorem scoped_boundedFor {counter : String} {body : List Grammar.Stmt} (free : scope.Free [counter])
    (inScope : AllScoped (scope.extend [counter]) body) :
    (Grammar.boundedSyntax counter body).Scoped scope := by
  have visible : counter ∈ (scope.extend [counter]).visible := List.mem_cons_self
  have plain (builtin : Builtin) : ¬ Grammar.IsVariable builtin.name :=
    Grammar.not_isVariable_callee (.builtin builtin)
  have sum : (Grammar.Expr.call "add" [.name counter, .literal (.hex "20") none]).Scoped
      (scope.extend [counter]) := ⟨plain (.binary .add), visible, nofun, trivial⟩
  have test : (Grammar.Expr.call "lt" [.name counter, .literal (.hex "60") none]).Scoped
      (scope.extend [counter]) := ⟨plain (.binary .lt), visible, nofun, trivial⟩
  refine ⟨⟨⟨nofun, free, by simp⟩, trivial⟩, test, ⟨⟨?_, sum⟩, trivial⟩, inScope⟩
  intro target member
  obtain rfl := List.mem_singleton.1 member
  exact visible

mutual

/-- Every statement is in scope, and the environment after it stands for the scope that it leaves. -/
theorem statement_fit (settings : Settings) : ∀ (stmt : Tree.Stmt) {env : Env} {scope : Scope} (t : Thread),
    env.Names scope → Fit scope (statement settings env stmt t).1.1 (statement settings env stmt t).1.2
  | .declare type value, env, scope, t, names => by
      have free : scope.Free [(Yul.Var.user env.fresh).text] := names.free_declared 1
      have inScope := expression_scoped settings.seed names value t
      exact .declaring (Grammar.scoped_letSyntax (ascription settings type value) inScope free)
        (Grammar.declares_letSyntax _ _ _) names
  | .assign target value, env, scope, t, names => assign_fit settings.seed names target value t
  | .ifThen cond body, env, scope, t, names =>
      .keeping ⟨expression_scoped settings.seed names cond t,
        braces_scoped (fun t => statements_fit settings body t names) _⟩ rfl names
  | .store op location value, env, scope, t, names => builtinStatement_fit settings.seed names _ _ t
  | .block body, env, scope, t, names =>
      .keeping (braces_scoped (fun t => statements_fit settings body t names) t) rfl names
  | .forLoop init cond post body, env, scope, t, names => by
      have opening := statements_fit settings init t (names.inLoopContext false true)
      have inside := opening.names.inLoopContext
      have header := Grammar.blockSyntax_opening init
        (fun init => (statements settings (env.inLoopContext false true) init t).1.1) rfl
      refine .keeping ?_ rfl names
      rw [stmtSyntax, header]
      exact ⟨opening.inScope, expression_scoped settings.seed (inside _ _) cond _,
        braces_scoped (fun t => statements_fit settings post t (inside _ _)) _,
        braces_scoped (fun t => statements_fit settings body t (inside _ _)) _⟩
  | .boundedFor body, env, scope, t, names =>
      .keeping (scoped_boundedFor names.free_loop
        (braces_scoped (fun t => statements_fit settings body t names.inBoundedLoop) t)) rfl names
  | .switch scrutinee cases default, env, scope, t, names => by
      rw [statement]
      split
      · exact .nil names
      · have inScope := expression_scoped settings.seed names scrutinee t
        have arms := caseArms_scoped settings cases (expression settings.seed env scrutinee t).2
          (names.withLabels [])
        cases default with
        | none => exact .keeping ⟨inScope, arms, trivial⟩ rfl names
        | some body =>
            exact .keeping ⟨inScope, arms,
              braces_scoped (fun t => statements_fit settings body t names) _⟩ rfl names
  | .breakLoop, env, scope, t, names => loopControl_fit names .breakLoop trivial rfl t
  | .continueLoop, env, scope, t, names => loopControl_fit names .continueLoop trivial rfl t
  | .log position size topics, env, scope, t, names => builtinStatement_fit settings.seed names _ _ t
  | .copy region target source size, env, scope, t, names => builtinStatement_fit settings.seed names _ _ t
  | .extCodeCopy address target source size, env, scope, t, names =>
      builtinStatement_fit settings.seed names _ _ t
  | .halt op, env, scope, t, names =>
      .keeping (Grammar.scoped_call (.builtin (.halt op)) trivial) rfl names
  | .exit op position size, env, scope, t, names => builtinStatement_fit settings.seed names _ _ t
  | .selfDestruct address, env, scope, t, names => builtinStatement_fit settings.seed names _ _ t
  | .call usage selector args targets, env, scope, t, names =>
      callStatement_fit settings.seed names usage selector args targets t
  | .define inputs outputs body, env, scope, t, names => by
      rw [statement]
      split
      · exact .nil names
      · have after := names.define (t.defined inputs outputs)
        refine Fit.append (.keeping ?_ rfl after) (callAfterDefinition_fit after _ _)
        -- Parameters and results are declared together, so that their names are distinct.
        refine ⟨Grammar.not_isVariable_callee (.function _), ?_, ?_⟩ <;>
          rw [← List.map_append, List.take_append_drop]
        · exact names.free_declared _
        · exact braces_scoped (fun t => statements_fit settings body t (after.inFunctionBody _)) _
  | .pop value, env, scope, t, names => builtinStatement_fit settings.seed names _ _ t

/-- All statements of a block are in scope, and the environment at its end stands for the scope there. -/
theorem statements_fit (settings : Settings) : ∀ (body : List Tree.Stmt) {env : Env} {scope : Scope}
    (t : Thread), env.Names scope →
      Fit scope (statements settings env body t).1.1 (statements settings env body t).1.2
  | [], _, _, _, names => .nil names
  | stmt :: rest, _, _, t, names =>
      have here := statement_fit settings stmt t names
      here.append (statements_fit settings rest _ here.names)

/-- All arms of a switch are in scope. -/
theorem caseArms_scoped (settings : Settings) : ∀ (cases : List (Tree.Literal × List Tree.Stmt)) {env : Env}
    {scope : Scope} (t : Thread), env.Names scope →
      CasesScoped scope (casesSyntax (caseArms settings env cases t).1)
  | [], _, _, _, _ => trivial
  | (label, body) :: rest, env, scope, t, names => by
      rw [caseArms]
      simp only [bind_run]
      split
      · exact caseArms_scoped settings rest _ names
      · have after := names.withLabels ((literal settings.seed label t).1.word :: env.labels)
        exact ⟨braces_scoped (fun t => statements_fit settings body t after) _,
          caseArms_scoped settings rest _ after⟩

end

/-- Every generated program is in scope. -/
theorem program_scoped (settings : Settings) (tree : Tree.Program) :
    AllScoped {} (blockSyntax (program settings tree).1) :=
  braces_scoped (fun t => statements_fit settings tree.block t .initial) {}

end Lexical

end YulFuzz
