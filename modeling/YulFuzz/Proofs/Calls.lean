/-
Module: YulFuzz.Proofs.Calls
Purpose: Function definitions and calls of generated programs. The callable functions of an environment are
  all among the ones that are defined at that point of the text, and the index of a kind only grows, so that
  no name is given twice.
Main exports: Lexical.Env.DefinedIn, Lexical.Numbered, Lexical.statement_follows, Lexical.statements_follows,
  Lexical.program_linked, generate_resolved
-/
import YulFuzz.Proofs.Grammar.Calls
import YulFuzz.Proofs.Lexical.Thread
import YulFuzz.Proofs.Validity

namespace YulFuzz

open Grammar (Signature functionsAfter exprSyntax exprsSyntax stmtSyntax stmtsSyntax blockSyntax casesSyntax
  letSyntax)
open Grammar.Stmt (AllResolved CasesResolved listDefinitions caseDefinitions)

/-- The header of the definition of a function. -/
def Callable.signature (callable : Callable) : Signature :=
  ⟨callable.name.text, callable.inputs, callable.outputs⟩

theorem Callable.Proper.wellNamed {callable : Callable} (proper : callable.Proper) :
    callable.signature.WellNamed :=
  ⟨⟨callable.name, rfl, proper.kind⟩, proper.inputs, proper.outputs⟩

namespace Lexical

variable {env after : Env} {functions : List Signature} {seed : Seed} {wanted : Nat}

/-! ### Parts of the translation that define nothing -/

theorem loopControl_next (env : Env) (control : Yul.Stmt) (t : Thread) :
    (loopControl env control t).2.next = t.next := by
  unfold loopControl
  split <;> rfl

/-- No statement in the init block of a loop defines a function for the statements after it. -/
theorem statement_callables (settings : Settings) (env : Env) (stmt : Tree.Stmt) (t : Thread)
    (forbidden : env.inLoopInit = true) :
    (statement settings env stmt t).1.2.callables = env.callables := by
  cases stmt with
  | switch scrutinee cases default =>
      rw [statement]
      split
      · rfl
      · cases default <;> rfl
  | call usage selector args targets =>
      change (callStatement settings.seed env usage selector args targets t).1.2.callables = _
      unfold callStatement
      cases env.callee? usage selector with
      | none => rfl
      | some callee => cases usage <;> rfl
  | define inputs outputs body =>
      rw [statement, if_pos forbidden]
      rfl
  | breakLoop | continueLoop =>
      rw [statement, loopControl]
      split <;> rfl
  | _ => rfl

theorem statements_callables (settings : Settings) (body : List Tree.Stmt) (env : Env) (t : Thread)
    (forbidden : env.inLoopInit = true) :
    (statements settings env body t).1.2.callables = env.callables := by
  induction body generalizing env t with
  | nil => rfl
  | cons stmt rest ih =>
      have still := (statement_extends settings env stmt t).inLoopInit.trans forbidden
      exact (ih _ _ still).trans (statement_callables settings env stmt t forbidden)

/-! ### Names of functions

The functions of a part of the tree take the indices of their kinds from those handed on to the part up to
those that it hands on. Parts that come one after another therefore share no name. -/

/-- The names are distinct, and belong to functions numbered from `next` up to `after`, which is excluded. -/
structure Numbered (next after : PerKind Nat) (names : List String) : Prop where
  le : ∀ kind, next.get kind ≤ after.get kind
  nodup : names.Nodup
  between : ∀ name ∈ names, ∃ f : FunctionName, name = f.text ∧ next.get f.kind ≤ f.index ∧
    f.index < after.get f.kind

namespace Numbered

variable {next between after : PerKind Nat} {names more : List String}

theorem nothing (same : after = next) : Numbered next after [] :=
  ⟨fun kind => by rw [same], .nil, nofun⟩

/-- The next function of a kind takes its index. -/
theorem single (next : PerKind Nat) (kind : FunctionKind) :
    Numbered next (next.modify kind (· + 1)) [(FunctionName.mk kind (next.get kind)).text] := by
  refine ⟨fun other => ?_, List.nodup_singleton _, fun name member => ?_⟩
  · by_cases same : other = kind
    · rw [same, PerKind.get_modify_self]
      exact Nat.le_succ _
    · rw [PerKind.get_modify_of_ne _ _ same]
  · refine ⟨⟨kind, next.get kind⟩, List.mem_singleton.1 member, Nat.le_refl _, ?_⟩
    rw [PerKind.get_modify_self]
    exact Nat.lt_succ_self _

/-- Parts that define nothing can come first. -/
theorem since (numbered : Numbered between after names) (same : between = next) :
    Numbered next after names :=
  same ▸ numbered

/-- Functions that are numbered one after another have different names. -/
theorem append (first : Numbered next between names) (second : Numbered between after more) :
    Numbered next after (names ++ more) := by
  refine ⟨fun kind => (first.le kind).trans (second.le kind), ?_, fun name member => ?_⟩
  · refine List.nodup_append.2 ⟨first.nodup, second.nodup, ?_⟩
    rintro name early _ late rfl
    obtain ⟨f, same, _, below⟩ := first.between name early
    obtain ⟨g, same', above, _⟩ := second.between name late
    obtain rfl := Grammar.functionName_text_injective (same.symm.trans same')
    omega
  · rcases List.mem_append.1 member with early | late
    · obtain ⟨f, same, above, below⟩ := first.between name early
      exact ⟨f, same, above, below.trans_le (second.le f.kind)⟩
    · obtain ⟨f, same, above, below⟩ := second.between name late
      exact ⟨f, same, (first.le f.kind).trans above, below⟩

end Numbered

/-! ### Expressions -/

/-- Every callable function is among the ones that are defined. -/
def Env.DefinedIn (env : Env) (functions : List Signature) : Prop :=
  ∀ kind, ∀ callable ∈ env.callables.get kind, callable.signature ∈ functions

/-- Calls of builtin functions are not looked up. -/
theorem resolved_builtinCall (builtin : Builtin) {args : List Yul.Expr}
    (resolved : Grammar.Expr.AllResolved functions (exprsSyntax args)) :
    (exprSyntax (.call (.builtin builtin) args)).Resolved functions wanted :=
  ⟨fun named => absurd named (Grammar.not_isFunction_builtin builtin), resolved⟩

/-- A call of a defined function with one argument for each input stands for its results. -/
theorem resolved_functionCall {callable : Callable} (defined : callable.signature ∈ functions)
    {args : List Yul.Expr} (inputs : args.length = callable.inputs) (outputs : callable.outputs = wanted)
    (resolved : Grammar.Expr.AllResolved functions (exprsSyntax args)) :
    (exprSyntax (.call (.function callable.name) args)).Resolved functions wanted := by
  refine ⟨fun _ => ?_, resolved⟩
  rw [Grammar.length_exprsSyntax, inputs, ← outputs]
  exact defined

theorem allResolved_tokenExprs (seed : Seed) (wanted : Nat) (t : Thread) :
    Grammar.Expr.AllResolved functions (exprsSyntax (tokenExprs seed wanted t).1) := by
  induction wanted generalizing t with
  | zero => trivial
  | succ wanted ih => exact ⟨trivial, ih _⟩

@[simp] theorem length_tokenExprs (seed : Seed) (wanted : Nat) (t : Thread) :
    (tokenExprs seed wanted t).1.length = wanted := by
  induction wanted generalizing t with
  | zero => rfl
  | succ wanted ih => exact congrArg (· + 1) (ih _)

/-- A call has exactly as many arguments as wanted. -/
@[simp] theorem length_arguments (seed : Seed) (env : Env) (wanted : Nat) (args : List Tree.Expr)
    (t : Thread) : (arguments seed env wanted args t).1.length = wanted := by
  induction args generalizing wanted t with
  | nil =>
      rw [arguments]
      exact length_tokenExprs seed wanted t
  | cons arg args ih =>
      cases wanted with
      | zero => rfl
      | succ wanted => exact congrArg (· + 1) (ih _ _)

mutual

/-- The calls in an expression are of functions with one result. -/
theorem expression_resolved (seed : Seed) (definedIn : env.DefinedIn functions) (proper : env.Proper) :
    ∀ (expr : Tree.Expr) (t : Thread), (exprSyntax (expression seed env expr t).1).Resolved functions 1
  | .varRef number, t => by
      rw [expression]
      cases env.resolve number <;> trivial
  | .literal node, t => trivial
  | .binary op left right, t =>
      resolved_builtinCall _ ⟨expression_resolved seed definedIn proper left t,
        expression_resolved seed definedIn proper right _, trivial⟩
  | .unary op operand, t =>
      resolved_builtinCall _ ⟨expression_resolved seed definedIn proper operand t, trivial⟩
  | .ternary op first second third, t =>
      resolved_builtinCall _ ⟨expression_resolved seed definedIn proper first t,
        expression_resolved seed definedIn proper second _,
        expression_resolved seed definedIn proper third _, trivial⟩
  | .nullary op, t => resolved_builtinCall _ trivial
  | .call usage selector args targets, t => by
      rw [expression]
      cases found : env.pick .singleReturn selector with
      | none => trivial
      | some callee =>
          have member := Env.mem_of_pick found
          obtain ⟨kind, here⟩ := proper _ callee member
          have one := FunctionKind.ofOutputs_eq_singleReturn.1 (here.kind.symm.trans kind)
          exact resolved_functionCall (definedIn _ callee member)
            (length_arguments seed env callee.inputs args _) one
            (arguments_resolved seed definedIn proper callee.inputs args _)
  | .unset, t => trivial

/-- The calls in the arguments of a call are of functions with one result. -/
theorem arguments_resolved (seed : Seed) (definedIn : env.DefinedIn functions) (proper : env.Proper) :
    ∀ (wanted : Nat) (args : List Tree.Expr) (t : Thread),
      Grammar.Expr.AllResolved functions (exprsSyntax (arguments seed env wanted args t).1)
  | wanted, [], t => by
      rw [arguments]
      exact allResolved_tokenExprs seed wanted t
  | 0, _ :: _, t => trivial
  | wanted + 1, arg :: args, t =>
      ⟨expression_resolved seed definedIn proper arg t,
        arguments_resolved seed definedIn proper wanted args _⟩

end

theorem expressions_resolved (seed : Seed) (definedIn : env.DefinedIn functions) (proper : env.Proper)
    (exprs : List Tree.Expr) (t : Thread) :
    Grammar.Expr.AllResolved functions (exprsSyntax (expressions seed env exprs t).1) := by
  induction exprs generalizing t with
  | nil => trivial
  | cons expr rest ih => exact ⟨expression_resolved seed definedIn proper expr t, ih _⟩

theorem call_resolved (seed : Seed) (definedIn : env.DefinedIn functions) (proper : env.Proper)
    {callee : Callable} (defined : callee.signature ∈ functions) (outputs : callee.outputs = wanted)
    (args : List Tree.Expr) (t : Thread) :
    (exprSyntax (call seed env callee args t).1).Resolved functions wanted :=
  resolved_functionCall defined (length_arguments seed env callee.inputs args _) outputs
    (arguments_resolved seed definedIn proper callee.inputs args _)

theorem callOnCalldata_resolved {callable : Callable} (defined : callable.signature ∈ functions) :
    (exprSyntax (callOnCalldata callable)).Resolved functions callable.outputs := by
  refine resolved_functionCall defined (by simp) rfl ?_
  generalize List.range callable.inputs = places
  induction places with
  | nil => trivial
  | cons i rest ih => exact ⟨resolved_builtinCall _ ⟨trivial, trivial⟩, ih⟩

/-! ### Statements -/

/-- Statements whose calls are resolved, and whose functions are numbered from `next` up to `after`. -/
structure Linked (functions : List Signature) (next : PerKind Nat) (body : List Grammar.Stmt)
    (after : PerKind Nat) : Prop where
  resolved : AllResolved functions body
  numbered : Numbered next after (listDefinitions body)

namespace Linked

variable {next between after : PerKind Nat} {body rest : List Grammar.Stmt} {stmt : Grammar.Stmt}

theorem nil (functions : List Signature) (next : PerKind Nat) : Linked functions next [] next :=
  ⟨trivial, .nothing rfl⟩

theorem single (resolved : stmt.Resolved functions) (numbered : Numbered next after stmt.definitions) :
    Linked functions next [stmt] after :=
  ⟨⟨resolved, trivial⟩, by rwa [listDefinitions, listDefinitions, List.append_nil]⟩

theorem append (first : Linked functions next body between)
    (second : Linked (functionsAfter functions body) between rest after) :
    Linked functions next (body ++ rest) after := by
  refine ⟨Grammar.Stmt.allResolved_append first.resolved second.resolved, ?_⟩
  rw [Grammar.Stmt.listDefinitions_append]
  exact first.numbered.append second.numbered

end Linked

theorem braces_linked (isEmpty : Bool) {part : Threaded (List Yul.Stmt × Env)}
    (inside : ∀ t, Linked functions t.next (stmtsSyntax (part t).1.1) (part t).2.next) (t : Thread) :
    Linked functions t.next (blockSyntax (braces isEmpty part t).1) (braces isEmpty part t).2.next := by
  cases isEmpty with
  | true => exact .nil functions t.next
  | false => exact inside t

/-- Linked statements of a block, after which the callable functions are among the defined ones. -/
structure Follows (functions : List Signature) (next : PerKind Nat) (body : List Yul.Stmt) (env : Env)
    (after : PerKind Nat) : Prop extends Linked functions next (stmtsSyntax body) after where
  definedIn : env.DefinedIn (functionsAfter functions (stmtsSyntax body))

namespace Follows

variable {next between after : PerKind Nat} {body rest : List Yul.Stmt} {stmt : Yul.Stmt} {later : Env}

theorem nil (definedIn : env.DefinedIn functions) (same : after = next) :
    Follows functions next [] env after :=
  ⟨⟨trivial, .nothing same⟩, definedIn⟩

theorem append (first : Follows functions next body env between)
    (second : Follows (functionsAfter functions (stmtsSyntax body)) between rest later after) :
    Follows functions next (body ++ rest) later after := by
  refine ⟨?_, ?_⟩ <;> rw [Grammar.stmtsSyntax_append]
  · exact first.toLinked.append second.toLinked
  · rw [Grammar.functionsAfter_append]
    exact second.definedIn

/-- A statement that defines no function for the statements after it. -/
theorem keeping (resolved : (stmtSyntax stmt).Resolved functions) (none : (stmtSyntax stmt).signatures = [])
    (numbered : Numbered next after (stmtSyntax stmt).definitions) (definedIn : env.DefinedIn functions) :
    Follows functions next [stmt] env after := by
  refine ⟨.single resolved numbered, ?_⟩
  change env.DefinedIn ((stmtSyntax stmt).signatures ++ functions)
  rw [none]
  exact definedIn

/-- A statement that defines no function at all. -/
theorem simple (resolved : (stmtSyntax stmt).Resolved functions) (none : (stmtSyntax stmt).signatures = [])
    (nowhere : (stmtSyntax stmt).definitions = []) (same : after = next)
    (definedIn : env.DefinedIn functions) : Follows functions next [stmt] env after :=
  .keeping resolved none (by rw [nowhere]; exact .nothing same) definedIn

end Follows

theorem builtinStatement_follows (seed : Seed) (definedIn : env.DefinedIn functions) (proper : env.Proper)
    (builtin : Builtin) (args : List Tree.Expr) (t : Thread) :
    Follows functions t.next (builtinStatement seed env builtin args t).1.1
      (builtinStatement seed env builtin args t).1.2 (builtinStatement seed env builtin args t).2.next :=
  .simple (resolved_builtinCall builtin (expressions_resolved seed definedIn proper args t)) rfl rfl
    (expressions_draws seed env args t).next definedIn

theorem resolved_discard {value : Yul.Expr} (resolved : (exprSyntax value).Resolved functions 1) :
    (stmtSyntax (Walk.discard value)).Resolved functions :=
  resolved_builtinCall .pop ⟨resolved, trivial⟩

theorem resolved_letSyntax (var : Yul.Var) (ascription : Option Yul.Ascription) {value : Yul.Expr}
    (resolved : (exprSyntax value).Resolved functions 1) :
    (letSyntax var ascription value).Resolved functions := by
  cases ascription with
  | none => exact ⟨List.nodup_singleton _, resolved⟩
  | some ascription =>
      obtain ⟨type, onValue⟩ := ascription
      refine ⟨List.nodup_singleton _, ?_⟩
      cases onValue with
      | false => exact resolved
      | true => cases value <;> trivial

/-- A declaration of as many variables as the value has. -/
theorem resolved_letMany (env : Env) {count : Nat} {value : Yul.Expr}
    (resolved : (exprSyntax value).Resolved functions count) :
    (stmtSyntax (.letMany (env.declared count) value)).Resolved functions := by
  constructor
  · rw [List.map_map]
    exact (env.nodup_declared count).map Grammar.var_text_injective
  · simpa [Env.declared] using resolved

theorem assign_follows (seed : Seed) (definedIn : env.DefinedIn functions) (proper : env.Proper)
    (target : UInt32) (value : Tree.Expr) (t : Thread) :
    Follows functions t.next [(assign seed env target value t).1] env
      (assign seed env target value t).2.next := by
  have resolved := expression_resolved seed definedIn proper value t
  have same := (assign_draws seed env target value t).next
  simp only [assign, bind_run] at same ⊢
  cases found : env.resolve target with
  | none =>
      rw [found] at same
      exact .simple (resolved_discard resolved) rfl rfl same definedIn
  | some var =>
      rw [found] at same
      exact .simple ⟨List.nodup_singleton _, resolved⟩ rfl rfl same definedIn

theorem callStatement_follows (seed : Seed) (definedIn : env.DefinedIn functions) (coherent : env.Coherent)
    (usage : Tree.CallUsage) (selector : UInt32) (args : List Tree.Expr) (requests : List UInt32)
    (t : Thread) :
    Follows functions t.next [(callStatement seed env usage selector args requests t).1.1]
      (callStatement seed env usage selector args requests t).1.2
      (callStatement seed env usage selector args requests t).2.next := by
  have same := (callStatement_draws seed env usage selector args requests t).next
  unfold callStatement at same ⊢
  cases found : env.callee? usage selector with
  | none => exact .simple (resolved_discard trivial) rfl rfl rfl definedIn
  | some callee =>
      rw [found] at same
      cases usage with
      | none =>
          have member := Env.mem_of_pick found
          obtain ⟨kind, here⟩ := coherent.proper _ callee member
          have nothing := FunctionKind.ofOutputs_eq_noReturn.1 (here.kind.symm.trans kind)
          have value := call_resolved seed definedIn coherent.proper (definedIn _ callee member) nothing
            args t
          exact .simple value rfl rfl same definedIn
      | single => cases found
      | multiDecl =>
          have value := call_resolved seed definedIn coherent.proper
            (definedIn _ callee (Env.mem_of_pick found)) rfl args t
          exact .simple (resolved_letMany env value) rfl rfl same definedIn
      | multiAssign =>
          have value := call_resolved seed definedIn coherent.proper
            (definedIn _ callee (Env.mem_of_pickAssignable found)) rfl args t
          have count : (env.targets requests [] 0 callee.outputs).length = callee.outputs :=
            Env.length_targets coherent.nodup requests
              (by simpa using Env.outputs_le_of_pickAssignable found)
          refine .simple ⟨?_, ?_⟩ rfl rfl same definedIn
          · rw [List.map_map]
            exact (Env.nodup_targets env requests [] 0 _).map fun _ _ same =>
              Yul.Var.user.inj (Grammar.var_text_injective same)
          · rw [List.length_map, List.length_map, count]
            exact value

theorem stores_resolved (vars : List Yul.Var) : AllResolved functions (stmtsSyntax (stores vars)) := by
  unfold stores
  generalize vars.zipIdx = places
  induction places with
  | nil => trivial
  | cons place rest ih => exact ⟨resolved_builtinCall (.store .sstore) ⟨trivial, trivial, trivial⟩, ih⟩

theorem stores_definitions (vars : List Yul.Var) : listDefinitions (stmtsSyntax (stores vars)) = [] := by
  unfold stores
  generalize vars.zipIdx = places
  induction places with
  | nil => rfl
  | cons place rest ih => exact ih

theorem callAfterDefinition_follows (definedIn : env.DefinedIn functions) {callable : Callable}
    (defined : callable.signature ∈ functions) (t : Thread) :
    Follows functions t.next [(callAfterDefinition env callable t).1] env
      (callAfterDefinition env callable t).2.next := by
  have call := callOnCalldata_resolved defined
  have same := (callAfterDefinition_draws env callable t).next
  rw [callAfterDefinition_run]
  split
  · rename_i none
    rw [none] at call
    exact .simple call rfl rfl same definedIn
  · exact .simple ⟨resolved_letMany env call, stores_resolved _⟩ rfl (stores_definitions _) same definedIn

theorem loopControl_follows (definedIn : env.DefinedIn functions) (control : Yul.Stmt)
    (resolved : (stmtSyntax control).Resolved functions) (none : (stmtSyntax control).signatures = [])
    (nowhere : (stmtSyntax control).definitions = []) (t : Thread) :
    Follows functions t.next (loopControl env control t).1.1 (loopControl env control t).1.2
      (loopControl env control t).2.next := by
  have same := loopControl_next env control t
  unfold loopControl at same ⊢
  split
  · exact .simple resolved none nowhere rfl definedIn
  · exact .nil definedIn rfl

theorem Env.mem_define (env : Env) (callable : Callable) :
    callable ∈ (env.define callable).callables.get callable.name.kind := by
  simp [Env.define]

theorem Env.DefinedIn.define (definedIn : env.DefinedIn functions) (callable : Callable) :
    (env.define callable).DefinedIn (callable.signature :: functions) := by
  intro kind other member
  by_cases same : kind = callable.name.kind
  · subst same
    rw [Env.define, PerKind.get_modify_self, List.mem_append, List.mem_singleton] at member
    rcases member with old | rfl
    · exact List.mem_cons_of_mem _ (definedIn _ other old)
    · exact List.mem_cons_self
  · rw [Env.define, PerKind.get_modify_of_ne _ _ same] at member
    exact List.mem_cons_of_mem _ (definedIn kind other member)

/-- A definition of the next function of a kind, whose body can call the function. -/
theorem definition_follows {next between after : PerKind Nat} {callable : Callable} {body : Yul.Block}
    (proper : callable.Proper) (first : callable.name.index = next.get callable.name.kind)
    (taken : between = next.modify callable.name.kind (· + 1)) (definedIn : env.DefinedIn functions)
    (inside : Linked (callable.signature :: functions) between (blockSyntax body) after) :
    Follows functions next
      [.function callable.name ((env.declared (callable.inputs + callable.outputs)).take callable.inputs)
        ((env.declared (callable.inputs + callable.outputs)).drop callable.inputs) body]
      (env.define callable) after := by
  have signature : (⟨callable.name.text,
      (((env.declared (callable.inputs + callable.outputs)).take callable.inputs).map Yul.Var.text).length,
      (((env.declared (callable.inputs + callable.outputs)).drop callable.inputs).map Yul.Var.text).length⟩ :
        Signature) = callable.signature := by
    simp [Env.declared, Callable.signature]
  have named := Numbered.single next callable.name.kind
  rw [← first, ← taken] at named
  refine ⟨.single ⟨?_, ?_⟩ (named.append inside.numbered), ?_⟩
  · rw [signature]
    exact proper.wellNamed
  · rw [signature]
    exact inside.resolved
  · change (env.define callable).DefinedIn (_ :: functions)
    rw [signature]
    exact definedIn.define callable

theorem resolved_boundedFor (counter : String) {body : List Grammar.Stmt}
    (resolved : AllResolved functions body) : (Grammar.boundedSyntax counter body).Resolved functions := by
  have plain (builtin : Builtin) := Grammar.not_isFunction_builtin builtin
  have test : (Grammar.Expr.call "lt" [.name counter, .literal (.hex "60") none]).Resolved functions 1 :=
    ⟨fun named => absurd named (plain (.binary .lt)), trivial, trivial, trivial⟩
  have sum : (Grammar.Expr.call "add" [.name counter, .literal (.hex "20") none]).Resolved functions 1 :=
    ⟨fun named => absurd named (plain (.binary .add)), trivial, trivial, trivial⟩
  exact ⟨⟨⟨List.nodup_singleton _, trivial⟩, trivial⟩, test, ⟨⟨List.nodup_singleton _, sum⟩, trivial⟩,
    resolved⟩

mutual

/-- The calls of a statement are resolved, the functions in it are numbered on from the next ones, and the
    callable functions after it are among the defined ones. -/
theorem statement_follows (settings : Settings) : ∀ (stmt : Tree.Stmt) {env : Env}
    {functions : List Signature} (t : Thread), env.Coherent → env.DefinedIn functions →
      Follows functions t.next (statement settings env stmt t).1.1 (statement settings env stmt t).1.2
        (statement settings env stmt t).2.next
  | .declare type value, env, functions, t, coherent, definedIn => by
      have resolved := expression_resolved settings.seed definedIn coherent.proper value t
      have none : (letSyntax (.user env.fresh) (ascription settings type value)
          (expression settings.seed env value t).1).signatures = [] := by
        cases ascription settings type value <;> rfl
      have nowhere : (letSyntax (.user env.fresh) (ascription settings type value)
          (expression settings.seed env value t).1).definitions = [] := by
        cases ascription settings type value <;> rfl
      have draws := expression_draws settings.seed env value t
      exact .simple (resolved_letSyntax _ _ resolved) none nowhere draws.next
        definedIn
  | .assign target value, env, functions, t, coherent, definedIn =>
      assign_follows settings.seed definedIn coherent.proper target value t
  | .ifThen cond body, env, functions, t, coherent, definedIn => by
      have inside := braces_linked body.isEmpty
        fun t => (statements_follows settings body t coherent definedIn).toLinked
      exact .keeping
        ⟨expression_resolved settings.seed definedIn coherent.proper cond t, (inside _).resolved⟩ rfl
        ((inside _).numbered.since (expression_draws settings.seed env cond t).next) definedIn
  | .store op location value, env, functions, t, coherent, definedIn =>
      builtinStatement_follows settings.seed definedIn coherent.proper _ _ t
  | .block body, env, functions, t, coherent, definedIn => by
      have inside := braces_linked body.isEmpty
        (fun t => (statements_follows settings body t coherent definedIn).toLinked) t
      exact .keeping inside.resolved rfl inside.numbered definedIn
  | .forLoop init cond post body, env, functions, t, coherent, definedIn => by
      have start := coherent.inLoopContext false true
      have opening := statements_follows settings init t start definedIn
      have inside := (start.extends_ (statements_extends settings init _ t)).inLoopContext
      -- Nothing is defined in the init block, so that the same functions are callable after it.
      have still (inLoopBody inLoopInit : Bool) : ((statements settings (env.inLoopContext false true)
          init t).1.2.inLoopContext inLoopBody inLoopInit).DefinedIn functions := by
        intro kind
        change ∀ callable ∈ (statements settings _ init t).1.2.callables.get kind, _
        rw [statements_callables settings init _ t rfl]
        exact definedIn kind
      have header := Grammar.blockSyntax_opening init
        (fun init => (statements settings (env.inLoopContext false true) init t).1.1) rfl
      have test := expression_resolved settings.seed (still env.inLoopBody env.inLoopInit)
        (inside _ _).proper cond
      have step := braces_linked post.isEmpty
        fun t => (statements_follows settings post t (inside false false) (still _ _)).toLinked
      have rounds := braces_linked body.isEmpty
        fun t => (statements_follows settings body t (inside true false) (still _ _)).toLinked
      refine .keeping ?_ rfl ?_ definedIn <;> rw [stmtSyntax, header]
      · exact ⟨opening.resolved, test _, (step _).resolved, (rounds _).resolved⟩
      · exact (opening.numbered.append
          ((step _).numbered.since (expression_draws settings.seed _ cond _).next)).append (rounds _).numbered
  | .boundedFor body, env, functions, t, coherent, definedIn => by
      have inside := braces_linked body.isEmpty
        (fun t => (statements_follows settings body t coherent.inBoundedLoop definedIn).toLinked) t
      exact .keeping (resolved_boundedFor _ inside.resolved) rfl inside.numbered definedIn
  | .switch scrutinee cases default, env, functions, t, coherent, definedIn => by
      rw [statement]
      split
      · exact .nil definedIn rfl
      · have resolved := expression_resolved settings.seed definedIn coherent.proper scrutinee t
        obtain ⟨arms, numbered⟩ := caseArms_linked settings cases
          (expression settings.seed env scrutinee t).2 (coherent.withLabels []) definedIn
        have numbered := numbered.since (expression_draws settings.seed env scrutinee t).next
        cases default with
        | none => exact .keeping ⟨resolved, arms, trivial⟩ rfl (numbered.append (.nothing rfl)) definedIn
        | some body =>
            have otherwise := braces_linked body.isEmpty
              fun t => (statements_follows settings body t coherent definedIn).toLinked
            exact .keeping ⟨resolved, arms, (otherwise _).resolved⟩ rfl
              (numbered.append (otherwise _).numbered) definedIn
  | .breakLoop, env, functions, t, coherent, definedIn =>
      loopControl_follows definedIn .breakLoop trivial rfl rfl t
  | .continueLoop, env, functions, t, coherent, definedIn =>
      loopControl_follows definedIn .continueLoop trivial rfl rfl t
  | .log position size topics, env, functions, t, coherent, definedIn =>
      builtinStatement_follows settings.seed definedIn coherent.proper _ _ t
  | .copy region target source size, env, functions, t, coherent, definedIn =>
      builtinStatement_follows settings.seed definedIn coherent.proper _ _ t
  | .extCodeCopy address target source size, env, functions, t, coherent, definedIn =>
      builtinStatement_follows settings.seed definedIn coherent.proper _ _ t
  | .halt op, env, functions, t, coherent, definedIn =>
      .simple (resolved_builtinCall (.halt op) trivial) rfl rfl rfl definedIn
  | .exit op position size, env, functions, t, coherent, definedIn =>
      builtinStatement_follows settings.seed definedIn coherent.proper _ _ t
  | .selfDestruct address, env, functions, t, coherent, definedIn =>
      builtinStatement_follows settings.seed definedIn coherent.proper _ _ t
  | .call usage selector args targets, env, functions, t, coherent, definedIn =>
      callStatement_follows settings.seed definedIn coherent usage selector args targets t
  | .define inputs outputs body, env, functions, t, coherent, definedIn => by
      rw [statement]
      split
      · exact .nil definedIn rfl
      · have proper := proper_defined t inputs outputs
        have after := coherent.extends_ (.define env proper)
        have known := definedIn.define (t.defined inputs outputs)
        -- The function is callable in its own body.
        have inside := braces_linked body.isEmpty fun start => (statements_follows settings body start
          (Env.Coherent.inFunctionBody after.proper
            ((t.defined inputs outputs).inputs + (t.defined inputs outputs).outputs)) known).toLinked
        have definition (start : Thread) (taken : start.next = t.next.modify _ (· + 1)) :=
          definition_follows proper rfl taken definedIn (inside start)
        have callable := Env.mem_define env (t.defined inputs outputs)
        exact (definition _ rfl).append (callAfterDefinition_follows (definition _ rfl).definedIn
          ((definition _ rfl).definedIn _ _ callable) _)
  | .pop value, env, functions, t, coherent, definedIn =>
      builtinStatement_follows settings.seed definedIn coherent.proper _ _ t

/-- The calls of a block are resolved, the functions in it are numbered on from the next ones, and the
    callable functions at its end are among the defined ones. -/
theorem statements_follows (settings : Settings) : ∀ (body : List Tree.Stmt) {env : Env}
    {functions : List Signature} (t : Thread), env.Coherent → env.DefinedIn functions →
      Follows functions t.next (statements settings env body t).1.1 (statements settings env body t).1.2
        (statements settings env body t).2.next
  | [], _, _, _, _, definedIn => .nil definedIn rfl
  | stmt :: rest, env, _, t, coherent, definedIn =>
      have here := statement_follows settings stmt t coherent definedIn
      here.append (statements_follows settings rest _
        (coherent.extends_ (statement_extends settings env stmt t)) here.definedIn)

/-- The calls in the arms of a switch are resolved, and the functions in them are numbered on from the next
    ones. -/
theorem caseArms_linked (settings : Settings) : ∀ (cases : List (Tree.Literal × List Tree.Stmt)) {env : Env}
    {functions : List Signature} (t : Thread), env.Coherent → env.DefinedIn functions →
      CasesResolved functions (casesSyntax (caseArms settings env cases t).1) ∧
        Numbered t.next (caseArms settings env cases t).2.next
          (caseDefinitions (casesSyntax (caseArms settings env cases t).1))
  | [], _, _, _, _, _ => ⟨trivial, .nothing rfl⟩
  | (label, body) :: rest, env, functions, t, coherent, definedIn => by
      rw [caseArms]
      simp only [bind_run]
      split
      · have later := fun t => caseArms_linked settings rest t coherent definedIn
        exact ⟨(later _).1, (later _).2.since (literal_draws settings.seed label t).next⟩
      · have after := coherent.withLabels ((literal settings.seed label t).1.word :: env.labels)
        have here := braces_linked body.isEmpty
          fun t => (statements_follows settings body t after definedIn).toLinked
        have later := fun t => caseArms_linked settings rest t after definedIn
        exact ⟨⟨(here _).resolved, (later _).1⟩,
          ((here _).numbered.since (literal_draws settings.seed label t).next).append (later _).2⟩

end

/-- The calls of a generated program are resolved, and its functions have different names. -/
theorem program_linked (settings : Settings) (tree : Tree.Program) :
    Linked [] ⟨0, 0, 0⟩ (blockSyntax (program settings tree).1) (program settings tree).2.next := by
  have start : Env.DefinedIn {} [] := by
    intro kind callable member
    cases kind <;> cases member
  exact braces_linked tree.block.isEmpty
    (fun t => (statements_follows settings tree.block t .initial start).toLinked) {}

end Lexical

/-- Every tree has a generation, whose text is read as one block in which no function is defined twice and
    every call is resolved: a function of an open block is called after its header, with one argument for each
    of its parameters, where exactly its results are wanted. Functions are numbered without bound; `exists_registry`
    says for which trees 32 bits are enough. -/
theorem generate_resolved (settings : Settings) (tree : Tree.Program) :
    ∃ g block, tree.generate settings = .ok g ∧ Grammar.read g.yul = some block ∧
      (listDefinitions block).Nodup ∧ AllResolved [] block := by
  obtain ⟨g, generated, _, reading⟩ := Lexical.exists_reading settings tree
  have linked := Lexical.program_linked settings tree
  exact ⟨g, _, generated, reading, linked.numbered.nodup, linked.resolved⟩

end YulFuzz
