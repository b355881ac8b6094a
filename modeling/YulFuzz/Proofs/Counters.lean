/-
Module: YulFuzz.Proofs.Counters
Purpose: The counters of bounded loops. Variables of the tree never stand for a counter, so that a counter is
  named only in the line before the body of its loop, which declares it.
Main exports: Grammar.NoCounter, Layout.CountersInHeaders, Lexical.statement_counters,
  Lexical.statements_counters, generate_scoped
-/
import YulFuzz.Proofs.Scoping
import YulFuzz.Proofs.Validity

namespace YulFuzz

open Grammar (Token Scans Scope Closed exprSyntax exprsSyntax stmtSyntax stmtsSyntax blockSyntax)
open Grammar.Stmt (AllScoped AllValid)

namespace Grammar

/-- The name of the counter of a bounded loop. -/
def IsCounter (name : String) : Prop := ∃ depth, name = (Yul.Var.loop depth).text

/-- No name among the tokens is that of a counter. -/
def NoCounter (ts : List Token) : Prop := ∀ name, .name name ∈ ts → ¬ IsCounter name

/-- All visible names are those of variables of the tree. -/
def Scope.Users (scope : Scope) : Prop := ∀ name ∈ scope.visible, ∃ number, name = (Yul.Var.user number).text

theorem not_isCounter_user (number : Nat) : ¬ IsCounter (Yul.Var.user number).text := by
  rintro ⟨depth, same⟩
  cases var_text_injective same

theorem not_isCounter_of_not_isVariable {name : String} (plain : ¬ IsVariable name) : ¬ IsCounter name := by
  rintro ⟨depth, rfl⟩
  exact plain ⟨_, rfl⟩

/-! ### Tokens without counters -/

@[simp] theorem noCounter_nil : NoCounter [] := nofun

@[simp] theorem noCounter_cons (token : Token) (ts : List Token) :
    NoCounter (token :: ts) ↔ (∀ name, token = .name name → ¬ IsCounter name) ∧ NoCounter ts := by
  simp only [NoCounter, List.mem_cons, or_imp, forall_and, eq_comm]

@[simp] theorem noCounter_append (ts us : List Token) :
    NoCounter (ts ++ us) ↔ NoCounter ts ∧ NoCounter us := by
  simp only [NoCounter, List.mem_append, or_imp, forall_and]

theorem noCounter_keyword (keyword : Keyword) {ts : List Token} (free : NoCounter ts) :
    NoCounter ([.keyword keyword] ++ ts) := by
  simpa using free

theorem noCounter_commaSeparated {parts : List (List Token)} (free : ∀ part ∈ parts, NoCounter part) :
    NoCounter (commaSeparated parts) := by
  cases parts with
  | nil => exact noCounter_nil
  | cons first others =>
      rw [commaSeparated, noCounter_append]
      refine ⟨free first List.mem_cons_self, fun name member => ?_⟩
      obtain ⟨part, inside, here⟩ := List.mem_flatMap.1 member
      rcases List.mem_cons.1 here with comma | there
      · cases comma
      · exact free part (List.mem_cons_of_mem _ inside) name there

theorem noCounter_nameTokens {names : List String} (free : ∀ name ∈ names, ¬ IsCounter name) :
    NoCounter (nameTokens names) := by
  apply noCounter_commaSeparated
  intro part member
  obtain ⟨name, inside, rfl⟩ := List.mem_map.1 member
  simpa using free name inside

mutual

/-- An expression whose names are all visible names no counter. -/
theorem noCounter_expr {scope : Scope} (users : scope.Users) : ∀ (expr : Expr), expr.Scoped scope →
    NoCounter expr.tokens
  | .name text, inScope => by
      obtain ⟨number, rfl⟩ := users text inScope
      simpa [Expr.tokens] using not_isCounter_user number
  | .literal value none, _ => by simp [Expr.tokens]
  | .literal value (some type), inScope => by
      simpa [Expr.tokens] using not_isCounter_of_not_isVariable (inScope type rfl)
  | .call callee args, inScope => by
      have inside := noCounter_commaSeparated (noCounter_exprs users args inScope.2)
      simpa [Expr.tokens, inside] using not_isCounter_of_not_isVariable inScope.1

/-- Expressions whose names are all visible name no counter. -/
theorem noCounter_exprs {scope : Scope} (users : scope.Users) : ∀ (exprs : List Expr),
    Expr.AllScoped scope exprs → ∀ part ∈ Expr.tokensOfEach exprs, NoCounter part
  | [], _ => nofun
  | expr :: rest, inScope => by
      intro part member
      rcases List.mem_cons.1 member with rfl | later
      · exact noCounter_expr users expr inScope.1
      · exact noCounter_exprs users rest inScope.2 part later

end

theorem noCounter_declare {scope : Scope} (users : scope.Users) {names : List TypedName} {value : Expr}
    (inScope : (Stmt.declare names value).Scoped scope)
    (declared : ∀ name ∈ names.map TypedName.name, ¬ IsCounter name) :
    NoCounter (Stmt.declare names value).tokens := by
  have front : NoCounter (commaSeparated (names.map TypedName.tokens)) := by
    apply noCounter_commaSeparated
    intro part member
    obtain ⟨⟨name, type⟩, inside, rfl⟩ := List.mem_map.1 member
    have free := declared name (List.mem_map_of_mem inside)
    cases type with
    | none => simpa [TypedName.tokens] using free
    | some type =>
        have plain := not_isCounter_of_not_isVariable (inScope.2.2 _ inside type rfl)
        simpa [TypedName.tokens, plain] using free
  simpa [Stmt.tokens, front] using noCounter_expr users value inScope.1

theorem noCounter_assign {scope : Scope} (users : scope.Users) {targets : List String} {value : Expr}
    (inScope : (Stmt.assign targets value).Scoped scope) : NoCounter (Stmt.assign targets value).tokens := by
  have front : NoCounter (nameTokens targets) := by
    apply noCounter_nameTokens
    intro name member
    obtain ⟨number, rfl⟩ := users name (inScope.1 name member)
    exact not_isCounter_user number
  simpa [Stmt.tokens, front] using noCounter_expr users value inScope.2

end Grammar

/-! ### Lines -/

namespace Layout

/-- A line that names a counter is the one before the body of a bounded loop over this counter. -/
def CountersInHeaders (text : String) : Prop :=
  ∀ line ∈ linesOf text, ∃ ts, Grammar.tokens (String.ofList line) = some ts ∧
    ∀ depth, .name (Yul.Var.loop depth).text ∈ ts →
      ∃ spaces, line = List.replicate spaces ' ' ++ (Yul.boundedHeader (Yul.Var.loop depth).text).toList

/-- The lines are scanned, and those that name a counter are headers of bounded loops. -/
def CounterLines (lines : List String) : Prop :=
  ∀ line ∈ lines, ∃ ts, Scans line ts ∧ ∀ depth, .name (Yul.Var.loop depth).text ∈ ts →
    ∃ spaces, line.toList =
      List.replicate spaces ' ' ++ (Yul.boundedHeader (Yul.Var.loop depth).text).toList

namespace CounterLines

variable {lines more : List String} {line : String} {ts : List Token}

theorem nil : CounterLines [] := nofun

theorem append (first : CounterLines lines) (second : CounterLines more) : CounterLines (lines ++ more) := by
  intro line member
  rcases List.mem_append.1 member with here | there
  · exact first line here
  · exact second line there

theorem single (scanned : Scans line ts) (free : Grammar.NoCounter ts) : CounterLines [line] := by
  intro other member
  obtain rfl := List.mem_singleton.1 member
  exact ⟨ts, scanned, fun depth named => absurd ⟨depth, rfl⟩ (free _ named)⟩

theorem header (depth : Nat) : CounterLines [Yul.boundedHeader (Yul.Var.loop depth).text] := by
  intro line member
  obtain rfl := List.mem_singleton.1 member
  refine ⟨_, Grammar.scans_boundedHeader (.loop depth), fun other named => ⟨0, ?_⟩⟩
  -- The only other names of the line are those of builtin functions.
  have plain (builtin : Builtin) : (Yul.Var.loop other).text ≠ builtin.name :=
    fun same => Grammar.not_isVariable_callee (.builtin builtin) ⟨_, same.symm⟩
  have sum : (Yul.Var.loop other).text ≠ "add" := plain (.binary .add)
  have test : (Yul.Var.loop other).text ≠ "lt" := plain (.binary .lt)
  have same : (Yul.Var.loop other).text = (Yul.Var.loop depth).text := by
    simpa [sum, test] using named
  rw [same, List.replicate_zero, List.nil_append]

theorem indented (inside : CounterLines lines) : CounterLines (Yul.indented lines) := by
  intro line member
  obtain ⟨inner, here, rfl⟩ := List.mem_map.1 member
  obtain ⟨ts, scanned, headers⟩ := inside inner here
  have spaces : Closed "  " [] := rfl
  refine ⟨ts, spaces.append_scans scanned, fun depth named => ?_⟩
  obtain ⟨spaces, same⟩ := headers depth named
  refine ⟨spaces + 2, ?_⟩
  rw [String.toList_append, same, List.replicate_succ, List.replicate_succ]
  rfl

end CounterLines

theorem countersInHeaders_of_lines {lines : List String} (unbroken : ∀ line ∈ lines, '\n' ∉ line.toList)
    (counters : CounterLines lines) : CountersInHeaders (String.join (lines.map (· ++ "\n"))) := by
  intro line member
  rw [linesOf_join unbroken, List.mem_append] at member
  rcases member with here | last
  · obtain ⟨text, inside, rfl⟩ := List.mem_map.1 here
    obtain ⟨ts, scanned, headers⟩ := counters text inside
    refine ⟨ts, ?_, headers⟩
    rw [String.ofList_toList]
    exact scanned.tokens_eq
  · rw [List.mem_singleton.1 last]
    exact ⟨[], Grammar.scans_empty.tokens_eq, nofun⟩

end Layout

namespace Lexical

open Layout (CounterLines)

variable {env : Env} {scope : Scope} {typed : Bool}

/-! ### Statements on one line

Expressions and assignment targets are in the scope of the environment, and this scope has no counters in it.
So no statement on one line names a counter, and neither does a header, apart from that of a bounded loop. -/

/-- A statement on one line that declares no counter. -/
def Simple : Yul.Stmt → Prop
  | .letOne var _ _ => ∃ number, var = .user number
  | .letMany vars _ => ∀ var ∈ vars, ∃ number, var = .user number
  | .assign _ _ | .expr _ | .breakLoop | .continueLoop => True
  | _ => False

theorem simple_letMany_declared (env : Env) (count : Nat) (value : Yul.Expr) :
    Simple (.letMany (env.declared count) value) := by
  intro var member
  obtain ⟨number, same, _⟩ := Env.mem_declared.1 member
  exact ⟨number, same⟩

theorem declares_of_simple {stmt : Yul.Stmt} (simple : Simple stmt) :
    ∀ name ∈ (stmtSyntax stmt).declares, ∃ number, name = (Yul.Var.user number).text := by
  intro name member
  cases stmt with
  | letOne var ascription value =>
      obtain ⟨number, rfl⟩ := simple
      rw [stmtSyntax, Grammar.declares_letSyntax, List.mem_singleton] at member
      exact ⟨number, member⟩
  | letMany vars value =>
      rw [Grammar.declares_letMany] at member
      obtain ⟨var, inside, rfl⟩ := List.mem_map.1 member
      obtain ⟨number, rfl⟩ := simple var inside
      exact ⟨number, rfl⟩
  | expr value => cases value <;> cases member
  | assign | breakLoop | continueLoop => cases member
  | _ => cases simple

/-- The tokens of a simple statement in scope name no counter. -/
theorem noCounter_of_simple {stmt : Yul.Stmt} (simple : Simple stmt) (users : scope.Users)
    (inScope : (stmtSyntax stmt).Scoped scope) : Grammar.NoCounter (stmtSyntax stmt).tokens := by
  have declared : ∀ name ∈ (stmtSyntax stmt).declares, ¬ Grammar.IsCounter name := by
    intro name member
    obtain ⟨number, rfl⟩ := declares_of_simple simple name member
    exact Grammar.not_isCounter_user number
  cases stmt with
  | letOne var ascription value =>
      cases ascription <;> exact Grammar.noCounter_declare users inScope declared
  | letMany vars value => exact Grammar.noCounter_declare users inScope declared
  | assign targets value => exact Grammar.noCounter_assign users inScope
  | expr value =>
      cases value with
      | call callee args => exact Grammar.noCounter_expr users _ inScope
      | _ => exact Grammar.noCounter_assign users inScope
  | breakLoop | continueLoop => simp [stmtSyntax, Grammar.Stmt.tokens]
  | _ => cases simple

theorem simple_counters {stmt : Yul.Stmt} (simple : Simple stmt) (valid : (stmtSyntax stmt).Valid typed)
    (users : scope.Users) (inScope : (stmtSyntax stmt).Scoped scope) : CounterLines stmt.lines := by
  have scanned := Grammar.scansLines_stmt stmt valid
  have free := noCounter_of_simple simple users inScope
  cases stmt with
  | letOne | letMany | assign | expr | breakLoop | continueLoop => exact .single scanned.of_single free
  | _ => cases simple

/-- The lines of simple statements in scope name no counter. -/
theorem simples_counters : ∀ (body : List Yul.Stmt) {scope : Scope}, (∀ stmt ∈ body, Simple stmt) →
    AllValid typed (stmtsSyntax body) → scope.Users → AllScoped scope (stmtsSyntax body) →
    CounterLines (Yul.Stmt.listLines body)
  | [], _, _, _, _, _ => .nil
  | stmt :: rest, scope, simple, valid, users, inScope => by
      have here := simple stmt List.mem_cons_self
      have after : (scope.extend (stmtSyntax stmt).declares).Users := by
        intro name member
        rcases List.mem_append.1 member with new | old
        · exact declares_of_simple here name new
        · exact users name old
      exact (simple_counters here valid.1 users inScope.1).append (simples_counters rest
        (fun other member => simple other (List.mem_cons_of_mem _ member)) valid.2 after inScope.2)

/-! ### Blocks -/

theorem opening_counters (isEmpty : Bool) {header : String} {ts : List Token} (scanned : Scans header ts)
    (free : Grammar.NoCounter ts) {body : List Yul.Stmt} (inside : CounterLines (Yul.Stmt.listLines body)) :
    CounterLines (Yul.Block.lines (if isEmpty then .compact else .spread body) header) := by
  have opened := Grammar.closed_opening scanned
  cases isEmpty with
  | true =>
      have brace : Closed " \x7d" [.closeBrace] := rfl
      exact .single (opened.append brace).scans (by simpa using free)
  | false =>
      have brace : Closed "\x7d" [.closeBrace] := rfl
      have first := CounterLines.single opened.scans (by simpa using free)
      exact (first.append inside.indented).append (.single brace.scans (by simp))

theorem braces_counters {header : String} {ts : List Token} (scanned : Scans header ts)
    (free : Grammar.NoCounter ts) {isEmpty : Bool} {part : Threaded (List Yul.Stmt × Env)}
    (inside : ∀ t, CounterLines (Yul.Stmt.listLines (part t).1.1)) (t : Thread) :
    CounterLines ((braces isEmpty part t).1.lines header) := by
  have lines : CounterLines (Yul.Block.lines (if isEmpty then .compact else .spread (part t).1.1) header) :=
    opening_counters isEmpty scanned free (inside t)
  cases isEmpty <;> exact lines

/-- The scope of the variables of an environment, with no name taken. -/
def Env.ownScope (env : Env) : Scope where
  visible := env.vars.map fun number => (Yul.Var.user number).text

theorem Env.names_ownScope (env : Env) : env.Names env.ownScope :=
  ⟨fun _ member => List.mem_map_of_mem member, fun _ taken => absurd taken List.not_mem_nil⟩

theorem Env.users_ownScope (env : Env) : env.ownScope.Users := by
  intro name member
  obtain ⟨number, _, rfl⟩ := List.mem_map.1 member
  exact ⟨number, rfl⟩

theorem expression_noCounter (seed : Seed) (env : Env) (expr : Tree.Expr) (t : Thread) :
    Grammar.NoCounter (exprSyntax (expression seed env expr t).1).tokens :=
  Grammar.noCounter_expr env.users_ownScope _ (expression_scoped seed env.names_ownScope expr t)

theorem scans_expression (seed : Seed) (env : Env) (expr : Tree.Expr) (t : Thread) :
    Scans (expression seed env expr t).1.text (exprSyntax (expression seed env expr t).1).tokens := by
  have valid : (exprSyntax (expression seed env expr t).1).Valid false := expression_valid seed env expr t
  exact Grammar.scans_expr _ valid

/-! ### Statements -/

/-- Statements of the tree that become simple statements. -/
theorem statement_counters_of_simple (settings : Settings) {stmt : Tree.Stmt} {env : Env} {t : Thread}
    (coherent : env.Coherent) (simple : ∀ other ∈ (statement settings env stmt t).1.1, Simple other) :
    CounterLines (Yul.Stmt.listLines (statement settings env stmt t).1.1) :=
  simples_counters _ simple (statement_valid settings stmt t coherent) env.users_ownScope
    (statement_fit settings stmt t env.names_ownScope).inScope

theorem signature_noCounter (name : FunctionName) {inputs outputs : List Yul.Var}
    (users : ∀ var ∈ inputs ++ outputs, ∃ number, var = .user number) :
    Grammar.NoCounter (.keyword .functionWord :: .name name.text :: .openParen ::
      Grammar.nameTokens (inputs.map Yul.Var.text) ++ .closeParen ::
        (if (outputs.map Yul.Var.text).isEmpty then []
          else .arrow :: Grammar.nameTokens (outputs.map Yul.Var.text))) := by
  have plain := Grammar.not_isCounter_of_not_isVariable (Grammar.not_isVariable_callee (.function name))
  have free {vars : List Yul.Var} (part : vars ⊆ inputs ++ outputs) :
      Grammar.NoCounter (Grammar.nameTokens (vars.map Yul.Var.text)) := by
    apply Grammar.noCounter_nameTokens
    intro text member
    obtain ⟨var, inside, rfl⟩ := List.mem_map.1 member
    obtain ⟨number, rfl⟩ := users var (part inside)
    exact Grammar.not_isCounter_user number
  have front := free (List.subset_append_left inputs outputs)
  have back := free (List.subset_append_right inputs outputs)
  split <;> simp [front, back, show ¬ Grammar.IsCounter name.text from plain]

theorem loopControl_simple (env : Env) (control : Yul.Stmt) (simple : Simple control) (t : Thread) :
    ∀ stmt ∈ (loopControl env control t).1.1, Simple stmt := by
  unfold loopControl
  split
  · exact List.forall_mem_singleton.2 simple
  · nofun

/-- The call after a definition, and the block of its results, name no counter. -/
theorem callAfterDefinition_counters (env : Env) (callable : Callable) (t : Thread) :
    CounterLines (callAfterDefinition env callable t).1.lines := by
  have valid : (stmtSyntax (callAfterDefinition env callable t).1).Valid false :=
    callAfterDefinition_valid env callable t
  have inScope := (callAfterDefinition_fit env.names_ownScope callable t).inScope.1
  by_cases none : callable.outputs = 0
  · rw [callAfterDefinition_run, if_pos none] at *
    exact simple_counters trivial valid env.users_ownScope inScope
  · rw [callAfterDefinition_run, if_neg none] at *
    refine opening_counters false Grammar.scans_empty Grammar.noCounter_nil
      (simples_counters _ ?_ valid env.users_ownScope inScope)
    refine List.forall_mem_cons.2 ⟨simple_letMany_declared env _ _, ?_⟩
    exact List.forall_mem_map.2 fun _ _ => trivial

mutual

/-- The lines of a statement name counters only in the headers of their loops. -/
theorem statement_counters (settings : Settings) : ∀ (stmt : Tree.Stmt) {env : Env} (t : Thread),
    env.Coherent → CounterLines (Yul.Stmt.listLines (statement settings env stmt t).1.1)
  | .declare type value, env, t, coherent =>
      statement_counters_of_simple settings coherent (List.forall_mem_singleton.2 ⟨_, rfl⟩)
  | .assign target value, env, t, coherent => by
      refine statement_counters_of_simple settings coherent (List.forall_mem_singleton.2 ?_)
      change Simple (assign settings.seed env target value t).1
      simp only [assign, bind_run]
      cases env.resolve target <;> trivial
  | .ifThen cond body, env, t, coherent => by
      have word : Closed "if " [.keyword .ifWord] := rfl
      have header := word.append_scans (scans_expression settings.seed env cond t)
      have free := Grammar.noCounter_keyword .ifWord (expression_noCounter settings.seed env cond t)
      exact (braces_counters header free
        (fun t => statements_counters settings body t coherent) _).append .nil
  | .store op location value, env, t, coherent =>
      statement_counters_of_simple settings coherent (List.forall_mem_singleton.2 trivial)
  | .block body, env, t, coherent =>
      (braces_counters Grammar.scans_empty Grammar.noCounter_nil
        (fun t => statements_counters settings body t coherent) t).append .nil
  | .forLoop init cond post body, env, t, coherent => by
      have start := coherent.inLoopContext false true
      have inside := (start.extends_ (statements_extends settings init _ t)).inLoopContext
      have word : Scans "for" [.keyword .forWord] := Grammar.scans_word (List.all_eq_true.1 rfl) rfl
      have opening := opening_counters init.isEmpty word (by simp)
        (statements_counters settings init t start)
      exact ((opening.append (braces_counters (scans_expression settings.seed _ cond _)
        (expression_noCounter settings.seed _ cond _)
        (fun t => statements_counters settings post t (inside false false)) _)).append
        (braces_counters Grammar.scans_empty Grammar.noCounter_nil
          (fun t => statements_counters settings body t (inside true false)) _)).append .nil
  | .boundedFor body, env, t, coherent =>
      ((CounterLines.header env.loopDepth).append (braces_counters Grammar.scans_empty
        Grammar.noCounter_nil (fun t => statements_counters settings body t coherent.inBoundedLoop) t)).append
        .nil
  | .switch scrutinee cases default, env, t, coherent => by
      rw [statement]
      split
      · exact .nil
      · have word : Closed "switch " [.keyword .switchWord] := rfl
        have free := Grammar.noCounter_keyword .switchWord
          (expression_noCounter settings.seed env scrutinee t)
        have head := CounterLines.single (word.append_scans (scans_expression settings.seed env scrutinee t))
          free
        have arms := head.append (caseArms_counters settings cases
          (expression settings.seed env scrutinee t).2 (coherent.withLabels []))
        have otherwise : Scans "default" [.keyword .defaultWord] := Grammar.scans_word (List.all_eq_true.1 rfl) rfl
        cases default with
        | none => exact (arms.append .nil).append .nil
        | some body =>
            exact (arms.append (braces_counters otherwise (by simp)
              (fun t => statements_counters settings body t coherent) _)).append .nil
  | .breakLoop, env, t, coherent =>
      statement_counters_of_simple settings coherent (loopControl_simple env .breakLoop trivial t)
  | .continueLoop, env, t, coherent =>
      statement_counters_of_simple settings coherent (loopControl_simple env .continueLoop trivial t)
  | .log position size topics, env, t, coherent =>
      statement_counters_of_simple settings coherent (List.forall_mem_singleton.2 trivial)
  | .copy region target source size, env, t, coherent =>
      statement_counters_of_simple settings coherent (List.forall_mem_singleton.2 trivial)
  | .extCodeCopy address target source size, env, t, coherent =>
      statement_counters_of_simple settings coherent (List.forall_mem_singleton.2 trivial)
  | .halt op, env, t, coherent =>
      statement_counters_of_simple settings coherent (List.forall_mem_singleton.2 trivial)
  | .exit op position size, env, t, coherent =>
      statement_counters_of_simple settings coherent (List.forall_mem_singleton.2 trivial)
  | .selfDestruct address, env, t, coherent =>
      statement_counters_of_simple settings coherent (List.forall_mem_singleton.2 trivial)
  | .call usage selector args targets, env, t, coherent => by
      refine statement_counters_of_simple settings coherent (List.forall_mem_singleton.2 ?_)
      change Simple (callStatement settings.seed env usage selector args targets t).1.1
      unfold callStatement
      cases env.callee? usage selector with
      | none => trivial
      | some callee =>
          cases usage with
          | multiDecl => exact simple_letMany_declared env _ _
          | none | single | multiAssign => trivial
  | .define inputs outputs body, env, t, coherent => by
      rw [statement]
      split
      · exact .nil
      · have after := coherent.extends_ (.define env (proper_defined t inputs outputs))
        have inside := Env.Coherent.inFunctionBody after.proper
        refine CounterLines.append (braces_counters (Grammar.scans_signature _ _ _)
          (signature_noCounter _ ?_) (fun t => statements_counters settings body t (inside _)) _)
          ((callAfterDefinition_counters _ _ _).append .nil)
        rw [List.take_append_drop]
        intro var member
        obtain ⟨number, same, _⟩ := Env.mem_declared.1 member
        exact ⟨number, same⟩
  | .pop value, env, t, coherent =>
      statement_counters_of_simple settings coherent (List.forall_mem_singleton.2 trivial)

/-- The lines of the statements of a block name counters only in the headers of their loops. -/
theorem statements_counters (settings : Settings) : ∀ (body : List Tree.Stmt) {env : Env} (t : Thread),
    env.Coherent → CounterLines (Yul.Stmt.listLines (statements settings env body t).1.1)
  | [], _, _, _ => .nil
  | stmt :: rest, env, t, coherent => by
      rw [statements]
      simp only [bind_run, pure_run, Layout.listLines_append]
      exact (statement_counters settings stmt t coherent).append (statements_counters settings rest _
        (coherent.extends_ (statement_extends settings env stmt t)))

/-- The lines of the arms of a switch name counters only in the headers of their loops. -/
theorem caseArms_counters (settings : Settings) :
    ∀ (cases : List (Tree.Literal × List Tree.Stmt)) {env : Env} (t : Thread), env.Coherent →
      CounterLines (Yul.Stmt.caseLines (caseArms settings env cases t).1)
  | [], _, _, _ => .nil
  | (label, body) :: rest, env, t, coherent => by
      rw [caseArms]
      simp only [bind_run]
      split
      · exact caseArms_counters settings rest _ coherent
      · have after := coherent.withLabels ((literal settings.seed label t).1.word :: env.labels)
        have word : Closed "case " [.keyword .caseWord] := rfl
        have header := word.append_scans (Grammar.scans_literal _ (literal_valid settings.seed label t))
        exact (braces_counters header (by simp) (fun t => statements_counters settings body t after) _).append
          (caseArms_counters settings rest _ after)

end

/-- The lines of a generated program name counters only in the headers of their loops. -/
theorem program_counters (settings : Settings) (tree : Tree.Program) :
    CounterLines ((program settings tree).1.lines "") :=
  braces_counters Grammar.scans_empty Grammar.noCounter_nil
    (fun t => statements_counters settings tree.block t .initial) {}

end Lexical

/-- Every tree has a generation, whose text is read as one block with well scoped variables: each name is used
    where a declaration of it is open within the same function body, and declared where no declaration of it
    is open at all. Counters of bounded loops are named in the headers of their loops only. -/
theorem generate_scoped (settings : Settings) (tree : Tree.Program) :
    ∃ g block, tree.generate settings = .ok g ∧ Grammar.read g.yul = some block ∧ AllScoped {} block ∧
      Layout.CountersInHeaders g.yul := by
  obtain ⟨g, generated, text, reading⟩ := Lexical.exists_reading settings tree
  have unbroken := (Layout.lays_block (.inl rfl) _ (Lexical.program_valid settings tree)).1
  have counters := Layout.countersInHeaders_of_lines unbroken (Lexical.program_counters settings tree)
  rw [← Yul.Block.render, ← text] at counters
  exact ⟨g, _, generated, reading, Lexical.program_scoped settings tree, counters⟩

end YulFuzz
