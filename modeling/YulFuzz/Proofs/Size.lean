/-
Module: YulFuzz.Proofs.Size
Purpose: Counts are bounded by the size of the tree. A node of the tree counts at most one of each kind of thing: a
  definition one function, its one call and one name, a call one call that is made or replaced, a case or a
  statement one that is left out. So the counters of 32 bits overflow for no tree of fewer than `2 ^ 32` nodes; its
  walk takes only steps at which all counts fit, and the functions it records are those of a registry.
Main exports: Tree.Program.size, Lexical.Counts, Lexical.statement_counts, Walk.State.CountsAtMost,
  walk_counts_at_most_size, Registry.Moves, exists_registry
-/
import YulFuzz.Proofs.Appending
import YulFuzz.Scope.Registry

namespace YulFuzz

open Relation (ReflTransGen)

/-! ### The size of a tree -/

namespace Tree

mutual

/-- Number of nodes of an expression. -/
def Expr.size : Expr → Nat
  | .varRef _ | .literal _ | .nullary _ | .unset => 1
  | .binary _ left right => left.size + right.size + 1
  | .unary _ operand => operand.size + 1
  | .ternary _ first second third => first.size + second.size + third.size + 1
  | .call _ _ args _ => Expr.sizes args + 1

/-- Number of nodes of a list of expressions. -/
def Expr.sizes : List Expr → Nat
  | [] => 0
  | expr :: rest => expr.size + Expr.sizes rest

end

mutual

/-- Number of nodes of a statement; a case of a switch is a node. -/
def Stmt.size : Stmt → Nat
  | .declare _ value | .assign _ value | .pop value => value.size + 1
  | .ifThen cond body => cond.size + Stmt.sizes body + 1
  | .store _ location value => Expr.sizes [location, value] + 1
  | .block body | .boundedFor body | .define _ _ body => Stmt.sizes body + 1
  | .forLoop init cond post body => Stmt.sizes init + cond.size + Stmt.sizes post + Stmt.sizes body + 1
  | .switch scrutinee cases default => scrutinee.size + Stmt.caseSizes cases + Stmt.defaultSize default + 1
  | .breakLoop | .continueLoop | .halt _ => 1
  | .log position size topics => Expr.sizes (position :: size :: topics) + 1
  | .copy _ target source size => Expr.sizes [target, source, size] + 1
  | .extCodeCopy address target source size => Expr.sizes [address, target, source, size] + 1
  | .exit _ position size => Expr.sizes [position, size] + 1
  | .selfDestruct address => Expr.sizes [address] + 1
  | .call _ _ args _ => Expr.sizes args + 1

/-- Number of nodes of a block. -/
def Stmt.sizes : List Stmt → Nat
  | [] => 0
  | stmt :: rest => stmt.size + Stmt.sizes rest

/-- Number of nodes of the cases of a switch. -/
def Stmt.caseSizes : List (Literal × List Stmt) → Nat
  | [] => 0
  | (_, body) :: rest => Stmt.sizes body + 1 + Stmt.caseSizes rest

/-- Number of nodes of the block of a switch without a label. -/
def Stmt.defaultSize : Option (List Stmt) → Nat
  | none => 0
  | some body => Stmt.sizes body

end

/-- Number of statements, expressions and cases of a program. -/
def Program.size (program : Program) : Nat := Stmt.sizes program.block

theorem Expr.sizes_take_le (exprs : List Expr) (count : Nat) : Expr.sizes (exprs.take count) ≤ Expr.sizes exprs := by
  induction exprs generalizing count with
  | nil => rw [List.take_nil]
  | cons expr rest ih =>
      cases count with
      | zero => exact Nat.zero_le _
      | succ count => exact Nat.add_le_add_left (ih count) _

end Tree

/-! ### Counting along a translation -/

namespace Lexical

/-- What is counted one by one while a tree is translated. -/
inductive Counted where
  | named | defined | emitted | fallback | droppedCase | droppedStatement
deriving DecidableEq

/-- How much of it has been counted. -/
def Thread.tally (t : Thread) : Counted → Nat
  | .named => t.next.noReturn + t.next.singleReturn + t.next.multiReturn
  | .defined => t.counters.functionsDefined
  | .emitted => t.counters.callsEmitted
  | .fallback => t.counters.callFallbacks
  | .droppedCase => t.counters.casesDropped
  | .droppedStatement => t.counters.statementsDropped

/-- How much of it a single event counts. -/
def Counted.share (what event : Counted) : Nat := if what = event then 1 else 0

theorem Counted.share_le (what event : Counted) : what.share event ≤ 1 := by
  unfold share
  split <;> decide

variable {α β : Type} {what : Counted} {first second bound : Nat} {env : Env}

/-- A part of the translation counts no more than so much. -/
def Counts (what : Counted) (bound : Nat) (part : Threaded α) : Prop :=
  ∀ t, (part t).2.tally what ≤ t.tally what + bound

namespace Counts

theorem pure (a : α) : Counts what 0 (Pure.pure a) := fun _ => Nat.le_refl _

theorem bind {part : Threaded α} {next : α → Threaded β} (here : Counts what first part)
    (later : ∀ a, Counts what second (next a)) : Counts what (first + second) (part >>= next) := by
  intro t
  have start := here t
  have rest := later (part t).1 (part t).2
  change (next (part t).1 (part t).2).2.tally what ≤ _
  omega

theorem mono {part : Threaded α} (counts : Counts what first part) (le : first ≤ bound) :
    Counts what bound part :=
  fun t => (counts t).trans (Nat.add_le_add_left le _)

/-- What counts nothing itself counts as much as what follows it. -/
theorem after {part : Threaded α} {next : α → Threaded β} (here : Counts what 0 part)
    (later : ∀ a, Counts what bound (next a)) : Counts what bound (part >>= next) :=
  (here.bind later).mono (Nat.zero_add bound).le

/-- What gives a result only is not counted. -/
theorem then_pure {part : Threaded α} (here : Counts what bound part) (f : α → β) :
    Counts what bound (part >>= fun a => Pure.pure (f a)) :=
  here.bind fun a => pure (f a)

theorem map {part : Threaded α} (counts : Counts what bound part) (f : α → β) : Counts what bound (f <$> part) :=
  counts

end Counts

/-- An event is counted once, among its own. -/
theorem count_counts {f : Walk.Counters → Walk.Counters} (event : Counted)
    (raised : ∀ t : Thread, ∀ what, { t with counters := f t.counters }.tally what =
      t.tally what + what.share event) : Counts what (what.share event) (count f) :=
  fun t => (raised t what).le

/-- What follows an event that is counted counts all but one. -/
theorem Counts.counting {f : Walk.Counters → Walk.Counters} {next : PUnit → Threaded α} (event : Counted)
    (raised : ∀ t : Thread, ∀ what, { t with counters := f t.counters }.tally what =
      t.tally what + what.share event) (later : ∀ a, Counts what bound (next a)) :
    Counts what (bound + 1) (count f >>= next) := by
  refine ((count_counts event raised).bind later).mono ?_
  rw [Nat.add_comm]
  exact Nat.add_le_add_left (what.share_le event) _

theorem nextName_counts (kind : FunctionKind) : Counts what (what.share .named) (nextName kind) := by
  intro t
  change ({ t with next := t.next.modify kind (· + 1) } : Thread).tally what ≤ _
  cases what with
  | named => cases kind <;> simp only [Thread.tally, PerKind.modify, Counted.share, if_pos] <;> omega
  | defined | emitted | fallback | droppedCase | droppedStatement => exact Nat.le_refl _

/-! ### Literals and expressions -/

theorem drawToken_counts (seed : Seed) : Counts what 0 (drawToken seed) := by
  intro t
  cases what <;> exact Nat.le_refl _

theorem tokenExpr_counts (seed : Seed) : Counts what 0 (tokenExpr seed) := drawToken_counts seed

theorem tokenExprs_counts (seed : Seed) (wanted : Nat) : Counts what 0 (tokenExprs seed wanted) := by
  induction wanted with
  | zero => exact .pure _
  | succ wanted ih => exact (tokenExpr_counts seed).bind fun _ => ih.then_pure _

theorem literal_counts (seed : Seed) (node : Tree.Literal) : Counts what 0 (literal seed node) := by
  cases node with
  | int | str => exact .pure _
  | unset => exact (drawToken_counts seed).then_pure _
  | hex raw =>
      rw [literal]
      cases Walk.hexDigits raw with
      | nil => exact ((drawToken_counts seed).map _).then_pure _
      | cons => exact (Counts.pure _).then_pure _

mutual

/-- An expression counts no more than its nodes. -/
theorem expression_counts (seed : Seed) : ∀ expr, Counts what expr.size (expression seed env expr)
  | .varRef number => by
      rw [expression]
      cases env.resolve number with
      | none => exact (tokenExpr_counts seed).mono (Nat.zero_le _)
      | some found => exact (Counts.pure _).mono (Nat.zero_le _)
  | .literal node => ((literal_counts seed node).then_pure _).mono (Nat.zero_le _)
  | .binary op left right => by
      rw [expression]
      exact ((expression_counts seed left).bind fun _ =>
        (expression_counts seed right).then_pure _).mono (Nat.le_succ _)
  | .unary op operand => by
      rw [expression]
      exact ((expression_counts seed operand).then_pure _).mono (Nat.le_succ _)
  | .ternary op first second third => by
      rw [expression]
      refine ((expression_counts seed first).bind fun _ => (expression_counts seed second).bind fun _ =>
        (expression_counts seed third).then_pure _).mono ?_
      rw [Tree.Expr.size]
      omega
  | .nullary op => (Counts.pure _).mono (Nat.zero_le _)
  | .call usage selector args targets => by
      rw [expression]
      cases env.pick .singleReturn selector with
      | none =>
          exact (Counts.counting .fallback (fun t what => by cases what <;> rfl) fun _ =>
            tokenExpr_counts seed).mono (Nat.le_add_left _ _)
      | some callee =>
          exact .counting .emitted (fun t what => by cases what <;> rfl) fun _ =>
            (arguments_counts seed callee.inputs args).then_pure _
  | .unset => (tokenExpr_counts seed).mono (Nat.zero_le _)

/-- The arguments of a call count no more than their nodes. -/
theorem arguments_counts (seed : Seed) : ∀ wanted args,
    Counts what (Tree.Expr.sizes args) (arguments seed env wanted args)
  | wanted, [] => by
      rw [arguments]
      exact tokenExprs_counts seed wanted
  | 0, _ :: _ => (Counts.pure _).mono (Nat.zero_le _)
  | wanted + 1, arg :: args => by
      rw [arguments]
      exact (expression_counts seed arg).bind fun _ => (arguments_counts seed wanted args).then_pure _

end

theorem expressions_counts (seed : Seed) (exprs : List Tree.Expr) :
    Counts what (Tree.Expr.sizes exprs) (expressions seed env exprs) := by
  induction exprs with
  | nil => exact .pure _
  | cons expr rest ih => exact (expression_counts seed expr).bind fun _ => ih.then_pure _

/-! ### Statements -/

theorem call_counts (seed : Seed) (callee : Callable) (args : List Tree.Expr) :
    Counts what (Tree.Expr.sizes args + 1) (call seed env callee args) :=
  .counting .emitted (fun t what => by cases what <;> rfl) fun _ =>
    (arguments_counts seed callee.inputs args).then_pure _

theorem callStatement_counts (seed : Seed) (usage : Tree.CallUsage) (selector : UInt32) (args : List Tree.Expr)
    (requests : List UInt32) :
    Counts what (Tree.Expr.sizes args + 1) (callStatement seed env usage selector args requests) := by
  rw [callStatement]
  cases env.callee? usage selector with
  | none =>
      exact (Counts.counting .fallback (fun t what => by cases what <;> rfl) fun _ =>
        (tokenExpr_counts seed).then_pure _).mono (Nat.le_add_left _ _)
  | some callee =>
      refine ((call_counts seed callee args).bind fun value => ?_).mono (Nat.add_zero _).le
      cases usage <;> exact .pure _

theorem callAfterDefinition_counts (callable : Callable) :
    Counts what (what.share .emitted) (callAfterDefinition env callable) := by
  have counted : Counts what (what.share .emitted)
      (count fun c => { c with callsEmitted := c.callsEmitted + 1 }) :=
    count_counts .emitted fun t what => by cases what <;> rfl
  refine (counted.bind fun _ => ?_).mono (Nat.add_zero _).le
  split <;> exact .pure _

theorem assign_counts (seed : Seed) (target : UInt32) (value : Tree.Expr) :
    Counts what value.size (assign seed env target value) := by
  refine ((expression_counts seed value).bind fun result => ?_).mono (Nat.add_zero _).le
  cases env.resolve target <;> exact .pure _

theorem loopControl_counts (control : Yul.Stmt) : Counts what 1 (loopControl env control) := by
  rw [loopControl]
  split
  · exact (Counts.pure _).mono (Nat.zero_le _)
  · exact .counting .droppedStatement (fun t what => by cases what <;> rfl) fun _ => .pure _

theorem builtinStatement_counts (seed : Seed) (builtin : Builtin) (args : List Tree.Expr) :
    Counts what (Tree.Expr.sizes args + 1) (builtinStatement seed env builtin args) :=
  ((expressions_counts seed args).then_pure _).mono (Nat.le_succ _)

theorem braces_counts {part : Threaded (List Yul.Stmt × Env)} (isEmpty : Bool) (counts : Counts what bound part) :
    Counts what bound (braces isEmpty part) := by
  cases isEmpty with
  | true => exact (Counts.pure _).mono (Nat.zero_le _)
  | false => exact counts.then_pure _

mutual

/-- A statement counts no more than its nodes. -/
theorem statement_counts (settings : Settings) : ∀ stmt env, Counts what stmt.size (statement settings env stmt)
  | .declare type value, env => by
      rw [statement, declareVariable]
      exact (((expression_counts settings.seed value).then_pure _).then_pure _).mono (Nat.le_succ _)
  | .assign target value, env => by
      rw [statement]
      exact ((assign_counts settings.seed target value).then_pure _).mono (Nat.le_succ _)
  | .ifThen cond body, env => by
      rw [statement]
      exact ((expression_counts settings.seed cond).bind fun _ =>
        (braces_counts _ (statements_counts settings body env)).then_pure _).mono (Nat.le_succ _)
  | .store op location value, env => builtinStatement_counts settings.seed _ _
  | .block body, env => by
      rw [statement]
      exact ((braces_counts _ (statements_counts settings body env)).then_pure _).mono (Nat.le_succ _)
  | .forLoop init cond post body, env => by
      rw [statement]
      refine ((statements_counts settings init _).bind fun opened =>
        (expression_counts settings.seed cond).bind fun _ =>
        (braces_counts _ (statements_counts settings post _)).bind fun _ =>
        (braces_counts _ (statements_counts settings body _)).then_pure _).mono ?_
      rw [Tree.Stmt.size]
      omega
  | .boundedFor body, env => by
      rw [statement]
      exact ((braces_counts _ (statements_counts settings body _)).then_pure _).mono (Nat.le_succ _)
  | .switch scrutinee cases default, env => by
      rw [statement]
      split
      · exact (Counts.pure _).mono (Nat.zero_le _)
      · have front : Counts what scrutinee.size (expression settings.seed env scrutinee) :=
          expression_counts settings.seed scrutinee
        refine (front.bind fun _ => (caseArms_counts settings cases _).bind fun arms =>
          (show Counts what (Tree.Stmt.defaultSize default) _ from ?_)).mono ?_
        · cases default with
          | none => exact .pure _
          | some body => exact (braces_counts _ (statements_counts settings body env)).then_pure _
        · rw [Tree.Stmt.size]
          omega
  | .breakLoop, env => loopControl_counts _
  | .continueLoop, env => loopControl_counts _
  | .log position size topics, env => by
      rw [statement]
      refine (builtinStatement_counts settings.seed _ _).mono ?_
      have fewer := Tree.Expr.sizes_take_le topics Walk.maxTopics
      simp only [Tree.Stmt.size, Tree.Expr.sizes]
      omega
  | .copy region target source size, env => builtinStatement_counts settings.seed _ _
  | .extCodeCopy address target source size, env => builtinStatement_counts settings.seed _ _
  | .halt op, env => (Counts.pure _).mono (Nat.zero_le _)
  | .exit op position size, env => builtinStatement_counts settings.seed _ _
  | .selfDestruct address, env => builtinStatement_counts settings.seed _ _
  | .call usage selector args targets, env => by
      rw [statement]
      exact (callStatement_counts settings.seed usage selector args targets).then_pure _
  | .define inputs outputs body, env => by
      rw [statement]
      split
      · exact (Counts.counting .droppedStatement (fun t what => by cases what <;> rfl) fun _ =>
          .pure _).mono (Nat.le_add_left _ _)
      · have defined : Counts what (what.share .defined)
            (count fun c => { c with functionsDefined := c.functionsDefined + 1 }) :=
          count_counts .defined fun t what => by cases what <;> rfl
        refine ((nextName_counts _).bind fun name => defined.bind fun _ =>
          ((braces_counts _ (statements_counts settings body _)).map _).bind fun _ =>
            (callAfterDefinition_counts _).then_pure _).mono ?_
        -- The name, the definition and the call are counted apart from each other.
        rw [Tree.Stmt.size]
        cases what <;> simp [Counted.share, Nat.add_comm]
  | .pop value, env => (builtinStatement_counts settings.seed _ _).mono (by simp [Tree.Stmt.size, Tree.Expr.sizes])

/-- The statements of a block count no more than their nodes. -/
theorem statements_counts (settings : Settings) : ∀ body env,
    Counts what (Tree.Stmt.sizes body) (statements settings env body)
  | [], env => .pure _
  | stmt :: rest, env => by
      rw [statements]
      exact (statement_counts settings stmt env).bind fun ⟨_, after⟩ =>
        (statements_counts settings rest after).then_pure _

/-- The cases of a switch count no more than their nodes. -/
theorem caseArms_counts (settings : Settings) : ∀ cases env,
    Counts what (Tree.Stmt.caseSizes cases) (caseArms settings env cases)
  | [], env => .pure _
  | (label, body) :: rest, env => by
      rw [caseArms]
      refine Counts.after (literal_counts settings.seed label) fun label => ?_
      split
      · refine (Counts.counting .droppedCase (fun t what => by cases what <;> rfl) fun _ =>
          caseArms_counts settings rest env).mono ?_
        rw [Tree.Stmt.caseSizes]
        omega
      · refine ((braces_counts _ (statements_counts settings body _)).bind fun _ =>
          (caseArms_counts settings rest _).then_pure _).mono ?_
        rw [Tree.Stmt.caseSizes]
        omega

end

/-- A program counts no more than its nodes. -/
theorem program_counts (settings : Settings) (tree : Tree.Program) (what : Counted) :
    (program settings tree).2.tally what ≤ tree.size := by
  have counts : Counts what tree.size (braces tree.block.isEmpty (statements settings {} tree.block)) :=
    braces_counts _ (statements_counts settings tree.block {})
  have start : Thread.tally {} what = 0 := by cases what <;> rfl
  have counted := counts {}
  rwa [start, Nat.zero_add] at counted

end Lexical

/-! ### Counts along a walk -/

namespace Functions

variable {fs fs' : Functions} {inputs outputs : Nat} {name : FunctionName}

theorem of_register_eq_ok (registered : fs.register inputs outputs = .ok (name, fs')) :
    name.kind = .ofOutputs outputs ∧ fs'.next = fs.next.modify name.kind (· + 1) ∧ fs'.marks = fs.marks := by
  unfold register at registered
  split at registered
  · obtain ⟨rfl, rfl⟩ := Prod.mk.inj (Except.ok.inj registered)
    exact ⟨rfl, rfl, rfl⟩
  · cases registered

/-- A function that is recorded is one more. -/
theorem total_of_register (registered : fs.register inputs outputs = .ok (name, fs')) :
    fs'.total = fs.total + 1 := by
  rw [total, total, (of_register_eq_ok registered).2.1]
  cases name.kind <;> simp only [PerKind.modify] <;> omega

theorem total_of_exitScope (left : fs.exitScope = .ok fs') : fs'.total = fs.total := by
  unfold exitScope at left
  split at left
  · cases left
  · obtain rfl := Except.ok.inj left
    rfl

theorem next_le_total (fs : Functions) (kind : FunctionKind) : fs.next.get kind ≤ fs.total := by
  rw [total]
  cases kind <;> simp only [PerKind.get] <;> omega

end Functions

namespace Walk

variable {s s' : State} {bound : Nat}

/-- No count of functions, calls, cases or statements is above the bound. -/
structure State.CountsAtMost (s : State) (bound : Nat) : Prop where
  functions : s.functions.total ≤ bound
  counters : s.counters.AtMost ⟨bound, bound, bound, bound, bound⟩

theorem Step.total_le (step : Step s s') : s.functions.total ≤ s'.functions.total := by
  cases step with
  | register registered => exact (Nat.le_succ _).trans (Functions.total_of_register registered).ge
  | exitScope varsLeft functionsLeft => exact (Functions.total_of_exitScope functionsLeft).ge
  | spend spend => cases spend <;> exact Nat.le_refl _
  | define | dropCase | dropStatement | declare | record | enterScope | enterFunction | exitFunction
  | enterSwitch | exitSwitch | enterLoop | exitLoop | allow => exact Nat.le_refl _

/-- What is bounded after a step was so before it. -/
theorem State.CountsAtMost.before (after : s'.CountsAtMost bound) (step : Step s s') : s.CountsAtMost bound where
  functions := step.total_le.trans after.functions
  counters := step.grows.counters.trans after.counters

/-- Along a walk nothing is counted that is not counted at its end. -/
theorem State.CountsAtMost.along (final : s'.CountsAtMost bound) (steps : ReflTransGen Step s s') :
    ReflTransGen (fun r r' => Step r r' ∧ r'.CountsAtMost bound) s s' := by
  induction steps with
  | refl => exact .refl
  | tail earlier step ih => exact (ih (final.before step)).tail ⟨step, final⟩

end Walk

/-- Every program is walked by steps at none of which more functions, calls, left out cases or left out statements
    have been counted than there are nodes in the tree. -/
theorem walk_counts_at_most_size (settings : Settings) (tree : Tree.Program) :
    ∃ code s, tree.walk settings = .ok (code, s) ∧
      ReflTransGen (fun r r' => Walk.Step r r' ∧ r'.CountsAtMost tree.size) {} s := by
  obtain ⟨left, walked, -⟩ := Lexical.generate_eq_walk settings tree
  refine ⟨_, _, walked, Walk.State.CountsAtMost.along ?_ ?_⟩
  · have counted := Lexical.program_counts settings tree
    exact ⟨counted .named, counted .defined, counted .emitted, counted .fallback, counted .droppedCase,
      counted .droppedStatement⟩
  · exact Walk.Takes.braces _ (Walk.statements_steps settings tree.block) {} _ _ walked

/-! ### Counters of 32 bits -/

namespace Registry

variable {arithmetic : Arithmetic} {r r' : Registry}

/-- What is done with a registry: scopes are opened and closed, and functions recorded. -/
inductive Moves (arithmetic : Arithmetic) : Registry → Registry → Prop
  | enter (r : Registry) : Moves arithmetic r r.enterScope
  | leave {r r' : Registry} (left : r.exitScope = .ok r') : Moves arithmetic r r'
  | register {r r' : Registry} {inputs outputs : Nat} {name : FunctionName}
      (registered : r.register arithmetic inputs outputs = .ok (name, r')) : Moves arithmetic r r'

theorem exists_exitScope {fs' : Functions} (left : r.functions.exitScope = .ok fs') :
    ∃ r', r.exitScope = .ok r' ∧ r'.functions = fs' := by
  refine ⟨_, by rw [exitScope, left]; rfl, ?_⟩
  unfold Functions.exitScope at left
  split at left
  · cases left
  · obtain rfl := Except.ok.inj left
    rfl

/-- As long as all functions can be counted with 32 bits, a function is recorded under the same name. -/
theorem exists_register {inputs outputs : Nat} {name : FunctionName} {fs' : Functions}
    (registered : r.functions.register inputs outputs = .ok (name, fs')) (fits : fs'.total < 2 ^ 32)
    (arithmetic : Arithmetic) :
    ∃ r', r.register arithmetic inputs outputs = .ok (name, r') ∧ r'.functions = fs' := by
  obtain ⟨-, next, marks⟩ := Functions.of_register_eq_ok registered
  have room : (r.next.get name.kind).toNat + 1 < 2 ^ 32 := by
    have least := fs'.next_le_total name.kind
    rw [next, PerKind.get_modify_self, functions, PerKind.get_map] at least
    exact least.trans_lt fits
  have raised : arithmetic.add (r.next.get name.kind) 1 =
      .ok (UInt32.ofNat ((r.next.get name.kind).toNat + 1)) := by
    rw [Arithmetic.add, UInt32.toNat_one, Arithmetic.counter_of_lt room]
  refine ⟨_, by rw [register, registered]; change arithmetic.add _ _ >>= _ = _; rw [raised]; rfl, ?_⟩
  obtain ⟨_, visible, _⟩ := fs'
  obtain rfl := next
  obtain rfl := marks
  rw [functions]
  congr 1
  ext kind : 1
  rw [PerKind.get_map]
  by_cases same : kind = name.kind
  · subst same
    rw [PerKind.get_modify_self, PerKind.get_modify_self, UInt32.toNat_ofNat_of_lt' room, functions,
      PerKind.get_map]
  · rw [PerKind.get_modify_of_ne _ _ same, PerKind.get_modify_of_ne _ _ same, functions, PerKind.get_map]

/-- What a step of a walk does with functions can be done with the registry of the same functions. -/
theorem exists_moves {s s' : Walk.State} (step : Walk.Step s s') (fits : s'.functions.total < 2 ^ 32)
    (same : r.functions = s.functions) (arithmetic : Arithmetic) :
    ∃ r', ReflTransGen (Moves arithmetic) r r' ∧ r'.functions = s'.functions := by
  cases step with
  | register registered =>
      obtain ⟨r', recorded, kept⟩ := exists_register (same ▸ registered) fits arithmetic
      exact ⟨r', .single (.register recorded), kept⟩
  | enterScope => exact ⟨_, .single (.enter r), congrArg Functions.enterScope same⟩
  | exitScope varsLeft functionsLeft =>
      obtain ⟨r', left, kept⟩ := exists_exitScope (same ▸ functionsLeft)
      exact ⟨r', .single (.leave left), kept⟩
  | spend spend => cases spend <;> exact ⟨r, .refl, same⟩
  | define | dropCase | dropStatement | declare | record | enterFunction | exitFunction | enterSwitch
  | exitSwitch | enterLoop | exitLoop | allow => exact ⟨r, .refl, same⟩

/-- Along steps at which all counts fit, the functions stay those of a registry. -/
theorem exists_along {s : Walk.State} {bound : Nat} (small : bound < 2 ^ 32) (arithmetic : Arithmetic)
    (steps : ReflTransGen (fun s s' => Walk.Step s s' ∧ s'.CountsAtMost bound) {} s) :
    ∃ r, ReflTransGen (Moves arithmetic) {} r ∧ r.functions = s.functions := by
  induction steps with
  | refl => exact ⟨{}, .refl, rfl⟩
  | tail _ step ih =>
      obtain ⟨r, moved, same⟩ := ih
      obtain ⟨r', further, kept⟩ := exists_moves step.1 (step.2.functions.trans_lt small) same arithmetic
      exact ⟨r', moved.trans further, kept⟩

end Registry

/-- For a tree of fewer than `2 ^ 32` nodes no counter overflows, by either arithmetic: the functions that its walk
    records are those of a registry that is used in the same way. -/
theorem exists_registry (settings : Settings) (tree : Tree.Program) (small : tree.size < 2 ^ 32)
    (arithmetic : Arithmetic) : ∃ code s r, tree.walk settings = .ok (code, s) ∧
      ReflTransGen (Registry.Moves arithmetic) {} r ∧ r.functions = s.functions := by
  obtain ⟨code, s, walked, steps⟩ := walk_counts_at_most_size settings tree
  obtain ⟨r, moved, same⟩ := Registry.exists_along small arithmetic steps
  exact ⟨code, s, r, walked, moved, same⟩

end YulFuzz
