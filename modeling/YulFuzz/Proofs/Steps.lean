/-
Module: YulFuzz.Proofs.Steps
Purpose: The steps that walks take. Whatever a walk does to the state it does by small steps: it draws a token,
  counts something, declares variables, records a function or a label, or it enters or leaves something. An
  expression only draws tokens and counts calls. What holds across each step, and across two steps if it holds
  across each of them, so holds across each expression, each statement and each block.
Main exports: Walk.Spend, Walk.Step, Walk.TakesFrom, Walk.Takes, Walk.expression_spends, Walk.statement_steps,
  Walk.statements_steps
-/
import Mathlib.Logic.Relation
import YulFuzz.Proofs.Lexical.Simulation

namespace YulFuzz.Walk

open Relation (ReflTransGen)

/-! ### Steps -/

/-- A step of an expression: a token is drawn, or a call is counted, which is made or replaced by a token. -/
inductive Spend : State → State → Prop
  | draw (s : State) : Spend s { s with drawn := s.drawn + 1 }
  | call (s : State) :
      Spend s { s with counters := { s.counters with callsEmitted := s.counters.callsEmitted + 1 } }
  | fallback (s : State) :
      Spend s { s with counters := { s.counters with callFallbacks := s.counters.callFallbacks + 1 } }

/-- A step of a statement. What is entered can be left only if it was entered. -/
inductive Step : State → State → Prop
  | spend {s s' : State} (spend : Spend s s') : Step s s'
  | define (s : State) :
      Step s { s with counters := { s.counters with functionsDefined := s.counters.functionsDefined + 1 } }
  | dropCase (s : State) :
      Step s { s with counters := { s.counters with casesDropped := s.counters.casesDropped + 1 } }
  | dropStatement (s : State) :
      Step s { s with counters := { s.counters with statementsDropped := s.counters.statementsDropped + 1 } }
  | declare (s : State) (count : Nat) : Step s { s with vars := s.vars.declare count }
  | register {s : State} {inputs outputs : Nat} {name : FunctionName} {functions : Functions}
      (registered : s.functions.register inputs outputs = .ok (name, functions)) : Step s { s with functions }
  | record {s : State} {value : Word} {isNew : Bool} {labels : CaseLabels}
      (recorded : s.labels.record value = .ok (isNew, labels)) : Step s { s with labels }
  | enterScope (s : State) :
      Step s { s with vars := s.vars.enterScope, functions := s.functions.enterScope }
  | exitScope {s : State} {vars : Variables} {functions : Functions} (varsLeft : s.vars.exitScope = .ok vars)
      (functionsLeft : s.functions.exitScope = .ok functions) : Step s { s with vars, functions }
  | enterFunction (s : State) : Step s { s with vars := s.vars.enterFunction }
  | exitFunction {s : State} {vars : Variables} (left : s.vars.exitFunction = .ok vars) : Step s { s with vars }
  | enterSwitch (s : State) : Step s { s with labels := s.labels.enter }
  | exitSwitch {s : State} {labels : CaseLabels} (left : s.labels.exit = .ok labels) : Step s { s with labels }
  | enterLoop (s : State) : Step s { s with loopDepth := s.loopDepth + 1 }
  | exitLoop (s : State) : Step s { s with loopDepth := s.loopDepth - 1 }
  | allow (s : State) (inLoopBody inLoopInit : Bool) : Step s { s with inLoopBody, inLoopInit }

/-! ### Walks by steps -/

variable {α β : Type} {R : State → State → Prop} {s : State}

/-- From the state `s` the walk takes only steps of the relation to its end, if it ends. -/
def TakesFrom (R : State → State → Prop) (s : State) (walk : Walk α) : Prop :=
  ∀ a s', walk s = .ok (a, s') → ReflTransGen R s s'

/-- From every state the walk takes only steps of the relation to its end, if it ends. -/
def Takes (R : State → State → Prop) (walk : Walk α) : Prop := ∀ s, TakesFrom R s walk

namespace TakesFrom

theorem pure (a : α) : TakesFrom R s (Pure.pure a) := by
  rintro _ _ ⟨⟩
  exact .refl

theorem throwing (fault : Fault) : TakesFrom R s (throw fault : Walk α) := nofun

theorem changing {f : State → State} (step : R s (f s)) : TakesFrom R s (modify f : Walk PUnit) := by
  rintro _ _ ⟨⟩
  exact .single step

/-- Going on by the state. -/
theorem get {next : State → Walk β} (then_ : TakesFrom R s (next s)) :
    TakesFrom R s (MonadState.get >>= next) :=
  then_

/-- Going on by the answer of an operation of the bookkeeping. -/
theorem lift {γ : Type} {operation : Except Fault γ} {next : γ → Walk β}
    (then_ : ∀ answer, operation = .ok answer → TakesFrom R s (next answer)) :
    TakesFrom R s (liftM operation >>= next) := by
  cases operation with
  | error fault => exact nofun
  | ok answer => exact then_ answer rfl

theorem bind {walk : Walk α} {next : α → Walk β} (first : TakesFrom R s walk)
    (then_ : ∀ a, Takes R (next a)) : TakesFrom R s (walk >>= next) := by
  intro b s' ran
  obtain ⟨a, middle, here, there⟩ := Lexical.of_bind_eq_ok ran
  exact (first a middle here).trans (then_ a middle b s' there)

/-- Setting a state that is one step away, and going on from there. -/
theorem setting {r : State} {next : PUnit → Walk β} (step : R s r) (then_ : ∀ a, Takes R (next a)) :
    TakesFrom R s (set r >>= next) :=
  bind (changing (f := fun _ => r) step) then_

end TakesFrom

namespace Takes

theorem pure (a : α) : Takes R (Pure.pure a) := fun _ => .pure a

theorem bind {walk : Walk α} {next : α → Walk β} (first : Takes R walk) (then_ : ∀ a, Takes R (next a)) :
    Takes R (walk >>= next) :=
  fun s => (first s).bind then_

theorem map {walk : Walk α} (f : α → β) (takes : Takes R walk) : Takes R (f <$> walk) :=
  takes.bind fun a => pure (f a)

theorem changing {f : State → State} (step : ∀ s, R s (f s)) : Takes R (modify f : Walk PUnit) :=
  fun s => .changing (step s)

theorem mono {Q : State → State → Prop} {walk : Walk α} (takes : Takes R walk) (le : ∀ s s', R s s' → Q s s') :
    Takes Q walk :=
  fun s a s' walked => ReflTransGen.mono le _ _ (takes s a s' walked)

end Takes

/-! ### Literals and expressions -/

theorem resolve_takes (number : UInt32) : Takes R (resolve number) := by
  intro s
  apply TakesFrom.get
  exact .lift fun _ _ => .pure _

theorem drawToken_spends (seed : Seed) : Takes Spend (drawToken seed) := by
  intro s
  apply TakesFrom.get
  exact .setting (.draw s) fun _ => .pure _

theorem tokenExpr_spends (seed : Seed) : Takes Spend (tokenExpr seed) :=
  (drawToken_spends seed).bind fun _ => .pure _

theorem tokenExprs_spends (seed : Seed) (wanted : Nat) : Takes Spend (tokenExprs seed wanted) := by
  induction wanted with
  | zero => exact .pure _
  | succ wanted ih => exact (tokenExpr_spends seed).bind fun _ => ih.bind fun _ => .pure _

theorem literal_spends (seed : Seed) (node : Tree.Literal) : Takes Spend (literal seed node) := by
  cases node with
  | int value | str raw => exact .pure _
  | unset => exact (drawToken_spends seed).bind fun _ => .pure _
  | hex raw =>
      have spelled (digits : List Char) : Takes Spend (do
          let digits := evenly digits
          if Word.digitCount < digits.length then throw .hexTooLong
          return Yul.Literal.hex (String.ofList digits)) := by
        intro s
        dsimp only
        split
        · exact (TakesFrom.throwing _).bind fun _ => .pure _
        · exact .pure _
      rw [literal]
      cases hexDigits raw with
      | nil => exact ((drawToken_spends seed).map _).bind spelled
      | cons first others => exact (Takes.pure _).bind spelled

mutual

/-- An expression only draws tokens and counts calls. -/
theorem expression_spends (seed : Seed) : ∀ expr, Takes Spend (expression seed expr)
  | .varRef number => by
      rw [expression]
      refine (resolve_takes number).bind fun found => ?_
      cases found with
      | none => exact tokenExpr_spends seed
      | some var => exact .pure _
  | .literal node => (literal_spends seed node).bind fun _ => .pure _
  | .binary op left right => by
      rw [expression]
      exact (expression_spends seed left).bind fun _ => (expression_spends seed right).bind fun _ => .pure _
  | .unary op operand => by
      rw [expression]
      exact (expression_spends seed operand).bind fun _ => .pure _
  | .ternary op first second third => by
      rw [expression]
      exact (expression_spends seed first).bind fun _ => (expression_spends seed second).bind fun _ =>
        (expression_spends seed third).bind fun _ => .pure _
  | .nullary op => .pure _
  | .call usage selector args targets => by
      rw [expression]
      intro s
      apply TakesFrom.get
      cases s.functions.pick .singleReturn selector.toNat with
      | none => exact TakesFrom.bind (.changing (.fallback s)) fun _ => tokenExpr_spends seed
      | some callee =>
          exact TakesFrom.bind (.changing (.call s)) fun _ =>
            (arguments_spends seed callee.inputs args).bind fun _ => .pure _
  | .unset => tokenExpr_spends seed

/-- The arguments of a call only draw tokens and count calls. -/
theorem arguments_spends (seed : Seed) : ∀ wanted args, Takes Spend (arguments seed wanted args)
  | wanted, [] => by
      rw [arguments]
      exact tokenExprs_spends seed wanted
  | 0, _ :: _ => .pure _
  | wanted + 1, arg :: args => by
      rw [arguments]
      exact (expression_spends seed arg).bind fun _ => (arguments_spends seed wanted args).bind fun _ => .pure _

end

theorem expressions_spends (seed : Seed) (exprs : List Tree.Expr) : Takes Spend (expressions seed exprs) := by
  induction exprs with
  | nil => exact .pure _
  | cons expr rest ih => exact (expression_spends seed expr).bind fun _ => ih.bind fun _ => .pure _

/-- The steps of an expression are steps of a statement. -/
theorem Takes.steps {walk : Walk α} (spends : Takes Spend walk) : Takes Step walk :=
  spends.mono fun _ _ => .spend

theorem expression_steps (seed : Seed) (expr : Tree.Expr) : Takes Step (expression seed expr) :=
  (expression_spends seed expr).steps

/-! ### Actions -/

namespace Takes

theorem declare (count : Nat) : Takes Step (Walk.declare count) := by
  intro s
  apply TakesFrom.get
  exact .setting (.declare s count) fun _ => pure _

theorem recordLabel (value : Word) : Takes Step (Walk.recordLabel value) := by
  intro s
  apply TakesFrom.get
  apply TakesFrom.lift
  rintro ⟨isNew, labels⟩ recorded
  exact .setting (.record recorded) fun _ => pure _

theorem inScope {walk : Walk α} (inside : Takes Step walk) : Takes Step (Walk.inScope walk) := by
  refine bind (changing .enterScope) fun _ => bind inside fun result s => ?_
  apply TakesFrom.get
  refine .lift fun functions functionsLeft => .lift fun vars varsLeft => ?_
  exact .setting (.exitScope varsLeft functionsLeft) fun _ => pure result

theorem inLoopContext {walk : Walk α} {inLoopBody inLoopInit : Bool} (inside : Takes Step walk) :
    Takes Step (Walk.inLoopContext inLoopBody inLoopInit walk) := by
  intro s
  apply TakesFrom.get
  refine .setting (.allow s inLoopBody inLoopInit) fun _ => bind inside fun result => ?_
  exact bind (changing fun r => .allow r s.inLoopBody s.inLoopInit) fun _ => pure result

theorem inFunctionBody {walk : Walk α} (inside : Takes Step walk) : Takes Step (Walk.inFunctionBody walk) := by
  apply inLoopContext
  apply inScope
  refine bind (changing .enterFunction) fun _ => bind inside fun result s => ?_
  apply TakesFrom.get
  refine .lift fun vars left => ?_
  exact .setting (.exitFunction left) fun _ => pure result

theorem inBoundedLoop {walk : Nat → Walk α} (inside : ∀ depth, Takes Step (walk depth)) :
    Takes Step (Walk.inBoundedLoop walk) := by
  intro s
  apply TakesFrom.get
  refine .bind (.changing (.enterLoop s)) fun _ => bind (inside s.loopDepth) fun result => ?_
  exact bind (changing .exitLoop) fun _ => pure result

theorem inSwitch {walk : Walk α} (inside : Takes Step walk) : Takes Step (Walk.inSwitch walk) := by
  refine bind (changing .enterSwitch) fun _ => bind inside fun result s => ?_
  apply TakesFrom.get
  refine .lift fun labels left => ?_
  exact .setting (.exitSwitch left) fun _ => pure result

theorem braces {walk : Walk (List Yul.Stmt)} (isEmpty : Bool) (inside : Takes Step walk) :
    Takes Step (Walk.braces isEmpty walk) := by
  cases isEmpty with
  | true => exact pure _
  | false => exact inScope (inside.bind fun _ => pure _)

end Takes

/-! ### Statements without blocks -/

theorem builtinStatement_spends (seed : Seed) (builtin : Builtin) (args : List Tree.Expr) :
    Takes Spend (builtinStatement seed builtin args) :=
  (expressions_spends seed args).bind fun _ => .pure _

theorem builtinStatement_steps (seed : Seed) (builtin : Builtin) (args : List Tree.Expr) :
    Takes Step (builtinStatement seed builtin args) :=
  (builtinStatement_spends seed builtin args).steps

theorem callee?_takes (usage : Tree.CallUsage) (selector : UInt32) : Takes R (callee? usage selector) := by
  intro s
  apply TakesFrom.get
  refine .lift fun visible _ => ?_
  split
  · exact .pure _
  · cases usage <;> exact .pure _

theorem assignmentTargets_takes (requests : List UInt32) (wanted : Nat) :
    Takes R (assignmentTargets requests wanted) := by
  intro s
  apply TakesFrom.get
  refine .lift fun visible _ => ?_
  dsimp only
  by_cases few : visible < wanted
  · rw [if_pos few]
    exact .throwing _
  · rw [if_neg few]
    cases assignmentSlots visible (requests.map UInt32.toNat) [] 0 wanted with
    | none => exact .throwing _
    | some slots => exact .pure _

theorem call_spends (seed : Seed) (callee : Callable) (args : List Tree.Expr) :
    Takes Spend (call seed callee args) :=
  (Takes.changing .call).bind fun _ => (arguments_spends seed callee.inputs args).bind fun _ => .pure _

theorem callFallback_spends (seed : Seed) : Takes Spend (callFallback seed) :=
  (Takes.changing .fallback).bind fun _ => (tokenExpr_spends seed).bind fun _ => .pure _

theorem assign_spends (seed : Seed) (target : UInt32) (value : Tree.Expr) :
    Takes Spend (assign seed target value) := by
  refine (resolve_takes target).bind fun found => ?_
  cases found with
  | none | some => exact (expression_spends seed value).bind fun _ => .pure _

theorem callStatement_steps (seed : Seed) (usage : Tree.CallUsage) (selector : UInt32)
    (args : List Tree.Expr) (requests : List UInt32) :
    Takes Step (callStatement seed usage selector args requests) := by
  refine (callee?_takes usage selector).bind fun callee => ?_
  cases callee with
  | none => exact (callFallback_spends seed).steps
  | some callee =>
      have called := (call_spends seed callee args).steps
      cases usage with
      | none | single => exact called.bind fun _ => .pure _
      | multiDecl => exact called.bind fun _ => (Takes.declare _).bind fun _ => .pure _
      | multiAssign =>
          exact (assignmentTargets_takes requests callee.outputs).bind fun _ => called.bind fun _ => .pure _

theorem callAfterDefinition_steps (name : FunctionName) (inputs outputs : Nat) :
    Takes Step (callAfterDefinition name inputs outputs) := by
  refine (Takes.changing fun s => .spend (.call s)).bind fun _ => ?_
  split
  · exact .pure _
  · exact .inScope ((Takes.declare _).bind fun _ => .pure _)

theorem loopControl_steps (control : Yul.Stmt) : Takes Step (loopControl control) := by
  intro s
  apply TakesFrom.get
  split
  · exact .pure _
  · exact TakesFrom.bind (.changing (.dropStatement s)) fun _ => .pure _

theorem declareVariable_steps (settings : Settings) (type : Option TypeName) (value : Tree.Expr) :
    Takes Step (declareVariable settings type value) := by
  refine (expression_steps settings.seed value).bind fun result s => ?_
  apply TakesFrom.get
  exact .setting (.declare s 1) fun _ => .pure _

/-! ### Statements -/

mutual

/-- A statement is walked by steps. -/
theorem statement_steps (settings : Settings) : ∀ stmt, Takes Step (statement settings stmt)
  | .declare type value => by
      rw [statement]
      exact (declareVariable_steps settings type value).bind fun _ => .pure _
  | .assign target value => by
      rw [statement]
      exact (assign_spends settings.seed target value).steps.bind fun _ => .pure _
  | .ifThen cond body => by
      rw [statement]
      exact (expression_steps settings.seed cond).bind fun _ =>
        (Takes.braces _ (statements_steps settings body)).bind fun _ => .pure _
  | .store op location value => builtinStatement_steps settings.seed _ _
  | .block body => by
      rw [statement]
      exact (Takes.braces _ (statements_steps settings body)).bind fun _ => .pure _
  | .forLoop init cond post body => by
      rw [statement]
      apply Takes.inScope
      have opening : Takes Step (do
          if init.isEmpty then return Yul.Block.compact
          return Yul.Block.spread (← statements settings init)) := by
        split
        · exact .pure _
        · exact (statements_steps settings init).bind fun _ => .pure _
      exact opening.inLoopContext.bind fun _ => (expression_steps settings.seed cond).bind fun _ =>
        (Takes.braces _ (statements_steps settings post)).inLoopContext.bind fun _ =>
          (Takes.braces _ (statements_steps settings body)).inLoopContext.bind fun _ => .pure _
  | .boundedFor body => by
      rw [statement]
      apply Takes.inBoundedLoop
      intro depth
      exact (Takes.braces _ (statements_steps settings body)).inLoopContext.bind fun _ => .pure _
  | .switch scrutinee cases default => by
      rw [statement]
      split
      · exact .pure _
      · refine (expression_steps settings.seed scrutinee).bind fun _ =>
          (caseArms_steps settings cases).inSwitch.bind fun _ => ?_
        cases default with
        | none => exact .pure _
        | some body => exact (Takes.braces _ (statements_steps settings body)).bind fun _ => .pure _
  | .breakLoop => loopControl_steps _
  | .continueLoop => loopControl_steps _
  | .log position size topics => builtinStatement_steps settings.seed _ _
  | .copy region target source size => builtinStatement_steps settings.seed _ _
  | .extCodeCopy address target source size => builtinStatement_steps settings.seed _ _
  | .halt op => .pure _
  | .exit op position size => builtinStatement_steps settings.seed _ _
  | .selfDestruct address => builtinStatement_steps settings.seed _ _
  | .call usage selector args targets => by
      rw [statement]
      exact (callStatement_steps settings.seed usage selector args targets).bind fun _ => .pure _
  | .define inputs outputs body => by
      rw [statement]
      intro s
      apply TakesFrom.get
      split
      · exact TakesFrom.bind (.changing (.dropStatement s)) fun _ => .pure _
      · refine TakesFrom.get (.lift fun ⟨name, functions⟩ registered => ?_)
        refine .setting (.register registered) fun _ => (Takes.changing .define).bind fun _ => ?_
        refine (Takes.inFunctionBody ?_).bind fun _ => (callAfterDefinition_steps _ _ _).bind fun _ => .pure _
        exact (Takes.declare _).bind fun _ =>
          (Takes.braces _ (statements_steps settings body)).bind fun _ => .pure _
  | .pop value => builtinStatement_steps settings.seed _ _

/-- The statements of a block are walked by steps. -/
theorem statements_steps (settings : Settings) : ∀ body, Takes Step (statements settings body)
  | [] => .pure _
  | stmt :: rest => by
      rw [statements]
      exact (statement_steps settings stmt).bind fun _ => (statements_steps settings rest).bind fun _ => .pure _

/-- The cases of a switch are walked by steps. -/
theorem caseArms_steps (settings : Settings) : ∀ cases, Takes Step (caseArms settings cases)
  | [] => .pure _
  | (label, body) :: rest => by
      rw [caseArms]
      refine (literal_spends settings.seed label).steps.bind fun label =>
        (Takes.recordLabel _).bind fun isNew => ?_
      cases isNew with
      | false => exact (Takes.changing .dropCase).bind fun _ => caseArms_steps settings rest
      | true =>
          exact (Takes.braces _ (statements_steps settings body)).bind fun _ =>
            (caseArms_steps settings rest).bind fun _ => .pure _

end

end YulFuzz.Walk
