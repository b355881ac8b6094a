/-
Module: YulFuzz.Proofs.Lexical.Refinement
Purpose: The walk, which enters and leaves scopes, function bodies, switches and loops, does what the lexical
  translation does: at every point of the tree it finds the same variables and functions, and it generates
  the same text and counters. It never breaks a rule of the bookkeeping.
Main exports: Lexical.expression_keeps, Lexical.statement_moves, Lexical.generate_eq_translate
-/
import YulFuzz.Proofs.Lexical.Simulation
import YulFuzz.Proofs.Literals
import YulFuzz.Proofs.Targets

namespace YulFuzz.Lexical

open Walk (State)

variable {fr : Frame} {env : Env}

/-! ### What a walk reads -/

namespace Frame.Fits

theorem visible_eq (fits : fr.Fits env) (left : Nat) (t : Thread) :
    (fr.state left env t).vars.visible = .ok env.vars.length := by
  rw [fits.length_vars]
  exact if_pos fits.offset_le

theorem getElem?_vars (fits : fr.Fits env) {place : Nat} (bound : place < env.vars.length) :
    env.vars[place]? = some (fr.offset + place) := by
  rw [fits.length_vars] at bound
  rw [fits.vars, List.getElem?_range' bound, Nat.one_mul]

/-- The walk resolves a number to the variable that is visible lexically. -/
theorem resolve_eq (fits : fr.Fits env) (number : UInt32) (left : Nat) (t : Thread) :
    Walk.resolve number (fr.state left env t) = .ok (env.resolve number, fr.state left env t) := by
  have found : (fr.state left env t).vars.resolve number.toNat =
      .ok env.vars[number.toNat % env.vars.length]? := by
    unfold Variables.resolve
    rw [fits.visible_eq left t]
    change Except.ok (if env.vars.length = 0 then _ else _) = _
    congr 1
    split
    · rename_i none
      simp [List.length_eq_zero_iff.1 none]
    · rename_i some
      rw [fits.getElem?_vars (Nat.mod_lt _ (Nat.pos_of_ne_zero some))]
      rfl
  unfold Walk.resolve
  rw [bind_of_ok (a := fr.state left env t) (r := fr.state left env t) rfl,
    bind_of_ok (lift_of_ok found _)]
  rfl

theorem pick_eq (left : Nat) (t : Thread) (kind : FunctionKind) (selector : UInt32) :
    (fr.state left env t).functions.pick kind selector.toNat = env.pick kind selector := by
  change (if (env.callables.get kind).isEmpty then none else _) = _
  split
  · rename_i empty
    simp [Env.pick, List.isEmpty_iff.1 empty]
  · rfl

/-- Where no function of a kind is visible none is picked, so a guard on their number changes nothing. -/
theorem guarded_pick (left : Nat) (t : Thread) (kind : FunctionKind) (selector : UInt32) :
    (if !decide (0 < (fr.state left env t).functions.count kind) then (pure none : Walk (Option Callable))
      else pure ((fr.state left env t).functions.pick kind selector.toNat)) =
    pure (env.pick kind selector) := by
  rw [pick_eq, show (fr.state left env t).functions.count kind = (env.callables.get kind).length from rfl]
  cases candidates : env.callables.get kind with
  | nil => simp [Env.pick, candidates]
  | cons first others => rfl

/-- A function with several outputs has too many of them where no variable is visible. -/
theorem pickAssignable_of_no_vars (fits : fr.Fits env) (selector : UInt32) (noVars : env.vars = []) :
    env.pickAssignable selector = none := by
  rw [Env.pickAssignable, List.find?_eq_none]
  intro callable member
  have proper := fits.proper .multiReturn callable (List.mem_rotate.1 member)
  have several := proper.1.symm.trans proper.2.kind
  cases outputs : callable.outputs with
  | zero => simp [outputs, FunctionKind.ofOutputs] at several
  | succ => simp [noVars]

theorem pickMultiWithin_eq (left : Nat) (t : Thread) (selector : UInt32) :
    (fr.state left env t).functions.pickMultiWithin selector.toNat env.vars.length =
      env.pickAssignable selector := by
  change (if env.callables.multiReturn.isEmpty then none else _) = _
  rw [Env.pickAssignable, List.rotate_eq_drop_append_take_mod]
  split
  · rename_i empty
    simp [List.isEmpty_iff.1 empty]
  · rfl

/-- The walk and the lexical translation agree on what a call statement calls. The guard of the walk does
    not matter: where it fails, no function fits. -/
theorem callee?_eq (fits : fr.Fits env) (usage : Tree.CallUsage) (selector : UInt32) (left : Nat)
    (t : Thread) : Walk.callee? usage selector (fr.state left env t) =
      .ok (env.callee? usage selector, fr.state left env t) := by
  unfold Walk.callee?
  rw [bind_of_ok (a := fr.state left env t) (r := fr.state left env t) rfl,
    bind_of_ok (lift_of_ok (fits.visible_eq left t) _)]
  cases usage with
  | single => rfl
  | none => exact congrFun (guarded_pick left t .noReturn selector) _
  | multiDecl => exact congrFun (guarded_pick left t .multiReturn selector) _
  | multiAssign =>
      change (if !(decide (0 < env.vars.length) &&
          decide (0 < (fr.state left env t).functions.count .multiReturn)) then pure none else
        pure ((fr.state left env t).functions.pickMultiWithin selector.toNat env.vars.length) :
          Walk (Option Callable)) _ = .ok (env.pickAssignable selector, _)
      rw [pickMultiWithin_eq, show (fr.state left env t).functions.count .multiReturn =
        env.callables.multiReturn.length from rfl]
      cases vars : env.vars with
      | nil => rw [fits.pickAssignable_of_no_vars selector vars]; rfl
      | cons first others =>
          cases candidates : env.callables.multiReturn with
          | nil =>
              simp only [Env.pickAssignable, candidates]
              rfl
          | cons callee more => rfl

/-- With enough visible variables the walk assigns to the lexical targets. -/
theorem assignmentTargets_eq (fits : fr.Fits env) (requests : List UInt32) {wanted : Nat}
    (enough : wanted ≤ env.vars.length) (left : Nat) (t : Thread) :
    Walk.assignmentTargets requests wanted (fr.state left env t) =
      .ok ((env.targets requests [] 0 wanted).map .user, fr.state left env t) := by
  obtain ⟨slots, found⟩ := Walk.exists_assignmentSlots (requests.map UInt32.toNat) [] 0
    (show [].length + wanted ≤ env.vars.length by simpa using enough)
  have targets : env.targets requests [] 0 wanted = slots.map (fr.offset + ·) :=
    Env.targets_eq_map (fits.vars.trans (by rw [fits.length_vars])) requests found
  unfold Walk.assignmentTargets
  rw [bind_of_ok (a := fr.state left env t) (r := fr.state left env t) rfl,
    bind_of_ok (lift_of_ok (fits.visible_eq left t) _), if_neg (by omega), found, targets, List.map_map]
  rfl

end Frame.Fits

/-! ### Literals and expressions -/

theorem Keeps.map {α β : Type} {walk : Walk α} {part : Threaded α} (f : α → β)
    (keeps : Keeps fr env walk part) : Keeps fr env (f <$> walk) (f <$> part) := by
  change Keeps fr env (walk >>= fun a => Pure.pure (f a)) (part >>= fun a => Pure.pure (f a))
  exact keeps.bind fun _ => .pure _

theorem Moves.map {α β : Type} {walk : Walk α} {part : Threaded (α × Env)} (f : α → β)
    (moves : Moves fr env walk part) :
    Moves fr env (walk >>= fun a => Pure.pure (f a)) ((fun result => (f result.1, result.2)) <$> part) := by
  change Moves fr env _ (part >>= fun result => Pure.pure (f result.1, result.2))
  exact moves.bind fun _ => .pure _

theorem literal_keeps (seed : Seed) (node : Tree.Literal) :
    Keeps fr env (Walk.literal seed node) (literal seed node) := by
  cases node with
  | int value => exact .pure _
  | str raw => exact .pure _
  | unset => exact (Keeps.drawToken seed).bind fun _ => .pure _
  | hex raw =>
      simp only [Walk.literal, literal]
      cases digits : Walk.hexDigits raw with
      | nil =>
          apply ((Keeps.drawToken seed).map String.toList).bind
          intro t
          have short := Walk.length_evenly_le (seed.isToken_token t.drawn).length_le
          rw [map_run, drawToken_run, if_neg (Nat.not_lt.2 short)]
          exact .pure _
      | cons first others =>
          apply (Keeps.pure (first :: others)).bind
          intro _
          have short := Walk.length_evenly_le (Walk.length_hexDigits_le raw)
          rw [digits] at short
          rw [pure_run, if_neg (Nat.not_lt.2 short)]
          exact .pure _

mutual

/-- The walk of an expression does what the lexical translation does. -/
theorem expression_keeps (seed : Seed) (fits : fr.Fits env) :
    ∀ expr, Keeps fr env (Walk.expression seed expr) (expression seed env expr)
  | .varRef number => by
      rw [Walk.expression, expression]
      apply Keeps.read (fits.resolve_eq number)
      cases env.resolve number with
      | none => exact .tokenExpr seed
      | some found => exact .pure _
  | .literal node => (literal_keeps seed node).bind fun _ => .pure _
  | .binary op left right => by
      rw [Walk.expression, expression]
      exact (expression_keeps seed fits left).bind fun _ =>
        (expression_keeps seed fits right).bind fun _ => .pure _
  | .unary op operand => by
      rw [Walk.expression, expression]
      exact (expression_keeps seed fits operand).bind fun _ => .pure _
  | .ternary op first second third => by
      rw [Walk.expression, expression]
      exact (expression_keeps seed fits first).bind fun _ =>
        (expression_keeps seed fits second).bind fun _ =>
          (expression_keeps seed fits third).bind fun _ => .pure _
  | .nullary op => .pure _
  | .call usage selector args targets => by
      rw [Walk.expression, expression]
      apply Keeps.get
      intro left t
      rw [Frame.Fits.pick_eq]
      cases env.pick .singleReturn selector with
      | none => exact (Keeps.count _).bind fun _ => .tokenExpr seed
      | some callee =>
          exact (Keeps.count _).bind fun _ =>
            (arguments_keeps seed fits callee.inputs args).bind fun _ => .pure _
  | .unset => .tokenExpr seed

/-- The walk of arguments does what the lexical translation does. -/
theorem arguments_keeps (seed : Seed) (fits : fr.Fits env) :
    ∀ wanted args, Keeps fr env (Walk.arguments seed wanted args) (arguments seed env wanted args)
  | wanted, [] => by
      rw [Walk.arguments, arguments]
      exact .tokenExprs seed wanted
  | 0, _ :: _ => .pure _
  | wanted + 1, arg :: args => by
      rw [Walk.arguments, arguments]
      exact (expression_keeps seed fits arg).bind fun _ =>
        (arguments_keeps seed fits wanted args).bind fun _ => .pure _

end

theorem expressions_keeps (seed : Seed) (fits : fr.Fits env) (exprs : List Tree.Expr) :
    Keeps fr env (Walk.expressions seed exprs) (expressions seed env exprs) := by
  induction exprs with
  | nil => exact .pure _
  | cons expr rest ih => exact (expression_keeps seed fits expr).bind fun _ => ih.bind fun _ => .pure _

/-! ### Statements -/

theorem call_keeps (seed : Seed) (fits : fr.Fits env) (callee : Callable) (args : List Tree.Expr) :
    Keeps fr env (Walk.call seed callee args) (call seed env callee args) :=
  (Keeps.count _).bind fun _ => (arguments_keeps seed fits callee.inputs args).bind fun _ => .pure _

theorem callStatement_moves (seed : Seed) (fits : fr.Fits env) (usage : Tree.CallUsage)
    (selector : UInt32) (args : List Tree.Expr) (requests : List UInt32) :
    Moves fr env (Walk.callStatement seed usage selector args requests)
      (callStatement seed env usage selector args requests) := by
  unfold Walk.callStatement callStatement
  apply Moves.read (fits.callee?_eq usage selector)
  cases found : env.callee? usage selector with
  | none =>
      unfold Walk.callFallback
      exact (Keeps.count _).thenMoves fun _ => (Keeps.tokenExpr seed).thenMoves fun _ => .pure _
  | some callee =>
      cases usage with
      | none | single => exact (call_keeps seed fits callee args).thenMoves fun _ => .pure _
      | multiDecl =>
          exact (call_keeps seed fits callee args).thenMoves fun _ =>
            .declare_map callee.outputs _
      | multiAssign =>
          apply Moves.read (fits.assignmentTargets_eq requests (Env.outputs_le_of_pickAssignable found))
          exact (call_keeps seed fits callee args).thenMoves fun _ => .pure _

/-- The call after a definition leaves the scope of its results again. -/
theorem callAfterDefinition_keeps (name : FunctionName) (inputs outputs : Nat) :
    Keeps fr env (Walk.callAfterDefinition name inputs outputs)
      (callAfterDefinition env ⟨name, inputs, outputs⟩) := by
  unfold Walk.callAfterDefinition callAfterDefinition
  apply (Keeps.count _).bind
  intro _
  split
  · exact .pure _
  · exact (Moves.declare_map outputs _).inScope fun _ => .declare env outputs

theorem builtinStatement_moves (seed : Seed) (fits : fr.Fits env) (builtin : Builtin)
    (args : List Tree.Expr) :
    Moves fr env (Walk.builtinStatement seed builtin args) (builtinStatement seed env builtin args) :=
  (expressions_keeps seed fits args).thenMoves fun _ => .pure _

theorem loopControl_moves (control : Yul.Stmt) :
    Moves fr env (Walk.loopControl control) (loopControl env control) := by
  unfold Walk.loopControl loopControl
  apply Moves.get
  intro left t
  change Moves fr env (if env.inLoopBody = true then _ else _) _
  split
  · exact .pure _
  · exact (Keeps.count _).thenMoves fun _ => .pure _

/-- A declaration moves on to the environment with its variable. -/
theorem declareVariable_moves (settings : Settings) (fits : fr.Fits env) (type : Option TypeName)
    (value : Tree.Expr) :
    Moves fr env (Walk.declareVariable settings type value)
      ((fun stmt => (stmt, env.declare 1)) <$> declareVariable settings env type value) := by
  intro left t
  obtain ⟨last, here⟩ := expression_keeps settings.seed fits value left t
  refine ⟨last, ?_⟩
  unfold Walk.declareVariable
  rw [bind_of_ok here]
  rfl

theorem assign_keeps (seed : Seed) (fits : fr.Fits env) (target : UInt32) (value : Tree.Expr) :
    Keeps fr env (Walk.assign seed target value) (assign seed env target value) := by
  unfold Walk.assign assign
  apply Keeps.read (fits.resolve_eq target)
  cases env.resolve target with
  | none | some => exact (expression_keeps seed fits value).bind fun _ => .pure _

/-- The init block of a loop moves on to the environment of the loop. -/
theorem init_moves (settings : Settings) (init : List Tree.Stmt)
    (inside : Moves fr env (Walk.statements settings init) (statements settings env init)) :
    Moves fr env (do
        if init.isEmpty then return Yul.Block.compact
        return Yul.Block.spread (← Walk.statements settings init))
      ((fun result => (if init.isEmpty then .compact else .spread result.1, result.2)) <$>
        statements settings env init) := by
  cases init with
  | nil => exact .pure _
  | cons stmt rest => exact inside.map Yul.Block.spread

/-- The block for statements whose walk does what the lexical translation does. -/
theorem braces_keeps (settings : Settings) (body : List Tree.Stmt)
    (inside : Moves (fr.enterScope env) env (Walk.statements settings body) (statements settings env body)) :
    Keeps fr env (Walk.braces body.isEmpty (Walk.statements settings body))
      (braces body.isEmpty (statements settings env body)) :=
  .braces inside (statements_extends settings body env)

/-- The walk of a function body ends where it started: the parameters are declared inside. -/
theorem functionBody_keeps (settings : Settings) (proper : env.Proper) (name : FunctionName)
    (inputs outputs : Nat) (body : List Tree.Stmt)
    (inside : ∀ {fr : Frame} {env : Env}, fr.Fits env →
      Moves fr env (Walk.statements settings body) (statements settings env body)) :
    Keeps fr env
      (Walk.inFunctionBody do
        let parameters ← Walk.declare (inputs + outputs)
        let body ← Walk.braces body.isEmpty (Walk.statements settings body)
        return Yul.Stmt.function name (parameters.take inputs) (parameters.drop inputs) body)
      (Yul.Stmt.function name ((env.declared (inputs + outputs)).take inputs)
          ((env.declared (inputs + outputs)).drop inputs) <$>
        braces body.isEmpty (statements settings (env.inFunctionBody (inputs + outputs)) body)) := by
  have fits := Frame.Fits.inFunctionBody proper (fr.enterScope env) (inputs + outputs)
  have whole : Moves ((fr.enterScope env).enterFunction env) (env.inFunctionBody 0)
      (do
        let parameters ← Walk.declare (inputs + outputs)
        let body ← Walk.braces body.isEmpty (Walk.statements settings body)
        return Yul.Stmt.function name (parameters.take inputs) (parameters.drop inputs) body)
      (do
        let (parameters, after) ← pure ((env.inFunctionBody 0).declared (inputs + outputs),
          (env.inFunctionBody 0).declare (inputs + outputs))
        let body ← braces body.isEmpty (statements settings after body)
        return (.function name (parameters.take inputs) (parameters.drop inputs) body, after)) :=
    (Moves.declare _).bind fun _ =>
      (braces_keeps settings body (inside fits.enterScope)).thenMoves fun _ => .pure _
  exact Keeps.inFunctionBody whole fun _ => .declare _ _

/-- What follows the registration of a function keeps the environment in which it is defined. -/
theorem definition_moves (settings : Settings) (fits : fr.Fits env) (name : FunctionName)
    (inputs outputs : Nat) (body : List Tree.Stmt)
    (inside : ∀ {fr : Frame} {env : Env}, fr.Fits env →
      Moves fr env (Walk.statements settings body) (statements settings env body)) :
    Moves fr env (do
        Walk.count fun c => { c with functionsDefined := c.functionsDefined + 1 }
        let definition ← Walk.inFunctionBody do
          let parameters ← Walk.declare (inputs + outputs)
          let body ← Walk.braces body.isEmpty (Walk.statements settings body)
          return Yul.Stmt.function name (parameters.take inputs) (parameters.drop inputs) body
        let call ← Walk.callAfterDefinition name inputs outputs
        return [definition, call]) (do
        count fun c => { c with functionsDefined := c.functionsDefined + 1 }
        let parameters := env.declared (inputs + outputs)
        let definition ← Yul.Stmt.function name (parameters.take inputs) (parameters.drop inputs) <$>
          braces body.isEmpty (statements settings (env.inFunctionBody (inputs + outputs)) body)
        let call ← callAfterDefinition env ⟨name, inputs, outputs⟩
        return ([definition, call], env)) := by
  apply (Keeps.count _).thenMoves
  intro _
  apply (functionBody_keeps settings fits.proper _ _ _ body inside).thenMoves
  intro _
  exact (callAfterDefinition_keeps _ _ _).thenMoves fun _ => .pure _

mutual

/-- The walk of a statement does what the lexical translation does. -/
theorem statement_moves (settings : Settings) :
    ∀ (stmt : Tree.Stmt) {fr : Frame} {env : Env}, fr.Fits env →
      Moves fr env (Walk.statement settings stmt) (statement settings env stmt)
  | .declare type value, fr, env, fits => by
      rw [Walk.statement, statement]
      exact (declareVariable_moves settings fits type value).map fun stmt => [stmt]
  | .assign target value, fr, env, fits => by
      rw [Walk.statement, statement]
      exact (assign_keeps settings.seed fits target value).thenMoves fun _ => .pure _
  | .ifThen cond body, fr, env, fits => by
      rw [Walk.statement, statement]
      exact (expression_keeps settings.seed fits cond).thenMoves fun _ =>
        (braces_keeps settings body (statements_moves settings body fits.enterScope)).thenMoves fun _ =>
          .pure _
  | .store op location value, fr, env, fits => builtinStatement_moves settings.seed fits _ _
  | .block body, fr, env, fits => by
      rw [Walk.statement, statement]
      exact (braces_keeps settings body (statements_moves settings body fits.enterScope)).thenMoves fun _ =>
        .pure _
  | .forLoop init cond post body, fr, env, fits => by
      rw [Walk.statement, statement]
      have opening := init_moves settings init
        (statements_moves settings init (fits.enterScope.inLoopContext false true))
      have grows := statements_extends settings init (env.inLoopContext false true)
      have loop : Moves (fr.enterScope env) env (do
            let init ← Walk.inLoopContext false true do
              if init.isEmpty then return Yul.Block.compact
              return Yul.Block.spread (← Walk.statements settings init)
            let cond ← Walk.expression settings.seed cond
            let post ← Walk.inLoopContext false false
              (Walk.braces post.isEmpty (Walk.statements settings post))
            let body ← Walk.inLoopContext true false
              (Walk.braces body.isEmpty (Walk.statements settings body))
            return [Yul.Stmt.forLoop init cond post body]) (do
            let (init, inside) ←
              (fun result => (result.1, result.2.inLoopContext env.inLoopBody env.inLoopInit)) <$>
              (fun result => (if init.isEmpty then .compact else .spread result.1, result.2)) <$>
                statements settings (env.inLoopContext false true) init
            let cond ← expression settings.seed inside cond
            let post ← braces post.isEmpty (statements settings (inside.inLoopContext false false) post)
            let body ← braces body.isEmpty (statements settings (inside.inLoopContext true false) body)
            return ([Yul.Stmt.forLoop init cond post body], inside)) := by
        apply opening.inLoopContext.bind
        intro t
        have inside := fits.enterScope.extends_ (grows t).inLoopContext
        apply (expression_keeps settings.seed inside cond).thenMoves
        intro _
        refine (Keeps.inLoopContext (braces_keeps settings post ?_)).thenMoves fun _ => ?_
        · exact statements_moves settings post (inside.inLoopContext false false).enterScope
        refine (Keeps.inLoopContext (braces_keeps settings body ?_)).thenMoves fun _ => .pure _
        exact statements_moves settings body (inside.inLoopContext true false).enterScope
      exact (loop.inScope fun t => (grows t).inLoopContext).moves
  | .boundedFor body, fr, env, fits => by
      rw [Walk.statement, statement]
      have inside := braces_keeps settings body
        (statements_moves settings body fits.inBoundedLoop.enterScope)
      have loop : Keeps fr env (Walk.inBoundedLoop fun depth => do
            let body ← Walk.inLoopContext true false
              (Walk.braces body.isEmpty (Walk.statements settings body))
            return [Yul.Stmt.boundedFor depth body]) (do
            let body ← braces body.isEmpty (statements settings env.inBoundedLoop body)
            return [Yul.Stmt.boundedFor env.loopDepth body]) :=
        .inBoundedLoop (inside.inLoopContext.bind fun _ => .pure _)
      exact loop.moves
  | .switch scrutinee cases default, fr, env, fits => by
      rw [Walk.statement, statement]
      split
      · exact .pure _
      · apply (expression_keeps settings.seed fits scrutinee).thenMoves
        intro _
        apply (Keeps.inSwitch (caseArms_records settings cases (fits.withLabels []))).thenMoves
        intro _
        cases default with
        | none => exact .pure _
        | some body =>
            exact (braces_keeps settings body (statements_moves settings body fits.enterScope)).thenMoves
              fun _ => .pure _
  | .breakLoop, fr, env, fits => loopControl_moves _
  | .continueLoop, fr, env, fits => loopControl_moves _
  | .log position size topics, fr, env, fits => builtinStatement_moves settings.seed fits _ _
  | .copy region target source size, fr, env, fits => builtinStatement_moves settings.seed fits _ _
  | .extCodeCopy address target source size, fr, env, fits =>
      builtinStatement_moves settings.seed fits _ _
  | .halt op, fr, env, fits => .pure _
  | .exit op position size, fr, env, fits => builtinStatement_moves settings.seed fits _ _
  | .selfDestruct address, fr, env, fits => builtinStatement_moves settings.seed fits _ _
  | .call usage selector args targets, fr, env, fits => by
      rw [Walk.statement, statement]
      exact (callStatement_moves settings.seed fits usage selector args targets).bind fun _ => .pure _
  | .define inputs outputs body, fr, env, fits => by
      rw [Walk.statement, statement]
      apply Moves.get
      intro left t
      change Moves fr env (if env.inLoopInit = true then _ else _) _
      split
      · exact (Keeps.count _).thenMoves fun _ => .pure _
      · have proper (t : Thread) := proper_defined t inputs outputs
        dsimp only [Thread.defined] at proper
        generalize inputs.toNat % (maxArity + 1) = inputs at proper ⊢
        generalize outputs.toNat % (maxArity + 1) = outputs at proper ⊢
        intro left t
        have registered : (fr.state left env t).functions.register inputs outputs = .ok _ :=
          if_pos ⟨(proper t).inputs, (proper t).outputs⟩
        dsimp only
        rw [bind_of_ok (a := fr.state left env t) (r := fr.state left env t) rfl,
          bind_of_ok (lift_of_ok registered _)]
        have after := fits.extends_ (.define env (proper t))
        exact definition_moves settings after _ inputs outputs body (statements_moves settings body) left
          { t with next := t.next.modify (FunctionKind.ofOutputs outputs) (· + 1) }
  | .pop value, fr, env, fits => builtinStatement_moves settings.seed fits _ _

/-- The walk of the statements of a block does what the lexical translation does. -/
theorem statements_moves (settings : Settings) :
    ∀ (body : List Tree.Stmt) {fr : Frame} {env : Env}, fr.Fits env →
      Moves fr env (Walk.statements settings body) (statements settings env body)
  | [], fr, env, fits => .pure _
  | stmt :: rest, fr, env, fits => by
      rw [Walk.statements, statements]
      exact (statement_moves settings stmt fits).bind fun t =>
        (statements_moves settings rest (fits.extends_ (statement_extends settings env stmt t))).bind
          fun _ => .pure _

/-- The walk of the arms of a switch does what the lexical translation does. -/
theorem caseArms_records (settings : Settings) :
    ∀ (cases : List (Tree.Literal × List Tree.Stmt)) {fr : Frame} {env : Env}, fr.Fits env →
      Records fr env (Walk.caseArms settings cases) (caseArms settings env cases)
  | [], fr, env, fits => .pure _
  | (label, body) :: rest, fr, env, fits => by
      rw [Walk.caseArms, caseArms]
      apply (literal_keeps settings.seed label).thenRecords
      intro t
      apply Records.record
      · exact (Keeps.count _).thenRecords fun _ => caseArms_records settings rest fits
      · refine (braces_keeps settings body ?_).thenRecords fun _ => ?_
        · exact statements_moves settings body ((fits.withLabels _).enterSwitch _).enterScope
        · exact (caseArms_records settings rest (fits.withLabels _)).map _

end

/-! ### Whole programs -/

/-- The walk of a program gives the code of the lexical translation, and ends outside all scopes. -/
theorem walk_eq_program (settings : Settings) (tree : Tree.Program) :
    ∃ left, tree.walk settings =
      .ok ((program settings tree).1, ({} : Frame).state left {} (program settings tree).2) :=
  braces_keeps settings tree.block (statements_moves settings tree.block Frame.Fits.initial.enterScope) 0 {}

/-- Every program is generated, from the code and the state at the end of its walk. -/
theorem generate_eq_walk (settings : Settings) (tree : Tree.Program) :
    ∃ left, let final := ({} : Frame).state left {} (program settings tree).2
      tree.walk settings = .ok ((program settings tree).1, final) ∧
      tree.generate settings = .ok ⟨(program settings tree).1.render, .ofState final⟩ := by
  obtain ⟨left, walked⟩ := walk_eq_program settings tree
  refine ⟨left, walked, ?_⟩
  unfold Tree.Program.generate
  rw [walked]
  rfl

/-- Every program is generated, with the text of the code of the lexical translation. -/
theorem exists_generation (settings : Settings) (tree : Tree.Program) :
    ∃ g, tree.generate settings = .ok g ∧ g.yul = (program settings tree).1.render := by
  obtain ⟨left, _, generated⟩ := generate_eq_walk settings tree
  exact ⟨_, generated, rfl⟩

/-- What a lexical translation says about a generation: all but the counters of scopes. -/
def Translation.ofGeneration (g : Generation) : Translation where
  yul := g.yul
  functionsDefined := g.stats.functionsDefined
  callsEmitted := g.stats.callsEmitted
  callFallbacks := g.stats.callFallbacks
  casesDropped := g.stats.casesDropped
  statementsDropped := g.stats.statementsDropped
  dictionaryTokens := g.stats.dictionaryTokens

/-- Every program is generated as the lexical translation has it: with the same text and the same
    counters. -/
theorem generate_eq_translate (settings : Settings) (tree : Tree.Program) :
    Translation.ofGeneration <$> tree.generate settings = .ok (translate settings tree) := by
  obtain ⟨left, walked⟩ := walk_eq_program settings tree
  unfold Tree.Program.generate
  rw [walked]
  rfl

end YulFuzz.Lexical
