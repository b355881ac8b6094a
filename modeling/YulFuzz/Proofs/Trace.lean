/-
Module: YulFuzz.Proofs.Trace
Purpose: The points of a walk against the code that it makes. The code of each point occurs in the program;
  the statements of the program that control the flow are those made at the points, in their order; and what
  is counted as left out is what is left out at the points.
Main exports: Lexical.Traced, Lexical.statement_traced, Lexical.statements_traced, Lexical.program_traced
-/
import YulFuzz.Proofs.Grammar.Nesting
import YulFuzz.Proofs.Lexical.Parts
import YulFuzz.Proofs.Validity

namespace YulFuzz

open Grammar (stmtSyntax stmtsSyntax blockSyntax casesSyntax defaultSyntax allStmts controlsOf)
open Walk (Context Point)

/-- The statements made at a point, each with whether it is in the body of a loop. -/
def Walk.Point.made (settings : Settings) (p : Point) : List (Bool × Grammar.Stmt) :=
  (stmtsSyntax (p.code settings)).map (p.context.inLoop, ·)

/-- The cases left out at all of some points. -/
def Walk.casesDroppedAt (settings : Settings) (points : List Point) : Nat :=
  (points.map (Point.casesDropped settings)).sum

namespace Lexical

/-- The points of a part of a program, `code` being the program, `placed` the statements of the part and
    `cases` the number of cases that are left out of a switch around it. -/
structure Traced (settings : Settings) (code : List Grammar.Stmt) (placed : List (Bool × Grammar.Stmt))
    (points : List Point) (cases : Nat) (t t' : Thread) : Prop where
  stands : ∀ p ∈ points, Stands p
  occurs : ∀ p ∈ points, Grammar.Occurs (stmtsSyntax (p.code settings)) code
  controls : controlsOf placed = controlsOf (points.flatMap (Point.made settings))
  skipped : t'.counters.statementsDropped = t.counters.statementsDropped + points.countP Point.skips
  dropped : t'.counters.casesDropped = t.counters.casesDropped + (cases + Walk.casesDroppedAt settings points)
  grows : t.Grows t'

/-- The code of a statement, with the point in front of it and the points inside. -/
def TracedStmt (settings : Settings) (context : Context) (fr : Frame) (env : Env) (stmt : Tree.Stmt)
    (rest : List Tree.Stmt) (left : Nat) (t : Thread) : Prop :=
  Traced settings (stmtsSyntax (statement settings env stmt t).1.1)
    (allStmts context.inLoop (stmtsSyntax (statement settings env stmt t).1.1))
    (⟨context, stmt :: rest, fr.state left env t⟩ ::
      Walk.pointsIn settings context stmt (fr.state left env t))
    0 t (statement settings env stmt t).2

/-- The code of the statements of a block, with the points of the block. -/
def TracedBody (settings : Settings) (context : Context) (fr : Frame) (env : Env) (body : List Tree.Stmt)
    (left : Nat) (t : Thread) : Prop :=
  Traced settings (stmtsSyntax (statements settings env body t).1.1)
    (allStmts context.inLoop (stmtsSyntax (statements settings env body t).1.1))
    (Walk.points settings context body (fr.state left env t)) 0 t (statements settings env body t).2

variable {settings : Settings} {code other : List Grammar.Stmt} {placed more : List (Bool × Grammar.Stmt)}
  {points later : List Point} {cases others : Nat} {t t' last : Thread}

namespace Traced

/-- A part without points that leaves nothing out. -/
theorem none (draws : t.Draws t') (plain : controlsOf placed = []) :
    Traced settings code placed [] 0 t t' where
  stands := nofun
  occurs := nofun
  controls := plain
  skipped := draws.statementsDropped
  dropped := draws.casesDropped
  grows := draws.grows

/-- The inside of a simple statement. -/
theorem simple {stmt : Grammar.Stmt} (draws : t.Draws t') (simple : stmt.isSimple = true) (inLoop : Bool) :
    Traced settings code (stmt.inside inLoop) [] 0 t t' :=
  .none draws (congrArg controlsOf (Grammar.Stmt.inside_of_isSimple simple inLoop))

theorem append (first : Traced settings code placed points cases t t')
    (second : Traced settings code more later others t' last) :
    Traced settings code (placed ++ more) (points ++ later) (cases + others) t last where
  stands := List.forall_mem_append.2 ⟨first.stands, second.stands⟩
  occurs := List.forall_mem_append.2 ⟨first.occurs, second.occurs⟩
  controls := by simp [first.controls, second.controls]
  skipped := by
    rw [second.skipped, first.skipped, List.countP_append]
    omega
  dropped := by
    rw [second.dropped, first.dropped]
    simp only [Walk.casesDroppedAt, List.map_append, List.sum_append]
    omega
  grows := first.grows.trans second.grows

/-- In front of the part nothing is left out. -/
theorem since (part : Traced settings code placed points cases t' last)
    (skipped : t'.counters.statementsDropped = t.counters.statementsDropped)
    (dropped : t'.counters.casesDropped = t.counters.casesDropped) (grows : t.Grows t') :
    Traced settings code placed points cases t last :=
  { part with
    skipped := by rw [part.skipped, skipped]
    dropped := by rw [part.dropped, dropped]
    grows := grows.trans part.grows }

/-- Tokens are drawn in front of the part. -/
theorem after (draws : t.Draws t') (part : Traced settings code placed points cases t' last) :
    Traced settings code placed points cases t last :=
  part.since draws.statementsDropped draws.casesDropped draws.grows

/-- A case is left out in front of the part. -/
theorem dropCase (part : Traced settings code placed points cases t.dropCase last) :
    Traced settings code placed points (cases + 1) t last :=
  { part with
    dropped := by
      rw [part.dropped]
      simp only [Thread.dropCase]
      omega
    grows := (Thread.Grows.dropCase t).trans part.grows }

/-- Tokens are drawn behind the part. -/
theorem before (part : Traced settings code placed points cases t t') (draws : t'.Draws last) :
    Traced settings code placed points cases t last :=
  { part with
    skipped := by rw [draws.statementsDropped, part.skipped]
    dropped := by rw [draws.casesDropped, part.dropped]
    grows := part.grows.trans draws.grows }

/-- The part is in a block of a statement of the program. -/
theorem inside {stmt : Grammar.Stmt} (part : Traced settings code placed points cases t t')
    (has : stmt.HasBlock code) (member : stmt ∈ other) : Traced settings other placed points cases t t' :=
  { part with occurs := fun p here => (part.occurs p here).inside has member }

/-- The part is in a piece of the program. -/
theorem mono (part : Traced settings code placed points cases t t') (piece : code <:+: other) :
    Traced settings other placed points cases t t' :=
  { part with occurs := fun p here => (part.occurs p here).mono piece }

/-- Statements that do not control the flow do not matter. -/
theorem congr (part : Traced settings code placed points cases t t')
    (same : controlsOf more = controlsOf placed) : Traced settings code more points cases t t' :=
  { part with controls := same.trans part.controls }

end Traced

/-! ### Points -/

section Point

variable {context : Context} {fr : Frame} {env : Env} {stmt : Tree.Stmt} {rest : List Tree.Stmt} {left : Nat}

/-- The end of a block is a point where nothing is made. -/
theorem Traced.atEnd (site : Site context fr env) :
    Traced settings [] [] [⟨context, [], fr.state left env t⟩] 0 t t where
  stands := by
    intro p member
    obtain rfl := List.mem_singleton.1 member
    exact .of site _ left t
  occurs := by
    intro p member
    obtain rfl := List.mem_singleton.1 member
    exact .refl []
  controls := rfl
  skipped := rfl
  dropped := rfl
  grows := .refl t

/-- A point and the points inside its statement. -/
theorem Traced.node (site : Site context fr env) (placed : List (Bool × Grammar.Stmt))
    (allowed : context.forbids stmt = false)
    (inside : Traced settings (stmtsSyntax (statement settings env stmt t).1.1) placed
      (Walk.pointsIn settings context stmt (fr.state left env t))
      (Point.casesDropped settings ⟨context, stmt :: rest, fr.state left env t⟩)
      t (statement settings env stmt t).2)
    (front : controlsOf (allStmts context.inLoop (stmtsSyntax (statement settings env stmt t).1.1)) =
      controlsOf ((stmtsSyntax (statement settings env stmt t).1.1).map (context.inLoop, ·)) ++
        controlsOf placed) :
    TracedStmt settings context fr env stmt rest left t where
  stands := by
    refine List.forall_mem_cons.2 ⟨?_, inside.stands⟩
    exact .of site _ left t
  occurs := by
    refine List.forall_mem_cons.2 ⟨?_, inside.occurs⟩
    rw [site.code_eq]
    exact .refl _
  controls := by
    rw [front, inside.controls, List.flatMap_cons, Grammar.controlsOf_append, Point.made, site.code_eq]
  skipped := by
    have here : ¬ Point.skips ⟨context, stmt :: rest, fr.state left env t⟩ = true := by
      simp [Point.skips, allowed]
    rw [inside.skipped, List.countP_cons_of_neg here]
  dropped := by
    rw [inside.dropped]
    simp only [Walk.casesDroppedAt, List.map_cons, List.sum_cons]
    omega
  grows := inside.grows

/-- The statement at a point becomes one statement. -/
theorem Traced.one (site : Site context fr env) (made : Grammar.Stmt)
    (code : stmtsSyntax (statement settings env stmt t).1.1 = [made])
    (allowed : context.forbids stmt = false)
    (inside : Traced settings [made] (made.inside context.inLoop)
      (Walk.pointsIn settings context stmt (fr.state left env t))
      (Point.casesDropped settings ⟨context, stmt :: rest, fr.state left env t⟩)
      t (statement settings env stmt t).2) :
    TracedStmt settings context fr env stmt rest left t := by
  rw [← code] at inside
  apply Traced.node site _ allowed inside
  rw [code, allStmts, Grammar.controlsOf_cons, allStmts, List.append_nil]
  rfl

/-- A statement that may not stand at a point is left out, with all that is in it. -/
theorem Traced.skip (site : Site context fr env) (forbidden : context.forbids stmt = true)
    (code : (statement settings env stmt t).1.1 = [])
    (inside : Walk.pointsIn settings context stmt (fr.state left env t) = [])
    (cases : Point.casesDropped settings ⟨context, stmt :: rest, fr.state left env t⟩ = 0)
    (counted : (statement settings env stmt t).2 = t.dropStatement) :
    TracedStmt settings context fr env stmt rest left t := by
  rw [TracedStmt, code, inside, counted]
  constructor
  case stands =>
    intro p member
    obtain rfl := List.mem_singleton.1 member
    exact .of site _ left t
  case occurs =>
    intro p member
    obtain rfl := List.mem_singleton.1 member
    rw [site.code_eq, code]
    exact .refl []
  case controls =>
    rw [List.flatMap_cons, Point.made, site.code_eq, code]
    rfl
  case skipped =>
    have here : Point.skips ⟨context, stmt :: rest, fr.state left env t⟩ = true := by
      simp [Point.skips, forbidden]
    rw [List.countP_cons_of_pos here]
    rfl
  case dropped => simp [Walk.casesDroppedAt, cases, Thread.dropStatement]
  case grows => exact ⟨Nat.le_refl _, fun _ => Nat.le_refl _⟩

/-- Loop control stands in the bodies of loops and is left out elsewhere. -/
theorem loopControl_traced (site : Site context fr env) {control : Yul.Stmt}
    (forbids : context.forbids stmt = !context.inLoop)
    (plain : (stmtSyntax control).inside context.inLoop = [])
    (inside : Walk.pointsIn settings context stmt (fr.state left env t) = [])
    (cases : Point.casesDropped settings ⟨context, stmt :: rest, fr.state left env t⟩ = 0)
    (run : statement settings env stmt = loopControl env control) :
    TracedStmt settings context fr env stmt rest left t := by
  have allows := site.inLoopBody
  cases inLoop : context.inLoop with
  | true =>
      have made : loopControl env control t = (([control], env), t) := by
        unfold loopControl
        rw [if_pos (allows.trans inLoop)]
        rfl
      apply Traced.one site (stmtSyntax control)
      · rw [run, made]
        rfl
      · rw [forbids, inLoop]
        rfl
      · rw [inside, cases, run, made, plain]
        exact .none (.refl t) rfl
  | false =>
      have made : loopControl env control t = (([], env), t.dropStatement) := by
        unfold loopControl
        rw [if_neg (by simp [allows, inLoop])]
        rfl
      apply Traced.skip site
      · rw [forbids, inLoop]
        rfl
      · rw [run, made]
      · exact inside
      · exact cases
      · rw [run, made]

/-! ### Blocks -/

/-- The points of a block are those of its statements, in a scope of their own. -/
theorem braces_traced (site : Site context fr env) (body : List Tree.Stmt) (left : Nat) (t : Thread)
    (inside : Site context (fr.enterScope env) env →
      TracedBody settings context (fr.enterScope env) env body left t) :
    Traced settings (blockSyntax (braces body.isEmpty (statements settings env body) t).1)
      (allStmts context.inLoop (blockSyntax (braces body.isEmpty (statements settings env body) t).1))
      (Walk.inBlock body.isEmpty (Walk.points settings context body) (fr.state left env t))
      0 t (braces body.isEmpty (statements settings env body) t).2 := by
  cases body with
  | nil => exact .none (.refl t) rfl
  | cons stmt others => exact inside site.enterScope

end Point

/-! ### Statements -/

theorem letSyntax_isSimple (var : Yul.Var) (ascription : Option Yul.Ascription) (value : Yul.Expr) :
    (Grammar.letSyntax var ascription value).isSimple = true := by
  cases ascription <;> rfl

theorem assign_isSimple (seed : Seed) (env : Env) (target : UInt32) (value : Tree.Expr) (t : Thread) :
    (stmtSyntax (assign seed env target value t).1).isSimple = true := by
  simp only [assign, bind_run]
  cases env.resolve target <;> rfl

theorem callStatement_isSimple (seed : Seed) (env : Env) (usage : Tree.CallUsage) (selector : UInt32)
    (args : List Tree.Expr) (requests : List UInt32) (t : Thread) :
    (stmtSyntax (callStatement seed env usage selector args requests t).1.1).isSimple = true := by
  unfold callStatement
  cases env.callee? usage selector with
  | none => rfl
  | some callee => cases usage <;> rfl

theorem controls_stores (inLoop : Bool) (vars : List Yul.Var) :
    controlsOf (allStmts inLoop (stmtsSyntax (stores vars))) = [] := by
  rw [Grammar.stmtsSyntax_eq_map, stores, List.map_map]
  induction vars.zipIdx with
  | nil => rfl
  | cons var rest ih => exact ih

section Statement

variable {context : Context} {fr : Frame} {env : Env} {rest : List Tree.Stmt}

theorem builtinStatement_traced {stmt : Tree.Stmt} (site : Site context fr env) (builtin : Builtin)
    (args : List Tree.Expr) (allowed : context.forbids stmt = false) (left : Nat) (t : Thread)
    (inside : Walk.pointsIn settings context stmt (fr.state left env t) = [])
    (cases : Point.casesDropped settings ⟨context, stmt :: rest, fr.state left env t⟩ = 0)
    (run : statement settings env stmt = builtinStatement settings.seed env builtin args) :
    TracedStmt settings context fr env stmt rest left t := by
  apply Traced.one site (stmtSyntax (.builtin builtin (expressions settings.seed env args t).1))
  · rw [run]
    rfl
  · exact allowed
  · rw [inside, cases, run]
    exact .none (expressions_draws settings.seed env args t) rfl

/-- The call after a definition does not control the flow. -/
theorem callAfterDefinition_controls (env : Env) (callable : Callable) (inLoop : Bool) (t : Thread) :
    controlsOf [(inLoop, stmtSyntax (callAfterDefinition env callable t).1)] = [] ∧
      controlsOf ((stmtSyntax (callAfterDefinition env callable t).1).inside inLoop) = [] := by
  rw [callAfterDefinition_run]
  split
  · exact ⟨rfl, rfl⟩
  · exact ⟨rfl, controls_stores inLoop (env.declared callable.outputs)⟩

end Statement

mutual

/-- A statement: the point in front of it, and the points inside. -/
theorem statement_traced (settings : Settings) : ∀ (stmt : Tree.Stmt) {context : Context} {fr : Frame}
    {env : Env} (rest : List Tree.Stmt) (left : Nat) (t : Thread), Site context fr env →
    TracedStmt settings context fr env stmt rest left t
  | .declare type value, context, fr, env, rest, left, t, site => by
      apply Traced.one site _ rfl rfl
      exact .simple (expression_draws settings.seed env value t) (letSyntax_isSimple ..) context.inLoop
  | .assign target value, context, fr, env, rest, left, t, site => by
      apply Traced.one site _ rfl rfl
      exact .simple (assign_draws settings.seed env target value t) (assign_isSimple ..) context.inLoop
  | .ifThen cond body, context, fr, env, rest, left, t, site => by
      apply Traced.one site (.ifThen _ _) rfl rfl
      obtain ⟨middle, tested⟩ := (expression_keeps settings.seed site.fits cond).after left t
      rw [Walk.pointsIn, tested]
      have block := braces_traced site body middle (expression settings.seed env cond t).2
        (statements_traced settings body _ _)
      refine .after (expression_draws settings.seed env cond t) (block.inside ?_ List.mem_cons_self)
      rfl
  | .store op location value, context, fr, env, rest, left, t, site =>
      builtinStatement_traced site (.store op) _ rfl left t rfl rfl rfl
  | .block body, context, fr, env, rest, left, t, site => by
      apply Traced.one site (.block _) rfl rfl
      have block := braces_traced site body left t (statements_traced settings body _ _)
      refine block.inside ?_ List.mem_cons_self
      rfl
  | .forLoop init cond post body, context, fr, env, rest, left, t, site => by
      apply Traced.one site (.forLoop _ _ _ _) rfl rfl
      obtain ⟨second, third, parts⟩ := pointsIn_forLoop settings site init cond post body left t
      rw [parts]
      let opening := statements settings (env.inLoopContext false true) init t
      let inside := opening.1.2.inLoopContext env.inLoopBody env.inLoopInit
      let tested := (expression settings.seed inside cond opening.2).2
      let stepped := (braces post.isEmpty (statements settings (inside.inLoopContext false false) post) tested).2
      have grows := statements_extends settings init (env.inLoopContext false true) t
      have around : Site context (fr.enterScope env) inside := site.enterScope.extends_ grows.inLoopContext
      have initPart := statements_traced settings init left t (site.enterScope.inLoopContext .loopInit nofun)
      have postPart := braces_traced (around.inLoopContext .loopPost nofun) post second tested
        (statements_traced settings post _ _)
      have bodyPart := braces_traced (around.inLoopContext .loopBody nofun) body third stepped
        (statements_traced settings body _ _)
      rw [TracedBody, ← Grammar.blockSyntax_opening init (fun init => (statements settings _ init t).1.1) rfl]
        at initPart
      -- The condition is tested behind the init block, but nothing inside of it is a point.
      refine .append (.inside initPart ?_ List.mem_cons_self)
        (.after (expression_draws settings.seed inside cond opening.2)
          (.append (.inside postPart ?_ List.mem_cons_self) (.inside bodyPart ?_ List.mem_cons_self)))
      · exact .inl rfl
      · exact .inr (.inl rfl)
      · exact .inr (.inr rfl)
  | .boundedFor body, context, fr, env, rest, left, t, site => by
      apply Traced.one site (.forLoop _ _ _ _) rfl rfl
      have block := braces_traced site.inBoundedLoop body left t (statements_traced settings body _ _)
      -- The init and post block of the counter declare and assign only, so they do not matter.
      refine Traced.congr (block.inside ?_ List.mem_cons_self) rfl
      exact .inr (.inr rfl)
  | .switch scrutinee cases default, context, fr, env, rest, left, t, site => by
      by_cases empty : (cases.isEmpty && default.isNone) = true
      · obtain ⟨noCases, noDefault⟩ : cases = [] ∧ default = none := by simpa using empty
        subst noCases noDefault
        exact .node site [] rfl (.none (.refl t) rfl) rfl
      · let tested := (expression settings.seed env scrutinee t).2
        let chosen := (caseArms settings (env.withLabels []) cases tested).2
        obtain ⟨second, third, parts, visits⟩ :=
          pointsIn_switch settings site scrutinee cases default rest left t
        have run := statement_switch settings env scrutinee empty t
        let made := stmtSyntax (.switch (expression settings.seed env scrutinee t).1
          (caseArms settings (env.withLabels []) cases tested).1 (defaultArm settings env default chosen).1)
        have here : made ∈ [made] := List.mem_cons_self
        have arms := cases_traced settings cases second tested (site.withLabels []) here
          fun arm member => .inl (List.mem_map_of_mem member)
        have last := default_traced settings default third chosen site here fun block same => .inr same
        apply Traced.one site made
        · rw [run]
          rfl
        · rfl
        · rw [parts, Point.casesDropped, visits, run]
          exact (arms.append last).after (expression_draws settings.seed env scrutinee t)
  | .breakLoop, context, fr, env, rest, left, t, site => loopControl_traced site rfl rfl rfl rfl rfl
  | .continueLoop, context, fr, env, rest, left, t, site => loopControl_traced site rfl rfl rfl rfl rfl
  | .log position size topics, context, fr, env, rest, left, t, site =>
      builtinStatement_traced site (.log _) _ rfl left t rfl rfl rfl
  | .copy region target source size, context, fr, env, rest, left, t, site =>
      builtinStatement_traced site (.copy region) _ rfl left t rfl rfl rfl
  | .extCodeCopy address target source size, context, fr, env, rest, left, t, site =>
      builtinStatement_traced site .extcodecopy _ rfl left t rfl rfl rfl
  | .halt op, context, fr, env, rest, left, t, site =>
      .one site _ rfl rfl (.none (.refl t) rfl)
  | .exit op position size, context, fr, env, rest, left, t, site =>
      builtinStatement_traced site (.exit op) _ rfl left t rfl rfl rfl
  | .selfDestruct address, context, fr, env, rest, left, t, site =>
      builtinStatement_traced site .selfdestruct _ rfl left t rfl rfl rfl
  | .call usage selector args targets, context, fr, env, rest, left, t, site => by
      apply Traced.one site _ rfl rfl
      exact .simple (callStatement_draws settings.seed env usage selector args targets t)
        (callStatement_isSimple ..) context.inLoop
  | .define inputs outputs body, context, fr, env, rest, left, t, site => by
      have allows := site.inLoopInit
      by_cases forbidden : context = .loopInit
      · have inInit : env.inLoopInit = true := by simp [allows, forbidden]
        have run := statement_define_forbidden settings inInit inputs outputs body t
        apply Traced.skip site
        · simp [Context.forbids, forbidden]
        · rw [run]
        · exact pointsIn_define_forbidden settings fr inInit context inputs outputs body left t
        · rfl
        · rw [run]
      · have notInInit : ¬ env.inLoopInit = true := by simp [allows, forbidden]
        let callable := t.defined inputs outputs
        let after := env.define callable
        have inside := (site.extends_ (.define env (proper_defined t inputs outputs))).inFunctionBody
          (callable.inputs + callable.outputs)
        let start := t.define callable.name.kind
        let block := braces body.isEmpty
          (statements settings (after.inFunctionBody (callable.inputs + callable.outputs)) body) start
        have parts := pointsIn_define settings fr notInInit context inputs outputs body left t
        have traced := braces_traced inside body left start (statements_traced settings body _ _)
        let parameters := env.declared (callable.inputs + callable.outputs)
        let made := stmtSyntax (.function callable.name (parameters.take callable.inputs)
          (parameters.drop callable.inputs) block.1)
        let called := callAfterDefinition after callable block.2
        have run := statement_define settings notInInit inputs outputs body t
        apply Traced.node site (made.inside context.inLoop)
        · simp [Context.forbids, forbidden]
        · rw [parts, run]
          -- The index is taken in front of the body, and the call is made behind it.
          have draws := callAfterDefinition_draws after callable block.2
          have whole : Traced settings _ _ _ _ t called.2 :=
            (traced.before draws).since rfl rfl (.define t callable.name.kind)
          refine whole.inside ?_ List.mem_cons_self
          rfl
        · obtain ⟨callPlain, insidePlain⟩ :=
            callAfterDefinition_controls after callable context.inLoop block.2
          rw [run]
          exact Grammar.controlsOf_pair callPlain insidePlain
  | .pop value, context, fr, env, rest, left, t, site =>
      builtinStatement_traced site .pop _ rfl left t rfl rfl rfl

/-- The rest of a block. -/
theorem statements_traced (settings : Settings) : ∀ (body : List Tree.Stmt) {context : Context} {fr : Frame}
    {env : Env} (left : Nat) (t : Thread), Site context fr env →
    TracedBody settings context fr env body left t
  | [], context, fr, env, left, t, site => .atEnd site
  | stmt :: rest, context, fr, env, left, t, site => by
      obtain ⟨middle, moved⟩ := (statement_moves settings stmt site.fits).after left t
      have first := statement_traced settings stmt rest left t site
      have others := statements_traced settings rest middle (statement settings env stmt t).2
        (site.extends_ (statement_extends settings env stmt t))
      let made := statement settings env stmt t
      have code : (statements settings env (stmt :: rest) t).1.1 =
        made.1.1 ++ (statements settings made.1.2 rest made.2).1.1 := rfl
      rw [TracedBody, Walk.points, moved, code, Grammar.stmtsSyntax_append, Grammar.allStmts_append]
      exact .append (first.mono (List.prefix_append _ _).isInfix)
        (others.mono (List.suffix_append _ _).isInfix)

/-- The cases of a switch, `made` being the switch, which is in the program. -/
theorem cases_traced (settings : Settings) : ∀ (cases : List (Tree.Literal × List Tree.Stmt))
    {context : Context} {fr : Frame} {env : Env} {made : Grammar.Stmt} {code : List Grammar.Stmt} (left : Nat)
    (t : Thread), Site context fr env → made ∈ code →
    (∀ arm ∈ casesSyntax (caseArms settings env cases t).1, made.HasBlock arm.2) →
    Traced settings code (Grammar.caseStmts context.inLoop (casesSyntax (caseArms settings env cases t).1))
      (Walk.pointsInCases settings context cases ((fr.enterSwitch env.labels).state left env t))
      ((Walk.casesFrom settings cases ((fr.enterSwitch env.labels).state left env t)).countP (·.block.isNone))
      t (caseArms settings env cases t).2
  | [], context, fr, env, made, code, left, t, site, member, has => .none (.refl t) rfl
  | (label, body) :: rest, context, fr, env, made, code, left, t, site, member, has => by
      have draws := literal_draws settings.seed label t
      by_cases known : (literal settings.seed label t).1.word ∈ env.labels
      · -- The label may have drawn a token all the same.
        obtain ⟨right, visits, parts⟩ := cases_known settings known body rest left
        rw [caseArms_known settings known body rest] at has ⊢
        rw [visits, parts, List.countP_cons_of_pos rfl]
        have others := cases_traced settings rest right _ site member has
        exact others.dropCase.after draws
      · obtain ⟨middle, right, visits, parts⟩ := cases_new settings site.fits known body rest left
        let seen := (literal settings.seed label t).1.word :: env.labels
        let block := braces body.isEmpty (statements settings (env.withLabels seen) body)
          (literal settings.seed label t).2
        rw [caseArms_new settings known body rest] at has ⊢
        rw [visits, parts]
        have inside := (site.withLabels seen).enterSwitch seen
        have first := braces_traced inside body middle (literal settings.seed label t).2
          (statements_traced settings body _ _)
        have others := cases_traced settings rest right block.2 (site.withLabels seen) member
          fun arm later => has arm (List.mem_cons_of_mem _ later)
        rw [List.countP_cons_of_neg (by simp), ← Nat.zero_add (List.countP _ _)]
        exact .after draws ((first.inside (has _ List.mem_cons_self) member).append others)

/-- The arm of a switch without a label. -/
theorem default_traced (settings : Settings) : ∀ (default : Option (List Tree.Stmt))
    {context : Context} {fr : Frame} {env : Env} {made : Grammar.Stmt} {code : List Grammar.Stmt} (left : Nat)
    (t : Thread), Site context fr env → made ∈ code →
    (∀ block, defaultSyntax (defaultArm settings env default t).1 = some block → made.HasBlock block) →
    Traced settings code
      (Grammar.defaultStmts context.inLoop (defaultSyntax (defaultArm settings env default t).1))
      (Walk.pointsInDefault settings context default (fr.state left env t)) 0 t
      (defaultArm settings env default t).2
  | none, context, fr, env, made, code, left, t, site, member, has => .none (.refl t) rfl
  | some body, context, fr, env, made, code, left, t, site, member, has => by
      have block := braces_traced site body left t (statements_traced settings body _ _)
      exact block.inside (has _ rfl) member

end

/-- The points of a whole program. -/
theorem program_traced (settings : Settings) (tree : Tree.Program) :
    Traced settings (blockSyntax (program settings tree).1)
      (allStmts false (blockSyntax (program settings tree).1)) (tree.points settings) 0 {}
      (program settings tree).2 :=
  braces_traced .initial tree.block 0 {} (statements_traced settings tree.block _ _)

/-- A generation is read as the code of the walk, and counts what is left out at the points. -/
theorem exists_counted_reading (settings : Settings) (tree : Tree.Program) :
    ∃ g, tree.generate settings = .ok g ∧ g.yul = (program settings tree).1.render ∧
      Grammar.read g.yul = some (blockSyntax (program settings tree).1) ∧
      g.stats.statementsDropped = (tree.points settings).countP Point.skips ∧
      g.stats.casesDropped = Walk.casesDroppedAt settings (tree.points settings) := by
  have traced := program_traced settings tree
  obtain ⟨left, _, generated⟩ := generate_eq_walk settings tree
  refine ⟨_, generated, rfl, Grammar.read_render (program_valid settings tree), ?_, ?_⟩
  · exact traced.skipped.trans (Nat.zero_add _)
  · have dropped := traced.dropped
    rw [Nat.zero_add] at dropped
    exact dropped.trans (Nat.zero_add _)

/-- At all points of a program the state is one for a frame and an environment. -/
theorem program_stands (settings : Settings) (tree : Tree.Program) : ∀ p ∈ tree.points settings, Stands p :=
  (program_traced settings tree).stands

end Lexical

/-! ### What is made at a point -/

/-- Whether the statement becomes one of the kind given; only statements that control the flow count. -/
def Tree.Stmt.makes : Tree.Stmt → Grammar.Stmt → Bool
  | .ifThen _ _, .ifThen _ _ => true
  | .forLoop _ _ _ _, .forLoop _ _ _ _ => true
  | .boundedFor _, .forLoop _ _ _ _ => true
  | .switch _ _ _, .switch _ _ _ => true
  | .breakLoop, .breakLoop => true
  | .continueLoop, .continueLoop => true
  | .define _ _ _, .function _ _ _ _ => true
  | _, _ => false

namespace Lexical

variable {settings : Settings} {stmt : Tree.Stmt} {env : Env}

theorem makes_plain {code : List Yul.Stmt} {single : Grammar.Stmt} (one : stmtsSyntax code = [single])
    (plain : single.isControl = false) :
    ∀ made ∈ stmtsSyntax code, made.isControl = true → stmt.makes made = true := by
  intro made member control
  rw [one, List.mem_singleton] at member
  subst member
  rw [plain] at control
  cases control

theorem makes_simple {code : List Yul.Stmt} {single : Grammar.Stmt} (one : stmtsSyntax code = [single])
    (simple : single.isSimple = true) :
    ∀ made ∈ stmtsSyntax code, made.isControl = true → stmt.makes made = true :=
  makes_plain one (Grammar.Stmt.isControl_of_isSimple simple)

theorem makes_loopControl {control : Yul.Stmt} (makes : stmt.makes (stmtSyntax control) = true) (t : Thread) :
    ∀ made ∈ stmtsSyntax (loopControl env control t).1.1, made.isControl = true → stmt.makes made = true := by
  unfold loopControl
  split
  · exact List.forall_mem_singleton.2 fun _ => makes
  · exact List.forall_mem_nil _

theorem isControl_callAfterDefinition (env : Env) (callable : Callable) (t : Thread) :
    (stmtSyntax (callAfterDefinition env callable t).1).isControl = false := by
  rw [callAfterDefinition_run]
  split <;> rfl

/-- A statement that controls the flow is made by a statement of its own kind. -/
theorem statement_makes (settings : Settings) (env : Env) (stmt : Tree.Stmt) (t : Thread) :
    ∀ made ∈ stmtsSyntax (statement settings env stmt t).1.1, made.isControl = true →
      stmt.makes made = true := by
  cases stmt with
  | declare type value => exact makes_simple rfl (letSyntax_isSimple ..)
  | assign target value => exact makes_simple rfl (assign_isSimple settings.seed env target value t)
  | call usage selector args targets =>
      exact makes_simple rfl (callStatement_isSimple settings.seed env usage selector args targets t)
  | switch scrutinee cases default =>
      by_cases empty : (cases.isEmpty && default.isNone) = true
      · rw [statement, if_pos empty]
        exact List.forall_mem_nil _
      · rw [statement_switch settings env scrutinee empty]
        exact List.forall_mem_singleton.2 fun _ => rfl
  | define inputs outputs body =>
      by_cases forbidden : env.inLoopInit = true
      · rw [statement_define_forbidden settings forbidden]
        exact List.forall_mem_nil _
      · rw [statement_define settings forbidden]
        have call := isControl_callAfterDefinition (env.define (t.defined inputs outputs))
          (t.defined inputs outputs)
        exact List.forall_mem_cons.2 ⟨fun _ => rfl, makes_plain rfl (call _)⟩
  | breakLoop | continueLoop => exact makes_loopControl rfl t
  | ifThen | forLoop | boundedFor => exact List.forall_mem_singleton.2 fun _ => rfl
  | store | block | log | copy | extCodeCopy | halt | exit | selfDestruct | pop =>
      exact List.forall_mem_singleton.2 nofun

/-- What is made at a site controls the flow only as the statement there does. -/
theorem Site.makes {context : Context} {fr : Frame} (site : Site context fr env) (settings : Settings)
    (rest : List Tree.Stmt) (left : Nat) (t : Thread) :
    ∀ placed ∈ Point.made settings ⟨context, stmt :: rest, fr.state left env t⟩,
      placed.2.isControl = true → stmt.makes placed.2 = true := by
  intro placed member control
  rw [Point.made, site.code_eq] at member
  obtain ⟨made, inside, rfl⟩ := List.mem_map.1 member
  exact statement_makes settings env stmt t made inside control

/-- The statements of one kind are those that are made at the points, in order. -/
theorem Traced.filter_eq {code : List Grammar.Stmt} {placed : List (Bool × Grammar.Stmt)}
    {points : List Point} {cases : Nat} {t t' : Thread} (traced : Traced settings code placed points cases t t')
    (kind : Grammar.Stmt → Bool) (control : ∀ stmt, kind stmt = true → stmt.isControl = true) :
    placed.filter (kind ·.2) = points.flatMap fun p => (p.made settings).filter (kind ·.2) := by
  have among (stmts : List (Bool × Grammar.Stmt)) :
      (controlsOf stmts).filter (kind ·.2) = stmts.filter (kind ·.2) := by
    rw [controlsOf, List.filter_filter]
    apply List.filter_congr
    intro stmt _
    cases same : kind stmt.2 with
    | false => rfl
    | true => simp [control _ same]
  calc placed.filter (kind ·.2)
      = (controlsOf placed).filter (kind ·.2) := (among placed).symm
    _ = (controlsOf (points.flatMap (Point.made settings))).filter (kind ·.2) := by rw [traced.controls]
    _ = (points.flatMap (Point.made settings)).filter (kind ·.2) := among _
    _ = points.flatMap fun p => (p.made settings).filter (kind ·.2) := List.filter_flatMap ..

/-- What holds of everything that is made at the points holds of the statements of one kind. -/
theorem Traced.forall_placed {code : List Grammar.Stmt} {placed : List (Bool × Grammar.Stmt)}
    {points : List Point} {cases : Nat} {t t' : Thread} (traced : Traced settings code placed points cases t t')
    (kind : Grammar.Stmt → Bool) (control : ∀ stmt, kind stmt = true → stmt.isControl = true)
    (holds : Grammar.Stmt → Prop) (each : ∀ p ∈ points, ∀ made ∈ p.made settings, holds made.2) :
    ∀ stmt ∈ placed, kind stmt.2 = true → holds stmt.2 := by
  intro stmt member same
  have among : stmt ∈ placed.filter (kind ·.2) := List.mem_filter.2 ⟨member, same⟩
  rw [traced.filter_eq kind control] at among
  obtain ⟨p, here, made⟩ := List.mem_flatMap.1 among
  exact each p here stmt (List.mem_filter.1 made).1

end Lexical

end YulFuzz
