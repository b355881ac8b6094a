/-
Module: YulFuzz.Proofs.Restoration
Purpose: What a statement leaves behind. Whatever a statement enters it leaves again: the stacks, the loop
  depth and what is allowed are as before. Only a declaration, a call that declares its results and a function
  definition stay visible, and the text, the tokens drawn and the indices of functions only grow.
Main exports: Walk.State.Restored, Walk.State.declares, Walk.State.defines, Lexical.statement_adds,
  statement_restores_state
-/
import YulFuzz.Proofs.Trace
import YulFuzz.Proofs.Writing

namespace YulFuzz

namespace Yul.Stmt

/-- How many variables a statement declares in the block that it stands in. -/
def declares : Stmt → Nat
  | .letOne _ _ _ => 1
  | .letMany vars _ => vars.length
  | _ => 0

/-- The function that a statement defines. -/
def defines? : Stmt → Option Callable
  | .function name inputs outputs _ => some ⟨name, inputs.length, outputs.length⟩
  | _ => none

end Yul.Stmt

namespace Walk.State

/-- How many variables stay declared after a statement: one for a declaration, and the results of the function
    that is called for a call that declares them. -/
def declares (s : State) : Tree.Stmt → Nat
  | .declare _ _ => 1
  | .call .multiDecl selector _ _ =>
    match s.functions.pick .multiReturn selector.toNat with
    | none => 0
    | some callee => callee.outputs
  | _ => 0

/-- The functions that stay visible after a statement: that of a definition, unless it is left out. -/
def defines (s : State) : Tree.Stmt → List Callable
  | .define inputs outputs _ =>
    let outputs := outputs.toNat % (maxArity + 1)
    let kind := FunctionKind.ofOutputs outputs
    if s.inLoopInit then []
    else [⟨⟨kind, s.functions.next.get kind⟩, inputs.toNat % (maxArity + 1), outputs⟩]
  | _ => []

/-- From `s` to `s'` everything that was entered is left again, and `declared` variables and the functions
    `defined` have become visible. -/
structure Restored (s : State) (declared : Nat) (defined : List Callable) (s' : State) : Prop where
  checkpoints : s'.vars.checkpoints = s.vars.checkpoints
  hidden : s'.vars.hidden = s.vars.hidden
  inFunction : s'.vars.inFunction = s.vars.inFunction
  enclosing : s'.vars.enclosing = s.vars.enclosing
  scopes : s'.vars.entered + s.vars.exited = s.vars.entered + s'.vars.exited
  marks : s'.functions.marks = s.functions.marks
  labels : s'.labels = s.labels
  loopDepth : s'.loopDepth = s.loopDepth
  inLoopBody : s'.inLoopBody = s.inLoopBody
  inLoopInit : s'.inLoopInit = s.inLoopInit
  live : s'.vars.live = s.vars.live + declared
  visible : ∀ kind, s'.functions.visible.get kind =
    s.functions.visible.get kind ++ defined.filter (·.name.kind = kind)
  next : ∀ kind, s.functions.next.get kind ≤ s'.functions.next.get kind
  drawn : s.drawn ≤ s'.drawn

end Walk.State

namespace Lexical

open Walk (State)

/-- The code and the environment after a statement: `declared` variables and the functions `defined` have been
    added, and the code declares and defines them. -/
structure Adds (env : Env) (declared : Nat) (defined : List Callable) (result : List Yul.Stmt × Env) :
    Prop where
  fresh : result.2.fresh = env.fresh + declared
  callables : ∀ kind, result.2.callables.get kind =
    env.callables.get kind ++ defined.filter (·.name.kind = kind)
  declares : (result.1.map Yul.Stmt.declares).sum = declared
  defines : result.1.filterMap Yul.Stmt.defines? = defined

variable {fr : Frame} {env : Env}

namespace Adds

/-- Code that neither declares nor defines anything, in front of the same environment. -/
theorem nothing {code : List Yul.Stmt} (declares : (code.map Yul.Stmt.declares).sum = 0)
    (defines : code.filterMap Yul.Stmt.defines? = []) : Adds env 0 [] (code, env) where
  fresh := rfl
  callables := by simp
  declares := declares
  defines := defines

/-- Code that declares variables. -/
theorem declaring {code : List Yul.Stmt} {count : Nat} (declares : (code.map Yul.Stmt.declares).sum = count)
    (defines : code.filterMap Yul.Stmt.defines? = []) : Adds env count [] (code, env.declare count) where
  fresh := rfl
  callables := by simp [Env.declare]
  declares := declares
  defines := defines

/-- A definition of a function, and a statement that neither declares nor defines anything. -/
theorem defining {callable : Callable} {inputs outputs : List Yul.Var} (body : Yul.Block) {call : Yul.Stmt}
    (arities : inputs.length = callable.inputs ∧ outputs.length = callable.outputs)
    (plain : call.declares = 0 ∧ call.defines? = none) :
    Adds env 0 [callable] ([.function callable.name inputs outputs body, call], env.define callable) where
  fresh := rfl
  callables := by
    intro kind
    by_cases same : callable.name.kind = kind
    · subst same
      simp [Env.define]
    · simp [Env.define, PerKind.get_modify_of_ne _ _ (Ne.symm same), same]
  declares := by
    rw [List.map_cons, List.map_singleton, plain.1]
    rfl
  defines := by
    have here : Yul.Stmt.defines? (.function callable.name inputs outputs body) = some callable := by
      rw [Yul.Stmt.defines?, arities.1, arities.2]
    rw [List.filterMap_cons_some here, List.filterMap_cons_none plain.2]
    rfl

end Adds

theorem callStatement_adds (seed : Seed) (usage : Tree.CallUsage) (selector : UInt32)
    (args : List Tree.Expr) (requests : List UInt32) (left : Nat) (t : Thread) :
    Adds env ((fr.state left env t).declares (.call usage selector args requests)) []
      ([(callStatement seed env usage selector args requests t).1.1],
        (callStatement seed env usage selector args requests t).1.2) := by
  unfold callStatement
  cases usage with
  | none | single | multiAssign =>
      cases env.callee? _ selector <;> exact .nothing rfl rfl
  | multiDecl =>
      simp only [State.declares, Frame.Fits.pick_eq, Env.callee?]
      cases env.pick .multiReturn selector with
      | none => exact .nothing rfl rfl
      | some callee => exact .declaring (by simp [Yul.Stmt.declares, Env.declared]) rfl

theorem assign_adds (seed : Seed) (target : UInt32) (value : Tree.Expr) (t : Thread) :
    Adds env 0 [] ([(assign seed env target value t).1], env) := by
  simp only [assign, bind_run]
  cases env.resolve target <;> exact .nothing rfl rfl

theorem loopControl_adds {control : Yul.Stmt} (declares : control.declares = 0)
    (defines : control.defines? = none) (t : Thread) : Adds env 0 [] (loopControl env control t).1 := by
  unfold loopControl
  split
  · exact .nothing (by simp [declares]) (by simp [defines])
  · exact .nothing rfl rfl

/-- The call after a definition declares its results in a block of its own. -/
theorem callAfterDefinition_plain (env : Env) (callable : Callable) (t : Thread) :
    (callAfterDefinition env callable t).1.declares = 0 ∧
      (callAfterDefinition env callable t).1.defines? = none := by
  rw [callAfterDefinition_run]
  split <;> exact ⟨rfl, rfl⟩

/-- What a statement adds to the environment of the statements after it. -/
theorem statement_adds (settings : Settings) (fr : Frame) (env : Env) (stmt : Tree.Stmt) (left : Nat)
    (t : Thread) :
    Adds env ((fr.state left env t).declares stmt) ((fr.state left env t).defines stmt)
      (statement settings env stmt t).1 := by
  cases stmt with
  | declare type value => exact .declaring rfl rfl
  | assign target value => exact assign_adds settings.seed target value t
  | call usage selector args requests =>
      exact callStatement_adds settings.seed usage selector args requests left t
  | switch scrutinee cases default =>
      by_cases empty : (cases.isEmpty && default.isNone) = true
      · rw [statement, if_pos empty]
        exact .nothing rfl rfl
      · rw [statement_switch settings env scrutinee empty]
        exact .nothing rfl rfl
  | define inputs outputs body =>
      by_cases forbidden : env.inLoopInit = true
      · have leftOut : (fr.state left env t).defines (.define inputs outputs body) = [] := if_pos forbidden
        rw [statement_define_forbidden settings forbidden, leftOut]
        exact .nothing rfl rfl
      · have defined : (fr.state left env t).defines (.define inputs outputs body) =
            [t.defined inputs outputs] := if_neg forbidden
        rw [statement_define settings forbidden, defined]
        exact .defining _ (by simp [Env.declared]) (callAfterDefinition_plain _ _ _)
  | breakLoop | continueLoop => exact loopControl_adds rfl rfl t
  | ifThen | store | block | forLoop | boundedFor | log | copy | extCodeCopy | halt | exit
  | selfDestruct | pop => exact .nothing rfl rfl

/-- From a state in which everything stands as the environment has it, a statement restores what was there. -/
theorem statement_restored {context : Walk.Context} (settings : Settings) (site : Site context fr env)
    (stmt : Tree.Stmt) (left : Nat) (t : Thread) :
    ∃ code s', Walk.statement settings stmt (fr.state left env t) = .ok (code, s') ∧
      (fr.state left env t).Restored ((fr.state left env t).declares stmt)
        ((fr.state left env t).defines stmt) s' ∧
      (code.map Yul.Stmt.declares).sum = (fr.state left env t).declares stmt ∧
      code.filterMap Yul.Stmt.defines? = (fr.state left env t).defines stmt := by
  obtain ⟨left', run⟩ := statement_moves settings stmt site.fits left t
  have grows := statement_extends settings env stmt t
  have adds := statement_adds settings fr env stmt left t
  have handed := (statement_traced settings stmt [] left t site).grows
  refine ⟨_, _, run, ?_, adds.declares, adds.defines⟩
  constructor
  case live => exact adds.fresh
  case visible => exact adds.callables
  case loopDepth => exact grows.loopDepth
  case inLoopBody => exact grows.inLoopBody
  case inLoopInit => exact grows.inLoopInit
  case next => exact handed.next
  case drawn => exact handed.drawn
  case scopes =>
    -- As many scopes have been entered as have been left and are still open.
    simp only [Frame.state]
    omega
  case checkpoints | hidden | inFunction | enclosing | marks | labels => rfl

end Lexical

/-- At every point of a walk, every statement is walked to its end and leaves behind what it found: all
    stacks, the loop depth and what is allowed. One more variable is live after a declaration and as many as the
    function has results after a call that declares them, and the code declares as many; the function of a
    definition becomes visible, and the code defines it. Written onto any page, the code leaves the indentation
    and only adds to the text. So in the end as many scopes have been left as entered, and no variable is
    live. -/
theorem statement_restores_state (settings : Settings) (tree : Tree.Program) :
    (∀ p ∈ tree.points settings, ∀ stmt, ∃ code s',
      Walk.statement settings stmt p.state = .ok (code, s') ∧
      p.state.Restored (p.state.declares stmt) (p.state.defines stmt) s' ∧
      (code.map Yul.Stmt.declares).sum = p.state.declares stmt ∧
      code.filterMap Yul.Stmt.defines? = p.state.defines stmt ∧
      ∀ page : Yul.Page, (page.stmts code).indent = page.indent ∧
        ∃ more, (page.stmts code).text = page.text ++ more) ∧
    ∃ code s g, tree.walk settings = .ok (code, s) ∧ tree.generate settings = .ok g ∧
      g.yul = (({} : Yul.Page).block "" code).text ∧
      g.stats.scopesEntered = g.stats.scopesExited ∧ g.stats.finalLiveVars = 0 := by
  constructor
  · intro p member stmt
    obtain ⟨site, _, left, t⟩ := Lexical.program_stands settings tree p member
    obtain ⟨code, s', run, restored, declares, defines⟩ :=
      Lexical.statement_restored settings site stmt left t
    refine ⟨code, s', run, restored, declares, defines, fun page => ?_⟩
    rw [Yul.Page.stmts_eq]
    exact ⟨rfl, _, rfl⟩
  · obtain ⟨left, walked, generated⟩ := Lexical.generate_eq_walk settings tree
    exact ⟨_, _, _, walked, generated, Yul.Block.render_eq _, rfl, rfl⟩

/-- In the body of a loop a declaration leaves the loop open, and one more variable live. -/
theorem restored_in_bounded_loop :
    ∃ p ∈ Tree.Program.points {} ⟨[.boundedFor [.declare none .unset]]⟩, p.state.loopDepth = 1 ∧
      ∃ code s', Walk.statement {} (.declare none .unset) p.state = .ok (code, s') ∧
        p.state.Restored 1 [] s' := by
  refine ⟨_, .tail _ (.head _), rfl, ?_⟩
  obtain ⟨code, s', run, restored, _⟩ :=
    (statement_restores_state {} ⟨[.boundedFor [.declare none .unset]]⟩).1 _ (.tail _ (.head _))
      (.declare none .unset)
  exact ⟨code, s', run, restored⟩

end YulFuzz
