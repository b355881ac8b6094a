/-
Module: YulFuzz.Proofs.CallChoice
Purpose: Which function a call of the tree calls, and when there is none that it can call. A call statement
  is left to a token exactly where no visible function fits its usage, and a call in an expression exactly
  where no function with one result is visible; all others call the function that their selector stands for.
  So the guard in front of the choice never hides a function that could be called.
Main exports: Tree.Program.Reaches, Walk.KeepsScope, Functions.Lacks, Functions.Elects, Yul.Stmt.Invokes,
  Walk.State.Chooses, calls_choose
-/
import YulFuzz.Proofs.Calls
import YulFuzz.Proofs.Choice
import YulFuzz.Proofs.Steps

namespace YulFuzz

open Walk (State)

variable {α β : Type}

/-! ### Where calls are walked -/

/-- What is in scope is what is in scope at a point of the program. This is so at the points themselves, and
    wherever an expression of a statement is walked. -/
def Tree.Program.Reaches (settings : Settings) (tree : Program) (s : State) : Prop :=
  ∃ p ∈ tree.points settings, s.vars = p.state.vars ∧ s.functions = p.state.functions

namespace Walk

/-- A walk that changes neither the variables nor the functions in scope. -/
def KeepsScope (walk : Walk α) : Prop :=
  ∀ s a s', walk s = .ok (a, s') → s'.vars = s.vars ∧ s'.functions = s.functions

/-- The steps of expressions bring nothing into scope. -/
theorem scope_of_spends {s s' : State} (spends : Relation.ReflTransGen Spend s s') :
    s'.vars = s.vars ∧ s'.functions = s.functions := by
  induction spends with
  | refl => exact ⟨rfl, rfl⟩
  | tail earlier spend ih => cases spend <;> exact ih

theorem expression_keepsScope (seed : Seed) (expr : Tree.Expr) : KeepsScope (expression seed expr) :=
  fun s a s' walked => scope_of_spends (expression_spends seed expr s a s' walked)

end Walk

/-- Expressions that are walked one after the other all find the same things in scope. -/
theorem Tree.Program.Reaches.expression {settings : Settings} {tree : Program} {s s' : State}
    (reached : tree.Reaches settings s) {expr : Expr} {value : Yul.Expr}
    (walked : Walk.expression settings.seed expr s = .ok (value, s')) : tree.Reaches settings s' := by
  obtain ⟨p, member, vars, functions⟩ := reached
  obtain ⟨sameVars, sameFunctions⟩ := Walk.expression_keepsScope settings.seed expr s value s' walked
  exact ⟨p, member, sameVars.trans vars, sameFunctions.trans functions⟩

/-! ### What is chosen -/

namespace Functions

/-- The function of a kind at the place that a selector stands for. -/
def At (fs : Functions) (kind : FunctionKind) (selector : Nat) (callee : Callable) : Prop :=
  (fs.candidates kind)[selector % fs.count kind]? = some callee

/-- No function can be called as a statement wants to. -/
def Lacks (fs : Functions) (visible : Nat) : Tree.CallUsage → Prop
  | .single => True
  | .none => fs.candidates .noReturn = []
  | .multiDecl => fs.candidates .multiReturn = []
  | .multiAssign => ∀ callee ∈ fs.candidates .multiReturn, visible < callee.outputs

/-- The function that a statement calls: the one that the selector stands for or, for an assignment, the first
    one from there on with no more outputs than there are visible variables. -/
def Elects (fs : Functions) (visible selector : Nat) (callee : Callable) : Tree.CallUsage → Prop
  | .single => False
  | .none => fs.At .noReturn selector callee
  | .multiDecl => fs.At .multiReturn selector callee
  | .multiAssign =>
    FirstFrom (fs.candidates .multiReturn) (selector % fs.count .multiReturn) (·.outputs ≤ visible) callee

variable {fs : Functions} {kind : FunctionKind} {selector visible : Nat} {callee : Callable}

theorem isSome_pick : (fs.pick kind selector).isSome = decide (0 < fs.count kind) := by
  rw [Bool.eq_iff_iff, Option.isSome_iff_ne_none, ne_eq, pick_eq_none_iff, decide_eq_true_eq, Nat.pos_iff_ne_zero]

end Functions

/-- A call of a function as an expression, with one argument for each of its inputs. -/
def Yul.Expr.Invokes (callee : Callable) (value : Expr) : Prop :=
  ∃ given : List Expr, value = .call (.function callee.name) given ∧ given.length = callee.inputs

/-- A call of a function as a statement that treats its outputs by the usage. -/
inductive Yul.Stmt.Invokes (callee : Callable) : Tree.CallUsage → Stmt → Prop
  | plain {value : Expr} (invokes : value.Invokes callee) : Invokes callee .none (.expr value)
  | declaring {vars : List Var} {value : Expr} (distinct : vars.Nodup)
      (asMany : vars.length = callee.outputs) (invokes : value.Invokes callee) :
      Invokes callee .multiDecl (.letMany vars value)
  | assigning {targets : List Var} {value : Expr} (distinct : targets.Nodup)
      (asMany : targets.length = callee.outputs) (invokes : value.Invokes callee) :
      Invokes callee .multiAssign (.assign targets value)

namespace Lexical

variable {fr : Frame} {env : Env} {usage : Tree.CallUsage} {selector : UInt32} {callee : Callable}

/-! ### The choice -/

/-- A reached state is one for a frame and an environment. What else differs from the point does not matter to
    the variables and functions. -/
theorem exists_state {settings : Settings} {tree : Tree.Program} {s : State}
    (reached : tree.Reaches settings s) :
    ∃ (fr : Frame) (env : Env) (left : Nat) (t : Thread), fr.Fits env ∧ s = fr.state left env t := by
  obtain ⟨p, member, vars, functions⟩ := reached
  obtain @⟨context, fr, env, site, rest, left, t⟩ := program_stands settings tree p member
  refine ⟨{ fr with labels := s.labels.used },
    { env with inLoopBody := s.inLoopBody, inLoopInit := s.inLoopInit, loopDepth := s.loopDepth },
    left, ⟨s.drawn, t.next, s.counters⟩, ?_, ?_⟩
  · exact ⟨site.fits.offset_le, site.fits.vars, site.fits.proper⟩
  · cases s
    subst vars functions
    rfl

/-- The lexical choice fails exactly where no function fits. -/
theorem callee?_eq_none_iff (left : Nat) (t : Thread) : env.callee? usage selector = none ↔
    (fr.state left env t).functions.Lacks env.vars.length usage := by
  cases usage with
  | single => exact iff_of_true rfl trivial
  | none | multiDecl =>
      rw [Env.callee?, ← Frame.Fits.pick_eq left t, Functions.pick_eq_none_iff]
      exact List.length_eq_zero_iff
  | multiAssign =>
      rw [Env.callee?, ← Frame.Fits.pickMultiWithin_eq left t]
      exact Functions.pickMultiWithin_eq_none_iff

theorem callee?_eq_some_iff (left : Nat) (t : Thread) : env.callee? usage selector = some callee ↔
    (fr.state left env t).functions.Elects env.vars.length selector.toNat callee usage := by
  cases usage with
  | single => exact iff_of_false nofun id
  | none | multiDecl =>
      rw [Env.callee?, ← Frame.Fits.pick_eq left t]
      exact Functions.pick_eq_some_iff
  | multiAssign =>
      rw [Env.callee?, ← Frame.Fits.pickMultiWithin_eq left t]
      exact Functions.pickMultiWithin_eq_some_iff

/-- A function with several outputs is only picked where there is a variable for one of them. -/
theorem pos_of_pickMultiWithin (fits : fr.Fits env) (left : Nat) (t : Thread) {selector visible : Nat}
    (picked : (fr.state left env t).functions.pickMultiWithin selector visible = some callee) :
    0 < visible ∧ callee ∈ env.callables.get .multiReturn := by
  obtain ⟨member, within⟩ := Functions.mem_of_pickMultiWithin picked
  obtain ⟨kind, proper⟩ := fits.proper .multiReturn callee member
  have several := FunctionKind.ofOutputs_eq_multiReturn.1 (proper.kind.symm.trans kind)
  exact ⟨by omega, member⟩

/-! ### The call that is made -/

theorem call_invokes (seed : Seed) (env : Env) (callee : Callable) (args : List Tree.Expr) (t : Thread) :
    (call seed env callee args t).1.Invokes callee :=
  ⟨_, rfl, length_arguments seed env callee.inputs args _⟩

/-- The function that is chosen is called, and its results are treated by the usage. -/
theorem callStatement_invokes (fits : fr.Fits env) (found : env.callee? usage selector = some callee)
    (seed : Seed) (args : List Tree.Expr) (requests : List UInt32) (t : Thread) :
    (callStatement seed env usage selector args requests t).1.1.Invokes callee usage := by
  unfold callStatement
  rw [found]
  have calls := call_invokes seed env callee args t
  cases usage with
  | single => cases found
  | none => exact .plain calls
  | multiDecl => exact .declaring (env.nodup_declared _) (by simp [Env.declared]) calls
  | multiAssign =>
      have distinct : env.vars.Nodup := fits.vars ▸ List.nodup_range'
      have enough : callee.outputs ≤ env.vars.length := Env.outputs_le_of_pickAssignable found
      have asMany : (env.targets requests [] 0 callee.outputs).length = callee.outputs :=
        Env.length_targets distinct requests (by simpa using enough)
      refine .assigning ?_ (by rw [List.length_map, asMany]) calls
      exact (env.nodup_targets requests [] 0 _).map fun _ _ same => Yul.Var.user.inj same

end Lexical

/-! ### Calls at all reached states -/

namespace Walk.State

/-- The token that stands in place of a call in the state. -/
def nextToken (settings : Settings) (s : State) : Yul.Expr :=
  .literal (.hex (settings.seed.token s.drawn))

/-- The state after a call that cannot be made. -/
def afterFallback (s : State) : State :=
  { s with
    drawn := s.drawn + 1
    counters := { s.counters with callFallbacks := s.counters.callFallbacks + 1 } }

/-- What is made of a call in the state `s`, with the state after it: where there is nothing to call it is
    `instead`, and one more call could not be made; else it is a call. -/
structure Settles (s : State) (lacks : Prop) (instead : α) (calls : α → Prop) (made : α) (s' : State) :
    Prop where
  fallsBack : (made = instead ∧ s'.counters.callFallbacks = s.counters.callFallbacks + 1) ↔ lacks
  after : lacks → s' = s.afterFallback
  calls : ¬ lacks → calls made

theorem Settles.of_or {s s' : State} {lacks : Prop} {instead made : α} {calls : α → Prop}
    (differ : ¬ calls instead)
    (settled : (lacks ∧ made = instead ∧ s' = s.afterFallback) ∨ (¬ lacks ∧ calls made)) :
    s.Settles lacks instead calls made s' := by
  rcases settled with ⟨none, rfl, rfl⟩ | ⟨some, called⟩
  · exact ⟨iff_of_true ⟨rfl, rfl⟩ none, fun _ => rfl, absurd none⟩
  · refine ⟨iff_of_false ?_ some, fun none => absurd none some, fun _ => called⟩
    rintro ⟨rfl, -⟩
    exact differ called

/-- What is made of a call statement, where `visible` variables can be referred to: the next token is discarded
    or the function elected is called. -/
def SettlesStatement (settings : Settings) (s : State) (visible : Nat) (usage : Tree.CallUsage)
    (selector : UInt32) : Yul.Stmt → State → Prop :=
  s.Settles (s.functions.Lacks visible usage) (discard (s.nextToken settings)) fun code =>
    ∃ callee, s.functions.Elects visible selector.toNat callee usage ∧ code.Invokes callee usage

/-- What is made of a call in an expression: the next token or a call of a function with one result. -/
def SettlesExpression (settings : Settings) (s : State) (selector : UInt32) : Yul.Expr → State → Prop :=
  s.Settles (s.functions.candidates .singleReturn = []) (s.nextToken settings) fun value =>
    ∃ callee, s.functions.At .singleReturn selector.toNat callee ∧ value.Invokes callee

/-- What calls become in the state `s`, in which `visible` variables can be referred to. -/
structure Chooses (settings : Settings) (s : State) (visible : Nat) : Prop where
  statement : ∀ usage selector args requests, ∃ code s',
    statement settings (.call usage selector args requests) s = .ok ([code], s') ∧
      s.SettlesStatement settings visible usage selector code s'
  expression : ∀ usage selector args requests, ∃ value s',
    expression settings.seed (.call usage selector args requests) s = .ok (value, s') ∧
      s.SettlesExpression settings selector value s'
  written : (s.nextToken settings).text = settings.seed.prefixedToken s.drawn ∧
    (discard (s.nextToken settings)).lines = ["pop(" ++ settings.seed.prefixedToken s.drawn ++ ")"]
  /-- The guard in front of the choice agrees with it. -/
  guard : ∀ anyVariable selector,
    s.functions.callIsPossible .none anyVariable = (s.functions.pick .noReturn selector).isSome ∧
    s.functions.callIsPossible .multiDecl anyVariable = (s.functions.pick .multiReturn selector).isSome
  /-- For assignments it rules out nothing that could be chosen. -/
  assignmentGuard : ∀ selector callee, s.functions.pickMultiWithin selector visible = some callee →
    s.functions.callIsPossible .multiAssign (0 < visible) = true

end Walk.State

namespace Lexical

variable {fr : Frame} {env : Env} {settings : Settings}

/-- Where nothing can be called the statement discards a token. -/
theorem callStatement_of_none (fits : fr.Fits env) {usage : Tree.CallUsage} {selector : UInt32}
    (none : env.callee? usage selector = none) (args : List Tree.Expr) (requests : List UInt32) (left : Nat)
    (t : Thread) :
    Walk.callStatement settings.seed usage selector args requests (fr.state left env t) =
      .ok (Walk.discard ((fr.state left env t).nextToken settings), (fr.state left env t).afterFallback) := by
  unfold Walk.callStatement
  rw [bind_of_ok (fits.callee?_eq usage selector left t), none]
  rfl

theorem statement_settles (fits : fr.Fits env) (left : Nat) (t : Thread) (usage : Tree.CallUsage)
    (selector : UInt32) (args : List Tree.Expr) (requests : List UInt32) : ∃ code s',
      Walk.statement settings (.call usage selector args requests) (fr.state left env t) = .ok ([code], s') ∧
      (fr.state left env t).SettlesStatement settings env.vars.length usage selector code s' := by
  have differ : ¬ ∃ callee, (fr.state left env t).functions.Elects env.vars.length selector.toNat callee
      usage ∧ (Walk.discard ((fr.state left env t).nextToken settings)).Invokes callee usage := by
    rintro ⟨callee, -, given, same, -⟩
    cases same
  unfold Walk.State.SettlesStatement
  rw [Walk.statement, ← callee?_eq_none_iff left t]
  cases found : env.callee? usage selector with
  | none =>
      rw [bind_of_ok (callStatement_of_none fits found args requests left t)]
      exact ⟨_, _, rfl, .of_or differ (.inl ⟨rfl, rfl, rfl⟩)⟩
  | some callee =>
      obtain ⟨left', ran⟩ := callStatement_moves settings.seed fits usage selector args requests left t
      have calls := callStatement_invokes fits found settings.seed args requests t
      rw [bind_of_ok ran]
      refine ⟨_, _, rfl, .of_or differ (.inr ⟨nofun, callee, ?_, calls⟩)⟩
      exact (callee?_eq_some_iff left t).1 found

theorem expression_settles (fits : fr.Fits env) (left : Nat) (t : Thread) (usage : Tree.CallUsage)
    (selector : UInt32) (args : List Tree.Expr) (requests : List UInt32) : ∃ value s',
      Walk.expression settings.seed (.call usage selector args requests) (fr.state left env t) =
        .ok (value, s') ∧
      (fr.state left env t).SettlesExpression settings selector value s' := by
  have differ : ¬ ∃ callee, (fr.state left env t).functions.At .singleReturn selector.toNat callee ∧
      ((fr.state left env t).nextToken settings).Invokes callee := by
    rintro ⟨callee, -, given, same, -⟩
    cases same
  have lacks : (fr.state left env t).functions.candidates .singleReturn = [] ↔
      env.pick .singleReturn selector = none := by
    rw [← Frame.Fits.pick_eq left t, Functions.pick_eq_none_iff]
    exact List.length_eq_zero_iff.symm
  unfold Walk.State.SettlesExpression
  rw [lacks]
  cases found : env.pick .singleReturn selector with
  | none =>
      refine ⟨_, _, ?_, .of_or differ (.inl ⟨rfl, rfl, rfl⟩)⟩
      rw [Walk.expression, bind_of_ok (a := fr.state left env t) rfl, Frame.Fits.pick_eq, found]
      rfl
  | some callee =>
      obtain ⟨left', ran⟩ := expression_keeps settings.seed fits (.call usage selector args requests) left t
      have calls := call_invokes settings.seed env callee args t
      rw [expression, found] at ran
      rw [← Frame.Fits.pick_eq left t] at found
      exact ⟨_, _, ran, .of_or differ (.inr ⟨nofun, callee, Functions.pick_eq_some_iff.1 found, calls⟩)⟩

theorem chooses (fits : fr.Fits env) (left : Nat) (t : Thread) :
    (fr.state left env t).Chooses settings env.vars.length where
  statement := statement_settles fits left t
  expression := expression_settles fits left t
  written := ⟨rfl, rfl⟩
  guard := by
    intro anyVariable selector
    rw [Functions.isSome_pick, Functions.isSome_pick]
    exact ⟨rfl, rfl⟩
  assignmentGuard := by
    intro selector callee picked
    obtain ⟨some, member⟩ := pos_of_pickMultiWithin fits left t picked
    have candidates : 0 < (fr.state left env t).functions.count .multiReturn := List.length_pos_of_mem member
    simp [Functions.callIsPossible, some, candidates]

end Lexical

/-- At every point of a program, and wherever an expression is walked, a call becomes a token exactly where
    there is no function that it can call. Else it calls the function that its selector stands for, counting on
    from the first one after the last, or for an assignment the first one from there on that has enough
    variables for its results. The guard on calls agrees with this choice. -/
theorem calls_choose (settings : Settings) (tree : Tree.Program) {s : State}
    (reached : tree.Reaches settings s) :
    (∃ visible, s.vars.visible = .ok visible ∧ s.Chooses settings visible) ∧
    ∀ expr value s', Walk.expression settings.seed expr s = .ok (value, s') → tree.Reaches settings s' := by
  constructor
  · obtain ⟨fr, env, left, t, fits, rfl⟩ := Lexical.exists_state reached
    exact ⟨_, fits.visible_eq left t, Lexical.chooses fits left t⟩
  · intro expr value s' walked
    exact reached.expression walked

/-- With two variables in scope an assignment passes over a function with three results. -/
theorem assignment_passes_over :
    ∃ s, Tree.Program.Reaches {} ⟨[.define 0 3 [], .define 1 2 [], .declare none .unset, .declare none .unset]⟩
        s ∧
      s.functions.candidates .multiReturn = [⟨⟨.multiReturn, 0⟩, 0, 3⟩, ⟨⟨.multiReturn, 1⟩, 1, 2⟩] ∧
      ∃ code s', Walk.statement {} (.call .multiAssign 0 [] []) s = .ok ([code], s') ∧
        code.Invokes ⟨⟨.multiReturn, 1⟩, 1, 2⟩ .multiAssign := by
  obtain ⟨s, reached, candidates, shown⟩ : ∃ s, Tree.Program.Reaches {}
      ⟨[.define 0 3 [], .define 1 2 [], .declare none .unset, .declare none .unset]⟩ s ∧
      s.functions.candidates .multiReturn = [⟨⟨.multiReturn, 0⟩, 0, 3⟩, ⟨⟨.multiReturn, 1⟩, 1, 2⟩] ∧
      s.vars.visible = .ok 2 :=
    ⟨_, ⟨_, .tail _ (.tail _ (.tail _ (.tail _ (.head _)))), rfl, rfl⟩, rfl, rfl⟩
  obtain ⟨visible, same, chooses⟩ := (calls_choose {} _ reached).1
  obtain rfl : 2 = visible := Except.ok.inj (shown.symm.trans same)
  obtain ⟨code, s', ran, settles⟩ := chooses.statement .multiAssign 0 [] []
  have fits : ¬ s.functions.Lacks 2 .multiAssign := by
    intro lacks
    have many := lacks ⟨⟨.multiReturn, 1⟩, 1, 2⟩ (candidates ▸ .tail _ (.head _))
    exact Nat.lt_irrefl 2 many
  obtain ⟨callee, elected, calls⟩ := settles.calls fits
  have picked := Functions.pickMultiWithin_eq_some_iff.2 elected
  rw [Functions.pickMultiWithin, candidates] at picked
  obtain rfl : ⟨⟨.multiReturn, 1⟩, 1, 2⟩ = callee := Option.some.inj picked
  exact ⟨s, reached, candidates, code, s', ran, calls⟩

end YulFuzz
