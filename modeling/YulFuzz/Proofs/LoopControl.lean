/-
Module: YulFuzz.Proofs.LoopControl
Purpose: Where loop control and definitions stand. The text has a `break` or a `continue` exactly for those
  of the tree that are innermost in the body of a loop, and a definition is left out exactly where it is
  innermost in an init block. What is left out is counted.
Main exports: Grammar.Stmt.isLoopControl, Walk.Point.PlacesControl, Lexical.Stands.placesControl,
  generate_placesLoopControl
-/
import YulFuzz.Proofs.Trace

namespace YulFuzz

open Grammar (stmtSyntax stmtsSyntax allStmts)
open Walk (Point)

/-- Whether a statement is `break` or `continue`. -/
def Grammar.Stmt.isLoopControl : Grammar.Stmt → Bool
  | .breakLoop | .continueLoop => true
  | _ => false

/-- The statement calls the function, be it in a block that declares the results. -/
def Yul.Stmt.Calls (name : FunctionName) : Yul.Stmt → Prop
  | .expr (.call (.function f) _) => f = name
  | .block (.spread (.letMany _ (.call (.function f) _) :: _)) => f = name
  | _ => False

namespace Walk.Point

/-- The loop control that the text has for a point: that of the tree, if it is in the body of a loop. -/
def loopControl? (p : Point) : Option (Bool × Grammar.Stmt) :=
  match p.rest with
  | .breakLoop :: _ => if p.context.inLoop then some (true, .breakLoop) else none
  | .continueLoop :: _ => if p.context.inLoop then some (true, .continueLoop) else none
  | _ => none

theorem inLoop_of_loopControl? {p : Point} {placed : Bool × Grammar.Stmt}
    (found : p.loopControl? = some placed) : placed.1 = true := by
  unfold loopControl? at found
  split at found
  · split at found <;> cases found
    rfl
  · split at found <;> cases found
    rfl
  · cases found

/-- The next statement is left out with all that is in it: nothing is made, and nothing but the counter of
    such statements changes. -/
def LeavesOut (settings : Settings) (p : Point) : Prop :=
  p.run settings = .ok ([], p.state.dropStatement)

/-- Loop control is made in the bodies of loops and left out elsewhere; a definition is left out in an init
    block and made elsewhere, with a call of the new function. -/
def PlacesControl (settings : Settings) (p : Point) : Prop :=
  match p.rest with
  | .breakLoop :: _ =>
    if p.context.inLoop then p.run settings = .ok ([.breakLoop], p.state) else p.LeavesOut settings
  | .continueLoop :: _ =>
    if p.context.inLoop then p.run settings = .ok ([.continueLoop], p.state) else p.LeavesOut settings
  | .define _ _ _ :: _ =>
    if p.context = .loopInit then p.LeavesOut settings
    else ∃ name inputs outputs body call s,
      p.run settings = .ok ([.function name inputs outputs body, call], s) ∧ call.Calls name
  | _ => True

end Walk.Point

/-! ### Single points -/

/-- Loop control goes by what is allowed, and is only counted when it is left out. -/
theorem Walk.loopControl_eq (control : Yul.Stmt) (s : Walk.State) :
    Walk.loopControl control s =
      if s.inLoopBody then .ok ([control], s) else .ok ([], s.dropStatement) := by
  unfold Walk.loopControl
  change (if s.inLoopBody = true then (pure [control] : Walk (List Yul.Stmt)) else _) s = _
  by_cases allowed : s.inLoopBody = true
  · rw [if_pos allowed, if_pos allowed]
    rfl
  · rw [if_neg allowed, if_neg allowed]
    rfl

namespace Lexical

variable {settings : Settings} {p : Point} {context : Walk.Context} {fr : Frame} {env : Env}

/-- At a site loop control goes by the context. -/
theorem Site.loopControl_run (site : Site context fr env) (control : Yul.Stmt) (left : Nat) (t : Thread) :
    if context.inLoop then
      Walk.loopControl control (fr.state left env t) = .ok ([control], fr.state left env t)
    else
      Walk.loopControl control (fr.state left env t) = .ok ([], (fr.state left env t).dropStatement) := by
  have allowed : (fr.state left env t).inLoopBody = context.inLoop := site.inLoopBody
  rw [Walk.loopControl_eq, allowed]
  cases context.inLoop <;> rfl

theorem callAfterDefinition_calls (env : Env) (callable : Callable) (t : Thread) :
    (callAfterDefinition env callable t).1.Calls callable.name := by
  rw [callAfterDefinition_run]
  split <;> rfl

/-- At a site a definition goes by the context. -/
theorem Site.define_run (site : Site context fr env) (settings : Settings) (inputs outputs : UInt32)
    (body : List Tree.Stmt) (left : Nat) (t : Thread) :
    let run := Walk.statement settings (.define inputs outputs body) (fr.state left env t)
    if context = .loopInit then run = .ok ([], (fr.state left env t).dropStatement)
    else ∃ name inputs outputs body call s,
      run = .ok ([.function name inputs outputs body, call], s) ∧ call.Calls name := by
  intro run
  have allows := site.inLoopInit
  by_cases forbidden : context = .loopInit
  · have inInit : (fr.state left env t).inLoopInit = true := by simp [Frame.state, allows, forbidden]
    rw [if_pos forbidden]
    change Walk.statement settings (.define inputs outputs body) (fr.state left env t) = _
    rw [Walk.statement]
    change (if (fr.state left env t).inLoopInit = true then _ else _ : Walk (List Yul.Stmt)) _ = _
    rw [if_pos inInit]
    rfl
  · have notInInit : ¬ env.inLoopInit = true := by simp [allows, forbidden]
    obtain ⟨left', moved⟩ := statement_moves settings (.define inputs outputs body) site.fits left t
    rw [statement_define settings notInInit] at moved
    rw [if_neg forbidden]
    exact ⟨_, _, _, _, _, _, moved, callAfterDefinition_calls _ _ _⟩

/-- At every point control is placed by the context of the point. -/
theorem Stands.placesControl (stands : Stands p) : p.PlacesControl settings := by
  obtain ⟨site, rest, left, t⟩ := stands
  cases rest with
  | nil => trivial
  | cons stmt rest =>
      cases stmt with
      | breakLoop => exact site.loopControl_run .breakLoop left t
      | continueLoop => exact site.loopControl_run .continueLoop left t
      | define inputs outputs body => exact site.define_run settings inputs outputs body left t
      | _ => trivial

/-- What is made for loop control at a site. -/
theorem Site.filter_made (site : Site context fr env) {stmt : Tree.Stmt} (control : Yul.Stmt)
    (walk : Walk.statement settings stmt = Walk.loopControl control)
    (loopControl : (stmtSyntax control).isLoopControl = true) (rest : List Tree.Stmt) (left : Nat)
    (t : Thread) :
    (Point.made settings ⟨context, stmt :: rest, fr.state left env t⟩).filter (·.2.isLoopControl) =
      if context.inLoop then [(true, stmtSyntax control)] else [] := by
  have run := site.loopControl_run control left t
  rw [← walk] at run
  cases inLoop : context.inLoop with
  | true =>
      rw [if_pos inLoop] at run
      simp [Point.made, Point.code, Point.run, run, stmtsSyntax, loopControl, inLoop]
  | false =>
      rw [if_neg (by simp [inLoop])] at run
      simp [Point.made, Point.code, Point.run, run, stmtsSyntax]

/-- Only loop control becomes loop control. -/
theorem eq_of_makes {stmt : Tree.Stmt} {made : Grammar.Stmt} (makes : stmt.makes made = true)
    (loopControl : made.isLoopControl = true) : stmt = .breakLoop ∨ stmt = .continueLoop := by
  cases made with
  | breakLoop =>
      cases stmt with
      | breakLoop => exact .inl rfl
      | _ => cases makes
  | continueLoop =>
      cases stmt with
      | continueLoop => exact .inr rfl
      | _ => cases makes
  | _ => cases loopControl

theorem isControl_of_isLoopControl (stmt : Grammar.Stmt) (loopControl : stmt.isLoopControl = true) :
    stmt.isControl = true := by
  cases stmt with
  | breakLoop | continueLoop => rfl
  | _ => cases loopControl

/-- The loop control made at a point is that of the tree, if it is in the body of a loop. -/
theorem Stands.filter_made (stands : Stands p) :
    (p.made settings).filter (·.2.isLoopControl) = p.loopControl?.toList := by
  obtain @⟨context, _, _, site, rest, left, t⟩ := stands
  cases rest with
  | nil => rfl
  | cons stmt rest =>
      by_cases same : stmt = .breakLoop ∨ stmt = .continueLoop
      · rcases same with rfl | rfl
        · rw [site.filter_made .breakLoop rfl rfl]
          cases inLoop : context.inLoop <;> simp [Point.loopControl?, inLoop, stmtSyntax]
        · rw [site.filter_made .continueLoop rfl rfl]
          cases inLoop : context.inLoop <;> simp [Point.loopControl?, inLoop, stmtSyntax]
      · have none (s : Walk.State) : Point.loopControl? ⟨context, stmt :: rest, s⟩ = none := by
          cases stmt <;> first | rfl | simp at same
        rw [none, Option.toList_none, List.filter_eq_nil_iff]
        intro placed member loopControl
        have makes := site.makes settings rest left t placed member (isControl_of_isLoopControl _ loopControl)
        exact same (eq_of_makes makes loopControl)

end Lexical

/-- Every program is generated, and its text is read as a block in which loop control is only in the bodies of
    loops: it is, in order, that of the tree whose innermost context is such a body. At each point of the walk
    the statement stands in the text as its context has it, and what the contexts forbid is left out and
    counted. -/
theorem generate_placesLoopControl (settings : Settings) (tree : Tree.Program) :
    ∃ g block, tree.generate settings = .ok g ∧ Grammar.read g.yul = some block ∧
      (∀ placed ∈ allStmts false block, placed.2.isLoopControl = true → placed.1 = true) ∧
      (allStmts false block).filter (·.2.isLoopControl) = (tree.points settings).filterMap Point.loopControl? ∧
      (∀ p ∈ tree.points settings,
        p.PlacesControl settings ∧ Grammar.Occurs (stmtsSyntax (p.code settings)) block) ∧
      g.stats.statementsDropped = (tree.points settings).countP Point.skips := by
  obtain ⟨g, generated, _, reading, skipped, _⟩ := Lexical.exists_counted_reading settings tree
  have traced := Lexical.program_traced settings tree
  have stands := Lexical.program_stands settings tree
  have same : (allStmts false _).filter (·.2.isLoopControl) =
      (tree.points settings).filterMap Point.loopControl? :=
    calc (allStmts false (Grammar.blockSyntax (Lexical.program settings tree).1)).filter (·.2.isLoopControl)
        = (tree.points settings).flatMap fun p => (p.made settings).filter (·.2.isLoopControl) :=
          traced.filter_eq _ Lexical.isControl_of_isLoopControl
      _ = (tree.points settings).flatMap fun p => p.loopControl?.toList :=
          List.flatMap_congr fun p member => (stands p member).filter_made
      _ = (tree.points settings).filterMap Point.loopControl? :=
          (List.filterMap_eq_flatMap_toList _ _).symm
  refine ⟨g, _, generated, reading, ?_, same, ?_, skipped⟩
  · intro placed member loopControl
    have among : placed ∈ (allStmts false _).filter (·.2.isLoopControl) :=
      List.mem_filter.2 ⟨member, loopControl⟩
    rw [same] at among
    obtain ⟨p, _, found⟩ := List.mem_filterMap.1 among
    exact Point.inLoop_of_loopControl? found
  · intro p member
    exact ⟨(stands p member).placesControl, traced.occurs p member⟩

/-- In the body of a loop `break` stands, but not in a function that is defined there. -/
theorem loopControl_in_function_in_loop :
    ∃ g block, Tree.Program.generate {} ⟨[.boundedFor [.breakLoop, .define 0 0 [.breakLoop]]]⟩ = .ok g ∧
      Grammar.read g.yul = some block ∧
      (allStmts false block).filter (·.2.isLoopControl) = [(true, .breakLoop)] ∧
      g.stats.statementsDropped = 1 := by
  obtain ⟨g, block, generated, reading, _, same, _, skipped⟩ := generate_placesLoopControl {} _
  exact ⟨g, block, generated, reading, same, skipped⟩

end YulFuzz
