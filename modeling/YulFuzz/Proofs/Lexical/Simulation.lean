/-
Module: YulFuzz.Proofs.Lexical.Simulation
Purpose: The states of a walk, taken apart into the stacks around a point of the tree (a frame), the lexical
  environment there, and what is handed on. A walk keeps an environment if from every state for it the walk
  does what its lexical counterpart does and ends in a state for the same environment; it moves if it ends in
  a state for the environment that the counterpart returns. Each action that enters something is shown once
  to leave it again.
Main exports: Lexical.Frame, Lexical.Frame.state, Lexical.Frame.Fits, Lexical.Keeps, Lexical.Moves,
  Lexical.Keeps.inScope, Lexical.expression_keeps
-/
import YulFuzz.Proofs.Lexical.Extension

namespace YulFuzz.Lexical

open Walk (State)

variable {α β : Type}

/-! ### States and frames -/

/-- The stacks around a point of the tree. -/
structure Frame where
  checkpoints : List Nat := []
  hidden : Nat := 0
  inFunction : Bool := false
  enclosing : List (Nat × Bool) := []
  marks : List (PerKind Nat) := []
  labels : List (List Word) := []

namespace Frame

/-- The state of a walk at a point of the tree, `left` being the number of scopes left so far. -/
def state (fr : Frame) (left : Nat) (env : Env) (t : Thread) : State where
  vars :=
    { live := env.fresh
      checkpoints := fr.checkpoints
      hidden := fr.hidden
      inFunction := fr.inFunction
      enclosing := fr.enclosing
      entered := left + fr.checkpoints.length
      exited := left }
  functions := { next := t.next, visible := env.callables, marks := fr.marks }
  labels := ⟨fr.labels⟩
  drawn := t.drawn
  loopDepth := env.loopDepth
  inLoopBody := env.inLoopBody
  inLoopInit := env.inLoopInit
  counters := t.counters

/-- The number of the first visible variable. -/
def offset (fr : Frame) : Nat := if fr.inFunction then fr.hidden else 0

/-- The visible variables of the environment are those from the offset on, up to the next one. -/
structure Fits (fr : Frame) (env : Env) : Prop where
  offset_le : fr.offset ≤ env.fresh
  vars : env.vars = List.range' fr.offset (env.fresh - fr.offset)
  proper : env.Proper

/-- The frame inside a scope. -/
def enterScope (fr : Frame) (env : Env) : Frame :=
  { fr with
    checkpoints := env.fresh :: fr.checkpoints
    marks := env.callables.map List.length :: fr.marks }

/-- The frame inside a function body. -/
def enterFunction (fr : Frame) (env : Env) : Frame :=
  { fr with
    enclosing := (fr.hidden, fr.inFunction) :: fr.enclosing
    hidden := env.fresh
    inFunction := true }

/-- The frame inside a switch that has seen the given values. -/
def enterSwitch (fr : Frame) (seen : List Word) : Frame :=
  { fr with labels := seen :: fr.labels }

namespace Fits

variable {fr : Frame} {env after : Env}

theorem initial : Fits {} {} where
  offset_le := Nat.zero_le _
  vars := rfl
  proper := by
    intro kind callable member
    cases kind <;> cases member

theorem length_vars (fits : fr.Fits env) : env.vars.length = env.fresh - fr.offset := by
  rw [fits.vars, List.length_range']

theorem extends_ (fits : fr.Fits env) (grows : env.Extends after) : fr.Fits after where
  offset_le := fits.offset_le.trans grows.fresh_le
  vars := by
    obtain ⟨count, vars, fresh⟩ := grows.vars
    have here : env.fresh = fr.offset + (env.fresh - fr.offset) := by
      have := fits.offset_le
      omega
    have whole : after.fresh - fr.offset = env.fresh - fr.offset + count := by
      have := fits.offset_le
      omega
    rw [vars, fits.vars, whole, ← List.range'_append_1, ← here]
  proper := grows.proper fits.proper

theorem inLoopContext (fits : fr.Fits env) (inLoopBody inLoopInit : Bool) :
    fr.Fits (env.inLoopContext inLoopBody inLoopInit) :=
  ⟨fits.offset_le, fits.vars, fits.proper⟩

theorem inBoundedLoop (fits : fr.Fits env) : fr.Fits env.inBoundedLoop :=
  ⟨fits.offset_le, fits.vars, fits.proper⟩

theorem withLabels (fits : fr.Fits env) (labels : List Word) : fr.Fits (env.withLabels labels) :=
  ⟨fits.offset_le, fits.vars, fits.proper⟩

theorem enterScope (fits : fr.Fits env) : (fr.enterScope env).Fits env :=
  ⟨fits.offset_le, fits.vars, fits.proper⟩

theorem enterSwitch (fits : fr.Fits env) (seen : List Word) : (fr.enterSwitch seen).Fits env :=
  ⟨fits.offset_le, fits.vars, fits.proper⟩

/-- Inside a function body exactly its parameters are visible. -/
theorem inFunctionBody (proper : env.Proper) (fr : Frame) (parameters : Nat) :
    (fr.enterFunction env).Fits (env.inFunctionBody parameters) where
  offset_le := Nat.le_add_right _ _
  vars := by
    simp [Env.inFunctionBody, Env.declare, Env.inLoopContext, Frame.offset, Frame.enterFunction]
  proper := proper

end Fits

end Frame

/-! ### Walks that keep an environment, and walks that move on to another -/

/-- From every state for `env` the walk does what its counterpart does, and ends in a state for `env`. -/
def Keeps (fr : Frame) (env : Env) (walk : Walk α) (part : Threaded α) : Prop :=
  ∀ left t, ∃ left', walk (fr.state left env t) = .ok ((part t).1, fr.state left' env (part t).2)

/-- From every state for `env` the walk does what its counterpart does, and ends in a state for the
    environment that the counterpart returns. -/
def Moves (fr : Frame) (env : Env) (walk : Walk α) (part : Threaded (α × Env)) : Prop :=
  ∀ left t, ∃ left',
    walk (fr.state left env t) = .ok ((part t).1.1, fr.state left' (part t).1.2 (part t).2)

/-- A walk goes on from the state in which its first part ends. -/
theorem bind_of_ok {walk : Walk α} {next : α → Walk β} {s r : State} {a : α}
    (first : walk s = .ok (a, r)) : (walk >>= next) s = next a r := by
  change (walk s >>= fun result => next result.1 result.2) = next a r
  rw [first]
  rfl

/-- Both parts of a walk that ends are walked to their ends. -/
theorem of_bind_eq_ok {walk : Walk α} {next : α → Walk β} {s s' : State} {b : β}
    (ran : (walk >>= next) s = .ok (b, s')) : ∃ a r, walk s = .ok (a, r) ∧ next a r = .ok (b, s') := by
  change (walk s >>= fun result => next result.1 result.2) = .ok (b, s') at ran
  cases here : walk s with
  | error fault =>
      rw [here] at ran
      cases ran
  | ok result =>
      rw [here] at ran
      exact ⟨result.1, result.2, rfl, ran⟩

/-- An operation of the bookkeeping that succeeds leaves the state as it is. -/
theorem lift_of_ok {operation : Except Walk.Fault α} {a : α} (ok : operation = .ok a) (s : State) :
    (liftM operation : Walk α) s = .ok (a, s) := by
  rw [ok]
  rfl

variable {fr : Frame} {env : Env}

namespace Keeps

theorem pure (a : α) : Keeps fr env (Pure.pure a) (Pure.pure a) :=
  fun left _ => ⟨left, rfl⟩

theorem bind {walk : Walk α} {part : Threaded α} {next : α → Walk β} {rest : α → Threaded β}
    (first : Keeps fr env walk part) (then_ : ∀ t, Keeps fr env (next (part t).1) (rest (part t).1)) :
    Keeps fr env (walk >>= next) (part >>= rest) := by
  intro left t
  obtain ⟨middle, here⟩ := first left t
  obtain ⟨last, there⟩ := then_ t middle (part t).2
  exact ⟨last, by rw [bind_of_ok here, there]; rfl⟩

/-- Reading something that only depends on the environment. -/
theorem read {walk : Walk α} {next : α → Walk β} {part : Threaded β} {a : α}
    (reads : ∀ left t, walk (fr.state left env t) = .ok (a, fr.state left env t))
    (then_ : Keeps fr env (next a) part) : Keeps fr env (walk >>= next) part := by
  intro left t
  rw [bind_of_ok (reads left t)]
  exact then_ left t

/-- Going on by the state, where what follows only depends on the environment. -/
theorem get {next : State → Walk β} {part : Threaded β}
    (then_ : ∀ left t, Keeps fr env (next (fr.state left env t)) part) :
    Keeps fr env (MonadState.get >>= next) part :=
  fun left t => then_ left t left t

theorem count (f : Walk.Counters → Walk.Counters) : Keeps fr env (Walk.count f) (count f) :=
  fun left _ => ⟨left, rfl⟩

theorem drawToken (seed : Seed) : Keeps fr env (Walk.drawToken seed) (drawToken seed) :=
  fun left _ => ⟨left, rfl⟩

theorem tokenExpr (seed : Seed) : Keeps fr env (Walk.tokenExpr seed) (tokenExpr seed) :=
  (drawToken seed).bind fun _ => .pure _

theorem tokenExprs (seed : Seed) (wanted : Nat) :
    Keeps fr env (Walk.tokenExprs seed wanted) (tokenExprs seed wanted) := by
  induction wanted with
  | zero => exact .pure _
  | succ wanted ih => exact (tokenExpr seed).bind fun _ => ih.bind fun _ => .pure _

end Keeps

namespace Moves

theorem pure (a : α) : Moves fr env (Pure.pure a) (Pure.pure (a, env)) :=
  fun left _ => ⟨left, rfl⟩

theorem bind {walk : Walk α} {part : Threaded (α × Env)} {next : α → Walk β}
    {rest : α × Env → Threaded (β × Env)} (first : Moves fr env walk part)
    (then_ : ∀ t, Moves fr (part t).1.2 (next (part t).1.1) (rest (part t).1)) :
    Moves fr env (walk >>= next) (part >>= rest) := by
  intro left t
  obtain ⟨middle, here⟩ := first left t
  obtain ⟨last, there⟩ := then_ t middle (part t).2
  exact ⟨last, by rw [bind_of_ok here, there]; rfl⟩

theorem get {next : State → Walk β} {part : Threaded (β × Env)}
    (then_ : ∀ left t, Moves fr env (next (fr.state left env t)) part) :
    Moves fr env (MonadState.get >>= next) part :=
  fun left t => then_ left t left t

theorem read {walk : Walk α} {next : α → Walk β} {part : Threaded (β × Env)} {a : α}
    (reads : ∀ left t, walk (fr.state left env t) = .ok (a, fr.state left env t))
    (then_ : Moves fr env (next a) part) : Moves fr env (walk >>= next) part := by
  intro left t
  rw [bind_of_ok (reads left t)]
  exact then_ left t

/-- A declaration moves on to the environment with its variables. -/
theorem declare (count : Nat) :
    Moves fr env (Walk.declare count) (Pure.pure (env.declared count, env.declare count)) := by
  intro left t
  refine ⟨left, ?_⟩
  have names : ((List.range count).map fun i => Yul.Var.user (env.fresh + i)) = env.declared count := by
    rw [Env.declared, List.range'_eq_map_range, List.map_map]
    rfl
  rw [pure_run, ← names]
  rfl

theorem declare_map (count : Nat) (f : List Yul.Var → α) :
    Moves fr env (Walk.declare count >>= fun vars => Pure.pure (f vars))
      (Pure.pure (f (env.declared count), env.declare count)) := by
  intro left t
  obtain ⟨last, here⟩ := (declare count : Moves fr env _ _) left t
  exact ⟨last, by rw [bind_of_ok here]; rfl⟩

end Moves

/-- A walk that keeps the environment, before one that moves on. -/
theorem Keeps.thenMoves {walk : Walk α} {part : Threaded α} {next : α → Walk β}
    {rest : α → Threaded (β × Env)} (first : Keeps fr env walk part)
    (then_ : ∀ t, Moves fr env (next (part t).1) (rest (part t).1)) :
    Moves fr env (walk >>= next) (part >>= rest) := by
  intro left t
  obtain ⟨middle, here⟩ := first left t
  obtain ⟨last, there⟩ := then_ t middle (part t).2
  exact ⟨last, by rw [bind_of_ok here, there]; rfl⟩

/-- A walk that keeps the environment moves on to the same one. -/
theorem Keeps.moves {walk : Walk α} {part : Threaded α} (keeps : Keeps fr env walk part) :
    Moves fr env walk ((fun a => (a, env)) <$> part) :=
  keeps

/-! ### What is entered is left again -/

/-- The functions that were visible at the mark of a scope are the first ones of those visible later. -/
theorem take_marks {after : Env} (grows : env.Extends after) :
    PerKind.zipWith List.take (env.callables.map List.length) after.callables = env.callables := by
  ext kind : 1
  obtain ⟨more, same, _⟩ := grows.callables kind
  rw [PerKind.get_zipWith, PerKind.get_map, same, List.take_left]

theorem Moves.inScope {walk : Walk α} {part : Threaded (α × Env)}
    (inside : Moves (fr.enterScope env) env walk part) (grows : ∀ t, env.Extends (part t).1.2) :
    Keeps fr env (Walk.inScope walk) (Prod.fst <$> part) := by
  intro left t
  obtain ⟨last, here⟩ := inside left t
  have functions : ((fr.enterScope env).state last (part t).1.2 (part t).2).functions.exitScope =
      .ok (fr.state (last + 1) env (part t).2).functions :=
    congrArg (fun visible => Except.ok (Functions.mk _ visible _)) (take_marks (grows t))
  have vars : ((fr.enterScope env).state last (part t).1.2 (part t).2).vars.exitScope =
      .ok (fr.state (last + 1) env (part t).2).vars := by
    simp [Frame.state, Frame.enterScope, Variables.exitScope]
    omega
  have rest : ({ (fr.enterScope env).state last (part t).1.2 (part t).2 with
      vars := (fr.state (last + 1) env (part t).2).vars
      functions := (fr.state (last + 1) env (part t).2).functions } : State) =
      fr.state (last + 1) env (part t).2 := by
    simp [Frame.state, Frame.enterScope, (grows t).inLoopBody, (grows t).inLoopInit,
      (grows t).loopDepth]
  refine ⟨last + 1, ?_⟩
  unfold Walk.inScope
  rw [bind_of_ok (r := (fr.enterScope env).state left env t) rfl, bind_of_ok here, bind_of_ok rfl,
    bind_of_ok (lift_of_ok functions _), bind_of_ok (lift_of_ok vars _)]
  exact congrArg (fun s => Except.ok ((part t).1.1, s)) rest

namespace Keeps

theorem inLoopContext {walk : Walk α} {part : Threaded α} {inLoopBody inLoopInit : Bool}
    (inside : Keeps fr (env.inLoopContext inLoopBody inLoopInit) walk part) :
    Keeps fr env (Walk.inLoopContext inLoopBody inLoopInit walk) part := by
  intro left t
  obtain ⟨last, here⟩ := inside left t
  refine ⟨last, ?_⟩
  unfold Walk.inLoopContext
  rw [bind_of_ok (a := fr.state left env t) (r := fr.state left env t) rfl,
    bind_of_ok (r := fr.state left (env.inLoopContext inLoopBody inLoopInit) t) rfl, bind_of_ok here]
  rfl

theorem inBoundedLoop {walk : Nat → Walk α} {part : Threaded α}
    (inside : Keeps fr { env with loopDepth := env.loopDepth + 1 } (walk env.loopDepth) part) :
    Keeps fr env (Walk.inBoundedLoop walk) part := by
  intro left t
  obtain ⟨last, here⟩ := inside left t
  refine ⟨last, ?_⟩
  unfold Walk.inBoundedLoop
  rw [bind_of_ok (a := fr.state left env t) (r := fr.state left env t) rfl,
    bind_of_ok (r := fr.state left { env with loopDepth := env.loopDepth + 1 } t) rfl]
  change (walk env.loopDepth >>= _) _ = _
  rw [bind_of_ok here]
  rfl

theorem braces {isEmpty : Bool} {walk : Walk (List Yul.Stmt)} {part : Threaded (List Yul.Stmt × Env)}
    (inside : Moves (fr.enterScope env) env walk part) (grows : ∀ t, env.Extends (part t).1.2) :
    Keeps fr env (Walk.braces isEmpty walk) (braces isEmpty part) := by
  cases isEmpty with
  | true => exact .pure _
  | false =>
      have spread : Moves (fr.enterScope env) env (walk >>= fun body => Pure.pure (.spread body))
          (part >>= fun body => Pure.pure (Yul.Block.spread body.1, body.2)) :=
        inside.bind fun _ => .pure _
      exact spread.inScope grows

/-- A function body that moves on from the environment without variables is left again. -/
theorem inFunctionBody {walk : Walk α} {part : Threaded (α × Env)}
    (inside : Moves ((fr.enterScope env).enterFunction env) (env.inFunctionBody 0) walk part)
    (grows : ∀ t, (env.inFunctionBody 0).Extends (part t).1.2) :
    Keeps fr env (Walk.inFunctionBody walk) (Prod.fst <$> part) := by
  -- The variables around the body, which the scope needs as its first ones, are put back in front.
  let whole (result : α × Env) : α × Env :=
    (result.1, { result.2 with vars := env.vars ++ result.2.vars })
  change Keeps fr env (Walk.inFunctionBody walk) (Prod.fst <$> whole <$> part)
  refine inLoopContext (Moves.inScope ?_ fun t => ?_)
  · intro left t
    obtain ⟨last, here⟩ := inside left t
    refine ⟨last, ?_⟩
    rw [bind_of_ok (r := ((fr.enterScope env).enterFunction env).state left (env.inFunctionBody 0) t) rfl,
      bind_of_ok here]
    rfl
  · obtain ⟨count, vars, fresh⟩ := (grows t).vars
    refine ⟨⟨count, ?_, fresh⟩, (grows t).callables, (grows t).inLoopBody, (grows t).inLoopInit,
      (grows t).loopDepth, (grows t).labels⟩
    exact congrArg (env.vars ++ ·) vars

end Keeps

/-- A part of a loop moves on to its last environment, with the loop context around it. -/
theorem Moves.inLoopContext {walk : Walk α} {part : Threaded (α × Env)} {inLoopBody inLoopInit : Bool}
    (inside : Moves fr (env.inLoopContext inLoopBody inLoopInit) walk part) :
    Moves fr env (Walk.inLoopContext inLoopBody inLoopInit walk)
      ((fun result => (result.1, result.2.inLoopContext env.inLoopBody env.inLoopInit)) <$> part) := by
  intro left t
  obtain ⟨last, here⟩ := inside left t
  refine ⟨last, ?_⟩
  unfold Walk.inLoopContext
  rw [bind_of_ok (a := fr.state left env t) (r := fr.state left env t) rfl,
    bind_of_ok (r := fr.state left (env.inLoopContext inLoopBody inLoopInit) t) rfl, bind_of_ok here]
  rfl

/-- The walk of the arms of a switch keeps the environment, but may have seen more values at its end. -/
def Records (fr : Frame) (env : Env) (walk : Walk α) (part : Threaded α) : Prop :=
  ∀ left t, ∃ left' seen, walk ((fr.enterSwitch env.labels).state left env t) =
    .ok ((part t).1, (fr.enterSwitch seen).state left' env (part t).2)

theorem Records.pure (a : α) : Records fr env (Pure.pure a) (Pure.pure a) :=
  fun left _ => ⟨left, env.labels, rfl⟩

theorem Keeps.thenRecords {walk : Walk α} {part : Threaded α} {next : α → Walk β}
    {rest : α → Threaded β}
    (first : Keeps (fr.enterSwitch env.labels) env walk part)
    (then_ : ∀ t, Records fr env (next (part t).1) (rest (part t).1)) :
    Records fr env (walk >>= next) (part >>= rest) := by
  intro left t
  obtain ⟨middle, here⟩ := first left t
  obtain ⟨last, seen, there⟩ := then_ t middle (part t).2
  exact ⟨last, seen, by rw [bind_of_ok here, there]; rfl⟩

theorem Records.map {walk : Walk α} {part : Threaded α} (f : α → β) (arms : Records fr env walk part) :
    Records fr env (walk >>= fun a => Pure.pure (f a)) (part >>= fun a => Pure.pure (f a)) := by
  intro left t
  obtain ⟨last, seen, here⟩ := arms left t
  exact ⟨last, seen, by rw [bind_of_ok here]; rfl⟩

/-- A label whose value has been seen is not recorded again. -/
theorem recordLabel_known {value : Word} {seen : List Word} (known : value ∈ seen) (left : Nat) (t : Thread) :
    Walk.recordLabel value ((fr.enterSwitch seen).state left env t) =
      .ok (false, (fr.enterSwitch seen).state left env t) := by
  have recorded : ((fr.enterSwitch seen).state left env t).labels.record value =
      .ok (false, ⟨seen :: fr.labels⟩) := if_pos known
  unfold Walk.recordLabel
  rw [bind_of_ok (a := (fr.enterSwitch seen).state left env t) rfl, bind_of_ok (lift_of_ok recorded _)]
  rfl

/-- A label with a new value is recorded. -/
theorem recordLabel_new {value : Word} {seen : List Word} (new : value ∉ seen) (left : Nat) (t : Thread) :
    Walk.recordLabel value ((fr.enterSwitch seen).state left env t) =
      .ok (true, (fr.enterSwitch (value :: seen)).state left env t) := by
  have recorded : ((fr.enterSwitch seen).state left env t).labels.record value =
      .ok (true, ⟨(value :: seen) :: fr.labels⟩) := if_neg new
  unfold Walk.recordLabel
  rw [bind_of_ok (a := (fr.enterSwitch seen).state left env t) rfl, bind_of_ok (lift_of_ok recorded _)]
  rfl

/-- Recording a label goes on in one of two ways, by whether its value has been seen. -/
theorem Records.record {value : Word} {next : Bool → Walk β} {known new : Threaded β}
    (old : Records fr env (next false) known)
    (added : Records fr (env.withLabels (value :: env.labels)) (next true) new) :
    Records fr env (Walk.recordLabel value >>= next) (if value ∈ env.labels then known else new) := by
  intro left t
  by_cases seen : value ∈ env.labels
  · rw [bind_of_ok (recordLabel_known seen left t), if_pos seen]
    exact old left t
  · rw [bind_of_ok (recordLabel_new seen left t), if_neg seen]
    exact added left t

theorem Keeps.inSwitch {walk : Walk α} {part : Threaded α}
    (inside : Records fr (env.withLabels []) walk part) : Keeps fr env (Walk.inSwitch walk) part := by
  intro left t
  obtain ⟨last, seen, here⟩ := inside left t
  refine ⟨last, ?_⟩
  unfold Walk.inSwitch
  rw [bind_of_ok (r := (fr.enterSwitch []).state left env t) rfl]
  change (walk >>= _) ((fr.enterSwitch (env.withLabels []).labels).state left (env.withLabels []) t) = _
  rw [bind_of_ok here]
  rfl

end YulFuzz.Lexical
