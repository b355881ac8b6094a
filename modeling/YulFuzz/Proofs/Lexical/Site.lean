/-
Module: YulFuzz.Proofs.Lexical.Site
Purpose: The states at the points of a walk, as frames and environments. At every point the visible variables
  are those that the environment has, what the stacks have saved is bounded by what is live, and what is
  allowed depends on nothing but the construct around the point.
Main exports: Lexical.Frame.Bounded, Lexical.Site, Lexical.Stands, Lexical.Keeps.after, Lexical.Moves.after
-/
import YulFuzz.Proofs.Lexical.Refinement
import YulFuzz.Proofs.Points

namespace YulFuzz.Lexical

open Walk (State Context)

variable {α : Type} {fr : Frame} {env later : Env} {context : Context}

/-! ### Bounded frames -/

/-- What the stacks have saved is no more than what is live and visible now, and each scope of variables is a
    scope of functions too. -/
structure Frame.Bounded (fr : Frame) (env : Env) : Prop where
  checkpoints : ∀ count ∈ fr.checkpoints, count ≤ env.fresh
  hidden : fr.hidden ≤ env.fresh
  enclosing : ∀ saved ∈ fr.enclosing, saved.1 ≤ env.fresh
  inFunction : fr.inFunction = true ↔ fr.enclosing ≠ []
  marks : ∀ mark ∈ fr.marks, ∀ kind, mark.get kind ≤ (env.callables.get kind).length
  length_marks : fr.marks.length = fr.checkpoints.length

namespace Frame.Bounded

theorem initial : Frame.Bounded {} {} where
  checkpoints := nofun
  hidden := Nat.le_refl _
  enclosing := nofun
  inFunction := by simp
  marks := nofun
  length_marks := rfl

theorem extends_ (bounded : fr.Bounded env) (grows : env.Extends later) : fr.Bounded later where
  checkpoints := fun count member => (bounded.checkpoints count member).trans grows.fresh_le
  hidden := bounded.hidden.trans grows.fresh_le
  enclosing := fun saved member => (bounded.enclosing saved member).trans grows.fresh_le
  inFunction := bounded.inFunction
  marks := fun mark member kind => by
    obtain ⟨more, same, _⟩ := grows.callables kind
    rw [same, List.length_append]
    exact (bounded.marks mark member kind).trans (Nat.le_add_right _ _)
  length_marks := bounded.length_marks

theorem enterScope (bounded : fr.Bounded env) : (fr.enterScope env).Bounded env where
  checkpoints := List.forall_mem_cons.2 ⟨Nat.le_refl _, bounded.checkpoints⟩
  hidden := bounded.hidden
  enclosing := bounded.enclosing
  inFunction := bounded.inFunction
  marks := List.forall_mem_cons.2 ⟨fun kind => by rw [PerKind.get_map], bounded.marks⟩
  length_marks := congrArg (· + 1) bounded.length_marks

theorem enterFunction (bounded : fr.Bounded env) : (fr.enterFunction env).Bounded env where
  checkpoints := bounded.checkpoints
  hidden := Nat.le_refl _
  enclosing := List.forall_mem_cons.2 ⟨bounded.hidden, bounded.enclosing⟩
  inFunction := by simp [Frame.enterFunction]
  marks := bounded.marks
  length_marks := bounded.length_marks

end Frame.Bounded

/-! ### Sites -/

/-- A frame and an environment as they are at a point of the given context. -/
structure Site (context : Context) (fr : Frame) (env : Env) : Prop where
  fits : fr.Fits env
  bounded : fr.Bounded env
  inLoopBody : env.inLoopBody = context.inLoop
  inLoopInit : env.inLoopInit = decide (context = .loopInit)
  loopDepth : context = .boundedBody → 0 < env.loopDepth

namespace Site

theorem initial : Site .program {} {} where
  fits := .initial
  bounded := .initial
  inLoopBody := rfl
  inLoopInit := rfl
  loopDepth := nofun

theorem extends_ (site : Site context fr env) (grows : env.Extends later) : Site context fr later where
  fits := site.fits.extends_ grows
  bounded := site.bounded.extends_ grows
  inLoopBody := grows.inLoopBody.trans site.inLoopBody
  inLoopInit := grows.inLoopInit.trans site.inLoopInit
  loopDepth := fun bounded => grows.loopDepth ▸ site.loopDepth bounded

theorem enterScope (site : Site context fr env) : Site context (fr.enterScope env) env :=
  { site with
    fits := site.fits.enterScope
    bounded := site.bounded.enterScope }

theorem enterSwitch (site : Site context fr env) (seen : List Word) :
    Site context (fr.enterSwitch seen) env :=
  { site with
    fits := site.fits.enterSwitch seen
    bounded := { site.bounded with } }

theorem withLabels (site : Site context fr env) (labels : List Word) :
    Site context fr (env.withLabels labels) where
  fits := site.fits.withLabels labels
  bounded := { site.bounded with }
  inLoopBody := site.inLoopBody
  inLoopInit := site.inLoopInit
  loopDepth := site.loopDepth

/-- A part of a general loop. -/
theorem inLoopContext (site : Site context fr env) (part : Context) (general : part ≠ .boundedBody) :
    Site part fr (env.inLoopContext part.inLoop (part = .loopInit)) where
  fits := site.fits.inLoopContext _ _
  bounded := { site.bounded with }
  inLoopBody := rfl
  inLoopInit := rfl
  loopDepth := fun bounded => absurd bounded general

theorem inBoundedLoop (site : Site context fr env) : Site .boundedBody fr env.inBoundedLoop where
  fits := site.fits.inBoundedLoop
  bounded := { site.bounded with }
  inLoopBody := rfl
  inLoopInit := rfl
  loopDepth := fun _ => Nat.succ_pos _

/-- The body of a function with the given number of parameters. -/
theorem inFunctionBody (site : Site context fr env) (parameters : Nat) :
    Site .functionBody ((fr.enterScope env).enterFunction env) (env.inFunctionBody parameters) where
  fits := .inFunctionBody site.fits.proper _ parameters
  bounded := by
    have inside : ((fr.enterScope env).enterFunction env).Bounded (env.inFunctionBody 0) :=
      { site.bounded.enterScope.enterFunction with }
    exact inside.extends_ (.declare _ parameters)
  inLoopBody := rfl
  inLoopInit := rfl
  loopDepth := nofun

end Site

/-- The state at the point is one for a frame and an environment as they are in its context. -/
inductive Stands : Walk.Point → Prop where
  | of {context : Context} {fr : Frame} {env : Env} (site : Site context fr env) (rest : List Tree.Stmt)
    (left : Nat) (t : Thread) : Stands ⟨context, rest, fr.state left env t⟩

/-! ### Ends of walks -/

theorem Keeps.after {walk : Walk α} {part : Threaded α} (keeps : Keeps fr env walk part) (left : Nat)
    (t : Thread) :
    ∃ left', Walk.after walk (fr.state left env t) = fr.state left' env (part t).2 := by
  obtain ⟨left', run⟩ := keeps left t
  exact ⟨left', by rw [Walk.after, run]⟩

theorem Moves.after {walk : Walk α} {part : Threaded (α × Env)} (moves : Moves fr env walk part)
    (left : Nat) (t : Thread) :
    ∃ left', Walk.after walk (fr.state left env t) = fr.state left' (part t).1.2 (part t).2 := by
  obtain ⟨left', run⟩ := moves left t
  exact ⟨left', by rw [Walk.after, run]⟩

end YulFuzz.Lexical
