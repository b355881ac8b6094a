/-
Module: YulFuzz.Proofs.Appending
Purpose: Statements at the end of a program change nothing in front of them. A walk comes to the statements of a
  block one after the other, so a longer block is walked as the shorter one and then on from there; the lines of
  a block are those of its statements in order; and whatever is counted only grows along a walk. The closing
  brace of the outermost block is the only text behind the statements.
Main exports: Walk.State.Grows, Walk.Step.grows, Walk.State.Grows.of_steps, Walk.statements_append,
  Generation.Stats.Grows, generate_append
-/
import YulFuzz.Proofs.Layout
import YulFuzz.Proofs.Lexical.Refinement
import YulFuzz.Proofs.Points
import YulFuzz.Proofs.Steps

namespace YulFuzz

/-- A scope that is left is counted. -/
theorem Variables.of_exitScope_eq_ok {v outside : Variables} (left : v.exitScope = .ok outside) :
    outside.entered = v.entered ∧ outside.exited = v.exited + 1 := by
  unfold exitScope at left
  split at left
  · cases left
  · obtain rfl := Except.ok.inj left
    exact ⟨rfl, rfl⟩

theorem Variables.of_exitFunction_eq_ok {v outside : Variables} (left : v.exitFunction = .ok outside) :
    outside.entered = v.entered ∧ outside.exited = v.exited := by
  unfold exitFunction at left
  split at left
  · cases left
  · obtain rfl := Except.ok.inj left
    exact ⟨rfl, rfl⟩

namespace Walk

/-! ### What is counted -/

/-- Every counter is at most that of the others. -/
structure Counters.AtMost (c others : Counters) : Prop where
  functionsDefined : c.functionsDefined ≤ others.functionsDefined
  callsEmitted : c.callsEmitted ≤ others.callsEmitted
  callFallbacks : c.callFallbacks ≤ others.callFallbacks
  casesDropped : c.casesDropped ≤ others.casesDropped
  statementsDropped : c.statementsDropped ≤ others.statementsDropped

namespace Counters.AtMost

variable {c d e : Counters}

theorem refl (c : Counters) : c.AtMost c :=
  ⟨Nat.le_refl _, Nat.le_refl _, Nat.le_refl _, Nat.le_refl _, Nat.le_refl _⟩

theorem trans (first : c.AtMost d) (second : d.AtMost e) : c.AtMost e where
  functionsDefined := first.functionsDefined.trans second.functionsDefined
  callsEmitted := first.callsEmitted.trans second.callsEmitted
  callFallbacks := first.callFallbacks.trans second.callFallbacks
  casesDropped := first.casesDropped.trans second.casesDropped
  statementsDropped := first.statementsDropped.trans second.statementsDropped

end Counters.AtMost

/-- Nothing that is counted in a state is less in the other one. -/
structure State.Grows (s s' : State) : Prop where
  entered : s.vars.entered ≤ s'.vars.entered
  exited : s.vars.exited ≤ s'.vars.exited
  drawn : s.drawn ≤ s'.drawn
  counters : s.counters.AtMost s'.counters

variable {s r s' : State}

theorem State.Grows.refl (s : State) : s.Grows s := ⟨Nat.le_refl _, Nat.le_refl _, Nat.le_refl _, .refl _⟩

theorem State.Grows.trans (first : s.Grows r) (second : r.Grows s') : s.Grows s' :=
  ⟨first.entered.trans second.entered, first.exited.trans second.exited, first.drawn.trans second.drawn,
    first.counters.trans second.counters⟩

theorem Spend.grows (spend : Spend s s') : s.Grows s' := by
  have grows := State.Grows.refl s
  cases spend with
  | draw => exact { grows with drawn := Nat.le_succ _ }
  | call => exact { grows with counters := { grows.counters with callsEmitted := Nat.le_succ _ } }
  | fallback => exact { grows with counters := { grows.counters with callFallbacks := Nat.le_succ _ } }

/-- A step counts on, or leaves what is counted as it is. -/
theorem Step.grows (step : Step s s') : s.Grows s' := by
  have grows := State.Grows.refl s
  cases step with
  | spend spend => exact spend.grows
  | define => exact { grows with counters := { grows.counters with functionsDefined := Nat.le_succ _ } }
  | dropCase => exact { grows with counters := { grows.counters with casesDropped := Nat.le_succ _ } }
  | dropStatement => exact { grows with counters := { grows.counters with statementsDropped := Nat.le_succ _ } }
  | enterScope => exact { grows with entered := Nat.le_succ _ }
  | exitScope varsLeft functionsLeft =>
      obtain ⟨entered, exited⟩ := Variables.of_exitScope_eq_ok varsLeft
      exact { grows with entered := entered.ge, exited := (Nat.le_succ _).trans exited.ge }
  | exitFunction left =>
      obtain ⟨entered, exited⟩ := Variables.of_exitFunction_eq_ok left
      exact { grows with entered := entered.ge, exited := exited.ge }
  | declare | register | record | enterFunction | enterSwitch | exitSwitch | enterLoop | exitLoop | allow =>
      exact { grows with }

/-- Along steps everything that is counted grows. -/
theorem State.Grows.of_steps (steps : Relation.ReflTransGen Step s s') : s.Grows s' := by
  induction steps with
  | refl => exact .refl s
  | tail earlier step ih => exact ih.trans step.grows

/-! ### Blocks from two parts -/

variable {α : Type}

/-- The statements of a longer block are walked after those in front of them, from where these end. -/
theorem statements_append (settings : Settings) (first rest : List Tree.Stmt) :
    statements settings (first ++ rest) = do
      let front ← statements settings first
      return front ++ (← statements settings rest) := by
  induction first with
  | nil =>
      rw [statements, pure_bind]
      exact (bind_pure (statements settings rest)).symm
  | cons stmt others ih =>
      rw [List.cons_append, statements, statements, ih]
      simp only [bind_assoc, pure_bind, List.append_assoc]

/-- An operation of the bookkeeping gives its answer and leaves the state as it is. -/
theorem of_lift_eq_ok {operation : Except Fault α} {s' : State} {a : α}
    (ran : (liftM operation : Walk α) s = .ok (a, s')) : operation = .ok a ∧ s' = s := by
  cases operation with
  | error fault => cases ran
  | ok answer =>
      cases ran
      exact ⟨rfl, rfl⟩

/-- A scope ends in the state at the end of its inside, but for what is visible. -/
theorem of_inScope_eq_ok {inside : Walk α} {s' : State} {a : α} (walked : inScope inside s = .ok (a, s')) :
    ∃ last functions vars, inside s.enterScope = .ok (a, last) ∧ last.vars.exitScope = .ok vars ∧
      s' = { last with vars, functions } := by
  unfold inScope at walked
  obtain ⟨_, _, ⟨⟩, walked⟩ := Lexical.of_bind_eq_ok walked
  obtain ⟨result, last, here, walked⟩ := Lexical.of_bind_eq_ok walked
  obtain ⟨_, _, ⟨⟩, walked⟩ := Lexical.of_bind_eq_ok walked
  obtain ⟨functions, _, left, walked⟩ := Lexical.of_bind_eq_ok walked
  obtain ⟨-, rfl⟩ := of_lift_eq_ok left
  obtain ⟨vars, _, left, walked⟩ := Lexical.of_bind_eq_ok walked
  obtain ⟨varsLeft, rfl⟩ := of_lift_eq_ok left
  obtain ⟨_, _, ⟨⟩, ⟨⟩⟩ := Lexical.of_bind_eq_ok walked
  exact ⟨_, functions, vars, here, varsLeft, rfl⟩

/-- A walk of a longer block makes the code of the shorter one first, and counts no less. -/
theorem of_statements_append {settings : Settings} {first rest : List Tree.Stmt} {s s' : State}
    {code : List Yul.Stmt} (walked : statements settings (first ++ rest) s = .ok (code, s')) :
    ∃ front middle more, statements settings first s = .ok (front, middle) ∧ code = front ++ more ∧
      middle.Grows s' := by
  rw [statements_append] at walked
  obtain ⟨front, middle, here, there⟩ := Lexical.of_bind_eq_ok walked
  obtain ⟨more, last, later, made⟩ := Lexical.of_bind_eq_ok there
  obtain ⟨rfl, rfl⟩ := Prod.mk.inj (Except.ok.inj made)
  exact ⟨front, middle, more, here, rfl, .of_steps (statements_steps settings rest middle more last later)⟩

end Walk

/-! ### Generations -/

namespace Generation.Stats

/-- No counter is less than that of the other generation. -/
structure Grows (stats others : Stats) : Prop where
  scopesEntered : stats.scopesEntered ≤ others.scopesEntered
  scopesExited : stats.scopesExited ≤ others.scopesExited
  finalLiveVars : stats.finalLiveVars ≤ others.finalLiveVars
  functionsDefined : stats.functionsDefined ≤ others.functionsDefined
  callsEmitted : stats.callsEmitted ≤ others.callsEmitted
  callFallbacks : stats.callFallbacks ≤ others.callFallbacks
  casesDropped : stats.casesDropped ≤ others.casesDropped
  statementsDropped : stats.statementsDropped ≤ others.statementsDropped
  dictionaryTokens : stats.dictionaryTokens ≤ others.dictionaryTokens

/-- The counters of a generation whose outermost block is still to be left. -/
def ofInside (inside : Walk.State) : Stats :=
  { ofState inside with scopesExited := inside.vars.exited + 1, finalLiveVars := 0 }

/-- Leaving the outermost block counts one scope more, and no variable is live behind it. -/
theorem ofState_outside {inside : Walk.State} {vars : Variables} (left : inside.vars.exitScope = .ok vars)
    (noneLive : vars.live = 0) (functions : Functions) :
    ofState { inside with vars, functions } = ofInside inside := by
  obtain ⟨entered, exited⟩ := Variables.of_exitScope_eq_ok left
  simp only [ofState, ofInside, entered, exited, noneLive]

theorem Grows.ofInside {inside later : Walk.State} (grows : inside.Grows later) :
    (Stats.ofInside inside).Grows (Stats.ofInside later) where
  scopesEntered := grows.entered
  scopesExited := Nat.succ_le_succ grows.exited
  finalLiveVars := Nat.le_refl _
  functionsDefined := grows.counters.functionsDefined
  callsEmitted := grows.counters.callsEmitted
  callFallbacks := grows.counters.callFallbacks
  casesDropped := grows.counters.casesDropped
  statementsDropped := grows.counters.statementsDropped
  dictionaryTokens := grows.drawn

end Generation.Stats

/-- A program with statements is generated by a walk of its statements within one scope. -/
theorem Tree.Program.exists_inside (settings : Settings) {block : List Tree.Stmt} (nonempty : block ≠ []) :
    ∃ code inside, Walk.statements settings block ({} : Walk.State).enterScope = .ok (code, inside) ∧
      generate settings ⟨block⟩ = .ok ⟨(Yul.Block.spread code).render, .ofInside inside⟩ := by
  obtain ⟨left, walked, generated⟩ := Lexical.generate_eq_walk settings ⟨block⟩
  have scope : walk settings ⟨block⟩ =
      Walk.inScope (do return Yul.Block.spread (← Walk.statements settings block)) {} := by
    cases block with
    | nil => exact absurd rfl nonempty
    | cons stmt rest => rfl
  rw [scope] at walked
  obtain ⟨inside, functions, vars, here, outside, final⟩ := Walk.of_inScope_eq_ok walked
  obtain ⟨code, last, inner, made⟩ := Lexical.of_bind_eq_ok here
  obtain ⟨text, rfl⟩ := Prod.mk.inj (Except.ok.inj made)
  have noneLive : vars.live = 0 := (congrArg (·.vars.live) final).symm
  refine ⟨code, last, inner, ?_⟩
  rw [generated, ← text, final, Generation.Stats.ofState_outside outside noneLive]

/-- The text of the lines, each with a line feed at its end. -/
def Layout.joined (lines : List String) : String := String.join (lines.map (· ++ "\n"))

theorem Layout.joined_append (lines more : List String) : joined (lines ++ more) = joined lines ++ joined more := by
  rw [joined, List.map_append, String.join_append]
  rfl

/-- The text of a block: behind the statements there is only the closing brace. -/
theorem Layout.render_spread (code : List Yul.Stmt) :
    (Yul.Block.spread code).render =
      joined ("\x7b" :: Yul.indented (Yul.Stmt.listLines code)) ++ "\x7d\n" := by
  have lines : (Yul.Block.spread code).lines "" = "\x7b" :: Yul.indented (Yul.Stmt.listLines code) ++ ["\x7d"] := by
    rw [Yul.Block.lines]
    rfl
  have closing : joined ["\x7d"] = "\x7d\n" := rfl
  rw [← closing, ← joined_append, ← lines]
  rfl

/-- Statements appended to a program never change the text in front of them. Every program is generated, with
    statements appended and without them. Without them the text is some `u` in front of a closing brace and a
    line feed, provided that the program has a statement; with them something stands between the same `u` and the
    closing brace. No counter is less with them than without them; counters have no bound here but the one by the
    size of the tree. -/
theorem generate_append (settings : Settings) {first : List Tree.Stmt} (nonempty : first ≠ [])
    (rest : List Tree.Stmt) :
    ∃ shorter longer u v,
      Tree.Program.generate settings ⟨first⟩ = .ok shorter ∧
      Tree.Program.generate settings ⟨first ++ rest⟩ = .ok longer ∧
      shorter.yul = u ++ "\x7d\n" ∧ longer.yul = u ++ v ++ "\x7d\n" ∧
      shorter.stats.Grows longer.stats := by
  have appended : first ++ rest ≠ [] := List.append_ne_nil_of_left_ne_nil nonempty rest
  obtain ⟨front, inside, walked, shorter⟩ := Tree.Program.exists_inside settings nonempty
  obtain ⟨code, last, walkedOn, longer⟩ := Tree.Program.exists_inside settings appended
  obtain ⟨front, middle, more, again, rfl, grows⟩ := Walk.of_statements_append walkedOn
  -- Both walks start in the same state, so the first statements have the same code and end in the same state.
  obtain ⟨rfl, rfl⟩ := Prod.mk.inj (Except.ok.inj (walked.symm.trans again))
  refine ⟨_, _, _, Layout.joined (Yul.indented (Yul.Stmt.listLines more)), shorter, longer,
    Layout.render_spread front, ?_, .ofInside grows⟩
  have lines : Yul.indented (Yul.Stmt.listLines (front ++ more)) =
      Yul.indented (Yul.Stmt.listLines front) ++ Yul.indented (Yul.Stmt.listLines more) := by
    rw [Layout.listLines_append, Yul.indented, List.map_append]
    rfl
  rw [Layout.render_spread, lines, ← List.cons_append, Layout.joined_append]

/-- A call in front of the definition of a function that it could call is still a token that is popped. -/
theorem generate_append_definition :
    [Tree.Stmt.call .none 0 [] []] ≠ [] ∧ ∃ longer v,
      Tree.Program.generate {} ⟨[.call .none 0 [] [], .define 0 0 []]⟩ = .ok longer ∧
      longer.yul = "\x7b\n  pop(0x0)\n" ++ v ++ "\x7d\n" ∧ 1 ≤ longer.stats.callFallbacks := by
  have nonempty : [Tree.Stmt.call .none 0 [] []] ≠ [] := List.cons_ne_nil _ _
  obtain ⟨shorter, longer, u, v, first, both, text, longerText, grows⟩ :=
    generate_append {} nonempty [.define 0 0 []]
  have made : (Tree.Program.generate {} ⟨[.call .none 0 [] []]⟩).map
      (fun g => (g.yul, g.stats.callFallbacks)) = .ok ("\x7b\n  pop(0x0)\n" ++ "\x7d\n", 1) := by
    decide +kernel
  rw [first] at made
  obtain ⟨yul, fallbacks⟩ := Prod.mk.inj (Except.ok.inj made)
  obtain rfl := String.append_left_inj _ |>.1 (text.symm.trans yul)
  exact ⟨nonempty, longer, v, both, longerText, fallbacks ▸ grows.callFallbacks⟩

end YulFuzz
