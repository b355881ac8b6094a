/-
Module: YulFuzz.Proofs.Lexical.Thread
Purpose: What the parts of the translation hand on. Expressions and calls draw tokens and count calls, and
  nothing else: they name no function and leave nothing out. Whatever is handed on only grows.
Main exports: Lexical.Thread.Draws, Lexical.Thread.Grows, Lexical.expression_draws,
  Lexical.callStatement_draws
-/
import YulFuzz.Proofs.Lexical.Extension

namespace YulFuzz.Lexical

namespace Thread

/-- Between `t` and `t'` tokens are drawn and calls are counted, but no function gets a name and nothing is
    left out. -/
structure Draws (t t' : Thread) : Prop where
  drawn : t.drawn ≤ t'.drawn
  next : t'.next = t.next
  casesDropped : t'.counters.casesDropped = t.counters.casesDropped
  statementsDropped : t'.counters.statementsDropped = t.counters.statementsDropped

/-- From `t` to `t'` neither the number of tokens drawn nor the next index of a kind decreases. -/
structure Grows (t t' : Thread) : Prop where
  drawn : t.drawn ≤ t'.drawn
  next : ∀ kind, t.next.get kind ≤ t'.next.get kind

/-- What is handed on when a case is left out. -/
def dropCase (t : Thread) : Thread :=
  { t with counters := { t.counters with casesDropped := t.counters.casesDropped + 1 } }

/-- What is handed on when a statement is left out. -/
def dropStatement (t : Thread) : Thread :=
  { t with counters := { t.counters with statementsDropped := t.counters.statementsDropped + 1 } }

/-- What is handed on when a function of the given kind is defined. -/
def define (t : Thread) (kind : FunctionKind) : Thread where
  drawn := t.drawn
  next := t.next.modify kind (· + 1)
  counters := { t.counters with functionsDefined := t.counters.functionsDefined + 1 }

variable {t t' last : Thread}

namespace Draws

theorem refl (t : Thread) : t.Draws t := ⟨Nat.le_refl _, rfl, rfl, rfl⟩

theorem trans (first : t.Draws t') (second : t'.Draws last) : t.Draws last where
  drawn := first.drawn.trans second.drawn
  next := second.next.trans first.next
  casesDropped := second.casesDropped.trans first.casesDropped
  statementsDropped := second.statementsDropped.trans first.statementsDropped

/-- Counting a call, or one that cannot be made, leaves nothing out. -/
theorem counting {counters : Walk.Counters} (draws : { t with counters }.Draws last)
    (casesDropped : counters.casesDropped = t.counters.casesDropped)
    (statementsDropped : counters.statementsDropped = t.counters.statementsDropped) : t.Draws last where
  drawn := draws.drawn
  next := draws.next
  casesDropped := draws.casesDropped.trans casesDropped
  statementsDropped := draws.statementsDropped.trans statementsDropped

theorem grows (draws : t.Draws t') : t.Grows t' :=
  ⟨draws.drawn, fun kind => by rw [draws.next]⟩

end Draws

namespace Grows

theorem refl (t : Thread) : t.Grows t := ⟨Nat.le_refl _, fun _ => Nat.le_refl _⟩

theorem trans (first : t.Grows t') (second : t'.Grows last) : t.Grows last :=
  ⟨first.drawn.trans second.drawn, fun kind => (first.next kind).trans (second.next kind)⟩

/-- A definition takes the next index of its kind. -/
theorem define (t : Thread) (kind : FunctionKind) : t.Grows (t.define kind) where
  drawn := Nat.le_refl _
  next := by
    intro other
    by_cases same : other = kind
    · subst same
      simp [Thread.define]
    · simp [Thread.define, PerKind.get_modify_of_ne _ _ same]

theorem dropCase (t : Thread) : t.Grows t.dropCase := ⟨Nat.le_refl _, fun _ => Nat.le_refl _⟩

theorem dropStatement (t : Thread) : t.Grows t.dropStatement := ⟨Nat.le_refl _, fun _ => Nat.le_refl _⟩

end Grows

end Thread

/-! ### Expressions -/

theorem drawToken_draws (seed : Seed) (t : Thread) : t.Draws (drawToken seed t).2 :=
  ⟨Nat.le_succ _, rfl, rfl, rfl⟩

theorem tokenExpr_draws (seed : Seed) (t : Thread) : t.Draws (tokenExpr seed t).2 :=
  drawToken_draws seed t

theorem literal_draws (seed : Seed) (node : Tree.Literal) (t : Thread) :
    t.Draws (literal seed node t).2 := by
  cases node with
  | int | str => exact .refl t
  | unset => exact drawToken_draws seed t
  | hex raw =>
      simp only [literal]
      cases Walk.hexDigits raw with
      | nil => exact drawToken_draws seed t
      | cons => exact .refl t

theorem tokenExprs_draws (seed : Seed) (wanted : Nat) (t : Thread) :
    t.Draws (tokenExprs seed wanted t).2 := by
  induction wanted generalizing t with
  | zero => exact .refl t
  | succ wanted ih => exact (tokenExpr_draws seed t).trans (ih _)

mutual

/-- An expression only draws tokens and counts calls. -/
theorem expression_draws (seed : Seed) (env : Env) : ∀ (expr : Tree.Expr) (t : Thread),
    t.Draws (expression seed env expr t).2
  | .varRef number, t => by
      rw [expression]
      cases env.resolve number with
      | none => exact tokenExpr_draws seed t
      | some found => exact .refl t
  | .literal node, t => literal_draws seed node t
  | .binary op left right, t => (expression_draws seed env left t).trans (expression_draws seed env right _)
  | .unary op operand, t => expression_draws seed env operand t
  | .ternary op first second third, t =>
      (expression_draws seed env first t).trans
        ((expression_draws seed env second _).trans (expression_draws seed env third _))
  | .nullary op, t => .refl t
  | .call usage selector args targets, t => by
      rw [expression]
      cases env.pick .singleReturn selector with
      | none => exact .counting (tokenExpr_draws seed _) rfl rfl
      | some callee => exact .counting (arguments_draws seed env callee.inputs args _) rfl rfl
  | .unset, t => tokenExpr_draws seed t

/-- The arguments of a call only draw tokens and count calls. -/
theorem arguments_draws (seed : Seed) (env : Env) : ∀ (wanted : Nat) (args : List Tree.Expr) (t : Thread),
    t.Draws (arguments seed env wanted args t).2
  | wanted, [], t => by
      rw [arguments]
      exact tokenExprs_draws seed wanted t
  | 0, _ :: _, t => .refl t
  | wanted + 1, arg :: args, t =>
      (expression_draws seed env arg t).trans (arguments_draws seed env wanted args _)

end

theorem expressions_draws (seed : Seed) (env : Env) (exprs : List Tree.Expr) (t : Thread) :
    t.Draws (expressions seed env exprs t).2 := by
  induction exprs generalizing t with
  | nil => exact .refl t
  | cons expr rest ih => exact (expression_draws seed env expr t).trans (ih _)

/-! ### Statements without blocks -/

theorem call_draws (seed : Seed) (env : Env) (callee : Callable) (args : List Tree.Expr) (t : Thread) :
    t.Draws (call seed env callee args t).2 :=
  .counting (arguments_draws seed env callee.inputs args _) rfl rfl

theorem callStatement_draws (seed : Seed) (env : Env) (usage : Tree.CallUsage) (selector : UInt32)
    (args : List Tree.Expr) (requests : List UInt32) (t : Thread) :
    t.Draws (callStatement seed env usage selector args requests t).2 := by
  unfold callStatement
  cases env.callee? usage selector with
  | none => exact .counting (tokenExpr_draws seed _) rfl rfl
  | some callee => cases usage <;> exact call_draws seed env callee args t

theorem assign_draws (seed : Seed) (env : Env) (target : UInt32) (value : Tree.Expr) (t : Thread) :
    t.Draws (assign seed env target value t).2 := by
  simp only [assign, bind_run]
  cases env.resolve target <;> exact expression_draws seed env value t

theorem callAfterDefinition_draws (env : Env) (callable : Callable) (t : Thread) :
    t.Draws (callAfterDefinition env callable t).2 := by
  unfold callAfterDefinition
  split <;> exact .counting (.refl _) rfl rfl

end YulFuzz.Lexical
