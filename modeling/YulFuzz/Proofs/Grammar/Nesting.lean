/-
Module: YulFuzz.Proofs.Grammar.Nesting
Purpose: Blocks within blocks of Yul syntax trees: where a piece of code occurs, and all statements of a
  program, however deep, each with whether it is in the body of a loop. An init block, a post block and a
  function body are in no loop, whatever is around them.
Main exports: Grammar.Stmt.HasBlock, Grammar.Within, Grammar.Occurs, Grammar.allStmts, Grammar.controlsOf,
  Grammar.Stmt.isSimple
-/
import YulFuzz.Proofs.Grammar.Syntax

namespace YulFuzz.Grammar

/-! ### Occurrences -/

/-- The statement has this block directly inside it. -/
def Stmt.HasBlock (stmt : Stmt) (inside : List Stmt) : Prop :=
  match stmt with
  | .block body | .ifThen _ body | .function _ _ _ body => inside = body
  | .forLoop init _ post body => inside = init ∨ inside = post ∨ inside = body
  | .switch _ cases default => inside ∈ cases.map Prod.snd ∨ default = some inside
  | .declare _ _ | .assign _ _ | .call _ _ | .breakLoop | .continueLoop => False

/-- The block `inner` is `outer` itself, or stands in a statement of it, however deep. -/
inductive Within (inner : List Stmt) : List Stmt → Prop where
  | here : Within inner inner
  | deeper {stmt : Stmt} {block outer : List Stmt} (member : stmt ∈ outer) (has : stmt.HasBlock block)
      (inside : Within inner block) : Within inner outer

/-- The statements stand one after another in a block of the program. -/
def Occurs (part program : List Stmt) : Prop := ∃ block, Within block program ∧ part <:+: block

namespace Occurs

variable {part first rest block code : List Stmt}

theorem refl (part : List Stmt) : Occurs part part := ⟨part, .here, List.infix_rfl⟩

/-- What occurs in a block occurs in every code that has the statement around the block. -/
theorem inside {stmt : Stmt} (occurs : Occurs part block) (has : stmt.HasBlock block)
    (member : stmt ∈ code) : Occurs part code := by
  obtain ⟨inner, within, here⟩ := occurs
  exact ⟨inner, .deeper member has within, here⟩

/-- What occurs in a piece of code occurs in the whole. -/
theorem mono (occurs : Occurs part first) (piece : first <:+: code) : Occurs part code := by
  obtain ⟨block, within, here⟩ := occurs
  cases within with
  | here => exact ⟨code, .here, here.trans piece⟩
  | deeper member has within => exact ⟨block, .deeper (piece.subset member) has within, here⟩

end Occurs

/-! ### All statements -/

mutual

/-- The statements in the blocks of a statement, each with whether it is in the body of a loop. -/
def Stmt.inside (inLoop : Bool) : Stmt → List (Bool × Stmt)
  | .block body => allStmts inLoop body
  | .ifThen _ body => allStmts inLoop body
  | .forLoop init _ post body => allStmts false init ++ (allStmts false post ++ allStmts true body)
  | .switch _ cases default => caseStmts inLoop cases ++ defaultStmts inLoop default
  | .function _ _ _ body => allStmts false body
  | .declare _ _ => []
  | .assign _ _ => []
  | .call _ _ => []
  | .breakLoop => []
  | .continueLoop => []

/-- All statements of a block, however deep, in the order of the text, each with whether it is in the body of
    a loop. -/
def allStmts (inLoop : Bool) : List Stmt → List (Bool × Stmt)
  | [] => []
  | stmt :: rest => (inLoop, stmt) :: (stmt.inside inLoop ++ allStmts inLoop rest)

/-- The statements in the arms of a switch with a label. -/
def caseStmts (inLoop : Bool) : List (Literal × List Stmt) → List (Bool × Stmt)
  | [] => []
  | (_, body) :: rest => allStmts inLoop body ++ caseStmts inLoop rest

/-- The statements in the arm of a switch without a label. -/
def defaultStmts (inLoop : Bool) : Option (List Stmt) → List (Bool × Stmt)
  | none => []
  | some body => allStmts inLoop body

end

theorem allStmts_append (inLoop : Bool) (first rest : List Stmt) :
    allStmts inLoop (first ++ rest) = allStmts inLoop first ++ allStmts inLoop rest := by
  induction first with
  | nil => rfl
  | cons stmt others ih => simp [allStmts, ih]

/-! ### Control flow -/

/-- Whether a statement controls the flow: a condition, a loop, a switch, a function, `break` or
    `continue`. -/
def Stmt.isControl : Stmt → Bool
  | .ifThen _ _ | .forLoop _ _ _ _ | .switch _ _ _ | .function _ _ _ _ | .breakLoop | .continueLoop => true
  | .declare _ _ | .assign _ _ | .call _ _ | .block _ => false

/-- Whether a statement neither controls the flow nor has a block. -/
def Stmt.isSimple : Stmt → Bool
  | .declare _ _ | .assign _ _ | .call _ _ => true
  | _ => false

theorem Stmt.isControl_of_isSimple {stmt : Stmt} (simple : stmt.isSimple = true) :
    stmt.isControl = false := by
  cases stmt with
  | declare | assign | call => rfl
  | _ => cases simple

theorem Stmt.inside_of_isSimple {stmt : Stmt} (simple : stmt.isSimple = true) (inLoop : Bool) :
    stmt.inside inLoop = [] := by
  cases stmt with
  | declare | assign | call => rfl
  | _ => cases simple

/-- The statements that control the flow, in order. -/
def controlsOf (stmts : List (Bool × Stmt)) : List (Bool × Stmt) := stmts.filter (·.2.isControl)

@[simp] theorem controlsOf_nil : controlsOf [] = [] := rfl

@[simp] theorem controlsOf_append (first rest : List (Bool × Stmt)) :
    controlsOf (first ++ rest) = controlsOf first ++ controlsOf rest :=
  List.filter_append ..

theorem controlsOf_cons (stmt : Bool × Stmt) (rest : List (Bool × Stmt)) :
    controlsOf (stmt :: rest) = controlsOf [stmt] ++ controlsOf rest :=
  controlsOf_append [stmt] rest

/-- A statement, and one that has nothing to do with control flow. -/
theorem controlsOf_pair {inLoop : Bool} {first second : Stmt} (plain : controlsOf [(inLoop, second)] = [])
    (inside : controlsOf (second.inside inLoop) = []) :
    controlsOf (allStmts inLoop [first, second]) =
      controlsOf [(inLoop, first), (inLoop, second)] ++ controlsOf (first.inside inLoop) := by
  have pair := controlsOf_append [(inLoop, first)] [(inLoop, second)]
  rw [plain, List.append_nil] at pair
  simp only [allStmts, List.append_nil]
  rw [controlsOf_cons, controlsOf_append, controlsOf_cons (inLoop, second), plain, inside, List.nil_append,
    List.append_nil, ← pair]
  rfl

end YulFuzz.Grammar
