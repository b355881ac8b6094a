/-
Module: YulFuzz.Proofs.Ascription
Purpose: Types in generated code: the declarations that are written with a type, however deep they are, and
  the same code without types.
Main exports: Yul.Stmt.isTypedLet, Yul.Stmt.typedLets, Yul.Stmt.untyped, Yul.Block.untyped
-/
import YulFuzz.Yul.Printer

namespace YulFuzz.Yul

/-- Whether a statement is a declaration with a type. -/
def Stmt.isTypedLet : Stmt → Bool
  | .letOne _ (some _) _ => true
  | _ => false

mutual

/-- The declarations with a type in a statement, in order. -/
def Stmt.typedLets : Stmt → List Stmt
  | .letOne _ none _ => []
  | .letOne var (some ascription) value => [.letOne var (some ascription) value]
  | .letMany _ _ => []
  | .assign _ _ => []
  | .expr _ => []
  | .block body => body.typedLets
  | .ifThen _ body => body.typedLets
  | .forLoop init _ post body => init.typedLets ++ (post.typedLets ++ body.typedLets)
  | .boundedFor _ body => body.typedLets
  | .switch _ cases default => Stmt.caseTypedLets cases ++ Stmt.defaultTypedLets default
  | .function _ _ _ body => body.typedLets
  | .breakLoop => []
  | .continueLoop => []

/-- The declarations with a type in statements. -/
def Stmt.listTypedLets : List Stmt → List Stmt
  | [] => []
  | stmt :: rest => stmt.typedLets ++ Stmt.listTypedLets rest

/-- The declarations with a type in the arms of a switch that have a label. -/
def Stmt.caseTypedLets : List (Literal × Block) → List Stmt
  | [] => []
  | (_, body) :: rest => body.typedLets ++ Stmt.caseTypedLets rest

/-- The declarations with a type in the arm of a switch without a label. -/
def Stmt.defaultTypedLets : Option Block → List Stmt
  | none => []
  | some body => body.typedLets

/-- The declarations with a type in a block. -/
def Block.typedLets : Block → List Stmt
  | .compact => []
  | .spread body => Stmt.listTypedLets body

end

mutual

/-- A statement without types. -/
def Stmt.untyped : Stmt → Stmt
  | .letOne var _ value => .letOne var none value
  | .letMany vars value => .letMany vars value
  | .assign targets value => .assign targets value
  | .expr value => .expr value
  | .block body => .block body.untyped
  | .ifThen cond body => .ifThen cond body.untyped
  | .forLoop init cond post body => .forLoop init.untyped cond post.untyped body.untyped
  | .boundedFor depth body => .boundedFor depth body.untyped
  | .switch scrutinee cases default =>
    .switch scrutinee (Stmt.caseUntyped cases) (Stmt.defaultUntyped default)
  | .function name inputs outputs body => .function name inputs outputs body.untyped
  | .breakLoop => .breakLoop
  | .continueLoop => .continueLoop

/-- Statements without types. -/
def Stmt.listUntyped : List Stmt → List Stmt
  | [] => []
  | stmt :: rest => stmt.untyped :: Stmt.listUntyped rest

/-- The arms of a switch that have a label, without types. -/
def Stmt.caseUntyped : List (Literal × Block) → List (Literal × Block)
  | [] => []
  | (label, body) :: rest => (label, body.untyped) :: Stmt.caseUntyped rest

/-- The arm of a switch without a label, without types. -/
def Stmt.defaultUntyped : Option Block → Option Block
  | none => none
  | some body => some body.untyped

/-- A block without types, in the same layout. -/
def Block.untyped : Block → Block
  | .compact => .compact
  | .spread body => .spread (Stmt.listUntyped body)

end

theorem Stmt.listTypedLets_append (first rest : List Stmt) :
    Stmt.listTypedLets (first ++ rest) = Stmt.listTypedLets first ++ Stmt.listTypedLets rest := by
  induction first with
  | nil => rfl
  | cons stmt others ih =>
      rw [List.cons_append, Stmt.listTypedLets, Stmt.listTypedLets, ih, List.append_assoc]

/-- A block on one line has no declarations, as if its statements were made from the empty list. -/
theorem Block.typedLets_opening {α : Type} (list : List α) (body : List α → List Stmt)
    (nothing : body [] = []) :
    Block.typedLets (if list.isEmpty then .compact else .spread (body list)) =
      Stmt.listTypedLets (body list) := by
  cases list with
  | nil =>
      rw [nothing]
      rfl
  | cons a rest => rfl

theorem Stmt.listUntyped_eq_map (body : List Stmt) : Stmt.listUntyped body = body.map Stmt.untyped := by
  induction body with
  | nil => rfl
  | cons stmt rest ih => exact congrArg (stmt.untyped :: ·) ih

theorem Stmt.listUntyped_append (first rest : List Stmt) :
    Stmt.listUntyped (first ++ rest) = Stmt.listUntyped first ++ Stmt.listUntyped rest := by
  simp only [Stmt.listUntyped_eq_map, List.map_append]

end YulFuzz.Yul
