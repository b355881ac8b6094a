/-
Module: YulFuzz.Proofs.Grammar.Scope
Purpose: Scoping of variables in Yul syntax trees. A scope says which names can be referred to and which are
  taken; it is passed down a tree and extended for the rest of a block by the declarations in it. The
  declarations of an init block are in scope in the condition, the post block and the body of its loop. A
  function body sees only the parameters and results, but all names around the function stay taken.
Main exports: Grammar.Scope, Grammar.Stmt.Scoped, Grammar.Stmt.AllScoped
-/
import YulFuzz.Proofs.Grammar.Syntax
import YulFuzz.Yul.Printer

namespace YulFuzz.Grammar

/-- The names of variables that are open at a point of a tree. -/
structure Scope where
  /-- The names declared in a scope that is open, inside the innermost function body. -/
  visible : List String := []
  /-- The names declared in any scope that is open, also outside the innermost function body. -/
  taken : List String := []

namespace Scope

/-- The scope after a declaration of names. -/
def extend (scope : Scope) (names : List String) : Scope where
  visible := names ++ scope.visible
  taken := names ++ scope.taken

/-- The scope of a function body with the given parameters and results. -/
def inFunction (scope : Scope) (names : List String) : Scope where
  visible := names
  taken := names ++ scope.taken

/-- The names can be declared: they are distinct, and none of them is taken. -/
def Free (scope : Scope) (names : List String) : Prop :=
  names.Nodup ∧ ∀ name ∈ names, name ∉ scope.taken

end Scope

/-- The name of a variable of a generated program. -/
def IsVariable (name : String) : Prop := ∃ var : Yul.Var, name = var.text

/-- The second character tells the names of variables from those of functions and types. -/
theorem not_isVariable {name : String} (second : name.toList[1]? ≠ some '_') : ¬ IsVariable name := by
  rintro ⟨var, rfl⟩
  cases var <;> simp [Yul.Var.text] at second

theorem not_isVariable_callee (callee : Yul.Callee) : ¬ IsVariable callee.text := by
  apply not_isVariable
  cases callee with
  | function f => simp [Yul.Callee.text, FunctionName.text]
  | builtin builtin =>
      cases builtin with
      | log topics => simp [Yul.Callee.text, Builtin.name]
      | nullary op | unary op | binary op | ternary op | store op | halt op | exit op => cases op <;> decide
      | copy region => cases region <;> decide
      | extcodecopy | selfdestruct | pop => decide

theorem not_isVariable_typeName (type : TypeName) : ¬ IsVariable type.name :=
  not_isVariable (by cases type <;> decide)

mutual

/-- Every name in the expression is visible, and no variable is called or is a type. -/
def Expr.Scoped (scope : Scope) : Expr → Prop
  | .name text => text ∈ scope.visible
  | .literal _ type => ∀ name ∈ type, ¬ IsVariable name
  | .call callee args => ¬ IsVariable callee ∧ Expr.AllScoped scope args

/-- Every name in the expressions is visible. -/
def Expr.AllScoped (scope : Scope) : List Expr → Prop
  | [] => True
  | arg :: args => arg.Scoped scope ∧ Expr.AllScoped scope args

end

/-- The names that a statement declares for the statements after it. -/
def Stmt.declares : Stmt → List String
  | .declare names _ => names.map TypedName.name
  | _ => []

/-- The scope after the statements of a block. -/
def Scope.after (scope : Scope) (body : List Stmt) : Scope :=
  body.foldl (fun scope stmt => scope.extend stmt.declares) scope

mutual

/-- Every name in the statement is visible where it occurs, and every declaration is of free names. -/
def Stmt.Scoped (scope : Scope) : Stmt → Prop
  | .declare names value =>
    value.Scoped scope ∧ scope.Free (names.map TypedName.name) ∧
      ∀ name ∈ names, ∀ type ∈ name.type, ¬ IsVariable type
  | .assign targets value => (∀ target ∈ targets, target ∈ scope.visible) ∧ value.Scoped scope
  | .call callee args => (Expr.call callee args).Scoped scope
  | .block body => Stmt.AllScoped scope body
  | .ifThen cond body => cond.Scoped scope ∧ Stmt.AllScoped scope body
  | .forLoop init cond post body =>
    Stmt.AllScoped scope init ∧ cond.Scoped (scope.after init) ∧
      Stmt.AllScoped (scope.after init) post ∧ Stmt.AllScoped (scope.after init) body
  | .switch scrutinee cases default =>
    scrutinee.Scoped scope ∧ Stmt.CasesScoped scope cases ∧ Stmt.DefaultScoped scope default
  | .function name inputs outputs body =>
    ¬ IsVariable name ∧ scope.Free (inputs ++ outputs) ∧
      Stmt.AllScoped (scope.inFunction (inputs ++ outputs)) body
  | .breakLoop => True
  | .continueLoop => True

/-- The statements of a block, each in the scope that the ones before it leave. -/
def Stmt.AllScoped (scope : Scope) : List Stmt → Prop
  | [] => True
  | stmt :: rest => stmt.Scoped scope ∧ Stmt.AllScoped (scope.extend stmt.declares) rest

/-- The blocks of all arms with a label. -/
def Stmt.CasesScoped (scope : Scope) : List (Literal × List Stmt) → Prop
  | [] => True
  | (_, body) :: rest => Stmt.AllScoped scope body ∧ Stmt.CasesScoped scope rest

/-- The block of the arm without a label, if there is one. -/
def Stmt.DefaultScoped (scope : Scope) : Option (List Stmt) → Prop
  | none => True
  | some body => Stmt.AllScoped scope body

end

theorem Stmt.allScoped_append {scope : Scope} {first rest : List Stmt}
    (front : Stmt.AllScoped scope first) (back : Stmt.AllScoped (scope.after first) rest) :
    Stmt.AllScoped scope (first ++ rest) := by
  induction first generalizing scope with
  | nil => exact back
  | cons stmt others ih => exact ⟨front.1, ih front.2 back⟩

theorem Scope.after_append (scope : Scope) (first rest : List Stmt) :
    scope.after (first ++ rest) = (scope.after first).after rest :=
  List.foldl_append

end YulFuzz.Grammar
