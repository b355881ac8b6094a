/-
Module: YulFuzz.Proofs.Grammar.Calls
Purpose: Function definitions and calls in Yul syntax trees. What can be called at a point of a tree is a list
  of signatures, which is passed down the tree and extended by a definition for its own body and for the rest
  of the block. A call has as many arguments as the signature has inputs, and stands where as many values are
  wanted as it has outputs: none for a statement, one inside an expression, and one for each name on the left
  of a declaration or an assignment.
Main exports: Grammar.Signature, Grammar.Stmt.definitions, Grammar.Stmt.Resolved, Grammar.Stmt.AllResolved
-/
import YulFuzz.Proofs.Grammar.Syntax

namespace YulFuzz.Grammar

/-- What the header of a function definition says about calls of the function. -/
structure Signature where
  name : String
  inputs : Nat
  outputs : Nat
deriving DecidableEq, Repr

/-- The function keeps to the arity bound, and is named for its number of outputs. -/
def Signature.WellNamed (signature : Signature) : Prop :=
  (∃ f : FunctionName, signature.name = f.text ∧ f.kind = FunctionKind.ofOutputs signature.outputs) ∧
    signature.inputs ≤ maxArity ∧ signature.outputs ≤ maxArity

/-- The name of a function of a generated program. -/
def IsFunction (name : String) : Prop := ∃ f : FunctionName, name = f.text

mutual

/-- The calls in an expression that stands for the wanted number of values: each calls a function of the list,
    with as many arguments as it has inputs, where as many values are wanted as it has outputs. -/
def Expr.Resolved (functions : List Signature) (wanted : Nat) : Expr → Prop
  | .name _ => True
  | .literal _ _ => True
  | .call callee args =>
    (IsFunction callee → ⟨callee, args.length, wanted⟩ ∈ functions) ∧ Expr.AllResolved functions args

/-- The calls in arguments, each of which stands for one value. -/
def Expr.AllResolved (functions : List Signature) : List Expr → Prop
  | [] => True
  | arg :: args => arg.Resolved functions 1 ∧ Expr.AllResolved functions args

end

/-- The functions that a statement defines for the statements after it. -/
def Stmt.signatures : Stmt → List Signature
  | .function name inputs outputs _ => [⟨name, inputs.length, outputs.length⟩]
  | _ => []

/-- The functions that can be called after the statements of a block. -/
def functionsAfter (functions : List Signature) (body : List Stmt) : List Signature :=
  body.foldl (fun functions stmt => stmt.signatures ++ functions) functions

mutual

/-- Every call in the statement is of a function that is defined before it in an open block, or around it, and
    uses all the results. Every function that is defined is well named. -/
def Stmt.Resolved (functions : List Signature) : Stmt → Prop
  | .declare names value =>
    (names.map TypedName.name).Nodup ∧ value.Resolved functions names.length
  | .assign targets value => targets.Nodup ∧ value.Resolved functions targets.length
  | .call callee args => (Expr.call callee args).Resolved functions 0
  | .block body => Stmt.AllResolved functions body
  | .ifThen cond body => cond.Resolved functions 1 ∧ Stmt.AllResolved functions body
  | .forLoop init cond post body =>
    Stmt.AllResolved functions init ∧ cond.Resolved functions 1 ∧ Stmt.AllResolved functions post ∧
      Stmt.AllResolved functions body
  | .switch scrutinee cases default =>
    scrutinee.Resolved functions 1 ∧ Stmt.CasesResolved functions cases ∧
      Stmt.DefaultResolved functions default
  | .function name inputs outputs body =>
    Signature.WellNamed ⟨name, inputs.length, outputs.length⟩ ∧
      Stmt.AllResolved (⟨name, inputs.length, outputs.length⟩ :: functions) body
  | .breakLoop => True
  | .continueLoop => True

/-- The statements of a block, each with the functions that the ones before it leave. -/
def Stmt.AllResolved (functions : List Signature) : List Stmt → Prop
  | [] => True
  | stmt :: rest => stmt.Resolved functions ∧ Stmt.AllResolved (stmt.signatures ++ functions) rest

/-- The blocks of all arms with a label. -/
def Stmt.CasesResolved (functions : List Signature) : List (Literal × List Stmt) → Prop
  | [] => True
  | (_, body) :: rest => Stmt.AllResolved functions body ∧ Stmt.CasesResolved functions rest

/-- The block of the arm without a label, if there is one. -/
def Stmt.DefaultResolved (functions : List Signature) : Option (List Stmt) → Prop
  | none => True
  | some body => Stmt.AllResolved functions body

end

mutual

/-- The names of all functions that are defined in the statement, in the order of their headers. -/
def Stmt.definitions : Stmt → List String
  | .declare _ _ => []
  | .assign _ _ => []
  | .call _ _ => []
  | .block body => Stmt.listDefinitions body
  | .ifThen _ body => Stmt.listDefinitions body
  | .forLoop init _ post body =>
    Stmt.listDefinitions init ++ Stmt.listDefinitions post ++ Stmt.listDefinitions body
  | .switch _ cases default => Stmt.caseDefinitions cases ++ Stmt.defaultDefinitions default
  | .function name _ _ body => name :: Stmt.listDefinitions body
  | .breakLoop => []
  | .continueLoop => []

/-- The names of all functions that are defined in the statements. -/
def Stmt.listDefinitions : List Stmt → List String
  | [] => []
  | stmt :: rest => stmt.definitions ++ Stmt.listDefinitions rest

/-- The names of all functions that are defined in the arms of a switch with a label. -/
def Stmt.caseDefinitions : List (Literal × List Stmt) → List String
  | [] => []
  | (_, body) :: rest => Stmt.listDefinitions body ++ Stmt.caseDefinitions rest

/-- The names of all functions that are defined in the arm of a switch without a label. -/
def Stmt.defaultDefinitions : Option (List Stmt) → List String
  | none => []
  | some body => Stmt.listDefinitions body

end

variable {functions : List Signature}

theorem Stmt.allResolved_append {first rest : List Stmt} (front : Stmt.AllResolved functions first)
    (back : Stmt.AllResolved (functionsAfter functions first) rest) :
    Stmt.AllResolved functions (first ++ rest) := by
  induction first generalizing functions with
  | nil => exact back
  | cons stmt others ih => exact ⟨front.1, ih front.2 back⟩

theorem functionsAfter_append (functions : List Signature) (first rest : List Stmt) :
    functionsAfter functions (first ++ rest) = functionsAfter (functionsAfter functions first) rest :=
  List.foldl_append

theorem Stmt.listDefinitions_append (first rest : List Stmt) :
    Stmt.listDefinitions (first ++ rest) = Stmt.listDefinitions first ++ Stmt.listDefinitions rest := by
  induction first with
  | nil => rfl
  | cons stmt others ih =>
      rw [List.cons_append, Stmt.listDefinitions, Stmt.listDefinitions, ih, List.append_assoc]

/-- No builtin function is named like a function of a program. -/
theorem not_isFunction_builtin (builtin : Builtin) : ¬ IsFunction builtin.name := by
  rintro ⟨f, same⟩
  have third := congrArg (·.toList[2]?) same
  have fourth := congrArg (·.toList[3]?) same
  cases builtin with
  | log topics => simp [FunctionName.text, Builtin.name] at third
  | nullary op | unary op | binary op | ternary op | store op | halt op | exit op =>
      cases op <;> simp [FunctionName.text, Builtin.name] at fourth <;> cases fourth
  | copy region => cases region <;> simp [FunctionName.text, Builtin.name] at fourth <;> cases fourth
  | extcodecopy | selfdestruct | pop => simp [FunctionName.text, Builtin.name] at fourth

end YulFuzz.Grammar
