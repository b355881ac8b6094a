/-
Module: YulFuzz.Scope.Functions
Purpose: The functions that can be called at a point of the program, by the number of values they return.
  A function stays callable until the scope that holds its definition is left; its index within its kind is
  never used again, so that every function of a program has a name of its own. Call sites only pick from
  these records.
Main exports: FunctionKind, FunctionName, Callable, Functions, Functions.register, Functions.pick,
  Functions.pickMultiWithin, Functions.callIsPossible
-/
import YulFuzz.Tree
import YulFuzz.Walk.Fault

namespace YulFuzz

open Walk (Fault)

/-- The greatest number of inputs, and of outputs, of a function. -/
def maxArity : Nat := 5

/-- Functions by how many values they return: none, one, or several. -/
inductive FunctionKind where
  | noReturn | singleReturn | multiReturn
deriving DecidableEq, Repr

namespace FunctionKind

/-- The kind of a function with this many outputs. -/
def ofOutputs : Nat → FunctionKind
  | 0 => .noReturn
  | 1 => .singleReturn
  | _ => .multiReturn

/-- The name of the kind, as part of function names. -/
def name : FunctionKind → String
  | .noReturn => "noreturn"
  | .singleReturn => "singlereturn"
  | .multiReturn => "multireturn"

/-- All kinds. -/
def all : List FunctionKind := [.noReturn, .singleReturn, .multiReturn]

end FunctionKind

/-- A function is named by its kind and its index within the kind. -/
structure FunctionName where
  kind : FunctionKind
  index : Nat
deriving DecidableEq, Repr

/-- The name as it is written. -/
def FunctionName.text (f : FunctionName) : String :=
  "foo_" ++ f.kind.name ++ "_" ++ toString f.index

/-- A function that can be called. -/
structure Callable where
  name : FunctionName
  inputs : Nat
  outputs : Nat
deriving DecidableEq, Repr

/-- One thing for each kind of function. -/
structure PerKind (α : Type) where
  noReturn : α
  singleReturn : α
  multiReturn : α
deriving DecidableEq, Repr

namespace PerKind

/-- The thing for one kind. -/
def get {α : Type} (p : PerKind α) : FunctionKind → α
  | .noReturn => p.noReturn
  | .singleReturn => p.singleReturn
  | .multiReturn => p.multiReturn

/-- Change the thing for one kind. -/
def modify {α : Type} (p : PerKind α) (kind : FunctionKind) (f : α → α) : PerKind α :=
  match kind with
  | .noReturn => { p with noReturn := f p.noReturn }
  | .singleReturn => { p with singleReturn := f p.singleReturn }
  | .multiReturn => { p with multiReturn := f p.multiReturn }

/-- Change the thing for each kind. -/
def map {α β : Type} (p : PerKind α) (f : α → β) : PerKind β :=
  ⟨f p.noReturn, f p.singleReturn, f p.multiReturn⟩

/-- Join two things for each kind. -/
def zipWith {α β γ : Type} (f : α → β → γ) (p : PerKind α) (q : PerKind β) : PerKind γ :=
  ⟨f p.noReturn q.noReturn, f p.singleReturn q.singleReturn, f p.multiReturn q.multiReturn⟩

end PerKind

/-- The functions defined so far. Indices have no bound here; `Registry` counts them with 32 bits, and for a tree
    of fewer than `2 ^ 32` nodes the two agree. -/
structure Functions where
  /-- The index of the next function of each kind. -/
  next : PerKind Nat := ⟨0, 0, 0⟩
  /-- The callable functions of each kind, in the order of their definitions. -/
  visible : PerKind (List Callable) := ⟨[], [], []⟩
  /-- How many were callable at the entry of each open scope, innermost first. -/
  marks : List (PerKind Nat) := []
deriving DecidableEq, Repr

namespace Functions

/-- Record a function with the given numbers of inputs and outputs, under the next index of its kind. -/
def register (fs : Functions) (inputs outputs : Nat) : Except Fault (FunctionName × Functions) :=
  if inputs ≤ maxArity ∧ outputs ≤ maxArity then
    let kind := FunctionKind.ofOutputs outputs
    let name : FunctionName := ⟨kind, fs.next.get kind⟩
    .ok (name,
      { fs with
        next := fs.next.modify kind (· + 1)
        visible := fs.visible.modify kind (· ++ [⟨name, inputs, outputs⟩]) })
  else
    .error .arityTooLarge

/-- The callable functions of a kind. -/
def candidates (fs : Functions) (kind : FunctionKind) : List Callable :=
  fs.visible.get kind

/-- The number of callable functions of a kind. -/
def count (fs : Functions) (kind : FunctionKind) : Nat :=
  (fs.candidates kind).length

/-- The function of a kind that a selector stands for, counting on from the first one after the last. -/
def pick (fs : Functions) (kind : FunctionKind) (selector : Nat) : Option Callable :=
  let candidates := fs.candidates kind
  if candidates.isEmpty then none else candidates[selector % candidates.length]?

/-- The first function with several outputs, but at most `maxOutputs`, starting at the one that the
    selector stands for and counting on from the first one after the last. -/
def pickMultiWithin (fs : Functions) (selector maxOutputs : Nat) : Option Callable :=
  let candidates := fs.candidates .multiReturn
  if candidates.isEmpty then none
  else
    let start := selector % candidates.length
    (candidates.drop start ++ candidates.take start).find? (·.outputs ≤ maxOutputs)

/-- Whether a call statement with this usage can be made at all. Functions with one output are kept for
    expressions; values can only be assigned where a variable is visible. -/
def callIsPossible (fs : Functions) (usage : Tree.CallUsage) (anyVariable : Bool) : Bool :=
  match usage with
  | .single => false
  | .none => 0 < fs.count .noReturn
  | .multiDecl => 0 < fs.count .multiReturn
  | .multiAssign => anyVariable && 0 < fs.count .multiReturn

/-- Number of functions recorded so far, callable or not. -/
def total (fs : Functions) : Nat := fs.next.noReturn + fs.next.singleReturn + fs.next.multiReturn

/-- Open a scope. -/
def enterScope (fs : Functions) : Functions :=
  { fs with marks := fs.visible.map List.length :: fs.marks }

/-- Close the innermost scope; the functions defined in it are no longer callable. -/
def exitScope (fs : Functions) : Except Fault Functions :=
  match fs.marks with
  | [] => .error .functionScopeNotOpen
  | mark :: rest =>
    .ok { fs with visible := PerKind.zipWith List.take mark fs.visible, marks := rest }

end Functions

end YulFuzz
