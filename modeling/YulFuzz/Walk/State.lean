/-
Module: YulFuzz.Walk.State
Purpose: The state of a walk over a tree, and the actions that change it. Whatever is entered (a scope, a
  function body, a switch, a loop) is entered through an action that takes the walk of the inside and leaves
  it again afterwards.
Main exports: Walk, Walk.State, Walk.Counters, Walk.inScope, Walk.inFunctionBody, Walk.inLoopContext,
  Walk.inBoundedLoop, Walk.inSwitch, Walk.braces, Walk.drawToken
-/
import YulFuzz.Scope.CaseLabels
import YulFuzz.Scope.Functions
import YulFuzz.Scope.Variables
import YulFuzz.Seed.Tokens
import YulFuzz.Yul.Code

namespace YulFuzz

namespace Walk

/-- What a walk counts. No counter gets beyond the number of nodes of the tree, so 32 bits hold them all for a tree
    of fewer than `2 ^ 32` nodes. -/
structure Counters where
  functionsDefined : Nat := 0
  callsEmitted : Nat := 0
  /-- Calls replaced by a token, since there was nothing to call. -/
  callFallbacks : Nat := 0
  /-- Cases left out, since an earlier case of the same switch has the same value. -/
  casesDropped : Nat := 0
  /-- Loop control outside a loop body and definitions inside a loop's init block, left out. -/
  statementsDropped : Nat := 0
deriving DecidableEq, Repr

/-- The state of a walk. -/
structure State where
  vars : Variables := {}
  functions : Functions := {}
  labels : CaseLabels := {}
  /-- Number of dictionary tokens drawn so far. -/
  drawn : Nat := 0
  /-- Number of bounded loops around the current statement. -/
  loopDepth : Nat := 0
  /-- Whether `break` and `continue` are allowed here. -/
  inLoopBody : Bool := false
  /-- Whether function definitions are forbidden here. -/
  inLoopInit : Bool := false
  counters : Counters := {}
deriving DecidableEq, Repr

end Walk

/-- A walk changes the state and gives a result, unless it breaks a rule of the bookkeeping. -/
abbrev Walk := StateT Walk.State (Except Walk.Fault)

namespace Walk

variable {α : Type}

/-- Change the counters. -/
def count (f : Counters → Counters) : Walk Unit :=
  modify fun s => { s with counters := f s.counters }

/-- The next dictionary token. -/
def drawToken (seed : Seed) : Walk String := do
  let s ← get
  set { s with drawn := s.drawn + 1 }
  return seed.token s.drawn

/-- The next dictionary token as a literal expression. -/
def tokenExpr (seed : Seed) : Walk Yul.Expr := do
  return .literal (.hex (← drawToken seed))

/-- As many dictionary tokens as wanted, as literal expressions. -/
def tokenExprs (seed : Seed) : Nat → Walk (List Yul.Expr)
  | 0 => return []
  | count + 1 => do
    let token ← tokenExpr seed
    return token :: (← tokenExprs seed count)

/-- Declare new variables; the answer is their names. -/
def declare (count : Nat) : Walk (List Yul.Var) := do
  let s ← get
  set { s with vars := s.vars.declare count }
  return (List.range count).map fun i => .user (s.vars.live + i)

/-- The visible variable that a number of the tree stands for. -/
def resolve (number : UInt32) : Walk (Option Yul.Var) := do
  let found ← (← get).vars.resolve number.toNat
  return found.map .user

/-- Walk the inside of a scope of variables and functions. -/
def inScope (inside : Walk α) : Walk α := do
  modify fun s =>
    { s with vars := s.vars.enterScope, functions := s.functions.enterScope }
  let result ← inside
  let s ← get
  let functions ← s.functions.exitScope
  let vars ← s.vars.exitScope
  set { s with vars, functions }
  return result

/-- Walk the inside of a part of a loop, or of a function body, and restore what was allowed around it. -/
def inLoopContext (inLoopBody inLoopInit : Bool) (inside : Walk α) : Walk α := do
  let around ← get
  set { around with inLoopBody, inLoopInit }
  let result ← inside
  modify fun s => { s with inLoopBody := around.inLoopBody, inLoopInit := around.inLoopInit }
  return result

/-- Walk the inside of a function body: a scope that sees no variable from around it and is in no loop. -/
def inFunctionBody (inside : Walk α) : Walk α :=
  inLoopContext false false <| inScope do
    modify fun s => { s with vars := s.vars.enterFunction }
    let result ← inside
    let s ← get
    let vars ← s.vars.exitFunction
    set { s with vars }
    return result

/-- Walk the inside of a bounded loop, which gets the number of bounded loops around it. -/
def inBoundedLoop (inside : (depth : Nat) → Walk α) : Walk α := do
  let depth := (← get).loopDepth
  modify fun s => { s with loopDepth := s.loopDepth + 1 }
  let result ← inside depth
  modify fun s => { s with loopDepth := s.loopDepth - 1 }
  return result

/-- Walk the cases of a switch, with no label used yet. -/
def inSwitch (inside : Walk α) : Walk α := do
  modify fun s => { s with labels := s.labels.enter }
  let result ← inside
  let s ← get
  let labels ← s.labels.exit
  set { s with labels }
  return result

/-- Record a case label; the answer is whether its value is new in the innermost switch. -/
def recordLabel (value : Word) : Walk Bool := do
  let s ← get
  let (isNew, labels) ← s.labels.record value
  set { s with labels }
  return isNew

/-- The block for a list of statements of the tree. An empty list gives a compact block and opens no
    scope. -/
def braces (isEmpty : Bool) (body : Walk (List Yul.Stmt)) : Walk Yul.Block :=
  if isEmpty then return .compact else inScope do return .spread (← body)

end Walk

end YulFuzz
