/-
Module: YulFuzz.Scope.Variables
Purpose: The variables that can be referred to at a point of the program. Variables are numbered by a
  counter of live variables. Entering a scope keeps the counter, leaving it restores the counter, so that
  the variables declared inside become unreachable. Entering a function body hides every variable that is
  live there: references inside resolve only to later ones, and new ones are numbered from there on.
Main exports: Variables, Variables.enterScope, Variables.exitScope, Variables.enterFunction,
  Variables.exitFunction, Variables.declare, Variables.visible, Variables.resolve
-/
import YulFuzz.Walk.Fault

namespace YulFuzz

open Walk (Fault)

/-- The live variables with the stacks that restore them. -/
structure Variables where
  /-- Number of variables declared so far in all open scopes. -/
  live : Nat := 0
  /-- The live count at the entry of each open scope, innermost first. -/
  checkpoints : List Nat := []
  /-- The live count at the entry of the innermost function body. -/
  hidden : Nat := 0
  /-- Whether a function body is open. -/
  inFunction : Bool := false
  /-- The values of `hidden` and `inFunction` around each open function body, innermost first. -/
  enclosing : List (Nat × Bool) := []
  /-- Number of scopes entered so far. -/
  entered : Nat := 0
  /-- Number of scopes left so far. -/
  exited : Nat := 0
deriving DecidableEq, Repr

namespace Variables

/-- Open a scope. -/
def enterScope (v : Variables) : Variables :=
  { v with checkpoints := v.live :: v.checkpoints, entered := v.entered + 1 }

/-- Close the innermost scope; its variables are no longer live. -/
def exitScope (v : Variables) : Except Fault Variables :=
  match v.checkpoints with
  | [] => .error .variableScopeNotOpen
  | checkpoint :: rest =>
    .ok { v with live := checkpoint, checkpoints := rest, exited := v.exited + 1 }

/-- Hide every live variable until the function body is left. -/
def enterFunction (v : Variables) : Variables :=
  { v with
    enclosing := (v.hidden, v.inFunction) :: v.enclosing
    hidden := v.live
    inFunction := true }

/-- Leave the innermost function body; the live count stays. -/
def exitFunction (v : Variables) : Except Fault Variables :=
  match v.enclosing with
  | [] => .error .functionBodyNotOpen
  | (hidden, inFunction) :: rest => .ok { v with hidden, inFunction, enclosing := rest }

/-- Declare variables; the first of them has the number of live variables before. -/
def declare (v : Variables) (count : Nat) : Variables :=
  { v with live := v.live + count }

/-- The first variable that can be referred to. -/
def offset (v : Variables) : Nat :=
  if v.inFunction then v.hidden else 0

/-- The number of variables that can be referred to. -/
def visible (v : Variables) : Except Fault Nat :=
  if v.offset ≤ v.live then .ok (v.live - v.offset) else .error .hiddenBeyondLive

/-- The visible variable that a number stands for, counting on from the first one after the last;
    `none` if no variable is visible. -/
def resolve (v : Variables) (number : Nat) : Except Fault (Option Nat) := do
  let visible ← v.visible
  return if visible = 0 then none else some (v.offset + number % visible)

/-- Number of open scopes. -/
def depth (v : Variables) : Nat := v.checkpoints.length

end Variables

end YulFuzz
