/-
Module: YulFuzz.Scope.Registry
Purpose: The record of functions with counters of 32 bits. Scopes, call sites and arities are those of `Functions`;
  but the index of the next function of a kind is a number of 32 bits, and so is the number of all functions. What
  becomes of a count that does not fit depends on the arithmetic: either it is a fault, or the count starts again
  from 0, and then indices are used again. A program of fewer than `2 ^ 32` nodes never gets there, so the walk
  of a tree keeps `Functions`.
Main exports: Arithmetic, Registry, Registry.functions, Registry.register, Registry.total
-/
import YulFuzz.Scope.Functions

namespace YulFuzz

open Walk (Fault)

/-- What becomes of a sum that does not fit a counter: it is a fault, or it wraps around. -/
inductive Arithmetic where
  | checked | wrapping
deriving DecidableEq, Repr

namespace Arithmetic

/-- The counter of 32 bits for a number. -/
def counter (arithmetic : Arithmetic) (number : Nat) : Except Fault UInt32 :=
  match arithmetic with
  | .checked => if number < UInt32.size then .ok (UInt32.ofNat number) else .error .counterOverflow
  | .wrapping => .ok (UInt32.ofNat number)

/-- The sum of two counters. -/
def add (arithmetic : Arithmetic) (first second : UInt32) : Except Fault UInt32 :=
  arithmetic.counter (first.toNat + second.toNat)

/-- A number that fits is counted by either arithmetic. -/
theorem counter_of_lt {number : Nat} (fits : number < UInt32.size) (arithmetic : Arithmetic) :
    arithmetic.counter number = .ok (UInt32.ofNat number) := by
  cases arithmetic with
  | checked => exact if_pos fits
  | wrapping => rfl

theorem counter_checked_of_le {number : Nat} (tooLarge : UInt32.size ≤ number) :
    checked.counter number = .error .counterOverflow :=
  if_neg (Nat.not_lt.2 tooLarge)

end Arithmetic

/-- The functions recorded so far, numbered with 32 bits. -/
structure Registry where
  /-- The index of the next function of each kind. -/
  next : PerKind UInt32 := ⟨0, 0, 0⟩
  /-- The callable functions of each kind, in the order of their definitions. -/
  visible : PerKind (List Callable) := ⟨[], [], []⟩
  /-- How many were callable at the entry of each open scope, innermost first. -/
  marks : List (PerKind Nat) := []
deriving DecidableEq, Repr

namespace Registry

/-- The same functions; call sites only look at these. -/
def functions (r : Registry) : Functions := ⟨r.next.map UInt32.toNat, r.visible, r.marks⟩

/-- Record a function with the given numbers of inputs and outputs, under the next index of its kind. -/
def register (arithmetic : Arithmetic) (r : Registry) (inputs outputs : Nat) :
    Except Fault (FunctionName × Registry) := do
  let (name, functions) ← r.functions.register inputs outputs
  let next ← arithmetic.add (r.next.get name.kind) 1
  return (name, { r with next := r.next.modify name.kind fun _ => next, visible := functions.visible })

/-- Number of functions recorded so far, callable or not. -/
def total (arithmetic : Arithmetic) (r : Registry) : Except Fault UInt32 :=
  [r.next.noReturn, r.next.singleReturn, r.next.multiReturn].foldlM arithmetic.add 0

/-- Open a scope. -/
def enterScope (r : Registry) : Registry :=
  { r with marks := r.functions.enterScope.marks }

/-- Close the innermost scope; the functions defined in it are no longer callable. -/
def exitScope (r : Registry) : Except Fault Registry := do
  let functions ← r.functions.exitScope
  return { r with visible := functions.visible, marks := functions.marks }

end Registry

end YulFuzz
