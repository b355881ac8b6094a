/-
Module: YulFuzz.Scope.CaseLabels
Purpose: The case labels already used in each open switch, compared as words.
Main exports: CaseLabels, CaseLabels.enter, CaseLabels.exit, CaseLabels.record
-/
import YulFuzz.Walk.Fault
import YulFuzz.Word

namespace YulFuzz

open Walk (Fault)

/-- The values used as labels in each open switch, innermost first. -/
structure CaseLabels where
  used : List (List Word) := []
deriving DecidableEq, Repr

namespace CaseLabels

/-- Open a switch without labels. -/
def enter (labels : CaseLabels) : CaseLabels := ⟨[] :: labels.used⟩

/-- Close the innermost switch. -/
def exit (labels : CaseLabels) : Except Fault CaseLabels :=
  match labels.used with
  | [] => .error .switchNotOpen
  | _ :: rest => .ok ⟨rest⟩

/-- Record a label of the innermost switch; the answer is whether its value is new there. -/
def record (labels : CaseLabels) (value : Word) : Except Fault (Bool × CaseLabels) :=
  match labels.used with
  | [] => .error .switchNotOpen
  | used :: rest =>
    if value ∈ used then .ok (false, labels) else .ok (true, ⟨(value :: used) :: rest⟩)

/-- Number of open switches. -/
def depth (labels : CaseLabels) : Nat := labels.used.length

end CaseLabels

end YulFuzz
