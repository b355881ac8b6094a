/-
Module: YulFuzz.Walk.Fault
Purpose: The ways in which the bookkeeping of a walk could be used against its rules. Each operation that
  has a precondition reports its breach as a fault; the walk of a tree keeps all preconditions and never ends in
  a fault.
Main exports: Walk.Fault
-/

namespace YulFuzz.Walk

/-- A breach of a precondition of the bookkeeping. -/
inductive Fault where
  /-- A scope of variables is left that was not entered. -/
  | variableScopeNotOpen
  /-- A function body is left that was not entered. -/
  | functionBodyNotOpen
  /-- A scope of functions is left that was not entered. -/
  | functionScopeNotOpen
  /-- A case label is recorded, or a switch left, outside a switch. -/
  | switchNotOpen
  /-- More variables are hidden than are live. -/
  | hiddenBeyondLive
  /-- A function has more inputs or outputs than the arity bound. -/
  | arityTooLarge
  /-- A counter of 32 bits has no next number. -/
  | counterOverflow
  /-- An assignment has more targets than there are visible variables. -/
  | tooFewVariables
  /-- A hex literal has more digits than a word. -/
  | hexTooLong
  /-- A scope, switch or loop is still open at the end. -/
  | leftOpen
deriving DecidableEq, Repr

end YulFuzz.Walk
