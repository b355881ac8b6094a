/-
Module: YulFuzz.Generation
Purpose: The text of a well-formed Yul program for a program tree, with counters about the walk that makes
  it. There is one for every tree.
Main exports: Generation, Generation.Stats, Tree.Program.generate, Tree.Program.generateText
-/
import YulFuzz.Walk.Statement
import YulFuzz.Yul.Printer

namespace YulFuzz

namespace Generation

/-- Counters of one finished generation. -/
structure Stats where
  scopesEntered : Nat
  scopesExited : Nat
  /-- Live variables after the outermost block; always zero. -/
  finalLiveVars : Nat
  functionsDefined : Nat
  callsEmitted : Nat
  callFallbacks : Nat
  casesDropped : Nat
  statementsDropped : Nat
  dictionaryTokens : Nat
deriving DecidableEq, Repr

/-- The counters of a walk that ended in the given state. -/
def Stats.ofState (s : Walk.State) : Stats where
  scopesEntered := s.vars.entered
  scopesExited := s.vars.exited
  finalLiveVars := s.vars.live
  functionsDefined := s.counters.functionsDefined
  callsEmitted := s.counters.callsEmitted
  callFallbacks := s.counters.callFallbacks
  casesDropped := s.counters.casesDropped
  statementsDropped := s.counters.statementsDropped
  dictionaryTokens := s.drawn

end Generation

/-- The result of a generation. -/
structure Generation where
  yul : String
  stats : Generation.Stats
deriving DecidableEq, Repr

namespace Tree.Program

/-- The Yul code for a program, with the state at the end of the walk. -/
def walk (settings : Settings) (program : Program) : Except Walk.Fault (Yul.Block × Walk.State) :=
  (Walk.braces program.block.isEmpty (Walk.statements settings program.block)).run {}

/-- Generate the Yul program for a tree. At the end every scope, switch and loop has been left. -/
def generate (settings : Settings) (program : Program) : Except Walk.Fault Generation := do
  let (code, s) ← program.walk settings
  if s.vars.depth ≠ 0 ∨ s.labels.depth ≠ 0 ∨ s.loopDepth ≠ 0 then throw .leftOpen
  return ⟨code.render, .ofState s⟩

/-- Generate the text of the Yul program alone. -/
def generateText (settings : Settings) (program : Program) : Except Walk.Fault String := do
  return (← program.generate settings).yul

end Tree.Program

end YulFuzz
