/-
Module: YulFuzz.Proofs.Visits
Purpose: The calls and the cases of a tree that a walk comes to. A call in front of a point either finds a
  function, and the walk comes to as many of its arguments as the function has inputs, or it finds none, and
  the walk comes to no argument. The walk comes to all cases of a switch, but not into the block of a case that
  is left out.
Main exports: Walk.Visit, Walk.visitsIn, Walk.Point.visits, Walk.Point.caseNodes
-/
import YulFuzz.Proofs.Points

namespace YulFuzz.Walk

/-- A call of the tree that a walk comes to, with the function that it finds. -/
structure Visit where
  usage : Tree.CallUsage
  selector : UInt32
  args : List Tree.Expr
  targets : List UInt32
  callee : Option Callable

/-- Whether the call is made. -/
def Visit.isMade (visit : Visit) : Bool := visit.callee.isSome

/-- Whether a token stands in place of the call. -/
def Visit.isReplaced (visit : Visit) : Bool := visit.callee.isNone

theorem Visit.isReplaced_eq_not (visit : Visit) : visit.isReplaced = !visit.isMade := by
  rw [isReplaced, isMade, Option.not_isSome]

mutual

/-- The calls in an expression that a walk comes to where the given functions can be called. -/
def visitsIn (functions : Functions) : Tree.Expr → List Visit
  | .varRef _ => []
  | .literal _ => []
  | .binary _ left right => visitsIn functions left ++ visitsIn functions right
  | .unary _ operand => visitsIn functions operand
  | .ternary _ first second third =>
    visitsIn functions first ++ (visitsIn functions second ++ visitsIn functions third)
  | .nullary _ => []
  | .call usage selector args targets =>
    match functions.pick .singleReturn selector.toNat with
    | none => [⟨usage, selector, args, targets, none⟩]
    | some callee =>
      ⟨usage, selector, args, targets, some callee⟩ :: visitsInArguments functions callee.inputs args
  | .unset => []

/-- The calls in the arguments of a call, of which only the wanted number is walked. -/
def visitsInArguments (functions : Functions) : (wanted : Nat) → List Tree.Expr → List Visit
  | _, [] => []
  | 0, _ :: _ => []
  | wanted + 1, arg :: args => visitsIn functions arg ++ visitsInArguments functions wanted args

end

/-- A call as a statement, and the calls in its arguments. -/
def visitsInCall (usage : Tree.CallUsage) (selector : UInt32) (args : List Tree.Expr) (targets : List UInt32)
    (s : State) : List Visit :=
  match callee? usage selector s with
  | .ok (some callee, _) =>
    ⟨usage, selector, args, targets, some callee⟩ :: visitsInArguments s.functions callee.inputs args
  | _ => [⟨usage, selector, args, targets, none⟩]

/-- The calls in the next statement, those in its blocks not counted. -/
def Point.visits (settings : Settings) (p : Point) : List Visit :=
  match p.rest with
  | .declare _ value :: _ | .assign _ value :: _ => visitsIn p.state.functions value
  | .ifThen cond _ :: _ => visitsIn p.state.functions cond
  | .store _ location value :: _ => [location, value].flatMap (visitsIn p.state.functions)
  | .forLoop init cond _ _ :: _ =>
    let started := after (Walk.inLoopContext false true (statements settings init)) p.state.enterScope
    visitsIn started.functions cond
  | .switch scrutinee cases default :: _ =>
    if cases.isEmpty && default.isNone then [] else visitsIn p.state.functions scrutinee
  | .log position size topics :: _ =>
    (position :: size :: topics.take maxTopics).flatMap (visitsIn p.state.functions)
  | .copy _ target source size :: _ => [target, source, size].flatMap (visitsIn p.state.functions)
  | .extCodeCopy address target source size :: _ =>
    [address, target, source, size].flatMap (visitsIn p.state.functions)
  | .exit _ position size :: _ => [position, size].flatMap (visitsIn p.state.functions)
  | .selfDestruct address :: _ => [address].flatMap (visitsIn p.state.functions)
  | .call usage selector args targets :: _ => visitsInCall usage selector args targets p.state
  | .pop value :: _ => [value].flatMap (visitsIn p.state.functions)
  | .block _ :: _ | .boundedFor _ :: _ | .define _ _ _ :: _ | .halt _ :: _ | .breakLoop :: _
  | .continueLoop :: _ | [] => []

/-- The cases of the switch in front of a point, if the next statement is one. -/
def Point.caseNodes (p : Point) : List (Tree.Literal × List Tree.Stmt) :=
  match p.rest with
  | .switch _ cases _ :: _ => cases
  | _ => []

end YulFuzz.Walk
