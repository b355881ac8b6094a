/-
Module: YulFuzz.Proofs.Points
Purpose: The points that a walk comes to: in each block that is walked, the place in front of every statement
  and the end of the block, each with the state there and with the construct around it that decides where
  loop control and definitions may stand. A part of the tree that is left out has no points.
Main exports: Walk.Context, Walk.Point, Walk.Case, Walk.casesFrom, Walk.points, Tree.Program.points
-/
import YulFuzz.Generation

namespace YulFuzz

namespace Walk

variable {α : Type}

/-- What is innermost around a statement, conditions, switches and plain blocks not counted. -/
inductive Context where
  | program
  | functionBody
  | loopInit
  | loopPost
  | loopBody
  | boundedBody
deriving DecidableEq, Repr

/-- Whether this is the body of a loop of either form. -/
def Context.inLoop : Context → Bool
  | .loopBody | .boundedBody => true
  | .program | .functionBody | .loopInit | .loopPost => false

/-- Whether a statement may not stand here: loop control outside of the bodies of loops, and a definition in
    an init block. -/
def Context.forbids (context : Context) : Tree.Stmt → Bool
  | .breakLoop | .continueLoop => !context.inLoop
  | .define _ _ _ => context = .loopInit
  | _ => false

/-- A point that a walk comes to. -/
structure Point where
  context : Context
  /-- The statements of the block from here on. -/
  rest : List Tree.Stmt
  state : State

/-- Whether the next statement may not stand here. -/
def Point.skips (p : Point) : Bool := p.rest.head?.any p.context.forbids

/-- The walk of the next statement; at the end of a block nothing happens. -/
def Point.run (settings : Settings) (p : Point) : Except Fault (List Yul.Stmt × State) :=
  match p.rest with
  | [] => .ok ([], p.state)
  | stmt :: _ => statement settings stmt p.state

/-- The code made for the next statement. -/
def Point.code (settings : Settings) (p : Point) : List Yul.Stmt :=
  match p.run settings with
  | .ok (code, _) => code
  | .error _ => []

/-- A case of a switch that a walk comes to: its label as it is written, and the block made for it unless the
    case is left out. -/
structure Case where
  label : Yul.Literal
  block : Option Yul.Block

/-- The arm of the switch for a case that is not left out. -/
def Case.arm? (visit : Case) : Option (Yul.Literal × Yul.Block) :=
  visit.block.map (visit.label, ·)

/-- The state at the end of a walk; a walk that breaks a rule leaves the state as it was. -/
def after (walk : Walk α) (s : State) : State :=
  match walk s with
  | .ok (_, final) => final
  | .error _ => s

namespace State

/-- The state after a statement that is left out. -/
def dropStatement (s : State) : State :=
  { s with counters := { s.counters with statementsDropped := s.counters.statementsDropped + 1 } }

/-- The state inside a new scope. -/
def enterScope (s : State) : State :=
  { s with vars := s.vars.enterScope, functions := s.functions.enterScope }

/-- The state inside a switch of which no case was walked. -/
def enterSwitch (s : State) : State := { s with labels := s.labels.enter }

/-- The state where the given things are allowed. -/
def inLoopContext (s : State) (inLoopBody inLoopInit : Bool) : State :=
  { s with inLoopBody, inLoopInit }

/-- The state inside the body of a bounded loop. -/
def inBoundedLoop (s : State) : State :=
  { s with loopDepth := s.loopDepth + 1 }.inLoopContext true false

/-- The state in front of the body of a new function, its parameters and results declared; `none` if the
    function cannot be recorded. -/
def inFunctionBody? (s : State) (inputs outputs : Nat) : Option State :=
  match s.functions.register inputs outputs with
  | .error _ => none
  | .ok (_, functions) =>
    let counters := { s.counters with functionsDefined := s.counters.functionsDefined + 1 }
    let opened := ({ s with functions, counters }.inLoopContext false false).enterScope
    some { opened with vars := opened.vars.enterFunction.declare (inputs + outputs) }

end State

/-- The points of a block, which is a scope of its own unless it is empty. -/
def inBlock (isEmpty : Bool) (inside : State → List Point) (s : State) : List Point :=
  if isEmpty then [] else inside s.enterScope

/-- The cases of a switch, as the walk comes to them from the given state. -/
def casesFrom (settings : Settings) : List (Tree.Literal × List Tree.Stmt) → State → List Case
  | [], _ => []
  | (label, body) :: rest, s =>
    match literal settings.seed label s, caseArms settings [(label, body)] s with
    | .ok (label, _), .ok (arms, later) =>
      ⟨label, arms.head?.map Prod.snd⟩ :: casesFrom settings rest later
    | _, _ => []

/-- The cases of the switch in front of a point, if the next statement is one. -/
def Point.cases (settings : Settings) (p : Point) : List Case :=
  match p.rest with
  | .switch scrutinee cases _ :: _ =>
    casesFrom settings cases (after (expression settings.seed scrutinee) p.state).enterSwitch
  | _ => []

/-- How many cases of the switch in front of a point are left out. -/
def Point.casesDropped (settings : Settings) (p : Point) : Nat :=
  (p.cases settings).countP (·.block.isNone)

mutual

/-- The points inside a statement that is walked from the given state. -/
def pointsIn (settings : Settings) (context : Context) : Tree.Stmt → State → List Point
  | .ifThen cond body, s =>
    inBlock body.isEmpty (points settings context body) (after (expression settings.seed cond) s)
  | .block body, s => inBlock body.isEmpty (points settings context body) s
  | .forLoop init cond post body, s =>
    let opened := s.enterScope
    let started := after (Walk.inLoopContext false true (statements settings init)) opened
    let tested := after (expression settings.seed cond) started
    let stepped := after (Walk.inLoopContext false false
      (braces post.isEmpty (statements settings post))) tested
    points settings .loopInit init (opened.inLoopContext false true) ++
      (inBlock post.isEmpty (points settings .loopPost post) (tested.inLoopContext false false) ++
        inBlock body.isEmpty (points settings .loopBody body) (stepped.inLoopContext true false))
  | .boundedFor body, s =>
    inBlock body.isEmpty (points settings .boundedBody body) s.inBoundedLoop
  | .switch scrutinee cases default, s =>
    let tested := after (expression settings.seed scrutinee) s
    pointsInCases settings context cases tested.enterSwitch ++
      pointsInDefault settings context default (after (inSwitch (caseArms settings cases)) tested)
  | .define inputs outputs body, s =>
    if s.inLoopInit then []
    else
      match s.inFunctionBody? (inputs.toNat % (maxArity + 1)) (outputs.toNat % (maxArity + 1)) with
      | none => []
      | some start => inBlock body.isEmpty (points settings .functionBody body) start
  | _, _ => []

/-- The points of the rest of a block that is walked from the given state. -/
def points (settings : Settings) (context : Context) : List Tree.Stmt → State → List Point
  | [], s => [⟨context, [], s⟩]
  | stmt :: rest, s =>
    ⟨context, stmt :: rest, s⟩ :: (pointsIn settings context stmt s ++
      points settings context rest (after (statement settings stmt) s))

/-- The points inside the cases of a switch; a case that is left out has none. -/
def pointsInCases (settings : Settings) (context : Context) :
    List (Tree.Literal × List Tree.Stmt) → State → List Point
  | [], _ => []
  | (label, body) :: rest, s =>
    (match (literal settings.seed label >>= fun label => recordLabel label.word) s with
      | .ok (true, inside) => inBlock body.isEmpty (points settings context body) inside
      | _ => []) ++
    pointsInCases settings context rest (after (caseArms settings [(label, body)]) s)

/-- The points inside the last arm of a switch, if it has no label. -/
def pointsInDefault (settings : Settings) (context : Context) : Option (List Tree.Stmt) → State → List Point
  | none, _ => []
  | some body, s => inBlock body.isEmpty (points settings context body) s

end

end Walk

/-- The points that the walk of a program comes to. -/
def Tree.Program.points (settings : Settings) (program : Program) : List Walk.Point :=
  Walk.inBlock program.block.isEmpty (Walk.points settings .program program.block) {}

end YulFuzz
