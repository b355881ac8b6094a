/-
Module: YulFuzz.Walk.Statement
Purpose: Statements of the tree become Yul statements. A statement gives one Yul statement, none if it is
  left out, or two for a function definition, which is followed by a call of the new function. Calls are
  made only where a visible function fits; otherwise a token is popped in their place.
Main exports: Walk.assignmentSlots, Walk.callStatement, Walk.statement, Walk.statements
-/
import YulFuzz.Settings
import YulFuzz.Walk.Expression

namespace YulFuzz.Walk

/-- The greatest number of topics of a log entry. -/
def maxTopics : Nat := 4

/-- Bytes between consecutive calldata words, and between the storage slots of consecutive results. -/
def wordSize : UInt64 := 32

/-- A number literal as an expression. -/
def decimal (value : UInt64) : Yul.Expr := .literal (.decimal value)

/-- The statement that discards a value. -/
def discard (value : Yul.Expr) : Yul.Stmt := .builtin .pop [value]

/-- The first slot that is not used, from the given one on and after the last slot from the start, within a
    number of tries. -/
def probe (visible : Nat) (used : List Nat) : (tries slot : Nat) → Option Nat
  | 0, _ => none
  | tries + 1, slot =>
    if slot ∈ used then probe visible used tries ((slot + 1) % visible) else some slot

/-- Distinct slots below `visible` for the targets of an assignment, `place` being the place of the first
    one. Each is the requested number, or its place where none is requested, modulo `visible`, or the next
    slot that is not used. -/
def assignmentSlots (visible : Nat) (requests : List Nat) (used : List Nat) (place : Nat) :
    (count : Nat) → Option (List Nat)
  | 0 => some []
  | count + 1 => do
    let requested := requests[place]?.getD place
    let slot ← probe visible used visible (requested % visible)
    let rest ← assignmentSlots visible requests (slot :: used) (place + 1) count
    return slot :: rest

/-- The variables that a call's results are assigned to. -/
def assignmentTargets (requests : List UInt32) (wanted : Nat) : Walk (List Yul.Var) := do
  let vars := (← get).vars
  let visible ← vars.visible
  if visible < wanted then throw .tooFewVariables
  match assignmentSlots visible (requests.map UInt32.toNat) [] 0 wanted with
  | some slots => return slots.map fun slot => .user (vars.offset + slot)
  | none => throw .tooFewVariables

/-- A call of a function of the program, with as many arguments as it has inputs. -/
def call (seed : Seed) (callee : Callable) (args : List Tree.Expr) : Walk Yul.Expr := do
  count fun c => { c with callsEmitted := c.callsEmitted + 1 }
  return .call (.function callee.name) (← arguments seed callee.inputs args)

/-- What stands in place of a call statement that cannot be made. -/
def callFallback (seed : Seed) : Walk Yul.Stmt := do
  count fun c => { c with callFallbacks := c.callFallbacks + 1 }
  return discard (← tokenExpr seed)

/-- The function that a call statement calls: one that its usage asks for and, if its results are assigned,
    one with no more results than there are visible variables. -/
def callee? (usage : Tree.CallUsage) (selector : UInt32) : Walk (Option Callable) := do
  let s ← get
  let visible ← s.vars.visible
  if !s.functions.callIsPossible usage (0 < visible) then return none
  match usage with
  | .none => return s.functions.pick .noReturn selector.toNat
  | .single => return none
  | .multiDecl => return s.functions.pick .multiReturn selector.toNat
  | .multiAssign => return s.functions.pickMultiWithin selector.toNat visible

/-- A call as a statement. Arguments of a declaration cannot refer to the variables that it declares. -/
def callStatement (seed : Seed) (usage : Tree.CallUsage) (selector : UInt32) (args : List Tree.Expr)
    (requests : List UInt32) : Walk Yul.Stmt := do
  match ← callee? usage selector with
  | none => callFallback seed
  | some callee =>
    match usage with
    | .none | .single => return .expr (← call seed callee args)
    | .multiDecl =>
      let value ← call seed callee args
      return .letMany (← declare callee.outputs) value
    | .multiAssign =>
      let targets ← assignmentTargets requests callee.outputs
      return .assign targets (← call seed callee args)

/-- The call right after a definition, so that no definition goes unused. Arguments are words of calldata;
    results are bound in a block of their own and stored one after the other. -/
def callAfterDefinition (name : FunctionName) (inputs outputs : Nat) : Walk Yul.Stmt := do
  count fun c => { c with callsEmitted := c.callsEmitted + 1 }
  let args := (List.range inputs).map fun i =>
    .call (.builtin (.unary .calldataload)) [decimal (UInt64.ofNat i * wordSize)]
  let call := .call (.function name) args
  if outputs = 0 then return .expr call
  inScope do
    let results ← declare outputs
    let stores := results.zipIdx.map fun (result, i) =>
      .builtin (.store .sstore) [decimal (UInt64.ofNat i * wordSize), .var result]
    return .block (.spread (.letMany results call :: stores))

/-- A new variable; it cannot be referred to in its own value. In the typed dialect a value that is a number
    literal carries the type too, unless the type is `bool`. -/
def declareVariable (settings : Settings) (type : Option TypeName) (value : Tree.Expr) :
    Walk Yul.Stmt := do
  let result ← expression settings.seed value
  let s ← get
  set { s with vars := s.vars.declare 1 }
  let ascription : Option Yul.Ascription :=
    if settings.typedDeclarations then
      type.map fun type =>
        { type
          onValue :=
            match value with
            | .literal (.int _) | .literal (.hex _) => type ≠ .bool
            | _ => false }
    else none
  return .letOne (.user s.vars.live) ascription result

/-- An assignment; with no variable visible, the value is discarded. -/
def assign (seed : Seed) (target : UInt32) (value : Tree.Expr) : Walk Yul.Stmt := do
  match ← resolve target with
  | none => return discard (← expression seed value)
  | some found => return .assign [found] (← expression seed value)

/-- Loop control, left out outside a loop body. -/
def loopControl (control : Yul.Stmt) : Walk (List Yul.Stmt) := do
  if (← get).inLoopBody then return [control]
  count fun c => { c with statementsDropped := c.statementsDropped + 1 }
  return []

/-- A builtin statement with its arguments walked from left to right. -/
def builtinStatement (seed : Seed) (builtin : Builtin) (args : List Tree.Expr) :
    Walk (List Yul.Stmt) := do
  return [.builtin builtin (← expressions seed args)]

mutual

/-- The Yul statements for a statement of the tree. -/
def statement (settings : Settings) : Tree.Stmt → Walk (List Yul.Stmt)
  | .declare type value => do return [← declareVariable settings type value]
  | .assign target value => do return [← assign settings.seed target value]
  | .ifThen cond body => do
    let cond ← expression settings.seed cond
    let body ← braces body.isEmpty (statements settings body)
    return [.ifThen cond body]
  | .store op location value => builtinStatement settings.seed (.store op) [location, value]
  | .block body => do return [.block (← braces body.isEmpty (statements settings body))]
  | .forLoop init cond post body => inScope do
    let init ← inLoopContext false true do
      if init.isEmpty then return Yul.Block.compact
      return Yul.Block.spread (← statements settings init)
    let cond ← expression settings.seed cond
    let post ← inLoopContext false false (braces post.isEmpty (statements settings post))
    let body ← inLoopContext true false (braces body.isEmpty (statements settings body))
    return [.forLoop init cond post body]
  | .boundedFor body => inBoundedLoop fun depth => do
    let body ← inLoopContext true false (braces body.isEmpty (statements settings body))
    return [.boundedFor depth body]
  | .switch scrutinee cases default => do
    if cases.isEmpty && default.isNone then return []
    let scrutinee ← expression settings.seed scrutinee
    let arms ← inSwitch (caseArms settings cases)
    match default with
    | none => return [.switch scrutinee arms none]
    | some body =>
      let body ← braces body.isEmpty (statements settings body)
      return [.switch scrutinee arms (some body)]
  | .breakLoop => loopControl .breakLoop
  | .continueLoop => loopControl .continueLoop
  | .log position size topics =>
    let topics := topics.take maxTopics
    builtinStatement settings.seed (.log topics.length) (position :: size :: topics)
  | .copy region target source size =>
    builtinStatement settings.seed (.copy region) [target, source, size]
  | .extCodeCopy address target source size =>
    builtinStatement settings.seed .extcodecopy [address, target, source, size]
  | .halt op => return [.builtin (.halt op) []]
  | .exit op position size => builtinStatement settings.seed (.exit op) [position, size]
  | .selfDestruct address => builtinStatement settings.seed .selfdestruct [address]
  | .call usage selector args targets => do
    return [← callStatement settings.seed usage selector args targets]
  | .define inputs outputs body => do
    if (← get).inLoopInit then
      count fun c => { c with statementsDropped := c.statementsDropped + 1 }
      return []
    let inputs := inputs.toNat % (maxArity + 1)
    let outputs := outputs.toNat % (maxArity + 1)
    let s ← get
    let (name, functions) ← s.functions.register inputs outputs
    set { s with functions }
    count fun c => { c with functionsDefined := c.functionsDefined + 1 }
    let definition ← inFunctionBody do
      let parameters ← declare (inputs + outputs)
      let body ← braces body.isEmpty (statements settings body)
      return .function name (parameters.take inputs) (parameters.drop inputs) body
    let call ← callAfterDefinition name inputs outputs
    return [definition, call]
  | .pop value => builtinStatement settings.seed .pop [value]

/-- The Yul statements for the statements of a block. -/
def statements (settings : Settings) : List Tree.Stmt → Walk (List Yul.Stmt)
  | [] => return []
  | stmt :: rest => do
    let first ← statement settings stmt
    return first ++ (← statements settings rest)

/-- The arms for the cases of a switch. A case whose label has the value of an earlier one is left out; its
    label has been made by then, its block is not walked. -/
def caseArms (settings : Settings) : List (Tree.Literal × List Tree.Stmt) →
    Walk (List (Yul.Literal × Yul.Block))
  | [] => return []
  | (label, body) :: rest => do
    let label ← literal settings.seed label
    if ← recordLabel label.word then
      let body ← braces body.isEmpty (statements settings body)
      return (label, body) :: (← caseArms settings rest)
    else
      count fun c => { c with casesDropped := c.casesDropped + 1 }
      caseArms settings rest

end

end YulFuzz.Walk
