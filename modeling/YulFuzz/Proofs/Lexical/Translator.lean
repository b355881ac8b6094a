/-
Module: YulFuzz.Proofs.Lexical.Translator
Purpose: A second translation of program trees, by lexical scoping. What is visible at a point of the tree
  is a value that is passed down, extended for the rest of a block by declarations and definitions, and
  dropped where the block, loop, case or function body ends. Nothing is entered, left or restored: only the
  number of tokens drawn, the next index of each kind of function and the counters are handed on from one
  part of the tree to the next.
Main exports: Lexical.Env, Lexical.Thread, Lexical.expression, Lexical.statement, Lexical.statements,
  Lexical.caseArms, Lexical.translate
-/
import Mathlib.Data.List.Rotate
import YulFuzz.Generation

namespace YulFuzz.Lexical

/-- What can be referred to at a point of the tree, and what is allowed there. -/
structure Env where
  /-- The numbers of the visible variables, in the order of their declarations. -/
  vars : List Nat := []
  /-- The number of the next variable. -/
  fresh : Nat := 0
  /-- The visible functions of each kind, in the order of their definitions. -/
  callables : PerKind (List Callable) := ⟨[], [], []⟩
  /-- Whether `break` and `continue` are allowed here. -/
  inLoopBody : Bool := false
  /-- Whether function definitions are forbidden here. -/
  inLoopInit : Bool := false
  /-- Number of bounded loops around. -/
  loopDepth : Nat := 0
  /-- The case values seen by the current switch. -/
  labels : List Word := []

/-- What is handed on through the tree, whatever the nesting. -/
structure Thread where
  /-- Number of dictionary tokens drawn. -/
  drawn : Nat := 0
  /-- The index of the next function of each kind. -/
  next : PerKind Nat := ⟨0, 0, 0⟩
  counters : Walk.Counters := {}

/-- A part of the translation: it takes what was handed on and hands on in turn. -/
abbrev Threaded := StateM Thread

namespace Env

/-- The environment after a declaration of variables. -/
def declare (env : Env) (count : Nat) : Env :=
  { env with vars := env.vars ++ List.range' env.fresh count, fresh := env.fresh + count }

/-- The variables of a declaration. -/
def declared (env : Env) (count : Nat) : List Yul.Var :=
  (List.range' env.fresh count).map .user

/-- The environment after a function definition. -/
def define (env : Env) (callable : Callable) : Env :=
  { env with callables := env.callables.modify callable.name.kind (· ++ [callable]) }

/-- The environment of a part of a loop. -/
def inLoopContext (env : Env) (inLoopBody inLoopInit : Bool) : Env :=
  { env with inLoopBody, inLoopInit }

/-- The environment of a function body with the given number of parameters: no variable from around the
    function is visible, and the body is in no loop. -/
def inFunctionBody (env : Env) (parameters : Nat) : Env :=
  ({ env with vars := [] }.inLoopContext false false).declare parameters

/-- The environment of the body of a bounded loop. -/
def inBoundedLoop (env : Env) : Env :=
  { env with loopDepth := env.loopDepth + 1 }.inLoopContext true false

/-- The environment in which a switch has seen the given case values. -/
def withLabels (env : Env) (labels : List Word) : Env :=
  { env with labels }

/-- The visible variable that a number of the tree stands for, if any is visible. -/
def resolve (env : Env) (number : UInt32) : Option Yul.Var :=
  env.vars[number.toNat % env.vars.length]?.map .user

/-- The visible function of a kind that a selector stands for, if there is one. -/
def pick (env : Env) (kind : FunctionKind) (selector : UInt32) : Option Callable :=
  (env.callables.get kind)[selector.toNat % (env.callables.get kind).length]?

/-- The first visible function with several outputs, in cyclic order from the one that the selector stands
    for, whose results there are enough visible variables for. -/
def pickAssignable (env : Env) (selector : UInt32) : Option Callable :=
  (env.callables.multiReturn.rotate selector.toNat).find? (·.outputs ≤ env.vars.length)

/-- The function that a call statement calls. -/
def callee? (env : Env) (usage : Tree.CallUsage) (selector : UInt32) : Option Callable :=
  match usage with
  | .none => env.pick .noReturn selector
  | .single => none
  | .multiDecl => env.pick .multiReturn selector
  | .multiAssign => env.pickAssignable selector

/-- Distinct visible variables for the results of a call, `place` being the place of the first of them. Each
    is the requested one, or the one at its place where none is requested, or else the next one in cyclic
    order that is not taken. -/
def targets (env : Env) (requests : List UInt32) (taken : List Nat) (place : Nat) :
    (wanted : Nat) → List Nat
  | 0 => []
  | wanted + 1 =>
    let requested := (requests[place]?.map UInt32.toNat).getD place
    match (env.vars.rotate requested).find? (· ∉ taken) with
    | none => []
    | some target => target :: env.targets requests (target :: taken) (place + 1) wanted

end Env

/-- Change the counters. -/
def count (f : Walk.Counters → Walk.Counters) : Threaded Unit :=
  modify fun t => { t with counters := f t.counters }

/-- The next dictionary token. -/
def drawToken (seed : Seed) : Threaded String :=
  modifyGet fun t => (seed.token t.drawn, { t with drawn := t.drawn + 1 })

/-- The next dictionary token as a literal expression. -/
def tokenExpr (seed : Seed) : Threaded Yul.Expr := do
  return .literal (.hex (← drawToken seed))

/-- As many dictionary tokens as wanted, as literal expressions. -/
def tokenExprs (seed : Seed) : Nat → Threaded (List Yul.Expr)
  | 0 => return []
  | count + 1 => do
    let token ← tokenExpr seed
    return token :: (← tokenExprs seed count)

/-- The name of the next function of a kind. -/
def nextName (kind : FunctionKind) : Threaded FunctionName :=
  modifyGet fun t => (⟨kind, t.next.get kind⟩, { t with next := t.next.modify kind (· + 1) })

/-- The literal for a literal node. -/
def literal (seed : Seed) : Tree.Literal → Threaded Yul.Literal
  | .int value => return .decimal value
  | .hex raw => do
    let digits ←
      match Walk.hexDigits raw with
      | [] => String.toList <$> drawToken seed
      | digits => pure digits
    return .hex (String.ofList (Walk.evenly digits))
  | .str raw => return .quoted (Walk.alphanumerics raw)
  | .unset => return .hex (← drawToken seed)

mutual

/-- The expression for an expression node. -/
def expression (seed : Seed) (env : Env) : Tree.Expr → Threaded Yul.Expr
  | .varRef number =>
    match env.resolve number with
    | some found => return .var found
    | none => tokenExpr seed
  | .literal node => return .literal (← literal seed node)
  | .binary op left right => do
    let left ← expression seed env left
    let right ← expression seed env right
    return .call (.builtin (.binary op)) [left, right]
  | .unary op operand => do
    let operand ← expression seed env operand
    return .call (.builtin (.unary op)) [operand]
  | .ternary op first second third => do
    let first ← expression seed env first
    let second ← expression seed env second
    let third ← expression seed env third
    return .call (.builtin (.ternary op)) [first, second, third]
  | .nullary op => return .call (.builtin (.nullary op)) []
  | .call _ selector args _ =>
    match env.pick .singleReturn selector with
    | some callee => do
      count fun c => { c with callsEmitted := c.callsEmitted + 1 }
      return .call (.function callee.name) (← arguments seed env callee.inputs args)
    | none => do
      count fun c => { c with callFallbacks := c.callFallbacks + 1 }
      tokenExpr seed
  | .unset => tokenExpr seed

/-- Exactly as many arguments as wanted. -/
def arguments (seed : Seed) (env : Env) : (wanted : Nat) → List Tree.Expr → Threaded (List Yul.Expr)
  | wanted, [] => tokenExprs seed wanted
  | 0, _ :: _ => return []
  | wanted + 1, arg :: args => do
    let arg ← expression seed env arg
    return arg :: (← arguments seed env wanted args)

end

/-- All expressions of a list, from left to right. -/
def expressions (seed : Seed) (env : Env) : List Tree.Expr → Threaded (List Yul.Expr)
  | [] => return []
  | expr :: rest => do
    let expr ← expression seed env expr
    return expr :: (← expressions seed env rest)

/-- A call of a function of the program, with as many arguments as it has inputs. -/
def call (seed : Seed) (env : Env) (callee : Callable) (args : List Tree.Expr) : Threaded Yul.Expr := do
  count fun c => { c with callsEmitted := c.callsEmitted + 1 }
  return .call (.function callee.name) (← arguments seed env callee.inputs args)

/-- A call as a statement, with the environment after it. -/
def callStatement (seed : Seed) (env : Env) (usage : Tree.CallUsage) (selector : UInt32)
    (args : List Tree.Expr) (requests : List UInt32) : Threaded (Yul.Stmt × Env) :=
  match env.callee? usage selector with
  | none => do
    count fun c => { c with callFallbacks := c.callFallbacks + 1 }
    return (Walk.discard (← tokenExpr seed), env)
  | some callee => do
    let value ← call seed env callee args
    match usage with
    | .none | .single => return (.expr value, env)
    | .multiDecl => return (.letMany (env.declared callee.outputs) value, env.declare callee.outputs)
    | .multiAssign =>
      return (.assign ((env.targets requests [] 0 callee.outputs).map .user) value, env)

/-- A call with the first words of the call data as arguments. -/
def callOnCalldata (callable : Callable) : Yul.Expr :=
  .call (.function callable.name) ((List.range callable.inputs).map fun i =>
    .call (.builtin (.unary .calldataload)) [Walk.decimal (UInt64.ofNat i * Walk.wordSize)])

/-- Statements that store variables one after another. -/
def stores (vars : List Yul.Var) : List Yul.Stmt :=
  vars.zipIdx.map fun (var, i) =>
    .builtin (.store .sstore) [Walk.decimal (UInt64.ofNat i * Walk.wordSize), .var var]

/-- The call right after a definition. -/
def callAfterDefinition (env : Env) (callable : Callable) : Threaded Yul.Stmt := do
  count fun c => { c with callsEmitted := c.callsEmitted + 1 }
  if callable.outputs = 0 then return .expr (callOnCalldata callable)
  let results := env.declared callable.outputs
  return .block (.spread (.letMany results (callOnCalldata callable) :: stores results))

/-- The type that a declaration is written with. -/
def ascription (settings : Settings) (type : Option TypeName) (value : Tree.Expr) :
    Option Yul.Ascription :=
  if settings.typedDeclarations then
    type.map fun type =>
      { type
        onValue :=
          match value with
          | .literal (.int _) | .literal (.hex _) => type ≠ .bool
          | _ => false }
  else none

/-- A declaration of a variable. -/
def declareVariable (settings : Settings) (env : Env) (type : Option TypeName) (value : Tree.Expr) :
    Threaded Yul.Stmt := do
  let result ← expression settings.seed env value
  return .letOne (.user env.fresh) (ascription settings type value) result

/-- An assignment; with no variable visible, the value is discarded. -/
def assign (seed : Seed) (env : Env) (target : UInt32) (value : Tree.Expr) : Threaded Yul.Stmt := do
  let result ← expression seed env value
  match env.resolve target with
  | none => return Walk.discard result
  | some found => return .assign [found] result

/-- Loop control where it is allowed. -/
def loopControl (env : Env) (control : Yul.Stmt) : Threaded (List Yul.Stmt × Env) := do
  if env.inLoopBody then return ([control], env)
  count fun c => { c with statementsDropped := c.statementsDropped + 1 }
  return ([], env)

/-- A builtin statement. -/
def builtinStatement (seed : Seed) (env : Env) (builtin : Builtin) (args : List Tree.Expr) :
    Threaded (List Yul.Stmt × Env) := do
  return ([.builtin builtin (← expressions seed env args)], env)

/-- The block for a list of statements. The environment at its end is dropped. -/
def braces (isEmpty : Bool) (body : Threaded (List Yul.Stmt × Env)) : Threaded Yul.Block :=
  if isEmpty then return .compact else return .spread (← body).1

mutual

/-- The Yul statements for a statement of the tree, with the environment after it. -/
def statement (settings : Settings) (env : Env) : Tree.Stmt → Threaded (List Yul.Stmt × Env)
  | .declare type value => do return ([← declareVariable settings env type value], env.declare 1)
  | .assign target value => do return ([← assign settings.seed env target value], env)
  | .ifThen cond body => do
    let cond ← expression settings.seed env cond
    let body ← braces body.isEmpty (statements settings env body)
    return ([.ifThen cond body], env)
  | .store op location value => builtinStatement settings.seed env (.store op) [location, value]
  | .block body => do
    return ([.block (← braces body.isEmpty (statements settings env body))], env)
  | .forLoop init cond post body => do
    let (opening, inside) ← statements settings (env.inLoopContext false true) init
    let cond ← expression settings.seed (inside.inLoopContext env.inLoopBody env.inLoopInit) cond
    let post ← braces post.isEmpty (statements settings (inside.inLoopContext false false) post)
    let body ← braces body.isEmpty (statements settings (inside.inLoopContext true false) body)
    return ([.forLoop (if init.isEmpty then .compact else .spread opening) cond post body], env)
  | .boundedFor body => do
    let body ← braces body.isEmpty (statements settings env.inBoundedLoop body)
    return ([.boundedFor env.loopDepth body], env)
  | .switch scrutinee cases default => do
    if cases.isEmpty && default.isNone then return ([], env)
    let scrutinee ← expression settings.seed env scrutinee
    let arms ← caseArms settings (env.withLabels []) cases
    match default with
    | none => return ([.switch scrutinee arms none], env)
    | some body =>
      let body ← braces body.isEmpty (statements settings env body)
      return ([.switch scrutinee arms (some body)], env)
  | .breakLoop => loopControl env .breakLoop
  | .continueLoop => loopControl env .continueLoop
  | .log position size topics =>
    let topics := topics.take Walk.maxTopics
    builtinStatement settings.seed env (.log topics.length) (position :: size :: topics)
  | .copy region target source size =>
    builtinStatement settings.seed env (.copy region) [target, source, size]
  | .extCodeCopy address target source size =>
    builtinStatement settings.seed env .extcodecopy [address, target, source, size]
  | .halt op => return ([.builtin (.halt op) []], env)
  | .exit op position size => builtinStatement settings.seed env (.exit op) [position, size]
  | .selfDestruct address => builtinStatement settings.seed env .selfdestruct [address]
  | .call usage selector args targets => do
    let (call, after) ← callStatement settings.seed env usage selector args targets
    return ([call], after)
  | .define inputs outputs body => do
    if env.inLoopInit then
      count fun c => { c with statementsDropped := c.statementsDropped + 1 }
      return ([], env)
    let inputs := inputs.toNat % (maxArity + 1)
    let outputs := outputs.toNat % (maxArity + 1)
    let name ← nextName (FunctionKind.ofOutputs outputs)
    count fun c => { c with functionsDefined := c.functionsDefined + 1 }
    let after := env.define ⟨name, inputs, outputs⟩
    let parameters := env.declared (inputs + outputs)
    let definition ← Yul.Stmt.function name (parameters.take inputs) (parameters.drop inputs) <$>
      braces body.isEmpty (statements settings (after.inFunctionBody (inputs + outputs)) body)
    let call ← callAfterDefinition after ⟨name, inputs, outputs⟩
    return ([definition, call], after)
  | .pop value => builtinStatement settings.seed env .pop [value]

/-- The Yul statements for the statements of a block, with the environment after them. -/
def statements (settings : Settings) (env : Env) : List Tree.Stmt → Threaded (List Yul.Stmt × Env)
  | [] => return ([], env)
  | stmt :: rest => do
    let (first, after) ← statement settings env stmt
    let (others, after) ← statements settings after rest
    return (first ++ others, after)

/-- The arms for the cases of a switch. A case whose value has been seen is left out. -/
def caseArms (settings : Settings) (env : Env) : List (Tree.Literal × List Tree.Stmt) →
    Threaded (List (Yul.Literal × Yul.Block))
  | [] => return []
  | (label, body) :: rest => do
    let label ← literal settings.seed label
    if label.word ∈ env.labels then
      count fun c => { c with casesDropped := c.casesDropped + 1 }
      caseArms settings env rest
    else
      let after := env.withLabels (label.word :: env.labels)
      let body ← braces body.isEmpty (statements settings after body)
      return (label, body) :: (← caseArms settings after rest)

end

/-- The result of a translation: the text, with the counters that do not count scopes. -/
structure Translation where
  yul : String
  functionsDefined : Nat
  callsEmitted : Nat
  callFallbacks : Nat
  casesDropped : Nat
  statementsDropped : Nat
  dictionaryTokens : Nat

/-- The code for a program, with what is handed on at its end. -/
def program (settings : Settings) (program : Tree.Program) : Yul.Block × Thread :=
  (braces program.block.isEmpty (statements settings {} program.block)).run {}

/-- The translation of a program. -/
def translate (settings : Settings) (tree : Tree.Program) : Translation :=
  let (code, final) := program settings tree
  { yul := code.render
    functionsDefined := final.counters.functionsDefined
    callsEmitted := final.counters.callsEmitted
    callFallbacks := final.counters.callFallbacks
    casesDropped := final.counters.casesDropped
    statementsDropped := final.counters.statementsDropped
    dictionaryTokens := final.drawn }

end YulFuzz.Lexical
