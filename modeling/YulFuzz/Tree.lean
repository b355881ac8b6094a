/-
Module: YulFuzz.Tree
Purpose: The program trees that a fuzzing front end produces. A tree describes a program in terms of Yul
  constructs but gives no scoping guarantees: variables and functions are plain numbers, case literals may
  repeat, and loop control may stand anywhere. Making the program well-formed is the work of the walk.
Main exports: Tree.Literal, Tree.CallUsage, Tree.Expr, Tree.Stmt, Tree.Program
-/
import YulFuzz.Builtin

namespace YulFuzz.Tree

/-- A literal node. -/
inductive Literal where
  /-- A number, written in decimal. -/
  | int (value : UInt64)
  /-- Any text; its hex digits count. -/
  | hex (raw : String)
  /-- Any text; its ASCII letters and digits count. -/
  | str (raw : String)
  /-- Left to the seed dictionary. -/
  | unset
deriving DecidableEq, Repr, Inhabited

/-- How the values that a call returns are consumed. -/
inductive CallUsage where
  /-- A call statement without values. -/
  | none
  /-- A single value, in an expression. -/
  | single
  /-- All values, bound to new variables. -/
  | multiDecl
  /-- All values, assigned to existing variables. -/
  | multiAssign
deriving DecidableEq, Repr

namespace CallUsage

/-- The name under which trees are stored. -/
def name : CallUsage → String
  | .none => "none"
  | .single => "single"
  | .multiDecl => "multi_decl"
  | .multiAssign => "multi_assign"

/-- All usages. -/
def all : List CallUsage := [.none, .single, .multiDecl, .multiAssign]

end CallUsage

/-- An expression node. A call names a function by a selector among the visible ones; its targets only
    matter where it stands as a statement. -/
inductive Expr where
  | varRef (number : UInt32)
  | literal (literal : Literal)
  | binary (op : BinaryOp) (left right : Expr)
  | unary (op : UnaryOp) (operand : Expr)
  | ternary (op : TernaryOp) (first second third : Expr)
  | nullary (op : NullaryOp)
  | call (usage : CallUsage) (selector : UInt32) (args : List Expr) (targets : List UInt32)
  /-- Left to the seed dictionary. -/
  | unset
deriving Inhabited

/-- A statement node. A block is the list of its statements. -/
inductive Stmt where
  /-- A new variable, with a type in the typed dialect. -/
  | declare (type : Option TypeName) (value : Expr)
  | assign (target : UInt32) (value : Expr)
  | ifThen (cond : Expr) (body : List Stmt)
  | store (op : StoreOp) (location value : Expr)
  | block (body : List Stmt)
  | forLoop (init : List Stmt) (cond : Expr) (post body : List Stmt)
  /-- A loop whose counter and bound belong to the walk. -/
  | boundedFor (body : List Stmt)
  | switch (scrutinee : Expr) (cases : List (Literal × List Stmt)) (default : Option (List Stmt))
  | breakLoop
  | continueLoop
  /-- A log entry; topics after the fourth are ignored. -/
  | log (position size : Expr) (topics : List Expr)
  | copy (region : CopyRegion) (target source size : Expr)
  | extCodeCopy (address target source size : Expr)
  | halt (op : HaltOp)
  | exit (op : ReturnOp) (position size : Expr)
  | selfDestruct (address : Expr)
  | call (usage : CallUsage) (selector : UInt32) (args : List Expr) (targets : List UInt32)
  /-- A function definition; parameter counts are reduced to the arity bound. -/
  | define (inputs outputs : UInt32) (body : List Stmt)
  /-- An expression whose value is discarded. -/
  | pop (value : Expr)
deriving Inhabited

/-- A program is its outermost block. -/
structure Program where
  block : List Stmt
deriving Inhabited

end YulFuzz.Tree
