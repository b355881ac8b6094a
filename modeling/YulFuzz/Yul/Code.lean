/-
Module: YulFuzz.Yul.Code
Purpose: The Yul programs that are generated: names, literals, expressions, statements and blocks. A
  block records its layout, since a block of a tree without statements is written on one line, while one
  whose statements were all left out keeps its braces on lines of their own.
Main exports: Yul.Var, Yul.Literal, Yul.Expr, Yul.Stmt, Yul.Block, Yul.Literal.word
-/
import YulFuzz.Scope.Functions
import YulFuzz.Word

namespace YulFuzz.Yul

/-- A variable of a generated program. -/
inductive Var where
  /-- A variable of the tree, by its number. -/
  | user (number : Nat)
  /-- The counter of a bounded loop, by the number of bounded loops around it. -/
  | loop (depth : Nat)
deriving DecidableEq, Repr

/-- A literal as it is written. -/
inductive Literal where
  | decimal (value : UInt64)
  /-- The digits after `0x`. -/
  | hex (digits : String)
  /-- The characters between double quotes. -/
  | quoted (characters : String)
deriving DecidableEq, Repr

/-- The word that a literal denotes. Digits or characters that fit no word count as zero. -/
def Literal.word : Literal → Word
  | .decimal value => Word.ofUInt64 value
  | .hex digits => (Word.ofHexDigits digits).toOption.getD Word.zero
  | .quoted characters => (Word.ofLeftAligned (Word.textBytes characters)).toOption.getD Word.zero

/-- What a call calls. -/
inductive Callee where
  | builtin (builtin : Builtin)
  | function (name : FunctionName)
deriving DecidableEq, Repr

/-- An expression. -/
inductive Expr where
  | var (var : Var)
  | literal (literal : Literal)
  | call (callee : Callee) (args : List Expr)

/-- The type of a declared variable, and whether the literal it starts with carries the type as well. -/
structure Ascription where
  type : TypeName
  onValue : Bool
deriving DecidableEq, Repr

mutual

/-- A statement. -/
inductive Stmt where
  | letOne (var : Var) (ascription : Option Ascription) (value : Expr)
  | letMany (vars : List Var) (value : Expr)
  | assign (targets : List Var) (value : Expr)
  /-- A call as a statement. -/
  | expr (value : Expr)
  | block (body : Block)
  | ifThen (cond : Expr) (body : Block)
  | forLoop (init : Block) (cond : Expr) (post body : Block)
  /-- A loop over its own counter, which goes up to `0x60` in steps of `0x20`. -/
  | boundedFor (depth : Nat) (body : Block)
  | switch (scrutinee : Expr) (cases : List (Literal × Block)) (default : Option Block)
  | function (name : FunctionName) (inputs outputs : List Var) (body : Block)
  | breakLoop
  | continueLoop

/-- A block with its layout. -/
inductive Block where
  /-- Both braces on one line, with nothing between them. -/
  | compact
  /-- The braces on lines of their own, around the lines of the statements. -/
  | spread (body : List Stmt)

end

/-- A call of a builtin function as a statement. -/
def Stmt.builtin (builtin : Builtin) (args : List Expr) : Stmt :=
  .expr (.call (.builtin builtin) args)

end YulFuzz.Yul
