/-
Module: YulFuzz.Yul.Printer
Purpose: The text of a Yul program. Each statement has lines of its own; the lines inside a block are
  indented by two spaces more than its braces, and the closing brace stands below the start of the line that
  opens the block.
Main exports: Yul.Var.text, Yul.Literal.text, Yul.Expr.text, Yul.Stmt.lines, Yul.Block.lines,
  Yul.Block.render
-/
import YulFuzz.Yul.Code

namespace YulFuzz.Yul

/-- The name of a variable. -/
def Var.text : Var → String
  | .user number => "x_" ++ toString number
  | .loop depth => "i_" ++ toString depth

/-- A literal as it is written. -/
def Literal.text : Literal → String
  | .decimal value => toString value.toNat
  | .hex digits => "0x" ++ digits
  | .quoted characters => "\"" ++ characters ++ "\""

/-- The name of what a call calls. -/
def Callee.text : Callee → String
  | .builtin op => op.name
  | .function f => f.text

/-- Texts between commas. -/
def listed (texts : List String) : String := ", ".intercalate texts

mutual

/-- An expression as it is written. -/
def Expr.text : Expr → String
  | .var v => v.text
  | .literal l => l.text
  | .call callee args => callee.text ++ "(" ++ listed (Expr.texts args) ++ ")"

/-- The texts of expressions. -/
def Expr.texts : List Expr → List String
  | [] => []
  | arg :: args => arg.text :: Expr.texts args

end

/-- Names between commas. -/
def Var.listed (vars : List Var) : String := Yul.listed (vars.map Var.text)

/-- The part of a declaration after `let`. -/
def letText (var : Var) (ascription : Option Ascription) (value : Expr) : String :=
  match ascription with
  | none => var.text ++ " := " ++ value.text
  | some ⟨type, onValue⟩ =>
    var.text ++ ":" ++ type.name ++ " := " ++ value.text ++ (if onValue then ":" ++ type.name else "")

/-- The line of a function definition before its body. -/
def signature (name : FunctionName) (inputs outputs : List Var) : String :=
  "function " ++ name.text ++ "(" ++ Var.listed inputs ++ ")"
    ++ (if outputs.isEmpty then "" else " -> " ++ Var.listed outputs)

/-- The line of a bounded loop before its body. -/
def boundedHeader (counter : String) : String :=
  "for \x7b let " ++ counter ++ " := 0 \x7d lt(" ++ counter ++ ", 0x60) \x7b " ++ counter ++ " := add("
    ++ counter ++ ", 0x20) \x7d"

/-- Lines moved to the right by one level. -/
def indented (lines : List String) : List String := lines.map ("  " ++ ·)

/-- A header in front of an opening brace. -/
def opening (header : String) : String :=
  if header = "" then "\x7b" else header ++ " \x7b"

mutual

/-- The lines of a statement. -/
def Stmt.lines : Stmt → List String
  | .letOne var ascription value => ["let " ++ letText var ascription value]
  | .letMany vars value => ["let " ++ Var.listed vars ++ " := " ++ value.text]
  | .assign targets value => [Var.listed targets ++ " := " ++ value.text]
  | .expr value => [value.text]
  | .block body => body.lines ""
  | .ifThen cond body => body.lines ("if " ++ cond.text)
  | .forLoop init cond post body => init.lines "for" ++ post.lines cond.text ++ body.lines ""
  | .boundedFor depth body => boundedHeader (Var.loop depth).text :: body.lines ""
  | .switch scrutinee cases default =>
    ["switch " ++ scrutinee.text] ++ Stmt.caseLines cases
      ++ (match default with
        | none => []
        | some body => body.lines "default")
  | .function name inputs outputs body => body.lines (signature name inputs outputs)
  | .breakLoop => ["break"]
  | .continueLoop => ["continue"]

/-- The lines of statements. -/
def Stmt.listLines : List Stmt → List String
  | [] => []
  | stmt :: rest => stmt.lines ++ Stmt.listLines rest

/-- The lines of the arms of a switch. -/
def Stmt.caseLines : List (Literal × Block) → List String
  | [] => []
  | (label, body) :: rest => body.lines ("case " ++ label.text) ++ Stmt.caseLines rest

/-- The lines of a block after a header, which may be empty. -/
def Block.lines : Block → (header : String) → List String
  | .compact, header => [opening header ++ " \x7d"]
  | .spread body, header => [opening header] ++ indented (Stmt.listLines body) ++ ["\x7d"]

end

/-- The text of a program; each line ends in a line feed. -/
def Block.render (program : Block) : String :=
  String.join ((program.lines "").map (· ++ "\n"))

end YulFuzz.Yul
