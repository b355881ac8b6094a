/-
Module: YulFuzz.Walk.Expression
Purpose: Literals and expressions of the tree become Yul expressions. Whatever cannot be expressed soundly
  (a variable where none is visible, a call where nothing can be called, a node left unset) becomes a
  dictionary token.
Main exports: Walk.alphanumerics, Walk.literal, Walk.expression, Walk.arguments
-/
import YulFuzz.Walk.State

namespace YulFuzz.Walk

/-- The ASCII letters and digits of a text, at most as many as a word has bytes. -/
def alphanumerics (raw : String) : String :=
  String.ofList ((raw.toList.filter Char.isAlphanum).take Word.byteCount)

/-- The hex digits of a text, at most as many as a word has. -/
def hexDigits (raw : String) : List Char :=
  (raw.toList.filter Char.isHexDigit).take Word.digitCount

/-- Digits in an even number, by a zero in front where needed. -/
def evenly (digits : List Char) : List Char :=
  if digits.length % 2 = 1 then '0' :: digits else digits

/-- The literal for a literal node. A text without hex digits takes those of a token. -/
def literal (seed : Seed) : Tree.Literal → Walk Yul.Literal
  | .int value => return .decimal value
  | .hex raw => do
    let digits ←
      match hexDigits raw with
      | [] => String.toList <$> drawToken seed
      | digits => pure digits
    let digits := evenly digits
    if Word.digitCount < digits.length then throw .hexTooLong
    return .hex (String.ofList digits)
  | .str raw => return .quoted (alphanumerics raw)
  | .unset => return .hex (← drawToken seed)

mutual

/-- The expression for an expression node. -/
def expression (seed : Seed) : Tree.Expr → Walk Yul.Expr
  | .varRef number => do
    match ← resolve number with
    | some found => return .var found
    | none => tokenExpr seed
  | .literal node => return .literal (← literal seed node)
  | .binary op left right => do
    let left ← expression seed left
    let right ← expression seed right
    return .call (.builtin (.binary op)) [left, right]
  | .unary op operand => do
    let operand ← expression seed operand
    return .call (.builtin (.unary op)) [operand]
  | .ternary op first second third => do
    let first ← expression seed first
    let second ← expression seed second
    let third ← expression seed third
    return .call (.builtin (.ternary op)) [first, second, third]
  | .nullary op => return .call (.builtin (.nullary op)) []
  | .call _ selector args _ => do
    match (← get).functions.pick .singleReturn selector.toNat with
    | some callee =>
      count fun c => { c with callsEmitted := c.callsEmitted + 1 }
      return .call (.function callee.name) (← arguments seed callee.inputs args)
    | none =>
      count fun c => { c with callFallbacks := c.callFallbacks + 1 }
      tokenExpr seed
  | .unset => tokenExpr seed

/-- Exactly as many arguments as wanted; missing ones are tokens, further ones are not walked. -/
def arguments (seed : Seed) : (wanted : Nat) → List Tree.Expr → Walk (List Yul.Expr)
  | wanted, [] => tokenExprs seed wanted
  | 0, _ :: _ => return []
  | wanted + 1, arg :: args => do
    let arg ← expression seed arg
    return arg :: (← arguments seed wanted args)

end

/-- All expressions of a list, from left to right. -/
def expressions (seed : Seed) : List Tree.Expr → Walk (List Yul.Expr)
  | [] => return []
  | expr :: rest => do
    let expr ← expression seed expr
    return expr :: (← expressions seed rest)

end YulFuzz.Walk
