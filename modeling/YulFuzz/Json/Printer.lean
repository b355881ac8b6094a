/-
Module: YulFuzz.Json.Printer
Purpose: JSON values to text, without blanks. Reading the text gives the value back.
Main exports: Json.print
-/
import YulFuzz.Json.Value

namespace YulFuzz.Json

/-- Four hex digits of a UTF-16 unit. -/
def unitDigits (code : Nat) : List Char :=
  [Nat.digitChar (code / 0x1000 % 16), Nat.digitChar (code / 0x100 % 16), Nat.digitChar (code / 16 % 16),
    Nat.digitChar (code % 16)]

/-- The letter of the escape of a character that has a short one. -/
def escapeLetter? : Char → Option Char
  | '"' => some '"'
  | '\\' => some '\\'
  | '\x08' => some 'b'
  | '\x0c' => some 'f'
  | '\n' => some 'n'
  | '\r' => some 'r'
  | '\t' => some 't'
  | _ => none

/-- A character inside a string. Only quotes, backslashes and control characters need an escape. -/
def printChar (c : Char) : List Char :=
  match escapeLetter? c with
  | some letter => ['\\', letter]
  | none => if c < ' ' then '\\' :: 'u' :: unitDigits c.toNat else [c]

/-- A string between quotes. A text that is none is written as half of a surrogate pair. -/
def printString : Option String → List Char
  | some text => '"' :: text.toList.flatMap printChar ++ ['"']
  | none => '"' :: '\\' :: 'u' :: unitDigits 0xD800 ++ ['"']

mutual

/-- The text of a value. -/
def printChars : Json → List Char
  | .null => ['n', 'u', 'l', 'l']
  | .bool true => ['t', 'r', 'u', 'e']
  | .bool false => ['f', 'a', 'l', 's', 'e']
  | .natural value => Nat.toDigits 10 value
  | .number lexeme => lexeme
  | .string text => printString text
  | .array items => '[' :: printItems items ++ [']']
  | .object members => '\x7b' :: printMembers members ++ ['\x7d']

/-- The items of an array, between commas. -/
def printItems : List Json → List Char
  | [] => []
  | [item] => item.printChars
  | item :: next :: rest => item.printChars ++ ',' :: printItems (next :: rest)

/-- The members of an object, between commas. -/
def printMembers : List (Option String × Json) → List Char
  | [] => []
  | [(key, value)] => printString key ++ ':' :: value.printChars
  | (key, value) :: next :: rest =>
    printString key ++ ':' :: value.printChars ++ ',' :: printMembers (next :: rest)

end

/-- The text of a value. -/
def print (value : Json) : String := String.ofList value.printChars

end YulFuzz.Json
