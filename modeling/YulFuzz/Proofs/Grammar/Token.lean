/-
Module: YulFuzz.Proofs.Grammar.Token
Purpose: The tokens of Yul text and a scanner for them. The scanner takes one character at a time and keeps
  the token that the character may still belong to. Nothing in it depends on how programs are generated.
Main exports: Grammar.Token, Grammar.Token.ofWord, Grammar.scan, Grammar.tokens
-/

namespace YulFuzz.Grammar

/-- The words with a meaning of their own. -/
inductive Keyword where
  | letWord | ifWord | forWord | switchWord | caseWord | defaultWord | functionWord | breakWord
  | continueWord
deriving DecidableEq, Repr

namespace Keyword

/-- The word as it is written. -/
def text : Keyword → String
  | .letWord => "let"
  | .ifWord => "if"
  | .forWord => "for"
  | .switchWord => "switch"
  | .caseWord => "case"
  | .defaultWord => "default"
  | .functionWord => "function"
  | .breakWord => "break"
  | .continueWord => "continue"

/-- All keywords. -/
def all : List Keyword :=
  [.letWord, .ifWord, .forWord, .switchWord, .caseWord, .defaultWord, .functionWord, .breakWord,
    .continueWord]

end Keyword

/-- A literal, by the characters that it is written with. -/
inductive Literal where
  | number (digits : String)
  /-- The digits after `0x`. -/
  | hex (digits : String)
  /-- The characters between double quotes. -/
  | quoted (characters : String)
deriving DecidableEq, Repr

/-- A token. -/
inductive Token where
  | keyword (keyword : Keyword)
  | name (text : String)
  | literal (literal : Literal)
  | openBrace | closeBrace | openParen | closeParen | comma | colon
  /-- The sign `:=`. -/
  | becomes
  /-- The sign `->`. -/
  | arrow
deriving DecidableEq, Repr

/-- The characters of names, keywords and numbers. -/
def isWordChar (c : Char) : Bool :=
  c.isAlphanum || c = '_' || c = '$' || c = '.'

/-- The token that a word stands for. Digits that are not a number, and names that start with a digit, are
    no tokens. -/
def Token.ofWord : List Char → Option Token
  | [] => none
  | '0' :: 'x' :: digits =>
    if digits ≠ [] ∧ digits.all Char.isHexDigit then some (.literal (.hex (String.ofList digits)))
    else none
  | first :: others =>
    let word := String.ofList (first :: others)
    if (first :: others).all Char.isDigit then some (.literal (.number word))
    else if first.isDigit || first = '.' then none
    else match Keyword.all.find? (·.text = word) with
      | some found => some (.keyword found)
      | none => some (.name word)

/-- What the characters since the last token may still become. -/
inductive Pending where
  | nothing
  | word (chars : List Char)
  /-- The characters after an opening quote. -/
  | quoted (chars : List Char)
  /-- A colon, by itself or in front of an equals sign. -/
  | colon
  | dash
deriving DecidableEq, Repr

/-- A character with nothing pending: the tokens it completes, and what is pending after it. -/
def start (c : Char) : Option (List Token × Pending) :=
  if isWordChar c then some ([], .word [c])
  else match c with
    | ' ' | '\n' | '\t' | '\r' => some ([], .nothing)
    | '"' => some ([], .quoted [])
    | ':' => some ([], .colon)
    | '-' => some ([], .dash)
    | '\x7b' => some ([.openBrace], .nothing)
    | '\x7d' => some ([.closeBrace], .nothing)
    | '(' => some ([.openParen], .nothing)
    | ')' => some ([.closeParen], .nothing)
    | ',' => some ([.comma], .nothing)
    | _ => none

/-- A character with something pending. -/
def step : Pending → Char → Option (List Token × Pending)
  | .nothing, c => start c
  | .word chars, c =>
    if isWordChar c then some ([], .word (chars ++ [c]))
    else do
      let token ← Token.ofWord chars
      let (tokens, pending) ← start c
      some (token :: tokens, pending)
  | .quoted chars, c =>
    if c = '"' then some ([.literal (.quoted (String.ofList chars))], .nothing)
    else if c = '\\' ∨ c = '\n' then none
    else some ([], .quoted (chars ++ [c]))
  | .colon, c =>
    if c = '=' then some ([.becomes], .nothing)
    else do
      let (tokens, pending) ← start c
      some (.colon :: tokens, pending)
  | .dash, c => if c = '>' then some ([.arrow], .nothing) else none

/-- The tokens that are completed by the end of the text. -/
def finish : Pending → Option (List Token)
  | .nothing => some []
  | .word chars => do
    let token ← Token.ofWord chars
    some [token]
  | .colon => some [.colon]
  | .quoted _ | .dash => none

/-- Scan characters: the tokens they complete, and what is pending after them. -/
def scan : Pending → List Char → Option (List Token × Pending)
  | pending, [] => some ([], pending)
  | pending, c :: rest => do
    let (tokens, pending) ← step pending c
    let (more, pending) ← scan pending rest
    some (tokens ++ more, pending)

/-- The tokens of a text. -/
def tokens (text : String) : Option (List Token) := do
  let (tokens, pending) ← scan .nothing text.toList
  let last ← finish pending
  some (tokens ++ last)

end YulFuzz.Grammar
