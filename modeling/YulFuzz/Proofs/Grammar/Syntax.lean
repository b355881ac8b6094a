/-
Module: YulFuzz.Proofs.Grammar.Syntax
Purpose: Syntax trees of Yul, the tokens that a tree is written with, and what makes a tree valid: each
  builtin function takes its fixed number of arguments, and each literal is one of Yul and fits a word. The
  init block of a loop is a list of statements in front of its condition, and a block is the list of its
  statements.
Main exports: Grammar.Expr, Grammar.Stmt, Grammar.Stmt.tokens, Grammar.builtins, Grammar.Stmt.Valid
-/
import YulFuzz.Proofs.Grammar.Token
import YulFuzz.Scope.Functions

namespace YulFuzz.Grammar

/-! ### Syntax trees -/

/-- An expression. A literal may carry a type. -/
inductive Expr where
  | name (name : String)
  | literal (literal : Literal) (type : Option String)
  | call (callee : String) (args : List Expr)

/-- A declared name, which may have a type. -/
structure TypedName where
  name : String
  type : Option String
deriving DecidableEq, Repr

/-- A statement. -/
inductive Stmt where
  | declare (names : List TypedName) (value : Expr)
  | assign (targets : List String) (value : Expr)
  | call (callee : String) (args : List Expr)
  | block (body : List Stmt)
  | ifThen (cond : Expr) (body : List Stmt)
  | forLoop (init : List Stmt) (cond : Expr) (post body : List Stmt)
  | switch (scrutinee : Expr) (cases : List (Literal × List Stmt)) (default : Option (List Stmt))
  | function (name : String) (inputs outputs : List String) (body : List Stmt)
  | breakLoop
  | continueLoop

/-! ### Tokens of a tree -/

/-- Parts between commas. -/
def commaSeparated : List (List Token) → List Token
  | [] => []
  | first :: others => first ++ others.flatMap (.comma :: ·)

/-- The tokens of names between commas. -/
def nameTokens (names : List String) : List Token := commaSeparated (names.map fun name => [.name name])

/-- The tokens of a declared name. -/
def TypedName.tokens : TypedName → List Token
  | ⟨name, none⟩ => [.name name]
  | ⟨name, some type⟩ => [.name name, .colon, .name type]

/-- Tokens between braces. -/
def braced (inside : List Token) : List Token := .openBrace :: inside ++ [.closeBrace]

mutual

/-- The tokens of an expression. -/
def Expr.tokens : Expr → List Token
  | .name text => [.name text]
  | .literal value none => [.literal value]
  | .literal value (some type) => [.literal value, .colon, .name type]
  | .call callee args =>
    .name callee :: .openParen :: commaSeparated (Expr.tokensOfEach args) ++ [.closeParen]

/-- The tokens of each of some expressions. -/
def Expr.tokensOfEach : List Expr → List (List Token)
  | [] => []
  | arg :: args => arg.tokens :: Expr.tokensOfEach args

end

mutual

/-- The tokens of a statement. -/
def Stmt.tokens : Stmt → List Token
  | .declare names value =>
    .keyword .letWord :: commaSeparated (names.map TypedName.tokens) ++ .becomes :: value.tokens
  | .assign targets value => nameTokens targets ++ .becomes :: value.tokens
  | .call callee args => (Expr.call callee args).tokens
  | .block body => braced (Stmt.listTokens body)
  | .ifThen cond body => .keyword .ifWord :: cond.tokens ++ braced (Stmt.listTokens body)
  | .forLoop init cond post body =>
    .keyword .forWord :: braced (Stmt.listTokens init) ++ cond.tokens ++ braced (Stmt.listTokens post)
      ++ braced (Stmt.listTokens body)
  | .switch scrutinee cases default =>
    .keyword .switchWord :: scrutinee.tokens ++ Stmt.caseTokens cases ++ Stmt.defaultTokens default
  | .function name inputs outputs body =>
    .keyword .functionWord :: .name name :: .openParen :: nameTokens inputs ++ .closeParen ::
      (if outputs.isEmpty then [] else .arrow :: nameTokens outputs) ++ braced (Stmt.listTokens body)
  | .breakLoop => [.keyword .breakWord]
  | .continueLoop => [.keyword .continueWord]

/-- The tokens of statements. -/
def Stmt.listTokens : List Stmt → List Token
  | [] => []
  | stmt :: rest => stmt.tokens ++ Stmt.listTokens rest

/-- The tokens of the arms of a switch. -/
def Stmt.caseTokens : List (Literal × List Stmt) → List Token
  | [] => []
  | (label, body) :: rest =>
    .keyword .caseWord :: .literal label :: braced (Stmt.listTokens body) ++ Stmt.caseTokens rest

/-- The tokens of the arm of a switch without a label. -/
def Stmt.defaultTokens : Option (List Stmt) → List Token
  | none => []
  | some body => .keyword .defaultWord :: braced (Stmt.listTokens body)

end

/-! ### Valid trees -/

/-- The builtin functions, with the number of arguments that each of them takes. -/
def builtins : List (String × Nat) :=
  (["pc", "msize", "gas", "calldatasize", "codesize", "returndatasize", "address", "origin", "caller",
    "callvalue", "gasprice", "coinbase", "timestamp", "number", "difficulty", "gaslimit", "stop",
    "invalid"].map (·, 0)) ++
  (["not", "mload", "sload", "iszero", "calldataload", "extcodesize", "extcodehash", "balance", "pop",
    "selfdestruct"].map (·, 1)) ++
  (["add", "sub", "mul", "div", "mod", "xor", "and", "or", "eq", "lt", "gt", "shr", "shl", "sar", "sdiv",
    "smod", "exp", "slt", "sgt", "byte", "signextend", "keccak256", "mstore", "sstore", "mstore8",
    "return", "revert"].map (·, 2)) ++
  (["addmod", "mulmod", "calldatacopy", "codecopy", "returndatacopy"].map (·, 3)) ++
  [("extcodecopy", 4), ("log0", 2), ("log1", 3), ("log2", 4), ("log3", 5), ("log4", 6)]

/-- A call of a builtin function has its number of arguments; whatever else is called is a function of the
    program. -/
def ValidCall (callee : String) (count : Nat) : Prop :=
  match builtins.lookup callee with
  | some arity => count = arity
  | none => ∃ f : FunctionName, callee = f.text

/-- A literal is a decimal number below `2 ^ 64`, up to 64 hex digits, but at least one, or up to 32 letters
    and digits. -/
def Literal.Valid : Literal → Prop
  | .number digits => ∃ value < UInt64.size, digits = toString value
  | .hex digits =>
    digits.toList ≠ [] ∧ digits.toList.length ≤ 64 ∧ ∀ c ∈ digits.toList, c.isHexDigit
  | .quoted characters => characters.toList.length ≤ 32 ∧ ∀ c ∈ characters.toList, c.isAlphanum

mutual

/-- A valid expression; there are no types unless `typed` holds. -/
def Expr.Valid (typed : Bool) : Expr → Prop
  | .name _ => True
  | .literal value type => value.Valid ∧ (type.isSome → typed)
  | .call callee args => ValidCall callee args.length ∧ Expr.AllValid typed args

/-- All of some expressions are valid. -/
def Expr.AllValid (typed : Bool) : List Expr → Prop
  | [] => True
  | arg :: args => arg.Valid typed ∧ Expr.AllValid typed args

end

mutual

/-- A valid statement; there are no types unless `typed` holds. -/
def Stmt.Valid (typed : Bool) : Stmt → Prop
  | .declare names value =>
    names ≠ [] ∧ (∀ name ∈ names, name.type.isSome → typed) ∧ value.Valid typed
  | .assign targets value => targets ≠ [] ∧ value.Valid typed
  | .call callee args => (Expr.call callee args).Valid typed
  | .block body => Stmt.AllValid typed body
  | .ifThen cond body => cond.Valid typed ∧ Stmt.AllValid typed body
  | .forLoop init cond post body =>
    Stmt.AllValid typed init ∧ cond.Valid typed ∧ Stmt.AllValid typed post ∧ Stmt.AllValid typed body
  | .switch scrutinee cases default =>
    (cases ≠ [] ∨ default.isSome) ∧ scrutinee.Valid typed ∧ Stmt.CasesValid typed cases ∧
      Stmt.DefaultValid typed default
  | .function _ _ _ body => Stmt.AllValid typed body
  | .breakLoop => True
  | .continueLoop => True

/-- All of some statements are valid. -/
def Stmt.AllValid (typed : Bool) : List Stmt → Prop
  | [] => True
  | stmt :: rest => stmt.Valid typed ∧ Stmt.AllValid typed rest

/-- The labels and blocks of all arms with a label are valid. -/
def Stmt.CasesValid (typed : Bool) : List (Literal × List Stmt) → Prop
  | [] => True
  | (label, body) :: rest => label.Valid ∧ Stmt.AllValid typed body ∧ Stmt.CasesValid typed rest

/-- The arm without a label is valid, if there is one. -/
def Stmt.DefaultValid (typed : Bool) : Option (List Stmt) → Prop
  | none => True
  | some body => Stmt.AllValid typed body

end

end YulFuzz.Grammar
