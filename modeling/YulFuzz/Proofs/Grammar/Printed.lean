/-
Module: YulFuzz.Proofs.Grammar.Printed
Purpose: Generated code as a syntax tree, and the text of the code as it is read: a program is printed to a
  text that is read as the tree of the program, if that tree is valid.
Main exports: Grammar.exprSyntax, Grammar.stmtSyntax, Grammar.blockSyntax, Grammar.scans_expr,
  Grammar.scansLines_stmt, Grammar.tokens_render, Grammar.read_render
-/
import YulFuzz.Proofs.Grammar.Reader
import YulFuzz.Proofs.Grammar.Words

namespace YulFuzz.Grammar

/-! ### The tree of generated code -/

mutual

/-- The syntax tree of an expression. -/
def exprSyntax : Yul.Expr → Expr
  | .var v => .name v.text
  | .literal value => .literal (literalSyntax value) none
  | .call callee args => .call callee.text (exprsSyntax args)

/-- The syntax trees of expressions. -/
def exprsSyntax : List Yul.Expr → List Expr
  | [] => []
  | arg :: args => exprSyntax arg :: exprsSyntax args

end

/-- A value with a type. Only literals have one, so anything else is written in a way that is not valid. -/
def typedValue (type : String) : Expr → Expr
  | .literal value _ => .literal value (some type)
  | _ => .literal (.hex "") (some type)

/-- The declaration of one variable. -/
def letSyntax (var : Yul.Var) (ascription : Option Yul.Ascription) (value : Yul.Expr) : Stmt :=
  match ascription with
  | none => .declare [⟨var.text, none⟩] (exprSyntax value)
  | some ⟨type, onValue⟩ =>
    .declare [⟨var.text, some type.name⟩]
      (if onValue then typedValue type.name (exprSyntax value) else exprSyntax value)

/-- An expression as a statement. Only calls are statements, so anything else is written in a way that is
    not valid. -/
def exprStmtSyntax : Yul.Expr → Stmt
  | .call callee args => .call callee.text (exprsSyntax args)
  | value => .assign [] (exprSyntax value)

/-- The loop over a counter that goes up to `0x60` in steps of `0x20`. -/
def boundedSyntax (counter : String) (body : List Stmt) : Stmt :=
  .forLoop [.declare [⟨counter, none⟩] (.literal (.number "0") none)]
    (.call "lt" [.name counter, .literal (.hex "60") none])
    [.assign [counter] (.call "add" [.name counter, .literal (.hex "20") none])] body

mutual

/-- The syntax tree of a statement. -/
def stmtSyntax : Yul.Stmt → Stmt
  | .letOne var ascription value => letSyntax var ascription value
  | .letMany vars value => .declare (vars.map fun var => ⟨var.text, none⟩) (exprSyntax value)
  | .assign targets value => .assign (targets.map Yul.Var.text) (exprSyntax value)
  | .expr value => exprStmtSyntax value
  | .block body => .block (blockSyntax body)
  | .ifThen cond body => .ifThen (exprSyntax cond) (blockSyntax body)
  | .forLoop init cond post body =>
    .forLoop (blockSyntax init) (exprSyntax cond) (blockSyntax post) (blockSyntax body)
  | .boundedFor depth body => boundedSyntax (Yul.Var.loop depth).text (blockSyntax body)
  | .switch scrutinee cases default =>
    .switch (exprSyntax scrutinee) (casesSyntax cases) (defaultSyntax default)
  | .function name inputs outputs body =>
    .function name.text (inputs.map Yul.Var.text) (outputs.map Yul.Var.text) (blockSyntax body)
  | .breakLoop => .breakLoop
  | .continueLoop => .continueLoop

/-- The syntax trees of statements. -/
def stmtsSyntax : List Yul.Stmt → List Stmt
  | [] => []
  | stmt :: rest => stmtSyntax stmt :: stmtsSyntax rest

/-- The arms of a switch with a label. -/
def casesSyntax : List (Yul.Literal × Yul.Block) → List (Literal × List Stmt)
  | [] => []
  | (label, body) :: rest => (literalSyntax label, blockSyntax body) :: casesSyntax rest

/-- The arm of a switch without a label. -/
def defaultSyntax : Option Yul.Block → Option (List Stmt)
  | none => none
  | some body => some (blockSyntax body)

/-- The statements of a block, whatever its layout. -/
def blockSyntax : Yul.Block → List Stmt
  | .compact => []
  | .spread body => stmtsSyntax body

end

@[simp] theorem length_exprsSyntax (exprs : List Yul.Expr) : (exprsSyntax exprs).length = exprs.length := by
  induction exprs with
  | nil => rfl
  | cons expr exprs ih => exact congrArg (· + 1) ih

@[simp] theorem stmtsSyntax_append (first rest : List Yul.Stmt) :
    stmtsSyntax (first ++ rest) = stmtsSyntax first ++ stmtsSyntax rest := by
  induction first with
  | nil => rfl
  | cons stmt others ih => exact congrArg (stmtSyntax stmt :: ·) ih

/-- A block on one line has the same tree as one whose statements are made from the empty list. -/
theorem blockSyntax_opening {α : Type} (list : List α) (body : List α → List Yul.Stmt)
    (nothing : body [] = []) :
    blockSyntax (if list.isEmpty then .compact else .spread (body list)) = stmtsSyntax (body list) := by
  cases list with
  | nil =>
      rw [nothing]
      rfl
  | cons a rest => rfl

theorem stmtsSyntax_eq_map (body : List Yul.Stmt) : stmtsSyntax body = body.map stmtSyntax := by
  induction body with
  | nil => rfl
  | cons stmt others ih => exact congrArg (stmtSyntax stmt :: ·) ih

variable {typed : Bool}

/-! ### Expressions -/

theorem scans_listed {texts : List String} {parts : List (List Token)}
    (scanned : List.Forall₂ Scans texts parts) : Scans (Yul.listed texts) (commaSeparated parts) := by
  induction scanned with
  | nil => exact Closed.scans rfl
  | @cons first part others rest here there ih =>
      cases there with
      | nil =>
          rw [Yul.listed, String.intercalate_singleton]
          simpa [commaSeparated] using here
      | @cons second next others rest second_ others_ =>
          have comma : Closed ", " [.comma] := rfl
          rw [Yul.listed, String.intercalate_cons_cons, String.append_assoc]
          exact here.append (comma.append_scans ih) (Breaks.append ⟨',', [' '], rfl, rfl⟩ _)

mutual

/-- The text of an expression is scanned to the tokens of its tree. -/
theorem scans_expr : ∀ (expr : Yul.Expr), (exprSyntax expr).Valid typed →
    Scans expr.text (exprSyntax expr).tokens
  | .var v, _ => scans_var v
  | .literal value, valid => scans_literal value valid.1
  | .call callee args, valid => by
      have inside := scans_listed (scans_exprs args valid.2)
      have open_ : Closed "(" [.openParen] := rfl
      have close : Closed ")" [.closeParen] := rfl
      have front := (scans_callee callee).append_closed open_ ⟨'(', [], rfl, rfl⟩
      have whole := (front.append_scans inside).append_closed close ⟨')', [], rfl, rfl⟩
      exact whole.scans

/-- The texts of expressions are scanned to the tokens of their trees. -/
theorem scans_exprs : ∀ (exprs : List Yul.Expr), Expr.AllValid typed (exprsSyntax exprs) →
    List.Forall₂ Scans (Yul.Expr.texts exprs) (Expr.tokensOfEach (exprsSyntax exprs))
  | [], _ => .nil
  | expr :: rest, valid => .cons (scans_expr expr valid.1) (scans_exprs rest valid.2)

end

/-! ### Statements -/

theorem scans_vars (vars : List Yul.Var) :
    Scans (Yul.Var.listed vars) (nameTokens (vars.map Yul.Var.text)) := by
  apply scans_listed
  induction vars with
  | nil => exact .nil
  | cons var vars ih => exact .cons (scans_var var) ih

theorem closed_let : Closed "let " [.keyword .letWord] := rfl

theorem closed_becomes : Closed " := " [.becomes] := rfl

theorem breaks_becomes : Breaks " := " := ⟨' ', _, rfl, rfl⟩

/-- Names, the sign between them and a value, and the value. -/
theorem scans_becomes {left : String} {names : List Token} (scanned : Scans left names)
    (value : Yul.Expr) (valid : (exprSyntax value).Valid typed) :
    Scans (left ++ " := " ++ value.text) (names ++ .becomes :: (exprSyntax value).tokens) := by
  have whole := (scanned.append_closed closed_becomes breaks_becomes).append_scans (scans_expr value valid)
  rw [List.append_assoc] at whole
  exact whole

/-- A value with its type is a literal, followed by the type. -/
theorem scans_typedValue (type : TypeName) (value : Yul.Expr)
    (valid : (typedValue type.name (exprSyntax value)).Valid typed) :
    Scans (value.text ++ (":" ++ type.name)) (typedValue type.name (exprSyntax value)).tokens := by
  cases value with
  | var v => exact absurd rfl valid.1.1
  | call callee args => exact absurd rfl valid.1.1
  | literal l =>
      have colon : Breaks (":" ++ type.name) := Breaks.append ⟨':', [], rfl, rfl⟩ _
      exact (scans_literal l valid.1).append (scans_typeName type) colon

theorem scans_let (var : Yul.Var) (ascription : Option Yul.Ascription) (value : Yul.Expr)
    (valid : (letSyntax var ascription value).Valid typed) :
    Scans ("let " ++ Yul.letText var ascription value) (letSyntax var ascription value).tokens := by
  cases ascription with
  | none =>
      have whole := scans_becomes (closed_let.append_scans (scans_var var)) value valid.2.2
      simpa [Yul.letText, letSyntax, Stmt.tokens, commaSeparated, TypedName.tokens,
        String.append_assoc] using whole
  | some ascription =>
      obtain ⟨type, onValue⟩ := ascription
      have colon : Breaks (":" ++ type.name) := Breaks.append ⟨':', [], rfl, rfl⟩ _
      have name := closed_let.append_scans ((scans_var var).append (scans_typeName type) colon)
      have front := name.append_closed closed_becomes breaks_becomes
      cases onValue with
      | false =>
          have whole := front.append_scans (scans_expr value valid.2.2)
          simpa [Yul.letText, letSyntax, Stmt.tokens, commaSeparated, TypedName.tokens,
            String.append_assoc] using whole
      | true =>
          have whole := front.append_scans (scans_typedValue type value valid.2.2)
          simpa [Yul.letText, letSyntax, Stmt.tokens, commaSeparated, TypedName.tokens,
            String.append_assoc] using whole

theorem scans_assign (targets : List Yul.Var) (value : Yul.Expr)
    (valid : (exprSyntax value).Valid typed) :
    Scans (Yul.Var.listed targets ++ " := " ++ value.text)
      (Stmt.assign (targets.map Yul.Var.text) (exprSyntax value)).tokens :=
  scans_becomes (scans_vars targets) value valid

theorem scans_letMany (vars : List Yul.Var) (value : Yul.Expr)
    (valid : (exprSyntax value).Valid typed) :
    Scans ("let " ++ Yul.Var.listed vars ++ " := " ++ value.text)
      (Stmt.declare (vars.map fun var => ⟨var.text, none⟩) (exprSyntax value)).tokens := by
  have names : commaSeparated ((vars.map fun var => (⟨var.text, none⟩ : TypedName)).map
      TypedName.tokens) = nameTokens (vars.map Yul.Var.text) := by
    rw [nameTokens, List.map_map, List.map_map]
    rfl
  rw [Stmt.tokens, names]
  exact scans_becomes (closed_let.append_scans (scans_vars vars)) value valid

theorem scans_exprStmt (value : Yul.Expr) (valid : (exprStmtSyntax value).Valid typed) :
    Scans value.text (exprStmtSyntax value).tokens := by
  cases value with
  | var v => exact absurd rfl valid.1
  | literal l => exact absurd rfl valid.1
  | call callee args => exact scans_expr (.call callee args) valid

theorem scans_signature (name : FunctionName) (inputs outputs : List Yul.Var) :
    Scans (Yul.signature name inputs outputs)
      (.keyword .functionWord :: .name name.text :: .openParen :: nameTokens (inputs.map Yul.Var.text) ++
        .closeParen :: (if (outputs.map Yul.Var.text).isEmpty then []
          else .arrow :: nameTokens (outputs.map Yul.Var.text))) := by
  have word : Closed "function " [.keyword .functionWord] := rfl
  have open_ : Closed "(" [.openParen] := rfl
  have close : Closed ")" [.closeParen] := rfl
  have arrow : Closed " -> " [.arrow] := rfl
  have front := ((word.append_scans (scans_functionName name)).append_closed open_
    ⟨'(', [], rfl, rfl⟩).append_scans (scans_vars inputs)
  have parameters := front.append_closed close ⟨')', [], rfl, rfl⟩
  cases outputs with
  | nil => simpa [Yul.signature] using parameters.scans
  | cons first others =>
      have whole := parameters.append_scans (arrow.append_scans (scans_vars (first :: others)))
      rw [List.append_assoc] at whole
      exact whole

/-- The line of a bounded loop before its body. -/
theorem scans_boundedHeader (counter : Yul.Var) :
    Scans (Yul.boundedHeader counter.text)
      [.keyword .forWord, .openBrace, .keyword .letWord, .name counter.text, .becomes,
        .literal (.number "0"), .closeBrace, .name "lt", .openParen, .name counter.text, .comma,
        .literal (.hex "60"), .closeParen, .openBrace, .name counter.text, .becomes, .name "add",
        .openParen, .name counter.text, .comma, .literal (.hex "20"), .closeParen, .closeBrace] := by
  have init : Closed "for \x7b let " [.keyword .forWord, .openBrace, .keyword .letWord] := rfl
  have cond : Closed " := 0 \x7d lt("
    [.becomes, .literal (.number "0"), .closeBrace, .name "lt", .openParen] := rfl
  have post : Closed ", 0x60) \x7b " [.comma, .literal (.hex "60"), .closeParen, .openBrace] := rfl
  have sum : Closed " := add(" [.becomes, .name "add", .openParen] := rfl
  have last : Closed ", 0x20) \x7d" [.comma, .literal (.hex "20"), .closeParen, .closeBrace] := rfl
  have name := scans_var counter
  have first := (init.append_scans name).append_closed cond ⟨' ', _, rfl, rfl⟩
  have second := (first.append_scans name).append_closed post ⟨',', _, rfl, rfl⟩
  have third := (second.append_scans name).append_closed sum ⟨' ', _, rfl, rfl⟩
  exact ((third.append_scans name).append_closed last ⟨',', _, rfl, rfl⟩).scans

theorem closed_opening {header : String} {ts : List Token} (scanned : Scans header ts) :
    Closed (Yul.opening header) (ts ++ [.openBrace]) := by
  unfold Yul.opening
  split
  · rename_i empty
    -- Nothing else is scanned before a parenthesis after the empty text.
    have none := scanned '(' rfl
    rw [empty] at none
    have nil : ts ++ [.openParen] = [.openParen] := by
      have same : some ([Token.openParen], Pending.nothing) = some (ts ++ [.openParen], .nothing) := none
      simpa using same.symm
    obtain rfl : ts = [] := by simpa using nil
    rfl
  · have brace : Closed " \x7b" [.openBrace] := rfl
    exact scanned.append_closed brace ⟨' ', _, rfl, rfl⟩

theorem scans_empty : Scans "" [] := Closed.scans rfl

mutual

/-- The lines of a statement are scanned to the tokens of its tree. -/
theorem scansLines_stmt : ∀ (stmt : Yul.Stmt), (stmtSyntax stmt).Valid typed →
    ScansLines stmt.lines (stmtSyntax stmt).tokens
  | .letOne var ascription value, valid => .single (scans_let var ascription value valid)
  | .letMany vars value, valid => .single (scans_letMany vars value valid.2.2)
  | .assign targets value, valid => .single (scans_assign targets value valid.2)
  | .expr value, valid => .single (scans_exprStmt value valid)
  | .block body, valid => scansLines_block body scans_empty valid
  | .ifThen cond body, valid => by
      have word : Closed "if " [.keyword .ifWord] := rfl
      exact scansLines_block body (word.append_scans (scans_expr cond valid.1)) valid.2
  | .forLoop init cond post body, valid => by
      have word : Scans "for" [.keyword .forWord] := scans_word (List.all_eq_true.1 rfl) rfl
      have front := (scansLines_block init word valid.1).append
        (scansLines_block post (scans_expr cond valid.2.1) valid.2.2.1)
      have whole := front.append (scansLines_block body scans_empty valid.2.2.2)
      simpa only [Yul.Stmt.lines, stmtSyntax, Stmt.tokens, List.cons_append, List.nil_append,
        List.append_assoc] using whole
  | .boundedFor depth body, valid =>
      (ScansLines.single (scans_boundedHeader (.loop depth))).append
        (scansLines_block body scans_empty valid.2.2.2)
  | .switch scrutinee cases default, valid => by
      have word : Closed "switch " [.keyword .switchWord] := rfl
      have head := ScansLines.single (word.append_scans (scans_expr scrutinee valid.2.1))
      have arms := head.append (scansLines_cases cases valid.2.2.1)
      have otherwise : Scans "default" [.keyword .defaultWord] := scans_word (List.all_eq_true.1 rfl) rfl
      cases default with
      | none => exact arms.append .nil
      | some body => exact arms.append (scansLines_block body otherwise valid.2.2.2)
  | .function name inputs outputs body, valid => by
      have whole := scansLines_block body (scans_signature name inputs outputs) valid
      simpa only [Yul.Stmt.lines, stmtSyntax, Stmt.tokens, List.cons_append, List.append_assoc] using whole
  | .breakLoop, _ => .single (scans_word (List.all_eq_true.1 rfl) rfl)
  | .continueLoop, _ => .single (scans_word (List.all_eq_true.1 rfl) rfl)

/-- The lines of statements are scanned to the tokens of their trees. -/
theorem scansLines_stmts : ∀ (body : List Yul.Stmt), Stmt.AllValid typed (stmtsSyntax body) →
    ScansLines (Yul.Stmt.listLines body) (Stmt.listTokens (stmtsSyntax body))
  | [], _ => .nil
  | stmt :: rest, valid => (scansLines_stmt stmt valid.1).append (scansLines_stmts rest valid.2)

/-- The lines of the arms of a switch are scanned to the tokens of their trees. -/
theorem scansLines_cases : ∀ (cases : List (Yul.Literal × Yul.Block)),
    Stmt.CasesValid typed (casesSyntax cases) →
    ScansLines (Yul.Stmt.caseLines cases) (Stmt.caseTokens (casesSyntax cases))
  | [], _ => .nil
  | (label, body) :: rest, valid => by
      have word : Closed "case " [.keyword .caseWord] := rfl
      have arm := scansLines_block body (word.append_scans (scans_literal label valid.1)) valid.2.1
      exact arm.append (scansLines_cases rest valid.2.2)

/-- The lines of a block after a header are scanned to the tokens of the header and the block. -/
theorem scansLines_block : ∀ (block : Yul.Block) {header : String} {ts : List Token}, Scans header ts →
    Stmt.AllValid typed (blockSyntax block) →
    ScansLines (block.lines header) (ts ++ braced (Stmt.listTokens (blockSyntax block)))
  | .compact, header, ts, scanned, _ => by
      have brace : Closed " \x7d" [.closeBrace] := rfl
      have line := (closed_opening scanned).append brace
      rw [List.append_assoc] at line
      exact .single line.scans
  | .spread body, header, ts, scanned, valid => by
      have brace : Closed "\x7d" [.closeBrace] := rfl
      have inside := (scansLines_stmts body valid).indented
      have whole := ((ScansLines.single (closed_opening scanned).scans).append inside).append
        (.single brace.scans)
      rw [List.append_assoc ts, List.append_assoc ts] at whole
      exact whole

end

/-- The text of generated code has the tokens of its tree, if the tree is valid. -/
theorem tokens_render {code : Yul.Block} (valid : Stmt.AllValid typed (blockSyntax code)) :
    tokens code.render = some (braced (Stmt.listTokens (blockSyntax code))) :=
  (scansLines_block code scans_empty valid).tokens_join

/-- The text of generated code is read as its tree, if the tree is valid. -/
theorem read_render {code : Yul.Block} (valid : Stmt.AllValid typed (blockSyntax code)) :
    read code.render = some (blockSyntax code) :=
  read_of_tokens valid (tokens_render valid)

end YulFuzz.Grammar
