/-
Module: YulFuzz.Proofs.Grammar.Reader
Purpose: A reader for Yul: a recursive descent over tokens. It reads back every valid tree from its tokens.
Main exports: Grammar.read, Grammar.expression_tokens, Grammar.statement_tokens, Grammar.read_of_tokens
-/
import YulFuzz.Proofs.Grammar.Syntax

namespace YulFuzz.Grammar

/-! ### The reader -/

/-- Go on after a token that has to come next. -/
def expect (token : Token) : List Token → Option (List Token)
  | [] => none
  | next :: rest => if next = token then some rest else none

/-- Read one or more names between commas. -/
def names : List Token → Option (List String × List Token)
  | .name name :: .comma :: rest => do
    let (others, rest) ← names rest
    some (name :: others, rest)
  | .name name :: rest => some ([name], rest)
  | _ => none

/-- Read one or more names between commas, each of which may have a type. -/
def typedNames : List Token → Option (List TypedName × List Token)
  | .name name :: .colon :: .name type :: .comma :: rest => do
    let (others, rest) ← typedNames rest
    some (⟨name, some type⟩ :: others, rest)
  | .name name :: .colon :: .name type :: rest => some ([⟨name, some type⟩], rest)
  | .name name :: .comma :: rest => do
    let (others, rest) ← typedNames rest
    some (⟨name, none⟩ :: others, rest)
  | .name name :: rest => some ([⟨name, none⟩], rest)
  | _ => none

/-- Read the parameters of a function, after the opening parenthesis. -/
def parameters : List Token → Option (List String × List Token)
  | .closeParen :: rest => some ([], rest)
  | rest => do
    let (inputs, rest) ← names rest
    let rest ← expect .closeParen rest
    some (inputs, rest)

/-- Read the results of a function, which may have none. -/
def results : List Token → Option (List String × List Token)
  | .arrow :: rest => names rest
  | rest => some ([], rest)

mutual

/-- Read an expression. The first argument bounds the nesting. -/
def expression : Nat → List Token → Option (Expr × List Token)
  | bound + 1, .name callee :: .openParen :: rest => do
    let (args, rest) ← arguments bound rest
    some (.call callee args, rest)
  | _ + 1, .name name :: rest => some (.name name, rest)
  | _ + 1, .literal literal :: .colon :: .name type :: rest => some (.literal literal (some type), rest)
  | _ + 1, .literal literal :: rest => some (.literal literal none, rest)
  | _, _ => none

/-- Read the arguments of a call, after the opening parenthesis. -/
def arguments : Nat → List Token → Option (List Expr × List Token)
  | _ + 1, .closeParen :: rest => some ([], rest)
  | bound + 1, rest => do
    let (first, rest) ← expression bound rest
    let (others, rest) ← moreArguments bound rest
    some (first :: others, rest)
  | _, _ => none

/-- Read the arguments after the first one, up to the closing parenthesis. -/
def moreArguments : Nat → List Token → Option (List Expr × List Token)
  | _ + 1, .closeParen :: rest => some ([], rest)
  | bound + 1, .comma :: rest => do
    let (arg, rest) ← expression bound rest
    let (others, rest) ← moreArguments bound rest
    some (arg :: others, rest)
  | _, _ => none

end

mutual

/-- Read a statement. The first argument bounds the nesting. -/
def statement : Nat → List Token → Option (Stmt × List Token)
  | bound + 1, .keyword .letWord :: rest => do
    let (names, rest) ← typedNames rest
    let rest ← expect .becomes rest
    let (value, rest) ← expression bound rest
    some (.declare names value, rest)
  | bound + 1, .name callee :: .openParen :: rest => do
    let (args, rest) ← arguments bound rest
    some (.call callee args, rest)
  | bound + 1, .name first :: rest => do
    let (targets, rest) ← names (.name first :: rest)
    let rest ← expect .becomes rest
    let (value, rest) ← expression bound rest
    some (.assign targets value, rest)
  | bound + 1, .openBrace :: rest => do
    let (body, rest) ← statements bound rest
    some (.block body, rest)
  | bound + 1, .keyword .ifWord :: rest => do
    let (cond, rest) ← expression bound rest
    let rest ← expect .openBrace rest
    let (body, rest) ← statements bound rest
    some (.ifThen cond body, rest)
  | bound + 1, .keyword .forWord :: .openBrace :: rest => do
    let (init, rest) ← statements bound rest
    let (cond, rest) ← expression bound rest
    let rest ← expect .openBrace rest
    let (post, rest) ← statements bound rest
    let rest ← expect .openBrace rest
    let (body, rest) ← statements bound rest
    some (.forLoop init cond post body, rest)
  | bound + 1, .keyword .switchWord :: rest => do
    let (scrutinee, rest) ← expression bound rest
    let (cases, rest) ← caseArms bound rest
    let (default, rest) ← defaultArm bound rest
    if cases.isEmpty && default.isNone then none else some (.switch scrutinee cases default, rest)
  | bound + 1, .keyword .functionWord :: .name name :: .openParen :: rest => do
    let (inputs, rest) ← parameters rest
    let (outputs, rest) ← results rest
    let rest ← expect .openBrace rest
    let (body, rest) ← statements bound rest
    some (.function name inputs outputs body, rest)
  | _ + 1, .keyword .breakWord :: rest => some (.breakLoop, rest)
  | _ + 1, .keyword .continueWord :: rest => some (.continueLoop, rest)
  | _, _ => none

/-- Read statements, up to the closing brace of their block. -/
def statements : Nat → List Token → Option (List Stmt × List Token)
  | _ + 1, .closeBrace :: rest => some ([], rest)
  | bound + 1, rest => do
    let (stmt, rest) ← statement bound rest
    let (others, rest) ← statements bound rest
    some (stmt :: others, rest)
  | _, _ => none

/-- Read the arms of a switch that have a label. -/
def caseArms : Nat → List Token → Option (List (Literal × List Stmt) × List Token)
  | bound + 1, .keyword .caseWord :: .literal label :: .openBrace :: rest => do
    let (body, rest) ← statements bound rest
    let (others, rest) ← caseArms bound rest
    some ((label, body) :: others, rest)
  | _ + 1, rest => some ([], rest)
  | _, _ => none

/-- Read the arm of a switch without a label, if there is one. -/
def defaultArm : Nat → List Token → Option (Option (List Stmt) × List Token)
  | bound + 1, .keyword .defaultWord :: .openBrace :: rest => do
    let (body, rest) ← statements bound rest
    some (some body, rest)
  | _ + 1, rest => some (none, rest)
  | _, _ => none

end

/-- Read a text that consists of exactly one block. -/
def read (text : String) : Option (List Stmt) := do
  let rest ← tokens text
  let (program, rest) ← statement (2 * rest.length) rest
  match program, rest with
  | .block body, [] => some body
  | _, _ => none

/-! ### Reading back a tree -/

/-- Tokens that do not continue an expression in front of them. -/
def EndsExpr : List Token → Prop
  | .openParen :: _ | .colon :: _ => False
  | _ => True

/-- Tokens that do not continue a statement in front of them. -/
def EndsStmt : List Token → Prop
  | .openParen :: _ | .colon :: _ | .keyword .caseWord :: _ | .keyword .defaultWord :: _ => False
  | _ => True

theorem EndsStmt.endsExpr {rest : List Token} (ends : EndsStmt rest) : EndsExpr rest := by
  cases rest with
  | nil => trivial
  | cons token rest => cases token <;> trivial

@[simp] theorem expect_self (token : Token) (rest : List Token) : expect token (token :: rest) = some rest :=
  if_pos rfl

variable {typed : Bool} {bound : Nat} {rest : List Token}

/-- Where an expression can be read there are arguments, and the expression is the first of them. -/
theorem arguments_of_expression {first : Expr} {later : List Token}
    (found : expression bound rest = some (first, later)) :
    arguments (bound + 1) rest = (do
      let (others, later) ← moreArguments bound later
      some (first :: others, later)) := by
  cases rest with
  | nil => cases bound <;> cases found
  | cons token rest =>
      cases token with
      | closeParen => cases bound <;> cases found
      | _ =>
          rw [arguments, found]
          · rfl
          · simp

theorem expression_name (text : String) (ends : EndsExpr rest) :
    expression (bound + 1) (.name text :: rest) = some (.name text, rest) := by
  cases rest with
  | nil => rfl
  | cons token rest => cases token <;> first | rfl | exact ends.elim

theorem expression_literal (value : Literal) (ends : EndsExpr rest) :
    expression (bound + 1) (.literal value :: rest) = some (.literal value none, rest) := by
  cases rest with
  | nil => rfl
  | cons token rest => cases token <;> first | rfl | exact ends.elim

mutual

/-- Every expression is read back from its tokens. -/
theorem expression_tokens : ∀ (expr : Expr) {bound : Nat} {rest : List Token}, EndsExpr rest →
    2 * expr.tokens.length ≤ bound → expression bound (expr.tokens ++ rest) = some (expr, rest)
  | .name text, bound + 1, rest, ends, _ => expression_name text ends
  | .literal value none, bound + 1, rest, ends, _ => expression_literal value ends
  | .literal value (some type), bound + 1, rest, _, _ => rfl
  | .call callee args, bound + 1, rest, _, enough => by
      have inside : arguments bound (_ ++ .closeParen :: rest) = some (args, rest) :=
        arguments_tokens args (by
          simp only [Expr.tokens, List.length_cons, List.length_append] at enough
          omega)
      simp only [Expr.tokens, List.cons_append, List.append_assoc, expression, List.nil_append, inside]
      rfl

/-- The arguments of a call are read back from their tokens. -/
theorem arguments_tokens : ∀ (args : List Expr) {bound : Nat} {rest : List Token},
    2 * (commaSeparated (Expr.tokensOfEach args)).length + 2 ≤ bound →
    arguments bound (commaSeparated (Expr.tokensOfEach args) ++ .closeParen :: rest) = some (args, rest)
  | [], bound + 1, rest, _ => rfl
  | first :: others, bound + 1, rest, enough => by
      simp only [Expr.tokensOfEach, commaSeparated, List.length_append, List.append_assoc] at enough ⊢
      have ends : EndsExpr ((Expr.tokensOfEach others).flatMap (.comma :: ·) ++ .closeParen :: rest) := by
        cases others <;> trivial
      rw [arguments_of_expression (expression_tokens first ends (by omega)),
        moreArguments_tokens others (by omega)]
      rfl

/-- The arguments of a call after the first one are read back from their tokens. -/
theorem moreArguments_tokens : ∀ (args : List Expr) {bound : Nat} {rest : List Token},
    2 * ((Expr.tokensOfEach args).flatMap (.comma :: ·)).length + 1 ≤ bound →
    moreArguments bound ((Expr.tokensOfEach args).flatMap (.comma :: ·) ++ .closeParen :: rest) =
      some (args, rest)
  | [], bound + 1, rest, _ => rfl
  | arg :: others, bound + 1, rest, enough => by
      simp only [Expr.tokensOfEach, List.flatMap_cons, List.length_append, List.length_cons,
        List.append_assoc, List.cons_append] at enough ⊢
      have ends : EndsExpr ((Expr.tokensOfEach others).flatMap (.comma :: ·) ++ .closeParen :: rest) := by
        cases others <;> trivial
      rw [moreArguments, expression_tokens arg ends (by omega)]
      simp only [Option.bind_eq_bind, Option.bind_some]
      rw [moreArguments_tokens others (by omega)]
      rfl

end

/-- Tokens that do not continue a list of names in front of them. -/
def EndsNames : List Token → Prop
  | .comma :: _ | .colon :: _ => False
  | _ => True

/-- Names are read back from their tokens. -/
theorem names_tokens {list : List String} (nonempty : list ≠ []) (ends : EndsNames rest) :
    names (nameTokens list ++ rest) = some (list, rest) := by
  induction list with
  | nil => exact absurd rfl nonempty
  | cons first others ih =>
      cases others with
      | nil =>
          cases rest with
          | nil => rfl
          | cons token rest => cases token <;> first | rfl | exact ends.elim
      | cons second others =>
          have later := ih (List.cons_ne_nil _ _)
          change (do
            let (others, rest) ← names (nameTokens (second :: others) ++ rest)
            some (first :: others, rest)) = _
          rw [later]
          rfl

/-- Declared names are read back from their tokens. -/
theorem typedNames_tokens {list : List TypedName} (nonempty : list ≠ []) (ends : EndsNames rest) :
    typedNames (commaSeparated (list.map TypedName.tokens) ++ rest) = some (list, rest) := by
  induction list with
  | nil => exact absurd rfl nonempty
  | cons first others ih =>
      obtain ⟨name, type⟩ := first
      cases others with
      | nil =>
          cases type <;> cases rest with
          | nil => rfl
          | cons token rest => cases token <;> first | rfl | exact ends.elim
      | cons second others =>
          have later := ih (List.cons_ne_nil _ _)
          cases type with
          | none =>
              change (do
                let (others, rest) ←
                  typedNames (commaSeparated ((second :: others).map TypedName.tokens) ++ rest)
                some (TypedName.mk name none :: others, rest)) = _
              rw [later]
              rfl
          | some type =>
              change (do
                let (others, rest) ←
                  typedNames (commaSeparated ((second :: others).map TypedName.tokens) ++ rest)
                some (TypedName.mk name (some type) :: others, rest)) = _
              rw [later]
              rfl

/-- The parameters of a function are read back from their tokens. -/
theorem parameters_tokens (list : List String) :
    parameters (nameTokens list ++ .closeParen :: rest) = some (list, rest) := by
  cases list with
  | nil => rfl
  | cons first others =>
      have inside : names (nameTokens (first :: others) ++ .closeParen :: rest) = some _ :=
        names_tokens (List.cons_ne_nil _ _) trivial
      change (do
        let (inputs, rest) ← names (nameTokens (first :: others) ++ Token.closeParen :: rest)
        let rest ← expect Token.closeParen rest
        some (inputs, rest)) = _
      rw [inside]
      rfl

/-- The results of a function are read back from their tokens. -/
theorem results_tokens (list : List String) :
    results ((if list.isEmpty then [] else .arrow :: nameTokens list) ++ .openBrace :: rest) =
      some (list, .openBrace :: rest) := by
  cases list with
  | nil => rfl
  | cons first others => exact names_tokens (List.cons_ne_nil _ _) trivial

/-- Where a statement can be read there are statements, and it is the first of them. -/
theorem statements_of_statement {first : Stmt} {later : List Token}
    (found : statement bound rest = some (first, later)) :
    statements (bound + 1) rest = (do
      let (others, later) ← statements bound later
      some (first :: others, later)) := by
  cases rest with
  | nil => cases bound <;> cases found
  | cons token rest =>
      cases token with
      | closeBrace => cases bound <;> cases found
      | _ =>
          rw [statements, found]
          · rfl
          · simp

theorem caseArms_of_ends (ends : EndsStmt rest) : caseArms (bound + 1) rest = some ([], rest) := by
  cases rest with
  | nil => rfl
  | cons token rest =>
      cases token with
      | keyword word => cases word <;> first | rfl | exact ends.elim
      | _ => rfl

theorem defaultArm_of_ends (ends : EndsStmt rest) : defaultArm (bound + 1) rest = some (none, rest) := by
  cases rest with
  | nil => rfl
  | cons token rest =>
      cases token with
      | keyword word => cases word <;> first | rfl | exact ends.elim
      | _ => rfl

@[simp] theorem length_braced (inside : List Token) : (braced inside).length = inside.length + 2 := by
  simp [braced]

@[simp] theorem braced_append (inside : List Token) :
    braced inside ++ rest = .openBrace :: (inside ++ .closeBrace :: rest) := by
  simp [braced]

/-- The tokens of a statement do not continue a statement in front of them, and there are some. -/
theorem endsStmt_tokens (stmt : Stmt) (valid : stmt.Valid typed) :
    EndsStmt (stmt.tokens ++ rest) ∧ 0 < stmt.tokens.length := by
  cases stmt with
  | assign targets value =>
      cases targets with
      | nil => exact absurd rfl valid.1
      | cons first others => exact ⟨trivial, Nat.succ_pos _⟩
  | _ => exact ⟨trivial, Nat.succ_pos _⟩

theorem endsStmt_listTokens (body : List Stmt) (valid : Stmt.AllValid typed body) :
    EndsStmt (Stmt.listTokens body ++ .closeBrace :: rest) := by
  cases body with
  | nil => trivial
  | cons stmt others =>
      rw [Stmt.listTokens, List.append_assoc]
      exact (endsStmt_tokens stmt valid.1).1

theorem expression_before_brace (expr : Expr) (enough : 2 * expr.tokens.length ≤ bound) :
    expression bound (expr.tokens ++ .openBrace :: rest) = some (expr, .openBrace :: rest) :=
  expression_tokens expr trivial enough

/-- A statement that starts with names is an assignment to them. -/
theorem statement_of_names (first : String) (others : List String) :
    statement (bound + 1) (nameTokens (first :: others) ++ .becomes :: rest) = (do
      let (targets, rest) ← names (nameTokens (first :: others) ++ .becomes :: rest)
      let rest ← expect Token.becomes rest
      let (value, rest) ← expression bound rest
      some (Stmt.assign targets value, rest)) := by
  cases others <;> rfl

/-- The arms of a switch do not continue its scrutinee. -/
theorem endsExpr_caseTokens (cases : List (Literal × List Stmt)) (default : Option (List Stmt))
    (ends : EndsStmt rest) : EndsExpr (Stmt.caseTokens cases ++ (Stmt.defaultTokens default ++ rest)) := by
  cases cases with
  | cons arm others => trivial
  | nil =>
      cases default with
      | none => exact ends.endsExpr
      | some body => trivial

/-- There is no further arm with a label in front of the arm without one, or after a switch. -/
theorem caseArms_of_defaultTokens (default : Option (List Stmt)) (ends : EndsStmt rest) (bound : Nat) :
    caseArms (bound + 1) (Stmt.defaultTokens default ++ rest) =
      some ([], Stmt.defaultTokens default ++ rest) := by
  cases default with
  | none => exact caseArms_of_ends ends
  | some body => rfl

mutual

/-- Every valid statement is read back from its tokens. -/
theorem statement_tokens : ∀ (stmt : Stmt) {bound : Nat} {rest : List Token}, stmt.Valid typed →
    EndsStmt rest → 2 * stmt.tokens.length ≤ bound →
    statement bound (stmt.tokens ++ rest) = some (stmt, rest)
  | .declare names value, bound + 1, rest, valid, ends, enough => by
      simp only [Stmt.tokens, List.cons_append, List.append_assoc, List.length_cons, List.length_append]
        at enough ⊢
      have read : typedNames (_ ++ .becomes :: (value.tokens ++ rest)) = some (names, _) :=
        typedNames_tokens valid.1 trivial
      rw [statement, read]
      simp only [Option.bind_eq_bind, Option.bind_some, expect_self]
      rw [expression_tokens value ends.endsExpr (by omega)]
      rfl
  | .assign [] value, bound, rest, valid, ends, enough => absurd rfl valid.1
  | .assign (first :: others) value, bound + 1, rest, valid, ends, enough => by
      have read : names (nameTokens (first :: others) ++ .becomes :: (value.tokens ++ rest)) = some _ :=
        names_tokens valid.1 trivial
      simp only [Stmt.tokens, List.length_cons, List.length_append, List.append_assoc, List.cons_append]
        at enough ⊢
      rw [statement_of_names, read]
      simp only [Option.bind_eq_bind, Option.bind_some, expect_self]
      rw [expression_tokens value ends.endsExpr (by omega)]
      rfl
  | .call callee args, bound + 1, rest, valid, ends, enough => by
      have inside : arguments bound (_ ++ .closeParen :: rest) = some (args, rest) :=
        arguments_tokens args (by
          simp only [Stmt.tokens, Expr.tokens, List.length_cons, List.length_append] at enough
          omega)
      simp only [Stmt.tokens, Expr.tokens, List.cons_append, List.append_assoc, List.nil_append]
      rw [statement, inside]
      rfl
  | .block body, bound + 1, rest, valid, ends, enough => by
      simp only [Stmt.tokens, length_braced, braced_append] at enough ⊢
      rw [statement, statements_tokens body valid (by omega)]
      rfl
  | .ifThen cond body, bound + 1, rest, valid, ends, enough => by
      simp only [Stmt.tokens, length_braced, braced_append, List.length_cons, List.length_append,
        List.cons_append, List.append_assoc] at enough ⊢
      rw [statement, expression_before_brace cond (by omega)]
      simp only [Option.bind_eq_bind, Option.bind_some, expect_self]
      rw [statements_tokens body valid.2 (by omega)]
      rfl
  | .forLoop init cond post body, bound + 1, rest, valid, ends, enough => by
      simp only [Stmt.tokens, length_braced, braced_append, List.length_cons, List.length_append,
        List.cons_append, List.append_assoc] at enough ⊢
      rw [statement, statements_tokens init valid.1 (by omega)]
      simp only [Option.bind_eq_bind, Option.bind_some]
      rw [expression_before_brace cond (by omega)]
      simp only [Option.bind_some, expect_self]
      rw [statements_tokens post valid.2.2.1 (by omega)]
      simp only [Option.bind_some, expect_self]
      rw [statements_tokens body valid.2.2.2 (by omega)]
      rfl
  | .switch scrutinee cases default, bound + 1, rest, valid, ends, enough => by
      simp only [Stmt.tokens, List.length_cons, List.length_append, List.cons_append, List.append_assoc]
        at enough ⊢
      rw [statement, expression_tokens scrutinee (endsExpr_caseTokens cases default ends) (by omega)]
      simp only [Option.bind_eq_bind, Option.bind_some]
      rw [caseArms_tokens cases valid.2.2.1 (caseArms_of_defaultTokens default ends) (by omega)]
      simp only [Option.bind_some]
      rw [defaultArm_tokens default valid.2.2.2 ends (by omega)]
      have arms : (cases.isEmpty && default.isNone) = false := by
        rcases valid.1 with some | some
        · rw [List.isEmpty_eq_false_iff.2 some]
          rfl
        · rw [Option.isNone_eq_false_iff.2 some, Bool.and_false]
      simp only [Option.bind_some, arms]
      rfl
  | .function name inputs outputs body, bound + 1, rest, valid, ends, enough => by
      simp only [Stmt.tokens, length_braced, braced_append, List.length_cons, List.length_append,
        List.cons_append, List.append_assoc] at enough ⊢
      rw [statement, parameters_tokens]
      simp only [Option.bind_eq_bind, Option.bind_some]
      rw [results_tokens]
      simp only [Option.bind_some, expect_self]
      rw [statements_tokens body valid (by omega)]
      rfl
  | .breakLoop, bound + 1, rest, _, _, _ => rfl
  | .continueLoop, bound + 1, rest, _, _, _ => rfl

/-- Valid statements are read back from their tokens, up to the closing brace. -/
theorem statements_tokens : ∀ (body : List Stmt) {bound : Nat} {rest : List Token},
    Stmt.AllValid typed body → 2 * (Stmt.listTokens body).length + 2 ≤ bound →
    statements bound (Stmt.listTokens body ++ .closeBrace :: rest) = some (body, rest)
  | [], bound + 1, rest, _, _ => rfl
  | stmt :: others, bound + 1, rest, valid, enough => by
      simp only [Stmt.listTokens, List.length_append, List.append_assoc] at enough ⊢
      obtain ⟨_, some⟩ : EndsStmt (stmt.tokens ++ rest) ∧ _ := endsStmt_tokens stmt valid.1
      rw [statements_of_statement (statement_tokens stmt valid.1 (endsStmt_listTokens others valid.2)
        (by omega)), statements_tokens others valid.2 (by omega)]
      rfl

/-- The arms of a switch with a label are read back from their tokens. -/
theorem caseArms_tokens : ∀ (cases : List (Literal × List Stmt)) {bound : Nat} {rest : List Token},
    Stmt.CasesValid typed cases → (∀ bound, caseArms (bound + 1) rest = some ([], rest)) →
    2 * (Stmt.caseTokens cases).length + 1 ≤ bound →
    caseArms bound (Stmt.caseTokens cases ++ rest) = some (cases, rest)
  | [], bound + 1, rest, _, ends, _ => ends bound
  | (label, body) :: others, bound + 1, rest, valid, ends, enough => by
      simp only [Stmt.caseTokens, braced_append, List.length_cons, List.length_append,
        List.cons_append, List.append_assoc] at enough ⊢
      rw [caseArms, statements_tokens body valid.2.1 (by omega)]
      simp only [Option.bind_eq_bind, Option.bind_some]
      rw [caseArms_tokens others valid.2.2 ends (by omega)]
      rfl

/-- The arm of a switch without a label is read back from its tokens. -/
theorem defaultArm_tokens : ∀ (default : Option (List Stmt)) {bound : Nat} {rest : List Token},
    Stmt.DefaultValid typed default → EndsStmt rest →
    2 * (Stmt.defaultTokens default).length + 1 ≤ bound →
    defaultArm bound (Stmt.defaultTokens default ++ rest) = some (default, rest)
  | none, bound + 1, rest, _, ends, _ => defaultArm_of_ends ends
  | some body, bound + 1, rest, valid, ends, enough => by
      simp only [Stmt.defaultTokens, length_braced, braced_append, List.length_cons,
        List.cons_append] at enough ⊢
      rw [defaultArm, statements_tokens body valid (by omega)]
      rfl

end

/-- A text is read as the valid program whose tokens it has. -/
theorem read_of_tokens {text : String} {body : List Stmt} (valid : Stmt.AllValid typed body)
    (scanned : tokens text = some (braced (Stmt.listTokens body))) : read text = some body := by
  have found : statement _ ((Stmt.block body).tokens ++ []) = some (.block body, []) :=
    statement_tokens (.block body) valid trivial (Nat.le_refl _)
  rw [List.append_nil] at found
  change statement (2 * (braced (Stmt.listTokens body)).length) (braced (Stmt.listTokens body)) = _ at found
  unfold read
  rw [scanned]
  simp only [Option.bind_eq_bind, Option.bind_some, found]

end YulFuzz.Grammar
