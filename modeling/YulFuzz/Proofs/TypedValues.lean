/-
Module: YulFuzz.Proofs.TypedValues
Purpose: Types behind the values of declarations. In a line with a type the value is a number literal, another
  literal, a variable or a call, and only a number literal may have the type behind it. It does unless the type
  is `bool` or the literal is a dictionary token that stands in for an expression: one that is not set, or that
  refers to a variable or calls a function where none is visible.
Main exports: Layout.isNumber, Layout.typedLine, Walk.State.leavesToToken, Walk.Point.Ascribes,
  Lexical.isNumber_expression, generate_ascribesNumbers, token_value_without_type
-/
import YulFuzz.Proofs.Typing

namespace YulFuzz

/-! ### Number literals and lines with a type -/

namespace Layout

/-- Whether characters are a number literal: decimal digits, or hex digits behind `0x`. -/
def isNumber : List Char → Bool
  | '0' :: 'x' :: digits => !digits.isEmpty && digits.all Char.isHexDigit
  | characters => !characters.isEmpty && characters.all Char.isDigit

/-- The line of a declaration: a variable with a type, and a value that has the type behind it if it is
    `carried`. -/
def typedLine (number : Nat) (type : TypeName) (value : String) (carried : Bool) : String :=
  "let x_" ++ toString number ++ ":" ++ type.name ++ " := " ++ value ++ (if carried then ":" ++ type.name else "")

theorem isNumber_of_isDigit {characters : List Char} (nonempty : characters ≠ [])
    (digits : ∀ c ∈ characters, c.isDigit) : isNumber characters := by
  unfold isNumber
  split
  · have letter := digits 'x' (by simp)
    cases letter
  · simpa [nonempty] using digits

theorem isNumber_of_isHexDigit {digits : List Char} (nonempty : digits ≠ [])
    (hex : ∀ c ∈ digits, c.isHexDigit) : isNumber ('0' :: 'x' :: digits) := by
  simpa [isNumber, nonempty] using hex

/-- Only hex digits and the letter `x` are in a number literal. -/
theorem isNumber_eq_false {characters : List Char} {c : Char} (member : c ∈ characters)
    (other : c.isHexDigit = false) (noMark : c ≠ 'x') : isNumber characters = false := by
  have noDigit : c.isDigit = false := by
    rw [Bool.eq_false_iff] at other ⊢
    exact fun digit => other (Grammar.isHexDigit_iff.2 (.inl digit))
  unfold isNumber
  split
  · rename_i digits
    have behind : c ∈ digits := by
      rcases List.mem_cons.1 member with rfl | member
      · cases noDigit
      · exact (List.mem_cons.1 member).resolve_left noMark
    have bad : digits.all Char.isHexDigit = false := List.all_eq_false.2 ⟨c, behind, by simp [other]⟩
    rw [bad, Bool.and_false]
  · have bad : characters.all Char.isDigit = false := List.all_eq_false.2 ⟨c, member, by simp [noDigit]⟩
    rw [bad, Bool.and_false]

theorem lines_typedLet (number : Nat) (type : TypeName) (carried : Bool) (value : Yul.Expr) :
    (Yul.Stmt.letOne (.user number) (some ⟨type, carried⟩) value).lines =
      [typedLine number type value.text carried] := by
  have front : "let " ++ ("x_" ++ toString number) = "let x_" ++ toString number := by
    rw [← String.append_assoc]
    rfl
  rw [Yul.Stmt.lines, Yul.letText, Yul.Var.text, typedLine, ← front]
  simp only [String.append_assoc]

/-- A valid literal is written as a number unless it is a text. -/
theorem isNumber_literal {l : Yul.Literal} (valid : (Grammar.literalSyntax l).Valid)
    (number : ∀ characters, l ≠ .quoted characters) : isNumber l.text.toList = true := by
  cases l with
  | decimal value =>
      exact isNumber_of_isDigit (Grammar.toList_toString_ne_nil _) fun _ => Grammar.isDigit_of_mem_toString
  | hex digits =>
      have text : (Yul.Literal.hex digits).text.toList = '0' :: 'x' :: digits.toList := by
        rw [Yul.Literal.text, String.toList_append]
        rfl
      rw [text]
      exact isNumber_of_isHexDigit valid.1 valid.2.2
  | quoted characters => exact absurd rfl (number characters)

theorem isNumber_quoted (characters : String) : isNumber (Yul.Literal.quoted characters).text.toList = false := by
  have quote : '"' ∈ (Yul.Literal.quoted characters).text.toList := by
    rw [Yul.Literal.text, String.toList_append]
    exact List.mem_append_right _ List.mem_cons_self
  exact isNumber_eq_false quote rfl (by decide)

theorem isNumber_var (var : Yul.Var) : isNumber var.text.toList = false := by
  have underscore : '_' ∈ var.text.toList := by
    cases var <;> rw [Yul.Var.text, String.toList_append] <;>
      exact List.mem_append_left _ (List.mem_cons_of_mem _ List.mem_cons_self)
  exact isNumber_eq_false underscore rfl (by decide)

theorem isNumber_call (callee : Yul.Callee) (args : List Yul.Expr) :
    isNumber (Yul.Expr.call callee args).text.toList = false := by
  have paren : ')' ∈ (Yul.Expr.call callee args).text.toList := by
    rw [Yul.Expr.text, String.toList_append]
    exact List.mem_append_right _ List.mem_cons_self
  exact isNumber_eq_false paren rfl (by decide)

end Layout

/-! ### Values -/

/-- Whether an expression is the literal node of a number. -/
def Tree.Expr.isNumber : Tree.Expr → Bool
  | .literal (.int _) | .literal (.hex _) => true
  | _ => false

namespace Walk

/-- Whether a dictionary token stands in for an expression: it is not set, or it refers to a variable or calls a
    function where none is visible. -/
def State.leavesToToken (s : State) : Tree.Expr → Bool
  | .unset | .literal .unset => true
  | .varRef _ => s.vars.live ≤ s.vars.offset
  | .call _ _ _ _ => (s.functions.candidates .singleReturn).isEmpty
  | _ => false

/-- Whether the next statement is a declaration with a type. -/
def Point.declaresTyped (p : Point) : Bool := p.rest.head?.any Tree.Stmt.hasType

/-- The line is that of the declaration in front of a point, and its value has the type behind it exactly if it
    is a number literal, the type is not `bool`, and no token stands in for the value. -/
def Point.Ascribes (p : Point) (line : List Char) : Prop :=
  ∃ type node rest value, p.rest = .declare (some type) node :: rest ∧ ':' ∉ value.toList ∧
    line = (Layout.typedLine p.state.vars.live type value
      (Layout.isNumber value.toList && type ≠ .bool && !p.state.leavesToToken node)).toList

end Walk

namespace Lexical

variable {settings : Settings} {context : Walk.Context} {fr : Frame} {env : Env}

/-- Counting on after the last one, there is something at every place of a list unless it is empty. -/
theorem isSome_getElem?_mod {α : Type} (list : List α) (place : Nat) :
    list[place % list.length]?.isSome = !list.isEmpty := by
  cases list with
  | nil => rfl
  | cons first others => simp [Nat.mod_lt place (Nat.succ_pos others.length)]

/-- A variable reference is left to a token where no variable is visible. -/
theorem leavesToToken_varRef (fits : fr.Fits env) (number : UInt32) (left : Nat) (t : Thread) :
    (fr.state left env t).leavesToToken (.varRef number) = !(env.resolve number).isSome := by
  have offset := fits.offset_le
  rw [Env.resolve, Option.isSome_map, isSome_getElem?_mod, Bool.not_not]
  change decide (env.fresh ≤ fr.offset) = _
  rw [Bool.eq_iff_iff, decide_eq_true_iff, List.isEmpty_iff_length_eq_zero, fits.length_vars]
  omega

/-- A call is left to a token where no function with one result is visible. -/
theorem leavesToToken_call (usage : Tree.CallUsage) (selector : UInt32) (args : List Tree.Expr)
    (targets : List UInt32) (left : Nat) (t : Thread) :
    (fr.state left env t).leavesToToken (.call usage selector args targets) =
      !(env.pick .singleReturn selector).isSome := by
  rw [Env.pick, isSome_getElem?_mod, Bool.not_not]
  rfl

/-- A hex literal stays one, also with the digits of a token. -/
theorem exists_literal_eq_hex (seed : Seed) (raw : String) (t : Thread) :
    ∃ digits, (literal seed (.hex raw) t).1 = .hex digits := by
  simp only [literal]
  cases Walk.hexDigits raw with
  | nil => exact ⟨_, rfl⟩
  | cons first others => exact ⟨_, rfl⟩

/-- A value is written as a number for the literal node of a number, and where a token stands in for it. -/
theorem isNumber_expression (fits : fr.Fits env) (seed : Seed) (node : Tree.Expr) (left : Nat) (t : Thread) :
    Layout.isNumber (expression seed env node t).1.text.toList =
      (node.isNumber || (fr.state left env t).leavesToToken node) := by
  have token (t : Thread) : Layout.isNumber (tokenExpr seed t).1.text.toList = true :=
    Layout.isNumber_literal (valid_token seed t.drawn) nofun
  cases node with
  | varRef number =>
      rw [leavesToToken_varRef fits, expression]
      cases env.resolve number with
      | none => exact token t
      | some found => exact Layout.isNumber_var found
  | literal node =>
      have valid := literal_valid seed node t
      cases node with
      | int value => exact Layout.isNumber_literal valid nofun
      | hex raw =>
          obtain ⟨digits, made⟩ := exists_literal_eq_hex seed raw t
          change Layout.isNumber (literal seed (.hex raw) t).1.text.toList = true
          rw [made] at valid ⊢
          exact Layout.isNumber_literal valid nofun
      | str raw => exact Layout.isNumber_quoted _
      | unset => exact token t
  | call usage selector args targets =>
      rw [leavesToToken_call, expression]
      cases env.pick .singleReturn selector with
      | none => exact token _
      | some callee => exact Layout.isNumber_call _ _
  | binary | unary | ternary | nullary => exact Layout.isNumber_call _ _
  | unset => exact token t

/-- The type stands behind the values that are literal nodes of numbers. -/
theorem ascription_eq (typed : settings.typedDeclarations = true) (type : TypeName) (node : Tree.Expr) :
    ascription settings (some type) node = some ⟨type, node.isNumber && type ≠ .bool⟩ := by
  rw [ascription, if_pos typed, Option.map_some]
  congr 2
  unfold Tree.Expr.isNumber
  split <;> simp_all

/-- No token stands in for the literal node of a number. -/
theorem isNumber_and_not_leavesToToken (node : Tree.Expr) (s : Walk.State) :
    ((node.isNumber || s.leavesToToken node) && !s.leavesToToken node) = node.isNumber := by
  cases number : node.isNumber with
  | false => rw [Bool.false_or, Bool.and_not_self]
  | true =>
      unfold Tree.Expr.isNumber at number
      split at number
      · rfl
      · rfl
      · cases number

/-- At a point in front of a declaration with a type, its line is written. -/
theorem Stands.ascribes {p : Walk.Point} (stands : Stands p) (typed : settings.typedDeclarations = true)
    (declares : p.declaresTyped = true) :
    ∃ line, p.typedLines settings = [line] ∧ p.Ascribes line.toList := by
  obtain @⟨context, fr, env, site, rest, left, t⟩ := stands
  match rest with
  | .declare (some type) node :: rest =>
      let p : Walk.Point := ⟨context, .declare (some type) node :: rest, fr.state left env t⟩
      let value := (expression settings.seed env node t).1
      have code : p.code settings =
          [.letOne (.user env.fresh) (some ⟨type, node.isNumber && type ≠ .bool⟩) value] := by
        rw [site.code_eq, ← ascription_eq typed]
        rfl
      have carried : (node.isNumber && type ≠ .bool) =
          (Layout.isNumber value.text.toList && type ≠ .bool && !p.state.leavesToToken node) := by
        rw [isNumber_expression site.fits settings.seed node left t, Bool.and_right_comm,
          isNumber_and_not_leavesToToken]
      refine ⟨Layout.typedLine env.fresh type value.text (node.isNumber && type ≠ .bool), ?_, type, node, rest,
        value.text, rfl, ?_, congrArg _ (congrArg _ carried)⟩
      · change (if p.declaresTyped then Yul.Stmt.listLines (p.code settings) else []) = _
        rw [if_pos declares, code, Yul.Stmt.listLines, Layout.lines_typedLet]
        rfl
      · intro member
        have valid : (Grammar.exprSyntax value).Valid true :=
          expression_valid settings.seed env node t
        rcases Layout.inner_expr value valid _ member with wordChar | between
        · cases wordChar
        · revert between
          decide

/-- The lines with a type are those of the declarations with a type, in order. -/
theorem ascribes_of_stands (typed : settings.typedDeclarations = true) :
    ∀ points : List Walk.Point, (∀ p ∈ points, Stands p) →
      List.Forall₂ Walk.Point.Ascribes (points.filter Walk.Point.declaresTyped)
        ((points.flatMap (Walk.Point.typedLines settings)).map String.toList)
  | [], _ => .nil
  | p :: points, stands => by
      have later := ascribes_of_stands typed points fun q member => stands q (List.mem_cons_of_mem _ member)
      cases declares : p.declaresTyped with
      | true =>
          obtain ⟨line, written, ascribes⟩ := (stands p List.mem_cons_self).ascribes typed declares
          rw [List.filter_cons_of_pos declares, List.flatMap_cons, written]
          exact .cons ascribes later
      | false =>
          have nothing : p.typedLines settings = [] := if_neg (Bool.eq_false_iff.1 declares)
          rw [List.filter_cons_of_neg (Bool.eq_false_iff.1 declares), List.flatMap_cons, nothing]
          exact later

end Lexical

/-- Which values of declarations have the type behind them. Every program is generated with typed declarations, and
    the lines of the text that have a type are, in order, those of the declarations with a type that the walk comes
    to. Each of them is `let x_n:T := v`, where `v` has the type behind it exactly if it is a number literal, the
    type is not `bool`, and `v` is not a dictionary token for an expression that is not set, or that refers to a
    variable or calls a function where none is visible. -/
theorem generate_ascribesNumbers (dictionary : Dictionary) (inputSize : Option UInt64) (tree : Tree.Program) :
    ∃ typed, tree.generate ⟨dictionary, inputSize, true⟩ = .ok typed ∧
      List.Forall₂ Walk.Point.Ascribes
        ((tree.points ⟨dictionary, inputSize, true⟩).filter Walk.Point.declaresTyped)
        (Layout.annotatedLines (Layout.linesOf typed.yul)) := by
  let settings : Settings := ⟨dictionary, inputSize, true⟩
  obtain ⟨typed, generated, text⟩ := Lexical.exists_generation settings tree
  have stands := Lexical.program_stands settings tree
  refine ⟨typed, generated, ?_⟩
  rw [text, Layout.annotatedLines_render (Lexical.program_valid settings tree),
    (Lexical.program_tallied settings tree).lets, Lexical.typedLines_of_stands settings rfl _ stands]
  exact Lexical.ascribes_of_stands rfl _ stands

/-- A dictionary token is a number literal without a type behind it, where a declaration leaves its value to the
    dictionary. -/
theorem token_value_without_type :
    ∃ g, Tree.Program.generate { typedDeclarations := true } ⟨[.declare (some .u8) .unset]⟩ = .ok g ∧
      Layout.annotatedLines (Layout.linesOf g.yul) = [(Layout.typedLine 0 .u8 "0x0" false).toList] ∧
      Layout.isNumber "0x0".toList = true :=
  ⟨_, rfl, by decide +kernel, by decide⟩

end YulFuzz
