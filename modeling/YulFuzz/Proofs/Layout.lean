/-
Module: YulFuzz.Proofs.Layout
Purpose: The layout of printed programs: no statement has a line feed or a brace of its own, so the lines of
  the text are the lines of the statements, and each of them is indented by two spaces for each block that is
  open around it.
Main exports: Layout.linesOf, Layout.depthAfter?, Layout.Indented, Layout.linesOf_join, Layout.lays_stmt,
  Layout.indented_render
-/
import YulFuzz.Proofs.Grammar.Printed

namespace YulFuzz.Layout

open Grammar (exprSyntax exprsSyntax stmtSyntax stmtsSyntax blockSyntax casesSyntax literalSyntax letSyntax)
open Grammar.Stmt (AllValid CasesValid)

/-- The lines of a text. After a line feed at its end there is one more, which is empty. -/
def linesOf (text : String) : List (List Char) := text.toList.splitOn '\n'

/-- The number of blocks open after a line, if the line is indented by two spaces for each block that is open
    around it. A closing brace at the front of the line is indented like the line that opens its block. -/
def depthAfter? (depth : Nat) (line : List Char) : Option Nat :=
  let leaving := if (line.dropWhile (· = ' ')).head? = some '\x7d' then 1 else 0
  let opened := line.count '\x7b'
  let closed := line.count '\x7d'
  if (line.takeWhile (· = ' ')).length + 2 * leaving = 2 * depth ∧ closed ≤ depth + opened then
    some (depth + opened - closed)
  else none

/-- Each line is indented by two spaces for each block open around it, and in the end no block is open. -/
def Indented (text : String) : Prop := (linesOf text).foldlM depthAfter? 0 = some 0

/-! ### Texts within a line -/

/-- The text has no line feed and no brace. -/
def Plain (text : String) : Prop := ∀ c ∈ text.toList, c ≠ '\n' ∧ c ≠ '\x7b' ∧ c ≠ '\x7d'

/-- The text starts with something other than a space. -/
def Starts (text : String) : Prop := ∃ c rest, text.toList = c :: rest ∧ c ≠ ' '

variable {a b : String} {typed : Bool}

theorem Plain.append (first : Plain a) (second : Plain b) : Plain (a ++ b) := by
  intro c member
  rw [String.toList_append, List.mem_append] at member
  rcases member with here | there
  · exact first c here
  · exact second c there

theorem Starts.append (starts : Starts a) (b : String) : Starts (a ++ b) := by
  obtain ⟨c, rest, same, visible⟩ := starts
  exact ⟨c, rest ++ b.toList, by rw [String.toList_append, same, List.cons_append], visible⟩

/-- A text without line feeds and braces that starts at its first character. -/
def Inline (text : String) : Prop := Plain text ∧ Starts text

theorem Inline.append (first : Inline a) (second : Plain b) : Inline (a ++ b) :=
  ⟨first.1.append second, first.2.append b⟩

/-- The text has only characters that words, literals and argument lists are written with. -/
def Inner (text : String) : Prop := ∀ c ∈ text.toList, Grammar.isWordChar c ∨ c ∈ "(), \"".toList

theorem Inner.append (first : Inner a) (second : Inner b) : Inner (a ++ b) := by
  intro c member
  rw [String.toList_append, List.mem_append] at member
  rcases member with here | there
  · exact first c here
  · exact second c there

theorem Inner.plain (inner : Inner a) : Plain a := by
  intro c member
  rcases inner c member with wordChar | between
  · refine ⟨?_, ?_, ?_⟩ <;> rintro rfl <;> cases wordChar
  · refine ⟨?_, ?_, ?_⟩ <;> rintro rfl <;> revert between <;> decide

theorem inner_of_isWord (word : Grammar.IsWord a) : Inner a := fun c member => .inl (word.2 c member)

/-- A closed text within an expression can be told from its characters. -/
theorem inner_of_all (inner : a.toList.all fun c => "(), \"".toList.contains c) : Inner a :=
  fun c member => .inr (List.contains_iff_mem.1 (List.all_eq_true.1 inner c member))

theorem inline_of_isWord (word : Grammar.IsWord a) : Inline a := by
  refine ⟨(inner_of_isWord word).plain, ?_⟩
  obtain ⟨nonempty, chars⟩ := word
  obtain ⟨c, rest, same⟩ := List.exists_cons_of_ne_nil nonempty
  refine ⟨c, rest, same, ?_⟩
  have wordChar := chars c (by rw [same]; exact List.mem_cons_self)
  rintro rfl
  cases wordChar

/-- A closed text is plain if that can be read off its characters. -/
theorem plain_of_all (plain : a.toList.all fun c => c ≠ '\n' && c ≠ '\x7b' && c ≠ '\x7d') : Plain a := by
  intro c member
  simpa [and_assoc] using List.all_eq_true.1 plain c member

theorem inner_literal (value : Yul.Literal) (valid : (literalSyntax value).Valid) : Inner value.text := by
  cases value with
  | decimal value =>
      exact fun c member => .inl (Grammar.isWordChar_of_isDigit (Grammar.isDigit_of_mem_toString member))
  | hex digits =>
      have front : Grammar.IsWord "0x" := Grammar.isWord_of_all (by decide) rfl
      exact inner_of_isWord (front.append fun c member =>
        Grammar.isWordChar_of_isHexDigit (valid.2.2 c member))
  | quoted characters =>
      have quote : Inner "\"" := inner_of_all rfl
      have inside : Inner characters := fun c member =>
        .inl (Grammar.isWordChar_of_isAlphanum (valid.2 c member))
      exact (quote.append inside).append quote

theorem inline_literal (value : Yul.Literal) (valid : (literalSyntax value).Valid) : Inline value.text := by
  refine ⟨(inner_literal value valid).plain, ?_⟩
  cases value with
  | decimal value =>
      exact (inline_of_isWord ⟨Grammar.toList_toString_ne_nil _, fun c member =>
        Grammar.isWordChar_of_isDigit (Grammar.isDigit_of_mem_toString member)⟩).2
  | hex digits => exact Starts.append ⟨'0', _, rfl, by decide⟩ _
  | quoted characters => exact (Starts.append ⟨'"', [], rfl, by decide⟩ _).append _

theorem inner_listed {texts : List String} (inner : ∀ text ∈ texts, Inner text) :
    Inner (Yul.listed texts) := by
  induction texts with
  | nil => exact inner_of_all rfl
  | cons first others ih =>
      have here := inner first List.mem_cons_self
      have later := ih fun text member => inner text (List.mem_cons_of_mem _ member)
      cases others with
      | nil =>
          rw [Yul.listed, String.intercalate_singleton]
          exact here
      | cons second others =>
          rw [Yul.listed, String.intercalate_cons_cons]
          exact (here.append (inner_of_all rfl)).append later

theorem inner_vars (vars : List Yul.Var) : Inner (Yul.Var.listed vars) := by
  apply inner_listed
  intro text member
  obtain ⟨var, _, rfl⟩ := List.mem_map.1 member
  exact inner_of_isWord (Grammar.isWord_var var)

theorem plain_vars (vars : List Yul.Var) : Plain (Yul.Var.listed vars) := (inner_vars vars).plain

mutual

/-- The text of an expression has the characters of its words and of argument lists. -/
theorem inner_expr : ∀ (expr : Yul.Expr), (exprSyntax expr).Valid typed → Inner expr.text
  | .var v, _ => inner_of_isWord (Grammar.isWord_var v)
  | .literal value, valid => inner_literal value valid.1
  | .call callee args, valid => by
      have word := inner_of_isWord (Grammar.isWord_callee callee)
      have open_ : Inner "(" := inner_of_all rfl
      have close : Inner ")" := inner_of_all rfl
      exact ((word.append open_).append (inner_listed (inner_exprs args valid.2))).append close

/-- The texts of expressions have the characters of their words and of argument lists. -/
theorem inner_exprs : ∀ (exprs : List Yul.Expr), Grammar.Expr.AllValid typed (exprsSyntax exprs) →
    ∀ text ∈ Yul.Expr.texts exprs, Inner text
  | [], _ => nofun
  | expr :: rest, valid => by
      intro text member
      rcases List.mem_cons.1 member with rfl | later
      · exact inner_expr expr valid.1
      · exact inner_exprs rest valid.2 text later

end

/-- The text of an expression lies within a line. -/
theorem inline_expr (expr : Yul.Expr) (valid : (exprSyntax expr).Valid typed) : Inline expr.text := by
  refine ⟨(inner_expr expr valid).plain, ?_⟩
  cases expr with
  | var v => exact (inline_of_isWord (Grammar.isWord_var v)).2
  | literal value => exact (inline_literal value valid.1).2
  | call callee args => exact (((inline_of_isWord (Grammar.isWord_callee callee)).2.append _).append _).append _

/-! ### Lines -/

theorem listLines_append (first rest : List Yul.Stmt) :
    Yul.Stmt.listLines (first ++ rest) = Yul.Stmt.listLines first ++ Yul.Stmt.listLines rest := by
  induction first with
  | nil => rfl
  | cons stmt others ih =>
      rw [List.cons_append, Yul.Stmt.listLines, Yul.Stmt.listLines, ih, List.append_assoc]

/-- The lines have no line feed, and each is indented for the blocks around it, `first` blocks being open
    before them and `last` blocks after them. -/
def Lays (first : Nat) (lines : List String) (last : Nat) : Prop :=
  (∀ line ∈ lines, '\n' ∉ line.toList) ∧ (lines.map String.toList).foldlM depthAfter? first = some last

namespace Lays

variable {first middle last : Nat} {lines more : List String}

theorem nil : Lays first [] first := ⟨nofun, rfl⟩

theorem append (front : Lays first lines middle) (rest : Lays middle more last) :
    Lays first (lines ++ more) last := by
  refine ⟨fun line member => ?_, ?_⟩
  · rcases List.mem_append.1 member with here | there
    · exact front.1 line here
    · exact rest.1 line there
  · rw [List.map_append, List.foldlM_append, front.2]
    exact rest.2

theorem single (unbroken : '\n' ∉ a.toList) (indented : depthAfter? first a.toList = some last) :
    Lays first [a] last := by
  refine ⟨by simpa using unbroken, ?_⟩
  rw [List.map_singleton, List.foldlM_cons, indented]
  rfl

end Lays

/-- Two more spaces stand for one more block. -/
theorem depthAfter?_indented {depth next : Nat} {line : List Char}
    (indented : depthAfter? depth line = some next) :
    depthAfter? (depth + 1) (' ' :: ' ' :: line) = some (next + 1) := by
  have spaces : (' ' :: ' ' :: line).takeWhile (· = ' ') = ' ' :: ' ' :: line.takeWhile (· = ' ') := by simp
  have content : (' ' :: ' ' :: line).dropWhile (· = ' ') = line.dropWhile (· = ' ') := by simp
  have opened : (' ' :: ' ' :: line).count '\x7b' = line.count '\x7b' := by simp
  have closed : (' ' :: ' ' :: line).count '\x7d' = line.count '\x7d' := by simp
  simp only [depthAfter?, spaces, content, opened, closed, List.length_cons,
    Option.ite_none_right_eq_some, Option.some.injEq] at indented ⊢
  omega

theorem Lays.indented {first last : Nat} {lines : List String} (lays : Lays first lines last) :
    Lays (first + 1) (Yul.indented lines) (last + 1) := by
  obtain ⟨unbroken, indented⟩ := lays
  refine ⟨fun line member => ?_, ?_⟩
  · obtain ⟨inner, inside, rfl⟩ := List.mem_map.1 member
    rw [String.toList_append]
    simpa using unbroken inner inside
  · clear unbroken
    induction lines generalizing first with
    | nil =>
        obtain rfl : first = last := by simpa using indented
        rfl
    | cons line rest ih =>
        rw [List.map_cons, List.foldlM_cons, Option.bind_eq_bind, Option.bind_eq_some_iff] at indented
        obtain ⟨next, here, later⟩ := indented
        have moved : depthAfter? (first + 1) ("  " ++ line).toList = some (next + 1) := by
          rw [String.toList_append]
          exact depthAfter?_indented here
        rw [Yul.indented, List.map_cons, List.map_cons, List.foldlM_cons, moved]
        exact ih later

theorem Plain.count_eq_zero (plain : Plain a) :
    a.toList.count '\x7b' = 0 ∧ a.toList.count '\x7d' = 0 := by
  constructor
  · exact List.count_eq_zero.2 fun member => (plain _ member).2.1 rfl
  · exact List.count_eq_zero.2 fun member => (plain _ member).2.2 rfl

/-- A line that starts at its first character and closes no more blocks than it opens. -/
theorem lays_line {c : Char} {rest : List Char} (same : a.toList = c :: rest) (visible : c ≠ ' ')
    (brace : c ≠ '\x7d') (unbroken : '\n' ∉ a.toList) (opened closed : Nat)
    (opens : a.toList.count '\x7b' = closed + opened) (closes : a.toList.count '\x7d' = closed) :
    Lays 0 [a] opened := by
  have spaces : a.toList.takeWhile (· = ' ') = [] := by
    rw [same]
    simp [visible]
  have content : (a.toList.dropWhile (· = ' ')).head? = some c := by
    rw [same]
    simp [visible]
  apply Lays.single unbroken
  rw [depthAfter?]
  simp only [spaces, content, opens, closes]
  simp [brace]

/-- A line without braces at its front, and with braces that close no more blocks than they open. -/
theorem lays_front {tail : String} (inline : Inline a) (opened closed : Nat)
    (unbroken : '\n' ∉ tail.toList) (opens : tail.toList.count '\x7b' = closed + opened)
    (closes : tail.toList.count '\x7d' = closed) : Lays 0 [a ++ tail] opened := by
  obtain ⟨plain, c, rest, same, visible⟩ := inline
  have brace : c ≠ '\x7d' := (plain c (by rw [same]; exact List.mem_cons_self)).2.2
  obtain ⟨noOpening, noClosing⟩ := plain.count_eq_zero
  have whole : (a ++ tail).toList = c :: (rest ++ tail.toList) := by
    rw [String.toList_append, same, List.cons_append]
  refine lays_line whole visible brace (fun member => ?_) opened closed ?_ ?_
  · rw [String.toList_append, List.mem_append] at member
    rcases member with here | there
    · exact (plain _ here).1 rfl
    · exact unbroken there
  · rw [String.toList_append, List.count_append, noOpening, opens, Nat.zero_add]
  · rw [String.toList_append, List.count_append, noClosing, closes, Nat.zero_add]

/-- A line without braces. -/
theorem lays_inline (inline : Inline a) : Lays 0 [a] 0 := by
  have lays : Lays 0 [a ++ ""] 0 := lays_front inline 0 0 (by decide) rfl rfl
  rwa [String.append_empty] at lays

/-- The text in front of an opening brace: nothing, or a text that lies within a line. -/
def Header (header : String) : Prop := header = "" ∨ Inline header

theorem opening_of_inline {header : String} (inline : Inline header) :
    Yul.opening header = header ++ " \x7b" := by
  obtain ⟨_, c, rest, same, _⟩ := inline
  apply if_neg
  rintro rfl
  cases same

theorem lays_opening {header : String} (within : Header header) : Lays 0 [Yul.opening header] 1 := by
  rcases within with rfl | inline
  · exact .single (by decide) rfl
  · rw [opening_of_inline inline]
    exact lays_front inline 1 0 (by decide) rfl rfl

/-- A block that opens and closes on one line. -/
theorem lays_compact {header : String} (within : Header header) :
    Lays 0 [Yul.opening header ++ " \x7d"] 0 := by
  rcases within with rfl | inline
  · exact .single (by decide) rfl
  · rw [opening_of_inline inline, String.append_assoc]
    exact lays_front inline 0 1 (by decide) rfl rfl

theorem lays_boundedHeader (counter : Yul.Var) : Lays 0 [Yul.boundedHeader counter.text] 0 := by
  have plain := (inline_of_isWord (Grammar.isWord_var counter)).1
  obtain ⟨opens, closes⟩ := plain.count_eq_zero
  -- The equation of the header is costly to derive, so that its definition is unfolded as it is.
  obtain ⟨rest, first⟩ : ∃ rest, (Yul.boundedHeader counter.text).toList = 'f' :: rest := by
    delta Yul.boundedHeader
    simp only [String.toList_append]
    exact ⟨_, rfl⟩
  delta Yul.boundedHeader at first ⊢
  refine lays_line first (by decide) (by decide) (fun member => ?_) 0 2 ?_ ?_
  · simp only [String.toList_append, List.mem_append] at member
    rcases member with (((((((here | here) | here) | here) | here) | here) | here) | here) | here <;>
      first | exact absurd here (by decide) | exact (plain _ here).1 rfl
  · simp only [String.toList_append, List.count_append, opens]
    rfl
  · simp only [String.toList_append, List.count_append, closes]
    rfl

theorem inline_signature (name : FunctionName) (inputs outputs : List Yul.Var) :
    Inline (Yul.signature name inputs outputs) := by
  have word : Inline "function " := ⟨plain_of_all rfl, 'f', _, rfl, by decide⟩
  have front := ((word.append (inline_of_isWord (Grammar.isWord_functionName name)).1).append
    (plain_of_all rfl : Plain "(")).append (plain_vars inputs)
  apply (front.append (plain_of_all rfl : Plain ")")).append
  split
  · exact plain_of_all rfl
  · exact (plain_of_all rfl : Plain " -> ").append (plain_vars outputs)

theorem plain_letText (var : Yul.Var) (ascription : Option Yul.Ascription) (value : Yul.Expr)
    (plain : Plain value.text) : Plain (Yul.letText var ascription value) := by
  have name := (inline_of_isWord (Grammar.isWord_var var)).1
  have becomes : Plain " := " := plain_of_all rfl
  have colon : Plain ":" := plain_of_all rfl
  cases ascription with
  | none => exact (name.append becomes).append plain
  | some ascription =>
      obtain ⟨type, onValue⟩ := ascription
      have typeName := (inline_of_isWord (Grammar.isWord_typeName type)).1
      apply ((((name.append colon).append typeName).append becomes).append plain).append
      split
      · exact colon.append typeName
      · exact plain_of_all rfl

/-- The value of a declaration has the characters of words and of argument lists. -/
theorem inner_of_letSyntax {var : Yul.Var} {ascription : Option Yul.Ascription} {value : Yul.Expr}
    (valid : (letSyntax var ascription value).Valid typed) : Inner value.text := by
  cases ascription with
  | none => exact inner_expr value valid.2.2
  | some ascription =>
      obtain ⟨type, onValue⟩ := ascription
      cases onValue with
      | false => exact inner_expr value valid.2.2
      | true =>
          cases value with
          | var v => exact absurd rfl valid.2.2.1.1
          | call callee args => exact absurd rfl valid.2.2.1.1
          | literal l => exact inner_literal l valid.2.2.1

theorem inline_assign {targets : List Yul.Var} {value : Yul.Expr}
    (valid : (stmtSyntax (.assign targets value)).Valid typed) :
    Inline (Yul.Var.listed targets ++ " := " ++ value.text) := by
  cases targets with
  | nil => exact absurd rfl valid.1
  | cons first others =>
      have head := inline_of_isWord (Grammar.isWord_var first)
      have names : Inline (Yul.Var.listed (first :: others)) := by
        cases others with
        | nil => exact head
        | cons second others =>
            rw [Yul.Var.listed, List.map_cons, List.map_cons, Yul.listed, String.intercalate_cons_cons]
            exact (head.append (plain_of_all rfl)).append (plain_vars (second :: others))
      exact (names.append (plain_of_all rfl)).append (inline_expr value valid.2).1

mutual

/-- Each line of a statement is indented for the blocks around it. -/
theorem lays_stmt : ∀ (stmt : Yul.Stmt), (stmtSyntax stmt).Valid typed → Lays 0 stmt.lines 0
  | .letOne var ascription value, valid => by
      have word : Inline "let " := ⟨plain_of_all rfl, 'l', _, rfl, by decide⟩
      exact lays_inline (word.append (plain_letText var ascription value (inner_of_letSyntax valid).plain))
  | .letMany vars value, valid => by
      have word : Inline "let " := ⟨plain_of_all rfl, 'l', _, rfl, by decide⟩
      exact lays_inline (((word.append (plain_vars vars)).append (plain_of_all rfl)).append
        (inline_expr value valid.2.2).1)
  | .assign targets value, valid => lays_inline (inline_assign valid)
  | .expr (.call callee args), valid => lays_inline (inline_expr (.call callee args) valid)
  | .expr (.var v), valid => absurd rfl valid.1
  | .expr (.literal value), valid => absurd rfl valid.1
  | .block body, valid => lays_block (.inl rfl) body valid
  | .ifThen cond body, valid => by
      have word : Inline "if " := ⟨plain_of_all rfl, 'i', _, rfl, by decide⟩
      exact lays_block (.inr (word.append (inline_expr cond valid.1).1)) body valid.2
  | .forLoop init cond post body, valid => by
      have word : Inline "for" := ⟨plain_of_all rfl, 'f', _, rfl, by decide⟩
      have front := (lays_block (.inr word) init valid.1).append
        (lays_block (.inr (inline_expr cond valid.2.1)) post valid.2.2.1)
      exact front.append (lays_block (.inl rfl) body valid.2.2.2)
  | .boundedFor depth body, valid =>
      (lays_boundedHeader (.loop depth)).append (lays_block (.inl rfl) body valid.2.2.2)
  | .switch scrutinee cases default, valid => by
      have word : Inline "switch " := ⟨plain_of_all rfl, 's', _, rfl, by decide⟩
      have arms := (lays_inline (word.append (inline_expr scrutinee valid.2.1).1)).append
        (lays_cases cases valid.2.2.1)
      have otherwise : Inline "default" := ⟨plain_of_all rfl, 'd', _, rfl, by decide⟩
      cases default with
      | none => exact arms.append .nil
      | some body => exact arms.append (lays_block (.inr otherwise) body valid.2.2.2)
  | .function name inputs outputs body, valid =>
      lays_block (.inr (inline_signature name inputs outputs)) body valid
  | .breakLoop, _ => lays_inline ⟨plain_of_all rfl, 'b', _, rfl, by decide⟩
  | .continueLoop, _ => lays_inline ⟨plain_of_all rfl, 'c', _, rfl, by decide⟩

/-- Each line of some statements is indented for the blocks around it. -/
theorem lays_stmts : ∀ (body : List Yul.Stmt), AllValid typed (stmtsSyntax body) →
    Lays 0 (Yul.Stmt.listLines body) 0
  | [], _ => .nil
  | stmt :: rest, valid => (lays_stmt stmt valid.1).append (lays_stmts rest valid.2)

/-- Each line of the arms of a switch is indented for the blocks around it. -/
theorem lays_cases : ∀ (cases : List (Yul.Literal × Yul.Block)), CasesValid typed (casesSyntax cases) →
    Lays 0 (Yul.Stmt.caseLines cases) 0
  | [], _ => .nil
  | (label, body) :: rest, valid => by
      have word : Inline "case " := ⟨plain_of_all rfl, 'c', _, rfl, by decide⟩
      have arm := lays_block (.inr (word.append (inline_literal label valid.1).1)) body valid.2.1
      exact arm.append (lays_cases rest valid.2.2)

/-- Each line of a block after a header is indented for the blocks around it. -/
theorem lays_block {header : String} (within : Header header) :
    ∀ (block : Yul.Block), AllValid typed (blockSyntax block) → Lays 0 (block.lines header) 0
  | .compact, _ => lays_compact within
  | .spread body, valid => by
      have close : Lays 1 ["\x7d"] 0 := .single (by decide) rfl
      exact ((lays_opening within).append (lays_stmts body valid).indented).append close

end

/-! ### Whole texts -/

/-- Lines without line feeds are found again in the text that they are joined to. -/
theorem linesOf_join {lines : List String} (unbroken : ∀ line ∈ lines, '\n' ∉ line.toList) :
    linesOf (String.join (lines.map (· ++ "\n"))) = lines.map String.toList ++ [[]] := by
  -- The text is that of its lines and an empty one, with line feeds between them.
  have between : (String.join (lines.map (· ++ "\n"))).toList =
      ['\n'].intercalate (lines.map String.toList ++ [[]]) := by
    clear unbroken
    induction lines with
    | nil => rfl
    | cons line rest ih =>
        rw [List.map_cons, String.join_cons, String.toList_append, ih, String.toList_append, List.map_cons,
          List.cons_append, List.intercalate_cons_of_ne_nil (by simp)]
        rfl
  have noFeed : ∀ line ∈ lines.map String.toList ++ [[]], '\n' ∉ line := by
    intro line member
    rcases List.mem_append.1 member with here | last
    · obtain ⟨text, inside, rfl⟩ := List.mem_map.1 here
      exact unbroken text inside
    · rw [List.mem_singleton.1 last]
      exact List.not_mem_nil
  rw [linesOf, between, List.splitOn_intercalate '\n' noFeed (by simp)]

/-- A printed program is indented throughout. -/
theorem indented_render {code : Yul.Block} (valid : AllValid typed (blockSyntax code)) :
    Indented code.render := by
  obtain ⟨unbroken, indented⟩ := lays_block (.inl rfl) code valid
  rw [Indented, Yul.Block.render, linesOf_join unbroken, List.foldlM_append, indented]
  rfl

end YulFuzz.Layout
