/-
Module: YulFuzz.Proofs.Writing
Purpose: Code written line by line onto a page, whose indentation grows where a block is opened and shrinks
  where it is closed. Whatever is written leaves the indentation as it was and only adds to the text, and a
  whole program is written as its printed text.
Main exports: Yul.Page, Yul.Page.stmts, Yul.Page.block, Yul.Page.stmts_eq, Yul.Page.block_eq,
  Yul.Block.render_eq
-/
import YulFuzz.Yul.Printer

namespace YulFuzz.Yul

/-- Text with the number of blocks that are open at its end. -/
structure Page where
  text : String := ""
  indent : Nat := 0

namespace Page

/-- Two spaces for each open block. -/
def margin (indent : Nat) : String := String.join (List.replicate indent "  ")

/-- Write a line behind the text. -/
def line (page : Page) (content : String) : Page :=
  { page with text := page.text ++ (margin page.indent ++ content ++ "\n") }

mutual

/-- Write a statement. -/
def stmt (page : Page) : Stmt → Page
  | .letOne var ascription value => page.line ("let " ++ letText var ascription value)
  | .letMany vars value => page.line ("let " ++ Var.listed vars ++ " := " ++ value.text)
  | .assign targets value => page.line (Var.listed targets ++ " := " ++ value.text)
  | .expr value => page.line value.text
  | .block body => page.block "" body
  | .ifThen cond body => page.block ("if " ++ cond.text) body
  | .forLoop init cond post body => ((page.block "for" init).block cond.text post).block "" body
  | .boundedFor depth body => (page.line (boundedHeader (Var.loop depth).text)).block "" body
  | .switch scrutinee cases default =>
    ((page.line ("switch " ++ scrutinee.text)).arms cases).last default
  | .function name inputs outputs body => page.block (signature name inputs outputs) body
  | .breakLoop => page.line "break"
  | .continueLoop => page.line "continue"

/-- Write statements. -/
def stmts (page : Page) : List Stmt → Page
  | [] => page
  | first :: rest => (page.stmt first).stmts rest

/-- Write the arms of a switch. -/
def arms (page : Page) : List (Literal × Block) → Page
  | [] => page
  | (label, body) :: rest => (page.block ("case " ++ label.text) body).arms rest

/-- Write the arm of a switch without a label. -/
def last (page : Page) : Option Block → Page
  | none => page
  | some body => page.block "default" body

/-- Write a block behind a header, indented by one level more inside. -/
def block (page : Page) (header : String) : Block → Page
  | .compact => page.line (opening header ++ " \x7d")
  | .spread body =>
    let opened := page.line (opening header)
    let inside := { opened with indent := opened.indent + 1 }.stmts body
    { inside with indent := inside.indent - 1 }.line "\x7d"

end

/-- Write lines that know nothing of the indentation. -/
def lines (page : Page) (contents : List String) : Page :=
  { page with text := page.text ++ String.join (contents.map (margin page.indent ++ · ++ "\n")) }

theorem margin_succ (indent : Nat) : margin (indent + 1) = margin indent ++ "  " := by
  simp [margin, List.replicate_succ']

section Lines

variable (page : Page)

@[simp] theorem lines_nil : page.lines [] = page := by
  simp [lines]

@[simp] theorem lines_singleton (content : String) : page.lines [content] = page.line content := by
  simp [lines, line]

@[simp] theorem lines_append (first rest : List String) :
    page.lines (first ++ rest) = (page.lines first).lines rest := by
  simp [lines, String.append_assoc]

@[simp] theorem lines_cons (first : String) (rest : List String) :
    page.lines (first :: rest) = (page.line first).lines rest := by
  rw [← lines_singleton, ← lines_append, List.singleton_append]

/-- Lines that are written with one more block open are indented by one level more. -/
theorem lines_indented (contents : List String) :
    let inside := { page with indent := page.indent + 1 }.lines contents
    { inside with indent := inside.indent - 1 } = page.lines (indented contents) := by
  simp only [lines, indented, List.map_map, Nat.add_sub_cancel, mk.injEq, and_true]
  congr 2
  apply List.map_congr_left
  intro content _
  rw [margin_succ, Function.comp_apply]
  simp only [String.append_assoc]

end Lines

mutual

/-- A statement is written as its lines. -/
theorem stmt_eq : ∀ (page : Page) (code : Stmt), page.stmt code = page.lines code.lines
  | page, .letOne var ascription value => by simp [stmt, Stmt.lines]
  | page, .letMany vars value => by simp [stmt, Stmt.lines]
  | page, .assign targets value => by simp [stmt, Stmt.lines]
  | page, .expr value => by simp [stmt, Stmt.lines]
  | page, .block body => by rw [stmt, Stmt.lines, block_eq]
  | page, .ifThen cond body => by rw [stmt, Stmt.lines, block_eq]
  | page, .forLoop init cond post body => by
      rw [stmt, Stmt.lines, block_eq, block_eq, block_eq, lines_append, lines_append]
  | page, .boundedFor depth body => by rw [stmt, Stmt.lines, block_eq, lines_cons]
  | page, .switch scrutinee cases default => by
      cases default with
      | none => rw [stmt, Stmt.lines, arms_eq, last_eq, lines_append, lines_append, lines_singleton]
      | some body => rw [stmt, Stmt.lines, arms_eq, last_eq, lines_append, lines_append, lines_singleton]
  | page, .function name inputs outputs body => by rw [stmt, Stmt.lines, block_eq]
  | page, .breakLoop => by simp [stmt, Stmt.lines]
  | page, .continueLoop => by simp [stmt, Stmt.lines]

/-- Statements are written as their lines. -/
theorem stmts_eq : ∀ (page : Page) (code : List Stmt), page.stmts code = page.lines (Stmt.listLines code)
  | page, [] => (lines_nil page).symm
  | page, first :: rest => by rw [stmts, Stmt.listLines, stmt_eq, stmts_eq, lines_append]

/-- The arms of a switch are written as their lines. -/
theorem arms_eq : ∀ (page : Page) (cases : List (Literal × Block)),
    page.arms cases = page.lines (Stmt.caseLines cases)
  | page, [] => (lines_nil page).symm
  | page, (label, body) :: rest => by rw [arms, Stmt.caseLines, block_eq, arms_eq, lines_append]

/-- The arm without a label is written as its lines. -/
theorem last_eq : ∀ (page : Page) (default : Option Block), page.last default =
    page.lines (match default with
      | none => []
      | some body => body.lines "default")
  | page, none => (lines_nil page).symm
  | page, some body => block_eq page "default" body

/-- A block is written as its lines. -/
theorem block_eq : ∀ (page : Page) (header : String) (body : Block),
    page.block header body = page.lines (body.lines header)
  | page, header, .compact => by simp [block, Block.lines]
  | page, header, .spread body => by
      rw [block, Block.lines, lines_append, lines_append, lines_singleton, lines_singleton, ← lines_indented]
      rw [stmts_eq]

end

end Page

/-- The text of a program is what is written for it on an empty page. -/
theorem Block.render_eq (program : Block) : program.render = (({} : Page).block "" program).text := by
  rw [Page.block_eq]
  simp [Block.render, Page.lines, Page.margin]

end YulFuzz.Yul
