/-
Module: YulFuzz.Proofs.Annotations
Purpose: Types in the text of a program. A type is written as a colon with the name of the type behind it, and
  nothing else in a text looks like this. So a text without its types is the text of the code without types,
  and the lines with a type are those of the declarations with a type.
Main exports: Layout.deleteTypes, Layout.annotatedLines, Layout.deleteTypes_render,
  Layout.annotatedLines_render
-/
import YulFuzz.Proofs.Ascription
import YulFuzz.Proofs.Layout

namespace YulFuzz.Layout

open Grammar (exprSyntax stmtSyntax stmtsSyntax blockSyntax casesSyntax letSyntax)
open Grammar.Stmt (AllValid CasesValid)
open Yul (letText signature opening indented)

/-- The type that is written with a character and the characters behind it. -/
def typeAt? (c : Char) (rest : List Char) : Option TypeName :=
  if c = ':' then TypeName.all.find? (·.name.toList.isPrefixOf rest) else none

/-- Characters without the types written there, and without the given number of characters at the front, which
    are left of the name of a type. -/
def withoutTypes : (left : Nat) → List Char → List Char
  | _, [] => []
  | left + 1, _ :: rest => withoutTypes left rest
  | 0, c :: rest =>
    match typeAt? c rest with
    | some type => withoutTypes type.name.length rest
    | none => c :: withoutTypes 0 rest

/-- A text without each colon that the name of a type follows, and without this name. -/
def deleteTypes (text : String) : String := String.ofList (withoutTypes 0 text.toList)

/-- The lines that have a type, without the spaces at their front. -/
def annotatedLines (lines : List (List Char)) : List (List Char) :=
  (lines.filter fun line => withoutTypes 0 line ≠ line).map (·.dropWhile (· = ' '))

/-! ### Parts of a text -/

/-- Without types the first text is the second one, whatever follows. -/
def Erases (a b : String) : Prop :=
  ∀ rest, withoutTypes 0 (a.toList ++ rest) = b.toList ++ withoutTypes 0 rest

variable {a b c d : String} {typed : Bool}

theorem Erases.append (first : Erases a b) (second : Erases c d) : Erases (a ++ c) (b ++ d) := by
  intro rest
  rw [String.toList_append, String.toList_append, List.append_assoc, first, second, List.append_assoc]

/-- What is lost leaves nothing behind. -/
theorem Erases.append_lost (first : Erases a b) (lost : Erases c "") : Erases (a ++ c) b := by
  have whole := first.append lost
  rwa [String.append_empty] at whole

theorem Erases.whole (erases : Erases a b) : withoutTypes 0 a.toList = b.toList := by
  have all := erases []
  rwa [withoutTypes, List.append_nil, List.append_nil] at all

/-- Characters without a colon have no types. -/
theorem withoutTypes_append_of_not_mem {front : List Char} (free : ':' ∉ front) (rest : List Char) :
    withoutTypes 0 (front ++ rest) = front ++ withoutTypes 0 rest := by
  induction front with
  | nil => rfl
  | cons c others ih =>
      obtain ⟨other, later⟩ := List.ne_and_not_mem_of_not_mem_cons free
      rw [List.cons_append, withoutTypes, typeAt?, if_neg other.symm]
      exact congrArg (c :: ·) (ih later)

theorem Inner.erases (inner : Inner a) : Erases a a := by
  refine withoutTypes_append_of_not_mem fun member => ?_
  rcases inner _ member with wordChar | between
  · cases wordChar
  · revert between
    decide

/-- No name of a type starts with the name of another one, so a type is told by its name whatever follows. -/
theorem erases_type (type : TypeName) : Erases (":" ++ type.name) "" := by
  cases type <;> exact fun _ => rfl

/-- The colon of a declaration is followed by an equals sign. -/
theorem erases_becomes : Erases " := " " := " := fun _ => rfl

/-- In a declaration the types behind the variable and behind its value are lost. -/
theorem erases_letText (var : Yul.Var) (ascription : Option Yul.Ascription) {value : Yul.Expr}
    (inner : Inner value.text) : Erases (letText var ascription value) (letText var none value) := by
  have name := (inner_of_isWord (Grammar.isWord_var var)).erases
  cases ascription with
  | none => exact (name.append erases_becomes).append inner.erases
  | some ascription =>
      obtain ⟨type, onValue⟩ := ascription
      have declared := name.append_lost (erases_type type)
      rw [← String.append_assoc] at declared
      have whole := (declared.append erases_becomes).append inner.erases
      cases onValue with
      | false => exact whole.append_lost fun _ => rfl
      | true => exact whole.append_lost (erases_type type)

theorem erases_opening {header : String} (same : Erases header header) :
    Erases (opening header) (opening header) := by
  unfold opening
  split
  · exact fun _ => rfl
  · exact same.append fun _ => rfl

theorem erases_boundedHeader (counter : Yul.Var) :
    Erases (Yul.boundedHeader counter.text) (Yul.boundedHeader counter.text) := by
  have name := (inner_of_isWord (Grammar.isWord_var counter)).erases
  delta Yul.boundedHeader
  iterate 8 refine Erases.append ?_ ?_
  all_goals first | exact name | exact fun _ => rfl

theorem erases_signature (name : FunctionName) (inputs outputs : List Yul.Var) :
    Erases (signature name inputs outputs) (signature name inputs outputs) := by
  have word : Erases "function " "function " := fun _ => rfl
  have function := (inner_of_isWord (Grammar.isWord_functionName name)).erases
  have open_ : Erases "(" "(" := fun _ => rfl
  have close : Erases ")" ")" := fun _ => rfl
  have front := (((word.append function).append open_).append (inner_vars inputs).erases).append close
  apply front.append
  split
  · exact fun _ => rfl
  · have arrow : Erases " -> " " -> " := fun _ => rfl
    exact arrow.append (inner_vars outputs).erases

/-! ### Lines -/

/-- Without their types the lines are the plain ones, and the lines with a type are those of the given
    declarations. -/
structure LosesTypes (lines plain : List String) (lets : List Yul.Stmt) : Prop where
  erased : List.Forall₂ Erases lines plain
  annotated : annotatedLines (lines.map String.toList) = (Yul.Stmt.listLines lets).map String.toList

namespace LosesTypes

variable {lines plain more others : List String} {lets later : List Yul.Stmt}

theorem nil : LosesTypes [] [] [] := ⟨.nil, rfl⟩

theorem append (first : LosesTypes lines plain lets) (second : LosesTypes more others later) :
    LosesTypes (lines ++ more) (plain ++ others) (lets ++ later) where
  erased := List.rel_append first.erased second.erased
  annotated := by
    have here := first.annotated
    have there := second.annotated
    rw [annotatedLines] at here there ⊢
    rw [List.map_append, List.filter_append, List.map_append, here, there, listLines_append, List.map_append]

/-- A line without types. -/
theorem line (same : Erases a a) : LosesTypes [a] [a] [] where
  erased := .cons same .nil
  annotated := by simp [annotatedLines, same.whole, Yul.Stmt.listLines]

/-- Spaces at the front of lines do not matter. -/
theorem indented (loses : LosesTypes lines plain lets) :
    LosesTypes (indented lines) (indented plain) lets where
  erased := by
    have spaces : Erases "  " "  " := fun _ => rfl
    rw [Yul.indented, Yul.indented, List.forall₂_map_left_iff, List.forall₂_map_right_iff]
    exact loses.erased.imp fun _ _ erases => spaces.append erases
  annotated := by
    have front : ∀ line : String, ("  " ++ line).toList = ' ' :: ' ' :: line.toList := fun line => by
      rw [String.toList_append]
      rfl
    have inside : ∀ line, withoutTypes 0 (' ' :: ' ' :: line) = ' ' :: ' ' :: withoutTypes 0 line :=
      fun _ => rfl
    rw [← loses.annotated]
    simp [annotatedLines, Yul.indented, List.filter_map, Function.comp_def, front, inside]

end LosesTypes

/-- A line that is shorter without its types. -/
theorem LosesTypes.shorter {stmt : Yul.Stmt} (same : stmt.lines = [a]) (erases : Erases a b)
    (longer : b.length < a.length) (starts : Starts a) : LosesTypes [a] [b] [stmt] where
  erased := .cons erases .nil
  annotated := by
    have typed : withoutTypes 0 a.toList ≠ a.toList := by
      rw [erases.whole]
      intro all
      rw [String.toList_inj.1 all] at longer
      exact longer.false
    obtain ⟨c, rest, chars, visible⟩ := starts
    have front : a.toList.dropWhile (· = ' ') = a.toList := by
      rw [chars]
      simp [visible]
    simp [annotatedLines, Yul.Stmt.listLines, typed, front, same]

theorem loses_letOne (var : Yul.Var) (ascription : Option Yul.Ascription) {value : Yul.Expr}
    (inner : Inner value.text) :
    LosesTypes (Yul.Stmt.letOne var ascription value).lines (Yul.Stmt.letOne var none value).lines
      (Yul.Stmt.letOne var ascription value).typedLets := by
  have word : Erases "let " "let " := fun _ => rfl
  have erases := word.append (erases_letText var ascription inner)
  cases ascription with
  | none => exact .line erases
  | some ascription =>
      refine .shorter rfl erases ?_ (Starts.append ⟨'l', _, rfl, by decide⟩ _)
      have colon : ":".length = 1 := rfl
      simp only [letText, String.length_append]
      omega

mutual

/-- The lines of a statement without types are those of the statement without types. -/
theorem loses_stmt : ∀ (stmt : Yul.Stmt), (stmtSyntax stmt).Valid typed →
    LosesTypes stmt.lines stmt.untyped.lines stmt.typedLets
  | .letOne var ascription value, valid => loses_letOne var ascription (inner_of_letSyntax valid)
  | .letMany vars value, valid => by
      have word : Erases "let " "let " := fun _ => rfl
      have front := (word.append (inner_vars vars).erases).append erases_becomes
      exact .line (front.append (inner_expr value valid.2.2).erases)
  | .assign targets value, valid =>
      .line (((inner_vars targets).erases.append erases_becomes).append (inner_expr value valid.2).erases)
  | .expr (.call callee args), valid => .line (inner_expr (.call callee args) valid).erases
  | .expr (.var v), valid => absurd rfl valid.1
  | .expr (.literal value), valid => absurd rfl valid.1
  | .block body, valid => loses_block (fun _ => rfl) body valid
  | .ifThen cond body, valid => by
      have word : Erases "if " "if " := fun _ => rfl
      exact loses_block (word.append (inner_expr cond valid.1).erases) body valid.2
  | .forLoop init cond post body, valid => by
      have word : Erases "for" "for" := fun _ => rfl
      have front := (loses_block word init valid.1).append
        (loses_block (inner_expr cond valid.2.1).erases post valid.2.2.1)
      have nothing : Erases "" "" := fun _ => rfl
      have whole := front.append (loses_block nothing body valid.2.2.2)
      rwa [List.append_assoc init.typedLets] at whole
  | .boundedFor depth body, valid =>
      (LosesTypes.line (erases_boundedHeader (.loop depth))).append
        (loses_block (fun _ => rfl) body valid.2.2.2)
  | .switch scrutinee cases default, valid => by
      have word : Erases "switch " "switch " := fun _ => rfl
      have front := LosesTypes.line (word.append (inner_expr scrutinee valid.2.1).erases)
      have arms := front.append (loses_cases cases valid.2.2.1)
      cases default with
      | none => exact arms.append .nil
      | some body => exact arms.append (loses_block (fun _ => rfl) body valid.2.2.2)
  | .function name inputs outputs body, valid =>
      loses_block (erases_signature name inputs outputs) body valid
  | .breakLoop, _ => .line fun _ => rfl
  | .continueLoop, _ => .line fun _ => rfl

/-- The lines of statements without types are those of the statements without types. -/
theorem loses_stmts : ∀ (body : List Yul.Stmt), AllValid typed (stmtsSyntax body) →
    LosesTypes (Yul.Stmt.listLines body) (Yul.Stmt.listLines (Yul.Stmt.listUntyped body))
      (Yul.Stmt.listTypedLets body)
  | [], _ => .nil
  | stmt :: rest, valid => (loses_stmt stmt valid.1).append (loses_stmts rest valid.2)

/-- The lines of the arms of a switch without types are those of the arms without types. -/
theorem loses_cases : ∀ (cases : List (Yul.Literal × Yul.Block)), CasesValid typed (casesSyntax cases) →
    LosesTypes (Yul.Stmt.caseLines cases) (Yul.Stmt.caseLines (Yul.Stmt.caseUntyped cases))
      (Yul.Stmt.caseTypedLets cases)
  | [], _ => .nil
  | (label, body) :: rest, valid => by
      have word : Erases "case " "case " := fun _ => rfl
      have arm := loses_block (word.append (inner_literal label valid.1).erases) body valid.2.1
      exact arm.append (loses_cases rest valid.2.2)

/-- The lines of a block without types are those of the block without types. -/
theorem loses_block {header : String} (same : Erases header header) :
    ∀ (block : Yul.Block), AllValid typed (blockSyntax block) →
      LosesTypes (block.lines header) (block.untyped.lines header) block.typedLets
  | .compact, _ => .line ((erases_opening same).append fun _ => rfl)
  | .spread body, valid => by
      have close : LosesTypes ["\x7d"] ["\x7d"] [] := .line fun _ => rfl
      have front := (LosesTypes.line (erases_opening same)).append (loses_stmts body valid).indented
      have whole := front.append close
      rwa [List.append_nil, List.nil_append] at whole

end

/-! ### Whole texts -/

theorem erases_join {lines plain : List String} (erased : List.Forall₂ Erases lines plain) :
    Erases (String.join (lines.map (· ++ "\n"))) (String.join (plain.map (· ++ "\n"))) := by
  induction erased with
  | nil => exact fun _ => rfl
  | cons line _ ih =>
      have feed : Erases "\n" "\n" := fun _ => rfl
      rw [List.map_cons, List.map_cons, String.join_cons, String.join_cons]
      exact (line.append feed).append ih

/-- The text of a program without types is the text of the program without types. -/
theorem deleteTypes_render {code : Yul.Block} (valid : AllValid typed (blockSyntax code)) :
    deleteTypes code.render = code.untyped.render := by
  have nothing : Erases "" "" := fun _ => rfl
  have lines := (loses_block nothing code valid).erased
  rw [deleteTypes, Yul.Block.render, (erases_join lines).whole, String.ofList_toList]
  rfl

example : deleteTypes "let x_0:u8 := 7:u8\nlet x_1:bool := \"u8\"\n" = "let x_0 := 7\nlet x_1 := \"u8\"\n" := rfl

/-- The lines with a type in the text of a program are those of its declarations with a type. -/
theorem annotatedLines_render {code : Yul.Block} (valid : AllValid typed (blockSyntax code)) :
    annotatedLines (linesOf code.render) = (Yul.Stmt.listLines code.typedLets).map String.toList := by
  obtain ⟨unbroken, _⟩ := lays_block (.inl rfl) code valid
  have nothing : Erases "" "" := fun _ => rfl
  have annotated := (loses_block nothing code valid).annotated
  rw [Yul.Block.render, linesOf_join unbroken, ← annotated, annotatedLines, annotatedLines,
    List.filter_append, List.map_append]
  exact List.append_nil _

end YulFuzz.Layout
