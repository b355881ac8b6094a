/-
Module: YulFuzz.Proofs.Grammar.Words
Purpose: The words of generated programs, as the scanner sees them: names of variables and functions are
  names and no keywords, and what literals are written with is scanned to one token.
Main exports: Grammar.scans_var, Grammar.scans_functionName, Grammar.scans_builtin, Grammar.scans_literal
-/
import Mathlib.Data.Nat.Digits.Defs
import YulFuzz.Proofs.Grammar.Scanning
import YulFuzz.Proofs.Grammar.Syntax
import YulFuzz.Yul.Printer

namespace YulFuzz.Grammar

/-! ### Letters and digits -/

theorem isDigit_of_mem_toString {n : Nat} {c : Char} (member : c ∈ (toString n).toList) : c.isDigit := by
  rw [Nat.toString_eq_repr, Nat.toList_repr] at member
  exact Nat.isDigit_of_mem_toDigits (by decide) (by decide) member

theorem toList_toString_ne_nil (n : Nat) : (toString n).toList ≠ [] := by
  rw [Nat.toString_eq_repr, Nat.toList_repr]
  exact Nat.toDigits_ne_nil

/-- Names that differ only in the number at their end are the same if the numbers are. -/
theorem numbered_injective (front : String) {m n : Nat}
    (same : front ++ toString m = front ++ toString n) : m = n := by
  have digits := congrArg String.toList ((String.append_right_inj front).1 same)
  rw [Nat.toString_eq_repr, Nat.toString_eq_repr, Nat.toList_repr, Nat.toList_repr] at digits
  simpa using congrArg (Nat.ofDigitChars 10 · 0) digits

theorem isAlpha_iff {c : Char} :
    c.isAlpha ↔ (65 ≤ c.toNat ∧ c.toNat ≤ 90) ∨ (97 ≤ c.toNat ∧ c.toNat ≤ 122) := by
  change (decide (65 ≤ c.val ∧ c.val ≤ 90) || decide (97 ≤ c.val) && decide (c.val ≤ 122)) = true ↔ _
  simp [UInt32.le_iff_toNat_le]

theorem isDigit_iff {c : Char} : c.isDigit ↔ 48 ≤ c.toNat ∧ c.toNat ≤ 57 := by
  change (decide (48 ≤ c.val) && decide (c.val ≤ 57)) = true ↔ _
  simp [UInt32.le_iff_toNat_le]

theorem isHexDigit_iff {c : Char} :
    c.isHexDigit ↔ c.isDigit ∨ (97 ≤ c.toNat ∧ c.toNat ≤ 102) ∨ (65 ≤ c.toNat ∧ c.toNat ≤ 70) := by
  change (c.isDigit || decide (97 ≤ c.val) && decide (c.val ≤ 102) ||
    decide (65 ≤ c.val) && decide (c.val ≤ 70)) = true ↔ _
  simp [UInt32.le_iff_toNat_le, or_assoc]

theorem isDigit_eq_false_of_isAlpha {c : Char} (letter : c.isAlpha) : c.isDigit = false := by
  have range := isAlpha_iff.1 letter
  rw [Bool.eq_false_iff, ne_eq, isDigit_iff]
  omega

theorem isWordChar_of_isAlphanum {c : Char} (alphanum : c.isAlphanum) : isWordChar c := by
  simp [isWordChar, alphanum]

theorem isWordChar_of_isDigit {c : Char} (digit : c.isDigit) : isWordChar c :=
  isWordChar_of_isAlphanum (by simp [Char.isAlphanum, digit])

theorem isWordChar_of_isHexDigit {c : Char} (hex : c.isHexDigit) : isWordChar c := by
  rcases isHexDigit_iff.1 hex with digit | letter
  · exact isWordChar_of_isDigit digit
  · have alpha : c.isAlpha := isAlpha_iff.2 (by omega)
    exact isWordChar_of_isAlphanum (by simp [Char.isAlphanum, alpha])

/-! ### Names and numbers -/

/-- No keyword has a digit in it. -/
theorem find?_keyword_eq_none {word : List Char} {c : Char} (member : c ∈ word)
    (digit : c.isDigit) : Keyword.all.find? (·.text = String.ofList word) = none := by
  rw [List.find?_eq_none]
  intro keyword _ same
  have plain : keyword.text.toList.all fun c => !c.isDigit := by
    cases keyword <;> rfl
  rw [decide_eq_true_eq] at same
  rw [same, String.toList_ofList] at plain
  have letter := List.all_eq_true.1 plain c member
  rw [digit] at letter
  cases letter

/-- A word that starts with a letter and has a digit in it is a name. -/
theorem ofWord_name {first : Char} {others : List Char} {c : Char} (letter : first.isAlpha)
    (member : c ∈ first :: others) (digit : c.isDigit) :
    Token.ofWord (first :: others) = some (.name (String.ofList (first :: others))) := by
  have noDigit := isDigit_eq_false_of_isAlpha letter
  unfold Token.ofWord
  split
  · rename_i same
    cases same
  · rename_i same
    cases same
    cases noDigit
  · rename_i same
    cases same
    have dot : first ≠ '.' := by
      rintro rfl
      cases letter
    simp only [List.all_cons, noDigit, Bool.false_and, Bool.false_or, dot, decide_false, Bool.false_eq_true,
      if_false]
    rw [find?_keyword_eq_none member digit]

/-- A word of digits is a number. -/
theorem ofWord_number {word : List Char} (nonempty : word ≠ []) (digits : ∀ c ∈ word, c.isDigit) :
    Token.ofWord word = some (.literal (.number (String.ofList word))) := by
  unfold Token.ofWord
  split
  · exact absurd rfl nonempty
  · cases digits 'x' (by simp)
  · rw [if_pos (List.all_eq_true.2 digits)]

/-- A text that consists of characters of words. -/
def IsWord (text : String) : Prop := text.toList ≠ [] ∧ ∀ c ∈ text.toList, isWordChar c

/-- A closed text is a word if that can be read off its characters. -/
theorem isWord_of_all {text : String} (nonempty : text.toList ≠ []) (chars : text.toList.all isWordChar) :
    IsWord text :=
  ⟨nonempty, List.all_eq_true.1 chars⟩

theorem IsWord.append {a b : String} (first : IsWord a) (second : ∀ c ∈ b.toList, isWordChar c) :
    IsWord (a ++ b) := by
  rw [IsWord, String.toList_append]
  refine ⟨fun empty => first.1 (List.append_eq_nil_iff.1 empty).1, fun c member => ?_⟩
  rcases List.mem_append.1 member with here | there
  · exact first.2 c here
  · exact second c there

theorem isWord_numbered {front : String} (word : IsWord front) (n : Nat) :
    IsWord (front ++ toString n) :=
  word.append fun _ member => isWordChar_of_isDigit (isDigit_of_mem_toString member)

/-- Different variables have different names. -/
theorem var_text_injective : Function.Injective Yul.Var.text := by
  intro var other same
  cases var with
  | user number =>
      cases other with
      | user number' => rw [numbered_injective "x_" same]
      | loop depth =>
          have front := congrArg (·.toList.head?) same
          simp [Yul.Var.text] at front
  | loop depth =>
      cases other with
      | user number =>
          have front := congrArg (·.toList.head?) same
          simp [Yul.Var.text] at front
      | loop depth' => rw [numbered_injective "i_" same]

/-- Different functions have different names. -/
theorem functionName_text_injective : Function.Injective FunctionName.text := by
  rintro ⟨kind, index⟩ ⟨kind', index'⟩ same
  have kinds : kind = kind' := by
    have letter := congrArg (·.toList[4]?) same
    cases kind <;> cases kind' <;> first | rfl | simp [FunctionName.text, FunctionKind.name] at letter
  subst kinds
  exact congrArg (FunctionName.mk kind) (numbered_injective ("foo_" ++ kind.name ++ "_") same)

theorem isWord_var (var : Yul.Var) : IsWord var.text := by
  cases var with
  | user number => exact isWord_numbered (isWord_of_all (by decide) rfl) number
  | loop depth => exact isWord_numbered (isWord_of_all (by decide) rfl) depth

theorem isWord_functionName (f : FunctionName) : IsWord f.text := by
  have word : IsWord ("foo_" ++ f.kind.name ++ "_") := by
    cases f.kind <;> exact isWord_of_all (by decide) rfl
  exact isWord_numbered word f.index

theorem isWord_builtin (builtin : Builtin) : IsWord builtin.name := by
  cases builtin with
  | log topics => exact isWord_numbered (isWord_of_all (by decide) rfl) topics
  | nullary op | unary op | binary op | ternary op | store op | halt op | exit op =>
      cases op <;> exact isWord_of_all (by decide) rfl
  | copy region => cases region <;> exact isWord_of_all (by decide) rfl
  | extcodecopy | selfdestruct | pop => exact isWord_of_all (by decide) rfl

theorem isWord_callee (callee : Yul.Callee) : IsWord callee.text := by
  cases callee with
  | builtin op => exact isWord_builtin op
  | function f => exact isWord_functionName f

/-- A word that starts with a letter and ends in a number is a name. -/
theorem scans_numbered {front : String} (word : IsWord front)
    (letter : front.toList.head?.all Char.isAlpha) (n : Nat) :
    Scans (front ++ toString n) [.name (front ++ toString n)] := by
  obtain ⟨first, others, same⟩ := List.exists_cons_of_ne_nil word.1
  obtain ⟨digit, member⟩ := List.exists_mem_of_ne_nil _ (toList_toString_ne_nil n)
  have whole : (front ++ toString n).toList = first :: (others ++ (toString n).toList) := by
    rw [String.toList_append, same, List.cons_append]
  rw [same] at letter
  have known := ofWord_name letter
    (List.mem_cons_of_mem first (List.mem_append_right others member)) (isDigit_of_mem_toString member)
  rw [← whole, String.ofList_toList] at known
  exact scans_word (isWord_numbered word n).2 known

theorem scans_var (var : Yul.Var) : Scans var.text [.name var.text] := by
  cases var with
  | user number => exact scans_numbered (isWord_of_all (by decide) rfl) rfl number
  | loop depth => exact scans_numbered (isWord_of_all (by decide) rfl) rfl depth

theorem scans_functionName (f : FunctionName) : Scans f.text [.name f.text] := by
  have word : IsWord ("foo_" ++ f.kind.name ++ "_") := by
    cases f.kind <;> exact isWord_of_all (by decide) rfl
  have letter : ("foo_" ++ f.kind.name ++ "_").toList.head?.all Char.isAlpha := by
    cases f.kind <;> rfl
  exact scans_numbered word letter f.index

theorem scans_builtin (builtin : Builtin) : Scans builtin.name [.name builtin.name] := by
  cases builtin with
  | log topics => exact scans_numbered (isWord_of_all (by decide) rfl) rfl topics
  | nullary op | unary op | binary op | ternary op | store op | halt op | exit op =>
      exact scans_word (isWord_builtin _).2 (by cases op <;> rfl)
  | copy region => exact scans_word (isWord_builtin _).2 (by cases region <;> rfl)
  | extcodecopy | selfdestruct | pop => exact scans_word (isWord_builtin _).2 rfl

theorem scans_callee (callee : Yul.Callee) : Scans callee.text [.name callee.text] := by
  cases callee with
  | builtin op => exact scans_builtin op
  | function f => exact scans_functionName f

theorem isWord_typeName (type : TypeName) : IsWord type.name := by
  cases type <;> exact isWord_of_all (by decide) rfl

theorem scans_typeName (type : TypeName) : Scans (":" ++ type.name) [.colon, .name type.name] := by
  have known : Token.ofWord type.name.toList = some (.name type.name) := by
    cases type <;> rfl
  have scanned : scan .nothing (":" ++ type.name).toList = some ([.colon], .word type.name.toList) := by
    cases type <;> rfl
  exact scans_of_word scanned known

/-! ### Literals -/

/-- Characters between quotes that neither end the text nor escape anything stay pending. -/
theorem scan_quoted {before chars : List Char} (plain : ∀ c ∈ chars, c.isAlphanum) :
    scan (.quoted before) chars = some ([], .quoted (before ++ chars)) := by
  induction chars generalizing before with
  | nil => rw [List.append_nil]; rfl
  | cons c chars ih =>
      have here := plain c List.mem_cons_self
      have quote : c ≠ '"' := by
        rintro rfl
        cases here
      have escape : ¬ (c = '\\' ∨ c = '\n') := by
        rintro (rfl | rfl) <;> cases here
      rw [scan_cons, step, if_neg quote, if_neg escape]
      simp only [Option.bind_eq_bind, Option.bind_some]
      rw [ih fun c member => plain c (List.mem_cons_of_mem _ member)]
      simp

/-- The literal of the syntax tree. -/
def literalSyntax : Yul.Literal → Literal
  | .decimal value => .number (toString value.toNat)
  | .hex digits => .hex digits
  | .quoted characters => .quoted characters

theorem scans_literal (value : Yul.Literal) (valid : (literalSyntax value).Valid) :
    Scans value.text [.literal (literalSyntax value)] := by
  cases value with
  | decimal value =>
      refine scans_word (fun c member => isWordChar_of_isDigit (isDigit_of_mem_toString member)) ?_
      have known := ofWord_number (toList_toString_ne_nil value.toNat) fun c => isDigit_of_mem_toString
      rw [String.ofList_toList] at known
      exact known
  | hex digits =>
      obtain ⟨nonempty, _, hex⟩ := valid
      have whole : ("0x" ++ digits).toList = '0' :: 'x' :: digits.toList := String.toList_append
      refine scans_word (fun c member => ?_) ?_
      · change c ∈ ("0x" ++ digits).toList at member
        rw [whole, List.mem_cons, List.mem_cons] at member
        rcases member with rfl | rfl | member
        · rfl
        · rfl
        · exact isWordChar_of_isHexDigit (hex c member)
      · change Token.ofWord ("0x" ++ digits).toList = _
        rw [whole, Token.ofWord, if_pos ⟨nonempty, List.all_eq_true.2 hex⟩, String.ofList_toList]
        rfl
  | quoted characters =>
      apply Closed.scans
      change scan .nothing ("\"" ++ characters ++ "\"").toList = _
      have opened : scan .nothing "\"".toList = some ([], .quoted []) := rfl
      rw [String.toList_append, String.toList_append, List.append_assoc, scan_append, opened]
      simp only [Option.bind_eq_bind, Option.bind_some]
      rw [scan_append, scan_quoted valid.2]
      simp only [Option.bind_eq_bind, Option.bind_some, List.nil_append]
      have closed : scan (.quoted characters.toList) "\"".toList =
          some ([.literal (.quoted (String.ofList characters.toList))], .nothing) := rfl
      rw [closed, String.ofList_toList]
      rfl

end YulFuzz.Grammar
