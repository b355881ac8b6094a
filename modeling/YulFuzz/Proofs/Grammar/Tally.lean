/-
Module: YulFuzz.Proofs.Grammar.Tally
Purpose: The calls in the tokens of Yul text. A call of a function of the program is told from other calls by
  the start of its name, and from the header of a definition by the word in front of it. Tokens that neither
  call nor define nor open an arm are silent: in front of other tokens they change no count.
Main exports: Grammar.namesFunction, Grammar.callSites, Grammar.Silent, Grammar.callSites_call
-/
import YulFuzz.Proofs.Grammar.Printed

namespace YulFuzz.Grammar

/-- Whether a name starts like that of a function of a program. -/
def namesFunction (name : String) : Bool := "foo_".toList.isPrefixOf name.toList

/-- The names of the functions called in some tokens, in order: the names of functions in front of a
    parenthesis, but not those that a definition has in its header. -/
def callSites : List Token → List String
  | [] => []
  | .keyword .functionWord :: .name _ :: rest => callSites rest
  | .name callee :: .openParen :: rest =>
    if namesFunction callee then callee :: callSites rest else callSites rest
  | _ :: rest => callSites rest

theorem namesFunction_functionName (f : FunctionName) : namesFunction f.text = true := by
  simp [namesFunction, FunctionName.text]

theorem namesFunction_var (var : Yul.Var) : namesFunction var.text = false := by
  cases var with
  | user number | loop depth => simp [namesFunction, Yul.Var.text, List.isPrefixOf]

theorem namesFunction_builtin (builtin : Builtin) : namesFunction builtin.name = false := by
  cases builtin with
  | log topics => simp [namesFunction, Builtin.name, List.isPrefixOf]
  | nullary op | unary op | binary op | ternary op | store op | halt op | exit op => cases op <;> rfl
  | copy region => cases region <;> rfl
  | extcodecopy | selfdestruct | pop => rfl

theorem namesFunction_typeName (type : TypeName) : namesFunction type.name = false := by
  cases type <;> rfl

variable {ts : List Token}

/-- A name that is not one of a function calls none, whatever follows it. -/
theorem callSites_name {name : String} (other : namesFunction name = false) (rest : List Token) :
    callSites (.name name :: rest) = callSites rest := by
  cases rest with
  | nil => rfl
  | cons token rest =>
      cases token with
      | openParen =>
          rw [callSites, other]
          rfl
      | _ => rfl

theorem callSites_call {name : String} (function : namesFunction name = true) (rest : List Token) :
    callSites (.name name :: .openParen :: rest) = name :: callSites rest := by
  rw [callSites, if_pos function]

theorem Stmt.listTokens_append (first rest : List Stmt) :
    Stmt.listTokens (first ++ rest) = Stmt.listTokens first ++ Stmt.listTokens rest := by
  induction first with
  | nil => rfl
  | cons stmt others ih =>
      rw [List.cons_append, Stmt.listTokens, Stmt.listTokens, ih, List.append_assoc]

/-! ### Silent tokens -/

/-- Tokens without the header of a definition and without an arm, that call no function of the program. -/
structure Silent (ts : List Token) : Prop where
  functions : ts.count (.keyword .functionWord) = 0
  arms : ts.count (.keyword .caseWord) = 0
  sites : ∀ rest, callSites (ts ++ rest) = callSites rest

namespace Silent

theorem nil : Silent [] := ⟨rfl, rfl, fun _ => rfl⟩

theorem append {more : List Token} (first : Silent ts) (second : Silent more) : Silent (ts ++ more) where
  functions := by rw [List.count_append, first.functions, second.functions]
  arms := by rw [List.count_append, first.arms, second.arms]
  sites := fun rest => by rw [List.append_assoc, first.sites, second.sites]

theorem name {text : String} (other : namesFunction text = false) : Silent [.name text] :=
  ⟨rfl, rfl, callSites_name other⟩

theorem var (var : Yul.Var) : Silent [.name var.text] := name (namesFunction_var var)

theorem literal (value : Literal) : Silent [.literal value] := ⟨rfl, rfl, fun _ => rfl⟩

theorem flatMap_comma {parts : List (List Token)} (silent : ∀ part ∈ parts, Silent part) :
    Silent (parts.flatMap (.comma :: ·)) := by
  induction parts with
  | nil => exact nil
  | cons part others ih =>
      have comma : Silent [.comma] := ⟨rfl, rfl, fun _ => rfl⟩
      have here := silent part List.mem_cons_self
      exact (comma.append here).append (ih fun part member => silent part (List.mem_cons_of_mem _ member))

theorem commaSeparated {parts : List (List Token)} (silent : ∀ part ∈ parts, Silent part) :
    Silent (commaSeparated parts) := by
  cases parts with
  | nil => exact nil
  | cons part others =>
      have here := silent part List.mem_cons_self
      exact here.append (flatMap_comma fun part member => silent part (List.mem_cons_of_mem _ member))

theorem vars (vars : List Yul.Var) : Silent (nameTokens (vars.map Yul.Var.text)) := by
  apply commaSeparated
  intro part member
  rw [List.map_map] at member
  obtain ⟨variable_, _, rfl⟩ := List.mem_map.1 member
  exact var variable_

/-- A declared name with its type. -/
theorem typedName (var : Yul.Var) (type : Option TypeName) :
    Silent (TypedName.tokens ⟨var.text, type.map TypeName.name⟩) := by
  cases type with
  | none => exact .var var
  | some type =>
      have colon : Silent [.colon] := ⟨rfl, rfl, fun _ => rfl⟩
      exact (Silent.var var).append (colon.append (name (namesFunction_typeName type)))

end Silent

end YulFuzz.Grammar
