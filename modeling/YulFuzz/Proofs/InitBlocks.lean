/-
Module: YulFuzz.Proofs.InitBlocks
Purpose: Definitions in the init blocks of loops. No definition stands in an init block, however deep, unless it
  stands in the post block or in the body of another loop inside the init block: these parts of a loop allow
  definitions again, whatever is around the loop.
Main exports: Grammar.Stmt.DefinesInLoops, Lexical.statement_inInit, generate_initDefinesInLoops
-/
import YulFuzz.Proofs.Grammar.Calls
import YulFuzz.Proofs.Trace

namespace YulFuzz

open Grammar (stmtSyntax stmtsSyntax blockSyntax casesSyntax defaultSyntax allStmts)
open Walk (Point)

namespace Grammar

mutual

/-- In the statement functions are defined only in the post blocks and in the bodies of loops. -/
def Stmt.DefinesInLoops : Stmt → Prop
  | .declare _ _ => True
  | .assign _ _ => True
  | .call _ _ => True
  | .block body => Stmt.AllDefineInLoops body
  | .ifThen _ body => Stmt.AllDefineInLoops body
  | .forLoop init _ _ _ => Stmt.AllDefineInLoops init
  | .switch _ cases default => Stmt.CasesDefineInLoops cases ∧ Stmt.DefaultDefinesInLoops default
  | .function _ _ _ _ => False
  | .breakLoop => True
  | .continueLoop => True

/-- In the statements functions are defined only in the post blocks and in the bodies of loops. -/
def Stmt.AllDefineInLoops : List Stmt → Prop
  | [] => True
  | stmt :: rest => stmt.DefinesInLoops ∧ Stmt.AllDefineInLoops rest

/-- In the arms with a label functions are defined only in the post blocks and in the bodies of loops. -/
def Stmt.CasesDefineInLoops : List (Literal × List Stmt) → Prop
  | [] => True
  | (_, body) :: rest => Stmt.AllDefineInLoops body ∧ Stmt.CasesDefineInLoops rest

/-- In the arm without a label functions are defined only in the post blocks and in the bodies of loops. -/
def Stmt.DefaultDefinesInLoops : Option (List Stmt) → Prop
  | none => True
  | some body => Stmt.AllDefineInLoops body

end

namespace Stmt

theorem definesInLoops_of_isSimple {stmt : Stmt} (simple : stmt.isSimple = true) : stmt.DefinesInLoops := by
  cases stmt with
  | declare | assign | call => trivial
  | _ => cases simple

theorem allDefineInLoops_append {first rest : List Stmt} (front : AllDefineInLoops first)
    (back : AllDefineInLoops rest) : AllDefineInLoops (first ++ rest) := by
  induction first with
  | nil => exact back
  | cons stmt others ih => exact ⟨front.1, ih front.2⟩

/-- Whether a statement is a loop. -/
def isLoop : Stmt → Bool
  | .forLoop _ _ _ _ => true
  | _ => false

theorem isControl_of_isLoop {stmt : Stmt} (loop : stmt.isLoop = true) : stmt.isControl = true := by
  cases stmt with
  | forLoop => rfl
  | _ => cases loop

/-- The init block of a statement, which is empty unless it is a loop. -/
def init : Stmt → List Stmt
  | .forLoop init _ _ _ => init
  | _ => []

theorem init_of_not_isLoop {stmt : Stmt} (other : ¬ stmt.isLoop = true) : stmt.init = [] := by
  cases stmt with
  | forLoop => exact absurd rfl other
  | _ => rfl

end Stmt

mutual

/-- Without loops inside, a statement that defines functions only in loops defines none. -/
theorem Stmt.definitions_eq_nil : ∀ (stmt : Stmt) {inLoop : Bool}, stmt.DefinesInLoops → stmt.isLoop = false →
    (∀ inner ∈ stmt.inside inLoop, inner.2.isLoop = false) → stmt.definitions = []
  | .declare _ _, _, _, _, _ => rfl
  | .assign _ _, _, _, _, _ => rfl
  | .call _ _, _, _, _, _ => rfl
  | .block body, _, defines, _, noLoop => Stmt.listDefinitions_eq_nil body defines noLoop
  | .ifThen _ body, _, defines, _, noLoop => Stmt.listDefinitions_eq_nil body defines noLoop
  | .forLoop _ _ _ _, _, _, loop, _ => by cases loop
  | .switch _ cases default, inLoop, defines, _, noLoop => by
      have arms := Stmt.caseDefinitions_eq_nil cases defines.1 fun inner member =>
        noLoop inner (List.mem_append_left _ member)
      cases default with
      | none => exact (List.append_nil _).trans arms
      | some body =>
          have last := Stmt.listDefinitions_eq_nil body defines.2 fun inner member =>
            noLoop inner (List.mem_append_right _ member)
          exact List.append_eq_nil_iff.2 ⟨arms, last⟩
  | .function _ _ _ _, _, defines, _, _ => defines.elim
  | .breakLoop, _, _, _, _ => rfl
  | .continueLoop, _, _, _, _ => rfl

/-- Without loops inside, statements that define functions only in loops define none. -/
theorem Stmt.listDefinitions_eq_nil : ∀ (body : List Stmt) {inLoop : Bool}, Stmt.AllDefineInLoops body →
    (∀ inner ∈ allStmts inLoop body, inner.2.isLoop = false) → Stmt.listDefinitions body = []
  | [], _, _, _ => rfl
  | stmt :: rest, inLoop, defines, noLoop => by
      obtain ⟨here, others⟩ := List.forall_mem_cons.1 noLoop
      obtain ⟨inside, later⟩ := List.forall_mem_append.1 others
      exact List.append_eq_nil_iff.2 ⟨Stmt.definitions_eq_nil stmt defines.1 here inside,
        Stmt.listDefinitions_eq_nil rest defines.2 later⟩

/-- Without loops inside, arms that define functions only in loops define none. -/
theorem Stmt.caseDefinitions_eq_nil : ∀ (cases : List (Literal × List Stmt)) {inLoop : Bool},
    Stmt.CasesDefineInLoops cases → (∀ inner ∈ caseStmts inLoop cases, inner.2.isLoop = false) →
      Stmt.caseDefinitions cases = []
  | [], _, _, _ => rfl
  | (_, body) :: rest, _, defines, noLoop => by
      obtain ⟨inside, later⟩ := List.forall_mem_append.1 noLoop
      exact List.append_eq_nil_iff.2 ⟨Stmt.listDefinitions_eq_nil body defines.1 inside,
        Stmt.caseDefinitions_eq_nil rest defines.2 later⟩

end

end Grammar

/-- A definition is left out exactly if an init block is innermost around it. -/
def Walk.Point.DefinesByContext (settings : Settings) (p : Point) : Prop :=
  match p.rest with
  | .define _ _ _ :: _ => p.code settings = [] ↔ p.context = .loopInit
  | _ => True

open Grammar.Stmt (AllDefineInLoops CasesDefineInLoops)

namespace Lexical

variable {env : Env}

/-! ### Inside of init blocks -/

theorem simple_inInit {stmt : Grammar.Stmt} (simple : stmt.isSimple = true) : AllDefineInLoops [stmt] :=
  ⟨Grammar.Stmt.definesInLoops_of_isSimple simple, trivial⟩

theorem braces_inInit {isEmpty : Bool} {part : Threaded (List Yul.Stmt × Env)}
    (inside : ∀ t, AllDefineInLoops (stmtsSyntax (part t).1.1)) (t : Thread) :
    AllDefineInLoops (blockSyntax (braces isEmpty part t).1) := by
  cases isEmpty with
  | true => trivial
  | false => exact inside t

theorem opening_inInit {isEmpty : Bool} {body : List Yul.Stmt} (inside : AllDefineInLoops (stmtsSyntax body)) :
    AllDefineInLoops (blockSyntax (if isEmpty then .compact else .spread body)) := by
  cases isEmpty with
  | true => trivial
  | false => exact inside

theorem loopControl_inInit (control : Yul.Stmt) (plain : (stmtSyntax control).DefinesInLoops) (t : Thread) :
    AllDefineInLoops (stmtsSyntax (loopControl env control t).1.1) := by
  unfold loopControl
  split
  · exact ⟨plain, trivial⟩
  · trivial

mutual

/-- Where definitions are forbidden, a statement defines functions only in the loops inside it. -/
theorem statement_inInit (settings : Settings) : ∀ (stmt : Tree.Stmt) {env : Env} (t : Thread),
    env.inLoopInit = true → AllDefineInLoops (stmtsSyntax (statement settings env stmt t).1.1)
  | .declare type value, env, t, _ => simple_inInit (letSyntax_isSimple ..)
  | .assign target value, env, t, _ => simple_inInit (assign_isSimple settings.seed env target value t)
  | .ifThen cond body, env, t, inInit => ⟨braces_inInit (statements_inInit settings body inInit) _, trivial⟩
  | .block body, env, t, inInit => ⟨braces_inInit (statements_inInit settings body inInit) t, trivial⟩
  | .forLoop init cond post body, env, t, _ => by
      have forbidden : (env.inLoopContext false true).inLoopInit = true := rfl
      exact ⟨opening_inInit (statements_inInit settings init forbidden t), trivial⟩
  | .boundedFor body, env, t, _ => ⟨⟨trivial, trivial⟩, trivial⟩
  | .switch scrutinee cases default, env, t, inInit => by
      by_cases empty : (cases.isEmpty && default.isNone) = true
      · rw [statement, if_pos empty]
        trivial
      · rw [statement_switch settings env scrutinee empty]
        have unlabelled : (env.withLabels []).inLoopInit = true := inInit
        have arms := cases_inInit settings cases unlabelled (expression settings.seed env scrutinee t).2
        cases default with
        | none => exact ⟨⟨arms, trivial⟩, trivial⟩
        | some body => exact ⟨⟨arms, braces_inInit (statements_inInit settings body inInit) _⟩, trivial⟩
  | .breakLoop, env, t, _ => loopControl_inInit .breakLoop trivial t
  | .continueLoop, env, t, _ => loopControl_inInit .continueLoop trivial t
  | .call usage selector args targets, env, t, _ =>
      simple_inInit (callStatement_isSimple settings.seed env usage selector args targets t)
  | .define inputs outputs body, env, t, inInit => by
      rw [statement_define_forbidden settings inInit]
      trivial
  | .store op location value, env, t, _ => simple_inInit rfl
  | .log position size topics, env, t, _ => simple_inInit rfl
  | .copy region target source size, env, t, _ => simple_inInit rfl
  | .extCodeCopy address target source size, env, t, _ => simple_inInit rfl
  | .halt op, env, t, _ => simple_inInit rfl
  | .exit op position size, env, t, _ => simple_inInit rfl
  | .selfDestruct address, env, t, _ => simple_inInit rfl
  | .pop value, env, t, _ => simple_inInit rfl

/-- Where definitions are forbidden, the statements of a block define functions only in the loops inside. -/
theorem statements_inInit (settings : Settings) : ∀ (body : List Tree.Stmt) {env : Env},
    env.inLoopInit = true → ∀ t, AllDefineInLoops (stmtsSyntax (statements settings env body t).1.1)
  | [], _, _, _ => trivial
  | stmt :: rest, env, inInit, t => by
      have after := (statement_extends settings env stmt t).inLoopInit.trans inInit
      have code : (statements settings env (stmt :: rest) t).1.1 =
        (statement settings env stmt t).1.1 ++
          (statements settings _ rest (statement settings env stmt t).2).1.1 := rfl
      rw [code, Grammar.stmtsSyntax_append]
      exact Grammar.Stmt.allDefineInLoops_append (statement_inInit settings stmt t inInit)
        (statements_inInit settings rest after _)

/-- Where definitions are forbidden, the arms of a switch define functions only in the loops inside. -/
theorem cases_inInit (settings : Settings) : ∀ (cases : List (Tree.Literal × List Tree.Stmt)) {env : Env},
    env.inLoopInit = true → ∀ t, CasesDefineInLoops (casesSyntax (caseArms settings env cases t).1)
  | [], _, _, _ => trivial
  | (label, body) :: rest, env, inInit, t => by
      by_cases known : (literal settings.seed label t).1.word ∈ env.labels
      · rw [caseArms_known settings known body rest]
        exact cases_inInit settings rest inInit _
      · rw [caseArms_new settings known body rest]
        have seen (labels : List Word) : (env.withLabels labels).inLoopInit = true := inInit
        exact ⟨braces_inInit (statements_inInit settings body (seen _)) _,
          cases_inInit settings rest (seen _) _⟩

end

/-! ### Init blocks -/

/-- In the init block of a loop made for a statement functions are defined only in the loops inside. -/
theorem statement_init (settings : Settings) (env : Env) (stmt : Tree.Stmt) (t : Thread) :
    ∀ made ∈ stmtsSyntax (statement settings env stmt t).1.1, AllDefineInLoops made.init := by
  intro made member
  by_cases loop : made.isLoop = true
  · have makes := statement_makes settings env stmt t made member (Grammar.Stmt.isControl_of_isLoop loop)
    cases made with
    | forLoop =>
        cases stmt with
        | forLoop init cond post body =>
            have forbidden : (env.inLoopContext false true).inLoopInit = true := rfl
            rw [List.mem_singleton.1 member]
            exact opening_inInit (statements_inInit settings init forbidden t)
        | boundedFor body =>
            rw [List.mem_singleton.1 member]
            exact ⟨trivial, trivial⟩
        | _ => cases makes
    | _ => cases loop
  · rw [Grammar.Stmt.init_of_not_isLoop loop]
    trivial

theorem Stands.init {settings : Settings} {p : Point} (stands : Stands p) :
    ∀ placed ∈ p.made settings, AllDefineInLoops placed.2.init := by
  obtain @⟨_, _, env, site, rest, left, t⟩ := stands
  intro placed member
  cases rest with
  | nil => cases member
  | cons stmt rest =>
      rw [Point.made, site.code_eq] at member
      obtain ⟨made, inside, rfl⟩ := List.mem_map.1 member
      exact statement_init settings env stmt t made inside

/-- At every point the innermost construct decides about definitions. -/
theorem Stands.definesByContext {settings : Settings} {p : Point} (stands : Stands p) :
    p.DefinesByContext settings := by
  obtain @⟨context, _, env, site, rest, left, t⟩ := stands
  cases rest with
  | nil => trivial
  | cons stmt rest =>
      cases stmt with
      | define inputs outputs body =>
          change Point.code settings _ = [] ↔ context = .loopInit
          rw [site.code_eq]
          by_cases forbidden : env.inLoopInit = true
          · have inInit : context = .loopInit := by simpa [forbidden] using site.inLoopInit
            rw [statement_define_forbidden settings forbidden]
            exact iff_of_true rfl inInit
          · have elsewhere : context ≠ .loopInit := by simpa [forbidden] using site.inLoopInit
            rw [statement_define settings forbidden]
            exact iff_of_false (List.cons_ne_nil _ _) elsewhere
      | _ => trivial

end Lexical

/-- Every program is generated, and its text is read as a block, the tokens of which it has, where functions
    are defined in the init block of a loop only in the post blocks and in the bodies of other loops inside, so
    that none is defined in an init block without a loop. Of the definitions that the walk comes to, those are
    left out around which an init block is innermost, whatever is further around. -/
theorem generate_initDefinesInLoops (settings : Settings) (tree : Tree.Program) :
    ∃ g block, tree.generate settings = .ok g ∧ Grammar.read g.yul = some block ∧
      Grammar.tokens g.yul = some (Grammar.braced (Grammar.Stmt.listTokens block)) ∧
      (∀ placed ∈ allStmts false block, AllDefineInLoops placed.2.init ∧
        ((∀ inner ∈ allStmts false placed.2.init, inner.2.isLoop = false) →
          Grammar.Stmt.listDefinitions placed.2.init = [])) ∧
      ∀ p ∈ tree.points settings, p.DefinesByContext settings := by
  obtain ⟨g, generated, text, reading⟩ := Lexical.exists_reading settings tree
  have traced := Lexical.program_traced settings tree
  have stands := Lexical.program_stands settings tree
  have whole := Grammar.tokens_render (Lexical.program_valid settings tree)
  rw [← text] at whole
  have byContext : ∀ p ∈ tree.points settings, p.DefinesByContext settings :=
    fun p here => (stands p here).definesByContext
  refine ⟨g, _, generated, reading, whole, fun placed member => ?_, byContext⟩
  have inLoops : AllDefineInLoops placed.2.init := by
    by_cases loop : placed.2.isLoop = true
    · exact traced.forall_placed _ (fun _ => Grammar.Stmt.isControl_of_isLoop) (AllDefineInLoops ·.init)
        (fun p here => (stands p here).init) placed member loop
    · rw [Grammar.Stmt.init_of_not_isLoop loop]
      trivial
  exact ⟨inLoops, Grammar.Stmt.listDefinitions_eq_nil _ inLoops⟩

/-- Conditions inside an init block allow no definition. -/
theorem definition_in_init_left_out :
    ∃ g block, Tree.Program.generate {} ⟨[.forLoop [.ifThen .unset [.define 0 0 []]] .unset [] []]⟩ = .ok g ∧
      Grammar.read g.yul = some block ∧
      ∀ placed ∈ allStmts false block, Grammar.Stmt.listDefinitions placed.2.init = [] := by
  let tree : Tree.Program := ⟨[.forLoop [.ifThen .unset [.define 0 0 []]] .unset [] []]⟩
  obtain ⟨g, block, generated, reading, _, defined, _⟩ := generate_initDefinesInLoops {} tree
  obtain ⟨_, again, _, known⟩ := Lexical.exists_reading {} tree
  obtain rfl := Except.ok.inj (generated.symm.trans again)
  obtain rfl := Option.some.inj (reading.symm.trans known)
  have noLoop : ∀ placed ∈ allStmts false (blockSyntax (Lexical.program {} tree).1),
      ∀ inner ∈ allStmts false placed.2.init, inner.2.isLoop = false := by
    decide
  exact ⟨g, _, generated, reading, fun placed member => (defined placed member).2 (noLoop placed member)⟩

/-- The body of a loop inside an init block allows a definition, which stands in the init block then. -/
theorem definition_in_loop_in_init :
    ∃ g block, Tree.Program.generate {} ⟨[.forLoop [.boundedFor [.define 0 0 []]] (.literal (.int 0)) [] []]⟩ =
        .ok g ∧ Grammar.read g.yul = some block ∧
      ∃ placed ∈ allStmts false block, Grammar.Stmt.listDefinitions placed.2.init = ["foo_noreturn_0"] := by
  obtain ⟨g, generated, _, reading⟩ := Lexical.exists_reading {}
    ⟨[.forLoop [.boundedFor [.define 0 0 []]] (.literal (.int 0)) [] []]⟩
  exact ⟨g, _, generated, reading, _, List.mem_cons_self, by decide⟩

end YulFuzz
