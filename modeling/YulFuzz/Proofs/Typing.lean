/-
Module: YulFuzz.Proofs.Typing
Purpose: Typed and untyped generations of one program. The types are written down and have no other influence
  on a walk: without typed declarations every walk ends in the same state, with the same code but for the
  types. In the text the types are those of the declarations of the tree that have one.
Main exports: Settings.untyped, Walk.statement_untyped, Tree.Program.walk_untyped, Walk.Point.typedLines,
  generate_typed
-/
import YulFuzz.Proofs.Annotations
import YulFuzz.Proofs.Tally

namespace YulFuzz

/-- The same settings without typed declarations. -/
def Settings.untyped (settings : Settings) : Settings := { settings with typedDeclarations := false }

namespace Walk

open Yul.Stmt (listUntyped caseUntyped defaultUntyped)

/-! ### Walks with changed results -/

section Map

variable {α β : Type} (f : α → β)

theorem inScope_map (inside : Walk α) : inScope (f <$> inside) = f <$> inScope inside := by
  simp only [inScope, map_bind, bind_map_left, map_pure]

theorem inLoopContext_map (inLoopBody inLoopInit : Bool) (inside : Walk α) :
    inLoopContext inLoopBody inLoopInit (f <$> inside) = f <$> inLoopContext inLoopBody inLoopInit inside := by
  simp only [inLoopContext, map_bind, bind_map_left, map_pure]

theorem inFunctionBody_map (inside : Walk α) : inFunctionBody (f <$> inside) = f <$> inFunctionBody inside := by
  rw [inFunctionBody, inFunctionBody, ← inLoopContext_map, ← inScope_map]
  simp only [map_bind, bind_map_left, map_pure]

theorem inBoundedLoop_map (inside : Nat → Walk α) :
    inBoundedLoop (fun depth => f <$> inside depth) = f <$> inBoundedLoop inside := by
  simp only [inBoundedLoop, map_bind, bind_map_left, map_pure]

theorem inSwitch_map (inside : Walk α) : inSwitch (f <$> inside) = f <$> inSwitch inside := by
  simp only [inSwitch, map_bind, bind_map_left, map_pure]

end Map

/-- The init block of a loop, which has no scope of its own. -/
theorem opening_untyped (isEmpty : Bool) (body : Walk (List Yul.Stmt)) :
    (do
      if isEmpty then return Yul.Block.compact
      return Yul.Block.spread (← listUntyped <$> body)) =
      Yul.Block.untyped <$> (do
        if isEmpty then return Yul.Block.compact
        return Yul.Block.spread (← body) : Walk Yul.Block) := by
  cases isEmpty with
  | true => rfl
  | false =>
      simp only [Bool.false_eq_true, if_false]
      rw [bind_map_left, map_bind]
      rfl

/-- A block of statements without types is the block of the statements, without types. -/
theorem braces_untyped (isEmpty : Bool) (body : Walk (List Yul.Stmt)) :
    braces isEmpty (listUntyped <$> body) = Yul.Block.untyped <$> braces isEmpty body := by
  cases isEmpty with
  | true => rfl
  | false =>
      have inside : (do return Yul.Block.spread (← listUntyped <$> body)) =
          Yul.Block.untyped <$> (do return Yul.Block.spread (← body) : Walk Yul.Block) := by
        rw [bind_map_left, map_bind]
        rfl
      simp only [braces, Bool.false_eq_true, if_false]
      rw [inside, inScope_map]

/-! ### Statements without blocks -/

theorem declareVariable_untyped (settings : Settings) (type : Option TypeName) (value : Tree.Expr) :
    declareVariable settings.untyped type value =
      Yul.Stmt.untyped <$> declareVariable settings type value := by
  simp only [declareVariable, map_bind, map_pure]
  rfl

theorem assign_untyped (seed : Seed) (target : UInt32) (value : Tree.Expr) :
    Yul.Stmt.untyped <$> assign seed target value = assign seed target value := by
  rw [assign, map_bind]
  refine bind_congr fun found => ?_
  cases found <;> rw [map_bind] <;> rfl

theorem loopControl_untyped {control : Yul.Stmt} (same : control.untyped = control) :
    listUntyped <$> loopControl control = loopControl control := by
  rw [loopControl, map_bind]
  refine bind_congr fun s => ?_
  cases s.inLoopBody with
  | true => exact congrArg (fun stmt => (pure [stmt] : Walk _)) same
  | false => rfl

theorem builtinStatement_untyped (seed : Seed) (builtin : Builtin) (args : List Tree.Expr) :
    listUntyped <$> builtinStatement seed builtin args = builtinStatement seed builtin args := by
  rw [builtinStatement, map_bind]
  rfl

theorem callStatement_untyped (seed : Seed) (usage : Tree.CallUsage) (selector : UInt32)
    (args : List Tree.Expr) (requests : List UInt32) :
    Yul.Stmt.untyped <$> callStatement seed usage selector args requests =
      callStatement seed usage selector args requests := by
  rw [callStatement, map_bind]
  refine bind_congr fun callee => ?_
  cases callee with
  | none => rfl
  | some callee => cases usage <;> simp only [map_bind, map_pure] <;> rfl

theorem callAfterDefinition_untyped (name : FunctionName) (inputs outputs : Nat) :
    Yul.Stmt.untyped <$> callAfterDefinition name inputs outputs = callAfterDefinition name inputs outputs := by
  rw [callAfterDefinition, map_bind]
  refine bind_congr fun _ => ?_
  by_cases nothing : outputs = 0
  · simp only [if_pos nothing]
    rfl
  · simp only [if_neg nothing]
    rw [← inScope_map, map_bind]
    refine congrArg inScope (bind_congr fun results => ?_)
    simp only [map_pure, Yul.Stmt.untyped, Yul.Block.untyped, Yul.Stmt.listUntyped_eq_map, List.map_cons,
      List.map_map]
    rfl

/-- The definition of a function, around the walk of its block. -/
theorem definition_untyped (name : FunctionName) (inputs outputs : Nat) (block : Walk Yul.Block) :
    inFunctionBody (do
      let parameters ← declare (inputs + outputs)
      let body ← Yul.Block.untyped <$> block
      return Yul.Stmt.function name (parameters.take inputs) (parameters.drop inputs) body) =
      Yul.Stmt.untyped <$> inFunctionBody (do
        let parameters ← declare (inputs + outputs)
        let body ← block
        return .function name (parameters.take inputs) (parameters.drop inputs) body) := by
  rw [← inFunctionBody_map]
  simp only [map_bind, bind_map_left, map_pure]
  rfl

/-! ### Statements -/

mutual

/-- Without typed declarations a statement is walked in the same way, and its code has no types. -/
theorem statement_untyped (settings : Settings) :
    ∀ stmt, statement settings.untyped stmt = listUntyped <$> statement settings stmt
  | .declare type value => by
      rw [statement, statement, declareVariable_untyped]
      simp only [map_bind, bind_map_left, map_pure]
      rfl
  | .assign target value => by
      rw [statement, statement]
      conv_lhs => rw [← assign_untyped]
      simp only [map_bind, bind_map_left, map_pure]
      rfl
  | .ifThen cond body => by
      rw [statement, statement, statements_untyped settings body, braces_untyped]
      simp only [map_bind, bind_map_left, map_pure]
      rfl
  | .block body => by
      rw [statement, statement, statements_untyped settings body, braces_untyped]
      simp only [map_bind, bind_map_left, map_pure]
      rfl
  | .forLoop init cond post body => by
      rw [statement, statement, ← inScope_map, statements_untyped settings init, opening_untyped,
        inLoopContext_map, statements_untyped settings post, braces_untyped, inLoopContext_map,
        statements_untyped settings body, braces_untyped, inLoopContext_map]
      simp only [map_bind, bind_map_left, map_pure]
      rfl
  | .boundedFor body => by
      rw [statement, statement, ← inBoundedLoop_map, statements_untyped settings body, braces_untyped,
        inLoopContext_map]
      simp only [map_bind, bind_map_left, map_pure]
      rfl
  | .switch scrutinee cases default => by
      rw [statement, statement, caseArms_untyped settings cases, inSwitch_map]
      by_cases nothing : (cases.isEmpty && default.isNone) = true
      · simp only [if_pos nothing]
        rfl
      · simp only [if_neg nothing]
        cases default with
        | none =>
          simp only [map_bind, bind_map_left, map_pure]
          rfl
        | some body =>
          simp only [statements_untyped settings body, braces_untyped, map_bind, bind_map_left, map_pure]
          rfl
  | .breakLoop | .continueLoop => by
      rw [statement, statement]
      exact (loopControl_untyped rfl).symm
  | .halt op => by
      rw [statement, statement]
      rfl
  | .call usage selector args targets => by
      rw [statement, statement]
      conv_lhs => rw [← callStatement_untyped]
      simp only [map_bind, bind_map_left, map_pure]
      rfl
  | .define inputs outputs body => by
      rw [statement, statement, statements_untyped settings body, braces_untyped, map_bind]
      refine bind_congr fun s => ?_
      by_cases inInit : s.inLoopInit = true
      · simp only [if_pos inInit]
        rfl
      · -- Up to the body nothing is made yet, and the two walks are the same.
        simp only [if_neg inInit, map_bind]
        refine bind_congr fun s => bind_congr fun registered => bind_congr fun _ => bind_congr fun _ => ?_
        rw [definition_untyped, bind_map_left]
        refine bind_congr fun definition => ?_
        conv_lhs => rw [← callAfterDefinition_untyped]
        simp only [bind_map_left, map_pure]
        rfl
  | .store _ _ _ | .log _ _ _ | .copy _ _ _ _ | .extCodeCopy _ _ _ _ | .exit _ _ _ | .selfDestruct _
  | .pop _ => by
      rw [statement, statement]
      exact (builtinStatement_untyped ..).symm

/-- Without typed declarations the statements of a block are walked in the same way. -/
theorem statements_untyped (settings : Settings) :
    ∀ body, statements settings.untyped body = listUntyped <$> statements settings body
  | [] => by rfl
  | stmt :: rest => by
      rw [statements, statements, statement_untyped settings stmt, statements_untyped settings rest]
      simp only [map_bind, bind_map_left, map_pure, Yul.Stmt.listUntyped_append]

/-- Without typed declarations the cases of a switch are walked in the same way. -/
theorem caseArms_untyped (settings : Settings) :
    ∀ cases, caseArms settings.untyped cases = caseUntyped <$> caseArms settings cases
  | [] => by rfl
  | (label, body) :: rest => by
      rw [caseArms, caseArms, statements_untyped settings body, braces_untyped, caseArms_untyped settings rest,
        map_bind]
      refine bind_congr fun label => ?_
      rw [map_bind]
      refine bind_congr fun isNew => ?_
      cases isNew with
      | true =>
        simp only [if_true, map_bind, bind_map_left, map_pure]
        rfl
      | false => rfl

end

end Walk

/-- Without typed declarations the walk of a program gives the same code without types, and ends in the same
    state. -/
theorem Tree.Program.walk_untyped (settings : Settings) (tree : Tree.Program) :
    tree.walk settings.untyped = (fun result => (result.1.untyped, result.2)) <$> tree.walk settings := by
  rw [Tree.Program.walk, Walk.statements_untyped, Walk.braces_untyped, StateT.run_map]
  rfl

/-! ### Declarations with a type -/

/-- Whether the statement is a declaration with a type. -/
def Tree.Stmt.hasType : Tree.Stmt → Bool
  | .declare (some _) _ => true
  | _ => false

/-- The lines made for the next statement, if it is a declaration with a type. -/
def Walk.Point.typedLines (settings : Settings) (p : Point) : List String :=
  if p.rest.head?.any Tree.Stmt.hasType then Yul.Stmt.listLines (p.code settings) else []

namespace Lexical

open Yul.Stmt (isTypedLet)

variable {settings : Settings}

/-- Only a declaration with a type becomes one. -/
theorem statement_isTypedLet (typed : settings.typedDeclarations = true) (env : Env) (stmt : Tree.Stmt)
    (t : Thread) : ∀ made ∈ (statement settings env stmt t).1.1, isTypedLet made = stmt.hasType := by
  cases stmt with
  | declare type value =>
      have same : isTypedLet (declareVariable settings env type value t).1 = type.isSome := by
        rw [declareVariable]
        cases type <;> simp [ascription, typed, isTypedLet]
      cases type <;> exact List.forall_mem_singleton.2 same
  | assign target value =>
      have same : isTypedLet (assign settings.seed env target value t).1 = false := by
        simp only [assign, bind_run]
        cases env.resolve target <;> rfl
      exact List.forall_mem_singleton.2 same
  | call usage selector args targets =>
      have same : isTypedLet (callStatement settings.seed env usage selector args targets t).1.1 = false := by
        unfold callStatement
        cases env.callee? usage selector with
        | none => rfl
        | some callee => cases usage <;> rfl
      exact List.forall_mem_singleton.2 same
  | switch scrutinee cases default =>
      by_cases empty : (cases.isEmpty && default.isNone) = true
      · rw [statement, if_pos empty]
        exact List.forall_mem_nil _
      · rw [statement_switch settings env scrutinee empty]
        exact List.forall_mem_singleton.2 rfl
  | define inputs outputs body =>
      by_cases forbidden : env.inLoopInit = true
      · rw [statement_define_forbidden settings forbidden]
        exact List.forall_mem_nil _
      · rw [statement_define settings forbidden]
        have call := callAfterDefinition_typedLets (env.define (t.defined inputs outputs))
          (t.defined inputs outputs)
        exact List.forall_mem_cons.2 ⟨rfl, List.forall_mem_singleton.2 (call _).2⟩
  | breakLoop | continueLoop =>
      rw [statement, loopControl]
      split
      · exact List.forall_mem_singleton.2 rfl
      · exact List.forall_mem_nil _
  | ifThen | forLoop | boundedFor | store | block | log | copy | extCodeCopy | halt | exit | selfDestruct
  | pop => exact List.forall_mem_singleton.2 rfl

/-- At a point the lines with a type are those of the declarations with a type. -/
theorem Stands.typedLines {p : Walk.Point} (stands : Stands p) (typed : settings.typedDeclarations = true) :
    Yul.Stmt.listLines ((p.code settings).filter isTypedLet) = p.typedLines settings := by
  obtain @⟨context, _, env, site, rest, left, t⟩ := stands
  cases rest with
  | nil => rfl
  | cons stmt rest =>
      have made := statement_isTypedLet typed env stmt t
      rw [site.code_eq, Walk.Point.typedLines, List.head?_cons, Option.any_some, site.code_eq]
      cases has : stmt.hasType with
      | true =>
          rw [if_pos rfl, List.filter_eq_self.2 fun single member => (made single member).trans has]
      | false =>
          rw [if_neg Bool.false_ne_true, List.filter_eq_nil_iff.2]
          · rfl
          · intro single member
            rw [made single member, has]
            exact Bool.false_ne_true

/-- At points the lines with a type are those of the declarations with a type. -/
theorem typedLines_of_stands (settings : Settings) (typed : settings.typedDeclarations = true) :
    ∀ points : List Walk.Point, (∀ p ∈ points, Stands p) →
      Yul.Stmt.listLines (points.flatMap fun p => (p.code settings).filter isTypedLet) =
        points.flatMap (Walk.Point.typedLines settings)
  | [], _ => rfl
  | p :: points, stands => by
      have here := (stands p List.mem_cons_self).typedLines typed
      have later := typedLines_of_stands settings typed points fun q member =>
        stands q (List.mem_cons_of_mem _ member)
      rw [List.flatMap_cons, List.flatMap_cons, Layout.listLines_append, here, later]

end Lexical

/-- Typed declarations only add the types. Every program is generated with and without them, with the same
    counters. The text without them is the typed text without its types, that is, without each colon that the
    name of a type follows, and without this name. The lines of the typed text that have a type are, in order,
    those made for the declarations of the tree that have a type. -/
theorem generate_typed (dictionary : Dictionary) (inputSize : Option UInt64) (tree : Tree.Program) :
    ∃ typed plain, tree.generate ⟨dictionary, inputSize, true⟩ = .ok typed ∧
      tree.generate ⟨dictionary, inputSize, false⟩ = .ok plain ∧
      Layout.deleteTypes typed.yul = plain.yul ∧ typed.stats = plain.stats ∧
      Layout.annotatedLines (Layout.linesOf typed.yul) =
        ((tree.points ⟨dictionary, inputSize, true⟩).flatMap
          (Walk.Point.typedLines ⟨dictionary, inputSize, true⟩)).map String.toList := by
  let settings : Settings := ⟨dictionary, inputSize, true⟩
  obtain ⟨left, walked, generated⟩ := Lexical.generate_eq_walk settings tree
  have valid := Lexical.program_valid settings tree
  let final := ({} : Lexical.Frame).state left {} (Lexical.program settings tree).2
  have plain : tree.generate settings.untyped =
      .ok ⟨(Lexical.program settings tree).1.untyped.render, .ofState final⟩ := by
    rw [Tree.Program.generate, tree.walk_untyped, walked]
    rfl
  have lines := Lexical.typedLines_of_stands settings rfl _ (Lexical.program_stands settings tree)
  refine ⟨_, _, generated, plain, Layout.deleteTypes_render valid, rfl, ?_⟩
  rw [Layout.annotatedLines_render valid, (Lexical.program_tallied settings tree).lets, lines]

end YulFuzz
