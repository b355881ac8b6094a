/-
Module: YulFuzz.Proofs.NormalForm
Purpose: The normal form of a tree, in which everything is cut off that no generation looks at: characters that
  no literal keeps, arguments, topics and targets beyond the bounds, multiples of the arity bound, and the
  fields of calls that do not matter where the call stands. A tree and its normal form give the same
  generation. The bound on arities is what makes arguments superfluous, so the two walks are compared on the
  states in which every callable function keeps to it.
Main exports: Tree.Program.normal, Walk.State.KeepsArity, Walk.Alike, Walk.statement_normal, generate_normal
-/
import YulFuzz.Proofs.Safety

namespace YulFuzz

/-! ### Normal forms -/

namespace Tree

/-- The first characters of a kind in a text, at most `bound`. -/
def firstOf (kind : Char → Bool) (bound : Nat) (raw : String) : String :=
  String.ofList ((raw.toList.filter kind).take bound)

/-- Exactly `wanted` expressions: further ones are cut off, missing ones are left to the dictionary. -/
def exactly (wanted : Nat) (exprs : List Expr) : List Expr :=
  exprs.take wanted ++ List.replicate (wanted - exprs.length) .unset

/-- The normal form of a literal. -/
def Literal.normal : Literal → Literal
  | .int value => .int value
  | .hex raw => .hex (firstOf Char.isHexDigit 64 raw)
  | .str raw => .str (firstOf Char.isAlphanum 32 raw)
  | .unset => .unset

mutual

/-- The normal form of an expression. -/
def Expr.normal : Expr → Expr
  | .varRef number => .varRef number
  | .literal node => .literal node.normal
  | .binary op left right => .binary op left.normal right.normal
  | .unary op operand => .unary op operand.normal
  | .ternary op first second third => .ternary op first.normal second.normal third.normal
  | .nullary op => .nullary op
  | .call _ selector args _ => .call .single selector (exactly 5 (Expr.normalAll args)) []
  | .unset => .unset

/-- The normal forms of the expressions of a list. -/
def Expr.normalAll : List Expr → List Expr
  | [] => []
  | expr :: rest => expr.normal :: Expr.normalAll rest

end

/-- The normal form of a call statement. A statement that asks for a single value never calls anything. -/
def Stmt.normalCall (usage : CallUsage) (selector : UInt32) (args : List Expr) (targets : List UInt32) :
    Stmt :=
  match usage with
  | .none => .call .none selector (exactly 5 (Expr.normalAll args)) []
  | .single => .call .single 0 [] []
  | .multiDecl => .call .multiDecl selector (exactly 5 (Expr.normalAll args)) []
  | .multiAssign => .call .multiAssign selector (exactly 5 (Expr.normalAll args)) (targets.take 5)

mutual

/-- The normal form of a statement. -/
def Stmt.normal : Stmt → Stmt
  | .declare type value => .declare type value.normal
  | .assign target value => .assign target value.normal
  | .ifThen cond body => .ifThen cond.normal (Stmt.normalAll body)
  | .store op location value => .store op location.normal value.normal
  | .block body => .block (Stmt.normalAll body)
  | .forLoop init cond post body =>
    .forLoop (Stmt.normalAll init) cond.normal (Stmt.normalAll post) (Stmt.normalAll body)
  | .boundedFor body => .boundedFor (Stmt.normalAll body)
  | .switch scrutinee cases default =>
    .switch scrutinee.normal (Stmt.normalCases cases)
      (match default with
      | none => none
      | some body => some (Stmt.normalAll body))
  | .breakLoop => .breakLoop
  | .continueLoop => .continueLoop
  | .log position size topics => .log position.normal size.normal ((Expr.normalAll topics).take 4)
  | .copy region target source size => .copy region target.normal source.normal size.normal
  | .extCodeCopy address target source size =>
    .extCodeCopy address.normal target.normal source.normal size.normal
  | .halt op => .halt op
  | .exit op position size => .exit op position.normal size.normal
  | .selfDestruct address => .selfDestruct address.normal
  | .call usage selector args targets => Stmt.normalCall usage selector args targets
  | .define inputs outputs body => .define (inputs % 6) (outputs % 6) (Stmt.normalAll body)
  | .pop value => .pop value.normal

/-- The normal forms of the statements of a block. -/
def Stmt.normalAll : List Stmt → List Stmt
  | [] => []
  | stmt :: rest => stmt.normal :: Stmt.normalAll rest

/-- The normal forms of the cases of a switch. -/
def Stmt.normalCases : List (Literal × List Stmt) → List (Literal × List Stmt)
  | [] => []
  | (label, body) :: rest => (label.normal, Stmt.normalAll body) :: Stmt.normalCases rest

end

/-- The normal form of a program. -/
def Program.normal (program : Program) : Program := ⟨Stmt.normalAll program.block⟩

end Tree

namespace Walk

open YulFuzz.Tree (exactly)

variable {α β : Type}

/-! ### Walks that agree wherever all functions keep to the arity bound -/

/-- Every function that can be called keeps to the arity bound. -/
def State.KeepsArity (s : State) : Prop :=
  ∀ kind, ∀ callable ∈ s.functions.candidates kind, callable.inputs ≤ maxArity ∧ callable.outputs ≤ maxArity

/-- Two walks do the same from every state whose functions keep to the arity bound, and end in such a state. -/
def Alike (walk other : Walk α) : Prop :=
  ∀ s : State, s.KeepsArity → walk s = other s ∧ ∀ a s', other s = .ok (a, s') → s'.KeepsArity

namespace Alike

theorem pure (a : α) : Alike (Pure.pure a) (Pure.pure a) := by
  intro s keeps
  refine ⟨rfl, ?_⟩
  rintro _ _ ⟨⟩
  exact keeps

theorem bind {walk other : Walk α} {next after : α → Walk β} (first : Alike walk other)
    (then_ : ∀ a, Alike (next a) (after a)) : Alike (walk >>= next) (other >>= after) := by
  intro s keeps
  obtain ⟨same, inside⟩ := first s keeps
  change (walk s >>= fun result => next result.1 result.2) =
      (other s >>= fun result => after result.1 result.2) ∧
    ∀ a s', (other s >>= fun result => after result.1 result.2) = .ok (a, s') → s'.KeepsArity
  rw [same]
  cases ran : other s with
  | error fault => exact ⟨rfl, nofun⟩
  | ok result => exact then_ result.1 result.2 (inside _ _ ran)

/-- Going on by the state. -/
theorem get {next after : State → Walk β} (then_ : ∀ s : State, s.KeepsArity → Alike (next s) (after s)) :
    Alike (MonadState.get >>= next) (MonadState.get >>= after) :=
  fun s keeps => then_ s keeps s keeps

/-- Going on by the answer of an operation of the bookkeeping. -/
theorem lift {γ : Type} {operation : Except Fault γ} {next after : γ → Walk β}
    (then_ : ∀ answer, operation = .ok answer → Alike (next answer) (after answer)) :
    Alike (liftM operation >>= next) (liftM operation >>= after) := by
  intro s keeps
  cases answered : operation with
  | error fault => exact ⟨rfl, nofun⟩
  | ok answer => exact then_ answer answered s keeps

/-- A change of the state that keeps to the arity bound. -/
theorem changing {f : State → State} (kept : ∀ s : State, s.KeepsArity → (f s).KeepsArity) :
    Alike (modify f : Walk PUnit) (modify f) := by
  intro s keeps
  refine ⟨rfl, ?_⟩
  rintro _ _ ⟨⟩
  exact kept s keeps

theorem setting {s : State} (keeps : s.KeepsArity) : Alike (set s : Walk PUnit) (set s) :=
  changing fun _ _ => keeps

theorem count (f : Counters → Counters) : Alike (Walk.count f) (Walk.count f) :=
  changing fun _ keeps => keeps

theorem throwing (fault : Fault) : Alike (throw fault : Walk α) (throw fault) :=
  fun _ _ => ⟨rfl, nofun⟩

theorem drawToken (seed : Seed) : Alike (Walk.drawToken seed) (Walk.drawToken seed) :=
  get fun _ keeps => bind (setting keeps) fun _ => pure _

theorem tokenExpr (seed : Seed) : Alike (Walk.tokenExpr seed) (Walk.tokenExpr seed) :=
  (drawToken seed).bind fun _ => pure _

theorem tokenExprs (seed : Seed) (wanted : Nat) :
    Alike (Walk.tokenExprs seed wanted) (Walk.tokenExprs seed wanted) := by
  induction wanted with
  | zero => exact pure _
  | succ wanted ih => exact (tokenExpr seed).bind fun _ => ih.bind fun _ => pure _

theorem declare (count : Nat) : Alike (Walk.declare count) (Walk.declare count) :=
  get fun _ keeps => bind (setting keeps) fun _ => pure _

theorem resolve (number : UInt32) : Alike (Walk.resolve number) (Walk.resolve number) :=
  get fun _ _ => lift fun _ _ => pure _

theorem recordLabel (value : Word) : Alike (Walk.recordLabel value) (Walk.recordLabel value) :=
  get fun _ keeps => lift fun _ _ => bind (setting keeps) fun _ => pure _

/-- The functions that are callable after a scope were callable in it. -/
theorem inScope {walk other : Walk α} (inside : Alike walk other) :
    Alike (Walk.inScope walk) (Walk.inScope other) := by
  refine bind (changing fun _ keeps => keeps) fun _ => bind inside fun result => get fun s keeps => ?_
  apply lift
  intro functions left
  apply lift
  intro vars _
  refine bind (setting ?_) fun _ => pure result
  intro kind callable member
  apply keeps kind
  unfold Functions.exitScope at left
  split at left
  · cases left
  · obtain rfl := Except.ok.inj left
    rw [Functions.candidates, PerKind.get_zipWith] at member
    exact List.mem_of_mem_take member

theorem inLoopContext {walk other : Walk α} {inLoopBody inLoopInit : Bool} (inside : Alike walk other) :
    Alike (Walk.inLoopContext inLoopBody inLoopInit walk) (Walk.inLoopContext inLoopBody inLoopInit other) :=
  get fun _ keeps => bind (setting keeps) fun _ => bind inside fun _ =>
    bind (changing fun _ keeps => keeps) fun _ => pure _

theorem inFunctionBody {walk other : Walk α} (inside : Alike walk other) :
    Alike (Walk.inFunctionBody walk) (Walk.inFunctionBody other) := by
  apply inLoopContext
  apply inScope
  exact bind (changing fun _ keeps => keeps) fun _ => bind inside fun _ =>
    get fun _ keeps => lift fun _ _ => bind (setting keeps) fun _ => pure _

theorem inBoundedLoop {walk other : Nat → Walk α} (inside : ∀ depth, Alike (walk depth) (other depth)) :
    Alike (Walk.inBoundedLoop walk) (Walk.inBoundedLoop other) :=
  get fun s _ => bind (changing fun _ keeps => keeps) fun _ => bind (inside s.loopDepth) fun _ =>
    bind (changing fun _ keeps => keeps) fun _ => pure _

theorem inSwitch {walk other : Walk α} (inside : Alike walk other) :
    Alike (Walk.inSwitch walk) (Walk.inSwitch other) :=
  bind (changing fun _ keeps => keeps) fun _ => bind inside fun _ =>
    get fun _ keeps => lift fun _ _ => bind (setting keeps) fun _ => pure _

theorem braces {walk other : Walk (List Yul.Stmt)} (isEmpty : Bool) (inside : Alike walk other) :
    Alike (Walk.braces isEmpty walk) (Walk.braces isEmpty other) := by
  cases isEmpty with
  | true => exact pure _
  | false => exact inScope (bind inside fun _ => pure _)

/-- Going on by what a walk has read. -/
theorem reading {γ : Type} {walk : Walk γ} {next after : γ → Walk β} {Fits : γ → Prop}
    (reads : ∀ s : State, s.KeepsArity → ∀ a s', walk s = .ok (a, s') → s' = s ∧ Fits a)
    (then_ : ∀ a, Fits a → Alike (next a) (after a)) : Alike (walk >>= next) (walk >>= after) := by
  intro s keeps
  change (walk s >>= fun result => next result.1 result.2) =
      (walk s >>= fun result => after result.1 result.2) ∧
    ∀ a s', (walk s >>= fun result => after result.1 result.2) = .ok (a, s') → s'.KeepsArity
  cases ran : walk s with
  | error fault => exact ⟨rfl, nofun⟩
  | ok result =>
      obtain ⟨same, fits⟩ := reads s keeps _ _ ran
      exact then_ result.1 fits result.2 (same ▸ keeps)

end Alike

/-! ### Literals and expressions -/

/-- What is first of its kind is so again. -/
theorem firstOf_again (kind : Char → Bool) (bound : Nat) (raw : String) :
    (((Tree.firstOf kind bound raw).toList.filter kind).take bound) = (raw.toList.filter kind).take bound := by
  have kept : ((raw.toList.filter kind).take bound).filter kind = (raw.toList.filter kind).take bound :=
    List.filter_eq_self.2 fun c member => (List.mem_filter.1 (List.mem_of_mem_take member)).2
  rw [Tree.firstOf, String.toList_ofList, kept, List.take_take, Nat.min_self]

theorem literal_normal (seed : Seed) (node : Tree.Literal) : literal seed node.normal = literal seed node := by
  cases node with
  | int value | unset => rfl
  | hex raw =>
      have digits : hexDigits (Tree.firstOf Char.isHexDigit 64 raw) = hexDigits raw := firstOf_again ..
      rw [Tree.Literal.normal, literal, literal, digits]
  | str raw =>
      have characters : alphanumerics (Tree.firstOf Char.isAlphanum 32 raw) = alphanumerics raw :=
        congrArg String.ofList (firstOf_again ..)
      rw [Tree.Literal.normal, literal, literal, characters]

theorem literal_alike (seed : Seed) (node : Tree.Literal) : Alike (literal seed node) (literal seed node) := by
  cases node with
  | int value | str raw => exact .pure _
  | unset => exact .bind (.drawToken seed) fun _ => .pure _
  | hex raw =>
      have rest (digits : List Char) : Alike (do
          let digits := evenly digits
          if Word.digitCount < digits.length then throw .hexTooLong
          return Yul.Literal.hex (String.ofList digits)) (do
          let digits := evenly digits
          if Word.digitCount < digits.length then throw .hexTooLong
          return Yul.Literal.hex (String.ofList digits)) := by
        dsimp only
        split
        · exact .bind (.throwing _) fun _ => .pure _
        · exact .pure _
      rw [literal]
      cases hexDigits raw with
      | nil => exact .bind (.bind (.drawToken seed) fun _ => .pure _) rest
      | cons first others => exact .bind (.pure _) rest

theorem arguments_zero (seed : Seed) (args : List Tree.Expr) : arguments seed 0 args = pure [] := by
  cases args with
  | nil | cons => rfl

/-- Arguments that are left to the dictionary are as good as missing ones. -/
theorem arguments_unset (seed : Seed) {wanted bound : Nat} (enough : wanted ≤ bound) :
    arguments seed wanted (List.replicate bound .unset) = tokenExprs seed wanted := by
  induction bound generalizing wanted with
  | zero =>
      obtain rfl := Nat.le_zero.1 enough
      rfl
  | succ bound ih =>
      cases wanted with
      | zero => rfl
      | succ wanted =>
          rw [List.replicate_succ, arguments, tokenExprs, expression, ih (Nat.le_of_succ_le_succ enough)]

mutual

/-- An expression and its normal form are walked alike. -/
theorem expression_normal (seed : Seed) : ∀ expr, Alike (expression seed expr.normal) (expression seed expr)
  | .varRef number => by
      refine .bind (.resolve number) fun found => ?_
      cases found with
      | none => exact .tokenExpr seed
      | some var => exact .pure _
  | .literal node => by
      rw [Tree.Expr.normal, expression, expression, literal_normal]
      exact .bind (literal_alike seed node) fun _ => .pure _
  | .binary op left right => by
      rw [Tree.Expr.normal, expression, expression]
      exact .bind (expression_normal seed left) fun _ => .bind (expression_normal seed right) fun _ => .pure _
  | .unary op operand => by
      rw [Tree.Expr.normal, expression, expression]
      exact .bind (expression_normal seed operand) fun _ => .pure _
  | .ternary op first second third => by
      rw [Tree.Expr.normal, expression, expression]
      exact .bind (expression_normal seed first) fun _ => .bind (expression_normal seed second) fun _ =>
        .bind (expression_normal seed third) fun _ => .pure _
  | .nullary op => .pure _
  | .call usage selector args targets => by
      rw [Tree.Expr.normal, expression, expression]
      refine .get fun s keeps => ?_
      cases picked : s.functions.pick .singleReturn selector.toNat with
      | none => exact .bind (.count _) fun _ => .tokenExpr seed
      | some callee =>
          have arity := (keeps .singleReturn callee (Functions.mem_of_pick picked)).1
          exact .bind (.count _) fun _ => .bind (arguments_normal seed callee.inputs args arity) fun _ => .pure _
  | .unset => .tokenExpr seed

/-- Within a bound the arguments of a call and their normal forms, exactly as many as the bound, are walked
    alike. -/
theorem arguments_normal (seed : Seed) : ∀ (wanted : Nat) {bound : Nat} (args : List Tree.Expr),
    wanted ≤ bound → Alike (arguments seed wanted (exactly bound (Tree.Expr.normalAll args)))
      (arguments seed wanted args)
  | wanted, bound, [], enough => by
      have missing : exactly bound (Tree.Expr.normalAll []) = List.replicate bound .unset := by
        simp [exactly, Tree.Expr.normalAll]
      rw [missing, arguments_unset seed enough, arguments]
      exact .tokenExprs seed wanted
  | 0, bound, arg :: args, _ => by
      rw [arguments_zero, arguments_zero]
      exact .pure _
  | wanted + 1, bound + 1, arg :: args, enough => by
      have split : exactly (bound + 1) (Tree.Expr.normalAll (arg :: args)) =
          arg.normal :: exactly bound (Tree.Expr.normalAll args) := by
        simp [exactly, Tree.Expr.normalAll]
      rw [split, arguments, arguments]
      exact .bind (expression_normal seed arg) fun _ =>
        .bind (arguments_normal seed wanted args (Nat.le_of_succ_le_succ enough)) fun _ => .pure _

end

theorem expressions_normal (seed : Seed) (exprs : List Tree.Expr) :
    Alike (expressions seed (Tree.Expr.normalAll exprs)) (expressions seed exprs) := by
  induction exprs with
  | nil => exact .pure _
  | cons expr rest ih => exact .bind (expression_normal seed expr) fun _ => .bind ih fun _ => .pure _

/-! ### Calls -/

/-- Whether a function is what a call statement with a usage calls: it keeps to the arity bound, and a single
    value is never asked for. -/
def Callee (usage : Tree.CallUsage) (callee : Callable) : Prop :=
  usage ≠ .single ∧ callee.inputs ≤ maxArity ∧ callee.outputs ≤ maxArity

/-- The walk reads the function to call from the state. -/
theorem callee?_eq {s : State} {visible : Nat} (shown : s.vars.visible = .ok visible)
    (usage : Tree.CallUsage) (selector : UInt32) :
    callee? usage selector s =
      .ok (if !s.functions.callIsPossible usage (0 < visible) then none
        else match usage with
          | .none => s.functions.pick .noReturn selector.toNat
          | .single => none
          | .multiDecl => s.functions.pick .multiReturn selector.toNat
          | .multiAssign => s.functions.pickMultiWithin selector.toNat visible, s) := by
  unfold callee?
  rw [Lexical.bind_of_ok (a := s) (r := s) rfl, Lexical.bind_of_ok (Lexical.lift_of_ok shown s)]
  split
  · rfl
  · cases usage <;> rfl

theorem callee?_reads {usage : Tree.CallUsage} {selector : UInt32} (s : State) (keeps : s.KeepsArity)
    (found : Option Callable) (s' : State) (ran : callee? usage selector s = .ok (found, s')) :
    s' = s ∧ ∀ callee ∈ found, Callee usage callee := by
  cases shown : s.vars.visible with
  | error fault =>
      have failed : callee? usage selector s = .error fault := by
        unfold callee?
        rw [Lexical.bind_of_ok (a := s) (r := s) rfl, shown]
        rfl
      rw [failed] at ran
      cases ran
  | ok visible =>
      rw [callee?_eq shown] at ran
      obtain ⟨rfl, rfl⟩ := Prod.mk.inj (Except.ok.inj ran)
      refine ⟨rfl, fun callee picked => ?_⟩
      split at picked
      · cases picked
      · cases usage with
        | none => exact ⟨nofun, keeps _ _ (Functions.mem_of_pick picked)⟩
        | single => cases picked
        | multiDecl => exact ⟨nofun, keeps _ _ (Functions.mem_of_pick picked)⟩
        | multiAssign => exact ⟨nofun, keeps _ _ (Functions.mem_of_pickMultiWithin picked).1⟩

/-- Only as many requests count as there are targets. -/
theorem assignmentSlots_take {visible bound : Nat} {requests : List Nat} {used : List Nat} {place count : Nat}
    (within : place + count ≤ bound) :
    assignmentSlots visible (requests.take bound) used place count =
      assignmentSlots visible requests used place count := by
  induction count generalizing used place with
  | zero => rfl
  | succ count ih =>
      have here : (requests.take bound)[place]? = requests[place]? :=
        List.getElem?_take_of_lt (by omega)
      simp only [assignmentSlots, here, ih (show place + 1 + count ≤ bound by omega)]

theorem assignmentTargets_take {bound wanted : Nat} (requests : List UInt32) (within : wanted ≤ bound) :
    assignmentTargets (requests.take bound) wanted = assignmentTargets requests wanted := by
  unfold assignmentTargets
  simp only [List.map_take, assignmentSlots_take (show 0 + wanted ≤ bound by omega)]

theorem assignmentTargets_alike (requests : List UInt32) (wanted : Nat) :
    Alike (assignmentTargets requests wanted) (assignmentTargets requests wanted) := by
  unfold assignmentTargets
  refine .get fun s _ => .lift fun visible _ => ?_
  dsimp only
  by_cases few : visible < wanted
  · rw [if_pos few]
    exact .throwing _
  · rw [if_neg few]
    cases assignmentSlots visible (requests.map UInt32.toNat) [] 0 wanted with
    | none => exact .throwing _
    | some slots => exact .pure _

theorem call_normal (seed : Seed) {callee : Callable} (arity : callee.inputs ≤ maxArity)
    (args : List Tree.Expr) :
    Alike (call seed callee (exactly 5 (Tree.Expr.normalAll args))) (call seed callee args) :=
  .bind (.count _) fun _ => .bind (arguments_normal seed callee.inputs args arity) fun _ => .pure _

theorem callFallback_alike (seed : Seed) : Alike (callFallback seed) (callFallback seed) :=
  .bind (.count _) fun _ => .bind (.tokenExpr seed) fun _ => .pure _

/-- Call statements are walked alike that call the same function with arguments walked alike, and assign its
    results, if any are assigned, to the same targets. -/
theorem callStatement_alike (seed : Seed) {usage : Tree.CallUsage} {selector selector' : UInt32}
    {args args' : List Tree.Expr} {targets targets' : List UInt32}
    (same : callee? usage selector' = callee? usage selector)
    (calls : ∀ callee, Callee usage callee → Alike (call seed callee args') (call seed callee args))
    (assigns : ∀ callee, Callee usage callee → usage = .multiAssign →
      assignmentTargets targets' callee.outputs = assignmentTargets targets callee.outputs) :
    Alike (callStatement seed usage selector' args' targets')
      (callStatement seed usage selector args targets) := by
  unfold callStatement
  rw [same]
  refine .reading callee?_reads fun found fits => ?_
  cases found with
  | none => exact callFallback_alike seed
  | some callee =>
      have fits := fits callee rfl
      cases usage with
      | none | single => exact .bind (calls callee fits) fun _ => .pure _
      | multiDecl => exact .bind (calls callee fits) fun _ => .bind (.declare _) fun _ => .pure _
      | multiAssign =>
          dsimp only
          rw [assigns callee fits rfl]
          exact .bind (assignmentTargets_alike targets _) fun _ => .bind (calls callee fits) fun _ => .pure _

theorem callAfterDefinition_alike (name : FunctionName) (inputs outputs : Nat) :
    Alike (callAfterDefinition name inputs outputs) (callAfterDefinition name inputs outputs) := by
  refine .bind (.count _) fun _ => ?_
  dsimp only
  split
  · exact .pure _
  · exact .inScope (.bind (.declare _) fun _ => .pure _)

/-! ### Statements -/

theorem declareVariable_normal (settings : Settings) (type : Option TypeName) (value : Tree.Expr) :
    Alike (declareVariable settings type value.normal) (declareVariable settings type value) := by
  refine .bind (expression_normal settings.seed value) fun result => .get fun s keeps =>
    .bind (.setting keeps) fun _ => ?_
  -- A number literal stays one, so it carries the type as before.
  cases value with
  | literal node => cases node <;> exact .pure _
  | varRef | binary | unary | ternary | nullary | call | unset => exact .pure _

theorem assign_normal (seed : Seed) (target : UInt32) (value : Tree.Expr) :
    Alike (assign seed target value.normal) (assign seed target value) := by
  refine .bind (.resolve target) fun found => ?_
  cases found with
  | none | some => exact .bind (expression_normal seed value) fun _ => .pure _

theorem loopControl_alike (control : Yul.Stmt) : Alike (loopControl control) (loopControl control) := by
  refine .get fun s _ => ?_
  split
  · exact .pure _
  · exact .bind (.count _) fun _ => .pure _

theorem builtinStatement_normal (seed : Seed) (builtin : Builtin) (args : List Tree.Expr) :
    Alike (builtinStatement seed builtin (Tree.Expr.normalAll args)) (builtinStatement seed builtin args) :=
  .bind (expressions_normal seed args) fun _ => .pure _

/-- Among the topics of a normal form are those that count. -/
theorem take_normalAll (count : Nat) (exprs : List Tree.Expr) :
    (Tree.Expr.normalAll exprs).take count = Tree.Expr.normalAll (exprs.take count) := by
  induction exprs generalizing count with
  | nil => simp [Tree.Expr.normalAll]
  | cons expr rest ih =>
      cases count with
      | zero => rfl
      | succ count => simp [Tree.Expr.normalAll, ih]

theorem length_normalAll (exprs : List Tree.Expr) : (Tree.Expr.normalAll exprs).length = exprs.length := by
  induction exprs with
  | nil => rfl
  | cons expr rest ih => simp [Tree.Expr.normalAll, ih]

@[simp] theorem isEmpty_normalAll (body : List Tree.Stmt) :
    (Tree.Stmt.normalAll body).isEmpty = body.isEmpty := by
  cases body <;> rfl

@[simp] theorem isEmpty_normalCases (cases : List (Tree.Literal × List Tree.Stmt)) :
    (Tree.Stmt.normalCases cases).isEmpty = cases.isEmpty := by
  cases cases <;> rfl

theorem braces_normal (settings : Settings) (body : List Tree.Stmt)
    (inside : Alike (statements settings (Tree.Stmt.normalAll body)) (statements settings body)) :
    Alike (braces (Tree.Stmt.normalAll body).isEmpty (statements settings (Tree.Stmt.normalAll body)))
      (braces body.isEmpty (statements settings body)) := by
  rw [isEmpty_normalAll]
  exact .braces _ inside

/-- A function that is registered keeps to the arity bound. -/
theorem State.KeepsArity.register {s : State} (keeps : s.KeepsArity) {inputs outputs : Nat}
    {name : FunctionName} {functions : Functions}
    (registered : s.functions.register inputs outputs = .ok (name, functions)) :
    { s with functions }.KeepsArity := by
  unfold Functions.register at registered
  split at registered
  · rename_i bounds
    obtain ⟨-, rfl⟩ := Prod.mk.inj (Except.ok.inj registered)
    intro kind callable member
    by_cases same : kind = FunctionKind.ofOutputs outputs
    · subst same
      rw [Functions.candidates, PerKind.get_modify_self, List.mem_append, List.mem_singleton] at member
      rcases member with old | rfl
      · exact keeps _ callable old
      · exact bounds
    · rw [Functions.candidates, PerKind.get_modify_of_ne _ _ same] at member
      exact keeps kind callable member
  · cases registered

/-- A call statement and its normal form are walked alike. What asks for a single value calls nothing, so all
    else does not matter. -/
theorem statement_normalCall (settings : Settings) (usage : Tree.CallUsage) (selector : UInt32)
    (args : List Tree.Expr) (targets : List UInt32) :
    Alike (statement settings (Tree.Stmt.normalCall usage selector args targets))
      (statement settings (.call usage selector args targets)) := by
  have calls (callee : Callable) (fits : Callee usage callee) :=
    call_normal settings.seed fits.2.1 args
  cases usage with
  | none | multiDecl =>
      rw [Tree.Stmt.normalCall, statement, statement]
      exact .bind (callStatement_alike settings.seed rfl calls nofun) fun _ => .pure _
  | single =>
      rw [Tree.Stmt.normalCall, statement, statement]
      exact .bind (callStatement_alike settings.seed rfl (fun _ fits => absurd rfl fits.1) nofun) fun _ => .pure _
  | multiAssign =>
      rw [Tree.Stmt.normalCall, statement, statement]
      refine .bind (callStatement_alike settings.seed rfl calls fun callee fits _ => ?_) fun _ => .pure _
      exact assignmentTargets_take targets fits.2.2

/-- Topics and their normal forms are walked alike. -/
theorem statement_log_normal (settings : Settings) (position size : Tree.Expr) (topics : List Tree.Expr) :
    Alike (statement settings (.log position.normal size.normal ((Tree.Expr.normalAll topics).take 4)))
      (statement settings (.log position size topics)) := by
  rw [statement, statement, take_normalAll, take_normalAll, List.take_take, length_normalAll]
  exact builtinStatement_normal settings.seed _ (position :: size :: topics.take maxTopics)

mutual

/-- A statement and its normal form are walked alike. -/
theorem statement_normal (settings : Settings) :
    ∀ stmt, Alike (statement settings stmt.normal) (statement settings stmt)
  | .declare type value => by
      rw [Tree.Stmt.normal, statement, statement]
      exact .bind (declareVariable_normal settings type value) fun _ => .pure _
  | .assign target value => by
      rw [Tree.Stmt.normal, statement, statement]
      exact .bind (assign_normal settings.seed target value) fun _ => .pure _
  | .ifThen cond body => by
      rw [Tree.Stmt.normal, statement, statement]
      exact .bind (expression_normal settings.seed cond) fun _ =>
        .bind (braces_normal settings body (statements_normal settings body)) fun _ => .pure _
  | .store op location value => builtinStatement_normal settings.seed _ [location, value]
  | .block body => by
      rw [Tree.Stmt.normal, statement, statement]
      exact .bind (braces_normal settings body (statements_normal settings body)) fun _ => .pure _
  | .forLoop init cond post body => by
      rw [Tree.Stmt.normal, statement, statement]
      apply Alike.inScope
      refine .bind (.inLoopContext ?_) fun _ => .bind (expression_normal settings.seed cond) fun _ =>
        .bind (.inLoopContext (braces_normal settings post (statements_normal settings post))) fun _ =>
        .bind (.inLoopContext (braces_normal settings body (statements_normal settings body))) fun _ => .pure _
      rw [isEmpty_normalAll]
      split
      · exact .pure _
      · exact .bind (statements_normal settings init) fun _ => .pure _
  | .boundedFor body => by
      rw [Tree.Stmt.normal, statement, statement]
      exact .inBoundedLoop fun depth =>
        .bind (.inLoopContext (braces_normal settings body (statements_normal settings body))) fun _ => .pure _
  | .switch scrutinee cases none => by
      rw [Tree.Stmt.normal, statement, statement, isEmpty_normalCases]
      split
      · exact .pure _
      · exact .bind (expression_normal settings.seed scrutinee) fun _ =>
          .bind (.inSwitch (caseArms_normal settings cases)) fun _ => .pure _
  | .switch scrutinee cases (some body) => by
      rw [Tree.Stmt.normal, statement, statement, if_neg (by simp), if_neg (by simp)]
      exact .bind (expression_normal settings.seed scrutinee) fun _ =>
        .bind (.inSwitch (caseArms_normal settings cases)) fun _ =>
          .bind (braces_normal settings body (statements_normal settings body)) fun _ => .pure _
  | .breakLoop => loopControl_alike _
  | .continueLoop => loopControl_alike _
  | .log position size topics => statement_log_normal settings position size topics
  | .copy region target source size => builtinStatement_normal settings.seed _ [target, source, size]
  | .extCodeCopy address target source size =>
      builtinStatement_normal settings.seed _ [address, target, source, size]
  | .halt op => .pure _
  | .exit op position size => builtinStatement_normal settings.seed _ [position, size]
  | .selfDestruct address => builtinStatement_normal settings.seed _ [address]
  | .call usage selector args targets => statement_normalCall settings usage selector args targets
  | .define inputs outputs body => by
      rw [Tree.Stmt.normal, statement, statement]
      refine .get fun s _ => ?_
      split
      · exact .bind (.count _) fun _ => .pure _
      · have reduced (count : UInt32) : (count % 6).toNat % (maxArity + 1) = count.toNat % (maxArity + 1) := by
          rw [UInt32.toNat_mod]
          exact Nat.mod_mod ..
        rw [reduced, reduced]
        refine .get fun s keeps => .lift fun registered answered => .bind (.setting ?_) fun _ =>
          .bind (.count _) fun _ => .bind (.inFunctionBody ?_) fun _ =>
          .bind (callAfterDefinition_alike _ _ _) fun _ => .pure _
        · exact keeps.register answered
        · exact .bind (.declare _) fun _ =>
            .bind (braces_normal settings body (statements_normal settings body)) fun _ => .pure _
  | .pop value => builtinStatement_normal settings.seed _ [value]

/-- The statements of a block and their normal forms are walked alike. -/
theorem statements_normal (settings : Settings) :
    ∀ body, Alike (statements settings (Tree.Stmt.normalAll body)) (statements settings body)
  | [] => .pure _
  | stmt :: rest => by
      rw [Tree.Stmt.normalAll, statements, statements]
      exact .bind (statement_normal settings stmt) fun _ => .bind (statements_normal settings rest) fun _ => .pure _

/-- The cases of a switch and their normal forms are walked alike. -/
theorem caseArms_normal (settings : Settings) :
    ∀ cases, Alike (caseArms settings (Tree.Stmt.normalCases cases)) (caseArms settings cases)
  | [] => .pure _
  | (label, body) :: rest => by
      rw [Tree.Stmt.normalCases, caseArms, caseArms, literal_normal]
      refine .bind (literal_alike settings.seed label) fun label => .bind (.recordLabel label.word) fun isNew => ?_
      cases isNew with
      | false => exact .bind (.count _) fun _ => caseArms_normal settings rest
      | true =>
          exact .bind (braces_normal settings body (statements_normal settings body)) fun _ =>
            .bind (caseArms_normal settings rest) fun _ => .pure _

end

/-- At the start nothing can be called. -/
theorem State.keepsArity_initial : ({} : State).KeepsArity := by
  intro kind callable member
  cases kind <;> cases member

end Walk

/-- A tree and its normal form give the same generation: nothing that is cut off has any influence on the text
    or on a counter. -/
theorem generate_normal (settings : Settings) (tree : Tree.Program) :
    tree.normal.generate settings = tree.generate settings := by
  have walked : tree.normal.walk settings = tree.walk settings :=
    (Walk.braces_normal settings tree.block (Walk.statements_normal settings tree.block) {}
      Walk.State.keepsArity_initial).1
  rw [Tree.Program.generate, walked, Tree.Program.generate]

end YulFuzz
