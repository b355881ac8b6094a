/-
Module: YulFuzz.Proofs.Rotation
Purpose: The size of the input only rotates the dictionary. Two seeds with the same first tokens are
  compared on a whole walk: the second walk repeats the first one, step by step, as long as no more tokens are
  drawn than the seeds share. Where the place of a token does not wrap around at 64 bits, an input size and a
  rotation of the dictionary give the same tokens.
Main exports: Dictionary.rotate, Seed.AgreesBelow, Walk.Repeats, Walk.statement_repeats, generate_rotated
-/
import Mathlib.Algebra.Group.Nat.Defs
import YulFuzz.Proofs.Lexical.Refinement

namespace YulFuzz

/-! ### Rotated dictionaries -/

namespace Dictionary

/-- The dictionary that starts at a later place, with the tokens in front of that place at its end. -/
def rotate (d : Dictionary) (places : Nat) : Dictionary where
  tokens := d.tokens.rotate places
  tokens_ne_nil := mt List.rotate_eq_nil_iff.1 d.tokens_ne_nil
  isToken_of_mem := fun token member => d.isToken_of_mem token (List.mem_rotate.1 member)

/-- A rotation moves the index of every token. -/
theorem token_rotate (d : Dictionary) (places index : Nat) :
    (d.rotate places).token index = d.token (places + index) := by
  simp only [token, rotate, List.get_eq_getElem, List.getElem_rotate, List.length_rotate, Nat.mod_add_mod,
    Nat.add_comm places]

end Dictionary

namespace Seed

/-- The first `bound` tokens of the other seed are the same. -/
def AgreesBelow (bound : Nat) (seed other : Seed) : Prop :=
  ∀ drawn < bound, other.token drawn = seed.token drawn

/-- Without wrapping around, the place of a token is the one of the first token plus the tokens drawn. -/
theorem index_of_lt {seed : Seed} {drawn : Nat}
    (unwrapped : seed.inputSize.toNat * seed.inputSize.toNat % 2 ^ 64 + drawn < 2 ^ 64) :
    (seed.index drawn).toNat = seed.inputSize.toNat * seed.inputSize.toNat % 2 ^ 64 + drawn := by
  have small : (UInt64.ofNat drawn).toNat = drawn := UInt64.toNat_ofNat_of_lt' (by
    rw [UInt64.size]
    omega)
  rw [index, UInt64.toNat_add, UInt64.toNat_mul, small, Nat.mod_eq_of_lt unwrapped]

/-- An input size moves all tokens as a rotation of the dictionary does. -/
theorem agreesBelow_rotate (dictionary : Dictionary) (size : UInt64) {bound : Nat}
    (unwrapped : size.toNat * size.toNat % 2 ^ 64 + bound ≤ 2 ^ 64) :
    AgreesBelow bound ⟨dictionary, size⟩
      ⟨dictionary.rotate (size.toNat * size.toNat % 2 ^ 64 % dictionary.tokens.length), 0⟩ := by
  intro drawn below
  have place : (index ⟨dictionary, size⟩ drawn).toNat = _ := index_of_lt (by
    dsimp only
    omega)
  have start : (index ⟨dictionary.rotate (size.toNat * size.toNat % 2 ^ 64 % dictionary.tokens.length), 0⟩
      drawn).toNat = _ := index_of_lt (by
    rw [UInt64.toNat_zero]
    omega)
  rw [token, token, place, start, Dictionary.token_rotate]
  simp [Dictionary.token]

end Seed

/-! ### Walks that repeat another -/

namespace Walk

variable {α β : Type} {bound : Nat} {s : State}

/-- From the state `s` the first walk draws further tokens, and the other one does the same unless more than
    `bound` have been drawn by then. -/
def RepeatsFrom (bound : Nat) (s : State) (walk other : Walk α) : Prop :=
  ∀ a s', walk s = .ok (a, s') → s.drawn ≤ s'.drawn ∧ (s'.drawn ≤ bound → other s = .ok (a, s'))

/-- The other walk does the same from every state. -/
def Repeats (bound : Nat) (walk other : Walk α) : Prop := ∀ s, RepeatsFrom bound s walk other

namespace RepeatsFrom

theorem pure (a : α) : RepeatsFrom bound s (Pure.pure a) (Pure.pure a) := by
  rintro _ _ ⟨⟩
  exact ⟨Nat.le_refl _, fun _ => rfl⟩

/-- Going on by the state. -/
theorem get {next after : State → Walk β} (then_ : RepeatsFrom bound s (next s) (after s)) :
    RepeatsFrom bound s (MonadState.get >>= next) (MonadState.get >>= after) :=
  then_

/-- Going on by the answer of an operation of the bookkeeping. -/
theorem lift {γ : Type} {operation : Except Fault γ} {next after : γ → Walk β}
    (then_ : ∀ answer, RepeatsFrom bound s (next answer) (after answer)) :
    RepeatsFrom bound s (liftM operation >>= next) (liftM operation >>= after) := by
  cases operation with
  | error fault => exact nofun
  | ok answer => exact then_ answer

/-- Setting a state in which no fewer tokens have been drawn. -/
theorem setting {r : State} (grows : s.drawn ≤ r.drawn) : RepeatsFrom bound s (set r : Walk PUnit) (set r) := by
  rintro _ _ ⟨⟩
  exact ⟨grows, fun _ => rfl⟩

/-- A change of the state that draws nothing. -/
theorem changing {f : State → State} (same : (f s).drawn = s.drawn) :
    RepeatsFrom bound s (modify f : Walk PUnit) (modify f) :=
  .setting same.ge

theorem throwing (fault : Fault) : RepeatsFrom bound s (throw fault : Walk α) (throw fault) := nofun

theorem bind {walk other : Walk α} {next after : α → Walk β} (first : RepeatsFrom bound s walk other)
    (then_ : ∀ a, Repeats bound (next a) (after a)) :
    RepeatsFrom bound s (walk >>= next) (other >>= after) := by
  intro b s' ran
  obtain ⟨a, r, here, there⟩ := Lexical.of_bind_eq_ok ran
  obtain ⟨drawn, same⟩ := first a r here
  obtain ⟨further, later⟩ := then_ a r b s' there
  refine ⟨drawn.trans further, fun within => ?_⟩
  rw [Lexical.bind_of_ok (same (further.trans within))]
  exact later within

end RepeatsFrom

namespace Repeats

theorem pure (a : α) : Repeats bound (Pure.pure a) (Pure.pure a) := fun _ => .pure a

theorem bind {walk other : Walk α} {next after : α → Walk β} (first : Repeats bound walk other)
    (then_ : ∀ a, Repeats bound (next a) (after a)) : Repeats bound (walk >>= next) (other >>= after) :=
  fun s => (first s).bind then_

theorem map {walk other : Walk α} (f : α → β) (repeats : Repeats bound walk other) :
    Repeats bound (f <$> walk) (f <$> other) :=
  repeats.bind fun a => pure (f a)

theorem changing {f : State → State} (same : ∀ s, (f s).drawn = s.drawn) :
    Repeats bound (modify f : Walk PUnit) (modify f) :=
  fun s => .changing (same s)

theorem count (f : Counters → Counters) : Repeats bound (Walk.count f) (Walk.count f) :=
  changing fun _ => rfl

/-- Tokens are drawn at the same place, so seeds that agree so far give the same one. -/
theorem drawToken {seed other : Seed} (agrees : seed.AgreesBelow bound other) :
    Repeats bound (Walk.drawToken seed) (Walk.drawToken other) := by
  rintro s _ _ ⟨⟩
  refine ⟨Nat.le_succ _, fun within => ?_⟩
  have token := agrees s.drawn within
  rw [← token]
  rfl

theorem tokenExpr {seed other : Seed} (agrees : seed.AgreesBelow bound other) :
    Repeats bound (Walk.tokenExpr seed) (Walk.tokenExpr other) :=
  (drawToken agrees).bind fun _ => pure _

theorem tokenExprs {seed other : Seed} (agrees : seed.AgreesBelow bound other) (wanted : Nat) :
    Repeats bound (Walk.tokenExprs seed wanted) (Walk.tokenExprs other wanted) := by
  induction wanted with
  | zero => exact pure _
  | succ wanted ih => exact (tokenExpr agrees).bind fun _ => ih.bind fun _ => pure _

theorem declare (count : Nat) : Repeats bound (Walk.declare count) (Walk.declare count) := by
  intro s
  apply RepeatsFrom.get
  exact (RepeatsFrom.setting (Nat.le_refl _)).bind fun _ => pure _

theorem resolve (number : UInt32) : Repeats bound (Walk.resolve number) (Walk.resolve number) := by
  intro s
  apply RepeatsFrom.get
  exact .lift fun _ => .pure _

theorem recordLabel (value : Word) : Repeats bound (Walk.recordLabel value) (Walk.recordLabel value) := by
  intro s
  apply RepeatsFrom.get
  apply RepeatsFrom.lift
  rintro ⟨isNew, labels⟩
  exact (RepeatsFrom.setting (Nat.le_refl _)).bind fun _ => pure _

/-- Only the number of tokens drawn and what is in the scope matter; how the scope is left does not. -/
theorem inScope {walk other : Walk α} (inside : Repeats bound walk other) :
    Repeats bound (Walk.inScope walk) (Walk.inScope other) := by
  refine bind (changing fun _ => rfl) fun _ => bind inside fun result s => ?_
  apply RepeatsFrom.get
  refine .lift fun functions => .lift fun vars => ?_
  exact (RepeatsFrom.setting (Nat.le_refl _)).bind fun _ => pure result

theorem inLoopContext {walk other : Walk α} {inLoopBody inLoopInit : Bool}
    (inside : Repeats bound walk other) :
    Repeats bound (Walk.inLoopContext inLoopBody inLoopInit walk)
      (Walk.inLoopContext inLoopBody inLoopInit other) := by
  intro s
  apply RepeatsFrom.get
  refine (RepeatsFrom.setting (Nat.le_refl _)).bind fun _ => bind inside fun result => ?_
  exact bind (changing fun _ => rfl) fun _ => pure result

theorem inFunctionBody {walk other : Walk α} (inside : Repeats bound walk other) :
    Repeats bound (Walk.inFunctionBody walk) (Walk.inFunctionBody other) := by
  apply inLoopContext
  apply inScope
  refine bind (changing fun _ => rfl) fun _ => bind inside fun result s => ?_
  apply RepeatsFrom.get
  apply RepeatsFrom.lift
  intro vars
  exact (RepeatsFrom.setting (Nat.le_refl _)).bind fun _ => pure result

theorem inBoundedLoop {walk other : Nat → Walk α} (inside : ∀ depth, Repeats bound (walk depth) (other depth)) :
    Repeats bound (Walk.inBoundedLoop walk) (Walk.inBoundedLoop other) := by
  intro s
  apply RepeatsFrom.get
  refine RepeatsFrom.bind (.changing rfl) fun _ => bind (inside s.loopDepth) fun result => ?_
  exact bind (changing fun _ => rfl) fun _ => pure result

theorem inSwitch {walk other : Walk α} (inside : Repeats bound walk other) :
    Repeats bound (Walk.inSwitch walk) (Walk.inSwitch other) := by
  refine bind (changing fun _ => rfl) fun _ => bind inside fun result s => ?_
  apply RepeatsFrom.get
  apply RepeatsFrom.lift
  intro labels
  exact (RepeatsFrom.setting (Nat.le_refl _)).bind fun _ => pure result

theorem braces {walk other : Walk (List Yul.Stmt)} (isEmpty : Bool) (inside : Repeats bound walk other) :
    Repeats bound (Walk.braces isEmpty walk) (Walk.braces isEmpty other) := by
  cases isEmpty with
  | true => exact pure _
  | false => exact inScope (inside.bind fun _ => pure _)

end Repeats

/-! ### Literals and expressions -/

variable {seed other : Seed}

theorem literal_repeats (agrees : seed.AgreesBelow bound other) (node : Tree.Literal) :
    Repeats bound (literal seed node) (literal other node) := by
  cases node with
  | int value | str raw => exact .pure _
  | unset => exact (Repeats.drawToken agrees).bind fun _ => .pure _
  | hex raw =>
      have rest (digits : List Char) : Repeats bound (do
          let digits := evenly digits
          if Word.digitCount < digits.length then throw .hexTooLong
          return Yul.Literal.hex (String.ofList digits)) (do
          let digits := evenly digits
          if Word.digitCount < digits.length then throw .hexTooLong
          return Yul.Literal.hex (String.ofList digits)) := by
        intro s
        dsimp only
        split
        · exact (RepeatsFrom.throwing _).bind fun _ => .pure _
        · exact .pure _
      rw [literal, literal]
      cases hexDigits raw with
      | nil => exact ((Repeats.drawToken agrees).map _).bind rest
      | cons first others => exact (Repeats.pure _).bind rest

mutual

/-- With seeds that agree so far, an expression draws the same tokens and calls the same functions. -/
theorem expression_repeats (agrees : seed.AgreesBelow bound other) :
    ∀ expr, Repeats bound (expression seed expr) (expression other expr)
  | .varRef number => by
      rw [expression, expression]
      refine (Repeats.resolve number).bind fun found => ?_
      cases found with
      | none => exact .tokenExpr agrees
      | some var => exact .pure _
  | .literal node => (literal_repeats agrees node).bind fun _ => .pure _
  | .binary op left right => by
      rw [expression, expression]
      exact (expression_repeats agrees left).bind fun _ =>
        (expression_repeats agrees right).bind fun _ => .pure _
  | .unary op operand => by
      rw [expression, expression]
      exact (expression_repeats agrees operand).bind fun _ => .pure _
  | .ternary op first second third => by
      rw [expression, expression]
      exact (expression_repeats agrees first).bind fun _ =>
        (expression_repeats agrees second).bind fun _ =>
          (expression_repeats agrees third).bind fun _ => .pure _
  | .nullary op => .pure _
  | .call usage selector args targets => by
      rw [expression, expression]
      intro s
      apply RepeatsFrom.get
      cases s.functions.pick .singleReturn selector.toNat with
      | none => exact RepeatsFrom.bind (Repeats.count _ s) fun _ => .tokenExpr agrees
      | some callee =>
          exact RepeatsFrom.bind (Repeats.count _ s) fun _ =>
            (arguments_repeats agrees callee.inputs args).bind fun _ => .pure _
  | .unset => .tokenExpr agrees

/-- With seeds that agree so far, the arguments of a call are the same. -/
theorem arguments_repeats (agrees : seed.AgreesBelow bound other) :
    ∀ wanted args, Repeats bound (arguments seed wanted args) (arguments other wanted args)
  | wanted, [] => by
      rw [arguments, arguments]
      exact .tokenExprs agrees wanted
  | 0, _ :: _ => .pure _
  | wanted + 1, arg :: args => by
      rw [arguments, arguments]
      exact (expression_repeats agrees arg).bind fun _ =>
        (arguments_repeats agrees wanted args).bind fun _ => .pure _

end

theorem expressions_repeats (agrees : seed.AgreesBelow bound other) (exprs : List Tree.Expr) :
    Repeats bound (expressions seed exprs) (expressions other exprs) := by
  induction exprs with
  | nil => exact .pure _
  | cons expr rest ih => exact (expression_repeats agrees expr).bind fun _ => ih.bind fun _ => .pure _

/-! ### Statements without blocks -/

theorem builtinStatement_repeats (agrees : seed.AgreesBelow bound other) (builtin : Builtin)
    (args : List Tree.Expr) :
    Repeats bound (builtinStatement seed builtin args) (builtinStatement other builtin args) :=
  (expressions_repeats agrees args).bind fun _ => .pure _

/-- What a call statement calls does not depend on any token. -/
theorem callee?_repeats (usage : Tree.CallUsage) (selector : UInt32) :
    Repeats bound (callee? usage selector) (callee? usage selector) := by
  intro s
  apply RepeatsFrom.get
  apply RepeatsFrom.lift
  intro visible
  split
  · exact .pure _
  · cases usage <;> exact .pure _

theorem assignmentTargets_repeats (requests : List UInt32) (wanted : Nat) :
    Repeats bound (assignmentTargets requests wanted) (assignmentTargets requests wanted) := by
  intro s
  apply RepeatsFrom.get
  apply RepeatsFrom.lift
  intro visible
  dsimp only
  by_cases few : visible < wanted
  · rw [if_pos few]
    exact .throwing _
  · rw [if_neg few]
    cases assignmentSlots visible (requests.map UInt32.toNat) [] 0 wanted with
    | none => exact .throwing _
    | some slots => exact .pure _

theorem call_repeats (agrees : seed.AgreesBelow bound other) (callee : Callable) (args : List Tree.Expr) :
    Repeats bound (call seed callee args) (call other callee args) :=
  (Repeats.count _).bind fun _ => (arguments_repeats agrees callee.inputs args).bind fun _ => .pure _

theorem callStatement_repeats (agrees : seed.AgreesBelow bound other) (usage : Tree.CallUsage)
    (selector : UInt32) (args : List Tree.Expr) (requests : List UInt32) :
    Repeats bound (callStatement seed usage selector args requests)
      (callStatement other usage selector args requests) := by
  refine (callee?_repeats usage selector).bind fun callee => ?_
  cases callee with
  | none => exact (Repeats.count _).bind fun _ => (Repeats.tokenExpr agrees).bind fun _ => .pure _
  | some callee =>
      cases usage with
      | none | single => exact (call_repeats agrees callee args).bind fun _ => .pure _
      | multiDecl =>
          exact (call_repeats agrees callee args).bind fun _ => (Repeats.declare _).bind fun _ => .pure _
      | multiAssign =>
          exact (assignmentTargets_repeats requests callee.outputs).bind fun _ =>
            (call_repeats agrees callee args).bind fun _ => .pure _

theorem callAfterDefinition_repeats (name : FunctionName) (inputs outputs : Nat) :
    Repeats bound (callAfterDefinition name inputs outputs) (callAfterDefinition name inputs outputs) := by
  refine (Repeats.count _).bind fun _ => ?_
  split
  · exact .pure _
  · exact .inScope ((Repeats.declare _).bind fun _ => .pure _)

theorem assign_repeats (agrees : seed.AgreesBelow bound other) (target : UInt32) (value : Tree.Expr) :
    Repeats bound (assign seed target value) (assign other target value) := by
  refine (Repeats.resolve target).bind fun found => ?_
  cases found with
  | none | some => exact (expression_repeats agrees value).bind fun _ => .pure _

theorem loopControl_repeats (control : Yul.Stmt) :
    Repeats bound (loopControl control) (loopControl control) := by
  intro s
  apply RepeatsFrom.get
  split
  · exact .pure _
  · exact RepeatsFrom.bind (Repeats.count _ s) fun _ => .pure _

/-! ### Statements -/

section Statement

variable {settings rotated : Settings}

theorem declareVariable_repeats (agrees : settings.seed.AgreesBelow bound rotated.seed)
    (typed : rotated.typedDeclarations = settings.typedDeclarations) (type : Option TypeName)
    (value : Tree.Expr) :
    Repeats bound (declareVariable settings type value) (declareVariable rotated type value) := by
  refine (expression_repeats agrees value).bind fun result s => ?_
  rw [typed]
  apply RepeatsFrom.get
  exact (RepeatsFrom.setting (Nat.le_refl _)).bind fun _ => .pure _

mutual

/-- With seeds that agree so far, a statement is walked in the same way. -/
theorem statement_repeats (agrees : settings.seed.AgreesBelow bound rotated.seed)
    (typed : rotated.typedDeclarations = settings.typedDeclarations) :
    ∀ stmt, Repeats bound (statement settings stmt) (statement rotated stmt)
  | .declare type value => by
      rw [statement, statement]
      exact (declareVariable_repeats agrees typed type value).bind fun _ => .pure _
  | .assign target value => by
      rw [statement, statement]
      exact (assign_repeats agrees target value).bind fun _ => .pure _
  | .ifThen cond body => by
      rw [statement, statement]
      exact (expression_repeats agrees cond).bind fun _ =>
        (Repeats.braces _ (statements_repeats agrees typed body)).bind fun _ => .pure _
  | .store op location value => builtinStatement_repeats agrees _ _
  | .block body => by
      rw [statement, statement]
      exact (Repeats.braces _ (statements_repeats agrees typed body)).bind fun _ => .pure _
  | .forLoop init cond post body => by
      rw [statement, statement]
      apply Repeats.inScope
      have opening : Repeats bound (do
          if init.isEmpty then return Yul.Block.compact
          return Yul.Block.spread (← statements settings init)) (do
          if init.isEmpty then return Yul.Block.compact
          return Yul.Block.spread (← statements rotated init)) := by
        split
        · exact .pure _
        · exact (statements_repeats agrees typed init).bind fun _ => .pure _
      exact opening.inLoopContext.bind fun _ => (expression_repeats agrees cond).bind fun _ =>
        (Repeats.braces _ (statements_repeats agrees typed post)).inLoopContext.bind fun _ =>
          (Repeats.braces _ (statements_repeats agrees typed body)).inLoopContext.bind fun _ => .pure _
  | .boundedFor body => by
      rw [statement, statement]
      apply Repeats.inBoundedLoop
      intro depth
      exact (Repeats.braces _ (statements_repeats agrees typed body)).inLoopContext.bind fun _ => .pure _
  | .switch scrutinee cases default => by
      rw [statement, statement]
      split
      · exact .pure _
      · refine (expression_repeats agrees scrutinee).bind fun _ =>
          (caseArms_repeats agrees typed cases).inSwitch.bind fun _ => ?_
        cases default with
        | none => exact .pure _
        | some body => exact (Repeats.braces _ (statements_repeats agrees typed body)).bind fun _ => .pure _
  | .breakLoop => loopControl_repeats _
  | .continueLoop => loopControl_repeats _
  | .log position size topics => builtinStatement_repeats agrees _ _
  | .copy region target source size => builtinStatement_repeats agrees _ _
  | .extCodeCopy address target source size => builtinStatement_repeats agrees _ _
  | .halt op => .pure _
  | .exit op position size => builtinStatement_repeats agrees _ _
  | .selfDestruct address => builtinStatement_repeats agrees _ _
  | .call usage selector args targets => by
      rw [statement, statement]
      exact (callStatement_repeats agrees usage selector args targets).bind fun _ => .pure _
  | .define inputs outputs body => by
      rw [statement, statement]
      intro s
      apply RepeatsFrom.get
      split
      · exact RepeatsFrom.bind (Repeats.count _ s) fun _ => .pure _
      · refine RepeatsFrom.get (.lift fun registered => ?_)
        refine (RepeatsFrom.setting (Nat.le_refl _)).bind fun _ => (Repeats.count _).bind fun _ => ?_
        refine (Repeats.inFunctionBody ?_).bind fun _ => (callAfterDefinition_repeats _ _ _).bind fun _ => .pure _
        exact (Repeats.declare _).bind fun _ =>
          (Repeats.braces _ (statements_repeats agrees typed body)).bind fun _ => .pure _
  | .pop value => builtinStatement_repeats agrees _ _

/-- With seeds that agree so far, the statements of a block are walked in the same way. -/
theorem statements_repeats (agrees : settings.seed.AgreesBelow bound rotated.seed)
    (typed : rotated.typedDeclarations = settings.typedDeclarations) :
    ∀ body, Repeats bound (statements settings body) (statements rotated body)
  | [] => .pure _
  | stmt :: rest => by
      rw [statements, statements]
      exact (statement_repeats agrees typed stmt).bind fun _ =>
        (statements_repeats agrees typed rest).bind fun _ => .pure _

/-- With seeds that agree so far, the labels of a switch are the same, and so are the cases left out. -/
theorem caseArms_repeats (agrees : settings.seed.AgreesBelow bound rotated.seed)
    (typed : rotated.typedDeclarations = settings.typedDeclarations) :
    ∀ cases, Repeats bound (caseArms settings cases) (caseArms rotated cases)
  | [] => .pure _
  | (label, body) :: rest => by
      rw [caseArms, caseArms]
      refine (literal_repeats agrees label).bind fun label => (Repeats.recordLabel _).bind fun isNew => ?_
      cases isNew with
      | false => exact (Repeats.count _).bind fun _ => caseArms_repeats agrees typed rest
      | true =>
          exact (Repeats.braces _ (statements_repeats agrees typed body)).bind fun _ =>
            (caseArms_repeats agrees typed rest).bind fun _ => .pure _

end

end Statement

end Walk

/-! ### Generations -/

/-- Two generations whose seeds agree on all the tokens that the first one draws are the same. -/
theorem generate_of_agreesBelow {settings rotated : Settings} {tree : Tree.Program} {g : Generation}
    (generated : tree.generate settings = .ok g)
    (agrees : settings.seed.AgreesBelow g.stats.dictionaryTokens rotated.seed)
    (typed : rotated.typedDeclarations = settings.typedDeclarations) : tree.generate rotated = .ok g := by
  obtain ⟨left, walked, made⟩ := Lexical.generate_eq_walk settings tree
  obtain rfl := Except.ok.inj (made.symm.trans generated)
  have repeats := (Walk.Repeats.braces tree.block.isEmpty
    (Walk.statements_repeats agrees typed tree.block)) {} _ _ walked
  have again : tree.walk rotated = _ := repeats.2 (Nat.le_refl _)
  rw [← generated, Tree.Program.generate, Tree.Program.generate, again, walked]

/-- Every program is generated, and an input size only rotates the dictionary: with the dictionary rotated by
    the place of the first token and input size zero, the generation has the same text and the same counters,
    provided that the places of the tokens drawn do not wrap around at 64 bits. -/
theorem generate_rotated (dictionary : Dictionary) (size : UInt64) (typed : Bool) (tree : Tree.Program) :
    let start := size.toNat * size.toNat % 2 ^ 64
    ∃ g, tree.generate ⟨dictionary, some size, typed⟩ = .ok g ∧
      (start + g.stats.dictionaryTokens ≤ 2 ^ 64 →
        tree.generate ⟨dictionary.rotate (start % dictionary.tokens.length), some 0, typed⟩ = .ok g) := by
  intro start
  obtain ⟨g, generated, _⟩ := Lexical.exists_generation ⟨dictionary, some size, typed⟩ tree
  refine ⟨g, generated, fun unwrapped => ?_⟩
  exact generate_of_agreesBelow generated (Seed.agreesBelow_rotate dictionary size unwrapped) rfl

/-- An input of 7 bytes starts 49 places on, which is behind the end of the builtin tokens. The label drawn
    second decides that a case is left out, before a third token is drawn. -/
theorem generate_rotated_labels :
    ∃ g, Tree.Program.generate ⟨.builtin, some 7, false⟩
        ⟨[.switch .unset [(.unset, []), (.int 4, []), (.hex "", [])] none]⟩ = .ok g ∧
      g.stats.dictionaryTokens = 3 ∧ g.stats.casesDropped = 1 ∧
      Tree.Program.generate ⟨Dictionary.builtin.rotate 3, some 0, false⟩
        ⟨[.switch .unset [(.unset, []), (.int 4, []), (.hex "", [])] none]⟩ = .ok g := by
  obtain ⟨g, generated, rotated⟩ := generate_rotated .builtin 7 false
    ⟨[.switch .unset [(.unset, []), (.int 4, []), (.hex "", [])] none]⟩
  have counted : (Tree.Program.generate ⟨.builtin, some 7, false⟩
      ⟨[.switch .unset [(.unset, []), (.int 4, []), (.hex "", [])] none]⟩).map
        (fun g => (g.stats.dictionaryTokens, g.stats.casesDropped)) = .ok (3, 1) := by
    decide +kernel
  rw [generated] at counted
  obtain ⟨drawn, dropped⟩ := Prod.mk.inj (Except.ok.inj counted)
  refine ⟨g, generated, drawn, dropped, rotated ?_⟩
  rw [drawn]
  decide

end YulFuzz
