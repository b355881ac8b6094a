/-
Module: YulFuzz.Proofs.Tally
Purpose: What a walk counts against the text that it makes and against the calls and cases of the tree that it
  comes to. Each part of the translation moves the counters by what stands in its tokens, and by the calls
  and cases in front of its points; calls right after definitions are the only ones without a call in the
  tree.
Main exports: Lexical.Tally, Lexical.expression_tally, Lexical.statement_tallied, generate_tallies
-/
import YulFuzz.Proofs.Ascription
import YulFuzz.Proofs.Grammar.Tally
import YulFuzz.Proofs.Trace
import YulFuzz.Proofs.Visits

namespace YulFuzz

open Grammar (Token Silent callSites exprSyntax exprsSyntax stmtSyntax stmtsSyntax blockSyntax casesSyntax
  defaultSyntax commaSeparated)
open Walk (Context Point Visit visitsIn visitsInArguments)

namespace Lexical

/-! ### Tallies -/

/-- Between `t` and `t'` the counters move by what the tokens have in them, by the calls visited, and by the
    given number of cases. -/
structure Tally (ts : List Token) (visits : List Visit) (cases : Nat) (t t' : Thread) : Prop where
  functions : t'.counters.functionsDefined =
    t.counters.functionsDefined + ts.count (.keyword .functionWord)
  sites : ∀ rest, t.counters.callsEmitted + (callSites (ts ++ rest)).length =
    t'.counters.callsEmitted + (callSites rest).length
  emitted : t'.counters.callsEmitted + t.counters.functionsDefined =
    t.counters.callsEmitted + t'.counters.functionsDefined + visits.countP Visit.isMade
  fallbacks : t'.counters.callFallbacks = t.counters.callFallbacks + visits.countP Visit.isReplaced
  cases : t'.counters.casesDropped + ts.count (.keyword .caseWord) = t.counters.casesDropped + cases

namespace Tally

variable {ts more : List Token} {visits later : List Visit} {cases others : Nat} {t t' last : Thread}

theorem silent (silent : Silent ts) (same : t'.counters = t.counters) : Tally ts [] 0 t t' where
  functions := by rw [same, silent.functions, Nat.add_zero]
  sites := fun rest => by rw [same, silent.sites]
  emitted := by rw [same, List.countP_nil, Nat.add_zero]
  fallbacks := by rw [same, List.countP_nil, Nat.add_zero]
  cases := by rw [same, silent.arms]

theorem append (first : Tally ts visits cases t t') (second : Tally more later others t' last) :
    Tally (ts ++ more) (visits ++ later) (cases + others) t last where
  functions := by
    rw [second.functions, first.functions, List.count_append]
    omega
  sites := fun rest => by rw [List.append_assoc, first.sites, second.sites]
  emitted := by
    have here := first.emitted
    have there := second.emitted
    rw [List.countP_append]
    omega
  fallbacks := by
    rw [second.fallbacks, first.fallbacks, List.countP_append]
    omega
  cases := by
    have here := first.cases
    have there := second.cases
    rw [List.count_append]
    omega

/-- A part without cases, in front of another part. -/
theorem andThen (first : Tally ts visits 0 t t') (second : Tally more later cases t' last) :
    Tally (ts ++ more) (visits ++ later) cases t last := by
  have whole := first.append second
  rwa [Nat.zero_add] at whole

/-- Silent tokens in front do not matter. -/
theorem after (silent : Silent ts) (tally : Tally more visits cases t t') :
    Tally (ts ++ more) visits cases t t' :=
  (Tally.silent silent rfl).andThen tally

/-- Silent tokens behind do not matter. -/
theorem before (tally : Tally ts visits cases t t') (silent : Silent more) :
    Tally (ts ++ more) visits cases t t' := by
  have whole := tally.append (.silent silent rfl)
  rwa [List.append_nil] at whole

theorem braced (tally : Tally ts visits cases t t') : Tally (Grammar.braced ts) visits cases t t' := by
  have opened : Silent [.openBrace] := ⟨rfl, rfl, fun _ => rfl⟩
  have closed : Silent [.closeBrace] := ⟨rfl, rfl, fun _ => rfl⟩
  exact (tally.after opened).before closed

/-- In which order the calls are listed does not matter. -/
theorem perm (tally : Tally ts visits cases t t') (same : visits.Perm later) :
    Tally ts later cases t t' :=
  { tally with
    emitted := by rw [tally.emitted, same.countP_eq]
    fallbacks := by rw [tally.fallbacks, same.countP_eq] }

theorem recount (tally : Tally ts visits cases t t') (same : cases = others) :
    Tally ts visits others t t' :=
  same ▸ tally

/-- The comma in front of the first of several parts is not written. -/
theorem commaSeparated {parts : List (List Token)}
    (tally : Tally (parts.flatMap (.comma :: ·)) visits cases t t') :
    Tally (commaSeparated parts) visits cases t t' := by
  cases parts with
  | nil => exact tally
  | cons first others =>
      exact
        { functions := tally.functions
          sites := tally.sites
          emitted := tally.emitted
          fallbacks := tally.fallbacks
          cases := tally.cases }

/-- A part and the parts behind it, each with a comma in front. -/
theorem comma {parts : List (List Token)} (first : Tally ts visits 0 t t')
    (rest : Tally (parts.flatMap (.comma :: ·)) later 0 t' last) :
    Tally ((ts :: parts).flatMap (.comma :: ·)) (visits ++ later) 0 t last := by
  have comma : Silent [.comma] := ⟨rfl, rfl, fun _ => rfl⟩
  exact (first.after comma).append rest

/-- The last of several parts. -/
theorem alone (tally : Tally ts visits 0 t t') : Tally ([ts].flatMap (.comma :: ·)) visits 0 t t' := by
  have comma : Silent [.comma] := ⟨rfl, rfl, fun _ => rfl⟩
  exact (tally.after comma).before .nil

/-- The arguments of a builtin function, in the call. -/
theorem builtin (builtin : Builtin) {parts : List (List Token)}
    (args : Tally (parts.flatMap (.comma :: ·)) visits cases t t') :
    Tally (.name builtin.name :: .openParen :: Grammar.commaSeparated parts ++ [.closeParen]) visits cases t
      t' := by
  have opened : Silent [.openParen] := ⟨rfl, rfl, fun _ => rfl⟩
  have closed : Silent [.closeParen] := ⟨rfl, rfl, fun _ => rfl⟩
  have name := Silent.name (Grammar.namesFunction_builtin builtin)
  exact (args.commaSeparated.after (name.append opened)).before closed

end Tally

/-- What is handed on when a call is made. -/
def Thread.countCall (t : Thread) : Thread :=
  { t with counters := { t.counters with callsEmitted := t.counters.callsEmitted + 1 } }

/-- What is handed on when a token stands in place of a call. -/
def Thread.countFallback (t : Thread) : Thread :=
  { t with counters := { t.counters with callFallbacks := t.counters.callFallbacks + 1 } }

namespace Tally

variable {ts : List Token} {visits : List Visit} {t t' : Thread} {visit : Visit}

/-- The call of a function, around its arguments. -/
theorem call (name : FunctionName) (made : visit.isMade = true) {parts : List (List Token)}
    (args : Tally (parts.flatMap (.comma :: ·)) visits 0 t.countCall t') :
    Tally (.name name.text :: .openParen :: Grammar.commaSeparated parts ++ [.closeParen]) (visit :: visits) 0 t
      t' := by
  have replaced : visit.isReplaced = false := by
    rw [visit.isReplaced_eq_not, made]
    rfl
  have closed : Silent [.closeParen] := ⟨rfl, rfl, fun _ => rfl⟩
  have inside := args.commaSeparated.before closed
  constructor
  case functions => exact inside.functions
  case cases => exact inside.cases
  case sites =>
    intro rest
    have later := inside.sites rest
    rw [List.append_assoc] at later ⊢
    rw [List.cons_append, List.cons_append, Grammar.callSites_call (Grammar.namesFunction_functionName name),
      List.length_cons, ← later]
    simp only [Thread.countCall]
    omega
  case emitted =>
    have counted := inside.emitted
    rw [List.countP_cons_of_pos made]
    dsimp only [Thread.countCall] at counted
    omega
  case fallbacks =>
    rw [List.countP_cons_of_neg (by simp [replaced])]
    exact inside.fallbacks

/-- A token that stands in place of a call. -/
theorem fallback (replaced : visit.isReplaced = true) (tally : Tally ts [] 0 t.countFallback t') :
    Tally ts [visit] 0 t t' := by
  have made : visit.isMade = false := by
    simpa [visit.isReplaced_eq_not] using replaced
  constructor
  case functions => exact tally.functions
  case cases => exact tally.cases
  case sites => exact tally.sites
  case emitted =>
    rw [List.countP_cons_of_neg (by simp [made])]
    exact tally.emitted
  case fallbacks =>
    rw [List.countP_cons_of_pos replaced, tally.fallbacks]
    rfl

end Tally

/-! ### Expressions -/

theorem literal_counters (seed : Seed) (node : Tree.Literal) (t : Thread) :
    (literal seed node t).2.counters = t.counters := by
  cases node with
  | int | str | unset => rfl
  | hex raw =>
      simp only [literal]
      cases Walk.hexDigits raw <;> rfl

theorem tokenExpr_tally (seed : Seed) (t : Thread) :
    Tally (exprSyntax (tokenExpr seed t).1).tokens [] 0 t (tokenExpr seed t).2 :=
  .silent (.literal _) rfl

/-- The tokens of expressions, each with a comma in front. -/
def argumentTokens (exprs : List Yul.Expr) : List Token :=
  (Grammar.Expr.tokensOfEach (exprsSyntax exprs)).flatMap (.comma :: ·)

theorem tokenExprs_tally (seed : Seed) (wanted : Nat) (t : Thread) :
    Tally (argumentTokens (tokenExprs seed wanted t).1) [] 0 t (tokenExprs seed wanted t).2 := by
  induction wanted generalizing t with
  | zero => exact .silent .nil rfl
  | succ wanted ih => exact (tokenExpr_tally seed t).comma (ih _)

section Expression

variable {functions : Functions} {env : Env}

mutual

/-- The calls in the text of an expression are those that are made of the calls in the tree. -/
theorem expression_tally (seed : Seed)
    (agrees : ∀ kind (selector : UInt32), functions.pick kind selector.toNat = env.pick kind selector) :
    ∀ (expr : Tree.Expr) (t : Thread), Tally (exprSyntax (expression seed env expr t).1).tokens
      (visitsIn functions expr) 0 t (expression seed env expr t).2
  | .varRef number, t => by
      rw [expression]
      cases env.resolve number with
      | none => exact tokenExpr_tally seed t
      | some found => exact .silent (.var found) rfl
  | .literal node, t => .silent (.literal _) (literal_counters seed node t)
  | .binary op left right, t => by
      have first := expression_tally seed agrees left t
      have second := expression_tally seed agrees right (expression seed env left t).2
      exact (first.comma second.alone).builtin (.binary op)
  | .unary op operand, t => (expression_tally seed agrees operand t).alone.builtin (.unary op)
  | .ternary op first second third, t => by
      let front := expression seed env first t
      let middle := expression seed env second front.2
      have args := (expression_tally seed agrees first t).comma
        ((expression_tally seed agrees second front.2).comma (expression_tally seed agrees third middle.2).alone)
      exact args.builtin (.ternary op)
  | .nullary op, t => .builtin (.nullary op) (.silent .nil rfl)
  | .call usage selector args targets, t => by
      rw [expression, visitsIn, agrees]
      cases env.pick .singleReturn selector with
      | none => exact .fallback rfl (tokenExpr_tally seed _)
      | some callee => exact .call callee.name rfl (arguments_tally seed agrees callee.inputs args _)
  | .unset, t => tokenExpr_tally seed t

/-- The calls in the text of arguments are those that are made of the calls in the arguments walked. -/
theorem arguments_tally (seed : Seed)
    (agrees : ∀ kind (selector : UInt32), functions.pick kind selector.toNat = env.pick kind selector) :
    ∀ (wanted : Nat) (args : List Tree.Expr) (t : Thread),
      Tally (argumentTokens (arguments seed env wanted args t).1) (visitsInArguments functions wanted args) 0 t
        (arguments seed env wanted args t).2
  | wanted, [], t => by
      rw [arguments, visitsInArguments]
      exact tokenExprs_tally seed wanted t
  | 0, _ :: _, t => .silent .nil rfl
  | wanted + 1, arg :: args, t =>
      (expression_tally seed agrees arg t).comma (arguments_tally seed agrees wanted args _)

end

theorem expressions_tally (seed : Seed)
    (agrees : ∀ kind (selector : UInt32), functions.pick kind selector.toNat = env.pick kind selector)
    (exprs : List Tree.Expr) (t : Thread) :
    Tally (argumentTokens (expressions seed env exprs t).1) (exprs.flatMap (visitsIn functions)) 0 t
      (expressions seed env exprs t).2 := by
  induction exprs generalizing t with
  | nil => exact .silent .nil rfl
  | cons expr rest ih => exact (expression_tally seed agrees expr t).comma (ih _)

/-- The calls in an expression that is walked from a state find what its environment has. -/
theorem expression_tally_of_state (seed : Seed) (fr : Frame) (env : Env) (left : Nat) (expr : Tree.Expr)
    (t : Thread) : Tally (exprSyntax (expression seed env expr t).1).tokens
      (visitsIn (fr.state left env t).functions expr) 0 t (expression seed env expr t).2 :=
  expression_tally seed (Frame.Fits.pick_eq left t) expr t

end Expression

/-! ### Statements without blocks -/

section Simple

variable {functions : Functions} {env : Env} {t t' : Thread} {visits : List Visit} {cases : Nat}

theorem Tally.single {stmt : Grammar.Stmt} (tally : Tally stmt.tokens visits cases t t') :
    Tally (Grammar.Stmt.listTokens [stmt]) visits cases t t' :=
  tally.before .nil

/-- A value in front of which nothing is called. -/
theorem Tally.declare {names : List Grammar.TypedName} {value : Grammar.Expr}
    (silent : ∀ name ∈ names, Silent name.tokens) (tally : Tally value.tokens visits 0 t t') :
    Tally (Grammar.Stmt.declare names value).tokens visits 0 t t' := by
  have word : Silent [.keyword .letWord] := ⟨rfl, rfl, fun _ => rfl⟩
  have becomes : Silent [.becomes] := ⟨rfl, rfl, fun _ => rfl⟩
  have front : Silent (Grammar.commaSeparated (names.map Grammar.TypedName.tokens)) := by
    apply Silent.commaSeparated
    intro part member
    obtain ⟨name, inside, rfl⟩ := List.mem_map.1 member
    exact silent name inside
  exact .after (word.append front) (tally.after becomes)

theorem Tally.assign (targets : List Yul.Var) {value : Grammar.Expr} (tally : Tally value.tokens visits 0 t t') :
    Tally (Grammar.Stmt.assign (targets.map Yul.Var.text) value).tokens visits 0 t t' := by
  have becomes : Silent [.becomes] := ⟨rfl, rfl, fun _ => rfl⟩
  exact .after (.vars targets) (tally.after becomes)

/-- A declaration whose value is a literal, which may have a type, calls nothing. -/
theorem silent_letSyntax (var : Yul.Var) (ascription : Option Yul.Ascription) (value : Yul.Literal)
    (same : t'.counters = t.counters) :
    Tally (Grammar.letSyntax var ascription (.literal value)).tokens [] 0 t t' := by
  cases ascription with
  | none => exact .declare (List.forall_mem_singleton.2 (.typedName var none)) (.silent (.literal _) same)
  | some ascription =>
      obtain ⟨type, onValue⟩ := ascription
      refine .declare (List.forall_mem_singleton.2 (.typedName var (some type))) ?_
      cases onValue with
      | false => exact .silent (.literal _) same
      | true =>
          have colon : Silent [.colon] := ⟨rfl, rfl, fun _ => rfl⟩
          have name := Silent.name (Grammar.namesFunction_typeName type)
          exact .silent ((Silent.literal _).append (colon.append name)) same

/-- Without a type on its value, a declaration calls what its value calls. -/
theorem Tally.letOne (var : Yul.Var) (type : Option TypeName) {value : Yul.Expr}
    (tally : Tally (exprSyntax value).tokens visits 0 t t') :
    Tally (Grammar.letSyntax var (type.map (⟨·, false⟩)) value).tokens visits 0 t t' := by
  cases type with
  | none => exact .declare (List.forall_mem_singleton.2 (.typedName var none)) tally
  | some type => exact .declare (List.forall_mem_singleton.2 (.typedName var (some type))) tally

/-- Only literals carry a type themselves. -/
theorem ascription_eq_map (settings : Settings) (type : Option TypeName) {value : Tree.Expr}
    (other : ∀ node, value ≠ .literal node) :
    ∃ type' : Option TypeName, ascription settings type value = type'.map (⟨·, false⟩) := by
  refine ⟨if settings.typedDeclarations then type else none, ?_⟩
  unfold ascription
  split
  · cases value with
    | literal node => exact absurd rfl (other node)
    | _ => rfl
  · rfl

variable (agrees : ∀ kind (selector : UInt32), functions.pick kind selector.toNat = env.pick kind selector)

include agrees

theorem declareVariable_tally (settings : Settings) (type : Option TypeName) (value : Tree.Expr) (t : Thread) :
    Tally (stmtSyntax (declareVariable settings env type value t).1).tokens (visitsIn functions value) 0 t
      (declareVariable settings env type value t).2 := by
  have inside := expression_tally settings.seed agrees value t
  by_cases literal_ : ∃ node, value = .literal node
  · obtain ⟨node, rfl⟩ := literal_
    exact silent_letSyntax _ _ _ (literal_counters settings.seed node t)
  · obtain ⟨type', same⟩ := ascription_eq_map settings type fun node is => literal_ ⟨node, is⟩
    have whole := inside.letOne (.user env.fresh) type'
    rw [← same] at whole
    exact whole

theorem assign_tally (seed : Seed) (target : UInt32) (value : Tree.Expr) (t : Thread) :
    Tally (stmtSyntax (assign seed env target value t).1).tokens (visitsIn functions value) 0 t
      (assign seed env target value t).2 := by
  have inside := expression_tally seed agrees value t
  simp only [Lexical.assign, bind_run]
  cases env.resolve target with
  | none => exact inside.alone.builtin .pop
  | some found => exact inside.assign [found]

theorem builtinStatement_tally (seed : Seed) (builtin : Builtin) (args : List Tree.Expr) (t : Thread) :
    Tally (Grammar.Stmt.listTokens (stmtsSyntax (builtinStatement seed env builtin args t).1.1))
      (args.flatMap (visitsIn functions)) 0 t (builtinStatement seed env builtin args t).2 := by
  have call : Tally (stmtSyntax (.builtin builtin (expressions seed env args t).1)).tokens _ _ _ _ :=
    (expressions_tally seed agrees args t).builtin builtin
  exact call.single

/-- A call statement is made if there is a function for it, and else a token is discarded. -/
theorem callStatement_tally (seed : Seed) (usage : Tree.CallUsage) (selector : UInt32) (args : List Tree.Expr)
    (requests : List UInt32) (t : Thread) :
    Tally (stmtSyntax (callStatement seed env usage selector args requests t).1.1).tokens
      (match env.callee? usage selector with
        | some callee =>
          ⟨usage, selector, args, requests, some callee⟩ :: visitsInArguments functions callee.inputs args
        | none => [⟨usage, selector, args, requests, none⟩])
      0 t (callStatement seed env usage selector args requests t).2 := by
  unfold callStatement
  cases env.callee? usage selector with
  | none => exact .fallback rfl ((tokenExpr_tally seed _).alone.builtin .pop)
  | some callee =>
      let value := arguments seed env callee.inputs args t.countCall
      have made : Tally (exprSyntax (.call (.function callee.name) value.1)).tokens
          (⟨usage, selector, args, requests, some callee⟩ :: visitsInArguments functions callee.inputs args) 0 t
          value.2 :=
        .call callee.name rfl (arguments_tally seed agrees callee.inputs args t.countCall)
      cases usage with
      | none | single => exact made
      | multiDecl =>
          refine Tally.declare (fun name member => ?_) made
          obtain ⟨var, _, rfl⟩ := List.mem_map.1 member
          exact .var var
      | multiAssign => exact made.assign _

omit agrees

/-- At a state the calls in a call statement find what its environment has. -/
theorem visitsInCall_of_state {fr : Frame} (fits : fr.Fits env) (usage : Tree.CallUsage) (selector : UInt32)
    (args : List Tree.Expr) (requests : List UInt32) (left : Nat) (t : Thread) :
    Walk.visitsInCall usage selector args requests (fr.state left env t) =
      match env.callee? usage selector with
      | some callee =>
        ⟨usage, selector, args, requests, some callee⟩ ::
          visitsInArguments (fr.state left env t).functions callee.inputs args
      | none => [⟨usage, selector, args, requests, none⟩] := by
  rw [Walk.visitsInCall, fits.callee?_eq usage selector left t]
  cases env.callee? usage selector <;> rfl

/-- A statement without blocks has no declaration with a type but itself. -/
theorem typedLets_of_isSimple {made : Yul.Stmt} (simple : (stmtSyntax made).isSimple = true) :
    Yul.Stmt.listTypedLets [made] = [made].filter Yul.Stmt.isTypedLet := by
  cases made with
  | letOne var ascription value => cases ascription <;> rfl
  | letMany | assign | expr => rfl
  | _ => cases simple

/-- Loop control that is left out, and other statements that are left out, have no text. -/
theorem Tally.dropStatement (t : Thread) : Tally [] [] 0 t t.dropStatement :=
  ⟨rfl, fun _ => rfl, rfl, rfl, rfl⟩

theorem loopControl_tally {control : Yul.Stmt} (silent : Silent (stmtSyntax control).tokens) (t : Thread) :
    Tally (Grammar.Stmt.listTokens (stmtsSyntax (loopControl env control t).1.1)) [] 0 t
      (loopControl env control t).2 := by
  unfold loopControl
  split
  · exact Tally.single (.silent silent rfl)
  · exact .dropStatement t

end Simple

/-! ### Points -/

/-- Between `t` and `t'` the counters move by what is in the tokens, by what is in front of the points, and by
    the given number of cases of a switch around them. The declarations with a type are those made at the
    points. -/
structure Tallied (settings : Settings) (ts : List Token) (lets : List Yul.Stmt) (points : List Point)
    (cases : Nat) (t t' : Thread) : Prop where
  tally : Tally ts (points.flatMap (Point.visits settings)) ((points.flatMap Point.caseNodes).length + cases) t t'
  lets : lets = points.flatMap fun p => (p.code settings).filter Yul.Stmt.isTypedLet

/-- The code of a statement, with the point in front of it and the points inside. -/
def TalliedStmt (settings : Settings) (context : Context) (fr : Frame) (env : Env) (stmt : Tree.Stmt)
    (rest : List Tree.Stmt) (left : Nat) (t : Thread) : Prop :=
  Tallied settings (Grammar.Stmt.listTokens (stmtsSyntax (statement settings env stmt t).1.1))
    (Yul.Stmt.listTypedLets (statement settings env stmt t).1.1)
    (⟨context, stmt :: rest, fr.state left env t⟩ ::
      Walk.pointsIn settings context stmt (fr.state left env t))
    0 t (statement settings env stmt t).2

/-- The code of the statements of a block, with the points of the block. -/
def TalliedBody (settings : Settings) (context : Context) (fr : Frame) (env : Env) (body : List Tree.Stmt)
    (left : Nat) (t : Thread) : Prop :=
  Tallied settings (Grammar.Stmt.listTokens (stmtsSyntax (statements settings env body t).1.1))
    (Yul.Stmt.listTypedLets (statements settings env body t).1.1)
    (Walk.points settings context body (fr.state left env t)) 0 t (statements settings env body t).2

section Point

variable {settings : Settings} {ts more : List Token} {lets others : List Yul.Stmt} {points later : List Point}
  {cases count : Nat} {t t' last : Thread}

namespace Tallied

theorem none (t : Thread) : Tallied settings [] [] [] 0 t t := ⟨.silent .nil rfl, rfl⟩

theorem append (first : Tallied settings ts lets points cases t t')
    (second : Tallied settings more others later count t' last) :
    Tallied settings (ts ++ more) (lets ++ others) (points ++ later) (cases + count) t last where
  tally := by
    rw [List.flatMap_append, List.flatMap_append, List.length_append]
    exact (first.tally.append second.tally).recount (by omega)
  lets := by rw [first.lets, second.lets, List.flatMap_append]

/-- Nothing but tokens and cases in front of the part. -/
theorem after (front : Tally more [] count t t') (part : Tallied settings ts lets points cases t' last) :
    Tallied settings (more ++ ts) lets points (cases + count) t last :=
  ⟨(front.append part.tally).recount (by omega), part.lets⟩

theorem braced (inside : Tallied settings ts lets points cases t t') :
    Tallied settings (Grammar.braced ts) lets points cases t t' :=
  ⟨inside.tally.braced, inside.lets⟩

end Tallied

variable {context : Context} {fr : Frame} {env : Env} {stmt : Tree.Stmt} {rest : List Tree.Stmt} {left : Nat}

/-- The end of a block is a point where nothing is made. -/
theorem Tallied.atEnd (t : Thread) : Tallied settings [] [] [⟨context, [], fr.state left env t⟩] 0 t t :=
  ⟨.silent .nil rfl, rfl⟩

/-- A point and the points inside its statement. -/
theorem Tallied.node (site : Site context fr env) {visits : List Visit} {cases : Nat}
    (here : Point.visits settings ⟨context, stmt :: rest, fr.state left env t⟩ = visits)
    (nodes : (Point.caseNodes ⟨context, stmt :: rest, fr.state left env t⟩).length = cases)
    (inside : Walk.pointsIn settings context stmt (fr.state left env t) = points)
    (tally : Tally (Grammar.Stmt.listTokens (stmtsSyntax (statement settings env stmt t).1.1))
      (visits ++ points.flatMap (Point.visits settings))
      ((points.flatMap Point.caseNodes).length + cases) t (statement settings env stmt t).2)
    (lets : Yul.Stmt.listTypedLets (statement settings env stmt t).1.1 =
      (statement settings env stmt t).1.1.filter Yul.Stmt.isTypedLet ++
        points.flatMap fun p => (p.code settings).filter Yul.Stmt.isTypedLet) :
    TalliedStmt settings context fr env stmt rest left t where
  tally := by
    rw [List.flatMap_cons, List.flatMap_cons, List.length_append, here, nodes, inside, Nat.add_comm cases]
    exact tally
  lets := by rw [List.flatMap_cons, site.code_eq, inside, lets]

/-- A statement without blocks. -/
theorem Tallied.simple (site : Site context fr env)
    (nodes : Point.caseNodes ⟨context, stmt :: rest, fr.state left env t⟩ = [])
    (inside : Walk.pointsIn settings context stmt (fr.state left env t) = [])
    (tally : Tally (Grammar.Stmt.listTokens (stmtsSyntax (statement settings env stmt t).1.1))
      (Point.visits settings ⟨context, stmt :: rest, fr.state left env t⟩) 0 t (statement settings env stmt t).2)
    (lets : Yul.Stmt.listTypedLets (statement settings env stmt t).1.1 =
      (statement settings env stmt t).1.1.filter Yul.Stmt.isTypedLet) :
    TalliedStmt settings context fr env stmt rest left t := by
  apply Tallied.node site rfl (by rw [nodes, List.length_nil]) inside
  · rw [List.flatMap_nil, List.append_nil]
    exact tally
  · rw [lets, List.flatMap_nil, List.append_nil]

/-- A statement that becomes one statement with blocks. -/
theorem Tallied.one (site : Site context fr env) {made : Yul.Stmt} {visits : List Visit}
    (code : (statement settings env stmt t).1.1 = [made]) (other : made.isTypedLet = false)
    (here : Point.visits settings ⟨context, stmt :: rest, fr.state left env t⟩ = visits)
    (nodes : Point.caseNodes ⟨context, stmt :: rest, fr.state left env t⟩ = [])
    (inside : Walk.pointsIn settings context stmt (fr.state left env t) = points)
    (tally : Tally (stmtSyntax made).tokens (visits ++ points.flatMap (Point.visits settings))
      (points.flatMap Point.caseNodes).length t (statement settings env stmt t).2)
    (lets : made.typedLets = points.flatMap fun p => (p.code settings).filter Yul.Stmt.isTypedLet) :
    TalliedStmt settings context fr env stmt rest left t := by
  apply Tallied.node site here (by rw [nodes, List.length_nil]) inside
  · rw [code]
    exact tally.single
  · rw [code, List.filter_cons_of_neg (by simp [other]), Yul.Stmt.listTypedLets, Yul.Stmt.listTypedLets, lets,
      List.append_nil]
    rfl

/-- A builtin statement calls what its arguments call. -/
theorem builtinStatement_tallied (site : Site context fr env) (builtin : Builtin) (args : List Tree.Expr)
    (nodes : Point.caseNodes ⟨context, stmt :: rest, fr.state left env t⟩ = [])
    (inside : Walk.pointsIn settings context stmt (fr.state left env t) = [])
    (visits : Point.visits settings ⟨context, stmt :: rest, fr.state left env t⟩ =
      args.flatMap (visitsIn (fr.state left env t).functions))
    (run : statement settings env stmt = builtinStatement settings.seed env builtin args) :
    TalliedStmt settings context fr env stmt rest left t := by
  apply Tallied.simple site nodes inside
  · rw [visits, run]
    exact builtinStatement_tally (Frame.Fits.pick_eq left t) settings.seed builtin args t
  · rw [run]
    rfl

/-- Loop control has no declaration, whether it is left out or not. -/
theorem loopControl_tallied (site : Site context fr env) {control : Yul.Stmt}
    (silent : Silent (stmtSyntax control).tokens) (plain : control.typedLets = [])
    (other : control.isTypedLet = false)
    (nodes : Point.caseNodes ⟨context, stmt :: rest, fr.state left env t⟩ = [])
    (inside : Walk.pointsIn settings context stmt (fr.state left env t) = [])
    (visits : Point.visits settings ⟨context, stmt :: rest, fr.state left env t⟩ = [])
    (run : statement settings env stmt = loopControl env control) :
    TalliedStmt settings context fr env stmt rest left t := by
  apply Tallied.simple site nodes inside
  · rw [visits, run]
    exact loopControl_tally silent t
  · rw [run, loopControl]
    split
    · simp [Yul.Stmt.listTypedLets, plain, other]
    · rfl

/-- The points of a block are those of its statements, in a scope of their own. -/
theorem braces_tallied (site : Site context fr env) (body : List Tree.Stmt) (left : Nat) (t : Thread)
    (inside : Site context (fr.enterScope env) env →
      TalliedBody settings context (fr.enterScope env) env body left t) :
    Tallied settings
      (Grammar.Stmt.listTokens (blockSyntax (braces body.isEmpty (statements settings env body) t).1))
      (braces body.isEmpty (statements settings env body) t).1.typedLets
      (Walk.inBlock body.isEmpty (Walk.points settings context body) (fr.state left env t))
      0 t (braces body.isEmpty (statements settings env body) t).2 := by
  cases body with
  | nil => exact .none t
  | cons stmt others => exact inside site.enterScope

end Point

/-! ### Loops, arms and definitions -/

section Block

variable {settings : Settings} {context : Context} {fr : Frame} {env : Env} {ts : List Token}
  {visits : List Visit} {cases : Nat} {t t' : Thread}

/-- The calls in the condition of a loop find the functions that can be called behind the init block. -/
theorem visits_forLoop (settings : Settings) (site : Site context fr env) (init : List Tree.Stmt)
    (cond : Tree.Expr) (post body : List Tree.Stmt) (rest : List Tree.Stmt) (left : Nat) (t : Thread) :
    let opening := statements settings (env.inLoopContext false true) init t
    let inside := opening.1.2.inLoopContext env.inLoopBody env.inLoopInit
    ∃ started, Point.visits settings ⟨context, .forLoop init cond post body :: rest, fr.state left env t⟩ =
      visitsIn ((fr.enterScope env).state started inside opening.2).functions cond := by
  intro opening inside
  have first := statements_moves settings init (site.fits.enterScope.inLoopContext false true)
  obtain ⟨started, afterInit⟩ := first.inLoopContext.after left t
  have opened : (fr.state left env t).enterScope = (fr.enterScope env).state left env t := rfl
  refine ⟨started, ?_⟩
  simp only [Point.visits]
  rw [opened, afterInit, map_run]

/-- The header of a bounded loop is silent. -/
theorem silent_boundedHeader (counter : Yul.Var) :
    Silent ([.keyword .forWord, .openBrace, .keyword .letWord, .name counter.text, .becomes,
      .literal (.number "0"), .closeBrace, .name "lt", .openParen, .name counter.text, .comma,
      .literal (.hex "60"), .closeParen, .openBrace, .name counter.text, .becomes, .name "add", .openParen,
      .name counter.text, .comma, .literal (.hex "20"), .closeParen, .closeBrace]) := by
  have declare : Silent [.keyword .forWord, .openBrace, .keyword .letWord] := ⟨rfl, rfl, fun _ => rfl⟩
  have test : Silent [.becomes, .literal (.number "0"), .closeBrace, .name "lt", .openParen] :=
    ⟨rfl, rfl, fun _ => rfl⟩
  have step : Silent [.comma, .literal (.hex "60"), .closeParen, .openBrace] := ⟨rfl, rfl, fun _ => rfl⟩
  have add : Silent [.becomes, .name "add", .openParen] := ⟨rfl, rfl, fun _ => rfl⟩
  have last : Silent [.comma, .literal (.hex "20"), .closeParen, .closeBrace] := ⟨rfl, rfl, fun _ => rfl⟩
  have name := Silent.var counter
  exact declare.append (name.append (test.append (name.append (step.append (name.append (add.append
    (name.append last)))))))

namespace Tally

/-- An arm is one more case. -/
theorem caseWord (label : Grammar.Literal) (t : Thread) : Tally [.keyword .caseWord, .literal label] [] 1 t t :=
  ⟨rfl, fun _ => rfl, rfl, rfl, rfl⟩

/-- A case that is left out is one more case, without any text. -/
theorem dropCase (t : Thread) : Tally [] [] 1 t t.dropCase := ⟨rfl, fun _ => rfl, rfl, rfl, rfl⟩

/-- The header of a definition, in front of its body and the call right after it. That call is made, but it
    is none of the tree. -/
theorem define (name : FunctionName) {visit : Visit} (made : visit.isMade = true)
    (whole : Tally ts (visits ++ [visit]) cases (t.define name.kind) t') :
    Tally (.keyword .functionWord :: .name name.text :: .openParen :: ts) visits cases t t' := by
  have replaced : visit.isReplaced = false := by
    rw [visit.isReplaced_eq_not, made]
    rfl
  constructor
  case functions =>
    have counted := whole.functions
    have header : (Token.keyword .functionWord :: .name name.text :: .openParen :: ts).count
        (.keyword .functionWord) = ts.count (.keyword .functionWord) + 1 := List.count_cons_self
    simp only [Thread.define] at counted
    omega
  case sites => exact whole.sites
  case emitted =>
    have counted := whole.emitted
    rw [List.countP_append, List.countP_cons_of_pos made, List.countP_nil] at counted
    simp only [Thread.define] at counted
    omega
  case fallbacks =>
    have counted := whole.fallbacks
    rw [List.countP_append, List.countP_cons_of_neg (by simp [replaced])] at counted
    exact counted
  case cases => exact whole.cases

end Tally

/-- Words of calldata as arguments call nothing. -/
theorem calldata_tally (inputs : Nat) (t : Thread) :
    Tally (argumentTokens ((List.range inputs).map fun i => .call (.builtin (.unary .calldataload))
      [Walk.decimal (UInt64.ofNat i * Walk.wordSize)])) [] 0 t t := by
  induction List.range inputs with
  | nil => exact .silent .nil rfl
  | cons i rest ih =>
      have word : Tally (exprSyntax (Walk.decimal (UInt64.ofNat i * Walk.wordSize))).tokens [] 0 t t :=
        .silent (.literal _) rfl
      exact (word.alone.builtin (.unary .calldataload)).comma ih

/-- Storing variables calls nothing. -/
theorem stores_tally (vars : List Yul.Var) (t : Thread) :
    Tally (Grammar.Stmt.listTokens (stmtsSyntax (stores vars))) [] 0 t t := by
  rw [stores]
  induction vars.zipIdx with
  | nil => exact .silent .nil rfl
  | cons pair rest ih =>
      obtain ⟨var, i⟩ := pair
      have slot : Tally (exprSyntax (Walk.decimal (UInt64.ofNat i * Walk.wordSize))).tokens [] 0 t t :=
        .silent (.literal _) rfl
      have value : Tally (exprSyntax (.var var)).tokens [] 0 t t := .silent (.var var) rfl
      exact ((slot.comma value.alone).builtin (.store .sstore)).append ih

/-- The call after a definition is one call, however its results are stored. -/
theorem callAfterDefinition_tally (env : Env) (callable : Callable) (t : Thread) {visit : Visit}
    (made : visit.isMade = true) :
    Tally (stmtSyntax (callAfterDefinition env callable t).1).tokens [visit] 0 t
      (callAfterDefinition env callable t).2 := by
  have call : Tally (exprSyntax (callOnCalldata callable)).tokens [visit] 0 t t.countCall :=
    .call callable.name made (calldata_tally callable.inputs t.countCall)
  have counted : (callAfterDefinition env callable t).2 = t.countCall := by
    unfold callAfterDefinition
    split <;> rfl
  rw [counted, callAfterDefinition_run]
  split
  · exact call
  · have results : ∀ name ∈ (env.declared callable.outputs).map fun var => ⟨var.text, none⟩,
        Silent (Grammar.TypedName.tokens name) := by
      intro name member
      obtain ⟨var, _, rfl⟩ := List.mem_map.1 member
      exact .var var
    exact ((Tally.declare results call).append (stores_tally (env.declared callable.outputs) _)).braced

/-- The parameters and results in the header of a definition are silent. -/
theorem silent_parameters (inputs outputs : List Yul.Var) :
    Silent (Grammar.nameTokens (inputs.map Yul.Var.text) ++ .closeParen ::
      (if (outputs.map Yul.Var.text).isEmpty then []
        else .arrow :: Grammar.nameTokens (outputs.map Yul.Var.text))) := by
  have close : Silent [.closeParen] := ⟨rfl, rfl, fun _ => rfl⟩
  have arrow : Silent [.arrow] := ⟨rfl, rfl, fun _ => rfl⟩
  refine (Silent.vars inputs).append (close.append ?_)
  cases outputs with
  | nil => exact .nil
  | cons output others => exact arrow.append (.vars (output :: others))

theorem stores_typedLets (vars : List Yul.Var) : Yul.Stmt.listTypedLets (stores vars) = [] := by
  rw [stores]
  induction vars.zipIdx with
  | nil => rfl
  | cons pair rest ih => exact ih

/-- The call after a definition declares no variable with a type. -/
theorem callAfterDefinition_typedLets (env : Env) (callable : Callable) (t : Thread) :
    (callAfterDefinition env callable t).1.typedLets = [] ∧
      (callAfterDefinition env callable t).1.isTypedLet = false := by
  rw [callAfterDefinition_run]
  split
  · exact ⟨rfl, rfl⟩
  · exact ⟨stores_typedLets _, rfl⟩

/-- A definition and the call after it have the declarations with a type of the definition. -/
theorem typedLets_definition {definition call : Yul.Stmt} (other : definition.isTypedLet = false)
    (plain : call.typedLets = [] ∧ call.isTypedLet = false) :
    Yul.Stmt.listTypedLets [definition, call] =
      [definition, call].filter Yul.Stmt.isTypedLet ++ definition.typedLets := by
  simp [Yul.Stmt.listTypedLets, other, plain]

end Block

/-! ### Statements -/

mutual

/-- A statement: what it counts, with the point in front of it and the points inside. -/
theorem statement_tallied (settings : Settings) : ∀ (stmt : Tree.Stmt) {context : Context} {fr : Frame}
    {env : Env} (rest : List Tree.Stmt) (left : Nat) (t : Thread), Site context fr env →
    TalliedStmt settings context fr env stmt rest left t
  | .declare type value, context, fr, env, rest, left, t, site => by
      apply Tallied.simple site rfl rfl
      · exact (declareVariable_tally (Frame.Fits.pick_eq left t) settings type value t).single
      · exact typedLets_of_isSimple (letSyntax_isSimple ..)
  | .assign target value, context, fr, env, rest, left, t, site => by
      apply Tallied.simple site rfl rfl
      · exact (assign_tally (Frame.Fits.pick_eq left t) settings.seed target value t).single
      · exact typedLets_of_isSimple (assign_isSimple settings.seed env target value t)
  | .ifThen cond body, context, fr, env, rest, left, t, site => by
      obtain ⟨middle, tested⟩ := (expression_keeps settings.seed site.fits cond).after left t
      have test := expression_tally_of_state settings.seed fr env left cond t
      have block := braces_tallied site body middle (expression settings.seed env cond t).2
        (statements_tallied settings body _ _)
      have word : Silent [.keyword .ifWord] := ⟨rfl, rfl, fun _ => rfl⟩
      apply Tallied.one site rfl rfl rfl rfl (by rw [Walk.pointsIn, tested])
      · exact (test.after word).andThen block.tally.braced
      · exact block.lets
  | .store op location value, context, fr, env, rest, left, t, site =>
      builtinStatement_tallied site (.store op) [location, value] rfl rfl rfl rfl
  | .block body, context, fr, env, rest, left, t, site => by
      have block := braces_tallied site body left t (statements_tallied settings body _ _)
      apply Tallied.one site rfl rfl rfl rfl rfl
      · exact block.tally.braced
      · exact block.lets
  | .forLoop init cond post body, context, fr, env, rest, left, t, site => by
      obtain ⟨second, third, parts⟩ := pointsIn_forLoop settings site init cond post body left t
      obtain ⟨started, visits⟩ := visits_forLoop settings site init cond post body rest left t
      let opening := statements settings (env.inLoopContext false true) init t
      let inside := opening.1.2.inLoopContext env.inLoopBody env.inLoopInit
      let tested := (expression settings.seed inside cond opening.2).2
      let stepped := (braces post.isEmpty (statements settings (inside.inLoopContext false false) post) tested).2
      have grows := statements_extends settings init (env.inLoopContext false true) t
      have around : Site context (fr.enterScope env) inside := site.enterScope.extends_ grows.inLoopContext
      have initPart := statements_tallied settings init left t (site.enterScope.inLoopContext .loopInit nofun)
      have test := expression_tally_of_state settings.seed (fr.enterScope env) inside started cond opening.2
      have postPart := braces_tallied (around.inLoopContext .loopPost nofun) post second tested
        (statements_tallied settings post _ _)
      have bodyPart := braces_tallied (around.inLoopContext .loopBody nofun) body third stepped
        (statements_tallied settings body _ _)
      have word : Silent [.keyword .forWord] := ⟨rfl, rfl, fun _ => rfl⟩
      rw [TalliedBody, ← Grammar.blockSyntax_opening init (fun init => (statements settings _ init t).1.1) rfl,
        ← Yul.Block.typedLets_opening init (fun init => (statements settings _ init t).1.1) rfl] at initPart
      have loop := (((initPart.tally.braced.after word).append test).append postPart.tally.braced).append
        bodyPart.tally.braced
      apply Tallied.one site rfl rfl visits rfl parts
      · simp only [List.flatMap_append, List.length_append]
        rw [Nat.add_zero, Nat.add_assoc] at loop
        refine loop.perm ?_
        -- In the text the condition is behind the init block.
        rw [List.append_assoc, List.append_assoc]
        exact List.perm_append_comm_assoc ..
      · rw [List.flatMap_append, List.flatMap_append]
        exact congrArg₂ (· ++ ·) initPart.lets (congrArg₂ (· ++ ·) postPart.lets bodyPart.lets)
  | .boundedFor body, context, fr, env, rest, left, t, site => by
      have block := braces_tallied site.inBoundedLoop body left t (statements_tallied settings body _ _)
      apply Tallied.one site rfl rfl rfl rfl rfl
      · exact block.tally.braced.after (silent_boundedHeader (.loop env.loopDepth))
      · exact block.lets
  | .switch scrutinee cases default, context, fr, env, rest, left, t, site => by
      by_cases empty : (cases.isEmpty && default.isNone) = true
      · obtain ⟨noCases, noDefault⟩ : cases = [] ∧ default = none := by simpa using empty
        subst noCases noDefault
        exact .simple site rfl rfl (.silent .nil rfl) rfl
      · let tested := (expression settings.seed env scrutinee t).2
        let chosen := (caseArms settings (env.withLabels []) cases tested).2
        obtain ⟨second, third, parts, _⟩ :=
          pointsIn_switch settings site scrutinee cases default rest left t
        have run := statement_switch settings env scrutinee empty t
        have test := expression_tally_of_state settings.seed fr env left scrutinee t
        have arms := (cases_tallied settings cases second tested (site.withLabels [])).append
          (default_tallied settings default third chosen site)
        have word : Silent [.keyword .switchWord] := ⟨rfl, rfl, fun _ => rfl⟩
        have visits : Point.visits settings ⟨context, .switch scrutinee cases default :: rest,
            fr.state left env t⟩ = visitsIn (fr.state left env t).functions scrutinee := if_neg empty
        apply Tallied.node site visits rfl parts
        · have whole := (test.after word).andThen arms.tally
          rw [← List.append_assoc] at whole
          rw [run]
          refine Tally.single ?_
          exact whole
        · rw [run]
          exact (List.append_nil _).trans arms.lets
  | .breakLoop, context, fr, env, rest, left, t, site =>
      loopControl_tallied site ⟨rfl, rfl, fun _ => rfl⟩ rfl rfl rfl rfl rfl rfl
  | .continueLoop, context, fr, env, rest, left, t, site =>
      loopControl_tallied site ⟨rfl, rfl, fun _ => rfl⟩ rfl rfl rfl rfl rfl rfl
  | .log position size topics, context, fr, env, rest, left, t, site =>
      builtinStatement_tallied site (.log _) (position :: size :: topics.take Walk.maxTopics) rfl rfl rfl rfl
  | .copy region target source size, context, fr, env, rest, left, t, site =>
      builtinStatement_tallied site (.copy region) [target, source, size] rfl rfl rfl rfl
  | .extCodeCopy address target source size, context, fr, env, rest, left, t, site =>
      builtinStatement_tallied site .extcodecopy [address, target, source, size] rfl rfl rfl rfl
  | .halt op, context, fr, env, rest, left, t, site => by
      apply Tallied.simple site rfl rfl
      · exact Tally.single (.builtin (.halt op) (.silent .nil rfl))
      · rfl
  | .exit op position size, context, fr, env, rest, left, t, site =>
      builtinStatement_tallied site (.exit op) [position, size] rfl rfl rfl rfl
  | .selfDestruct address, context, fr, env, rest, left, t, site =>
      builtinStatement_tallied site .selfdestruct [address] rfl rfl rfl rfl
  | .call usage selector args targets, context, fr, env, rest, left, t, site => by
      have visits : Point.visits settings ⟨context, .call usage selector args targets :: rest,
          fr.state left env t⟩ = _ := visitsInCall_of_state site.fits usage selector args targets left t
      apply Tallied.simple site rfl rfl
      · rw [visits]
        exact (callStatement_tally (Frame.Fits.pick_eq left t) settings.seed usage selector args targets t).single
      · exact typedLets_of_isSimple (callStatement_isSimple settings.seed env usage selector args targets t)
  | .define inputs outputs body, context, fr, env, rest, left, t, site => by
      by_cases forbidden : env.inLoopInit = true
      · have run := statement_define_forbidden settings forbidden inputs outputs body t
        apply Tallied.simple site rfl
        · exact pointsIn_define_forbidden settings fr forbidden context inputs outputs body left t
        · rw [run]
          exact .dropStatement t
        · rw [run]
          rfl
      · let callable := t.defined inputs outputs
        let after := env.define callable
        have inside := (site.extends_ (.define env (proper_defined t inputs outputs))).inFunctionBody
          (callable.inputs + callable.outputs)
        let start := t.define callable.name.kind
        let block := braces body.isEmpty
          (statements settings (after.inFunctionBody (callable.inputs + callable.outputs)) body) start
        have parts := pointsIn_define settings fr forbidden context inputs outputs body left t
        have bodyPart := braces_tallied inside body left start (statements_tallied settings body _ _)
        let parameters := env.declared (callable.inputs + callable.outputs)
        have called := callAfterDefinition_tally after callable block.2
          (show Visit.isMade ⟨.none, 0, [], [], some callable⟩ = true from rfl)
        have run := statement_define settings forbidden inputs outputs body t
        have visits : Point.visits settings ⟨context, .define inputs outputs body :: rest,
            fr.state left env t⟩ = [] := rfl
        have nodes : (Point.caseNodes ⟨context, .define inputs outputs body :: rest,
            fr.state left env t⟩).length = 0 := rfl
        apply Tallied.node site visits nodes parts
        · have header := silent_parameters (parameters.take callable.inputs) (parameters.drop callable.inputs)
          have whole := (bodyPart.tally.braced.after header).append called.single
          rw [run]
          exact .define callable.name rfl whole
        · rw [run]
          have pair := typedLets_definition
            (show Yul.Stmt.isTypedLet (.function callable.name (parameters.take callable.inputs)
              (parameters.drop callable.inputs) block.1) = false from rfl)
            (callAfterDefinition_typedLets after callable block.2)
          exact pair.trans (congrArg _ bodyPart.lets)
  | .pop value, context, fr, env, rest, left, t, site =>
      builtinStatement_tallied site .pop [value] rfl rfl rfl rfl

/-- The rest of a block. -/
theorem statements_tallied (settings : Settings) : ∀ (body : List Tree.Stmt) {context : Context} {fr : Frame}
    {env : Env} (left : Nat) (t : Thread), Site context fr env →
    TalliedBody settings context fr env body left t
  | [], context, fr, env, left, t, site => .atEnd t
  | stmt :: rest, context, fr, env, left, t, site => by
      obtain ⟨middle, moved⟩ := (statement_moves settings stmt site.fits).after left t
      have first := statement_tallied settings stmt rest left t site
      have others := statements_tallied settings rest middle (statement settings env stmt t).2
        (site.extends_ (statement_extends settings env stmt t))
      let made := statement settings env stmt t
      have code : (statements settings env (stmt :: rest) t).1.1 =
        made.1.1 ++ (statements settings made.1.2 rest made.2).1.1 := rfl
      rw [TalliedBody, Walk.points, moved, code, Grammar.stmtsSyntax_append, Grammar.Stmt.listTokens_append,
        Yul.Stmt.listTypedLets_append]
      exact first.append others

/-- The cases of a switch: each of them is an arm or left out. -/
theorem cases_tallied (settings : Settings) : ∀ (cases : List (Tree.Literal × List Tree.Stmt))
    {context : Context} {fr : Frame} {env : Env} (left : Nat) (t : Thread), Site context fr env →
    Tallied settings (Grammar.Stmt.caseTokens (casesSyntax (caseArms settings env cases t).1))
      (Yul.Stmt.caseTypedLets (caseArms settings env cases t).1)
      (Walk.pointsInCases settings context cases ((fr.enterSwitch env.labels).state left env t))
      cases.length t (caseArms settings env cases t).2
  | [], context, fr, env, left, t, site => .none t
  | (label, body) :: rest, context, fr, env, left, t, site => by
      have made : Tally [] [] 0 t (literal settings.seed label t).2 :=
        .silent .nil (literal_counters settings.seed label t)
      by_cases known : (literal settings.seed label t).1.word ∈ env.labels
      · obtain ⟨right, _, parts⟩ := cases_known settings known body rest left
        rw [caseArms_known settings known body rest, parts]
        have others := cases_tallied settings rest right (literal settings.seed label t).2.dropCase site
        exact (others.after (.dropCase _)).after made
      · obtain ⟨middle, right, _, parts⟩ := cases_new settings site.fits known body rest left
        let seen := (literal settings.seed label t).1.word :: env.labels
        let block := braces body.isEmpty (statements settings (env.withLabels seen) body)
          (literal settings.seed label t).2
        rw [caseArms_new settings known body rest, parts, List.length_cons, Nat.add_comm]
        have inside := (site.withLabels seen).enterSwitch seen
        have first := braces_tallied inside body middle (literal settings.seed label t).2
          (statements_tallied settings body _ _)
        have others := cases_tallied settings rest right block.2 (site.withLabels seen)
        have arm := first.braced.after (.caseWord (Grammar.literalSyntax (literal settings.seed label t).1) _)
        have whole := (arm.append others).after made
        exact whole

/-- The arm of a switch without a label. -/
theorem default_tallied (settings : Settings) : ∀ (default : Option (List Tree.Stmt))
    {context : Context} {fr : Frame} {env : Env} (left : Nat) (t : Thread), Site context fr env →
    Tallied settings (Grammar.Stmt.defaultTokens (defaultSyntax (defaultArm settings env default t).1))
      (Yul.Stmt.defaultTypedLets (defaultArm settings env default t).1)
      (Walk.pointsInDefault settings context default (fr.state left env t)) 0 t
      (defaultArm settings env default t).2
  | none, context, fr, env, left, t, site => .none t
  | some body, context, fr, env, left, t, site => by
      have block := braces_tallied site body left t (statements_tallied settings body _ _)
      have word : Silent [.keyword .defaultWord] := ⟨rfl, rfl, fun _ => rfl⟩
      exact ⟨block.tally.braced.after word, block.lets⟩

end

/-- What a whole program counts. -/
theorem program_tallied (settings : Settings) (tree : Tree.Program) :
    Tallied settings (Grammar.Stmt.listTokens (blockSyntax (program settings tree).1))
      (program settings tree).1.typedLets (tree.points settings) 0 {} (program settings tree).2 :=
  braces_tallied .initial tree.block 0 {} (statements_tallied settings tree.block _ _)

end Lexical

/-- Every program is generated, and the counters describe the tokens of its text. As many functions are defined
    as there are headers of definitions; as many calls are made as there are calls of functions of the program,
    the names in headers not counted. Each definition makes one call, and each call of the tree that the walk
    comes to is either made or counted as replaced by a token, but not both. The cases left out and the arms of
    the text together are the cases that the walk comes to. No counter is more than the number of nodes of the
    tree, by `walk_counts_at_most_size`. -/
theorem generate_tallies (settings : Settings) (tree : Tree.Program) :
    let visits := (tree.points settings).flatMap (Point.visits settings)
    ∃ g ts, tree.generate settings = .ok g ∧ Grammar.tokens g.yul = some ts ∧
      g.stats.functionsDefined = ts.count (.keyword .functionWord) ∧
      g.stats.callsEmitted = (callSites ts).length ∧
      g.stats.callsEmitted = g.stats.functionsDefined + visits.countP Visit.isMade ∧
      g.stats.callFallbacks = visits.countP Visit.isReplaced ∧
      g.stats.callsEmitted + g.stats.callFallbacks = g.stats.functionsDefined + visits.length ∧
      g.stats.casesDropped + ts.count (.keyword .caseWord) =
        ((tree.points settings).flatMap Point.caseNodes).length := by
  intro visits
  obtain ⟨left, _, generated⟩ := Lexical.generate_eq_walk settings tree
  have tally := (Lexical.program_tallied settings tree).tally.braced
  have whole := Grammar.tokens_render (Lexical.program_valid settings tree)
  have emitted := tally.emitted
  have fallbacks := tally.fallbacks
  have sites := tally.sites []
  have cases := tally.cases
  rw [List.append_nil] at sites
  simp only [Nat.zero_add, Nat.add_zero, Grammar.callSites, List.length_nil] at emitted fallbacks sites cases
  have each : visits.length = visits.countP Visit.isMade + visits.countP Visit.isReplaced := by
    rw [List.length_eq_countP_add_countP Visit.isMade]
    congr 2
    funext visit
    rw [visit.isReplaced_eq_not]
    cases visit.isMade <;> rfl
  have functions := tally.functions.trans (Nat.zero_add _)
  refine ⟨_, _, generated, whole, functions, sites.symm, emitted, fallbacks, ?_, cases⟩
  calc (Lexical.program settings tree).2.counters.callsEmitted +
        (Lexical.program settings tree).2.counters.callFallbacks
      = (Lexical.program settings tree).2.counters.functionsDefined + visits.countP Visit.isMade +
          visits.countP Visit.isReplaced := by rw [emitted, fallbacks]
    _ = (Lexical.program settings tree).2.counters.functionsDefined + visits.length := by
          rw [Nat.add_assoc, ← each]

end YulFuzz
