/-
Module: YulFuzz.Proofs.Lexical.Extension
Purpose: What a statement does to the environment of the statements after it: it appends variables, numbered
  on from the next one, or a function, and changes nothing else. All visible functions are proper: they keep
  to the arity bound and stand in the bucket of their number of outputs.
Main exports: Callable.Proper, Lexical.Env.Proper, Lexical.Env.Extends, Lexical.statement_extends,
  Lexical.statements_extends
-/
import YulFuzz.Proofs.Lexical.Translator

namespace YulFuzz

/-- A function that keeps to the arity bound and is named for its number of outputs. -/
structure Callable.Proper (callable : Callable) : Prop where
  kind : callable.name.kind = FunctionKind.ofOutputs callable.outputs
  inputs : callable.inputs ≤ maxArity
  outputs : callable.outputs ≤ maxArity

namespace FunctionKind

@[simp] theorem ofOutputs_eq_noReturn {outputs : Nat} : ofOutputs outputs = .noReturn ↔ outputs = 0 := by
  rcases outputs with _ | _ | outputs <;> simp [ofOutputs]

@[simp] theorem ofOutputs_eq_singleReturn {outputs : Nat} :
    ofOutputs outputs = .singleReturn ↔ outputs = 1 := by
  rcases outputs with _ | _ | outputs <;> simp [ofOutputs]

@[simp] theorem ofOutputs_eq_multiReturn {outputs : Nat} :
    ofOutputs outputs = .multiReturn ↔ 2 ≤ outputs := by
  rcases outputs with _ | _ | outputs <;> simp [ofOutputs]

end FunctionKind

namespace PerKind

variable {α β : Type}

@[simp] theorem get_modify_self (p : PerKind α) (kind : FunctionKind) (f : α → α) :
    (p.modify kind f).get kind = f (p.get kind) := by
  cases kind <;> rfl

theorem get_modify_of_ne (p : PerKind α) {kind other : FunctionKind} (f : α → α) (ne : other ≠ kind) :
    (p.modify kind f).get other = p.get other := by
  cases kind <;> cases other <;> first | rfl | exact absurd rfl ne

@[simp] theorem get_map (p : PerKind α) (f : α → β) (kind : FunctionKind) :
    (p.map f).get kind = f (p.get kind) := by
  cases kind <;> rfl

@[simp] theorem get_zipWith {γ : Type} (f : α → β → γ) (p : PerKind α) (q : PerKind β)
    (kind : FunctionKind) : (zipWith f p q).get kind = f (p.get kind) (q.get kind) := by
  cases kind <;> rfl

@[ext] theorem ext_get {p q : PerKind α} (same : ∀ kind, p.get kind = q.get kind) : p = q := by
  cases p
  cases q
  congr
  · exact same .noReturn
  · exact same .singleReturn
  · exact same .multiReturn

end PerKind

namespace Lexical

variable {α β : Type}

/-! ### Running parts of the translation -/

@[simp] theorem bind_run (m : Threaded α) (f : α → Threaded β) (t : Thread) :
    (m >>= f) t = f (m t).1 (m t).2 := rfl

@[simp] theorem pure_run (a : α) (t : Thread) : (pure a : Threaded α) t = (a, t) := rfl

@[simp] theorem map_run (f : α → β) (m : Threaded α) (t : Thread) :
    (f <$> m) t = (f (m t).1, (m t).2) := rfl

@[simp] theorem drawToken_run (seed : Seed) (t : Thread) :
    drawToken seed t = (seed.token t.drawn, { t with drawn := t.drawn + 1 }) := rfl

/-- The call after a definition is a statement of its own, or a block in which its results are stored. -/
theorem callAfterDefinition_run (env : Env) (callable : Callable) (t : Thread) :
    (callAfterDefinition env callable t).1 =
      if callable.outputs = 0 then .expr (callOnCalldata callable)
      else .block (.spread (.letMany (env.declared callable.outputs) (callOnCalldata callable) ::
        stores (env.declared callable.outputs))) := by
  unfold callAfterDefinition
  split <;> rfl

/-! ### Extensions of an environment -/

namespace Env

/-- All visible functions are proper and stand in the bucket of their kind. -/
def Proper (env : Env) : Prop :=
  ∀ kind, ∀ callable ∈ env.callables.get kind, callable.name.kind = kind ∧ callable.Proper

/-- The visible variables are distinct and all declared so far, and the visible functions are proper. -/
structure Coherent (env : Env) : Prop where
  nodup : env.vars.Nodup
  lt_fresh : ∀ number ∈ env.vars, number < env.fresh
  proper : env.Proper

/-- The environment `after` has more variables, numbered on from the next one, and more functions, and is
    otherwise the same. -/
structure Extends (env after : Env) : Prop where
  vars : ∃ count, after.vars = env.vars ++ List.range' env.fresh count ∧ after.fresh = env.fresh + count
  callables : ∀ kind, ∃ more, after.callables.get kind = env.callables.get kind ++ more ∧
    ∀ callable ∈ more, callable.name.kind = kind ∧ callable.Proper
  inLoopBody : after.inLoopBody = env.inLoopBody
  inLoopInit : after.inLoopInit = env.inLoopInit
  loopDepth : after.loopDepth = env.loopDepth
  labels : after.labels = env.labels

namespace Extends

variable {env after later : Env}

theorem refl (env : Env) : env.Extends env where
  vars := ⟨0, by simp, rfl⟩
  callables := fun _ => ⟨[], by simp, by simp⟩
  inLoopBody := rfl
  inLoopInit := rfl
  loopDepth := rfl
  labels := rfl

theorem trans (first : env.Extends after) (second : after.Extends later) : env.Extends later where
  vars := by
    obtain ⟨count, vars, fresh⟩ := first.vars
    obtain ⟨more, laterVars, laterFresh⟩ := second.vars
    refine ⟨count + more, ?_, by omega⟩
    rw [laterVars, vars, fresh, List.append_assoc, List.range'_append_1]
  callables := fun kind => by
    obtain ⟨added, same, proper⟩ := first.callables kind
    obtain ⟨more, laterSame, laterProper⟩ := second.callables kind
    refine ⟨added ++ more, by rw [laterSame, same, List.append_assoc], fun callable member => ?_⟩
    rcases List.mem_append.1 member with here | there
    · exact proper callable here
    · exact laterProper callable there
  inLoopBody := second.inLoopBody.trans first.inLoopBody
  inLoopInit := second.inLoopInit.trans first.inLoopInit
  loopDepth := second.loopDepth.trans first.loopDepth
  labels := second.labels.trans first.labels

/-- A declaration extends the environment. -/
theorem declare (env : Env) (count : Nat) : env.Extends (env.declare count) :=
  { refl env with vars := ⟨count, rfl, rfl⟩ }

/-- A definition of a proper function extends the environment. -/
theorem define (env : Env) {callable : Callable} (proper : callable.Proper) :
    env.Extends (env.define callable) :=
  { refl env with
    callables := fun kind => by
      by_cases same : kind = callable.name.kind
      · subst same
        exact ⟨[callable], by simp [Env.define], by simpa using proper⟩
      · exact ⟨[], by simp [Env.define, PerKind.get_modify_of_ne _ _ same], by simp⟩ }

theorem proper (extends_ : env.Extends after) (before : env.Proper) : after.Proper := by
  intro kind callable member
  obtain ⟨more, same, new⟩ := extends_.callables kind
  rw [same] at member
  rcases List.mem_append.1 member with old | added
  · exact before kind callable old
  · exact new callable added

/-- A part of a loop, with what is allowed around it allowed again after it. -/
theorem inLoopContext {inLoopBody inLoopInit : Bool}
    (inside : (env.inLoopContext inLoopBody inLoopInit).Extends after) :
    env.Extends (after.inLoopContext env.inLoopBody env.inLoopInit) :=
  ⟨inside.vars, inside.callables, rfl, rfl, inside.loopDepth, inside.labels⟩

theorem fresh_le (extends_ : env.Extends after) : env.fresh ≤ after.fresh := by
  obtain ⟨count, _, fresh⟩ := extends_.vars
  omega

end Extends

namespace Coherent

variable {env after : Env}

theorem initial : Coherent {} where
  nodup := .nil
  lt_fresh := nofun
  proper := by
    intro kind callable member
    cases kind <;> cases member

theorem extends_ (coherent : env.Coherent) (grows : env.Extends after) : after.Coherent := by
  obtain ⟨count, vars, fresh⟩ := grows.vars
  refine ⟨?_, ?_, grows.proper coherent.proper⟩
  · rw [vars, List.nodup_append]
    refine ⟨coherent.nodup, List.nodup_range', ?_⟩
    rintro number old _ new rfl
    have := coherent.lt_fresh number old
    have := (List.mem_range'_1.1 new).1
    omega
  · intro number member
    rw [vars, List.mem_append] at member
    rcases member with old | new
    · have := coherent.lt_fresh number old
      omega
    · have := (List.mem_range'_1.1 new).2
      omega

theorem inLoopContext (coherent : env.Coherent) (inLoopBody inLoopInit : Bool) :
    (env.inLoopContext inLoopBody inLoopInit).Coherent :=
  ⟨coherent.nodup, coherent.lt_fresh, coherent.proper⟩

theorem inBoundedLoop (coherent : env.Coherent) : env.inBoundedLoop.Coherent :=
  ⟨coherent.nodup, coherent.lt_fresh, coherent.proper⟩

theorem withLabels (coherent : env.Coherent) (labels : List Word) : (env.withLabels labels).Coherent :=
  ⟨coherent.nodup, coherent.lt_fresh, coherent.proper⟩

theorem inFunctionBody (proper : env.Proper) (parameters : Nat) :
    (env.inFunctionBody parameters).Coherent := by
  have empty : ({ env with vars := [] }.inLoopContext false false).Coherent := ⟨.nil, nofun, proper⟩
  exact empty.extends_ (.declare _ parameters)

end Coherent

/-! ### What is declared and picked -/

theorem mem_declared {env : Env} {count : Nat} {var : Yul.Var} :
    var ∈ env.declared count ↔ ∃ number, var = .user number ∧ env.fresh ≤ number ∧
      number < env.fresh + count := by
  simp only [declared, List.mem_map, List.mem_range'_1]
  constructor
  · rintro ⟨number, range, rfl⟩
    exact ⟨number, rfl, range⟩
  · rintro ⟨number, rfl, range⟩
    exact ⟨number, range, rfl⟩

theorem nodup_declared (env : Env) (count : Nat) : (env.declared count).Nodup :=
  List.Nodup.map (fun _ _ same => Yul.Var.user.inj same) List.nodup_range'

variable {env : Env} {selector : UInt32} {callee : Callable}

theorem mem_of_pick {kind : FunctionKind} (picked : env.pick kind selector = some callee) :
    callee ∈ env.callables.get kind :=
  List.mem_of_getElem? picked

theorem mem_of_pickAssignable (picked : env.pickAssignable selector = some callee) :
    callee ∈ env.callables.get .multiReturn :=
  List.mem_rotate.1 (List.mem_of_find?_eq_some picked)

/-- Functions picked for an assignment have no more results than there are visible variables. -/
theorem outputs_le_of_pickAssignable (picked : env.pickAssignable selector = some callee) :
    callee.outputs ≤ env.vars.length := by
  simpa using List.find?_some picked

end Env

/-- The function that a definition with the given arities defines. -/
def Thread.defined (t : Thread) (inputs outputs : UInt32) : Callable :=
  let outputs := outputs.toNat % (maxArity + 1)
  let kind := FunctionKind.ofOutputs outputs
  ⟨⟨kind, t.next.get kind⟩, inputs.toNat % (maxArity + 1), outputs⟩

/-- Arities that are reduced to the bound make a proper function. -/
theorem proper_defined (t : Thread) (inputs outputs : UInt32) : (t.defined inputs outputs).Proper where
  kind := rfl
  inputs := Nat.le_of_lt_succ (Nat.mod_lt _ (Nat.succ_pos _))
  outputs := Nat.le_of_lt_succ (Nat.mod_lt _ (Nat.succ_pos _))

theorem callStatement_extends (seed : Seed) (env : Env) (usage : Tree.CallUsage) (selector : UInt32)
    (args : List Tree.Expr) (requests : List UInt32) (t : Thread) :
    env.Extends (callStatement seed env usage selector args requests t).1.2 := by
  unfold callStatement
  cases env.callee? usage selector with
  | none => exact .refl env
  | some callee =>
      cases usage with
      | none | single | multiAssign => exact .refl env
      | multiDecl => exact .declare env _

theorem loopControl_extends (env : Env) (control : Yul.Stmt) (t : Thread) :
    env.Extends (loopControl env control t).1.2 := by
  unfold loopControl
  split <;> exact .refl env

/-- A statement extends the environment of the statements after it. -/
theorem statement_extends (settings : Settings) (env : Env) (stmt : Tree.Stmt) (t : Thread) :
    env.Extends (statement settings env stmt t).1.2 := by
  cases stmt with
  | declare type value => exact .declare env 1
  | switch scrutinee cases default =>
      rw [statement]
      split
      · exact .refl env
      · cases default <;> exact .refl env
  | call usage selector args targets => exact callStatement_extends ..
  | define inputs outputs body =>
      rw [statement]
      split
      · exact .refl env
      · exact .define env (proper_defined t inputs outputs)
  | breakLoop | continueLoop => exact loopControl_extends ..
  | assign | ifThen | store | block | forLoop | boundedFor | log | copy | extCodeCopy | halt | exit
  | selfDestruct | pop => exact .refl env

/-- The statements of a block extend the environment. -/
theorem statements_extends (settings : Settings) (body : List Tree.Stmt) (env : Env) (t : Thread) :
    env.Extends (statements settings env body t).1.2 := by
  induction body generalizing env t with
  | nil => exact .refl env
  | cons stmt rest ih => exact (statement_extends settings env stmt t).trans (ih _ _)

end Lexical

end YulFuzz
