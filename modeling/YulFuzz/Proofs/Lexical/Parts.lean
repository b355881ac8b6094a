/-
Module: YulFuzz.Proofs.Lexical.Parts
Purpose: The parts of loops, switches and definitions. Where a walk starts in a state for a frame and an
  environment, each part of a statement is walked from a state for the environment in which the lexical
  translation has it; so the points inside and the cases of a switch are given by the translation.
Main exports: Lexical.Site.code_eq, Lexical.pointsIn_forLoop, Lexical.cases_known, Lexical.cases_new,
  Lexical.pointsIn_switch, Lexical.statement_switch, Lexical.pointsIn_define, Lexical.statement_define
-/
import YulFuzz.Proofs.Lexical.Site
import YulFuzz.Proofs.Lexical.Thread

namespace YulFuzz.Lexical

open Walk (Context Point)

variable {context : Context} {fr : Frame} {env : Env} {t : Thread}

/-! ### Points -/

/-- The walk of a point does what the lexical translation does. -/
theorem Site.run_eq (site : Site context fr env) (settings : Settings) (stmt : Tree.Stmt)
    (rest : List Tree.Stmt) (left : Nat) (t : Thread) :
    ∃ left', Point.run settings ⟨context, stmt :: rest, fr.state left env t⟩ =
      .ok ((statement settings env stmt t).1.1,
        fr.state left' (statement settings env stmt t).1.2 (statement settings env stmt t).2) :=
  statement_moves settings stmt site.fits left t

theorem Site.code_eq (site : Site context fr env) (settings : Settings) (stmt : Tree.Stmt)
    (rest : List Tree.Stmt) (left : Nat) (t : Thread) :
    Point.code settings ⟨context, stmt :: rest, fr.state left env t⟩ =
      (statement settings env stmt t).1.1 := by
  obtain ⟨left', run⟩ := site.run_eq settings stmt rest left t
  rw [Point.code, run]

/-! ### Loops -/

/-- The points inside a general loop: those of its init block, of its post block and of its body. -/
theorem pointsIn_forLoop (settings : Settings) (site : Site context fr env) (init : List Tree.Stmt)
    (cond : Tree.Expr) (post body : List Tree.Stmt) (left : Nat) (t : Thread) :
    let opening := statements settings (env.inLoopContext false true) init t
    let inside := opening.1.2.inLoopContext env.inLoopBody env.inLoopInit
    let tested := (expression settings.seed inside cond opening.2).2
    let stepped := (braces post.isEmpty (statements settings (inside.inLoopContext false false) post) tested).2
    ∃ second third, Walk.pointsIn settings context (.forLoop init cond post body) (fr.state left env t) =
      Walk.points settings .loopInit init ((fr.enterScope env).state left (env.inLoopContext false true) t) ++
        (Walk.inBlock post.isEmpty (Walk.points settings .loopPost post)
            ((fr.enterScope env).state second (inside.inLoopContext false false) tested) ++
          Walk.inBlock body.isEmpty (Walk.points settings .loopBody body)
            ((fr.enterScope env).state third (inside.inLoopContext true false) stepped)) := by
  intro opening inside tested stepped
  have grows := statements_extends settings init (env.inLoopContext false true) t
  have fits : (fr.enterScope env).Fits inside := site.fits.enterScope.extends_ grows.inLoopContext
  have first := statements_moves settings init (site.fits.enterScope.inLoopContext false true)
  obtain ⟨started, afterInit⟩ := first.inLoopContext.after left t
  obtain ⟨second, afterCond⟩ := (expression_keeps settings.seed fits cond).after started opening.2
  have last := braces_keeps settings post
    (statements_moves settings post (fits.inLoopContext false false).enterScope)
  obtain ⟨third, afterPost⟩ := (Keeps.inLoopContext last).after second tested
  refine ⟨second, third, ?_⟩
  have opened : (fr.state left env t).enterScope = (fr.enterScope env).state left env t := rfl
  simp only [Walk.pointsIn]
  rw [opened, afterInit, map_run]
  rw [afterCond, afterPost]
  rfl

/-! ### Switches -/

section Case

variable {label : Tree.Literal}

/-- A case with a label that has been seen is left out; its label is made, its block is not walked. -/
theorem cases_known (settings : Settings) (known : (literal settings.seed label t).1.word ∈ env.labels)
    (body : List Tree.Stmt) (rest : List (Tree.Literal × List Tree.Stmt)) (left : Nat) :
    ∃ right, Walk.casesFrom settings ((label, body) :: rest) ((fr.enterSwitch env.labels).state left env t) =
        ⟨(literal settings.seed label t).1, none⟩ :: Walk.casesFrom settings rest
          ((fr.enterSwitch env.labels).state right env (literal settings.seed label t).2.dropCase) ∧
      ∀ context, Walk.pointsInCases settings context ((label, body) :: rest)
          ((fr.enterSwitch env.labels).state left env t) =
        Walk.pointsInCases settings context rest
          ((fr.enterSwitch env.labels).state right env (literal settings.seed label t).2.dropCase) := by
  have keeps : Keeps (fr.enterSwitch env.labels) env _ _ := literal_keeps settings.seed label
  obtain ⟨right, made⟩ := keeps left t
  have seen : Walk.recordLabel _ ((fr.enterSwitch env.labels).state right env _) = _ :=
    recordLabel_known known right (literal settings.seed label t).2
  have walked : Walk.caseArms settings [(label, body)] ((fr.enterSwitch env.labels).state left env t) =
      .ok ([], (fr.enterSwitch env.labels).state right env (literal settings.seed label t).2.dropCase) := by
    rw [Walk.caseArms, bind_of_ok made, bind_of_ok seen]
    rfl
  refine ⟨right, ?_, fun context => ?_⟩
  · simp only [Walk.casesFrom, made, walked, List.head?_nil, Option.map_none]
  · simp only [Walk.pointsInCases, bind_of_ok made, seen, Walk.after, walked, List.nil_append]

/-- A case with a new label is an arm; its block is walked where the label has been seen. -/
theorem cases_new (settings : Settings) (fits : fr.Fits env)
    (new : (literal settings.seed label t).1.word ∉ env.labels) (body : List Tree.Stmt)
    (rest : List (Tree.Literal × List Tree.Stmt)) (left : Nat) :
    let seen := (literal settings.seed label t).1.word :: env.labels
    let block := braces body.isEmpty (statements settings (env.withLabels seen) body)
      (literal settings.seed label t).2
    ∃ middle right,
      Walk.casesFrom settings ((label, body) :: rest) ((fr.enterSwitch env.labels).state left env t) =
        ⟨(literal settings.seed label t).1, some block.1⟩ ::
          Walk.casesFrom settings rest ((fr.enterSwitch seen).state right env block.2) ∧
      ∀ context, Walk.pointsInCases settings context ((label, body) :: rest)
          ((fr.enterSwitch env.labels).state left env t) =
        Walk.inBlock body.isEmpty (Walk.points settings context body)
            ((fr.enterSwitch seen).state middle env (literal settings.seed label t).2) ++
          Walk.pointsInCases settings context rest ((fr.enterSwitch seen).state right env block.2) := by
  intro seen block
  have keeps : Keeps (fr.enterSwitch env.labels) env _ _ := literal_keeps settings.seed label
  obtain ⟨middle, made⟩ := keeps left t
  have recorded : Walk.recordLabel _ ((fr.enterSwitch env.labels).state middle env _) = _ :=
    recordLabel_new new middle (literal settings.seed label t).2
  have inside : (fr.enterSwitch seen).Fits (env.withLabels seen) := (fits.withLabels seen).enterSwitch seen
  obtain ⟨right, blockMade⟩ := braces_keeps settings body (statements_moves settings body inside.enterScope)
    middle (literal settings.seed label t).2
  have walked : Walk.caseArms settings [(label, body)] ((fr.enterSwitch env.labels).state left env t) =
      .ok ([((literal settings.seed label t).1, block.1)], (fr.enterSwitch seen).state right env block.2) := by
    rw [Walk.caseArms, bind_of_ok made, bind_of_ok recorded, if_pos rfl]
    exact bind_of_ok blockMade
  refine ⟨middle, right, ?_, fun context => ?_⟩
  · simp only [Walk.casesFrom, made, walked, List.head?_cons, Option.map_some]
  · simp only [Walk.pointsInCases, bind_of_ok made, recorded, Walk.after, walked]
    rfl

theorem caseArms_known (settings : Settings) (known : (literal settings.seed label t).1.word ∈ env.labels)
    (body : List Tree.Stmt) (rest : List (Tree.Literal × List Tree.Stmt)) :
    caseArms settings env ((label, body) :: rest) t =
      caseArms settings env rest (literal settings.seed label t).2.dropCase := by
  rw [caseArms, bind_run, if_pos known]
  rfl

theorem caseArms_new (settings : Settings) (new : (literal settings.seed label t).1.word ∉ env.labels)
    (body : List Tree.Stmt) (rest : List (Tree.Literal × List Tree.Stmt)) :
    let seen := (literal settings.seed label t).1.word :: env.labels
    let block := braces body.isEmpty (statements settings (env.withLabels seen) body)
      (literal settings.seed label t).2
    let others := caseArms settings (env.withLabels seen) rest block.2
    caseArms settings env ((label, body) :: rest) t =
      (((literal settings.seed label t).1, block.1) :: others.1, others.2) := by
  rw [caseArms, bind_run, if_neg new]
  rfl

end Case

/-- The arm of a switch without a label. -/
def defaultArm (settings : Settings) (env : Env) : Option (List Tree.Stmt) → Threaded (Option Yul.Block)
  | none => return none
  | some body => some <$> braces body.isEmpty (statements settings env body)

/-- A switch with a case or with a last arm becomes a switch. -/
theorem statement_switch (settings : Settings) (env : Env) (scrutinee : Tree.Expr)
    {cases : List (Tree.Literal × List Tree.Stmt)} {default : Option (List Tree.Stmt)}
    (nonempty : ¬ (cases.isEmpty && default.isNone) = true) (t : Thread) :
    let tested := expression settings.seed env scrutinee t
    let arms := caseArms settings (env.withLabels []) cases tested.2
    let last := defaultArm settings env default arms.2
    statement settings env (.switch scrutinee cases default) t =
      (([.switch tested.1 arms.1 last.1], env), last.2) := by
  rw [statement, if_neg nonempty]
  cases default <;> rfl

/-- The points inside a switch: those of its cases, and of its last arm. -/
theorem pointsIn_switch (settings : Settings) (site : Site context fr env) (scrutinee : Tree.Expr)
    (cases : List (Tree.Literal × List Tree.Stmt)) (default : Option (List Tree.Stmt))
    (rest : List Tree.Stmt) (left : Nat) (t : Thread) :
    let tested := (expression settings.seed env scrutinee t).2
    let chosen := (caseArms settings (env.withLabels []) cases tested).2
    ∃ second third, Walk.pointsIn settings context (.switch scrutinee cases default) (fr.state left env t) =
        Walk.pointsInCases settings context cases ((fr.enterSwitch []).state second env tested) ++
          Walk.pointsInDefault settings context default (fr.state third env chosen) ∧
      Point.cases settings ⟨context, .switch scrutinee cases default :: rest, fr.state left env t⟩ =
        Walk.casesFrom settings cases ((fr.enterSwitch []).state second env tested) := by
  intro tested chosen
  obtain ⟨second, afterScrutinee⟩ := (expression_keeps settings.seed site.fits scrutinee).after left t
  obtain ⟨third, afterCases⟩ :=
    (Keeps.inSwitch (caseArms_records settings cases (site.fits.withLabels []))).after second tested
  refine ⟨second, third, ?_, ?_⟩
  · simp only [Walk.pointsIn]
    rw [afterScrutinee, afterCases]
    rfl
  · simp only [Point.cases]
    rw [afterScrutinee]
    rfl

/-! ### Definitions -/

/-- Where no function may be defined a definition is left out. -/
theorem statement_define_forbidden (settings : Settings) {env : Env} (forbidden : env.inLoopInit = true)
    (inputs outputs : UInt32) (body : List Tree.Stmt) (t : Thread) :
    statement settings env (.define inputs outputs body) t = (([], env), t.dropStatement) := by
  rw [statement, if_pos forbidden]
  rfl

/-- A definition becomes a function and a call of it. -/
theorem statement_define (settings : Settings) {env : Env} (allowed : ¬ env.inLoopInit = true)
    (inputs outputs : UInt32) (body : List Tree.Stmt) (t : Thread) :
    let callable := t.defined inputs outputs
    let after := env.define callable
    let parameters := env.declared (callable.inputs + callable.outputs)
    let block := braces body.isEmpty
      (statements settings (after.inFunctionBody (callable.inputs + callable.outputs)) body)
      (t.define callable.name.kind)
    let called := callAfterDefinition after callable block.2
    statement settings env (.define inputs outputs body) t =
      (([.function callable.name (parameters.take callable.inputs) (parameters.drop callable.inputs) block.1,
        called.1], after), called.2) := by
  rw [statement, if_neg allowed]
  rfl

theorem pointsIn_define_forbidden (settings : Settings) (fr : Frame) {env : Env}
    (forbidden : env.inLoopInit = true) (context : Context) (inputs outputs : UInt32) (body : List Tree.Stmt)
    (left : Nat) (t : Thread) :
    Walk.pointsIn settings context (.define inputs outputs body) (fr.state left env t) = [] := by
  simp only [Walk.pointsIn]
  exact if_pos forbidden

/-- The state in front of the body of a new function. -/
theorem inFunctionBody?_eq (fr : Frame) (env : Env) (left : Nat) (t : Thread) (inputs outputs : UInt32) :
    (fr.state left env t).inFunctionBody? (inputs.toNat % (maxArity + 1)) (outputs.toNat % (maxArity + 1)) =
      let callable := t.defined inputs outputs
      let after := env.define callable
      some (((fr.enterScope after).enterFunction after).state left
        (after.inFunctionBody (callable.inputs + callable.outputs)) (t.define callable.name.kind)) := by
  have proper := proper_defined t inputs outputs
  have registered : (fr.state left env t).functions.register (inputs.toNat % (maxArity + 1))
      (outputs.toNat % (maxArity + 1)) = .ok _ := if_pos ⟨proper.inputs, proper.outputs⟩
  unfold Walk.State.inFunctionBody?
  rw [registered]
  rfl

/-- The points inside a definition: those of its body, in the scope of its parameters and results. -/
theorem pointsIn_define (settings : Settings) (fr : Frame) {env : Env} (allowed : ¬ env.inLoopInit = true)
    (context : Context) (inputs outputs : UInt32) (body : List Tree.Stmt) (left : Nat) (t : Thread) :
    let callable := t.defined inputs outputs
    let after := env.define callable
    Walk.pointsIn settings context (.define inputs outputs body) (fr.state left env t) =
      Walk.inBlock body.isEmpty (Walk.points settings .functionBody body)
        (((fr.enterScope after).enterFunction after).state left
          (after.inFunctionBody (callable.inputs + callable.outputs)) (t.define callable.name.kind)) := by
  intro callable after
  simp only [Walk.pointsIn, inFunctionBody?_eq]
  exact if_neg allowed

end YulFuzz.Lexical
