/-
Module: YulFuzz.Proofs.Switches
Purpose: The arms of switches. The labels of a switch stand for distinct words, and a case of the tree is left
  out exactly if the label of an earlier case of the same switch stands for the same word, whatever switches are
  in the blocks of the cases between them. What is left out is counted.
Main exports: Grammar.Stmt.DistinctLabels, Walk.Case.IsOf, Walk.LeavesOutRepeated, Walk.Point.ChoosesCases,
  Lexical.Stands.choosesCases, generate_distinctLabels
-/
import YulFuzz.Proofs.Denotation
import YulFuzz.Proofs.Trace

namespace YulFuzz

open Grammar (stmtSyntax stmtsSyntax casesSyntax literalSyntax allStmts)
open Walk (Point Case)

namespace Grammar.Stmt

/-- Whether a statement is a switch. -/
def isSwitch : Stmt → Bool
  | .switch _ _ _ => true
  | _ => false

/-- A switch has an arm, and its labels stand for distinct words. -/
def DistinctLabels : Stmt → Prop
  | .switch _ cases default =>
    (cases.map (·.1.value)).Nodup ∧ (∀ case ∈ cases, case.1.value < 2 ^ 256) ∧ (cases ≠ [] ∨ default.isSome)
  | _ => True

end Grammar.Stmt

namespace Walk

/-- A case that a walk comes to is one of the tree: its label is made for the label there, and its block, if it
    is not left out, for the statements there. -/
structure Case.IsOf (settings : Settings) (case : Tree.Literal × List Tree.Stmt) (visit : Case) : Prop where
  label : ∃ s s', literal settings.seed case.1 s = .ok (visit.label, s')
  block : ∀ block, visit.block = some block →
    ∃ s s', braces case.2.isEmpty (statements settings case.2) s = .ok (block, s')

/-- Of the cases those are left out whose label stands for the same number as that of an earlier one. -/
def LeavesOutRepeated (visits : List Case) : Prop :=
  ∀ before visit later, visits = before ++ visit :: later →
    (visit.block = none ↔
      ∃ earlier ∈ before, (literalSyntax earlier.label).value = (literalSyntax visit.label).value)

/-- The cases of a switch are walked in order, those with a repeated label are left out, and the others are
    the arms of one switch, which has a last arm if the tree has one. Without any arm there is no switch. -/
def Point.ChoosesCases (settings : Settings) (p : Point) : Prop :=
  match p.rest with
  | .switch _ cases default :: _ =>
    List.Forall₂ (Case.IsOf settings) cases (p.cases settings) ∧
    LeavesOutRepeated (p.cases settings) ∧
    if cases.isEmpty && default.isNone then p.code settings = []
    else ∃ scrutinee last, last.isSome = default.isSome ∧
      p.code settings = [.switch scrutinee ((p.cases settings).filterMap Case.arm?) last]
  | _ => True

end Walk

namespace Lexical

/-! ### The cases of a switch -/

/-- Of the cases those are left out whose word is among those seen before, or the word of an earlier one. -/
def LeavesOutSeen (seen : List Word) (visits : List Case) : Prop :=
  ∀ before visit later, visits = before ++ visit :: later →
    (visit.block = none ↔ visit.label.word ∈ seen ∨ ∃ earlier ∈ before, earlier.label.word = visit.label.word)

namespace LeavesOutSeen

variable {seen : List Word} {label : Yul.Literal} {rest : List Case}

theorem nil (seen : List Word) : LeavesOutSeen seen [] := by
  intro before visit later split
  simp at split

/-- A case with a seen word is left out, and nothing more has been seen after it. -/
theorem again (known : label.word ∈ seen) (others : LeavesOutSeen seen rest) :
    LeavesOutSeen seen (⟨label, none⟩ :: rest) := by
  intro before visit later split
  cases before with
  | nil =>
      obtain ⟨rfl, rfl⟩ := List.cons.inj split
      simp [known]
  | cons first before =>
      obtain ⟨rfl, same⟩ := List.cons.inj split
      rw [others before visit later same]
      simp only [List.mem_cons, exists_eq_or_imp]
      constructor
      · exact Or.imp_right .inr
      · rintro (early | first | between)
        · exact .inl early
        · exact .inl (first ▸ known)
        · exact .inr between

/-- A case with a new word is an arm, and its word has been seen after it. -/
theorem arm (new : label.word ∉ seen) (block : Yul.Block) (others : LeavesOutSeen (label.word :: seen) rest) :
    LeavesOutSeen seen (⟨label, some block⟩ :: rest) := by
  intro before visit later split
  cases before with
  | nil =>
      obtain ⟨rfl, rfl⟩ := List.cons.inj split
      simp [new]
  | cons first before =>
      obtain ⟨rfl, same⟩ := List.cons.inj split
      rw [others before visit later same]
      simp only [List.mem_cons, exists_eq_or_imp]
      rw [eq_comm (a := visit.label.word), or_assoc, or_left_comm]

end LeavesOutSeen

/-- What the cases that a walk comes to have to do with those of the tree, and with the arms made for them. -/
structure Visits (settings : Settings) (seen : List Word) (cases : List (Tree.Literal × List Tree.Stmt))
    (visits : List Case) (arms : List (Yul.Literal × Yul.Block)) : Prop where
  inOrder : List.Forall₂ (Case.IsOf settings) cases visits
  leftOut : LeavesOutSeen seen visits
  arms : visits.filterMap Case.arm? = arms
  valid : ∀ visit ∈ visits, (literalSyntax visit.label).Valid

/-- The cases are left out and made as the lexical translation has it. -/
theorem casesFrom_visits (settings : Settings) (cases : List (Tree.Literal × List Tree.Stmt)) {fr : Frame}
    {env : Env} (fits : fr.Fits env) (left : Nat) (t : Thread) :
    Visits settings env.labels cases
      (Walk.casesFrom settings cases ((fr.enterSwitch env.labels).state left env t))
      (caseArms settings env cases t).1 := by
  induction cases generalizing env left t with
  | nil => exact ⟨.nil, .nil _, rfl, nofun⟩
  | cons case rest ih =>
      obtain ⟨label, body⟩ := case
      have keeps : Keeps (fr.enterSwitch env.labels) env _ _ := literal_keeps settings.seed label
      obtain ⟨_, made⟩ := keeps left t
      have valid := literal_valid settings.seed label t
      by_cases known : (literal settings.seed label t).1.word ∈ env.labels
      · obtain ⟨right, visits, _⟩ := cases_known settings known body rest left
        rw [visits, caseArms_known settings known body rest]
        have others := ih fits right (literal settings.seed label t).2.dropCase
        constructor
        case inOrder => exact .cons ⟨⟨_, _, made⟩, nofun⟩ others.inOrder
        case leftOut => exact .again known others.leftOut
        case arms => exact others.arms
        case valid => exact List.forall_mem_cons.2 ⟨valid, others.valid⟩
      · obtain ⟨_, right, visits, _⟩ := cases_new settings fits known body rest left
        let seen := (literal settings.seed label t).1.word :: env.labels
        let block := braces body.isEmpty (statements settings (env.withLabels seen) body)
          (literal settings.seed label t).2
        rw [visits, caseArms_new settings known body rest]
        -- After the block exactly its own label has been added, whatever switches are inside of it.
        have others := ih (fits.withLabels seen) right block.2
        have walked := braces_keeps settings body
          (statements_moves settings body (fits.withLabels seen).enterScope)
        obtain ⟨_, there⟩ := walked left (literal settings.seed label t).2
        constructor
        case inOrder =>
          refine .cons ⟨⟨_, _, made⟩, ?_⟩ others.inOrder
          rintro _ ⟨⟩
          exact ⟨_, _, there⟩
        case leftOut => exact .arm known block.1 others.leftOut
        case arms => exact congrArg (_ :: ·) others.arms
        case valid => exact List.forall_mem_cons.2 ⟨valid, others.valid⟩

/-- Where nothing has been seen, the cases with a repeated label are left out. -/
theorem Visits.leavesOutRepeated {settings : Settings} {cases : List (Tree.Literal × List Tree.Stmt)}
    {visits : List Case} {arms : List (Yul.Literal × Yul.Block)}
    (made : Visits settings [] cases visits arms) :
    Walk.LeavesOutRepeated visits := by
  intro before visit later split
  have valid : ∀ other ∈ before ++ visit :: later, (literalSyntax other.label).Valid := split ▸ made.valid
  rw [made.leftOut before visit later split]
  constructor
  · rintro (seen | ⟨earlier, member, same⟩)
    · cases seen
    · refine ⟨earlier, member, ?_⟩
      exact (word_eq_iff_value_eq (valid earlier (by simp [member])) (valid visit (by simp))).1 same
  · rintro ⟨earlier, member, same⟩
    refine .inr ⟨earlier, member, ?_⟩
    exact (word_eq_iff_value_eq (valid earlier (by simp [member])) (valid visit (by simp))).2 same

/-- The arms of a switch have distinct words, none of which has been seen before. -/
theorem caseArms_words (settings : Settings) (cases : List (Tree.Literal × List Tree.Stmt)) (env : Env)
    (t : Thread) :
    ((caseArms settings env cases t).1.map (·.1.word)).Nodup ∧
      ∀ arm ∈ (caseArms settings env cases t).1, arm.1.word ∉ env.labels := by
  induction cases generalizing env t with
  | nil => exact ⟨.nil, nofun⟩
  | cons case rest ih =>
      obtain ⟨label, body⟩ := case
      by_cases known : (literal settings.seed label t).1.word ∈ env.labels
      · rw [caseArms_known settings known body rest]
        exact ih env _
      · rw [caseArms_new settings known body rest]
        let seen := (literal settings.seed label t).1.word :: env.labels
        let block := braces body.isEmpty (statements settings (env.withLabels seen) body)
          (literal settings.seed label t).2
        obtain ⟨distinct, unseen⟩ := ih (env.withLabels seen) block.2
        constructor
        · rw [List.map_cons, List.nodup_cons]
          refine ⟨fun again => ?_, distinct⟩
          obtain ⟨arm, member, same⟩ := List.mem_map.1 again
          exact unseen arm member (same ▸ List.mem_cons_self)
        · refine List.forall_mem_cons.2 ⟨known, fun arm member before => ?_⟩
          exact unseen arm member (List.mem_cons_of_mem _ before)

theorem casesSyntax_eq_map (arms : List (Yul.Literal × Yul.Block)) :
    casesSyntax arms = arms.map fun arm => (literalSyntax arm.1, Grammar.blockSyntax arm.2) := by
  induction arms with
  | nil => rfl
  | cons arm rest ih => exact congrArg (_ :: ·) ih

/-- The labels of the arms are valid, so they stand for distinct numbers. -/
theorem Visits.distinct {settings : Settings} {seen : List Word}
    {cases : List (Tree.Literal × List Tree.Stmt)} {visits : List Case}
    {arms : List (Yul.Literal × Yul.Block)} (made : Visits settings seen cases visits arms)
    (words : (arms.map (·.1.word)).Nodup) :
    ((casesSyntax arms).map (·.1.value)).Nodup ∧ ∀ case ∈ casesSyntax arms, case.1.value < 2 ^ 256 := by
  have values : (casesSyntax arms).map (·.1.value) = (arms.map (·.1.word)).map Word.value := by
    rw [casesSyntax_eq_map, List.map_map, List.map_map]
    apply List.map_congr_left
    intro arm member
    rw [← made.arms, List.mem_filterMap] at member
    obtain ⟨visit, here, found⟩ := member
    obtain ⟨block, _, rfl⟩ := Option.map_eq_some_iff.1 found
    exact value_literalSyntax (made.valid visit here)
  constructor
  · rw [values]
    exact words.map fun _ _ same => Word.value_injective same
  · intro case member
    have among : case.1.value ∈ (casesSyntax arms).map (·.1.value) := List.mem_map_of_mem member
    rw [values, List.mem_map] at among
    obtain ⟨word, _, same⟩ := among
    exact same ▸ word.value_lt

/-! ### Switches at points -/

variable {settings : Settings} {p : Point} {context : Walk.Context} {fr : Frame} {env : Env}

/-- The cases of the switch at a site are those of the tree, and make the arms of the switch. -/
theorem Site.visits (site : Site context fr env) (settings : Settings) (scrutinee : Tree.Expr)
    (cases : List (Tree.Literal × List Tree.Stmt)) (default : Option (List Tree.Stmt))
    (rest : List Tree.Stmt) (left : Nat) (t : Thread) :
    Visits settings [] cases
      (Point.cases settings ⟨context, .switch scrutinee cases default :: rest, fr.state left env t⟩)
      (caseArms settings (env.withLabels []) cases (expression settings.seed env scrutinee t).2).1 := by
  obtain ⟨second, _, _, same⟩ := pointsIn_switch settings site scrutinee cases default rest left t
  rw [same]
  exact casesFrom_visits settings cases (site.fits.withLabels []) second _

theorem defaultArm_isSome (settings : Settings) (env : Env) (default : Option (List Tree.Stmt)) (t : Thread) :
    (defaultArm settings env default t).1.isSome = default.isSome := by
  cases default <;> rfl

/-- At every point the cases of a switch are chosen by their labels. -/
theorem Stands.choosesCases (stands : Stands p) : p.ChoosesCases settings := by
  obtain @⟨_, _, env, site, rest, left, t⟩ := stands
  cases rest with
  | nil => trivial
  | cons stmt rest =>
      cases stmt with
      | switch scrutinee cases default =>
          have visits := site.visits settings scrutinee cases default rest left t
          refine ⟨visits.inOrder, visits.leavesOutRepeated, ?_⟩
          rw [site.code_eq]
          by_cases empty : (cases.isEmpty && default.isNone) = true
          · rw [if_pos empty, statement, if_pos empty]
            rfl
          · rw [if_neg empty, statement_switch settings env scrutinee empty, visits.arms]
            exact ⟨_, _, defaultArm_isSome settings env default _, rfl⟩
      | _ => trivial

/-- A switch that is made at a site has an arm, and its labels are distinct. -/
theorem Site.switch_distinct (site : Site context fr env) (settings : Settings) (scrutinee : Tree.Expr)
    (cases : List (Tree.Literal × List Tree.Stmt)) (default : Option (List Tree.Stmt))
    (rest : List Tree.Stmt) (left : Nat) (t : Thread) :
    ∀ made ∈ stmtsSyntax (statement settings env (.switch scrutinee cases default) t).1.1,
      made.DistinctLabels := by
  by_cases empty : (cases.isEmpty && default.isNone) = true
  · rw [statement, if_pos empty]
    exact List.forall_mem_nil _
  · rw [statement_switch settings env scrutinee empty]
    have visits := site.visits settings scrutinee cases default rest left t
    obtain ⟨distinct, small⟩ := visits.distinct (caseArms_words settings cases (env.withLabels []) _).1
    refine List.forall_mem_singleton.2 ⟨distinct, small, ?_⟩
    cases default with
    | none =>
        have nonempty : cases ≠ [] := by simpa using empty
        exact .inl (casesSyntax_ne_nil (caseArms_ne_nil settings rfl nonempty _))
    | some body => exact .inr rfl

theorem distinctLabels_of_not_isSwitch {stmt : Grammar.Stmt} (other : stmt.isSwitch = false) :
    stmt.DistinctLabels := by
  cases stmt with
  | switch => cases other
  | _ => trivial

theorem isControl_of_isSwitch (stmt : Grammar.Stmt) (switch : stmt.isSwitch = true) :
    stmt.isControl = true := by
  cases stmt with
  | switch => rfl
  | _ => cases switch

/-- The switches made at a point have distinct labels. -/
theorem Stands.distinctLabels (stands : Stands p) : ∀ placed ∈ p.made settings, placed.2.DistinctLabels := by
  obtain ⟨site, rest, left, t⟩ := stands
  intro placed member
  cases rest with
  | nil => cases member
  | cons stmt rest =>
      by_cases switch : placed.2.isSwitch = true
      · have makes := site.makes settings rest left t placed member (isControl_of_isSwitch _ switch)
        rw [Point.made, site.code_eq] at member
        obtain ⟨made, inside, rfl⟩ := List.mem_map.1 member
        cases made with
        | switch =>
            cases stmt with
            | switch scrutinee cases default =>
                exact site.switch_distinct settings scrutinee cases default rest left t _ inside
            | _ => cases makes
        | _ => cases switch
      · exact distinctLabels_of_not_isSwitch (Bool.eq_false_of_not_eq_true switch)

end Lexical

/-- Every program is generated, and its text is read as a block, the tokens of which it has, where every
    switch has an arm and labels that stand for distinct words; arms with a label are in front of the one
    without. These switches are, in order, those made at the points of the walk, where a case is left out
    exactly if an earlier case of the same switch has the same word, and the cases that are left out are
    counted. -/
theorem generate_distinctLabels (settings : Settings) (tree : Tree.Program) :
    ∃ g block, tree.generate settings = .ok g ∧ Grammar.read g.yul = some block ∧
      Grammar.tokens g.yul = some (Grammar.braced (Grammar.Stmt.listTokens block)) ∧
      (∀ placed ∈ allStmts false block, placed.2.DistinctLabels) ∧
      (allStmts false block).filter (·.2.isSwitch) =
        (tree.points settings).flatMap (fun p => (p.made settings).filter (·.2.isSwitch)) ∧
      (∀ p ∈ tree.points settings,
        p.ChoosesCases settings ∧ Grammar.Occurs (stmtsSyntax (p.code settings)) block) ∧
      g.stats.casesDropped = Walk.casesDroppedAt settings (tree.points settings) := by
  obtain ⟨g, generated, text, reading, _, dropped⟩ := Lexical.exists_counted_reading settings tree
  have traced := Lexical.program_traced settings tree
  have stands := Lexical.program_stands settings tree
  have whole := Grammar.tokens_render (Lexical.program_valid settings tree)
  rw [← text] at whole
  have same := traced.filter_eq _ Lexical.isControl_of_isSwitch
  refine ⟨g, _, generated, reading, whole, ?_, same, ?_, dropped⟩
  · intro placed member
    by_cases switch : placed.2.isSwitch = true
    · exact traced.forall_placed _ Lexical.isControl_of_isSwitch _
        (fun p here => (stands p here).distinctLabels) placed member switch
    · exact Lexical.distinctLabels_of_not_isSwitch (Bool.eq_false_of_not_eq_true switch)
  · intro p member
    exact ⟨(stands p member).choosesCases, traced.occurs p member⟩

/-- A switch inside a case may use the label of the case again, but a later case of the same switch may not,
    however the label is spelled. -/
theorem casesDropped_around_nested_switch :
    ∃ g, Tree.Program.generate {} ⟨[.switch .unset
        [(.int 1, [.switch .unset [(.int 1, [])] none]), (.hex "1", [])] none]⟩ = .ok g ∧
      g.stats.casesDropped = 1 := by
  obtain ⟨g, _, generated, _, _, _, _, _, dropped⟩ := generate_distinctLabels {} ⟨[.switch .unset
    [(.int 1, [.switch .unset [(.int 1, [])] none]), (.hex "1", [])] none]⟩
  refine ⟨g, generated, dropped.trans ?_⟩
  decide +kernel

end YulFuzz
