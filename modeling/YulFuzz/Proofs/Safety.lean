/-
Module: YulFuzz.Proofs.Safety
Purpose: The bookkeeping of a walk is only used by its rules. At every point what the stacks have saved is
  bounded by what is live, so no more variables are hidden than there are, no selector is taken modulo zero, and
  an assignment never has more targets than there are visible variables. No walk ends in a fault, and at the end
  of a walk every stack is empty.
Main exports: Variables.resolveWrapping, Walk.State.Bounded, Walk.State.Operates, Walk.State.Empty,
  Lexical.Site.operates, generate_never_faults
-/
import YulFuzz.Proofs.Trace

namespace YulFuzz

open Grammar (literalSyntax)

/-! ### Reading the bookkeeping -/

namespace Variables

/-- The visible variable that a number stands for, computed with 32-bit numbers. -/
def resolveWrapping (v : Variables) (number : UInt32) : Option UInt32 :=
  let offset := UInt32.ofNat v.offset
  let visible := UInt32.ofNat v.live - offset
  if visible = 0 then none else some (offset + number % visible)

variable {v : Variables}

theorem visible_of_offset_le (bounded : v.offset ≤ v.live) : v.visible = .ok (v.live - v.offset) :=
  if_pos bounded

theorem resolve_of_offset_le (bounded : v.offset ≤ v.live) (number : Nat) :
    v.resolve number = .ok (if v.live - v.offset = 0 then none
      else some (v.offset + number % (v.live - v.offset))) := by
  unfold resolve
  rw [visible_of_offset_le bounded]
  rfl

/-- With no more variables hidden than are live, and fewer than `2 ^ 32` of them, nothing wraps around. -/
theorem resolve_eq_resolveWrapping (bounded : v.offset ≤ v.live) (small : v.live < 2 ^ 32) (number : UInt32) :
    v.resolve number.toNat = .ok ((v.resolveWrapping number).map UInt32.toNat) := by
  have offset : (UInt32.ofNat v.offset).toNat = v.offset :=
    UInt32.toNat_ofNat_of_lt' (Nat.lt_of_le_of_lt bounded small)
  have live : (UInt32.ofNat v.live).toNat = v.live := UInt32.toNat_ofNat_of_lt' small
  have visible : (UInt32.ofNat v.live - UInt32.ofNat v.offset).toNat = v.live - v.offset := by
    rw [UInt32.toNat_sub_of_le _ _ (by rwa [UInt32.le_iff_toNat_le, offset, live]), offset, live]
  rw [resolve_of_offset_le bounded, resolveWrapping]
  simp only [← UInt32.toNat_inj, visible, UInt32.toNat_zero]
  split
  · rfl
  · rename_i some
    have below : number.toNat % (v.live - v.offset) < v.live - v.offset :=
      Nat.mod_lt _ (Nat.pos_of_ne_zero some)
    have sum : v.offset + number.toNat % (v.live - v.offset) < 2 ^ 32 := by omega
    rw [Option.map_some, UInt32.toNat_add, UInt32.toNat_mod, offset, visible, Nat.mod_eq_of_lt sum]

end Variables

namespace Functions

variable {fs : Functions} {kind : FunctionKind} {selector bound : Nat} {callee : Callable}

/-- A function is picked unless there is none of the kind. -/
theorem pick_eq_none_iff : fs.pick kind selector = none ↔ fs.count kind = 0 := by
  rw [pick, count, List.length_eq_zero_iff]
  split
  · rename_i empty
    simpa using empty
  · rename_i some
    have nonempty : fs.candidates kind ≠ [] := by simpa using some
    have place := Nat.mod_lt selector (List.length_pos_iff.2 nonempty)
    simp [nonempty, List.getElem?_eq_getElem place]

theorem mem_of_pick (picked : fs.pick kind selector = some callee) : callee ∈ fs.candidates kind := by
  rw [pick] at picked
  split at picked
  · cases picked
  · exact List.mem_of_getElem? picked

/-- A function with several outputs is picked unless all of them have too many. -/
theorem pickMultiWithin_eq_none_iff :
    fs.pickMultiWithin selector bound = none ↔
      ∀ callee ∈ fs.candidates .multiReturn, bound < callee.outputs := by
  rw [pickMultiWithin]
  split
  · rename_i empty
    simp [List.isEmpty_iff.1 empty]
  · rw [List.find?_eq_none]
    apply forall_congr'
    intro callee
    -- In whichever order they are tried, they are the same functions.
    rw [List.mem_append, or_comm, ← List.mem_append, List.take_append_drop, decide_eq_true_eq, Nat.not_le]

theorem mem_of_pickMultiWithin (picked : fs.pickMultiWithin selector bound = some callee) :
    callee ∈ fs.candidates .multiReturn ∧ callee.outputs ≤ bound := by
  rw [pickMultiWithin] at picked
  split at picked
  · cases picked
  · constructor
    · rcases List.mem_append.1 (List.mem_of_find?_eq_some picked) with later | earlier
      · exact List.mem_of_mem_drop later
      · exact List.mem_of_mem_take earlier
    · simpa using List.find?_some picked

end Functions

theorem Seed.token_mem (seed : Seed) (drawn : Nat) : seed.token drawn ∈ seed.dictionary.tokens :=
  List.get_mem ..

/-! ### Bounds -/

namespace Walk.State

/-- The bounds that hold of the stacks at every point: what they have saved is no more than what there is now,
    the scopes of variables are the scopes of functions, and all functions keep to the arity bound and are
    filed under their number of outputs. -/
structure Bounded (s : State) : Prop where
  offset : s.vars.offset ≤ s.vars.live
  checkpoints : ∀ count ∈ s.vars.checkpoints, count ≤ s.vars.live
  hidden : s.vars.hidden ≤ s.vars.live
  enclosing : ∀ saved ∈ s.vars.enclosing, saved.1 ≤ s.vars.live
  inFunction : s.vars.inFunction = true ↔ s.vars.enclosing ≠ []
  marks : ∀ mark ∈ s.functions.marks, ∀ kind, mark.get kind ≤ s.functions.count kind
  length_marks : s.functions.marks.length = s.vars.checkpoints.length
  arities : ∀ kind, ∀ callable ∈ s.functions.candidates kind, callable.name.kind = kind ∧
    kind = .ofOutputs callable.outputs ∧ callable.inputs ≤ maxArity ∧ callable.outputs ≤ maxArity

/-- All operations of the bookkeeping can be used in the state and answer with what is there. -/
structure Operates (settings : Settings) (s : State) : Prop where
  visible : s.vars.visible = .ok (s.vars.live - s.vars.offset)
  resolve : ∀ number, ∃ found, s.vars.resolve number = .ok found ∧
    (found = none ↔ s.vars.live = s.vars.offset) ∧
    ∀ var, found = some var → s.vars.offset ≤ var ∧ var < s.vars.live
  resolveWrapping : s.vars.live < 2 ^ 32 → ∀ number : UInt32,
    s.vars.resolve number.toNat = .ok ((s.vars.resolveWrapping number).map UInt32.toNat)
  pick : ∀ kind selector, (s.functions.pick kind selector = none ↔ s.functions.count kind = 0) ∧
    ∀ callee, s.functions.pick kind selector = some callee → callee ∈ s.functions.candidates kind
  pickMultiWithin : ∀ selector bound, (s.functions.pickMultiWithin selector bound = none ↔
      ∀ callee ∈ s.functions.candidates .multiReturn, bound < callee.outputs) ∧
    ∀ callee, s.functions.pickMultiWithin selector bound = some callee →
      callee ∈ s.functions.candidates .multiReturn ∧ callee.outputs ≤ bound
  assignmentTargets : ∀ selector callee requests,
    s.functions.pickMultiWithin selector (s.vars.live - s.vars.offset) = some callee →
    ∃ targets : List Nat, Walk.assignmentTargets requests callee.outputs s = .ok (targets.map .user, s) ∧
      targets.length = callee.outputs ∧ targets.Nodup ∧
      ∀ var ∈ targets, s.vars.offset ≤ var ∧ var < s.vars.live
  register : ∀ inputs outputs : UInt32, ∃ registered,
    s.functions.register (inputs.toNat % (maxArity + 1)) (outputs.toNat % (maxArity + 1)) = .ok registered
  token : settings.seed.token s.drawn ∈ settings.dictionary.tokens
  literal : ∀ node, ∃ made s', Walk.literal settings.seed node s = .ok (made, s') ∧ (literalSyntax made).Valid
  expression : ∀ expr, ∃ value s', Walk.expression settings.seed expr s = .ok (value, s')
  statement : ∀ stmt, ∃ code s', Walk.statement settings stmt s = .ok (code, s')

/-- Nothing is live, nothing is open and nothing is saved. -/
structure Empty (s : State) : Prop where
  live : s.vars.live = 0
  checkpoints : s.vars.checkpoints = []
  hidden : s.vars.hidden = 0
  inFunction : s.vars.inFunction = false
  enclosing : s.vars.enclosing = []
  marks : s.functions.marks = []
  candidates : ∀ kind, s.functions.candidates kind = []
  labels : s.labels.used = []
  loopDepth : s.loopDepth = 0
  inLoopBody : s.inLoopBody = false
  inLoopInit : s.inLoopInit = false

end Walk.State

/-! ### Bounds at the points of a walk -/

namespace Lexical

variable {context : Walk.Context} {fr : Frame} {env : Env}

theorem Site.boundedState (site : Site context fr env) (left : Nat) (t : Thread) :
    (fr.state left env t).Bounded where
  offset := site.fits.offset_le
  checkpoints := site.bounded.checkpoints
  hidden := site.bounded.hidden
  enclosing := site.bounded.enclosing
  inFunction := site.bounded.inFunction
  marks := site.bounded.marks
  length_marks := site.bounded.length_marks
  arities := by
    intro kind callable member
    obtain ⟨same, proper⟩ := site.fits.proper kind callable member
    exact ⟨same, same.symm.trans proper.kind, proper.inputs, proper.outputs⟩

/-- The targets of an assignment are distinct visible variables, as many as wanted. -/
theorem Frame.Fits.exists_targets (fits : fr.Fits env) (requests : List UInt32) {wanted : Nat}
    (enough : wanted ≤ env.vars.length) (left : Nat) (t : Thread) :
    ∃ targets : List Nat, Walk.assignmentTargets requests wanted (fr.state left env t) =
        .ok (targets.map .user, fr.state left env t) ∧
      targets.length = wanted ∧ targets.Nodup ∧ ∀ var ∈ targets, fr.offset ≤ var ∧ var < env.fresh := by
  have distinct : env.vars.Nodup := fits.vars ▸ List.nodup_range'
  refine ⟨_, fits.assignmentTargets_eq requests enough left t, ?_, env.nodup_targets .., ?_⟩
  · exact Env.length_targets distinct requests (by simpa using enough)
  · intro var member
    have visible := (Env.mem_of_mem_targets member).1
    have bound := fits.offset_le
    rw [fits.vars, List.mem_range'_1] at visible
    omega

theorem Site.operates (site : Site context fr env) (settings : Settings) (left : Nat) (t : Thread) :
    (fr.state left env t).Operates settings := by
  have bound : (fr.state left env t).vars.offset ≤ (fr.state left env t).vars.live := site.fits.offset_le
  constructor
  case visible => exact Variables.visible_of_offset_le bound
  case resolve =>
    intro number
    refine ⟨_, Variables.resolve_of_offset_le bound number, ?_, ?_⟩
    · rw [ite_eq_left_iff]
      simp only [reduceCtorEq, imp_false, not_not]
      omega
    · intro var found
      split at found
      · cases found
      · rename_i some
        have below := Nat.mod_lt number (Nat.pos_of_ne_zero some)
        obtain rfl := Option.some.inj found
        omega
  case resolveWrapping => exact Variables.resolve_eq_resolveWrapping bound
  case pick =>
    intro kind selector
    exact ⟨Functions.pick_eq_none_iff, fun callee => Functions.mem_of_pick⟩
  case pickMultiWithin =>
    intro selector bound
    exact ⟨Functions.pickMultiWithin_eq_none_iff, fun callee => Functions.mem_of_pickMultiWithin⟩
  case assignmentTargets =>
    intro selector callee requests picked
    have enough := (Functions.mem_of_pickMultiWithin picked).2
    exact site.fits.exists_targets requests (site.fits.length_vars ▸ enough) left t
  case register =>
    intro inputs outputs
    have proper := proper_defined t inputs outputs
    exact ⟨_, if_pos ⟨proper.inputs, proper.outputs⟩⟩
  case token => exact settings.seed.token_mem t.drawn
  case literal =>
    intro node
    have keeps : Keeps fr env _ _ := literal_keeps settings.seed node
    obtain ⟨left', made⟩ := keeps left t
    exact ⟨_, _, made, literal_valid settings.seed node t⟩
  case expression =>
    intro expr
    obtain ⟨left', made⟩ := expression_keeps settings.seed site.fits expr left t
    exact ⟨_, _, made⟩
  case statement =>
    intro stmt
    obtain ⟨left', made⟩ := statement_moves settings stmt site.fits left t
    exact ⟨_, _, made⟩

end Lexical

/-- No walk ends in a fault. At every point the bounds hold, so every operation of the bookkeeping can be used
    there, and every expression and every statement can be walked; in the body of a bounded loop there is a loop
    to be left. Every program is walked to its end, where all stacks are empty, and generated. -/
theorem generate_never_faults (settings : Settings) (tree : Tree.Program) :
    (∀ p ∈ tree.points settings, p.state.Bounded ∧ p.state.Operates settings ∧
      (p.context = .boundedBody → 0 < p.state.loopDepth)) ∧
    ∃ code s, tree.walk settings = .ok (code, s) ∧ s.Empty ∧
      tree.generate settings = .ok ⟨code.render, .ofState s⟩ := by
  constructor
  · intro p member
    obtain ⟨site, _, left, t⟩ := Lexical.program_stands settings tree p member
    exact ⟨site.boundedState left t, site.operates settings left t, site.loopDepth⟩
  · obtain ⟨left, walked, generated⟩ := Lexical.generate_eq_walk settings tree
    refine ⟨_, _, walked, ?_, generated⟩
    constructor
    case candidates =>
      intro kind
      cases kind <;> rfl
    all_goals rfl

/-- In a function body behind a variable only the parameters and the results are visible. -/
theorem visible_in_function_body :
    ∃ p ∈ Tree.Program.points {} ⟨[.declare none .unset, .define 1 2 [.pop (.varRef 7)]]⟩,
      p.state.vars.live = 4 ∧ p.state.vars.hidden = 1 ∧ p.state.vars.visible = .ok 3 := by
  have safe := (generate_never_faults {} ⟨[.declare none .unset, .define 1 2 [.pop (.varRef 7)]]⟩).1
  exact ⟨_, .tail _ (.tail _ (.head _)), rfl, rfl, (safe _ (.tail _ (.tail _ (.head _)))).2.1.visible⟩

end YulFuzz
