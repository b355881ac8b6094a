/-
Module: YulFuzz.Proofs.VariableFrames
Purpose: The variables in scope as a picture of open scopes and function bodies, each with the variables
  declared in it. Closing a scope drops its variables; those of a function body stay until the scope around it
  is closed, but while the body is open they hide all variables from outside of it. The counters and stacks
  of `Variables` show this picture after every properly nested run.
Main exports: FrameKind, Variables.takes, Nested.Frames.visible, Nested.Frames.variables, Variables.Shows,
  variables_show_frames
-/
import YulFuzz.Proofs.Nested
import YulFuzz.Proofs.Safety

namespace YulFuzz

open Nested

/-- What encloses declarations. -/
inductive FrameKind where
  | scope
  | functionBody
deriving DecidableEq, Repr

/-- Whether closing a frame drops the variables declared in it. -/
def FrameKind.drops : FrameKind → Bool
  | .scope => true
  | .functionBody => false

namespace Variables

/-- The numbers that a declaration gives to its variables. -/
def declared (v : Variables) (count : Nat) : List Nat := List.range' v.live count

/-- Scopes and function bodies are opened and closed, and variables declared. -/
def takes : Bookkeeping FrameKind Nat Nat Variables
  | .enter .scope, v => .ok ([], v.enterScope)
  | .enter .functionBody, v => .ok ([], v.enterFunction)
  | .leave .scope, v => do return ([], ← v.exitScope)
  | .leave .functionBody, v => do return ([], ← v.exitFunction)
  | .add count, v => .ok (v.declared count, v.declare count)

/-- The bookkeeping without the numbers of scopes opened and closed so far, which no reference depends on. -/
def uncounted (v : Variables) : Variables := { v with entered := 0, exited := 0 }

/-- Closing a scope goes back to what was live when it was opened. -/
theorem exitScope_of_enterScope {v around : Variables} {count : Nat}
    (same : v.uncounted = (around.enterScope.declare count).uncounted) :
    ∃ v', v.exitScope = .ok v' ∧ v'.uncounted = around.uncounted := by
  obtain ⟨live, checkpoints, hidden, inFunction, enclosing, entered, exited⟩ := v
  obtain ⟨rfl, rfl, rfl, rfl, rfl, -⟩ := Variables.mk.inj same
  exact ⟨_, rfl, rfl⟩

/-- Closing a function body shows what was visible around it; what was declared inside stays live. -/
theorem exitFunction_of_enterFunction {v around : Variables} {count : Nat}
    (same : v.uncounted = (around.enterFunction.declare count).uncounted) :
    ∃ v', v.exitFunction = .ok v' ∧ v'.uncounted = (around.declare count).uncounted := by
  obtain ⟨live, checkpoints, hidden, inFunction, enclosing, entered, exited⟩ := v
  obtain ⟨rfl, rfl, rfl, rfl, rfl, -⟩ := Variables.mk.inj same
  exact ⟨_, rfl, rfl⟩

theorem declare_add (v : Variables) (first second : Nat) :
    v.declare (first + second) = (v.declare first).declare second :=
  congrArg (fun live => { v with live }) (Nat.add_assoc _ _ _).symm

end Variables

/-! ### The picture -/

namespace Nested

variable {β : Type}

/-- What was added to the given frames since the innermost function body was opened; all of it and what was
    added outside, if none is open. -/
def visibleIn (outermost : List β) : List (Frame FrameKind β) → List β
  | [] => outermost
  | ⟨.scope, new⟩ :: around => visibleIn outermost around ++ new
  | ⟨.functionBody, new⟩ :: _ => new

/-- The bookkeeping that opens the given frames one after the other, from the outermost one on, and declares
    what was added to each. -/
def variablesIn (outermost : List β) : List (Frame FrameKind β) → Variables
  | [] => { live := outermost.length }
  | ⟨.scope, new⟩ :: around => (variablesIn outermost around).enterScope.declare new.length
  | ⟨.functionBody, new⟩ :: around => (variablesIn outermost around).enterFunction.declare new.length

/-- The variables that can be referred to, in the order of their declarations. -/
def Frames.visible (frames : Frames FrameKind β) : List β := visibleIn frames.outermost frames.inner

/-- The bookkeeping for open frames. -/
def Frames.variables (frames : Frames FrameKind β) : Variables :=
  variablesIn frames.outermost frames.inner

variable (outermost : List β) (inner : List (Frame FrameKind β))

theorem live_variablesIn : (variablesIn outermost inner).live = (entriesOf outermost inner).length := by
  induction inner with
  | nil => rfl
  | cons frame around ih =>
      obtain ⟨kind, new⟩ := frame
      rw [entriesOf, List.length_append, ← ih]
      cases kind <;> rfl

/-- What is visible is what was added from the offset on. -/
theorem drop_offset_variablesIn :
    (variablesIn outermost inner).offset ≤ (entriesOf outermost inner).length ∧
      (entriesOf outermost inner).drop (variablesIn outermost inner).offset = visibleIn outermost inner := by
  induction inner with
  | nil => exact ⟨Nat.zero_le _, rfl⟩
  | cons frame around ih =>
      obtain ⟨kind, new⟩ := frame
      obtain ⟨bound, visible⟩ := ih
      rw [entriesOf, List.length_append]
      cases kind with
      | scope =>
          have same : (variablesIn outermost (⟨.scope, new⟩ :: around)).offset =
              (variablesIn outermost around).offset := rfl
          rw [same, List.drop_append_of_le_length bound, visible]
          exact ⟨bound.trans (Nat.le_add_right _ _), rfl⟩
      | functionBody =>
          have start : (variablesIn outermost (⟨.functionBody, new⟩ :: around)).offset =
              (entriesOf outermost around).length := live_variablesIn outermost around
          rw [start, List.drop_left]
          exact ⟨Nat.le_add_right _ _, rfl⟩

/-- From the innermost scope outwards, ever fewer variables were live when it was opened. -/
theorem checkpoints_variablesIn :
    ((variablesIn outermost inner).live :: (variablesIn outermost inner).checkpoints).Pairwise
      (· ≥ ·) := by
  induction inner with
  | nil => exact List.pairwise_singleton _ _
  | cons frame around ih =>
      obtain ⟨kind, new⟩ := frame
      obtain ⟨bound, ordered⟩ := List.pairwise_cons.1 ih
      have grown : ∀ count ∈ (variablesIn outermost around).checkpoints,
          (variablesIn outermost around).live + new.length ≥ count := by
        intro count member
        exact (bound count member).trans (Nat.le_add_right _ _)
      cases kind with
      | scope =>
          refine List.pairwise_cons.2 ⟨?_, ih⟩
          exact List.forall_mem_cons.2 ⟨Nat.le_add_right _ _, grown⟩
      | functionBody => exact List.pairwise_cons.2 ⟨grown, ordered⟩

theorem inFunction_variablesIn :
    (variablesIn outermost inner).inFunction = true ↔ .functionBody ∈ inner.map Frame.kind := by
  induction inner with
  | nil => simp [variablesIn]
  | cons frame around ih =>
      obtain ⟨kind, new⟩ := frame
      cases kind with
      | scope =>
          have same : (variablesIn outermost (⟨.scope, new⟩ :: around)).inFunction =
              (variablesIn outermost around).inFunction := rfl
          rw [same, ih]
          simp
      | functionBody => exact iff_of_true rfl List.mem_cons_self

theorem depth_variablesIn :
    (variablesIn outermost inner).depth = (inner.map Frame.kind).count .scope := by
  induction inner with
  | nil => rfl
  | cons frame around ih =>
      obtain ⟨kind, new⟩ := frame
      cases kind with
      | scope =>
          rw [List.map_cons, List.count_cons_self, ← ih]
          rfl
      | functionBody =>
          have other : FrameKind.functionBody ≠ .scope := nofun
          rw [List.map_cons, List.count_cons_of_ne other, ← ih]
          rfl

theorem Frames.variables_add (frames : Frames FrameKind β) (new : List β) :
    (frames.add new).variables = frames.variables.declare new.length := by
  obtain ⟨outermost, inner⟩ := frames
  cases inner with
  | nil => exact congrArg (fun live => ({ live } : Variables)) List.length_append
  | cons frame around =>
      obtain ⟨kind, old⟩ := frame
      have whole : (old ++ new).length = old.length + new.length := List.length_append
      cases kind with
      | scope => exact (congrArg _ whole).trans (Variables.declare_add _ _ _)
      | functionBody => exact (congrArg _ whole).trans (Variables.declare_add _ _ _)

end Nested

/-! ### The bookkeeping shows the picture -/

namespace Variables

/-- The bookkeeping is the one for the frames, and the open variables have all numbers from 0 on. -/
structure Tracks (v : Variables) (frames : Frames FrameKind Nat) : Prop where
  same : v.uncounted = frames.variables.uncounted
  numbered : frames.entries = List.range frames.entries.length

variable {v : Variables} {frames later : Frames FrameKind Nat}

namespace Tracks

theorem initial : Tracks {} {} := ⟨rfl, rfl⟩

theorem live (tracks : v.Tracks frames) : v.live = frames.entries.length :=
  (congrArg Variables.live tracks.same).trans (live_variablesIn _ _)

theorem enter (tracks : v.Tracks frames) (kind : FrameKind) :
    ∃ v', takes (.enter kind) v = .ok ([], v') ∧ v'.Tracks (frames.enter kind) := by
  have numbered : (frames.enter kind).entries = List.range (frames.enter kind).entries.length := by
    rw [Frames.entries_enter]
    exact tracks.numbered
  cases kind with
  | scope =>
      refine ⟨v.enterScope, rfl, ?_, numbered⟩
      exact congrArg (fun v => v.enterScope.uncounted) tracks.same
  | functionBody =>
      refine ⟨v.enterFunction, rfl, ?_, numbered⟩
      exact congrArg (fun v => v.enterFunction.uncounted) tracks.same

theorem leave (tracks : v.Tracks frames) {kind : FrameKind}
    (closed : frames.leave? FrameKind.drops kind = some later) :
    ∃ v', takes (.leave kind) v = .ok ([], v') ∧ v'.Tracks later := by
  obtain ⟨same, numbered⟩ := tracks
  obtain ⟨outermost, inner⟩ := frames
  obtain ⟨new, around, rfl, rfl⟩ := Frames.leave?_eq_some closed
  cases kind with
  | scope =>
      obtain ⟨v', left, same⟩ := exitScope_of_enterScope same
      refine ⟨v', by rw [takes, left]; rfl, same, ?_⟩
      -- The numbers of the variables around come first.
      have front := congrArg (List.take (entriesOf outermost around).length) numbered
      change List.take _ (entriesOf outermost around ++ new) = _ at front
      rw [List.take_left, List.take_range, Nat.min_eq_left] at front
      · exact front
      · exact List.length_append ▸ Nat.le_add_right _ _
  | functionBody =>
      obtain ⟨v', left, same⟩ := exitFunction_of_enterFunction same
      refine ⟨v', by rw [takes, left]; rfl, ?_, ?_⟩
      · exact same.trans (congrArg uncounted (Frames.variables_add ⟨outermost, around⟩ new).symm)
      · change (Frames.add ⟨outermost, around⟩ new).entries =
          List.range (Frames.add ⟨outermost, around⟩ new).entries.length
        rw [Frames.entries_add]
        exact numbered

theorem add (tracks : v.Tracks frames) (count : Nat) :
    (v.declare count).Tracks (frames.add (v.declared count)) where
  same := by
    rw [Frames.variables_add, declared, List.length_range']
    exact congrArg (fun v => (v.declare count).uncounted) tracks.same
  numbered := by
    rw [Frames.entries_add, List.length_append, declared, List.length_range', tracks.live,
      List.range_eq_range', ← List.range'_append_1, Nat.zero_add, ← List.range_eq_range', ← tracks.numbered]

end Tracks

/-- The bookkeeping shows the picture along every properly nested run. -/
theorem takes_agrees :
    Agrees takes FrameKind.drops (fun _ => True) fun _ _ v frames => v.Tracks frames where
  enter := fun kind tracks => tracks.enter kind
  leave := fun _ _ tracks closed => tracks.leave closed
  add := fun count _ tracks => ⟨_, _, rfl, tracks.add count⟩

/-! ### What the bookkeeping shows -/

/-- The bookkeeping shows open frames with their variables: how many are open and how many can be referred to,
    which of these a number stands for, and that a declaration takes numbers that no open variable has. -/
structure Shows (v : Variables) (frames : Frames FrameKind Nat) : Prop where
  live : v.live = frames.entries.length
  distinct : frames.entries.Nodup
  /-- Innermost first, the live counts at the entries of the open scopes; they only decrease outwards. -/
  checkpoints : (v.live :: v.checkpoints).Pairwise (· ≥ ·)
  depth : v.depth = frames.kinds.count .scope
  inFunction : v.inFunction = true ↔ .functionBody ∈ frames.kinds
  offset : v.offset ≤ v.live
  visible : v.visible = .ok frames.visible.length
  resolve : ∀ number, v.resolve number = .ok frames.visible[number % frames.visible.length]?
  resolve_eq_none : ∀ number, v.resolve number = .ok none ↔ frames.visible.length = 0
  /-- The same in 32-bit arithmetic. -/
  wrapping : v.live < 2 ^ 32 → ∀ number : UInt32,
    v.resolve number.toNat = .ok ((v.resolveWrapping number).map UInt32.toNat)
  declare : ∀ count, ∃ new, takes (.add count) v = .ok (new, v.declare count) ∧ new.length = count ∧
    (frames.entries ++ new).Nodup ∧
    ∀ s : Walk.State, s.vars = v → Walk.declare count s = .ok (new.map .user, { s with vars := v.declare count })

namespace Tracks

theorem offset (tracks : v.Tracks frames) : v.offset = frames.variables.offset :=
  (congrArg Variables.offset tracks.same :)

theorem visible_eq (tracks : v.Tracks frames) :
    v.offset ≤ v.live ∧ frames.visible = List.range' v.offset (v.live - v.offset) := by
  obtain ⟨bound, visible⟩ := drop_offset_variablesIn frames.outermost frames.inner
  change frames.variables.offset ≤ frames.entries.length at bound
  change frames.entries.drop frames.variables.offset = frames.visible at visible
  rw [← tracks.offset] at bound visible
  rw [← tracks.live] at bound
  refine ⟨bound, ?_⟩
  rw [← visible, tracks.numbered, ← tracks.live, List.range_eq_range', List.drop_range', Nat.mul_one,
    Nat.zero_add]

/-- A number stands for the visible variable at its place, counted on from the first one after the last. -/
theorem resolve_eq (tracks : v.Tracks frames) (number : Nat) :
    v.resolve number = .ok frames.visible[number % frames.visible.length]? := by
  obtain ⟨bound, visible⟩ := tracks.visible_eq
  rw [resolve_of_offset_le bound, visible, List.length_range']
  congr 1
  split
  · rename_i none
    rw [none]
    rfl
  · rename_i some
    rw [List.getElem?_range' (Nat.mod_lt _ (Nat.pos_of_ne_zero some)), Nat.one_mul]

theorem declare_eq (tracks : v.Tracks frames) (count : Nat) :
    (frames.entries ++ v.declared count).Nodup ∧ ∀ s : Walk.State, s.vars = v →
      Walk.declare count s = .ok ((v.declared count).map .user, { s with vars := v.declare count }) := by
  constructor
  · have numbered := (tracks.add count).numbered
    rw [Frames.entries_add] at numbered
    rw [numbered]
    exact List.nodup_range
  · rintro s rfl
    have names : (List.range count).map (fun i => Yul.Var.user (s.vars.live + i)) =
        (s.vars.declared count).map .user := by
      rw [declared, List.range'_eq_map_range, List.map_map]
      rfl
    rw [← names]
    rfl

theorem shows_ (tracks : v.Tracks frames) : v.Shows frames where
  live := tracks.live
  distinct := tracks.numbered ▸ List.nodup_range
  checkpoints := by
    have ordered := checkpoints_variablesIn frames.outermost frames.inner
    have live : v.live = (variablesIn frames.outermost frames.inner).live :=
      (congrArg Variables.live tracks.same :)
    have checkpoints : v.checkpoints = (variablesIn frames.outermost frames.inner).checkpoints :=
      (congrArg Variables.checkpoints tracks.same :)
    rw [live, checkpoints]
    exact ordered
  depth := (congrArg Variables.depth tracks.same).trans (depth_variablesIn _ _)
  inFunction := by
    have inFunction : v.inFunction = (variablesIn frames.outermost frames.inner).inFunction :=
      (congrArg Variables.inFunction tracks.same :)
    rw [inFunction]
    exact inFunction_variablesIn _ _
  offset := tracks.visible_eq.1
  visible := by
    rw [visible_of_offset_le tracks.visible_eq.1, tracks.visible_eq.2, List.length_range']
  resolve := tracks.resolve_eq
  resolve_eq_none := by
    intro number
    rw [tracks.resolve_eq, Except.ok.injEq, List.getElem?_eq_none_iff]
    constructor
    · intro beyond
      by_contra some
      exact absurd (Nat.mod_lt number (Nat.pos_of_ne_zero some)) (Nat.not_lt.2 beyond)
    · intro none
      rw [none]
      exact Nat.zero_le _
  wrapping := resolve_eq_resolveWrapping tracks.visible_eq.1
  declare := fun count => ⟨_, rfl, List.length_range', tracks.declare_eq count⟩

end Tracks

/-- The bookkeeping shows the picture after every properly nested run. -/
theorem run_tracks {steps : List (Step FrameKind Nat)} (nested : ProperlyNested steps) :
    ∃ log v frames, run takes steps {} = .ok (log, v) ∧
      Frames.replay FrameKind.drops {} log = some frames ∧ v.Tracks frames :=
  takes_agrees.run_of_properlyNested .initial nested fun _ _ => trivial

/-- What opening a frame changed is changed back by closing it, whatever happened inside; only the variables
    of a function body stay live. -/
theorem Tracks.pair (tracks : v.Tracks frames) (kind : FrameKind) {inside : List (Step FrameKind Nat)}
    (balanced : Balanced inside) :
    ∃ log inner after, run takes (.enter kind :: inside) v = .ok (log, inner) ∧
      takes (.leave kind) inner = .ok ([], after) ∧ after.offset = v.offset ∧
      after.inFunction = v.inFunction ∧
      after.live = if kind = .scope then v.live else inner.live := by
  obtain ⟨log, inner, after, new, -, -, entered, left, within, around⟩ :=
    takes_agrees.pair [] [] tracks kind balanced fun _ _ => trivial
  refine ⟨log, inner, after, entered, left, ?_⟩
  cases kind with
  | scope =>
      have same := around.same.trans tracks.same.symm
      refine ⟨(congrArg Variables.offset same :), (congrArg Variables.inFunction same :), ?_⟩
      exact (congrArg Variables.live same :)
  | functionBody =>
      -- Declaring what stays open changes nothing but the live count.
      have declared : after.uncounted = (frames.variables.declare new.length).uncounted :=
        around.same.trans (congrArg _ (Frames.variables_add frames new))
      have same := declared.trans (congrArg (·.declare new.length) tracks.same.symm :)
      refine ⟨(congrArg Variables.offset same :), (congrArg Variables.inFunction same :), ?_⟩
      have open_ : (frames.add new).entries = ((frames.enter .functionBody).add new).entries := by simp
      rw [if_neg nofun, within.live, ← open_]
      exact around.live

end Variables

/-- After every properly nested run of scopes, function bodies and declarations, the counters and stacks show
    the frames that are still open, with the variables declared in each. A scope, once closed, leaves the live
    count, the offset and the mark of function bodies as they were when it was opened, whatever happened
    inside. So does a function body, but for the live count: it stays as it is at the end of the body, for
    variables that no scope inside has dropped are only dropped with the scope around the body. -/
theorem variables_show_frames :
    (∀ steps : List (Step FrameKind Nat), ProperlyNested steps →
      ∃ log v frames, run Variables.takes steps {} = .ok (log, v) ∧
        Frames.replay FrameKind.drops {} log = some frames ∧ v.Shows frames) ∧
    ∀ (before : List (Step FrameKind Nat)) (kind : FrameKind) (inside : List (Step FrameKind Nat)),
      ProperlyNested before → Balanced inside →
      ∃ log v inLog inner after, run Variables.takes before {} = .ok (log, v) ∧
        run Variables.takes (.enter kind :: inside) v = .ok (inLog, inner) ∧
        Variables.takes (.leave kind) inner = .ok ([], after) ∧
        after.offset = v.offset ∧ after.inFunction = v.inFunction ∧
        after.live = if kind = .scope then v.live else inner.live := by
  constructor
  · intro steps nested
    obtain ⟨log, v, frames, ran, replayed, tracks⟩ := Variables.run_tracks nested
    exact ⟨log, v, frames, ran, replayed, tracks.shows_⟩
  · intro before kind inside nested balanced
    obtain ⟨log, v, frames, ran, -, tracks⟩ := Variables.run_tracks nested
    obtain ⟨inLog, inner, after, restored⟩ := tracks.pair kind balanced
    exact ⟨log, v, inLog, inner, after, ran, restored⟩

/-- In a function body inside a scope the two variables of the body are visible, and the one in front of the
    scope is not; they are still live after the body, but not those of a scope inside it. -/
theorem frames_in_functionBody :
    (∃ log v frames, run Variables.takes [.add 1, .enter .scope, .enter .functionBody, .add 2] {} =
        .ok (log, v) ∧ Frames.replay FrameKind.drops {} log = some frames ∧ v.Shows frames ∧
      frames.entries = [0, 1, 2] ∧ frames.visible = [1, 2]) ∧
    ∃ log v inLog inner after, run Variables.takes [.add 1, .enter .scope] {} = .ok (log, v) ∧
      run Variables.takes [.enter .functionBody, .add 2, .enter .scope, .add 3, .leave .scope] v =
        .ok (inLog, inner) ∧
      Variables.takes (.leave .functionBody) inner = .ok ([], after) ∧
      after.offset = v.offset ∧ v.live = 1 ∧ after.live = 3 := by
  constructor
  · obtain ⟨log, v, frames, ran, replayed, shows_⟩ := variables_show_frames.1
      [.add 1, .enter .scope, .enter .functionBody, .add 2] (by decide)
    obtain ⟨rfl, rfl⟩ := Prod.mk.inj (Except.ok.inj ran)
    obtain rfl := Option.some.inj replayed
    exact ⟨_, _, _, rfl, rfl, shows_, rfl, rfl⟩
  · obtain ⟨log, v, inLog, inner, after, ran, entered, left, offset, -, live⟩ := variables_show_frames.2
      [.add 1, .enter .scope] .functionBody [.add 2, .enter .scope, .add 3, .leave .scope]
      (by decide) (by decide)
    obtain ⟨rfl, rfl⟩ := Prod.mk.inj (Except.ok.inj ran)
    obtain ⟨rfl, rfl⟩ := Prod.mk.inj (Except.ok.inj entered)
    exact ⟨_, _, _, _, after, rfl, rfl, left, offset, rfl, live⟩

/-- A function body does not restore the live count: a variable declared in it stays live. -/
theorem live_not_restored_by_functionBody :
    ¬ ∀ (kind : FrameKind) (inside : List (Step FrameKind Nat)), Balanced inside →
      ∀ log inner after, run Variables.takes (.enter kind :: inside) {} = .ok (log, inner) →
        Variables.takes (.leave kind) inner = .ok ([], after) →
        after.live = ({} : Variables).live := by
  intro restores
  have live := restores .functionBody [.add 1] (by decide) _ _ _ rfl rfl
  cases live

end YulFuzz
