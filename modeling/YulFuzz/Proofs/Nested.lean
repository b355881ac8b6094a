/-
Module: YulFuzz.Proofs.Nested
Purpose: Frames that are opened and closed one inside the other, with the entries that each of them got. This
  is the plain picture that bookkeeping with counters and marks is compared with: an entry stays until a frame
  that drops it is closed. A bookkeeping agrees with the picture along every properly nested run if it does so
  for each single step.
Main exports: Nested.Step, Nested.opened, Nested.ProperlyNested, Nested.Frames, Nested.Frames.replay,
  Nested.Bookkeeping, Nested.Agrees, Nested.Agrees.run_of_properlyNested, Nested.Agrees.pair
-/
import YulFuzz.Walk.Fault

namespace YulFuzz.Nested

open Walk (Fault)

/-- A step of a run: a frame of some kind is opened or closed, or something is added. -/
inductive Step (κ α : Type) where
  | enter (kind : κ)
  | leave (kind : κ)
  | add (what : α)
deriving DecidableEq, Repr

variable {κ α β σ : Type} [DecidableEq κ]

/-- The kinds of the frames that are open after a run, innermost first, from those open before it; `none` if
    a frame is closed that is not the innermost open one. -/
def opened : List κ → List (Step κ α) → Option (List κ)
  | kinds, [] => some kinds
  | kinds, .enter kind :: rest => opened (kind :: kinds) rest
  | [], .leave _ :: _ => none
  | innermost :: kinds, .leave kind :: rest => if kind = innermost then opened kinds rest else none
  | kinds, .add _ :: rest => opened kinds rest

/-- Only the innermost open frame is ever closed; some frames may still be open at the end. -/
def ProperlyNested (steps : List (Step κ α)) : Prop := (opened [] steps).isSome = true

/-- Moreover every frame that is opened is closed again. -/
def Balanced (steps : List (Step κ α)) : Prop := opened [] steps = some []

instance (steps : List (Step κ α)) : Decidable (ProperlyNested steps) :=
  inferInstanceAs (Decidable (_ = _))

instance (steps : List (Step κ α)) : Decidable (Balanced steps) :=
  inferInstanceAs (Decidable (_ = _))

/-- Everything that a run adds, in order. -/
def added : List (Step κ α) → List α
  | [] => []
  | .add what :: rest => what :: added rest
  | _ :: rest => added rest

/-- Frames that were open before a run do not matter to it, if it never closes them. -/
theorem opened_append {steps : List (Step κ α)} {first last : List κ}
    (nested : opened first steps = some last) (kinds : List κ) :
    opened (first ++ kinds) steps = some (last ++ kinds) := by
  induction steps generalizing first with
  | nil =>
      obtain rfl : first = last := Option.some.inj nested
      rfl
  | cons step rest ih =>
      cases step with
      | enter kind =>
          have inside : opened (kind :: first) rest = some last := nested
          exact ih inside
      | add what => exact ih nested
      | leave kind =>
          cases first with
          | nil => cases nested
          | cons innermost others =>
              rw [opened] at nested
              split at nested
              · rename_i same
                exact (if_pos same).trans (ih nested)
              · cases nested

/-! ### Frames -/

/-- An open frame with what was added to it so far. -/
structure Frame (κ β : Type) where
  kind : κ
  entries : List β := []
deriving DecidableEq, Repr

/-- All open frames, and what was added outside of any frame. -/
structure Frames (κ β : Type) where
  outermost : List β := []
  /-- The open frames, innermost first. -/
  inner : List (Frame κ β) := []
deriving DecidableEq, Repr

/-- What was added outside of any frame and to the given ones, in order. -/
def entriesOf (outermost : List β) : List (Frame κ β) → List β
  | [] => outermost
  | frame :: around => entriesOf outermost around ++ frame.entries

namespace Frames

/-- All entries that are still there, in the order in which they were added. -/
def entries (frames : Frames κ β) : List β := entriesOf frames.outermost frames.inner

/-- Open a frame. -/
def enter (frames : Frames κ β) (kind : κ) : Frames κ β :=
  { frames with inner := ⟨kind, []⟩ :: frames.inner }

/-- Add entries to the innermost open frame. -/
def add (frames : Frames κ β) (new : List β) : Frames κ β :=
  match frames.inner with
  | [] => { frames with outermost := frames.outermost ++ new }
  | frame :: around =>
    { frames with inner := { frame with entries := frame.entries ++ new } :: around }

/-- Close the innermost open frame, which has to be of the given kind. Its entries are dropped, or else they
    become entries of the frame around it. -/
def leave? (drops : κ → Bool) (frames : Frames κ β) (kind : κ) : Option (Frames κ β) :=
  match frames.inner with
  | [] => none
  | frame :: around =>
    if kind = frame.kind then
      let frames := { frames with inner := around }
      some (if drops kind then frames else frames.add frame.entries)
    else none

/-- The frames after a run, of which each step says which entries it adds. -/
def replay (drops : κ → Bool) (frames : Frames κ β) : List (Step κ (List β)) → Option (Frames κ β)
  | [] => some frames
  | .enter kind :: rest => (frames.enter kind).replay drops rest
  | .leave kind :: rest => (frames.leave? drops kind).bind (·.replay drops rest)
  | .add new :: rest => (frames.add new).replay drops rest

/-- The kinds of the open frames, innermost first. -/
def kinds (frames : Frames κ β) : List κ := frames.inner.map Frame.kind

variable {drops : κ → Bool} {frames later : Frames κ β}

omit [DecidableEq κ] in
@[simp] theorem entries_enter (frames : Frames κ β) (kind : κ) :
    (frames.enter kind).entries = frames.entries :=
  List.append_nil _

omit [DecidableEq κ] in
@[simp] theorem entries_add (frames : Frames κ β) (new : List β) :
    (frames.add new).entries = frames.entries ++ new := by
  obtain ⟨outermost, inner⟩ := frames
  cases inner with
  | nil => rfl
  | cons frame around => exact (List.append_assoc _ _ _).symm

omit [DecidableEq κ] in
@[simp] theorem kinds_add (frames : Frames κ β) (new : List β) : (frames.add new).kinds = frames.kinds := by
  obtain ⟨outermost, inner⟩ := frames
  cases inner <;> rfl

omit [DecidableEq κ] in
theorem add_nil (frames : Frames κ β) : frames.add [] = frames := by
  obtain ⟨outermost, inner⟩ := frames
  cases inner <;> simp [add]

omit [DecidableEq κ] in
theorem add_add (frames : Frames κ β) (first second : List β) :
    (frames.add first).add second = frames.add (first ++ second) := by
  obtain ⟨outermost, inner⟩ := frames
  cases inner <;> simp [add]

/-- Only the innermost frame can be closed. -/
theorem leave?_eq_some {kind : κ} (closed : frames.leave? drops kind = some later) :
    ∃ new around, frames.inner = ⟨kind, new⟩ :: around ∧
      later = if drops kind then { frames with inner := around }
        else { frames with inner := around }.add new := by
  obtain ⟨outermost, inner⟩ := frames
  cases inner with
  | nil => cases closed
  | cons frame around =>
      obtain ⟨kind', new⟩ := frame
      change (if kind = kind' then _ else none) = some later at closed
      split at closed
      · rename_i same
        obtain rfl : kind = kind' := same
        exact ⟨new, around, rfl, (Option.some.inj closed).symm⟩
      · cases closed

/-- The innermost frame can be closed. -/
theorem exists_leave? (drops : κ → Bool) {kind : κ} {kinds : List κ} (innermost : frames.kinds = kind :: kinds) :
    ∃ later, frames.leave? drops kind = some later ∧ later.kinds = kinds := by
  obtain ⟨outermost, inner⟩ := frames
  cases inner with
  | nil => cases innermost
  | cons frame around =>
      obtain ⟨same, others⟩ := List.cons.inj innermost
      refine ⟨_, if_pos same.symm, ?_⟩
      split
      · exact others
      · rw [kinds_add]
        exact others

/-! #### Balanced runs -/

/-- The frames with others open inside of them. -/
def within (frames : Frames κ β) (pushed : List (Frame κ β)) : Frames κ β :=
  { frames with inner := pushed ++ frames.inner }

omit [DecidableEq κ] in
/-- What is added inside goes to the innermost frame, which may be one of those around. -/
theorem add_within (frames : Frames κ β) (pushed : List (Frame κ β)) (new : List β) :
    ∃ extra pushed', (frames.within pushed).add new = (frames.add extra).within pushed' ∧
      pushed'.map Frame.kind = pushed.map Frame.kind := by
  cases pushed with
  | nil => exact ⟨new, [], rfl, rfl⟩
  | cons frame others =>
      refine ⟨[], { frame with entries := frame.entries ++ new } :: others, ?_, rfl⟩
      rw [add_nil]
      rfl

/-- Frames that were open before a run, and are not closed by it, only get new entries. -/
theorem replay_within {log : List (Step κ (List β))} (pushed : List (Frame κ β)) {kinds : List κ}
    (nested : opened (pushed.map Frame.kind) log = some kinds)
    (replayed : (frames.within pushed).replay drops log = some later) :
    ∃ new pushed', later = (frames.add new).within pushed' ∧ pushed'.map Frame.kind = kinds := by
  induction log generalizing frames pushed with
  | nil =>
      refine ⟨[], pushed, ?_, Option.some.inj nested⟩
      rw [add_nil]
      exact (Option.some.inj replayed).symm
  | cons step rest ih =>
      -- Entries that go to the frames around are put in front of those that go there later.
      have adding : ∀ {pushed : List (Frame κ β)} {new : List β},
          opened (pushed.map Frame.kind) rest = some kinds →
          ((frames.within pushed).add new).replay drops rest = some later →
          ∃ new pushed', later = (frames.add new).within pushed' ∧ pushed'.map Frame.kind = kinds := by
        intro pushed new nested replayed
        obtain ⟨extra, pushed', same, kept⟩ := add_within frames pushed new
        obtain ⟨more, last, rfl, open_⟩ := ih pushed' (kept ▸ nested) (same ▸ replayed)
        exact ⟨extra ++ more, last, by rw [add_add], open_⟩
      cases step with
      | enter kind => exact ih (⟨kind, []⟩ :: pushed) nested replayed
      | add new => exact adding nested replayed
      | leave kind =>
          cases pushed with
          | nil => cases nested
          | cons frame others =>
              change (if kind = frame.kind then opened _ rest else none) = some kinds at nested
              split at nested
              · rename_i same
                have closed : (frames.within (frame :: others)).leave? drops kind =
                    some (if drops kind then frames.within others
                      else (frames.within others).add frame.entries) := if_pos same
                rw [replay, closed, Option.bind_some] at replayed
                split at replayed
                · exact ih others nested replayed
                · exact adding nested replayed
              · cases nested

/-- A balanced run only adds entries to the innermost frame. -/
theorem replay_balanced {log : List (Step κ (List β))} (balanced : Balanced log)
    (replayed : frames.replay drops log = some later) : ∃ new, later = frames.add new := by
  obtain ⟨new, pushed, rfl, none⟩ := replay_within [] balanced replayed
  obtain rfl : pushed = [] := List.map_eq_nil_iff.1 none
  exact ⟨new, rfl⟩

end Frames

/-! ### Runs of a bookkeeping -/

/-- A bookkeeping takes a step in a state, and answers with the entries that are added. -/
abbrev Bookkeeping (κ α β σ : Type) := Step κ α → σ → Except Fault (List β × σ)

/-- The step with the entries it was answered with. -/
def Step.answered (new : List β) : Step κ α → Step κ (List β)
  | .enter kind => .enter kind
  | .leave kind => .leave kind
  | .add _ => .add new

/-- A run of a bookkeeping: the steps with their answers, and the state at the end. -/
def run (takes : Bookkeeping κ α β σ) :
    List (Step κ α) → σ → Except Fault (List (Step κ (List β)) × σ)
  | [], s => .ok ([], s)
  | step :: rest, s => do
    let (new, s) ← takes step s
    let (log, s) ← run takes rest s
    return (step.answered new :: log, s)

/-- A relation between the states of a bookkeeping and frames, by what was asked to be added so far and the
    entries made for it, is kept by every step. -/
structure Agrees (takes : Bookkeeping κ α β σ) (drops : κ → Bool) (admits : α → Prop)
    (relation : List α → List β → σ → Frames κ β → Prop) : Prop where
  enter : ∀ {asked made s frames} kind, relation asked made s frames →
    ∃ s', takes (.enter kind) s = .ok ([], s') ∧ relation asked made s' (frames.enter kind)
  leave : ∀ {asked made s frames} kind later, relation asked made s frames →
    frames.leave? drops kind = some later →
    ∃ s', takes (.leave kind) s = .ok ([], s') ∧ relation asked made s' later
  add : ∀ {asked made s frames} what, admits what → relation asked made s frames →
    ∃ new s', takes (.add what) s = .ok (new, s') ∧
      relation (asked ++ [what]) (made ++ new) s' (frames.add new)

section

variable {takes : Bookkeeping κ α β σ} {drops : κ → Bool} {admits : α → Prop}
  {relation : List α → List β → σ → Frames κ β → Prop} {s s' : σ}

omit [DecidableEq κ] in
/-- After the first step the others are taken from where it leads. -/
theorem run_cons {step : Step κ α} {new : List β} {rest : List (Step κ α)} (taken : takes step s = .ok (new, s')) :
    run takes (step :: rest) s =
      (fun later => (step.answered new :: later.1, later.2)) <$> run takes rest s' := by
  rw [run, taken]
  change (run takes rest s' >>= _) = _
  cases run takes rest s' <;> rfl

omit [DecidableEq κ] in
theorem run_cons_of_ok {step : Step κ α} {new : List β} {rest : List (Step κ α)}
    (taken : takes step s = .ok (new, s')) {log : List (Step κ (List β))} {last : σ}
    (later : run takes rest s' = .ok (log, last)) :
    run takes (step :: rest) s = .ok (step.answered new :: log, last) := by
  rw [run_cons taken, later]
  rfl

/-- Along a properly nested run the bookkeeping never faults, and the relation still holds at the end. The log
    opens and closes the same frames as the run. -/
theorem Agrees.run (agrees : Agrees takes drops admits relation) (asked : List α) (made : List β)
    {frames : Frames κ β} (related : relation asked made s frames) {steps : List (Step κ α)} {kinds : List κ}
    (nested : opened frames.kinds steps = some kinds) (admitted : ∀ what ∈ added steps, admits what) :
    ∃ log s' later, run takes steps s = .ok (log, s') ∧ frames.replay drops log = some later ∧
      relation (asked ++ added steps) (made ++ (added log).flatten) s' later ∧
      ∀ kinds, opened kinds log = opened kinds steps := by
  induction steps generalizing asked made s frames with
  | nil =>
      refine ⟨[], s, frames, rfl, rfl, ?_, fun _ => rfl⟩
      simpa [added] using related
  | cons step rest ih =>
      cases step with
      | enter kind =>
          obtain ⟨s', taken, related⟩ := agrees.enter kind related
          obtain ⟨log, last, later, ran, replayed, kept, same⟩ :=
            ih asked made related nested admitted
          exact ⟨_, last, later, run_cons_of_ok taken ran, replayed, kept, fun kinds => same _⟩
      | leave kind =>
          have innermost : ∃ others, frames.kinds = kind :: others ∧ opened others rest = some kinds := by
            cases first : frames.kinds with
            | nil => rw [first] at nested; cases nested
            | cons innermost others =>
                rw [first, opened] at nested
                split at nested
                · rename_i same
                  exact ⟨others, by rw [same], nested⟩
                · cases nested
          obtain ⟨others, first, nested⟩ := innermost
          obtain ⟨closed, left, open_⟩ := Frames.exists_leave? drops first
          obtain ⟨s', taken, related⟩ := agrees.leave kind closed related left
          obtain ⟨log, last, later, ran, replayed, kept, same⟩ :=
            ih asked made related (open_ ▸ nested) admitted
          refine ⟨_, last, later, run_cons_of_ok taken ran, ?_, kept, fun kinds => ?_⟩
          · rw [Step.answered, Frames.replay, left]
            exact replayed
          · cases kinds with
            | nil => rfl
            | cons innermost others => simp only [Step.answered, opened, same]
      | add what =>
          obtain ⟨here, admitted⟩ := List.forall_mem_cons.1 admitted
          obtain ⟨new, s', taken, related⟩ := agrees.add what here related
          obtain ⟨log, last, later, ran, replayed, kept, same⟩ :=
            ih _ _ related ((Frames.kinds_add frames new).symm ▸ nested) admitted
          refine ⟨_, last, later, run_cons_of_ok taken ran, replayed, ?_, fun kinds => same _⟩
          simpa [Step.answered, added] using kept

/-- The relation holds after every properly nested run from the start, where no frame is open. -/
theorem Agrees.run_of_properlyNested (agrees : Agrees takes drops admits relation)
    (start : relation [] [] s {}) {steps : List (Step κ α)} (nested : ProperlyNested steps)
    (admitted : ∀ what ∈ added steps, admits what) :
    ∃ log s' frames, Nested.run takes steps s = .ok (log, s') ∧ Frames.replay drops {} log = some frames ∧
      relation (added steps) (added log).flatten s' frames := by
  obtain ⟨kinds, open_⟩ := Option.isSome_iff_exists.1 nested
  obtain ⟨log, s', frames, ran, replayed, related, -⟩ := agrees.run [] [] start open_ admitted
  exact ⟨log, s', frames, ran, replayed, related⟩

/-- Opening a frame, a balanced run and closing the frame again: in the end the frames are those before, up to
    the entries that the closed frame hands on. -/
theorem Agrees.pair (agrees : Agrees takes drops admits relation) (asked : List α) (made : List β)
    {frames : Frames κ β} (related : relation asked made s frames) (kind : κ) {inside : List (Step κ α)}
    (balanced : Balanced inside) (admitted : ∀ what ∈ added inside, admits what) :
    ∃ log inner after new asked' made', Nested.run takes (.enter kind :: inside) s = .ok (log, inner) ∧
      takes (.leave kind) inner = .ok ([], after) ∧
      relation asked' made' inner ((frames.enter kind).add new) ∧
      relation asked' made' after (if drops kind then frames else frames.add new) := by
  obtain ⟨s', taken, related⟩ := agrees.enter kind related
  have nested : opened (frames.enter kind).kinds inside = some (frames.enter kind).kinds :=
    opened_append balanced _
  obtain ⟨log, inner, later, ran, replayed, related, same⟩ := agrees.run asked made related nested admitted
  obtain ⟨new, rfl⟩ := Frames.replay_balanced ((same []).trans balanced) replayed
  have closed : ((frames.enter kind).add new).leave? drops kind =
      some (if drops kind then frames else frames.add new) := if_pos rfl
  obtain ⟨after, left, restored⟩ := agrees.leave kind _ related closed
  exact ⟨_, inner, after, new, _, _, run_cons_of_ok taken ran, left, related, restored⟩

end

end YulFuzz.Nested
