/-
Module: YulFuzz.Proofs.Probing
Purpose: The loop that finds a slot for each target of a multi-value assignment. It goes round until it comes to
  a slot that no target before has, and nothing in it bounds how often; but since fewer slots are used than there
  are, it stops after at most one step for each slot that is used. So every target gets the first free slot in
  cyclic order from the one requested, and requests for distinct slots are all met.
Main exports: Walk.Probes, Walk.FirstFree, Walk.Probed, assignmentTargets_probed
-/
import Mathlib.Data.Nat.ModEq
import YulFuzz.Proofs.Choice
import YulFuzz.Proofs.Targets

namespace YulFuzz

namespace Walk

/-! ### Probing for one slot -/

/-- The loop that probes for a slot: from one that is used it goes on to the next, after the last to the first,
    for as many steps as it takes to come to a free one. -/
inductive Probes (visible : Nat) (used : List Nat) : (start steps found : Nat) → Prop where
  | free {slot : Nat} (unused : slot ∉ used) : Probes visible used slot 0 slot
  | passed {slot steps found : Nat} (taken : slot ∈ used)
      (later : Probes visible used ((slot + 1) % visible) steps found) :
      Probes visible used slot (steps + 1) found

/-- A slot is the first in cyclic order from the one requested that is not used, `steps` behind it. -/
structure FirstFree (visible : Nat) (used : List Nat) (requested steps slot : Nat) : Prop where
  place : slot = (requested + steps) % visible
  unused : slot ∉ used
  before : ∀ earlier < steps, (requested + earlier) % visible ∈ used

variable {visible requested steps slot : Nat} {used : List Nat}

/-- The loop stops at the first free slot, after as many steps as it is away. -/
theorem FirstFree.probes (first : FirstFree visible used requested steps slot) :
    Probes visible used (requested % visible) steps slot := by
  obtain ⟨place, unused, before⟩ := first
  induction steps generalizing requested with
  | zero =>
      subst place
      exact .free unused
  | succ steps ih =>
      have onward (steps : Nat) : requested + 1 + steps = requested + (steps + 1) := by omega
      have later : Probes visible used ((requested + 1) % visible) steps slot := by
        refine ih (by rw [onward, place]) fun earlier less => ?_
        rw [onward]
        exact before (earlier + 1) (by omega)
      refine .passed (before 0 (Nat.succ_pos _)) ?_
      rwa [Nat.mod_add_mod]

/-- Less than once around, the loop comes to no slot twice. -/
theorem nodup_passed (requested : Nat) (short : steps ≤ visible) :
    ((List.range steps).map fun earlier => (requested + earlier) % visible).Nodup := by
  refine List.Nodup.map_on ?_ List.nodup_range
  intro one first other second same
  rw [List.mem_range] at first second
  have same : Nat.ModEq visible one other := Nat.ModEq.add_left_cancel' requested same
  exact same.eq_of_lt_of_lt (by omega) (by omega)

/-- Every slot that the loop passes over is used, so there are no more steps than used slots. -/
theorem FirstFree.steps_le (first : FirstFree visible used requested steps slot) (short : steps ≤ visible) :
    steps ≤ used.length := by
  have passed : (List.range steps).map (fun earlier => (requested + earlier) % visible) ⊆ used := by
    intro slot member
    obtain ⟨earlier, less, rfl⟩ := List.mem_map.1 member
    exact first.before earlier (List.mem_range.1 less)
  have fewer := ((nodup_passed requested short).subperm passed).length_le
  rwa [List.length_map, List.length_range] at fewer

/-- A free slot that is requested is given. -/
theorem FirstFree.eq_of_not_mem (first : FirstFree visible used requested steps slot)
    (free : requested % visible ∉ used) : slot = requested % visible := by
  cases steps with
  | zero => exact first.place
  | succ steps => exact absurd (first.before 0 (Nat.succ_pos _)) free

/-- Only which slots are used matters, not in which order they are listed. -/
theorem FirstFree.congr {other : List Nat} (same : ∀ slot, slot ∈ used ↔ slot ∈ other)
    (first : FirstFree visible used requested steps slot) : FirstFree visible other requested steps slot where
  place := first.place
  unused := fun member => first.unused ((same _).2 member)
  before := fun earlier less => (same _).1 (first.before earlier less)

/-- What probing finds within as many tries as there are slots is the first free slot. -/
theorem exists_firstFree (pos : 0 < visible)
    (found : probe visible used visible (requested % visible) = some slot) :
    ∃ steps ≤ used.length, FirstFree visible used requested steps slot := by
  rw [probe_eq_find?_rotate used requested pos, find?_rotate_eq_some_iff] at found
  obtain ⟨unused, steps, short, there, before⟩ := found
  have at_ (steps : Nat) : (List.range visible)[(requested + steps) % visible]? =
      some ((requested + steps) % visible) := List.getElem?_range (Nat.mod_lt _ pos)
  rw [List.length_range] at short there before
  have first : FirstFree visible used requested steps slot := by
    refine ⟨Option.some.inj (there.symm.trans (at_ steps)), of_decide_eq_true unused, ?_⟩
    intro earlier less
    by_contra free
    exact before earlier less _ (at_ earlier) (decide_eq_true free)
  exact ⟨steps, first.steps_le short.le, first⟩

/-! ### The slots of all targets -/

/-- The number that is requested for a target: the one at its place or, where the list of requests is too short,
    the place itself. -/
def requestAt (requests : List UInt32) (place : Nat) : Nat :=
  (requests[place]?.map UInt32.toNat).getD place

/-- The slots for the targets of an assignment among the visible variables. They are distinct, and each is the
    first free one from the one requested, where the slots of the targets before it are used. The loop that probes
    for it stops there, after no more steps than there are targets before it. -/
structure Probed (visible : Nat) (requests : List UInt32) (slots : List Nat) : Prop where
  below : ∀ slot ∈ slots, slot < visible
  distinct : slots.Nodup
  first : ∀ (place : Nat) (inside : place < slots.length), ∃ steps ≤ place,
    FirstFree visible (slots.take place) (requestAt requests place) steps slots[place] ∧
      Probes visible (slots.take place) (requestAt requests place % visible) steps slots[place]
  /-- As long as the requests are for distinct slots, they are met. -/
  honoured : ∀ count ≤ slots.length,
    ((List.range count).map fun place => requestAt requests place % visible).Nodup →
    slots.take count = (List.range count).map fun place => requestAt requests place % visible
  /-- So the first one always is. -/
  head : ∀ nonempty : 0 < slots.length, slots[0] = requestAt requests 0 % visible

variable {requests : List UInt32} {slots : List Nat}

/-- Slots are chosen one after the other, each with those before it used. -/
theorem firstFree_of_assignmentSlots {place count : Nat} (enough : used.length + count ≤ visible)
    (found : assignmentSlots visible (requests.map UInt32.toNat) used place count = some slots) :
    slots.length = count ∧ ∀ (i : Nat) (inside : i < slots.length), ∃ steps ≤ used.length + i,
      FirstFree visible ((slots.take i).reverse ++ used) (requestAt requests (place + i)) steps slots[i] := by
  induction count generalizing used place slots with
  | zero =>
      rw [assignmentSlots, Option.some.injEq] at found
      subst found
      exact ⟨rfl, fun i inside => absurd inside (Nat.not_lt_zero i)⟩
  | succ count ih =>
      simp only [assignmentSlots, List.getElem?_map, bind, Option.bind_eq_some_iff] at found
      obtain ⟨slot, here, rest, later, same⟩ := found
      obtain rfl := Option.some.inj same
      obtain ⟨length, others⟩ := ih (by rw [List.length_cons]; omega) later
      refine ⟨congrArg (· + 1) length, ?_⟩
      intro i inside
      cases i with
      | zero => exact exists_firstFree (by omega) here
      | succ i =>
          obtain ⟨steps, bound, first⟩ := others i (Nat.lt_of_succ_lt_succ inside)
          refine ⟨steps, by rw [List.length_cons] at bound; omega, ?_⟩
          have onward : place + (i + 1) = place + 1 + i := by omega
          rwa [onward, List.take_succ_cons, List.reverse_cons, List.append_assoc, List.singleton_append]

section

variable (first : ∀ (place : Nat) (inside : place < slots.length), ∃ steps ≤ place,
  FirstFree visible (slots.take place) (requestAt requests place) steps slots[place])
include first

theorem nodup_of_firstFree : slots.Nodup := by
  rw [List.Nodup, List.pairwise_iff_getElem]
  intro one other inside later less same
  obtain ⟨steps, -, found⟩ := first other later
  exact found.unused (List.mem_take_iff_getElem.2 ⟨one, by omega, same⟩)

theorem honoured_of_firstFree {count : Nat} (enough : count ≤ slots.length)
    (distinct : ((List.range count).map fun place => requestAt requests place % visible).Nodup) :
    slots.take count = (List.range count).map fun place => requestAt requests place % visible := by
  induction count with
  | zero => rfl
  | succ count ih =>
      rw [List.range_succ, List.map_append, List.map_singleton] at distinct ⊢
      obtain ⟨before, -, apart⟩ := List.nodup_append.1 distinct
      have earlier := ih (by omega) before
      obtain ⟨steps, -, here⟩ := first count enough
      have free : requestAt requests count % visible ∉ slots.take count := by
        rw [earlier]
        exact fun member => apart _ member _ List.mem_cons_self rfl
      rw [List.take_succ_eq_append_getElem enough, earlier, here.eq_of_not_mem free]

theorem Probed.of_firstFree (pos : 0 < slots.length → 0 < visible) : Probed visible requests slots where
  below := by
    intro slot member
    obtain ⟨place, inside, rfl⟩ := List.getElem_of_mem member
    obtain ⟨steps, -, found⟩ := first place inside
    rw [found.place]
    exact Nat.mod_lt _ (pos (by omega))
  distinct := nodup_of_firstFree first
  first := by
    intro place inside
    obtain ⟨steps, bound, found⟩ := first place inside
    exact ⟨steps, bound, found, found.probes⟩
  honoured := fun _ enough distinct => honoured_of_firstFree first enough distinct
  head := by
    intro nonempty
    obtain ⟨steps, -, found⟩ := first 0 nonempty
    exact found.eq_of_not_mem List.not_mem_nil

end

end Walk

open Walk (State Probed)

/-- An assignment to no more targets than there are visible variables gets its targets. They are the variables at
    distinct slots among the visible ones: one after the other, each target takes the first slot from the one
    requested for it on that no target before has taken. The loop that probes for that slot stops, and requests for
    distinct slots are met. -/
theorem assignmentTargets_probed (requests : List UInt32) {wanted visible : Nat} (enough : wanted ≤ visible)
    (s : State) (seen : s.vars.visible = .ok visible) :
    ∃ slots : List Nat, Walk.assignmentTargets requests wanted s =
        .ok (slots.map fun slot => .user (s.vars.offset + slot), s) ∧
      slots.length = wanted ∧ Probed visible requests slots := by
  have fits : ([] : List Nat).length + wanted ≤ visible := by simpa using enough
  obtain ⟨slots, found⟩ := Walk.exists_assignmentSlots (requests.map UInt32.toNat) [] 0 fits
  obtain ⟨length, first⟩ := Walk.firstFree_of_assignmentSlots fits found
  refine ⟨slots, ?_, length, .of_firstFree ?_ (by omega)⟩
  · unfold Walk.assignmentTargets
    rw [Lexical.bind_of_ok (a := s) (r := s) rfl, Lexical.bind_of_ok (Lexical.lift_of_ok seen _),
      if_neg (by omega), found]
    rfl
  · intro place inside
    obtain ⟨steps, bound, here⟩ := first place inside
    rw [Nat.zero_add] at here
    refine ⟨steps, by simpa using bound, here.congr fun slot => ?_⟩
    rw [List.append_nil, List.mem_reverse]

/-- In a function body three variables are visible behind one that is hidden. All three requests are for the second
    of them, so the second one goes on to the third and the third one around to the first. -/
theorem targets_go_around : ∃ s : State, s.vars.visible = .ok 3 ∧ 3 ≤ 3 ∧
    Walk.assignmentTargets [1, 1, 4] 3 s = .ok ([.user 2, .user 3, .user 1], s) ∧ Probed 3 [1, 1, 4] [1, 2, 0] := by
  refine ⟨{ vars := ({ live := 1 } : Variables).enterFunction.declare 3 }, rfl, le_refl 3, rfl, ?_⟩
  obtain ⟨slots, ran, -, probed⟩ := assignmentTargets_probed [1, 1, 4] (le_refl 3)
    { vars := ({ live := 1 } : Variables).enterFunction.declare 3 } rfl
  have walked : Walk.assignmentTargets [1, 1, 4] 3
      { vars := ({ live := 1 } : Variables).enterFunction.declare 3 } =
      .ok ([1, 2, 0].map fun slot => .user (1 + slot), _) := rfl
  have same := (Prod.mk.inj (Except.ok.inj (walked.symm.trans ran))).1
  have numbered : Function.Injective fun slot => Yul.Var.user (1 + slot) :=
    fun _ _ same => Nat.add_left_cancel (Yul.Var.user.inj same)
  obtain rfl := List.map_injective_iff.2 numbered same
  exact probed

end YulFuzz
