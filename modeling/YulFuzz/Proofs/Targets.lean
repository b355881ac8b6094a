/-
Module: YulFuzz.Proofs.Targets
Purpose: The slots of a multi-value assignment. Probing from a slot finds the first free one in cyclic order,
  and as long as fewer slots are used than there are variables it finds one. So the slots of an assignment
  are the lexical targets, counted from the first visible variable.
Main exports: Walk.probe_eq_find?, Walk.exists_assignmentSlots, Lexical.Env.targets_eq_map
-/
import Mathlib.Data.List.Perm.Subperm
import YulFuzz.Proofs.Lexical.Translator

namespace YulFuzz

namespace Walk

/-- Among distinct things there is one that is not taken, as long as fewer are taken. -/
theorem exists_find?_rotate {vars taken : List Nat} (nodup : vars.Nodup)
    (free : taken.length < vars.length) (requested : Nat) :
    ∃ target, (vars.rotate requested).find? (· ∉ taken) = some target := by
  rw [← Option.isSome_iff_exists, List.find?_isSome]
  by_contra none
  have subset : vars ⊆ taken := by
    intro number member
    by_contra unused
    exact none ⟨number, List.mem_rotate.2 member, by simpa using unused⟩
  have := (nodup.subperm subset).length_le
  omega

/-- The slots in cyclic order from a given one. -/
theorem rotate_range (visible slot : Nat) :
    (List.range visible).rotate slot = (List.range visible).map fun j => (slot + j) % visible := by
  apply List.ext_getElem
  · simp
  · intro j _ _
    simp [List.getElem_rotate, Nat.add_comm]

/-- Probing is looking for the first slot that is not used, in cyclic order. -/
theorem probe_eq_find? {visible : Nat} (used : List Nat) (tries : Nat) {slot : Nat}
    (slot_lt : slot < visible) :
    probe visible used tries slot =
      ((List.range tries).map fun j => (slot + j) % visible).find? (· ∉ used) := by
  induction tries generalizing slot with
  | zero => rfl
  | succ tries ih =>
      have here : (slot + 0) % visible = slot := by rw [Nat.add_zero, Nat.mod_eq_of_lt slot_lt]
      have later : ((List.range tries).map fun j => ((slot + 1) % visible + j) % visible) =
          ((List.range tries).map Nat.succ).map fun j => (slot + j) % visible := by
        rw [List.map_map]
        apply List.map_congr_left
        intro j _
        simp [Nat.add_assoc, Nat.add_comm 1 j]
      have next := ih (Nat.mod_lt (slot + 1) (show 0 < visible by omega))
      rw [List.range_succ_eq_map, List.map_cons, here, ← later, probe, next]
      by_cases member : slot ∈ used
      · simp [member]
      · simp [member]

theorem probe_eq_find?_rotate {visible : Nat} (used : List Nat) (requested : Nat) (pos : 0 < visible) :
    probe visible used visible (requested % visible) =
      ((List.range visible).rotate requested).find? (· ∉ used) := by
  rw [probe_eq_find? used visible (Nat.mod_lt _ pos), rotate_range]
  simp

/-- As long as not all slots are used, there is a free one. -/
theorem exists_probe {visible : Nat} {used : List Nat} (requested : Nat)
    (free : used.length < visible) :
    ∃ slot, probe visible used visible (requested % visible) = some slot := by
  rw [probe_eq_find?_rotate used requested (by omega)]
  exact exists_find?_rotate List.nodup_range (by rwa [List.length_range]) requested

/-- An assignment to no more targets than there are variables has slots for them. -/
theorem exists_assignmentSlots {visible : Nat} (requests used : List Nat) (place : Nat) {count : Nat}
    (enough : used.length + count ≤ visible) :
    ∃ slots, assignmentSlots visible requests used place count = some slots := by
  induction count generalizing used place with
  | zero => exact ⟨[], rfl⟩
  | succ count ih =>
      obtain ⟨slot, found⟩ :=
        exists_probe (requests[place]?.getD place) (show used.length < visible by omega)
      obtain ⟨slots, rest⟩ := ih (slot :: used) (place + 1) (by rw [List.length_cons]; omega)
      exact ⟨slot :: slots, by rw [assignmentSlots, found]; simp [rest]⟩

end Walk

namespace Lexical.Env

/-- The lexical targets of an assignment are its slots, counted from the first visible variable. -/
theorem targets_eq_map {env : Env} {offset visible : Nat} (vars : env.vars = List.range' offset visible)
    (requests : List UInt32) {used slots : List Nat} {place count : Nat}
    (found : Walk.assignmentSlots visible (requests.map UInt32.toNat) used place count = some slots) :
    env.targets requests (used.map (offset + ·)) place count = slots.map (offset + ·) := by
  induction count generalizing used place slots with
  | zero =>
      rw [Walk.assignmentSlots, Option.some.injEq] at found
      rw [← found]
      rfl
  | succ count ih =>
      have pos : 0 < visible := by
        rcases Nat.eq_zero_or_pos visible with rfl | pos
        · simp [Walk.assignmentSlots, Walk.probe] at found
        · exact pos
      simp only [Walk.assignmentSlots, List.getElem?_map, bind, Option.bind_eq_some_iff,
        Walk.probe_eq_find?_rotate _ _ pos] at found
      obtain ⟨slot, here, rest, there, same⟩ := found
      have rotated : (env.vars.rotate ((requests[place]?.map UInt32.toNat).getD place)).find?
          (· ∉ used.map (offset + ·)) = some (offset + slot) := by
        rw [vars, List.range'_eq_map_range, ← List.map_rotate, List.find?_map]
        simp only [Function.comp_def, List.mem_map, Nat.add_right_inj, exists_eq_right]
        rw [here]
        rfl
      obtain rfl : slot :: rest = slots := by simpa using same
      rw [targets, rotated]
      exact congrArg ((offset + slot) :: ·) (ih there)

/-- There are as many targets as wanted, as long as there are that many visible variables that are not
    taken. -/
theorem length_targets {env : Env} (nodup : env.vars.Nodup) (requests : List UInt32) {taken : List Nat}
    {place wanted : Nat} (enough : taken.length + wanted ≤ env.vars.length) :
    (env.targets requests taken place wanted).length = wanted := by
  induction wanted generalizing taken place with
  | zero => rfl
  | succ wanted ih =>
      have free : taken.length < env.vars.length := by omega
      obtain ⟨target, found⟩ := Walk.exists_find?_rotate nodup free
        ((requests[place]?.map UInt32.toNat).getD place)
      rw [targets, found]
      exact congrArg (· + 1) (ih (by rw [List.length_cons]; omega))

/-- Targets are visible variables that are not taken. -/
theorem mem_of_mem_targets {env : Env} {requests : List UInt32} {taken : List Nat}
    {place wanted number : Nat} (member : number ∈ env.targets requests taken place wanted) :
    number ∈ env.vars ∧ number ∉ taken := by
  induction wanted generalizing taken place with
  | zero => cases member
  | succ wanted ih =>
      rw [targets] at member
      split at member
      · cases member
      · rename_i target found
        rcases List.mem_cons.1 member with rfl | later
        · refine ⟨List.mem_rotate.1 (List.mem_of_find?_eq_some found), ?_⟩
          simpa using List.find?_some found
        · exact ⟨(ih later).1, fun taken => (ih later).2 (List.mem_cons_of_mem _ taken)⟩

/-- Targets are distinct. -/
theorem nodup_targets (env : Env) (requests : List UInt32) (taken : List Nat) (place wanted : Nat) :
    (env.targets requests taken place wanted).Nodup := by
  induction wanted generalizing taken place with
  | zero => exact .nil
  | succ wanted ih =>
      rw [targets]
      split
      · exact .nil
      · refine List.nodup_cons.2 ⟨fun member => ?_, ih _ _⟩
        exact (mem_of_mem_targets member).2 List.mem_cons_self

end Lexical.Env

end YulFuzz
