/-
Module: YulFuzz.Proofs.Choice
Purpose: Choosing from a list in cyclic order. The first that fits, from some place on, is one that fits with
  none that fits on the way from that place to it; each place is tried once. This is how the function of an
  assignment is picked, while other functions are picked by their place alone.
Main exports: FirstFrom, find?_rotate_eq_some_iff, Functions.pick_eq_some_iff,
  Functions.pickMultiWithin_eq_some_iff
-/
import Mathlib.Data.List.Rotate
import YulFuzz.Proofs.Safety

namespace YulFuzz

/-- The first that fits, in cyclic order from a place on: it is a number of steps away from there, less than
    once around, and with fewer steps one comes to none that fits. -/
def FirstFrom {α : Type} (list : List α) (start : Nat) (fits : α → Prop) (found : α) : Prop :=
  fits found ∧ ∃ steps < list.length, list[(start + steps) % list.length]? = some found ∧
    ∀ earlier < steps, ∀ other, list[(start + earlier) % list.length]? = some other → ¬ fits other

/-- Searching a list from a place on finds the first that fits in cyclic order. -/
theorem find?_rotate_eq_some_iff {α : Type} {list : List α} {start : Nat} {fits : α → Bool} {found : α} :
    (list.rotate start).find? fits = some found ↔ FirstFrom list start (fits · = true) found := by
  have place {steps : Nat} (short : steps < (list.rotate start).length) :
      list[(start + steps) % list.length]? = some (list.rotate start)[steps] := by
    have inside : steps < list.length := by rwa [List.length_rotate] at short
    rw [← List.getElem?_eq_getElem short, List.getElem?_rotate inside, Nat.add_comm]
  rw [List.find?_eq_some_iff_getElem, FirstFrom]
  apply and_congr_right
  intro _
  constructor
  · rintro ⟨steps, short, here, before⟩
    refine ⟨steps, by rwa [List.length_rotate] at short, by rw [place short, here], ?_⟩
    intro earlier less other there
    rw [place (less.trans short)] at there
    obtain rfl := Option.some.inj there
    simpa using before earlier less
  · rintro ⟨steps, short, here, before⟩
    have short : steps < (list.rotate start).length := by rwa [List.length_rotate]
    refine ⟨steps, short, Option.some.inj ((place short).symm.trans here), ?_⟩
    intro earlier less
    simpa using before earlier less _ (place (less.trans short))

namespace Functions

variable {fs : Functions} {kind : FunctionKind} {selector bound : Nat} {callee : Callable}

/-- The function picked is the one at the place that the selector stands for. -/
theorem pick_eq_some_iff :
    fs.pick kind selector = some callee ↔ (fs.candidates kind)[selector % fs.count kind]? = some callee := by
  rw [pick]
  split
  · rename_i empty
    simp [List.isEmpty_iff.1 empty]
  · rfl

/-- For an assignment the first function is picked that has few enough outputs. -/
theorem pickMultiWithin_eq_some_iff : fs.pickMultiWithin selector bound = some callee ↔
    FirstFrom (fs.candidates .multiReturn) (selector % fs.count .multiReturn) (·.outputs ≤ bound) callee := by
  rw [pickMultiWithin]
  split
  · rename_i empty
    simp [List.isEmpty_iff.1 empty, FirstFrom]
  · rename_i some
    have nonempty : fs.candidates .multiReturn ≠ [] := by simpa using some
    have below := Nat.mod_lt selector (List.length_pos_iff.2 nonempty)
    change List.find? _ (List.drop _ _ ++ List.take _ _) = _ ↔ _
    rw [← List.rotate_eq_drop_append_take below.le, find?_rotate_eq_some_iff, count]
    simp only [decide_eq_true_eq]

end Functions

end YulFuzz
