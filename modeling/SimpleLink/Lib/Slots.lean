import Mathlib.Algebra.BigOperators.Group.Finset.Basic
import Mathlib.Algebra.BigOperators.Group.Finset.Piecewise
import Mathlib.Data.Fintype.Card
import Mathlib.Data.UInt

/-!
# Counting the slots of a table

A table is a function from the slots to the entries. `tally p f` is the number of slots whose entry
satisfies `p`; writing one entry changes it by what that entry counted before and counts now.
-/

namespace SimpleLink.Lib

variable {ι α : Type} [Fintype ι] [DecidableEq ι] (p : α → Prop) [DecidablePred p]

/-- The number of slots whose entry satisfies `p`. -/
def tally (f : ι → α) : Nat := (Finset.univ.filter fun i => p (f i)).card

omit [DecidableEq ι] in
theorem tally_eq_sum (f : ι → α) : tally p f = ∑ i, if p (f i) then 1 else 0 :=
  Finset.card_filter _ _

theorem tally_update (f : ι → α) (i : ι) (x : α) :
    tally p (Function.update f i x) + (if p (f i) then 1 else 0) =
      tally p f + if p x then 1 else 0 := by
  have hrest : ∑ j ∈ Finset.univ.erase i, (if p (Function.update f i x j) then 1 else 0) =
      ∑ j ∈ Finset.univ.erase i, if p (f j) then 1 else 0 := by
    refine Finset.sum_congr rfl fun j hj => ?_
    rw [Function.update_of_ne (Finset.ne_of_mem_erase hj)]
  rw [tally_eq_sum, tally_eq_sum, ← Finset.add_sum_erase _ _ (Finset.mem_univ i), hrest,
    ← Finset.add_sum_erase _ (fun j => if p (f j) then 1 else 0) (Finset.mem_univ i),
    Function.update_self]
  omega

variable {p}

theorem tally_update_same {f : ι → α} {i : ι} {x : α} (h : p x ↔ p (f i)) :
    tally p (Function.update f i x) = tally p f := by
  have hsum := tally_update p f i x
  simp only [h] at hsum
  omega

theorem tally_update_on {f : ι → α} {i : ι} {x : α} (h : p x) (hf : ¬p (f i)) :
    tally p (Function.update f i x) = tally p f + 1 := by
  have hsum := tally_update p f i x
  rw [if_pos h, if_neg hf] at hsum
  omega

theorem tally_update_off {f : ι → α} {i : ι} {x : α} (h : ¬p x) (hf : p (f i)) :
    tally p (Function.update f i x) + 1 = tally p f := by
  have hsum := tally_update p f i x
  rw [if_neg h, if_pos hf] at hsum
  omega

omit [DecidableEq ι] in
theorem tally_le (f : ι → α) : tally p f ≤ Fintype.card ι := Finset.card_le_univ _

omit [DecidableEq ι] in
theorem tally_none {f : ι → α} (h : ∀ i, ¬p (f i)) : tally p f = 0 :=
  Finset.card_eq_zero.2 (Finset.filter_eq_empty_iff.2 fun i _ => h i)

end SimpleLink.Lib
