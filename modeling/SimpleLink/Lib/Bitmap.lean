import Mathlib.Data.List.Basic
import Mathlib.Data.UInt

/-!
# Bitmaps in a machine word

A set of small numbers as the bits of a 32-bit word: the test, and what setting
and clearing one bit does to it.
-/

namespace SimpleLink.Lib

def bit (bitmap : BitVec 32) (k : Nat) : Bool := bitmap &&& (1#32 <<< k) != 0

theorem getLsbD_mask (k i : Nat) : (1#32 <<< k).getLsbD i = decide (i = k ∧ i < 32) := by
  rw [BitVec.getLsbD_shiftLeft, BitVec.getLsbD_one]
  by_cases h : i < k
  · simp [h]; omega
  · simp [h]; by_cases hi : i < 32 <;> simp [hi]; omega

theorem bit_eq (bm : BitVec 32) (k : Nat) : bit bm k = bm.getLsbD k := by
  cases hk : bm.getLsbD k with
  | false =>
    have : bm &&& (1#32 <<< k) = 0 := by
      refine BitVec.eq_of_getLsbD_eq fun i hi => ?_
      rw [BitVec.getLsbD_and, getLsbD_mask]
      by_cases h : i = k
      · subst h; simp [hk]
      · simp [h]
    simp [bit, this]
  | true =>
    have hlt : k < 32 := BitVec.lt_of_getLsbD hk
    have : bm &&& (1#32 <<< k) ≠ 0 := by
      intro h
      have hz : (bm &&& (1#32 <<< k)).getLsbD k = false := by rw [h]; simp
      rw [BitVec.getLsbD_and, hk, getLsbD_mask] at hz
      simp [hlt] at hz
    simpa [bit] using this

@[simp] theorem bit_zero (k : Nat) : bit 0#32 k = false := by
  rw [bit_eq, BitVec.getLsbD_zero]

theorem bit_set (bm : BitVec 32) (k r : Nat) :
    bit (bm ||| (1#32 <<< k)) r = (bit bm r || decide (r = k ∧ r < 32)) := by
  rw [bit_eq, bit_eq, BitVec.getLsbD_or, getLsbD_mask]

theorem bit_clear (bm : BitVec 32) (k r : Nat) :
    bit (bm &&& ~~~(1#32 <<< k)) r = (bit bm r && !decide (r = k)) := by
  rw [bit_eq, bit_eq, BitVec.getLsbD_and, BitVec.getLsbD_not, getLsbD_mask]
  by_cases hr : r < 32
  · simp [hr]
  · simp [hr, BitVec.getLsbD_of_ge bm r (by omega)]

theorem bit_mask (k r : Nat) : bit (1#32 <<< k) r = decide (r = k ∧ r < 32) := by
  rw [bit_eq, getLsbD_mask]

theorem bit_or (a b : BitVec 32) (r : Nat) : bit (a ||| b) r = (bit a r || bit b r) := by
  rw [bit_eq, bit_eq, bit_eq, BitVec.getLsbD_or]

theorem eq_zero_of_bit {bm : BitVec 32} (h : ∀ k, bit bm k = false) : bm = 0#32 := by
  refine BitVec.eq_of_getLsbD_eq fun i _ => ?_
  rw [← bit_eq, h, BitVec.getLsbD_zero]

end SimpleLink.Lib
