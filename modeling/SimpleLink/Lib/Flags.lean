import Mathlib.Data.UInt
import Mathlib.Tactic.Basic

/-!
# Flags in a status word

A flag is a mask; it is set by or-ing the mask, cleared by and-ing its complement and tested
by and-ing it. Masks that share no bit do not see each other.
-/

namespace SimpleLink.Lib

variable {s m m' : UInt16}

theorem or_mask_and_mask (s m : UInt16) : (s ||| m) &&& m = m := by
  apply UInt16.eq_of_toBitVec_eq
  ext i hi
  simp only [UInt16.toBitVec_and, UInt16.toBitVec_or, BitVec.getElem_and, BitVec.getElem_or]
  cases s.toBitVec[i] <;> cases m.toBitVec[i] <;> rfl

theorem clear_mask_and_mask (s m : UInt16) : (s &&& ~~~m) &&& m = 0 := by
  apply UInt16.eq_of_toBitVec_eq
  ext i hi
  simp only [UInt16.toBitVec_and, UInt16.toBitVec_not, BitVec.getElem_and, BitVec.getElem_not]
  cases s.toBitVec[i] <;> cases m.toBitVec[i] <;> simp

theorem or_mask_and_other (s : UInt16) (h : m &&& m' = 0) : (s ||| m) &&& m' = s &&& m' := by
  apply UInt16.eq_of_toBitVec_eq
  ext i hi
  have hb := congrArg (fun x => x.toBitVec[i]) h
  simp only [UInt16.toBitVec_and, UInt16.toBitVec_or, BitVec.getElem_and, BitVec.getElem_or] at hb ⊢
  revert hb
  cases m.toBitVec[i] <;> cases m'.toBitVec[i] <;> simp

theorem clear_mask_and_other (s : UInt16) (h : m &&& m' = 0) :
    (s &&& ~~~m) &&& m' = s &&& m' := by
  apply UInt16.eq_of_toBitVec_eq
  ext i hi
  have hb := congrArg (fun x => x.toBitVec[i]) h
  simp only [UInt16.toBitVec_and, UInt16.toBitVec_not, BitVec.getElem_and,
    BitVec.getElem_not] at hb ⊢
  revert hb
  cases m.toBitVec[i] <;> cases m'.toBitVec[i] <;> simp

end SimpleLink.Lib
