import Mathlib.Data.List.Basic
import Mathlib.Data.Nat.Bitwise
import Mathlib.Data.UInt

/-!
# Base-128 fields

A field is a run of bytes whose top bit (`contd`) is set on all of them but the
last; its low seven bits are the digits, least significant first. `fieldLen`
finds the end of the field a list starts with, `fieldVal` is the number the
digits stand for.
-/

namespace SimpleLink.Lib

def contd (b : UInt8) : Bool := b &&& 0x80 != 0

/-- The number of bytes up to the first one without a continuation bit. -/
def fieldLen : List UInt8 → Option Nat
  | [] => none
  | b :: bs => if contd b then (fieldLen bs).map (· + 1) else some 1

def fieldVal : List UInt8 → Nat
  | [] => 0
  | b :: bs => (b &&& 0x7F).toNat + 128 * fieldVal bs

theorem fieldLen_append {xs : List UInt8} {n : Nat} (ys : List UInt8) (h : fieldLen xs = some n) :
    fieldLen (xs ++ ys) = some n := by
  induction xs generalizing n with
  | nil => simp only [fieldLen, reduceCtorEq] at h
  | cons x xs ih =>
    simp only [List.cons_append, fieldLen] at h ⊢
    cases hx : contd x with
    | false => simpa only [hx, Bool.false_eq_true, if_false] using h
    | true =>
      simp only [hx, if_true, Option.map_eq_some_iff] at h ⊢
      obtain ⟨m, hm, rfl⟩ := h
      exact ⟨m, ih hm, rfl⟩

theorem fieldLen_bounds {xs : List UInt8} {n : Nat} (h : fieldLen xs = some n) :
    0 < n ∧ n ≤ xs.length := by
  induction xs generalizing n with
  | nil => simp only [fieldLen, reduceCtorEq] at h
  | cons x xs ih =>
    simp only [fieldLen] at h
    cases hx : contd x with
    | false => simp only [hx, Bool.false_eq_true, if_false, Option.some.injEq] at h; simp; omega
    | true =>
      simp only [hx, if_true, Option.map_eq_some_iff] at h
      obtain ⟨m, hm, rfl⟩ := h
      have := ih hm
      simp only [List.length_cons]; omega

theorem fieldLen_append_none {xs : List UInt8} (ys : List UInt8) (h : fieldLen xs = none) :
    fieldLen (xs ++ ys) = (fieldLen ys).map (· + xs.length) := by
  induction xs with
  | nil => simp
  | cons x xs ih =>
    simp only [fieldLen] at h
    cases hx : contd x with
    | false => simp only [hx, Bool.false_eq_true, if_false, reduceCtorEq] at h
    | true =>
      simp only [hx, if_true, Option.map_eq_none_iff] at h
      simp only [List.cons_append, fieldLen, hx, if_true, ih h, Option.map_map, List.length_cons]
      congr 1

theorem fieldLen_take {xs : List UInt8} {n : Nat} (h : fieldLen xs = some n) :
    fieldLen (xs.take n) = some n := by
  cases ht : fieldLen (xs.take n) with
  | some m =>
    have := fieldLen_append (xs.drop n) ht
    rw [List.take_append_drop, h] at this
    exact this.symm
  | none =>
    have hb := fieldLen_bounds h
    have := fieldLen_append_none (xs.drop n) ht
    rw [List.take_append_drop, h, List.length_take, eq_comm, Option.map_eq_some_iff] at this
    obtain ⟨m, hm, heq⟩ := this
    have := fieldLen_bounds hm
    omega

theorem fieldLen_eq_none {xs : List UInt8} : fieldLen xs = none ↔ ∀ x ∈ xs, contd x = true := by
  induction xs with
  | nil => simp [fieldLen]
  | cons x xs ih =>
    cases hx : contd x with
    | false => simp [fieldLen, hx]
    | true => simp [fieldLen, hx, ih]

theorem fieldLen_snoc {xs : List UInt8} (b : UInt8) (h : fieldLen xs = none) :
    fieldLen (xs ++ [b]) = if contd b then none else some (xs.length + 1) := by
  rw [fieldLen_append_none _ h, fieldLen, fieldLen]
  split
  · rfl
  · simp [Nat.add_comm]

theorem fieldLen_spec {xs : List UInt8} {n : Nat} (h : fieldLen xs = some n) :
    fieldLen (xs.take (n - 1)) = none ∧ ∃ b, xs[n - 1]? = some b ∧ contd b = false := by
  induction xs generalizing n with
  | nil => simp only [fieldLen, reduceCtorEq] at h
  | cons x xs ih =>
    simp only [fieldLen] at h
    cases hx : contd x with
    | false =>
      simp only [hx, Bool.false_eq_true, if_false, Option.some.injEq] at h
      subst h
      exact ⟨rfl, x, rfl, hx⟩
    | true =>
      simp only [hx, if_true, Option.map_eq_some_iff] at h
      obtain ⟨m, hm, rfl⟩ := h
      obtain ⟨hnone, b, hb, hc⟩ := ih hm
      obtain ⟨k, rfl⟩ := Nat.exists_eq_succ_of_ne_zero (by have := fieldLen_bounds hm; omega : m ≠ 0)
      refine ⟨?_, b, hb, hc⟩
      show fieldLen (x :: xs.take k) = none
      simp only [fieldLen, hx, if_true, Option.map_eq_none_iff]
      exact hnone

theorem digit_lt (b : UInt8) : (b &&& 0x7F).toNat < 128 := by
  have hand : (b &&& 0x7F).toNat = b.toNat % 128 := by
    rw [UInt8.toNat_and]
    exact Nat.and_two_pow_sub_one_eq_mod b.toNat 7
  rw [hand]
  exact Nat.mod_lt _ (by decide)

theorem fieldVal_lt (xs : List UInt8) : fieldVal xs < 128 ^ xs.length := by
  induction xs with
  | nil => exact Nat.one_pos
  | cons x xs ih =>
    have hx := digit_lt x
    simp only [fieldVal, List.length_cons, Nat.pow_succ]
    omega

theorem digit_byte (d : Fin 128) :
    contd (UInt8.ofNat d) = false ∧ (UInt8.ofNat d &&& 0x7F).toNat = d ∧
      contd (UInt8.ofNat d ||| 0x80) = true ∧
      ((UInt8.ofNat d ||| 0x80) &&& 0x7F).toNat = d := by
  revert d
  decide +kernel

end SimpleLink.Lib
