import Mathlib.Data.List.Basic
import Mathlib.Data.UInt

/-!
# Writing into a block of memory

`overwrite l pos xs` writes `xs` into `l` from `pos` on.
-/

namespace SimpleLink.Lib

variable {α : Type}

def overwrite (l : List α) (pos : Nat) (xs : List α) : List α :=
  l.take pos ++ xs ++ l.drop (pos + xs.length)

theorem length_overwrite {l : List α} {pos : Nat} {xs : List α} (h : pos + xs.length ≤ l.length) :
    (overwrite l pos xs).length = l.length := by
  unfold overwrite
  rw [List.length_append, List.length_append, List.length_take, List.length_drop]
  omega

theorem overwrite_nil (l : List α) (pos : Nat) : overwrite l pos [] = l := by
  unfold overwrite
  rw [List.append_nil]
  exact List.take_append_drop pos l

theorem set_eq_overwrite {l : List α} {pos : Nat} (h : pos < l.length) (x : α) :
    l.set pos x = overwrite l pos [x] := by
  rw [List.set_eq_take_append_cons_drop, if_pos h, overwrite, List.append_assoc]
  rfl

theorem overwrite_zero (l xs : List α) : overwrite l 0 xs = xs ++ l.drop xs.length := by
  unfold overwrite
  rw [List.take_zero, List.nil_append, Nat.zero_add]

/-- What was there up to `pos`, and then what has been written. -/
theorem take_overwrite {l : List α} {pos : Nat} (h : pos ≤ l.length) (xs : List α) :
    (overwrite l pos xs).take (pos + xs.length) = l.take pos ++ xs := by
  have hlen : (l.take pos ++ xs).length = pos + xs.length := by
    rw [List.length_append, List.length_take, Nat.min_eq_left h]
  unfold overwrite
  rw [← hlen]
  exact List.take_left

theorem take_overwrite_zero (l xs : List α) : (overwrite l 0 xs).take xs.length = xs := by
  rw [overwrite_zero]
  exact List.take_left

theorem overwrite_append_right (a l xs : List α) (k : Nat) :
    overwrite (a ++ l) (a.length + k) xs = a ++ overwrite l k xs := by
  unfold overwrite
  rw [List.take_length_add_append, Nat.add_assoc, List.drop_length_add_append, List.append_assoc,
    List.append_assoc, List.append_assoc]

theorem overwrite_overwrite {l xs : List α} {pos : Nat} (h : pos ≤ l.length) (ys : List α) :
    overwrite (overwrite l pos xs) (pos + xs.length) ys = overwrite l pos (xs ++ ys) := by
  have hlen : (l.take pos ++ xs).length = pos + xs.length := by
    rw [List.length_append, List.length_take_of_le h]
  have hdrop : (overwrite l pos xs).drop (pos + xs.length + ys.length) =
      l.drop (pos + (xs ++ ys).length) := by
    unfold overwrite
    rw [← hlen, List.drop_length_add_append, List.drop_drop, hlen, List.length_append,
      Nat.add_assoc]
  rw [overwrite, take_overwrite h, hdrop, overwrite, List.append_assoc (l.take pos) xs ys]

theorem overwrite_zero_overwrite (l xs ys : List α) :
    overwrite (overwrite l 0 xs) xs.length ys = overwrite l 0 (xs ++ ys) := by
  have htwo : overwrite (overwrite l 0 xs) (0 + xs.length) ys = overwrite l 0 (xs ++ ys) :=
    overwrite_overwrite (Nat.zero_le l.length) ys
  rwa [Nat.zero_add] at htwo

theorem slice_overwrite {l : List α} {pos : Nat} (h : pos ≤ l.length) (xs : List α) :
    ((overwrite l pos xs).drop pos).take xs.length = xs := by
  have hpre : (l.take pos).length = pos := List.length_take_of_le h
  unfold overwrite
  rw [List.append_assoc, List.drop_left' hpre]
  exact List.take_left

theorem overwrite_before {l xs : List α} {pos : Nat} (h : pos + xs.length ≤ l.length)
    (ys : List α) :
    overwrite (overwrite l (pos + xs.length) ys) pos xs = overwrite l pos (xs ++ ys) := by
  have hpre : (l.take (pos + xs.length)).length = pos + xs.length := List.length_take_of_le h
  have hfront : (overwrite l (pos + xs.length) ys).take pos = l.take pos := by
    unfold overwrite
    rw [List.append_assoc, List.take_append_of_le_length (by omega), List.take_take,
      Nat.min_eq_left (Nat.le_add_right ..)]
  have hback : (overwrite l (pos + xs.length) ys).drop (pos + xs.length) =
      ys ++ l.drop (pos + xs.length + ys.length) := by
    unfold overwrite
    rw [List.append_assoc, List.drop_left' hpre]
  rw [overwrite, hfront, hback, overwrite, List.length_append, Nat.add_assoc, List.append_assoc,
    List.append_assoc, List.append_assoc]

end SimpleLink.Lib
