import Mathlib.Data.List.TakeWhile
import SimpleLink.Lib.FindToken
import SimpleLink.Lib.Overwrite

/-!
# C strings in a block of memory

A pointer is what is left of its block from where it points. A string ends at the first zero; where no zero
is left, reading it goes behind the block. So does a write that is longer than what is left.
-/

namespace SimpleLink.Lib.CString

def str (mem : List UInt8) : Option (List UInt8) :=
  if 0 ∈ mem then some (mem.takeWhile (· ≠ 0)) else none

theorem takeWhile_append {s : List UInt8} (hs : 0 ∉ s) (rest : List UInt8) :
    (s ++ 0 :: rest).takeWhile (· ≠ 0) = s := by
  have hne : ∀ b ∈ s, decide (b ≠ 0) = true := fun b hb => decide_eq_true fun h => hs (h ▸ hb)
  rw [List.takeWhile_append_of_pos hne, List.takeWhile_cons_of_neg (by simp), List.append_nil]

theorem str_append {s : List UInt8} (hs : 0 ∉ s) (rest : List UInt8) : str (s ++ 0 :: rest) = some s := by
  rw [str, if_pos (List.mem_append_right s List.mem_cons_self), takeWhile_append hs]

theorem takeWhile_eq_self {l : List UInt8} : l.takeWhile (· ≠ 0) = l ↔ 0 ∉ l := by
  rw [List.takeWhile_eq_self_iff]
  exact ⟨fun h h0 => absurd (h 0 h0) (by decide), fun h b hb => decide_eq_true fun hb0 => h (hb0 ▸ hb)⟩

theorem takeWhile_append_zero (l rest : List UInt8) :
    (l ++ 0 :: rest).takeWhile (· ≠ 0) = l.takeWhile (· ≠ 0) := by
  by_cases h : 0 ∈ l
  · obtain ⟨t, u, rfl, ht⟩ := List.eq_append_cons_of_mem h
    rw [List.append_assoc, List.cons_append, takeWhile_append ht, takeWhile_append ht]
  · rw [takeWhile_append h, takeWhile_eq_self.2 h]

theorem str_append_zero (l rest : List UInt8) : str (l ++ 0 :: rest) = some (l.takeWhile (· ≠ 0)) := by
  rw [str, if_pos (List.mem_append_right l List.mem_cons_self), takeWhile_append_zero]

theorem zero_notMem_takeWhile (l : List UInt8) : 0 ∉ l.takeWhile (· ≠ 0) := fun h => by
  have hne := List.mem_takeWhile_imp h
  simp at hne

theorem str_eq_none {mem : List UInt8} : str mem = none ↔ 0 ∉ mem := by
  unfold str
  split <;> simp [*]

/-- `strstr`: how far the first place of the needle in the string is. Where it is not in the string, the whole
string is read. -/
def strstr (needle mem : List UInt8) : Option (Option Nat) :=
  match findToken needle (mem.takeWhile (· ≠ 0)) with
  | some k => some (some k)
  | none => if 0 ∈ mem then some none else none

theorem strstr_eq {mem : List UInt8} (h : 0 ∈ mem) (needle : List UInt8) :
    strstr needle mem = some (findToken needle (mem.takeWhile (· ≠ 0))) := by
  unfold strstr
  cases findToken needle (mem.takeWhile (· ≠ 0)) with
  | none => exact if_pos h
  | some k => rfl

/-- The first `stop` from `pos` on; a loop without an end looks for it. -/
def scan (mem : List UInt8) (pos : Nat) (stop : UInt8) : Option Nat :=
  (findToken [stop] (mem.drop pos)).map (pos + ·)

theorem scan_append {a t : List UInt8} {stop : UInt8} (h : stop ∉ t) (rest : List UInt8) :
    scan (a ++ (t ++ stop :: rest)) a.length stop = some (a.length + t.length) := by
  rw [scan, List.drop_left, findToken_singleton.2 ⟨t, rest, rfl, h, rfl⟩, Option.map_some]

theorem scan_some {mem : List UInt8} {pos n : Nat} {stop : UInt8} (h : scan mem pos stop = some n) :
    ∃ t rest, mem.drop pos = t ++ stop :: rest ∧ stop ∉ t ∧ n = pos + t.length := by
  obtain ⟨k, hk, rfl⟩ := Option.map_eq_some_iff.1 h
  obtain ⟨t, rest, hdrop, ht, rfl⟩ := findToken_singleton.1 hk
  exact ⟨t, rest, hdrop, ht, rfl⟩

theorem set_append (a : List UInt8) (x y : UInt8) (rest : List UInt8) :
    (a ++ x :: rest).set a.length y = a ++ y :: rest := by
  rw [List.set_append_right _ _ (Nat.le_refl _), Nat.sub_self, List.set_cons_zero]

/-- The bytes are written at `pos`. -/
def store (mem : List UInt8) (pos : Nat) (bytes : List UInt8) : Option (List UInt8) :=
  if pos + bytes.length ≤ mem.length then some (overwrite mem pos bytes) else none

/-- `strcpy` to `pos`. -/
def strcpy (mem : List UInt8) (pos : Nat) (s : List UInt8) : Option (List UInt8) := store mem pos (s ++ [0])

theorem store_eq_none {mem bytes : List UInt8} {pos : Nat} :
    store mem pos bytes = none ↔ mem.length < pos + bytes.length := by
  unfold store
  split <;> simp <;> omega

theorem strcpy_eq {mem s : List UInt8} {pos : Nat} (h : pos + s.length + 1 ≤ mem.length) :
    strcpy mem pos s = some (mem.take pos ++ s ++ 0 :: mem.drop (pos + s.length + 1)) := by
  rw [strcpy, store, if_pos (by simp; omega), overwrite]
  simp [Nat.add_assoc]

theorem strcpy_eq_none {mem s : List UInt8} {pos : Nat} :
    strcpy mem pos s = none ↔ mem.length < pos + s.length + 1 := by
  rw [strcpy, store_eq_none, List.length_append, List.length_singleton, Nat.add_assoc]

end SimpleLink.Lib.CString
