import Mathlib.Data.List.Basic
import Mathlib.Data.UInt

/-!
# Cutting a stream into units

A `Cutter` reads a stream symbol by symbol and says where a unit ends. `cut` is the list of the
units that are complete, and `Whole` says that a list is exactly one unit. A stream that is made of
whole units is cut into them again, whatever the cutter.
-/

namespace SimpleLink.Lib

/-- How a reader of a stream finds the end of a unit. -/
structure Cutter (α γ : Type) where
  start : γ
  next : γ → α → γ
  /-- The symbol is the last one of its unit. -/
  ends : γ → α → Bool

namespace Cutter

variable {α γ : Type} (c : Cutter α γ)

/-- The complete units of a stream, read in state `g` after `acc`. -/
def cutFrom : γ → List α → List α → List (List α)
  | _, _, [] => []
  | g, acc, b :: bs =>
    if c.ends g b then (acc ++ [b]) :: cutFrom c.start [] bs
    else cutFrom (c.next g b) (acc ++ [b]) bs

def cut (bs : List α) : List (List α) := c.cutFrom c.start [] bs

def WholeFrom : γ → List α → Prop
  | _, [] => False
  | g, b :: bs => if c.ends g b then bs = [] else WholeFrom (c.next g b) bs

def Whole (p : List α) : Prop := c.WholeFrom c.start p

theorem cutFrom_append {g : γ} {acc p s : List α} (h : c.WholeFrom g p) :
    c.cutFrom g acc (p ++ s) = (acc ++ p) :: c.cut s := by
  induction p generalizing g acc with
  | nil => exact absurd h id
  | cons b bs ih =>
    simp only [List.cons_append, cutFrom]
    simp only [WholeFrom] at h
    split
    · rename_i he
      rw [if_pos he] at h
      subst h
      rfl
    · rename_i he
      rw [if_neg he] at h
      rw [ih h, List.append_assoc, List.singleton_append]

theorem cut_append {p s : List α} (h : c.Whole p) : c.cut (p ++ s) = p :: c.cut s :=
  c.cutFrom_append h

theorem cut_flatten {ps : List (List α)} (h : ∀ p ∈ ps, c.Whole p) : c.cut ps.flatten = ps := by
  induction ps with
  | nil => rfl
  | cons p ps ih =>
    rw [List.flatten_cons, c.cut_append (h p List.mem_cons_self),
      ih fun q hq => h q (List.mem_cons_of_mem _ hq)]

theorem whole_of_mem_cutFrom {g : γ} {acc s r : List α} (h : r ∈ c.cutFrom g acc s) :
    (∃ p, r = acc ++ p ∧ c.WholeFrom g p) ∨ c.Whole r := by
  induction s generalizing g acc with
  | nil => cases h
  | cons b bs ih =>
    rw [cutFrom] at h
    split at h
    · rename_i he
      rcases List.mem_cons.1 h with rfl | h
      · exact .inl ⟨[b], rfl, by simp only [WholeFrom, if_pos he]⟩
      · obtain ⟨p, rfl, hp⟩ | hr := ih h
        · exact .inr hp
        · exact .inr hr
    · rename_i he
      obtain ⟨p, rfl, hp⟩ | hr := ih h
      · refine .inl ⟨b :: p, by rw [List.append_assoc, List.singleton_append], ?_⟩
        simpa only [WholeFrom, if_neg he] using hp
      · exact .inr hr

theorem whole_of_mem_cut {s r : List α} (h : r ∈ c.cut s) : c.Whole r := by
  obtain ⟨p, rfl, hp⟩ | hr := c.whole_of_mem_cutFrom h
  · exact hp
  · exact hr

end Cutter

end SimpleLink.Lib
