import Mathlib.Data.List.Chain
import Mathlib.Data.UInt

/-!
# Stuffing

A stream marks its frames by a symbol `mark` that is written twice. What is between the marks is
stuffed: after each `mark` of the data a `fill` is written, so that no two of them stand side by
side, and `destuff` takes it out again.
-/

namespace SimpleLink.Lib

variable {α : Type} [DecidableEq α] {mark fill : α}

/-- Write `fill` after every `mark`. -/
def stuff (mark fill : α) : List α → List α
  | [] => []
  | b :: bs => if b = mark then mark :: fill :: stuff mark fill bs else b :: stuff mark fill bs

/-- Take out a `fill` that stands after a `mark`. -/
def destuff (mark fill : α) : List α → List α
  | [] => []
  | [b] => [b]
  | b :: c :: bs =>
    if b = mark ∧ c = fill then mark :: destuff mark fill bs else b :: destuff mark fill (c :: bs)

def Apart (mark : α) (l : List α) : Prop := l.IsChain fun a b => ¬ (a = mark ∧ b = mark)

instance (mark : α) (l : List α) : Decidable (Apart mark l) := by
  unfold Apart; infer_instance

theorem stuff_cons_of_ne {b : α} (h : b ≠ mark) (bs : List α) :
    stuff mark fill (b :: bs) = b :: stuff mark fill bs := if_neg h

theorem stuff_cons_mark (bs : List α) :
    stuff mark fill (mark :: bs) = mark :: fill :: stuff mark fill bs := if_pos rfl

theorem length_stuff (l : List α) : (stuff mark fill l).length = l.length + l.count mark := by
  induction l with
  | nil => rfl
  | cons b bs ih =>
    by_cases h : b = mark
    · subst h
      rw [stuff_cons_mark, List.count_cons_self]
      simp only [List.length_cons, ih]
      omega
    · rw [stuff_cons_of_ne h, List.count_cons_of_ne h]
      simp only [List.length_cons, ih]
      omega

theorem destuff_cons_of_ne {b : α} (h : b ≠ mark) (bs : List α) :
    destuff mark fill (b :: bs) = b :: destuff mark fill bs := by
  cases bs with
  | nil => rfl
  | cons c bs => exact if_neg fun hb => h hb.1

theorem destuff_stuff (l : List α) : destuff mark fill (stuff mark fill l) = l := by
  induction l with
  | nil => rfl
  | cons b bs ih =>
    by_cases h : b = mark
    · subst h
      rw [stuff_cons_mark, destuff, if_pos ⟨rfl, rfl⟩, ih]
    · rw [stuff_cons_of_ne h, destuff_cons_of_ne h, ih]

theorem apart_stuff (hfill : fill ≠ mark) (l : List α) : Apart mark (stuff mark fill l) := by
  induction l with
  | nil => exact .nil
  | cons b bs ih =>
    by_cases h : b = mark
    · subst h
      rw [stuff_cons_mark]
      refine .cons_cons (fun hb => hfill hb.2) ?_
      exact List.isChain_cons.2 ⟨fun c _ hb => hfill hb.1, ih⟩
    · rw [stuff_cons_of_ne h]
      exact List.isChain_cons.2 ⟨fun c _ hb => h hb.1, ih⟩

theorem apart_cons_stuff (hfill : fill ≠ mark) {l : List α} (h : l.head? ≠ some mark) :
    Apart mark (mark :: stuff mark fill l) := by
  refine List.isChain_cons.2 ⟨fun c hc hb => ?_, apart_stuff hfill l⟩
  cases l with
  | nil => cases hc
  | cons b bs =>
    have hne : b ≠ mark := fun hm => h (congrArg some hm)
    rw [stuff_cons_of_ne hne] at hc
    cases hc
    exact hne hb.2

end SimpleLink.Lib
