import Mathlib.Data.List.Basic
import Mathlib.Data.UInt

/-!
# Loops that stop at the first failure

`untilFail act` does `act` for the elements of a list one after the other, and stops when it fails.
Where the actions are counted and the count decides which of them succeed (`Counted`), the loop over
the first part of a list is the loop over the whole list exactly when it ends in the first part
(`untilFail_append_iff`).
-/

namespace SimpleLink.Lib

variable {σ α : Type} {act : σ → α → Bool × σ}

def untilFail (act : σ → α → Bool × σ) : List α → σ → Bool × σ
  | [], s => (true, s)
  | a :: as, s =>
    match act s a with
    | (true, s) => untilFail act as s
    | (false, s) => (false, s)

theorem untilFail_cons_true {s : σ} {a : α} (h : (act s a).1 = true) (as : List α) :
    untilFail act (a :: as) s = untilFail act as (act s a).2 := by
  rw [untilFail]
  split
  · rename_i s' he
    rw [he]
  · rename_i s' he
    rw [he] at h
    cases h

theorem untilFail_cons_false {s : σ} {a : α} (h : (act s a).1 = false) (as : List α) :
    untilFail act (a :: as) s = (false, (act s a).2) := by
  rw [untilFail]
  split
  · rename_i s' he
    rw [he] at h
    cases h
  · rename_i s' he
    rw [he]

theorem untilFail_append (l₁ l₂ : List α) (s : σ) :
    untilFail act (l₁ ++ l₂) s =
      if (untilFail act l₁ s).1 = true then untilFail act l₂ (untilFail act l₁ s).2
      else untilFail act l₁ s := by
  induction l₁ generalizing s with
  | nil => rfl
  | cons a as ih =>
    rw [List.cons_append]
    cases h : (act s a).1 with
    | true => rw [untilFail_cons_true h, untilFail_cons_true h, ih]
    | false =>
      rw [untilFail_cons_false h, untilFail_cons_false h, if_neg Bool.false_ne_true]

theorem untilFail_preserves {I : σ → Prop} (hI : ∀ s a, I s → I (act s a).2) (l : List α) {s : σ}
    (hs : I s) : I (untilFail act l s).2 := by
  induction l generalizing s with
  | nil => exact hs
  | cons a as ih =>
    cases h : (act s a).1 with
    | true =>
      rw [untilFail_cons_true h]
      exact ih (hI s a hs)
    | false =>
      rw [untilFail_cons_false h]
      exact hI s a hs

/-! ## Counted actions -/

/-- Nothing happens in an idle state. In another one of `I`, the count says whether the action
succeeds and leaves a state that is not idle. -/
structure Counted (I : σ → Prop) (act : σ → α → Bool × σ) (idle : σ → Prop) (μ : σ → Nat)
    (goesOn : Nat → Prop) : Prop where
  keeps : ∀ {s} a, I s → I (act s a).2
  rests : ∀ {s} a, idle s → act s a = (false, s)
  counts : ∀ {s} a, I s → ¬ idle s → μ (act s a).2 = μ s + 1
  next : ∀ {s} a, I s → ¬ idle s →
    ((act s a).1 = true ∧ ¬ idle (act s a).2 ↔ goesOn (μ s))

/-- The loop over `l` fails, or nothing can happen after it. -/
def Stops (act : σ → α → Bool × σ) (idle : σ → Prop) (l : List α) (s : σ) : Prop :=
  (untilFail act l s).1 = false ∨ idle (untilFail act l s).2

variable {I : σ → Prop} {idle : σ → Prop} {μ : σ → Nat} {goesOn : Nat → Prop}

theorem exists_lt_succ_add {p : Nat → Prop} {k n : Nat} :
    (∃ j < n + 1, p (k + j)) ↔ p k ∨ ∃ j < n, p (k + 1 + j) := by
  constructor
  · rintro ⟨j, hj, hp⟩
    cases j with
    | zero => exact .inl hp
    | succ j => exact .inr ⟨j, by omega, by rwa [Nat.add_assoc, Nat.add_comm 1]⟩
  · rintro (hp | ⟨j, hj, hp⟩)
    · exact ⟨0, by omega, hp⟩
    · exact ⟨j + 1, by omega, by rwa [Nat.add_assoc, Nat.add_comm 1] at hp⟩

theorem Counted.stops_iff (h : Counted I act idle μ goesOn) (l : List α) {s : σ} (hs : I s) :
    Stops act idle l s ↔ idle s ∨ ∃ j < l.length, ¬ goesOn (μ s + j) := by
  induction l generalizing s with
  | nil => simp [Stops, untilFail]
  | cons a as ih =>
    by_cases hi : idle s
    · refine iff_of_true (.inl ?_) (.inl hi)
      rw [untilFail_cons_false (by rw [h.rests a hi])]
    · rw [List.length_cons, exists_lt_succ_add (p := fun j => ¬ goesOn j), ← h.next a hs hi, ← h.counts a hs hi]
      cases hok : (act s a).1 with
      | true =>
        have hrest := ih (h.keeps a hs)
        unfold Stops at hrest ⊢
        rw [untilFail_cons_true hok, hrest]
        simp [hi]
      | false =>
        refine iff_of_true (.inl ?_) (.inr (.inl nofun))
        rw [untilFail_cons_false hok]

theorem Counted.mono (h : Counted I act idle μ goesOn) (l : List α) {s : σ} (hs : I s) :
    μ s ≤ μ (untilFail act l s).2 := by
  have hstep : ∀ s' a, (I s' ∧ μ s ≤ μ s') → I (act s' a).2 ∧ μ s ≤ μ (act s' a).2 := by
    rintro s' a ⟨hs', hle⟩
    refine ⟨h.keeps a hs', ?_⟩
    by_cases hi : idle s'
    · rw [h.rests a hi]
      exact hle
    · rw [h.counts a hs' hi]
      omega
  exact (untilFail_preserves hstep l ⟨hs, Nat.le_refl _⟩).2

theorem Counted.untilFail_append_iff (h : Counted I act idle μ goesOn) (l₁ l₂ : List α) {s : σ}
    (hs : I s) :
    (untilFail act l₁ s).2 = (untilFail act (l₁ ++ l₂) s).2 ↔
      l₂ = [] ∨ idle s ∨ ∃ j < l₁.length, ¬ goesOn (μ s + j) := by
  have hkept := untilFail_preserves (fun _ a => h.keeps a) l₁ hs
  rw [untilFail_append, ← h.stops_iff l₁ hs]
  by_cases hok : (untilFail act l₁ s).1 = true
  · rw [if_pos hok]
    have hstop : Stops act idle l₁ s ↔ idle (untilFail act l₁ s).2 := by
      rw [Stops, hok]
      exact ⟨fun hs => hs.resolve_left nofun, .inr⟩
    rw [hstop]
    revert hkept
    generalize (untilFail act l₁ s).2 = s₁
    intro hkept
    cases l₂ with
    | nil => exact iff_of_true rfl (.inl rfl)
    | cons a as =>
      constructor
      · intro he
        refine .inr (Classical.byContradiction fun hi => ?_)
        -- the next action counts, and the loop never counts down
        have hcount := h.counts a hkept hi
        have hrest : μ (act s₁ a).2 ≤ μ (untilFail act (a :: as) s₁).2 := by
          cases hc : (act s₁ a).1 with
          | true =>
            rw [untilFail_cons_true hc]
            exact h.mono as (h.keeps a hkept)
          | false => exact Nat.le_of_eq (by rw [untilFail_cons_false hc])
        rw [← he] at hrest
        omega
      · rintro (hn | hi)
        · cases hn
        · rw [untilFail_cons_false (by rw [h.rests a hi]), h.rests a hi]
  · rw [if_neg hok]
    exact iff_of_true rfl (.inr (.inl (Bool.eq_false_iff.2 hok)))

end SimpleLink.Lib
