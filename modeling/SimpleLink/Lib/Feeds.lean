import Mathlib.Data.List.Infix
import Mathlib.Data.UInt

/-!
# What a source feeds

A source `next` gives an item and its next state as long as it has one. `Feeds next s as s'`: from `s` on
it gives the items `as`, and is then in `s'`.
-/

namespace SimpleLink.Lib

variable {σ α : Type} {next : σ → Option (α × σ)}

inductive Feeds (next : σ → Option (α × σ)) : σ → List α → σ → Prop where
  | nil (s : σ) : Feeds next s [] s
  | cons {s s₁ s' : σ} {a : α} {as : List α} : next s = some (a, s₁) → Feeds next s₁ as s' →
      Feeds next s (a :: as) s'

theorem Feeds.append {s s₁ s' : σ} {as bs : List α} (h : Feeds next s as s₁)
    (h' : Feeds next s₁ bs s') : Feeds next s (as ++ bs) s' := by
  induction h with
  | nil => exact h'
  | cons hnext _ ih => exact .cons hnext (ih h')

theorem Feeds.concat {s s₁ s' : σ} {as : List α} {a : α} (h : Feeds next s as s₁)
    (hnext : next s₁ = some (a, s')) : Feeds next s (as ++ [a]) s' :=
  h.append (.cons hnext (.nil s'))

theorem Feeds.rest {s s₁ s' : σ} {as bs : List α} (h : Feeds next s as s₁)
    (h' : Feeds next s (as ++ bs) s') : Feeds next s₁ bs s' := by
  induction h with
  | nil => exact h'
  | cons hnext _ ih =>
    cases h' with
    | cons hnext' hrest =>
      obtain ⟨-, rfl⟩ := Prod.mk.inj (Option.some.inj (hnext.symm.trans hnext'))
      exact ih hrest

theorem Feeds.unique {s s₁ s₂ : σ} {as : List α} (h : Feeds next s as s₁) (h' : Feeds next s as s₂) :
    s₁ = s₂ := by
  rw [← List.append_nil as] at h'
  cases h.rest h'
  rfl

theorem Feeds.split {s s' : σ} {as bs : List α} (h : Feeds next s (as ++ bs) s') :
    ∃ s₁, Feeds next s as s₁ ∧ Feeds next s₁ bs s' := by
  induction as generalizing s with
  | nil => exact ⟨s, .nil s, h⟩
  | cons a as ih =>
    cases h with
    | cons hnext hrest =>
      obtain ⟨s₁, hfirst, hlast⟩ := ih hrest
      exact ⟨s₁, .cons hnext hfirst, hlast⟩

/-- Of what is fed from one state one is the beginning of the other. -/
theorem Feeds.prefix_or_prefix {s s₁ s₂ : σ} {as bs : List α} (h : Feeds next s as s₁)
    (h' : Feeds next s bs s₂) : as <+: bs ∨ bs <+: as := by
  induction h generalizing bs with
  | nil => exact .inl List.nil_prefix
  | cons hnext _ ih =>
    cases h' with
    | nil => exact .inr List.nil_prefix
    | cons hnext' hrest =>
      obtain ⟨rfl, rfl⟩ := Prod.mk.inj (Option.some.inj (hnext.symm.trans hnext'))
      exact (ih hrest).imp (List.prefix_cons_inj _).2 (List.prefix_cons_inj _).2

theorem Feeds.prefix_of_none {s s₁ s₂ : σ} {as bs : List α} (h : Feeds next s as s₁)
    (hnone : next s₁ = none) (h' : Feeds next s bs s₂) : bs <+: as := by
  rcases h.prefix_or_prefix h' with ⟨cs, rfl⟩ | hle
  · cases h.rest h' with
    | nil => rw [List.append_nil]
    | cons hnext _ => exact absurd (hnone.symm.trans hnext) (by simp)
  · exact hle

theorem Feeds.none_unique {s s₁ s₂ : σ} {as bs : List α} (h : Feeds next s as s₁)
    (hnone : next s₁ = none) (h' : Feeds next s bs s₂) (hnone' : next s₂ = none) :
    as = bs ∧ s₁ = s₂ := by
  have heq : as = bs := List.IsPrefix.eq_of_length_le (h'.prefix_of_none hnone' h)
    (h.prefix_of_none hnone h').length_le
  subst heq
  exact ⟨rfl, h.unique h'⟩

end SimpleLink.Lib
