import Mathlib.Data.List.Basic
import Mathlib.Data.UInt

/-!
# Properties of a history

`Throughout Q log` says of every event of a log that it may follow the events before it. A log that
grows at its end keeps such a property by what the new event needs.
-/

namespace SimpleLink.Lib

variable {α : Type} {Q R : List α → α → Prop}

def Throughout (Q : List α → α → Prop) (log : List α) : Prop :=
  ∀ before e after, log = before ++ e :: after → Q before e

theorem throughout_nil : Throughout Q [] := by
  intro before e after h
  exact absurd h (by simp)

theorem throughout_snoc {log : List α} {e : α} :
    Throughout Q (log ++ [e]) ↔ Throughout Q log ∧ Q log e := by
  constructor
  · intro h
    exact ⟨fun before e' after he => h before e' (after ++ [e]) (by rw [he]; simp),
      h log e [] rfl⟩
  · rintro ⟨hlog, he⟩ before e' after heq
    rcases List.eq_nil_or_concat after with rfl | ⟨after', last, rfl⟩
    · obtain ⟨rfl, hlast⟩ := List.append_inj' heq rfl
      obtain rfl := List.singleton_inj.1 hlast
      exact he
    · rw [List.concat_eq_append, ← List.cons_append, ← List.append_assoc] at heq
      obtain ⟨hinit, -⟩ := List.append_inj' heq rfl
      exact hlog before e' after' hinit

theorem throughout_of_mem {log : List α} (h : ∀ e ∈ log, ∀ before, Q before e) :
    Throughout Q log := by
  intro before e after heq
  exact h e (by rw [heq]; simp) before

end SimpleLink.Lib
