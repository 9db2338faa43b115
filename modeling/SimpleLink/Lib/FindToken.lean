import Mathlib.Data.List.Infix
import Mathlib.Data.UInt

/-!
# The first place of a token in a list

`findToken token l` is how far the first place of `token` is from the beginning of `l`.
-/

namespace SimpleLink.Lib

variable {α : Type}

section Separator

variable {token : List α} {c : α} (hc : c ∉ token)

include hc

theorem prefix_append_cons {a b : List α} (h : token <+: a ++ c :: b) : token <+: a := by
  rcases List.prefix_or_prefix_of_prefix h (List.prefix_append a (c :: b)) with h' | ⟨t, rfl⟩
  · exact h'
  · rw [List.prefix_append_right_inj] at h
    rcases List.prefix_cons_iff.1 h with rfl | ⟨t, rfl, -⟩
    · rw [List.append_nil]
    · exact absurd (List.mem_append_right a List.mem_cons_self) hc

theorem infix_append_cons {a b : List α} : token <:+: a ++ c :: b ↔ token <:+: a ∨ token <:+: b := by
  constructor
  · induction a with
    | nil =>
      rw [List.nil_append, List.infix_cons_iff]
      exact Or.imp_left fun h => (prefix_append_cons hc (a := []) h).isInfix
    | cons x xs ih =>
      rw [List.cons_append, List.infix_cons_iff]
      rintro (h | h)
      · exact .inl (prefix_append_cons hc (a := x :: xs) h).isInfix
      · exact (ih h).imp_left List.infix_cons
  · rintro (h | h)
    · exact h.trans List.infix_append_left
    · exact (List.infix_cons h).trans List.infix_append_right

end Separator

variable [DecidableEq α]

def findToken (token : List α) : List α → Option Nat
  | [] => none
  | x :: xs => if token.isPrefixOf (x :: xs) then some 0 else (findToken token xs).map (· + 1)

theorem findToken_cons_of_isPrefix {token : List α} {x : α} {xs : List α} (h : token <+: x :: xs) :
    findToken token (x :: xs) = some 0 := by
  rw [findToken, if_pos (List.isPrefixOf_iff_prefix.2 h)]

theorem findToken_cons_of_not_isPrefix {token : List α} {x : α} {xs : List α}
    (h : ¬ token <+: x :: xs) :
    findToken token (x :: xs) = (findToken token xs).map (· + 1) := by
  rw [findToken, if_neg (by rwa [List.isPrefixOf_iff_prefix])]

section Token

variable {token : List α} (htoken : token ≠ [])

include htoken

theorem findToken_eq_none {l : List α} : findToken token l = none ↔ ¬ token <:+: l := by
  induction l with
  | nil => exact iff_of_true rfl fun h => htoken (List.infix_nil.1 h)
  | cons x xs ih =>
    rw [List.infix_cons_iff]
    by_cases h : token <+: x :: xs
    · rw [findToken_cons_of_isPrefix h]
      exact iff_of_false (Option.some_ne_none 0) (not_not_intro (.inl h))
    · rw [findToken_cons_of_not_isPrefix h, Option.map_eq_none_iff, ih]
      exact not_congr (or_iff_right h).symm

theorem findToken_isSome {l : List α} : (findToken token l).isSome ↔ token <:+: l := by
  rw [Option.isSome_iff_ne_none, Ne, findToken_eq_none htoken, not_not]

theorem findToken_eq_zero {l : List α} : findToken token l = some 0 ↔ token <+: l := by
  cases l with
  | nil => exact iff_of_false nofun fun h => htoken (List.prefix_nil.1 h)
  | cons x xs =>
    by_cases h : token <+: x :: xs
    · exact iff_of_true (findToken_cons_of_isPrefix h) h
    · rw [findToken_cons_of_not_isPrefix h]
      refine iff_of_false (fun hzero => ?_) h
      obtain ⟨n, -, hn⟩ := Option.map_eq_some_iff.1 hzero
      cases hn

end Token

theorem findToken_add_le {token l : List α} {n : Nat} (h : findToken token l = some n) :
    n + token.length ≤ l.length := by
  induction l generalizing n with
  | nil => cases h
  | cons x xs ih =>
    by_cases hpre : token <+: x :: xs
    · rw [findToken_cons_of_isPrefix hpre] at h
      cases h
      have hle := hpre.length_le
      omega
    · rw [findToken_cons_of_not_isPrefix hpre] at h
      obtain ⟨m, hm, rfl⟩ := Option.map_eq_some_iff.1 h
      have hle := ih hm
      rw [List.length_cons]
      omega

theorem findToken_split {token l : List α} {n : Nat} (h : findToken token l = some n) :
    ∃ a b, l = a ++ token ++ b ∧ a.length = n := by
  induction l generalizing n with
  | nil => cases h
  | cons x xs ih =>
    by_cases hpre : token <+: x :: xs
    · rw [findToken_cons_of_isPrefix hpre] at h
      cases h
      obtain ⟨b, hb⟩ := hpre
      exact ⟨[], b, hb.symm, rfl⟩
    · rw [findToken_cons_of_not_isPrefix hpre] at h
      obtain ⟨m, hm, rfl⟩ := Option.map_eq_some_iff.1 h
      obtain ⟨a, b, rfl, rfl⟩ := ih hm
      exact ⟨x :: a, b, rfl, rfl⟩

/-- What is behind the first place does not matter. -/
theorem findToken_append {token a : List α} {n : Nat} (h : findToken token a = some n) (b : List α) :
    findToken token (a ++ b) = some n := by
  induction a generalizing n with
  | nil => cases h
  | cons x xs ih =>
    by_cases hpre : token <+: x :: xs
    · rw [findToken_cons_of_isPrefix hpre] at h
      have hlong : token <+: x :: (xs ++ b) := hpre.trans (List.prefix_append (x :: xs) b)
      rw [List.cons_append, findToken_cons_of_isPrefix hlong, h]
    · rw [findToken_cons_of_not_isPrefix hpre] at h
      obtain ⟨m, hm, rfl⟩ := Option.map_eq_some_iff.1 h
      have hpre' : ¬ token <+: x :: (xs ++ b) := by
        intro hlong
        have hle := findToken_add_le hm
        exact hpre (List.prefix_of_prefix_length_le hlong (List.prefix_append (x :: xs) b)
          (by rw [List.length_cons]; omega))
      rw [List.cons_append, findToken_cons_of_not_isPrefix hpre', ih hm]
      rfl

/-- A first place that ends in the front part is the first place there. -/
theorem findToken_of_append {token a b : List α} {n : Nat} (htoken : token ≠ []) (h : findToken token (a ++ b) = some n)
    (hn : n + token.length ≤ a.length) : findToken token a = some n := by
  cases ha : findToken token a with
  | some m =>
    rw [findToken_append ha] at h
    rw [h]
  | none =>
    obtain ⟨c, d, hsplit, rfl⟩ := findToken_split h
    have hpre : c ++ token <+: a :=
      List.prefix_of_prefix_length_le (hsplit ▸ List.prefix_append (c ++ token) d) (List.prefix_append a b)
        (by rwa [List.length_append])
    exact absurd ((List.suffix_append c token).isInfix.trans hpre.isInfix) ((findToken_eq_none htoken).1 ha)

theorem findToken_append_cons {token : List α} {c : α} (hc : c ∉ token) {a : List α}
    (hno : ¬ token <:+: a) (b : List α) :
    findToken token (a ++ c :: b) = (findToken token b).map (· + (a.length + 1)) := by
  induction a with
  | nil =>
    have hpre : ¬ token <+: c :: b := fun h => hno (prefix_append_cons hc (a := []) h).isInfix
    rw [List.nil_append, findToken_cons_of_not_isPrefix hpre]
    rfl
  | cons x xs ih =>
    have hpre : ¬ token <+: x :: (xs ++ c :: b) :=
      fun h => hno (prefix_append_cons hc (a := x :: xs) h).isInfix
    rw [List.cons_append, findToken_cons_of_not_isPrefix hpre,
      ih fun h => hno (List.infix_cons h), Option.map_map]
    rfl

theorem findToken_singleton {c : α} {l : List α} {n : Nat} :
    findToken [c] l = some n ↔ ∃ a b, l = a ++ c :: b ∧ c ∉ a ∧ a.length = n := by
  induction l generalizing n with
  | nil => simp [findToken]
  | cons x xs ih =>
    by_cases hx : c = x
    · subst hx
      have hpre : [c] <+: c :: xs := ⟨xs, rfl⟩
      rw [findToken_cons_of_isPrefix hpre]
      constructor
      · intro h
        cases h
        exact ⟨[], xs, rfl, List.not_mem_nil, rfl⟩
      · rintro ⟨a, b, hab, ha, rfl⟩
        cases a with
        | nil => rfl
        | cons y ys =>
          obtain rfl := (List.cons.inj hab).1
          exact absurd List.mem_cons_self ha
    · have hpre : ¬ [c] <+: x :: xs := fun h => hx (List.cons_prefix_cons.1 h).1
      rw [findToken_cons_of_not_isPrefix hpre, Option.map_eq_some_iff]
      constructor
      · rintro ⟨m, hm, rfl⟩
        obtain ⟨a, b, rfl, ha, rfl⟩ := ih.1 hm
        exact ⟨x :: a, b, rfl, by simp [hx, ha], rfl⟩
      · rintro ⟨a, b, hab, ha, rfl⟩
        cases a with
        | nil => exact absurd (List.cons.inj hab).1.symm hx
        | cons y ys =>
          obtain ⟨rfl, htl⟩ := List.cons.inj hab
          exact ⟨ys.length, ih.2 ⟨ys, b, htl, fun h => ha (List.mem_cons_of_mem _ h), rfl⟩, rfl⟩

end SimpleLink.Lib
