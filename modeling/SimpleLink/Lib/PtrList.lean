import Mathlib.Data.Fintype.Card
import Mathlib.Data.List.Sort
import Mathlib.Data.List.TakeWhile
import Mathlib.Data.UInt
import Mathlib.Logic.Function.Basic

/-!
# Lists threaded through nullable links

A record of type `C` is one of finitely many, and carries the link to the next one. `Path next h l v`
says that from `h` the links lead along `l` to `v`; a list ends in the null link. `seek` is the loop
that walks a list with a pointer to the record before; it has no outcome for a list without an end.
-/

namespace SimpleLink.Lib

variable {C : Type} {next next' : C → Option C} {h v w : Option C} {l l' l₁ l₂ : List C}

/-! ## Paths -/

/-- From `h` the links lead along `l` to `v`. -/
def Path (next : C → Option C) : Option C → List C → Option C → Prop
  | h, [], v => h = v
  | h, c :: l, v => h = some c ∧ Path next (next c) l v

/-- From `h` on, the list is `l`. -/
abbrev Linked (next : C → Option C) (h : Option C) (l : List C) : Prop := Path next h l none

theorem path_append :
    Path next h (l₁ ++ l₂) v ↔ ∃ w, Path next h l₁ w ∧ Path next w l₂ v := by
  induction l₁ generalizing h with
  | nil =>
    refine ⟨fun hl => ⟨h, rfl, hl⟩, ?_⟩
    rintro ⟨w, rfl, hl⟩
    exact hl
  | cons c l₁ ih =>
    constructor
    · rintro ⟨rfl, hl⟩
      obtain ⟨w, h₁, h₂⟩ := ih.1 hl
      exact ⟨w, ⟨rfl, h₁⟩, h₂⟩
    · rintro ⟨w, ⟨rfl, h₁⟩, h₂⟩
      exact ⟨rfl, ih.2 ⟨w, h₁, h₂⟩⟩

theorem Path.congr (hl : Path next h l v) (he : ∀ c ∈ l, next' c = next c) :
    Path next' h l v := by
  induction l generalizing h with
  | nil => exact hl
  | cons c l ih =>
    refine ⟨hl.1, ?_⟩
    rw [he c List.mem_cons_self]
    exact ih hl.2 fun d hd => he d (List.mem_cons_of_mem c hd)

theorem Linked.of_path (hl : Linked next h l') (hp : Path next h l v) :
    ∃ l₂, l' = l ++ l₂ ∧ Linked next v l₂ := by
  induction l generalizing h l' with
  | nil =>
    obtain rfl : h = v := hp
    exact ⟨l', rfl, hl⟩
  | cons c l ih =>
    obtain ⟨rfl, hp⟩ := hp
    cases l' with
    | nil => cases hl
    | cons d l' =>
      obtain ⟨hd, hl⟩ := hl
      cases hd
      obtain ⟨l₂, rfl, h₂⟩ := ih hl hp
      exact ⟨l₂, rfl, h₂⟩

theorem Linked.unique (hl : Linked next h l) (hl' : Linked next h l') : l = l' := by
  obtain ⟨l₂, rfl, h₂⟩ := hl'.of_path hl
  cases l₂ with
  | nil => exact (List.append_nil l).symm
  | cons c l₂ => cases h₂.1

theorem Linked.nodup (hl : Linked next h l) : l.Nodup := by
  induction l generalizing h with
  | nil => exact List.nodup_nil
  | cons c l ih =>
    refine List.nodup_cons.2 ⟨fun hc => ?_, ih hl.2⟩
    obtain ⟨l₁, l₂, rfl⟩ := List.append_of_mem hc
    obtain ⟨w, -, hw, h₂⟩ := path_append.1 hl.2
    have hlen := congrArg List.length (Linked.unique h₂ hl.2)
    simp at hlen
    omega

theorem Linked.length_le [Fintype C] (hl : Linked next h l) : l.length ≤ Fintype.card C :=
  hl.nodup.length_le_card

theorem Linked.nil_iff (hl : Linked next h l) : h = none ↔ l = [] := by
  cases l with
  | nil => exact iff_of_true hl rfl
  | cons c l => exact iff_of_false (by rw [hl.1]; simp) (by simp)

theorem Linked.head (hl : Linked next h l) : h = l.head? := by
  cases l with
  | nil => exact hl
  | cons c l => exact hl.1

theorem Linked.last {c : C} (hl : Linked next h (l ++ [c])) :
    (∀ d ∈ l, next d ≠ none) ∧ next c = none := by
  induction l generalizing h with
  | nil => exact ⟨by simp, hl.2⟩
  | cons d l ih =>
    obtain ⟨hrest, hlast⟩ := ih hl.2
    refine ⟨?_, hlast⟩
    rintro e (_ | ⟨_, he⟩) hnone
    · have hhead := Linked.head hl.2
      simp [hnone] at hhead
    · exact hrest e he hnone

section Update

variable [DecidableEq C] {p : C}

theorem Path.update (hl : Path next h l v) (hp : p ∉ l) (w : Option C) :
    Path (Function.update next p w) h l v := by
  refine hl.congr fun c hc => Function.update_of_ne ?_ ..
  rintro rfl
  exact hp hc

theorem Path.redirect (hl : Path next h (l ++ [p]) v) (hp : p ∉ l) (w : Option C) :
    Path (Function.update next p w) h (l ++ [p]) w := by
  obtain ⟨u, h₁, hu, -⟩ := path_append.1 hl
  refine path_append.2 ⟨u, h₁.update hp w, hu, ?_⟩
  show Function.update next p w p = w
  exact Function.update_self ..

end Update

/-! ## Walking a list -/

/-- The loop that stops at the first record that satisfies `p`; it keeps the record before. -/
def seek (next : C → Option C) (p : C → Bool) :
    Nat → Option C → Option C → Option (Option C × Option C)
  | _, prev, none => some (prev, none)
  | 0, _, some _ => none
  | n + 1, prev, some curr =>
    if p curr then some (prev, some curr) else seek next p n (some curr) (next curr)

theorem Linked.seek {p : C → Bool} (hl : Linked next h l) {n : Nat} (hn : l.length ≤ n)
    (prev : Option C) :
    seek next p n prev h =
      some ((l.takeWhile (!p ·)).getLast?.or prev, (l.dropWhile (!p ·)).head?) := by
  induction l generalizing h n prev with
  | nil =>
    obtain rfl : h = none := hl
    simp [Lib.seek]
  | cons c l ih =>
    obtain ⟨rfl, hl⟩ := hl
    obtain ⟨n, rfl⟩ : ∃ m, n = m + 1 := ⟨n - 1, by simp at hn; omega⟩
    rw [Lib.seek]
    cases hc : p c with
    | true => simp [hc]
    | false =>
      have hn : l.length ≤ n := by simpa using hn
      rw [if_neg (by simp), ih hl hn (some c), List.takeWhile_cons_of_pos (by simp [hc]),
        List.dropWhile_cons_of_pos (by simp [hc]), List.getLast?_cons]
      cases (l.takeWhile (!p ·)).getLast? <;> rfl

/-- The loop stops at the first record that satisfies `p`. -/
theorem Linked.seek_found {p : C → Bool} {c : C} (hl : Linked next h (l₁ ++ c :: l₂)) {n : Nat}
    (hn : (l₁ ++ c :: l₂).length ≤ n) (h₁ : ∀ d ∈ l₁, p d = false) (hc : p c = true) :
    Lib.seek next p n none h = some (l₁.getLast?, some c) := by
  have hpass : ∀ d ∈ l₁, (!p d) = true := fun d hd => by rw [h₁ d hd]; rfl
  rw [hl.seek hn, List.takeWhile_append_of_pos hpass, List.dropWhile_append_of_pos hpass,
    List.takeWhile_cons_of_neg (by simp [hc]), List.dropWhile_cons_of_neg (by simp [hc])]
  simp

theorem Linked.seek_end {p : C → Bool} (hl : Linked next h l) {n : Nat} (hn : l.length ≤ n)
    (hp : ∀ d ∈ l, p d = false) : Lib.seek next p n none h = some (l.getLast?, none) := by
  have hpass : ∀ d ∈ l, (!p d) = true := fun d hd => by rw [hp d hd]; rfl
  rw [hl.seek hn, List.takeWhile_eq_self_iff.2 hpass, List.dropWhile_eq_nil_iff.2 hpass]
  simp

/-! ## Taking in and out -/

section Splice

variable [DecidableEq C] {c e : C}

/-- A record that is not in the list comes to stand at a place of the list that is not its end. -/
theorem Linked.splice (hl : Linked next h (l₁ ++ l₂)) (hc : c ∉ l₁ ++ l₂) :
    l₁ = [] ∧ Linked (Function.update next c h) (some c) (c :: l₂) ∨
    ∃ l₀ p, l₁ = l₀ ++ [p] ∧
      Linked (Function.update (Function.update next p (some c)) c l₂.head?) h (l₁ ++ c :: l₂) := by
  rcases List.eq_nil_or_concat l₁ with rfl | ⟨l₀, p, rfl⟩
  · refine .inl ⟨rfl, rfl, ?_⟩
    rw [Function.update_self]
    exact hl.update hc h
  · refine .inr ⟨l₀, p, List.concat_eq_append, ?_⟩
    rw [List.concat_eq_append] at hl hc ⊢
    obtain ⟨w, h₁, h₂⟩ := path_append.1 hl
    obtain rfl : w = l₂.head? := Linked.head h₂
    have hnodup := List.nodup_append.1 hl.nodup
    have hp₁ : p ∉ l₀ := fun hp => (List.nodup_append.1 hnodup.1).2.2 p hp p (by simp) rfl
    have hp₂ : p ∉ l₂ := fun hp => hnodup.2.2 p (by simp) p hp rfl
    have hc₁ : c ∉ l₀ ++ [p] := fun hm => hc (List.mem_append_left _ hm)
    have hc₂ : c ∉ l₂ := fun hm => hc (List.mem_append_right _ hm)
    refine path_append.2 ⟨some c, (h₁.redirect hp₁ (some c)).update hc₁ _, rfl, ?_⟩
    rw [Function.update_self]
    exact (h₂.update hp₂ _).update hc₂ _

/-- A record that is not in the list is put behind its end. What follows is what its own link
leads to. -/
theorem Linked.extend (hl : Linked next h l) (hc : c ∉ l) :
    l = [] ∧ Path next (some c) [c] (next c) ∨
    ∃ l₀ p, l = l₀ ++ [p] ∧
      Path (Function.update next p (some c)) h (l ++ [c]) (next c) := by
  rcases List.eq_nil_or_concat l with rfl | ⟨l₀, p, rfl⟩
  · exact .inl ⟨rfl, rfl, rfl⟩
  · refine .inr ⟨l₀, p, List.concat_eq_append, ?_⟩
    rw [List.concat_eq_append] at hl hc ⊢
    have hnodup := List.nodup_append.1 hl.nodup
    have hp₁ : p ∉ l₀ := fun hp => hnodup.2.2 p hp p (by simp) rfl
    have hcp : c ≠ p := fun he => hc (by simp [he])
    refine path_append.2 ⟨some c, hl.redirect hp₁ (some c), rfl, ?_⟩
    exact Function.update_of_ne hcp ..

theorem Linked.unlink (hl : Linked next h (l₁ ++ c :: l₂)) :
    l₁ = [] ∧ Linked next (next c) l₂ ∨
    ∃ l₀ p, l₁ = l₀ ++ [p] ∧ Linked (Function.update next p (next c)) h (l₁ ++ l₂) := by
  obtain ⟨w, h₁, rfl, h₂⟩ := path_append.1 hl
  have hnodup := List.nodup_append.1 hl.nodup
  rcases List.eq_nil_or_concat l₁ with rfl | ⟨l₀, p, rfl⟩
  · exact .inl ⟨rfl, h₂⟩
  · refine .inr ⟨l₀, p, List.concat_eq_append, ?_⟩
    rw [List.concat_eq_append] at h₁ hnodup ⊢
    have hp₁ : p ∉ l₀ := fun hp => (List.nodup_append.1 hnodup.1).2.2 p hp p (by simp) rfl
    have hp₂ : p ∉ l₂ := fun hp =>
      hnodup.2.2 p (by simp) p (List.mem_cons_of_mem _ hp) rfl
    exact path_append.2 ⟨next c, h₁.redirect hp₁ (next c), h₂.update hp₂ _⟩

theorem Linked.cut (hl : Linked next h (l₁ ++ c :: l₂)) :
    l₁ = [] ∧ Linked (Function.update next c none) (next c) l₂ ∨
    ∃ l₀ p, l₁ = l₀ ++ [p] ∧
      Linked (Function.update (Function.update next p (next c)) c none) h (l₁ ++ l₂) := by
  have hc : c ∉ l₁ ++ l₂ := (List.nodup_middle.1 hl.nodup).notMem
  rcases hl.unlink with ⟨rfl, h₂⟩ | ⟨l₀, p, hl₁, h₂⟩
  · exact .inl ⟨rfl, h₂.update hc none⟩
  · exact .inr ⟨l₀, p, hl₁, h₂.update hc none⟩

end Splice

/-! ## Sorted lists -/

section Sorted

variable {K : Type} [LE K] [LT K] [DecidableLT K] [Std.IsLinearOrder K] [Std.LawfulOrderLT K]
  {key : C → K}

theorem pairwise_orderedInsert (c : C) (hl : l.Pairwise (key · ≤ key ·)) :
    (l.orderedInsert (key · < key ·) c).Pairwise (key · ≤ key ·) := by
  induction l with
  | nil => exact List.pairwise_singleton ..
  | cons d l ih =>
    obtain ⟨hd, hl⟩ := List.pairwise_cons.1 hl
    rw [List.orderedInsert_cons]
    split
    · rename_i hlt
      refine List.pairwise_cons.2 ⟨fun e he => ?_, List.pairwise_cons.2 ⟨hd, hl⟩⟩
      rcases List.mem_cons.1 he with rfl | he
      · exact Std.le_of_lt hlt
      · exact Std.le_trans (Std.le_of_lt hlt) (hd e he)
    · rename_i hge
      refine List.pairwise_cons.2 ⟨fun e he => ?_, ih hl⟩
      rcases (List.mem_orderedInsert _).1 he with rfl | he
      · exact Std.not_lt.1 hge
      · exact hd e he

end Sorted

theorem Linked.isChain_iff {R : C → C → Prop} (hl : Linked next h l) :
    l.IsChain R ↔ ∀ a ∈ l, ∀ b, next a = some b → R a b := by
  induction l generalizing h with
  | nil => simp
  | cons c l ih =>
    obtain ⟨-, hl⟩ := hl
    have hnext := Linked.head hl
    cases l with
    | nil =>
      refine iff_of_true (.singleton c) fun a ha b hb => ?_
      rw [List.mem_singleton.1 ha, hnext] at hb
      cases hb
    | cons d l =>
      rw [List.isChain_cons_cons, ih hl]
      constructor
      · rintro ⟨hcd, hrest⟩ a ha b hb
        rcases List.mem_cons.1 ha with rfl | ha
        · rw [hnext] at hb
          cases hb
          exact hcd
        · exact hrest a ha b hb
      · intro hall
        exact ⟨hall c List.mem_cons_self d hnext,
          fun a ha => hall a (List.mem_cons_of_mem c ha)⟩

end SimpleLink.Lib
