import SimpleLink.Server.TopicTree

/-!
# The levels of a topic

`levels` splits a topic after each `/`; put together again, the levels are the
topic. What the tree keeps of a topic is its levels, one in each node: the loops
of `server_core.c` that read a topic take its first level off (`isFirstSubtop`,
`subtopRead`), the latter only if it fits the buffer.
-/

namespace SimpleLink.Server

def firstLevel : List UInt8 → List UInt8 × Option (List UInt8)
  | [] => ([], none)
  | c :: s =>
    match isEndOfSubtop (c :: s) with
    | some next => ([c], next)
    | none => (c :: (firstLevel s).1, (firstLevel s).2)

/-- A topic, cut after each `/`. -/
def levels : List UInt8 → List (List UInt8)
  | [] => [[]]
  | c :: s =>
    if c = slash then if s = [] then [[c]] else [c] :: levels s
    else match levels s with
      | [] => [[c]]
      | l :: ls => (c :: l) :: ls

/-- A `/` ends it, if there is one. -/
def IsLevel (l : List UInt8) : Prop := firstLevel l = (l, none)

/-- With room for `room` characters, of which the NUL is one where no `/` ends the level. -/
def FitsIn (room : Nat) (l : List UInt8) : Prop :=
  if l.getLast? = some slash then l.length ≤ room else l.length < room

instance (room : Nat) (l : List UInt8) : Decidable (FitsIn room l) :=
  inferInstanceAs (Decidable (if l.getLast? = some slash then l.length ≤ room else l.length < room))

theorem isEndOfSubtop_cons (c : UInt8) (s : List UInt8) :
    isEndOfSubtop (c :: s) = if c = slash then some (if s = [] then none else some s) else none :=
  rfl

theorem firstLevel_slash (s : List UInt8) :
    firstLevel (slash :: s) = ([slash], if s = [] then none else some s) := by
  rw [firstLevel, isEndOfSubtop_cons, if_pos rfl]

theorem firstLevel_cons {c : UInt8} (hc : c ≠ slash) (s : List UInt8) :
    firstLevel (c :: s) = (c :: (firstLevel s).1, (firstLevel s).2) := by
  rw [firstLevel, isEndOfSubtop_cons, if_neg hc]

def nextLevels : Option (List UInt8) → List (List UInt8)
  | none => []
  | some s => levels s

theorem levels_eq (s : List UInt8) : levels s = (firstLevel s).1 :: nextLevels (firstLevel s).2 := by
  induction s with
  | nil => rfl
  | cons c s ih =>
    by_cases hc : c = slash
    · subst hc
      rw [levels, if_pos rfl, firstLevel_slash]
      split_ifs with hs
      · rfl
      · rfl
    · rw [levels, if_neg hc, firstLevel_cons hc, ih]

theorem levels_ne_nil (s : List UInt8) : levels s ≠ [] := by
  rw [levels_eq]
  exact List.cons_ne_nil _ _

theorem flatten_levels (s : List UInt8) : (levels s).flatten = s := by
  induction s with
  | nil => rfl
  | cons c s ih =>
    rw [levels]
    split_ifs with hc hs
    · rw [hs]
      rfl
    · rw [List.flatten_cons, ih]
      rfl
    · cases hl : levels s with
      | nil => exact absurd hl (levels_ne_nil s)
      | cons l ls =>
        rw [hl, List.flatten_cons] at ih
        dsimp only
        rw [List.flatten_cons, List.cons_append, ih]

theorem levels_inj {s s' : List UInt8} (h : levels s = levels s') : s = s' := by
  rw [← flatten_levels s, h, flatten_levels]

theorem isLevel_firstLevel (s : List UInt8) : IsLevel (firstLevel s).1 := by
  unfold IsLevel
  induction s with
  | nil => rfl
  | cons c s ih =>
    by_cases hc : c = slash
    · rw [hc, firstLevel_slash]
      rfl
    · rw [firstLevel_cons hc, firstLevel_cons hc, ih]

theorem firstLevel_next_ne_nil {s s' : List UInt8} (h : (firstLevel s).2 = some s') : s' ≠ [] := by
  induction s with
  | nil => cases h
  | cons c s ih =>
    by_cases hc : c = slash
    · rw [hc, firstLevel_slash] at h
      split_ifs at h with hs
      exact Option.some.inj h ▸ hs
    · rw [firstLevel_cons hc] at h
      exact ih h

/-- Where there is a next level, a `/` is before it. -/
theorem firstLevel_getLast {s s' : List UInt8} (h : (firstLevel s).2 = some s') :
    (firstLevel s).1.getLast? = some slash := by
  induction s with
  | nil => cases h
  | cons c s ih =>
    by_cases hc : c = slash
    · rw [hc, firstLevel_slash]
      rfl
    · rw [firstLevel_cons hc] at h ⊢
      rw [List.getLast?_cons, ih h]
      rfl

theorem firstLevel_eq_nil {s : List UInt8} : (firstLevel s).1 = [] ↔ s = [] := by
  cases s with
  | nil => simp [firstLevel]
  | cons c s =>
    by_cases hc : c = slash
    · simp [hc, firstLevel_slash]
    · simp [firstLevel_cons hc]

theorem isLevel_of_mem_levels (s : List UInt8) : ∀ l ∈ levels s, IsLevel l := by
  induction hn : s.length using Nat.strong_induction_on generalizing s with
  | _ n ih =>
    intro l hl
    rw [levels_eq] at hl
    cases hl with
    | head => exact isLevel_firstLevel s
    | tail _ hl =>
      cases hnext : (firstLevel s).2 with
      | none =>
        rw [hnext] at hl
        cases hl
      | some s' =>
        rw [hnext] at hl
        refine ih s'.length ?_ s' rfl l hl
        have hflat := flatten_levels s
        rw [levels_eq, hnext, nextLevels, List.flatten_cons, flatten_levels] at hflat
        have hne : s ≠ [] := by
          rintro rfl
          cases hnext
        have hpos : 0 < (firstLevel s).1.length :=
          List.length_pos_of_ne_nil (mt firstLevel_eq_nil.mp hne)
        have := congrArg List.length hflat
        rw [List.length_append] at this
        omega

theorem nil_mem_levels {s : List UInt8} (h : [] ∈ levels s) : s = [] := by
  induction hn : s.length using Nat.strong_induction_on generalizing s with
  | _ n ih =>
    rw [levels_eq] at h
    cases hh : (firstLevel s).1 with
    | nil => exact firstLevel_eq_nil.mp hh
    | cons c l =>
      rw [hh] at h
      cases h with
      | tail _ h =>
        cases hnext : (firstLevel s).2 with
        | none =>
          rw [hnext] at h
          cases h
        | some s' =>
          rw [hnext] at h
          have hlen := congrArg List.length (flatten_levels s)
          rw [levels_eq, hnext, nextLevels, List.flatten_cons, flatten_levels, hh, List.length_append,
            List.length_cons] at hlen
          exact absurd (ih s'.length (by omega) h rfl) (firstLevel_next_ne_nil hnext)

theorem isFirstSubtop_eq {l : List UInt8} : ∀ {s : List UInt8}, IsLevel l →
    isFirstSubtop l s = if (firstLevel s).1 = l then some (firstLevel s).2 else none := by
  induction l with
  | nil =>
    intro s _
    cases s with
    | nil => rfl
    | cons c s =>
      rw [if_neg (mt firstLevel_eq_nil.mp (List.cons_ne_nil c s))]
      rfl
  | cons c l ih =>
    intro s hl
    cases s with
    | nil => rfl
    | cons d s =>
      rw [isFirstSubtop]
      by_cases hcd : c = d
      · subst hcd
        rw [if_pos rfl, isEndOfSubtop_cons]
        by_cases hc : c = slash
        · subst hc
          unfold IsLevel at hl
          rw [firstLevel_slash, Prod.mk.injEq, List.cons.injEq] at hl
          rw [if_pos rfl, firstLevel_slash, ← hl.1.2, if_pos rfl]
        · have hl' : IsLevel l := by
            unfold IsLevel at hl ⊢
            rw [firstLevel_cons hc, Prod.mk.injEq, List.cons.injEq] at hl
            exact Prod.ext hl.1.2 hl.2
          rw [if_neg hc, firstLevel_cons hc]
          simp only [List.cons.injEq, true_and]
          exact ih hl'
      · rw [if_neg hcd, if_neg]
        intro h
        by_cases hd : d = slash
        · subst hd
          rw [firstLevel_slash] at h
          exact hcd (List.cons.inj h).1.symm
        · rw [firstLevel_cons hd] at h
          exact hcd (List.cons.inj h).1.symm

theorem fitsIn_cons {c : UInt8} (hc : c ≠ slash) (room : Nat) (s : List UInt8) :
    FitsIn (room + 1) (c :: (firstLevel s).1) ↔ FitsIn room (firstLevel s).1 := by
  unfold FitsIn
  by_cases hs : (firstLevel s).1 = []
  · rw [hs]
    simp [hc]
  · rw [List.getLast?_cons_of_ne_nil hs, List.length_cons]
    split_ifs
    · omega
    · omega

theorem subtopCopy_eq (room : Nat) : ∀ s : List UInt8,
    subtopCopy room s = if FitsIn room (firstLevel s).1 then
      ((firstLevel s).1, some (firstLevel s).2) else (s.take room, none) := by
  induction room with
  | zero =>
    intro s
    rw [subtopCopy, List.take_zero, if_neg]
    unfold FitsIn
    split_ifs with h
    · cases hs : (firstLevel s).1 with
      | nil => simp [hs] at h
      | cons => simp
    · omega
  | succ room ih =>
    intro s
    cases s with
    | nil => simp [subtopCopy, firstLevel, FitsIn]
    | cons c s =>
      rw [subtopCopy, isEndOfSubtop_cons]
      by_cases hc : c = slash
      · subst hc
        have hfits : FitsIn (room + 1) [slash] := by simp [FitsIn]
        rw [if_pos rfl, firstLevel_slash, if_pos hfits]
      · rw [if_neg hc, firstLevel_cons hc]
        dsimp only
        rw [ih s]
        by_cases hf : FitsIn room (firstLevel s).1
        · rw [if_pos hf, if_pos ((fitsIn_cons hc room s).mpr hf)]
        · rw [if_neg hf, if_neg (mt (fitsIn_cons hc room s).mp hf), List.take_succ_cons]

theorem subtopRead_fits {s : List UInt8} {n : Nat} (h : FitsIn (n - 1) (firstLevel s).1) :
    subtopRead s n = firstLevel s := by
  rw [subtopRead, subtopCopy_eq, if_pos h]
  rfl

theorem subtopRead_long {s : List UInt8} {n : Nat} (h : ¬ FitsIn (n - 1) (firstLevel s).1) :
    subtopRead s n = (s.take (n - 1), some s) := by
  rw [subtopRead, subtopCopy_eq, if_neg h]
  rfl

end SimpleLink.Server
