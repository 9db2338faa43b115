import Mathlib.Data.UInt

/-!
# Runs of step functions

A component is a partial step function `σ → ι → Option (σ × ο)`: `none` is a
step with no defined outcome (an access outside an array, a loop that never
returns). `runs` feeds it a list of inputs and collects the outputs. `Meets`
says that every input of a run satisfies a side condition in the state it
arrives in. `Simulates` relates a partial step function to a total
specification, one step at a time, and `Simulates.run` lifts it to runs.
-/

namespace SimpleLink.Lib

variable {σ τ ι ο : Type}

def runs (step : σ → ι → Option (σ × ο)) : σ → List ι → Option (σ × List ο)
  | s, [] => some (s, [])
  | s, i :: is =>
    match step s i with
    | none => none
    | some (s', o) =>
      match runs step s' is with
      | none => none
      | some (s'', os) => some (s'', o :: os)

def specRuns (spec : τ → ι → τ × ο) : τ → List ι → τ × List ο
  | t, [] => (t, [])
  | t, i :: is =>
    let r := specRuns spec (spec t i).1 is
    (r.1, (spec t i).2 :: r.2)

/-- Every input of the run satisfies `C` in the state it arrives in. -/
def Meets (step : σ → ι → Option (σ × ο)) (C : σ → ι → Prop) : σ → List ι → Prop
  | _, [] => True
  | s, i :: is =>
    C s i ∧
      match step s i with
      | none => True
      | some (s', _) => Meets step C s' is

instance Meets.decidable (step : σ → ι → Option (σ × ο)) (C : σ → ι → Prop)
    [∀ s i, Decidable (C s i)] : ∀ s is, Decidable (Meets step C s is)
  | _, [] => inferInstanceAs (Decidable True)
  | s, i :: is =>
    have : Decidable (match step s i with
        | none => True
        | some (s', _) => Meets step C s' is) :=
      match step s i with
      | none => inferInstanceAs (Decidable True)
      | some (s', _) => Meets.decidable step C s' is
    inferInstanceAs (Decidable (_ ∧ _))

theorem Meets.next {step : σ → ι → Option (σ × ο)} {C : σ → ι → Prop} {s s' : σ} {i : ι}
    {is : List ι} {o : ο} (h : Meets step C s (i :: is)) (hs : step s i = some (s', o)) :
    Meets step C s' is := by
  simpa only [hs] using h.2

theorem Meets.cons {step : σ → ι → Option (σ × ο)} {C : σ → ι → Prop} {s s' : σ} {i : ι}
    {is : List ι} {o : ο} (hc : C s i) (hs : step s i = some (s', o)) (h : Meets step C s' is) :
    Meets step C s (i :: is) := ⟨hc, by simpa only [hs] using h⟩

theorem runs_cons {step : σ → ι → Option (σ × ο)} {s s' s'' : σ} {i : ι} {is : List ι} {o : ο}
    {os : List ο} (h : step s i = some (s', o)) (hr : runs step s' is = some (s'', os)) :
    runs step s (i :: is) = some (s'', o :: os) := by
  simp only [runs, h, hr]

theorem runs_append {step : σ → ι → Option (σ × ο)} {s s' s'' : σ} {is js : List ι} {os ps : List ο}
    (h : runs step s is = some (s', os)) (hr : runs step s' js = some (s'', ps)) :
    runs step s (is ++ js) = some (s'', os ++ ps) := by
  induction is generalizing s os with
  | nil =>
    cases h
    exact hr
  | cons i is ih =>
    rw [runs] at h
    split at h
    · cases h
    · rename_i s₁ o hs
      split at h
      · cases h
      · rename_i s₂ os₂ hrest
        cases h
        exact runs_cons hs (ih hrest)

theorem runs_const {step : σ → ι → Option (σ × ο)} {s : σ} {i : ι} {o : ο}
    (h : step s i = some (s, o)) (n : Nat) :
    runs step s (List.replicate n i) = some (s, List.replicate n o) := by
  induction n with
  | zero => rfl
  | succ n ih => exact runs_cons h ih

/-- An invariant that holds at the start and that every step within `C` keeps holds at the end. -/
theorem runs_invariant {step : σ → ι → Option (σ × ο)} {C : σ → ι → Prop} {I : σ → Prop}
    (hstep : ∀ s i, I s → C s i → ∃ s' o, step s i = some (s', o) ∧ I s') {is : List ι} :
    ∀ {s}, I s → Meets step C s is → ∃ s' os, runs step s is = some (s', os) ∧ I s' := by
  induction is with
  | nil => intro s hI _; exact ⟨s, [], rfl, hI⟩
  | cons i is ih =>
    intro s hI hC
    obtain ⟨s', o, hs, hI'⟩ := hstep s i hI hC.1
    obtain ⟨s'', os, hr, hI''⟩ := ih hI' (hC.next hs)
    exact ⟨s'', o :: os, runs_cons hs hr, hI''⟩

theorem Meets.of_forall {step : σ → ι → Option (σ × ο)} {Q : ι → Prop} {is : List ι} :
    ∀ {s}, (∀ i ∈ is, Q i) → Meets step (fun _ i => Q i) s is := by
  induction is with
  | nil => exact fun _ => trivial
  | cons i is ih =>
    intro s h
    refine ⟨h i (.head _), ?_⟩
    split
    · trivial
    · exact ih fun j hj => h j (.tail _ hj)

/-- Where the inputs that satisfy `C` satisfy `E` and keep the invariant, a run of them satisfies
`E` throughout. -/
theorem Meets.imp {step : σ → ι → Option (σ × ο)} {C E : σ → ι → Prop} {I : σ → Prop}
    (hE : ∀ {s i}, I s → C s i → E s i)
    (hI : ∀ {s i s' o}, I s → C s i → step s i = some (s', o) → I s') {is : List ι} :
    ∀ {s}, I s → Meets step C s is → Meets step E s is := by
  induction is with
  | nil => exact fun _ _ => trivial
  | cons i is ih =>
    intro s hs h
    refine ⟨hE hs h.1, ?_⟩
    split
    · trivial
    · rename_i s' o he
      exact ih (hI hs h.1 he) (h.next he)

/-- What the steps of a run within `C` carry on, as long as the inputs are in `Q` and the outputs in
`R`, holds of the state it ends in. -/
theorem Meets.carries {step : σ → ι → Option (σ × ο)} {C : σ → ι → Prop} {I : σ → Prop}
    {Q : ι → Prop} {R : ο → Prop}
    (hI : ∀ {s i s' o}, I s → C s i → step s i = some (s', o) → Q i → R o → I s') {is : List ι} :
    ∀ {s s' os}, I s → Meets step C s is → runs step s is = some (s', os) → (∀ i ∈ is, Q i) →
      (∀ o ∈ os, R o) → I s' := by
  induction is with
  | nil =>
    intro s s' os hs _ h _ _
    cases h
    exact hs
  | cons i is ih =>
    intro s s' os hs hC h hQ hR
    rw [runs] at h
    split at h
    · cases h
    · rename_i s₁ o he
      split at h
      · cases h
      · rename_i s₂ os₂ hr
        cases h
        have hs₁ := hI hs hC.1 he (hQ i List.mem_cons_self) (hR o List.mem_cons_self)
        exact ih hs₁ (hC.next he) hr (fun j hj => hQ j (List.mem_cons_of_mem _ hj))
          fun o' ho => hR o' (List.mem_cons_of_mem _ ho)

/-- What the steps of a run within `C` keep holds of the state it ends in. -/
theorem Meets.preserves {step : σ → ι → Option (σ × ο)} {C : σ → ι → Prop} {I : σ → Prop}
    (hI : ∀ {s i s' o}, I s → C s i → step s i = some (s', o) → I s') {is : List ι} {s s' : σ}
    {os : List ο} (hs : I s) (hC : Meets step C s is) (h : runs step s is = some (s', os)) :
    I s' :=
  hC.carries (Q := fun _ => True) (R := fun _ => True) (fun hI' hC' he _ _ => hI hI' hC' he) hs h
    (fun _ _ => trivial) fun _ _ => trivial

/-- A run within `C` is within `C` from any of its states on. -/
theorem Meets.append {step : σ → ι → Option (σ × ο)} {C : σ → ι → Prop} {is js : List ι} :
    ∀ {s s' os}, Meets step C s (is ++ js) → runs step s is = some (s', os) →
      Meets step C s is ∧ Meets step C s' js := by
  induction is with
  | nil =>
    intro s s' os hC h
    cases h
    exact ⟨trivial, hC⟩
  | cons i is ih =>
    intro s s' os hC h
    rw [runs] at h
    split at h
    · cases h
    · rename_i s₁ o he
      split at h
      · cases h
      · rename_i s₂ os₂ hr
        cases h
        have hnext : Meets step C s₁ (is ++ js) := hC.next he
        obtain ⟨hpre, hpost⟩ := ih hnext hr
        refine ⟨⟨hC.1, ?_⟩, hpost⟩
        rw [he]
        exact hpre

theorem meets_true {step : σ → ι → Option (σ × ο)} {is : List ι} :
    ∀ {s}, Meets step (fun _ _ => True) s is := by
  induction is with
  | nil => exact trivial
  | cons i is ih =>
    intro s
    refine ⟨trivial, ?_⟩
    split
    · trivial
    · exact ih

theorem runs_preserves {step : σ → ι → Option (σ × ο)} {I : σ → Prop}
    (hstep : ∀ {s i s' o}, I s → step s i = some (s', o) → I s') {is : List ι} {s s' : σ}
    {os : List ο} (hs : I s) (h : runs step s is = some (s', os)) : I s' :=
  Meets.preserves (fun hI _ he => hstep hI he) hs meets_true h

/-- Under the side condition `C`, one step of `step` is one step of `spec`. -/
structure Simulates (step : σ → ι → Option (σ × ο)) (spec : τ → ι → τ × ο) (R : σ → τ → Prop)
    (C : σ → ι → Prop) : Prop where
  step : ∀ {s t i}, R s t → C s i → ∃ s', step s i = some (s', (spec t i).2) ∧ R s' (spec t i).1

theorem Simulates.run {step : σ → ι → Option (σ × ο)} {spec : τ → ι → τ × ο} {R : σ → τ → Prop}
    {C : σ → ι → Prop} (H : Simulates step spec R C) {is : List ι} :
    ∀ {s t}, R s t → Meets step C s is →
      ∃ s', runs step s is = some (s', (specRuns spec t is).2) ∧ R s' (specRuns spec t is).1 := by
  induction is with
  | nil => intro s t hR _; exact ⟨s, rfl, hR⟩
  | cons i is ih =>
    intro s t hR hC
    obtain ⟨s', hs, hR'⟩ := H.step hR hC.1
    obtain ⟨s'', hr, hR''⟩ := ih hR' (hC.next hs)
    exact ⟨s'', runs_cons hs hr, hR''⟩

end SimpleLink.Lib
