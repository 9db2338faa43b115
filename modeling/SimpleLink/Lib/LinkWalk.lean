import Mathlib.Logic.Relation
import SimpleLink.Lib.LinkTree

/-!
# Walks over linked cells

A walk down from a cell meets it, what is below it and what is after it. There is
one from a cell at most, and none that does not end, so that no cell from which
there is one is below or after itself. The cells of a represented tree are those
that a walk from its root meets, and a list of free cells those of a walk from its
head.
-/

namespace SimpleLink.Lib

variable {ι γ : Type}

/-- The cells that a walk down meets. -/
inductive Walk (pool : ι → Cell ι γ) : Option ι → List ι → Prop where
  | nil : Walk pool none []
  | cons {i : ι} {below after : List ι} :
      Walk pool (pool i).dnHier below → Walk pool (pool i).dnNhbr after →
        Walk pool (some i) (i :: (below ++ after))

def Down (pool : ι → Cell ι γ) (i j : ι) : Prop :=
  (pool i).dnHier = some j ∨ (pool i).dnNhbr = some j

namespace Walk

variable {pool : ι → Cell ι γ} {r : Option ι} {l l' : List ι} {i j : ι}

theorem unique (h : Walk pool r l) : ∀ {l' : List ι}, Walk pool r l' → l = l' := by
  induction h with
  | nil =>
    intro l' h'
    cases h'
    rfl
  | cons _ _ ihb iha =>
    intro l' h'
    cases h' with
    | cons hb ha => rw [ihb hb, iha ha]

theorem of_mem (h : Walk pool r l) (hi : i ∈ l) : ∃ l', Walk pool (some i) l' := by
  induction h with
  | nil => cases hi
  | cons hb ha ihb iha =>
    rcases List.mem_cons.mp hi with rfl | hi
    · exact ⟨_, hb.cons ha⟩
    rcases List.mem_append.mp hi with hi | hi
    · exact ihb hi
    · exact iha hi

theorem down (h : Walk pool (some i) l) (hij : Down pool i j) :
    ∃ l', Walk pool (some j) l' ∧ l'.length < l.length := by
  cases h with
  | @cons _ below after hb ha =>
    rcases hij with hij | hij
    · rw [hij] at hb
      refine ⟨below, hb, ?_⟩
      rw [List.length_cons, List.length_append]
      omega
    · rw [hij] at ha
      refine ⟨after, ha, ?_⟩
      rw [List.length_cons, List.length_append]
      omega

theorem down_trans (h : Walk pool (some i) l) (hij : Relation.TransGen (Down pool) i j) :
    ∃ l', Walk pool (some j) l' ∧ l'.length < l.length := by
  induction hij with
  | single hij => exact h.down hij
  | tail _ hjk ih =>
    obtain ⟨l₁, h₁, hlt₁⟩ := ih
    obtain ⟨l₂, h₂, hlt₂⟩ := h₁.down hjk
    exact ⟨l₂, h₂, Nat.lt_trans hlt₂ hlt₁⟩

theorem acyclic (h : Walk pool r l) (hi : i ∈ l) : ¬ Relation.TransGen (Down pool) i i := by
  intro hii
  obtain ⟨l₁, h₁⟩ := h.of_mem hi
  obtain ⟨l₂, h₂, hlt⟩ := h₁.down_trans hii
  rw [h₁.unique h₂] at hlt
  exact Nat.lt_irrefl _ hlt

end Walk

/-- Each link of a cell is answered by the cell that it leads to, and there is one link up at most. -/
structure Answered (pool : ι → Cell ι γ) (s : ι → Prop) (i : ι) : Prop extends LinkTree.Hangs pool s i where
  dnNhbr : ∀ j, (pool i).dnNhbr = some j → s j ∧ (pool j).upNhbr = some i
  dnHier : ∀ j, (pool i).dnHier = some j → s j ∧ (pool j).upHier = some i
  oneUp : (pool i).upNhbr = none ∨ (pool i).upHier = none

namespace LinkTree

variable {pool : ι → Cell ι γ} {t : LinkTree ι γ}

theorem Rep.walk {un uh : Option ι} (h : Rep pool un uh t) : Walk pool (root t) (ids t) := by
  induction t generalizing un uh with
  | nil => exact .nil
  | node i c t n iht ihn =>
    obtain ⟨hcell, ht, hn⟩ := h
    refine .cons ?_ ?_
    · rw [hcell]
      exact iht ht
    · rw [hcell]
      exact ihn hn

theorem FreeList.walk {dflt : γ} {l : List ι} (h : FreeList pool dflt l) : Walk pool l.head? l := by
  induction l with
  | nil => exact .nil
  | cons i l ih =>
    have hcons : Walk pool (some i) (i :: ([] ++ l)) := by
      refine .cons ?_ ?_
      · rw [h.1]
        exact .nil
      · rw [h.1]
        exact ih h.2
    exact hcons

theorem Rep.up {un uh : Option ι} (h : Rep pool un uh t) {j : ι} (hj : root t = some j) :
    j ∈ ids t ∧ (pool j).upNhbr = un ∧ (pool j).upHier = uh := by
  cases t with
  | nil => cases hj
  | node i c t n =>
    cases hj
    rw [h.1]
    exact ⟨List.mem_cons_self, rfl, rfl⟩

theorem Rep.answered (h : Rep pool none none t) {i : ι} (hi : i ∈ ids t) :
    Answered pool (· ∈ ids t) i := by
  obtain ⟨fs, c, b, n, rfl⟩ : ∃ fs c b n, t = plug fs (node i c b n) := exists_place hi []
  obtain ⟨⟨hcell, hb, hn⟩, -⟩ := (rep_plug fs _).mp h
  have hmem : ∀ j ∈ ids b ++ ids n, j ∈ ids (plug fs (node i c b n)) := fun j hj =>
    (ids_plug fs _).mem_iff.mpr (List.mem_append_left _ (List.mem_cons_of_mem _ hj))
  refine ⟨h.hangs hi, fun j hj => ?_, fun j hj => ?_, ?_⟩
  · rw [hcell] at hj
    obtain ⟨hj, hup, -⟩ := hn.up hj
    exact ⟨hmem j (List.mem_append_right _ hj), hup⟩
  · rw [hcell] at hj
    obtain ⟨hj, -, hup⟩ := hb.up hj
    exact ⟨hmem j (List.mem_append_left _ hj), hup⟩
  · rw [hcell]
    cases fs with
    | nil => exact .inl rfl
    | cons f fs =>
      cases f with
      | hier => exact .inl rfl
      | nhbr => exact .inr rfl

theorem Rep.unique {un uh : Option ι} (h : Rep pool un uh t) :
    ∀ {t' : LinkTree ι γ} {un' uh' : Option ι}, Rep pool un' uh' t' → root t = root t' → t = t' := by
  induction t generalizing un uh with
  | nil =>
    intro t' un' uh' _ hr
    exact (root_eq_none.mp hr.symm).symm
  | node i c b n ihb ihn =>
    intro t' un' uh' h' hr
    cases t' with
    | nil => cases hr
    | node i' c' b' n' =>
      cases hr
      obtain ⟨hcell, hb, hn⟩ := h
      obtain ⟨hcell', hb', hn'⟩ := h'
      have heq := hcell.symm.trans hcell'
      rw [Cell.mk.injEq, Links.mk.injEq] at heq
      obtain ⟨⟨hrn, -, hrb, -⟩, rfl⟩ := heq
      rw [ihb hb hb' hrb, ihn hn hn' hrn]

end LinkTree

end SimpleLink.Lib
