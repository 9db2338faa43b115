import Mathlib.Data.List.Basic
import Mathlib.Data.List.Nodup
import Mathlib.Data.List.Perm.Subperm
import Mathlib.Data.UInt

/-!
# Lists threaded through an array

The cells of an array carry the index of the next cell; `stop`, an index behind
the array, ends a list. `Chain get link stop i l` says that the cells reached
from `i` are `l`. `search` is the loop that walks a list to the first cell that
satisfies a test; its fuel bounds the number of steps, and it has no outcome when
the fuel runs out or a cell is not there.
-/

namespace SimpleLink.Lib

variable {α : Type} {get get' : Nat → Option α} {link : α → Nat} {stop : Nat}

/-- The list of the cells from index `i` on. -/
inductive Chain (get : Nat → Option α) (link : α → Nat) (stop : Nat) : Nat → List Nat → Prop where
  | nil : Chain get link stop stop []
  | cons {i x l} : get i = some x → i < stop → Chain get link stop (link x) l →
      Chain get link stop i (i :: l)

/-- The first cell from `i` on that satisfies `p`. -/
def search (get : Nat → Option α) (link : α → Nat) (stop : Nat) (p : α → Bool) :
    Nat → Nat → Option (Option Nat)
  | 0, _ => none
  | n + 1, i =>
    if i < stop then
      match get i with
      | none => none
      | some x => if p x then some (some i) else search get link stop p n (link x)
    else some none

/-- The cells from `i` on, `n` of them at most. -/
def cells (get : Nat → Option α) (link : α → Nat) (stop : Nat) : Nat → Nat → List Nat
  | 0, _ => []
  | n + 1, i =>
    if i < stop then
      match get i with
      | none => []
      | some x => i :: cells get link stop n (link x)
    else []

theorem Chain.head {i : Nat} {l : List Nat} (h : Chain get link stop i l) :
    (l = [] ∧ i = stop) ∨
      ∃ x l', l = i :: l' ∧ get i = some x ∧ i < stop ∧ Chain get link stop (link x) l' := by
  cases h with
  | nil => exact .inl ⟨rfl, rfl⟩
  | cons hx hi hl => exact .inr ⟨_, _, rfl, hx, hi, hl⟩

theorem Chain.lt {i : Nat} {l : List Nat} (h : Chain get link stop i l) : ∀ k ∈ l, k < stop := by
  induction h with
  | nil => exact nofun
  | cons _ hi _ ih =>
    intro k hk
    rcases List.mem_cons.1 hk with rfl | hk
    · exact hi
    · exact ih k hk

theorem length_le_of_nodup {l : List Nat} {n : Nat} (hn : l.Nodup) (hlt : ∀ k ∈ l, k < n) :
    l.length ≤ n := by
  have hsub : l ⊆ List.range n := fun k hk => List.mem_range.2 (hlt k hk)
  simpa using (hn.subperm hsub).length_le

theorem Chain.congr {i : Nat} {l : List Nat} (h : Chain get link stop i l)
    (hk : ∀ k ∈ l, (get' k).map link = (get k).map link) : Chain get' link stop i l := by
  induction h with
  | nil => exact .nil
  | @cons i x l hx hi _ ih =>
    have h' := hk i (List.mem_cons_self ..)
    rw [hx, Option.map_some, Option.map_eq_some_iff] at h'
    obtain ⟨y, hy, hl⟩ := h'
    refine .cons hy hi ?_
    rw [hl]
    exact ih fun k hk' => hk k (List.mem_cons_of_mem _ hk')

theorem Chain.snoc {i k : Nat} {l : List Nat} (h : Chain get link stop i l) (hn : l.Nodup)
    (hne : l ≠ []) (hk : k < stop) (hlast : (get' (l.getLast hne)).map link = some k)
    (hend : (get' k).map link = some stop)
    (hrest : ∀ m ∈ l, m ≠ l.getLast hne → (get' m).map link = (get m).map link) :
    Chain get' link stop i (l ++ [k]) := by
  induction h with
  | nil => exact absurd rfl hne
  | @cons i x l hx hi hl ih =>
    cases hl with
    | nil =>
      obtain ⟨y, hy, hyk⟩ := Option.map_eq_some_iff.1 hlast
      obtain ⟨z, hz, hzs⟩ := Option.map_eq_some_iff.1 hend
      refine .cons hy hi ?_
      rw [hyk]
      refine .cons hz hk ?_
      rw [hzs]
      exact .nil
    | @cons _ y l hy hj hl =>
      obtain ⟨hil, hnl⟩ := List.nodup_cons.1 hn
      have hne' : link x :: l ≠ [] := List.cons_ne_nil _ l
      have hlast' : (i :: link x :: l).getLast hne = (link x :: l).getLast hne' := List.getLast_cons hne'
      have hi' : (get' i).map link = (get i).map link := by
        refine hrest i List.mem_cons_self fun he => hil ?_
        rw [he, hlast']
        exact List.getLast_mem hne'
      rw [hx, Option.map_some, Option.map_eq_some_iff] at hi'
      obtain ⟨z, hz, hzx⟩ := hi'
      refine .cons hz hi ?_
      rw [hzx]
      rw [hlast'] at hlast hrest
      exact ih hnl hne' hlast fun m hm => hrest m (List.mem_cons_of_mem i hm)

theorem Chain.search {i : Nat} {l : List Nat} (h : Chain get link stop i l) (p : α → Bool)
    {n : Nat} (hn : l.length < n) :
    search get link stop p n i = some (l.find? fun k => (get k).any p) := by
  induction h generalizing n with
  | nil =>
    obtain ⟨n, rfl⟩ := Nat.exists_eq_succ_of_ne_zero (by omega : n ≠ 0)
    simp [Lib.search]
  | @cons i x l hx hi _ ih =>
    obtain ⟨n, rfl⟩ := Nat.exists_eq_succ_of_ne_zero (by omega : n ≠ 0)
    simp only [List.length_cons] at hn
    simp only [Lib.search, hi, if_true, hx, List.find?_cons, Option.any_some]
    cases hp : p x with
    | true => simp
    | false => simpa using ih (by omega)

theorem search_congr {p p' : α → Bool} {n : Nat}
    (h : ∀ i, (get' i).map (fun x => (p' x, link x)) = (get i).map fun x => (p x, link x)) :
    ∀ i, Lib.search get' link stop p' n i = Lib.search get link stop p n i := by
  induction n with
  | zero => exact fun _ => rfl
  | succ n ih =>
    intro i
    have hi := h i
    cases hg : get i with
    | none =>
      rw [hg, Option.map_none, Option.map_eq_none_iff] at hi
      simp only [Lib.search, hg, hi]
    | some x =>
      rw [hg, Option.map_some, Option.map_eq_some_iff] at hi
      obtain ⟨y, hy, hyx⟩ := hi
      obtain ⟨hp, hl⟩ := Prod.mk.inj hyx
      simp only [Lib.search, hg, hy, hp, hl, ih]

theorem Chain.cells {i : Nat} {l : List Nat} (h : Chain get link stop i l) {n : Nat}
    (hn : l.length ≤ n) : cells get link stop n i = l := by
  induction h generalizing n with
  | nil => cases n <;> simp [Lib.cells]
  | @cons i x l hx hi _ ih =>
    obtain ⟨n, rfl⟩ := Nat.exists_eq_succ_of_ne_zero (by
      simp only [List.length_cons] at hn; omega : n ≠ 0)
    simp only [List.length_cons] at hn
    simp only [Lib.cells, hi, if_true, hx]
    rw [ih (Nat.le_of_succ_le_succ hn)]

/-- The cell before `k`, and what is left when it is linked to the cell behind `k`. -/
theorem Chain.unlink {i k : Nat} {l : List Nat} (h : Chain get link stop i l) (hn : l.Nodup)
    (hk : k ∈ l) (hik : i ≠ k) {x : α} (hx : get k = some x) :
    ∃ j y, l.find? (fun m => (get m).any fun z => link z == k) = some j ∧ get j = some y ∧
      j ∈ l ∧ j ≠ k ∧
      ∀ get', (get' j).map link = some (link x) →
        (∀ m ∈ l, m ≠ j → (get' m).map link = (get m).map link) →
        Chain get' link stop i (l.erase k) := by
  induction h with
  | nil => cases hk
  | @cons i y l hy hi hl ih =>
    have hkl : k ∈ l := (List.mem_cons.1 hk).resolve_left (Ne.symm hik)
    obtain ⟨hil, hnl⟩ := List.nodup_cons.1 hn
    by_cases hlink : link y = k
    · refine ⟨i, y, ?_, hy, List.mem_cons_self .., hik, fun get' hj hrest => ?_⟩
      · simp [hy, hlink]
      · rw [List.erase_cons_tail (by simpa using hik)]
        obtain ⟨z, hz, hzx⟩ := Option.map_eq_some_iff.1 hj
        refine .cons hz hi ?_
        rw [hzx]
        rw [hlink] at hl
        cases hl with
        | nil => cases hkl
        | cons hx' hk' hl' =>
          obtain rfl := Option.some.inj (hx'.symm.trans hx)
          rw [List.erase_cons_head]
          refine hl'.congr fun m hm => hrest m ?_ ?_
          · exact List.mem_cons_of_mem _ (List.mem_cons_of_mem _ hm)
          · rintro rfl
            exact hil (List.mem_cons_of_mem _ hm)
    · obtain ⟨j, w, hf, hw, hjl, hjk, hrec⟩ := ih hnl hkl hlink
      refine ⟨j, w, ?_, hw, List.mem_cons_of_mem _ hjl, hjk, fun get' hj hrest => ?_⟩
      · simp only [List.find?_cons, hy, Option.any_some, beq_eq_false_iff_ne.2 hlink]
        exact hf
      · rw [List.erase_cons_tail (by simpa using hik)]
        have hij : i ≠ j := fun heq => hil (heq ▸ hjl)
        have hi' := hrest i (List.mem_cons_self ..) hij
        rw [hy, Option.map_some, Option.map_eq_some_iff] at hi'
        obtain ⟨z, hz, hzy⟩ := hi'
        refine .cons hz hi ?_
        rw [hzy]
        exact hrec get' hj fun m hm => hrest m (List.mem_cons_of_mem _ hm)

end SimpleLink.Lib
