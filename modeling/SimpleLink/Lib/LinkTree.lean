import Mathlib.Data.List.Nodup
import Mathlib.Data.List.Perm.Basic
import Mathlib.Data.UInt
import Mathlib.Logic.Function.Basic
import Mathlib.Tactic.Tauto

/-!
# Trees of linked cells

A cell has four links: to its neighbours on either side, to the first cell of the hierarchy below it
and to the cell above. A `LinkTree` is what the cells reached from a root stand for, `Rep` says that
they do. A place in a tree is a list of frames from there up to the root; `plug` puts a tree in a
place.

A cell has a key, and a path of keys selects a cell: `look` finds it, `search` finds its place, or the
place where it is missing. The tree changes in one place at a time: `graft` puts a tree where a path
is missing, `adjust` changes the value that a path selects, and `prune` takes off useless cells from a
place upwards.
-/

namespace SimpleLink.Lib

variable {ι κ γ : Type}

structure Links (ι : Type) where
  dnNhbr : Option ι
  upNhbr : Option ι
  dnHier : Option ι
  upHier : Option ι
  deriving DecidableEq

structure Cell (ι γ : Type) extends Links ι where
  val : γ

/-- A row of neighbours, each with the hierarchy below it. -/
inductive LinkTree (ι γ : Type) where
  | nil
  | node (i : ι) (c : γ) (hier nhbr : LinkTree ι γ)

/-- A step up from a place: to the cell above, with its neighbours, or to the neighbour before, with
its hierarchy. -/
inductive Frame (ι γ : Type) where
  | hier (i : ι) (c : γ) (nhbr : LinkTree ι γ)
  | nhbr (i : ι) (c : γ) (hier : LinkTree ι γ)

namespace LinkTree

/-! ## Trees and places -/

def root : LinkTree ι γ → Option ι
  | nil => none
  | node i .. => some i

def ids : LinkTree ι γ → List ι
  | nil => []
  | node i _ h n => i :: (ids h ++ ids n)

def vals : LinkTree ι γ → List γ
  | nil => []
  | node _ c h n => c :: (vals h ++ vals n)

def plug : List (Frame ι γ) → LinkTree ι γ → LinkTree ι γ
  | [], t => t
  | .hier i c n :: fs, t => plug fs (node i c t n)
  | .nhbr i c h :: fs, t => plug fs (node i c h t)

def frameIds : List (Frame ι γ) → List ι
  | [] => []
  | .hier i _ n :: fs => i :: (ids n ++ frameIds fs)
  | .nhbr i _ h :: fs => i :: (ids h ++ frameIds fs)

def frameVals : List (Frame ι γ) → List γ
  | [] => []
  | .hier _ c n :: fs => c :: (vals n ++ frameVals fs)
  | .nhbr _ c h :: fs => c :: (vals h ++ frameVals fs)

def pathOf {κ : Type} (key : γ → κ) : List (Frame ι γ) → List κ
  | [] => []
  | .hier _ c _ :: fs => pathOf key fs ++ [key c]
  | .nhbr .. :: fs => pathOf key fs

def upNhbr : List (Frame ι γ) → Option ι
  | .nhbr i .. :: _ => some i
  | _ => none

/-- The upward link of a place to its hierarchy. -/
def upHier : List (Frame ι γ) → Option ι
  | .hier i .. :: _ => some i
  | _ => none

theorem root_eq_none {t : LinkTree ι γ} : root t = none ↔ t = nil := by
  cases t <;> simp [root]

theorem plug_cons (f : Frame ι γ) (fs : List (Frame ι γ)) (t : LinkTree ι γ) :
    plug (f :: fs) t = plug fs (plug [f] t) := by
  cases f <;> rfl

theorem ids_plug (fs : List (Frame ι γ)) :
    ∀ t, List.Perm (ids (plug fs t)) (ids t ++ frameIds fs) := by
  induction fs with
  | nil => exact fun t => by rw [plug, frameIds, List.append_nil]
  | cons f fs ih =>
    intro t
    cases f with
    | hier i c n =>
      refine (ih _).trans ?_
      simp only [ids, frameIds, List.cons_append, List.append_assoc]
      exact List.perm_middle.symm
    | nhbr i c h =>
      refine (ih _).trans ?_
      simp only [ids, frameIds, List.cons_append, List.append_assoc]
      refine List.Perm.trans ?_ List.perm_middle.symm
      refine List.Perm.cons _ ?_
      rw [← List.append_assoc, ← List.append_assoc]
      exact List.Perm.append_right _ List.perm_append_comm

theorem mem_vals_plug {c : γ} (fs : List (Frame ι γ)) :
    ∀ t, c ∈ vals (plug fs t) ↔ c ∈ vals t ∨ c ∈ frameVals fs := by
  induction fs with
  | nil => exact fun t => by simp [plug, frameVals]
  | cons f fs ih =>
    intro t
    cases f with
    | hier i d n =>
      rw [plug, ih]
      simp only [vals, frameVals, List.mem_cons, List.mem_append]
      tauto
    | nhbr i d h =>
      rw [plug, ih]
      simp only [vals, frameVals, List.mem_cons, List.mem_append]
      tauto

theorem mem_ids_plug_of_nil {i : ι} {fs : List (Frame ι γ)} (t : LinkTree ι γ)
    (h : i ∈ ids (plug fs nil)) : i ∈ ids (plug fs t) := by
  rw [(ids_plug fs _).mem_iff, List.mem_append] at h ⊢
  exact h.imp_left nofun

theorem pathOf_length_le {κ : Type} (key : γ → κ) (fs : List (Frame ι γ)) :
    (pathOf key fs).length ≤ (frameIds fs).length := by
  induction fs with
  | nil => exact Nat.le_refl _
  | cons f fs ih =>
    cases f with
    | hier =>
      rw [pathOf, frameIds, List.length_append, List.length_singleton, List.length_cons,
        List.length_append]
      omega
    | nhbr =>
      rw [pathOf, frameIds, List.length_cons, List.length_append]
      omega

theorem mem_pathOf {κ : Type} {key : γ → κ} {k : κ} {fs : List (Frame ι γ)}
    (h : k ∈ pathOf key fs) : ∃ c ∈ frameVals fs, key c = k := by
  induction fs with
  | nil => cases h
  | cons f fs ih =>
    cases f with
    | hier i c n =>
      rcases List.mem_append.mp h with h | h
      · obtain ⟨d, hd, hk⟩ := ih h
        exact ⟨d, List.mem_cons_of_mem _ (List.mem_append_right _ hd), hk⟩
      · exact ⟨c, List.mem_cons_self, (List.mem_singleton.mp h).symm⟩
    | nhbr i c n =>
      obtain ⟨d, hd, hk⟩ := ih h
      exact ⟨d, List.mem_cons_of_mem _ (List.mem_append_right _ hd), hk⟩

/-! ## Representation -/

/-- The cells hold the tree, its first row being linked upwards to `un` and `uh`. -/
def Rep (pool : ι → Cell ι γ) : Option ι → Option ι → LinkTree ι γ → Prop
  | _, _, nil => True
  | un, uh, node i c h n =>
    pool i = ⟨⟨root n, un, root h, uh⟩, c⟩ ∧ Rep pool none (some i) h ∧ Rep pool (some i) none n

/-- The cells hold the frames, the place being linked to `r`. -/
def RepFrames (pool : ι → Cell ι γ) : Option ι → List (Frame ι γ) → Prop
  | _, [] => True
  | r, .hier i c n :: fs =>
    pool i = ⟨⟨root n, upNhbr fs, r, upHier fs⟩, c⟩ ∧ Rep pool (some i) none n ∧
      RepFrames pool (some i) fs
  | r, .nhbr i c h :: fs =>
    pool i = ⟨⟨r, upNhbr fs, root h, upHier fs⟩, c⟩ ∧ Rep pool none (some i) h ∧
      RepFrames pool (some i) fs

theorem rep_plug {pool : ι → Cell ι γ} (fs : List (Frame ι γ)) :
    ∀ t, Rep pool none none (plug fs t) ↔
      Rep pool (upNhbr fs) (upHier fs) t ∧ RepFrames pool (root t) fs := by
  induction fs with
  | nil => exact fun t => by simp [plug, upNhbr, upHier, RepFrames]
  | cons f fs ih =>
    intro t
    cases f with
    | hier i c n =>
      simp only [plug, ih, Rep, RepFrames, upNhbr, upHier, root]
      constructor
      · rintro ⟨⟨hi, ht, hn⟩, hfs⟩
        exact ⟨ht, hi, hn, hfs⟩
      · rintro ⟨ht, hi, hn, hfs⟩
        exact ⟨⟨hi, ht, hn⟩, hfs⟩
    | nhbr i c h =>
      simp only [plug, ih, Rep, RepFrames, upNhbr, upHier, root]
      constructor
      · rintro ⟨⟨hi, hh, ht⟩, hfs⟩
        exact ⟨ht, hi, hh, hfs⟩
      · rintro ⟨ht, hi, hh, hfs⟩
        exact ⟨⟨hi, hh, ht⟩, hfs⟩

theorem exists_place {t : LinkTree ι γ} {i : ι} (hi : i ∈ ids t) :
    ∀ fs, ∃ fs' c h n, plug fs t = plug fs' (node i c h n) := by
  induction t with
  | nil => cases hi
  | node j c h n ihh ihn =>
    intro fs
    rcases List.mem_cons.mp hi with rfl | hi
    · exact ⟨fs, c, h, n, rfl⟩
    rcases List.mem_append.mp hi with hi | hi
    · exact ihh hi (.hier j c n :: fs)
    · exact ihn hi (.nhbr j c h :: fs)

/-- The cell that `k` hangs on is in `s`, and its link goes down to `k`. -/
structure Hangs (pool : ι → Cell ι γ) (s : ι → Prop) (k : ι) : Prop where
  nhbr : ∀ j, (pool k).upNhbr = some j → s j ∧ (pool j).dnNhbr = some k
  hier : ∀ j, (pool k).upHier = some j → s j ∧ (pool j).dnHier = some k

theorem Rep.hangs {pool : ι → Cell ι γ} {t : LinkTree ι γ} (ht : Rep pool none none t) {k : ι}
    (hk : k ∈ ids t) : Hangs pool (· ∈ ids t) k := by
  obtain ⟨fs, c, h, n, rfl⟩ : ∃ fs c h n, t = plug fs (node k c h n) := exists_place hk []
  obtain ⟨⟨hcell, -⟩, hfs⟩ := (rep_plug fs _).mp ht
  have hmem : ∀ j ∈ frameIds fs, j ∈ ids (plug fs (node k c h n)) := fun j hj =>
    (ids_plug fs _).mem_iff.mpr (List.mem_append_right _ hj)
  rw [root] at hfs
  constructor
  · intro j hj
    rw [hcell] at hj
    cases fs with
    | nil => cases hj
    | cons f fs =>
      cases f with
      | hier => cases hj
      | nhbr i d h' =>
        cases hj
        exact ⟨hmem j List.mem_cons_self, by rw [hfs.1]⟩
  · intro j hj
    rw [hcell] at hj
    cases fs with
    | nil => cases hj
    | cons f fs =>
      cases f with
      | nhbr => cases hj
      | hier i d n' =>
        cases hj
        exact ⟨hmem j List.mem_cons_self, by rw [hfs.1]⟩

theorem Rep.congr {pool pool' : ι → Cell ι γ} {t : LinkTree ι γ} :
    ∀ {un uh}, Rep pool un uh t → (∀ i ∈ ids t, pool' i = pool i) → Rep pool' un uh t := by
  induction t with
  | nil => exact fun _ _ => trivial
  | node i c h n ihh ihn =>
    intro un uh hrep heq
    refine ⟨?_, ihh hrep.2.1 fun j hj => heq j ?_, ihn hrep.2.2 fun j hj => heq j ?_⟩
    · rw [heq i List.mem_cons_self]
      exact hrep.1
    · exact List.mem_cons_of_mem _ (List.mem_append_left _ hj)
    · exact List.mem_cons_of_mem _ (List.mem_append_right _ hj)

theorem RepFrames.congr {pool pool' : ι → Cell ι γ} {fs : List (Frame ι γ)} :
    ∀ {r}, RepFrames pool r fs → (∀ i ∈ frameIds fs, pool' i = pool i) →
      RepFrames pool' r fs := by
  induction fs with
  | nil => exact fun _ _ => trivial
  | cons f fs ih =>
    intro r hrep heq
    cases f with
    | hier i c n =>
      refine ⟨?_, hrep.2.1.congr fun j hj => heq j ?_, ih hrep.2.2 fun j hj => heq j ?_⟩
      · rw [heq i List.mem_cons_self]
        exact hrep.1
      · exact List.mem_cons_of_mem _ (List.mem_append_left _ hj)
      · exact List.mem_cons_of_mem _ (List.mem_append_right _ hj)
    | nhbr i c h =>
      refine ⟨?_, hrep.2.1.congr fun j hj => heq j ?_, ih hrep.2.2 fun j hj => heq j ?_⟩
      · rw [heq i List.mem_cons_self]
        exact hrep.1
      · exact List.mem_cons_of_mem _ (List.mem_append_left _ hj)
      · exact List.mem_cons_of_mem _ (List.mem_append_right _ hj)

def frameRoot : List (Frame ι γ) → Option ι
  | [] => none
  | .hier i .. :: _ => some i
  | .nhbr i .. :: _ => some i

theorem root_plug_one (f : Frame ι γ) (t : LinkTree ι γ) (fs : List (Frame ι γ)) :
    root (plug [f] t) = frameRoot (f :: fs) := by
  cases f <;> rfl

theorem frameRoot_cons (f : Frame ι γ) (fs : List (Frame ι γ)) :
    ∃ j, frameRoot (f :: fs) = some j := by
  cases f <;> exact ⟨_, rfl⟩

theorem root_plug_ne_none (fs : List (Frame ι γ)) :
    ∀ {t : LinkTree ι γ}, root t ≠ none → root (plug fs t) ≠ none := by
  induction fs with
  | nil => exact fun h => h
  | cons f fs ih =>
    intro t _
    cases f <;> exact ih (Option.some_ne_none _)

theorem root_plug_congr {fs : List (Frame ι γ)} (hfs : fs ≠ []) (t t' : LinkTree ι γ) :
    root (plug fs t) = root (plug fs t') := by
  induction fs generalizing t t' with
  | nil => exact absurd rfl hfs
  | cons f fs ih =>
    rw [plug_cons, plug_cons f fs t']
    by_cases hnil : fs = []
    · rw [hnil]
      exact (root_plug_one f t []).trans (root_plug_one f t' []).symm
    · exact ih hnil _ _

section Relink

variable [DecidableEq ι]

/-- The place linked to `r` instead. -/
def relink (pool : ι → Cell ι γ) : List (Frame ι γ) → Option ι → ι → Cell ι γ
  | [], _ => pool
  | .hier j .. :: _, r => Function.update pool j { pool j with dnHier := r }
  | .nhbr j .. :: _, r => Function.update pool j { pool j with dnNhbr := r }

theorem relink_other (pool : ι → Cell ι γ) {fs : List (Frame ι γ)} (r : Option ι) {i : ι}
    (hi : i ∉ frameIds fs) : relink pool fs r i = pool i := by
  cases fs with
  | nil => rfl
  | cons f fs =>
    cases f with
    | hier j c n => exact Function.update_of_ne (List.ne_of_not_mem_cons hi) _ _
    | nhbr j c h => exact Function.update_of_ne (List.ne_of_not_mem_cons hi) _ _

theorem RepFrames.relink {pool : ι → Cell ι γ} {r : Option ι} {fs : List (Frame ι γ)}
    (h : RepFrames pool r fs) (hnd : (frameIds fs).Nodup) (r' : Option ι) :
    RepFrames (relink pool fs r') r' fs := by
  cases fs with
  | nil => trivial
  | cons f fs =>
    cases f with
    | hier j c n =>
      obtain ⟨hj, hnd⟩ := List.nodup_cons.mp hnd
      have hother : ∀ i ∈ ids n ++ frameIds fs, LinkTree.relink pool (.hier j c n :: fs) r' i =
          pool i := fun i hi => Function.update_of_ne (ne_of_mem_of_not_mem hi hj) _ _
      refine ⟨?_, h.2.1.congr fun i hi => hother i (List.mem_append_left _ hi),
        h.2.2.congr fun i hi => hother i (List.mem_append_right _ hi)⟩
      rw [LinkTree.relink, Function.update_self, h.1]
    | nhbr j c n =>
      obtain ⟨hj, hnd⟩ := List.nodup_cons.mp hnd
      have hother : ∀ i ∈ ids n ++ frameIds fs, LinkTree.relink pool (.nhbr j c n :: fs) r' i =
          pool i := fun i hi => Function.update_of_ne (ne_of_mem_of_not_mem hi hj) _ _
      refine ⟨?_, h.2.1.congr fun i hi => hother i (List.mem_append_left _ hi),
        h.2.2.congr fun i hi => hother i (List.mem_append_right _ hi)⟩
      rw [LinkTree.relink, Function.update_self, h.1]

theorem Rep.hang {pool : ι → Cell ι γ} {fs : List (Frame ι γ)} {i : ι} {c : γ} {h : LinkTree ι γ}
    (hfs : Rep pool none none (plug fs nil)) (ht : Rep pool none none (node i c h nil))
    (hnd : (ids (node i c h nil) ++ frameIds fs).Nodup) :
    Rep (Function.update (LinkTree.relink pool fs (some i)) i ⟨⟨none, upNhbr fs, root h, upHier fs⟩, c⟩)
      none none (plug fs (node i c h nil)) := by
  simp only [ids, List.append_nil, List.cons_append, List.nodup_cons] at hnd
  obtain ⟨hi, hnd⟩ := hnd
  have hdisj := List.disjoint_of_nodup_append hnd
  have hother : ∀ j ∈ ids h ++ frameIds fs, Function.update (LinkTree.relink pool fs (some i)) i
      ⟨⟨none, upNhbr fs, root h, upHier fs⟩, c⟩ j = LinkTree.relink pool fs (some i) j :=
    fun j hj => Function.update_of_ne (ne_of_mem_of_not_mem hj hi) _ _
  refine (rep_plug fs _).mpr ⟨⟨?_, ht.2.1.congr fun j hj => ?_, trivial⟩, ?_⟩
  · exact Function.update_self ..
  · exact (hother j (List.mem_append_left _ hj)).trans (relink_other _ _ (hdisj hj))
  · refine (((rep_plug fs _).mp hfs).2.relink hnd.of_append_right (some i)).congr fun j hj => ?_
    exact hother j (List.mem_append_right _ hj)

end Relink

/-- The cells of `l` are linked one to the next, and hold nothing else. -/
def FreeList (pool : ι → Cell ι γ) (dflt : γ) : List ι → Prop
  | [] => True
  | i :: l => pool i = ⟨⟨l.head?, none, none, none⟩, dflt⟩ ∧ FreeList pool dflt l

theorem FreeList.congr {pool pool' : ι → Cell ι γ} {dflt : γ} {l : List ι}
    (h : FreeList pool dflt l) (heq : ∀ i ∈ l, pool' i = pool i) : FreeList pool' dflt l := by
  induction l with
  | nil => trivial
  | cons i l ih =>
    refine ⟨?_, ih h.2 fun j hj => heq j (List.mem_cons_of_mem _ hj)⟩
    rw [heq i List.mem_cons_self]
    exact h.1

theorem FreeList.cell_eq {pool pool' : ι → Cell ι γ} {dflt : γ} {l : List ι}
    (h : FreeList pool dflt l) (h' : FreeList pool' dflt l) {i : ι} (hi : i ∈ l) :
    pool i = pool' i := by
  induction l with
  | nil => cases hi
  | cons j l ih =>
    cases hi with
    | head => exact h.1.trans h'.1.symm
    | tail _ hi => exact ih h.2 h'.2 hi

/-! ## Paths -/

variable [DecidableEq κ] (key : γ → κ)

def look : LinkTree ι γ → List κ → Option (ι × γ)
  | nil, _ => none
  | node .., [] => none
  | node i c h n, k :: ks =>
    if key c = k then if ks = [] then some (i, c) else look h ks else look n (k :: ks)

/-- The outcome of a search: a cell at a place, or a place and the keys that are missing there. -/
inductive Search (ι κ γ : Type) where
  | found (fs : List (Frame ι γ)) (i : ι) (c : γ) (h n : LinkTree ι γ)
  | missing (fs : List (Frame ι γ)) (ks : List κ)

/-- Along a row until the key matches, then down. -/
def search : List (Frame ι γ) → LinkTree ι γ → List κ → Search ι κ γ
  | fs, nil, ks => .missing fs ks
  | fs, node .., [] => .missing fs []
  | fs, node i c h n, k :: ks =>
    if key c = k then
      if ks = [] then .found fs i c h n else search (.hier i c n :: fs) h ks
    else search (.nhbr i c h :: fs) n (k :: ks)

/-- `ch` where the path is missing. -/
def graft (ch : LinkTree ι γ) : LinkTree ι γ → List κ → LinkTree ι γ
  | nil, _ => ch
  | node i c h n, [] => node i c h n
  | node i c h n, k :: ks =>
    if key c = k then if ks = [] then node i c h n else node i c (graft ch h ks) n
    else node i c h (graft ch n (k :: ks))

/-- `f` applied to the value that the path selects. -/
def adjust (f : γ → γ) : LinkTree ι γ → List κ → LinkTree ι γ
  | nil, _ => nil
  | node i c h n, [] => node i c h n
  | node i c h n, k :: ks =>
    if key c = k then if ks = [] then node i (f c) h n else node i c (adjust f h ks) n
    else node i c h (adjust f n (k :: ks))

variable {key}

theorem search_found {t : LinkTree ι γ} {i : ι} {c : γ} {h n : LinkTree ι γ} :
    ∀ {fs fs' : List (Frame ι γ)} {ks : List κ}, search key fs t ks = .found fs' i c h n →
      plug fs' (node i c h n) = plug fs t ∧ look key t ks = some (i, c) ∧
        pathOf key fs' ++ [key c] = pathOf key fs ++ ks ∧
        ∀ f, plug fs' (node i (f c) h n) = plug fs (adjust key f t ks) := by
  induction t with
  | nil => exact nofun
  | node j d h' n' ihh ihn =>
    intro fs fs' ks hs
    cases ks with
    | nil => cases hs
    | cons k ks =>
      unfold search at hs
      unfold look adjust
      by_cases hk : key d = k
      · rw [if_pos hk] at hs
        simp only [if_pos hk]
        by_cases hks : ks = []
        · rw [if_pos hks] at hs
          simp only [if_pos hks]
          cases hs
          exact ⟨rfl, rfl, by rw [hk, hks], fun _ => rfl⟩
        · rw [if_neg hks] at hs
          simp only [if_neg hks]
          obtain ⟨hp, hl, hpath, hadj⟩ := ihh hs
          refine ⟨hp, hl, ?_, hadj⟩
          rw [hpath, pathOf, hk, List.append_assoc, List.singleton_append]
      · rw [if_neg hk] at hs
        simp only [if_neg hk]
        exact ihn hs

theorem search_missing {t : LinkTree ι γ} :
    ∀ {fs fs' : List (Frame ι γ)} {ks rest : List κ}, search key fs t ks = .missing fs' rest →
      ks ≠ [] → plug fs' nil = plug fs t ∧ look key t ks = none ∧ rest ≠ [] ∧
        pathOf key fs' ++ rest = pathOf key fs ++ ks ∧
        ∀ ch, plug fs' ch = plug fs (graft key ch t ks) := by
  induction t with
  | nil =>
    intro fs fs' ks rest hs hne
    cases hs
    exact ⟨rfl, rfl, hne, rfl, fun _ => rfl⟩
  | node j d h' n' ihh ihn =>
    intro fs fs' ks rest hs hne
    cases ks with
    | nil => exact absurd rfl hne
    | cons k ks =>
      unfold search at hs
      unfold look graft
      by_cases hk : key d = k
      · rw [if_pos hk] at hs
        simp only [if_pos hk]
        by_cases hks : ks = []
        · rw [if_pos hks] at hs
          cases hs
        · rw [if_neg hks] at hs
          simp only [if_neg hks]
          obtain ⟨hp, hl, hrest, hpath, hg⟩ := ihh hs hks
          refine ⟨hp, hl, hrest, ?_, hg⟩
          rw [hpath, pathOf, hk, List.append_assoc, List.singleton_append]
      · rw [if_neg hk] at hs
        simp only [if_neg hk]
        exact ihn hs (List.cons_ne_nil k ks)

theorem search_cons {k : κ} {ks : List κ} (hks : ks ≠ []) (t : LinkTree ι γ) :
    ∀ fs, search key fs t (k :: ks) = match search key fs t [k] with
      | .found fs' i c h n => search key (.hier i c n :: fs') h ks
      | .missing fs' _ => .missing fs' (k :: ks) := by
  induction t with
  | nil => exact fun _ => rfl
  | node i c h n _ ihn =>
    intro fs
    rw [search, search]
    by_cases hk : key c = k
    · rw [if_pos hk, if_pos hk, if_neg hks, if_pos rfl]
    · rw [if_neg hk, if_neg hk]
      exact ihn _

theorem search_one_missing {k : κ} {t : LinkTree ι γ} :
    ∀ {fs fs' : List (Frame ι γ)} {ks : List κ}, search key fs t [k] = .missing fs' ks →
      ks = [k] := by
  induction t with
  | nil =>
    intro fs fs' ks hs
    cases hs
    rfl
  | node i c h n _ ihn =>
    intro fs fs' ks hs
    rw [search] at hs
    by_cases hk : key c = k
    · rw [if_pos hk, if_pos rfl] at hs
      cases hs
    · rw [if_neg hk] at hs
      exact ihn hs

theorem search_found_length {t : LinkTree ι γ} {i : ι} {c : γ} {h n : LinkTree ι γ} :
    ∀ {fs fs' : List (Frame ι γ)} {ks : List κ}, search key fs t ks = .found fs' i c h n →
      (ids h).length < (ids t).length := by
  induction t with
  | nil => exact nofun
  | node j d h' n' ihh ihn =>
    intro fs fs' ks hs
    rw [ids, List.length_cons, List.length_append]
    cases ks with
    | nil => cases hs
    | cons k ks =>
      rw [search] at hs
      split_ifs at hs with hk hks
      · cases hs
        omega
      · have := ihh hs
        omega
      · have := ihn hs
        omega

theorem look_nil_path (t : LinkTree ι γ) : look key t [] = none := by
  cases t <;> rfl

theorem look_adjust (f : γ → γ) (hf : ∀ c, key (f c) = key c) {t : LinkTree ι γ} :
    ∀ {ks : List κ} (q : List κ), ks ≠ [] → look key (adjust key f t ks) q =
      if q = ks then (look key t q).map (fun p => (p.1, f p.2)) else look key t q := by
  induction t with
  | nil => exact fun q _ => by simp [adjust, look]
  | node j d h n ihh ihn =>
    intro ks q hne
    obtain ⟨k, ks, rfl⟩ := List.exists_cons_of_ne_nil hne
    cases q with
    | nil => rw [look_nil_path, look_nil_path, Option.map_none, ite_self]
    | cons k' q =>
      unfold adjust
      by_cases hk : key d = k
      · rw [if_pos hk]
        by_cases hks : ks = []
        · subst hks
          rw [if_pos rfl]
          simp only [look, hf, hk, List.cons.injEq]
          by_cases hkk : k = k'
          · by_cases hq : q = []
            · simp [hkk, hq]
            · simp [hkk, hq]
          · simp [hkk, Ne.symm hkk]
        · rw [if_neg hks]
          simp only [look, hk, List.cons.injEq]
          by_cases hkk : k = k'
          · by_cases hq : q = []
            · simp [hkk, hq, Ne.symm hks]
            · simp only [hkk, hq, if_true, if_false, true_and]
              exact ihh q hks
          · simp [hkk, Ne.symm hkk]
      · rw [if_neg hk]
        simp only [look]
        by_cases hkk : key d = k'
        · have hne' : ¬ (k' = k ∧ q = ks) := fun h => hk (hkk.trans h.1)
          simp only [hkk, if_true, List.cons.injEq, hne', if_false]
        · simp only [hkk, if_false]
          exact ihn (k' :: q) (List.cons_ne_nil k ks)

/-- What a path selects, after a tree has been put where another path is missing: below the first
missing key, what is in that tree; elsewhere, what it was. -/
theorem look_graft {t : LinkTree ι γ} :
    ∀ {fs fs' : List (Frame ι γ)} {ks : List κ} {k : κ} {rest : List κ},
      search key fs t ks = .missing fs' (k :: rest) → ks ≠ [] →
      ∃ pre, ks = pre ++ k :: rest ∧ (∀ q, pre ++ [k] <+: q → look key t q = none) ∧
        ∀ ch, (∀ q p, look key ch q = some p → q.head? = some k) →
          ∀ q, look key (graft key ch t ks) q =
            if pre ++ [k] <+: q then look key ch (q.drop pre.length) else look key t q := by
  induction t with
  | nil =>
    intro fs fs' ks k rest hs _
    cases hs
    refine ⟨[], rfl, fun q _ => rfl, fun ch hch q => ?_⟩
    rw [List.nil_append]
    by_cases hq : [k] <+: q
    · rw [if_pos hq]
      rfl
    · rw [if_neg hq]
      cases hl : look key ch q with
      | none => exact hl
      | some p =>
        obtain ⟨q', rfl⟩ := List.head?_eq_some_iff.mp (hch q p hl)
        exact absurd ⟨q', rfl⟩ hq
  | node j d h n ihh ihn =>
    intro fs fs' ks k rest hs hne
    obtain ⟨k₀, ks, rfl⟩ := List.exists_cons_of_ne_nil hne
    unfold search at hs
    unfold graft
    by_cases hk : key d = k₀
    · rw [if_pos hk] at hs
      by_cases hks : ks = []
      · rw [if_pos hks] at hs
        cases hs
      · rw [if_neg hks] at hs
        obtain ⟨pre, hpre, hnone, hlook⟩ := ihh hs hks
        subst hk
        refine ⟨key d :: pre, by rw [hpre, List.cons_append], fun q hq => ?_, fun ch hch q => ?_⟩
        · obtain ⟨q', rfl⟩ := hq
          have hne' : pre ++ [k] ++ q' ≠ [] := by simp
          simp only [List.cons_append, look, if_true, hne', if_false]
          exact hnone _ ⟨q', rfl⟩
        · rw [if_pos rfl, if_neg hks]
          cases q with
          | nil => rw [look_nil_path, look_nil_path, if_neg (by simp)]
          | cons k₁ q =>
            simp only [look, List.cons_append, List.cons_prefix_cons, List.length_cons,
              List.drop_succ_cons]
            by_cases hkk : key d = k₁
            · by_cases hq : q = []
              · subst hq
                simp [hkk]
              · simp only [hkk, if_true, hq, if_false, true_and]
                exact hlook ch hch q
            · simp only [hkk, if_false, false_and]
    · rw [if_neg hk] at hs
      obtain ⟨pre, hpre, hnone, hlook⟩ := ihn hs hne
      have hhead : ∀ {k₁ : κ} {q : List κ}, pre ++ [k] <+: k₁ :: q → k₁ = k₀ := by
        intro k₁ q hq
        cases pre with
        | nil => exact (List.cons_prefix_cons.mp hq).1.symm.trans (List.cons.inj hpre).1.symm
        | cons k₂ pre => exact (List.cons_prefix_cons.mp hq).1.symm.trans (List.cons.inj hpre).1.symm
      refine ⟨pre, hpre, fun q hq => ?_, fun ch hch q => ?_⟩
      · cases q with
        | nil => rfl
        | cons k₁ q =>
          rw [look, if_neg (by rw [hhead hq]; exact hk)]
          exact hnone _ hq
      · rw [if_neg hk]
        cases q with
        | nil => rw [look_nil_path, look_nil_path, if_neg (by simp)]
        | cons k₁ q =>
          simp only [look]
          by_cases hkk : key d = k₁
          · rw [if_pos hkk, if_pos hkk, if_neg fun hq => hk (hkk.trans (hhead hq))]
          · rw [if_neg hkk, if_neg hkk]
            exact hlook ch hch _

/-! ## Chains -/

def chain : List (ι × γ) → LinkTree ι γ
  | [] => nil
  | (i, c) :: l => node i c (chain l) nil

theorem ids_chain (l : List (ι × γ)) : ids (chain l) = l.map Prod.fst := by
  induction l with
  | nil => rfl
  | cons p l ih => rw [chain, ids, ih, ids, List.append_nil, List.map_cons]

theorem vals_chain (l : List (ι × γ)) : vals (chain l) = l.map Prod.snd := by
  induction l with
  | nil => rfl
  | cons p l ih => rw [chain, vals, ih, vals, List.append_nil, List.map_cons]

theorem look_chain_self {l : List (ι × γ)} (hl : l ≠ []) :
    look key (chain l) (l.map fun p => key p.2) = l.getLast? := by
  induction l with
  | nil => exact absurd rfl hl
  | cons p l ih =>
    rw [List.map_cons, chain, look, if_pos rfl]
    by_cases hnil : l = []
    · rw [hnil]
      rfl
    · rw [if_neg (by simpa using hnil), ih hnil, List.getLast?_cons_of_ne_nil hnil]

theorem look_chain {l : List (ι × γ)} :
    ∀ {q : List κ} {p : ι × γ}, look key (chain l) q = some p →
      q ≠ [] ∧ q <+: (l.map fun p => key p.2) ∧ p ∈ l := by
  induction l with
  | nil => exact nofun
  | cons p₀ l ih =>
    intro q p hq
    cases q with
    | nil => cases hq
    | cons k q =>
      rw [chain, look] at hq
      refine ⟨List.cons_ne_nil k q, ?_⟩
      by_cases hk : key p₀.2 = k
      · rw [if_pos hk] at hq
        rw [List.map_cons, List.cons_prefix_cons]
        by_cases hnil : q = []
        · rw [if_pos hnil] at hq
          cases hq
          exact ⟨⟨hk.symm, hnil ▸ List.nil_prefix⟩, List.mem_cons_self⟩
        · rw [if_neg hnil] at hq
          obtain ⟨-, hpre, hmem⟩ := ih hq
          exact ⟨⟨hk.symm, hpre⟩, List.mem_cons_of_mem _ hmem⟩
      · rw [if_neg hk] at hq
        cases hq

/-- A chain put where a path is missing: the path selects its last cell, nothing that was selected
changes, only what begins the path is selected anew, and that is in the chain. -/
theorem look_plug_chain {t : LinkTree ι γ} {fs : List (Frame ι γ)} {ks : List κ}
    {l : List (ι × γ)} (hs : search key [] t ks = .missing fs (l.map fun p => key p.2))
    (hks : ks ≠ []) :
    look key (plug fs (chain l)) ks = l.getLast? ∧
      (∀ q p, look key t q = some p → look key (plug fs (chain l)) q = some p) ∧
      (∀ q, ¬ q <+: ks → look key (plug fs (chain l)) q = look key t q) ∧
      ∀ q p, look key (plug fs (chain l)) q = some p → look key t q = some p ∨ p ∈ l := by
  obtain ⟨-, -, hne, -, hgraft⟩ := search_missing hs hks
  rw [hgraft, plug]
  cases l with
  | nil => exact absurd rfl hne
  | cons p l =>
    obtain ⟨pre, hpre, hnone, hlook⟩ := look_graft hs hks
    have hch : ∀ q p', look key (chain (p :: l)) q = some p' → q.head? = some (key p.2) := by
      intro q p' hq
      obtain ⟨hq, ⟨r, hr⟩, -⟩ := look_chain hq
      obtain ⟨k, q, rfl⟩ := List.exists_cons_of_ne_nil hq
      rw [(List.cons.inj hr).1]
      rfl
    refine ⟨?_, fun q p' hq => ?_, fun q hq => ?_, fun q p' hq => ?_⟩
    · have hself : look key (chain (p :: l)) ((p :: l).map fun p => key p.2) = (p :: l).getLast? :=
        look_chain_self (List.cons_ne_nil p l)
      rw [hlook _ hch, if_pos, hpre, List.drop_left, ← hself]
      · rfl
      · rw [hpre]
        exact ⟨l.map fun p => key p.2, by simp⟩
    · have hout : ¬ pre ++ [key p.2] <+: q := fun h => nomatch hq.symm.trans (hnone q h)
      rw [hlook _ hch, if_neg hout, hq]
    · rw [hlook _ hch]
      split_ifs with h
      · rw [hnone q h]
        cases hc : look key (chain (p :: l)) (q.drop pre.length) with
        | none => rfl
        | some p' =>
          obtain ⟨r, rfl⟩ := h
          rw [List.append_assoc, List.drop_left] at hc
          refine absurd ?_ hq
          rw [hpre, List.append_assoc]
          exact (List.prefix_append_right_inj pre).mpr (look_chain hc).2.1
      · rfl
    · rw [hlook _ hch] at hq
      split_ifs at hq
      · exact .inr (look_chain hq).2.2
      · exact .inl hq

theorem mem_ids_of_look {t : LinkTree ι γ} {i : ι} {c : γ} :
    ∀ {q : List κ}, look key t q = some (i, c) → i ∈ ids t := by
  induction t with
  | nil => exact nofun
  | node j d h n ihh ihn =>
    intro q hq
    cases q with
    | nil => cases hq
    | cons k q =>
      rw [look] at hq
      split_ifs at hq with hk hnil
      · cases hq
        exact List.mem_cons_self
      · exact List.mem_cons_of_mem _ (List.mem_append_left _ (ihh hq))
      · exact List.mem_cons_of_mem _ (List.mem_append_right _ (ihn hq))

theorem look_inj {t : LinkTree ι γ} {i : ι} {c c' : γ} (hnd : (ids t).Nodup) :
    ∀ {q q' : List κ}, look key t q = some (i, c) → look key t q' = some (i, c') → q = q' := by
  induction t with
  | nil => exact nofun
  | node j d h n ihh ihn =>
    intro q q' hq hq'
    obtain ⟨hj, hnd⟩ := List.nodup_cons.mp hnd
    have hdisj := List.disjoint_of_nodup_append hnd
    rw [List.mem_append, not_or] at hj
    cases q with
    | nil => cases hq
    | cons k q =>
      cases q' with
      | nil => cases hq'
      | cons k' q' =>
        rw [look] at hq hq'
        split_ifs at hq hq' with hk hnil hk' hnil' hk' hnil' hk' hnil'
        · rw [← hk, ← hk', hnil, hnil']
        · cases hq
          exact absurd (mem_ids_of_look hq') hj.1
        · cases hq
          exact absurd (mem_ids_of_look hq') hj.2
        · cases hq'
          exact absurd (mem_ids_of_look hq) hj.1
        · rw [← hk, ← hk', ihh hnd.of_append_left hq hq']
        · exact absurd (mem_ids_of_look hq') (hdisj (mem_ids_of_look hq))
        · cases hq'
          exact absurd (mem_ids_of_look hq) hj.2
        · exact absurd (mem_ids_of_look hq) (hdisj (mem_ids_of_look hq'))
        · exact ihn hnd.of_append_right hq hq'

/-! ## Useless cells -/

/-- The cell at a place is taken off if it is useless and has nothing below and after, and so on
from the frame it was in; what is taken off goes to the free cells. -/
def prune (useless : γ → Bool) : List (Frame ι γ) → LinkTree ι γ → List ι → LinkTree ι γ × List ι
  | [], node i c nil nil, free => if useless c then (nil, i :: free) else (node i c nil nil, free)
  | f :: fs, node i c nil nil, free =>
    if useless c then prune useless fs (plug [f] nil) (i :: free)
    else (plug (f :: fs) (node i c nil nil), free)
  | fs, t, free => (plug fs t, free)

theorem prune_stop (useless : γ → Bool) (fs : List (Frame ι γ)) {i : ι} {c : γ}
    {h n : LinkTree ι γ} (free : List ι) (hstop : useless c = true → h = nil → n ≠ nil) :
    prune useless fs (node i c h n) free = (plug fs (node i c h n), free) := by
  cases h with
  | node => cases fs <;> rfl
  | nil =>
    cases n with
    | node => cases fs <;> rfl
    | nil =>
      have hc : ¬ useless c = true := fun hc => hstop hc rfl rfl
      cases fs with
      | nil => rw [prune, if_neg hc, plug]
      | cons f fs => rw [prune, if_neg hc]

theorem prune_top {useless : γ → Bool} {c : γ} (hc : useless c = true) (i : ι) (free : List ι) :
    prune useless [] (node i c nil nil) free = (nil, i :: free) := by
  rw [prune, if_pos hc]

theorem prune_cons {useless : γ → Bool} {c : γ} (hc : useless c = true) (f : Frame ι γ)
    (fs : List (Frame ι γ)) (i : ι) (free : List ι) :
    prune useless (f :: fs) (node i c nil nil) free =
      prune useless fs (plug [f] nil) (i :: free) := by
  rw [prune, if_pos hc]

def spine (l : List (ι × γ)) : List (Frame ι γ) := l.map fun p => .hier p.1 p.2 nil

theorem plug_spine (l l' : List (ι × γ)) : plug (spine l) (chain l') = chain (l.reverse ++ l') := by
  induction l generalizing l' with
  | nil => rfl
  | cons p l ih =>
    rw [List.reverse_cons, List.append_assoc, List.singleton_append]
    exact ih (p :: l')

theorem prune_spine {useless : γ → Bool} : ∀ {l : List (ι × γ)} {i : ι} {c : γ} {free : List ι},
    useless c = true → (∀ p ∈ l, useless p.2 = true) →
      prune useless (spine l) (node i c nil nil) free =
        (nil, (l.map Prod.fst).reverse ++ i :: free) := by
  intro l
  induction l with
  | nil => exact fun hc _ => prune_top hc _ _
  | cons p l ih =>
    intro i c free hc hl
    rw [List.map_cons, List.reverse_cons, List.append_assoc]
    exact (prune_cons hc _ _ _ _).trans
      (ih (hl p List.mem_cons_self) fun p' hp' => hl p' (List.mem_cons_of_mem _ hp'))

theorem prune_perm (useless : γ → Bool) (fs : List (Frame ι γ)) (t : LinkTree ι γ) (free : List ι) :
    List.Perm (ids (prune useless fs t free).1 ++ (prune useless fs t free).2)
      (ids (plug fs t) ++ free) := by
  fun_induction prune useless fs t free with
  | case1 => exact List.perm_middle
  | case2 => exact List.Perm.refl _
  | case3 f fs i c free hc ih =>
    refine ih.trans (List.perm_middle.trans ?_)
    refine List.Perm.append_right free (?_ : List.Perm (i :: ids (plug fs (plug [f] nil))) _)
    refine (((ids_plug fs _).trans ?_).cons i).trans (ids_plug (f :: fs) (node i c nil nil)).symm
    cases f <;> simp [plug, ids, frameIds]
  | case4 => exact List.Perm.refl _
  | case5 => exact List.Perm.refl _

theorem look_plug {R : Option (ι × γ) → Option (ι × γ) → Prop} (hR : ∀ a, R a a)
    (fs : List (Frame ι γ)) :
    ∀ {t t' : LinkTree ι γ}, (∀ q, R (look key t q) (look key t' q)) →
      ∀ q, R (look key (plug fs t) q) (look key (plug fs t') q) := by
  induction fs with
  | nil => exact fun h => h
  | cons f fs ih =>
    intro t t' h
    cases f with
    | hier i c n =>
      refine ih fun q => ?_
      cases q with
      | nil => exact hR _
      | cons k q =>
        simp only [look]
        split_ifs
        · exact hR _
        · exact h q
        · exact hR _
    | nhbr i c n =>
      refine ih fun q => ?_
      cases q with
      | nil => exact hR _
      | cons k q =>
        simp only [look]
        split_ifs
        · exact hR _
        · exact hR _
        · exact h _

theorem look_prune (useless : γ → Bool) (fs : List (Frame ι γ)) (t : LinkTree ι γ) (free : List ι)
    (q : List κ) :
    (look key (prune useless fs t free).1 q).filter (!useless ·.2) =
      (look key (plug fs t) q).filter (!useless ·.2) := by
  have hleaf : ∀ {i : ι} {c : γ}, useless c = true → ∀ q : List κ,
      (look key nil q).filter (!useless ·.2) =
        (look key (node i c nil nil) q).filter (!useless ·.2) := by
    intro i c hc q
    cases q with
    | nil => rfl
    | cons k q =>
      simp only [look]
      split_ifs
      · rw [Option.filter_some_neg (by simp [hc])]
        rfl
      · rfl
      · rfl
  fun_induction prune useless fs t free with
  | case1 i c free hc => exact hleaf hc q
  | case2 => rfl
  | case3 f fs i c free hc ih =>
    rw [ih, ← plug_cons]
    exact look_plug (R := fun a b => a.filter (!useless ·.2) = b.filter (!useless ·.2))
      (fun _ => rfl) (f :: fs) (hleaf hc) q
  | case4 => rfl
  | case5 => rfl

end LinkTree

end SimpleLink.Lib
