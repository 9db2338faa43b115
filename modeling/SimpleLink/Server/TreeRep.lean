import SimpleLink.Server.Levels

/-!
# What the pool holds (`server_core.c`)

The nodes reached from a root are a `LinkTree`, the free ones a list: `Parts`.
Each operation on the links is one on the tree and the list. A search is that of
the levels of the topic; `node_delete` takes a cell off its place, and
`try_node_delete` is `prune`; `hier_nodes_create` makes a chain of free cells or
puts back those that it took.
-/

namespace SimpleLink.Server

open Lib LinkTree

abbrev Tree := LinkTree NodeIdx NodeData

abbrev Place := List (Frame NodeIdx NodeData)

/-- A tree of the pool and the free nodes. -/
structure Parts (σ : TopicTree) (t : Tree) (free : List NodeIdx) : Prop where
  rep : Rep σ.nodes none none t
  freeList : FreeList σ.nodes nodeReset free
  head : σ.freeNodes = free.head?
  nodup : (ids t ++ free).Nodup

def Leveled (t : Tree) : Prop :=
  ∀ c ∈ vals t, IsLevel c.subtop ∧ FitsIn (maxSubtopLen - 1) c.subtop

theorem length_le_maxTopNodes {l : List NodeIdx} (h : l.Nodup) : l.length ≤ maxTopNodes := by
  simpa using h.length_le_card

theorem Parts.length_le {σ : TopicTree} {t : Tree} {free : List NodeIdx} (h : Parts σ t free) :
    (ids t).length + free.length ≤ maxTopNodes := by
  rw [← List.length_append]
  exact length_le_maxTopNodes h.nodup

theorem length_ids_plug (fs : Place) (t : Tree) :
    (ids (plug fs t)).length = (ids t).length + (frameIds fs).length := by
  rw [(ids_plug fs t).length_eq, List.length_append]

/-! ## Search -/

section Search

variable {nodes : NodeIdx → TopicNode} {s : List UInt8}

theorem subtopNhbrNodeFind_eq {t : Tree} : ∀ {fs : Place} {fuel : Nat},
    Rep nodes none none (plug fs t) → Leveled (plug fs t) → (ids t).length ≤ fuel →
      subtopNhbrNodeFind nodes s fuel (root t) =
        some (match search (·.subtop) fs t [(firstLevel s).1] with
          | .found _ i .. => some (i, (firstLevel s).2)
          | .missing .. => none) := by
  induction t with
  | nil =>
    intro fs fuel _ _ _
    cases fuel <;> rfl
  | node i c h n _ ihn =>
    intro fs fuel hrep hlev hfuel
    have hcell := ((rep_plug fs _).mp hrep).1.1
    have hl : IsLevel c.subtop :=
      (hlev c ((mem_vals_plug fs _).mpr (.inl List.mem_cons_self))).1
    rw [ids, List.length_cons, List.length_append] at hfuel
    cases fuel with
    | zero => omega
    | succ fuel =>
      rw [root, subtopNhbrNodeFind, hcell, isFirstSubtop_eq hl, LinkTree.search]
      by_cases hk : c.subtop = (firstLevel s).1
      · rw [if_pos hk.symm, if_pos hk, if_pos rfl]
      · rw [if_neg (Ne.symm hk), if_neg hk]
        have hrep' : Rep nodes none none (plug (.nhbr i c h :: fs) n) := hrep
        exact ihn hrep' hlev (by omega)

theorem lastNhbr_eq {t : Tree} {k : List UInt8} : ∀ {fs fs' : Place} {ks : List (List UInt8)}
    {fuel : Nat} {r : NodeIdx}, root t = some r →
      search (·.subtop) fs t [k] = .missing fs' ks → (ids t).length ≤ fuel →
      ∃ j d h fs'', fs' = .nhbr j d h :: fs'' ∧
        ∀ nodes, Rep nodes none none (plug fs t) → lastNhbr nodes fuel r = some j := by
  induction t with
  | nil => exact fun hr => nomatch hr
  | node i c h n _ ihn =>
    intro fs fs' ks fuel r hr hs hfuel
    cases hr
    rw [ids, List.length_cons, List.length_append] at hfuel
    rw [LinkTree.search] at hs
    by_cases hk : c.subtop = k
    · rw [if_pos hk, if_pos rfl] at hs
      cases hs
    · rw [if_neg hk] at hs
      cases fuel with
      | zero => omega
      | succ fuel =>
        cases n with
        | nil =>
          cases hs
          refine ⟨i, c, h, fs, rfl, fun nodes hrep => ?_⟩
          rw [lastNhbr, ((rep_plug fs _).mp hrep).1.1]
          rfl
        | node j d h' n' =>
          obtain ⟨j', d', h'', fs'', rfl, hlast⟩ :=
            @ihn (.nhbr i c h :: fs) fs' ks fuel j rfl hs (by omega)
          refine ⟨j', d', h'', fs'', rfl, fun nodes hrep => ?_⟩
          rw [lastNhbr, ((rep_plug fs _).mp hrep).1.1]
          exact hlast nodes hrep

/-- Where `base` and `flag_nh` say that the new nodes go. -/
def Attach (t : Tree) (base : Option NodeIdx) (flagNh : Bool) : Place → Prop
  | [] => base = none
  | .nhbr j .. :: _ => ∃ r, base = some r ∧ flagNh = true ∧
    ∀ nodes, Rep nodes none none t → lastNhbr nodes loopBound r = some j
  | .hier i .. :: _ => base = some i ∧ flagNh = false

/-- `lowest_node_find` is the search for the levels of the topic. -/
def LowestIs (t : Tree) (low : Option Lowest) :
    Search NodeIdx (List UInt8) NodeData → Prop
  | .found _ i .. => ∃ flagNh, low = some ⟨some i, flagNh, none⟩
  | .missing fs ks => ∃ base flagNh rest,
      low = some ⟨base, flagNh, some rest⟩ ∧ levels rest = ks ∧ Attach t base flagNh fs

theorem lowestLoop_is (fuel : Nat) : ∀ {t : Tree} {fs : Place} {node : Option NodeIdx}
    {s : List UInt8}, Rep nodes none none (plug fs t) → Leveled (plug fs t) →
      (ids (plug fs t)).length ≤ maxTopNodes → (ids t).length ≤ fuel →
      node = upHier fs → upNhbr fs = none →
      LowestIs (plug fs t) (lowestLoop nodes fuel node (root t) s)
        (search (·.subtop) fs t (levels s)) := by
  induction fuel with
  | zero =>
    intro t fs node s hrep _ _ hfuel hnode hup
    cases t with
    | nil =>
      refine ⟨node, false, s, rfl, rfl, ?_⟩
      cases fs with
      | nil => exact hnode
      | cons f fs =>
        cases f with
        | hier => exact ⟨hnode, rfl⟩
        | nhbr => cases hup
    | node i c h n =>
      rw [ids, List.length_cons] at hfuel
      omega
  | succ fuel ih =>
    intro t fs node s hrep hlev hmax hfuel hnode hup
    cases ht : root t with
    | none =>
      rw [root_eq_none.mp ht, LinkTree.search]
      refine ⟨node, false, s, rfl, rfl, ?_⟩
      cases fs with
      | nil => exact hnode
      | cons f fs =>
        cases f with
        | hier => exact ⟨hnode, rfl⟩
        | nhbr => cases hup
    | some r =>
      have hbound : (ids t).length ≤ loopBound := by
        have := length_ids_plug fs t
        exact Nat.le_succ_of_le (by omega)
      have hrow := subtopNhbrNodeFind_eq (s := s) hrep hlev hbound
      rw [ht] at hrow
      rw [lowestLoop, hrow]
      cases hsrch : search (·.subtop) fs t [(firstLevel s).1] with
      | missing fs' ks =>
        have hrest : search (·.subtop) fs t (levels s) = .missing fs' (levels s) := by
          rw [levels_eq]
          by_cases hnext : nextLevels (firstLevel s).2 = []
          · rw [hnext, hsrch, search_one_missing hsrch]
          · rw [search_cons hnext, hsrch]
        rw [hrest]
        obtain ⟨j, d, h, fs'', rfl, hlast⟩ := lastNhbr_eq ht hsrch hbound
        exact ⟨some r, true, s, rfl, rfl, r, rfl, rfl, hlast⟩
      | found fs' i c h n =>
        have hplug := (search_found hsrch).1
        cases hnext : (firstLevel s).2 with
        | none =>
          rw [levels_eq, hnext, nextLevels, hsrch]
          exact ⟨false, rfl⟩
        | some s' =>
          have hcell := ((rep_plug fs' (.node i c h n)).mp (hplug ▸ hrep)).1.1
          have hless := search_found_length hsrch
          rw [levels_eq, hnext, nextLevels, search_cons (levels_ne_nil s'), hsrch]
          dsimp only
          rw [hcell, ← hplug]
          refine @ih h (.hier i c n :: fs') (some i) s' ?_ ?_ ?_ ?_ rfl rfl
          · exact hplug ▸ hrep
          · exact hplug ▸ hlev
          · exact hplug ▸ hmax
          · omega

end Search

/-! ## Deletion -/

section Delete

variable {σ : TopicTree} {fs : Place} {free : List NodeIdx} {i : NodeIdx} {c : NodeData}

theorem Parts.cell {h n : Tree} (hp : Parts σ (plug fs (.node i c h n)) free) :
    σ.nodes i = ⟨⟨root n, upNhbr fs, root h, upHier fs⟩, c⟩ :=
  ((rep_plug fs _).mp hp.rep).1.1

theorem Parts.frames {t : Tree} (hp : Parts σ (plug fs t) free) : RepFrames σ.nodes (root t) fs :=
  ((rep_plug fs _).mp hp.rep).2

theorem Parts.nodup_plug {t : Tree} (hp : Parts σ (plug fs t) free) :
    (ids t ++ frameIds fs ++ free).Nodup :=
  (((ids_plug fs t).append_right free).nodup_iff).mp hp.nodup

theorem nodeDelete_eq (hp : Parts σ (plug fs (.node i c .nil .nil)) free) :
    nodeDelete σ i = (frameRoot fs,
      ⟨Function.update (relink σ.nodes fs none) i ⟨⟨σ.freeNodes, none, none, none⟩, nodeReset⟩,
        some i, if fs = [] then none else σ.rootNode⟩) := by
  have hcell := hp.cell
  unfold nodeDelete
  rw [hcell]
  cases fs with
  | nil => rfl
  | cons f fs =>
    cases f with
    | hier j d n => rfl
    | nhbr j d h => rfl

theorem nodeDelete_stop {h n : Tree} (hp : Parts σ (plug fs (.node i c h n)) free)
    (hstop : h = .nil → n ≠ .nil) : nodeDelete σ i = (none, σ) := by
  have hcell := hp.cell
  have hcan : canDeleteNode (σ.nodes i) = false := by
    rw [hcell]
    cases h with
    | node => simp [canDeleteNode, root]
    | nil =>
      cases n with
      | node => simp [canDeleteNode, root]
      | nil => exact absurd rfl (hstop rfl)
  rw [nodeDelete, hcan]
  rfl

theorem Parts.delete (hp : Parts σ (plug fs (.node i c .nil .nil)) free) :
    Parts (nodeDelete σ i).2 (plug fs .nil) (i :: free) := by
  have hnd := hp.nodup_plug
  simp only [ids, List.append_nil, List.cons_append, List.nil_append, List.nodup_cons] at hnd
  obtain ⟨hi, hnd⟩ := hnd
  rw [nodeDelete_eq hp]
  have hother : ∀ j ∈ frameIds fs ++ free, Function.update (relink σ.nodes fs none) i
      ⟨⟨σ.freeNodes, none, none, none⟩, nodeReset⟩ j = relink σ.nodes fs none j :=
    fun j hj => Function.update_of_ne (ne_of_mem_of_not_mem hj hi) _ _
  constructor
  · refine (rep_plug fs .nil).mpr ⟨trivial, ?_⟩
    refine (hp.frames.relink hnd.of_append_left none).congr fun j hj => ?_
    exact hother j (List.mem_append_left _ hj)
  · refine ⟨?_, hp.freeList.congr fun j hj => ?_⟩
    · dsimp only
      rw [Function.update_self, hp.head]
    · refine (hother j (List.mem_append_right _ hj)).trans (relink_other _ _ ?_)
      exact fun hj' => List.disjoint_of_nodup_append hnd hj' hj
  · rfl
  · refine (((ids_plug fs .nil).append_right (i :: free)).nodup_iff).mpr ?_
    rw [ids, List.nil_append]
    exact (List.perm_middle.nodup_iff).mpr (List.nodup_cons.mpr ⟨hi, hnd⟩)

theorem nodeDelete_other (hp : Parts σ (plug fs (.node i c .nil .nil)) free) {j : NodeIdx}
    (hj : j ∉ ids (plug fs (.node i c .nil .nil))) : (nodeDelete σ i).2.nodes j = σ.nodes j := by
  rw [(ids_plug fs _).mem_iff, List.mem_append, not_or] at hj
  rw [nodeDelete_eq hp]
  dsimp only
  rw [Function.update_of_ne (List.ne_of_not_mem_cons hj.1), relink_other _ _ hj.2]

/-- `try_node_delete` prunes. -/
theorem tryNodeDeleteLoop_prune (fuel : Nat) : ∀ {σ : TopicTree} {fs : Place} {t : Tree}
    {free : List NodeIdx} {i : NodeIdx}, Parts σ (plug fs t) free → root t = some i →
      (ids (plug fs t)).length ≤ fuel →
      ∃ σ', tryNodeDeleteLoop fuel σ (some i) = some σ' ∧
        Parts σ' (prune NodeData.useless fs t free).1 (prune NodeData.useless fs t free).2 ∧
        (∀ j ∉ ids (plug fs t), σ'.nodes j = σ.nodes j) ∧
        σ'.rootNode = if root (prune NodeData.useless fs t free).1 = none then none
          else σ.rootNode := by
  induction fuel with
  | zero =>
    intro σ fs t free i hp ht hfuel
    rw [length_ids_plug] at hfuel
    cases t with
    | nil => cases ht
    | node => simp [ids] at hfuel
  | succ fuel ih =>
    intro σ fs t free i hp ht hfuel
    cases t with
    | nil => cases ht
    | node i' c h n =>
      cases ht
      have hstay : root (plug fs (.node i c h n)) ≠ none :=
        root_plug_ne_none fs (Option.some_ne_none i)
      rw [tryNodeDeleteLoop, hp.cell]
      by_cases hc : c.useless = true
      · rw [if_pos hc]
        by_cases hleaf : h = .nil → n ≠ .nil
        · rw [nodeDelete_stop hp hleaf, prune_stop _ _ _ fun _ => hleaf]
          refine ⟨σ, ?_, hp, fun _ _ => rfl, (if_neg hstay).symm⟩
          cases fuel <;> rfl
        · rw [Classical.not_imp, not_not] at hleaf
          obtain ⟨rfl, rfl⟩ := hleaf
          have hdel := hp.delete
          have hoth := fun j => nodeDelete_other hp (j := j)
          have hlen : (ids (plug fs .nil)).length + 1 = (ids (plug fs (.node i c .nil .nil))).length := by
            rw [length_ids_plug, length_ids_plug]
            simp [ids]
            omega
          cases fs with
          | nil =>
            rw [prune_top hc]
            rw [nodeDelete_eq hp] at hdel hoth ⊢
            refine ⟨_, ?_, hdel, hoth, rfl⟩
            cases fuel <;> rfl
          | cons f fs =>
            obtain ⟨j, hj⟩ := frameRoot_cons f fs
            rw [prune_cons hc]
            rw [plug_cons f fs .nil] at hdel hlen
            obtain ⟨σ', hrun, hp', hoth', hroot⟩ :=
              ih hdel ((root_plug_one f .nil fs).trans hj) (by omega)
            refine ⟨σ', ?_, hp', fun k hk => ?_, ?_⟩
            · rw [nodeDelete_eq hp] at hrun ⊢
              exact hj ▸ hrun
            · refine (hoth' k fun hk' => hk ?_).trans (hoth k hk)
              rw [← plug_cons] at hk'
              exact mem_ids_plug_of_nil _ hk'
            · rw [hroot, nodeDelete_eq hp]
              rfl
      · rw [if_neg hc, prune_stop _ _ _ fun h => absurd h hc]
        exact ⟨σ, rfl, hp, fun _ _ => rfl, (if_neg hstay).symm⟩

end Delete

/-! ## Creation -/

section Create

variable {σ : TopicTree} {free : List NodeIdx}

def newNode (l : List UInt8) : NodeData := { nodeReset with subtop := l }

theorem newNode_useless (l : List UInt8) : (newNode l).useless = true := by
  rfl

theorem Parts.insert {fs : Place} {i : NodeIdx} (hp : Parts σ (plug fs .nil) (i :: free))
    (c : NodeData) (r : Option NodeIdx) :
    Parts ⟨Function.update (relink σ.nodes fs (some i)) i ⟨⟨none, upNhbr fs, none, upHier fs⟩, c⟩,
      free.head?, r⟩ (plug fs (.node i c .nil .nil)) free := by
  have hnd := hp.nodup_plug
  simp only [ids, List.nil_append] at hnd
  have hnd' := (List.perm_middle.nodup_iff).mp hnd
  obtain ⟨hi, hnd'⟩ := List.nodup_cons.mp hnd'
  have hother : ∀ j ∈ frameIds fs ++ free, Function.update (relink σ.nodes fs (some i)) i
      ⟨⟨none, upNhbr fs, none, upHier fs⟩, c⟩ j = relink σ.nodes fs (some i) j :=
    fun j hj => Function.update_of_ne (ne_of_mem_of_not_mem hj hi) _ _
  constructor
  · refine (rep_plug fs _).mpr ⟨⟨?_, trivial, trivial⟩, ?_⟩
    · exact Function.update_self ..
    · refine (hp.frames.relink hnd.of_append_left (some i)).congr fun j hj => ?_
      exact hother j (List.mem_append_left _ hj)
  · refine hp.freeList.2.congr fun j hj => ?_
    refine (hother j (List.mem_append_right _ hj)).trans (relink_other _ _ ?_)
    exact fun hj' => List.disjoint_of_nodup_append hnd' hj' hj
  · rfl
  · refine (((ids_plug fs _).append_right free).nodup_iff).mpr ?_
    exact List.nodup_cons.mpr ⟨hi, hnd'⟩

theorem allocTopicNode_some {i : NodeIdx} (hfree : FreeList σ.nodes nodeReset (i :: free))
    (hhead : σ.freeNodes = some i) : allocTopicNode σ = (some i,
      ⟨Function.update σ.nodes i ⟨⟨none, none, none, none⟩, nodeReset⟩, free.head?, σ.rootNode⟩) := by
  rw [allocTopicNode, hhead]
  dsimp only
  rw [hfree.1]
  rfl

theorem freeNode_alloc {i : NodeIdx} {c : TopicNode} (hfree : FreeList σ.nodes nodeReset (i :: free))
    (hhead : σ.freeNodes = some i) :
    freeNode ⟨Function.update σ.nodes i c, free.head?, σ.rootNode⟩ i = σ := by
  cases σ with
  | mk nodes freeNodes rootNode =>
    have hi : nodes i = ⟨⟨free.head?, none, none, none⟩, nodeReset⟩ := hfree.1
    have hhead : freeNodes = some i := hhead
    rw [freeNode, TopicTree.set, Function.update_idem, ← hi, Function.update_eq_self, hhead]

/-- `alloc_node_subtop` takes the first free node, unless there is none or nothing to read. -/
theorem allocNodeSubtop_none {s : List UInt8} (hfree : FreeList σ.nodes nodeReset free)
    (hhead : σ.freeNodes = free.head?) (h : free = [] ∨ s = []) :
    allocNodeSubtop σ s = (none, σ) := by
  cases free with
  | nil =>
    rw [allocNodeSubtop, allocTopicNode, hhead]
    rfl
  | cons i free =>
    obtain rfl := h.resolve_left (List.cons_ne_nil i free)
    rw [allocNodeSubtop, allocTopicNode_some hfree hhead]
    exact congrArg (Prod.mk none) (freeNode_alloc hfree hhead)

theorem subtopRead_ne_nil {s : List UInt8} (hs : s ≠ []) :
    (subtopRead s maxSubtopLen).1.length ≠ 0 := by
  by_cases hfits : FitsIn (maxSubtopLen - 1) (firstLevel s).1
  · rw [subtopRead_fits hfits, Ne, List.length_eq_zero_iff, firstLevel_eq_nil]
    exact hs
  · have := List.length_pos_of_ne_nil hs
    rw [subtopRead_long hfits, List.length_take]
    exact Nat.ne_of_gt (Nat.lt_min.mpr ⟨by decide, this⟩)

theorem allocNodeSubtop_some {s : List UInt8} {i : NodeIdx}
    (hfree : FreeList σ.nodes nodeReset (i :: free)) (hhead : σ.freeNodes = some i) (hs : s ≠ []) :
    allocNodeSubtop σ s = (some (i, (subtopRead s maxSubtopLen).2),
      ⟨Function.update σ.nodes i ⟨⟨none, none, none, none⟩, newNode (subtopRead s maxSubtopLen).1⟩,
        free.head?, σ.rootNode⟩) := by
  rw [allocNodeSubtop, allocTopicNode_some hfree hhead]
  dsimp only
  rw [if_neg (subtopRead_ne_nil hs), TopicTree.set, Function.update_idem, Function.update_self]
  rfl

/-- `base` and `prev`, for the cells built so far, the last one first. -/
def ends : List (NodeIdx × NodeData) → Option (NodeIdx × NodeIdx)
  | [] => none
  | p :: bs => some (((p :: bs).getLast (List.cons_ne_nil p bs)).1, p.1)

def newCells (free : List NodeIdx) (ls : List (List UInt8)) : List (NodeIdx × NodeData) :=
  free.zip (ls.map newNode)

theorem linkBelow_eq {nodes : NodeIdx → TopicNode} {f r : Option NodeIdx} {i j : NodeIdx}
    (hij : i ≠ j) (c : TopicNode) :
    ((⟨Function.update nodes i c, f, r⟩ : TopicTree).setDnHier j (some i)).setUpHier i (some j) =
      ⟨Function.update (Function.update nodes j { nodes j with dnHier := some i }) i
        { c with upHier := some j }, f, r⟩ := by
  unfold TopicTree.setUpHier TopicTree.setDnHier TopicTree.set
  dsimp only
  rw [Function.update_of_ne hij.symm, Function.update_comm hij, Function.update_idem,
    Function.update_self]

theorem hierNodesLoop_step {bs : List (NodeIdx × NodeData)} {i : NodeIdx} {s : List UInt8}
    (fuel : Nat) (hp : Parts σ (plug (spine bs) .nil) (i :: free)) (hs : s ≠ []) :
    ∃ σ', Parts σ' (plug (spine ((i, newNode (subtopRead s maxSubtopLen).1) :: bs)) .nil) free ∧
      (∀ j ∉ ids (plug (spine bs) .nil), j ≠ i → σ'.nodes j = σ.nodes j) ∧
      σ'.rootNode = σ.rootNode ∧ hierNodesLoop (fuel + 1) σ (ends bs) s =
        match (subtopRead s maxSubtopLen).2 with
        | none => some (ends ((i, newNode (subtopRead s maxSubtopLen).1) :: bs), σ')
        | some s' => hierNodesLoop fuel σ'
            (ends ((i, newNode (subtopRead s maxSubtopLen).1) :: bs)) s' := by
  refine ⟨_, hp.insert (newNode (subtopRead s maxSubtopLen).1) σ.rootNode, fun j hj hij => ?_, rfl, ?_⟩
  · rw [(ids_plug _ _).mem_iff, ids, List.nil_append] at hj
    exact (Function.update_of_ne hij _ _).trans (relink_other _ _ hj)
  · rw [hierNodesLoop, allocNodeSubtop_some hp.freeList hp.head hs]
    cases bs with
    | nil => rfl
    | cons p bs =>
      have hip : i ≠ p.1 := by
        rintro rfl
        refine List.disjoint_of_nodup_append hp.nodup ?_ List.mem_cons_self
        rw [(ids_plug _ _).mem_iff]
        exact List.mem_append_right _ List.mem_cons_self
      dsimp only [ends]
      rw [linkBelow_eq hip]
      rfl

def Creatable (free : List NodeIdx) (s : List UInt8) : Prop :=
  s ≠ [] ∧ (∀ l ∈ levels s, FitsIn (maxSubtopLen - 1) l) ∧ (levels s).length ≤ free.length

instance (free : List NodeIdx) (s : List UInt8) : Decidable (Creatable free s) :=
  inferInstanceAs (Decidable (_ ∧ _))

theorem hierNodesLoop_created (fuel : Nat) : ∀ {σ : TopicTree} {bs : List (NodeIdx × NodeData)}
    {free : List NodeIdx} {s : List UInt8}, Parts σ (plug (spine bs) .nil) free →
      Creatable free s → (levels s).length ≤ fuel →
      ∃ σ', hierNodesLoop fuel σ (ends bs) s =
          some (ends ((newCells free (levels s)).reverse ++ bs), σ') ∧
        Parts σ' (plug (spine ((newCells free (levels s)).reverse ++ bs)) .nil)
          (free.drop (levels s).length) ∧
        (∀ j ∉ ids (plug (spine bs) .nil), j ∉ free → σ'.nodes j = σ.nodes j) ∧
        σ'.rootNode = σ.rootNode := by
  induction fuel with
  | zero =>
    intro σ bs free s _ _ hfuel
    exact absurd (List.length_eq_zero_iff.mp (Nat.le_zero.mp hfuel)) (levels_ne_nil s)
  | succ fuel ih =>
    intro σ bs free s hp ⟨hs, hfits, hlen⟩ hfuel
    have hfit := hfits _ (by rw [levels_eq]; exact List.mem_cons_self)
    rw [levels_eq, List.length_cons] at hlen hfuel
    obtain ⟨i, free, rfl⟩ := List.exists_cons_of_length_pos (l := free) (by omega)
    obtain ⟨σ₁, hp₁, hoth₁, hroot₁, hrun₁⟩ := hierNodesLoop_step fuel hp hs
    rw [subtopRead_fits hfit] at hp₁ hrun₁
    rw [hrun₁, levels_eq]
    have hmem : ∀ j ∉ ids (plug (spine bs) .nil), j ∉ i :: free →
        j ∉ ids (plug (spine ((i, newNode (firstLevel s).1) :: bs)) .nil) := by
      intro j hj hj'
      rw [(ids_plug _ _).mem_iff, ids, List.nil_append] at hj ⊢
      exact fun h => (List.mem_cons.mp h).elim (fun h => hj' (h ▸ List.mem_cons_self)) fun h => hj h
    cases hnext : (firstLevel s).2 with
    | none =>
      refine ⟨σ₁, ?_, ?_, fun j hj hj' => hoth₁ j hj (List.ne_of_not_mem_cons hj'), hroot₁⟩
      · simp [nextLevels, newCells]
      · simpa [nextLevels, newCells] using hp₁
    | some s' =>
      rw [hnext] at hlen hfuel
      have hcr : Creatable free s' := by
        refine ⟨firstLevel_next_ne_nil hnext, fun l hl => hfits l ?_, ?_⟩
        · rw [levels_eq, hnext]
          exact List.mem_cons_of_mem _ hl
        · exact Nat.le_of_succ_le_succ hlen
      obtain ⟨σ', hrun, hp', hoth, hroot⟩ := ih hp₁ hcr (Nat.le_of_succ_le_succ hfuel)
      have hcells : (newCells (i :: free) ((firstLevel s).1 :: nextLevels (some s'))).reverse ++ bs =
          (newCells free (levels s')).reverse ++ (i, newNode (firstLevel s).1) :: bs := by
        simp [newCells, nextLevels]
      rw [hcells]
      refine ⟨σ', hrun, hp', fun j hj hj' => ?_, hroot.trans hroot₁⟩
      exact (hoth j (hmem j hj hj') (List.not_mem_of_not_mem_cons hj')).trans
        (hoth₁ j hj (List.ne_of_not_mem_cons hj'))

theorem hierNodesLoop_failed (fuel : Nat) : ∀ {σ : TopicTree} {bs : List (NodeIdx × NodeData)}
    {free : List NodeIdx} {s : List UInt8}, Parts σ (plug (spine bs) .nil) free →
      (∀ p ∈ bs, p.2.useless = true) → ¬ Creatable free s → free.length < fuel →
      ∃ σ', hierNodesLoop fuel σ (ends bs) s = some (none, σ') ∧
        Parts σ' .nil ((bs.map Prod.fst).reverse ++ free) ∧
        (∀ j ∉ ids (plug (spine bs) .nil), j ∉ free → σ'.nodes j = σ.nodes j) ∧
        σ'.rootNode = if bs = [] ∧ (free = [] ∨ s = []) then σ.rootNode else none := by
  induction fuel with
  | zero => exact fun _ _ _ hfuel => nomatch hfuel
  | succ fuel ih =>
    intro σ bs free s hp huse hcr hfuel
    by_cases hstop : free = [] ∨ s = []
    · rw [hierNodesLoop, allocNodeSubtop_none hp.freeList hp.head hstop]
      cases bs with
      | nil => exact ⟨σ, rfl, hp, fun _ _ _ => rfl, (if_pos ⟨rfl, hstop⟩).symm⟩
      | cons p bs =>
        have hp' : Parts σ (plug (spine bs) (.node p.1 p.2 .nil .nil)) free := hp
        obtain ⟨σ', hrun, hparts, hoth, hroot⟩ := tryNodeDeleteLoop_prune loopBound hp' rfl
          (Nat.le_succ_of_le (Nat.le_of_add_right_le hp.length_le))
        rw [prune_spine (huse p List.mem_cons_self) fun p' hp' => huse p' (List.mem_cons_of_mem _ hp')]
          at hparts hroot
        refine ⟨σ', ?_, ?_, fun j hj _ => hoth j hj, ?_⟩
        · dsimp only [ends]
          rw [tryNodeDelete, hrun]
          rfl
        · rw [List.map_cons, List.reverse_cons, List.append_assoc]
          exact hparts
        · have hlive : ¬ (p :: bs = [] ∧ (free = [] ∨ s = [])) :=
            fun h => List.cons_ne_nil p bs h.1
          exact hroot.trans ((if_pos rfl).trans (if_neg hlive).symm)
    · rw [not_or] at hstop
      obtain ⟨i, free, rfl⟩ := List.exists_cons_of_ne_nil hstop.1
      obtain ⟨σ₁, hp₁, hoth₁, -, hrun₁⟩ := hierNodesLoop_step fuel hp hstop.2
      have hmem : ∀ j ∉ ids (plug (spine bs) .nil), j ∉ i :: free → j ∉
          ids (plug (spine ((i, newNode (subtopRead s maxSubtopLen).1) :: bs)) .nil) := by
        intro j hj hj'
        rw [(ids_plug _ _).mem_iff, ids, List.nil_append] at hj ⊢
        exact fun h => (List.mem_cons.mp h).elim (fun h => hj' (h ▸ List.mem_cons_self)) fun h => hj h
      have huse₁ : ∀ p ∈ (i, newNode (subtopRead s maxSubtopLen).1) :: bs, p.2.useless = true := by
        intro p hp
        cases hp with
        | head => exact newNode_useless _
        | tail _ hp => exact huse p hp
      have hnext : ∃ s', (subtopRead s maxSubtopLen).2 = some s' ∧ ¬ Creatable free s' := by
        by_cases hfit : FitsIn (maxSubtopLen - 1) (firstLevel s).1
        · rw [subtopRead_fits hfit]
          cases hnext : (firstLevel s).2 with
          | none =>
            refine absurd ⟨hstop.2, fun l hl => ?_, ?_⟩ hcr
            · rw [levels_eq, hnext, nextLevels, List.mem_singleton] at hl
              exact hl ▸ hfit
            · rw [levels_eq, hnext, nextLevels, List.length_cons]
              exact Nat.succ_le_succ (Nat.zero_le _)
          | some s' =>
            refine ⟨s', rfl, fun h => hcr ⟨hstop.2, fun l hl => ?_, ?_⟩⟩
            · rw [levels_eq, hnext] at hl
              cases hl with
              | head => exact hfit
              | tail _ hl => exact h.2.1 l hl
            · rw [levels_eq, hnext, List.length_cons, List.length_cons]
              exact Nat.succ_le_succ h.2.2
        · rw [subtopRead_long hfit]
          refine ⟨s, rfl, fun h => hfit (h.2.1 _ ?_)⟩
          rw [levels_eq]
          exact List.mem_cons_self
      obtain ⟨s', hs', hcr'⟩ := hnext
      obtain ⟨σ', hrun, hparts, hoth, hroot⟩ :=
        ih hp₁ huse₁ hcr' (Nat.lt_of_succ_lt_succ hfuel)
      rw [hrun₁, hs']
      refine ⟨σ', hrun, ?_, fun j hj hj' => ?_, ?_⟩
      · rw [List.map_cons, List.reverse_cons, List.append_assoc] at hparts
        exact hparts
      · exact (hoth j (hmem j hj hj') (List.not_mem_of_not_mem_cons hj')).trans
          (hoth₁ j hj (List.ne_of_not_mem_cons hj'))
      · rw [hroot, if_neg fun h => List.cons_ne_nil _ _ h.1, if_neg]
        exact fun h => h.2.elim hstop.1 hstop.2

theorem hierNodesCreate_created {s : List UInt8} (hp : Parts σ .nil free) (hcr : Creatable free s) :
    ∃ σ' base leaf, hierNodesCreate σ s = some (some (base, leaf), σ') ∧
      Parts σ' (chain (newCells free (levels s))) (free.drop (levels s).length) ∧
      (newCells free (levels s)).head?.map Prod.fst = some base ∧
      (newCells free (levels s)).getLast?.map Prod.fst = some leaf ∧
      (∀ j, j ∉ free → σ'.nodes j = σ.nodes j) ∧ σ'.rootNode = σ.rootNode := by
  have hfuel : (levels s).length ≤ loopBound :=
    Nat.le_succ_of_le (hcr.2.2.trans (Nat.le_of_add_left_le hp.length_le))
  have hp' : Parts σ (plug (spine []) .nil) free := hp
  obtain ⟨σ', hrun, hparts, hoth, hroot⟩ :=
    hierNodesLoop_created loopBound hp' hcr hfuel
  have hne : newCells free (levels s) ≠ [] := by
    have hlen : (newCells free (levels s)).length = (levels s).length := by
      rw [newCells, List.length_zip, List.length_map, Nat.min_eq_right hcr.2.2]
    rw [← List.length_pos_iff, hlen]
    exact List.length_pos_of_ne_nil (levels_ne_nil s)
  have hch := plug_spine (newCells free (levels s)).reverse ([] : List (NodeIdx × NodeData))
  rw [List.append_nil, List.reverse_reverse] at hch
  rw [List.append_nil] at hrun hparts
  generalize newCells free (levels s) = cells at *
  cases hrev : cells.reverse with
  | nil => exact absurd (List.reverse_eq_nil_iff.mp hrev) hne
  | cons p bs =>
    rw [hrev] at hrun
    refine ⟨σ', _, _, hrun, hch ▸ hparts, ?_, ?_, fun j hj => hoth j nofun hj, hroot⟩
    · rw [List.head?_eq_some_head hne, Option.map_some]
      simp [← hrev]
    · rw [← List.head?_reverse, hrev]
      rfl

theorem hierNodesCreate_failed {s : List UInt8} (hp : Parts σ .nil free) (hcr : ¬ Creatable free s) :
    ∃ σ', hierNodesCreate σ s = some (none, σ') ∧ σ'.nodes = σ.nodes ∧
      σ'.freeNodes = σ.freeNodes ∧
      σ'.rootNode = if free = [] ∨ s = [] then σ.rootNode else none := by
  have hfuel : free.length < loopBound := Nat.lt_succ_of_le (Nat.le_of_add_left_le hp.length_le)
  have hp' : Parts σ (plug (spine []) .nil) free := hp
  obtain ⟨σ', hrun, hparts, hoth, hroot⟩ :=
    hierNodesLoop_failed loopBound hp' nofun hcr hfuel
  rw [List.map_nil, List.reverse_nil, List.nil_append] at hparts
  refine ⟨σ', hrun, funext fun j => ?_, hparts.head.trans hp.head.symm, by simpa using hroot⟩
  by_cases hj : j ∈ free
  · exact hparts.freeList.cell_eq hp.freeList hj
  · exact hoth j nofun hj

end Create

/-! ## The tree of the server -/

/-- The tree from `root_node`, and the free nodes. -/
structure Holds (σ : TopicTree) (t : Tree) (free : List NodeIdx) : Prop extends Parts σ t free where
  root : σ.rootNode = root t
  leveled : Leveled t

section Topic

variable {σ : TopicTree} {t : Tree} {free : List NodeIdx}

theorem Parts.rest (hp : Parts σ t free) : Parts σ .nil free :=
  ⟨trivial, hp.freeList, hp.head, hp.nodup.of_append_right⟩

theorem Holds.lowest (hσ : Holds σ t free) (s : List UInt8) :
    LowestIs t (lowestNodeFind σ s) (search (·.subtop) [] t (levels s)) := by
  have hlen := Nat.le_of_add_right_le hσ.length_le
  have hrep : Rep σ.nodes none none (plug [] t) := hσ.rep
  rw [lowestNodeFind, hσ.root]
  exact lowestLoop_is loopBound hrep hσ.leveled hlen (Nat.le_succ_of_le hlen) rfl rfl

/-- `leaf_node_find` looks the levels of the topic up. -/
theorem leafNodeFind_eq (hσ : Holds σ t free) (s : List UInt8) :
    leafNodeFind σ s = some ((look (·.subtop) t (levels s)).map Prod.fst) := by
  have hlow := hσ.lowest s
  unfold leafNodeFind
  cases hs : search (·.subtop) [] t (levels s) with
  | found fs i c h n =>
    rw [hs] at hlow
    obtain ⟨flagNh, hlow⟩ := hlow
    rw [hlow, (search_found hs).2.1]
    rfl
  | missing fs ks =>
    rw [hs] at hlow
    obtain ⟨base, flagNh, rest, hlow, -⟩ := hlow
    rw [hlow, (search_missing hs (levels_ne_nil s)).2.1]
    rfl

theorem topicNodeCreate_found (hσ : Holds σ t free) {s : List UInt8} {i : NodeIdx} {c : NodeData}
    (hl : look (·.subtop) t (levels s) = some (i, c)) : topicNodeCreate σ s = some (some i, σ) := by
  have hlow := hσ.lowest s
  unfold topicNodeCreate
  cases hs : search (·.subtop) [] t (levels s) with
  | found fs i' c' h n =>
    rw [hs] at hlow
    obtain ⟨flagNh, hlow⟩ := hlow
    cases hl.symm.trans (search_found hs).2.1
    rw [hlow]
  | missing fs ks => cases hl.symm.trans (search_missing hs (levels_ne_nil s)).2.1

/-- `install_nhbr_node` and `set_up_hier_nodes`, at the place that `base` and `flag_nh` stand for. -/
theorem installed {σ : TopicTree} {fs : Place} {base : Option NodeIdx} {flagNh : Bool} {i : NodeIdx}
    {c : NodeData} {h : Tree} {leaf : NodeIdx} (hrep : Rep σ.nodes none none (plug fs .nil))
    (hch : Rep σ.nodes none none (.node i c h .nil))
    (hi : i ∉ frameIds fs) (hat : Attach (plug fs .nil) base flagNh fs) :
    (match base with
      | none => some (some leaf, { σ with rootNode := some i })
      | some base =>
        if flagNh then (installNhbrNode σ base i).map fun σ => (some leaf, σ)
        else some (some leaf, setUpHierNodes σ base i)) =
      some (some leaf, ⟨Function.update (relink σ.nodes fs (some i)) i
        ⟨⟨none, upNhbr fs, root h, upHier fs⟩, c⟩, σ.freeNodes,
        if fs = [] then some i else σ.rootNode⟩) := by
  have hcell : σ.nodes i = ⟨⟨none, none, root h, none⟩, c⟩ := hch.1
  cases fs with
  | nil =>
    cases hat
    have hsame : Function.update σ.nodes i ⟨⟨none, none, root h, none⟩, c⟩ = σ.nodes := by
      rw [← hcell, Function.update_eq_self]
    dsimp only [relink, upNhbr, upHier]
    rw [hsame, if_pos rfl]
  | cons f fs =>
    rw [if_neg (List.cons_ne_nil f fs)]
    cases f with
    | hier j d n =>
      obtain ⟨rfl, rfl⟩ := hat
      have hij : i ≠ j := List.ne_of_not_mem_cons hi
      simp only [setUpHierNodes, TopicTree.setUpHier, TopicTree.setDnHier, TopicTree.set,
        Function.update_of_ne hij, hcell, relink, upNhbr, upHier, Bool.false_eq_true, if_false]
    | nhbr j d n =>
      obtain ⟨r, rfl, rfl, hlast⟩ := hat
      have hij : i ≠ j := List.ne_of_not_mem_cons hi
      simp only [installNhbrNode, hlast _ hrep, Option.map_some, TopicTree.setUpNhbr,
        TopicTree.setDnNhbr, TopicTree.set, Function.update_of_ne hij, hcell, relink, upNhbr, upHier,
        if_true]

theorem topicNodeCreate_created (hσ : Holds σ t free) {s : List UInt8} {fs : Place}
    {rest : List UInt8}
    (hs : search (·.subtop) [] t (levels s) = .missing fs (levels rest)) (hcr : Creatable free rest) :
    ∃ σ' leaf, topicNodeCreate σ s = some (some leaf, σ') ∧
      (newCells free (levels rest)).getLast?.map Prod.fst = some leaf ∧
      (∀ j ∉ ids t ++ free, σ'.nodes j = σ.nodes j) ∧
      Holds σ' (plug fs (chain (newCells free (levels rest)))) (free.drop (levels rest).length) := by
  have hlow := hσ.lowest s
  rw [hs] at hlow
  obtain ⟨base, flagNh, rest', hlow, hrest, hat⟩ := hlow
  obtain rfl := levels_inj hrest
  obtain rfl : plug fs .nil = t := (search_missing hs (levels_ne_nil s)).1
  obtain ⟨σ₁, node, leaf, hrun, hparts, hhead, hlast, hoth, hroot⟩ :=
    hierNodesCreate_created hσ.toParts.rest hcr
  have hcells : ∀ p ∈ newCells free (levels rest'), p.1 ∈ free ∧ ∃ l ∈ levels rest', p.2 = newNode l := by
    intro p hp
    have hp := List.of_mem_zip hp
    obtain ⟨l, hl, hpl⟩ := List.mem_map.mp hp.2
    exact ⟨hp.1, l, hl, hpl.symm⟩
  generalize newCells free (levels rest') = cells at *
  have hids : ∀ j ∈ ids (chain cells), j ∈ free := by
    intro j hj
    rw [ids_chain, List.mem_map] at hj
    obtain ⟨p, hp, rfl⟩ := hj
    exact (hcells p hp).1
  have hdrop : ∀ j ∈ free.drop (levels rest').length, j ∈ free := fun j => List.mem_of_mem_drop
  have hnd : (frameIds fs ++ free).Nodup := hσ.toParts.nodup_plug
  have hframes : ∀ j ∈ free, j ∉ frameIds fs :=
    fun j hj hj' => List.disjoint_of_nodup_append hnd hj' hj
  have hnd' : (frameIds fs ++ (ids (chain cells) ++ free.drop (levels rest').length)).Nodup := by
    refine hnd.of_append_left.append hparts.nodup fun j hj hj' => ?_
    exact hframes j ((List.mem_append.mp hj').elim (hids j) (hdrop j)) hj
  have hrep₁ : Rep σ₁.nodes none none (plug fs .nil) := by
    refine hσ.rep.congr fun j hj => hoth j fun hj' => hframes j hj' ?_
    rwa [(ids_plug fs .nil).mem_iff, ids, List.nil_append] at hj
  cases cells with
  | nil => cases hhead
  | cons p cells =>
    cases hhead
    have hmem : p.1 ∈ ids (chain (p :: cells)) := List.mem_cons_self
    have hfree : ∀ j ∈ free.drop (levels rest').length, j ≠ p.1 := fun j hj hjp =>
      List.disjoint_of_nodup_append hparts.nodup hmem (hjp ▸ hj)
    refine ⟨⟨Function.update (relink σ₁.nodes fs (some p.1)) p.1
      ⟨⟨none, upNhbr fs, root (chain cells), upHier fs⟩, p.2⟩, σ₁.freeNodes,
      if fs = [] then some p.1 else σ₁.rootNode⟩, leaf, ?_, hlast, fun j hj => ?_,
      ⟨⟨?_, ?_, ?_, ?_⟩, ?_, ?_⟩⟩
    · unfold topicNodeCreate
      rw [hlow]
      dsimp only
      rw [hrun]
      exact installed hrep₁ hparts.rep (hframes _ (hids _ hmem)) hat
    · rw [List.mem_append, (ids_plug fs .nil).mem_iff, ids, List.nil_append, not_or] at hj
      have hp : j ≠ p.1 := fun hjp => hj.2 (hids j (hjp ▸ hmem))
      exact (Function.update_of_ne hp _ _).trans ((relink_other _ _ hj.1).trans (hoth j hj.2))
    · refine Rep.hang hrep₁ hparts.rep ?_
      rw [← List.append_assoc] at hnd'
      exact (List.perm_append_comm.nodup_iff).mp hnd'.of_append_left
    · refine hparts.freeList.congr fun j hj => ?_
      exact (Function.update_of_ne (hfree j hj) _ _).trans (relink_other _ _ (hframes j (hdrop j hj)))
    · exact hparts.head
    · refine ((((ids_plug fs _).trans List.perm_append_comm).append_right _).nodup_iff).mpr ?_
      rwa [List.append_assoc]
    · dsimp only
      split_ifs with hfs
      · rw [hfs]
        rfl
      · rw [hroot, hσ.root]
        exact root_plug_congr hfs _ _
    · intro c hc
      rcases (mem_vals_plug fs _).mp hc with hc | hc
      · rw [vals_chain, List.mem_map] at hc
        obtain ⟨q, hq, rfl⟩ := hc
        obtain ⟨l, hl, hql⟩ := (hcells q hq).2
        rw [hql]
        exact ⟨isLevel_of_mem_levels _ l hl, hcr.2.1 l hl⟩
      · exact hσ.leveled c ((mem_vals_plug fs .nil).mpr (.inr hc))

theorem topicNodeCreate_failed (hσ : Holds σ t free) {s : List UInt8} {fs : Place}
    {rest : List UInt8}
    (hs : search (·.subtop) [] t (levels s) = .missing fs (levels rest))
    (hcr : ¬ Creatable free rest) :
    ∃ σ', topicNodeCreate σ s = some (none, σ') ∧ σ'.nodes = σ.nodes ∧
      σ'.freeNodes = σ.freeNodes ∧
      σ'.rootNode = if free = [] ∨ rest = [] then σ.rootNode else none := by
  have hlow := hσ.lowest s
  rw [hs] at hlow
  obtain ⟨base, flagNh, rest', hlow, hrest, -⟩ := hlow
  obtain rfl := levels_inj hrest
  obtain ⟨σ', hrun, hσ'⟩ := hierNodesCreate_failed hσ.toParts.rest hcr
  refine ⟨σ', ?_, hσ'⟩
  unfold topicNodeCreate
  rw [hlow]
  dsimp only
  rw [hrun]

end Topic

end SimpleLink.Server
