import SimpleLink.Lib.TreeShape
import SimpleLink.Server.TopicLeaf

/-!
# Edits of the topic tree (`server_core.c`)

What the server does to the tree is done by few edits: a topic is created, the
data of a node changes, useless nodes are deleted. `Tidy` is what holds of the
tree all the time: no two neighbours have the same level, only a level that ends
with `/` has others below, and a client has one QoS at a node.
-/

namespace SimpleLink.Server

open Lib LinkTree

def Slashed (c : NodeData) : Prop := c.subtop.getLast? = some slash

def NodeData.OneQos (c : NodeData) : Prop :=
  ∀ (i : ClIdx) q q', bit (c.clMap q) i = true → bit (c.clMap q') i = true → q = q'

structure Tidy (σ : TopicTree) (t : Tree) (free : List NodeIdx) : Prop extends Holds σ t free where
  neat : Neat NodeData.subtop Slashed t
  oneQos : ∀ c ∈ vals t, c.OneQos

theorem tidy_init : Tidy topicNodeInit .nil (List.finRange maxTopNodes).reverse :=
  ⟨topicNodeInit_holds, trivial, nofun⟩

theorem newNode_oneQos (l : List UInt8) : (newNode l).OneQos := by
  intro i q q' h
  have hzero : bit ((newNode l).clMap q) i = false := bit_zero _
  rw [hzero] at h
  cases h

/-- Only nodes of the tree and free nodes change, and they stay the nodes of the tree and the free
ones. -/
structure Moves (σ σ' : TopicTree) (t t' : Tree) (free free' : List NodeIdx) : Prop where
  nodes : ∀ j ∉ ids t ++ free, σ'.nodes j = σ.nodes j
  cells : ∀ j, j ∈ ids t' ++ free' ↔ j ∈ ids t ++ free

theorem Moves.refl (σ : TopicTree) (t : Tree) (free : List NodeIdx) : Moves σ σ t t free free :=
  ⟨fun _ _ => rfl, fun _ => Iff.rfl⟩

theorem Moves.trans {σ₁ σ₂ σ₃ : TopicTree} {t₁ t₂ t₃ : Tree} {free₁ free₂ free₃ : List NodeIdx}
    (h : Moves σ₁ σ₂ t₁ t₂ free₁ free₂) (h' : Moves σ₂ σ₃ t₂ t₃ free₂ free₃) :
    Moves σ₁ σ₃ t₁ t₃ free₁ free₃ where
  nodes j hj := (h'.nodes j fun hj' => hj ((h.cells j).mp hj')).trans (h.nodes j hj)
  cells j := (h'.cells j).trans (h.cells j)

section Edits

variable {σ : TopicTree} {t : Tree} {free : List NodeIdx} {fs : Place} {i : NodeIdx} {c : NodeData}
  {h n : Tree}

/-! ## Data -/

theorem Parts.setVal (hp : Parts σ (plug fs (.node i c h n)) free) (c' : NodeData) :
    Parts (σ.setVal i c') (plug fs (.node i c' h n)) free := by
  have hnd := hp.nodup_plug
  have hi : i ∉ ids h ++ ids n ++ frameIds fs ++ free := by
    simp only [ids, List.cons_append, List.nodup_cons] at hnd
    exact hnd.1
  have hcell := hp.cell
  have hother : ∀ j ∈ ids h ++ ids n ++ frameIds fs ++ free, (σ.setVal i c').nodes j = σ.nodes j :=
    fun j hj => Function.update_of_ne (ne_of_mem_of_not_mem hj hi) _ _
  simp only [List.mem_append, or_assoc] at hother
  obtain ⟨⟨-, hh, hn⟩, hfs⟩ := (rep_plug fs _).mp hp.rep
  refine ⟨(rep_plug fs _).mpr ⟨⟨?_, hh.congr fun j hj => hother j (.inl hj),
    hn.congr fun j hj => hother j (.inr (.inl hj))⟩, hfs.congr fun j hj =>
    hother j (.inr (.inr (.inl hj)))⟩, hp.freeList.congr fun j hj =>
    hother j (.inr (.inr (.inr hj))), hp.head, ?_⟩
  · rw [TopicTree.setVal, TopicTree.set, hcell]
    exact Function.update_self ..
  · have hperm := (ids_plug fs (.node i c' h n)).trans (ids_plug fs (.node i c h n)).symm
    exact ((hperm.append_right free).nodup_iff).mpr hp.nodup

theorem setVal_moves (σ : TopicTree) (fs : Place) (i : NodeIdx) (c c' : NodeData) (h n : Tree)
    (free : List NodeIdx) :
    Moves σ (σ.setVal i c') (plug fs (.node i c h n)) (plug fs (.node i c' h n)) free free where
  nodes j hj := by
    refine Function.update_of_ne (fun hji => hj ?_) _ _
    rw [hji, List.mem_append, (ids_plug fs _).mem_iff]
    exact .inl (List.mem_append_left _ List.mem_cons_self)
  cells j := by
    simp only [List.mem_append, (ids_plug fs _).mem_iff, ids]

theorem Holds.setVal (hσ : Holds σ (plug fs (.node i c h n)) free) {c' : NodeData}
    (hsub : c'.subtop = c.subtop) : Holds (σ.setVal i c') (plug fs (.node i c' h n)) free := by
  refine ⟨hσ.toParts.setVal c', hσ.root.trans ?_, fun d hd => ?_⟩
  · cases fs with
    | nil => rfl
    | cons f fs => exact root_plug_congr (List.cons_ne_nil f fs) _ _
  · have hold := fun hd => hσ.leveled d ((mem_vals_plug fs _).mpr hd)
    rcases (mem_vals_plug fs _).mp hd with hd | hd
    · rcases List.mem_cons.mp hd with rfl | hd
      · rw [hsub]
        exact hσ.leveled c ((mem_vals_plug fs _).mpr (.inl List.mem_cons_self))
      · exact hold (.inl (List.mem_cons_of_mem _ hd))
    · exact hold (.inr hd)

theorem Tidy.setVal (hσ : Tidy σ (plug fs (.node i c h n)) free) {c' : NodeData}
    (hsub : c'.subtop = c.subtop) (hone : c'.OneQos) :
    Tidy (σ.setVal i c') (plug fs (.node i c' h n)) free := by
  have hslashed : Slashed c → Slashed c' := by
    unfold Slashed
    rw [hsub]
    exact fun h => h
  refine ⟨hσ.toHolds.setVal hsub, Neat.setVal hsub hslashed hσ.neat, fun d hd => ?_⟩
  have hold := fun hd => hσ.oneQos d ((mem_vals_plug fs _).mpr hd)
  rcases (mem_vals_plug fs _).mp hd with hd | hd
  · rcases List.mem_cons.mp hd with rfl | hd
    · exact hone
    · exact hold (.inl (List.mem_cons_of_mem _ hd))
  · exact hold (.inr hd)

/-! ## Deletion -/

/-- `try_node_delete` prunes from the node. -/
theorem Holds.tryNodeDelete (hσ : Holds σ (plug fs (.node i c h n)) free) :
    ∃ σ', tryNodeDelete σ i = some σ' ∧
      Holds σ' (prune NodeData.useless fs (.node i c h n) free).1
        (prune NodeData.useless fs (.node i c h n) free).2 ∧
      Moves σ σ' (plug fs (.node i c h n)) (prune NodeData.useless fs (.node i c h n) free).1 free
        (prune NodeData.useless fs (.node i c h n) free).2 := by
  have hlen : (ids (plug fs (.node i c h n))).length ≤ loopBound :=
    Nat.le_succ_of_le (Nat.le_of_add_right_le hσ.length_le)
  obtain ⟨σ', hrun, hp, hoth, hroot⟩ := tryNodeDeleteLoop_prune loopBound hσ.toParts rfl hlen
  refine ⟨σ', hrun, ⟨hp, hroot.trans ?_, fun d hd => hσ.leveled d (mem_vals_prune hd)⟩,
    fun j hj => hoth j fun hj' => hj (List.mem_append_left _ hj'),
    fun j => (prune_perm NodeData.useless fs (.node i c h n) free).mem_iff⟩
  rcases root_prune NodeData.useless fs (.node i c h n) free with hr | hr
  · rw [if_pos hr, hr]
  · split_ifs with hnone
    · exact hnone.symm
    · rw [hr, hσ.root]

theorem Tidy.tryNodeDelete (hσ : Tidy σ (plug fs (.node i c h n)) free) :
    ∃ σ', tryNodeDelete σ i = some σ' ∧
      Tidy σ' (prune NodeData.useless fs (.node i c h n) free).1
        (prune NodeData.useless fs (.node i c h n) free).2 ∧
      Moves σ σ' (plug fs (.node i c h n)) (prune NodeData.useless fs (.node i c h n) free).1 free
        (prune NodeData.useless fs (.node i c h n) free).2 := by
  obtain ⟨σ', hrun, hσ', hmoves⟩ := hσ.toHolds.tryNodeDelete
  exact ⟨σ', hrun, ⟨hσ', hσ.neat.prune, fun d hd => hσ.oneQos d (mem_vals_prune hd)⟩, hmoves⟩

/-- `node_delete` takes a node off that has nothing below and after it, whatever it holds. -/
theorem Tidy.nodeDelete (hσ : Tidy σ (plug fs (.node i c .nil .nil)) free) :
    Tidy (nodeDelete σ i).2 (plug fs .nil) (i :: free) ∧
      Moves σ (Server.nodeDelete σ i).2 (plug fs (.node i c .nil .nil)) (plug fs .nil) free
        (i :: free) := by
  have hp := hσ.toParts
  have hless : ∀ d ∈ vals (plug fs .nil), d ∈ vals (plug fs (.node i c .nil .nil)) := fun d hd =>
    (mem_vals_plug fs _).mpr (((mem_vals_plug fs _).mp hd).imp_left nofun)
  refine ⟨⟨⟨hp.delete, ?_, fun d hd => hσ.leveled d (hless d hd)⟩, ?_, fun d hd =>
    hσ.oneQos d (hless d hd)⟩, fun j hj => ?_, fun j => ?_⟩
  · rw [nodeDelete_eq hp]
    dsimp only
    split_ifs with hfs
    · rw [hfs]
      rfl
    · rw [hσ.root]
      exact root_plug_congr hfs _ _
  · exact Neat.plug_mono fs (t := .node i c .nil .nil) (fun _ => trivial) nofun nofun hσ.neat
  · exact nodeDelete_other hp fun hj' => hj (List.mem_append_left _ hj')
  · simp only [List.mem_append, (ids_plug fs _).mem_iff, ids, List.mem_cons, List.not_mem_nil,
      false_or, or_false]
    exact or_left_comm.trans or_assoc.symm

theorem Tidy.lost (hσ : Tidy σ t free) : Tidy { σ with rootNode := none } .nil free :=
  ⟨⟨⟨trivial, hσ.freeList, hσ.head, hσ.nodup.of_append_right⟩, rfl, nofun⟩, trivial, nofun⟩

/-! ## Creation -/

/-- A tree after a topic has been created, with its leaf. -/
structure Created (t t' : Tree) (s : List UInt8) (leaf : NodeIdx) (c : NodeData) : Prop where
  self : look NodeData.subtop t' (levels s) = some (leaf, c)
  old : ∀ q p, look NodeData.subtop t q = some p → look NodeData.subtop t' q = some p
  only : ∀ q p, look NodeData.subtop t' q = some p →
    look NodeData.subtop t q = some p ∨ look NodeData.subtop t q = none ∧ ∃ l, p.2 = newNode l
  weight : ∀ w : NodeData → Nat, (∀ l, w (newNode l) = 0) → total w t' = total w t

theorem created_refl {s : List UInt8} {leaf : NodeIdx}
    (hl : look NodeData.subtop t (levels s) = some (leaf, c)) : Created t t s leaf c :=
  ⟨hl, fun _ _ h => h, fun _ _ h => .inl h, fun _ _ => rfl⟩

theorem newCells_ids {rest : List UInt8} (hcr : Creatable free rest) :
    ids (chain (newCells free (levels rest))) = free.take (levels rest).length := by
  rw [ids_chain, newCells, List.zip_eq_zip_take_min, List.length_map, Nat.min_eq_right hcr.2.2]
  refine List.map_fst_zip ?_
  rw [List.length_take, List.length_take, List.length_map]
  omega

theorem mem_newCells {ls : List (List UInt8)} {p : NodeIdx × NodeData} (hp : p ∈ newCells free ls) :
    ∃ l ∈ ls, p.2 = newNode l := by
  obtain ⟨l, hl, hpl⟩ := List.mem_map.mp (List.of_mem_zip hp).2
  exact ⟨l, hl, hpl.symm⟩

theorem Tidy.grow (hσ : Tidy σ t free) {s rest : List UInt8}
    (hs : search NodeData.subtop [] t (levels s) = .missing fs (levels rest))
    (hcr : Creatable free rest) :
    ∃ σ' leaf c, topicNodeCreate σ s = some (some leaf, σ') ∧
      Tidy σ' (plug fs (chain (newCells free (levels rest)))) (free.drop (levels rest).length) ∧
      Moves σ σ' t (plug fs (chain (newCells free (levels rest)))) free
        (free.drop (levels rest).length) ∧
      (newCells free (levels rest)).getLast? = some (leaf, c) ∧
      Created t (plug fs (chain (newCells free (levels rest)))) s leaf c := by
  obtain ⟨σ', leaf, hrun, hleaf, hoth, hσ'⟩ := topicNodeCreate_created hσ.toHolds hs hcr
  have hmoves : Moves σ σ' t (plug fs (chain (newCells free (levels rest)))) free
      (free.drop (levels rest).length) := by
    refine ⟨hoth, fun j => ?_⟩
    obtain rfl : plug fs .nil = t := (search_missing hs (levels_ne_nil s)).1
    have hfree : j ∈ free ↔ j ∈ free.take (levels rest).length ∨
        j ∈ free.drop (levels rest).length := by
      rw [← List.mem_append, List.take_append_drop]
    simp only [List.mem_append, (ids_plug fs _).mem_iff, newCells_ids hcr, ids, List.not_mem_nil,
      false_or, hfree]
    exact or_assoc.trans or_left_comm
  have hkeys := newCells_keys hcr
  have hslash : ∀ ls l r, levels s = ls ++ l :: r → r ≠ [] → ∀ d, NodeData.subtop d = l → Slashed d := by
    rintro ls l r hls hr d rfl
    exact getLast_slash hls hr
  obtain ⟨hplug, -, hne, hpath, hgraft⟩ := search_missing hs (levels_ne_nil s)
  have hsuffix : ∃ ls, levels s = ls ++ levels rest := ⟨_, by simpa [pathOf] using hpath.symm⟩
  have hvals : ∀ d ∈ vals (plug fs (chain (newCells free (levels rest)))),
      (∃ l, d = newNode l) ∨ d ∈ vals t := by
    intro d hd
    rcases (mem_vals_plug fs _).mp hd with hd | hd
    · rw [vals_chain, List.mem_map] at hd
      obtain ⟨p, hp, rfl⟩ := hd
      obtain ⟨l, -, hl⟩ := mem_newCells hp
      exact .inl ⟨l, hl⟩
    · have ht : plug fs .nil = t := hplug
      exact .inr (ht ▸ (mem_vals_plug fs .nil).mpr (.inr hd))
  have hcells : ∀ w : NodeData → Nat, (∀ l, w (newNode l) = 0) →
      total w (chain (newCells free (levels rest))) = 0 := by
    intro w hw
    refine total_eq_zero.mpr fun d hd => ?_
    rw [vals_chain, List.mem_map] at hd
    obtain ⟨p, hp, rfl⟩ := hd
    obtain ⟨l, -, hl⟩ := mem_newCells hp
    rw [hl, hw]
  have hmem : ∀ p ∈ newCells free (levels rest), ∃ l, p.2 = newNode l := fun p hp =>
    (mem_newCells hp).imp fun _ hl => hl.2
  generalize newCells free (levels rest) = cells at *
  cases hlast : cells.getLast? with
  | none =>
    rw [hlast] at hleaf
    cases hleaf
  | some p =>
    rw [hlast] at hleaf
    cases hleaf
    obtain ⟨k, rest', hrest⟩ := List.exists_cons_of_ne_nil hne
    have hchain : Neat NodeData.subtop Slashed (chain cells) := by
      obtain ⟨ls₀, hls₀⟩ := hsuffix
      refine Neat.chain fun ls q r hl hr => ?_
      refine hslash (ls₀ ++ ls.map fun p => p.2.subtop) q.2.subtop (r.map fun p => p.2.subtop) ?_
        (by simpa using hr) _ rfl
      rw [hls₀, ← hkeys, hl]
      simp
    have hrow : ∀ k' ∈ rowKeys NodeData.subtop (chain cells), k' = k := by
      cases cells with
      | nil => exact fun k' hk' => by cases hk'
      | cons q cells =>
        intro k' hk'
        rw [hrest] at hkeys
        rw [List.mem_singleton.mp hk']
        exact (List.cons.inj hkeys).1
    have hs' := hs
    rw [hrest] at hs
    obtain ⟨hneat, -⟩ := hchain.graft hs hrow hslash hσ.neat
    have hneat : Neat NodeData.subtop Slashed (plug fs (chain cells)) := (hgraft _).symm ▸ hneat
    rw [← hkeys] at hs'
    obtain ⟨hself, hold, -, honly⟩ := look_plug_chain hs' (levels_ne_nil s)
    refine ⟨σ', p.1, p.2, hrun, ⟨hσ', hneat, fun d hd => ?_⟩, hmoves, rfl, hself.trans hlast, hold,
      ?_, ?_⟩
    · rcases hvals d hd with ⟨l, rfl⟩ | hd
      · exact newNode_oneQos l
      · exact hσ.oneQos d hd
    · intro q p' hq
      rcases honly q p' hq with h | hp'
      · exact .inl h
      · cases hl : look NodeData.subtop t q with
        | none => exact .inr ⟨rfl, hmem p' hp'⟩
        | some p'' =>
          rw [hold q p'' hl] at hq
          exact .inl hq
    · intro w hw
      have ht : total w t = total w (plug fs .nil) := congrArg (total w) hplug.symm
      rw [ht, total_plug, total_plug, hcells w hw]
      rfl

/-- `topic_node_create` finds or makes the leaf, or fails: at once, or with the tree lost. -/
theorem Tidy.create (hσ : Tidy σ t free) (s : List UInt8) :
    (∃ leaf c σ' t' free', topicNodeCreate σ s = some (some leaf, σ') ∧ Tidy σ' t' free' ∧
      Moves σ σ' t t' free free' ∧ Created t t' s leaf c) ∨
    (topicNodeCreate σ s = some (none, σ) ∧ (free = [] ∨ s = [])) ∨
    (topicNodeCreate σ s = some (none, { σ with rootNode := none }) ∧ free ≠ [] ∧ s ≠ [] ∧
      ∃ rest, (lowestNodeFind σ s).bind Lowest.next = some rest ∧ ¬ Creatable free rest) := by
  cases hs : search NodeData.subtop [] t (levels s) with
  | found fs i c h n =>
    have hl := (search_found hs).2.1
    exact .inl ⟨i, c, σ, t, free, topicNodeCreate_found hσ.toHolds hl, hσ, .refl σ t free,
      created_refl hl⟩
  | missing fs ks =>
    obtain ⟨rest, hrest, rfl⟩ := hσ.toHolds.missing hs
    by_cases hcr : Creatable free rest
    · obtain ⟨σ', leaf, c, hrun, hσ', hmoves, -, hc⟩ := hσ.grow hs hcr
      exact .inl ⟨leaf, c, σ', _, _, hrun, hσ', hmoves, hc⟩
    · obtain ⟨σ', hrun, hnodes, hfree, hroot⟩ := topicNodeCreate_failed hσ.toHolds hs hcr
      have hnil : rest = [] ↔ s = [] := by
        constructor
        · rintro rfl
          have hpath := (search_missing hs (levels_ne_nil s)).2.2.2.1
          rw [pathOf, List.nil_append] at hpath
          exact nil_mem_levels (hpath ▸ List.mem_append_right _ List.mem_cons_self)
        · rintro rfl
          exact levels_inj (search_nil_missing hs)
      simp only [hnil] at hroot
      cases σ' with
      | mk nodes' freeNodes' rootNode' =>
        cases hnodes
        cases hfree
        by_cases hstop : free = [] ∨ s = []
        · rw [if_pos hstop] at hroot
          cases hroot
          exact .inr (.inl ⟨hrun, hstop⟩)
        · rw [if_neg hstop] at hroot
          cases hroot
          rw [not_or] at hstop
          exact .inr (.inr ⟨hrun, hstop.1, hstop.2, rest, hrest, hcr⟩)

theorem look_place {q : List (List UInt8)} (hl : look NodeData.subtop t q = some (i, c)) :
    ∃ fs h n, t = plug fs (.node i c h n) ∧ ∀ c', c'.subtop = c.subtop → ∀ q',
      look NodeData.subtop (plug fs (.node i c' h n)) q' =
        if q' = q then some (i, c') else look NodeData.subtop t q' := by
  have hq : q ≠ [] := by
    rintro rfl
    rw [look_nil_path] at hl
    cases hl
  cases hs : search NodeData.subtop [] t q with
  | missing fs ks => cases hl.symm.trans (search_missing hs hq).2.1
  | found fs i' c' h n =>
    obtain ⟨hplug, hlook, -, hadj⟩ := search_found hs
    cases hl.symm.trans hlook
    refine ⟨fs, h, n, hplug.symm, fun c' hc' q' => ?_⟩
    let f (d : NodeData) : NodeData := { c' with subtop := d.subtop }
    have hset := hadj f
    have hsame : f c = c' := by
      show { c' with subtop := c.subtop } = c'
      rw [← hc']
    rw [hsame, plug] at hset
    rw [hset, look_adjust f (fun _ => rfl) q' hq]
    split_ifs with heq
    · rw [heq, hl, Option.map_some, hsame]
    · rfl

theorem Tidy.look_oneQos (hσ : Tidy σ t free) {q : List (List UInt8)}
    (hl : look NodeData.subtop t q = some (i, c)) : c.OneQos := by
  obtain ⟨fs, h, n, rfl, -⟩ := look_place hl
  exact hσ.oneQos c ((mem_vals_plug fs _).mpr (.inl List.mem_cons_self))

end Edits

end SimpleLink.Server
