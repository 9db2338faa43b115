import SimpleLink.Server.TopicTable

/-!
# The tree of a running server (`server_core.c`)

`TreeOk` is what every operation leaves: a tidy tree, and nodes of lost trees
that hang together among themselves. Such a node can be that of a will, which is
deleted when its client goes; that clears `root_node` if nothing is above the
node, and so loses the tree of the server as well.

Each edit comes with what it does to the table.
-/

namespace SimpleLink.Server

open Lib LinkTree

def Aside (σ : TopicTree) (t : Tree) (free : List NodeIdx) : Prop :=
  ∀ k ∉ ids t ++ free, Hangs σ.nodes (· ∉ ids t ++ free) k

structure TreeOk (σ : TopicTree) (t : Tree) (free : List NodeIdx) : Prop extends Tidy σ t free where
  aside : Aside σ t free

def Full (t : Tree) (free : List NodeIdx) : Prop := ∀ k, k ∈ ids t ++ free

section Aside

variable {σ σ' : TopicTree} {t t' : Tree} {free free' : List NodeIdx}

theorem Full.aside (h : Full t free) : Aside σ t free := fun k hk => absurd (h k) hk

theorem Aside.moves (h : Aside σ t free) (hm : Moves σ σ' t t' free free') : Aside σ' t' free' := by
  intro k hk
  have hk' : k ∉ ids t ++ free := fun h => hk ((hm.cells k).mpr h)
  have hcell := hm.nodes k hk'
  have hup := h k hk'
  refine ⟨fun j hj => ?_, fun j hj => ?_⟩
  · rw [hcell] at hj
    obtain ⟨hj', hdn⟩ := hup.nhbr j hj
    exact ⟨fun h => hj' ((hm.cells j).mp h), by rw [hm.nodes j hj', hdn]⟩
  · rw [hcell] at hj
    obtain ⟨hj', hdn⟩ := hup.hier j hj
    exact ⟨fun h => hj' ((hm.cells j).mp h), by rw [hm.nodes j hj', hdn]⟩

theorem Full.moves (h : Full t free) (hm : Moves σ σ' t t' free free') : Full t' free' :=
  fun k => (hm.cells k).mpr (h k)

theorem Aside.lost (hσ : Parts σ t free) (h : Aside σ t free) :
    Aside { σ with rootNode := none } .nil free := by
  intro k hk
  rw [ids, List.nil_append] at hk
  by_cases hkt : k ∈ ids t
  · have hup := hσ.rep.hangs hkt
    have hfree : ∀ j ∈ ids t, j ∉ ids (.nil : Tree) ++ free := fun j hj hj' =>
      List.disjoint_of_nodup_append hσ.nodup hj hj'
    exact ⟨fun j hj => (hup.nhbr j hj).imp_left (hfree j), fun j hj =>
      (hup.hier j hj).imp_left (hfree j)⟩
  · have hup := h k fun hk' => (List.mem_append.mp hk').elim hkt hk
    have hfree : ∀ j ∉ ids t ++ free, j ∉ ids (.nil : Tree) ++ free := fun j hj hj' =>
      hj (List.mem_append_right _ hj')
    exact ⟨fun j hj => (hup.nhbr j hj).imp_left (hfree j), fun j hj =>
      (hup.hier j hj).imp_left (hfree j)⟩

theorem treeOk_init : TreeOk topicNodeInit .nil (List.finRange maxTopNodes).reverse where
  toTidy := tidy_init
  aside := Full.aside fun k => by simp

theorem TreeOk.moves (h : TreeOk σ t free) (hσ' : Tidy σ' t' free')
    (hm : Moves σ σ' t t' free free') : TreeOk σ' t' free' :=
  ⟨hσ', h.aside.moves hm⟩

theorem TreeOk.lost (h : TreeOk σ t free) : TreeOk { σ with rootNode := none } .nil free :=
  ⟨h.toTidy.lost, h.aside.lost h.toParts⟩

end Aside

/-! ## Edits in the tree -/

section Edits

variable {σ : TopicTree} {t : Tree} {free : List NodeIdx} {q : List (List UInt8)} {i : NodeIdx}
  {c : NodeData}

theorem TreeOk.setVal (hσ : TreeOk σ t free) (hl : look NodeData.subtop t q = some (i, c))
    {c' : NodeData} (hsub : c'.subtop = c.subtop) (hone : c'.OneQos) :
    ∃ t', TreeOk (σ.setVal i c') t' free ∧ Moves σ (σ.setVal i c') t t' free free ∧
      Rewrites t t' q c'.entry ∧ look NodeData.subtop t' q = some (i, c') := by
  obtain ⟨fs, h, n, rfl, hset⟩ := look_place hl
  have hm := setVal_moves σ fs i c c' h n free
  refine ⟨_, hσ.moves (hσ.toTidy.setVal hsub hone) hm, hm, setVal_rewrites hl (hset c' hsub), ?_⟩
  rw [hset c' hsub, if_pos rfl]

/-- `try_node_delete` of the node at a topic. -/
theorem TreeOk.tryNodeDelete (hσ : TreeOk σ t free)
    (hl : look NodeData.subtop t q = some (i, c)) :
    ∃ σ' t' free', Server.tryNodeDelete σ i = some σ' ∧ TreeOk σ' t' free' ∧
      Moves σ σ' t t' free free' ∧ SameTable t t' := by
  obtain ⟨fs, h, n, rfl, -⟩ := look_place hl
  obtain ⟨σ', hrun, hσ', hm⟩ := hσ.toTidy.tryNodeDelete
  exact ⟨σ', _, _, hrun, hσ.moves hσ' hm, hm, prune_same fs _ free⟩

theorem TreeOk.setTry (hσ : TreeOk σ t free) (hl : look NodeData.subtop t q = some (i, c))
    {c' : NodeData} (hsub : c'.subtop = c.subtop) (hone : c'.OneQos) :
    ∃ σ' t' free', Server.tryNodeDelete (σ.setVal i c') i = some σ' ∧ TreeOk σ' t' free' ∧
      Moves σ σ' t t' free free' ∧ Rewrites t t' q c'.entry := by
  obtain ⟨t₁, hσ₁, hm₁, hrw, hl₁⟩ := hσ.setVal hl hsub hone
  obtain ⟨σ', t', free', hrun, hσ', hm', hsame⟩ := hσ₁.tryNodeDelete hl₁
  exact ⟨σ', t', free', hrun, hσ', hm₁.trans hm', hrw.same hsame⟩

/-- `node_delete` of the node at a topic: it goes with what it holds, or stays for what is below or
after it. -/
theorem TreeOk.nodeDelete (hσ : TreeOk σ t free) (hl : look NodeData.subtop t q = some (i, c)) :
    (canDeleteNode (σ.nodes i) = true ∧ ∃ t', TreeOk (nodeDelete σ i).2 t' (i :: free) ∧
      Moves σ (Server.nodeDelete σ i).2 t t' free (i :: free) ∧ Rewrites t t' q .blank) ∨
    (canDeleteNode (σ.nodes i) = false ∧ Server.nodeDelete σ i = (none, σ)) := by
  obtain ⟨fs, h, n, rfl, hset⟩ := look_place hl
  have hcell := hσ.toParts.cell
  by_cases hstop : h = .nil → n ≠ .nil
  · refine .inr ⟨?_, nodeDelete_stop hσ.toParts hstop⟩
    rw [hcell]
    cases h with
    | node => simp [canDeleteNode, root]
    | nil =>
      cases n with
      | node => simp [canDeleteNode, root]
      | nil => exact absurd rfl (hstop rfl)
  · rw [Classical.not_imp, not_not] at hstop
    obtain ⟨rfl, rfl⟩ := hstop
    obtain ⟨hσ', hm⟩ := hσ.toTidy.nodeDelete
    refine .inl ⟨?_, _, hσ.moves hσ' hm, hm, delete_rewrites hl hset⟩
    rw [hcell]
    cases fs with
    | nil => rfl
    | cons f fs => cases f <;> rfl

/-- `topic_node_create` finds or makes the leaf, or fails: at once, or with the tree lost. -/
theorem TreeOk.create (hσ : TreeOk σ t free) (s : List UInt8) :
    (∃ leaf c σ' t' free', topicNodeCreate σ s = some (some leaf, σ') ∧ TreeOk σ' t' free' ∧
      Moves σ σ' t t' free free' ∧ SameTable t t' ∧ Created t t' s leaf c) ∨
    (topicNodeCreate σ s = some (none, σ) ∧ (free = [] ∨ s = [])) ∨
    (topicNodeCreate σ s = some (none, { σ with rootNode := none }) ∧
      TreeOk { σ with rootNode := none } .nil free ∧ free ≠ [] ∧ s ≠ [] ∧
      ∃ rest, (lowestNodeFind σ s).bind Lowest.next = some rest ∧ ¬ Creatable free rest) := by
  rcases hσ.toTidy.create s with ⟨leaf, c, σ', t', free', hrun, hσ', hm, hc⟩ | hfail | ⟨hrun, hlost⟩
  · exact .inl ⟨leaf, c, σ', t', free', hrun, hσ.moves hσ' hm, hm, hc.same, hc⟩
  · exact .inr (.inl hfail)
  · exact .inr (.inr ⟨hrun, hσ.lost, hlost⟩)

end Edits

/-! ## Edits beside the tree -/

section Beside

variable {σ : TopicTree} {t : Tree} {free : List NodeIdx} {k : NodeIdx}

theorem setDnNhbr_nodes (σ : TopicTree) (i j : NodeIdx) :
    (σ.setDnNhbr i none).nodes j =
      { σ.nodes j with dnNhbr := if i = j then none else (σ.nodes j).dnNhbr } := by
  by_cases hij : i = j
  · subst hij
    rw [if_pos rfl]
    exact Function.update_self ..
  · rw [if_neg hij]
    exact Function.update_of_ne (Ne.symm hij) _ _

theorem setDnHier_nodes (σ : TopicTree) (i j : NodeIdx) :
    (σ.setDnHier i none).nodes j =
      { σ.nodes j with dnHier := if i = j then none else (σ.nodes j).dnHier } := by
  by_cases hij : i = j
  · subst hij
    rw [if_pos rfl]
    exact Function.update_self ..
  · rw [if_neg hij]
    exact Function.update_of_ne (Ne.symm hij) _ _

/-- The links downwards that `node_delete` takes off. -/
def unhang (σ : TopicTree) (k j : NodeIdx) : TopicNode :=
  { σ.nodes j with
    dnNhbr := if (σ.nodes k).upNhbr = some j then none else (σ.nodes j).dnNhbr
    dnHier := if (σ.nodes k).upHier = some j then none else (σ.nodes j).dnHier }

/-- `node_delete`, whatever the links are. -/
theorem nodeDelete_unhang (σ : TopicTree) {k : NodeIdx} (hcan : canDeleteNode (σ.nodes k) = true) :
    nodeDelete σ k =
      (if (σ.nodes k).upHier.isSome then (σ.nodes k).upHier else (σ.nodes k).upNhbr,
        ⟨Function.update (unhang σ k) k ⟨⟨σ.freeNodes, none, none, none⟩, nodeReset⟩, some k,
          if (σ.nodes k).upNhbr = none ∧ (σ.nodes k).upHier = none then none else σ.rootNode⟩) := by
  have hfree : ∀ σ' : TopicTree, (∀ j, σ'.nodes j = unhang σ k j) → σ'.freeNodes = σ.freeNodes →
      freeNode σ' k = ⟨Function.update (unhang σ k) k
        ⟨⟨σ.freeNodes, none, none, none⟩, nodeReset⟩, some k, σ'.rootNode⟩ := by
    intro σ' hnodes hfree
    rw [freeNode, TopicTree.set, hfree, funext hnodes]
  rw [nodeDelete, if_pos hcan]
  dsimp only
  rw [hfree]
  · cases (σ.nodes k).upHier <;> cases (σ.nodes k).upNhbr <;> rfl
  · intro j
    unfold unhang
    cases (σ.nodes k).upHier with
    | none =>
      cases (σ.nodes k).upNhbr with
      | none => rfl
      | some a => simp [setDnNhbr_nodes]
    | some b =>
      cases (σ.nodes k).upNhbr with
      | none => simp [setDnHier_nodes]
      | some a => simp [setDnHier_nodes, setDnNhbr_nodes]
  · cases (σ.nodes k).upHier <;> cases (σ.nodes k).upNhbr <;> rfl

theorem canDeleteNode_dn {c : TopicNode} (hcan : canDeleteNode c = true) :
    c.dnNhbr = none ∧ c.dnHier = none := by
  simp only [canDeleteNode, Bool.and_eq_true, Bool.not_eq_true', Bool.or_eq_false_iff,
    Option.isSome_eq_false_iff, Option.isNone_iff_eq_none] at hcan
  exact hcan.2

theorem TreeOk.unhang (hσ : TreeOk σ t free) (hk : k ∉ ids t ++ free)
    (hcan : canDeleteNode (σ.nodes k) = true) :
    TreeOk ⟨Function.update (Server.unhang σ k) k ⟨⟨σ.freeNodes, none, none, none⟩, nodeReset⟩,
      some k, σ.rootNode⟩ t (k :: free) := by
  have hup := hσ.aside k hk
  have hin : ∀ j ∈ ids t ++ free, Server.unhang σ k j = σ.nodes j := by
    intro j hj
    have hn : (σ.nodes k).upNhbr ≠ some j := fun h => (hup.nhbr j h).1 hj
    have hh : (σ.nodes k).upHier ≠ some j := fun h => (hup.hier j h).1 hj
    rw [Server.unhang, if_neg hn, if_neg hh]
  have hsame : ∀ j ∈ ids t ++ free, Function.update (Server.unhang σ k) k
      ⟨⟨σ.freeNodes, none, none, none⟩, nodeReset⟩ j = σ.nodes j := fun j hj =>
    (Function.update_of_ne (ne_of_mem_of_not_mem hj hk) _ _).trans (hin j hj)
  have hdn := canDeleteNode_dn hcan
  refine ⟨⟨⟨⟨?_, ⟨?_, ?_⟩, rfl, ?_⟩, hσ.root, hσ.leveled⟩, hσ.neat, hσ.oneQos⟩, fun j hj => ?_⟩
  · exact hσ.rep.congr fun j hj => hsame j (List.mem_append_left _ hj)
  · rw [← hσ.head]
    exact Function.update_self ..
  · exact hσ.freeList.congr fun j hj => hsame j (List.mem_append_right _ hj)
  · exact (List.perm_middle.nodup_iff).mpr (List.nodup_cons.mpr ⟨hk, hσ.nodup⟩)
  · have hjk : j ≠ k := by
      rintro rfl
      exact hj (List.mem_append_right _ List.mem_cons_self)
    have hout : ∀ {x}, x ≠ k → x ∉ ids t ++ free → x ∉ ids t ++ k :: free := by
      intro x hxk hx hx'
      rcases List.mem_append.mp hx' with h | h
      · exact hx (List.mem_append_left _ h)
      · exact hx (List.mem_append_right _ ((List.mem_cons.mp h).resolve_left hxk))
    have hj' : j ∉ ids t ++ free := fun h => hj (by
      rw [List.mem_append, List.mem_cons]
      exact (List.mem_append.mp h).imp_right .inr)
    have hupj := hσ.aside j hj'
    refine ⟨fun x hx => ?_, fun x hx => ?_⟩
    · dsimp only at hx ⊢
      rw [Function.update_of_ne hjk] at hx
      obtain ⟨hx', hdnx⟩ := hupj.nhbr x hx
      have hxk : x ≠ k := by
        rintro rfl
        cases hdn.1.symm.trans hdnx
      refine ⟨hout hxk hx', ?_⟩
      rw [Function.update_of_ne hxk, Server.unhang]
      dsimp only
      rw [if_neg, hdnx]
      intro h
      exact hjk (Option.some.inj (hdnx.symm.trans (hup.nhbr x h).2))
    · dsimp only at hx ⊢
      rw [Function.update_of_ne hjk] at hx
      obtain ⟨hx', hdnx⟩ := hupj.hier x hx
      have hxk : x ≠ k := by
        rintro rfl
        cases hdn.2.symm.trans hdnx
      refine ⟨hout hxk hx', ?_⟩
      rw [Function.update_of_ne hxk, Server.unhang]
      dsimp only
      rw [if_neg, hdnx]
      intro h
      exact hjk (Option.some.inj (hdnx.symm.trans (hup.hier x h).2))

theorem TreeOk.deleteBeside (hσ : TreeOk σ t free) (hk : k ∉ ids t ++ free) :
    ∃ t' free', TreeOk (Server.nodeDelete σ k).2 t' free' ∧ (t' = t ∨ t' = .nil) ∧
      ∀ j, (Server.nodeDelete σ k).1 = some j → j ∉ ids t' ++ free' := by
  by_cases hcan : canDeleteNode (σ.nodes k) = true
  · rw [nodeDelete_unhang σ hcan]
    by_cases htop : (σ.nodes k).upNhbr = none ∧ (σ.nodes k).upHier = none
    · rw [if_pos htop]
      refine ⟨.nil, k :: free, (hσ.unhang hk hcan).lost, .inr rfl, fun j hj => ?_⟩
      dsimp only at hj
      rw [htop.1, htop.2] at hj
      cases hj
    · rw [if_neg htop]
      refine ⟨t, k :: free, hσ.unhang hk hcan, .inl rfl, fun j hj => ?_⟩
      have hup := hσ.aside k hk
      have hdn := canDeleteNode_dn hcan
      have hout : j ∉ ids t ++ free ∧ j ≠ k := by
        dsimp only at hj
        split_ifs at hj
        · obtain ⟨hout, hd⟩ := hup.hier j hj
          exact ⟨hout, fun h => by rw [h, hdn.2] at hd; cases hd⟩
        · obtain ⟨hout, hd⟩ := hup.nhbr j hj
          exact ⟨hout, fun h => by rw [h, hdn.1] at hd; cases hd⟩
      intro hj'
      rcases List.mem_append.mp hj' with h | h
      · exact hout.1 (List.mem_append_left _ h)
      · exact hout.1 (List.mem_append_right _ ((List.mem_cons.mp h).resolve_left hout.2))
  · have hstop : Server.nodeDelete σ k = (none, σ) := by
      rw [Server.nodeDelete, if_neg hcan]
    rw [hstop]
    exact ⟨t, free, hσ, .inl rfl, fun j hj => absurd hj.symm (Option.some_ne_none j)⟩

theorem TreeOk.tryBeside (fuel : Nat) : ∀ {σ σ' : TopicTree} {t : Tree} {free : List NodeIdx}
    {k : NodeIdx}, TreeOk σ t free → k ∉ ids t ++ free →
      tryNodeDeleteLoop fuel σ (some k) = some σ' →
        ∃ t' free', TreeOk σ' t' free' ∧ (t' = t ∨ t' = .nil) := by
  induction fuel with
  | zero => exact fun _ _ h => nomatch h
  | succ fuel ih =>
    intro σ σ' t free k hσ hk hrun
    rw [tryNodeDeleteLoop] at hrun
    split_ifs at hrun
    · obtain ⟨t₁, free₁, hσ₁, ht₁, hnext⟩ := hσ.deleteBeside hk
      dsimp only at hrun
      cases hn : (Server.nodeDelete σ k).1 with
      | none =>
        rw [hn] at hrun
        cases fuel <;> exact Option.some.inj hrun ▸ ⟨t₁, free₁, hσ₁, ht₁⟩
      | some j =>
        rw [hn] at hrun
        obtain ⟨t', free', hσ', ht'⟩ := ih hσ₁ (hnext j hn) hrun
        exact ⟨t', free', hσ', ht'.elim (fun h => h ▸ ht₁) .inr⟩
    · exact Option.some.inj hrun ▸ ⟨t, free, hσ, .inl rfl⟩

theorem TreeOk.setBeside (hσ : TreeOk σ t free) (hk : k ∉ ids t ++ free) (c : NodeData) :
    TreeOk (σ.setVal k c) t free := by
  have hsame : ∀ j ∈ ids t ++ free, (σ.setVal k c).nodes j = σ.nodes j := fun j hj =>
    Function.update_of_ne (ne_of_mem_of_not_mem hj hk) _ _
  have hlinks : ∀ j, ((σ.setVal k c).nodes j).toLinks = (σ.nodes j).toLinks := by
    intro j
    by_cases hjk : j = k
    · have hself : (σ.setVal k c).nodes k = { σ.nodes k with val := c } := Function.update_self ..
      rw [hjk, hself]
    · have hother : (σ.setVal k c).nodes j = σ.nodes j := Function.update_of_ne hjk _ _
      rw [hother]
  refine ⟨⟨⟨⟨?_, ?_, hσ.head, hσ.nodup⟩, hσ.root, hσ.leveled⟩, hσ.neat, hσ.oneQos⟩, fun j hj => ?_⟩
  · exact hσ.rep.congr fun j hj => hsame j (List.mem_append_left _ hj)
  · exact hσ.freeList.congr fun j hj => hsame j (List.mem_append_right _ hj)
  · have hup := hσ.aside j hj
    refine ⟨fun x hx => ?_, fun x hx => ?_⟩
    · rw [hlinks] at hx ⊢
      exact hup.nhbr x hx
    · rw [hlinks] at hx ⊢
      exact hup.hier x hx

theorem TreeOk.will_mem (hσ : TreeOk σ t free) {w : ClIdx} (hw : (σ.nodes k).val.willCl = some w) :
    k ∉ free := by
  intro hk
  have hfree : ∀ l, FreeList σ.nodes nodeReset l → k ∈ l → (σ.nodes k).val = nodeReset := by
    intro l
    induction l with
    | nil => exact fun _ hk => nomatch hk
    | cons i l ih =>
      intro hl hk
      cases hk with
      | head => rw [hl.1]
      | tail _ hk => exact ih hl.2 hk
  rw [hfree free hσ.freeList hk] at hw
  cases hw

theorem TreeOk.look_val (hσ : TreeOk σ t free) {q : List (List UInt8)} {c : NodeData}
    (hl : look NodeData.subtop t q = some (k, c)) : (σ.nodes k).val = c := by
  obtain ⟨fs, h, n, rfl, -⟩ := look_place hl
  rw [hσ.toParts.cell]

theorem TreeOk.mem_look (hσ : TreeOk σ t free) (hk : k ∈ ids t) :
    ∃ q, look NodeData.subtop t q = some (k, (σ.nodes k).val) := by
  obtain ⟨q, c, hl⟩ := hσ.neat.look_of_mem hk
  exact ⟨q, by rw [hl, hσ.look_val hl]⟩

theorem TreeOk.setTryAny (hσ : TreeOk σ t free) (hk : k ∉ free) {c : NodeData}
    (hsub : c.subtop = (σ.nodes k).val.subtop) (hone : (σ.nodes k).val.OneQos → c.OneQos)
    {σ' : TopicTree} (hrun : Server.tryNodeDelete (σ.setVal k c) k = some σ') :
    ∃ t' free', TreeOk σ' t' free' ∧
      ((∃ q, look NodeData.subtop t q = some (k, (σ.nodes k).val) ∧ Rewrites t t' q c.entry) ∨
        t' = t ∨ t' = .nil) := by
  by_cases hkt : k ∈ ids t
  · obtain ⟨q, hl⟩ := hσ.mem_look hkt
    have hval : (σ.nodes k).val ∈ vals t := by
      obtain ⟨fs, h, n, rfl, -⟩ := look_place hl
      exact (mem_vals_plug fs _).mpr (.inl List.mem_cons_self)
    obtain ⟨σ₁, t', free', hrun', hσ', -, hrw⟩ := hσ.setTry hl hsub (hone (hσ.oneQos _ hval))
    cases hrun.symm.trans hrun'
    exact ⟨t', free', hσ', .inl ⟨q, hl, hrw⟩⟩
  · have hout : k ∉ ids t ++ free := fun h => (List.mem_append.mp h).elim hkt hk
    obtain ⟨t', free', hσ', ht'⟩ := TreeOk.tryBeside loopBound (hσ.setBeside hout c) hout hrun
    exact ⟨t', free', hσ', .inr ht'⟩

end Beside

/-! ## Deletion of a session -/

theorem unmapFirst_oneQos {map : BitVec 32} {c : NodeData} (hc : c.OneQos) :
    (unmapFirst map c).OneQos := by
  have hless : ∀ q i, bit ((unmapFirst map c).clMap q) i = true → bit (c.clMap q) i = true := by
    intro q i h
    unfold unmapFirst at h
    cases hq : qosOf c map with
    | none => rwa [hq] at h
    | some q₁ =>
      rw [hq] at h
      dsimp only at h
      rw [Function.update_apply] at h
      split_ifs at h with hqq
      · rw [bit_eq, BitVec.getLsbD_and, Bool.and_eq_true, ← bit_eq] at h
        exact hqq ▸ h.1
      · exact h
  exact fun i q q' h h' => hc i q q' (hless q i h) (hless q' i h')

theorem TreeOk.sessionTreeDelete {σ : TopicTree} {t : Tree} {free : List NodeIdx}
    (hσ : TreeOk σ t free) (usr : ClIdx) (m : ClMgmt) {st : NodeStack}
    (hroom : st.length + (ids t).length ≤ maxTopNodes) :
    ∃ σ' free' is, Server.sessionTreeDelete usr (σ, m) st =
        some ((σ', uncount usr (total (subbed (clBmapGet m usr)) t) m), is, st) ∧
      TreeOk σ' (swept (clBmapGet m usr) t) free' ∧
      Moves σ σ' t (swept (clBmapGet m usr) t) free free' ∧ is.map Prod.fst = ids t ∧
      ∀ x ∈ is, InTree x := by
  obtain ⟨σ', free', is, hrun, hσ', hm, hids, hin⟩ :=
    @sessionTreeDelete_eq usr σ t free hσ.toHolds m st hroom
  have hslashed : ∀ c, Slashed c → Slashed (unmapFirst (clBmapGet m usr) c) := by
    intro c hc
    unfold Slashed
    rwa [unmapFirst_subtop]
  refine ⟨σ', free', is, hrun, hσ.moves ⟨hσ', ?_, fun d hd => ?_⟩ hm, hm, hids, hin⟩
  · exact (hσ.neat.sweep (unmapFirst_subtop _) hslashed).1
  · obtain ⟨c, hc, rfl⟩ := mem_vals_sweep hd
    exact unmapFirst_oneQos (hσ.oneQos c hc)

end SimpleLink.Server
