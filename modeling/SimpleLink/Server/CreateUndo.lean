import SimpleLink.Server.TreeRep

/-!
# When `topic_node_create` fails (`server_core.c`)

A topic that does not fit the pool, or has a level that does not fit a node, has
its new nodes taken off again by `try_node_delete`. The first of them is not
linked upwards yet, and `node_delete` takes a node without upward links for the
root: it clears `root_node`. So a failure that has allocated a node loses the
tree, unless there was none.
-/

namespace SimpleLink.Server

open Lib LinkTree

/-- `root_node` and every node in use are as before, and the nodes that were free are free. -/
structure Undone (σ σ' : TopicTree) (free : List NodeIdx) : Prop where
  root : σ'.rootNode = σ.rootNode
  nodes : ∀ i ∉ free, σ'.nodes i = σ.nodes i
  freed : ∃ free', List.Perm free' free ∧ FreeList σ'.nodes nodeReset free' ∧
    σ'.freeNodes = free'.head?

/-- No tree, no free node, an empty topic, or all that is missing of the topic can be created. -/
def CanUndo (σ : TopicTree) (free : List NodeIdx) (s : List UInt8) : Prop :=
  σ.rootNode = none ∨ free = [] ∨ s = [] ∨
    ∀ rest, (lowestNodeFind σ s).bind Lowest.next = some rest → Creatable free rest

/-! ## The first state -/

theorem freeNode_parts {σ : TopicTree} {free : List NodeIdx} {i : NodeIdx}
    (hp : Parts σ .nil free) (hi : i ∉ free) : Parts (freeNode σ i) .nil (i :: free) := by
  refine ⟨trivial, ⟨?_, hp.freeList.congr fun j hj => ?_⟩, rfl, List.nodup_cons.mpr ⟨hi, hp.nodup⟩⟩
  · rw [freeNode, TopicTree.set, hp.head]
    exact Function.update_self ..
  · exact Function.update_of_ne (ne_of_mem_of_not_mem hj hi) _ _

theorem foldl_freeNode_parts (l : List NodeIdx) : ∀ {σ : TopicTree} {free : List NodeIdx},
    Parts σ .nil free → (l.reverse ++ free).Nodup →
      Parts (l.foldl freeNode σ) .nil (l.reverse ++ free) := by
  induction l with
  | nil => exact fun hp _ => hp
  | cons i l ih =>
    intro σ free hp hnd
    rw [List.reverse_cons, List.append_assoc] at hnd ⊢
    have hi : i ∉ free := (List.nodup_cons.mp hnd.of_append_right).1
    exact ih (freeNode_parts hp hi) hnd

theorem foldl_freeNode_root (l : List NodeIdx) (σ : TopicTree) :
    (l.foldl freeNode σ).rootNode = σ.rootNode := by
  induction l generalizing σ with
  | nil => rfl
  | cons i l ih => exact ih _

theorem topicNodeInit_holds : Holds topicNodeInit .nil (List.finRange maxTopNodes).reverse := by
  have hnone : Parts ⟨fun _ => ⟨⟨none, none, none, none⟩, nodeReset⟩, none, none⟩ .nil [] :=
    ⟨trivial, trivial, rfl, List.nodup_nil⟩
  have hp := foldl_freeNode_parts (List.finRange maxTopNodes) hnone
    (by simpa using List.nodup_reverse.mpr (List.nodup_finRange maxTopNodes))
  rw [List.append_nil] at hp
  exact ⟨hp, foldl_freeNode_root _ _, nofun⟩

/-! ## Failures -/

variable {σ : TopicTree} {t : Tree} {free : List NodeIdx}

theorem search_nil_missing {fs fs' : Place} {ks : List (List UInt8)}
    (hs : search (·.subtop) fs t (levels []) = .missing fs' ks) : ks = levels [] :=
  search_one_missing hs

/-- What `lowest_node_find` leaves of the topic is what is missing. -/
theorem Holds.missing (hσ : Holds σ t free) {s : List UInt8} {fs : Place} {ks : List (List UInt8)}
    (hs : search (·.subtop) [] t (levels s) = .missing fs ks) :
    ∃ rest, (lowestNodeFind σ s).bind Lowest.next = some rest ∧ levels rest = ks := by
  have hlow := hσ.lowest s
  rw [hs] at hlow
  obtain ⟨base, flagNh, rest, hlow, hrest, -⟩ := hlow
  exact ⟨rest, by rw [hlow]; rfl, hrest⟩

/-- `topic_node_create` undoes what it did if it fails, exactly where it loses no tree. -/
theorem create_undone (hσ : Holds σ t free) (s : List UInt8) :
    ∃ r σ', topicNodeCreate σ s = some (r, σ') ∧
      ((r = none → Undone σ σ' free) ↔ CanUndo σ free s) := by
  cases hs : search (·.subtop) [] t (levels s) with
  | found fs i c h n =>
    have hlook := (search_found hs).2.1
    refine ⟨some i, σ, topicNodeCreate_found hσ hlook, fun _ => ?_, nofun⟩
    have hlow := hσ.lowest s
    rw [hs] at hlow
    obtain ⟨flagNh, hlow⟩ := hlow
    refine .inr (.inr (.inr fun rest hrest => ?_))
    rw [hlow] at hrest
    cases hrest
  | missing fs ks =>
    obtain ⟨rest, hrest, rfl⟩ := hσ.missing hs
    by_cases hcr : Creatable free rest
    · obtain ⟨σ', leaf, hrun, -⟩ := topicNodeCreate_created hσ hs hcr
      refine ⟨some leaf, σ', hrun, fun _ => ?_, nofun⟩
      refine .inr (.inr (.inr fun rest' hrest' => ?_))
      exact Option.some.inj (hrest.symm.trans hrest') ▸ hcr
    · obtain ⟨σ', hrun, hnodes, hfree, hroot⟩ := topicNodeCreate_failed hσ hs hcr
      refine ⟨none, σ', hrun, fun h => ?_, fun h _ => ?_⟩
      · have hsame := (h rfl).root
        rw [hroot] at hsame
        split_ifs at hsame with hstop
        · rcases hstop with hnil | hnil
          · exact .inr (.inl hnil)
          · have hmem : [] ∈ levels s := by
              have hpath := (search_missing hs (levels_ne_nil s)).2.2.2.1
              rw [pathOf, List.nil_append, hnil] at hpath
              exact hpath ▸ List.mem_append_right _ List.mem_cons_self
            exact .inr (.inr (.inl (nil_mem_levels hmem)))
        · exact .inl hsame.symm
      · have hsame : σ'.rootNode = σ.rootNode := by
          rw [hroot]
          rcases h with h | h | h | h
          · rw [h, ite_self]
          · rw [if_pos (.inl h)]
          · subst h
            rw [if_pos (.inr (levels_inj (search_nil_missing hs)))]
          · exact absurd (h rest hrest) hcr
        refine ⟨hsame, fun i _ => congrFun hnodes i, free, List.Perm.refl _, ?_, ?_⟩
        · rw [hnodes]
          exact hσ.freeList
        · rw [hfree]
          exact hσ.head

/-- With `a` in the tree, the empty topic is refused, and `a` stays. -/
theorem create_undone_first : ∃ leaf σ σ' free,
    topicNodeCreate topicNodeInit [0x61] = some (some leaf, σ) ∧
      topicNodeCreate σ [] = some (none, σ') ∧ Undone σ σ' free ∧ σ'.rootNode = some leaf := by
  have hfirst : search (·.subtop) [] .nil (levels [0x61]) =
      (.missing [] (levels [0x61]) : Search NodeIdx (List UInt8) NodeData) := rfl
  obtain ⟨σ, leaf, hrun, hleaf, -, hσ⟩ := topicNodeCreate_created topicNodeInit_holds hfirst (by decide)
  obtain ⟨r, σ', hrun', hiff⟩ := create_undone hσ []
  have hempty : search (·.subtop) []
      (plug [] (chain (newCells (List.finRange maxTopNodes).reverse (levels [0x61])))) (levels []) =
        .missing [.nhbr 31 (newNode [0x61]) .nil] (levels []) := rfl
  obtain ⟨σ'', hfailed, -⟩ := topicNodeCreate_failed hσ hempty (by decide)
  obtain ⟨rfl, rfl⟩ := Prod.mk.inj (Option.some.inj (hrun'.symm.trans hfailed))
  have hundone := hiff.2 (.inr (.inr (.inl rfl))) rfl
  refine ⟨leaf, σ, _, _, hrun, hrun', hundone, ?_⟩
  rw [hundone.root, hσ.root, ← hleaf]
  rfl

/-- With `a` in the tree, a level of 32 characters loses it. -/
theorem create_not_undone : ¬ ∀ (σ : TopicTree) (t : Tree) (free : List NodeIdx) (s : List UInt8)
    (σ' : TopicTree), Holds σ t free → topicNodeCreate σ s = some (none, σ') → Undone σ σ' free := by
  intro h
  have hfirst : search (·.subtop) [] .nil (levels [0x61]) =
      (.missing [] (levels [0x61]) : Search NodeIdx (List UInt8) NodeData) := rfl
  obtain ⟨σ, leaf, -, -, -, hσ⟩ := topicNodeCreate_created topicNodeInit_holds hfirst (by decide)
  have hlong : search (·.subtop) []
      (plug [] (chain (newCells (List.finRange maxTopNodes).reverse (levels [0x61]))))
      (levels (List.replicate 32 0x62)) =
        .missing [.nhbr 31 (newNode [0x61]) .nil] (levels (List.replicate 32 0x62)) := rfl
  obtain ⟨σ', hrun, -, -, hroot⟩ := topicNodeCreate_failed hσ hlong (by decide)
  have hlost := (h _ _ _ _ _ hσ hrun).root
  rw [hroot, hσ.root] at hlost
  revert hlost
  decide

end SimpleLink.Server
