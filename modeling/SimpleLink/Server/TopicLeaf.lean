import SimpleLink.Server.CreateUndo

/-!
# A topic and its leaf (`server_core.c`)

The leaf that `topic_node_create` returns is the one that `leaf_node_find` finds
for the topic, and for no other. The topic is read off the tree again by
`proc_client_will`, from the leaf upwards, and by `topbuf_add`, from the root
downwards; a topic of a tree always fits the work buffer. Creating a topic
leaves what is found for the others, except that the nodes above the new leaf
are found for the topics that they end.
-/

namespace SimpleLink.Server

open Lib LinkTree

/-! ## Collecting the levels -/

/-- The first of the neighbours: `while(node->up_nhbr) node = node->up_nhbr`. -/
def topOfRow (nodes : NodeIdx → TopicNode) : Nat → NodeIdx → Option NodeIdx
  | 0, _ => none
  | fuel + 1, i =>
    match (nodes i).upNhbr with
    | none => some i
    | some j => topOfRow nodes fuel j

/-- The loop of `proc_client_will`, with what is collected; `some none` where it is too long. -/
def willTopicLoop (nodes : NodeIdx → TopicNode) :
    Nat → NodeIdx → List UInt8 → Option (Option (List UInt8))
  | 0, _, _ => none
  | fuel + 1, i, buf =>
    let subtop := (nodes i).val.subtop
    if wbufLen - 1 - buf.length < subtop.length then some none
    else
      match topOfRow nodes loopBound i with
      | none => none
      | some j =>
        match (nodes j).upHier with
        | none => some (some (subtop ++ buf))
        | some k => willTopicLoop nodes fuel k (subtop ++ buf)

/-- The topic of `proc_client_will`. -/
def willTopic (σ : TopicTree) (leaf : NodeIdx) : Option (Option (List UInt8)) :=
  willTopicLoop σ.nodes loopBound leaf []

/-- `topbuf_add`, with what is in the buffer. -/
def topbufAdd (buf subtop : List UInt8) : Option (List UInt8) :=
  match subtopRead subtop (wbufLen - buf.length) with
  | (_, some _) => none
  | (sub, none) => some (buf ++ sub)

def climb (nodes : NodeIdx → TopicNode) : Nat → NodeIdx → List NodeIdx → Option (List NodeIdx)
  | 0, _, _ => none
  | fuel + 1, i, path =>
    match topOfRow nodes loopBound i with
    | none => none
    | some j =>
      match (nodes j).upHier with
      | none => some (i :: path)
      | some k => climb nodes fuel k (i :: path)

/-- The topic of a node in the traversals, which add the levels on the way down to it. -/
def topbufTopic (σ : TopicTree) (leaf : NodeIdx) : Option (Option (List UInt8)) :=
  (climb σ.nodes loopBound leaf []).map fun path =>
    path.foldlM (fun buf i => topbufAdd buf (σ.nodes i).val.subtop) []

section Collect

variable {nodes : NodeIdx → TopicNode}

theorem topOfRow_up (fuel : Nat) : ∀ {fs : Place} {i : NodeIdx} {c : NodeData} {h n : Tree},
    Rep nodes none none (plug fs (.node i c h n)) → (frameIds fs).length < fuel →
      ∃ j, topOfRow nodes fuel i = some j ∧
        ((nodes j).upHier = none ∧ pathOf NodeData.subtop fs = [] ∨
          ∃ k d h' n' fs', (nodes j).upHier = some k ∧
            plug fs' (.node k d h' n') = plug fs (.node i c h n) ∧
            pathOf NodeData.subtop fs = pathOf NodeData.subtop fs' ++ [d.subtop] ∧
            (frameIds fs').length < (frameIds fs).length) := by
  induction fuel with
  | zero => exact fun _ hfuel => nomatch hfuel
  | succ fuel ih =>
    intro fs i c h n hrep hfuel
    have hcell := ((rep_plug fs _).mp hrep).1.1
    rw [topOfRow, hcell]
    cases fs with
    | nil => exact ⟨i, rfl, .inl ⟨by rw [hcell]; rfl, rfl⟩⟩
    | cons f fs =>
      cases f with
      | hier k d n' =>
        refine ⟨i, rfl, .inr ⟨k, d, _, n', fs, by rw [hcell]; rfl, rfl, rfl, ?_⟩⟩
        rw [frameIds, List.length_cons, List.length_append]
        omega
      | nhbr j d h' =>
        rw [frameIds, List.length_cons, List.length_append] at hfuel ⊢
        have hrep' : Rep nodes none none (plug fs (.node j d h' (.node i c h n))) := hrep
        obtain ⟨j', hj', hup⟩ := ih hrep' (by omega)
        refine ⟨j', hj', hup.imp_right ?_⟩
        rintro ⟨k, e, h'', n', fs', hk, hplug, hpath, hlen⟩
        exact ⟨k, e, h'', n', fs', hk, hplug, hpath, by omega⟩

theorem willTopicLoop_eq (fuel : Nat) : ∀ {fs : Place} {i : NodeIdx} {c : NodeData} {h n : Tree}
    {buf : List UInt8}, Rep nodes none none (plug fs (.node i c h n)) →
      (frameIds fs).length < fuel → (frameIds fs).length < loopBound →
      ((pathOf NodeData.subtop fs ++ [c.subtop]).flatten ++ buf).length < wbufLen →
      willTopicLoop nodes fuel i buf =
        some (some ((pathOf NodeData.subtop fs ++ [c.subtop]).flatten ++ buf)) := by
  induction fuel with
  | zero => exact fun _ hfuel => nomatch hfuel
  | succ fuel ih =>
    intro fs i c h n buf hrep hfuel hbound hlen
    obtain ⟨j, hj, hup⟩ := topOfRow_up loopBound hrep hbound
    simp only [List.flatten_append, List.flatten_singleton, List.length_append] at hlen ⊢
    have hroom : ¬ wbufLen - 1 - buf.length < c.subtop.length := by omega
    rw [willTopicLoop, ((rep_plug fs _).mp hrep).1.1]
    dsimp only
    rw [if_neg hroom, hj]
    dsimp only
    rcases hup with ⟨htop, hpath⟩ | ⟨k, d, h', n', fs', hk, hplug, hpath, hless⟩
    · rw [htop, hpath]
      rfl
    · rw [hk, hpath]
      have hread := @ih fs' k d h' n' (c.subtop ++ buf) (hplug ▸ hrep) (by omega) (by omega) (by
        simp only [hpath, List.flatten_append, List.flatten_singleton, List.length_append] at hlen ⊢
        omega)
      simpa using hread

theorem climb_eq (fuel : Nat) : ∀ {fs : Place} {i : NodeIdx} {c : NodeData} {h n : Tree}
    {path : List NodeIdx}, Rep nodes none none (plug fs (.node i c h n)) →
      (frameIds fs).length < fuel → (frameIds fs).length < loopBound →
      ∃ up, climb nodes fuel i path = some (up ++ path) ∧
        up.map (fun j => (nodes j).val.subtop) = pathOf NodeData.subtop fs ++ [c.subtop] := by
  induction fuel with
  | zero => exact fun _ hfuel => nomatch hfuel
  | succ fuel ih =>
    intro fs i c h n path hrep hfuel hbound
    have hcell := ((rep_plug fs _).mp hrep).1.1
    obtain ⟨j, hj, hup⟩ := topOfRow_up loopBound hrep hbound
    rw [climb, hj]
    dsimp only
    rcases hup with ⟨htop, hpath⟩ | ⟨k, d, h', n', fs', hk, hplug, hpath, hless⟩
    · rw [htop, hpath]
      exact ⟨[i], rfl, by rw [List.map_singleton, hcell]; rfl⟩
    · rw [hk, hpath]
      obtain ⟨up, hrun, hsub⟩ := @ih fs' k d h' n' (i :: path) (hplug ▸ hrep) (by omega) (by omega)
      refine ⟨up ++ [i], ?_, ?_⟩
      · rw [List.append_assoc]
        exact hrun
      · rw [List.map_append, hsub, List.map_singleton, hcell]

end Collect

theorem foldlM_topbufAdd (ls : List (List UInt8)) : ∀ {buf : List UInt8}, (∀ l ∈ ls, IsLevel l) →
    (buf ++ ls.flatten).length + 1 < wbufLen → ls.foldlM topbufAdd buf = some (buf ++ ls.flatten) := by
  induction ls with
  | nil => exact fun _ _ => by rw [List.flatten_nil, List.append_nil]; rfl
  | cons l ls ih =>
    intro buf hls hlen
    have hl : firstLevel l = (l, none) := hls l List.mem_cons_self
    have hfits : FitsIn (wbufLen - buf.length - 1) (firstLevel l).1 := by
      rw [hl]
      rw [List.flatten_cons, List.length_append, List.length_append] at hlen
      unfold FitsIn
      dsimp only
      split_ifs
      · omega
      · omega
    have hadd : topbufAdd buf l = some (buf ++ l) := by
      rw [topbufAdd, subtopRead_fits hfits, hl]
    rw [List.foldlM_cons, hadd, List.flatten_cons, ← List.append_assoc]
    refine ih (fun l' hl' => hls l' (List.mem_cons_of_mem _ hl')) ?_
    rwa [List.flatten_cons, ← List.append_assoc] at hlen

theorem FitsIn.length_le {room : Nat} {l : List UInt8} (h : FitsIn room l) : l.length ≤ room := by
  unfold FitsIn at h
  split_ifs at h
  · exact h
  · exact Nat.le_of_lt h

theorem length_flatten_le {ls : List (List UInt8)} {n : Nat} (h : ∀ l ∈ ls, l.length ≤ n) :
    ls.flatten.length ≤ ls.length * n := by
  induction ls with
  | nil => exact Nat.zero_le _
  | cons l ls ih =>
    rw [List.flatten_cons, List.length_append, List.length_cons, Nat.succ_mul]
    have hl := h l List.mem_cons_self
    have hls := ih fun l' hl' => h l' (List.mem_cons_of_mem _ hl')
    omega

/-! ## Topics and leaves -/

section Leaf

variable {σ : TopicTree} {t : Tree} {free : List NodeIdx} {s : List UInt8}

theorem topic_read {i : NodeIdx} {c : NodeData} (hσ : Holds σ t free)
    (hl : look (·.subtop) t (levels s) = some (i, c)) :
    willTopic σ i = some (some s) ∧ topbufTopic σ i = some (some s) := by
  cases hs : search (·.subtop) [] t (levels s) with
  | missing fs ks => cases hl.symm.trans (search_missing hs (levels_ne_nil s)).2.1
  | found fs i' c' h n =>
    obtain ⟨hplug, hlook, hpath, -⟩ := search_found hs
    cases hl.symm.trans hlook
    obtain rfl : plug fs (.node i c h n) = t := hplug
    have hpath : pathOf NodeData.subtop fs ++ [c.subtop] = levels s := hpath
    have hcount := Nat.le_of_add_right_le hσ.length_le
    rw [length_ids_plug, ids, List.length_cons] at hcount
    have hpathlen := pathOf_length_le NodeData.subtop fs
    have hlevels : (levels s).length ≤ maxTopNodes := by
      rw [← hpath, List.length_append, List.length_singleton]
      omega
    have hmem : ∀ l ∈ levels s, l.length ≤ maxSubtopLen - 1 := by
      intro l hl
      rw [← hpath] at hl
      rcases List.mem_append.mp hl with hl | hl
      · obtain ⟨d, hd, rfl⟩ := mem_pathOf hl
        exact (hσ.leveled d ((mem_vals_plug fs _).mpr (.inr hd))).2.length_le
      · rw [List.mem_singleton.mp hl]
        exact (hσ.leveled c ((mem_vals_plug fs _).mpr (.inl List.mem_cons_self))).2.length_le
    have hlen : s.length + 1 < wbufLen := by
      have := length_flatten_le hmem
      rw [flatten_levels] at this
      calc s.length + 1 ≤ (levels s).length * (maxSubtopLen - 1) + 1 := Nat.succ_le_succ this
        _ ≤ maxTopNodes * (maxSubtopLen - 1) + 1 := Nat.succ_le_succ (Nat.mul_le_mul_right _ hlevels)
        _ < wbufLen := by decide
    have hbound : (frameIds fs).length < loopBound := by
      have : maxTopNodes < loopBound := Nat.lt_succ_self _
      omega
    constructor
    · have hread := @willTopicLoop_eq _ loopBound fs i c h n [] hσ.rep hbound hbound
      rw [hpath, flatten_levels, List.append_nil] at hread
      exact hread (Nat.lt_of_succ_lt hlen)
    · obtain ⟨up, hup, hsub⟩ := @climb_eq _ loopBound fs i c h n [] hσ.rep hbound hbound
      rw [topbufTopic, hup, List.append_nil, Option.map_some]
      have hadd := @foldlM_topbufAdd (levels s) [] (isLevel_of_mem_levels s)
        (by rwa [List.nil_append, flatten_levels])
      rw [List.nil_append, flatten_levels, ← hpath, ← hsub, List.foldlM_map] at hadd
      rw [hadd]

/-- A level before the last one ends with `/`. -/
theorem getLast_slash {ls r : List (List UInt8)} {l : List UInt8} :
    ∀ {s : List UInt8}, levels s = ls ++ l :: r → r ≠ [] → l.getLast? = some slash := by
  induction ls with
  | nil =>
    intro s hs hr
    rw [levels_eq, List.nil_append, List.cons.injEq] at hs
    cases hnext : (firstLevel s).2 with
    | none =>
      rw [hnext] at hs
      exact absurd hs.2.symm hr
    | some s' =>
      rw [← hs.1]
      exact firstLevel_getLast hnext
  | cons l' ls ih =>
    intro s hs hr
    rw [levels_eq, List.cons_append, List.cons.injEq] at hs
    cases hnext : (firstLevel s).2 with
    | none =>
      rw [hnext] at hs
      exact absurd hs.2.symm (by simp [nextLevels])
    | some s' =>
      rw [hnext] at hs
      exact ih hs.2 hr

/-- A topic whose levels begin another's is a beginning of it that ends with `/`. -/
theorem prefix_of_levels {s₁ : List UInt8} (h : levels s₁ <+: levels s) (hne : s₁ ≠ s) :
    s₁ <+: s ∧ s₁.getLast? = some slash := by
  obtain ⟨r, hr⟩ := h
  have hr' : r ≠ [] := by
    rintro rfl
    rw [List.append_nil] at hr
    exact hne (levels_inj hr)
  have hflat := congrArg List.flatten hr
  rw [List.flatten_append, flatten_levels, flatten_levels] at hflat
  refine ⟨⟨r.flatten, hflat⟩, ?_⟩
  obtain ⟨ls, l, hls⟩ := (List.eq_nil_or_concat (levels s₁)).resolve_left (levels_ne_nil s₁)
  rw [List.concat_eq_append] at hls
  rw [hls, List.append_assoc] at hr
  have hl : l.getLast? = some slash := getLast_slash hr.symm hr'
  have hs₁ : s₁ = ls.flatten ++ l := by
    rw [← flatten_levels s₁, hls, List.flatten_append, List.flatten_singleton]
  have hlne : l ≠ [] := by
    rintro rfl
    cases hl
  rw [hs₁, List.getLast?_append_of_ne_nil _ hlne, hl]

theorem newCells_keys {rest : List UInt8} (hcr : Creatable free rest) :
    (newCells free (levels rest)).map (fun p => p.2.subtop) = levels rest := by
  have hsnd : (newCells free (levels rest)).map Prod.snd = (levels rest).map newNode :=
    List.map_snd_zip (by rw [List.length_map]; exact hcr.2.2)
  calc (newCells free (levels rest)).map (fun p => p.2.subtop)
      = ((newCells free (levels rest)).map Prod.snd).map NodeData.subtop := by
        rw [List.map_map]
        rfl
    _ = levels rest := by
        rw [hsnd, List.map_map]
        exact List.map_id _

/-- What `topic_node_create` does to the tree, where it succeeds. -/
theorem created_look (hσ : Holds σ t free) {σ' : TopicTree} {leaf : NodeIdx}
    (hrun : topicNodeCreate σ s = some (some leaf, σ')) :
    ∃ t' free' c, Holds σ' t' free' ∧ look (·.subtop) t' (levels s) = some (leaf, c) ∧
      (∀ q p, look (·.subtop) t q = some p → look (·.subtop) t' q = some p) ∧
      ∀ q, ¬ q <+: levels s → look (·.subtop) t' q = look (·.subtop) t q := by
  cases hs : search (·.subtop) [] t (levels s) with
  | found fs i c h n =>
    have hl := (search_found hs).2.1
    cases (topicNodeCreate_found hσ hl).symm.trans hrun
    exact ⟨t, free, c, hσ, hl, fun _ _ h => h, fun _ _ => rfl⟩
  | missing fs ks =>
    obtain ⟨rest, -, rfl⟩ := hσ.missing hs
    by_cases hcr : Creatable free rest
    · obtain ⟨σ'', leaf', hrun', hleaf, -, hσ'⟩ := topicNodeCreate_created hσ hs hcr
      cases hrun.symm.trans hrun'
      have hkeys := newCells_keys hcr
      rw [← hkeys] at hs
      obtain ⟨hself, hold, hother, -⟩ := look_plug_chain hs (levels_ne_nil s)
      rw [hkeys] at hs
      cases hlast : (newCells free (levels rest)).getLast? with
      | none =>
        rw [hlast] at hleaf
        cases hleaf
      | some p =>
        rw [hlast] at hleaf hself
        cases hleaf
        exact ⟨_, _, p.2, hσ', hself, hold, hother⟩
    · obtain ⟨σ'', hrun', -⟩ := topicNodeCreate_failed hσ hs hcr
      cases hrun.symm.trans hrun'

/-- A topic that is accepted has one leaf, and the leaf that topic; no other topic that is found
before is found elsewhere after, and what is found anew is a level of the topic above its leaf. -/
theorem topic_leaf (hσ : Holds σ t free) {σ' : TopicTree} {leaf : NodeIdx}
    (hrun : topicNodeCreate σ s = some (some leaf, σ')) :
    leafNodeFind σ' s = some (some leaf) ∧
      willTopic σ' leaf = some (some s) ∧ topbufTopic σ' leaf = some (some s) ∧
      topicNodeCreate σ' s = some (some leaf, σ') ∧
      (∀ s₁ s₂ i₁ i₂, leafNodeFind σ' s₁ = some (some i₁) → leafNodeFind σ' s₂ = some (some i₂) →
        (i₁ = i₂ ↔ s₁ = s₂)) ∧
      (∀ s₁ i, leafNodeFind σ s₁ = some (some i) → leafNodeFind σ' s₁ = some (some i)) ∧
      ∀ s₁, s₁ ≠ s → ¬ (s₁ <+: s ∧ s₁.getLast? = some slash) →
        leafNodeFind σ' s₁ = leafNodeFind σ s₁ := by
  obtain ⟨t', free', c, hσ', hself, hold, hother⟩ := created_look hσ hrun
  have hfind : ∀ {s₁ : List UInt8} {i : NodeIdx}, leafNodeFind σ' s₁ = some (some i) →
      ∃ d, look (·.subtop) t' (levels s₁) = some (i, d) := by
    intro s₁ i h
    rw [leafNodeFind_eq hσ', Option.some.injEq, Option.map_eq_some_iff] at h
    obtain ⟨⟨j, d⟩, hl, rfl⟩ := h
    exact ⟨d, hl⟩
  obtain ⟨hwill, hbuf⟩ := topic_read hσ' hself
  refine ⟨?_, hwill, hbuf, topicNodeCreate_found hσ' hself, ?_, ?_, ?_⟩
  · rw [leafNodeFind_eq hσ', hself]
    rfl
  · intro s₁ s₂ i₁ i₂ h₁ h₂
    obtain ⟨d₁, hl₁⟩ := hfind h₁
    obtain ⟨d₂, hl₂⟩ := hfind h₂
    constructor
    · rintro rfl
      exact levels_inj (look_inj hσ'.nodup.of_append_left hl₁ hl₂)
    · rintro rfl
      exact congrArg Prod.fst (Option.some.inj (hl₁.symm.trans hl₂))
  · intro s₁ i h
    rw [leafNodeFind_eq hσ, Option.some.injEq, Option.map_eq_some_iff] at h
    obtain ⟨p, hl, rfl⟩ := h
    rw [leafNodeFind_eq hσ', hold _ _ hl]
    rfl
  · intro s₁ hne hpre
    rw [leafNodeFind_eq hσ', leafNodeFind_eq hσ, hother _ fun h => hpre (prefix_of_levels h hne)]

/-- `a/b`, the first topic of the server. -/
theorem topic_leaf_first : ∃ σ' leaf,
    topicNodeCreate topicNodeInit [0x61, slash, 0x62] = some (some leaf, σ') ∧
      leafNodeFind σ' [0x61, slash, 0x62] = some (some leaf) ∧
      willTopic σ' leaf = some (some [0x61, slash, 0x62]) := by
  have hs : search (·.subtop) [] .nil (levels [0x61, slash, 0x62]) =
      (.missing [] (levels [0x61, slash, 0x62]) : Search NodeIdx (List UInt8) NodeData) := rfl
  obtain ⟨σ', leaf, hrun, -⟩ := topicNodeCreate_created topicNodeInit_holds hs (by decide)
  have h := topic_leaf topicNodeInit_holds hrun
  exact ⟨σ', leaf, hrun, h.1, h.2.1⟩

/-- Once `a/b` is created, `a/` is found too. -/
theorem inner_topic_found : ¬ ∀ (σ σ' : TopicTree) (t : Tree) (free : List NodeIdx)
    (s s₁ : List UInt8) (leaf : NodeIdx), Holds σ t free →
      topicNodeCreate σ s = some (some leaf, σ') → s₁ ≠ s →
      leafNodeFind σ' s₁ = leafNodeFind σ s₁ := by
  intro h
  have hs : search (·.subtop) [] .nil (levels [0x61, slash, 0x62]) =
      (.missing [] (levels [0x61, slash, 0x62]) : Search NodeIdx (List UInt8) NodeData) := rfl
  obtain ⟨σ', leaf, hrun, -, -, hσ'⟩ := topicNodeCreate_created topicNodeInit_holds hs (by decide)
  have hsame := h _ _ _ _ _ [0x61, slash] _ topicNodeInit_holds hrun (by decide)
  rw [leafNodeFind_eq hσ', leafNodeFind_eq topicNodeInit_holds] at hsame
  revert hsame
  decide

end Leaf

end SimpleLink.Server
