import SimpleLink.Server.FailedSubscribe

/-!
# The leaves that a PUBLISH reaches (`server_core.c`)

`reached` is what the searches of `proc_sub_tree_topPUB` find, one after the
other: the leaf of the topic, the leaves of the filters that it matches, and the
node above the last level where that level is not the first of its row. No leaf
is found twice. Each of them hands the message to its plug-ins, with the QoS that
the message came with.
-/

namespace SimpleLink.Server

open Lib LinkTree

/-- The leaves of a row, and of what is below it, that a topic reaches; `prev` is the node above. -/
def reached : Tree → Option NodeIdx → List UInt8 → List NodeIdx
  | .nil, _, _ => []
  | .node i c h n, prev, topPUB =>
    let (subtop, next) := subtopRead topPUB maxSubtopLen
    (if c.subtop = [hash] then [i]
      else if isNodePubSubtop c subtop next.isNone then
        match next with
        | none => [i]
        | some rest => reached h (some i) rest
      else if next = none then prev.toList
      else []) ++ reached n none topPUB

def reachedFrom (nodes : NodeIdx → TopicNode) :
    Nat → Option NodeIdx → Option NodeIdx → List UInt8 → List NodeIdx
  | 0, _, _, _ => []
  | _, none, _, _ => []
  | fuel + 1, some i, prev, topPUB =>
    let c := (nodes i).val
    let (subtop, next) := subtopRead topPUB maxSubtopLen
    (if c.subtop = [hash] then [i]
      else if isNodePubSubtop c subtop next.isNone then
        match next with
        | none => [i]
        | some rest => reachedFrom nodes fuel (nodes i).dnHier (some i) rest
      else if next = none then prev.toList
      else []) ++ reachedFrom nodes fuel (nodes i).dnNhbr none topPUB

def reachedBy (σ : TopicTree) (topPUB : List UInt8) : List NodeIdx :=
  reachedFrom σ.nodes maxTopNodes σ.rootNode none topPUB

theorem reachedFrom_eq {nodes : NodeIdx → TopicNode} {t : Tree} :
    ∀ {un uh : Option NodeIdx} {fuel : Nat}, Rep nodes un uh t → (ids t).length ≤ fuel →
      ∀ prev topPUB, reachedFrom nodes fuel (root t) prev topPUB = reached t prev topPUB := by
  induction t with
  | nil =>
    intro un uh fuel _ _ prev topPUB
    cases fuel <;> rfl
  | node i c h n ihh ihn =>
    intro un uh fuel hrep hfuel prev topPUB
    rw [ids, List.length_cons, List.length_append] at hfuel
    obtain ⟨fuel, rfl⟩ : ∃ f, fuel = f + 1 := ⟨fuel - 1, by omega⟩
    obtain ⟨hcell, hrh, hrn⟩ := hrep
    have hh := @ihh _ _ fuel hrh (by omega)
    have hn := @ihn _ _ fuel hrn (by omega)
    rw [root, reachedFrom, hcell, reached]
    dsimp only
    rw [hn]
    cases (subtopRead topPUB maxSubtopLen).2 with
    | none => rfl
    | some rest =>
      dsimp only
      rw [hh]

theorem reachedBy_eq {σ : TopicTree} {t : Tree} {free : List NodeIdx} (hσ : Holds σ t free)
    (topPUB : List UInt8) : reachedBy σ topPUB = reached t none topPUB := by
  rw [reachedBy, hσ.root]
  exact reachedFrom_eq hσ.rep (Nat.le_of_add_right_le hσ.length_le) none topPUB

theorem results_reached {t : Tree} : ∀ {v : HierState} {topPUB : List UInt8}, v.rest = some topPUB →
    topPUB ≠ [] → (results subLeafWalker t v).filterMap id = reached t v.prev topPUB := by
  induction t with
  | nil =>
    intro v topPUB hrest _
    have hbottom : subLeafWalker.bottom v = none := by
      simp [subLeafWalker, leafAt, hrest]
    rw [results, hbottom]
    rfl
  | node i c h n ihh ihn =>
    intro v topPUB hrest htop
    have hstart : (subLeafWalker.start (subLeafWalker.note v)).rest = some topPUB := by
      simp [subLeafWalker, hrest]
    -- the neighbours are searched afterwards, with the same topic
    have hnext : (if (root n).isSome then results subLeafWalker n
        (subLeafWalker.start (subLeafWalker.note v)) else []).filterMap id =
          reached n none topPUB := by
      split_ifs with hn
      · exact ihn hstart htop
      · rw [Option.not_isSome_iff_eq_none, root_eq_none] at hn
        rw [hn]
        rfl
    have hlen : (subtopRead topPUB maxSubtopLen).1.length ≠ 0 := subtopRead_ne_nil htop
    have hturn : subLeafWalker.turn i c (root h).isSome v =
        if c.subtop = [hash] then .stop (some i)
        else if isNodePubSubtop c (subtopRead topPUB maxSubtopLen).1
            (subtopRead topPUB maxSubtopLen).2.isNone then
          .down ⟨(subtopRead topPUB maxSubtopLen).2, some i, v.buf⟩
        else .stop (leafAt (subtopRead topPUB maxSubtopLen).2 v.prev) := by
      show subLeafTurn i c (root h).isSome v = _
      rw [subLeafTurn, hrest]
      dsimp only
      rw [if_neg hlen]
    rw [results, reached, hturn]
    dsimp only
    generalize (if (root n).isSome = true then results subLeafWalker n
      (subLeafWalker.start (subLeafWalker.note v)) else []) = after at hnext
    split_ifs with hhash hpub hlast
    · dsimp only
      rw [List.filterMap_cons, hnext]
      rfl
    · dsimp only
      rw [List.filterMap_append, hnext]
      congr 1
      cases hrd : (subtopRead topPUB maxSubtopLen).2 with
      | none =>
        dsimp only
        cases h with
        | nil => rfl
        | node => rfl
      | some rest => exact ihh rfl (subtopRead_next htop hrd)
    · dsimp only
      rw [leafAt, if_pos hlast, List.filterMap_cons, hnext]
      cases v.prev <;> rfl
    · dsimp only
      rw [leafAt, if_neg hlast, List.filterMap_cons, hnext]
      rfl

theorem reached_sublist (t : Tree) : ∀ prev topPUB,
    List.Sublist (reached t prev topPUB) (prev.toList ++ ids t) := by
  induction t with
  | nil => exact fun prev topPUB => List.nil_sublist _
  | node i c h n ihh ihn =>
    intro prev topPUB
    have hnil : List.Sublist (reached n none topPUB) (ids n) := ihn none topPUB
    have hids : ids (LinkTree.node i c h n) = (i :: ids h) ++ ids n := rfl
    rw [reached, hids, ← List.append_assoc]
    dsimp only
    refine List.Sublist.append ?_ hnil
    have hself : List.Sublist [i] (prev.toList ++ (i :: ids h)) :=
      (List.cons_sublist_cons.mpr (List.nil_sublist _)).trans (List.sublist_append_right _ _)
    split_ifs
    · exact hself
    · cases (subtopRead topPUB maxSubtopLen).2 with
      | none => exact hself
      | some rest => exact (ihh (some i) rest).trans (List.sublist_append_right _ _)
    · exact List.sublist_append_left _ _
    · exact List.nil_sublist _

theorem reached_nodup {t : Tree} (hnd : (ids t).Nodup) (topPUB : List UInt8) :
    (reached t none topPUB).Nodup := (reached_sublist t none topPUB).nodup hnd

theorem mem_reached {t : Tree} : ∀ {topPUB : List UInt8} {prev : Option NodeIdx} {k : NodeIdx}
    {c : NodeData}, Leveled t → Neat NodeData.subtop Slashed t →
      look NodeData.subtop t (levels topPUB) = some (k, c) → k ∈ reached t prev topPUB := by
  induction t with
  | nil => exact fun _ _ h => nomatch h
  | node i d h n ihh ihn =>
    intro topPUB prev k c hlev hneat hl
    obtain ⟨hinner, -, hneath, hneatn⟩ := hneat
    have hlevel := hlev d List.mem_cons_self
    have hlevh : Leveled h := fun x hx =>
      hlev x (List.mem_cons_of_mem _ (List.mem_append_left _ hx))
    have hlevn : Leveled n := fun x hx =>
      hlev x (List.mem_cons_of_mem _ (List.mem_append_right _ hx))
    rw [levels_eq, look] at hl
    rw [reached, List.mem_append]
    split_ifs at hl with hkey hlast
    · -- the last level
      left
      cases hl
      have hread : subtopRead topPUB maxSubtopLen = firstLevel topPUB :=
        subtopRead_fits (hkey ▸ hlevel.2)
      have hnext : (firstLevel topPUB).2 = none := by
        cases hn : (firstLevel topPUB).2 with
        | none => rfl
        | some rest =>
          rw [hn] at hlast
          exact absurd hlast (levels_ne_nil rest)
      have hpub : isNodePubSubtop d (firstLevel topPUB).1 true = true := by
        simp [isNodePubSubtop, hkey]
      rw [hread, hnext, Option.isNone_none, if_pos hpub]
      split_ifs <;> exact List.mem_singleton_self _
    · -- one level down
      left
      have hread : subtopRead topPUB maxSubtopLen = firstLevel topPUB :=
        subtopRead_fits (hkey ▸ hlevel.2)
      cases hn : (firstLevel topPUB).2 with
      | none =>
        rw [hn] at hlast
        exact absurd rfl hlast
      | some rest =>
        rw [hn] at hl
        have hhash : d.subtop ≠ [hash] := by
          intro hhash
          have hslash : d.subtop.getLast? = some slash := hinner fun hnil => by
            rw [hnil] at hl
            cases hl
          rw [hhash] at hslash
          cases hslash
        have hpub : isNodePubSubtop d (firstLevel topPUB).1 false = true := by
          simp [isNodePubSubtop, hkey]
        rw [hread, hn, Option.isNone_some, if_neg hhash, if_pos hpub]
        exact ihh hlevh hneath hl
    · right
      rw [← levels_eq] at hl
      exact ihn hlevn hneatn hl

/-! ## Plug-ins -/

/-- The QoS of a plug-in in `pg_map`, if it has a value there. -/
def pgField (pgMap : BitVec 8) (index : PluginIdx) : Option MqttQos :=
  match ((pgMap >>> (index.val * 2)) &&& 3).toNat with
  | 0 => some .qos0
  | 1 => some .qos1
  | 2 => some .qos2
  | _ => none

theorem getLsbD_three (k : Nat) : (3#8).getLsbD k = decide (k < 2) := by
  rcases k with _ | _ | k
  · rfl
  · rfl
  · have hlarge : 3 < 2 ^ (k + 2) :=
      Nat.lt_of_lt_of_le (by decide) (Nat.pow_le_pow_right (by decide) (Nat.le_add_left 2 k))
    exact (Nat.testBit_lt_two_pow hlarge).trans (by simp)

theorem getLsbD_qos (q : MqttQos) {k : Nat} (hk : 2 ≤ k) : (BitVec.ofNat 8 q.val).getLsbD k = false := by
  have hlarge : (BitVec.ofNat 8 q.val).toNat < 2 ^ k :=
    Nat.lt_of_lt_of_le (by cases q <;> decide) (Nat.pow_le_pow_right (by decide) hk)
  exact Nat.testBit_lt_two_pow hlarge

/-- A value in `pg_map` is two bits of it. -/
theorem pgField_congr {a b : BitVec 8} {i j : PluginIdx}
    (h : ∀ k < 2, a.getLsbD (i.val * 2 + k) = b.getLsbD (j.val * 2 + k)) : pgField a i = pgField b j := by
  have hbits : (a >>> (i.val * 2)) &&& 3#8 = (b >>> (j.val * 2)) &&& 3#8 := by
    refine BitVec.eq_of_getLsbD_eq fun k _ => ?_
    rw [BitVec.getLsbD_and, BitVec.getLsbD_and, BitVec.getLsbD_ushiftRight, BitVec.getLsbD_ushiftRight,
      getLsbD_three]
    by_cases hlow : k < 2
    · rw [h k hlow]
    · rw [decide_eq_false hlow, Bool.and_false, Bool.and_false]
  exact congrArg (fun w : BitVec 8 => match w.toNat with
    | 0 => some MqttQos.qos0
    | 1 => some MqttQos.qos1
    | 2 => some MqttQos.qos2
    | _ => none) hbits

theorem pgMapHasValue_eq (pgMap : BitVec 8) (i : PluginIdx) :
    pgMapHasValue pgMap i = (pgField pgMap i).isSome := by
  have hnot : (~~~pgMap >>> (i.val * 2)) &&& 3#8 = ~~~(pgMap >>> (i.val * 2)) &&& 3#8 := by
    refine BitVec.eq_of_getLsbD_eq fun k hk => ?_
    have hi : i.val < 4 := i.isLt
    simp only [BitVec.getLsbD_and, BitVec.getLsbD_ushiftRight, BitVec.getLsbD_not, getLsbD_three]
    by_cases hlow : k < 2
    · have hin : i.val * 2 + k < 8 := by omega
      simp [hin, hk]
    · simp [hlow]
  show ((~~~pgMap >>> (i.val * 2)) &&& 3#8 != 0) = _
  rw [hnot]
  unfold pgField
  generalize pgMap >>> (i.val * 2) = w
  revert w
  decide +kernel

theorem pgField_setup (pgMap : BitVec 8) (q : MqttQos) (i j : PluginIdx) :
    pgField (pgMapValSetup pgMap q i) j = if j = i then some q else pgField pgMap j := by
  have hi : i.val < 4 := i.isLt
  have hj : j.val < 4 := j.isLt
  by_cases hji : j = i
  · subst hji
    have hfield : pgField (BitVec.ofNat 8 q.val) 0 = some q := by cases q <;> rfl
    rw [if_pos rfl, ← hfield]
    refine pgField_congr fun k hk => ?_
    have hin : j.val * 2 + k < 8 := by omega
    have hself : ¬ j.val * 2 + k < j.val * 2 := by omega
    unfold pgMapValSetup
    simp only [BitVec.getLsbD_or, BitVec.getLsbD_and, BitVec.getLsbD_not, BitVec.getLsbD_shiftLeft, getLsbD_three,
      Nat.add_sub_cancel_left]
    simp [hin, hk, hself]
  · rw [if_neg hji]
    refine pgField_congr fun k hk => ?_
    have hne : j.val ≠ i.val := fun h => hji (Fin.ext h)
    unfold pgMapValSetup
    simp only [BitVec.getLsbD_or, BitVec.getLsbD_and, BitVec.getLsbD_not, BitVec.getLsbD_shiftLeft, getLsbD_three]
    by_cases hlt : j.val * 2 + k < i.val * 2
    · simp [hlt]
      omega
    · rw [getLsbD_qos q (by omega)]
      have hout : ¬ j.val * 2 + k - i.val * 2 < 2 := by omega
      have hin : j.val * 2 + k < 8 := by omega
      simp [hout, hin]

theorem pgField_reset (pgMap : BitVec 8) (i j : PluginIdx) :
    pgField (pgMapValReset pgMap i) j = if j = i then none else pgField pgMap j := by
  have hi : i.val < 4 := i.isLt
  have hj : j.val < 4 := j.isLt
  by_cases hji : j = i
  · subst hji
    have hself : pgField 3#8 0 = none := rfl
    rw [if_pos rfl, ← hself]
    refine pgField_congr fun k hk => ?_
    have hin : j.val * 2 + k < 8 := by omega
    unfold pgMapValReset
    simp only [BitVec.getLsbD_or, BitVec.getLsbD_shiftLeft, getLsbD_three, Nat.add_sub_cancel_left]
    simp [hin, hk]
  · rw [if_neg hji]
    refine pgField_congr fun k hk => ?_
    have hne : j.val ≠ i.val := fun h => hji (Fin.ext h)
    unfold pgMapValReset
    simp only [BitVec.getLsbD_or, BitVec.getLsbD_shiftLeft, getLsbD_three]
    by_cases hlt : j.val * 2 + k < i.val * 2
    · simp [hlt]
    · have hout : ¬ j.val * 2 + k - i.val * 2 < 2 := by omega
      simp [hout]

theorem pgField_dflts (i : PluginIdx) : pgField pgMapAllDflts i = none := by
  revert i
  decide

def enrolledAt (σ : TopicTree) (pg : PluginIdx) (topic : List UInt8) : Option MqttQos :=
  pgField (entryAt σ topic).pgMap pg

section Plugins

variable {inUse : PluginIdx → Bool} {σ : TopicTree} {msg : PubMsg}

theorem filter_pluginPublish (inUse : PluginIdx → Bool) (pgMap : BitVec 8) (topic data : List UInt8)
    (dup : Bool) (qos : MqttQos) (retain : Bool) (pg : PluginIdx) :
    (pluginPublish inUse pgMap topic data dup qos retain).filter (·.plugin = pg) =
      if (pgField pgMap pg).isSome ∧ inUse pg then [⟨pg, topic, data, dup, qos, retain⟩] else [] := by
  have hself : (List.finRange maxPlugins).filter (fun i => decide (i = pg)) = [pg] := by
    rw [List.filter_eq, List.count_eq_one_of_mem (List.nodup_finRange _) (List.mem_finRange pg)]
    rfl
  rw [pluginPublish, List.filter_map, List.filter_filter]
  by_cases hpg : (pgField pgMap pg).isSome ∧ inUse pg
  · rw [if_pos hpg]
    have hpred : (List.finRange maxPlugins).filter (fun i =>
        (decide ((⟨i, topic, data, dup, qos, retain⟩ : PluginMsg).plugin = pg)) &&
          (pgMapHasValue pgMap i && inUse i)) = [pg] := by
      rw [← hself]
      refine List.filter_congr fun i _ => ?_
      by_cases hi : i = pg
      · subst hi
        simp [pgMapHasValue_eq, hpg.1, hpg.2]
      · simp [hi]
    exact congrArg _ hpred
  · rw [if_neg hpg, List.map_eq_nil_iff, List.filter_eq_nil_iff]
    intro i _ hi
    simp only [Function.comp_apply, Bool.and_eq_true, decide_eq_true_eq, pgMapHasValue_eq] at hi
    obtain ⟨rfl, hpg'⟩ := hi
    exact hpg hpg'

def handed (inUse : PluginIdx → Bool) (σ : TopicTree) (msg : PubMsg) (leaf : NodeIdx) :
    List PluginMsg :=
  pluginPublish inUse (σ.nodes leaf).val.pgMap msg.topic msg.data false msg.qos msg.retain

theorem handed_dflts {leaf : NodeIdx} (h : (σ.nodes leaf).val.pgMap = pgMapAllDflts) :
    handed inUse σ msg leaf = [] := by
  rw [handed, h, pluginPublish, List.map_eq_nil_iff, List.filter_eq_nil_iff]
  intro i _ hi
  rw [pgMapHasValue_eq, pgField_dflts] at hi
  cases hi

theorem sendLeaf_plugins {a b : Delivery} {leaf : Option NodeIdx}
    (h : sendLeaf inUse σ msg a leaf = some b) :
    b.plugins = a.plugins ++ leaf.toList.flatMap (handed inUse σ msg) := by
  cases leaf with
  | none =>
    cases h
    exact (List.append_nil _).symm
  | some leaf =>
    obtain ⟨m, -, rfl⟩ := Option.map_eq_some_iff.mp h
    rw [Option.toList_some, List.flatMap_singleton]
    dsimp only
    split_ifs with hpg
    · rfl
    · rw [handed_dflts (not_not.mp hpg), List.append_nil]

theorem sendLeaves_plugins (leaves : List (Option NodeIdx)) : ∀ {a b : Delivery},
    leaves.foldlM (sendLeaf inUse σ msg) a = some b →
      b.plugins = a.plugins ++ (leaves.filterMap id).flatMap (handed inUse σ msg) := by
  induction leaves with
  | nil =>
    intro a b h
    cases h
    exact (List.append_nil _).symm
  | cons leaf leaves ih =>
    intro a b h
    rw [List.foldlM_cons] at h
    obtain ⟨a', ha, h⟩ := Option.bind_eq_some_iff.mp h
    rw [ih h, sendLeaf_plugins ha, List.append_assoc]
    cases leaf with
    | none => rfl
    | some leaf =>
      have hcons : (some leaf :: leaves).filterMap id = leaf :: leaves.filterMap id := rfl
      rw [hcons, List.flatMap_cons, Option.toList_some, List.flatMap_singleton]

theorem procSubTreeTopPUB_plugins {topPUB : List UInt8} (htop : topPUB ≠ []) {t : Tree}
    {free : List NodeIdx} (hσ : Holds σ t free) {st : NodeStack}
    (hroom : st.length + (ids t).length ≤ maxTopNodes) {m : ClMgmt} {a : Delivery}
    {is : List NodeIdx} {st' : NodeStack}
    (h : procSubTreeTopPUB inUse topPUB msg σ m st = some (a, is, st')) :
    a.plugins = (reachedBy σ topPUB).flatMap (handed inUse σ msg) := by
  rw [procSubTreeTopPUB_eq topPUB hσ hroom] at h
  obtain ⟨b, hb, heq⟩ := Option.map_eq_some_iff.mp h
  obtain ⟨rfl, -⟩ := Prod.mk.inj heq
  have hresults : (rowResults subLeafWalker t ⟨topPUB, []⟩).filterMap id = reached t none topPUB := by
    cases t with
    | nil => rfl
    | node i c t n =>
      have hrow : rowResults subLeafWalker (.node i c t n) ⟨topPUB, []⟩ =
          results subLeafWalker (.node i c t n) (subLeafWalker.start ⟨topPUB, []⟩) :=
        List.flatMap_singleton _ _
      rw [hrow]
      exact results_reached rfl htop
  rw [sendLeaves_plugins _ hb, hresults, reachedBy_eq hσ]
  rfl

end Plugins

end SimpleLink.Server
