import SimpleLink.Lib.LinkWalk
import SimpleLink.Server.LeafSearch
import SimpleLink.Server.Losses
import SimpleLink.Server.SubCount
import SimpleLink.Server.TreeTrim

/-!
# The nodes of the pool (`server_core.c`)

No node is in the tree twice, or in the tree and free, and the tree is linked both
ways. As long as no step loses it, each node is in the tree or free. A node that
nothing is below and after is in use, as long as no step takes the leaf of `x` off
again for `x/#`; one that others come after may stay in the tree for nothing.
-/

namespace SimpleLink.Server

open Lib LinkTree

/-- Somebody has a use for the node: it has a retained message, a will, a plug-in or a client. -/
def NodeData.InUse (c : NodeData) : Prop :=
  c.retain = true ∨ c.willCl ≠ none ∨ c.pgMap ≠ pgMapAllDflts ∨ ∃ q, c.clMap q ≠ 0

/-- What the tree and the free list are to be: no node is met twice, each link is answered, and no
node of the tree is below or after itself. -/
structure PoolOk (σ : TopicTree) (tree free : List NodeIdx) : Prop where
  reached : Walk σ.nodes σ.rootNode tree
  listed : Walk σ.nodes σ.freeNodes free
  once : (tree ++ free).Nodup
  answered : ∀ k ∈ tree, Answered σ.nodes (· ∈ tree) k
  acyclic : ∀ k ∈ tree, ¬ Relation.TransGen (Down σ.nodes) k k

def EndsInUse (σ : TopicTree) (tree : List NodeIdx) : Prop :=
  ∀ k ∈ tree, (σ.nodes k).dnHier = none → (σ.nodes k).dnNhbr = none → (σ.nodes k).val.InUse

theorem NodeData.inUse_iff (c : NodeData) : c.InUse ↔ c.useless = false := by
  have hmaps : (∃ q, c.clMap q ≠ 0) ↔ c.clMap .qos0 ≠ 0 ∨ c.clMap .qos1 ≠ 0 ∨ c.clMap .qos2 ≠ 0 := by
    constructor
    · rintro ⟨q, hq⟩
      cases q with
      | qos0 => exact .inl hq
      | qos1 => exact .inr (.inl hq)
      | qos2 => exact .inr (.inr hq)
    · rintro (hq | hq | hq)
      · exact ⟨_, hq⟩
      · exact ⟨_, hq⟩
      · exact ⟨_, hq⟩
  rw [NodeData.InUse, hmaps, NodeData.useless]
  cases c.retain <;> cases c.willCl <;> simp [Decidable.or_iff_not_not_and_not]

theorem TreeOk.poolOk {σ : TopicTree} {t : Tree} {free : List NodeIdx} (h : TreeOk σ t free) :
    PoolOk σ (ids t) free := by
  have hwalk : Walk σ.nodes σ.rootNode (ids t) := by
    rw [h.root]
    exact h.rep.walk
  refine ⟨hwalk, ?_, h.nodup, fun k hk => h.rep.answered hk, fun k hk => hwalk.acyclic hk⟩
  rw [h.head]
  exact h.freeList.walk

theorem TreeOk.endsInUse {σ : TopicTree} {t : Tree} {free : List NodeIdx} (h : TreeOk σ t free)
    (ht : Trim t) : EndsInUse σ (ids t) := by
  intro k hk hdn hnhbr
  obtain ⟨fs, c, b, n, rfl⟩ : ∃ fs c b n, t = plug fs (.node k c b n) := exists_place hk []
  have hne : LinkTree.node k c b n ≠ .nil := nofun
  obtain ⟨⟨hc, -⟩, -⟩ := (trimmed_plug fs hne).mp ht
  rw [h.toParts.cell] at hdn hnhbr ⊢
  rw [NodeData.inUse_iff]
  exact Bool.eq_false_iff.mpr (hc (root_eq_none.mp hdn) (root_eq_none.mp hnhbr))

/-! ## The invariant -/

/-- The tree has all the nodes that are not free, unless `L`, and is trimmed if `P`. -/
structure InOrder (L P : Prop) (s : ServerCore) (t : Tree) (free : List NodeIdx) : Prop
    extends CoreOk s t free where
  full : ¬ L → Full t free
  trim : P → Trim t

def PoolGood (L P : Prop) (s : ServerCore) : Prop := ∃ t free, InOrder L P s t free

section Steps

variable {L P : Prop} {R : List UInt8 → Prop} {s s' : ServerCore} {t t' : Tree}
  {free free' : List NodeIdx} {usr : ClIdx}

theorem InOrder.good (h : InOrder L P s t free) : PoolGood L P s := ⟨t, free, h⟩

theorem inOrder_init (sendOk mallocOk : Nat → Bool) :
    InOrder L P (serverCoreInit sendOk mallocOk) .nil (List.finRange maxTopNodes).reverse where
  toCoreOk := coreOk_init sendOk mallocOk
  full _ k := by simp
  trim _ := trivial

theorem InOrder.moves (h : InOrder L P s t free) (hok : CoreOk s' t' free')
    (hm : Moves s.tree s'.tree t t' free free') (ht : Trim t → Trim t') : InOrder L P s' t' free' :=
  ⟨hok, fun hL => (h.full hL).moves hm, fun hP => ht (h.trim hP)⟩

theorem InOrder.goes (h : InOrder L P s t free) (hgo : Goes s s' t t' free free')
    (ht : Trim t → Trim t') : InOrder L P s' t' free' := h.moves hgo.ok hgo.moves ht

theorem InOrder.lost (h : InOrder L P s t free) {topic : List UInt8}
    (hk : LossMeets L s.tree topic)
    (hrun : topicNodeCreate s.tree topic = some (none, { s.tree with rootNode := none }))
    (hok : CoreOk s' .nil free) : InOrder L P s' .nil free := by
  refine ⟨hok, fun hL => ?_, fun _ => trivial⟩
  by_cases hroot : s.tree.rootNode = none
  · obtain rfl : t = .nil := root_eq_none.mp (h.root.symm.trans hroot)
    exact h.full hL
  · exact absurd (hk ⟨_, hrun, fun heq => hroot heq.symm⟩) hL

/-! ## Subscriptions -/

theorem subscribed_inUse (c : NodeData) (qid : MqttQos) (usr : ClIdx) :
    (subscribed c qid (clBmap usr)).useless = false := by
  rw [← NodeData.inUse_iff]
  refine .inr (.inr (.inr ⟨qid, fun hzero => ?_⟩))
  have hbit := bit_subscribed c.entry qid usr usr qid
  rw [if_pos rfl, decide_eq_true rfl] at hbit
  have hmap : (c.entry.subscribed qid (clBmap usr)).clMap qid = 0#32 := hzero
  rw [hmap, bit_zero] at hbit
  cases hbit

theorem TreeOk.createUse {σ σ' : TopicTree} (hσ : TreeOk σ t free) (ht : Trim t) {topic : List UInt8}
    {leaf : NodeIdx} (hrun : topicNodeCreate σ topic = some (some leaf, σ')) {c : NodeData}
    (hsub : c.subtop = (σ'.nodes leaf).val.subtop) (hone : (σ'.nodes leaf).val.OneQos → c.OneQos)
    (huse : c.useless = false) (hσ' : TreeOk (σ'.setVal leaf c) t' free') : Trim t' := by
  obtain ⟨t₁, free₁, hσ₁, ht₁, hone₁, hl⟩ := hσ.created_leaf ht hrun
  exact hσ₁.setVal_trim hl ht₁ hsub (hone hone₁) huse hσ'

theorem InOrder.subNodeCreate (h : InOrder L P s t free) (hu : (s.cl.users usr).connected = true)
    {topSUB : List UInt8} {qid : MqttQos} (hk : LossMeets L s.tree topSUB) {o : Option NodeIdx}
    (hrun : s.subNodeCreate topSUB qid usr = some (o, s')) :
    ∃ t' free', InOrder L P s' t' free' ∧ (s'.cl.users usr).connected = true ∧
      ∀ leaf, o = some leaf → ∃ c, look NodeData.subtop t' (levels topSUB) = some (leaf, c) := by
  rcases h.toCoreOk.subNodeCreate topSUB qid usr with
      ⟨leaf, c, s₁, t₁, free₁, he, hs₁, h₁, hm, -, hl, -⟩ | ⟨he, -⟩ | ⟨he, hlost, -⟩
  · cases he.symm.trans hrun
    refine ⟨t₁, free₁, h.moves h₁ hm fun ht => ?_, ?_, fun leaf' hleaf => ?_⟩
    · unfold ServerCore.subNodeCreate at he
      split at he
      · cases he
      · cases he
      · rename_i leaf' σ hcr
        cases he
        refine h.toTreeOk.createUse ht hcr (subscribed_subtop _ _ _)
          (fun hone => subscribed_oneQos hone _ _ _) ?_ h₁.toTreeOk
        rw [clBmapGet_busy (.inl hu)]
        exact subscribed_inUse _ _ _
    · rw [hs₁]
      dsimp only
      rw [clSubCountAdd, if_pos hu, setUser_users_self]
      exact hu
    · cases hleaf
      exact ⟨c, hl⟩
  · cases he.symm.trans hrun
    exact ⟨t, free, h, hu, by simp⟩
  · cases he.symm.trans hrun
    exact ⟨.nil, free, h.lost hk (subNodeCreate_none he) hlost, hu, by simp⟩

def PoolGoodFor (L P : Prop) (usr : ClIdx) (s : ServerCore) : Prop :=
  PoolGood L P s ∧ (s.cl.users usr).connected = true

theorem InOrder.wcNodeCreate (h : InOrder L P s t free) (hu : (s.cl.users usr).connected = true)
    (parent : List UInt8) {parentLeaf : Option NodeIdx} {topSUB : List UInt8} {qid : MqttQos}
    (hk : LossMeets L s.tree topSUB)
    (hleaf : ∀ leaf, parentLeaf = some leaf →
      (∃ c, look NodeData.subtop t (levels parent) = some (leaf, c)) ∧
      (topicNodeCreate s.tree topSUB = some (none, s.tree) →
        canDeleteNode (s.tree.nodes leaf) = true → R parent)) (hP : P → ∀ x, ¬ R x)
    {r : SubAck} (hrun : s.wcNodeCreate parentLeaf topSUB qid usr = some (r, s')) :
    PoolGoodFor L P usr s' := by
  rw [ServerCore.wcNodeCreate] at hrun
  rcases h.toCoreOk.subNodeCreate topSUB qid usr with
      ⟨leaf, c, s₁, t₁, free₁, he, -⟩ | ⟨he, -⟩ | ⟨he, hlost, -⟩
  · obtain ⟨t', free', h', hu', -⟩ := h.subNodeCreate hu hk he
    rw [he] at hrun
    cases hrun
    exact ⟨h'.good, hu'⟩
  · rw [he] at hrun
    cases parentLeaf with
    | none =>
      cases hrun
      exact ⟨h.good, hu⟩
    | some leaf =>
      cases hrun
      refine ⟨?_, hu⟩
      obtain ⟨⟨c, hl⟩, hroll⟩ := hleaf leaf rfl
      rcases h.toTreeOk.nodeDelete hl with ⟨hcan, t₁, h₁, hm, -⟩ | ⟨-, hstop⟩
      · refine InOrder.good ⟨h.setTree h₁, fun hL => (h.full hL).moves hm, fun hp => ?_⟩
        exact absurd (hroll (subNodeCreate_none he) hcan) (hP hp parent)
      · rw [hstop]
        exact h.good
  · have h₁ := h.lost hk (subNodeCreate_none he) hlost
    rw [he] at hrun
    cases parentLeaf with
    | none =>
      cases hrun
      exact ⟨h₁.good, hu⟩
    | some leaf =>
      cases hrun
      refine ⟨?_, hu⟩
      obtain ⟨⟨c, hl⟩, -⟩ := hleaf leaf rfl
      have hout : leaf ∉ ids (.nil : Tree) ++ free := fun hmem =>
        List.disjoint_of_nodup_append h.nodup (mem_ids_of_look hl) hmem
      obtain ⟨t', free', hσ', ht', -⟩ := hlost.toTreeOk.deleteBeside hout
      obtain rfl : t' = .nil := ht'.elim id id
      exact InOrder.good ⟨hlost.setTree hσ', fun hL => absurd (h₁.full hL leaf) hout, fun _ => trivial⟩

theorem InOrder.mlWcNodesCreate (h : InOrder L P s t free) (hu : (s.cl.users usr).connected = true)
    {parent top : List UInt8} {qid : MqttQos} (hk : CreateMeets L R s parent top qid usr)
    (hP : P → ∀ x, ¬ R x) {r : SubAck}
    (hrun : s.mlWcNodesCreate parent top qid usr = some (r, s')) : PoolGoodFor L P usr s' := by
  rw [ServerCore.mlWcNodesCreate] at hrun
  rw [CreateMeets] at hk
  split_ifs at hrun hk
  · exact h.wcNodeCreate hu [] hk (fun leaf hleaf => by cases hleaf) hP hrun
  · cases he : s.subNodeCreate parent qid usr with
    | none =>
      rw [he] at hrun
      cases hrun
    | some x =>
      obtain ⟨o, s₁⟩ := x
      rw [he] at hrun
      obtain ⟨t₁, free₁, h₁, hu₁, hl⟩ := h.subNodeCreate hu hk.1 he
      cases o with
      | none =>
        cases hrun
        exact ⟨h₁.good, hu₁⟩
      | some leaf =>
        obtain ⟨hloss, hroll⟩ := hk.2 leaf s₁ he
        refine h₁.wcNodeCreate hu₁ parent hloss (fun leaf' hleaf => ?_) hP hrun
        cases hleaf
        exact ⟨hl leaf rfl, hroll⟩

theorem PoolGoodFor.procSubTopic (h : PoolGoodFor L P usr s) {topic : List UInt8} {qos : MqttQos}
    (hk : SubTopicMeets L R usr s topic qos) (hP : P → ∀ x, ¬ R x) {r : SubAck}
    (hrun : s.procSubTopic usr topic qos = some (r, s')) : PoolGoodFor L P usr s' := by
  obtain ⟨⟨t, free, h⟩, hu⟩ := h
  obtain ⟨hnone, hsome⟩ := h.toCoreOk.procSubTopic_eq usr topic qos
  cases ht : subTargets (subTopic topic qos) with
  | none =>
    cases (hnone ht).symm.trans hrun
    exact ⟨h.good, hu⟩
  | some x =>
    obtain ⟨parent, top⟩ := x
    obtain ⟨a, ha, happ, he⟩ := hsome parent top ht
    have hsent : InOrder L P { s with cl := a.cl } t free := ⟨h.toCoreOk.sent happ, h.full, h.trim⟩
    have hu' : (a.cl.users usr).connected = true := by
      rw [happ.users]
      exact hu
    exact hsent.mlWcNodesCreate hu' (hk parent top a ht ha) hP (he.symm.trans hrun)

theorem PoolGood.unSubFound (h : PoolGood L P s) {topic : List UInt8}
    (hrun : s.unSubFound topic usr = some s') : PoolGood L P s' := by
  obtain ⟨t, free, h⟩ := h
  rcases h.toCoreOk.unSubFound topic usr with
      ⟨he, -⟩ | ⟨k, c, s₁, t₁, free₁, hl, hq, he, -, h₁, hm, -⟩
  · cases he.symm.trans hrun
    exact h.good
  · cases he.symm.trans hrun
    refine (h.moves h₁ hm fun ht => ?_).good
    have hval := h.look_val hl
    rw [ServerCore.unSubFound, leafNodeFind_eq h.toHolds, hl, Option.map_some] at he
    dsimp only at he
    rw [leafUnSub_eq (by rwa [hval]), hval] at he
    obtain ⟨σ, hdel, rfl⟩ := Option.map_eq_some_iff.mp he
    exact h.toTreeOk.setTry_trim hl (ht.but k) (unmapFirst_subtop _ c)
      (unmapFirst_oneQos (h.look_oneQos hl)) hdel h₁.toTreeOk

/-! ## Messages -/

theorem TreeOk.createTry {σ σ₁ σ' : TopicTree} (hσ : TreeOk σ t free) (ht : Trim t)
    {topic : List UInt8} {leaf : NodeIdx} (hrun : topicNodeCreate σ topic = some (some leaf, σ₁))
    {c : NodeData} (hsub : c.subtop = (σ₁.nodes leaf).val.subtop)
    (hmaps : c.clMap = (σ₁.nodes leaf).val.clMap)
    (hdel : Server.tryNodeDelete (σ₁.setVal leaf c) leaf = some σ') (hσ' : TreeOk σ' t' free') :
    Trim t' := by
  obtain ⟨t₁, free₁, hσ₁, ht₁, hone₁, hl⟩ := hσ.created_leaf ht hrun
  have hone : c.OneQos := by
    unfold NodeData.OneQos
    rw [hmaps]
    exact hone₁
  exact hσ₁.setTry_trim hl ht₁ hsub hone hdel hσ'

theorem TreeOk.retainData (h : TreeOk s.tree t free) (ht : Trim t) {top : List UInt8}
    {data : Option (List UInt8)} {qos : MqttQos} {ok : Bool} (hrun : s.retainData top data qos = some (ok, s'))
    (h' : TreeOk s'.tree t' free') : Trim t' := by
  unfold ServerCore.retainData at hrun
  split at hrun
  · cases hrun
  · rename_i σ hcr
    cases hrun
    exact h.failed_trim ht hcr h'
  · rename_i leaf σ hcr
    obtain ⟨hkeep, -⟩ := nodeDataUpdate_keeps (σ.nodes leaf).val true data qos true s.cl
    generalize nodeDataUpdate (σ.nodes leaf).val true data qos true s.cl = x at hkeep hrun
    obtain ⟨ok', c, m⟩ := x
    dsimp only at hkeep hrun
    obtain ⟨σ', hdel, heq⟩ := Option.map_eq_some_iff.mp hrun
    cases heq
    refine h.createTry ht hcr ?_ ?_ hdel h'
    · rw [hkeep]
    · rw [hkeep]

theorem procPubMsgRx_tree {sender : Option ClIdx} {topic data : List UInt8} {msgId : UInt8}
    {qos : MqttQos} {retain ok : Bool} {plugins : List PluginMsg}
    (hrun : s.procPubMsgRx sender topic data msgId qos retain = some (ok, plugins, s')) :
    s'.tree = s.tree ∨ ∃ m st top buf, ServerCore.retainData { s with cl := m, stack := st } top buf
      qos = some (ok, s') := by
  unfold ServerCore.procPubMsgRx at hrun
  split at hrun
  · cases hrun
    exact .inl rfl
  · dsimp only at hrun
    split at hrun
    · cases hrun
    · cases hrun
      exact .inl rfl
    · split at hrun
      · cases hrun
      · split_ifs at hrun
        · obtain ⟨x, hx, heq⟩ := Option.map_eq_some_iff.mp hrun
          cases heq
          exact .inr ⟨_, _, _, _, hx⟩
        · cases hrun
          exact .inl rfl

theorem InOrder.procPubMsgRx (h : InOrder L P s t free) {sender : Option ClIdx}
    {topic data : List UInt8} {msgId : UInt8} {qos : MqttQos} {retain ok : Bool}
    {plugins : List PluginMsg} (hk : PublishMeets L s sender topic msgId qos retain)
    (hrun : s.procPubMsgRx sender topic data msgId qos retain = some (ok, plugins, s')) :
    PoolGood L P s' := by
  rcases h.toCoreOk.procPubMsgRx hrun with
      ⟨t', free', hgo, -⟩ | ⟨buf, m, hbuf, hretain, htr, hcr, hlost, -⟩
  · refine (h.goes hgo fun ht => ?_).good
    rcases procPubMsgRx_tree hrun with htree | ⟨m, st, top, buf, hret⟩
    · have hok := hgo.ok.toTreeOk
      rw [htree] at hok
      rwa [← h.toHolds.unique hok.toHolds]
    · have htree : TreeOk { s with cl := m, stack := st }.tree t free := h.toTreeOk
      exact htree.retainData ht hret hgo.ok.toTreeOk
  · exact (h.lost (hk buf m hbuf hretain htr) hcr hlost).good

/-! ## Connections -/

theorem TreeOk.willCreate (h : TreeOk s.tree t free) (ht : Trim t) {will : WillArgs}
    {leaf : Option NodeIdx} (hrun : s.willCreate will = some (leaf, s'))
    (h' : TreeOk s'.tree t' free') : leaf.elim (Trim t') (TrimBut · t') := by
  unfold ServerCore.willCreate at hrun
  split at hrun
  · cases hrun
  · rename_i σ hcr
    cases hrun
    exact h.failed_trim ht hcr h'
  · rename_i leaf σ hcr
    obtain ⟨hkeep, -⟩ :=
      nodeDataUpdate_keeps (σ.nodes leaf).val false will.msg will.qos will.retain s.cl
    generalize nodeDataUpdate (σ.nodes leaf).val false will.msg will.qos will.retain s.cl = x
      at hkeep hrun
    obtain ⟨ok, c, m⟩ := x
    dsimp only at hkeep
    cases ok with
    | true =>
      cases hrun
      obtain ⟨t₁, free₁, hσ₁, ht₁, hone₁, hl⟩ := h.created_leaf ht hcr
      have hsub : c.subtop = (σ.nodes leaf).val.subtop := by rw [hkeep]
      have hone : c.OneQos := by
        rw [hkeep]
        exact hone₁
      exact hσ₁.setVal_but hl ht₁ hsub hone h'
    | false =>
      obtain ⟨σ', hdel, heq⟩ := Option.map_eq_some_iff.mp hrun
      cases heq
      refine h.createTry ht hcr ?_ ?_ hdel h'
      · rw [hkeep]
      · rw [hkeep]

theorem CoreOk.connectClient_trim (h : CoreOk s t free) {args : ConnectArgs} {leaf : Option NodeIdx}
    (hleaf : ∀ k, leaf = some k → ∃ q c, look NodeData.subtop t q = some (k, c))
    (ht : leaf.elim (Trim t) (TrimBut · t)) {r : Option ClIdx}
    (hrun : s.connectClient args leaf = some (r, s')) (h' : CoreOk s' t' free') : Trim t' := by
  unfold ServerCore.connectClient at hrun
  dsimp only at hrun
  cases leaf with
  | none =>
    have htree : s'.tree = s.tree := by
      split at hrun
      · cases hrun
        rfl
      · rename_i heq
        cases heq
      · cases hrun
        rfl
      · rename_i heq
        cases heq
    have hok := h'.toTreeOk
    rw [htree] at hok
    rwa [← h.toHolds.unique hok.toHolds]
  | some leaf =>
    obtain ⟨q, c, hl⟩ := hleaf leaf rfl
    have hval := h.look_val hl
    have hone : c.OneQos := h.look_oneQos hl
    split at hrun
    · rename_i heq
      cases heq
    · rename_i i present m leaf' _ heq
      cases heq
      cases hrun
      rw [hval] at h'
      have hsub : ({ c with willCl := some i } : NodeData).subtop = c.subtop := rfl
      have huse : ({ c with willCl := some i } : NodeData).useless = false :=
        (NodeData.inUse_iff _).mp (.inr (.inl nofun))
      exact h.toTreeOk.setVal_trim hl ht hsub hone huse h'.toTreeOk
    · rename_i heq
      cases heq
    · rename_i leaf' _ heq
      cases heq
      rw [hval] at hrun
      obtain ⟨σ', hdel, heq⟩ := Option.map_eq_some_iff.mp hrun
      cases heq
      have hsub : (nodeDataReset c).subtop = c.subtop := rfl
      exact h.toTreeOk.setTry_trim hl ht hsub hone hdel h'.toTreeOk

theorem InOrder.procConnectRx (h : InOrder L P s t free) {args : ConnectArgs} {r : Option ClIdx}
    (hk : args.admitted = true → ∀ will, args.will.filter (·.topic ≠ []) = some will →
      LossMeets L s.tree (cStr will.topic))
    (hrun : s.procConnectRx args = some (r, s')) : PoolGood L P s' := by
  rcases h.toCoreOk.procConnectRx hrun with
      ⟨t', free', hgo, -⟩ | ⟨will, hadmitted, hwill, hcr, rfl⟩
  · refine (h.goes hgo fun ht => ?_).good
    unfold ServerCore.procConnectRx at hrun
    split_ifs at hrun
    · split at hrun
      · have hleaf : ∀ k, (none : Option NodeIdx) = some k →
            ∃ q c, look NodeData.subtop t q = some (k, c) := nofun
        exact h.toCoreOk.connectClient_trim hleaf ht hrun hgo.ok
      · rename_i will _
        rcases h.toCoreOk.willCreate will with
            ⟨leaf, s₁, t₁, free₁, he, -, -, h₁, -, -, hleaf⟩ | ⟨hcr, he, hlost⟩
        · have ht₁ := h.toTreeOk.willCreate ht he h₁.toTreeOk
          rw [he] at hrun
          cases leaf with
          | none =>
            cases hrun
            rwa [← h₁.toHolds.unique hgo.ok.toHolds]
          | some leaf =>
            refine h₁.connectClient_trim (fun k hk => ?_) ht₁ hrun hgo.ok
            exact ⟨_, hleaf k hk⟩
        · rw [he] at hrun
          cases hrun
          rw [← hlost.toHolds.unique hgo.ok.toHolds]
          trivial
    · cases hrun
      rwa [← h.toHolds.unique hgo.ok.toHolds]
  · exact (h.lost (hk hadmitted will hwill) hcr h.toCoreOk.treeless).good

theorem InOrder.sessionClose (h : InOrder L P s t free) (hrun : s.sessionClose usr = some s') :
    PoolGood L P s' := by
  obtain ⟨s₁, t', free', k, he, hgo, rfl, -, -⟩ := h.toCoreOk.sessionClose usr
  cases he.symm.trans hrun
  refine (h.goes hgo fun ht => ?_).good
  split_ifs
  · exact swept_trim _ t
  · exact ht

theorem InOrder.onClNetClose (h : InOrder L P s t free) {due2err : Bool} {plugins : List PluginMsg}
    (hrun : s.onClNetClose usr due2err = some (plugins, s')) : PoolGood L P s' := by
  rcases h.toCoreOk.onClNetClose_split hrun with
      rfl | he | ⟨leaf, m, σ, hwill, hcl, happ, hdel, he⟩
  · exact h.good
  · exact h.sessionClose he
  · have hctx := h.clients.of_users happ.users
    by_cases hin : leaf ∈ ids t
    · obtain ⟨q, hl⟩ := h.mem_look hin
      have hone : (s.tree.nodes leaf).val.OneQos := h.look_oneQos hl
      have hsub : ({ nodeDataReset (s.tree.nodes leaf).val with willCl := none } : NodeData).subtop =
          (s.tree.nodes leaf).val.subtop := rfl
      obtain ⟨σ', t', free', hdel', hσ, hm, -⟩ := h.toTreeOk.setTry hl hsub hone
      cases hdel.symm.trans hdel'
      have hok : CoreOk { s with tree := σ, cl := m } t' free' := ⟨hσ, h.stack, hctx⟩
      refine InOrder.sessionClose (h.moves hok hm fun ht => ?_) he
      exact h.toTreeOk.setTry_trim hl (ht.but leaf) hsub hone hdel hσ
    · -- a node of a lost tree
      have hout : leaf ∉ ids t ++ free := fun hmem =>
        (List.mem_append.mp hmem).elim hin (h.will_mem hcl)
      obtain ⟨t', free', hσ, ht'⟩ :=
        TreeOk.tryBeside loopBound (h.toTreeOk.setBeside hout _) hout hdel
      have hok : CoreOk { s with tree := σ, cl := m } t' free' := ⟨hσ, h.stack, hctx⟩
      refine InOrder.sessionClose ⟨hok, fun hL => ?_, fun hp => ?_⟩ he
      · exact absurd (h.full hL leaf) hout
      · rcases ht' with rfl | rfl
        · exact h.trim hp
        · trivial

/-! ## Calls of the plug-ins -/

theorem pgMapValSetup_inUse (c : NodeData) (qos : MqttQos) (pg : PluginIdx) :
    ({ c with pgMap := pgMapValSetup c.pgMap qos pg } : NodeData).useless = false := by
  refine (NodeData.inUse_iff _).mp (.inr (.inr (.inl fun hdflt => ?_)))
  have hset := pgField_setup c.pgMap qos pg pg
  dsimp only at hdflt
  rw [hdflt, pgField_dflts, if_pos rfl] at hset
  cases hset

theorem InOrder.procTopicEnroll (h : InOrder L P s t free) {pg : PluginIdx} {topic : List UInt8}
    {qos : MqttQos} {v : Int} (hk : topic.length + 1 ≤ wbufLen → LossMeets L s.tree (cStr topic))
    (hrun : s.procTopicEnroll pg topic qos = some (v, s')) : PoolGood L P s' := by
  rcases h.toCoreOk.procTopicEnroll pg topic qos with
      ⟨v, s₁, t', free', he, -, hgo, -⟩ | ⟨hlen, hcr, he⟩
  · cases he.symm.trans hrun
    refine (h.goes hgo fun ht => ?_).good
    have hok := hgo.ok.toTreeOk
    unfold ServerCore.procTopicEnroll at he
    split_ifs at he
    · cases he
      rwa [← h.toHolds.unique hok.toHolds]
    · cases he
      rwa [← h.toHolds.unique hok.toHolds]
    · split at he
      · cases he
      · rename_i hcr
        cases he
        exact h.toTreeOk.failed_trim ht hcr hok
      · rename_i leaf σ hcr
        cases he
        have huse := pgMapValSetup_inUse (σ.nodes leaf).val qos pg
        refine h.toTreeOk.createUse ht hcr ?_ ?_ huse hok
        · rfl
        · exact fun hone => hone
  · cases he.symm.trans hrun
    exact (h.lost (hk hlen) hcr h.toCoreOk.treeless).good

theorem InOrder.procTopicCancel (h : InOrder L P s t free) {pg : PluginIdx} {topic : List UInt8}
    {v : Int} (hrun : s.procTopicCancel pg topic = some (v, s')) : PoolGood L P s' := by
  obtain ⟨v, s₁, t', free', he, -, hgo, -⟩ := h.toCoreOk.procTopicCancel pg topic
  cases he.symm.trans hrun
  refine (h.goes hgo fun ht => ?_).good
  unfold ServerCore.procTopicCancel at he
  split_ifs at he
  · cases he
    rwa [← h.toHolds.unique hgo.ok.toHolds]
  · rw [leafNodeFind_eq h.toHolds] at he
    cases hl : look NodeData.subtop t (levels (cStr topic)) with
    | none =>
      rw [hl] at he
      cases he
      rwa [← h.toHolds.unique hgo.ok.toHolds]
    | some p =>
      obtain ⟨leaf, c⟩ := p
      rw [hl, Option.map_some] at he
      dsimp only at he
      rw [h.look_val hl] at he
      obtain ⟨σ, hdel, heq⟩ := Option.map_eq_some_iff.mp he
      cases heq
      have hone : c.OneQos := h.look_oneQos hl
      have hsub : ({ c with pgMap := pgMapValReset c.pgMap pg } : NodeData).subtop = c.subtop := rfl
      exact h.toTreeOk.setTry_trim hl (ht.but leaf) hsub hone hdel hgo.ok.toTreeOk

end Steps

/-! ## Steps -/

theorem PoolGood.coreStep {L P : Prop} {R : List UInt8 → Prop} {s s' : ServerCore} {op : CoreOp}
    {r : CoreReply} (h : PoolGood L P s) (hP : P → ∀ x, ¬ R x) (hk : StepMeets L R s op)
    (hs : coreStep s op = some (s', r)) : PoolGood L P s' := by
  have hgood := h
  obtain ⟨t, free, h⟩ := h
  cases op with
  | subscribe i topics =>
    rw [Server.coreStep] at hs
    split_ifs at hs with hu
    · refine kept_of_map (fun a ha => ?_) hs
      have hfor := procSubMsgRx_preserves (I := PoolGoodFor L P i)
        (fun h hk he => h.procSubTopic hk hP he) topics ⟨hgood, hu⟩ (hk hu) ha
      exact hfor.1
    · exact kept_of_idle hgood hs
  | unSubscribe i topics =>
    rw [Server.coreStep] at hs
    split_ifs at hs
    · exact kept_of_map (fun a ha => procUnSubMsg_preserves
        (fun h he => PoolGood.unSubFound h he) topics hgood ha) hs
    · exact kept_of_idle hgood hs
  | publish i topic data msgId qos retain =>
    rw [Server.coreStep] at hs
    split_ifs at hs with hu
    · exact kept_of_map (fun a ha => h.procPubMsgRx (hk hu) ha) hs
    · exact kept_of_idle hgood hs
  | ack i msgType msgId =>
    rw [Server.coreStep] at hs
    split_ifs at hs
    · refine kept_of_map (fun a ha => ?_) hs
      have hq := clNotifyAck_queues ha
      exact InOrder.good ⟨⟨h.toTreeOk, h.stack, h.clients.queues hq⟩, h.full, h.trim⟩
    · exact kept_of_idle hgood hs
  | connect args =>
    rw [Server.coreStep] at hs
    exact kept_of_map (fun a ha => h.procConnectRx hk ha) hs
  | connack i cleanSession =>
    rw [Server.coreStep] at hs
    split_ifs at hs with ha
    · refine kept_of_map (fun a he => ?_) hs
      obtain ⟨t', free', k, hgo, ht', -⟩ := h.toCoreOk.onConnackSend ha he
      refine (h.goes hgo fun ht => ?_).good
      rw [ht']
      split_ifs
      · exact swept_trim _ t
      · exact ht
    · exact kept_of_idle hgood hs
  | netClose i due2err =>
    rw [Server.coreStep] at hs
    split_ifs at hs
    · exact kept_of_map (fun a ha => h.onClNetClose ha) hs
    · exact kept_of_idle hgood hs
  | appRegister =>
    cases hs
    obtain ⟨hok, htree, -⟩ := h.toCoreOk.pluginAlloc
    exact InOrder.good ⟨hok, h.full, h.trim⟩
  | appPublish topic data qos retain =>
    rw [Server.coreStep] at hs
    exact kept_of_map (fun a ha => h.procPubMsgRx hk ha) hs
  | enroll pg topic qos =>
    rw [Server.coreStep] at hs
    split_ifs at hs with hpg
    · exact kept_of_map (fun a ha => h.procTopicEnroll (hk hpg) ha) hs
    · exact kept_of_idle hgood hs
  | cancel pg topic =>
    rw [Server.coreStep] at hs
    split_ifs at hs
    · exact kept_of_map (fun a ha => h.procTopicCancel ha) hs
    · exact kept_of_idle hgood hs

/-! ## Runs -/

theorem runs_pool {L P : Prop} {R : List UInt8 → Prop} (hP : P → ∀ x, ¬ R x)
    {sendOk mallocOk : Nat → Bool} {ops : List CoreOp} {s : ServerCore} {rs : List CoreReply}
    (hk : Meets coreStep (StepMeets L R) (serverCoreInit sendOk mallocOk) ops)
    (hrun : runs coreStep (serverCoreInit sendOk mallocOk) ops = some (s, rs)) : PoolGood L P s :=
  hk.preserves (fun h hk hs => h.coreStep hP hk hs) (inOrder_init sendOk mallocOk).good hrun

def KeepsTree (s : ServerCore) (op : CoreOp) : Prop := StepMeets False (fun _ => True) s op

/-- A step that does not take the leaf of `x` off again for `x/#`. -/
def KeepsParents (s : ServerCore) (op : CoreOp) : Prop := StepMeets True (fun _ => False) s op

/-- In every state reached the tree and the free list are linked as they should be and have no node
twice; they have every node, unless a step has lost the tree; and nothing in the tree is kept for
nothing but what others come after, unless a step has taken the leaf of a parent off again. -/
theorem pool_conserved {sendOk mallocOk : Nat → Bool} {ops : List CoreOp} {s : ServerCore}
    {rs : List CoreReply} (hrun : runs coreStep (serverCoreInit sendOk mallocOk) ops = some (s, rs)) :
    ∃ tree free, PoolOk s.tree tree free ∧
      (Meets coreStep KeepsTree (serverCoreInit sendOk mallocOk) ops → ∀ k, k ∈ tree ++ free) ∧
      (Meets coreStep KeepsParents (serverCoreInit sendOk mallocOk) ops → EndsInUse s.tree tree) := by
  obtain ⟨t, free, h⟩ := runs_good hrun
  have hpool := h.toTreeOk.poolOk
  refine ⟨ids t, free, hpool, fun hk => ?_, fun hk => ?_⟩
  · obtain ⟨t', free', h'⟩ := runs_pool (P := False) False.elim hk hrun
    have hpool' := h'.toTreeOk.poolOk
    rw [hpool.reached.unique hpool'.reached, hpool.listed.unique hpool'.listed]
    exact h'.full not_false
  · obtain ⟨t', free', h'⟩ := runs_pool (P := True) (fun _ _ => not_false) hk hrun
    rw [h.toHolds.unique h'.toHolds]
    exact h'.toTreeOk.endsInUse (h'.trim trivial)

/-- A plug-in is enrolled on `a`: that node is in the tree and in use, the others are free. -/
theorem pool_conserved_enrolled : ∃ s rs tree free,
    runs coreStep (serverCoreInit allOk allOk) [.appRegister, .enroll 0 [0x61] .qos0] = some (s, rs) ∧
      31 ∈ tree ∧ PoolOk s.tree tree free ∧ (∀ k, k ∈ tree ++ free) ∧ EndsInUse s.tree tree := by
  have heval : ((runs coreStep (serverCoreInit allOk allOk)
      [.appRegister, .enroll 0 [0x61] .qos0]).map fun x => x.1.tree.rootNode) = some (some 31) := by
    decide +kernel
  obtain ⟨⟨s, rs⟩, hrun, hroot⟩ := Option.map_eq_some_iff.mp heval
  have hcreate : ((topicNodeCreate (serverCoreInit allOk allOk).pluginAlloc.2.tree [0x61]).map
      Prod.fst) = some (some 31) := by
    decide +kernel
  obtain ⟨⟨leaf, σ⟩, hcr, hleaf⟩ := Option.map_eq_some_iff.mp hcreate
  dsimp only at hleaf
  subst hleaf
  have hmeets : ∀ {L : Prop} {R : List UInt8 → Prop},
      Meets coreStep (StepMeets L R) (serverCoreInit allOk allOk)
        [.appRegister, .enroll 0 [0x61] .qos0] := by
    intro L R
    refine Meets.cons trivial rfl ⟨fun _ _ hloses => absurd hloses (not_losesTree hcr), ?_⟩
    split <;> trivial
  obtain ⟨tree, free, hpool, hall, huse⟩ := pool_conserved hrun
  refine ⟨s, rs, tree, free, hrun, ?_, hpool, hall hmeets, huse hmeets⟩
  have hreached := hpool.reached
  dsimp only at hroot
  rw [hroot] at hreached
  cases hreached with
  | cons => exact List.mem_cons_self

/-- Of `b` and `c`, that are neighbours, `b` stays when nobody has a use for it any more. -/
theorem pool_keeps_useless : ¬ ∀ (ops : List CoreOp) (s : ServerCore) (rs : List CoreReply),
    runs coreStep (serverCoreInit allOk allOk) ops = some (s, rs) →
      ∃ tree free, PoolOk s.tree tree free ∧ (∀ k, k ∈ tree ++ free) ∧
        ∀ k ∈ tree, (s.tree.nodes k).dnHier = none → (s.tree.nodes k).val.InUse := by
  intro h
  have heval : ((runs coreStep (serverCoreInit allOk allOk)
      [.appRegister, .enroll 0 [0x62] .qos0, .enroll 0 [0x63] .qos0, .cancel 0 [0x62]]).map fun x =>
        (x.1.tree.rootNode, (x.1.tree.nodes 31).dnHier, (x.1.tree.nodes 31).val.useless)) =
      some (some 31, none, true) := by
    decide +kernel
  obtain ⟨⟨s, rs⟩, hrun, hvals⟩ := Option.map_eq_some_iff.mp heval
  simp only [Prod.mk.injEq] at hvals
  obtain ⟨hroot, hdn, huseless⟩ := hvals
  obtain ⟨tree, free, hpool, -, huse⟩ := h _ s rs hrun
  have hreached := hpool.reached
  rw [hroot] at hreached
  have hmem : (31 : NodeIdx) ∈ tree := by
    cases hreached with
    | cons => exact List.mem_cons_self
  have hused := (NodeData.inUse_iff _).mp (huse 31 hmem hdn)
  cases huseless.symm.trans hused

end SimpleLink.Server
