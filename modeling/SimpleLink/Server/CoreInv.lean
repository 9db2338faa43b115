import SimpleLink.Server.CoreOps
import SimpleLink.Server.Dispatch
import SimpleLink.Server.TreeOk
import SimpleLink.Server.Walks

/-!
# What the operations leave (`server_core.c`)

`CoreOk` holds of the server at all times: the tree is in order, the node stack
is empty, and a connected client has a context. Each operation comes with the
entries of the table that it writes, and with how it fails.
-/

namespace SimpleLink.Server

open Lib LinkTree

/-! ## Clients -/

theorem ack1WlMqpDispatch_users {i : ClIdx} (wl : List Mqp) {m m' : ClMgmt}
    (h : ack1WlMqpDispatch i wl m = some m') : m'.users = m.users := by
  induction wl generalizing m with
  | nil =>
    cases h
    rfl
  | cons mqp wl ih =>
    unfold ack1WlMqpDispatch pubDispatchTo at h
    split at h
    · split at h
      · cases h
      · rename_i he
        split at he
        · cases he
        · cases he
          have hu := ih h
          exact hu
    · exact ih h

theorem ack2MsgIdDispatchFrom_users {ctx : Option Nat} {cq : Mqtt.PubQos2Cq} (n : Nat) {k : Nat}
    {m m' : ClMgmt} (h : ack2MsgIdDispatchFrom ctx cq n k m = some m') : m'.users = m.users := by
  induction n generalizing k m with
  | zero =>
    cases h
    rfl
  | succ n ih =>
    unfold ack2MsgIdDispatchFrom at h
    split at h
    · cases h
    · rename_i id _
      have hu := mqttVhMsgSend_users m ctx .pubrel id
      split at h
      · rename_i m₁ he
        rw [he] at hu
        exact (ih h).trans hu
      · rename_i m₁ he
        rw [he] at hu
        cases h
        exact hu

theorem mqpServerCopy_users (m : ClMgmt) (mqp : Mqp) :
    (mqpServerCopy m mqp).2.users = m.users := rfl

theorem sessWlMqpDispatchFrom_users {i : ClIdx} (wl : List Mqp) {visited : Bool}
    {kept : List Mqp} {m m' : ClMgmt} (hctx : HasCtx m)
    (h : sessWlMqpDispatchFrom i visited kept wl m = some m') : m'.users = m.users := by
  induction wl generalizing visited kept m with
  | nil =>
    cases h
    rfl
  | cons mqp wl ih =>
    unfold sessWlMqpDispatchFrom at h
    split at h
    · simp only at h
      split at h
      · obtain ⟨m₁, he, happ⟩ := clPubDispatch_appends hctx (clBmap i)
          { mqp with clMap := mqp.clMap &&& ~~~clBmap i }
        rw [he] at h
        exact (ih (hctx.of_users happ.users) h).trans happ.users
      · split at h
        · rename_i m₁ hcopy
          have hu : m₁.users = m.users := by
            rw [← mqpServerCopy_users m { mqp with clMap := mqp.clMap &&& ~~~clBmap i }, hcopy]
          exact (ih (hctx.of_users hu) h).trans hu
        · rename_i cpy m₁ hcopy
          have hu : m₁.users = m.users := by
            rw [← mqpServerCopy_users m { mqp with clMap := mqp.clMap &&& ~~~clBmap i }, hcopy]
          obtain ⟨m₂, he, happ⟩ := clPubDispatch_appends (hctx.of_users hu) (clBmap i) cpy
          rw [he] at h
          have hu₂ := happ.users.trans hu
          exact (ih (hctx.of_users hu₂) h).trans hu₂
    · split at h
      · cases h
      · cases h
        rfl

theorem sessionResume_users {i : ClIdx} {m m' : ClMgmt} (hctx : HasCtx m)
    (h : sessionResume m i = some m') : m'.users = m.users := by
  unfold sessionResume ack2MsgIdDispatch at h
  split at h
  · cases h
  · rename_i m₁ he₁
    have hu₁ := ack1WlMqpDispatch_users _ he₁
    simp only at h
    split at h
    · cases h
    · rename_i m₂ he₂
      have hu₂ := (ack2MsgIdDispatchFrom_users _ he₂).trans hu₁
      exact (sessWlMqpDispatchFrom_users _ (m := { m₂ with sessMqpWl := [] })
        (hctx.of_users hu₂) h).trans hu₂

def QueuesOnly (m m' : ClMgmt) : Prop :=
  ∀ j, ∃ rx tx, m'.users j = { m.users j with qos2RxCq := rx, qos2TxCq := tx }

theorem QueuesOnly.of_users {m m' : ClMgmt} (h : m'.users = m.users) : QueuesOnly m m' :=
  fun j => ⟨(m.users j).qos2RxCq, (m.users j).qos2TxCq, by rw [h]⟩

theorem QueuesOnly.trans {m₁ m₂ m₃ : ClMgmt} (h : QueuesOnly m₁ m₂) (h' : QueuesOnly m₂ m₃) :
    QueuesOnly m₁ m₃ := by
  intro j
  obtain ⟨rx, tx, hj⟩ := h j
  obtain ⟨rx', tx', hj'⟩ := h' j
  exact ⟨rx', tx', by rw [hj', hj]⟩

theorem queuesOnly_set (m : ClMgmt) (i : ClIdx) (rx tx : Mqtt.PubQos2Cq) :
    QueuesOnly m (m.setUser i { m.users i with qos2RxCq := rx, qos2TxCq := tx }) := by
  intro j
  by_cases hj : j = i
  · subst hj
    exact ⟨rx, tx, setUser_users_self ..⟩
  · exact ⟨(m.users j).qos2RxCq, (m.users j).qos2TxCq, setUser_users_ne _ _ hj⟩

/-- A client that is connected, or will be, has a context. -/
structure Attached (m : ClMgmt) : Prop where
  connected : HasCtx m
  assigned : ∀ j, (m.users j).assigned = true → (m.users j).ctx ≠ none

theorem Attached.of_users {m m' : ClMgmt} (h : Attached m) (hu : m'.users = m.users) :
    Attached m' := by
  refine ⟨h.connected.of_users hu, fun j => ?_⟩
  rw [hu]
  exact h.assigned j

theorem Attached.queues {m m' : ClMgmt} (h : Attached m) (hq : QueuesOnly m m') : Attached m' := by
  constructor
  · intro j hj
    obtain ⟨rx, tx, hu⟩ := hq j
    rw [hu] at hj ⊢
    exact h.connected j hj
  · intro j hj
    obtain ⟨rx, tx, hu⟩ := hq j
    rw [hu] at hj ⊢
    exact h.assigned j hj

theorem pubTracked_queues {m m' : ClMgmt} {usr : Option ClIdx} {msgId : UInt8} {qos : MqttQos}
    {ok : Bool} (h : pubTracked m usr msgId qos = some (ok, m')) : QueuesOnly m m' := by
  unfold pubTracked at h
  split_ifs at h
  · cases usr with
    | none =>
      cases h
      exact .of_users rfl
    | some i =>
      dsimp only at h
      unfold clMgmtQos2PubRxUpdate at h
      dsimp only at h
      split at h
      · cases h
      · cases h
        exact .of_users rfl
      · split at h
        · cases h
        · cases h
          exact queuesOnly_set m i _ _
  · cases h
    exact .of_users rfl

theorem clNotifyAck_queues {m m' : ClMgmt} {i : ClIdx} {msgType : AckType} {msgId : UInt16}
    {ok : Bool} (h : clNotifyAck m i msgType msgId = some (ok, m')) : QueuesOnly m m' := by
  unfold clNotifyAck at h
  cases msgType with
  | puback =>
    cases h
    refine .of_users ?_
    unfold ack1UnmapRmfreeTry
    split
    · rfl
    · split <;> rfl
  | pubrec =>
    dsimp only at h
    unfold procPubRecRx at h
    split at h
    · cases h
      exact .of_users rfl
    · dsimp only at h
      split at h
      · cases h
      · rename_i cq _
        cases h
        refine (queuesOnly_set m i (m.users i).qos2RxCq cq).trans (.of_users ?_)
        rw [mqttVhMsgSend_users]
      · cases h
        exact .of_users rfl
  | pubrel =>
    dsimp only at h
    unfold procPubRelRx at h
    dsimp only at h
    have hsend : QueuesOnly m (mqttVhMsgSend m (m.users i).ctx .pubcomp msgId).2 :=
      .of_users (mqttVhMsgSend_users ..)
    split at h
    · cases h
    · cases h
      exact hsend
    · split at h
      · cases h
      · rename_i cq _ _
        cases h
        refine hsend.trans ?_
        have hu := queuesOnly_set (mqttVhMsgSend m (m.users i).ctx .pubcomp msgId).2 i cq
          (m.users i).qos2TxCq
        rw [mqttVhMsgSend_users] at hu
        exact hu
  | pubcomp =>
    dsimp only at h
    split at h
    · cases h
    · cases h
      exact queuesOnly_set m i _ _

theorem Attached.setUser {m : ClMgmt} (h : Attached m) {i : ClIdx} {u : ClientUsr}
    (hu : u.connected = true ∨ u.assigned = true → u.ctx ≠ none) : Attached (m.setUser i u) := by
  constructor
  · intro j hj
    by_cases hji : j = i
    · subst hji
      rw [setUser_users_self] at hj ⊢
      exact hu (.inl hj)
    · rw [setUser_users_ne _ _ hji] at hj ⊢
      exact h.connected j hj
  · intro j hj
    by_cases hji : j = i
    · subst hji
      rw [setUser_users_self] at hj ⊢
      exact hu (.inr hj)
    · rw [setUser_users_ne _ _ hji] at hj ⊢
      exact h.assigned j hj

theorem Attached.ctx {m : ClMgmt} (h : Attached m) (i : ClIdx)
    (hi : (m.users i).connected = true ∨ (m.users i).assigned = true) : (m.users i).ctx ≠ none :=
  hi.elim (h.connected i) (h.assigned i)

theorem Attached.clSubCountAdd {m : ClMgmt} (h : Attached m) (i : ClIdx) :
    Attached (clSubCountAdd m i) := by
  unfold Server.clSubCountAdd
  dsimp only
  split_ifs
  · exact h.setUser (h.ctx i)
  · exact h

theorem Attached.uncount {m : ClMgmt} (h : Attached m) (i : ClIdx) (k : Nat) :
    Attached (uncount i k m) := by
  induction k generalizing m with
  | zero => exact h
  | succ k ih =>
    refine ih ?_
    unfold clSubCountDel
    dsimp only
    split_ifs
    · exact h.setUser (h.ctx i)
    · exact h

/-! ## The invariant -/

structure CoreOk (s : ServerCore) (t : Tree) (free : List NodeIdx) : Prop
    extends TreeOk s.tree t free where
  stack : s.stack = []
  clients : Attached s.cl

theorem coreOk_init (sendOk mallocOk : Nat → Bool) :
    CoreOk (serverCoreInit sendOk mallocOk) .nil (List.finRange maxTopNodes).reverse where
  toTreeOk := treeOk_init
  stack := rfl
  clients := ⟨fun _ h => (by cases h), fun _ h => (by cases h)⟩

theorem CoreOk.ctx {s : ServerCore} {t : Tree} {free : List NodeIdx} (h : CoreOk s t free) :
    HasCtx s.cl := h.clients.connected

/-! ## Subscriptions -/

def TopicEntry.subscribed (e : TopicEntry) (qid : MqttQos) (map : BitVec 32) : TopicEntry :=
  { e with clMap := fun q =>
      if q = qid then e.clMap q &&& ~~~map ||| map else e.clMap q &&& ~~~map }

theorem clBmapGet_eq (m : ClMgmt) (usr : ClIdx) :
    clBmapGet m usr = 0#32 ∨ clBmapGet m usr = clBmap usr := by
  unfold clBmapGet
  split_ifs
  · exact .inl rfl
  · exact .inr rfl

theorem subscribed_subtop (c : NodeData) (qid : MqttQos) (map : BitVec 32) :
    (subscribed c qid map).subtop = c.subtop := rfl

theorem bit_subscribed (e : TopicEntry) (qid : MqttQos) (usr i : ClIdx) (q : MqttQos) :
    bit ((e.subscribed qid (clBmap usr)).clMap q) i =
      if i = usr then decide (q = qid) else bit (e.clMap q) i := by
  have hset : (e.subscribed qid (clBmap usr)).clMap q =
      if q = qid then e.clMap q &&& ~~~clBmap usr ||| clBmap usr
      else e.clMap q &&& ~~~clBmap usr := rfl
  rw [hset]
  by_cases hi : i = usr
  · subst hi
    rw [if_pos rfl]
    split_ifs with hq
    · rw [bit_or, bit_clBmap]
      simp [hq]
    · rw [bit_clear_clBmap]
      simp [hq]
  · rw [if_neg hi]
    split_ifs with hq
    · rw [bit_or, bit_clear_clBmap, bit_clBmap]
      simp [hi]
    · rw [bit_clear_clBmap]
      simp [hi]

theorem subscribed_oneQos {c : NodeData} (hc : c.OneQos) (qid : MqttQos) (m : ClMgmt)
    (usr : ClIdx) : (subscribed c qid (clBmapGet m usr)).OneQos := by
  rcases clBmapGet_eq m usr with hmap | hmap
  · rw [hmap]
    have hand : ∀ x : BitVec 32, x &&& ~~~0#32 = x := fun x => BitVec.and_allOnes
    have hsame : subscribed c qid 0#32 = c := by
      unfold subscribed
      simp only [hand, BitVec.or_zero, ite_self]
    rwa [hsame]
  · rw [hmap]
    have hbit : ∀ (i : ClIdx) q, bit ((subscribed c qid (clBmap usr)).clMap q) i =
        if i = usr then decide (q = qid) else bit (c.clMap q) i :=
      fun i q => bit_subscribed c.entry qid usr i q
    intro i q q' h h'
    rw [hbit] at h h'
    split_ifs at h h'
    · exact (of_decide_eq_true h).trans (of_decide_eq_true h').symm
    · exact hc i q q' h h'

theorem unmapFirst_clear {c : NodeData} (hc : c.OneQos) (i : ClIdx) (q : MqttQos) :
    bit ((unmapFirst (clBmap i) c).clMap q) i = false := by
  have hbit : ∀ q, (c.clMap q &&& clBmap i != 0) = bit (c.clMap q) i := fun _ => rfl
  unfold unmapFirst
  cases hq : qosOf c (clBmap i) with
  | none =>
    have hnone := List.find?_eq_none.mp hq q (by cases q <;> simp)
    rw [hbit] at hnone
    exact Bool.eq_false_iff.mpr hnone
  | some q₁ =>
    have hsome := List.find?_some hq
    rw [hbit] at hsome
    dsimp only
    rw [Function.update_apply]
    split_ifs with hqq
    · rw [bit_clear_clBmap]
      simp
    · exact Bool.eq_false_iff.mpr fun h => hqq (hc i q q₁ h hsome)

section Steps

variable {s : ServerCore} {t : Tree} {free : List NodeIdx}

theorem CoreOk.room (h : CoreOk s t free) :
    s.stack.length + (ids t).length ≤ maxTopNodes := by
  rw [h.stack, List.length_nil, Nat.zero_add]
  exact Nat.le_of_add_right_le h.length_le

theorem CoreOk.setTree (h : CoreOk s t free) {σ : TopicTree} {t' : Tree} {free' : List NodeIdx}
    (hσ : TreeOk σ t' free') : CoreOk { s with tree := σ } t' free' :=
  ⟨hσ, h.stack, h.clients⟩

/-- `SUB_node_create` writes the entry of the topic, or fails as `topic_node_create` does. -/
theorem CoreOk.subNodeCreate (h : CoreOk s t free) (topSUB : List UInt8) (qid : MqttQos)
    (usr : ClIdx) :
    (∃ leaf c s' t' free', s.subNodeCreate topSUB qid usr = some (some leaf, s') ∧
      s' = { s with tree := s'.tree, cl := clSubCountAdd s.cl usr } ∧ CoreOk s' t' free' ∧
      Moves s.tree s'.tree t t' free free' ∧
      Rewrites t t' (levels topSUB)
        ((tableOf t (levels topSUB)).subscribed qid (clBmapGet s.cl usr)) ∧
      look NodeData.subtop t' (levels topSUB) = some (leaf, c) ∧
      (∀ p, look NodeData.subtop t (levels topSUB) = some p → p.1 = leaf)) ∨
    (s.subNodeCreate topSUB qid usr = some (none, s) ∧ (free = [] ∨ topSUB = [])) ∨
    (s.subNodeCreate topSUB qid usr =
        some (none, { s with tree := { s.tree with rootNode := none } }) ∧
      CoreOk { s with tree := { s.tree with rootNode := none } } .nil free ∧ free ≠ [] ∧
      topSUB ≠ [] ∧
      ∃ rest, (lowestNodeFind s.tree topSUB).bind Lowest.next = some rest ∧
        ¬ Creatable free rest) := by
  rw [ServerCore.subNodeCreate]
  rcases h.toTreeOk.create topSUB with ⟨leaf, c, σ₁, t₁, free₁, hrun, hσ₁, hm₁, hsame, hc⟩ |
      ⟨hrun, hstop⟩ | ⟨hrun, hlost, hfree, hne, hrest⟩
  · rw [hrun]
    have hval := hσ₁.look_val hc.self
    have hone : (σ₁.nodes leaf).val.OneQos := by
      obtain ⟨fs, h, n, rfl, -⟩ := look_place hc.self
      rw [hval]
      exact hσ₁.oneQos c ((mem_vals_plug fs _).mpr (.inl List.mem_cons_self))
    have hself : look NodeData.subtop t₁ (levels topSUB) = some (leaf, (σ₁.nodes leaf).val) := by
      rw [hval]
      exact hc.self
    obtain ⟨t', hσ', hm', hrw, hl⟩ := hσ₁.setVal hself
      (subscribed_subtop (σ₁.nodes leaf).val qid (clBmapGet s.cl usr))
      (subscribed_oneQos hone qid s.cl usr)
    refine .inl ⟨leaf, _, _, t', free₁, rfl, rfl, ⟨hσ', h.stack, h.clients.clSubCountAdd usr⟩,
      hm₁.trans hm', ?_, hl, fun p hp => ?_⟩
    · have hentry : tableOf t (levels topSUB) = (σ₁.nodes leaf).val.entry := by
        rw [← hsame.table, table_look hc.self, hval]
      rw [hentry]
      exact hsame.rewrites hrw
    · exact congrArg Prod.fst (Option.some.inj ((hc.old _ p hp).symm.trans hc.self))
  · rw [hrun]
    exact .inr (.inl ⟨rfl, hstop⟩)
  · rw [hrun]
    exact .inr (.inr ⟨rfl, h.setTree hlost, hfree, hne, hrest⟩)

def CoreGood (s : ServerCore) : Prop := ∃ t free, CoreOk s t free

theorem CoreOk.good (h : CoreOk s t free) : CoreGood s := ⟨t, free, h⟩

theorem CoreOk.wcNodeCreate_good (h : CoreOk s t free) {parentLeaf : Option NodeIdx}
    (hleaf : ∀ leaf, parentLeaf = some leaf → ∃ q c, look NodeData.subtop t q = some (leaf, c))
    {topSUB : List UInt8} {qid : MqttQos} {usr : ClIdx} {r : SubAck} {s' : ServerCore}
    (hrun : s.wcNodeCreate parentLeaf topSUB qid usr = some (r, s')) : CoreGood s' := by
  rw [ServerCore.wcNodeCreate] at hrun
  rcases h.subNodeCreate topSUB qid usr with ⟨leaf, c, s₁, t₁, free₁, he, -, h₁, -⟩ | ⟨he, -⟩ |
      ⟨he, hlost, -⟩
  · rw [he] at hrun
    cases hrun
    exact h₁.good
  · rw [he] at hrun
    cases parentLeaf with
    | none =>
      cases hrun
      exact h.good
    | some leaf =>
      cases hrun
      obtain ⟨q, c, hl⟩ := hleaf leaf rfl
      rcases h.toTreeOk.nodeDelete hl with ⟨-, t', hσ', -⟩ | ⟨-, hstop⟩
      · exact (h.setTree hσ').good
      · rw [hstop]
        exact h.good
  · rw [he] at hrun
    cases parentLeaf with
    | none =>
      cases hrun
      exact hlost.good
    | some leaf =>
      cases hrun
      obtain ⟨q, c, hl⟩ := hleaf leaf rfl
      have hout : leaf ∉ ids (.nil : Tree) ++ free := fun hmem =>
        List.disjoint_of_nodup_append h.nodup (mem_ids_of_look hl) hmem
      obtain ⟨t', free', hσ', -⟩ := hlost.toTreeOk.deleteBeside hout
      exact (hlost.setTree hσ').good

theorem CoreOk.mlWcNodesCreate_good (h : CoreOk s t free) {parentTopSUB topSUB : List UInt8}
    {qid : MqttQos} {usr : ClIdx} {r : SubAck} {s' : ServerCore}
    (hrun : s.mlWcNodesCreate parentTopSUB topSUB qid usr = some (r, s')) : CoreGood s' := by
  rw [ServerCore.mlWcNodesCreate] at hrun
  split_ifs at hrun
  · exact h.wcNodeCreate_good (fun leaf hleaf => by cases hleaf) hrun
  · rcases h.subNodeCreate parentTopSUB qid usr with
      ⟨leaf, c, s₁, t₁, free₁, he, -, h₁, -, -, hl, -⟩ | ⟨he, -⟩ | ⟨he, hlost, -⟩
    · rw [he] at hrun
      refine h₁.wcNodeCreate_good (fun leaf' hleaf => ?_) hrun
      cases hleaf
      exact ⟨_, c, hl⟩
    · rw [he] at hrun
      cases hrun
      exact h.good
    · rw [he] at hrun
      cases hrun
      exact hlost.good

/-- What is created for an entry of a SUBSCRIBE, if it is not refused: first the topic of the parent,
if there is one, then the filter. -/
def subTargets (buf : List UInt8) : Option (List UInt8 × List UInt8) :=
  if isValidSubTop buf then
    if buf.getLast? = some hash then
      let nuls := buf.take (buf.length - 2) ++ List.replicate (min buf.length 2) 0
      let (subtop, up) := parentLoop (min buf.length maxSubtopLen) nuls.reverse []
      if up ≠ [] ∧ up.head? ≠ some slash then none
      else some (cStr up.reverse ++ cStr subtop, buf)
    else some ([], cStr buf)
  else none

/-- The retained messages for an entry of a SUBSCRIBE are sent; the least QoS is granted. -/
def ServerCore.sendRetained (s : ServerCore) (usr : ClIdx) (buf : List UInt8) (qos : MqttQos) :
    Option Grant :=
  if buf.getLast? = some hash then
    let nuls := buf.take (buf.length - 2) ++ List.replicate (min buf.length 2) 0
    let (subtop, up) := parentLoop (min buf.length maxSubtopLen) nuls.reverse []
    (procSubMlWcTree (cStr up.reverse) (cStr subtop) s.tree qos usr s.cl s.stack).map Prod.fst
  else
    (procPubTreeSubTop (cStr buf) s.tree s.tree.rootNode [] qos usr s.cl s.stack).map Prod.fst

/-- An entry of a SUBSCRIBE is refused, or the retained messages are sent and the nodes created. -/
theorem CoreOk.procSubTopic_eq (h : CoreOk s t free) (usr : ClIdx) (topic : List UInt8)
    (qos : MqttQos) :
    (subTargets (subTopic topic qos) = none → s.procSubTopic usr topic qos = some (none, s)) ∧
    (∀ parent top, subTargets (subTopic topic qos) = some (parent, top) →
      ∃ a, s.sendRetained usr (subTopic topic qos) qos = some a ∧ Appends s.cl a.cl ∧
        s.procSubTopic usr topic qos =
          { s with cl := a.cl }.mlWcNodesCreate parent top a.min usr) := by
  unfold subTargets ServerCore.procSubTopic ServerCore.sendRetained
  dsimp only
  by_cases hvalid : isValidSubTop (subTopic topic qos) = true
  · rw [if_pos hvalid, if_pos hvalid]
    by_cases hml : (subTopic topic qos).getLast? = some hash
    · rw [if_pos hml, if_pos hml, if_pos hml]
      unfold ServerCore.procSubMlWildcard
      dsimp only
      split_ifs
      · exact ⟨fun _ => rfl, nofun⟩
      · refine ⟨nofun, fun parent top ht => ?_⟩
        cases ht
        obtain ⟨a, ha, happ⟩ := procSubMlWcTree_total _ h.toHolds h.room h.ctx
        rw [ha]
        exact ⟨a, rfl, happ, rfl⟩
    · rw [if_neg hml, if_neg hml, if_neg hml]
      refine ⟨nofun, fun parent top ht => ?_⟩
      cases ht
      obtain ⟨a, ha, happ⟩ :=
        procPubTreeSubTop_total (cStr (subTopic topic qos)) h.toHolds h.room [] qos usr h.ctx
      rw [ServerCore.procSubSlOrNoWc, ha]
      refine ⟨a, rfl, happ, ?_⟩
      rw [ServerCore.mlWcNodesCreate, if_pos rfl, ServerCore.wcNodeCreate]
      dsimp only
      cases ServerCore.subNodeCreate { s with cl := a.cl } (cStr (subTopic topic qos)) a.min usr with
      | none => rfl
      | some x =>
        obtain ⟨leaf, s'⟩ := x
        cases leaf <;> rfl
  · rw [if_neg hvalid, if_neg hvalid]
    exact ⟨fun _ => rfl, nofun⟩

theorem CoreOk.sent (h : CoreOk s t free) {m : ClMgmt} (happ : Appends s.cl m) :
    CoreOk { s with cl := m } t free :=
  ⟨h.toTreeOk, h.stack, h.clients.of_users happ.users⟩

theorem CoreGood.procSubTopic (h : CoreGood s) {usr : ClIdx} {topic : List UInt8} {qos : MqttQos}
    {r : SubAck} {s' : ServerCore} (hrun : s.procSubTopic usr topic qos = some (r, s')) :
    CoreGood s' := by
  obtain ⟨t, free, h⟩ := h
  obtain ⟨hnone, hsome⟩ := h.procSubTopic_eq usr topic qos
  cases ht : subTargets (subTopic topic qos) with
  | none =>
    cases (hnone ht).symm.trans hrun
    exact h.good
  | some x =>
    obtain ⟨a, -, happ, he⟩ := hsome x.1 x.2 ht
    exact (h.sent happ).mlWcNodesCreate_good (he.symm.trans hrun)

theorem procSubEntry_eq {usr : ClIdx} {topic : List UInt8} {qosreq : UInt8} {ack : SubAck}
    {s' : ServerCore} (h : s.procSubEntry usr topic qosreq = some (ack, s')) :
    s' = s ∨ ∃ qos, qosValue qosreq = some qos ∧ s.procSubTopic usr topic qos = some (ack, s') := by
  unfold ServerCore.procSubEntry at h
  by_cases ht : topic = []
  · rw [if_pos ht] at h
    cases h
  · rw [if_neg ht] at h
    cases hq : qosValue qosreq with
    | some qos =>
      rw [hq] at h
      exact .inr ⟨qos, rfl, h⟩
    | none =>
      rw [hq] at h
      dsimp only at h
      split at h
      · cases h
      · cases h
        exact .inl rfl

theorem CoreGood.procSubMsgRx {usr : ClIdx} (topics : List (List UInt8 × UInt8)) :
    ∀ {s s' : ServerCore} {acks : List SubAck}, CoreGood s →
      ServerCore.procSubMsgRx usr topics s = some (acks, s') → CoreGood s' := by
  induction topics with
  | nil =>
    intro s s' acks h hrun
    cases hrun
    exact h
  | cons p topics ih =>
    intro s s' acks h hrun
    obtain ⟨topic, qosreq⟩ := p
    rw [ServerCore.procSubMsgRx] at hrun
    cases he : s.procSubEntry usr topic qosreq with
    | none =>
      rw [he] at hrun
      cases hrun
    | some x =>
      obtain ⟨ack, s₁⟩ := x
      rw [he] at hrun
      obtain ⟨y, hy, heq⟩ := Option.map_eq_some_iff.mp hrun
      obtain ⟨-, rfl⟩ := Prod.mk.inj heq
      rcases procSubEntry_eq he with rfl | ⟨qos, -, he⟩
      · exact ih h hy
      · exact ih (h.procSubTopic he) hy

/-! ## Ends of subscriptions -/

theorem leafUnSub_eq {leaf : NodeIdx} {usr : ClIdx}
    (hq : qosOf (s.tree.nodes leaf).val (clBmapGet s.cl usr) ≠ none) :
    s.leafUnSub leaf usr =
      (tryNodeDelete (s.tree.setVal leaf
        (unmapFirst (clBmapGet s.cl usr) (s.tree.nodes leaf).val)) leaf).map
          fun σ => { s with tree := σ, cl := clSubCountDel s.cl usr } := by
  obtain ⟨q, hq⟩ := Option.ne_none_iff_exists'.mp hq
  have hclear : clearFirst usr (clBmapGet s.cl usr) (s.tree, s.cl) leaf =
      (s.tree.setVal leaf (unmapFirst (clBmapGet s.cl usr) (s.tree.nodes leaf).val),
        clSubCountDel s.cl usr) := by
    unfold clearFirst
    dsimp only
    rw [hq]
  rw [ServerCore.leafUnSub]
  dsimp only
  rw [hq, hclear]

theorem CoreOk.unSubFound (h : CoreOk s t free) (topic : List UInt8) (usr : ClIdx) :
    (s.unSubFound topic usr = some s ∧ ∀ i c, look NodeData.subtop t (levels topic) = some (i, c) →
      qosOf c (clBmapGet s.cl usr) = none) ∨
    (∃ i c s' t' free', look NodeData.subtop t (levels topic) = some (i, c) ∧
      qosOf c (clBmapGet s.cl usr) ≠ none ∧ s.unSubFound topic usr = some s' ∧
      s' = { s with tree := s'.tree, cl := clSubCountDel s.cl usr } ∧ CoreOk s' t' free' ∧
      Moves s.tree s'.tree t t' free free' ∧
      Rewrites t t' (levels topic) (unmapFirst (clBmapGet s.cl usr) c).entry) := by
  rw [ServerCore.unSubFound, leafNodeFind_eq h.toHolds]
  cases hl : look NodeData.subtop t (levels topic) with
  | none => exact .inl ⟨rfl, nofun⟩
  | some p =>
    obtain ⟨i, c⟩ := p
    have hval := h.look_val hl
    rw [Option.map_some]
    dsimp only
    cases hq : qosOf c (clBmapGet s.cl usr) with
    | none =>
      refine .inl ⟨?_, fun i' c' hl' => ?_⟩
      · rw [ServerCore.leafUnSub, hval, hq]
      · cases hl'
        exact hq
    | some q =>
      have hone : c.OneQos := h.look_oneQos hl
      obtain ⟨σ', t', free', hrun, hσ', hm, hrw⟩ := h.toTreeOk.setTry hl
        (unmapFirst_subtop (clBmapGet s.cl usr) c) (unmapFirst_oneQos hone)
      rw [leafUnSub_eq (by rw [hval, hq]; nofun), hval, hrun]
      exact .inr ⟨i, c, _, t', free', rfl, by rw [hq]; nofun, rfl, rfl,
        ⟨hσ', h.stack, h.clients.uncount usr 1⟩, hm, hrw⟩

theorem CoreGood.unSubFound (h : CoreGood s) {topic : List UInt8} {usr : ClIdx} {s' : ServerCore}
    (hrun : s.unSubFound topic usr = some s') : CoreGood s' := by
  obtain ⟨t, free, h⟩ := h
  rcases h.unSubFound topic usr with ⟨he, -⟩ | ⟨_, _, s₁, t₁, free₁, -, -, he, -, h₁, -⟩
  · cases he.symm.trans hrun
    exact h.good
  · cases he.symm.trans hrun
    exact h₁.good

theorem CoreGood.procUnSubTopic (h : CoreGood s) {topic : List UInt8} {usr : ClIdx}
    {s' : ServerCore} (hrun : s.procUnSubTopic usr topic = some s') : CoreGood s' := by
  rw [ServerCore.procUnSubTopic] at hrun
  split_ifs at hrun
  · split at hrun
    · cases hrun
    · rename_i s₁ he
      exact (h.unSubFound he).unSubFound hrun
  · exact h.unSubFound hrun

theorem CoreGood.procUnSubMsg {usr : ClIdx} (topics : List (List UInt8)) :
    ∀ {s s' : ServerCore}, CoreGood s → ServerCore.procUnSubMsg usr topics s = some s' →
      CoreGood s' := by
  induction topics with
  | nil =>
    intro s s' h hrun
    cases hrun
    exact h
  | cons topic topics ih =>
    intro s s' h hrun
    rw [ServerCore.procUnSubMsg] at hrun
    split at hrun
    · cases hrun
    · rename_i s₁ he
      exact ih (h.procUnSubTopic he) hrun

/-! ## Retained messages and wills -/

/-- Of the entries, only the retained messages change. -/
structure OnlyData (t t' : Tree) : Prop where
  subs : ∀ q, (tableOf t' q).clMap = (tableOf t q).clMap
  plugs : ∀ q, (tableOf t' q).pgMap = (tableOf t q).pgMap
  weight : ∀ w : TopicEntry → Nat, w .blank = 0 → (∀ e r, w { e with retained := r } = w e) →
    weigh w t' = weigh w t

theorem SameTable.onlyData {t t' : Tree} (h : SameTable t t') : OnlyData t t' where
  subs q := by rw [h.table]
  plugs q := by rw [h.table]
  weight w hw _ := h.weight w hw

theorem OnlyData.trans {t₁ t₂ t₃ : Tree} (h : OnlyData t₁ t₂) (h' : OnlyData t₂ t₃) :
    OnlyData t₁ t₃ where
  subs q := (h'.subs q).trans (h.subs q)
  plugs q := (h'.plugs q).trans (h.plugs q)
  weight w hw hr := (h'.weight w hw hr).trans (h.weight w hw hr)

theorem Rewrites.onlyData {t t' : Tree} {q : List (List UInt8)} {e : TopicEntry}
    (h : Rewrites t t' q e) (hsubs : e.clMap = (tableOf t q).clMap)
    (hplugs : e.pgMap = (tableOf t q).pgMap) : OnlyData t t' where
  subs q' := by
    rw [h.table, Function.update_apply]
    split_ifs with hq
    · rw [hq, hsubs]
    · rfl
  plugs q' := by
    rw [h.table, Function.update_apply]
    split_ifs with hq
    · rw [hq, hplugs]
    · rfl
  weight w hw hr := by
    have he : w e = w (tableOf t q) := by
      obtain ⟨clMap, pgMap, retained⟩ := e
      dsimp only at hsubs hplugs
      subst hsubs hplugs
      exact hr (tableOf t q) retained
    have hweight := h.weight w hw
    omega

/-- What `node_data_update` leaves of a node and of the clients. -/
theorem nodeDataUpdate_keeps (c : NodeData) (dropQid0 : Bool) (data : Option (List UInt8))
    (qid : MqttQos) (retain : Bool) (m : ClMgmt) :
    (nodeDataUpdate c dropQid0 data qid retain m).2.1 =
        { c with
          myData := (nodeDataUpdate c dropQid0 data qid retain m).2.1.myData
          qid := (nodeDataUpdate c dropQid0 data qid retain m).2.1.qid
          retain := (nodeDataUpdate c dropQid0 data qid retain m).2.1.retain } ∧
      (nodeDataUpdate c dropQid0 data qid retain m).2.2.users = m.users := by
  unfold nodeDataUpdate
  dsimp only
  by_cases hdrop : dropQid0 = true ∧ qid = .qos0
  · rw [if_pos hdrop]
    exact ⟨rfl, rfl⟩
  · rw [if_neg hdrop]
    cases data with
    | none => exact ⟨rfl, rfl⟩
    | some bytes =>
      dsimp only
      by_cases hok : m.env.malloc.1 = true
      · rw [if_pos hok]
        exact ⟨rfl, rfl⟩
      · rw [if_neg hok]
        exact ⟨rfl, rfl⟩

theorem CoreOk.createUpdate (h : CoreOk s t free) (topic : List UInt8) :
    (∃ leaf c σ₁ t₁ free₁, topicNodeCreate s.tree topic = some (some leaf, σ₁) ∧
      TreeOk σ₁ t₁ free₁ ∧ Moves s.tree σ₁ t t₁ free free₁ ∧ SameTable t t₁ ∧
      look NodeData.subtop t₁ (levels topic) = some (leaf, c) ∧ (σ₁.nodes leaf).val = c ∧
      c.OneQos) ∨
    (topicNodeCreate s.tree topic = some (none, s.tree) ∧ (free = [] ∨ topic = [])) ∨
    (topicNodeCreate s.tree topic = some (none, { s.tree with rootNode := none }) ∧
      CoreOk { s with tree := { s.tree with rootNode := none } } .nil free) := by
  rcases h.toTreeOk.create topic with ⟨leaf, c, σ₁, t₁, free₁, hrun, hσ₁, hm₁, hsame, hc⟩ | hfail |
      ⟨hrun, hlost, -⟩
  · refine .inl ⟨leaf, c, σ₁, t₁, free₁, hrun, hσ₁, hm₁, hsame, hc.self, hσ₁.look_val hc.self, ?_⟩
    obtain ⟨fs, h, n, rfl, -⟩ := look_place hc.self
    exact hσ₁.oneQos c ((mem_vals_plug fs _).mpr (.inl List.mem_cons_self))
  · exact .inr (.inl hfail)
  · exact .inr (.inr ⟨hrun, h.setTree hlost⟩)

theorem onlyData_of_entry {t' : Tree} {q : List (List UInt8)} {i : NodeIdx} {c c' : NodeData}
    (hl : look NodeData.subtop t q = some (i, c)) (h : Rewrites t t' q c'.entry)
    (hsubs : c'.clMap = c.clMap) (hplugs : c'.pgMap = c.pgMap) : OnlyData t t' := by
  refine h.onlyData ?_ ?_
  · rw [table_look hl]
    exact hsubs
  · rw [table_look hl]
    exact hplugs

theorem CoreOk.retainData (h : CoreOk s t free) (top : List UInt8) (data : Option (List UInt8))
    (qos : MqttQos) :
    (∃ ok s' t' free', s.retainData top data qos = some (ok, s') ∧
      s' = { s with tree := s'.tree, cl := s'.cl } ∧ s'.cl.users = s.cl.users ∧
      CoreOk s' t' free' ∧ Moves s.tree s'.tree t t' free free' ∧ OnlyData t t') ∨
    (topicNodeCreate s.tree top = some (none, { s.tree with rootNode := none }) ∧
      s.retainData top data qos = some (false, { s with tree := { s.tree with rootNode := none } }) ∧
      CoreOk { s with tree := { s.tree with rootNode := none } } .nil free) := by
  unfold ServerCore.retainData
  rcases h.createUpdate top with ⟨leaf, c, σ₁, t₁, free₁, hrun, hσ₁, hm₁, hsame, hl, hval, hone⟩ |
      ⟨hrun, -⟩ | ⟨hrun, hlost⟩
  · rw [hrun]
    dsimp only
    rw [hval]
    obtain ⟨hkeep, husers⟩ := nodeDataUpdate_keeps c true data qos true s.cl
    generalize nodeDataUpdate c true data qos true s.cl = r at hkeep husers
    obtain ⟨ok, c', m⟩ := r
    dsimp only at hkeep husers ⊢
    have hsub : c'.subtop = c.subtop := by rw [hkeep]
    have hmaps : c'.clMap = c.clMap := by rw [hkeep]
    have hpg : c'.pgMap = c.pgMap := by rw [hkeep]
    have hone' : c'.OneQos := by
      unfold NodeData.OneQos
      rw [hmaps]
      exact hone
    obtain ⟨σ', t', free', hdel, hσ', hm', hrw⟩ := hσ₁.setTry hl hsub hone'
    rw [hdel]
    refine .inl ⟨ok, _, t', free', rfl, rfl, husers, ⟨hσ', h.stack, h.clients.of_users husers⟩,
      hm₁.trans hm', hsame.onlyData.trans (onlyData_of_entry hl hrw hmaps hpg)⟩
  · rw [hrun]
    exact .inl ⟨false, s, t, free, rfl, rfl, rfl, h, .refl .., (SameTable.refl t).onlyData⟩
  · rw [hrun]
    exact .inr ⟨rfl, rfl, hlost⟩

theorem CoreOk.willCreate (h : CoreOk s t free) (will : WillArgs) :
    (∃ leaf s' t' free', s.willCreate will = some (leaf, s') ∧
      s' = { s with tree := s'.tree, cl := s'.cl } ∧ s'.cl.users = s.cl.users ∧
      CoreOk s' t' free' ∧ Moves s.tree s'.tree t t' free free' ∧ OnlyData t t' ∧
      ∀ i, leaf = some i → ∃ c, look NodeData.subtop t' (levels (cStr will.topic)) = some (i, c)) ∨
    (topicNodeCreate s.tree (cStr will.topic) = some (none, { s.tree with rootNode := none }) ∧
      s.willCreate will = some (none, { s with tree := { s.tree with rootNode := none } }) ∧
      CoreOk { s with tree := { s.tree with rootNode := none } } .nil free) := by
  unfold ServerCore.willCreate
  rcases h.createUpdate (cStr will.topic) with
      ⟨leaf, c, σ₁, t₁, free₁, hrun, hσ₁, hm₁, hsame, hl, hval, hone⟩ | ⟨hrun, -⟩ | ⟨hrun, hlost⟩
  · rw [hrun]
    dsimp only
    rw [hval]
    obtain ⟨hkeep, husers⟩ := nodeDataUpdate_keeps c false will.msg will.qos will.retain s.cl
    generalize nodeDataUpdate c false will.msg will.qos will.retain s.cl = r at hkeep husers
    obtain ⟨ok, c', m⟩ := r
    dsimp only at hkeep husers
    have hsub : c'.subtop = c.subtop := by rw [hkeep]
    have hmaps : c'.clMap = c.clMap := by rw [hkeep]
    have hpg : c'.pgMap = c.pgMap := by rw [hkeep]
    have hone' : c'.OneQos := by
      unfold NodeData.OneQos
      rw [hmaps]
      exact hone
    cases ok with
    | true =>
      obtain ⟨t', hσ', hm', hrw, hl'⟩ := hσ₁.setVal hl hsub hone'
      refine .inl ⟨some leaf, _, t', free₁, rfl, rfl, husers,
        ⟨hσ', h.stack, h.clients.of_users husers⟩, hm₁.trans hm',
        hsame.onlyData.trans (onlyData_of_entry hl hrw hmaps hpg), fun i hi => ?_⟩
      cases hi
      exact ⟨c', hl'⟩
    | false =>
      obtain ⟨σ', t', free', hdel, hσ', hm', hrw⟩ := hσ₁.setTry hl hsub hone'
      dsimp only
      rw [hdel]
      exact .inl ⟨none, _, t', free', rfl, rfl, husers, ⟨hσ', h.stack, h.clients.of_users husers⟩,
        hm₁.trans hm', hsame.onlyData.trans (onlyData_of_entry hl hrw hmaps hpg), nofun⟩
  · rw [hrun]
    exact .inl ⟨none, s, t, free, rfl, rfl, rfl, h, .refl .., (SameTable.refl t).onlyData, nofun⟩
  · rw [hrun]
    exact .inr ⟨rfl, rfl, hlost⟩

end Steps

end SimpleLink.Server
