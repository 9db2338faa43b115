import SimpleLink.Server.LeafSearch
import SimpleLink.Server.Losses

/-!
# The messages of the plug-ins (`server_core.c`, `server_plug.c`)

A plug-in enrols on a topic with a QoS and should get each PUBLISH to the topic
once, with the lesser of the two QoS. `Enrolments` is what the calls stand for; the
tree has them as long as no step loses it or takes a leaf off. The QoS of an
enrolment is kept, and read by nobody: a message has the QoS that it came with.
-/

namespace SimpleLink.Server

open Lib LinkTree

/-! ## Enrolments -/

/-- The QoS of each plug-in on each topic. -/
abbrev Enrolments := PluginIdx → List UInt8 → Option MqttQos

def noEnrolments : Enrolments := fun _ _ => none

def Enrolments.set (E : Enrolments) (pg : PluginIdx) (topic : List UInt8) (q : Option MqttQos) :
    Enrolments :=
  fun pg' topic' => if pg' = pg ∧ topic' = topic then q else E pg' topic'

/-- What a call of a plug-in is to do; `r` is its answer. -/
def Enrolments.next (E : Enrolments) (s : ServerCore) (r : CoreReply) : CoreOp → Enrolments
  | .enroll pg topic qos => if s.inUse pg ∧ r.value = 0 then E.set pg (cStr topic) (some qos) else E
  | .cancel pg topic => if s.inUse pg ∧ r.value = 0 then E.set pg (cStr topic) none else E
  | _ => E

def plugStep (p : ServerCore × Enrolments) (op : CoreOp) :
    Option ((ServerCore × Enrolments) × CoreReply) :=
  (coreStep p.1 op).map fun (s, r) => ((s, p.2.next p.1 r op), r)

/-- The PUBLISH of a step, unless it is refused or a repetition: its topic, its data and its QoS. -/
def dispatched (s : ServerCore) : CoreOp → Option (List UInt8 × List UInt8 × MqttQos)
  | .publish i topic data msgId qos _ =>
    if (s.cl.users i).connected ∧ (pubTopicRead topic).isSome ∧
      (pubTracked s.cl (some i) msgId qos).map Prod.fst = some true then some (topic, data, qos)
    else none
  | .appPublish topic data qos _ =>
    if (pubTopicRead topic).isSome ∧ (pubTracked s.cl none 0 qos).map Prod.fst = some true then
      some (topic, data, qos)
    else none
  | _ => none

/-- Each plug-in is called once if it is enrolled on the topic, with the lesser QoS, and not at all
otherwise. -/
def DeliveredRight (E : Enrolments) (topic data : List UInt8) (qos : MqttQos)
    (plugins : List PluginMsg) : Prop :=
  ∀ pg, plugins.filter (·.plugin = pg) =
    match E pg topic with
    | none => []
    | some q => [⟨pg, topic, data, false, qos.min q, false⟩]

/-! ## When they are kept -/

def NoneEnrolled (E : Enrolments) : Prop := ∀ pg topic, E pg topic = none

/-- The tree is lost only if no plug-in is enrolled, the leaf of the parent of `x/#` only if none is
enrolled there. -/
def Spares (E : Enrolments) (s : ServerCore) (op : CoreOp) : Prop :=
  StepMeets (NoneEnrolled E) (fun x => ∀ pg, E pg x = none) s op

/-- The topic is as the tree has it, the leaves that it reaches have no plug-in, its own apart, and no
plug-in is enrolled on it with less than the QoS of the message. -/
structure Reaches (E : Enrolments) (s : ServerCore) (topic : List UInt8) (qos : MqttQos) : Prop where
  alone : ∀ leaf ∈ reachedBy s.tree (procForwardSlash topic), ∀ pg,
    (pgField (s.tree.nodes leaf).val.pgMap pg).isSome → leafNodeFind s.tree topic = some (some leaf)
  normal : ∀ pg q, E pg topic = some q → procForwardSlash topic = topic
  lesser : ∀ pg q, E pg topic = some q → qos.min q = qos

def LawKept (p : ServerCore × Enrolments) (op : CoreOp) : Prop :=
  Spares p.2 p.1 op ∧
    ∀ topic data qos, dispatched p.1 op = some (topic, data, qos) → Reaches p.2 p.1 topic qos

/-! ## The invariant -/

/-- The maps of the tree are the enrolments, and those are of plug-ins in use. -/
structure PlugOk (s : ServerCore) (E : Enrolments) (t : Tree) (free : List NodeIdx) : Prop
    extends CoreOk s t free where
  enrolled : ∀ pg topic, pgField (tableOf t (levels topic)).pgMap pg = E pg topic
  used : ∀ pg topic, E pg topic ≠ none → s.inUse pg = true

def PlugGood (s : ServerCore) (E : Enrolments) : Prop := ∃ t free, PlugOk s E t free

def SamePlugs (t t' : Tree) : Prop := ∀ q, (tableOf t' q).pgMap = (tableOf t q).pgMap

theorem Rewrites.samePlugs {t t' : Tree} {q : List (List UInt8)} {e : TopicEntry}
    (h : Rewrites t t' q e) (he : e.pgMap = (tableOf t q).pgMap) : SamePlugs t t' := by
  intro q'
  rw [h.table, Function.update_apply]
  split_ifs with hq
  · rw [hq, he]
  · rfl

theorem unmapFirst_pgMap (map : BitVec 32) (c : NodeData) : (unmapFirst map c).pgMap = c.pgMap := by
  unfold unmapFirst
  split <;> rfl

theorem swept_samePlugs (map : BitVec 32) (t : Tree) : SamePlugs t (swept map t) := by
  intro q
  rw [table_swept, tableOf]
  cases look NodeData.subtop t q with
  | none => rfl
  | some p => exact unmapFirst_pgMap map p.2

section Steps

variable {s s' : ServerCore} {E : Enrolments} {t t' : Tree} {free free' : List NodeIdx} {usr : ClIdx}

theorem PlugOk.good (h : PlugOk s E t free) : PlugGood s E := ⟨t, free, h⟩

theorem plugOk_init (sendOk mallocOk : Nat → Bool) :
    PlugOk (serverCoreInit sendOk mallocOk) noEnrolments .nil (List.finRange maxTopNodes).reverse where
  toCoreOk := coreOk_init sendOk mallocOk
  enrolled pg _ := pgField_dflts pg
  used _ _ h := absurd rfl h

theorem PlugOk.enrolledAt (h : PlugOk s E t free) (pg : PluginIdx) (topic : List UInt8) :
    enrolledAt s.tree pg topic = E pg topic := by
  rw [Server.enrolledAt, h.toCoreOk.entryAt, h.enrolled]

theorem PlugOk.same (h : PlugOk s E t free) (hok : CoreOk s' t' free') (ht : SamePlugs t t')
    (hin : s'.inUse = s.inUse) : PlugOk s' E t' free' where
  toCoreOk := hok
  enrolled pg topic := by rw [ht, h.enrolled]
  used pg topic hE := by rw [hin, h.used pg topic hE]

theorem plugOk_lost (hok : CoreOk s' .nil free') (hnone : NoneEnrolled E) :
    PlugOk s' E .nil free' where
  toCoreOk := hok
  enrolled pg topic := (pgField_dflts pg).trans (hnone pg topic).symm
  used pg topic hE := absurd (hnone pg topic) hE

theorem PlugOk.noneEnrolled (h : PlugOk s E t free) {topic : List UInt8}
    (hrun : topicNodeCreate s.tree topic = some (none, { s.tree with rootNode := none }))
    (hk : LossMeets (NoneEnrolled E) s.tree topic) : NoneEnrolled E := by
  by_cases hroot : s.tree.rootNode = none
  · have ht : t = .nil := root_eq_none.mp (h.root.symm.trans hroot)
    subst ht
    exact fun pg topic => (h.enrolled pg topic).symm.trans (pgField_dflts pg)
  · exact hk ⟨_, hrun, fun heq => hroot heq.symm⟩

/-! ## Subscriptions -/

theorem PlugOk.subNodeCreate (h : PlugOk s E t free) {topSUB : List UInt8} {qid : MqttQos}
    (hk : LossMeets (NoneEnrolled E) s.tree topSUB) {o : Option NodeIdx}
    (hrun : s.subNodeCreate topSUB qid usr = some (o, s')) :
    ∃ t' free', PlugOk s' E t' free' ∧
      ∀ leaf, o = some leaf → ∃ c, look NodeData.subtop t' (levels topSUB) = some (leaf, c) := by
  rcases h.toCoreOk.subNodeCreate topSUB qid usr with
      ⟨leaf, c, s₁, t₁, free₁, he, hs₁, h₁, -, hrw, hl, -⟩ | ⟨he, -⟩ | ⟨he, hlost, -⟩
  · cases he.symm.trans hrun
    refine ⟨t₁, free₁, h.same h₁ (hrw.samePlugs rfl) (by rw [hs₁]), fun leaf' hleaf => ?_⟩
    cases hleaf
    exact ⟨c, hl⟩
  · cases he.symm.trans hrun
    exact ⟨t, free, h, nofun⟩
  · cases he.symm.trans hrun
    have hnone := h.noneEnrolled (subNodeCreate_none he) hk
    exact ⟨.nil, free, plugOk_lost hlost hnone, nofun⟩

theorem PlugOk.wcNodeCreate (h : PlugOk s E t free) (parent : List UInt8)
    {parentLeaf : Option NodeIdx} {topSUB : List UInt8} {qid : MqttQos}
    (hk : LossMeets (NoneEnrolled E) s.tree topSUB)
    (hleaf : ∀ leaf, parentLeaf = some leaf →
      (∃ c, look NodeData.subtop t (levels parent) = some (leaf, c)) ∧
      (topicNodeCreate s.tree topSUB = some (none, s.tree) →
        canDeleteNode (s.tree.nodes leaf) = true → ∀ pg, E pg parent = none))
    {r : SubAck} (hrun : s.wcNodeCreate parentLeaf topSUB qid usr = some (r, s')) : PlugGood s' E := by
  rw [ServerCore.wcNodeCreate] at hrun
  rcases h.toCoreOk.subNodeCreate topSUB qid usr with
      ⟨leaf, c, s₁, t₁, free₁, he, -⟩ | ⟨he, -⟩ | ⟨he, hlost, -⟩
  · obtain ⟨t', free', h', -⟩ := h.subNodeCreate hk he
    rw [he] at hrun
    cases hrun
    exact h'.good
  · rw [he] at hrun
    cases parentLeaf with
    | none =>
      cases hrun
      exact h.good
    | some leaf =>
      cases hrun
      obtain ⟨⟨c, hl⟩, hfree⟩ := hleaf leaf rfl
      rcases h.toTreeOk.nodeDelete hl with ⟨hcan, t₁, h₁, -, hrw⟩ | ⟨-, hstop⟩
      · -- what is taken off has no plug-in
        have hblank : ∀ q, pgField (tableOf t₁ q).pgMap = pgField (tableOf t q).pgMap := by
          intro q
          rw [hrw.table, Function.update_apply]
          split_ifs with hq
          · funext pg
            rw [hq, h.enrolled, hfree (subNodeCreate_none he) hcan pg]
            exact pgField_dflts pg
          · rfl
        refine PlugOk.good ⟨h.setTree h₁, fun pg topic => ?_, h.used⟩
        rw [hblank, h.enrolled]
      · rw [hstop]
        exact h.good
  · have hnone := h.noneEnrolled (subNodeCreate_none he) hk
    rw [he] at hrun
    cases parentLeaf with
    | none =>
      cases hrun
      exact (plugOk_lost hlost hnone).good
    | some leaf =>
      cases hrun
      obtain ⟨⟨c, hl⟩, -⟩ := hleaf leaf rfl
      have hout : leaf ∉ ids (.nil : Tree) ++ free := fun hmem =>
        List.disjoint_of_nodup_append h.nodup (mem_ids_of_look hl) hmem
      obtain ⟨t', free', hσ', ht', -⟩ := hlost.toTreeOk.deleteBeside hout
      obtain rfl : t' = .nil := ht'.elim id id
      exact (plugOk_lost (hlost.setTree hσ') hnone).good

theorem PlugOk.mlWcNodesCreate (h : PlugOk s E t free) {parent top : List UInt8} {qid : MqttQos}
    (hk : CreateMeets (NoneEnrolled E) (fun x => ∀ pg, E pg x = none) s parent top qid usr)
    {r : SubAck}
    (hrun : s.mlWcNodesCreate parent top qid usr = some (r, s')) : PlugGood s' E := by
  rw [ServerCore.mlWcNodesCreate] at hrun
  rw [CreateMeets] at hk
  split_ifs at hrun hk
  · exact h.wcNodeCreate [] hk (fun leaf hleaf => by cases hleaf) hrun
  · cases he : s.subNodeCreate parent qid usr with
    | none =>
      rw [he] at hrun
      cases hrun
    | some x =>
      obtain ⟨o, s₁⟩ := x
      rw [he] at hrun
      obtain ⟨t₁, free₁, h₁, hl⟩ := h.subNodeCreate hk.1 he
      cases o with
      | none =>
        cases hrun
        exact h₁.good
      | some leaf =>
        obtain ⟨hloss, hroll⟩ := hk.2 leaf s₁ he
        refine h₁.wcNodeCreate parent hloss (fun leaf' hleaf => ?_) hrun
        cases hleaf
        exact ⟨hl leaf rfl, hroll⟩

theorem PlugGood.procSubTopic (h : PlugGood s E) {topic : List UInt8} {qos : MqttQos}
    (hk : SubTopicMeets (NoneEnrolled E) (fun x => ∀ pg, E pg x = none) usr s topic qos) {r : SubAck}
    (hrun : s.procSubTopic usr topic qos = some (r, s')) : PlugGood s' E := by
  obtain ⟨t, free, h⟩ := h
  obtain ⟨hnone, hsome⟩ := h.toCoreOk.procSubTopic_eq usr topic qos
  cases ht : subTargets (subTopic topic qos) with
  | none =>
    cases (hnone ht).symm.trans hrun
    exact h.good
  | some x =>
    obtain ⟨parent, top⟩ := x
    obtain ⟨a, ha, happ, he⟩ := hsome parent top ht
    have hsent : PlugOk { s with cl := a.cl } E t free :=
      ⟨h.toCoreOk.sent happ, h.enrolled, h.used⟩
    exact hsent.mlWcNodesCreate (hk parent top a ht ha) (he.symm.trans hrun)

theorem PlugGood.unSubFound (h : PlugGood s E) {topic : List UInt8}
    (hrun : s.unSubFound topic usr = some s') : PlugGood s' E := by
  obtain ⟨t, free, h⟩ := h
  rcases h.toCoreOk.unSubFound topic usr with
      ⟨he, -⟩ | ⟨k, c, s₁, t₁, free₁, hl, -, he, hs₁, h₁, -, hrw⟩
  · cases he.symm.trans hrun
    exact h.good
  · cases he.symm.trans hrun
    have hpg : (unmapFirst (clBmapGet s.cl usr) c).entry.pgMap =
        (tableOf t (levels topic)).pgMap := by
      rw [table_look hl]
      exact unmapFirst_pgMap _ c
    exact (h.same h₁ (hrw.samePlugs hpg) (by rw [hs₁])).good

/-! ## Messages and connections -/

theorem PlugOk.procPubMsgRx (h : PlugOk s E t free) {sender : Option ClIdx} {topic data : List UInt8}
    {msgId : UInt8} {qos : MqttQos} {retain ok : Bool} {plugins : List PluginMsg}
    (hk : PublishMeets (NoneEnrolled E) s sender topic msgId qos retain)
    (hrun : s.procPubMsgRx sender topic data msgId qos retain = some (ok, plugins, s')) :
    PlugGood s' E := by
  rcases h.toCoreOk.procPubMsgRx hrun with
      ⟨t', free', hgo, hdata, -⟩ | ⟨buf, m, hbuf, hretain, htr, hcr, hlost, -⟩
  · exact (h.same hgo.ok hdata.plugs hgo.inUse).good
  · exact (plugOk_lost hlost (h.noneEnrolled hcr (hk buf m hbuf hretain htr))).good

theorem PlugOk.procConnectRx (h : PlugOk s E t free) {args : ConnectArgs} {r : Option ClIdx}
    (hk : args.admitted = true → ∀ will, args.will.filter (·.topic ≠ []) = some will →
      LossMeets (NoneEnrolled E) s.tree (cStr will.topic))
    (hrun : s.procConnectRx args = some (r, s')) : PlugGood s' E := by
  rcases h.toCoreOk.procConnectRx hrun with
      ⟨t', free', hgo, hdata, -⟩ | ⟨will, hadmitted, hwill, hcr, rfl⟩
  · exact (h.same hgo.ok hdata.plugs hgo.inUse).good
  · have hnone := h.noneEnrolled hcr (hk hadmitted will hwill)
    exact (plugOk_lost h.toCoreOk.treeless hnone).good

theorem PlugOk.sessionClose (h : PlugOk s E t free) (hrun : s.sessionClose usr = some s') :
    PlugGood s' E := by
  obtain ⟨s₁, t', free', k, he, hgo, rfl, -, -⟩ := h.toCoreOk.sessionClose usr
  cases he.symm.trans hrun
  split_ifs at hgo
  · exact (h.same hgo.ok (swept_samePlugs _ t) hgo.inUse).good
  · exact (h.same hgo.ok (fun _ => rfl) hgo.inUse).good

theorem PlugOk.onClNetClose (h : PlugOk s E t free) {due2err : Bool} {plugins : List PluginMsg}
    (hk : WillMeets (NoneEnrolled E) s usr) (hrun : s.onClNetClose usr due2err = some (plugins, s')) :
    PlugGood s' E := by
  rcases h.toCoreOk.onClNetClose_split hrun with
      rfl | he | ⟨leaf, m, σ, hwill, hcl, happ, hdel, he⟩
  · exact h.good
  · exact h.sessionClose he
  · have hsub : ({ nodeDataReset (s.tree.nodes leaf).val with willCl := none } : NodeData).subtop =
        (s.tree.nodes leaf).val.subtop := rfl
    have hctx := h.clients.of_users happ.users
    by_cases hin : leaf ∈ ids t
    · obtain ⟨q, hl⟩ := h.mem_look hin
      have hone : (s.tree.nodes leaf).val.OneQos := h.look_oneQos hl
      obtain ⟨σ', t', free', hdel', hσ, -, hrw⟩ := h.toTreeOk.setTry hl hsub hone
      cases hdel.symm.trans hdel'
      have hok : CoreOk { s with tree := σ, cl := m } t' free' := ⟨hσ, h.stack, hctx⟩
      exact PlugOk.sessionClose (h.same hok (onlyData_of_entry hl hrw rfl rfl).plugs rfl) he
    · have hout : leaf ∉ ids t ++ free := fun hmem =>
        (List.mem_append.mp hmem).elim hin (h.will_mem hcl)
      obtain ⟨t', free', hσ, ht'⟩ :=
        TreeOk.tryBeside loopBound (h.toTreeOk.setBeside hout _) hout hdel
      have hok : CoreOk { s with tree := σ, cl := m } t' free' := ⟨hσ, h.stack, hctx⟩
      rcases ht' with rfl | rfl
      · exact PlugOk.sessionClose (h.same hok (fun _ => rfl) rfl) he
      · have hwalk : Walk s.tree.nodes s.tree.rootNode (ids t) := by
          rw [h.root]
          exact h.rep.walk
        have hnone := hk leaf (ids t) σ hwill hcl hwalk hin hdel hσ.root
        exact PlugOk.sessionClose (plugOk_lost hok hnone) he

/-! ## Calls of the plug-ins -/

theorem PlugOk.set (h : PlugOk s E t free) (hok : CoreOk s' t' free') (hin : s'.inUse = s.inUse)
    {pg : PluginIdx} (hpg : s.inUse pg = true) {topic : List UInt8} {q : Option MqttQos}
    {map : BitVec 8}
    (hrw : Rewrites t t' (levels topic) { tableOf t (levels topic) with pgMap := map })
    (hmap : ∀ j, pgField map j =
      if j = pg then q else pgField (tableOf t (levels topic)).pgMap j) :
    PlugOk s' (E.set pg topic q) t' free' where
  toCoreOk := hok
  enrolled j x := by
    rw [hrw.table, Function.update_apply, Enrolments.set]
    by_cases hx : x = topic
    · rw [if_pos (congrArg levels hx), hmap, h.enrolled, hx]
      by_cases hj : j = pg
      · rw [if_pos hj, if_pos ⟨hj, rfl⟩]
      · rw [if_neg hj, if_neg fun hh => hj hh.1]
    · rw [if_neg fun hl => hx (levels_inj hl), if_neg fun hh => hx hh.2, h.enrolled]
  used j x hne := by
    rw [hin]
    unfold Enrolments.set at hne
    split_ifs at hne with hj
    · rw [hj.1]
      exact hpg
    · exact h.used j x hne

theorem PlugOk.procTopicEnroll (h : PlugOk s E t free) {pg : PluginIdx} {topic : List UInt8}
    {qos : MqttQos} {v : Int} (hpg : s.inUse pg = true)
    (hk : topic.length + 1 ≤ wbufLen → LossMeets (NoneEnrolled E) s.tree (cStr topic))
    (hrun : s.procTopicEnroll pg topic qos = some (v, s')) :
    PlugGood s' (if v = 0 then E.set pg (cStr topic) (some qos) else E) := by
  rcases h.toCoreOk.procTopicEnroll pg topic qos with
      ⟨v, s₁, t', free', he, -, hgo, hedit⟩ | ⟨hlen, hcr, he⟩
  · cases he.symm.trans hrun
    rcases hedit with ⟨hv, hsame⟩ | ⟨hv, hrw⟩
    · rw [if_neg hv]
      exact (h.same hgo.ok (fun q => by rw [hsame.table]) hgo.inUse).good
    · rw [if_pos hv]
      exact (h.set hgo.ok hgo.inUse hpg hrw fun j => pgField_setup _ qos pg j).good
  · cases he.symm.trans hrun
    have hnone := h.noneEnrolled hcr (hk hlen)
    exact (plugOk_lost h.toCoreOk.treeless hnone).good

theorem procTopicCancel_cases {pg : PluginIdx} {topic : List UInt8} {v : Int}
    (hrun : s.procTopicCancel pg topic = some (v, s')) :
    (v ≠ 0 ∧ s' = s) ∨ (v = 0 ∧ topic.length + 1 ≤ wbufLen ∧
      ∃ leaf, leafNodeFind s.tree (cStr topic) = some (some leaf)) := by
  rw [ServerCore.procTopicCancel] at hrun
  split_ifs at hrun with hlen
  · cases hrun
    exact .inl ⟨by decide, rfl⟩
  · split at hrun
    · cases hrun
    · cases hrun
      exact .inl ⟨by decide, rfl⟩
    · rename_i leaf hfind
      obtain ⟨σ, -, heq⟩ := Option.map_eq_some_iff.mp hrun
      obtain ⟨rfl, -⟩ := Prod.mk.inj heq
      exact .inr ⟨rfl, not_lt.mp hlen, leaf, hfind⟩

theorem PlugOk.procTopicCancel (h : PlugOk s E t free) {pg : PluginIdx} {topic : List UInt8} {v : Int}
    (hpg : s.inUse pg = true) (hrun : s.procTopicCancel pg topic = some (v, s')) :
    PlugGood s' (if v = 0 then E.set pg (cStr topic) none else E) := by
  rcases procTopicCancel_cases hrun with ⟨hv, rfl⟩ | ⟨rfl, hlen, leaf, hfind⟩
  · rw [if_neg hv]
    exact h.good
  · obtain ⟨v, s₁, t', free', he, -, hgo, hedit⟩ := h.toCoreOk.procTopicCancel pg topic
    cases he.symm.trans hrun
    rw [if_pos rfl]
    rcases hedit with ⟨-, -, hno⟩ | ⟨-, hrw⟩
    · rw [leafNodeFind_eq h.toHolds] at hfind
      rcases hno with hlong | hnone
      · exact absurd hlong (not_lt.mpr hlen)
      · rw [hnone] at hfind
        cases hfind
    · exact (h.set hgo.ok hgo.inUse hpg hrw fun j => pgField_reset _ pg j).good

end Steps

/-! ## Steps -/

theorem plugStep_good {s s' : ServerCore} {E : Enrolments} {op : CoreOp} {r : CoreReply}
    (h : PlugGood s E) (hk : Spares E s op) (hs : coreStep s op = some (s', r)) :
    PlugGood s' (E.next s r op) := by
  have hidle := @kept_of_idle (PlugGood · E) s s' r h
  have hmap {α : Type} {o : Option α} {f : α → ServerCore × CoreReply} :=
    @kept_of_map (PlugGood · E) α o f s' r
  have hgood := h
  obtain ⟨t, free, h⟩ := h
  cases op with
  | subscribe i topics =>
    rw [coreStep] at hs
    split_ifs at hs with hu
    · exact hmap (fun a ha => procSubMsgRx_preserves
        (fun h hk he => PlugGood.procSubTopic h hk he) topics hgood (hk hu) ha) hs
    · exact hidle hs
  | unSubscribe i topics =>
    rw [coreStep] at hs
    split_ifs at hs with hu
    · exact hmap (fun a ha => procUnSubMsg_preserves
        (fun h he => PlugGood.unSubFound h he) topics hgood ha) hs
    · exact hidle hs
  | publish i topic data msgId qos retain =>
    rw [coreStep] at hs
    split_ifs at hs with hu
    · exact hmap (fun a ha => h.procPubMsgRx (hk hu) ha) hs
    · exact hidle hs
  | ack i msgType msgId =>
    rw [coreStep] at hs
    split_ifs at hs
    · refine hmap (fun a ha => ?_) hs
      have hq := clNotifyAck_queues ha
      exact PlugOk.good ⟨⟨h.toTreeOk, h.stack, h.clients.queues hq⟩, h.enrolled, h.used⟩
    · exact hidle hs
  | connect args =>
    rw [coreStep] at hs
    exact hmap (fun a ha => h.procConnectRx hk ha) hs
  | connack i cleanSession =>
    rw [coreStep] at hs
    split_ifs at hs with ha
    · refine hmap (fun a he => ?_) hs
      obtain ⟨t', free', k, hgo, ht', -⟩ := h.toCoreOk.onConnackSend ha he
      have hsame : SamePlugs t t' := by
        rw [ht']
        split_ifs
        · exact swept_samePlugs _ t
        · exact fun _ => rfl
      exact (h.same hgo.ok hsame hgo.inUse).good
    · exact hidle hs
  | netClose i due2err =>
    rw [coreStep] at hs
    split_ifs at hs with hu
    · exact hmap (fun a ha => h.onClNetClose hk ha) hs
    · exact hidle hs
  | appRegister =>
    cases hs
    refine PlugOk.good ⟨h.toCoreOk.pluginAlloc.1, h.enrolled, fun pg topic hE => ?_⟩
    have hused := h.used pg topic hE
    split
    · exact hused
    · rename_i i _
      dsimp only
      rw [Function.update_apply]
      split_ifs
      · rfl
      · exact hused
  | appPublish topic data qos retain =>
    rw [coreStep] at hs
    exact hmap (fun a ha => h.procPubMsgRx hk ha) hs
  | enroll pg topic qos =>
    rw [coreStep] at hs
    unfold Enrolments.next
    dsimp only
    split_ifs at hs with hpg
    · obtain ⟨⟨v, s₁⟩, ha, hfa⟩ := Option.map_eq_some_iff.mp hs
      obtain ⟨rfl, rfl⟩ := Prod.mk.inj hfa
      have hgood' := h.procTopicEnroll hpg (hk hpg) ha
      simpa only [hpg, true_and] using hgood'
    · rw [if_neg fun hh => hpg hh.1]
      exact hidle hs
  | cancel pg topic =>
    rw [coreStep] at hs
    unfold Enrolments.next
    dsimp only
    split_ifs at hs with hpg
    · obtain ⟨⟨v, s₁⟩, ha, hfa⟩ := Option.map_eq_some_iff.mp hs
      obtain ⟨rfl, rfl⟩ := Prod.mk.inj hfa
      have hgood' := h.procTopicCancel hpg ha
      simpa only [hpg, true_and] using hgood'
    · rw [if_neg fun hh => hpg hh.1]
      exact hidle hs

/-! ## Deliveries -/

theorem flatMap_single {α β : Type} {f : α → List β} {l : List α} (hnd : l.Nodup) {a : α} (ha : a ∈ l)
    (hf : ∀ b ∈ l, b ≠ a → f b = []) : l.flatMap f = f a := by
  obtain ⟨l₁, l₂, rfl⟩ := List.append_of_mem ha
  have hnot := List.nodup_cons.mp (List.nodup_middle.mp hnd)
  rw [List.mem_append, not_or] at hnot
  have hnil : ∀ l' : List α, (∀ b ∈ l', b ∈ l₁ ++ a :: l₂) → a ∉ l' → l'.flatMap f = [] := by
    intro l' hsub ha'
    refine List.flatMap_eq_nil_iff.mpr fun b hb => hf b (hsub b hb) ?_
    rintro rfl
    exact ha' hb
  rw [List.flatMap_append, List.flatMap_cons, hnil l₁ (fun b hb => List.mem_append_left _ hb) hnot.1.1,
    hnil l₂ (fun b hb => List.mem_append_right _ (List.mem_cons_of_mem _ hb)) hnot.1.2,
    List.nil_append, List.append_nil]

theorem pubTopicRead_eq {topic buf : List UInt8} (h : pubTopicRead topic = some buf) :
    buf = topic ∧ topic ≠ [] := by
  unfold pubTopicRead at h
  split_ifs at h with _ _ hnil
  exact ⟨(Option.some.inj h).symm, hnil⟩

theorem procForwardSlash_ne_nil {topic : List UInt8} (h : topic ≠ []) :
    procForwardSlash topic ≠ [] := by
  cases topic with
  | nil => exact absurd rfl h
  | cons c buf =>
    rw [procForwardSlash]
    split_ifs with hlast
    · intro hnil
      have hlen := congrArg List.length hnil
      rw [List.length_dropLast, List.length_cons, List.length_nil] at hlen
      rw [List.length_cons] at hlast
      omega
    · exact List.cons_ne_nil _ _

section Deliveries

variable {s s' : ServerCore} {E : Enrolments} {t : Tree} {free : List NodeIdx}

theorem CoreOk.procPubMsgRx_plugins (h : CoreOk s t free) {sender : Option ClIdx}
    {topic data : List UInt8} {msgId : UInt8} {qos : MqttQos} {retain ok : Bool}
    {plugins : List PluginMsg} (hread : (pubTopicRead topic).isSome)
    (htr : (pubTracked s.cl sender msgId qos).map Prod.fst = some true)
    (hrun : s.procPubMsgRx sender topic data msgId qos retain = some (ok, plugins, s')) :
    topic ≠ [] ∧ plugins = (reachedBy s.tree (procForwardSlash topic)).flatMap
      (handed s.inUse s.tree ⟨topic, data, qos, false⟩) := by
  obtain ⟨buf, hbuf⟩ := Option.isSome_iff_exists.mp hread
  obtain ⟨rfl, hne⟩ := pubTopicRead_eq hbuf
  refine ⟨hne, ?_⟩
  obtain ⟨⟨new, m⟩, hm, hnew⟩ := Option.map_eq_some_iff.mp htr
  dsimp only at hnew
  subst hnew
  unfold ServerCore.procPubMsgRx at hrun
  rw [hbuf] at hrun
  dsimp only at hrun
  rw [hm] at hrun
  dsimp only at hrun
  cases hpub : procSubTreeTopPUB s.inUse (procForwardSlash buf) ⟨buf, data, qos, false⟩ s.tree m
      s.stack with
  | none =>
    rw [hpub] at hrun
    cases hrun
  | some x =>
    obtain ⟨a, is, st⟩ := x
    have hplug := procSubTreeTopPUB_plugins (procForwardSlash_ne_nil hne) h.toHolds h.room hpub
    rw [hpub] at hrun
    dsimp only at hrun
    split_ifs at hrun
    · obtain ⟨y, -, heq⟩ := Option.map_eq_some_iff.mp hrun
      obtain ⟨-, hps⟩ := Prod.mk.inj heq
      rw [← (Prod.mk.inj hps).1, hplug]
    · cases hrun
      exact hplug

theorem PlugOk.leaf_enrolled (h : PlugOk s E t free) {topic : List UInt8} {leaf : NodeIdx}
    (hfind : leafNodeFind s.tree topic = some (some leaf)) (pg : PluginIdx) :
    pgField (s.tree.nodes leaf).val.pgMap pg = E pg topic := by
  rw [← h.enrolledAt, Server.enrolledAt, entryAt, hfind]
  rfl

theorem PlugOk.deliveredRight (h : PlugOk s E t free) {topic data : List UInt8} {qos : MqttQos}
    (hr : Reaches E s topic qos) :
    DeliveredRight E topic data qos ((reachedBy s.tree (procForwardSlash topic)).flatMap
      (handed s.inUse s.tree ⟨topic, data, qos, false⟩)) := by
  intro pg
  rw [List.filter_flatMap]
  -- a leaf with the plug-in is that of the topic
  have hother : ∀ leaf ∈ reachedBy s.tree (procForwardSlash topic),
      (leafNodeFind s.tree topic = some (some leaf) → E pg topic = none) →
      (handed s.inUse s.tree ⟨topic, data, qos, false⟩ leaf).filter (·.plugin = pg) = [] := by
    intro leaf hleaf hnone
    rw [handed, filter_pluginPublish, if_neg]
    rintro ⟨hsome, -⟩
    have hfind := hr.alone leaf hleaf pg hsome
    rw [h.leaf_enrolled hfind pg, hnone hfind] at hsome
    cases hsome
  cases hE : E pg topic with
  | none => exact List.flatMap_eq_nil_iff.mpr fun leaf hleaf => hother leaf hleaf fun _ => hE
  | some q =>
    have hnormal := hr.normal pg q hE
    rw [hnormal] at hother ⊢
    obtain ⟨leaf, hfind⟩ : ∃ leaf, leafNodeFind s.tree topic = some (some leaf) := by
      have hentry := h.enrolledAt pg topic
      rw [hE, Server.enrolledAt, entryAt] at hentry
      split at hentry
      · rename_i leaf hfind
        exact ⟨leaf, hfind⟩
      · rw [show TopicEntry.blank.pgMap = pgMapAllDflts from rfl, pgField_dflts] at hentry
        cases hentry
    have hmem : leaf ∈ reachedBy s.tree topic := by
      rw [leafNodeFind_eq h.toHolds] at hfind
      obtain ⟨p, hp, rfl⟩ := Option.map_eq_some_iff.mp (Option.some.inj hfind)
      rw [reachedBy_eq h.toHolds]
      exact mem_reached h.leveled h.neat hp
    have hnd : (reachedBy s.tree topic).Nodup := by
      rw [reachedBy_eq h.toHolds]
      exact reached_nodup h.nodup.of_append_left topic
    rw [flatMap_single hnd hmem fun leaf' hleaf' hne => hother leaf' hleaf' fun hfind' => ?_]
    · rw [handed, filter_pluginPublish, if_pos]
      · dsimp only
        rw [hr.lesser pg q hE]
      · refine ⟨?_, h.used pg topic (by rw [hE]; exact Option.some_ne_none q)⟩
        rw [h.leaf_enrolled hfind pg, hE]
        rfl
    · exact absurd (Option.some.inj (Option.some.inj (hfind'.symm.trans hfind))) hne

theorem PlugOk.step_delivers (h : PlugOk s E t free) {op : CoreOp} {r : CoreReply}
    (hs : coreStep s op = some (s', r)) {topic data : List UInt8} {qos : MqttQos}
    (hd : dispatched s op = some (topic, data, qos)) (hr : Reaches E s topic qos) :
    DeliveredRight E topic data qos r.plugins := by
  cases op with
  | publish i topic' data' msgId qos' retain =>
    rw [dispatched] at hd
    split_ifs at hd with hgo
    cases hd
    obtain ⟨hu, hread, htr⟩ := hgo
    rw [coreStep, if_pos hu] at hs
    obtain ⟨⟨ok, plugins, s₁⟩, he, heq⟩ := Option.map_eq_some_iff.mp hs
    obtain ⟨-, hplug⟩ := h.toCoreOk.procPubMsgRx_plugins hread htr he
    obtain ⟨-, rfl⟩ := Prod.mk.inj heq
    dsimp only
    rw [hplug]
    exact h.deliveredRight hr
  | appPublish topic' data' qos' retain =>
    rw [dispatched] at hd
    split_ifs at hd with hgo
    cases hd
    obtain ⟨hread, htr⟩ := hgo
    rw [coreStep] at hs
    obtain ⟨⟨ok, plugins, s₁⟩, he, heq⟩ := Option.map_eq_some_iff.mp hs
    obtain ⟨-, hplug⟩ := h.toCoreOk.procPubMsgRx_plugins hread htr he
    obtain ⟨-, rfl⟩ := Prod.mk.inj heq
    dsimp only
    rw [hplug]
    exact h.deliveredRight hr
  | _ => cases hd

end Deliveries

/-! ## Runs -/

/-- In every state that steps within the law lead to, the tree has the enrolments that the plug-ins have
made, and the next PUBLISH within the law is delivered right. -/
theorem plugin_delivery {sendOk mallocOk : Nat → Bool} {ops : List CoreOp} {s : ServerCore}
    {E : Enrolments} {rs : List CoreReply}
    (hk : Meets plugStep LawKept (serverCoreInit sendOk mallocOk, noEnrolments) ops)
    (hrun : runs plugStep (serverCoreInit sendOk mallocOk, noEnrolments) ops = some ((s, E), rs)) :
    (∀ pg topic, enrolledAt s.tree pg topic = E pg topic) ∧
      ∀ op s' r topic data qos, LawKept (s, E) op → coreStep s op = some (s', r) →
        dispatched s op = some (topic, data, qos) → DeliveredRight E topic data qos r.plugins := by
  have hstep : ∀ {p p' : ServerCore × Enrolments} {op : CoreOp} {r : CoreReply}, PlugGood p.1 p.2 →
      LawKept p op → plugStep p op = some (p', r) → PlugGood p'.1 p'.2 := by
    intro p p' op r h hlaw hs
    obtain ⟨x, hx, heq⟩ := Option.map_eq_some_iff.mp hs
    obtain ⟨rfl, rfl⟩ := Prod.mk.inj heq
    exact plugStep_good h hlaw.1 hx
  have hinit : PlugGood (serverCoreInit sendOk mallocOk) noEnrolments :=
    (plugOk_init sendOk mallocOk).good
  obtain ⟨t, free, h⟩ : PlugGood s E := hk.preserves hstep hinit hrun
  refine ⟨h.enrolledAt, fun op s' r topic data qos hlaw hs hd => ?_⟩
  exact h.step_delivers hs hd (hlaw.2 topic data qos hd)

/-- A plug-in is enrolled on `a` with QoS 2 and gets a message of QoS 1. -/
theorem plugin_delivery_lower : ∃ s E rs s' r,
    runs plugStep (serverCoreInit allOk allOk, noEnrolments)
      [.appRegister, .enroll 0 [0x61] .qos2] = some ((s, E), rs) ∧
    coreStep s (.appPublish [0x61] [0x62] .qos1 false) = some (s', r) ∧
    r.plugins = [⟨0, [0x61], [0x62], false, .qos1, false⟩] ∧
    (∀ pg topic, enrolledAt s.tree pg topic = E pg topic) ∧
    DeliveredRight E [0x61] [0x62] .qos1 r.plugins := by
  have heval : ((runs plugStep (serverCoreInit allOk allOk, noEnrolments)
      [.appRegister, .enroll 0 [0x61] .qos2]).bind fun x =>
        (coreStep x.1.1 (.appPublish [0x61] [0x62] .qos1 false)).map fun y =>
          (y.2.plugins, reachedBy x.1.1.tree [0x61], leafNodeFind x.1.1.tree [0x61],
            (List.finRange maxPlugins).map fun pg => x.1.2 pg [0x61])) =
      some ([⟨0, [0x61], [0x62], false, .qos1, false⟩], [31], some (some 31),
        [some .qos2, none, none, none]) := by
    decide +kernel
  obtain ⟨⟨⟨s, E⟩, rs⟩, hrun, hpub⟩ := Option.bind_eq_some_iff.mp heval
  obtain ⟨⟨s', r⟩, hs, hvals⟩ := Option.map_eq_some_iff.mp hpub
  simp only [Prod.mk.injEq] at hvals
  obtain ⟨hplugs, hreached, hfind, henrolled⟩ := hvals
  have hk : Meets plugStep LawKept (serverCoreInit allOk allOk, noEnrolments)
      [.appRegister, .enroll 0 [0x61] .qos2] := by
    refine Meets.cons ⟨trivial, fun _ _ _ h => by cases h⟩ rfl ⟨⟨?_, fun _ _ _ h => by cases h⟩, ?_⟩
    · exact fun _ _ _ _ _ => rfl
    · split <;> trivial
  have hlaw : LawKept (s, E) (.appPublish [0x61] [0x62] .qos1 false) := by
    refine ⟨fun _ _ _ hretain => (by cases hretain), fun topic data qos hd => ?_⟩
    have hd' : dispatched s (.appPublish [0x61] [0x62] .qos1 false) =
        some ([0x61], [0x62], .qos1) := rfl
    cases hd'.symm.trans hd
    refine ⟨fun leaf hleaf pg _ => ?_, fun _ _ _ => by decide, fun pg q hq => ?_⟩
    · have hslash : procForwardSlash [0x61] = [0x61] := by decide
      dsimp only at hleaf ⊢
      rw [hslash, hreached, List.mem_singleton] at hleaf
      rw [hfind, hleaf]
    · have hmem := List.mem_map_of_mem (f := fun pg => E pg [0x61]) (List.mem_finRange pg)
      dsimp only at hq
      rw [henrolled, hq] at hmem
      simp only [List.mem_cons, Option.some.injEq, reduceCtorEq, List.not_mem_nil, or_false] at hmem
      rw [hmem]
      decide
  obtain ⟨hsame, hnext⟩ := plugin_delivery hk hrun
  exact ⟨s, E, rs, s', r, hrun, hs, hplugs, hsame, hnext _ s' r _ _ _ hlaw hs rfl⟩

/-- A plug-in is enrolled on `a` with QoS 0 and gets a message of QoS 1 as it is. -/
theorem plugin_delivery_not_lowered : ¬ ∀ (ops : List CoreOp) (s : ServerCore) (E : Enrolments)
    (rs : List CoreReply),
    runs plugStep (serverCoreInit allOk allOk, noEnrolments) ops = some ((s, E), rs) →
      ∀ op s' r topic data qos, coreStep s op = some (s', r) →
        dispatched s op = some (topic, data, qos) → DeliveredRight E topic data qos r.plugins := by
  intro h
  have heval : ((runs plugStep (serverCoreInit allOk allOk, noEnrolments)
      [.appRegister, .enroll 0 [0x61] .qos0]).bind fun x =>
        (coreStep x.1.1 (.appPublish [0x61] [0x62] .qos1 false)).map fun y =>
          (y.2.plugins, x.1.2 0 [0x61])) =
      some ([⟨0, [0x61], [0x62], false, .qos1, false⟩], some .qos0) := by
    decide +kernel
  obtain ⟨⟨⟨s, E⟩, rs⟩, hrun, hpub⟩ := Option.bind_eq_some_iff.mp heval
  obtain ⟨⟨s', r⟩, hs, hvals⟩ := Option.map_eq_some_iff.mp hpub
  obtain ⟨hplugs, hE⟩ := Prod.mk.inj hvals
  have hright := h _ s E rs hrun _ s' r [0x61] [0x62] .qos1 hs rfl 0
  dsimp only at hplugs hE
  rw [hplugs, hE] at hright
  exact absurd hright (by decide)

end SimpleLink.Server
