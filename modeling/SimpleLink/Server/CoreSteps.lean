import SimpleLink.Server.CoreInv

/-!
# The steps of the server (`server_core.c`)

What a PUBLISH, the start and the end of a connection, and the calls of a plug-in
do to the table and to the clients. All of them keep the server in order: after
any run of them the tree is represented, and the stack is empty.
-/

namespace SimpleLink.Server

open Lib LinkTree

section Steps

variable {s : ServerCore} {t : Tree} {free : List NodeIdx}

def ServerCore.treeless (s : ServerCore) : ServerCore :=
  { s with tree := { s.tree with rootNode := none } }

theorem CoreOk.treeless (h : CoreOk s t free) : CoreOk s.treeless .nil free :=
  h.setTree h.toTreeOk.lost

/-- A step changes the tree from `t` to `t'`, and loses none of it. -/
structure Goes (s s' : ServerCore) (t t' : Tree) (free free' : List NodeIdx) : Prop where
  ok : CoreOk s' t' free'
  moves : Moves s.tree s'.tree t t' free free'
  inUse : s'.inUse = s.inUse

/-! ## PUBLISH -/

theorem CoreOk.procPubMsgRx (h : CoreOk s t free) {usr : Option ClIdx} {topic data : List UInt8}
    {msgId : UInt8} {qos : MqttQos} {retain : Bool} {ok : Bool} {plugins : List PluginMsg}
    {s' : ServerCore}
    (hrun : s.procPubMsgRx usr topic data msgId qos retain = some (ok, plugins, s')) :
    (∃ t' free', Goes s s' t t' free free' ∧ OnlyData t t' ∧ QueuesOnly s.cl s'.cl) ∨
    (∃ buf m, pubTopicRead topic = some buf ∧ retain = true ∧
      pubTracked s.cl usr msgId qos = some (true, m) ∧
      topicNodeCreate s.tree (procForwardSlash buf) =
        some (none, { s.tree with rootNode := none }) ∧ CoreOk s' .nil free ∧
      QueuesOnly s.cl s'.cl ∧ s'.tree = { s.tree with rootNode := none } ∧ s'.inUse = s.inUse) := by
  unfold ServerCore.procPubMsgRx at hrun
  cases hread : pubTopicRead topic with
  | none =>
    rw [hread] at hrun
    cases hrun
    exact .inl ⟨t, free, ⟨h, .refl .., rfl⟩, (SameTable.refl t).onlyData, .of_users rfl⟩
  | some buf =>
    rw [hread] at hrun
    dsimp only at hrun
    cases htr : pubTracked s.cl usr msgId qos with
    | none =>
      rw [htr] at hrun
      cases hrun
    | some x =>
      obtain ⟨new, m⟩ := x
      rw [htr] at hrun
      have hqueues := pubTracked_queues htr
      have hm : CoreOk { s with cl := m } t free := ⟨h.toTreeOk, h.stack, h.clients.queues hqueues⟩
      cases new with
      | false =>
        cases hrun
        exact .inl ⟨t, free, ⟨hm, .refl .., rfl⟩, (SameTable.refl t).onlyData, hqueues⟩
      | true =>
        dsimp only at hrun
        obtain ⟨a, ha, happ⟩ := @procSubTreeTopPUB_total s.inUse s.tree ⟨topic, data, qos, false⟩
          (procForwardSlash buf) t free h.toHolds s.stack h.room m hm.ctx
        have hsent : CoreOk { s with cl := a.cl } t free := hm.sent happ
        have hqueues' : QueuesOnly s.cl a.cl := hqueues.trans (.of_users happ.users)
        rw [ha] at hrun
        dsimp only at hrun
        cases retain with
        | false =>
          cases hrun
          exact .inl ⟨t, free, ⟨hsent, .refl .., rfl⟩, (SameTable.refl t).onlyData, hqueues'⟩
        | true =>
          rw [if_pos rfl] at hrun
          rcases hsent.retainData (procForwardSlash buf) (payBuf usr data) qos with
              ⟨ok', s₁, t₁, free₁, he, hs₁, husers, h₁, hm₁, hdata⟩ | ⟨hcr, he, hlost⟩
          · have he' : ServerCore.retainData { s with cl := a.cl, stack := s.stack }
                (procForwardSlash buf) (payBuf usr data) qos =
                  some (ok', s₁) := he
            rw [he'] at hrun
            cases hrun
            exact .inl ⟨t₁, free₁, ⟨h₁, hm₁, by rw [hs₁]⟩, hdata, hqueues'.trans (.of_users husers)⟩
          · have he' : ServerCore.retainData { s with cl := a.cl, stack := s.stack }
                (procForwardSlash buf) (payBuf usr data) qos =
                  some (false, { s with cl := a.cl, tree := { s.tree with rootNode := none } }) := he
            rw [he'] at hrun
            cases hrun
            exact .inr ⟨buf, m, rfl, rfl, rfl, hcr, hlost, hqueues', rfl, rfl⟩

/-! ## Connections -/

/-- The end of `proc_connect_rx`: nothing but the will of the leaf and the client change. -/
theorem CoreOk.connectClient (h : CoreOk s t free) {args : ConnectArgs} {leaf : Option NodeIdx}
    (hleaf : ∀ i, leaf = some i → ∃ q c, look NodeData.subtop t q = some (i, c))
    {r : Option ClIdx} {s' : ServerCore} (hrun : s.connectClient args leaf = some (r, s')) :
    ∃ t' free', Goes s s' t t' free free' ∧ OnlyData t t' ∧
      (s'.cl = s.cl ∨ ∃ i present, clConnectRx s.cl args.ctx args.cleanSession
        ((args.clientId.filter (· ≠ [])).map cStr) (leaf.map Fin.val) = some (i, present, s'.cl)) := by
  unfold ServerCore.connectClient at hrun
  dsimp only at hrun
  cases hcl : clConnectRx s.cl args.ctx args.cleanSession
      ((args.clientId.filter (· ≠ [])).map cStr) (leaf.map Fin.val) with
  | none =>
    cases leaf with
    | none =>
      rw [hcl] at hrun
      cases hrun
      exact ⟨t, free, ⟨h, .refl .., rfl⟩, (SameTable.refl t).onlyData, .inl rfl⟩
    | some leaf =>
      rw [hcl] at hrun
      obtain ⟨q, c, hl⟩ := hleaf leaf rfl
      have hval := h.look_val hl
      dsimp only at hrun
      rw [hval] at hrun
      have hone : c.OneQos := h.look_oneQos hl
      have hsub : (nodeDataReset c).subtop = c.subtop := rfl
      have hone' : (nodeDataReset c).OneQos := hone
      obtain ⟨σ', t', free', hdel, hσ', hm', hrw⟩ := h.toTreeOk.setTry hl hsub hone'
      rw [hdel] at hrun
      cases hrun
      exact ⟨t', free', ⟨h.setTree hσ', hm', rfl⟩, onlyData_of_entry hl hrw rfl rfl, .inl rfl⟩
  | some x =>
    obtain ⟨i, present, m⟩ := x
    obtain ⟨u, hm, -, hctx⟩ := clConnectRx_spec hcl
    have hclients : Attached m := by
      rw [hm]
      exact h.clients.setUser fun _ => by rw [hctx]; nofun
    have hok : CoreOk { s with cl := m } t free := ⟨h.toTreeOk, h.stack, hclients⟩
    cases leaf with
    | none =>
      rw [hcl] at hrun
      cases hrun
      exact ⟨t, free, ⟨hok, .refl .., rfl⟩, (SameTable.refl t).onlyData, .inr ⟨i, present, rfl⟩⟩
    | some leaf =>
      rw [hcl] at hrun
      obtain ⟨q, c, hl⟩ := hleaf leaf rfl
      have hval := h.look_val hl
      dsimp only at hrun
      rw [hval] at hrun
      cases hrun
      have hone : c.OneQos := h.look_oneQos hl
      have hsub : ({ c with willCl := some i } : NodeData).subtop = c.subtop := rfl
      have hone' : ({ c with willCl := some i } : NodeData).OneQos := hone
      obtain ⟨t', hσ', hm', hrw, -⟩ := h.toTreeOk.setVal hl hsub hone'
      exact ⟨t', free, ⟨hok.setTree hσ', hm', rfl⟩, onlyData_of_entry hl hrw rfl rfl,
        .inr ⟨i, present, rfl⟩⟩

theorem CoreOk.procConnectRx (h : CoreOk s t free) {args : ConnectArgs} {r : Option ClIdx}
    {s' : ServerCore} (hrun : s.procConnectRx args = some (r, s')) :
    (∃ t' free', Goes s s' t t' free free' ∧ OnlyData t t' ∧
      (s'.cl.users = s.cl.users ∨ ∃ m will i present, m.users = s.cl.users ∧
        clConnectRx m args.ctx args.cleanSession ((args.clientId.filter (· ≠ [])).map cStr) will =
          some (i, present, s'.cl))) ∨
    (∃ will, args.admitted = true ∧ args.will.filter (·.topic ≠ []) = some will ∧
      topicNodeCreate s.tree (cStr will.topic) = some (none, { s.tree with rootNode := none }) ∧
      s' = s.treeless) := by
  unfold ServerCore.procConnectRx at hrun
  split_ifs at hrun with hadmitted
  · cases hw : args.will.filter (·.topic ≠ []) with
    | none =>
      rw [hw] at hrun
      obtain ⟨t', free', hgo, hdata, hcl⟩ := h.connectClient (fun i hi => by cases hi) hrun
      refine .inl ⟨t', free', hgo, hdata, hcl.imp (congrArg _) fun ⟨i, present, hcl⟩ => ?_⟩
      exact ⟨s.cl, _, i, present, rfl, hcl⟩
    | some will =>
      rw [hw] at hrun
      dsimp only at hrun
      rcases h.willCreate will with
          ⟨leaf, s₁, t₁, free₁, he, hs₁, husers, h₁, hm₁, hdata₁, hleaf⟩ | ⟨hcr, he, hlost⟩
      · rw [he] at hrun
        have hin : s₁.inUse = s.inUse := by rw [hs₁]
        cases leaf with
        | none =>
          cases hrun
          exact .inl ⟨t₁, free₁, ⟨h₁, hm₁, hin⟩, hdata₁, .inl husers⟩
        | some leaf =>
          dsimp only at hrun
          obtain ⟨t', free', hgo, hdata, hcl⟩ := h₁.connectClient (fun i hi => by
            obtain ⟨c, hl⟩ := hleaf i hi
            exact ⟨_, c, hl⟩) hrun
          refine .inl ⟨t', free', ⟨hgo.ok, hm₁.trans hgo.moves, hgo.inUse.trans hin⟩,
            hdata₁.trans hdata, ?_⟩
          rcases hcl with hcl | ⟨i, present, hcl⟩
          · exact .inl (by rw [hcl, husers])
          · exact .inr ⟨s₁.cl, _, i, present, husers, hcl⟩
      · rw [he] at hrun
        cases hrun
        exact .inr ⟨will, hadmitted, rfl, hcr, rfl⟩
  · cases hrun
    exact .inl ⟨t, free, ⟨h, .refl .., rfl⟩, (SameTable.refl t).onlyData, .inl rfl⟩

/-- The subscriptions of a client end, those in the tree and those counted. -/
theorem CoreOk.sessionTreeDelete (h : CoreOk s t free) (usr : ClIdx) :
    ∃ s' free', s.sessionTreeDelete usr = some s' ∧
      s' = { s with
        tree := s'.tree
        cl := uncount usr (total (subbed (clBmapGet s.cl usr)) t) s.cl } ∧
      Goes s s' t (swept (clBmapGet s.cl usr) t) free free' := by
  obtain ⟨σ', free', is, hrun, hσ', hm, -⟩ := h.toTreeOk.sessionTreeDelete usr s.cl h.room
  rw [ServerCore.sessionTreeDelete, hrun]
  exact ⟨_, free', rfl, rfl, ⟨hσ', h.stack, h.clients.uncount usr _⟩, hm, rfl⟩

theorem clOnConnackSend_users {m m' : ClMgmt} {i : ClIdx} {cleanSession : Bool} (hm : Attached m)
    (ha : (m.users i).assigned = true) (hrun : clOnConnackSend m i cleanSession = some m') :
    Attached m' ∧ QueuesOnly (m.setUser i
      { m.users i with assigned := false, cleanSession := cleanSession, connected := true }) m' := by
  have hset : Attached (m.setUser i
      { m.users i with assigned := false, cleanSession := cleanSession, connected := true }) :=
    hm.setUser fun _ => hm.assigned i ha
  unfold clOnConnackSend at hrun
  dsimp only at hrun
  rw [if_pos ha] at hrun
  cases cleanSession with
  | true =>
    cases hrun
    have hdel : QueuesOnly (m.setUser i
        { m.users i with assigned := false, cleanSession := true, connected := true })
        (sessionDelete (m.setUser i
          { m.users i with assigned := false, cleanSession := true, connected := true }) i) :=
      queuesOnly_set _ i Mqtt.qos2PubCqReset Mqtt.qos2PubCqReset
    exact ⟨hset.queues hdel, hdel⟩
  | false =>
    have husers := sessionResume_users hset.connected hrun
    exact ⟨hset.of_users husers, .of_users husers⟩

theorem CoreOk.onConnackSend (h : CoreOk s t free) {usr : ClIdx} {cleanSession : Bool}
    (ha : (s.cl.users usr).assigned = true) {s' : ServerCore}
    (hrun : s.onConnackSend usr cleanSession = some s') :
    ∃ t' free' k, Goes s s' t t' free free' ∧
      t' = (if cleanSession then swept (clBmapGet s.cl usr) t else t) ∧
      k = (if cleanSession then total (subbed (clBmapGet s.cl usr)) t else 0) ∧
      QueuesOnly ((uncount usr k s.cl).setUser usr
        { (uncount usr k s.cl).users usr with
          assigned := false, cleanSession := cleanSession, connected := true }) s'.cl := by
  have hassigned : ∀ k m, (m.users usr).assigned = true →
      ((uncount usr k m).users usr).assigned = true := by
    intro k
    induction k with
    | zero => exact fun m hm => hm
    | succ k ih =>
      intro m hm
      refine ih _ ?_
      unfold clSubCountDel
      dsimp only
      split_ifs
      · rw [setUser_users_self]
        exact hm
      · exact hm
  unfold ServerCore.onConnackSend at hrun
  cases cleanSession with
  | true =>
    obtain ⟨s₁, free₁, he, hs₁, hgo⟩ := h.sessionTreeDelete usr
    rw [if_pos rfl, he] at hrun
    obtain ⟨m, hm, rfl⟩ := Option.map_eq_some_iff.mp hrun
    have ha₁ : (s₁.cl.users usr).assigned = true := by
      rw [hs₁]
      exact hassigned _ _ ha
    obtain ⟨hclients, hqueues⟩ := clOnConnackSend_users hgo.ok.clients ha₁ hm
    refine ⟨_, free₁, _, ⟨⟨hgo.ok.toTreeOk, hgo.ok.stack, hclients⟩, hgo.moves, hgo.inUse⟩, rfl, rfl, ?_⟩
    rw [hs₁] at hqueues
    exact hqueues
  | false =>
    rw [if_neg Bool.false_ne_true] at hrun
    obtain ⟨m, hm, rfl⟩ := Option.map_eq_some_iff.mp hrun
    obtain ⟨hclients, hqueues⟩ := clOnConnackSend_users h.clients ha hm
    exact ⟨t, free, 0, ⟨⟨h.toTreeOk, h.stack, hclients⟩, .refl .., rfl⟩, rfl, rfl, hqueues⟩

theorem CoreOk.procClientWill (h : CoreOk s t free) {leaf : NodeIdx} {plugins : List PluginMsg}
    {s' : ServerCore} (hrun : s.procClientWill leaf = some (plugins, s')) :
    ∃ m, Appends s.cl m ∧ s' = { s with cl := m } := by
  unfold ServerCore.procClientWill at hrun
  split at hrun
  · cases hrun
  · cases hrun
    exact ⟨s.cl, .refl _, rfl⟩
  · rename_i topic _
    dsimp only at hrun
    obtain ⟨a, ha, happ⟩ := @procSubTreeTopPUB_total s.inUse s.tree
      ⟨topic, (s.tree.nodes leaf).val.myData.getD [], .ofVal (s.tree.nodes leaf).val.qid.toNat,
        (s.tree.nodes leaf).val.retain⟩ topic t free h.toHolds s.stack h.room s.cl h.ctx
    rw [ha] at hrun
    cases hrun
    exact ⟨a.cl, happ, rfl⟩

theorem clOnNetClose_attached {m : ClMgmt} (hm : Attached m) (i : ClIdx) :
    Attached (clOnNetClose m i) := by
  unfold clOnNetClose
  dsimp only
  split_ifs with ha hd hc
  · exact hm
  · exact hm.setUser fun h => by simp [clUsrReset] at h
  · have hdel : Attached (sessionDelete m i) :=
      hm.queues (queuesOnly_set m i Mqtt.qos2PubCqReset Mqtt.qos2PubCqReset)
    exact hdel.setUser fun h => by simp [clUsrReset] at h
  · refine hm.setUser fun h => ?_
    rcases h with h | h
    · cases h
    · exact absurd h ha

theorem CoreOk.sessionClose (h : CoreOk s t free) (usr : ClIdx) :
    ∃ s' t' free' k, s.sessionClose usr = some s' ∧ Goes s s' t t' free free' ∧
      t' = (if clCanSessionDelete s.cl usr then swept (clBmapGet s.cl usr) t else t) ∧
      k = (if clCanSessionDelete s.cl usr then total (subbed (clBmapGet s.cl usr)) t else 0) ∧
      s'.cl = clOnNetClose (uncount usr k s.cl) usr := by
  unfold ServerCore.sessionClose
  by_cases hdel : clCanSessionDelete s.cl usr = true
  · obtain ⟨s₁, free₁, he, hs₁, hgo⟩ := h.sessionTreeDelete usr
    simp only [if_pos hdel, he]
    refine ⟨_, _, free₁, _, rfl, ⟨⟨hgo.ok.toTreeOk, hgo.ok.stack, ?_⟩, hgo.moves, hgo.inUse⟩, rfl, rfl, ?_⟩
    · exact clOnNetClose_attached hgo.ok.clients usr
    · rw [hs₁]
  · simp only [if_neg hdel]
    exact ⟨_, t, free, 0, rfl, ⟨⟨h.toTreeOk, h.stack, clOnNetClose_attached h.clients usr⟩,
      .refl .., rfl⟩, rfl, rfl, rfl⟩

/-- The end of a connection: the will of another client is in the node, there is no will, or the will
is published and taken off. -/
theorem CoreOk.onClNetClose_split (h : CoreOk s t free) {usr : ClIdx} {due2err : Bool}
    {plugins : List PluginMsg} {s' : ServerCore}
    (hrun : s.onClNetClose usr due2err = some (plugins, s')) :
    s' = s ∨ s.sessionClose usr = some s' ∨
    ∃ leaf m σ, (s.cl.users usr).will = some leaf.val ∧
      (s.tree.nodes leaf).val.willCl = some usr ∧ Appends s.cl m ∧
      tryNodeDelete (s.tree.setVal leaf
        { nodeDataReset (s.tree.nodes leaf).val with willCl := none }) leaf = some σ ∧
      { s with tree := σ, cl := m }.sessionClose usr = some s' := by
  have hclose : ∀ {s₁ : ServerCore} {ps : List PluginMsg},
      (s₁.sessionClose usr).map (ps, ·) = some (plugins, s') → s₁.sessionClose usr = some s' := by
    intro s₁ ps hrun
    obtain ⟨s₂, he, heq⟩ := Option.map_eq_some_iff.mp hrun
    rw [he, (Prod.mk.inj heq).2]
  rw [ServerCore.onClNetClose] at hrun
  cases hw : (s.cl.users usr).will with
  | none =>
    rw [hw] at hrun
    exact .inr (.inl (hclose hrun))
  | some w =>
    rw [hw] at hrun
    dsimp only at hrun
    by_cases hlt : w < maxTopNodes
    · rw [dif_pos hlt] at hrun
      obtain ⟨leaf, hleaf⟩ : ∃ leaf : NodeIdx, leaf = ⟨w, hlt⟩ := ⟨_, rfl⟩
      rw [← hleaf] at hrun
      by_cases hcl : (s.tree.nodes leaf).val.willCl ≠ some usr
      · rw [if_pos hcl] at hrun
        cases hrun
        exact .inl rfl
      · rw [if_neg hcl] at hrun
        have hwill : ∀ ps s₁, (if due2err then s.procClientWill leaf else some ([], s)) =
            some (ps, s₁) → ∃ m, Appends s.cl m ∧ s₁ = { s with cl := m } := by
          intro ps s₁ he
          split_ifs at he
          · exact h.procClientWill he
          · cases he
            exact ⟨s.cl, .refl _, rfl⟩
        generalize (if due2err then s.procClientWill leaf else some ([], s)) = o at hrun hwill
        cases o with
        | none => cases hrun
        | some x =>
          obtain ⟨ps, s₁⟩ := x
          obtain ⟨m, happ, rfl⟩ := hwill ps s₁ rfl
          dsimp only at hrun
          split at hrun
          · cases hrun
          · rename_i σ hdel
            exact .inr (.inr ⟨leaf, m, σ, by rw [hleaf], not_not.mp hcl, happ, hdel, hclose hrun⟩)
    · rw [dif_neg hlt] at hrun
      cases hrun

theorem CoreGood.onClNetClose (h : CoreGood s) {usr : ClIdx} {due2err : Bool}
    {plugins : List PluginMsg} {s' : ServerCore}
    (hrun : s.onClNetClose usr due2err = some (plugins, s')) : CoreGood s' := by
  have hclose : ∀ {s₁ : ServerCore}, CoreGood s₁ → s₁.sessionClose usr = some s' → CoreGood s' := by
    rintro s₁ ⟨t, free, h⟩ hrun
    obtain ⟨s₂, t', free', k, he, hgo, -⟩ := h.sessionClose usr
    cases he.symm.trans hrun
    exact hgo.ok.good
  obtain ⟨t, free, h⟩ := h
  rcases h.onClNetClose_split hrun with rfl | he | ⟨leaf, m, σ, -, hcl, happ, hdel, he⟩
  · exact h.good
  · exact hclose h.good he
  · have hsub : ({ nodeDataReset (s.tree.nodes leaf).val with willCl := none } : NodeData).subtop =
        (s.tree.nodes leaf).val.subtop := rfl
    obtain ⟨t', free', hσ, -⟩ :=
      h.toTreeOk.setTryAny (h.will_mem hcl) hsub (fun hone => hone) hdel
    exact hclose ((h.sent happ).setTree hσ).good he

/-! ## Plug-ins -/

/-- The enrolment of a plug-in, at a node that has been found or made. -/
theorem CoreOk.procTopicEnroll (h : CoreOk s t free) (pgId : PluginIdx) (topic : List UInt8)
    (qos : MqttQos) :
    (∃ v s' t' free', s.procTopicEnroll pgId topic qos = some (v, s') ∧
      s' = { s with tree := s'.tree } ∧ Goes s s' t t' free free' ∧
      ((v ≠ 0 ∧ SameTable t t') ∨ (v = 0 ∧ Rewrites t t' (levels (cStr topic))
        { tableOf t (levels (cStr topic)) with
          pgMap := pgMapValSetup (tableOf t (levels (cStr topic))).pgMap qos pgId }))) ∨
    (topic.length + 1 ≤ wbufLen ∧
      topicNodeCreate s.tree (cStr topic) = some (none, { s.tree with rootNode := none }) ∧
      s.procTopicEnroll pgId topic qos = some (-3, s.treeless)) := by
  unfold ServerCore.procTopicEnroll
  by_cases hnil : topic = []
  · rw [if_pos hnil]
    exact .inl ⟨-1, s, t, free, rfl, rfl, ⟨h, .refl .., rfl⟩, .inl ⟨by decide, .refl t⟩⟩
  · rw [if_neg hnil]
    by_cases hlen : wbufLen < topic.length + 1
    · rw [if_pos hlen]
      exact .inl ⟨-2, s, t, free, rfl, rfl, ⟨h, .refl .., rfl⟩, .inl ⟨by decide, .refl t⟩⟩
    · rw [if_neg hlen]
      rcases h.createUpdate (cStr topic) with
          ⟨leaf, c, σ₁, t₁, free₁, hrun, hσ₁, hm₁, hsame, hl, hval, hone⟩ | ⟨hrun, -⟩ |
          ⟨hrun, hlost⟩
      · rw [hrun]
        dsimp only
        rw [hval]
        have hsub : ({ c with pgMap := pgMapValSetup c.pgMap qos pgId } : NodeData).subtop =
            c.subtop := rfl
        have hone' : ({ c with pgMap := pgMapValSetup c.pgMap qos pgId } : NodeData).OneQos := hone
        obtain ⟨t', hσ', hm', hrw, -⟩ := hσ₁.setVal hl hsub hone'
        have hentry : tableOf t (levels (cStr topic)) = c.entry := by
          rw [← hsame.table, table_look hl]
        rw [hentry]
        exact .inl ⟨0, _, t', free₁, rfl, rfl, ⟨h.setTree hσ', hm₁.trans hm', rfl⟩,
          .inr ⟨rfl, hsame.rewrites hrw⟩⟩
      · rw [hrun]
        exact .inl ⟨-3, s, t, free, rfl, rfl, ⟨h, .refl .., rfl⟩, .inl ⟨by decide, .refl t⟩⟩
      · rw [hrun]
        exact .inr ⟨not_lt.mp hlen, rfl, rfl⟩

theorem CoreOk.procTopicCancel (h : CoreOk s t free) (pgId : PluginIdx) (topic : List UInt8) :
    ∃ v s' t' free', s.procTopicCancel pgId topic = some (v, s') ∧
      s' = { s with tree := s'.tree } ∧ Goes s s' t t' free free' ∧
      ((s' = s ∧ t' = t ∧
        (wbufLen < topic.length + 1 ∨ look NodeData.subtop t (levels (cStr topic)) = none)) ∨
      (wbufLen ≥ topic.length + 1 ∧ Rewrites t t' (levels (cStr topic))
        { tableOf t (levels (cStr topic)) with
          pgMap := pgMapValReset (tableOf t (levels (cStr topic))).pgMap pgId })) := by
  unfold ServerCore.procTopicCancel
  by_cases hlen : wbufLen < topic.length + 1
  · rw [if_pos hlen]
    exact ⟨-2, s, t, free, rfl, rfl, ⟨h, .refl .., rfl⟩, .inl ⟨rfl, rfl, .inl hlen⟩⟩
  · rw [if_neg hlen, leafNodeFind_eq h.toHolds]
    cases hl : look NodeData.subtop t (levels (cStr topic)) with
    | none => exact ⟨-2, s, t, free, rfl, rfl, ⟨h, .refl .., rfl⟩, .inl ⟨rfl, rfl, .inr rfl⟩⟩
    | some p =>
      obtain ⟨leaf, c⟩ := p
      have hval := h.look_val hl
      rw [Option.map_some]
      dsimp only
      rw [hval]
      have hone : c.OneQos := h.look_oneQos hl
      have hsub : ({ c with pgMap := pgMapValReset c.pgMap pgId } : NodeData).subtop =
          c.subtop := rfl
      have hone' : ({ c with pgMap := pgMapValReset c.pgMap pgId } : NodeData).OneQos := hone
      obtain ⟨σ', t', free', hdel, hσ', hm', hrw⟩ := h.toTreeOk.setTry hl hsub hone'
      rw [hdel, table_look hl]
      exact ⟨0, _, t', free', rfl, rfl, ⟨h.setTree hσ', hm', rfl⟩, .inr ⟨not_lt.mp hlen, hrw⟩⟩

theorem CoreOk.pluginAlloc (h : CoreOk s t free) :
    CoreOk s.pluginAlloc.2 t free ∧ s.pluginAlloc.2.tree = s.tree ∧ s.pluginAlloc.2.cl = s.cl := by
  unfold ServerCore.pluginAlloc
  split
  · exact ⟨h, rfl, rfl⟩
  · exact ⟨⟨h.toTreeOk, h.stack, h.clients⟩, rfl, rfl⟩

end Steps

/-! ## Steps -/

/-- What each outcome of a call keeps, the call keeps. -/
theorem kept_of_map {I : ServerCore → Prop} {α : Type} {o : Option α}
    {f : α → ServerCore × CoreReply} {s' : ServerCore} {r : CoreReply}
    (hf : ∀ a, o = some a → I (f a).1) (he : o.map f = some (s', r)) : I s' := by
  obtain ⟨a, ha, hfa⟩ := Option.map_eq_some_iff.mp he
  have hgood := hf a ha
  rwa [hfa] at hgood

theorem kept_of_idle {I : ServerCore → Prop} {s s' : ServerCore} {r : CoreReply} (h : I s)
    (he : some (s, CoreReply.idle) = some (s', r)) : I s' := by
  cases he
  exact h

theorem coreStep_good {s s' : ServerCore} {op : CoreOp} {r : CoreReply} (h : CoreGood s)
    (hs : coreStep s op = some (s', r)) : CoreGood s' := by
  cases op with
  | subscribe i topics =>
    rw [coreStep] at hs
    split_ifs at hs
    · exact kept_of_map (fun a ha => h.procSubMsgRx topics ha) hs
    · exact kept_of_idle h hs
  | unSubscribe i topics =>
    rw [coreStep] at hs
    split_ifs at hs
    · exact kept_of_map (fun a ha => h.procUnSubMsg topics ha) hs
    · exact kept_of_idle h hs
  | publish i topic data msgId qos retain =>
    rw [coreStep] at hs
    split_ifs at hs
    · refine kept_of_map (fun a ha => ?_) hs
      obtain ⟨t, free, h⟩ := h
      rcases h.procPubMsgRx ha with ⟨t', free', hgo, -⟩ | ⟨buf, m, -, -, -, -, hlost, -⟩
      · exact hgo.ok.good
      · exact hlost.good
    · exact kept_of_idle h hs
  | ack i msgType msgId =>
    rw [coreStep] at hs
    split_ifs at hs
    · refine kept_of_map (fun a ha => ?_) hs
      obtain ⟨t, free, h⟩ := h
      exact CoreOk.good ⟨h.toTreeOk, h.stack, h.clients.queues (clNotifyAck_queues ha)⟩
    · exact kept_of_idle h hs
  | connect args =>
    rw [coreStep] at hs
    refine kept_of_map (fun a ha => ?_) hs
    obtain ⟨t, free, h⟩ := h
    rcases h.procConnectRx ha with ⟨t', free', hgo, -⟩ | ⟨will, -, -, -, hlost⟩
    · exact hgo.ok.good
    · obtain ⟨i, s₁⟩ := a
      cases hlost
      exact h.treeless.good
  | connack i cleanSession =>
    rw [coreStep] at hs
    split_ifs at hs with ha
    · refine kept_of_map (fun a he => ?_) hs
      obtain ⟨t, free, h⟩ := h
      obtain ⟨t', free', k, hgo, -⟩ := h.onConnackSend ha he
      exact hgo.ok.good
    · exact kept_of_idle h hs
  | netClose i due2err =>
    rw [coreStep] at hs
    split_ifs at hs
    · exact kept_of_map (fun a ha => h.onClNetClose ha) hs
    · exact kept_of_idle h hs
  | appRegister =>
    cases hs
    obtain ⟨t, free, h⟩ := h
    exact h.pluginAlloc.1.good
  | appPublish topic data qos retain =>
    rw [coreStep] at hs
    refine kept_of_map (fun a ha => ?_) hs
    obtain ⟨t, free, h⟩ := h
    rcases h.procPubMsgRx ha with ⟨t', free', hgo, -⟩ | ⟨buf, m, -, -, -, -, hlost, -⟩
    · exact hgo.ok.good
    · exact hlost.good
  | enroll pg topic qos =>
    rw [coreStep] at hs
    split_ifs at hs
    · refine kept_of_map (fun a ha => ?_) hs
      obtain ⟨t, free, h⟩ := h
      rcases h.procTopicEnroll pg topic qos with ⟨v, s₁, t', free', he, -, hgo, -⟩ | ⟨-, -, he⟩
      · cases he.symm.trans ha
        exact hgo.ok.good
      · cases he.symm.trans ha
        exact h.treeless.good
    · exact kept_of_idle h hs
  | cancel pg topic =>
    rw [coreStep] at hs
    split_ifs at hs
    · refine kept_of_map (fun a ha => ?_) hs
      obtain ⟨t, free, h⟩ := h
      obtain ⟨v, s₁, t', free', he, -, hgo, -⟩ := h.procTopicCancel pg topic
      cases he.symm.trans ha
      exact hgo.ok.good
    · exact kept_of_idle h hs

theorem runs_good {sendOk mallocOk : Nat → Bool} {ops : List CoreOp} {s : ServerCore}
    {rs : List CoreReply} (hrun : runs coreStep (serverCoreInit sendOk mallocOk) ops = some (s, rs)) :
    CoreGood s :=
  runs_preserves (fun h hs => coreStep_good h hs) (coreOk_init sendOk mallocOk).good hrun

end SimpleLink.Server
