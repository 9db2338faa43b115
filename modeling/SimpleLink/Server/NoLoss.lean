import SimpleLink.Server.Queued

/-!
# When no message is lost

The invariant: the identifier queue of a persistent session represents a list,
a connected client has a context, and no client is left between CONNECT and
CONNACK. Whatever a step does, it does to one client: for the others the bits of
the wait lists stay.
-/

namespace SimpleLink.Server

open Lib Mqtt

/-! ## Wait lists -/

theorem InWl.append {wl wl' l : List Mqp} {i : ClIdx} {msg : Mqp} (h : InWl wl i msg)
    (hl : wl' = wl ++ l) : InWl wl' i msg := hl ▸ h.left l

theorem InWl.purge {wl : List Mqp} {i j : ClIdx} {msg : Mqp} (hj : j ≠ i) (h : InWl wl j msg) :
    InWl (wlPurge i wl) j msg := by
  obtain ⟨mqp, hmem, hmsg, hbit⟩ := h
  have hbit' : bit (mqp.clMap &&& ~~~clBmap i) j = true := by
    rw [bit_clear_clBmap, hbit, decide_eq_false hj]
    rfl
  refine ⟨{ mqp with clMap := mqp.clMap &&& ~~~clBmap i }, ?_, hmsg, hbit'⟩
  unfold wlPurge
  rw [List.mem_filter]
  exact ⟨List.mem_map_of_mem hmem, decide_eq_true (ne_zero_of_bit hbit')⟩

theorem wlMqpUnmapFind_spec {i : ClIdx} {id : UInt16} {wl : List Mqp} :
    ∀ {prev mqp' wl'}, wlMqpUnmapFind i id wl = some (prev, mqp', wl') →
      ∃ mqp, wl = prev ++ mqp :: wl' ∧ wl.find? (fun mqp => id = mqp.msgId) = some mqp ∧
        mqp.msgId = id ∧ mqp' = { mqp with clMap := mqp.clMap &&& ~~~clBmap i } := by
  induction wl with
  | nil => exact nofun
  | cons mqp wl ih =>
    intro prev mqp' wl' h
    unfold wlMqpUnmapFind at h
    by_cases hid : id = mqp.msgId
    · rw [if_pos hid] at h
      simp only [Option.some.injEq, Prod.mk.injEq] at h
      obtain ⟨rfl, rfl, rfl⟩ := h
      exact ⟨mqp, rfl, by rw [List.find?_cons_of_pos (by simpa using hid)], hid.symm, rfl⟩
    · rw [if_neg hid] at h
      split at h
      · cases h
      · rename_i prev₁ mqp₁ wl₁ he
        simp only [Option.some.injEq, Prod.mk.injEq] at h
        obtain ⟨rfl, rfl, rfl⟩ := h
        obtain ⟨mqp₂, rfl, hfind, hmsgId, rfl⟩ := ih he
        refine ⟨mqp₂, rfl, ?_, hmsgId, rfl⟩
        rw [List.find?_cons_of_neg (by simpa using hid)]
        exact hfind

theorem InWl.unmap {prev wl : List Mqp} {mqp : Mqp} {i j : ClIdx} {msg : Mqp}
    (h : InWl (prev ++ mqp :: wl) j msg) :
    InWl (prev ++ { mqp with clMap := mqp.clMap &&& ~~~clBmap i } :: wl) j msg ∨
      (j = i ∧ mqp.msg = msg ∧ bit mqp.clMap i = true) := by
  obtain ⟨p, hmem, hmsg, hbit⟩ := h
  rcases List.mem_append.1 hmem with hmem | hmem
  · exact .inl ⟨p, List.mem_append_left _ hmem, hmsg, hbit⟩
  rcases List.mem_cons.1 hmem with rfl | hmem
  · by_cases hj : j = i
    · exact .inr ⟨hj, hmsg, hj ▸ hbit⟩
    · refine .inl ⟨_, List.mem_append_right _ List.mem_cons_self, hmsg, ?_⟩
      rw [bit_clear_clBmap, hbit, decide_eq_false hj]
      rfl
  · exact .inl ⟨p, List.mem_append_right _ (List.mem_cons_of_mem _ hmem), hmsg, hbit⟩

theorem InWl.rmfree {prev wl : List Mqp} {mqp : Mqp} {j : ClIdx} {msg : Mqp}
    (h : InWl (prev ++ mqp :: wl) j msg) : InWl (wlRmfreeTry prev mqp wl) j msg := by
  unfold wlRmfreeTry
  split
  · rename_i hzero
    obtain ⟨p, hmem, hmsg, hbit⟩ := h
    refine ⟨p, ?_, hmsg, hbit⟩
    rcases List.mem_append.1 hmem with hmem | hmem
    · exact List.mem_append_left _ hmem
    rcases List.mem_cons.1 hmem with rfl | hmem
    · exact absurd hzero (ne_zero_of_bit hbit)
    · exact List.mem_append_right _ hmem
  · exact h

/-! ## The invariant -/

structure KeepInv (m : ClMgmt) : Prop where
  tx : ∀ j, (m.users j).cleanSession = false →
    Rep (m.users j).qos2TxCq (m.users j).qos2TxCq.recorded
  ctx : HasCtx m
  assigned : ∀ j, (m.users j).assigned = false
  away : ∀ j, (m.users j).connected = false → (m.users j).cleanSession = false

theorem keepInv_init (sendOk mallocOk : Nat → Bool) : KeepInv (clMgmtInit sendOk mallocOk) where
  tx _ _ := rep_reset
  ctx _ h := by cases h
  assigned _ := rfl
  away _ _ := rfl

theorem KeepInv.of_users {m m' : ClMgmt} (h : KeepInv m) (hu : m'.users = m.users) :
    KeepInv m' where
  tx j := by
    rw [hu]
    exact h.tx j
  ctx := h.ctx.of_users hu
  assigned j := by
    rw [hu]
    exact h.assigned j
  away j := by
    rw [hu]
    exact h.away j

theorem rep_self {cq : PubQos2Cq} {q : List UInt16} (h : Rep cq q) : Rep cq cq.recorded := by
  rwa [h.recorded]

theorem KeepInv.setUser {m : ClMgmt} (h : KeepInv m) {i : ClIdx} {u : ClientUsr}
    (htx : u.cleanSession = false → Rep u.qos2TxCq u.qos2TxCq.recorded)
    (hctx : u.connected = true → u.ctx ≠ none) (ha : u.assigned = false)
    (haway : u.connected = false → u.cleanSession = false) : KeepInv (m.setUser i u) := by
  refine ⟨fun j => ?_, fun j => ?_, fun j => ?_, fun j => ?_⟩
  · by_cases hj : j = i
    · subst hj
      rwa [setUser_users_self]
    · rw [setUser_users_ne _ _ hj]
      exact h.tx j
  · by_cases hj : j = i
    · subst hj
      rwa [setUser_users_self]
    · rw [setUser_users_ne _ _ hj]
      exact h.ctx j
  · by_cases hj : j = i
    · subst hj
      rwa [setUser_users_self]
    · rw [setUser_users_ne _ _ hj]
      exact h.assigned j
  · by_cases hj : j = i
    · subst hj
      rwa [setUser_users_self]
    · rw [setUser_users_ne _ _ hj]
      exact h.away j

/-- What a step does to the sessions that it does not end. -/
structure Carries (m m' : ClMgmt) (op : ClOp) (e : Option ClIdx) : Prop where
  inv : KeepInv m'
  persistent : ∀ i, (m.users i).cleanSession = false → e ≠ some i →
    (m'.users i).cleanSession = false
  kept : ∀ i msg, msg.qos ≠ .qos0 → (m.users i).cleanSession = false → e ≠ some i →
    ¬op.retires i msg → Held m i msg → Held m' i msg

theorem Held.mono {m m' : ClMgmt} {i : ClIdx} {msg : Mqp} (h : Held m i msg)
    (hu : m'.users i = m.users i) (hack : InWl m.qosAck1Wl i msg → InWl m'.qosAck1Wl i msg)
    (hsess : InWl m.sessMqpWl i msg → InWl m'.sessMqpWl i msg) : Held m' i msg := by
  unfold Held at h ⊢
  rw [hu]
  exact h.imp hack (Or.imp_left (And.imp_right hsess))

theorem Held.of_appends {m m' : ClMgmt} {i : ClIdx} {msg : Mqp} (h : Held m i msg)
    (happ : Appends m m') : Held m' i msg := by
  obtain ⟨l, hl⟩ := happ.acks
  obtain ⟨l', hl'⟩ := happ.sess
  exact h.mono (congrFun happ.users i) (fun hin => hin.append hl) fun hin => hin.append hl'

theorem Appends.carries {m m' : ClMgmt} (h : KeepInv m) (happ : Appends m m') (op : ClOp)
    (e : Option ClIdx) : Carries m m' op e where
  inv := h.of_users happ.users
  persistent i hi _ := by rw [happ.users, hi]
  kept _ _ _ _ _ _ hheld := hheld.of_appends happ

theorem KeepInv.carries_setUser {m : ClMgmt} (h : KeepInv m) {i : ClIdx} {u : ClientUsr}
    (htx : u.qos2TxCq = (m.users i).qos2TxCq) (hctx : u.connected = true → u.ctx ≠ none)
    (ha : u.assigned = false) (hconn : u.connected = (m.users i).connected)
    (hclean : u.cleanSession = (m.users i).cleanSession) (op : ClOp) (e : Option ClIdx) :
    Carries m (m.setUser i u) op e where
  inv := h.setUser (by rw [htx, hclean]; exact h.tx i) hctx ha
    (by rw [hconn, hclean]; exact h.away i)
  persistent j hj _ := by
    by_cases hji : j = i
    · subst hji
      rw [setUser_users_self, hclean, hj]
    · rw [setUser_users_ne _ _ hji, hj]
  kept j msg _ _ _ _ hheld := by
    by_cases hji : j = i
    · subst hji
      unfold Held at hheld ⊢
      rwa [setUser_users_self, hconn, htx]
    · exact hheld.mono (setUser_users_ne _ _ hji) id id

theorem KeepInv.carries_env {m m' : ClMgmt} (h : KeepInv m) (hu : m'.users = m.users)
    (ha : m'.qosAck1Wl = m.qosAck1Wl) (hs : m'.sessMqpWl = m.sessMqpWl) (op : ClOp)
    (e : Option ClIdx) : Carries m m' op e where
  inv := h.of_users hu
  persistent i hi _ := by rw [hu, hi]
  kept i msg _ _ _ _ hheld := by
    refine hheld.mono (congrFun hu i) ?_ ?_
    · rw [ha]
      exact fun hin => hin
    · rw [hs]
      exact fun hin => hin

/-! ## Closing a connection -/

theorem sessionDelete_inWl {m : ClMgmt} {i j : ClIdx} (hj : j ≠ i) {msg : Mqp}
    (h : Held m j msg) : Held (sessionDelete m i) j msg :=
  h.mono (Function.update_of_ne hj ..) (InWl.purge hj) (InWl.purge hj)

theorem KeepInv.sessionDelete {m : ClMgmt} (h : KeepInv m) (i : ClIdx) :
    KeepInv (sessionDelete m i) := by
  have hset : KeepInv (m.setUser i
      { m.users i with qos2TxCq := qos2PubCqReset, qos2RxCq := qos2PubCqReset }) :=
    h.setUser (fun _ => rep_self rep_reset) (h.ctx i) (h.assigned i) (h.away i)
  exact hset.of_users rfl

theorem clOnNetClose_carries {m : ClMgmt} (h : KeepInv m) {i : ClIdx}
    (hconn : (m.users i).connected = true) (op : ClOp) :
    Carries m (clOnNetClose m i) op (if (m.users i).cleanSession then some i else none) := by
  unfold clOnNetClose
  simp only
  rw [if_neg (by rw [h.assigned i]; exact Bool.false_ne_true)]
  cases hclean : (m.users i).cleanSession with
  | true =>
    simp only [if_true]
    refine ⟨(h.sessionDelete i).setUser (fun _ => rep_self rep_reset) nofun rfl fun _ => rfl,
      fun j hj he => ?_, fun j msg _ _ he _ hheld => ?_⟩
    · have hji : j ≠ i := fun hji => he (by rw [hji])
      rw [setUser_users_ne _ _ hji]
      unfold Server.sessionDelete
      simp only [Function.update_of_ne hji, hj]
    · have hji : j ≠ i := fun hji => he (by rw [hji])
      exact (sessionDelete_inWl hji hheld).mono (setUser_users_ne _ _ hji) (fun hin => hin)
        fun hin => hin
  | false =>
    simp only [Bool.false_eq_true, if_false]
    refine ⟨h.setUser (fun _ => h.tx i hclean) nofun (h.assigned i) fun _ => rfl,
      fun j hj _ => ?_, fun j msg _ _ _ _ hheld => ?_⟩
    · by_cases hji : j = i
      · subst hji
        rw [setUser_users_self]
      · rw [setUser_users_ne _ _ hji, hj]
    · by_cases hji : j = i
      · subst hji
        -- a connected client has nothing in `sess_mqp_wl`
        rcases hheld with hack | ⟨hdis, -⟩ | htx
        · exact .inl hack
        · rw [hconn] at hdis
          cases hdis
        · refine .inr (.inr ?_)
          rwa [setUser_users_self]
      · exact hheld.mono (setUser_users_ne _ _ hji) (fun hin => hin) fun hin => hin

/-! ## Acknowledgements -/

/-- The wait list of acknowledgements loses at most the packet found, for the client it was found
for. -/
theorem unmap_carries {m m' : ClMgmt} (h : KeepInv m) {i : ClIdx} {id : UInt16} {prev wl : List Mqp}
    {mqp' : Mqp} (hfind : wlMqpUnmapFind i id m.qosAck1Wl = some (prev, mqp', wl))
    (hu : m'.users = m.users) (hs : m'.sessMqpWl = m.sessMqpWl)
    (ha : m'.qosAck1Wl = prev ++ mqp' :: wl ∨ m'.qosAck1Wl = wlRmfreeTry prev mqp' wl)
    {op : ClOp} {e : Option ClIdx}
    (hlost : ∀ mqp ∈ m.qosAck1Wl.find? (fun mqp => id = mqp.msgId), bit mqp.clMap i = true →
      mqp.msgId = id → (m.users i).cleanSession = false → mqp.msg.qos ≠ .qos0 →
      ¬op.retires i mqp.msg → Held m' i mqp.msg) : Carries m m' op e where
  inv := h.of_users hu
  persistent j hj _ := by rw [hu, hj]
  kept j msg hq hclean _ hret hheld := by
    obtain ⟨mqp, hwl, hfirst, hid, rfl⟩ := wlMqpUnmapFind_spec hfind
    have hmove : ∀ {k msg}, InWl (prev ++
        { mqp with clMap := mqp.clMap &&& ~~~clBmap i } :: wl) k msg → InWl m'.qosAck1Wl k msg := by
      intro k msg hin
      rcases ha with ha | ha
      · rwa [ha]
      · rw [ha]
        exact hin.rmfree
    rcases hheld with hack | ⟨hdis, hsess⟩ | htx
    · rw [hwl] at hack
      rcases hack.unmap (i := i) with hin | ⟨rfl, rfl, hbit⟩
      · exact .inl (hmove hin)
      · exact hlost mqp hfirst hbit hid hclean hq hret
    · exact .inr (.inl ⟨by rw [hu, hdis], by rwa [hs]⟩)
    · exact .inr (.inr (by rwa [hu]))

theorem puback_carries {m : ClMgmt} (h : KeepInv m) {i : ClIdx} {id : UInt16}
    (hok : (m.users i).cleanSession = false → AckOk m i .puback id) :
    Carries m (ack1UnmapRmfreeTry m i id) (.notifyAck i .puback id) none := by
  unfold ack1UnmapRmfreeTry
  by_cases hclean : (m.users i).cleanSession = true
  · rw [if_pos hclean]
    exact h.carries_env rfl rfl rfl _ _
  · rw [if_neg hclean]
    split
    · exact h.carries_env rfl rfl rfl _ _
    · rename_i prev mqp' wl hfind
      apply unmap_carries h hfind
      · rfl
      · rfl
      · exact .inr rfl
      intro mqp hfirst hbit hid hpers hq hret
      have hqos := hok hpers mqp hfirst hbit
      have hqos1 : mqp.qos = .qos1 := by
        cases hcase : mqp.qos with
        | qos0 => exact absurd hcase hq
        | qos1 => rfl
        | qos2 => exact absurd hcase hqos
      exact absurd ⟨rfl, hqos1, hid.symm⟩ hret

theorem Carries.trans {m₁ m₂ m₃ : ClMgmt} {op : ClOp} {e : Option ClIdx}
    (h : Carries m₁ m₂ op e) (h' : Carries m₂ m₃ op e) : Carries m₁ m₃ op e where
  inv := h'.inv
  persistent i hi he := h'.persistent i (h.persistent i hi he) he
  kept i msg hq hi he hret hheld :=
    h'.kept i msg hq (h.persistent i hi he) he hret (h.kept i msg hq hi he hret hheld)

theorem KeepInv.carries_tx {m : ClMgmt} (h : KeepInv m) {i : ClIdx} {cq : PubQos2Cq}
    (hrep : (m.users i).cleanSession = false → Rep cq cq.recorded) (op : ClOp)
    (hkeep : (m.users i).cleanSession = false → ∀ msg : Mqp, msg.qos = .qos2 →
      ¬op.retires i msg → msg.msgId ∈ (m.users i).qos2TxCq.recorded → msg.msgId ∈ cq.recorded)
    (e : Option ClIdx) : Carries m (m.setUser i { m.users i with qos2TxCq := cq }) op e where
  inv := h.setUser hrep (h.ctx i) (h.assigned i) (h.away i)
  persistent j hj _ := by
    by_cases hji : j = i
    · subst hji
      rwa [setUser_users_self]
    · rwa [setUser_users_ne _ _ hji]
  kept j msg _ hclean _ hret hheld := by
    by_cases hji : j = i
    · subst hji
      unfold Held at hheld ⊢
      rw [setUser_users_self]
      exact hheld.imp_right (Or.imp_right fun htx => ⟨htx.1, hkeep hclean msg htx.1 hret htx.2⟩)
    · exact hheld.mono (setUser_users_ne _ _ hji) (fun hin => hin) fun hin => hin

theorem logup_false {cq cq' : PubQos2Cq} {id : UInt16}
    (h : qos2PubCqLogup cq id = some (cq', false)) : cq.nFree = 0 := by
  unfold qos2PubCqLogup at h
  by_cases hfree : cq.nFree = 0
  · exact hfree
  · rw [if_pos hfree] at h
    split at h
    · cases (Prod.mk.inj (Option.some.inj h)).2
    · cases h

theorem logup_true {cq cq' : PubQos2Cq} {q : List UInt16} (hrep : Rep cq q) {id : UInt16}
    (h : qos2PubCqLogup cq id = some (cq', true)) : Rep cq' (q ++ [id]) := by
  obtain ⟨cq₁, he, hrep₁⟩ := logup_rep hrep id
  obtain ⟨rfl, hok⟩ := Prod.mk.inj (Option.some.inj (he.symm.trans h))
  unfold Fifo.logup at hok hrep₁
  split at hok
  · rename_i hlt
    rwa [if_pos hlt] at hrep₁
  · cases hok

theorem pubrec_carries {m m' : ClMgmt} (h : KeepInv m) {i : ClIdx} {id : UInt16} {ok : Bool}
    (hok : (m.users i).cleanSession = false → AckOk m i .pubrec id)
    (he : procPubRecRx m i id = some (ok, m')) :
    Carries m m' (.notifyAck i .pubrec id) none := by
  unfold procPubRecRx at he
  split at he
  · cases he
    exact h.carries_env rfl rfl rfl _ _
  · rename_i prev mqp' wl hfind
    simp only at he
    split at he
    · cases he
    · rename_i cq hlog
      cases he
      have hrep : (m.users i).cleanSession = false →
          Rep cq ((m.users i).qos2TxCq.recorded ++ [id]) := fun hc => logup_true (h.tx i hc) hlog
      have hlogged := h.carries_tx (fun hc => rep_self (hrep hc)) (.notifyAck i .pubrec id)
        (fun hc msg _ _ hmem => by
          rw [(hrep hc).recorded]
          exact List.mem_append_left _ hmem) none
      refine hlogged.trans ?_
      apply unmap_carries hlogged.inv hfind
      · exact mqttVhMsgSend_users ..
      · exact mqttVhMsgSend_sessMqpWl ..
      · exact .inr (mqttVhMsgSend_qosAck1Wl ..)
      · -- the identifier has moved to the queue
        intro mqp hfirst hbit hid hpers hq hret
        rw [setUser_users_self] at hpers
        have hqos := hok hpers mqp hfirst hbit
        have hqos2 : mqp.qos = .qos2 := by
          cases hcase : mqp.qos with
          | qos0 => exact absurd hcase hq
          | qos1 => exact absurd hcase hqos.1
          | qos2 => rfl
        refine .inr (.inr ⟨hqos2, ?_⟩)
        rw [mqttVhMsgSend_users]
        change mqp.msgId ∈ ((m.setUser i { m.users i with qos2TxCq := cq }).users i).qos2TxCq.recorded
        rw [setUser_users_self, (hrep hpers).recorded, hid]
        exact List.mem_append_right _ (List.mem_singleton_self _)
    · rename_i cq hlog
      cases he
      apply unmap_carries h hfind
      · rfl
      · rfl
      · exact .inl rfl
      · -- there was no room for the identifier
        intro mqp hfirst hbit hid hpers hq hret
        have hqos := hok hpers mqp hfirst hbit
        cases hcase : mqp.qos with
        | qos0 => exact absurd hcase hq
        | qos1 => exact absurd hcase hqos.1
        | qos2 => exact absurd (logup_false hlog) (hqos.2 hcase)

theorem pubcomp_carries {m : ClMgmt} (h : KeepInv m) {i : ClIdx} {id : UInt16} {cq : PubQos2Cq}
    {ok : Bool} (hok : (m.users i).cleanSession = false → AckOk m i .pubcomp id)
    (he : qos2PubCqUnlog (m.users i).qos2TxCq id = some (cq, ok)) :
    Carries m (m.setUser i { m.users i with qos2TxCq := cq }) (.notifyAck i .pubcomp id) none := by
  have hspec : (m.users i).cleanSession = false →
      ∃ q, Rep cq q ∧ ∀ k ∈ (m.users i).qos2TxCq.recorded, k ≠ id → k ∈ q := by
    intro hc
    have hrep := h.tx i hc
    have hhead : _ ≠ [] → _ = _ := hok hc
    generalize (m.users i).qos2TxCq.recorded = q at hrep hhead
    cases q with
    | nil =>
      rw [unlog_empty hrep] at he
      cases he
      exact ⟨[], hrep, nofun⟩
    | cons hd q =>
      obtain rfl := Option.some.inj (hhead (List.cons_ne_nil _ _))
      rw [unlog_cons hrep, if_pos rfl] at he
      cases he
      refine ⟨q, rep_tail hrep, fun k hmem hne => ?_⟩
      exact (List.mem_cons.1 hmem).resolve_left hne
  apply h.carries_tx
  · intro hc
    obtain ⟨q, hrep, -⟩ := hspec hc
    exact rep_self hrep
  · intro hc msg hq hret hmem
    obtain ⟨q, hrep, hkeep⟩ := hspec hc
    rw [hrep.recorded]
    exact hkeep _ hmem fun hid => hret ⟨rfl, hq, hid.symm⟩

theorem pubrel_carries {m m' : ClMgmt} (h : KeepInv m) {i : ClIdx} {id : UInt16} {ok : Bool}
    (he : procPubRelRx m i id = some (ok, m')) (op : ClOp) (e : Option ClIdx) :
    Carries m m' op e := by
  have hsent : Carries m (mqttVhMsgSend m (m.users i).ctx .pubcomp id).2 op e :=
    h.carries_env (mqttVhMsgSend_users ..) (mqttVhMsgSend_qosAck1Wl ..)
      (mqttVhMsgSend_sessMqpWl ..) _ _
  have hself : m.users i = (mqttVhMsgSend m (m.users i).ctx .pubcomp id).2.users i := by
    rw [mqttVhMsgSend_users]
  unfold procPubRelRx at he
  simp only at he
  split at he
  · cases he
  · cases he
    exact hsent
  · split at he
    · cases he
    · cases he
      refine hsent.trans ?_
      apply hsent.inv.carries_setUser
      · rw [← hself]
      · rw [hself]
        exact hsent.inv.ctx i
      · exact h.assigned i
      · rw [← hself]
      · rw [← hself]

/-! ## Resuming a session -/

/-- All that happened is that `n` packets were sent. -/
def Sends (m m' : ClMgmt) (n : Nat) : Prop :=
  ∃ l, m' = { m with env := { m.env with sends := l ++ m.env.sends } } ∧ l.length = n

theorem Sends.trans {m₁ m₂ m₃ : ClMgmt} {a b : Nat} (h : Sends m₁ m₂ a) (h' : Sends m₂ m₃ b) :
    Sends m₁ m₃ (a + b) := by
  obtain ⟨l, rfl, rfl⟩ := h
  obtain ⟨l', rfl, rfl⟩ := h'
  exact ⟨l' ++ l, by rw [List.append_assoc], by rw [List.length_append, Nat.add_comm]⟩

theorem SendsPubs.sends {m m' : ClMgmt} {n : Nat} (h : SendsPubs m m' n) : Sends m m' n := by
  obtain ⟨l, hl, hlen, -⟩ := h
  exact ⟨l, hl, hlen⟩

/-- `ack1_wl_mqp_dispatch` sends the client's packets again. -/
theorem ack1WlMqpDispatch_spec {i : ClIdx} (wl : List Mqp) :
    ∀ {m : ClMgmt}, (m.users i).ctx ≠ none → ∃ m', ack1WlMqpDispatch i wl m = some m' ∧
      SendsPubs m m' (wl.filter fun mqp => bit mqp.clMap i).length := by
  induction wl with
  | nil => exact fun {m} _ => ⟨m, rfl, .refl m⟩
  | cons mqp wl ih =>
    intro m hctx
    unfold ack1WlMqpDispatch
    by_cases hbit : bit mqp.clMap i = true
    · obtain ⟨m₁, he, hs⟩ := pubDispatchTo_sends hctx mqp true
      obtain ⟨m', he', hs'⟩ := ih (m := m₁) (by rw [hs.users]; exact hctx)
      rw [if_pos hbit, he, List.filter_cons_of_pos (p := fun mqp : Mqp => bit mqp.clMap i) hbit,
        List.length_cons, Nat.add_comm]
      exact ⟨m', he', hs.trans hs'⟩
    · rw [if_neg hbit, List.filter_cons_of_neg (p := fun mqp : Mqp => bit mqp.clMap i) hbit]
      exact ih hctx

/-- `ack2_msg_id_dispatch` sends until a send fails. -/
theorem ack2MsgIdDispatchFrom_spec {c : Nat} (cq : PubQos2Cq) (r : Nat) :
    ∀ {k} {m : ClMgmt}, k + r ≤ maxPubrelInflt →
      ∃ m', ack2MsgIdDispatchFrom (some c) cq r k m = some m' ∧
        Sends m m' (pubrelSends m.env.sendOk r m.env.sends.length) := by
  induction r with
  | zero => exact fun {k m} _ => ⟨m, rfl, [], rfl, rfl⟩
  | succ r ih =>
    intro k m hk
    have hcell : cq.idVec[k]? = some (cq.idVec.get ⟨k, by omega⟩) :=
      Vector.getElem?_eq_getElem (by omega)
    unfold ack2MsgIdDispatchFrom pubrelSends
    rw [hcell]
    simp only [mqttVhMsgSend, Env.send]
    cases hok : m.env.sendOk m.env.sends.length with
    | false => exact ⟨_, rfl, [_], rfl, rfl⟩
    | true =>
      obtain ⟨m', he, hs⟩ := ih (k := k + 1) (m := { m with env := { m.env with
        sends := .vh c .pubrel (cq.idVec.get ⟨k, by omega⟩) :: m.env.sends } }) (by omega)
      have hone : Sends m { m with env := { m.env with
          sends := .vh c .pubrel (cq.idVec.get ⟨k, by omega⟩) :: m.env.sends } } 1 := ⟨[_], rfl, rfl⟩
      exact ⟨m', he, hone.trans hs⟩

/-- `sess_mqp_wl` has been gone through for the client, with `kept` and `wl` before and after the
cursor. -/
structure SessDone (m m' : ClMgmt) (i : ClIdx) (kept wl : List Mqp) : Prop where
  users : m'.users = m.users
  acks : ∃ l, m'.qosAck1Wl = m.qosAck1Wl ++ l
  moved : ∀ mqp ∈ wl, mqp.qos ≠ .qos0 → InWl m'.qosAck1Wl i mqp.msg
  others : ∀ j msg, j ≠ i → InWl (kept ++ wl) j msg → InWl m'.sessMqpWl j msg

/-- The packet under the cursor is sent, and the rest is gone through. -/
theorem SessDone.step {m m₁ m' : ClMgmt} {i : ClIdx} {kept kept' wl : List Mqp} {mqp : Mqp}
    (hdone : SessDone m₁ m' i kept' wl) (husers : m₁.users = m.users)
    (hacks : ∃ l, m₁.qosAck1Wl = m.qosAck1Wl ++ l)
    (hqueued : mqp.qos ≠ .qos0 → InWl m₁.qosAck1Wl i mqp.msg)
    (hothers : ∀ j msg, j ≠ i → InWl (kept ++ mqp :: wl) j msg → InWl (kept' ++ wl) j msg) :
    SessDone m m' i kept (mqp :: wl) := by
  obtain ⟨l, hl⟩ := hacks
  obtain ⟨l', hl'⟩ := hdone.acks
  refine ⟨hdone.users.trans husers, ⟨l ++ l', ?_⟩, fun p hp hq => ?_, fun j msg hj hin =>
    hdone.others j msg hj (hothers j msg hj hin)⟩
  · rw [hl', hl, List.append_assoc]
  · rcases List.mem_cons.1 hp with rfl | hp
    · exact (hqueued hq).append hl'
    · exact hdone.moved p hp hq

theorem sessWlMqpDispatchFrom_spec {i : ClIdx} (wl : List Mqp) :
    ∀ visited kept {m : ClMgmt}, HasCtx m → (m.users i).connected = true →
      (m.users i).cleanSession = false → (∀ mqp ∈ wl, bit mqp.clMap i = true) →
      SessDispatchOk m.env.sendOk m.env.mallocOk i wl m.env.sends.length m.env.mallocs →
      ∃ m', sessWlMqpDispatchFrom i visited kept wl m = some m' ∧ SessDone m m' i kept wl := by
  induction wl with
  | nil =>
    intro visited kept m _ _ _ _ _
    refine ⟨{ m with sessMqpWl := kept ++ m.sessMqpWl }, rfl, rfl, ⟨[], ?_⟩, nofun, ?_⟩
    · exact (List.append_nil _).symm
    · intro j msg _ hin
      rw [List.append_nil] at hin
      exact hin.left _
  | cons mqp wl ih =>
    intro visited kept m hctx hconn hclean hall hok
    have hbit := hall mqp List.mem_cons_self
    have hrest : ∀ p ∈ wl, bit p.clMap i = true := fun p hp => hall p (List.mem_cons_of_mem _ hp)
    -- the packet without this client, for the others
    have hothers : ∀ j msg, j ≠ i → InWl (kept ++ mqp :: wl) j msg →
        InWl (kept ++ { mqp with clMap := mqp.clMap &&& ~~~clBmap i } :: wl) j msg := by
      intro j msg hj hin
      exact (hin.unmap (i := i)).resolve_right fun hh => hj hh.1
    unfold SessDispatchOk at hok
    unfold sessWlMqpDispatchFrom
    rw [if_pos hbit]
    simp only
    by_cases hzero : mqp.clMap &&& ~~~clBmap i = 0#32
    · rw [if_pos hzero] at hok ⊢
      obtain ⟨m₁, he, happ, hsess, hsend, hmem, hmallocs, hlen, hqueue⟩ := clPubDispatch_one hctx
        hconn { mqp with clMap := mqp.clMap &&& ~~~clBmap i }
      obtain ⟨m', he', hdone⟩ := ih true kept (m := m₁)
        (hctx.of_users happ.users) (by rw [happ.users, hconn]) (by rw [happ.users, hclean]) hrest
        (by rw [hsend, hmem, hmallocs, hlen]; exact hok.2)
      rw [he]
      refine ⟨m', he', hdone.step happ.users happ.acks (fun hq => hqueue (hok.1 hq) hclean hq)
        fun j msg hj hin => ?_⟩
      have hfree := (hothers j msg hj hin).rmfree
      unfold wlRmfreeTry at hfree
      rwa [if_pos hzero] at hfree
    · rw [if_neg hzero] at hok ⊢
      unfold mqpServerCopy Env.malloc
      by_cases hcopy : m.env.mallocOk m.env.mallocs = true
      · rw [if_pos hcopy] at hok
        simp only [hcopy, if_true]
        obtain ⟨m₁, he, happ, hsess, hsend, hmem, hmallocs, hlen, hqueue⟩ := clPubDispatch_one
          (m := { m with env := { m.env with mallocs := m.env.mallocs + 1 } })
          (hctx.of_users rfl) hconn { mqp with clMap := mqp.clMap &&& ~~~clBmap i }
        obtain ⟨m', he', hdone⟩ := ih true
          (kept ++ [{ mqp with clMap := mqp.clMap &&& ~~~clBmap i }]) (m := m₁)
          (hctx.of_users happ.users) (by rw [happ.users, hconn]) (by rw [happ.users, hclean]) hrest
          (by rw [hsend, hmem, hmallocs, hlen]; exact hok.2)
        rw [he]
        refine ⟨m', he', hdone.step happ.users happ.acks (fun hq => hqueue (hok.1 hq) hclean hq)
          fun j msg hj hin => ?_⟩
        rw [List.append_assoc]
        exact hothers j msg hj hin
      · rw [if_neg hcopy] at hok
        simp only [hcopy]
        obtain ⟨m', he', hdone⟩ := ih true
          (kept ++ [{ mqp with clMap := mqp.clMap &&& ~~~clBmap i }])
          (m := { m with env := { m.env with mallocs := m.env.mallocs + 1 } })
          (hctx.of_users rfl) hconn hclean hrest hok.2
        refine ⟨m', he', hdone.step rfl ⟨[], (List.append_nil _).symm⟩ (fun hq => absurd hok.1 hq)
          fun j msg hj hin => ?_⟩
        rw [List.append_assoc]
        exact hothers j msg hj hin

/-- What is in `sess_mqp_wl` for a client moves to `qos_ack1_wl` when its session is resumed. -/
structure Resumed (m m' : ClMgmt) (i : ClIdx) : Prop where
  users : m'.users = m.users
  acks : ∃ l, m'.qosAck1Wl = m.qosAck1Wl ++ l
  moved : ∀ msg : Mqp, msg.qos ≠ .qos0 → InWl m.sessMqpWl i msg → InWl m'.qosAck1Wl i msg
  others : ∀ j msg, j ≠ i → InWl m.sessMqpWl j msg → InWl m'.sessMqpWl j msg

theorem sessWlMqpDispatch_spec {m m₂ : ClMgmt} {i : ClIdx} (hctx : HasCtx m)
    (hconn : (m.users i).connected = true) (hclean : (m.users i).cleanSession = false)
    {n : Nat} (hs : Sends m m₂ n) (hn : m.env.sends.length + n = resumeSends m i)
    (hok : ResumeOk m i) :
    ∃ m', sessWlMqpDispatch m₂ i = some m' ∧ Resumed m m' i := by
  obtain ⟨l, rfl, hl⟩ := hs
  unfold ResumeOk at hok
  unfold sessWlMqpDispatch
  cases hwl : m.sessMqpWl with
  | nil =>
    refine ⟨_, rfl, rfl, ⟨[], (List.append_nil _).symm⟩, ?_, ?_⟩
    · rw [hwl]
      rintro msg - ⟨mqp, hmem, -⟩
      cases hmem
    · rw [hwl]
      rintro j msg - ⟨mqp, hmem, -⟩
      cases hmem
  | cons mqp wl =>
    rw [hwl] at hok
    simp only at hok
    split at hok
    · rename_i hbit
      have hall : ∀ p ∈ mqp :: wl, bit p.clMap i = true := by
        intro p hp
        rcases List.mem_cons.1 hp with rfl | hp
        · exact hbit
        · exact hok.1 p hp
      obtain ⟨m', he, hdone⟩ := sessWlMqpDispatchFrom_spec (i := i) (mqp :: wl) false []
        (m := { m with env := { m.env with sends := l ++ m.env.sends }, sessMqpWl := [] })
        (hctx.of_users rfl) hconn hclean hall (by
          have hsends : (l ++ m.env.sends).length = resumeSends m i := by
            rw [List.length_append, hl, Nat.add_comm, hn]
          simp only [hsends]
          exact hok.2)
      refine ⟨m', he, hdone.users, hdone.acks, ?_, ?_⟩
      · rw [hwl]
        rintro msg hq ⟨p, hp, rfl, -⟩
        exact hdone.moved p hp hq
      · rw [hwl]
        exact hdone.others
    · rename_i hbit
      -- the cursor stops at the first packet
      refine ⟨{ m with env := { m.env with sends := l ++ m.env.sends } }, ?_, rfl,
        ⟨[], (List.append_nil _).symm⟩, ?_, fun _ _ _ hin => hin⟩
      · unfold sessWlMqpDispatchFrom
        simp only [hbit, List.nil_append, List.append_nil, Bool.false_eq_true, if_false, hwl]
      · rw [hwl]
        rintro msg hq ⟨p, hp, rfl, hpbit⟩
        rcases List.mem_cons.1 hp with rfl | hp
        · exact absurd hpbit hbit
        · exact absurd (hok p hp hpbit) hq

theorem sessionResume_spec {m : ClMgmt} (h : KeepInv m) {i : ClIdx}
    (hconn : (m.users i).connected = true) (hclean : (m.users i).cleanSession = false)
    (hok : ResumeOk m i) : ∃ m', sessionResume m i = some m' ∧ Resumed m m' i := by
  obtain ⟨c, hc⟩ := Option.ne_none_iff_exists'.1 (h.ctx i hconn)
  have hrep := h.tx i hclean
  have hrd := hrep.rd
  obtain ⟨m₁, he₁, hs₁⟩ := ack1WlMqpDispatch_spec m.qosAck1Wl (h.ctx i hconn)
  obtain ⟨m₂, he₂, hs₂⟩ := ack2MsgIdDispatchFrom_spec (c := c) (m.users i).qos2TxCq
    ((maxPubrelInflt - (m.users i).qos2TxCq.nFree) - (m.users i).qos2TxCq.rdIdx)
    (k := (m.users i).qos2TxCq.rdIdx) (m := m₁) (by omega)
  rw [hs₁.sendOk, hs₁.sends_length] at hs₂
  obtain ⟨m', he', hres⟩ := sessWlMqpDispatch_spec h.ctx hconn hclean (hs₁.sends.trans hs₂)
    (Nat.add_assoc ..).symm hok
  refine ⟨m', ?_, hres⟩
  unfold sessionResume ack2MsgIdDispatch
  simp only [he₁, hs₁.users, hc, he₂, he']

/-! ## Connecting -/

theorem clConnectRx_idx {m m' : ClMgmt} {ctx : Nat} {cleanSession present : Bool}
    {clientId : Option (List UInt8)} {will : Option Nat} {i : ClIdx}
    (h : clConnectRx m ctx cleanSession clientId will = some (i, present, m')) :
    connectIdx m clientId = some i := by
  unfold clConnectRx assignClUsr at h
  unfold connectIdx
  split at h
  · cases h
  · rename_i hid
    rw [if_neg hid]
    split at h
    · cases h
    · rename_i i₁ m₁ he
      cases h
      cases hfind : findClUsr m.users clientId with
      | mk free found =>
        rw [hfind] at he
        cases found with
        | some k =>
          simp only at he ⊢
          split at he
          · cases he
          · rename_i hconn
            cases he
            rw [if_neg hconn]
        | none =>
          cases free with
          | none => cases he
          | some k =>
            cases he
            rfl

/-- The condition is about the state before the client is assigned. -/
theorem ResumeOk.setUser {m : ClMgmt} {i : ClIdx} {u : ClientUsr}
    (htx : u.qos2TxCq = (m.users i).qos2TxCq) (h : ResumeOk m i) : ResumeOk (m.setUser i u) i := by
  have hsends : resumeSends (m.setUser i u) i = resumeSends m i := by
    unfold resumeSends
    rw [setUser_users_self, htx, setUser_env, setUser_qosAck1Wl]
  unfold ResumeOk at h ⊢
  rw [hsends]
  exact h

/-- A clean session starts: what was held for the client is gone. -/
theorem cleanSession_carries {m : ClMgmt} (h : KeepInv m) {i : ClIdx} {u : ClientUsr}
    (hctx : u.ctx ≠ none) (ha : u.assigned = false) (hconn : u.connected = true) (op : ClOp) :
    Carries m (sessionDelete (m.setUser i u) i) op (some i) := by
  have hne : ∀ {j}, some i ≠ some j → j ≠ i := fun he hj => he (by rw [hj])
  have hset : KeepInv (m.setUser i { u with
      qos2TxCq := qos2PubCqReset, qos2RxCq := qos2PubCqReset }) :=
    h.setUser (fun _ => rep_self rep_reset) (fun _ => hctx) ha fun hc => by
      rw [hconn] at hc
      cases hc
  refine ⟨hset.of_users ?_, fun j hj he => ?_, fun j msg _ _ he _ hheld => ?_⟩
  · unfold Server.sessionDelete
    simp only [setUser_users_self]
    unfold ClMgmt.setUser
    simp only [Function.update_idem]
  · unfold Server.sessionDelete
    simp only [Function.update_of_ne (hne he), setUser_users_ne _ _ (hne he), hj]
  · refine sessionDelete_inWl (hne he) ?_
    exact hheld.mono (setUser_users_ne _ _ (hne he)) (fun hin => hin) fun hin => hin

/-- A persistent session goes on: what was kept while the client was away waits for its
acknowledgement now. -/
theorem resumed_carries {m m' : ClMgmt} {i : ClIdx} {u : ClientUsr}
    (haway : (m.users i).connected = false) (htx : u.qos2TxCq = (m.users i).qos2TxCq)
    (hinv : KeepInv (m.setUser i u)) (hclean : u.cleanSession = false)
    (hres : Resumed (m.setUser i u) m' i) (op : ClOp) : Carries m m' op none := by
  obtain ⟨l, hl⟩ := hres.acks
  refine ⟨hinv.of_users hres.users, fun j hj _ => ?_, fun j msg hq _ _ _ hheld => ?_⟩
  · rw [hres.users]
    by_cases hji : j = i
    · rw [hji, setUser_users_self, hclean]
    · rw [setUser_users_ne _ _ hji, hj]
  · by_cases hji : j = i
    · subst hji
      rcases hheld with hack | ⟨-, hsess⟩ | htx'
      · exact .inl (hack.append hl)
      · exact .inl (hres.moved msg hq hsess)
      · refine .inr (.inr ?_)
        rwa [hres.users, setUser_users_self, htx]
    · refine hheld.mono ?_ (fun hin => hin.append hl) (hres.others j msg hji)
      rw [hres.users, setUser_users_ne _ _ hji]

theorem connect_carries {m : ClMgmt} (h : KeepInv m) (ctx : Nat) {cleanSession : Bool}
    {clientId : Option (List UInt8)} (will : Option Nat)
    (hok : cleanSession = false → ∀ i, connectIdx m clientId = some i → ResumeOk m i) (op : ClOp) :
    ∃ m' e, clStep m (.connect ctx cleanSession clientId will) = some (m', e) ∧
      Carries m m' op e := by
  unfold clStep
  simp only
  cases hrx : clConnectRx m ctx cleanSession clientId will with
  | none => exact ⟨m, none, rfl, h.carries_env rfl rfl rfl _ _⟩
  | some p =>
    obtain ⟨i, present, m₁⟩ := p
    have hidx := clConnectRx_idx hrx
    obtain ⟨u, rfl, hu, hctx⟩ := clConnectRx_spec hrx
    have hsome : u.ctx ≠ none := by
      rw [hctx]
      exact Option.some_ne_none _
    unfold clOnConnackSend
    simp only [setUser_users_self, hu.assigned, if_true, setUser_setUser]
    cases cleanSession with
    | true =>
      exact ⟨_, _, rfl, cleanSession_carries (u := { u with
        assigned := false, cleanSession := true, connected := true }) h hsome rfl rfl op⟩
    | false =>
      have hrep := h.tx i (h.away i hu.away)
      have hinv : KeepInv (m.setUser i
          { u with assigned := false, cleanSession := false, connected := true }) :=
        h.setUser (fun _ => by simpa only [hu.txQueue] using hrep) (fun _ => hsome) rfl nofun
      obtain ⟨m', he, hres⟩ := sessionResume_spec hinv (i := i)
        (by rw [setUser_users_self]) (by rw [setUser_users_self])
        (ResumeOk.setUser hu.txQueue (hok rfl i hidx))
      simp only [Bool.false_eq_true, if_false, he]
      exact ⟨m', none, rfl, resumed_carries (u := { u with
        assigned := false, cleanSession := false, connected := true }) hu.away hu.txQueue hinv rfl
        hres op⟩

/-! ## Every step -/

theorem subCount_carries {m : ClMgmt} (h : KeepInv m) (i : ClIdx) (n : Nat) (op : ClOp)
    (e : Option ClIdx) :
    Carries m (if (m.users i).connected then m.setUser i { m.users i with nSub := n } else m) op
      e := by
  split
  · apply h.carries_setUser
    · rfl
    · exact h.ctx i
    · exact h.assigned i
    · rfl
    · rfl
  · exact h.carries_env rfl rfl rfl op e

theorem pubMsgSend_accepted {m m' : ClMgmt} (h : KeepInv m) {topic data : List UInt8}
    {qos : MqttQos} {retain : Bool} {clMap : BitVec 32}
    (hok : LossFree m (.pubMsgSend topic data qos retain clMap))
    (he : pubMsgSend m topic data qos retain clMap = some m') {i : ClIdx} {msg : Mqp}
    (hacc : (ClOp.pubMsgSend topic data qos retain clMap).accepts m i msg) : Held m' i msg := by
  obtain ⟨hmem, hbit, hq, hfree, hclean, rfl⟩ := hacc
  obtain ⟨hsends, hcopy⟩ := hok hq hmem
  have happ := pubMsgSend_appends h.ctx topic data qos retain clMap
  rw [he] at happ
  obtain ⟨m₁, hm₁, happ⟩ := happ
  cases hm₁
  rw [pubMsgSend_eq, if_pos hmem, if_pos (ne_zero_of_bit hbit)] at he
  have hqueues := clPubDispatch_queues (m := msgIdAssigned m qos) (h.ctx.of_users rfl) he hq hbit
  rw [if_neg hq] at hqueues
  have hu : (msgIdAssigned m qos).users = m.users := rfl
  have hsend : (msgIdAssigned m qos).env.sendOk = m.env.sendOk := rfl
  have hlen : (msgIdAssigned m qos).env.sends.length = m.env.sends.length := rfl
  have hd := DispatchOk.congr hu hsend (fun _ _ => Eq.refl _) hsends
  rw [← hlen] at hd
  cases hconn : (m.users i).connected with
  | true =>
    exact .inl (hqueues.1 hd hconn hclean)
  | false =>
    have hin : (m.users i).isInactive = true := by
      unfold ClientUsr.isFree at hfree
      unfold ClientUsr.isInactive
      have hflag : (m.users i).flagless = true := by
        unfold ClientUsr.flagless
        rw [hconn, hclean, h.assigned i]
        rfl
      rw [hflag, Bool.true_and] at hfree ⊢
      rw [hfree]
      rfl
    refine .inr (.inl ⟨?_, hqueues.2 (hcopy ⟨i, hbit, hin⟩) hin⟩)
    rw [happ.users, hconn]

theorem clStep_carries {m m' : ClMgmt} {op : ClOp} {e : Option ClIdx} (h : KeepInv m)
    (hok : LossFree m op) (hs : clStep m op = some (m', e)) : Carries m m' op e := by
  cases op with
  | pubMsgSend topic data qos retain clMap =>
    obtain ⟨m₁, he, happ⟩ := pubMsgSend_appends h.ctx topic data qos retain clMap
    unfold clStep at hs
    simp only [he] at hs
    cases hs
    exact happ.carries h _ _
  | connect ctx cleanSession clientId will =>
    obtain ⟨m₁, e₁, he, hcarries⟩ := connect_carries h ctx will hok
      (.connect ctx cleanSession clientId will)
    obtain ⟨rfl, rfl⟩ := Prod.mk.inj (Option.some.inj (he.symm.trans hs))
    exact hcarries
  | onNetClose i =>
    unfold clStep at hs
    simp only at hs
    split at hs
    · rename_i hconn
      cases hs
      exact clOnNetClose_carries h hconn _
    · cases hs
      exact h.carries_env rfl rfl rfl _ _
  | notifyAck i t id =>
    unfold clStep clNotifyAck at hs
    simp only at hs
    split at hs
    · rename_i hconn
      have hack := hok hconn
      cases t with
      | puback =>
        cases hs
        exact puback_carries h hack
      | pubrec =>
        simp only at hs
        split at hs
        · cases hs
        · rename_i ok m₁ he
          cases hs
          exact pubrec_carries h hack he
      | pubrel =>
        simp only at hs
        split at hs
        · cases hs
        · rename_i ok m₁ he
          cases hs
          exact pubrel_carries h he _ _
      | pubcomp =>
        simp only at hs
        cases he : qos2PubCqUnlog (m.users i).qos2TxCq id with
        | none =>
          rw [he] at hs
          cases hs
        | some p =>
          rw [he] at hs
          cases hs
          exact pubcomp_carries h hack he
    · cases hs
      exact h.carries_env rfl rfl rfl _ _
  | vhMsgSend i t id =>
    cases hs
    exact h.carries_env (mqttVhMsgSend_users ..) (mqttVhMsgSend_qosAck1Wl ..)
      (mqttVhMsgSend_sessMqpWl ..) _ _
  | qos2PubRxUpdate i id =>
    unfold clStep clMgmtQos2PubRxUpdate at hs
    simp only at hs
    split at hs
    · cases hs
    · rename_i he
      cases hs
      split at he
      · cases he
      · cases he
        exact h.carries_env rfl rfl rfl _ _
      · split at he
        · cases he
        · cases he
          apply h.carries_setUser
          · rfl
          · exact h.ctx i
          · exact h.assigned i
          · rfl
          · rfl
  | subCount i add =>
    cases hs
    cases add with
    | true => exact subCount_carries h i _ _ _
    | false => exact subCount_carries h i _ _ _

theorem unlog_returns {cq : PubQos2Cq} {q : List UInt16} (h : Rep cq q) (id : UInt16) :
    (qos2PubCqUnlog cq id).isSome := by
  cases q with
  | nil =>
    rw [unlog_empty h]
    rfl
  | cons hd q =>
    rw [unlog_cons h]
    split <;> rfl

theorem clNotifyAck_returns {m : ClMgmt} (h : KeepInv m) {i : ClIdx}
    (hclean : (m.users i).cleanSession = false) {t : AckType} (ht : t ≠ .pubrel) (id : UInt16) :
    (clNotifyAck m i t id).isSome := by
  have hrep := h.tx i hclean
  unfold clNotifyAck
  cases t with
  | puback => rfl
  | pubrel => exact absurd rfl ht
  | pubcomp =>
    obtain ⟨p, hp⟩ := Option.isSome_iff_exists.1 (unlog_returns hrep id)
    simp only [hp]
    rfl
  | pubrec =>
    unfold procPubRecRx
    simp only
    split
    · rfl
    · obtain ⟨cq, he, -⟩ := logup_rep hrep id
      rw [he]
      cases (Fifo.logup (m.users i).qos2TxCq.recorded id).2 <;> rfl

theorem clStep_returns {m : ClMgmt} {op : ClOp} (h : KeepInv m) (hok : LossFree m op)
    (hout : op.outbound m) : (clStep m op).isSome := by
  cases op with
  | pubMsgSend topic data qos retain clMap =>
    obtain ⟨m₁, he, -⟩ := pubMsgSend_appends h.ctx topic data qos retain clMap
    unfold clStep
    simp only [he]
    rfl
  | connect ctx cleanSession clientId will =>
    obtain ⟨m₁, e₁, he, -⟩ := connect_carries h ctx will hok
      (.connect ctx cleanSession clientId will)
    rw [he]
    rfl
  | onNetClose i =>
    unfold clStep
    simp only
    split <;> rfl
  | notifyAck i t id =>
    obtain ⟨p, hp⟩ := Option.isSome_iff_exists.1 (clNotifyAck_returns h hout.2 hout.1 id)
    unfold clStep
    simp only [hp]
    split <;> rfl
  | vhMsgSend i t id => rfl
  | qos2PubRxUpdate i id => exact False.elim hout
  | subCount i add => rfl

theorem keepsMessages {m : ClMgmt} {op : ClOp} (h : KeepInv m) (hok : LossFree m op) :
    KeepsMessages m op where
  returns := clStep_returns h hok
  accepted m' e hs i msg hacc := by
    cases op with
    | pubMsgSend topic data qos retain clMap =>
      unfold clStep at hs
      simp only at hs
      split at hs
      · cases hs
      · rename_i m₁ he
        cases hs
        exact pubMsgSend_accepted h hok he hacc
    | _ => exact False.elim hacc
  kept m' e hs := (clStep_carries h hok hs).kept

/-- **No message is lost in the runs whose steps meet the condition**: what is accepted for a client
with a persistent session is queued for it, in every later state, until the client acknowledges it
or the session ends. -/
theorem no_message_lost (sendOk mallocOk : Nat → Bool) (ops : List ClOp)
    (hops : Meets clStep LossFree (clMgmtInit sendOk mallocOk) ops) :
    Meets clStep KeepsMessages (clMgmtInit sendOk mallocOk) ops ∧
      ∀ before op after, ops = before ++ op :: after →
        ∀ m₀ es₀, runs clStep (clMgmtInit sendOk mallocOk) before = some (m₀, es₀) →
        ∀ m₁ e, clStep m₀ op = some (m₁, e) → ∀ i msg, op.accepts m₀ i msg →
        ∀ m₂ es, runs clStep m₁ after = some (m₂, es) →
          (∀ op ∈ after, ¬op.retires i msg) → (∀ e ∈ es, e ≠ some i) → Held m₂ i msg := by
  have hinit := keepInv_init sendOk mallocOk
  have hinv : ∀ {m op m' e}, KeepInv m → LossFree m op → clStep m op = some (m', e) → KeepInv m' :=
    fun h hok hs => (clStep_carries h hok hs).inv
  refine ⟨hops.imp (I := KeepInv) (E := KeepsMessages) keepsMessages hinv hinit, ?_⟩
  rintro before op after rfl m₀ es₀ hbefore m₁ e hs i msg hacc m₂ es hafter hret hended
  obtain ⟨hpre, hpost⟩ := hops.append hbefore
  have h₀ := hpre.preserves hinv hinit hbefore
  have hcarries := clStep_carries h₀ hpost.1 hs
  have hacc' := (keepsMessages h₀ hpost.1).accepted m₁ e hs i msg hacc
  cases op with
  | pubMsgSend topic data qos retain clMap =>
    obtain ⟨-, -, hq, -, hclean, hmsg⟩ := hacc
    have hqos : msg.qos ≠ .qos0 := by
      rw [hmsg]
      exact hq
    have he : e ≠ some i := by
      unfold clStep at hs
      simp only at hs
      split at hs
      · cases hs
      · cases hs
        exact nofun
    have hrun := Meets.carries (Q := fun op => ¬ClOp.retires i msg op) (R := fun e => e ≠ some i)
      (I := fun m => KeepInv m ∧ (m.users i).cleanSession = false ∧ Held m i msg)
      (fun {m op m' e} hI hok hs hQ hR => by
        have hstep := clStep_carries hI.1 hok hs
        exact ⟨hstep.inv, hstep.persistent i hI.2.1 hR,
          hstep.kept i msg hqos hI.2.1 hR hQ hI.2.2⟩)
      ⟨hcarries.inv, hcarries.persistent i hclean he, hacc'⟩ (hpost.next hs) hafter hret hended
    exact hrun.2.2
  | _ => exact False.elim hacc

/-- One message is retired, another one is queued while the client is away and after it is back. -/
theorem no_message_lost_reconnect :
    Meets clStep KeepsMessages (clMgmtInit allOk allOk)
      [.connect 7 false (some [0x61]) none, .pubMsgSend [0x74] [] .qos1 false 1#32,
        .notifyAck 0 .puback 1, .onNetClose 0, .pubMsgSend [0x74] [] .qos2 false 1#32,
        .connect 8 false (some [0x61]) none, .notifyAck 0 .pubrec 3, .notifyAck 0 .pubcomp 3] :=
  (no_message_lost allOk allOk _ (by decide)).1

/-- A failed send loses the message, and so does `sess_wl_mqp_dispatch` when the first packet is for
another client. -/
theorem failed_send_loses_message :
    ¬Meets clStep KeepsMessages (clMgmtInit (fun _ => false) allOk)
      [.connect 7 false (some [0x61]) none, .pubMsgSend [0x74] [] .qos1 false 1#32] ∧
    ¬Meets clStep KeepsMessages (clMgmtInit allOk allOk)
      [.connect 7 false (some [0x61]) none, .connect 8 false (some [0x62]) none, .onNetClose 0,
        .onNetClose 1, .pubMsgSend [0x74] [] .qos1 false 2#32,
        .pubMsgSend [0x74] [] .qos1 false 1#32, .connect 9 false (some [0x61]) none] := by
  constructor
  · rintro ⟨-, h, -⟩
    have hheld := h.accepted _ _ rfl 0 ⟨.qos1, false, 1, [0x74], [], 0#32⟩
      ⟨rfl, rfl, nofun, rfl, rfl, rfl⟩
    exact absurd hheld (by decide)
  · rintro ⟨-, -, -, -, -, -, h, -⟩
    have hheld := h.kept _ _ rfl 0 ⟨.qos1, false, 3, [0x74], [], 0#32⟩ nofun rfl nofun (fun hh => hh)
      (by decide)
    exact absurd hheld (by decide)

end SimpleLink.Server
