import SimpleLink.Client.PoolRefs

/-!
# The packet pool while a packet is received

A reception has one reference to the packet it receives into: the context's, if an
earlier call left it there, else the call's. `Receiving` says so; it holds from
`mqpSetup` to the last statement of `mqp_setup_proc_ctx_data_recv`, which gives the
reference up. Runs of the library come last.
-/

namespace SimpleLink.Client

open SimpleLink.Lib SimpleLink.Mqtt Finset

variable {numMqp : Nat} {l l' : ClientLib} {fl : List Nat} {ex : Option CtxIdx} {c : CtxIdx}
  {i : Nat}

/-! ## Before a reception -/

theorem clCtxSeg1Send_fails {isConnMsg : Bool} (len : Nat) (txMqp : Option Nat)
    (ha : attempts (l.ctxs c) isConnMsg) (hz : l.takes l.nSends = 0) :
    clCtxSeg1Send l c len isConnMsg txMqp =
      (doNetCloseTx { l.setCtx c { l.ctxs c with
        txPart := { (l.ctxs c).txPart with txMqp := txMqp, length := len } } with
        nSends := l.nSends + 1 } c, false) := by
  rw [clCtxSeg1Send_attempts len txMqp ha]
  unfold clCtxPartSend
  simp only
  rw [if_neg (by change ¬ 0 < l.takes l.nSends; omega)]
  rfl

theorem pingreqSend_fails (user : Bool) (ha : attempts (l.ctxs c) false)
    (hz : l.takes l.nSends = 0) :
    pingreqSend l c user = (doNetCloseTx { l.setCtx c { l.ctxs c with
      txPart := { (l.ctxs c).txPart with txMqp := none, length := 2 } } with
      nSends := l.nSends + 1 } c, false) := by
  unfold pingreqSend
  simp only
  rw [clCtxSeg1Send_fails 2 none ha hz]
  rfl

theorem pingreqSend_taken (user : Bool) (ha : attempts (l.ctxs c) false)
    (ht : 0 < l.takes l.nSends) : (pingreqSend l c user).2 = true := by
  unfold pingreqSend
  simp only
  rw [if_pos]
  rw [clCtxSeg1Send_attempts 2 none ha]
  apply (clCtxPartSend_ok _).1
  exact ht

theorem pingreqSend_refused (user : Bool) (ha : ¬ attempts (l.ctxs c) false) :
    pingreqSend l c user = (l, false) := by
  unfold pingreqSend
  simp only
  rw [clCtxSeg1Send_refused 2 none ha]
  rfl

/-- A send that fails leaves the network to the receiver, or closes it. -/
theorem doNetCloseTx_recvTask (h : (l.cfg c).recvTask = true) :
    doNetCloseTx l c = l.setCtx c { l.ctxs c with networkClose := true } := if_pos h

theorem doNetCloseTx_net (h : (l.cfg c).recvTask = false) :
    ((doNetCloseTx l c).ctxs c).net = false := by
  have hclosed := netClosed_doNetClose l c
  unfold doNetCloseTx
  rw [if_neg (by rw [h]; exact Bool.false_ne_true)]
  simp only [setCtx_ctxs_self]
  split
  · rw [(sameCtxs_freeMqp ..).ctxs]
    exact hclosed.net
  · exact hclosed.net

theorem PoolInv.doNetCloseRx (h : PoolInv numMqp l fl none)
    (hok : (l.ctxs c).net = true → rxCloseOk (l.cfg c) (l.ctxs c) (l.wlMqps c)) :
    PoolInv numMqp (doNetCloseRx l c) fl none := by
  apply h.doNetClose c
  · exact fun hnet => (hok hnet).1
  · intro _
    cases hnet : (l.ctxs c).net with
    | true => exact (hok hnet).2
    | false => exact h.rx c nofun hnet

theorem PoolInv.singleCtxRxPrep (h : PoolInv numMqp l [] none) {expired : Bool}
    (hc : PoolCond l (.rxPrep c expired)) :
    PoolInv numMqp (singleCtxRxPrep l c expired) [] none := by
  have hc : rxPrepCond (l.cfg c) (l.ctxs c) (l.wlMqps c) (l.takes l.nSends) expired := hc
  unfold Client.singleCtxRxPrep
  simp only
  split
  · exact h
  · rename_i hnet
    have hnet : (l.ctxs c).net = true := by simpa using hnet
    have hcond := hc hnet
    split
    · rename_i hclose
      rw [if_pos hclose] at hcond
      exact h.doNetCloseRx fun _ => hcond
    · rename_i hopen
      rw [if_neg hopen] at hcond
      split
      · rename_i hexp
        rw [if_pos hexp] at hcond
        split
        · rename_i hping
          rw [if_pos hping] at hcond
          have hconn : (false ^^ (l.ctxs c).isConnected) = true := by
            simp only [Bool.and_eq_true] at hping
            rw [hping.1]
            rfl
          by_cases hbuf : (l.ctxs c).txPart.bufSz = 0
          · rw [if_pos hbuf] at hcond
            have ha : attempts (l.ctxs c) false := ⟨hconn, hbuf⟩
            by_cases hz : l.takes l.nSends = 0
            · -- the receiver closes what the sender has not closed
              have hcond := hcond hz
              have htx : txCloseOk (l.cfg c) (l.ctxs c) (l.wlMqps c) := by
                by_cases htask : (l.cfg c).recvTask = true
                · exact .inl htask
                · rw [if_neg htask] at hcond
                  exact .inr hcond
              have hinv := h.pingreqSend (c := c) (.inl rfl) (fun _ _ => htx) false
              rw [pingreqSend_fails false ha hz] at hinv ⊢
              simp only [Bool.false_eq_true, if_false]
              apply hinv.doNetCloseRx
              by_cases htask : (l.cfg c).recvTask = true
              · rw [if_pos htask] at hcond
                intro _
                rw [doNetCloseTx_recvTask (by exact htask)]
                unfold rxCloseOk ClientLib.wlMqps
                simp only [setCtx_ctxs_self]
                exact hcond
              · intro hnet'
                have hclosed := (doNetCloseTx_net (by exact Bool.eq_false_iff.2 htask)).symm.trans hnet'
                cases hclosed
            · rw [if_pos (pingreqSend_taken false ha (Nat.pos_of_ne_zero hz))]
              exact h.pingreqSend (.inl rfl) (fun _ hz' => absurd hz' hz) false
          · rw [if_neg hbuf] at hcond
            rw [pingreqSend_refused false fun ha => hbuf ha.2]
            exact h.doNetCloseRx fun _ => hcond
        · rename_i hping
          rw [if_neg hping] at hcond
          exact h.doNetCloseRx fun _ => hcond
      · exact h

/-! ## A reception -/

/-- The reception of `mqp` on a context is under way: its reference is in flight, or with the
context. -/
structure Receiving (numMqp : Nat) (l : ClientLib) (c : CtxIdx) (fl : List Nat) (mqp : RxMqp) :
    Prop where
  inv : PoolInv numMqp l fl (some c)
  refs : ∀ i, fl.count i + (if (l.ctxs c).rxMqp = some (.pool i) then 1 else 0) =
    if mqp = .pool i then 1 else 0
  few : fl.length ≤ 1

/-- The application does not hold the packet, and no other context receives into it. -/
def RxMqp.Own (mqp : RxMqp) (l : ClientLib) (c : CtxIdx) : Prop :=
  ∀ i, mqp = .pool i → i ∉ l.held ∧ ∀ d, d ≠ c → (l.ctxs d).rxMqp ≠ some (.pool i)

variable {mqp : RxMqp}

theorem RxMqp.Own.kept (h : mqp.Own l c) (hk : RxKept l l' c) : mqp.Own l' c := by
  intro i hi
  obtain ⟨hheld, hother⟩ := h i hi
  exact ⟨hk.held ▸ hheld, fun d hd => by rw [hk.other d hd]; exact hother d hd⟩

theorem Receiving.kept (h : Receiving numMqp l c fl mqp) (hinv : PoolInv numMqp l' fl (some c))
    (hrx : ∀ i, (l'.ctxs c).rxMqp = some (.pool i) ↔ (l.ctxs c).rxMqp = some (.pool i)) :
    Receiving numMqp l' c fl mqp where
  inv := hinv
  refs i := by
    rw [← h.refs i]
    simp only [hrx]
  few := h.few

theorem Receiving.rxKept (h : Receiving numMqp l c fl mqp)
    (hinv : PoolInv numMqp l' fl (some c)) (hk : RxKept l l' c) : Receiving numMqp l' c fl mqp :=
  h.kept hinv hk.rx

/-- A context is written, its references and its reception stay. -/
theorem Receiving.setFlags (h : Receiving numMqp l c fl mqp) (x : ClientDesc)
    (hwl : x.qosAck1Wl = (l.ctxs c).qosAck1Wl)
    (htx : x.txPart = (l.ctxs c).txPart)
    (hrx : x.rxMqp = (l.ctxs c).rxMqp)
    (hnet : x.net = false → (l.ctxs c).net = false)
    (hconn : x.net = false → x.nowConnected = true → (l.ctxs c).nowConnected = true) :
    Receiving numMqp (l.setCtx c x) c fl mqp :=
  h.kept (h.inv.setFlags c x hwl htx hrx hnet hconn) fun i => by rw [setCtx_ctxs_self, hrx]

theorem rxKept_setCtx (x : ClientDesc) (hrx : x.rxMqp = (l.ctxs c).rxMqp) :
    RxKept l (l.setCtx c x) c :=
  ⟨rfl, rfl, fun _ hd => setCtx_ctxs_ne _ _ hd, fun i => by rw [setCtx_ctxs_self, hrx]⟩

theorem Receiving.release (h : Receiving numMqp l c fl mqp) {fl' : List Nat}
    (hfl : ∀ i, fl'.count i = if mqp = .pool i then 1 else 0) :
    PoolInv numMqp (l.setCtx c { l.ctxs c with rxMqp := none }) fl' none := by
  apply h.inv.set
  · intro i
    have hi := h.refs i
    unfold ClientDesc.refs
    simp only [reduceCtorEq, if_false, hfl]
    omega
  · exact fun i => .inl (Nat.le_refl _)
  · exact h.inv.tx c
  · exact h.inv.offset c
  · exact h.inv.len c
  · exact h.inv.closed c
  · exact fun _ _ => rfl
  · exact fun i he => nomatch he
  · rintro d hd - he
    exact hd (Option.some.inj he).symm

/-- The reception is not complete: the context has its reference. -/
theorem Receiving.keep (h : Receiving numMqp l c fl mqp) (hown : mqp.Own l c)
    (hnet : (l.ctxs c).net = true) :
    PoolInv numMqp (l.setCtx c { l.ctxs c with rxMqp := some mqp }) [] none := by
  apply h.inv.set
  · intro i
    have hi := h.refs i
    unfold ClientDesc.refs
    simp only [Option.some.injEq, List.count_nil]
    omega
  · exact fun i => .inl (Nat.le_refl _)
  · exact h.inv.tx c
  · exact h.inv.offset c
  · exact h.inv.len c
  · exact h.inv.closed c
  · intro _ hn
    rw [hnet] at hn
    cases hn
  · exact fun i he => .inr (hown i (Option.some.inj he))
  · rintro d hd - he
    exact hd (Option.some.inj he).symm

theorem Receiving.nRefs_ne_zero (h : Receiving numMqp l c fl (.pool i)) :
    (l.mqps i).nRefs ≠ 0 := by
  intro hz
  have hcount := h.inv.counted i
  have hrefs := h.refs i
  have hle := refs_le_holders l c i
  unfold ClientDesc.refs at hle
  rw [hz] at hcount
  rw [if_pos rfl] at hrefs
  simp at hcount
  omega

/-! ### What is sent while a packet is processed -/

theorem txCloseOk_of_rxFailOk {cfg : CtxCfg} {x : ClientDesc} {ws : List Mqp}
    (h : rxFailOk cfg x ws) : txCloseOk cfg x ws := h.imp_right And.left

theorem rxKept_vhMsgSend (hok : rxSendCond (l.cfg c) (l.ctxs c) (l.wlMqps c) (l.takes l.nSends))
    (t : MsgType) (id : UInt16) : RxKept l (vhMsgSend l c t id).1 c := by
  have hsent : RxKept l (clCtxSeg1Send l c 4 false none).1 c :=
    rxKept_clCtxSeg1Send fun ha hz => (hok ha hz).imp_right And.right
  unfold vhMsgSend
  simp only
  split
  · exact hsent.trans ⟨rfl, rfl, fun _ _ => rfl, fun _ => Iff.rfl⟩
  · exact hsent

theorem Receiving.vhMsgSend (h : Receiving numMqp l c fl mqp)
    (hok : rxSendCond (l.cfg c) (l.ctxs c) (l.wlMqps c) (l.takes l.nSends))
    (t : MsgType) (id : UInt16) : Receiving numMqp (vhMsgSend l c t id).1 c fl mqp :=
  h.rxKept (h.inv.vhMsgSend (.inr rfl) (fun ha hz => txCloseOk_of_rxFailOk (hok ha hz)) t id)
    (rxKept_vhMsgSend hok t id)

theorem rxFailOk_congr (h : rxFailOk (l.cfg c) (l.ctxs c) (l.wlMqps c)) (hcontents : SameContents l l')
    (hcfg : l'.cfg = l.cfg) (hclean : (l'.ctxs c).cleanSession = (l.ctxs c).cleanSession)
    (hwl : (l'.ctxs c).qosAck1Wl = (l.ctxs c).qosAck1Wl)
    (hrx : (l'.ctxs c).rxMqp = (l.ctxs c).rxMqp) :
    rxFailOk (l'.cfg c) (l'.ctxs c) (l'.wlMqps c) :=
  h.imp (fun ht => by rwa [hcfg]) fun hand =>
    ⟨closeOk_congr hand.1 (fun i _ => (hcontents i).1) hcfg hclean hwl,
      (rxPartial_congr hrx).trans hand.2⟩

theorem Sent.rxFailOk {len : Nat} (h : Sent l l' c len)
    (hok : rxFailOk (l.cfg c) (l.ctxs c) (l.wlMqps c)) :
    rxFailOk (l'.cfg c) (l'.ctxs c) (l'.wlMqps c) :=
  rxFailOk_congr hok h.contents h.cfg (by rw [h.self]) (by rw [h.self]) (by rw [h.self])

theorem Sent.attempts {len : Nat} (h : Sent l l' c len) (hoffset : (l.ctxs c).txPart.offset = 0) :
    attempts (l'.ctxs c) false ↔
      (l.ctxs c).isConnected = true ∧ len ≤ l.takes l.nSends := by
  have hconn : (l'.ctxs c).isConnected = (l.ctxs c).isConnected := by
    rw [h.self]
    rfl
  unfold Client.attempts
  rw [hconn, Bool.false_xor]
  refine and_congr_right fun _ => ⟨fun hz => ?_, h.whole⟩
  by_contra hlt
  exact h.part hoffset (by omega) hz

theorem sent_vhMsgSend {t : MsgType} {id : UInt16} (hr : (vhMsgSend l c t id).2 = true) :
    Sent l (vhMsgSend l c t id).1 c 4 := by
  unfold vhMsgSend at hr ⊢
  simp only at hr ⊢
  split at hr
  · rename_i hs
    rw [if_pos hs]
    have hsent := clCtxSeg1Send_ok hs
    exact { hsent with }
  · contradiction

theorem attempts_of_vhMsgSend {t : MsgType} {id : UInt16} (hr : (vhMsgSend l c t id).2 = true) :
    attempts (l.ctxs c) false ∧ l.takes l.nSends ≠ 0 := by
  unfold vhMsgSend at hr
  simp only at hr
  by_cases ha : attempts (l.ctxs c) false
  · refine ⟨ha, fun hz => ?_⟩
    rw [clCtxSeg1Send_fails 4 none ha hz] at hr
    cases hr
  · rw [clCtxSeg1Send_refused 4 none ha] at hr
    cases hr

theorem Receiving.ack2MsgIdDispatch {P : Prop} (ids : List UInt16) :
    ∀ {l : ClientLib}, Receiving numMqp l c fl mqp →
      (P → rxFailOk (l.cfg c) (l.ctxs c) (l.wlMqps c)) →
      (attempts (l.ctxs c) false → releaseCond P l.takes l.nSends ids) →
      Receiving numMqp (ack2MsgIdDispatch l c ids) c fl mqp := by
  induction ids with
  | nil => exact fun h _ _ => h
  | cons id ids ih =>
    intro l h hP hc
    have hok : rxSendCond (l.cfg c) (l.ctxs c) (l.wlMqps c) (l.takes l.nSends) := by
      intro ha hz
      have hrel := hc ha
      rw [releaseCond, if_pos hz] at hrel
      exact hP hrel
    have hsent := h.vhMsgSend hok .pubrel id
    unfold Client.ack2MsgIdDispatch
    simp only
    split
    · rename_i hr
      obtain ⟨ha, ht⟩ := attempts_of_vhMsgSend hr
      have hs := sent_vhMsgSend hr
      have hcond := hc ha
      rw [releaseCond, if_neg ht] at hcond
      apply ih hsent fun p => hs.rxFailOk (hP p)
      intro ha'
      rw [hs.takes, hs.nSends]
      have hwhole := ((hs.attempts (h.inv.offset c ha.2)).1 ha').2
      exact hcond.resolve_left (by omega)
    · exact hsent

/-- What sending the wait list again leaves for the PUBRELs. -/
structure Resent (P : Prop) (ids : List UInt16) (l l' : ClientLib) (c : CtxIdx) : Prop where
  failOk : P → rxFailOk (l'.cfg c) (l'.ctxs c) (l'.wlMqps c)
  release : attempts (l'.ctxs c) false → releaseCond P l'.takes l'.nSends ids
  qos2TxCq : (l'.ctxs c).qos2TxCq = (l.ctxs c).qos2TxCq

theorem Receiving.resend (h : Receiving numMqp l c fl mqp) (hi : i ∈ (l.ctxs c).qosAck1Wl)
    (ha : attempts (l.ctxs c) false)
    (hok : l.takes l.nSends = 0 → rxFailOk (l.cfg c) (l.ctxs c) (l.wlMqps c)) :
    Receiving numMqp
      (clCtxSeg1Send (addRef l i) c ((addRef l i).mqps i).len false (some i)).1 c fl mqp := by
  have hcontents := sameContents_addRef l i
  have hholders : 0 < holders l i := by
    have hpos := List.count_pos_iff.2 hi
    have hle := refs_le_holders l c i
    unfold ClientDesc.refs at hle
    omega
  have hfew := h.few
  have hinv := h.inv.addRef (h.inv.nRefs_ne_zero hholders) (by omega)
  have hok' : (addRef l i).takes (addRef l i).nSends = 0 →
      rxFailOk ((addRef l i).cfg c) ((addRef l i).ctxs c) ((addRef l i).wlMqps c) :=
    fun hz => rxFailOk_congr (hok hz) hcontents rfl rfl rfl rfl
  have hlen : ((addRef l i).mqps i).len ≠ 0 := by
    rw [(hcontents i).2.2]
    exact h.inv.len c i hi
  have hsend := PoolInv.clCtxSeg1Send (some i) fl hinv (.inr rfl) hlen (h.inv.net_of_attempts ha) ha
    fun hz => txCloseOk_of_rxFailOk (hok' hz)
  have hadd : RxKept l (addRef l i) c := ⟨rfl, rfl, fun _ _ => rfl, fun _ => Iff.rfl⟩
  exact h.rxKept hsend
    (hadd.trans (rxKept_clCtxSeg1Send fun _ hz => (hok' hz).imp_right And.right))

theorem Receiving.ack1WlMqpDispatch {P : Prop} {ids : List UInt16} (wl : List Nat) :
    ∀ {l : ClientLib} (ms : List Mqp), Receiving numMqp l c fl mqp →
      (P → rxFailOk (l.cfg c) (l.ctxs c) (l.wlMqps c)) →
      attempts (l.ctxs c) false → (∀ i ∈ wl, i ∈ (l.ctxs c).qosAck1Wl) →
      ms.map Mqp.len = wl.map (fun i => (l.mqps i).len) →
      dispatchCond P l.takes ids l.nSends ms →
      Receiving numMqp (ack1WlMqpDispatch l c wl).1 c fl mqp ∧
        ((ack1WlMqpDispatch l c wl).2 = true → Resent P ids l (ack1WlMqpDispatch l c wl).1 c) := by
  induction wl with
  | nil =>
    intro l ms h hP ha _ hms hc
    obtain rfl : ms = [] := List.map_eq_nil_iff.1 hms
    exact ⟨h, fun _ => ⟨hP, fun _ => hc, rfl⟩⟩
  | cons i wl ih =>
    intro l ms h hP ha hwl hms hc
    obtain ⟨m, ms, rfl⟩ : ∃ m ms', ms = m :: ms' := by
      cases ms with
      | nil => cases hms
      | cons m ms => exact ⟨m, ms, rfl⟩
    obtain ⟨hm, hms⟩ := List.cons.inj hms
    rw [dispatchCond] at hc
    have hcontents := sameContents_addRef l i
    have hlen : ((addRef l i).mqps i).len = m.len := (hcontents i).2.2.trans hm.symm
    have hrecv := h.resend (hwl i List.mem_cons_self) ha fun hz => by
      rw [if_pos hz] at hc
      exact hP hc
    unfold Client.ack1WlMqpDispatch
    simp only
    split
    · rename_i hr
      have hs := clCtxSeg1Send_ok hr
      have ht : l.takes l.nSends ≠ 0 := by
        intro hz
        rw [clCtxSeg1Send_fails _ _ (by exact ha) (by exact hz)] at hr
        cases hr
      rw [if_neg ht] at hc
      have hself : ((clCtxSeg1Send (addRef l i) c ((addRef l i).mqps i).len false
          (some i)).1.ctxs c).qos2TxCq = (l.ctxs c).qos2TxCq := by
        rw [hs.self]
        rfl
      have hmore := hs.attempts (h.inv.offset c ha.2)
      generalize clCtxSeg1Send (addRef l i) c ((addRef l i).mqps i).len false (some i) = r
        at hs hrecv hself hmore ⊢
      have hP' : P → rxFailOk (r.1.cfg c) (r.1.ctxs c) (r.1.wlMqps c) :=
        fun p => hs.rxFailOk (rxFailOk_congr (hP p) hcontents rfl rfl rfl rfl)
      rw [hlen] at hmore
      by_cases hlt : l.takes l.nSends < m.len
      · -- sent in part: nothing can follow
        rw [if_pos hlt] at hc
        subst hc
        obtain rfl : wl = [] := List.map_eq_nil_iff.1 hms.symm
        exact ⟨hrecv, fun _ =>
          ⟨hP', fun ha' => absurd hlt (Nat.not_lt.2 (hmore.1 ha').2), hself⟩⟩
      · rw [if_neg hlt] at hc
        have ha' : attempts (r.1.ctxs c) false := by
          have hconn := ha.1
          rw [Bool.false_xor] at hconn
          exact hmore.2 ⟨hconn, Nat.not_lt.1 hlt⟩
        have hrest := ih ms hrecv hP' ha'
          (fun j hj => by rw [hs.self]; exact hwl j (List.mem_cons_of_mem _ hj))
          (hms.trans (List.map_congr_left fun j _ => by
            rw [(hs.contents j).2.2, (hcontents j).2.2]))
          (by rw [hs.takes, hs.nSends]; exact hc)
        refine ⟨hrest.1, fun hr' => ?_⟩
        have hres := hrest.2 hr'
        exact { hres with qos2TxCq := hres.qos2TxCq.trans hself }
    · rename_i hr
      exact ⟨hrecv, fun hr' => absurd hr' hr⟩

theorem Receiving.sessionResume (h : Receiving numMqp l c fl mqp)
    (hconn : (l.ctxs c).nowConnected = true)
    (hc : resumeCond (l.cfg c) (l.ctxs c) (l.wlMqps c) l.takes l.nSends) :
    Receiving numMqp (sessionResume l c) c fl mqp := by
  have hattempts : attempts (l.ctxs c) false ↔
      (l.ctxs c).networkClose = false ∧ (l.ctxs c).txPart.bufSz = 0 := by
    unfold attempts ClientDesc.isConnected
    rw [hconn]
    simp
  unfold resumeCond at hc
  unfold Client.sessionResume
  simp only
  by_cases ha : attempts (l.ctxs c) false
  · rw [if_pos (hattempts.1 ha)] at hc
    have hacks := h.ack1WlMqpDispatch (l.ctxs c).qosAck1Wl (l.wlMqps c) id ha (fun _ hi => hi)
      (by simp [ClientLib.wlMqps]) hc
    split
    · rename_i hr
      have hres := hacks.2 hr
      rw [hres.qos2TxCq]
      exact hacks.1.ack2MsgIdDispatch _ hres.failOk hres.release
    · exact hacks.1
  · rw [if_neg (mt hattempts.2 ha)] at hc
    have hnil : (l.ctxs c).qosAck1Wl = [] := List.map_eq_nil_iff.1 hc
    rw [hnil]
    exact h.ack2MsgIdDispatch _ (P := False) False.elim fun ha' => absurd ha' ha

/-! ### What is done with a packet -/

theorem count_eraseP {wl : List Nat} {p : Nat → Bool} (h : wl.find? p = some i) (j : Nat) :
    (wl.eraseP p).count j + (if i = j then 1 else 0) = wl.count j := by
  obtain ⟨hi, as, bs, rfl, has⟩ := List.find?_eq_some_iff_append.1 h
  rw [List.eraseP_append_right _ (fun a ha => by simpa using has a ha), List.eraseP_cons_of_pos hi,
    List.count_append, List.count_append, List.count_cons]
  simp only [beq_iff_eq]
  omega

theorem ack1WlRmfree_false {msgId : UInt16} (hf : (ack1WlRmfree l c msgId).2 = false) :
    (ack1WlRmfree l c msgId).1 = l ∧ ∀ m ∈ l.wlMqps c, m.msgId ≠ msgId := by
  unfold ack1WlRmfree ackWlistRemove at hf ⊢
  cases hfind : (l.ctxs c).qosAck1Wl.find? fun i => (l.mqps i).msgId == msgId with
  | some i =>
    rw [hfind] at hf
    cases hf
  | none =>
    refine ⟨rfl, fun m hm => ?_⟩
    obtain ⟨i, hi, rfl⟩ := List.mem_map.1 hm
    simpa using List.find?_eq_none.1 hfind i hi

theorem Receiving.ack1WlRmfree (h : Receiving numMqp l c fl mqp) (id : UInt16) :
    Receiving numMqp (ack1WlRmfree l c id).1 c fl mqp := by
  unfold Client.ack1WlRmfree ackWlistRemove
  cases hf : (l.ctxs c).qosAck1Wl.find? fun i => (l.mqps i).msgId == id with
  | none => exact h
  | some i =>
    simp only
    have hcount := count_eraseP hf
    generalize hwl : ((l.ctxs c).qosAck1Wl.eraseP fun i => (l.mqps i).msgId == id) = wl at hcount
    have hinv : PoolInv numMqp (l.setCtx c { l.ctxs c with qosAck1Wl := wl }) (i :: fl) (some c) := by
      apply h.inv.set
      · intro j
        have hj := hcount j
        unfold ClientDesc.refs
        rw [List.count_cons]
        simp only [beq_iff_eq]
        omega
      · intro j
        have hj := hcount j
        exact .inl (by simp only; omega)
      · exact h.inv.tx c
      · exact h.inv.offset c
      · intro j hj
        apply h.inv.len c j
        rw [← hwl] at hj
        exact List.mem_of_mem_eraseP hj
      · exact h.inv.closed c
      · exact h.inv.rx c
      · exact fun j he => .inl ⟨he, fun hne => absurd rfl hne⟩
      · exact fun _ _ => fun hne => hne
    refine h.kept hinv.freeMqp fun j => ?_
    rw [(sameCtxs_freeMqp ..).ctxs, setCtx_ctxs_self]

theorem dropRef_addRef (l : ClientLib) (i : Nat) : dropRef (addRef l i) i = l := by
  unfold dropRef addRef ClientLib.setMqp
  simp only [Function.update_self, Function.update_idem, UInt8.add_sub_cancel,
    Function.update_eq_self]

theorem Receiving.publishRxCb (h : Receiving numMqp l c fl mqp) (hown : mqp.Own l c) (qos : Qos)
    (msgId : UInt16) (keeps : Bool) :
    Receiving numMqp (publishRxCb l c mqp qos msgId keeps) c fl mqp := by
  have hreport : Receiving numMqp (l.report (.publishRx c qos msgId)) c fl mqp :=
    h.kept (h.inv.report _) fun _ => Iff.rfl
  unfold Client.publishRxCb
  split
  · simp only
    cases mqp with
    | app j => exact hreport
    | pool i =>
      simp only
      split
      · obtain ⟨hheld, hother⟩ := hown i rfl
        have hfew := h.few
        have hadd := hreport.inv.addRef hreport.nRefs_ne_zero (by omega)
        refine hreport.kept (hadd.hold hheld fun d hd => ?_) fun _ => Iff.rfl
        exact hother d fun he => hd (by rw [he])
      · rw [dropRef_addRef]
        exact hreport
  · exact h

/-- What processing a packet leaves; the network is closed on an error, and on a CONNACK that refuses
the connection. -/
structure Processed (numMqp : Nat) (l : ClientLib) (c : CtxIdx) (fl : List Nat) (mqp : RxMqp)
    (fails : Prop) : Prop where
  recv : Receiving numMqp l c fl mqp
  close : fails → closeOk (l.cfg c) (l.ctxs c) (l.wlMqps c)

theorem Receiving.processed (h : Receiving numMqp l c fl mqp) {fails : Prop} (hn : ¬ fails) :
    Processed numMqp l c fl mqp fails := ⟨h, fun hf => absurd hf hn⟩

theorem closeOk_setCtx (x : ClientDesc) (h : closeOk (l.cfg c) (l.ctxs c) (l.wlMqps c))
    (hclean : x.cleanSession = (l.ctxs c).cleanSession)
    (hwl : x.qosAck1Wl = (l.ctxs c).qosAck1Wl) :
    closeOk ((l.setCtx c x).cfg c) ((l.setCtx c x).ctxs c) ((l.setCtx c x).wlMqps c) :=
  closeOk_congr h (fun _ _ => rfl) rfl (by rw [setCtx_ctxs_self, hclean])
    (by rw [setCtx_ctxs_self, hwl])

theorem rxSendCond_setCtx (x : ClientDesc)
    (h : rxSendCond (l.cfg c) x (x.qosAck1Wl.map l.mqps) (l.takes l.nSends)) :
    rxSendCond ((l.setCtx c x).cfg c) ((l.setCtx c x).ctxs c) ((l.setCtx c x).wlMqps c)
      ((l.setCtx c x).takes (l.setCtx c x).nSends) := by
  unfold ClientLib.wlMqps
  rw [setCtx_ctxs_self]
  exact h

theorem rxSendCond_freeMqp (i : Nat)
    (h : rxSendCond (l.cfg c) (l.ctxs c) (l.wlMqps c) (l.takes l.nSends)) :
    rxSendCond ((freeMqp l i).cfg c) ((freeMqp l i).ctxs c) ((freeMqp l i).wlMqps c)
      ((freeMqp l i).takes (freeMqp l i).nSends) := by
  have hsame := sameCtxs_freeMqp l i
  intro ha hz
  rw [hsame.ctxs] at ha
  rw [hsame.takes, hsame.nSends] at hz
  exact rxFailOk_congr (h ha hz) (sameContents_freeMqp l i) hsame.cfg (by rw [hsame.ctxs])
    (by rw [hsame.ctxs]) (by rw [hsame.ctxs])

theorem Receiving.procConnackRx (h : Receiving numMqp l c fl mqp) (hnet : (l.ctxs c).net = true)
    (accepted : Bool)
    (hc : if accepted then (l.ctxs c).cleanSession = true ∨
        resumeCond (l.cfg c) (l.ctxs c) (l.wlMqps c) l.takes l.nSends
      else closeOk (l.cfg c) (l.ctxs c) (l.wlMqps c)) :
    Processed numMqp (procConnackRx l c accepted) c fl mqp (accepted = false) := by
  have hawait := h.setFlags { l.ctxs c with connackAwait := false }
    rfl rfl rfl id fun _ => id
  unfold Client.procConnackRx
  simp only
  cases accepted with
  | false => exact ⟨hawait, fun _ => closeOk_setCtx _ hc rfl rfl⟩
  | true =>
    apply Receiving.processed _ nofun
    have hself : (l.setCtx c { l.ctxs c with connackAwait := false }).ctxs c =
        { l.ctxs c with connackAwait := false } := setCtx_ctxs_self ..
    have hconn := hawait.setFlags { l.ctxs c with connackAwait := false, nowConnected := true }
      (by rw [hself]) (by rw [hself]) (by rw [hself])
      (fun hn => by rw [hself]; exact hn)
      fun hn _ => by rw [hnet] at hn; cases hn
    simp only [if_true]
    rw [hself]
    split
    · refine hconn.kept (hconn.inv.sessionDelete c) fun i => ?_
      rw [sessionDelete_ctxs_self]
    · rename_i hclean
      rw [setCtx_ctxs_self] at hclean
      have hres : resumeCond (l.cfg c) (l.ctxs c) (l.wlMqps c) l.takes l.nSends :=
        hc.resolve_left hclean
      apply hconn.sessionResume
      · rw [setCtx_ctxs_self]
      · unfold ClientLib.wlMqps
        rw [setCtx_ctxs_self]
        exact hres

theorem ack1WlRmfree_head {is : List Nat} {msgId : UInt16} (hwl : (l.ctxs c).qosAck1Wl = i :: is)
    (hid : msgId = (l.mqps i).msgId) :
    (ack1WlRmfree l c msgId).1 = freeMqp (l.setCtx c { l.ctxs c with qosAck1Wl := is }) i := by
  have hhead : ((l.mqps i).msgId == msgId) = true := beq_iff_eq.2 hid.symm
  unfold ack1WlRmfree ackWlistRemove
  simp only [hwl, List.find?_cons, List.eraseP_cons, hhead, cond_true]

theorem Receiving.procPubRecRx (h : Receiving numMqp l c fl mqp) {msgId : UInt16} {ok : Bool}
    (hawait : (l.ctxs c).connackAwait = false)
    (hc : recvCond (l.cfg c) (l.ctxs c) (l.wlMqps c) l.takes l.nSends (.pubrec msgId))
    (hp : procPubRecRx l c msgId = some (l', ok)) :
    Processed numMqp l' c fl mqp (ok = false) := by
  unfold recvCond ClientLib.wlMqps at hc
  unfold Client.procPubRecRx at hp
  cases hwl : (l.ctxs c).qosAck1Wl with
  | nil =>
    rw [hwl] at hp
    cases hp
  | cons i is =>
    rw [hwl, hawait] at hc
    rw [hwl] at hp
    simp only [Bool.false_eq_true, if_false, List.map_cons] at hc hp
    have hws : l.wlMqps c = l.mqps i :: is.map l.mqps := by
      unfold ClientLib.wlMqps
      rw [hwl, List.map_cons]
    cases hlog : qos2PubCqLogup (l.ctxs c).qos2TxCq msgId with
    | none =>
      rw [hlog] at hc hp
      simp only at hc hp
      split at hp
      · cases hp
      · rename_i hid
        cases hp
        exact ⟨h, fun _ => hws ▸ hc.resolve_left hid⟩
    | some r =>
      obtain ⟨cq, logged⟩ := r
      rw [hlog] at hc hp
      cases logged with
      | false =>
        simp only [ite_self] at hc hp
        cases hp
        exact ⟨h, fun _ => hws ▸ hc⟩
      | true =>
        simp only at hc hp
        split at hp
        · rename_i hid
          rw [if_pos hid] at hc
          cases hp
          apply Receiving.processed _ nofun
          -- the packet at the head is the one removed
          have hset := h.setFlags { l.ctxs c with qos2TxCq := cq }
            rfl rfl rfl id fun _ => id
          have hwl' : ((l.setCtx c { l.ctxs c with qos2TxCq := cq }).ctxs c).qosAck1Wl = i :: is := by
            rw [setCtx_ctxs_self]
            exact hwl
          have hrm := ack1WlRmfree_head hwl' hid
          apply (hset.ack1WlRmfree msgId).vhMsgSend
          rw [hrm]
          apply rxSendCond_freeMqp i (rxSendCond_setCtx _ _)
          rw [setCtx_ctxs_self]
          exact hc
        · rename_i hid
          rw [if_neg hid] at hc
          cases hp
          exact ⟨h, fun _ => hws ▸ hc⟩

theorem Receiving.procPubRelRx (h : Receiving numMqp l c fl mqp) {msgId : UInt16} {ok : Bool}
    (hc : rxSendCond (l.cfg c) (l.ctxs c) (l.wlMqps c) (l.takes l.nSends))
    (hp : procPubRelRx l c msgId = some (l', ok)) :
    Processed numMqp l' c fl mqp (ok = false) := by
  have hsent := h.vhMsgSend hc .pubcomp msgId
  unfold Client.procPubRelRx at hp
  simp only at hp
  split at hp
  · cases hp
  · cases hp
    exact hsent.processed nofun
  · split at hp
    · cases hp
    · cases hp
      refine Receiving.processed ?_ nofun
      exact hsent.setFlags _ rfl rfl rfl id fun _ => id

theorem Receiving.procPubMsgRx (h : Receiving numMqp l c fl mqp) (hown : mqp.Own l c) {qos : Qos}
    {msgId : UInt16} {keeps ok : Bool} (hawait : (l.ctxs c).connackAwait = false)
    (hc : recvCond (l.cfg c) (l.ctxs c) (l.wlMqps c) l.takes l.nSends (.publish qos msgId keeps))
    (hp : procPubMsgRx l c mqp qos msgId keeps = some (l', ok)) :
    Processed numMqp l' c fl mqp (ok = false) := by
  unfold recvCond at hc
  rw [hawait] at hc
  unfold Client.procPubMsgRx at hp
  cases qos with
  | qos0 =>
    cases hp
    exact (h.publishRxCb hown .qos0 msgId keeps).processed nofun
  | qos1 =>
    cases hp
    have hsent := h.vhMsgSend hc .puback msgId
    exact (hsent.publishRxCb (hown.kept (rxKept_vhMsgSend hc _ _)) .qos1 msgId keeps).processed nofun
  | qos2 =>
    simp only [Bool.false_eq_true, if_false] at hc hp
    cases hcheck : qos2PubCqCheck (l.ctxs c).qos2RxCq msgId with
    | none =>
      rw [hcheck] at hp
      cases hp
    | some dup =>
      rw [hcheck] at hc hp
      cases dup with
      | true =>
        cases hp
        exact h.processed nofun
      | false =>
        cases hlog : qos2PubCqLogup (l.ctxs c).qos2RxCq msgId with
        | none =>
          rw [hlog] at hp
          cases hp
        | some r =>
          obtain ⟨cq, logged⟩ := r
          rw [hlog] at hc hp
          cases logged with
          | false =>
            cases hp
            exact ⟨h, fun _ => hc⟩
          | true =>
            cases hp
            have hset := h.setFlags { l.ctxs c with qos2RxCq := cq }
              rfl rfl rfl id fun _ => id
            have hcond := rxSendCond_setCtx { l.ctxs c with qos2RxCq := cq } hc
            have hown' := (hown.kept (rxKept_setCtx { l.ctxs c with qos2RxCq := cq } rfl)).kept
              (rxKept_vhMsgSend hcond .pubrec msgId)
            exact Receiving.processed
              ((hset.vhMsgSend hcond .pubrec msgId).publishRxCb hown' .qos2 msgId keeps) nofun

theorem Receiving.processRecv (h : Receiving numMqp l c fl mqp) (hown : mqp.Own l c)
    (hnet : (l.ctxs c).net = true) {pkt : RxPkt} {ok : Bool}
    (hc : recvCond (l.cfg c) (l.ctxs c) (l.wlMqps c) l.takes l.nSends pkt)
    (hp : processRecv l c mqp pkt = some (l', ok)) :
    Processed numMqp l' c fl mqp (ok = false ∨ pkt = .connack false) := by
  have hcond := hc
  unfold recvCond at hc
  unfold Client.processRecv at hp
  by_cases hawait : (l.ctxs c).connackAwait = true
  · rw [if_pos hawait] at hc hp
    cases pkt with
    | connack accepted =>
      cases hp
      have hproc : Processed numMqp (Client.procConnackRx l c accepted) c fl mqp
          (accepted = false) := by
        apply h.procConnackRx hnet
        cases accepted with
        | true => exact hc
        | false => exact hc
      exact ⟨hproc.recv, fun hf => hproc.close (by simpa using hf)⟩
    | _ =>
      cases hp
      exact ⟨h, fun _ => hc⟩
  · rw [if_neg hawait] at hc hp
    have hawait : (l.ctxs c).connackAwait = false := Bool.eq_false_iff.2 hawait
    cases pkt with
    | ack msgId =>
      have hp : Client.ack1WlRmfree l c msgId = (l', ok) := Option.some.inj hp
      have hrm := h.ack1WlRmfree msgId
      rw [hp] at hrm
      refine ⟨hrm, fun hf => ?_⟩
      obtain ⟨hsame, hnone⟩ := ack1WlRmfree_false 
        (by rw [hp]; exact hf.resolve_right nofun)
      rw [hp] at hsame
      obtain rfl : l' = l := hsame
      exact hc.resolve_left fun ⟨m, hm, hid⟩ => hnone m hm hid
    | pubrec _ =>
      have hproc := h.procPubRecRx hawait hcond hp
      exact ⟨hproc.recv, fun hf => hproc.close (hf.resolve_right nofun)⟩
    | pubrel _ =>
      have hproc := h.procPubRelRx hc hp
      exact ⟨hproc.recv, fun hf => hproc.close (hf.resolve_right nofun)⟩
    | publish _ _ _ =>
      have hproc := h.procPubMsgRx hown hawait hcond hp
      exact ⟨hproc.recv, fun hf => hproc.close (hf.resolve_right nofun)⟩
    | pubcomp msgId =>
      unfold ack2MsgIdUnlog at hp
      simp only at hc hp
      cases hlog : qos2PubCqUnlog (l.ctxs c).qos2TxCq msgId with
      | none =>
        rw [hlog] at hp
        cases hp
      | some r =>
        obtain ⟨cq, unlogged⟩ := r
        rw [hlog] at hc hp
        cases hp
        refine ⟨h.setFlags _ rfl rfl rfl id fun _ => id, fun hf => ?_⟩
        have hf := hf.resolve_right nofun
        subst hf
        exact closeOk_setCtx _ hc rfl rfl
    | pingrsp =>
      unfold procPingrspRx at hp
      simp only at hc hp
      split at hp
      · cases hp
        refine Receiving.processed ?_ nofun
        exact h.setFlags _ rfl rfl rfl id fun _ => id
      · rename_i hka
        split at hp
        · cases hp
          refine Receiving.processed ?_ nofun
          exact h.setFlags _ rfl rfl rfl id fun _ => id
        · rename_i huser
          cases hp
          exact ⟨h, fun _ => (hc.resolve_left hka).resolve_left huser⟩
    | connack accepted =>
      cases hp
      exact ⟨h, fun _ => hc⟩
    | bad =>
      cases hp
      exact ⟨h, fun _ => hc⟩

/-! ### From `mqp_recv` to the end -/

/-- The packet that is received into: the context's, the application's or a new one. -/
theorem PoolInv.mqpSetup (h : PoolInv numMqp l [] none) {m : Option Nat}
    (hs : mqpSetup l c m = some (mqp, l')) :
    SameCtxs l l' ∧ l'.wlMqps c = l.wlMqps c ∧ mqp.Own l' c ∧
      ∃ fl, Receiving numMqp l' c fl mqp := by
  have hinv := h.weaken (c := c) (.inl rfl)
  have hkept : ∀ mqp, (l.ctxs c).rxMqp = some mqp →
      mqp.Own l c ∧ ∃ fl, Receiving numMqp l c fl mqp := by
    intro mqp hrx
    refine ⟨fun i hi => h.rxOwn c nofun i (by rw [hrx, hi]), [], hinv, fun i => ?_, by simp⟩
    rw [hrx]
    simp
  unfold Client.mqpSetup at hs
  cases m with
  | some j =>
    simp only at hs
    split at hs
    · rename_i hrx
      cases hs
      refine ⟨SameCtxs.refl l, rfl, nofun, [], hinv, fun i => ?_, by simp⟩
      rw [hrx]
      simp
    · rename_i mqp' hrx
      split at hs
      · cases hs
        exact ⟨SameCtxs.refl l, rfl, hkept _ hrx⟩
      · cases hs
  | none =>
    simp only at hs
    split at hs
    · rename_i mqp' hrx
      cases hs
      exact ⟨SameCtxs.refl l, rfl, hkept _ hrx⟩
    · rename_i hrx
      obtain ⟨⟨i, l₁⟩, halloc, he⟩ := Option.map_eq_some_iff.1 hs
      obtain ⟨rfl, rfl⟩ := Prod.mk.inj he
      have hsame := sameCtxs_mqpClientAlloc halloc
      have hfresh := h.fresh halloc
      obtain ⟨-, hnone, -, -⟩ := h.alloc halloc
      refine ⟨hsame, ?_, ?_, [i], hfresh.inv.weaken (.inl rfl), fun j => ?_, by simp⟩
      · apply wlMqps_congr (by rw [hsame.ctxs])
        intro j hj
        exact hfresh.other j fun hji => hfresh.fresh c (hji ▸ hj)
      · rintro j he
        obtain rfl := RxMqp.pool.inj he
        refine ⟨fun hheld => ?_, fun d _ hd => ?_⟩
        · have hpos : 0 < holders l₁ i := holders_pos_of_held hheld
          omega
        · have hle := refs_le_holders l₁ d i
          unfold ClientDesc.refs at hle
          rw [if_pos hd] at hle
          omega
      · rw [hsame.ctxs, hrx]
        simp [List.count_singleton]

def rxCond (l : ClientLib) (c : CtxIdx) : RxEvent → Prop
  | .timeout => True
  | .error => closeOk (l.cfg c) (l.ctxs c) (l.wlMqps c)
  | .packet pkt => recvCond (l.cfg c) (l.ctxs c) (l.wlMqps c) l.takes l.nSends pkt

theorem Receiving.doNetCloseRx (h : Receiving numMqp l c fl mqp)
    (hok : closeOk (l.cfg c) (l.ctxs c) (l.wlMqps c)) :
    Receiving numMqp (doNetCloseRx l c) c fl mqp := by
  apply h.kept (h.inv.doNetClose c (fun _ => hok) fun hne => absurd rfl hne)
  intro i
  rw [(netClosed_doNetClose l c).rxMqp]

theorem Receiving.procCtxDataRecv (h : Receiving numMqp l c fl mqp) (hown : mqp.Own l c)
    (hnet : (l.ctxs c).net = true) {evt : RxEvent} (hc : rxCond l c evt)
    (hp : procCtxDataRecv l c mqp evt = some l') : Receiving numMqp l' c fl mqp := by
  unfold Client.procCtxDataRecv at hp
  cases evt with
  | timeout =>
    cases hp
    exact h
  | error =>
    cases hp
    exact h.doNetCloseRx hc
  | packet pkt =>
    simp only at hp
    split at hp
    · cases hp
    · rename_i l₁ ok hproc
      have hdone := h.processRecv hown hnet hc hproc
      split at hp
      · rename_i hfail
        cases hp
        apply hdone.recv.doNetCloseRx (hdone.close _)
        simpa using hfail
      · cases hp
        exact hdone.recv

theorem PoolInv.mqpSetupProcCtxDataRecv (h : PoolInv numMqp l [] none) {m : Option Nat}
    {evt : RxEvent} (hnet : (l.ctxs c).net = true) (hc : PoolCond l (.recv c m evt))
    (hp : mqpSetupProcCtxDataRecv l c m evt = some l') : PoolInv numMqp l' [] none := by
  unfold Client.mqpSetupProcCtxDataRecv at hp
  split at hp
  · cases hp
    exact h
  · rename_i mqp l₁ hset
    obtain ⟨hsame, hws, hown, fl, hrecv⟩ := h.mqpSetup hset
    have hnet₁ : (l₁.ctxs c).net = true := by rw [hsame.ctxs, hnet]
    have hcond : rxCond l₁ c evt := by
      have hcond := hc hnet (by rw [hset]; rfl)
      unfold rxCond
      rw [hsame.cfg, hsame.ctxs, hws, hsame.takes, hsame.nSends]
      cases evt with
      | timeout => trivial
      | error => exact hcond
      | packet pkt => exact hcond
    split at hp
    · cases hp
    · rename_i l₂ hproc
      split at hp
      · rename_i htime
        subst htime
        cases hp
        cases hproc
        exact hrecv.keep hown hnet₁
      · have hdone := hrecv.procCtxDataRecv hown hnet₁ hcond hproc
        simp only at hp
        cases mqp with
        | pool i =>
          cases hp
          apply PoolInv.freeMqp
          apply hdone.release
          simp [List.count_singleton]
        | app j =>
          cases hp
          apply hdone.release
          simp

/-! ## Runs -/

theorem PoolInv.forget (h : PoolInv numMqp l [] none) :
    PoolInv numMqp { l with log := [] } [] none :=
  h.mqps { l with log := [] } rfl rfl h.counted h.range h.free h.nodup h.len

theorem PoolCond.forget {op : ClOp} (h : PoolCond l op) : PoolCond { l with log := [] } op := by
  cases op with
  | recv c m evt =>
    intro hnet hset
    refine h hnet ?_
    have hsame : (mqpSetup { l with log := [] } c m).isSome = (mqpSetup l c m).isSome := by
      cases m with
      | some j =>
        unfold mqpSetup
        simp only
        split
        · rfl
        · split <;> rfl
      | none =>
        unfold mqpSetup mqpClientAlloc
        simp only
        split
        · rfl
        · split <;> rfl
    rwa [hsame] at hset
  | _ => exact h

theorem PoolInv.clOp (h : PoolInv numMqp l [] none) {op : ClOp} (hc : PoolCond l op)
    (hs : clOp l op = some l') : PoolInv numMqp l' [] none := by
  unfold Client.clOp at hs
  cases op with
  | connect c clean opened fits n =>
    cases hs
    exact h.connectMsgSend hc
  | send c t qos fits n =>
    cases hs
    exact h.mqpMsgSend hc
  | alloc t =>
    simp only at hs
    split at hs
    · cases hs
      exact h
    · rename_i i l₁ halloc
      cases hs
      exact h.allocHeld halloc
  | free i =>
    cases hs
    split
    · rename_i hi
      exact h.freeHeld hi
    · exact h
  | dispatch c i qos id n =>
    cases hs
    split
    · rename_i hi
      exact h.msgDispatchNoFree hi hc
    · exact h
  | pingreq c =>
    cases hs
    exact h.pingreqSend (.inl rfl) hc true
  | disconn c =>
    cases hs
    exact h.mqttDisconnSend hc
  | progress c =>
    cases hs
    exact h.mqttClientSendProgress hc
  | rxPrep c expired =>
    cases hs
    exact h.singleCtxRxPrep hc
  | recv c m evt =>
    simp only at hs
    split at hs
    · rename_i hnet
      exact h.mqpSetupProcCtxDataRecv hnet hc hs
    · cases hs
      exact h
  | delete c =>
    cases hs
    exact h.mqttClientCtxDelete c

theorem PoolInv.clStep (h : PoolInv numMqp l [] none) {op : ClOp} (hc : PoolCond l op)
    {out : List Obs} (hs : clStep l op = some (l', out)) : PoolInv numMqp l' [] none := by
  unfold Client.clStep at hs
  split at hs
  · cases hs
  · rename_i l₁ hop
    cases hs
    exact h.forget.clOp hc.forget hop

/-- Between the steps a packet has a reference for each holder. -/
theorem PoolInv.exact (h : PoolInv numMqp l [] none) : PoolExact numMqp l where
  counted i _ := by
    rw [h.counted, List.count_nil, Nat.add_zero]
  free i hi := by
    rw [h.free, and_iff_right hi]
  nodup := h.nodup
  recovered hpurged hheld i hi := by
    rw [h.free]
    refine ⟨hi, ?_⟩
    rw [← UInt8.toNat_inj, h.counted]
    unfold holders
    rw [hheld, List.count_nil, Nat.add_zero]
    apply sum_eq_zero
    intro c _
    obtain ⟨hnet, hwl⟩ := hpurged c
    unfold ClientDesc.refs
    simp [hwl, (h.closed c hnet).1, not_pool (h.rx c nofun hnet) i]

/-- **In the runs whose steps meet the condition, no reference to a packet is lost and none is left
over.** -/
theorem client_pool_conserved (cfg : CtxIdx → CtxCfg) (takes : Nat → Nat) (numMqp : Nat)
    (ops : List ClOp) (h : Meets clStep PoolCond (clientInit cfg takes numMqp) ops)
    (l : ClientLib) (outs : List (List Obs))
    (hr : runs clStep (clientInit cfg takes numMqp) ops = some (l, outs)) : PoolExact numMqp l :=
  PoolInv.exact (Meets.preserves (I := fun l => PoolInv numMqp l [] none)
    (fun hinv hc hs => hinv.clStep hc hs) (poolInv_init cfg takes numMqp) h hr)

local instance neZero_publishOnce : NeZero maxNwconn := ⟨by decide⟩

def publishOnce : List ClOp :=
  [.connect 0 true true true 20, .recv 0 none (.packet (.connack true)),
    .send 0 .publish .qos1 true 30, .recv 0 none (.packet (.ack 1)), .disconn 0]

/-- A message is published and acknowledged, and the connection given up. -/
theorem client_pool_conserved_publish :
    ∃ l outs, runs clStep (clientInit (fun _ => ⟨true, false, true⟩) (fun _ => 100) 4) publishOnce =
      some (l, outs) ∧ PoolExact 4 l := by
  obtain ⟨l, outs, hr⟩ : ∃ l outs, runs clStep (clientInit (fun _ => ⟨true, false, true⟩)
      (fun _ => 100) 4) publishOnce = some (l, outs) := ⟨_, _, rfl⟩
  refine ⟨l, outs, hr, client_pool_conserved _ _ 4 publishOnce ?_ l outs hr⟩
  have htakes : (100 : Nat) ≠ 0 := by decide
  apply Meets.cons (fun _ _ => ⟨rfl, rfl, rfl, ⟨rfl, rfl⟩, fun h => absurd h htakes⟩) rfl
  apply Meets.cons (fun _ _ => Or.inl rfl) rfl
  apply Meets.cons (fun _ _ => ⟨⟨rfl, rfl⟩, fun h => absurd h htakes⟩) rfl
  apply Meets.cons (fun _ _ => Or.inl ⟨_, List.mem_cons_self, rfl⟩) rfl
  apply Meets.cons (fun _ => Or.inl rfl) rfl
  exact trivial

/-- A message published while the context is not connected: nobody has its packet, and it is not free
again. -/
theorem published_unconnected_leaks :
    (runs clStep (clientInit (fun _ => ⟨true, false, true⟩) (fun _ => 100) 4)
      [.send 0 .publish .qos0 true 30]).map (fun r => ((r.1.mqps 3).nRefs, holders r.1 3, r.1.freeList))
      = some (1, 0, [2, 1, 0]) ∧
    ¬ ∀ l outs, runs clStep (clientInit (fun _ => ⟨true, false, true⟩) (fun _ => 100) 4)
      [.send 0 .publish .qos0 true 30] = some (l, outs) → PoolExact 4 l := by
  refine ⟨by decide, fun h => ?_⟩
  have hcount := (h _ _ rfl).counted 3 (by decide)
  revert hcount
  decide

end SimpleLink.Client
