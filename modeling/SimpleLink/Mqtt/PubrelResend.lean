import SimpleLink.Client.PoolRx
import SimpleLink.Lib.UntilFail
import SimpleLink.Server.Dispatch

/-!
# The PUBRELs sent again (`ack2_msg_id_dispatch`, server and client)

Both sides go through the queue of identifiers from `rd_idx` up to the number of identifiers. That
number is not an index: of the identifiers on record, the loop sees as many as it exceeds `rd_idx`
by (`cellsFrom_recorded`). All of them are sent again when the read index is 0, and otherwise when
the sends end before the cells that are missing (`pubrel_resend`).
-/

namespace SimpleLink.Mqtt

open Lib

/-! ## The cells -/

/-- `n` cells from cell `k` on, around the end of the vector. -/
def PubQos2Cq.cellsFrom (cq : PubQos2Cq) (k n : Nat) : List UInt16 :=
  (List.range n).map fun j =>
    cq.idVec.get ⟨(k + j) % maxPubrelInflt, Nat.mod_lt _ (by decide)⟩

theorem length_cellsFrom (cq : PubQos2Cq) (k n : Nat) : (cq.cellsFrom k n).length = n := by
  rw [PubQos2Cq.cellsFrom, List.length_map, List.length_range]

theorem cellsFrom_succ (cq : PubQos2Cq) (k n : Nat) :
    cq.cellsFrom k (n + 1) =
      cq.idVec.get ⟨k % maxPubrelInflt, Nat.mod_lt _ (by decide)⟩ :: cq.cellsFrom (k + 1) n := by
  unfold PubQos2Cq.cellsFrom
  rw [List.range_succ_eq_map, List.map_cons, List.map_map]
  congr 1
  refine List.map_congr_left fun j _ => ?_
  simp only [Function.comp_apply, Nat.succ_eq_add_one, Nat.add_assoc, Nat.add_comm 1]

theorem cellsFrom_add (cq : PubQos2Cq) (k n r : Nat) :
    cq.cellsFrom k (n + r) = cq.cellsFrom k n ++ cq.cellsFrom (k + n) r := by
  induction n generalizing k with
  | zero => simp [PubQos2Cq.cellsFrom]
  | succ n ih =>
    rw [Nat.succ_add, cellsFrom_succ, cellsFrom_succ, ih, List.cons_append, Nat.succ_add k n]
    rfl

def PubQos2Cq.numDispatched (cq : PubQos2Cq) : Nat := qos2PubCqCount cq - cq.rdIdx

theorem cellsFrom_recorded (cq : PubQos2Cq) :
    cq.recorded = cq.cellsFrom cq.rdIdx cq.numDispatched ++
      cq.cellsFrom (cq.rdIdx + cq.numDispatched) (qos2PubCqCount cq - cq.numDispatched) := by
  have hle : cq.numDispatched ≤ qos2PubCqCount cq := Nat.sub_le _ _
  rw [← cellsFrom_add, Nat.add_sub_cancel' hle]
  rfl

theorem missing_eq_nil_iff (cq : PubQos2Cq) :
    cq.cellsFrom (cq.rdIdx + cq.numDispatched) (qos2PubCqCount cq - cq.numDispatched) = [] ↔
      cq.rdIdx = 0 ∨ qos2PubCqCount cq = 0 := by
  rw [← List.length_eq_zero_iff, length_cellsFrom, PubQos2Cq.numDispatched]
  omega

theorem numDispatched_le (cq : PubQos2Cq) :
    cq.numDispatched = 0 ∨ cq.rdIdx + cq.numDispatched ≤ maxPubrelInflt := by
  unfold PubQos2Cq.numDispatched qos2PubCqCount
  omega

end SimpleLink.Mqtt

/-! ## The server -/

namespace SimpleLink.Server

open Lib Mqtt

/-- One PUBREL for each identifier on record, oldest first, until a send fails. -/
def pubrelsResent (m : ClMgmt) (i : ClIdx) : ClMgmt :=
  (untilFail (fun m id => mqttVhMsgSend m (m.users i).ctx .pubrel id)
    (m.users i).qos2TxCq.recorded m).2

/-- What `ack2_msg_id_dispatch` is for. -/
def ResendsPubrels (m : ClMgmt) (i : ClIdx) : Prop :=
  ack2MsgIdDispatch m i = some (pubrelsResent m i) ∧
    ((pubrelsResent m i).users i).qos2TxCq = (m.users i).qos2TxCq

variable {m m' : ClMgmt} {i : ClIdx} {u : ClientUsr}

theorem counted_mqttVhMsgSend (sendOk : Nat → Bool) (u : ClientUsr) (i : ClIdx) :
    Counted (fun m : ClMgmt => m.env.sendOk = sendOk ∧ m.users i = u)
      (fun m id => mqttVhMsgSend m (m.users i).ctx .pubrel id) (fun m => (m.users i).ctx = none)
      (fun m => m.env.sends.length) (fun n => sendOk n = true) where
  keeps := by
    intro m id hm
    unfold mqttVhMsgSend
    split
    · exact hm
    · exact hm
  rests id hidle := by simp only [hidle, mqttVhMsgSend]
  counts := by
    intro m id _ hidle
    obtain ⟨c, hc⟩ := Option.ne_none_iff_exists'.1 hidle
    simp only [mqttVhMsgSend, hc, Env.send, List.length_cons]
  next := by
    intro m id hm hidle
    obtain ⟨c, hc⟩ := Option.ne_none_iff_exists'.1 hidle
    simp only [mqttVhMsgSend, hc, Env.send, hm.1, reduceCtorEq, not_false_eq_true, and_true]

theorem ack2MsgIdDispatchFrom_eq (i : ClIdx) (cq : PubQos2Cq) (n : Nat) :
    ∀ {k : Nat} {m : ClMgmt}, n = 0 ∨ k + n ≤ maxPubrelInflt →
      ack2MsgIdDispatchFrom (m.users i).ctx cq n k m =
        some (untilFail (fun m id => mqttVhMsgSend m (m.users i).ctx .pubrel id)
          (cq.cellsFrom k n) m).2 := by
  induction n with
  | zero => exact fun _ => rfl
  | succ n ih =>
    intro k m hk
    have hlt : k < maxPubrelInflt := by omega
    have hcell : cq.idVec[k]? =
        some (cq.idVec.get ⟨k % maxPubrelInflt, Nat.mod_lt _ (by decide)⟩) := by
      rw [Vector.getElem?_eq_getElem hlt]
      simp only [Vector.get, Nat.mod_eq_of_lt hlt]
      rfl
    rw [cellsFrom_succ]
    unfold ack2MsgIdDispatchFrom
    rw [hcell]
    generalize cq.idVec.get _ = id
    have husers := mqttVhMsgSend_users m (m.users i).ctx .pubrel id
    rw [untilFail]
    simp only
    revert husers
    generalize mqttVhMsgSend m (m.users i).ctx .pubrel id = r
    intro husers
    obtain ⟨ok, m₁⟩ := r
    cases ok with
    | true =>
      have hrest := ih (k := k + 1) (m := m₁) (by omega)
      rw [congrFun husers i] at hrest
      exact hrest
    | false => rfl

theorem ack2MsgIdDispatch_eq (m : ClMgmt) (i : ClIdx) :
    ack2MsgIdDispatch m i = some (untilFail (fun m id => mqttVhMsgSend m (m.users i).ctx .pubrel id)
      ((m.users i).qos2TxCq.cellsFrom (m.users i).qos2TxCq.rdIdx
        (m.users i).qos2TxCq.numDispatched) m).2 :=
  ack2MsgIdDispatchFrom_eq i (m.users i).qos2TxCq _ (numDispatched_le _)

theorem pubrelsResent_users (m : ClMgmt) (i : ClIdx) : (pubrelsResent m i).users = m.users :=
  untilFail_preserves (I := fun m' : ClMgmt => m'.users = m.users)
    (fun m' id hm' => (mqttVhMsgSend_users m' (m'.users i).ctx .pubrel id).trans hm') _ rfl

theorem resendsPubrels_iff (m : ClMgmt) (i : ClIdx) :
    ResendsPubrels m i ↔
      (m.users i).qos2TxCq.rdIdx = 0 ∨ qos2PubCqCount (m.users i).qos2TxCq = 0 ∨
        (m.users i).ctx = none ∨ ∃ j < (m.users i).qos2TxCq.numDispatched,
          m.env.sendOk (m.env.sends.length + j) = false := by
  have hkept : ((pubrelsResent m i).users i).qos2TxCq = (m.users i).qos2TxCq := by
    rw [pubrelsResent_users]
  have hcut := (counted_mqttVhMsgSend m.env.sendOk (m.users i) i).untilFail_append_iff
    ((m.users i).qos2TxCq.cellsFrom (m.users i).qos2TxCq.rdIdx (m.users i).qos2TxCq.numDispatched)
    ((m.users i).qos2TxCq.cellsFrom
      ((m.users i).qos2TxCq.rdIdx + (m.users i).qos2TxCq.numDispatched)
      (qos2PubCqCount (m.users i).qos2TxCq - (m.users i).qos2TxCq.numDispatched))
    (s := m) ⟨rfl, rfl⟩
  rw [← cellsFrom_recorded, missing_eq_nil_iff, length_cellsFrom, or_assoc] at hcut
  rw [ResendsPubrels, and_iff_left hkept, ack2MsgIdDispatch_eq, Option.some_inj, pubrelsResent, hcut]
  simp only [Bool.not_eq_true]

end SimpleLink.Server

/-! ## The client -/

namespace SimpleLink.Client

open Lib Mqtt

/-- `vh_msg_send` of a PUBREL, in the order of `untilFail`. -/
def pubrelSend (c : CtxIdx) (l : ClientLib) (id : UInt16) : Bool × ClientLib :=
  (vhMsgSend l c .pubrel id).swap

/-- One PUBREL for each identifier on record, oldest first, until a send fails. -/
def pubrelsResent (l : ClientLib) (c : CtxIdx) : ClientLib :=
  (untilFail (pubrelSend c) (l.ctxs c).qos2TxCq.recorded l).2

/-- What `ack2_msg_id_dispatch` is for. -/
def ResendsPubrels (l : ClientLib) (c : CtxIdx) : Prop :=
  ack2MsgIdDispatch l c (PubQos2Cq.dispatched (l.ctxs c).qos2TxCq) = pubrelsResent l c ∧
    ((pubrelsResent l c).ctxs c).qos2TxCq = (l.ctxs c).qos2TxCq

variable {l l' : ClientLib} {c : CtxIdx}

theorem dispatched_eq (cq : PubQos2Cq) :
    PubQos2Cq.dispatched cq = cq.cellsFrom cq.rdIdx cq.numDispatched := by
  have hlen : (PubQos2Cq.dispatched cq).length = cq.numDispatched := by
    simp only [PubQos2Cq.dispatched, List.length_drop, List.length_take, Vector.length_toList,
      PubQos2Cq.numDispatched, qos2PubCqCount]
    omega
  apply List.ext_getElem (by rw [hlen, length_cellsFrom])
  intro j hj hj'
  have hlt : cq.rdIdx + j < maxPubrelInflt := by
    have := numDispatched_le cq
    omega
  simp only [PubQos2Cq.dispatched, PubQos2Cq.cellsFrom, List.getElem_drop, List.getElem_take,
    List.getElem_map, List.getElem_range, Nat.mod_eq_of_lt hlt]
  rfl

theorem ack2MsgIdDispatch_eq (c : CtxIdx) (ids : List UInt16) :
    ∀ l : ClientLib, ack2MsgIdDispatch l c ids = (untilFail (pubrelSend c) ids l).2 := by
  induction ids with
  | nil => exact fun _ => rfl
  | cons id ids ih =>
    intro l
    unfold ack2MsgIdDispatch
    simp only
    cases hok : (vhMsgSend l c .pubrel id).2 with
    | true =>
      rw [untilFail_cons_true hok, if_pos rfl, ih]
      rfl
    | false =>
      rw [untilFail_cons_false hok, if_neg Bool.false_ne_true]
      rfl

/-- What a send leaves, whether it succeeds or not. -/
structure SendKept (l l' : ClientLib) (c : CtxIdx) : Prop where
  takes : l'.takes = l.takes
  nSends : l'.nSends = l.nSends
  cleanSession : (l'.ctxs c).cleanSession = (l.ctxs c).cleanSession
  qos2TxCq : (l'.ctxs c).qos2TxCq = (l.ctxs c).qos2TxCq
  offset : ((l.ctxs c).txPart.bufSz = 0 → (l.ctxs c).txPart.offset = 0) →
    (l'.ctxs c).txPart.bufSz = 0 → (l'.ctxs c).txPart.offset = 0

theorem SendKept.refl (l : ClientLib) (c : CtxIdx) : SendKept l l c := ⟨rfl, rfl, rfl, rfl, id⟩

theorem SendKept.trans {l l' l'' : ClientLib} (h : SendKept l l' c) (h' : SendKept l' l'' c) :
    SendKept l l'' c :=
  ⟨h'.takes.trans h.takes, h'.nSends.trans h.nSends, h'.cleanSession.trans h.cleanSession,
    h'.qos2TxCq.trans h.qos2TxCq, fun hoff => h'.offset (h.offset hoff)⟩

theorem SendKept.report (h : SendKept l l' c) (o : Obs) : SendKept l (l'.report o) c :=
  { h with }

theorem sendKept_setCtx (l : ClientLib) (c : CtxIdx) (x : ClientDesc)
    (hclean : x.cleanSession = (l.ctxs c).cleanSession) (hcq : x.qos2TxCq = (l.ctxs c).qos2TxCq)
    (hoff : ((l.ctxs c).txPart.bufSz = 0 → (l.ctxs c).txPart.offset = 0) →
      x.txPart.bufSz = 0 → x.txPart.offset = 0) : SendKept l (l.setCtx c x) c := by
  refine ⟨rfl, rfl, ?_, ?_, ?_⟩
  · rw [setCtx_ctxs_self]
    exact hclean
  · rw [setCtx_ctxs_self]
    exact hcq
  · rw [setCtx_ctxs_self]
    exact hoff

theorem SameCtxs.sendKept (h : SameCtxs l l') (c : CtxIdx) : SendKept l l' c :=
  ⟨h.takes, h.nSends, by rw [h.ctxs], by rw [h.ctxs], by rw [h.ctxs]; exact id⟩

theorem sendKept_txPartReset (l : ClientLib) (c : CtxIdx) : SendKept l (txPartReset l c) c := by
  have hsame := sameCtxs_txPart l c
  refine ⟨hsame.takes, hsame.nSends, ?_, ?_, fun _ _ => ?_⟩
  · rw [txPartReset_ctxs_self]
  · rw [txPartReset_ctxs_self]
  · rw [txPartReset_ctxs_self]

theorem sendKept_doNetClose (hclean : (l.ctxs c).cleanSession = false) :
    SendKept l (doNetClose l c) c := by
  unfold doNetClose
  split
  · simp only [hclean, Bool.false_eq_true, if_false]
    have hfix : SendKept l (if !(l.cfg c).protoV31 then session311fix l c else l) c := by
      split
      · exact sendKept_setCtx l c _ rfl rfl id
      · exact .refl l c
    exact ((hfix.trans (sendKept_txPartReset _ c)).trans
      (sendKept_setCtx _ c { (txPartReset _ c).ctxs c with
        net := false
        connackAwait := false
        nowConnected := false
        kaPinger := false
        userPing := false
        networkClose := false } rfl rfl id)).report _
  · exact .refl l c

theorem sendKept_doNetCloseTx (hclean : (l.ctxs c).cleanSession = false) :
    SendKept l (doNetCloseTx l c) c := by
  unfold doNetCloseTx
  split
  · exact sendKept_setCtx l c _ rfl rfl id
  · refine (sendKept_doNetClose hclean).trans ?_
    simp only
    split
    · exact ((sameCtxs_freeMqp ..).sendKept c).trans (sendKept_setCtx _ c _ rfl rfl id)
    · exact sendKept_setCtx _ c _ rfl rfl id

theorem sendKept_clCtxPartSend (hclean : (l.ctxs c).cleanSession = false) :
    SendKept { l with nSends := l.nSends + 1 } (clCtxPartSend l c).1 c := by
  unfold clCtxPartSend
  simp only
  split
  · split
    · rename_i hlt
      refine sendKept_setCtx { l with nSends := l.nSends + 1 } c _ rfl rfl fun _ hz => ?_
      unfold TxPartPkt.bufSz at hlt hz
      simp only at hz
      omega
    · exact sendKept_txPartReset { l with nSends := l.nSends + 1 } c
  · exact sendKept_doNetCloseTx (l := { l with nSends := l.nSends + 1 }) hclean

/-- `c` sends PUBRELs of the session `cq` to a network that does `takes`. -/
structure Resending (takes : Nat → Nat) (cq : PubQos2Cq) (c : CtxIdx) (l : ClientLib) : Prop where
  takes : l.takes = takes
  cleanSession : (l.ctxs c).cleanSession = false
  qos2TxCq : (l.ctxs c).qos2TxCq = cq
  offset : (l.ctxs c).txPart.bufSz = 0 → (l.ctxs c).txPart.offset = 0

variable {takes : Nat → Nat} {cq : PubQos2Cq}

theorem pubrelSend_idle (id : UInt16) (h : ¬ attempts (l.ctxs c) false) :
    pubrelSend c l id = (false, l) := by
  unfold pubrelSend vhMsgSend
  simp only
  rw [clCtxSeg1Send_refused 4 none h]
  rfl

theorem sendKept_pubrelSend (h : Resending takes cq c l) (id : UInt16)
    (ha : attempts (l.ctxs c) false) :
    SendKept { l with nSends := l.nSends + 1 } (pubrelSend c l id).2 c := by
  have hoff := h.offset ha.2
  have hseg : SendKept { l with nSends := l.nSends + 1 } (clCtxSeg1Send l c 4 false none).1 c := by
    rw [clCtxSeg1Send_attempts 4 none ha]
    have hset := sendKept_setCtx { l with nSends := l.nSends + 1 } c
      { l.ctxs c with txPart := { (l.ctxs c).txPart with txMqp := none, length := 4 } } rfl rfl
      fun _ _ => hoff
    refine hset.trans (sendKept_clCtxPartSend (l := l.setCtx c
      { l.ctxs c with txPart := { (l.ctxs c).txPart with txMqp := none, length := 4 } }) ?_)
    rw [setCtx_ctxs_self]
    exact h.cleanSession
  unfold pubrelSend vhMsgSend
  simp only
  split
  · exact hseg.report _
  · exact hseg

theorem counted_pubrelSend (takes : Nat → Nat) (cq : PubQos2Cq) (c : CtxIdx) :
    Counted (Resending takes cq c) (pubrelSend c) (fun l => ¬ attempts (l.ctxs c) false)
      ClientLib.nSends (fun n => 4 ≤ takes n) where
  keeps := by
    intro l id h
    by_cases ha : attempts (l.ctxs c) false
    · have hkept := sendKept_pubrelSend h id ha
      exact ⟨hkept.takes.trans h.takes, hkept.cleanSession.trans h.cleanSession,
        hkept.qos2TxCq.trans h.qos2TxCq, hkept.offset h.offset⟩
    · rw [pubrelSend_idle id ha]
      exact h
  rests id hidle := pubrelSend_idle id hidle
  counts id h hidle := (sendKept_pubrelSend h id (not_not.1 hidle)).nSends
  next := by
    intro l id h hidle
    have ha := not_not.1 hidle
    have hoff := h.offset ha.2
    have hconn : (l.ctxs c).isConnected = true := by
      have := ha.1
      rwa [Bool.false_xor] at this
    rw [← h.takes, not_not]
    constructor
    · rintro ⟨hok, hmore⟩
      exact ((Sent.attempts (sent_vhMsgSend hok) hoff).1 hmore).2
    · intro htakes
      obtain ⟨l', he, -⟩ := vhMsgSend_of_canSend ⟨hconn, ha.2, by omega⟩ .pubrel id
      have hok : (vhMsgSend l c .pubrel id).2 = true := by rw [he]
      exact ⟨hok, (Sent.attempts (sent_vhMsgSend hok) hoff).2 ⟨hconn, htakes⟩⟩

theorem resendsPubrels_iff (hclean : (l.ctxs c).cleanSession = false)
    (hoff : (l.ctxs c).txPart.bufSz = 0 → (l.ctxs c).txPart.offset = 0) :
    ResendsPubrels l c ↔
      (l.ctxs c).qos2TxCq.rdIdx = 0 ∨ qos2PubCqCount (l.ctxs c).qos2TxCq = 0 ∨
        ¬ attempts (l.ctxs c) false ∨ ∃ j < (l.ctxs c).qos2TxCq.numDispatched,
          l.takes (l.nSends + j) < 4 := by
  have hcounted := counted_pubrelSend l.takes (l.ctxs c).qos2TxCq c
  have hstart : Resending l.takes (l.ctxs c).qos2TxCq c l := ⟨rfl, hclean, rfl, hoff⟩
  have hkept : ((pubrelsResent l c).ctxs c).qos2TxCq = (l.ctxs c).qos2TxCq :=
    (untilFail_preserves (fun _ id => hcounted.keeps id) _ hstart).qos2TxCq
  have hcut := hcounted.untilFail_append_iff
    ((l.ctxs c).qos2TxCq.cellsFrom (l.ctxs c).qos2TxCq.rdIdx (l.ctxs c).qos2TxCq.numDispatched)
    ((l.ctxs c).qos2TxCq.cellsFrom
      ((l.ctxs c).qos2TxCq.rdIdx + (l.ctxs c).qos2TxCq.numDispatched)
      (qos2PubCqCount (l.ctxs c).qos2TxCq - (l.ctxs c).qos2TxCq.numDispatched)) hstart
  rw [← cellsFrom_recorded, missing_eq_nil_iff, length_cellsFrom, or_assoc] at hcut
  rw [ResendsPubrels, and_iff_left hkept, ack2MsgIdDispatch_eq, dispatched_eq, pubrelsResent, hcut]
  simp only [Nat.not_le]

end SimpleLink.Client

/-! ## Both sides -/

namespace SimpleLink.Mqtt

open Lib

/-- The identifiers on record are sent again, by the server and by the client, exactly when the
loop misses none of them or ends before it gets to those it misses: the network of the client of a
server is closed or a send to it fails, a client is not connected, or the network does not take one
of the packets whole. -/
theorem pubrel_resend (m : Server.ClMgmt) (i : Server.ClIdx) (l : Client.ClientLib)
    (c : Client.CtxIdx) (hclean : (l.ctxs c).cleanSession = false)
    (hoff : (l.ctxs c).txPart.bufSz = 0 → (l.ctxs c).txPart.offset = 0) :
    (Server.ResendsPubrels m i ↔
      (m.users i).qos2TxCq.rdIdx = 0 ∨ qos2PubCqCount (m.users i).qos2TxCq = 0 ∨
        (m.users i).ctx = none ∨ ∃ j < (m.users i).qos2TxCq.numDispatched,
          m.env.sendOk (m.env.sends.length + j) = false) ∧
    (Client.ResendsPubrels l c ↔
      (l.ctxs c).qos2TxCq.rdIdx = 0 ∨ qos2PubCqCount (l.ctxs c).qos2TxCq = 0 ∨
        ¬ Client.attempts (l.ctxs c) false ∨ ∃ j < (l.ctxs c).qos2TxCq.numDispatched,
          l.takes (l.nSends + j) < 4) :=
  ⟨Server.resendsPubrels_iff m i, Client.resendsPubrels_iff hclean hoff⟩

local instance neZero_resendServer : NeZero Server.maxClients := ⟨by decide⟩

local instance neZero_resendClient : NeZero Client.maxNwconn := ⟨by decide⟩

/-- A server whose client has the queue `cq`. -/
def resendServer (sendOk : Nat → Bool) (cq : PubQos2Cq) : Server.ClMgmt :=
  (Server.clMgmtInit sendOk Server.allOk).setUser 0 { Server.clUsrReset with
    ctx := some 0
    connected := true
    qos2TxCq := cq }

/-- A client that has the queue `cq`. -/
def resendClient (takes : Nat → Nat) (cq : PubQos2Cq) : Client.ClientLib :=
  (Client.clientInit (fun _ => ⟨true, false, true⟩) takes 0).setCtx 0 { Client.clientReset with
    net := true
    nowConnected := true
    qos2TxCq := cq }

/-- Three identifiers have been recorded, and the first has been taken off again. -/
def threeLessOne : PubQos2Cq where
  idVec := #v[1, 3, 5, 0, 0, 0, 0, 0]
  nFree := 6
  rdIdx := 1
  wrIdx := 3

/-- With networks that fail at once, one PUBREL is all that is sent anyway. -/
theorem pubrel_resend_fails :
    Server.ResendsPubrels (resendServer (fun _ => false) threeLessOne) 0 ∧
      Client.ResendsPubrels (resendClient (fun _ => 0) threeLessOne) 0 := by
  obtain ⟨hserver, hclient⟩ := pubrel_resend (resendServer (fun _ => false) threeLessOne) 0
    (resendClient (fun _ => 0) threeLessOne) 0 rfl fun _ => rfl
  exact ⟨hserver.2 (.inr (.inr (.inr ⟨0, by decide, rfl⟩))),
    hclient.2 (.inr (.inr (.inr ⟨0, by decide, by decide⟩)))⟩

/-- Two identifiers have been recorded, and the first has been taken off again. -/
def twoLessOne : PubQos2Cq where
  idVec := #v[1, 3, 0, 0, 0, 0, 0, 0]
  nFree := 7
  rdIdx := 1
  wrIdx := 2

example : (do
    let (cq, _) ← qos2PubCqLogup qos2PubCqReset 1
    let (cq, _) ← qos2PubCqLogup cq 3
    let (cq, _) ← qos2PubCqUnlog cq 1
    pure cq) = some twoLessOne := by
  decide

/-- The identifier that is left is not sent again. -/
theorem pubrel_not_resent :
    (¬ Server.ResendsPubrels (resendServer (fun _ => true) twoLessOne) 0) ∧
      ¬ Client.ResendsPubrels (resendClient (fun _ => 4) twoLessOne) 0 := by
  constructor
  · intro h
    have hsent := congrArg (fun m => (m.map fun m => m.env.sends.length)) h.1
    revert hsent
    decide
  · intro h
    have hsent := congrArg Client.ClientLib.nSends h.1
    revert hsent
    decide

end SimpleLink.Mqtt
