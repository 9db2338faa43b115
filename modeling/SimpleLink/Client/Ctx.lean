import Mathlib.Logic.Function.Basic
import SimpleLink.Mqtt.Qos2Cq

/-!
# The MQTT client library (`mqtt_client.c`)

A context is an index into `ctxs`, a packet of the registered pool an index into
`mqps`; the lists that the C code threads through `next` are lists of indices. An
application may also bring a packet of its own to receive into (`RxMqp.app`); such a
packet has no `free` method and is in no pool.

Each call of the API, and each packet received, is one step: it runs under the
mutex of the library. `takes n` is what the network does with the send that comes
after `n` others: the number of bytes it accepts, 0 for an error. `log` collects
what the step did: acknowledgements handed to the network, messages handed to the
application and connections closed.
-/

namespace SimpleLink.Client

open SimpleLink.Lib SimpleLink.Mqtt

/-- `MAX_NWCONN`. -/
abbrev maxNwconn : Nat := 4

abbrev CtxIdx := Fin maxNwconn

inductive MsgType where
  | connect
  | connack
  | publish
  | puback
  | pubrec
  | pubrel
  | pubcomp
  | subscribe
  | suback
  | unsubscribe
  | unsuback
  | pingreq
  | pingrsp
  | disconnect
  deriving DecidableEq, Repr

/-- `enum mqtt_qos`. -/
inductive Qos where
  | qos0
  | qos1
  | qos2
  deriving DecidableEq, Repr

/-- `struct mqtt_packet`; `len` is `MQP_CONTENT_LEN`. -/
structure Mqp where
  msgType : MsgType
  msgId : UInt16
  nRefs : UInt8
  len : Nat
  deriving DecidableEq

/-- A packet to receive into: one of the pool, or one of the application. -/
inductive RxMqp where
  | pool (i : Nat)
  | app (j : Nat)
  deriving DecidableEq

/-- `struct tx_part_pkt`. -/
structure TxPartPkt where
  txMqp : Option Nat
  length : Nat
  offset : Nat
  deriving DecidableEq

/-- `TX_PART_BUF_SZ`. -/
def TxPartPkt.bufSz (p : TxPartPkt) : Nat := p.length - p.offset

/-- The options a context is created with: `APP_RECV_TASK_FLAG`, `USE_PROTO_V31_FLAG`, and whether
there is a `publish_rx` callback. -/
structure CtxCfg where
  recvTask : Bool
  protoV31 : Bool
  publishRx : Bool
  deriving DecidableEq

/-- `struct client_desc`; `net` says whether the network is open, the flags are those of
`client_ctx`. -/
structure ClientDesc where
  net : Bool
  connackAwait : Bool
  nowConnected : Bool
  cleanSession : Bool
  kaPinger : Bool
  userPing : Bool
  networkClose : Bool
  qosAck1Wl : List Nat
  qos2RxCq : PubQos2Cq
  qos2TxCq : PubQos2Cq
  txPart : TxPartPkt
  rxMqp : Option RxMqp
  deriving DecidableEq

/-- `client_reset`. -/
def clientReset : ClientDesc where
  net := false
  connackAwait := false
  nowConnected := false
  cleanSession := false
  kaPinger := false
  userPing := false
  networkClose := false
  qosAck1Wl := []
  qos2RxCq := qos2PubCqReset
  qos2TxCq := qos2PubCqReset
  txPart := ⟨none, 0, 0⟩
  rxMqp := none

/-- What a step does that others see. -/
inductive Obs where
  | vh (c : CtxIdx) (msgType : MsgType) (msgId : UInt16)
  | publishRx (c : CtxIdx) (qos : Qos) (msgId : UInt16)
  | close (c : CtxIdx)
  deriving DecidableEq

structure ClientLib where
  cfg : CtxIdx → CtxCfg
  ctxs : CtxIdx → ClientDesc
  mqps : Nat → Mqp
  freeList : List Nat
  /-- The packets that the application has and has not passed on. -/
  held : List Nat
  msgId : UInt16
  takes : Nat → Nat
  nSends : Nat
  log : List Obs

/-- `mqtt_client_lib_init` and `mqtt_client_buffers_register`. -/
def clientInit (cfg : CtxIdx → CtxCfg) (takes : Nat → Nat) (numMqp : Nat) : ClientLib where
  cfg := cfg
  ctxs := fun _ => clientReset
  mqps := fun _ => ⟨.connect, 0, 0, 0⟩
  freeList := (List.range numMqp).reverse
  held := []
  msgId := 0xFFFF
  takes := takes
  nSends := 0
  log := []

def ClientLib.setCtx (l : ClientLib) (c : CtxIdx) (x : ClientDesc) : ClientLib :=
  { l with ctxs := Function.update l.ctxs c x }

@[simp] theorem setCtx_ctxs_self (l : ClientLib) (c : CtxIdx) (x : ClientDesc) :
    (l.setCtx c x).ctxs c = x := Function.update_self ..

theorem setCtx_ctxs_ne (l : ClientLib) {c d : CtxIdx} (x : ClientDesc) (h : d ≠ c) :
    (l.setCtx c x).ctxs d = l.ctxs d := Function.update_of_ne h ..

def ClientLib.setMqp (l : ClientLib) (i : Nat) (m : Mqp) : ClientLib :=
  { l with mqps := Function.update l.mqps i m }

def ClientLib.report (l : ClientLib) (o : Obs) : ClientLib := { l with log := o :: l.log }

/-- `is_connected`. -/
def ClientDesc.isConnected (x : ClientDesc) : Bool := x.nowConnected && !x.networkClose

/-! ## Packets -/

/-- `free_mqp` of `mqtt_common.c`, with the pool's `free`. -/
def freeMqp (l : ClientLib) (i : Nat) : ClientLib :=
  let nRefs := (l.mqps i).nRefs - 1
  let l := l.setMqp i { l.mqps i with nRefs := nRefs }
  if nRefs = 0 then { l with freeList := i :: l.freeList } else l

/-- `mqp->n_refs++`. -/
def addRef (l : ClientLib) (i : Nat) : ClientLib :=
  l.setMqp i { l.mqps i with nRefs := (l.mqps i).nRefs + 1 }

/-- `mqp->n_refs--`, without freeing. -/
def dropRef (l : ClientLib) (i : Nat) : ClientLib :=
  l.setMqp i { l.mqps i with nRefs := (l.mqps i).nRefs - 1 }

def mqpClientAlloc (l : ClientLib) (msgType : MsgType) : Option (Nat × ClientLib) :=
  match l.freeList with
  | [] => none
  | i :: rest => some (i, { l with freeList := rest }.setMqp i ⟨msgType, 0, 1, 0⟩)

/-- `mqp_ack_wlist_remove`: the packet removed and the list. -/
def ackWlistRemove (l : ClientLib) (wl : List Nat) (msgId : UInt16) : Option Nat × List Nat :=
  (wl.find? fun i => (l.mqps i).msgId == msgId, wl.eraseP fun i => (l.mqps i).msgId == msgId)

/-! ## Closing the network -/

def txPartReset (l : ClientLib) (c : CtxIdx) : ClientLib :=
  let l' := match (l.ctxs c).txPart.txMqp with
    | none => l
    | some i => freeMqp l i
  l'.setCtx c { l.ctxs c with txPart := ⟨none, 0, 0⟩ }

def sessionDelete (l : ClientLib) (c : CtxIdx) : ClientLib :=
  ((l.ctxs c).qosAck1Wl.foldl freeMqp l).setCtx c { l.ctxs c with
    qos2RxCq := qos2PubCqReset
    qos2TxCq := qos2PubCqReset
    qosAck1Wl := [] }

/-- The loop of `session_311fix` over the wait list as it was. -/
def session311fixWl (l : ClientLib) (wl : List Nat) : List Nat :=
  wl.foldl (fun wl i =>
    if (l.mqps i).msgType = .publish then wl else (ackWlistRemove l wl (l.mqps i).msgId).2) wl

def session311fix (l : ClientLib) (c : CtxIdx) : ClientLib :=
  l.setCtx c { l.ctxs c with qosAck1Wl := session311fixWl l (l.ctxs c).qosAck1Wl }

def doNetClose (l : ClientLib) (c : CtxIdx) : ClientLib :=
  if (l.ctxs c).net then
    let l :=
      if (l.ctxs c).cleanSession then sessionDelete l c
      -- version 3.1.1 doesn't need SUB and UNSUB re-send
      else if !(l.cfg c).protoV31 then session311fix l c
      else l
    let l := txPartReset l c
    let l := l.setCtx c { l.ctxs c with
      net := false
      connackAwait := false
      nowConnected := false
      kaPinger := false
      userPing := false
      networkClose := false }
    l.report (.close c)
  else l

def doNetCloseRx (l : ClientLib) (c : CtxIdx) : ClientLib := doNetClose l c

def doNetCloseTx (l : ClientLib) (c : CtxIdx) : ClientLib :=
  if (l.cfg c).recvTask then l.setCtx c { l.ctxs c with networkClose := true }
  else
    let rxMqp := (l.ctxs c).rxMqp
    let l := doNetClose l c
    let l := match rxMqp with
      | some (.pool i) => freeMqp l i
      | _ => l
    l.setCtx c { l.ctxs c with rxMqp := none }

/-! ## Sending -/

/-- `cl_ctx_part_send`, and whether it returned a positive value. -/
def clCtxPartSend (l : ClientLib) (c : CtxIdx) : ClientLib × Bool :=
  let n := l.takes l.nSends
  let l := { l with nSends := l.nSends + 1 }
  let p := (l.ctxs c).txPart
  if 0 < n then
    if n < p.bufSz then
      (l.setCtx c { l.ctxs c with txPart := { p with offset := p.offset + n } }, true)
    else (txPartReset l c, true)
  else (doNetCloseTx l c, false)

def clCtxSeg1Send (l : ClientLib) (c : CtxIdx) (len : Nat) (isConnMsg : Bool)
    (txMqp : Option Nat) : ClientLib × Bool :=
  let x := l.ctxs c
  if (isConnMsg ^^ x.isConnected) = false then (l, false)
  else if x.txPart.bufSz ≠ 0 then (l, false)
  else
    clCtxPartSend (l.setCtx c { x with txPart := { x.txPart with txMqp := txMqp, length := len } }) c

def vhMsgSend (l : ClientLib) (c : CtxIdx) (msgType : MsgType) (msgId : UInt16) :
    ClientLib × Bool :=
  let r := clCtxSeg1Send l c 4 false none
  if r.2 then (r.1.report (.vh c msgType msgId), true) else r

/-- `pingreq_send` for the keep-alive or for the application. -/
def pingreqSend (l : ClientLib) (c : CtxIdx) (user : Bool) : ClientLib × Bool :=
  let r := clCtxSeg1Send l c 2 false none
  if r.2 then
    let x := r.1.ctxs c
    (r.1.setCtx c (if user then { x with userPing := true } else { x with kaPinger := true }), true)
  else r

/-- `assign_new_msg_id`. -/
def ClientLib.newMsgId (l : ClientLib) : ClientLib := { l with msgId := l.msgId + 2 }

/-- `cl_ctx_conn_state_try_locked`; `opened` is what the network does. -/
def clCtxConnStateTry (l : ClientLib) (c : CtxIdx) (cleanSession opened : Bool) (mqp : Nat) :
    ClientLib :=
  if (l.ctxs c).networkClose then l
  else
    let l := l.setCtx c { l.ctxs c with net := opened }
    if !opened then l
    else if (l.ctxs c).connackAwait then l
    else
      let r := clCtxSeg1Send l c (l.mqps mqp).len true (some mqp)
      if r.2 then
        r.1.setCtx c { r.1.ctxs c with
          connackAwait := true
          cleanSession := (r.1.ctxs c).cleanSession || cleanSession }
      else r.1

/-- `connect_msg_send`; `fits` says whether the payload fits the packet, `n` is its length. -/
def connectMsgSend (l : ClientLib) (c : CtxIdx) (cleanSession opened fits : Bool) (n : Nat) :
    ClientLib :=
  match mqpClientAlloc l .connect with
  | none => l
  | some (i, l) =>
    if fits then clCtxConnStateTry (l.setMqp i { l.mqps i with len := 2 + n }) c cleanSession opened i
    else freeMqp l i

/-- `_msg_dispatch`, and whether it returned a message identifier. -/
def msgDispatch (l : ClientLib) (c : CtxIdx) (i : Nat) (qos : Qos) : ClientLib × Bool :=
  let l := if qos ≠ .qos0 then addRef l i else l
  let r := clCtxSeg1Send l c (l.mqps i).len false (some i)
  if qos ≠ .qos0 then
    if r.2 then
      (r.1.setCtx c { r.1.ctxs c with qosAck1Wl := (r.1.ctxs c).qosAck1Wl ++ [i] }, true)
    else (freeMqp r.1 i, false)
  else (r.1, true) -- whatever the send returned

/-- `mqtt_client_pub_msg_send` and `utf8_array_send`: a packet is allocated, filled and dispatched. -/
def mqpMsgSend (l : ClientLib) (c : CtxIdx) (msgType : MsgType) (qos : Qos) (fits : Bool) (n : Nat) :
    ClientLib :=
  match mqpClientAlloc l msgType with
  | none => l
  | some (i, l) =>
    let l := if qos ≠ .qos0 then l.newMsgId else l
    if fits then
      let msgId := if qos ≠ .qos0 then l.msgId else 0
      (msgDispatch (l.setMqp i { l.mqps i with msgId := msgId, len := 2 + n }) c i qos).1
    else freeMqp l i

/-- `msg_dispatch_no_free` of a packet that the application has filled. But for an error the
application has passed the packet on. -/
def msgDispatchNoFree (l : ClientLib) (c : CtxIdx) (i : Nat) (qos : Qos) (msgId : UInt16) (n : Nat) :
    ClientLib :=
  let l := l.setMqp i { l.mqps i with msgId := msgId, len := 2 + n }
  let r := msgDispatch (addRef l i) c i qos
  if r.2 then { r.1 with held := r.1.held.erase i } else r.1

def mqttDisconnSend (l : ClientLib) (c : CtxIdx) : ClientLib :=
  let r := clCtxSeg1Send l c 2 false none
  if r.2 then doNetCloseTx r.1 c else r.1

def mqttClientSendProgress (l : ClientLib) (c : CtxIdx) : ClientLib :=
  if (l.ctxs c).txPart.bufSz = 0 then l else (clCtxPartSend l c).1

/-! ## Receiving -/

/-- The loop of `ack1_wl_mqp_dispatch`. -/
def ack1WlMqpDispatch (l : ClientLib) (c : CtxIdx) : List Nat → ClientLib × Bool
  | [] => (l, true)
  | i :: is =>
    let l := addRef l i
    let r := clCtxSeg1Send l c (l.mqps i).len false (some i)
    if r.2 then ack1WlMqpDispatch r.1 c is else r

/-- The loop of `ack2_msg_id_dispatch` over the cells of the queue. -/
def ack2MsgIdDispatch (l : ClientLib) (c : CtxIdx) : List UInt16 → ClientLib
  | [] => l
  | id :: ids =>
    let r := vhMsgSend l c .pubrel id
    if r.2 then ack2MsgIdDispatch r.1 c ids else r.1

/-- The cells `ack2_msg_id_dispatch` walks: from `rd_idx` up to the number of identifiers. -/
def PubQos2Cq.dispatched (cq : PubQos2Cq) : List UInt16 :=
  (cq.idVec.toList.take (maxPubrelInflt - cq.nFree)).drop cq.rdIdx

def sessionResume (l : ClientLib) (c : CtxIdx) : ClientLib :=
  let r := ack1WlMqpDispatch l c (l.ctxs c).qosAck1Wl
  if r.2 then ack2MsgIdDispatch r.1 c (PubQos2Cq.dispatched (r.1.ctxs c).qos2TxCq) else r.1

/-- `ack1_wl_rmfree`. -/
def ack1WlRmfree (l : ClientLib) (c : CtxIdx) (msgId : UInt16) : ClientLib × Bool :=
  match ackWlistRemove l (l.ctxs c).qosAck1Wl msgId with
  | (none, _) => (l, false)
  | (some i, wl) => (freeMqp (l.setCtx c { l.ctxs c with qosAck1Wl := wl }) i, true)

/-- `_proc_pub_rec_rx`; there is no packet at the head of an empty list to look at. -/
def procPubRecRx (l : ClientLib) (c : CtxIdx) (msgId : UInt16) : Option (ClientLib × Bool) :=
  match (l.ctxs c).qosAck1Wl with
  | [] => none
  | i :: _ =>
    if msgId = (l.mqps i).msgId then
      match qos2PubCqLogup (l.ctxs c).qos2TxCq msgId with
      | none => none
      | some (_, false) => some (l, false)
      | some (cq, true) =>
        let l := l.setCtx c { l.ctxs c with qos2TxCq := cq }
        some ((vhMsgSend (ack1WlRmfree l c msgId).1 c .pubrel msgId).1, true)
    else some (l, false)

/-- `_proc_pub_rel_rx`. -/
def procPubRelRx (l : ClientLib) (c : CtxIdx) (msgId : UInt16) : Option (ClientLib × Bool) :=
  let l := (vhMsgSend l c .pubcomp msgId).1
  match qos2PubCqCheck (l.ctxs c).qos2RxCq msgId with
  | none => none
  | some false => some (l, true)
  | some true =>
    match qos2PubCqUnlog (l.ctxs c).qos2RxCq msgId with
    | none => none
    | some (cq, _) => some (l.setCtx c { l.ctxs c with qos2RxCq := cq }, true)

/-- `ack2_msg_id_unlog`. -/
def ack2MsgIdUnlog (l : ClientLib) (c : CtxIdx) (msgId : UInt16) : Option (ClientLib × Bool) :=
  match qos2PubCqUnlog (l.ctxs c).qos2TxCq msgId with
  | none => none
  | some (cq, ok) => some (l.setCtx c { l.ctxs c with qos2TxCq := cq }, ok)

/-- The `publish_rx` callback of a packet: the application may keep a reference to it. -/
def publishRxCb (l : ClientLib) (c : CtxIdx) (mqp : RxMqp) (qos : Qos) (msgId : UInt16)
    (keeps : Bool) : ClientLib :=
  if (l.cfg c).publishRx then
    let l := l.report (.publishRx c qos msgId)
    match mqp with
    | .pool i =>
      let l := addRef l i
      if keeps then { l with held := i :: l.held } else dropRef l i
    | .app _ => l
  else l

/-- `proc_pub_msg_rx` of a well-formed PUBLISH. -/
def procPubMsgRx (l : ClientLib) (c : CtxIdx) (mqp : RxMqp) (qos : Qos) (msgId : UInt16)
    (keeps : Bool) : Option (ClientLib × Bool) :=
  match qos with
  | .qos0 => some (publishRxCb l c mqp .qos0 msgId keeps, true)
  | .qos1 => some (publishRxCb (vhMsgSend l c .puback msgId).1 c mqp .qos1 msgId keeps, true)
  | .qos2 =>
    match qos2PubCqCheck (l.ctxs c).qos2RxCq msgId with
    | none => none
    | some true => some (l, true) -- already delivered
    | some false =>
      match qos2PubCqLogup (l.ctxs c).qos2RxCq msgId with
      | none => none
      | some (_, false) => some (l, false)
      | some (cq, true) =>
        let l := l.setCtx c { l.ctxs c with qos2RxCq := cq }
        some (publishRxCb (vhMsgSend l c .pubrec msgId).1 c mqp .qos2 msgId keeps, true)

/-- `proc_connack_rx`. -/
def procConnackRx (l : ClientLib) (c : CtxIdx) (accepted : Bool) : ClientLib :=
  let l := l.setCtx c { l.ctxs c with connackAwait := false }
  if accepted then
    let l := l.setCtx c { l.ctxs c with nowConnected := true }
    if (l.ctxs c).cleanSession then sessionDelete l c else sessionResume l c
  else l

/-- `proc_pingrsp_rx`. -/
def procPingrspRx (l : ClientLib) (c : CtxIdx) : ClientLib × Bool :=
  let x := l.ctxs c
  if x.kaPinger then (l.setCtx c { x with kaPinger := false }, true)
  else if x.userPing then (l.setCtx c { x with userPing := false }, true)
  else (l, false)

/-- A packet from the server; `ack` is a PUBACK, SUBACK or UNSUBACK, `bad` one that is malformed or
not expected from a server. -/
inductive RxPkt where
  | connack (accepted : Bool)
  | ack (msgId : UInt16)
  | pubrec (msgId : UInt16)
  | pubrel (msgId : UInt16)
  | pubcomp (msgId : UInt16)
  | publish (qos : Qos) (msgId : UInt16) (keeps : Bool)
  | pingrsp
  | bad
  deriving DecidableEq

def processRecv (l : ClientLib) (c : CtxIdx) (mqp : RxMqp) (pkt : RxPkt) :
    Option (ClientLib × Bool) :=
  if (l.ctxs c).connackAwait then
    match pkt with
    | .connack accepted => some (procConnackRx l c accepted, true)
    | _ => some (l, false)
  else
    match pkt with
    | .ack id => some (ack1WlRmfree l c id)
    | .pubrec id => procPubRecRx l c id
    | .pubrel id => procPubRelRx l c id
    | .pubcomp id => ack2MsgIdUnlog l c id
    | .publish qos id keeps => procPubMsgRx l c mqp qos id keeps
    | .pingrsp => some (procPingrspRx l c)
    | .connack _ => some (l, false)
    | .bad => some (l, false)

/-- What `mqp_recv` comes back with. -/
inductive RxEvent where
  | timeout
  | error
  | packet (pkt : RxPkt)
  deriving DecidableEq

/-- `proc_ctx_data_recv`. -/
def procCtxDataRecv (l : ClientLib) (c : CtxIdx) (mqp : RxMqp) : RxEvent → Option ClientLib
  | .timeout => some l
  | .error => some (doNetCloseRx l c)
  | .packet pkt =>
    match processRecv l c mqp pkt with
    | none => none
    | some (l, ok) =>
      -- the network is closed on an error, and on a CONNACK that refuses the connection
      if !ok || pkt = .connack false then some (doNetCloseRx l c) else some l

/-- The packet that `mqp_setup_proc_ctx_data_recv` receives into: the one of a reception that is not
complete, the application's, or a new one. -/
def mqpSetup (l : ClientLib) (c : CtxIdx) : Option Nat → Option (RxMqp × ClientLib)
  | some j =>
    match (l.ctxs c).rxMqp with
    | none => some (.app j, l)
    | some mqp => if mqp = .app j then some (mqp, l) else none
  | none =>
    match (l.ctxs c).rxMqp with
    | some mqp => some (mqp, l)
    | none => (mqpClientAlloc l .connect).map fun r => (.pool r.1, r.2)

/-- `mqp_setup_proc_ctx_data_recv`. -/
def mqpSetupProcCtxDataRecv (l : ClientLib) (c : CtxIdx) (mqp : Option Nat) (evt : RxEvent) :
    Option ClientLib :=
  match mqpSetup l c mqp with
  | none => some l
  | some (mqp, l) =>
    match procCtxDataRecv l c mqp evt with
    | none => none
    | some l =>
      if evt = .timeout then some (l.setCtx c { l.ctxs c with rxMqp := some mqp })
      else
        let l := l.setCtx c { l.ctxs c with rxMqp := none }
        match mqp with
        | .pool i => some (freeMqp l i)
        | .app _ => some l

/-- `single_ctx_rx_prep`; `expired` says that the context's timeout is over. -/
def singleCtxRxPrep (l : ClientLib) (c : CtxIdx) (expired : Bool) : ClientLib :=
  let x := l.ctxs c
  if !x.net then l
  else if x.networkClose then doNetCloseRx l c
  else if expired then
    if x.isConnected && !x.kaPinger then
      let r := pingreqSend l c false
      if r.2 then r.1 else doNetCloseRx r.1 c
    else doNetCloseRx l c
  else l

/-- `awaits_pkts`. -/
def awaitsPkts (x : ClientDesc) : Bool :=
  !x.qosAck1Wl.isEmpty || qos2PubCqCount x.qos2RxCq != 0 || qos2PubCqCount x.qos2TxCq != 0

/-- `mqtt_client_ctx_delete`. -/
def mqttClientCtxDelete (l : ClientLib) (c : CtxIdx) : ClientLib :=
  if (l.ctxs c).net || awaitsPkts (l.ctxs c) then l
  else (txPartReset (sessionDelete l c) c).setCtx c clientReset

/-! ## Steps -/

inductive ClOp where
  | connect (c : CtxIdx) (cleanSession opened fits : Bool) (n : Nat)
  | send (c : CtxIdx) (msgType : MsgType) (qos : Qos) (fits : Bool) (n : Nat)
  | alloc (msgType : MsgType)
  | free (i : Nat)
  | dispatch (c : CtxIdx) (i : Nat) (qos : Qos) (msgId : UInt16) (n : Nat)
  | pingreq (c : CtxIdx)
  | disconn (c : CtxIdx)
  | progress (c : CtxIdx)
  | rxPrep (c : CtxIdx) (expired : Bool)
  | recv (c : CtxIdx) (mqp : Option Nat) (evt : RxEvent)
  | delete (c : CtxIdx)
  deriving DecidableEq

/-- A call of the API, or the reception of a packet. The application frees and dispatches packets
that it holds, and receives on a context whose network is open. -/
def clOp (l : ClientLib) : ClOp → Option ClientLib
  | .connect c clean opened fits n => some (connectMsgSend l c clean opened fits n)
  | .send c msgType qos fits n => some (mqpMsgSend l c msgType qos fits n)
  | .alloc msgType =>
    match mqpClientAlloc l msgType with
    | none => some l
    | some (i, l) => some { l with held := i :: l.held }
  | .free i => some (if i ∈ l.held then freeMqp { l with held := l.held.erase i } i else l)
  | .dispatch c i qos msgId n =>
    some (if i ∈ l.held then msgDispatchNoFree l c i qos msgId n else l)
  | .pingreq c => some (pingreqSend l c true).1
  | .disconn c => some (mqttDisconnSend l c)
  | .progress c => some (mqttClientSendProgress l c)
  | .rxPrep c expired => some (singleCtxRxPrep l c expired)
  | .recv c mqp evt => if (l.ctxs c).net then mqpSetupProcCtxDataRecv l c mqp evt else some l
  | .delete c => some (mqttClientCtxDelete l c)

def clStep (l : ClientLib) (op : ClOp) : Option (ClientLib × List Obs) :=
  match clOp { l with log := [] } op with
  | none => none
  | some l => some (l, l.log)

end SimpleLink.Client
