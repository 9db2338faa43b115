import Mathlib.Logic.Function.Basic
import SimpleLink.Server.RxParse

/-!
# The packet library of the server (`server_pkts.c`)

A context is an index into `ctxs`; the two lists threaded through `next` are lists of
indices. What lies behind the library is a record of call-backs (`MsgCbs`) over a state
`σ` of its own, with handles of type `U` for the clients it knows. A call-back may send
to any context; a send that fails leaves its mark there (`do_net_close_tx`), so it
returns the contexts that it could not send to.

`log` has what the library did, oldest first. The loopback socket only wakes the
library up; it is in `mqtt_server_run`, but `loopb_trigger` is not modelled.
-/

namespace SimpleLink.Server.Pkts

open Mqtt

/-- `MAX_NWCONN`. -/
abbrev maxNwconn : Nat := 6

abbrev CtxIdx := Fin maxNwconn

/-- `struct client_ctx`; the flags are `NETWORK_CLOSE_FLAG`, `NW_CONN_ERROR_FLAG` and
`RCVD_CONN_MSG_FLAG`. -/
structure ClientCtx (U : Type) where
  usr : Option U
  net : Int
  timeout : UInt32
  kaSecs : UInt16
  networkClose : Bool
  nwConnError : Bool
  rcvdConnMsg : Bool

/-- `cl_ctx_reset`. -/
def clCtxReset {U : Type} : ClientCtx U where
  usr := none
  net := -1
  timeout := 0
  kaSecs := 0
  networkClose := false
  nwConnError := false
  rcvdConnMsg := false

/-! ## The core -/

/-- What a call-back leaves and returns, and the contexts that it could not send to. -/
structure CbRes (σ α : Type) where
  core : σ
  ret : α
  failed : List CtxIdx

/-- Why the core does not accept a connection that the application permits. -/
inductive Refusal where
  | cliReject
  | svrUnavbl

def Refusal.rc : Refusal → UInt16
  | .cliReject => connackRcCliReject
  | .svrUnavbl => connackRcSvrUnavbl

/-- `struct mqtt_server_msg_cbs`; `app` is what the application asks of the core by itself. The
strings and topics that the library reads out of a packet are given as the packet. -/
structure MsgCbs (σ U A : Type) where
  /-- `plugin_connect`. -/
  pluginConnect : σ → ConnUtf8s → CbRes σ UInt16
  /-- What is left to be done for a CONNECT that the application permits; the flag says that there is
  a session. -/
  clConnectRx : σ → CtxIdx → UInt8 → ConnUtf8s → CbRes σ (Except Refusal (U × Bool))
  onConnackSend : σ → Option U → Bool → CbRes σ Unit
  subMsgRx : σ → Option U → Packet → CbRes σ Bool
  unSubMsg : σ → Option U → Packet → CbRes σ Bool
  pubMsgRx : σ → Option U → Packet → CbRes σ Bool
  ackNotify : σ → Option U → Packet → CbRes σ Bool
  onClNetClose : σ → U → Bool → CbRes σ Unit
  app : σ → A → CbRes σ Unit
  /-- The application must set the most significant byte of its answer to 0. -/
  plugin_msb : ∀ s utf8s, (pluginConnect s utf8s).ret >>> 8 = 0

/-- `proc_connect_rx` of the core: the variable header of the CONNACK, and the handle. -/
def MsgCbs.connectRx {σ U A : Type} (cbs : MsgCbs σ U A) (s : σ) (c : CtxIdx) (connFlags : UInt8)
    (utf8s : ConnUtf8s) : CbRes σ (UInt16 × Option U) :=
  let rv := cbs.pluginConnect s utf8s
  if rv.ret ≠ 0 then ⟨rv.core, (rv.ret, none), rv.failed⟩
  else
    let r := cbs.clConnectRx rv.core c connFlags utf8s
    ⟨r.core,
      match r.ret with
      | .error e => (e.rc, none)
      | .ok (usr, present) => (if present then 0x0100 else 0, some usr),
      rv.failed ++ r.failed⟩

theorem MsgCbs.usr_isSome {σ U A : Type} (cbs : MsgCbs σ U A) (s : σ) (c : CtxIdx)
    (connFlags : UInt8) (utf8s : ConnUtf8s) :
    (cbs.connectRx s c connFlags utf8s).ret.2.isSome ↔
      (cbs.connectRx s c connFlags utf8s).ret.1 &&& 0xFF = connackRcReqAccept := by
  unfold MsgCbs.connectRx
  simp only
  split
  · rename_i hne
    have hmsb : (cbs.pluginConnect s utf8s).ret.toNat / 256 = 0 := by
      have h := congrArg UInt16.toNat (cbs.plugin_msb s utf8s)
      simpa [Nat.shiftRight_eq_div_pow] using h
    refine ⟨fun h => absurd h Bool.false_ne_true, fun h => absurd ?_ hne⟩
    have hlsb : (cbs.pluginConnect s utf8s).ret.toNat % 256 = 0 := by
      have hmod := congrArg UInt16.toNat h
      rw [UInt16.toNat_and] at hmod
      exact (Nat.and_two_pow_sub_one_eq_mod _ 8).symm.trans hmod
    apply UInt16.toNat_inj.1
    show (cbs.pluginConnect s utf8s).ret.toNat = 0
    omega
  · cases (cbs.clConnectRx _ c connFlags utf8s).ret with
    | error e =>
      have hrc : e.rc &&& 0xFF ≠ connackRcReqAccept := by cases e <;> decide
      exact iff_of_false Bool.false_ne_true hrc
    | ok r =>
      obtain ⟨usr, present⟩ := r
      have hrc : (if present then 0x0100 else 0 : UInt16) &&& 0xFF = connackRcReqAccept := by
        cases present <;> decide
      exact iff_of_true rfl hrc

/-! ## State -/

/-- What the library did. -/
inductive Obs (U : Type) where
  | opened (c : CtxIdx)
  /-- A CONNECT was processed; there is a handle if it was accepted. -/
  | connect (c : CtxIdx) (usr : Option U)
  /-- Another packet was acted upon. -/
  | acted (c : CtxIdx) (msgType : UInt8)
  | closed (c : CtxIdx)
  | notified (c : CtxIdx) (usr : U) (due2err : Bool)

structure State (σ U : Type) where
  ctxs : CtxIdx → ClientCtx U
  usedCtxs : List CtxIdx
  freeCtxs : List CtxIdx
  core : σ
  log : List (Obs U)

variable {σ U A : Type}

/-- `cl_ctx_init`. -/
def clCtxInit (core : σ) : State σ U where
  ctxs := fun _ => clCtxReset
  usedCtxs := []
  freeCtxs := (List.finRange maxNwconn).reverse
  core := core
  log := []

def State.setCtx (s : State σ U) (c : CtxIdx) (x : ClientCtx U) : State σ U :=
  { s with ctxs := Function.update s.ctxs c x }

def State.report (s : State σ U) (o : Obs U) : State σ U := { s with log := s.log ++ [o] }

/-! ## Contexts -/

/-- `cl_ctx_free`. -/
def clCtxFree (s : State σ U) (c : CtxIdx) : State σ U :=
  { s.setCtx c clCtxReset with freeCtxs := c :: s.freeCtxs }

/-- `cl_ctx_timeout_insert`. -/
def clCtxTimeoutInsert (ctxs : CtxIdx → ClientCtx U) : List CtxIdx → CtxIdx → List CtxIdx
  | [], elem => [elem]
  | curr :: rest, elem =>
    if (ctxs elem).timeout < (ctxs curr).timeout then elem :: curr :: rest
    else curr :: clCtxTimeoutInsert ctxs rest elem

/-- `used_ctxs_insert`. -/
def usedCtxsInsert (s : State σ U) (c : CtxIdx) : State σ U :=
  { s with usedCtxs := clCtxTimeoutInsert s.ctxs s.usedCtxs c }

/-- `used_ctxs_remove`. -/
def usedCtxsRemove (s : State σ U) (c : CtxIdx) : State σ U :=
  { s with usedCtxs := s.usedCtxs.erase c }

/-- `KA_TIMEOUT_NONE`. -/
def kaTimeoutNone : UInt32 := 0xFFFFFFFF

/-- `cl_ctx_timeout_update`. -/
def clCtxTimeoutUpdate (x : ClientCtx U) (now : UInt32) : ClientCtx U :=
  if x.kaSecs = 0 && x.timeout = kaTimeoutNone then x
  else { x with timeout := if x.kaSecs ≠ 0 then now + x.kaSecs.toUInt32 else kaTimeoutNone }

/-- `rx_timeout_update`. -/
def rxTimeoutUpdate (s : State σ U) (c : CtxIdx) (now : UInt32) : State σ U :=
  if !(s.ctxs c).rcvdConnMsg then s
  else usedCtxsInsert (usedCtxsRemove (s.setCtx c (clCtxTimeoutUpdate (s.ctxs c) now)) c) c

/-! ## Sending and closing -/

/-- `do_net_close_tx`. -/
def doNetCloseTx (s : State σ U) (c : CtxIdx) (due2err : Bool) : State σ U :=
  s.setCtx c { s.ctxs c with
    nwConnError := (s.ctxs c).nwConnError || due2err
    networkClose := true }

def afterCb {α : Type} (s : State σ U) (r : CbRes σ α) : State σ U :=
  r.failed.foldl (fun s c => doNetCloseTx s c true) { s with core := r.core }

/-- `do_net_close_rx`. -/
def doNetCloseRx (cbs : MsgCbs σ U A) (s : State σ U) (c : CtxIdx) (due2err : Bool) : State σ U :=
  let s := (s.setCtx c { s.ctxs c with net := -1 }).report (.closed c)
  let s := match (s.ctxs c).usr with
    | none => s
    | some usr => (afterCb s (cbs.onClNetClose s.core usr due2err)).report (.notified c usr due2err)
  clCtxFree (usedCtxsRemove s c) c

/-- `cl_ctx_send`; `sent` is what the network says. -/
def clCtxSend (s : State σ U) (c : CtxIdx) (sent : Bool) : State σ U :=
  if sent then s else doNetCloseTx s c true

/-- `vh_msg_send`. -/
def vhMsgSend (s : State σ U) (c : CtxIdx) (sent : Bool) : State σ U :=
  if !(s.ctxs c).rcvdConnMsg then s else clCtxSend s c sent

/-! ## Receiving -/

def mqttConnect : UInt8 := 0x01
def mqttPublish : UInt8 := 0x03
def mqttPuback : UInt8 := 0x04
def mqttPubrec : UInt8 := 0x05
def mqttPubrel : UInt8 := 0x06
def mqttPubcomp : UInt8 := 0x07
def mqttSubscribe : UInt8 := 0x08
def mqttUnsubscribe : UInt8 := 0x0A
def mqttPingreq : UInt8 := 0x0C
def mqttDisconnect : UInt8 := 0x0E

/-- `MSG_TYPE`. -/
def msgType (pkt : Packet) : UInt8 := (pkt.fhByte1 &&& 0xF0) >>> 4

/-- A packet, and what surrounds its reception: the time, whether the answer can be sent, and what an
uninitialised variable holds. -/
structure Rx where
  pkt : Packet
  now : UInt32
  sent : Bool
  stale : List UInt8

/-- What the library makes of a CONNECT before it asks the core: an answer, or the flags and strings. -/
def connectParse (kaSecs : UInt16) (rx : Rx) :
    UInt16 × Except UInt16 (UInt8 × ConnUtf8s) :=
  match procConnectVhRx rx.stale (rx.pkt.remlen.getLastD 0) rx.pkt.payload with
  | .error rc => (kaSecs, .error rc)
  | .ok (connFlags, kaSecs, buf) =>
    (kaSecs, match procConnectPlRx connFlags buf with
      | none => .error 0x00FF
      | some (utf8s, _) =>
        -- a client without an identifier cannot keep a session
        if utf8s.clientId.isEmpty && connFlags &&& cleanStartVal = 0 then .error connackRcCliReject
        else .ok (connFlags, utf8s))

/-- `proc_connect_rx`. -/
def procConnectRx (cbs : MsgCbs σ U A) (s : State σ U) (c : CtxIdx) (rx : Rx) : State σ U × Bool :=
  let p := connectParse (s.ctxs c).kaSecs rx
  let s := s.setCtx c { s.ctxs c with rcvdConnMsg := true, kaSecs := p.1 }
  match p.2 with
  | .error ackVh16 =>
    let s := s.report (.connect c none)
    (if ackVh16 &&& 0xFF ≠ 0xFF then vhMsgSend s c rx.sent else s, false)
  | .ok (connFlags, utf8s) =>
    let r := cbs.connectRx s.core c connFlags utf8s
    let s := afterCb s r
    let s := (s.setCtx c { s.ctxs c with usr := r.ret.2 }).report (.connect c r.ret.2)
    let s := if r.ret.1 &&& 0xFF ≠ 0xFF then vhMsgSend s c rx.sent else s
    if r.ret.1 &&& 0xFF = connackRcReqAccept then
      let s := rxTimeoutUpdate s c rx.now
      (afterCb s (cbs.onConnackSend s.core (s.ctxs c).usr (connFlags &&& cleanStartVal != 0)), true)
    else (s, false)

def procMsgRx (s : State σ U) (c : CtxIdx) (wellFormed : Bool) (r : CbRes σ Bool)
    (answer : State σ U → State σ U) : State σ U × Bool :=
  if wellFormed then
    let s := afterCb s r
    if r.ret then (answer s, true) else (s, false)
  else (s, false)

/-- `proc_sub_msg_rx`. -/
def procSubMsgRx (cbs : MsgCbs σ U A) (s : State σ U) (c : CtxIdx) (rx : Rx) : State σ U × Bool :=
  procMsgRx s c (procSubMsgRxRaw rx.pkt.payload).isSome
    (cbs.subMsgRx s.core (s.ctxs c).usr rx.pkt) fun s => clCtxSend s c rx.sent

/-- `proc_unsub_msg_rx`. -/
def procUnsubMsgRx (cbs : MsgCbs σ U A) (s : State σ U) (c : CtxIdx) (rx : Rx) : State σ U × Bool :=
  procMsgRx s c (procUnsubMsgRxRaw rx.pkt.payload).isSome
    (cbs.unSubMsg s.core (s.ctxs c).usr rx.pkt) fun s => vhMsgSend s c rx.sent

/-- `proc_pub_msg_rx`; a QoS0 PUBLISH is not answered. -/
def procPubMsgRx (cbs : MsgCbs σ U A) (s : State σ U) (c : CtxIdx) (rx : Rx) : State σ U × Bool :=
  let qos := enumQos rx.pkt.fhByte1
  procMsgRx s c (mqpProcPubRx rx.pkt.fhByte1 rx.pkt.payload).isSome
    (cbs.pubMsgRx s.core (s.ctxs c).usr rx.pkt)
    fun s => if qos = 1 ∨ qos = 2 then vhMsgSend s c rx.sent else s

/-- `proc_ack_msg_rx`. -/
def procAckMsgRx (cbs : MsgCbs σ U A) (s : State σ U) (c : CtxIdx) (rx : Rx) : State σ U × Bool :=
  procMsgRx s c (mqpProcMsgIdAckRx rx.pkt.payload false).isSome
    (cbs.ackNotify s.core (s.ctxs c).usr rx.pkt) id

/-- `proc_pingreq_rx`. -/
def procPingreqRx (s : State σ U) (c : CtxIdx) (rx : Rx) : State σ U × Bool :=
  (vhMsgSend s c rx.sent, true)

/-- `proc_disconn_rx`. -/
def procDisconnRx (cbs : MsgCbs σ U A) (s : State σ U) (c : CtxIdx) : State σ U × Bool :=
  (doNetCloseRx cbs s c false, true)

/-- `process_recv`. -/
def processRecv (cbs : MsgCbs σ U A) (s : State σ U) (c : CtxIdx) (rx : Rx) : State σ U × Bool :=
  let t := msgType rx.pkt
  -- a violation of the protocol
  if ((t != mqttConnect) ^^ (s.ctxs c).rcvdConnMsg) = true then (s, false)
  else
    let s := rxTimeoutUpdate s c rx.now
    if t = mqttConnect then procConnectRx cbs s c rx
    else if t = mqttDisconnect then procDisconnRx cbs (s.report (.acted c t)) c
    else if t = mqttSubscribe then procSubMsgRx cbs (s.report (.acted c t)) c rx
    else if t = mqttUnsubscribe then procUnsubMsgRx cbs (s.report (.acted c t)) c rx
    else if t = mqttPingreq then procPingreqRx (s.report (.acted c t)) c rx
    else if t = mqttPublish then procPubMsgRx cbs (s.report (.acted c t)) c rx
    else if t = mqttPuback ∨ t = mqttPubrec ∨ t = mqttPubrel ∨ t = mqttPubcomp then
      procAckMsgRx cbs (s.report (.acted c t)) c rx
    else (s, false)

/-! ## The loop of the server -/

def ClientCtx.expired (x : ClientCtx U) (now : UInt32) : Bool := x.networkClose || !(now < x.timeout)

/-- A context of `ka_sequence`. -/
def kaClose (cbs : MsgCbs σ U A) (now : UInt32) (s : State σ U) (c : CtxIdx) : State σ U :=
  if (s.ctxs c).expired now then
    let due2err := (s.ctxs c).nwConnError
    doNetCloseRx cbs (s.setCtx c { s.ctxs c with nwConnError := false, networkClose := false }) c
      due2err
  else s

/-- `ka_sequence`, less the time to wait. -/
def kaSequence (cbs : MsgCbs σ U A) (s : State σ U) (now : UInt32) : State σ U :=
  s.usedCtxs.foldl (kaClose cbs now) s

/-- `accept_ctx`; `net` is what `accept` returns, and `now` the time. -/
def acceptCtx (s : State σ U) (net : Int) (waitSecs now : UInt32) : State σ U × Bool :=
  match s.freeCtxs with
  | [] => (s, false)
  | c :: rest =>
    let s := { s with freeCtxs := rest }
    if net = -1 then (clCtxFree s c, false)
    else
      let s := s.setCtx c { s.ctxs c with net := net, timeout := waitSecs + now }
      (usedCtxsInsert (s.report (.opened c)) c, true)

/-- `net_cl_ctx_find`. -/
def netClCtxFind (s : State σ U) (net : Int) : Option CtxIdx :=
  s.usedCtxs.find? fun c => (s.ctxs c).net = net

/-- `proc_net_data_recv`; `rx` is what `mqp_recv` gives, if it is not an error. There is no outcome
for a handle of no context. -/
def procNetDataRecv (cbs : MsgCbs σ U A) (s : State σ U) (net : Int) (rx : Option Rx) :
    Option (State σ U) :=
  match netClCtxFind s net with
  | none => none
  | some c =>
    match rx with
    | none => some (doNetCloseRx cbs s c true)
    | some rx =>
      let r := processRecv cbs s c rx
      some (if r.2 then r.1 else doNetCloseRx cbs r.1 c true)

/-- What the library is asked to do; the mutex keeps one step apart from another. -/
inductive PktsOp (A : Type) where
  | ka (now : UInt32)
  | accept (net : Int) (waitSecs now : UInt32)
  | recv (net : Int) (rx : Option Rx)
  | app (a : A)

def pktsStep (cbs : MsgCbs σ U A) (s : State σ U) : PktsOp A → Option (State σ U × Unit)
  | .ka now => some (kaSequence cbs s now, ())
  | .accept net waitSecs now => some ((acceptCtx s net waitSecs now).1, ())
  | .recv net rx => (procNetDataRecv cbs s net rx).map fun s => (s, ())
  | .app a => some (afterCb s (cbs.app s.core a), ())

end SimpleLink.Server.Pkts
