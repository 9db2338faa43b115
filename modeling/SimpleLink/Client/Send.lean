import SimpleLink.Mqtt.CtxList
import SimpleLink.Mqtt.FixedHeader

/-!
# Sending from a client context (`mqtt_client.c`)

One context of the client library with the pool of packets, as far as sending needs them: the bytes
that are handed to the network, and what the functions return. What the network and the clock do
during a call is `Net`; `log` has the calls that the network was given and the packets that were
accepted for sending, oldest first. Waking up the receive task of a group has no effect here, and the
queues of QoS2 identifiers, which a session that is deleted loses as well, play no part.
-/

namespace SimpleLink.Client.Send

open SimpleLink.Lib SimpleLink.Mqtt

def mqpErrNetOps : Int := -3
def mqpErrFnparam : Int := -4
def mqpErrPktAvl : Int := -5
def mqpErrNotconn : Int := -7
def mqpErrBadcall : Int := -8

/-! ## State -/

/-- A packet; `pooled` says that it has a `free`. -/
structure Mqp where
  pkt : MqttPacket
  nRefs : UInt8
  pooled : Bool

/-- `struct tx_part_pkt`; `buffer` is an index into the buffer of the packet. -/
structure TxPart where
  txMqp : Option Nat
  buffer : Nat
  vhMsg : List UInt8
  length : Nat
  offset : Nat

/-- `TX_PART_BUF_SZ`. -/
def TxPart.bufSz (p : TxPart) : Nat := p.length - p.offset

/-- The options that a context is created with. -/
structure Cfg where
  recvTask : Bool
  protoV31 : Bool
  groupMember : Bool

/-- `struct client_desc`, with its `client_ctx`; `rxMqp` is a packet that is received in part. -/
structure Ctx where
  net : Int
  timeout : UInt32
  kaSecs : UInt16
  connackAwait : Bool
  nowConnected : Bool
  cleanSession : Bool
  kaPinger : Bool
  userPing : Bool
  networkClose : Bool
  doConnackTo : Bool
  txPart : TxPart
  rxMqp : Option Nat
  ack1Wl : List Nat

/-- What is given to the network, and what is accepted for sending. -/
inductive Ev where
  | opened (net : Int)
  | accepted (bytes : List UInt8)
  | sent (net : Int) (bytes : List UInt8)
  | closed (net : Int)
  deriving DecidableEq

structure Lib where
  cfg : Cfg
  ctx : Ctx
  mqps : Nat → Mqp
  freeList : List Nat
  msgId : UInt16
  initDone : Bool
  netOps : Bool
  /-- `conn_ctxs` is not empty. -/
  connCtxs : Bool
  log : List Ev

/-- What the network and the clock do during a call: the handle that is opened or -1, how many bytes
are accepted (0 for an error), what `loopb_trigger` returns, and the time. -/
structure Net where
  opened : Int
  takes : Nat
  loopb : Int
  now : UInt32

def Lib.setCtx (s : Lib) (x : Ctx) : Lib := { s with ctx := x }

def Lib.report (s : Lib) (e : Ev) : Lib := { s with log := s.log ++ [e] }

/-- `is_connected`. -/
def Ctx.isConnected (x : Ctx) : Bool := x.nowConnected && !x.networkClose

/-! ## Packets -/

/-- `mqp_free`. -/
def mqpFree (s : Lib) (i : Nat) : Lib :=
  if (s.mqps i).pooled then
    let nRefs := (s.mqps i).nRefs - 1
    let s := { s with mqps := Function.update s.mqps i { s.mqps i with nRefs := nRefs } }
    if nRefs = 0 then { s with freeList := i :: s.freeList } else s
  else s

/-- `mqp->n_refs++`. -/
def addRef (s : Lib) (i : Nat) : Lib :=
  { s with mqps := Function.update s.mqps i { s.mqps i with nRefs := (s.mqps i).nRefs + 1 } }

def Lib.setPkt (s : Lib) (i : Nat) (pkt : MqttPacket) : Lib :=
  { s with mqps := Function.update s.mqps i { s.mqps i with pkt := pkt } }

/-- `mqp_client_send_alloc`. -/
def mqpClientSendAlloc (s : Lib) (msgType : UInt8) : Option (Nat × Lib) :=
  match s.freeList with
  | [] => none
  | i :: rest =>
    let pkt := { mqpBufferAttach (s.mqps i).pkt.buffer maxFhLen with msgType := msgType }
    some (i, { s with
      freeList := rest
      mqps := Function.update s.mqps i { s.mqps i with pkt := pkt, nRefs := 1 } })

/-! ## The packet that is partly sent -/

/-- `VH_MSG_LEN`. -/
def vhMsgLen : Nat := 4

/-- A message to send: a packet, or the few bytes of one without a packet. -/
inductive Msg where
  | mqp (i : Nat)
  | vh (bytes : List UInt8) (h : bytes.length ≤ vhMsgLen)

/-- The bytes of a message: `MQP_CONTENT_LEN` of them from `MQP_FHEADER_BUF` on, for a packet. -/
def Lib.bytes (s : Lib) : Msg → List UInt8
  | .mqp i => (s.mqps i).pkt.handed
  | .vh bytes _ => bytes

/-- `tx_part_setup`. -/
def txPartSetup (s : Lib) (p : TxPart) : Msg → TxPart
  | .mqp i =>
    let pkt := (s.mqps i).pkt
    { p with txMqp := some i, buffer := pkt.offset, length := pkt.fhLen + pkt.vhLen + pkt.plLen }
  | .vh bytes _ =>
    if vhMsgLen < bytes.length then p
    else { p with txMqp := none, vhMsg := overwrite p.vhMsg 0 bytes, length := bytes.length }

/-- `tx_part_reset`. -/
def txPartReset (s : Lib) : Lib :=
  let p := s.ctx.txPart
  let s := match p.txMqp with
    | none => s
    | some i => mqpFree s i
  s.setCtx { s.ctx with
    txPart := { p with txMqp := none, vhMsg := p.vhMsg.set 0 0, length := 0, offset := 0 } }

/-- `tx_part_buf_p`: the bytes that are still to be sent. -/
def Lib.txBuf (s : Lib) : List UInt8 :=
  let p := s.ctx.txPart
  match p.txMqp with
  | some i => ((s.mqps i).pkt.buffer.drop (p.buffer + p.offset)).take p.bufSz
  | none => (p.vhMsg.drop p.offset).take p.bufSz

/-! ## Closing -/

/-- `mqp_ack_wlist_remove`, of the first packet with the identifier. -/
def ackWlistRemove (s : Lib) (wl : List Nat) (msgId : UInt16) : List Nat :=
  wl.eraseP fun i => (s.mqps i).pkt.msgId = msgId

/-- `session_delete`. -/
def sessionDelete (s : Lib) : Lib :=
  let s := s.ctx.ack1Wl.foldl mqpFree s
  s.setCtx { s.ctx with ack1Wl := [] }

/-- `session_311fix`; the packets that are removed are not freed. -/
def session311fix (s : Lib) : Lib :=
  let wl := s.ctx.ack1Wl.foldl (fun wl i =>
    if (s.mqps i).pkt.msgType ≠ 0x03 then ackWlistRemove s wl (s.mqps i).pkt.msgId else wl)
    s.ctx.ack1Wl
  s.setCtx { s.ctx with ack1Wl := wl }

/-- `do_net_close`. -/
def doNetClose (s : Lib) : Lib :=
  let net := s.ctx.net
  if net = -1 then s
  else
    let s :=
      if s.ctx.cleanSession then sessionDelete s
      else if !s.cfg.protoV31 then session311fix s
      else s
    let s := txPartReset s
    let s := s.setCtx { s.ctx with
      connackAwait := false
      nowConnected := false
      kaPinger := false
      userPing := false
      networkClose := false
      doConnackTo := false
      net := -1 }
    s.report (.closed net)

/-- `do_net_close_tx`. -/
def doNetCloseTx (s : Lib) : Lib :=
  if s.cfg.recvTask then s.setCtx { s.ctx with networkClose := true }
  else
    let rxMqp := s.ctx.rxMqp
    let s := doNetClose s
    let s := match rxMqp with
      | none => s
      | some i => mqpFree s i
    s.setCtx { s.ctx with rxMqp := none }

/-! ## Sending -/

/-- `net_send`: the bytes that the network accepts of `buf`; none for a handle of -1. -/
def netSend (s : Lib) (buf : List UInt8) (net : Net) : List UInt8 :=
  if s.ctx.net = -1 then [] else buf.take net.takes

/-- `cl_ctx_part_send`. -/
def clCtxPartSend (s : Lib) (net : Net) : Lib × Int :=
  let p := s.ctx.txPart
  let sent := netSend s s.txBuf net
  if sent.length ≠ 0 then
    let s := s.report (.sent s.ctx.net sent)
    let s :=
      if s.ctx.nowConnected then
        let timeout := UsedCtxs.clCtxTimeoutUpdate s.ctx.kaSecs s.ctx.timeout net.now
        s.setCtx { s.ctx with timeout := timeout }
      else s
    let s :=
      if sent.length ≠ p.bufSz then
        s.setCtx { s.ctx with txPart := { p with offset := p.offset + sent.length } }
      else txPartReset s
    (s, sent.length)
  else (doNetCloseTx s, mqpErrNetwork)

/-- `cl_ctx_seg1_send`. -/
def clCtxSeg1Send (s : Lib) (msg : Msg) (isConnMsg : Bool) (net : Net) : Lib × Int :=
  if (isConnMsg ^^ s.ctx.isConnected) = false then (s, mqpErrNotconn)
  else if s.ctx.txPart.bufSz ≠ 0 then (s, mqpErrBadcall)
  else
    let s := s.report (.accepted (s.bytes msg))
    clCtxPartSend (s.setCtx { s.ctx with txPart := txPartSetup s s.ctx.txPart msg }) net

/-- `mqtt_client_send_progress`. -/
def mqttClientSendProgress (s : Lib) (net : Net) : Lib × Int :=
  if s.ctx.txPart.bufSz = 0 then (s, mqpErrBadcall)
  else
    let r := clCtxPartSend s net
    if 0 < r.2 then (r.1, r.1.ctx.txPart.bufSz) else r

/-- `mqtt_disconn_send`, less what it returns. -/
def mqttDisconnSend (s : Lib) (net : Net) : Lib :=
  let r := clCtxSeg1Send s (.vh [0xE0, 0] (by decide)) false net
  if 0 < r.2 then doNetCloseTx r.1 else r.1

/-! ## Connecting -/

/-- `net_connect`. -/
def netConnect (s : Lib) (net : Net) : Lib × Int :=
  if s.ctx.networkClose then (s, mqpErrNotDef)
  else if !s.netOps then (s, mqpErrNetOps)
  else
    let s := (s.setCtx { s.ctx with net := net.opened }).report (.opened net.opened)
    (s, if net.opened = -1 then mqpErrNetwork else 0)

/-- `cl_ctx_conn_state_try_locked`. -/
def clCtxConnStateTryLocked (s : Lib) (i : Nat) (kaSecs : UInt16) (cleanSession : Bool) (net : Net) :
    Lib × Int :=
  let r := netConnect s net
  if r.2 < 0 then r
  else
    let r :=
      if !r.1.initDone || r.1.ctx.connackAwait then (r.1, mqpErrBadcall)
      else clCtxSeg1Send r.1 (.mqp i) true net
    if r.2 < 0 then r
    else
      let s := r.1.setCtx { r.1.ctx with
        timeout := net.now
        doConnackTo := true
        connackAwait := true
        cleanSession := r.1.ctx.cleanSession || cleanSession
        kaSecs := kaSecs }
      if s.cfg.groupMember then
        ({ s with connCtxs := true }, if s.connCtxs then r.2 else net.loopb)
      else (s, r.2)

/-- `proc_connack_rx`, up to the messages that a session which goes on sends again; a connection that
is refused is closed. -/
def procConnackRx (s : Lib) (accepted : Bool) (net : Net) : Lib :=
  let s := s.setCtx { s.ctx with doConnackTo := false, connackAwait := false }
  if accepted then
    let timeout := UsedCtxs.clCtxTimeoutUpdate s.ctx.kaSecs s.ctx.timeout net.now
    let s := s.setCtx { s.ctx with nowConnected := true, timeout := timeout }
    if s.ctx.cleanSession then sessionDelete s else s
  else doNetClose s

end SimpleLink.Client.Send
