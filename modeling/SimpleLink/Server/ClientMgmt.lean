import SimpleLink.Lib.Bitmap
import SimpleLink.Mqtt.Qos2Cq

/-!
# Clients of the server (`client_mgmt.c`)

A client is an index into `users`. `ClMgmt` adds the two wait lists of PUBLISH
packets, `qos_ack1_wl` for what awaits an acknowledgement and `sess_mqp_wl` for
what a session keeps while its client is away, and the environment: the outcome
of the next send, of the next allocation, and what was handed to the network.

A packet's `private` word, `MQP_CL_MAP`, has a bit for each client it is for. An
index outside an array and a loop that does not end have no outcome (`none`).
-/

namespace SimpleLink.Server

open Lib Mqtt

/-- `MAX_CLIENTS`. -/
abbrev maxClients : Nat := 16

/-- `MAX_CLIENT_ID_LEN`. -/
abbrev maxClientIdLen : Nat := 64

abbrev ClIdx := Fin maxClients

/-- `enum mqtt_qos`. -/
inductive MqttQos where
  | qos0
  | qos1
  | qos2
  deriving DecidableEq, Repr

/-- The acknowledgements of a PUBLISH. -/
inductive AckType where
  | puback
  | pubrec
  | pubrel
  | pubcomp
  deriving DecidableEq, Repr

/-- A PUBLISH packet of the server. -/
structure Mqp where
  qos : MqttQos
  retain : Bool
  msgId : UInt16
  topic : List UInt8
  data : List UInt8
  clMap : BitVec 32
  deriving DecidableEq

/-- What is handed to the network of a client context. -/
inductive Sent where
  | vh (ctx : Nat) (msgType : AckType) (msgId : UInt16)
  | pub (ctx : Nat) (mqp : Mqp) (dup : Bool)
  deriving DecidableEq

def Sent.ack? : Sent → Option (AckType × UInt16)
  | .vh _ msgType msgId => some (msgType, msgId)
  | .pub .. => none

/-- The environment: `sendOk n` is the outcome of the send that comes after `n` others. -/
structure Env where
  sendOk : Nat → Bool
  mallocOk : Nat → Bool
  sends : List Sent
  mallocs : Nat
  lastMsgId : UInt16

def allOk (_ : Nat) : Bool := true

/-- `assign_new_msg_id`. -/
def Env.newMsgId (env : Env) : UInt16 := env.lastMsgId + 2

def Env.send (env : Env) (pkt : Sent) : Bool × Env :=
  (env.sendOk env.sends.length, { env with sends := pkt :: env.sends })

def Env.malloc (env : Env) : Bool × Env :=
  (env.mallocOk env.mallocs, { env with mallocs := env.mallocs + 1 })

/-- `struct client_usr`; the flags are `MQ_CONNECT_FLAG`, `CLEAN_SESS_FLAG` and `ASSIGNMENT_FLAG`. -/
structure ClientUsr where
  ctx : Option Nat
  will : Option Nat
  nSub : Nat
  connected : Bool
  cleanSession : Bool
  assigned : Bool
  clientId : List UInt8
  qos2RxCq : PubQos2Cq
  qos2TxCq : PubQos2Cq
  deriving DecidableEq

/-- `cl_usr_reset`. -/
def clUsrReset : ClientUsr where
  ctx := none
  will := none
  nSub := 0
  connected := false
  cleanSession := false
  assigned := false
  clientId := []
  qos2RxCq := qos2PubCqReset
  qos2TxCq := qos2PubCqReset

structure ClMgmt where
  users : ClIdx → ClientUsr
  qosAck1Wl : List Mqp
  sessMqpWl : List Mqp
  env : Env

/-- `cl_mgmt_init`. -/
def clMgmtInit (sendOk mallocOk : Nat → Bool) : ClMgmt where
  users := fun _ => clUsrReset
  qosAck1Wl := []
  sessMqpWl := []
  env := ⟨sendOk, mallocOk, [], 0, 0xFFFF⟩

def ClMgmt.setUser (m : ClMgmt) (i : ClIdx) (u : ClientUsr) : ClMgmt :=
  { m with users := Function.update m.users i u }

def ClientUsr.flagless (u : ClientUsr) : Bool := !u.connected && !u.cleanSession && !u.assigned

/-- `IS_CL_USR_FREE`. -/
def ClientUsr.isFree (u : ClientUsr) : Bool := u.flagless && u.clientId.isEmpty

/-- `IS_CL_INACTIVE`. -/
def ClientUsr.isInactive (u : ClientUsr) : Bool := u.flagless && !u.clientId.isEmpty

/-- `CL_BMAP`. -/
def clBmap (i : ClIdx) : BitVec 32 := 1#32 <<< i.val

/-- `cl_bmap_get`. -/
def clBmapGet (m : ClMgmt) (i : ClIdx) : BitVec 32 := if (m.users i).isFree then 0#32 else clBmap i

/-- `cl_sub_count_add`. -/
def clSubCountAdd (m : ClMgmt) (i : ClIdx) : ClMgmt :=
  let u := m.users i
  if u.connected then m.setUser i { u with nSub := (u.nSub + 1) % 2 ^ 32 } else m

/-- `cl_sub_count_del`. -/
def clSubCountDel (m : ClMgmt) (i : ClIdx) : ClMgmt :=
  let u := m.users i
  if u.connected then m.setUser i { u with nSub := (u.nSub + (2 ^ 32 - 1)) % 2 ^ 32 } else m

/-- `mqtt_vh_msg_send`; nothing is sent without a context. -/
def mqttVhMsgSend (m : ClMgmt) (ctx : Option Nat) (msgType : AckType) (msgId : UInt16) :
    Bool × ClMgmt :=
  match ctx with
  | none => (false, m)
  | some c =>
    let (ok, env) := m.env.send (.vh c msgType msgId)
    (ok, { m with env := env })

/-- `_pub_dispatch`. -/
def pubDispatchTo (m : ClMgmt) (i : ClIdx) (mqp : Mqp) (dup : Bool) : Option (Bool × ClMgmt) :=
  match (m.users i).ctx with
  | none => none
  | some c =>
    let (ok, env) := m.env.send (.pub c mqp dup)
    some (ok, { m with env := env })

/-- `cl_mgmt_qos2_pub_rx_update`: what the caller gets, and the queue afterwards. -/
def clMgmtQos2PubRxUpdate (m : ClMgmt) (i : ClIdx) (msgId : UInt16) : Option (Bool × ClMgmt) :=
  let u := m.users i
  match qos2PubCqCheck u.qos2RxCq msgId with
  | none => none
  | some true => some (true, m)
  | some false =>
    match qos2PubCqLogup u.qos2RxCq msgId with
    | none => none
    | some (cq, ok) => some (ok, m.setUser i { u with qos2RxCq := cq })

/-! ## Wait lists -/

/-- `NEED_TO_WAIT_LIST_PUBLISH`. -/
def needToWaitListPublish (qos : MqttQos) (u : ClientUsr) : Bool :=
  match qos with
  | .qos0 => false
  | .qos1 => !u.cleanSession
  | .qos2 => true

/-- The loop of `pub_dispatch` over the clients: the map for the wait list and the map of the
sessions. -/
def pubDispatchLoop (mqp : Mqp) :
    List ClIdx → ClMgmt → BitVec 32 → BitVec 32 → Option (ClMgmt × BitVec 32 × BitVec 32)
  | [], m, clMap, spMap => some (m, clMap, spMap)
  | i :: is, m, clMap, spMap =>
    if bit clMap i then
      let u := m.users i
      match (if u.connected then pubDispatchTo m i mqp false else some (false, m)) with
      | none => none
      | some (ok, m) =>
        if u.connected && ok && needToWaitListPublish mqp.qos u then
          pubDispatchLoop mqp is m clMap spMap
        else
          -- unconnected, or the send failed, or QoS1 for a clean session
          let spMap := if u.isInactive then spMap ||| clBmap i else spMap
          pubDispatchLoop mqp is m (clMap &&& ~~~clBmap i) spMap
    else pubDispatchLoop mqp is m clMap spMap

/-- `mqp_server_copy`: everything is copied, the map too. -/
def mqpServerCopy (m : ClMgmt) (mqp : Mqp) : Option Mqp × ClMgmt :=
  let (ok, env) := m.env.malloc
  (if ok then some mqp else none, { m with env := env })

/-- The end of `pub_dispatch` for the sessions of `spMap`. -/
def sessWlAppend (m : ClMgmt) (spMap : BitVec 32) (mqp : Mqp) : ClMgmt :=
  if spMap ≠ 0#32 then
    let (cpy, m) := mqpServerCopy m mqp
    { m with sessMqpWl := m.sessMqpWl ++
      cpy.toList.map fun cpy => { cpy with clMap := cpy.clMap ||| spMap } }
  else m

/-- The end of `pub_dispatch` for the clients of `clMap`; without them the packet is freed. -/
def ack1WlAppend (m : ClMgmt) (clMap : BitVec 32) (mqp : Mqp) : ClMgmt :=
  if clMap ≠ 0#32 then
    { m with qosAck1Wl := m.qosAck1Wl ++ [{ mqp with clMap := mqp.clMap ||| clMap }] }
  else m

/-- `pub_dispatch`, `cl_pub_dispatch`. -/
def clPubDispatch (m : ClMgmt) (clMap : BitVec 32) (mqp : Mqp) : Option ClMgmt :=
  match pubDispatchLoop mqp (List.finRange maxClients) m clMap 0#32 with
  | none => none
  | some (m, clMap, spMap) => some (ack1WlAppend (sessWlAppend m spMap mqp) clMap mqp)

/-- `ack1_wl_mqp_dispatch`. -/
def ack1WlMqpDispatch (i : ClIdx) : List Mqp → ClMgmt → Option ClMgmt
  | [], m => some m
  | mqp :: wl, m =>
    if bit mqp.clMap i then
      match pubDispatchTo m i mqp true with
      | none => none
      | some (_, m) => ack1WlMqpDispatch i wl m
    else ack1WlMqpDispatch i wl m

/-- The loop of `ack2_msg_id_dispatch`, from entry `k` of the vector. -/
def ack2MsgIdDispatchFrom (ctx : Option Nat) (cq : PubQos2Cq) : Nat → Nat → ClMgmt → Option ClMgmt
  | 0, _, m => some m
  | n + 1, k, m =>
    match cq.idVec[k]? with
    | none => none
    | some id =>
      match mqttVhMsgSend m ctx .pubrel id with
      | (true, m) => ack2MsgIdDispatchFrom ctx cq n (k + 1) m
      | (false, m) => some m

/-- `ack2_msg_id_dispatch`: entries from `rd_idx` up to the count, which is not an index. -/
def ack2MsgIdDispatch (m : ClMgmt) (i : ClIdx) : Option ClMgmt :=
  let u := m.users i
  let cq := u.qos2TxCq
  ack2MsgIdDispatchFrom u.ctx cq ((maxPubrelInflt - cq.nFree) - cq.rdIdx) cq.rdIdx m

/-- The loop of `sess_wl_mqp_dispatch`: `kept` is before the cursor. `next` is assigned for a packet
of this client only; before the first of them it is NULL (`visited` is false), and afterwards it is
the packet at the cursor. -/
def sessWlMqpDispatchFrom (i : ClIdx) :
    Bool → List Mqp → List Mqp → ClMgmt → Option ClMgmt
  | _, kept, [], m => some { m with sessMqpWl := kept ++ m.sessMqpWl }
  | visited, kept, mqp :: wl, m =>
    if bit mqp.clMap i then
      let mqp := { mqp with clMap := mqp.clMap &&& ~~~clBmap i }
      if mqp.clMap = 0#32 then
        match clPubDispatch m (clBmap i) mqp with
        | none => none
        | some m => sessWlMqpDispatchFrom i true kept wl m
      else
        match mqpServerCopy m mqp with
        | (none, m) => sessWlMqpDispatchFrom i true (kept ++ [mqp]) wl m
        | (some cpy, m) =>
          match clPubDispatch m (clBmap i) cpy with
          | none => none
          | some m => sessWlMqpDispatchFrom i true (kept ++ [mqp]) wl m
    -- `continue` goes to `next`: the end of the loop, or this packet again
    else if visited then none
    else some { m with sessMqpWl := kept ++ mqp :: wl ++ m.sessMqpWl }

/-- `sess_wl_mqp_dispatch`. The client is connected, so that no dispatch appends to this list. -/
def sessWlMqpDispatch (m : ClMgmt) (i : ClIdx) : Option ClMgmt :=
  sessWlMqpDispatchFrom i false [] m.sessMqpWl { m with sessMqpWl := [] }

/-- `wl_mqp_unmap_find`: the packets before the one found, the packet less this client, the rest. -/
def wlMqpUnmapFind (i : ClIdx) (msgId : UInt16) : List Mqp → Option (List Mqp × Mqp × List Mqp)
  | [] => none
  | mqp :: wl =>
    if msgId = mqp.msgId then some ([], { mqp with clMap := mqp.clMap &&& ~~~clBmap i }, wl)
    else
      match wlMqpUnmapFind i msgId wl with
      | none => none
      | some (prev, mqp', wl') => some (mqp :: prev, mqp', wl')

/-- `wl_rmfree_try`. -/
def wlRmfreeTry (prev : List Mqp) (mqp : Mqp) (wl : List Mqp) : List Mqp :=
  if mqp.clMap = 0#32 then prev ++ wl else prev ++ mqp :: wl

/-- `wl_purge`. -/
def wlPurge (i : ClIdx) (wl : List Mqp) : List Mqp :=
  (wl.map fun mqp => { mqp with clMap := mqp.clMap &&& ~~~clBmap i }).filter
    fun mqp => mqp.clMap ≠ 0#32

/-! ## Sessions -/

/-- `session_resume`. -/
def sessionResume (m : ClMgmt) (i : ClIdx) : Option ClMgmt :=
  match ack1WlMqpDispatch i m.qosAck1Wl m with
  | none => none
  | some m =>
    match ack2MsgIdDispatch m i with
    | none => none
    | some m => sessWlMqpDispatch m i

/-- `session_delete`. -/
def sessionDelete (m : ClMgmt) (i : ClIdx) : ClMgmt :=
  let u := m.users i
  { m with
    users := Function.update m.users i
      { u with qos2TxCq := qos2PubCqReset, qos2RxCq := qos2PubCqReset }
    qosAck1Wl := wlPurge i m.qosAck1Wl
    sessMqpWl := wlPurge i m.sessMqpWl }

/-- `has_session_data`. -/
def hasSessionData (m : ClMgmt) (i : ClIdx) : Bool :=
  (m.users i).nSub != 0 || m.qosAck1Wl.any (fun mqp => bit mqp.clMap i) ||
    m.sessMqpWl.any (fun mqp => bit mqp.clMap i)

/-- `cl_can_session_delete`. -/
def clCanSessionDelete (m : ClMgmt) (i : ClIdx) : Bool :=
  (m.users i).cleanSession || !hasSessionData m i

/-- `cl_on_net_close`. -/
def clOnNetClose (m : ClMgmt) (i : ClIdx) : ClMgmt :=
  let u := m.users i
  if u.assigned then
    if hasSessionData m i then m else m.setUser i clUsrReset
  else if u.cleanSession then (sessionDelete m i).setUser i clUsrReset
  else m.setUser i { u with connected := false, ctx := none }

/-! ## Acknowledgements -/

/-- `ack1_unmap_rmfree_try`. -/
def ack1UnmapRmfreeTry (m : ClMgmt) (i : ClIdx) (msgId : UInt16) : ClMgmt :=
  if (m.users i).cleanSession then m
  else
    match wlMqpUnmapFind i msgId m.qosAck1Wl with
    | none => m
    | some (prev, mqp, wl) => { m with qosAck1Wl := wlRmfreeTry prev mqp wl }

/-- `proc_pub_rec_rx`. -/
def procPubRecRx (m : ClMgmt) (i : ClIdx) (msgId : UInt16) : Option (Bool × ClMgmt) :=
  match wlMqpUnmapFind i msgId m.qosAck1Wl with
  | none => some (false, m)
  | some (prev, mqp, wl) =>
    let u := m.users i
    match qos2PubCqLogup u.qos2TxCq msgId with
    | none => none
    | some (cq, true) =>
      let m := { m.setUser i { u with qos2TxCq := cq } with qosAck1Wl := wlRmfreeTry prev mqp wl }
      some (true, (mqttVhMsgSend m u.ctx .pubrel msgId).2)
    -- the client is unmapped already
    | some (_, false) => some (false, { m with qosAck1Wl := prev ++ mqp :: wl })

/-- `proc_pub_rel_rx`. -/
def procPubRelRx (m : ClMgmt) (i : ClIdx) (msgId : UInt16) : Option (Bool × ClMgmt) :=
  let u := m.users i
  let (_, m) := mqttVhMsgSend m u.ctx .pubcomp msgId
  match qos2PubCqCheck u.qos2RxCq msgId with
  | none => none
  | some false => some (true, m)
  | some true =>
    match qos2PubCqUnlog u.qos2RxCq msgId with
    | none => none
    | some (cq, _) => some (true, m.setUser i { u with qos2RxCq := cq })

/-- `cl_notify_ack`. -/
def clNotifyAck (m : ClMgmt) (i : ClIdx) (msgType : AckType) (msgId : UInt16) :
    Option (Bool × ClMgmt) :=
  match msgType with
  | .puback => some (true, ack1UnmapRmfreeTry m i msgId)
  | .pubrec => procPubRecRx m i msgId
  | .pubrel => procPubRelRx m i msgId
  | .pubcomp =>
    let u := m.users i
    match qos2PubCqUnlog u.qos2TxCq msgId with
    | none => none
    | some (cq, ok) => some (ok, m.setUser i { u with qos2TxCq := cq })

/-! ## Connections -/

/-- `assign_cl_index_as_id`. -/
def assignClIndexAsId (i : ClIdx) : List UInt8 :=
  [0x53, 0x65, 0x6C, 0x66, 0x2D, UInt8.ofNat (i.val / 16 + 0x30), UInt8.ofNat (i.val % 16 + 0x30)]

/-- The search of `assign_cl_usr`: the first free client and the first one with the identifier. -/
def findClUsr (users : ClIdx → ClientUsr) (clientId : Option (List UInt8)) :
    Option ClIdx × Option ClIdx :=
  ((List.finRange maxClients).find? fun i => (users i).isFree,
    match clientId with
    | none => none
    | some id =>
      (List.finRange maxClients).find? fun i => (users i).clientId == id.take maxClientIdLen)

/-- `assign_cl_usr`: no client, or the one that is assigned. -/
def assignClUsr (m : ClMgmt) (clientId : Option (List UInt8)) : Option (ClIdx × ClMgmt) :=
  match findClUsr m.users clientId with
  | (_, some i) =>
    let u := m.users i
    -- the identifier of a connected client is rejected
    if u.connected then none else some (i, m.setUser i { u with assigned := true })
  | (some i, none) =>
    let u := m.users i
    let id := match clientId with
      | none => assignClIndexAsId i
      | some id => id.take maxClientIdLen
    some (i, m.setUser i { u with clientId := id, assigned := true })
  | (none, none) => none

/-- `cl_connect_rx`: the client and the Session Present flag, if the connection is accepted. -/
def clConnectRx (m : ClMgmt) (ctx : Nat) (cleanSession : Bool) (clientId : Option (List UInt8))
    (will : Option Nat) : Option (ClIdx × Bool × ClMgmt) :=
  if clientId = some [] then none
  else
    match assignClUsr m clientId with
    | none => none
    | some (i, m) =>
      let sessionPresent := !cleanSession && hasSessionData m i
      some (i, sessionPresent, m.setUser i { m.users i with ctx := some ctx, will := will })

/-- `cl_on_connack_send`. -/
def clOnConnackSend (m : ClMgmt) (i : ClIdx) (cleanSession : Bool) : Option ClMgmt :=
  let u := m.users i
  if u.assigned then
    let m := m.setUser i
      { u with assigned := false, cleanSession := cleanSession, connected := true }
    if cleanSession then some (sessionDelete m i) else sessionResume m i
  else some m

end SimpleLink.Server
