import SimpleLink.Lib.Run
import SimpleLink.Server.Dispatch

/-!
# Messages queued for a session (`client_mgmt.c`)

A step is a call of the client manager. `KeepsMessages` is what persistent
sessions promise: a message accepted for a client is queued for it, and stays
queued until the client acknowledges it or ends its session.

`LossFree` is when the code keeps the promise. A send to a connected client
must not fail, nor the copy for those who are away; at a reconnection the
client must be in all maps of `sess_mqp_wl` or in none; a PUBREC must find room
for its identifier; a PUBCOMP must be for the oldest one.
-/

namespace SimpleLink.Server

open Lib Mqtt

/-! ## Steps -/

inductive ClOp where
  | pubMsgSend (topic data : List UInt8) (qos : MqttQos) (retain : Bool) (clMap : BitVec 32)
  /-- `cl_connect_rx`, and `cl_on_connack_send` if the connection is accepted. -/
  | connect (ctx : Nat) (cleanSession : Bool) (clientId : Option (List UInt8)) (will : Option Nat)
  | onNetClose (i : ClIdx)
  | notifyAck (i : ClIdx) (msgType : AckType) (msgId : UInt16)
  | vhMsgSend (i : ClIdx) (msgType : AckType) (msgId : UInt16)
  | qos2PubRxUpdate (i : ClIdx) (msgId : UInt16)
  | subCount (i : ClIdx) (add : Bool)

/-- The outcome names the client whose session ended. The calls about a connection are made for
connected clients. -/
def clStep (m : ClMgmt) : ClOp → Option (ClMgmt × Option ClIdx)
  | .pubMsgSend topic data qos retain clMap =>
    match pubMsgSend m topic data qos retain clMap with
    | none => none
    | some m => some (m, none)
  | .connect ctx cleanSession clientId will =>
    match clConnectRx m ctx cleanSession clientId will with
    | none => some (m, none)
    | some (i, _, m) =>
      match clOnConnackSend m i cleanSession with
      | none => none
      | some m => some (m, if cleanSession then some i else none)
  | .onNetClose i =>
    let u := m.users i
    if u.connected then some (clOnNetClose m i, if u.cleanSession then some i else none)
    else some (m, none)
  | .notifyAck i msgType msgId =>
    if (m.users i).connected then
      match clNotifyAck m i msgType msgId with
      | none => none
      | some (_, m) => some (m, none)
    else some (m, none)
  | .vhMsgSend i msgType msgId => some ((mqttVhMsgSend m (m.users i).ctx msgType msgId).2, none)
  | .qos2PubRxUpdate i msgId =>
    match clMgmtQos2PubRxUpdate m i msgId with
    | none => none
    | some (_, m) => some (m, none)
  | .subCount i add => some (if add then clSubCountAdd m i else clSubCountDel m i, none)

/-! ## The property -/

/-- The message waits for an acknowledgement of the client, or for the client, or for the last
acknowledgement of QoS2. -/
def Held (m : ClMgmt) (i : ClIdx) (msg : Mqp) : Prop :=
  InWl m.qosAck1Wl i msg ∨ ((m.users i).connected = false ∧ InWl m.sessMqpWl i msg) ∨
    (msg.qos = .qos2 ∧ msg.msgId ∈ (m.users i).qos2TxCq.recorded)

/-- The step takes on the message for the client, who has a persistent session. -/
def ClOp.accepts (m : ClMgmt) (i : ClIdx) (msg : Mqp) : ClOp → Prop
  | .pubMsgSend topic data qos retain clMap =>
    m.env.mallocOk m.env.mallocs = true ∧ bit clMap i = true ∧ qos ≠ .qos0 ∧
      (m.users i).isFree = false ∧ (m.users i).cleanSession = false ∧
      msg = ⟨qos, retain, m.env.newMsgId, topic, data, 0#32⟩
  | _ => False

def ClOp.retires (i : ClIdx) (msg : Mqp) : ClOp → Prop
  | .notifyAck j .puback msgId => j = i ∧ msg.qos = .qos1 ∧ msgId = msg.msgId
  | .notifyAck j .pubcomp msgId => j = i ∧ msg.qos = .qos2 ∧ msgId = msg.msgId
  | _ => False

def ClOp.outbound (m : ClMgmt) : ClOp → Prop
  | .qos2PubRxUpdate .. => False
  | .notifyAck i msgType _ => msgType ≠ .pubrel ∧ (m.users i).cleanSession = false
  | _ => True

structure KeepsMessages (m : ClMgmt) (op : ClOp) : Prop where
  returns : op.outbound m → (clStep m op).isSome
  accepted : ∀ m' e, clStep m op = some (m', e) → ∀ i msg, op.accepts m i msg → Held m' i msg
  kept : ∀ m' e, clStep m op = some (m', e) → ∀ i msg, msg.qos ≠ .qos0 →
    (m.users i).cleanSession = false → e ≠ some i → ¬op.retires i msg → Held m i msg →
    Held m' i msg

/-! ## The condition -/

def connectIdx (m : ClMgmt) (clientId : Option (List UInt8)) : Option ClIdx :=
  if clientId = some [] then none
  else
    match findClUsr m.users clientId with
    | (_, some i) => if (m.users i).connected then none else some i
    | (free, none) => free

/-- The sends of `ack2_msg_id_dispatch` for `r` identifiers, from the `n`-th send on. -/
def pubrelSends (sendOk : Nat → Bool) : Nat → Nat → Nat
  | 0, _ => 0
  | r + 1, n => if sendOk n then 1 + pubrelSends sendOk r (n + 1) else 1

/-- The packets of `sess_mqp_wl`, from the `n`-th send and the `k`-th allocation on: the send
succeeds, and before it the copy of a packet that others wait for. -/
def SessDispatchOk (sendOk mallocOk : Nat → Bool) (i : ClIdx) : List Mqp → Nat → Nat → Prop
  | [], _, _ => True
  | mqp :: wl, n, k =>
    if mqp.clMap &&& ~~~clBmap i = 0#32 then
      (mqp.qos ≠ .qos0 → sendOk n = true) ∧ SessDispatchOk sendOk mallocOk i wl (n + 1) k
    else if mallocOk k then
      (mqp.qos ≠ .qos0 → sendOk n = true) ∧ SessDispatchOk sendOk mallocOk i wl (n + 1) (k + 1)
    else mqp.qos = .qos0 ∧ SessDispatchOk sendOk mallocOk i wl n (k + 1)

/-- The sends of a resumed session before those of `sess_mqp_wl`. -/
def resumeSends (m : ClMgmt) (i : ClIdx) : Nat :=
  let n := m.env.sends.length + (m.qosAck1Wl.filter fun mqp => bit mqp.clMap i).length
  let cq := (m.users i).qos2TxCq
  n + pubrelSends m.env.sendOk ((maxPubrelInflt - cq.nFree) - cq.rdIdx) n

/-- `sess_wl_mqp_dispatch` goes through the list only if the client is in every map. -/
def ResumeOk (m : ClMgmt) (i : ClIdx) : Prop :=
  match m.sessMqpWl with
  | [] => True
  | mqp :: wl =>
    if bit mqp.clMap i then
      (∀ mqp ∈ wl, bit mqp.clMap i = true) ∧
        SessDispatchOk m.env.sendOk m.env.mallocOk i (mqp :: wl) (resumeSends m i) m.env.mallocs
    else ∀ mqp ∈ wl, bit mqp.clMap i = true → mqp.qos = .qos0

/-- The packet that an acknowledgement finds is of its QoS, and there is room for an identifier; a
PUBCOMP is for the oldest one. -/
def AckOk (m : ClMgmt) (i : ClIdx) : AckType → UInt16 → Prop
  | .puback, msgId => ∀ mqp ∈ m.qosAck1Wl.find? (fun mqp => msgId = mqp.msgId),
      bit mqp.clMap i = true → mqp.qos ≠ .qos2
  | .pubrec, msgId => ∀ mqp ∈ m.qosAck1Wl.find? (fun mqp => msgId = mqp.msgId),
      bit mqp.clMap i = true → mqp.qos ≠ .qos1 ∧ (mqp.qos = .qos2 → (m.users i).qos2TxCq.nFree ≠ 0)
  | .pubrel, _ => True
  | .pubcomp, msgId => (m.users i).qos2TxCq.recorded ≠ [] →
      (m.users i).qos2TxCq.recorded.head? = some msgId

def LossFree (m : ClMgmt) : ClOp → Prop
  | .pubMsgSend _ _ qos _ clMap =>
    qos ≠ .qos0 → m.env.mallocOk m.env.mallocs = true →
      DispatchOk m clMap (List.finRange maxClients) m.env.sends.length ∧
        ((∃ i : ClIdx, bit clMap i = true ∧ (m.users i).isInactive = true) →
          m.env.mallocOk (m.env.mallocs + 1) = true)
  | .connect _ cleanSession clientId _ =>
    cleanSession = false → ∀ i, connectIdx m clientId = some i → ResumeOk m i
  | .notifyAck i msgType msgId =>
    (m.users i).connected = true → (m.users i).cleanSession = false → AckOk m i msgType msgId
  | _ => True

/-! ## Decidability -/

instance (wl : List Mqp) (i : ClIdx) (msg : Mqp) : Decidable (InWl wl i msg) :=
  inferInstanceAs (Decidable (∃ mqp ∈ wl, mqp.msg = msg ∧ bit mqp.clMap i = true))

instance (m : ClMgmt) (i : ClIdx) (msg : Mqp) : Decidable (Held m i msg) :=
  inferInstanceAs (Decidable (_ ∨ _))

instance DispatchOk.decidable (m : ClMgmt) (clMap : BitVec 32) :
    ∀ is n, Decidable (DispatchOk m clMap is n)
  | [], _ => inferInstanceAs (Decidable True)
  | i :: is, n =>
    have := DispatchOk.decidable m clMap is n
    have := DispatchOk.decidable m clMap is (n + 1)
    by unfold DispatchOk; infer_instance

instance SessDispatchOk.decidable (sendOk mallocOk : Nat → Bool) (i : ClIdx) :
    ∀ wl n k, Decidable (SessDispatchOk sendOk mallocOk i wl n k)
  | [], _, _ => inferInstanceAs (Decidable True)
  | mqp :: wl, n, k =>
    have := SessDispatchOk.decidable sendOk mallocOk i wl (n + 1) k
    have := SessDispatchOk.decidable sendOk mallocOk i wl (n + 1) (k + 1)
    have := SessDispatchOk.decidable sendOk mallocOk i wl n (k + 1)
    by unfold SessDispatchOk; infer_instance

instance (m : ClMgmt) (i : ClIdx) : Decidable (ResumeOk m i) := by
  unfold ResumeOk
  cases m.sessMqpWl <;> infer_instance

instance (m : ClMgmt) (i : ClIdx) (msgType : AckType) (msgId : UInt16) :
    Decidable (AckOk m i msgType msgId) := by
  unfold AckOk
  cases msgType <;> infer_instance

instance (m : ClMgmt) (op : ClOp) : Decidable (LossFree m op) := by
  unfold LossFree
  cases op <;> infer_instance

end SimpleLink.Server
