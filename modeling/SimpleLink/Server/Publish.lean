import SimpleLink.Server.ClientMgmt

/-!
# Publishing (`server_core.c`)

Each leaf that the topic of a PUBLISH selects gets a packet of its own for the clients it has.
-/

namespace SimpleLink.Server

def MqttQos.val : MqttQos → Nat
  | .qos0 => 0
  | .qos1 => 1
  | .qos2 => 2

/-- `MIN` of two QoS values. -/
def MqttQos.min (a b : MqttQos) : MqttQos := if a.val < b.val then a else b

/-- `pub_msg_send`; `mqp_server_alloc` fails for want of memory or for the size of the packet. -/
def pubMsgSend (m : ClMgmt) (topic data : List UInt8) (qos : MqttQos) (retain : Bool)
    (clMap : BitVec 32) : Option ClMgmt :=
  let (ok, env) := m.env.malloc
  let m := { m with env := env }
  if ok then
    let msgId := if qos = .qos0 then 0 else env.newMsgId
    let m := if qos = .qos0 then m else { m with env := { env with lastMsgId := env.newMsgId } }
    let mqp : Mqp := ⟨qos, retain, msgId, topic, data, 0#32⟩
    if clMap ≠ 0#32 then clPubDispatch m clMap mqp else some m
  else some m

end SimpleLink.Server
