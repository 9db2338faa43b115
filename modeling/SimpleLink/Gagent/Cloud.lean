import SimpleLink.Gagent.LocalFrame

/-!
# The connection to the cloud

The gateway logs in at the server of the cloud with MQTT: a CONNECT, whose answer is awaited, and
three subscriptions one after the other, each sent when the one before has been acknowledged
(`MqttStatus`). What it waits for is asked for again when nothing has come for
`ReConnectMqttTime` seconds.

`cloudStep` is one call of the handler, a tick of the clock, or one of the places that make the
gateway start over. What happens on the connection meanwhile is listed as `CloudEv`s.
-/

namespace SimpleLink.Gagent

abbrev GAGENT_BUF_LEN : Nat := 1024
def GAGENT_CLOUDREADD_TIME : UInt32 := 10
def GAGENT_MQTT_TIMEOUT : UInt32 := 5
def CLOUD_HEARTBEAT : UInt32 := 50

def MQTT_MSG_CONNACK : UInt8 := 0x20
def MQTT_MSG_PUBLISH : UInt8 := 0x30
def MQTT_MSG_SUBACK : UInt8 := 0x90
def MQTT_MSG_UNSUBACK : UInt8 := 0xB0
def MQTT_MSG_PINGRESP : UInt8 := 0xD0

/-! ## Packets -/

def mqttParseMessageType (buf : List UInt8) : UInt8 := byteAt buf 0 &&& 0xF0

def mqttParseMessageQos (buf : List UInt8) : UInt8 := (byteAt buf 0 &&& 0x06) >>> 1

/-- Only the low byte of an identifier fits the result; `id` and, for a PUBLISH, `offset` are
`uint8_t` variables as well. -/
def mqttParseMsgId (buf : List UInt8) : UInt8 :=
  let type := mqttParseMessageType buf
  let rlb := mqttNumRemLenBytes buf
  if MQTT_MSG_PUBLISH ≤ type ∧ type ≤ MQTT_MSG_UNSUBACK then
    if type = MQTT_MSG_PUBLISH then
      if mqttParseMessageQos buf ≠ 0 then
        let offset : UInt8 := byteAt buf (1 + rlb + 1) + UInt8.ofNat (1 + rlb + 2)
        byteAt buf (offset.toNat + 1)
      else 0
    else byteAt buf (1 + rlb + 1)
  else 0

/-- `packet_length` of `MQTT_readPacket`. -/
def mqttPacketLength (buf : List UInt8) : Nat :=
  mqttNumRemLenBytes buf + (mqttParseRemLen buf).toNat + 1

/-- What `recv` finds: the error `-(n + 1)`, or data, of which it takes what fits the buffer. The
connection was closed if the data are empty. -/
inductive Recv where
  | error (n : Fin (2 ^ 31))
  | data (bs : List UInt8)

def Recv.taken : Recv → List UInt8
  | .error _ => []
  | .data bs => bs.take GAGENT_BUF_LEN

def Recv.bytesRcvd : Recv → Int
  | .error n => -(n.val + 1 : Int)
  | .data bs => (bs.take GAGENT_BUF_LEN).length

def mqttReadPacket (r : Recv) : Int :=
  if r.bytesRcvd ≤ 0 then r.bytesRcvd
  else if r.bytesRcvd < mqttPacketLength r.taken then -3
  else r.bytesRcvd

/-! ## The session -/

inductive LoginTopic where
  | topic1
  | topic2
  | topic3
  deriving DecidableEq, Repr

def LoginTopic.next : LoginTopic → Option LoginTopic
  | .topic1 => some .topic2
  | .topic2 => some .topic3
  | .topic3 => none

inductive MqttStatus where
  /-- Zero, until the network is up for the first time. -/
  | unset
  | start
  | resLogin
  | resLoginTopic (t : LoginTopic)
  | running
  deriving DecidableEq, Repr

/-- What happens on the connection. -/
inductive CloudEv where
  /-- The old connection, if any, is closed, and a new one asked for. -/
  | connect
  /-- `recv` gave these bytes. -/
  | received (bs : List UInt8)
  /-- The packet at the head of the buffer is told by its type and goes through the branches for the
  status of the session. -/
  | dispatch (p : List UInt8)
  | subscribe (t : LoginTopic) (id : UInt16)
  deriving DecidableEq, Repr

/-- What the gateway knows of its connection to the cloud. -/
structure Cloud where
  mqttstatus : MqttStatus
  m2mSocketid : Int
  mqttMsgsubid : UInt16
  send2MqttLastTime : UInt32
  reConnectMqttTime : UInt32
  /-- An `int8`, which stays below four. -/
  cloudPingTime : Nat
  /-- The identifier that the broker handle uses next. -/
  seq : UInt16

/-- `buf` is `none` where the handler has read nothing: its pointer is null. -/
def cloudResConnect (buf : Option (List UInt8)) : Bool :=
  buf.any fun bs => byteAt bs 3 = 0 && byteAt bs 0 ≠ 0 && byteAt bs 1 ≠ 0

/-- The identifier is handed over as an `int8`, which has a sign. -/
def cloudResSubTopic (buf : Option (List UInt8)) (msgsubId : UInt16) : Bool :=
  buf.any fun bs => ((mqttParseMsgId bs).toNat : Int) = msgsubId.toUInt8.toInt8.toInt

/-- `Cloud_ReqConnect`: `none` is that the name or the password has no valid length, else `fd` is
what `Cloud_InitSocket` returns. -/
def cloudReqConnect (c : Cloud) : (fd : Option Int) → Cloud × List CloudEv
  | none => (c, [])
  | some fd =>
    if fd ≤ 0 then ({ c with m2mSocketid := fd }, [.connect])
    else ({ c with m2mSocketid := fd, seq := 1 }, [.connect])

def cloudReqSubTopic (c : Cloud) (t : LoginTopic) : Cloud × List CloudEv :=
  ({ c with mqttMsgsubid := c.seq, seq := c.seq + 1 }, [.subscribe t c.seq])

/-- What a call of the handler finds: whether the address of the server is known, the clock, what
the socket holds if it is readable, and what a connect will give. -/
structure Turn where
  hasIp : Bool
  now : UInt32
  readable : Option Recv
  fd : Option Int

/-- What was asked for is asked for again: the time to wait grows. -/
def askAgain (r : Cloud × List CloudEv) : Cloud × List CloudEv :=
  ({ r.1 with reConnectMqttTime := r.1.reConnectMqttTime + GAGENT_CLOUDREADD_TIME }, r.2)

/-- The stages of the login, in the handler's `switch`. -/
def loginStage (c : Cloud) (buf : Option (List UInt8)) (late : Bool) (fd : Option Int) :
    Cloud × List CloudEv :=
  match c.mqttstatus with
  | .resLogin =>
    if cloudResConnect buf then
      let (c, evs) := cloudReqSubTopic c .topic1
      ({ c with mqttstatus := .resLoginTopic .topic1 }, evs)
    else if late then askAgain (cloudReqConnect c fd)
    else (c, [])
  | .resLoginTopic t =>
    if cloudResSubTopic buf c.mqttMsgsubid then
      match t.next with
      | some t' =>
        let (c, evs) := cloudReqSubTopic c t'
        ({ c with mqttstatus := .resLoginTopic t' }, evs)
      | none => ({ c with mqttstatus := .running }, [])
    else if late then askAgain (cloudReqSubTopic c t)
    else (c, [])
  | .unset => (c, [])
  | .start => (c, [])
  | .running => (c, [])

/-- The time since the gateway last asked is more than it waits. -/
def Cloud.late (c : Cloud) (now : UInt32) : Bool :=
  c.reConnectMqttTime.toNat < elapsed now c.send2MqttLastTime

/-- The handler from where it looks at what it has read. -/
def cloudHandleBuf (c : Cloud) (buf : Option (List UInt8)) (h : Turn) : Cloud × List CloudEv :=
  let type := (buf.map mqttParseMessageType).getD 0
  if c.mqttstatus ≠ .running then
    if type = MQTT_MSG_CONNACK ∨ type = MQTT_MSG_SUBACK ∨ c.late h.now then
      let (c, evs) := loginStage c buf (c.late h.now) h.fd
      ({ c with send2MqttLastTime := h.now }, evs)
    else (c, [])
  else if type = MQTT_MSG_PINGRESP then ({ c with cloudPingTime := 0 }, [])
  else (c, [])

def receivedEv (r : Recv) : List CloudEv :=
  if r.taken = [] then [] else [.received r.taken]

/-- The result of `MQTT_readPacket` is kept in an unsigned variable: of the negative ones only `-1`
is told from a length. -/
def cloudReceive (c : Cloud) (r : Recv) (h : Turn) : Cloud × List CloudEv :=
  let packetLen := UInt32.ofInt (mqttReadPacket r)
  if packetLen = UInt32.ofInt (-1) then
    ({ c with m2mSocketid := -1, mqttstatus := .start }, receivedEv r)
  else if 0 < packetLen then
    let c := { c with reConnectMqttTime := GAGENT_MQTT_TIMEOUT }
    let (c, evs) := cloudHandleBuf c (some r.taken) h
    (c, receivedEv r ++ [.dispatch (r.taken.take (mqttPacketLength r.taken))] ++ evs)
  else (c, receivedEv r)

/-- Only a socket in use is selected on. -/
def Cloud.reads (c : Cloud) (h : Turn) : Option Recv :=
  if 0 < c.m2mSocketid then h.readable else none

def cloudM2MDataHandle (c : Cloud) (h : Turn) : Cloud × List CloudEv :=
  if h.hasIp = false then (c, [])
  else if c.mqttstatus = .start then
    if c.late h.now then
      let (c, evs) := cloudReqConnect c h.fd
      ({ c with
          mqttstatus := .resLogin, send2MqttLastTime := h.now,
          reConnectMqttTime := c.reConnectMqttTime + GAGENT_CLOUDREADD_TIME }, evs)
    else (c, [])
  else
    match c.reads h with
    | some r => cloudReceive c r h
    | none => if c.mqttstatus ≠ .running ∧ c.late h.now then cloudHandleBuf c none h else (c, [])

def gAgentCloudTick (c : Cloud) (dTime : UInt32) : Cloud :=
  if c.mqttstatus ≠ .running then c
  else
    let last := c.send2MqttLastTime + dTime
    if CLOUD_HEARTBEAT ≤ last then
      if 2 < c.cloudPingTime then
        { c with
          mqttstatus := .start, send2MqttLastTime := 0, reConnectMqttTime := 0,
          cloudPingTime := 0 }
      else { c with send2MqttLastTime := 0, cloudPingTime := c.cloudPingTime + 1 }
    else { c with send2MqttLastTime := last }

inductive CloudOp where
  | handle (h : Turn)
  | tick (dTime : UInt32)
  /-- The network has changed, or the gateway was given its place in the cloud anew. -/
  | restart

def cloudStep (c : Cloud) : CloudOp → Cloud × List CloudEv
  | .handle h => cloudM2MDataHandle c h
  | .tick dTime => (gAgentCloudTick c dTime, [])
  | .restart => ({ c with mqttstatus := .start }, [])

/-- After `GAgent_Init`. -/
def cloudInit : Cloud where
  mqttstatus := .unset
  m2mSocketid := 0
  mqttMsgsubid := 0
  send2MqttLastTime := 0
  reConnectMqttTime := GAGENT_MQTT_TIMEOUT
  cloudPingTime := 0
  seq := 0

end SimpleLink.Gagent
