import SimpleLink.Gagent.Cloud
import SimpleLink.Gagent.LanTcp

/-!
# What the gateway passes on

A payload comes in a frame of the MCU, in a packet of a client in the gateway's own network, or in
a PUBLISH of the cloud. `ParsePacket` sets `ppayload` and `pend` around it where it was received, and
`dealPacket` writes a header in front of it for each side it goes to: reports of the MCU go to the
cloud and to the clients, everything else goes to the MCU.

`relay` is all that is done with one packet received. `none` is an access outside a block of memory, or
to a pointer that was never set.
-/

namespace SimpleLink.Gagent

open Lib

abbrev HAL_BUF_SIZE : Nat := 1024
abbrev ACKBUF_LEN : Nat := 1024
def DID_LEN : Nat := 24
def PHONECLIENTID : Nat := 23

def WIFI_CLOUD_CONNECTED : UInt16 := (1 : UInt16) <<< 5

/-- The command of a payload for the MCU that is to be acknowledged with its number. -/
def P0_WITH_SN : UInt16 := 0x0093

/-- `"app2dev/"` -/
def app2dev : List UInt8 := [0x61, 0x70, 0x70, 0x32, 0x64, 0x65, 0x76, 0x2F]

/-- `"dev2app/"` -/
def dev2app : List UInt8 := [0x64, 0x65, 0x76, 0x32, 0x61, 0x70, 0x70, 0x2F]

structure Hub where
  gateway : Gateway
  /-- The string in `gc.DID`. -/
  did : List UInt8
  hdid : did.length < DID_LEN
  /-- What `GAgent_NewSN` gives next. -/
  newSN : UInt8
  /-- `LOCAL_DATA_OUT` in `Rxbuf->type`. `ParsePacket` sets it for every packet of a client, and only
  the packets that are passed on take it back. -/
  localOut : Bool

inductive Dest where
  | mcu
  | cloud
  | client (i : Channel)
  deriving DecidableEq

structure Relay where
  /-- The packet after it was parsed, and after each change of its header. -/
  packets : List Packet
  sent : List (Dest × List UInt8)
  /-- The topic and the message of what acknowledges a packet of the cloud. -/
  acks : List (List UInt8 × List UInt8)

/-! ## Parsing -/

/-- The memory from `phead` on. -/
def Packet.mem (p : Packet) : List UInt8 := p.allbuf.drop p.phead

def receivedIn (bufcap : Nat) (rx : List UInt8) : Packet where
  allbuf := List.replicate BUF_HEADLEN 0 ++ rx ++ List.replicate (bufcap - rx.length) 0
  phead := BUF_HEADLEN
  ppayload := BUF_HEADLEN
  pend := BUF_HEADLEN

inductive DataIn where
  | cloudDataIn
  | localDataIn
  | lanTcpDataIn

def parsePacket (type : DataIn) (p : Packet) : Packet :=
  let datalen := (mqttParseRemLen (p.mem.drop 3)).toNat
  let varlen := mqttNumRemLenBytes (p.mem.drop 3)
  match type with
  | .cloudDataIn =>
    let cmd := ntohsAt p.mem (4 + varlen + 1)
    let ppayload :=
      if cmd = P0_WITH_SN then p.phead + 4 + varlen + 1 + 2 + 4
      else if cmd = GAGENT_LAN_CMD_TRANSMIT then p.phead + 4 + varlen + 1 + 2
      else p.ppayload
    { p with ppayload, pend := p.phead + 4 + varlen + datalen }
  | .localDataIn =>
    { p with ppayload := p.phead + 8, pend := p.phead + ((ntohsAt p.mem 2).toNat + 4) }
  | .lanTcpDataIn =>
    { p with
      ppayload := p.phead + LAN_PROTOCOL_HEAD_LEN + varlen + LAN_PROTOCOL_FLAG_LEN +
        LAN_PROTOCOL_CMD_LEN
      pend := p.phead + LAN_PROTOCOL_HEAD_LEN + varlen + datalen }

/-! ## Headers in front of a payload -/

/-- The loop of `Tran2varc`, for as many rounds as the first argument says. -/
def varcDigits : Nat → (remainLen : Nat) → List UInt8
  | 0, _ => []
  | k + 1, n =>
    if n / 128 = 0 then [UInt8.ofNat (n % 128)]
    else (UInt8.ofNat (n % 128) ||| 0x80) :: varcDigits k (n / 128)

/-- The array of a `varc` has two bytes. -/
def tran2varc (remainLen : Nat) : Option (List UInt8) :=
  let var := varcDigits 4 remainLen
  if var.length ≤ 2 then some var else none

/-- Version, length, flag and command of what goes to the cloud and to the clients. -/
def p0Header (var : List UInt8) : List UInt8 := [0, 0, 0, 3] ++ var ++ [0x00, 0x00, 0x91]

/-- `packetLen` of `XPGmqtt_publish_with_qos` without acknowledgement. -/
def publishLen (topic msg : List UInt8) : Nat :=
  (if 2 + topic.length + msg.length ≤ 127 then 2 else 3) + (2 + topic.length) + msg.length

/-- The packet is put together in 1024 bytes on the stack, and a zero is written behind it. -/
def publishFits (topic msg : List UInt8) : Prop := publishLen topic msg < 1024

instance (topic msg : List UInt8) : Decidable (publishFits topic msg) := by
  unfold publishFits; infer_instance

/-- `MQTT_SenData`; `phead` is left where it is. -/
def mqttSenData (did : List UInt8) (p : Packet) (buflen : Nat) :
    Option (Packet × List (Dest × List UInt8)) :=
  if did.length ≠ 22 then some (p, [])
  else do
    let var ← tran2varc (1 + 2 + buflen)
    let headlen := (p0Header var).length
    if p.ppayload < headlen then none
    else
      let p ← p.put (p.ppayload - headlen) (p0Header var)
      let sendpack := p.slice (p.ppayload - headlen) (headlen + buflen)
      if publishFits (dev2app ++ did) sendpack then some (p, [(.cloud, sendpack)]) else none

def Gateway.loggedIn (g : Gateway) (i : Channel) : Bool :=
  (g.tcpClient i).fd > 0 ∧ (g.tcpClient i).isLogin = .success

def lanSendTcpData (g : Gateway) (p : Packet) : Option (Packet × List (Dest × List UInt8)) := do
  let var ← tran2varc (p.pend - p.ppayload + LAN_PROTOCOL_CMD_LEN + LAN_PROTOCOL_FLAG_LEN)
  let headlen := (p0Header var).length
  if p.ppayload < headlen then none
  else
    let p := { p with phead := p.ppayload - headlen }
    let p ← p.put p.phead (p0Header var)
    let data := p.slice p.phead (p.pend - p.phead)
    some (p, ((List.finRange LAN_TCPCLIENT_MAX).filter g.loggedIn).map fun i => (.client i, data))

/-! ## The three inputs -/

/-- `dealPacket` for the MCU. -/
def dealLocal (h : Hub) (p : Packet) : Option (Packet × List (Dest × List UInt8)) := do
  let (p, bytes) ← localDataWriteP0 p MCU_CTRL_CMD h.newSN
  some (p, [(.mcu, bytes)])

/-- `dealPacket` for the cloud. -/
def dealCloud (h : Hub) (p : Packet) : Option (Packet × List (Dest × List UInt8)) :=
  if h.gateway.isSet WIFI_CLOUD_CONNECTED then mqttSenData h.did p (p.pend - p.ppayload)
  else some (p, [])

/-- `dealPacket` for the cloud and the clients, and first for the MCU if the packet says so. -/
def dealOut (h : Hub) (localOut : Bool) (p : Packet) : Option Relay := do
  let (p₀, toMcu) ← (if localOut then dealLocal h p else some (p, []))
  let (p₁, toCloud) ← dealCloud h p₀
  let (p₂, toClients) ← lanSendTcpData h.gateway p₁
  some ⟨[p, p₀, p₁, p₂], toMcu ++ toCloud ++ toClients, []⟩

/-- A frame of the MCU: a report in `Rxbuf`, or the answer that `GAgent_CheckAck` waits for, which has
a buffer of its own; and whether `LOCAL_DATA_OUT` is set for it. -/
def localDataHandle (localOut : Bool) (rx : List UInt8) : Option (Packet × Bool) :=
  if localDataValidityCheck rx ≠ none then none
  else if byteAt rx MCU_CMD_POS = MCU_REPORT then
    some (parsePacket .localDataIn (receivedIn BUF_LEN rx), localOut)
  else if byteAt rx MCU_CMD_POS = MCU_CTRL_CMD_ACK ∧ 9 < rx.length then
    some (parsePacket .localDataIn (receivedIn ACKBUF_LEN rx), false)
  else none

/-- `Lan_dispatchTCPData` as far as `GAGENT_LAN_CMD_TRANSMIT` goes: the packet, and whether it is
passed on. -/
def lanTransmit (g : Gateway) (i : Channel) (rx : List UInt8) : Packet × Bool :=
  let p := receivedIn BUF_LEN rx
  let q := parsePacket .lanTcpDataIn p
  (q, lanCmd p.mem = GAGENT_LAN_CMD_TRANSMIT ∧ (lanCheckAuthorization g i).2.2 ∧
    q.ppayload < q.pend)

/-- `topiclen` and what is copied to `topic`. -/
def mqttParsePubTopic (buf : List UInt8) : UInt16 × List UInt8 :=
  let rlb := mqttNumRemLenBytes buf
  let len := ntohsAt buf (1 + rlb)
  (len, (buf.drop (1 + rlb + 2)).take len.toNat)

/-- Where the message is, counted in a `uint8_t`, and its length. -/
def mqttParsePublishMsg (buf : List UInt8) : UInt8 × UInt16 :=
  let rlb := mqttNumRemLenBytes buf
  let offset : UInt8 := byteAt buf (1 + rlb + 1) + UInt8.ofNat (1 + rlb + 2)
  let offset := if mqttParseMessageQos buf ≠ 0 then offset + 2 else offset
  (offset, UInt16.ofInt ((mqttParseRemLen buf).toNat - ((offset.toNat : Int) - (rlb + 1))))

/-- The loop that copies the topic up to its next `/` to the 32 bytes of `DIDBuffer`: what is behind
the `/`. -/
def afterDid : List UInt8 → (i : Nat) → Option (List UInt8)
  | [], _ => none
  | c :: cs, i => if c = 0x2F then (if i < 32 then some cs else none) else afterDid cs (i + 1)

def ackTopic (did clientid : List UInt8) : List UInt8 := dev2app ++ did ++ [0x2F] ++ clientid

/-- `Mqtt_DispatchPublishPacket`: the packet with the message at `phead`, its length, and what was
sent to acknowledge it. -/
def mqttDispatchPublishPacket (h : Hub) (p : Packet) :
    Option (Packet × Nat × List (List UInt8 × List UInt8)) :=
  let topic := mqttParsePubTopic p.mem
  let msg := mqttParsePublishMsg p.mem
  if 128 ≤ topic.1.toNat then none
  else if topic.2.take app2dev.length ≠ app2dev then some (p, 0, [])
  else if msg.2 = 0 then none
  else do
    let pHiP0Data := p.phead + msg.1.toNat
    let hiP0 := p.allbuf.drop pHiP0Data
    let varlen := mqttNumRemLenBytes (hiP0.drop 3)
    let cmd := ntohsAt hiP0 (4 + varlen + 1)
    let client ← afterDid (topic.2.drop app2dev.length) 0
    let clientid := (client.takeWhile (· ≠ 0)).take PHONECLIENTID
    if p.allbuf.length < pHiP0Data + msg.2.toNat then none
    else
      let p ← p.put p.phead (p.slice pHiP0Data msg.2.toNat)
      if cmd = P0_WITH_SN then
        -- the command is put back after the packet was sent
        let ack := overwrite (p.allbuf.drop pHiP0Data) (4 + varlen + 1) [0x00, 0x94]
        let data := ack.take msg.2.toNat
        if publishFits (ackTopic h.did clientid) data then
          some (p, msg.2.toNat, [(ackTopic h.did clientid, data)])
        else none
      else some (p, msg.2.toNat, [])

/-- What a socket gave: `MQTT_readPacket` sets `pend` behind it. -/
def mqttReceived (rx : List UInt8) : Packet :=
  { receivedIn BUF_LEN rx with pend := BUF_HEADLEN + rx.length }

inductive Input where
  | mcu (rx : List UInt8)
  | lan (i : Channel) (rx : List UInt8)
  /-- In a session that runs. -/
  | cloud (rx : List UInt8)

def relay (h : Hub) : Input → Option Relay
  | .mcu rx =>
    match localDataHandle h.localOut rx with
    | some (p, localOut) => dealOut h localOut p
    | none => some ⟨[], [], []⟩
  | .lan i rx =>
    let r := lanTransmit h.gateway i rx
    if r.2 then do
      let (p, sent) ← dealLocal h r.1
      some ⟨[r.1, p], sent, []⟩
    else some ⟨[r.1], [], []⟩
  | .cloud rx =>
    if mqttParseMessageType rx = MQTT_MSG_PUBLISH then do
      let (p, dataLen, acks) ← mqttDispatchPublishPacket h (mqttReceived rx)
      if 0 < dataLen then do
        let q := parsePacket .cloudDataIn p
        let (q', sent) ← dealLocal h q
        some ⟨[q, q'], sent, acks⟩
      else some ⟨[p], [], acks⟩
    else some ⟨[mqttReceived rx], [], []⟩

end SimpleLink.Gagent
