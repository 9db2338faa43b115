import Mathlib.Data.List.Basic
import SimpleLink.Mqtt.Session

/-!
# What the server reads out of a packet (`server_pkts.c`, `mqtt_common.c`)

The functions here read the bytes that follow the fixed header, `pl_len` of them. A
string is read with `mqp_buf_rd_utf8`, which fails where the bytes end before the string
does; most callers check that, `proc_connect_vh_rx` does not.
-/

namespace SimpleLink.Server

open Mqtt

/-! ## Fields -/

/-- `buf_rd_nbo_2B`. -/
def bufRdNbo2B (hi lo : UInt8) : UInt16 := hi.toUInt16 <<< 8 ||| lo.toUInt16

/-- `mqp_buf_rd_utf8`: the string and the bytes after it. -/
def mqpBufRdUtf8 : List UInt8 → Option (List UInt8 × List UInt8)
  | hi :: lo :: buf =>
    let len := (bufRdNbo2B hi lo).toNat
    if buf.length < len then none else some (buf.take len, buf.drop len)
  | _ => none

/-- `buf_rd_utf8_qos`. -/
def bufRdUtf8Qos (buf : List UInt8) : Option ((List UInt8 × UInt8) × List UInt8) :=
  match mqpBufRdUtf8 buf with
  | some (utf8, qosreq :: buf) => some ((utf8, qosreq), buf)
  | _ => none

/-- `mqp_proc_vh_msg_id_rx`. -/
def mqpProcVhMsgIdRx : List UInt8 → Option (UInt16 × List UInt8)
  | hi :: lo :: buf => some (bufRdNbo2B hi lo, buf)
  | _ => none

/-- `mqp_proc_msg_id_ack_rx`. -/
def mqpProcMsgIdAckRx (buf : List UInt8) (hasPl : Bool) : Option UInt16 :=
  match mqpProcVhMsgIdRx buf with
  | none => none
  | some (msgId, pl) => if (hasPl ^^ !pl.isEmpty) = true then none else some msgId

/-! ## SUBSCRIBE and UNSUBSCRIBE -/

/-- `MQP_MAX_TOPICS`. -/
abbrev mqpMaxTopics : Nat := 16

/-- The loop of `_proc_sub_msg_rx` and `_proc_unsub_msg_rx`: the topics read and what is left. -/
def rdTopics {α : Type} (rd : List UInt8 → Option (α × List UInt8)) :
    Nat → List UInt8 → List α × List UInt8
  | 0, buf => ([], buf)
  | n + 1, buf =>
    if buf.isEmpty then ([], buf)
    else
      match rd buf with
      | none => ([], buf)
      | some (topic, buf) =>
        let r := rdTopics rd n buf
        (topic :: r.1, r.2)

def procTopicsRx {α : Type} (rd : List UInt8 → Option (α × List UInt8)) (buf : List UInt8) :
    Option (UInt16 × List α) :=
  match mqpProcVhMsgIdRx buf with
  | none => none
  | some (msgId, buf) =>
    let r := rdTopics rd mqpMaxTopics buf
    if r.1.isEmpty || !r.2.isEmpty then none else some (msgId, r.1)

/-- `_proc_sub_msg_rx`. -/
def procSubMsgRxRaw : List UInt8 → Option (UInt16 × List (List UInt8 × UInt8)) :=
  procTopicsRx bufRdUtf8Qos

/-- `_proc_unsub_msg_rx`. -/
def procUnsubMsgRxRaw : List UInt8 → Option (UInt16 × List (List UInt8)) :=
  procTopicsRx mqpBufRdUtf8

/-! ## PUBLISH -/

/-- `ENUM_QOS`. -/
def enumQos (fhByte1 : UInt8) : UInt8 := (fhByte1 &&& 0x6) >>> 1

/-- `mqp_proc_pub_rx`: the identifier and the length of the variable header. The topic of a QoS0
PUBLISH is not checked against the length of the packet. -/
def mqpProcPubRx (fhByte1 : UInt8) (buf : List UInt8) : Option (UInt16 × Nat) :=
  match buf with
  | hi :: lo :: rest =>
    let tmp := (bufRdNbo2B hi lo).toNat
    if enumQos fhByte1 = 0 then some (0, 2 + tmp)
    else
      match mqpProcVhMsgIdRx (rest.drop tmp) with
      | none => none
      | some (msgId, _) => some (msgId, 2 + tmp + 2)
  | _ => none

/-! ## CONNECT -/

def willConfigVal : UInt8 := 0x04
def cleanStartVal : UInt8 := 0x02
def userNameOpval : UInt8 := 0x80
def passWordOpval : UInt8 := 0x40

def connackRcReqAccept : UInt16 := 0x00
def connackRcBadProtov : UInt16 := 0x01
def connackRcCliReject : UInt16 := 0x02
def connackRcSvrUnavbl : UInt16 := 0x03

/-- `proc_protocol_info`: "MQTT" version 4 or "MQIsdp" version 3. -/
def procProtocolInfo (utf8 : List UInt8) (ver : UInt8) : Bool :=
  (utf8 == [0x4D, 0x51, 0x54, 0x54] && ver == 0x04) ||
    (utf8 == [0x4D, 0x51, 0x49, 0x73, 0x64, 0x70] && ver == 0x03)

/-- `proc_connect_vh_rx`: the flags, the time-out and the payload, or what CONNACK says. Where the
name of the protocol cannot be read, the cursor goes back to `before`, the last byte of the fixed
header, and the name is `stale`, whatever the variable held. -/
def procConnectVhRx (stale : List UInt8) (before : UInt8) (buf : List UInt8) :
    Except UInt16 (UInt8 × UInt16 × List UInt8) :=
  let (utf8, buf) :=
    match mqpBufRdUtf8 buf with
    | some r => r
    | none => (stale, before :: buf)
  match buf with
  | [] => .error connackRcBadProtov
  | ver :: buf =>
    if !procProtocolInfo utf8 ver then .error connackRcBadProtov
    else
      match buf with
      | connFlags :: hi :: lo :: buf =>
        let kaSecs := bufRdNbo2B hi lo
        .ok (connFlags, kaSecs + kaSecs >>> 1, buf)
      | _ => .error 0xFF

/-- The strings of a CONNECT; the optional ones are there if their flag is set. -/
structure ConnUtf8s where
  clientId : List UInt8
  willTop : Option (List UInt8)
  willMsg : Option (List UInt8)
  userName : Option (List UInt8)
  passWord : Option (List UInt8)
  deriving DecidableEq

/-- A string that is there if `b` is set. -/
def rdUtf8If (b : Bool) (buf : List UInt8) : Option (Option (List UInt8) × List UInt8) :=
  if b then (mqpBufRdUtf8 buf).map fun r => (some r.1, r.2) else some (none, buf)

/-- `proc_connect_pl_rx`, and the bytes that it leaves. -/
def procConnectPlRx (connFlags : UInt8) (buf : List UInt8) : Option (ConnUtf8s × List UInt8) := do
  let (clientId, buf) ← mqpBufRdUtf8 buf
  let will := connFlags &&& willConfigVal != 0
  let (willTop, buf) ← rdUtf8If will buf
  let (willMsg, buf) ← rdUtf8If will buf
  let user := connFlags &&& userNameOpval != 0
  let pass := connFlags &&& passWordOpval != 0
  if !user && pass then none
  else
    let (userName, buf) ← rdUtf8If user buf
    let (passWord, buf) ← rdUtf8If pass buf
    some (⟨clientId, willTop, willMsg, userName, passWord⟩, buf)

end SimpleLink.Server
