import SimpleLink.Lib.Base128

/-!
# Receiving a packet (`mqtt_common.c`)

`mqpRecv` is `mqp_recv`: two loops read the fixed header a byte at a time, a
third one reads what the remaining length announces. All it remembers between
two calls are `fh_len`, `pl_len` and the bytes in the buffer.

The network is the list of bytes still to come and, for each call of
`net_ops->recv`, the number of bytes it is ready to hand over: it delivers at
most what was asked for, and an answer that delivers nothing (a time-out, an
error, a stream with nothing left) ends the call with `MQP_ERR_NETWORK`. A store
past the last of the `maxlen` bytes of the buffer has no outcome (`none`).
-/

namespace SimpleLink.Mqtt

open Lib

/-- `MAX_FH_LEN`. -/
abbrev maxFhLen : Nat := 5

/-- `MAX_REMLEN_BYTES`. -/
abbrev maxRemlenBytes : Nat := maxFhLen - 1

def mqpErrNetwork : Int := -1
def mqpErrPktLen : Int := -6
def mqpErrNotDef : Int := -32

/-- `struct mqtt_packet`; `buffer` is the memory the packet refers to, all `maxlen` bytes of it. -/
structure MqttPacket where
  msgType : UInt8
  fhByte1 : UInt8
  msgId : UInt16
  offset : Nat
  fhLen : Nat
  vhLen : Nat
  plLen : Nat
  buffer : List UInt8
  deriving DecidableEq, Repr

def MqttPacket.maxlen (mqp : MqttPacket) : Nat := mqp.buffer.length

def mqpReset (mqp : MqttPacket) : MqttPacket :=
  { mqp with msgType := 0, fhByte1 := 0, msgId := 0, fhLen := 0, vhLen := 0, plLen := 0 }

/-- `mqp_buffer_attach`, which leaves the packet as `mqp_init` does. -/
def mqpBufferAttach (buffer : List UInt8) (offset : Nat) : MqttPacket where
  msgType := 0
  fhByte1 := 0
  msgId := 0
  offset := offset
  fhLen := 0
  vhLen := 0
  plLen := 0
  buffer := buffer

/-! ## The remaining length -/

/-- The loop of `buf_rd_remlen` at byte `i`; after it at most `left` more bytes are read. -/
def bufRdRemlenFrom (buf : List UInt8) (i val mul : Nat) (left : Nat) : Option (Int × Nat) :=
  match buf[i]? with
  | none => none
  | some b =>
    let val := val + (b &&& 0x7F).toNat <<< mul
    if contd b then
      match left with
      | 0 => some (-1, val)
      | left + 1 => bufRdRemlenFrom buf (i + 1) val (mul + 7) left
    else some (i + 1, val)

/-- `buf_rd_remlen`: the number of bytes read (`-1` if the field goes on) and the value. -/
def bufRdRemlen (buf : List UInt8) : Option (Int × Nat) :=
  bufRdRemlenFrom buf 0 0 0 (maxRemlenBytes - 1)

/-- The loop of `buf_tail_wr_remlen` on the local array `val`; `none` past its end. -/
def remlenBytesFrom (remlen : Nat) : Nat → Option (List UInt8)
  | 0 => none
  | left + 1 =>
    let b := UInt8.ofNat (remlen &&& 0x7F)
    if remlen >>> 7 = 0 then some [b]
    else (remlenBytesFrom (remlen >>> 7) left).map ((b ||| 0x80) :: ·)

/-- `buf_tail_wr_remlen`: the bytes it writes at the tail of the four before the payload. -/
def bufTailWrRemlen (remlen : Nat) : Option (List UInt8) :=
  remlenBytesFrom remlen maxRemlenBytes

/-! ## `mqp_recv` -/

/-- Store the bytes one after the other from index `i` on. -/
def storeBytes : List UInt8 → Nat → List UInt8 → Option (List UInt8)
  | buf, _, [] => some buf
  | buf, i, b :: bs => if i < buf.length then storeBytes (buf.set i b) (i + 1) bs else none

/-- `net_ops->recv` of `len` bytes to index `pos` of the buffer, when the network has `k`
bytes ready: the packet and the stream after it, and the return value. -/
def netRecv (mqp : MqttPacket) (pos len : Nat) (stream : List UInt8) (k : Nat) :
    Option (MqttPacket × List UInt8 × Nat) :=
  let data := stream.take (min k len)
  match storeBytes mqp.buffer pos data with
  | none => none
  | some buf => some ({ mqp with buffer := buf }, stream.drop data.length, data.length)

/-- How a loop of `mqp_recv` is left: by a `return` or at its end. -/
inductive Loop where
  | ret (rv : Int) (mqp : MqttPacket) (stream : List UInt8)
  | next (mqp : MqttPacket) (stream : List UInt8) (answers : List Nat)

/-- `while(2 > fh_len)`. -/
def recvFhMin (mqp : MqttPacket) (stream : List UInt8) : List Nat → Option Loop
  | [] => some (if 2 > mqp.fhLen then .ret mqpErrNetwork mqp stream else .next mqp stream [])
  | k :: ks =>
    if 2 > mqp.fhLen then
      match netRecv mqp (mqp.offset + mqp.fhLen) 1 stream k with
      | none => none
      | some (mqp, stream, rv) =>
        if rv < 1 then some (.ret mqpErrNetwork mqp stream)
        else recvFhMin { mqp with fhLen := mqp.fhLen + 1 } stream ks
    else some (.next mqp stream (k :: ks))

/-- `while(buf[fh_len - 1] & 0x80)`. -/
def recvFhMore (mqp : MqttPacket) (stream : List UInt8) : List Nat → Option Loop
  | [] =>
    match mqp.buffer[mqp.offset + mqp.fhLen - 1]? with
    | none => none
    | some b =>
      if contd b then
        if mqp.fhLen > maxFhLen then some (.ret mqpErrNotDef mqp stream)
        else some (.ret mqpErrNetwork mqp stream)
      else some (.next mqp stream [])
  | k :: ks =>
    match mqp.buffer[mqp.offset + mqp.fhLen - 1]? with
    | none => none
    | some b =>
      if contd b then
        if mqp.fhLen > maxFhLen then some (.ret mqpErrNotDef mqp stream)
        else
          match netRecv mqp (mqp.offset + mqp.fhLen) 1 stream k with
          | none => none
          | some (mqp, stream, rv) =>
            if rv < 1 then some (.ret mqpErrNetwork mqp stream)
            else recvFhMore { mqp with fhLen := mqp.fhLen + 1 } stream ks
      else some (.next mqp stream (k :: ks))

/-- `while(pl_len < remlen)`. -/
def recvBody (remlen : Nat) (mqp : MqttPacket) (stream : List UInt8) : List Nat → Option Loop
  | [] => some (if mqp.plLen < remlen then .ret mqpErrNetwork mqp stream else .next mqp stream [])
  | k :: ks =>
    if mqp.plLen < remlen then
      match netRecv mqp (mqp.offset + mqp.fhLen + mqp.plLen) (remlen - mqp.plLen) stream k with
      | none => none
      | some (mqp, stream, rv) =>
        if rv < 1 then some (.ret mqpErrNetwork mqp stream)
        else recvBody remlen { mqp with plLen := mqp.plLen + rv } stream ks
    else some (.next mqp stream (k :: ks))

def andThen : Option Loop →
    (MqttPacket → List UInt8 → List Nat → Option (Int × MqttPacket × List UInt8)) →
    Option (Int × MqttPacket × List UInt8)
  | none, _ => none
  | some (.ret rv mqp stream), _ => some (rv, mqp, stream)
  | some (.next mqp stream answers), f => f mqp stream answers

/-- `mqp_recv`. The copy of the header onto itself at its end changes nothing. -/
def mqpRecv (mqp : MqttPacket) (stream : List UInt8) (answers : List Nat) :
    Option (Int × MqttPacket × List UInt8) :=
  andThen (recvFhMin mqp stream answers) fun mqp stream answers =>
  andThen (recvFhMore mqp stream answers) fun mqp stream answers =>
  match bufRdRemlen (mqp.buffer.drop (mqp.offset + 1)) with
  | none => none
  | some (_, remlen) =>
    if mqp.maxlen < remlen + mqp.fhLen then some (mqpErrPktLen, mqp, stream)
    else
      andThen (recvBody remlen mqp stream answers) fun mqp stream _ =>
      match mqp.buffer[mqp.offset]? with
      | none => none
      | some b =>
        some (mqp.fhLen + remlen, { mqp with fhByte1 := b, msgType := (b &&& 0xF0) >>> 4 }, stream)

end SimpleLink.Mqtt
