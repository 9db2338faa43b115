import SimpleLink.Gagent.Wire
import SimpleLink.Lib.Overwrite

/-!
# Frames between the gateway and the MCU

A frame is two bytes `0xFF`, the length of what follows it, command, sequence number and
flags, the payload and a checksum. A frame with payload is built in the packet where the
payload stands, `GAgent_LocalDataWriteP0`, and each `0xFF` behind its header is followed by a
`0x55`; an acknowledgement is built in a buffer of its own.

A packet is the block of memory behind `allbuf` with three positions in it. `none` is a write
outside the block.
-/

namespace SimpleLink.Gagent

open Lib

abbrev BUF_LEN : Nat := 1024 * 4
abbrev BUF_HEADLEN : Nat := 128

def MCU_HDR_FF : UInt8 := 0xFF
def MCU_HDR_LEN : Nat := 8
def MCU_LEN_NO_PAYLOAD : Nat := 9
def MCU_CMD_POS : Nat := 4
def MCU_SN_POS : Nat := 5
def MCU_ACK_TIME_MS : Nat := 200

def MCU_INFO_CMD_ACK : UInt8 := 0x02
def MCU_CTRL_CMD : UInt8 := 0x03
def MCU_CTRL_CMD_ACK : UInt8 := 0x04
def MCU_REPORT : UInt8 := 0x05
def WIFI_PING2MCU_ACK : UInt8 := 0x08
def MCU_CONFIG_WIFI : UInt8 := 0x09
def MCU_RESET_WIFI : UInt8 := 0x0B
def WIFI_STATUS2MCU_ACK : UInt8 := 0x0E
def MCU_DATA_ILLEGAL : UInt8 := 0x11
def MCU_REPLY_GAGENT_DATA_ILLEGAL : UInt8 := 0x12
def WIFI_TEST : UInt8 := 0x13
def MCU_ENABLE_BIND : UInt8 := 0x15

/-- `GAGENT_MCU_CHECKSUM_ERROR`, `GAGENT_MCU_CMD_ERROR` and `GAGENT_MCU_OTHER_ERROR`. -/
inductive McuError where
  | checksum
  | cmd
  | other
  deriving DecidableEq, Repr

def McuError.byte : McuError → UInt8
  | .checksum => 0x01
  | .cmd => 0x02
  | .other => 0x03

/-! ## Packets -/

structure Packet where
  allbuf : List UInt8
  phead : Nat
  ppayload : Nat
  pend : Nat

/-- `htons` of a number, as the two bytes of a packet. -/
def htons (n : UInt16) : List UInt8 := [(n >>> 8).toUInt8, n.toUInt8]

def Packet.put (p : Packet) (pos : Nat) (bytes : List UInt8) : Option Packet :=
  if pos + bytes.length ≤ p.allbuf.length then
    some { p with allbuf := overwrite p.allbuf pos bytes }
  else none

def Packet.slice (p : Packet) (pos len : Nat) : List UInt8 := (p.allbuf.drop pos).take len

/-- `GAgent_SetCheckSum`: the sum of `buf[2]` to `buf[packLen - 1]`. -/
def setCheckSum (buf : List UInt8) (packLen : Nat) : UInt8 := ((buf.take packLen).drop 2).sum

/-! ## Stuffing in place -/

/-- `GAgent_MoveOneByte` to the right: from the last byte on, `dataLen` bytes at `pos` go one
further. -/
def moveOneByte (buf : List UInt8) (pos : Nat) : Nat → Option (List UInt8)
  | 0 => some buf
  | n + 1 =>
    if pos + n + 1 < buf.length then
      moveOneByte (buf.set (pos + n + 1) (byteAt buf (pos + n))) pos n
    else none

/-- The loop of `Local_DataAdapter` over `pData`, which is `buf` from `pos` on, for at most as many
rounds as the first argument says. -/
def adapterLoop (pos : Nat) : Nat → List UInt8 → (i dataLen j : Nat) → Option (List UInt8 × Nat)
  | 0, _, _, _, _ => none
  | fuel + 1, buf, i, dataLen, j =>
    if i < dataLen then
      if byteAt buf (pos + i) = 0xFF then
        match moveOneByte buf (pos + i + 1) (dataLen - i) with
        | none => none
        | some buf => adapterLoop pos fuel (buf.set (pos + i + 1) 0x55) (i + 1) (dataLen + 1) (j + 1)
      else adapterLoop pos fuel buf (i + 1) dataLen j
    else some (buf, j)

/-- `Local_DataAdapter`: the buffer afterwards, and the length with the header. -/
def localDataAdapter (buf : List UInt8) (pos dataLen : Nat) : Option (List UInt8 × Nat) :=
  (adapterLoop pos (2 * dataLen + 1) buf 0 dataLen 0).map fun r => (r.1, 2 + dataLen + r.2)

/-! ## What is written -/

/-- `GAgent_LocalDataWriteP0` up to the sending; `sn` is the number `GAgent_NewSN` gives. -/
def localDataWriteP0 (p : Packet) (cmd sn : UInt8) : Option (Packet × List UInt8) :=
  if p.ppayload < MCU_HDR_LEN then none
  else do
    let p := { p with phead := p.ppayload - MCU_HDR_LEN }
    let p ← p.put p.phead [MCU_HDR_FF, MCU_HDR_FF]
    let datalen := UInt16.ofInt ((p.pend : Int) - p.ppayload + 5)
    let p ← p.put (p.phead + 2) (htons datalen)
    let p ← p.put (p.phead + 4) [cmd]
    let p ← p.put (p.phead + 5) [sn]
    let p ← p.put (p.phead + 6) (htons 0)
    let p ← p.put p.pend [setCheckSum (p.allbuf.drop p.phead) (p.pend - p.phead)]
    let p := { p with pend := p.pend + 1 }
    let (buf, len) ← localDataAdapter p.allbuf (p.phead + 2) (p.pend - (p.phead + 2))
    let sendLen := len.toUInt16
    let p := { p with allbuf := buf }
    some (p, p.slice p.phead sendLen.toNat)

/-- The last byte of an acknowledgement is the checksum of those before it. -/
def withCheckSum (buf : List UInt8) : List UInt8 := buf ++ [setCheckSum buf buf.length]

/-- `Local_Ack2MCU`. -/
def localAck2MCU (sn cmd : UInt8) : List UInt8 :=
  withCheckSum ([MCU_HDR_FF, MCU_HDR_FF] ++ htons 5 ++ [cmd, sn, 0, 0])

/-- `Local_Ack2MCU_Illegal`. -/
def localAck2MCUIllegal (sn : UInt8) (flag : McuError) : List UInt8 :=
  withCheckSum ([MCU_HDR_FF, MCU_HDR_FF] ++ htons 6 ++ [MCU_DATA_ILLEGAL, sn, 0, 0, flag.byte])

/-- `Local_GetInfo` asks with a frame of its own. -/
def getMcuInfoBuf : List UInt8 := withCheckSum [0xff, 0xff, 0x00, 0x05, 0x01, 0x01, 0x00, 0x00]

/-! ## The answer of the MCU -/

/-- The commands that the MCU may send. -/
def isMcuCmd (cmd : UInt8) : Bool :=
  cmd ∈ [MCU_INFO_CMD_ACK, WIFI_PING2MCU_ACK, MCU_CTRL_CMD_ACK, WIFI_STATUS2MCU_ACK, MCU_REPORT,
    MCU_CONFIG_WIFI, MCU_RESET_WIFI, WIFI_TEST, MCU_ENABLE_BIND, MCU_REPLY_GAGENT_DATA_ILLEGAL]

/-- `Local_DataValidityCheck` of a frame that is not empty; an error is reported to the MCU. -/
def localDataValidityCheck (rx : List UInt8) : Option McuError :=
  if byteAt rx 0 ≠ 0xFF ∨ byteAt rx 1 ≠ 0xFF then some .other
  else if setCheckSum rx (rx.length - 1) ≠ byteAt rx (rx.length - 1) then some .checksum
  else if isMcuCmd (byteAt rx MCU_CMD_POS) then none
  else some .cmd

/-- One round of `GAgent_CheckAck`: the frame that `GAgent_Local_GetPacket` finds, and the clock. -/
structure Poll where
  rx : Option (List UInt8)
  now : UInt32

/-- `GAgent_Local_GetPacket`: only a frame that passes the check is given on. -/
def Poll.packet (q : Poll) : Option (List UInt8) :=
  match q.rx with
  | none => none
  | some rx => if rx ≠ [] ∧ localDataValidityCheck rx = none then some rx else none

/-- `abs` of the difference of two times. -/
def elapsed (now time : UInt32) : Nat := (((now - time).toNat : Int).bmod (2 ^ 32)).natAbs

/-- `GAgent_CheckAck` for what was sent in `buf`: whether it was acknowledged; `none` is that it
still waits. The clock was `time` when it was sent last. -/
def gAgentCheckAck (buf : List UInt8) :
    List Poll → (time : UInt32) → (resendTime : Nat) → Option Bool
  | [], _, _ => none
  | q :: qs, time, resendTime =>
    match q.packet with
    | some rx =>
      if (byteAt rx 4).toNat = (byteAt buf 4).toNat + 1 ∧ byteAt buf 5 = byteAt rx 5 then
        some (setCheckSum rx (rx.length - 1) = byteAt rx (rx.length - 1))
      else gAgentCheckAck buf qs time resendTime
    | none =>
      if elapsed q.now time ≥ MCU_ACK_TIME_MS then
        if resendTime ≥ 3 then some false else gAgentCheckAck buf qs q.now (resendTime + 1)
      else gAgentCheckAck buf qs time resendTime

end SimpleLink.Gagent
