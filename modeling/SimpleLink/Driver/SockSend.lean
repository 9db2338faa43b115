import SimpleLink.Driver.MsgWrite
import SimpleLink.Lib.Overwrite

/-!
# Sending over a socket (`sl_Send`, `sl_SendTo`)

Both cut the buffer into chunks of the largest payload of the socket's type and write one command after
the other until nothing is left. A raw transceiver gets a single chunk and its flags before the payload.
`sockSend_right_iff` says when the commands carry the buffer.

Of `sd` only the low byte is used: the socket, and the type of its payload in the upper half.
-/

namespace SimpleLink.Driver

open Lib

/-! ## Formats -/

def slAfInet : UInt16 := 2
def slAfInet6 : UInt16 := 3
def slAfInet6Eui48 : UInt16 := 9

def slOpcodeSocketSend : UInt16 := 0x940C
def slOpcodeSocketSendTo : UInt16 := 0x940D
def slOpcodeSocketSendToV6 : UInt16 := 0x960D
def slOpcodeSocketBindV6 : UInt16 := 0x9604

def slRetCodeInvalidInput : Int := -2

/-- `SL_SOCKET_PAYLOAD_TYPE_MASK`. -/
def payloadType (sd : UInt8) : UInt8 := sd &&& 0xF0

def slSocketPayloadTypeRawTransceiver : UInt8 := 0x80

def slSocketPayloadBase : Nat := 1350

def slPayloadByProtocolLUT : List Nat :=
  [1472 - 1350, 1460 - 1350, 1452 - 1350, 1440 - 1350, 1386 - 1350, 1386 - 1350, 1396 - 1350,
    1396 - 1350, 1476 - 1350, 1514 - 1350, 1480 - 1350, 1480 - 1350, 1440 - 1350, 1440 - 1350,
    1440 - 1350, 1440 - 1350]

def typeMax (type : UInt8) : Nat :=
  slSocketPayloadBase + slPayloadByProtocolLUT.getD (type >>> 4).toNat 0

/-- The `maxLength` of a socket. -/
def maxLength (sd : UInt8) : Nat := typeMax (payloadType sd)

/-- `_sl_TruncatePayloadByProtocol`. -/
def slTruncatePayloadByProtocol (sd : UInt8) (length : Nat) : Nat :=
  if length > maxLength sd then maxLength sd else length

/-- `_sendRecvCommand_t` and `_SocketAddrCommand_u`, which begin alike; `rest` has the bytes from the
port on. -/
structure SockDesc where
  lenOrPadding : Nat
  sd : UInt8
  familyAndFlags : UInt8
  rest : List UInt8

/-- A command as the device gets it. -/
structure SockCmd where
  opcode : UInt16
  desc : SockDesc
  rxPayload : List UInt8
  payload : List UInt8

/-- `SlSockAddr_t`, as `SlSockAddrIn_t` and as `SlSockAddrIn6_t`. -/
structure SlSockAddr where
  saFamily : UInt16
  port : Vector UInt8 2
  sinAddr : Vector UInt8 4
  sin6Addr : Vector UInt8 16

/-- `_sl_BuildAddress`; `supportIpv6` says whether `SL_SUPPORT_IPV6` is defined. -/
def slBuildAddress (supportIpv6 : Bool) (addr : SlSockAddr) (cmd : SockDesc) : SockDesc :=
  let cmd := { cmd with
    familyAndFlags := (addr.saFamily <<< 4 &&& 0xF0).toUInt8
    rest := overwrite cmd.rest 0 addr.port.toList }
  if addr.saFamily = slAfInet then { cmd with rest := overwrite cmd.rest 4 addr.sinAddr.toList }
  else if addr.saFamily = slAfInet6Eui48 then
    { cmd with rest := overwrite cmd.rest 2 (addr.sin6Addr.toList.take 6) }
  else if supportIpv6 then { cmd with rest := overwrite cmd.rest 4 addr.sin6Addr.toList }
  else cmd

/-! ## The code -/

/-- The loop of both functions: `sent` bytes have been sent in `n` commands, and the next one has
`chunkLen`. `ret n` is what `_SlDrvDataWriteOp` returns for the command after `n` others; it writes
none if that is an error. -/
def writeChunks (ret : Nat → Int) (sd : UInt8) (pBuf : Nat → UInt8) (len : Int)
    (cmd : Nat → List UInt8 → SockCmd) (runSingleChunk : Bool) :
    Nat → Nat → Nat → Nat → Option (List SockCmd × Int)
  | 0, _, _, _ => none
  | fuel + 1, sent, chunkLen, n =>
    if ret n = 0 then
      let written := cmd chunkLen (SlIf.bytes pBuf sent chunkLen)
      let sent := sent + chunkLen
      let chunkLen := slTruncatePayloadByProtocol sd (u16 (len - sent))
      if chunkLen > 0 ∧ runSingleChunk = false then
        (writeChunks ret sd pBuf len cmd runSingleChunk fuel sent chunkLen (n + 1)).map fun r =>
          (written :: r.1, r.2)
      else some ([written], len)
    else some ([], ret n)

/-- The bytes of a `_u32`. -/
def bytes32 (w : BitVec 32) : List UInt8 :=
  (List.range 4).map fun k => UInt8.ofBitVec (w.extractLsb' (8 * k) 8)

/-- `flags & 0x0F`. -/
def flagBits (flags : Int16) : UInt8 := flags.toUInt16.toUInt8 &&& 0x0F

/-- The command of `sl_Send`; `stack` is what stands in `FamilyAndFlags` before it is set. -/
def sendCmd (stack : UInt8) (sd : UInt8) (flags : Int16) (chunkLen : Nat) (payload : List UInt8) :
    SockCmd where
  opcode := slOpcodeSocketSend
  desc := ⟨chunkLen, sd, stack ||| flagBits flags, []⟩
  -- `_SlDrvMsgWrite` sends it with a payload only
  rxPayload :=
    if payloadType sd = slSocketPayloadTypeRawTransceiver ∧ chunkLen ≠ 0 then
      bytes32 (BitVec.ofInt 32 flags.toInt)
    else []
  payload := payload

def slSend (fuel : Nat) (ret : Nat → Int) (stack : UInt8) (sd : UInt8) (pBuf : Nat → UInt8)
    (len flags : Int16) : Option (List SockCmd × Int) :=
  writeChunks ret sd pBuf len.toInt (sendCmd stack sd flags)
    (payloadType sd = slSocketPayloadTypeRawTransceiver) fuel 0
    (slTruncatePayloadByProtocol sd (u16 len.toInt)) 0

/-- The opcode and the length of the arguments that `sl_SendTo` chooses for a family. -/
def sendToFormat (supportIpv6 : Bool) (saFamily : UInt16) : Option (UInt16 × Nat) :=
  if saFamily = slAfInet then some (slOpcodeSocketSendTo, 12)
  else if saFamily = slAfInet6Eui48 then some (slOpcodeSocketBindV6, 12)
  else if saFamily = slAfInet6 ∧ supportIpv6 then some (slOpcodeSocketSendToV6, 24)
  else none

/-- The command of `sl_SendTo`; `stack` is what stands behind `FamilyAndFlags` before it is set. -/
def sendToCmd (supportIpv6 : Bool) (stack : Vector UInt8 20) (sd : UInt8) (flags : Int16)
    (dest : SlSockAddr) (format : UInt16 × Nat) (chunkLen : Nat) (payload : List UInt8) : SockCmd :=
  let desc := slBuildAddress supportIpv6 dest ⟨chunkLen, sd, 0, stack.toList⟩
  { opcode := format.1
    desc := { desc with
      familyAndFlags := desc.familyAndFlags ||| flagBits flags
      rest := desc.rest.take (format.2 - 4) }
    rxPayload := []
    payload := payload }

def slSendTo (supportIpv6 : Bool) (fuel : Nat) (ret : Nat → Int) (stack : Vector UInt8 20)
    (sd : UInt8) (pBuf : Nat → UInt8) (len flags : Int16) (dest : SlSockAddr) :
    Option (List SockCmd × Int) :=
  match sendToFormat supportIpv6 dest.saFamily with
  | none => some ([], slRetCodeInvalidInput)
  | some format =>
    writeChunks ret sd pBuf len.toInt (sendToCmd supportIpv6 stack sd flags dest format) false fuel 0
      (slTruncatePayloadByProtocol sd (u16 len.toInt)) 0

/-! ## What a call is to do -/

/-- A chunk of at most `max` bytes, its length in the arguments. -/
structure ChunkRight (max : Nat) (sd : UInt8) (cmd : SockCmd) : Prop where
  max : cmd.payload.length ≤ max
  len : cmd.desc.lenOrPadding = cmd.payload.length
  sock : cmd.desc.sd = sd

def v6Type (type : UInt8) : UInt8 :=
  if type = 0x00 then 0x20
  else if type = 0x10 then 0x30
  else if type = 0x40 then 0x60
  else if type = 0x50 then 0x70
  else type

/-- The largest payload of a command to an address of the family. -/
def formatMax (saFamily : UInt16) (sd : UInt8) : Nat :=
  if saFamily = slAfInet then maxLength sd else typeMax (v6Type (payloadType sd))

def familyOpcode (saFamily : UInt16) : UInt16 :=
  if saFamily = slAfInet then slOpcodeSocketSendTo else slOpcodeSocketSendToV6

/-- The address, and where it stands behind `FamilyAndFlags`. -/
def SlSockAddr.address (addr : SlSockAddr) : List UInt8 × Nat :=
  if addr.saFamily = slAfInet then (addr.sinAddr.toList, 4)
  else if addr.saFamily = slAfInet6Eui48 then (addr.sin6Addr.toList.take 6, 2)
  else (addr.sin6Addr.toList, 4)

/-- The opcode, the port and the address are those of the family. -/
structure AddressRight (dest : SlSockAddr) (flags : Int16) (cmd : SockCmd) : Prop where
  opcode : cmd.opcode = familyOpcode dest.saFamily
  family : cmd.desc.familyAndFlags = (dest.saFamily <<< 4).toUInt8 ||| flagBits flags
  port : cmd.desc.rest.take 2 = dest.port.toList
  address : cmd.desc.rest.drop dest.address.2 = dest.address.1

/-- The call ends. Its commands are as they should be and carry the buffer from its start on, all of it
if each of them is accepted; then the length is returned. -/
def CommandsRight (ret : Nat → Int) (buf : List UInt8) (len : Int16) (right : SockCmd → Prop)
    (call : Nat → Option (List SockCmd × Int)) : Prop :=
  ∃ fuel cmds rv, call fuel = some (cmds, rv) ∧ (∀ cmd ∈ cmds, right cmd) ∧
    (cmds.map SockCmd.payload).flatten <+: buf ∧
    ((∀ n, ret n = 0) → (cmds.map SockCmd.payload).flatten = buf ∧ rv = len.toInt ∧ 0 ≤ rv)

def callerBuf (pBuf : Nat → UInt8) (len : Int16) : List UInt8 := SlIf.bytes pBuf 0 len.toInt.toNat

def SendRight (stack sd : UInt8) (pBuf : Nat → UInt8) (len flags : Int16) : Prop :=
  ∀ ret, CommandsRight ret (callerBuf pBuf len) len
    (fun cmd => ChunkRight (maxLength sd) sd cmd ∧ cmd.opcode = slOpcodeSocketSend)
    (fun fuel => slSend fuel ret stack sd pBuf len flags)

def SendToRight (supportIpv6 : Bool) (stack : Vector UInt8 20) (sd : UInt8) (pBuf : Nat → UInt8)
    (len flags : Int16) (dest : SlSockAddr) : Prop :=
  ∀ ret, CommandsRight ret (callerBuf pBuf len) len
    (fun cmd => ChunkRight (formatMax dest.saFamily sd) sd cmd ∧ AddressRight dest flags cmd)
    (fun fuel => slSendTo supportIpv6 fuel ret stack sd pBuf len flags dest)

/-! ## The loop -/

theorem truncate_le (sd : UInt8) (n : Nat) : slTruncatePayloadByProtocol sd n ≤ n := by
  unfold slTruncatePayloadByProtocol
  split <;> omega

theorem truncate_le_max (sd : UInt8) (n : Nat) :
    slTruncatePayloadByProtocol sd n ≤ maxLength sd := by
  unfold slTruncatePayloadByProtocol
  split <;> omega

theorem truncate_pos (sd : UInt8) {n : Nat} (h : 0 < n) : 0 < slTruncatePayloadByProtocol sd n := by
  unfold slTruncatePayloadByProtocol maxLength typeMax slSocketPayloadBase
  split <;> omega

section

variable {ret : Nat → Int} {sd : UInt8} {pBuf : Nat → UInt8} {cmd : Nat → List UInt8 → SockCmd}

theorem writeChunks_head {len : Int} {single : Bool} {fuel sent chunkLen n : Nat}
    {cmds : List SockCmd} {rv : Int}
    (h : writeChunks ret sd pBuf len cmd single fuel sent chunkLen n = some (cmds, rv))
    (hret : ret n = 0) :
    ∃ rest, cmds = cmd chunkLen (SlIf.bytes pBuf sent chunkLen) :: rest := by
  cases fuel with
  | zero => cases h
  | succ fuel =>
    simp only [writeChunks, if_pos hret] at h
    split at h
    · obtain ⟨r, -, hr⟩ := Option.map_eq_some_iff.1 h
      cases hr
      exact ⟨_, rfl⟩
    · cases h
      exact ⟨_, rfl⟩

theorem writeChunks_whole (hpay : ∀ k p, (cmd k p).payload = p) {len sent fuel : Nat}
    (hlen : len < 32768) (hsent : sent ≤ len) (hfuel : len - sent < fuel) (n : Nat) :
    ∃ cmds rv, writeChunks ret sd pBuf len cmd false fuel sent
        (slTruncatePayloadByProtocol sd (len - sent)) n = some (cmds, rv) ∧
      (∀ c ∈ cmds, ∃ pos k, k ≤ maxLength sd ∧ k ≤ len ∧ c = cmd k (SlIf.bytes pBuf pos k)) ∧
      (cmds.map SockCmd.payload).flatten <+: SlIf.bytes pBuf sent (len - sent) ∧
      ((∀ m, ret m = 0) →
        (cmds.map SockCmd.payload).flatten = SlIf.bytes pBuf sent (len - sent) ∧ rv = len) := by
  induction fuel generalizing sent n with
  | zero => omega
  | succ fuel ih =>
    have hmax := truncate_le_max sd (len - sent)
    have hle := truncate_le sd (len - sent)
    have hpos := @truncate_pos sd (len - sent)
    generalize slTruncatePayloadByProtocol sd (len - sent) = chunkLen at hmax hle hpos
    by_cases hret : ret n = 0
    · have hleft : u16 ((len : Int) - (sent + chunkLen : Nat)) = len - (sent + chunkLen) := by
        rw [u16_of_lt (by omega) (by omega)]
        omega
      have hsplit : SlIf.bytes pBuf sent (len - sent) =
          SlIf.bytes pBuf sent chunkLen ++
            SlIf.bytes pBuf (sent + chunkLen) (len - (sent + chunkLen)) := by
        rw [SlIf.bytes_append]
        congr 1
        omega
      simp only [writeChunks, if_pos hret, hleft]
      by_cases hmore : slTruncatePayloadByProtocol sd (len - (sent + chunkLen)) > 0
      · have hrest := truncate_le sd (len - (sent + chunkLen))
        obtain ⟨cmds, rv, hrun, hcmds, hpre, hall⟩ :=
          ih (show sent + chunkLen ≤ len by omega) (by omega) (n + 1)
        refine ⟨cmd chunkLen (SlIf.bytes pBuf sent chunkLen) :: cmds, rv, ?_, ?_, ?_, ?_⟩
        · rw [if_pos ⟨hmore, trivial⟩, hrun, Option.map_some]
        · intro c hc
          rcases List.mem_cons.1 hc with rfl | hc
          · exact ⟨sent, chunkLen, hmax, by omega, rfl⟩
          · exact hcmds c hc
        · rw [List.map_cons, List.flatten_cons, hpay, hsplit]
          exact (List.prefix_append_right_inj _).2 hpre
        · intro hok
          obtain ⟨hflat, hrv⟩ := hall hok
          rw [List.map_cons, List.flatten_cons, hpay, hflat, hsplit]
          exact ⟨rfl, hrv⟩
      · have hdone : len - (sent + chunkLen) = 0 := by
          by_contra hne
          exact hmore (truncate_pos sd (by omega))
        refine ⟨[cmd chunkLen (SlIf.bytes pBuf sent chunkLen)], len, ?_, ?_, ?_, ?_⟩
        · rw [if_neg fun h => hmore h.1]
        · intro c hc
          rw [List.mem_singleton.1 hc]
          exact ⟨sent, chunkLen, hmax, by omega, rfl⟩
        · rw [hsplit, hdone, List.map_singleton, List.flatten_singleton, hpay]
          exact List.prefix_append _ _
        · intro _
          rw [hsplit, hdone, List.map_singleton, List.flatten_singleton, hpay, SlIf.bytes_zero,
            List.append_nil]
          exact ⟨rfl, rfl⟩
    · simp only [writeChunks, if_neg hret]
      exact ⟨[], ret n, rfl, fun c hc => absurd hc List.not_mem_nil, List.nil_prefix,
        fun hok => absurd (hok n) hret⟩

theorem writeChunks_single (len : Int) (fuel sent chunkLen n : Nat) :
    writeChunks ret sd pBuf len cmd true (fuel + 1) sent chunkLen n =
      if ret n = 0 then some ([cmd chunkLen (SlIf.bytes pBuf sent chunkLen)], len)
      else some ([], ret n) := by
  simp only [writeChunks, Bool.true_eq_false, and_false, if_false]

end

theorem len_cast {len : Int16} (h : 0 ≤ len.toInt) :
    len.toInt = (len.toInt.toNat : Nat) ∧ len.toInt.toNat < 32768 ∧
      u16 len.toInt = len.toInt.toNat := by
  have hlt := len.toInt_lt
  exact ⟨by omega, by omega, u16_of_lt h (by omega)⟩

theorem commandsRight_chunks (ret : Nat → Int) (sd : UInt8) (pBuf : Nat → UInt8)
    {cmd : Nat → List UInt8 → SockCmd} (hpay : ∀ k p, (cmd k p).payload = p) {len : Int16}
    (hlen : 0 ≤ len.toInt) {right : SockCmd → Prop}
    (hright : ∀ pos k, k ≤ maxLength sd → (k : Int) ≤ len.toInt →
      right (cmd k (SlIf.bytes pBuf pos k))) :
    CommandsRight ret (callerBuf pBuf len) len right fun fuel =>
      writeChunks ret sd pBuf len.toInt cmd false fuel 0
        (slTruncatePayloadByProtocol sd (u16 len.toInt)) 0 := by
  obtain ⟨hcast, hlt, hu⟩ := len_cast hlen
  obtain ⟨cmds, rv, hrun, hcmds, hpre, hall⟩ :=
    @writeChunks_whole ret sd pBuf cmd hpay len.toInt.toNat 0 (len.toInt.toNat + 1) hlt
      (Nat.zero_le _) (Nat.lt_succ_self _) 0
  rw [← hcast] at hrun
  refine ⟨len.toInt.toNat + 1, cmds, rv, ?_, fun c hc => ?_, hpre, fun hok => ?_⟩
  · rw [hu]
    exact hrun
  · obtain ⟨pos, k, hk, hk', rfl⟩ := hcmds c hc
    exact hright pos k hk (by omega)
  · obtain ⟨hflat, hrv⟩ := hall hok
    exact ⟨hflat, hrv.trans hcast.symm, hrv ▸ Int.natCast_nonneg _⟩

/-! ## `sl_Send` -/

section

variable (stack sd : UInt8) (pBuf : Nat → UInt8) (len flags : Int16)

theorem maxLength_raw {sd : UInt8} (h : payloadType sd = slSocketPayloadTypeRawTransceiver) :
    maxLength sd = 1476 := by
  unfold maxLength
  rw [h]
  decide

theorem chunkRight_sendCmd {k pos : Nat} (hk : k ≤ maxLength sd) :
    ChunkRight (maxLength sd) sd (sendCmd stack sd flags k (SlIf.bytes pBuf pos k)) where
  max := by
    rw [show (sendCmd stack sd flags k (SlIf.bytes pBuf pos k)).payload = SlIf.bytes pBuf pos k
      from rfl, SlIf.length_bytes]
    exact hk
  len := (SlIf.length_bytes ..).symm
  sock := rfl

theorem slSend_iff : SendRight stack sd pBuf len flags ↔
    0 ≤ len.toInt ∧
      (payloadType sd = slSocketPayloadTypeRawTransceiver → len.toInt ≤ 1476) := by
  constructor
  · intro h
    obtain ⟨fuel, cmds, rv, hrun, -, -, hall⟩ := h fun _ => 0
    obtain ⟨hflat, hrv, hnonneg⟩ := hall fun _ => rfl
    rw [hrv] at hnonneg
    refine ⟨hnonneg, fun hraw => ?_⟩
    cases fuel with
    | zero => cases hrun
    | succ fuel =>
      simp only [slSend, hraw, decide_true, writeChunks_single, if_true] at hrun
      cases hrun
      -- one chunk carries the buffer only if the buffer is not longer
      have hlen := congrArg List.length hflat
      simp only [List.map_singleton, List.flatten_singleton, sendCmd, callerBuf,
        SlIf.length_bytes] at hlen
      have hmax := truncate_le_max sd (u16 len.toInt)
      rw [maxLength_raw hraw] at hmax
      omega
  · rintro ⟨hnonneg, hraw⟩ ret
    obtain ⟨hcast, hlt, hu⟩ := len_cast hnonneg
    by_cases htype : payloadType sd = slSocketPayloadTypeRawTransceiver
    · have hchunk : slTruncatePayloadByProtocol sd len.toInt.toNat = len.toInt.toNat := by
        have := hraw htype
        unfold slTruncatePayloadByProtocol
        rw [maxLength_raw htype, if_neg (by omega)]
      have hright : ChunkRight (maxLength sd) sd
          (sendCmd stack sd flags len.toInt.toNat (callerBuf pBuf len)) :=
        chunkRight_sendCmd stack sd pBuf flags (hchunk ▸ truncate_le_max sd _)
      refine ⟨1, ?_⟩
      simp only [slSend, htype, decide_true, writeChunks_single, hu, hchunk]
      by_cases hret : ret 0 = 0
      · refine ⟨_, _, if_pos hret, ?_, ?_, fun _ => ⟨?_, rfl, hnonneg⟩⟩
        · intro c hc
          rw [List.mem_singleton.1 hc]
          exact ⟨hright, rfl⟩
        · rw [List.map_singleton, List.flatten_singleton]
          exact List.prefix_rfl
        · exact List.flatten_singleton
      · exact ⟨_, _, if_neg hret, fun c hc => absurd hc List.not_mem_nil, List.nil_prefix,
          fun hok => absurd (hok 0) hret⟩
    · simp only [slSend, htype, decide_false]
      refine commandsRight_chunks ret sd pBuf (fun k p => rfl) hnonneg fun pos k hk _ => ?_
      exact ⟨chunkRight_sendCmd stack sd pBuf flags hk, rfl⟩

end

/-! ## `sl_SendTo` -/

section

variable (supportIpv6 : Bool) (stack : Vector UInt8 20) (sd : UInt8) (pBuf : Nat → UInt8)
  (len flags : Int16) (dest : SlSockAddr)

theorem chunkRight_sendToCmd (format : UInt16 × Nat) {max k pos : Nat} (hk : k ≤ max) :
    ChunkRight max sd
      (sendToCmd supportIpv6 stack sd flags dest format k (SlIf.bytes pBuf pos k)) where
  max := by
    rw [show (sendToCmd supportIpv6 stack sd flags dest format k (SlIf.bytes pBuf pos k)).payload =
      SlIf.bytes pBuf pos k from rfl, SlIf.length_bytes]
    exact hk
  len := by
    unfold sendToCmd slBuildAddress
    simp only [SlIf.length_bytes]
    split
    · rfl
    · split
      · rfl
      · split <;> rfl
  sock := by
    unfold sendToCmd slBuildAddress
    dsimp only
    split
    · rfl
    · split
      · rfl
      · split <;> rfl

/-- A port and an address four bytes behind `FamilyAndFlags`. -/
theorem rest_port_address (port address stack : List UInt8) (hport : port.length = 2)
    (hroom : 4 + address.length ≤ stack.length) :
    ((overwrite (overwrite stack 0 port) 4 address).take (4 + address.length)).take 2 = port ∧
      ((overwrite (overwrite stack 0 port) 4 address).take (4 + address.length)).drop 4 =
        address := by
  have hlen : (overwrite stack 0 port).length = stack.length :=
    length_overwrite (by rw [hport]; omega)
  have hfour : ((overwrite stack 0 port).take 4).length = 4 := by
    rw [List.length_take]
    omega
  rw [take_overwrite (by omega)]
  constructor
  · rw [List.take_append_of_le_length (by omega), List.take_take, Nat.min_eq_left (by omega),
      ← hport, take_overwrite_zero]
  · rw [List.drop_left' hfour]

/-- The arguments of a command, with the address written four bytes behind `FamilyAndFlags`. -/
theorem addressRight_of_desc {format : UInt16 × Nat} {dest : SlSockAddr} {address : List UInt8}
    (hop : format.1 = familyOpcode dest.saFamily) (hargs : format.2 - 4 = 4 + address.length)
    (hroom : 4 + address.length ≤ 20) (haddr : dest.address = (address, 4))
    (hfamily : (dest.saFamily <<< 4 &&& 0xF0).toUInt8 = (dest.saFamily <<< 4).toUInt8) {k : Nat}
    (hdesc : slBuildAddress supportIpv6 dest ⟨k, sd, 0, stack.toList⟩ =
      ⟨k, sd, (dest.saFamily <<< 4 &&& 0xF0).toUInt8,
        overwrite (overwrite stack.toList 0 dest.port.toList) 4 address⟩)
    (payload : List UInt8) :
    AddressRight dest flags (sendToCmd supportIpv6 stack sd flags dest format k payload) := by
  have hstack : stack.toList.length = 20 := Vector.length_toList
  obtain ⟨htake, hdrop⟩ := rest_port_address dest.port.toList address stack.toList
    Vector.length_toList (by omega)
  refine ⟨hop, ?_, ?_, ?_⟩
  · simp only [sendToCmd, hdesc, hfamily]
  · simp only [sendToCmd, hdesc, hargs]
    exact htake
  · simp only [sendToCmd, hdesc, hargs, haddr]
    exact hdrop

theorem addressRight_sendToCmd {format : UInt16 × Nat} {dest : SlSockAddr}
    (hfam : dest.saFamily = slAfInet ∨ dest.saFamily = slAfInet6 ∧ supportIpv6 = true)
    (hformat : sendToFormat supportIpv6 dest.saFamily = some format) (k : Nat)
    (payload : List UInt8) :
    AddressRight dest flags (sendToCmd supportIpv6 stack sd flags dest format k payload) := by
  obtain hinet | ⟨hinet6, rfl⟩ := hfam
  · have hlen : dest.sinAddr.toList.length = 4 := Vector.length_toList
    rw [hinet] at hformat
    cases hformat
    have haddr : dest.address = (dest.sinAddr.toList, 4) := if_pos hinet
    refine addressRight_of_desc supportIpv6 stack sd flags ?_ ?_ (by omega) haddr ?_
      (if_pos hinet) payload
    · rw [hinet]
      rfl
    · exact congrArg (4 + ·) hlen.symm
    · rw [hinet]
      rfl
  · have hlen : dest.sin6Addr.toList.length = 16 := Vector.length_toList
    rw [hinet6] at hformat
    cases hformat
    have hinet : dest.saFamily ≠ slAfInet := by
      rw [hinet6]
      decide
    have heui : dest.saFamily ≠ slAfInet6Eui48 := by
      rw [hinet6]
      decide
    have haddr : dest.address = (dest.sin6Addr.toList, 4) := (if_neg hinet).trans (if_neg heui)
    refine addressRight_of_desc true stack sd flags ?_ ?_ (by omega) haddr ?_
      ((if_neg hinet).trans ((if_neg heui).trans (if_pos rfl))) payload
    · rw [hinet6]
      rfl
    · exact congrArg (4 + ·) hlen.symm
    · rw [hinet6]
      rfl

theorem sendToFormat_right {format : UInt16 × Nat} {saFamily : UInt16}
    (hformat : sendToFormat supportIpv6 saFamily = some format)
    (hright : format.1 = familyOpcode saFamily) :
    saFamily = slAfInet ∨ saFamily = slAfInet6 ∧ supportIpv6 = true := by
  unfold sendToFormat at hformat
  by_cases hinet : saFamily = slAfInet
  · exact .inl hinet
  · rw [if_neg hinet] at hformat
    by_cases heui : saFamily = slAfInet6Eui48
    · rw [if_pos heui] at hformat
      cases hformat
      rw [heui] at hright
      exact absurd hright (by decide)
    · rw [if_neg heui] at hformat
      split at hformat
      · rename_i hinet6
        exact .inr hinet6
      · cases hformat

/-- A buffer that an IPv6 command can take in one chunk, for the types of socket whose chunks are
larger. -/
def V6Fits (sd : UInt8) (len : Int16) : Prop :=
  (payloadType sd = 0x00 → len.toInt ≤ 1452) ∧ (payloadType sd = 0x10 → len.toInt ≤ 1440)

theorem formatMax_v6 {sd : UInt8} {len : Int16} (h : V6Fits sd len) {k : Nat}
    (hk : k ≤ maxLength sd) (hk' : (k : Int) ≤ len.toInt) : k ≤ formatMax slAfInet6 sd := by
  obtain ⟨hudp, htcp⟩ := h
  have hmax : formatMax slAfInet6 sd = typeMax (v6Type (payloadType sd)) := if_neg (by decide)
  rw [hmax]
  unfold maxLength at hk
  generalize payloadType sd = type at hk hudp htcp
  unfold v6Type
  split
  · rename_i htype
    have := hudp htype
    exact (show k ≤ 1452 by omega)
  · split
    · rename_i htype
      have := htcp htype
      exact (show k ≤ 1440 by omega)
    · split
      · rename_i htype
        rw [htype] at hk
        exact Nat.le_trans hk (by decide)
      · split
        · rename_i htype
          rw [htype] at hk
          exact Nat.le_trans hk (by decide)
        · exact hk

theorem v6Fits_of_first {sd : UInt8} {len : Int16} (hlen : 0 ≤ len.toInt)
    (h : slTruncatePayloadByProtocol sd (u16 len.toInt) ≤ formatMax slAfInet6 sd) : V6Fits sd len := by
  have hmax : formatMax slAfInet6 sd = typeMax (v6Type (payloadType sd)) := if_neg (by decide)
  obtain ⟨-, -, hu⟩ := len_cast hlen
  rw [hmax, hu] at h
  unfold slTruncatePayloadByProtocol maxLength at h
  constructor
  · intro htype
    rw [htype] at h
    have h0 : typeMax 0x00 = 1472 := by decide
    have h6 : typeMax (v6Type 0x00) = 1452 := by decide
    rw [h0, h6] at h
    split at h <;> omega
  · intro htype
    rw [htype] at h
    have h0 : typeMax 0x10 = 1460 := by decide
    have h6 : typeMax (v6Type 0x10) = 1440 := by decide
    rw [h0, h6] at h
    split at h <;> omega

theorem slSendTo_iff : SendToRight supportIpv6 stack sd pBuf len flags dest ↔
    0 ≤ len.toInt ∧
      (dest.saFamily = slAfInet ∨
        dest.saFamily = slAfInet6 ∧ supportIpv6 = true ∧ V6Fits sd len) := by
  constructor
  · intro h
    obtain ⟨fuel, cmds, rv, hrun, hcmds, -, hall⟩ := h fun _ => 0
    obtain ⟨-, hrv, hnonneg⟩ := hall fun _ => rfl
    rw [hrv] at hnonneg
    refine ⟨hnonneg, ?_⟩
    unfold slSendTo at hrun
    cases hformat : sendToFormat supportIpv6 dest.saFamily with
    | none =>
      -- refused with an error, which is no length
      rw [hformat] at hrun
      simp only [Option.some.injEq, Prod.mk.injEq, slRetCodeInvalidInput] at hrun
      omega
    | some format =>
      rw [hformat] at hrun
      obtain ⟨rest, hhead⟩ := writeChunks_head hrun rfl
      obtain ⟨hchunk, haddr⟩ := hcmds _ (hhead ▸ List.mem_cons_self)
      refine (sendToFormat_right supportIpv6 hformat haddr.opcode).imp_right ?_
      rintro ⟨hinet6, hsupport⟩
      refine ⟨hinet6, hsupport, v6Fits_of_first hnonneg ?_⟩
      have hfirst := hchunk.max
      rw [hinet6] at hfirst
      refine Nat.le_trans (Nat.le_of_eq ?_) hfirst
      exact (SlIf.length_bytes ..).symm
  · rintro ⟨hnonneg, hfam⟩ ret
    have hfam' : dest.saFamily = slAfInet ∨ dest.saFamily = slAfInet6 ∧ supportIpv6 = true :=
      hfam.imp_right fun h => ⟨h.1, h.2.1⟩
    obtain ⟨format, hformat⟩ : ∃ format, sendToFormat supportIpv6 dest.saFamily = some format := by
      obtain hinet | ⟨hinet6, hsupport⟩ := hfam'
      · rw [hinet]
        exact ⟨_, rfl⟩
      · rw [hinet6, hsupport]
        exact ⟨_, rfl⟩
    simp only [slSendTo, hformat]
    refine commandsRight_chunks ret sd pBuf (fun k p => rfl) hnonneg fun pos k hk hk' => ?_
    refine ⟨chunkRight_sendToCmd supportIpv6 stack sd pBuf flags dest format ?_,
      addressRight_sendToCmd supportIpv6 stack sd flags hfam' hformat k _⟩
    obtain hinet | ⟨hinet6, -, hfits⟩ := hfam
    · rw [hinet]
      exact hk
    · rw [hinet6]
      exact formatMax_v6 hfits hk hk'

end

/-! ## Main result -/

/-- `sl_Send` carries every buffer, of a raw transceiver one that fits a single chunk; `sl_SendTo`
carries every buffer to an IPv4 address, and, where that is built in, to an IPv6 address one that fits
the chunks of the socket. -/
theorem sockSend_right_iff (supportIpv6 : Bool) (stack : UInt8) (stackTo : Vector UInt8 20)
    (sd : UInt8) (pBuf : Nat → UInt8) (len flags : Int16) (dest : SlSockAddr) :
    (SendRight stack sd pBuf len flags ↔
      0 ≤ len.toInt ∧
        (payloadType sd = slSocketPayloadTypeRawTransceiver → len.toInt ≤ 1476)) ∧
    (SendToRight supportIpv6 stackTo sd pBuf len flags dest ↔
      0 ≤ len.toInt ∧
        (dest.saFamily = slAfInet ∨
          dest.saFamily = slAfInet6 ∧ supportIpv6 = true ∧ V6Fits sd len)) :=
  ⟨slSend_iff stack sd pBuf len flags, slSendTo_iff supportIpv6 stackTo sd pBuf len flags dest⟩

/-! ## What goes wrong -/

/-- The address of a station by its hardware address. -/
def eui48Addr : SlSockAddr :=
  ⟨slAfInet6Eui48, #v[0x13, 0x89], #v[0, 0, 0, 0], #v[1, 2, 3, 4, 5, 6, 0, 0, 0, 0, 0, 0, 0, 0, 0, 0]⟩

/-- Three bytes to a hardware address are sent with the opcode of a bind; of 2000 bytes a raw
transceiver gets 1476, and 2000 is returned. -/
theorem sockSend_not_right :
    ((slSendTo false 2 (fun _ => 0) (.replicate 20 0) 0x01 (fun _ => 0x55) 3 0 eui48Addr).map
        fun r => (r.1.map SockCmd.opcode, r.2)) = some ([slOpcodeSocketBindV6], 3) ∧
      ¬ SendToRight false (.replicate 20 0) 0x01 (fun _ => 0x55) 3 0 eui48Addr ∧
      ((slSend 2 (fun _ => 0) 0 0x81 (fun _ => 0x55) 2000 0).map
        fun r => (r.1.map fun cmd => cmd.desc.lenOrPadding, r.2)) = some ([1476], 2000) ∧
      ¬ SendRight 0 0x81 (fun _ => 0x55) 2000 0 := by
  refine ⟨by decide, ?_, by decide, ?_⟩
  · rw [slSendTo_iff]
    rintro ⟨-, hinet | ⟨hinet6, -⟩⟩
    · exact absurd hinet (by decide)
    · exact absurd hinet6 (by decide)
  · rw [slSend_iff]
    decide

end SimpleLink.Driver
