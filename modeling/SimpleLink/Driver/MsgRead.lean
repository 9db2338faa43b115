import SimpleLink.Driver.PoolLists

/-!
# Reading a message from the device (`driver.c`)

The host interface delivers bytes for ever; `SlIf` is the stream with the position
of the next byte, and `sl_IfRead` moves the position by the length it is asked
for. A failed `VERIFY_PROTOCOL` or `VERIFY_RET_OK` spins for ever, as does a loop
whose exit is never reached: loops that the code does not bound take fuel, and no
outcome (`none`) whatever the fuel means that the call does not return.

Sixteen-bit variables are kept as `Nat` or `Int` and wrapped where they are
assigned. `RxMsg` collects what a call stores for its caller.
-/

namespace SimpleLink.Driver

open Lib

/-! ## The interface -/

structure SlIf where
  stream : Nat → UInt8
  pos : Nat

/-- The `len` bytes of the stream from index `pos` on. -/
def SlIf.bytes (stream : Nat → UInt8) (pos len : Nat) : List UInt8 :=
  (List.range len).map fun i => stream (pos + i)

/-- `NWP_IF_READ_CHECK`. -/
def SlIf.read (f : SlIf) (len : Nat) : List UInt8 × SlIf :=
  (SlIf.bytes f.stream f.pos len, { f with pos := f.pos + len })

/-- `n & 3`. -/
def low2 (n : Nat) : Nat := n % 4

/-- `n & ~3`. -/
def clear2 (n : Nat) : Nat := n / 4 * 4

/-- `_SL_PROTOCOL_ALIGN_SIZE`. -/
def slProtocolAlignSize (msgLen : Nat) : Nat := clear2 (msgLen + 3)

/-- Assignment to an `_i16`. -/
def i16 (n : Int) : Int := n.bmod 65536

/-- The dump loops: `while(AlignedLengthRecv > 0)` four bytes are read away, the count being
a `_u16`. -/
def dumpRest : Nat → Nat → SlIf → Option SlIf
  | 0, _, _ => none
  | fuel + 1, alignedLengthRecv, f =>
    if alignedLengthRecv > 0 then dumpRest fuel ((alignedLengthRecv + 65532) % 65536) (f.read 4).2
    else some f

/-- Read the aligned part to the buffer, then the tail through `TailBuffer`. -/
def readTail (f : SlIf) (alignedLengthRecv lengthToCopy : Nat) : List UInt8 × SlIf :=
  let (data, f) := if alignedLengthRecv ≥ 4 then f.read alignedLengthRecv else ([], f)
  if lengthToCopy > 0 then
    let (tailBuffer, f) := f.read 4
    (data ++ tailBuffer.take lengthToCopy, f)
  else (data, f)

/-! ## Headers -/

/-- `SYNC_PATTERN_LEN`, `_SL_RESP_SPEC_HDR_SIZE` and half of `_SL_RESP_HDR_SIZE`. -/
abbrev syncPatternLen : Nat := 4
abbrev slRespSpecHdrSize : Nat := 4
abbrev slSyncScanThreshold : Nat := 2000
abbrev flowContMin : Nat := 1

def n2hSyncSpim : BitVec 32 := 0xABCDDCBA#32 &&& 0x7FFF7F7F#32

def word (buf : List UInt8) : BitVec 32 :=
  BitVec.ofNat 32 ((buf.getD 0 0).toNat + 256 * (buf.getD 1 0).toNat +
    65536 * (buf.getD 2 0).toNat + 16777216 * (buf.getD 3 0).toNat)

/-- `N2H_SYNC_PATTERN_MATCH`. -/
def n2hSyncPatternMatch (buf : List UInt8) (txSeqNum : UInt8) : Bool :=
  let w := word buf
  if w &&& 0x4#32 ≠ 0 then
    w &&& 0x7FFF7F7F#32 =
      (n2hSyncSpim &&& 0xFFFFFFF8#32) ||| 0x4#32 ||| (BitVec.ofNat 32 txSeqNum.toNat &&& 0x3#32)
  else w &&& 0x7FFF7F7F#32 = n2hSyncSpim

/-- The scan for the sync pattern: `left` more shifts until the debug limit, `syncCnt` done. -/
def syncScan (txSeqNum : UInt8) : Nat → SlIf → List UInt8 → Nat → Option (SlIf × List UInt8 × Nat)
  | 0, f, buf, syncCnt =>
    if n2hSyncPatternMatch buf txSeqNum then some (f, buf, syncCnt) else none
  | left + 1, f, buf, syncCnt =>
    if n2hSyncPatternMatch buf txSeqNum then some (f, buf, syncCnt)
    else if syncCnt % syncPatternLen = 0 then
      let (data, f) := f.read 4
      syncScan txSeqNum left f ((buf.take 4 ++ data).drop 1 ++ [0]) (syncCnt + 1)
    else syncScan txSeqNum left f (buf.drop 1 ++ [0]) (syncCnt + 1)

def doubleScan (txSeqNum : UInt8) : Nat → SlIf → List UInt8 → Option (SlIf × List UInt8)
  | 0, _, _ => none
  | fuel + 1, f, buf =>
    if n2hSyncPatternMatch buf txSeqNum then
      let (data, f) := f.read syncPatternLen
      doubleScan txSeqNum fuel f data
    else some (f, buf)

/-- `_SlDrvRxHdrRead`: the eight header bytes and `AlignSize`. -/
def slDrvRxHdrRead (fuel : Nat) (f : SlIf) (txSeqNum : UInt8) :
    Option (List UInt8 × Nat × SlIf) :=
  let (data, f) := f.read 4
  match syncScan txSeqNum slSyncScanThreshold f (data ++ [0, 0, 0, 0]) 0 with
  | none => none
  | some (f, buf, syncCnt) =>
    let syncCnt := syncCnt % syncPatternLen
    let (buf, f) :=
      if syncCnt > 0 then
        let (data, f) := f.read syncCnt
        ((buf.drop 4).take (syncPatternLen - syncCnt) ++ data, f)
      else f.read 4
    match doubleScan txSeqNum fuel f buf with
    | none => none
    | some (f, buf) =>
      let (data, f) := f.read slRespSpecHdrSize
      some (buf ++ data, if syncCnt > 0 then syncPatternLen - syncCnt else 0, f)

/-- `_SlResponseHeader_t`. -/
structure SlResponseHeader where
  opcode : Nat
  len : Nat
  txPoolCnt : UInt8
  devStatus : UInt8
  socketTXFailure : UInt8
  socketNonBlocking : UInt8

def SlResponseHeader.ofBytes (buf : List UInt8) : SlResponseHeader where
  opcode := (buf.getD 0 0).toNat + 256 * (buf.getD 1 0).toNat
  len := (buf.getD 2 0).toNat + 256 * (buf.getD 3 0).toNat
  txPoolCnt := buf.getD 4 0
  devStatus := buf.getD 5 0
  socketTXFailure := buf.getD 6 0
  socketNonBlocking := buf.getD 7 0

/-! ## Classes -/

def slOpcodeSync : Nat := 0x400
def slOpcodeIpv6 : Nat := 0x200
def slOpcodeDeviceInitComplete : Nat := 0x0008
def slOpcodeDeviceAsyncDummy : Nat := 0x0063
def slOpcodeSocketAcceptAsyncResponse : Nat := 0x1003
def slOpcodeSocketAcceptAsyncResponseV6 : Nat := 0x1203
def slOpcodeSocketConnectAsyncResponse : Nat := 0x1006
def slOpcodeSocketRecvAsyncResponse : Nat := 0x100A
def slOpcodeSocketRecvFromAsyncResponse : Nat := 0x100B
def slOpcodeSocketRecvFromAsyncResponseV6 : Nat := 0x120B

/-- `_SlRxMsgClass_e`. -/
inductive SlRxMsgClass where
  | recvResp
  | cmdResp
  | asyncEvt
  | dummyMsg
  deriving DecidableEq, Repr

def isRecvOpcode (opcode : Nat) : Bool :=
  opcode = slOpcodeSocketRecvAsyncResponse ∨ opcode = slOpcodeSocketRecvFromAsyncResponse ∨
    opcode = slOpcodeSocketRecvFromAsyncResponseV6

/-- `_SlDrvClassifyRxMsg`, less the choice of the event handler. -/
def slDrvClassifyRxMsg (opcode : Nat) : SlRxMsgClass :=
  if opcode &&& slOpcodeSync = 0 then
    if opcode = slOpcodeDeviceAsyncDummy then .dummyMsg
    else if isRecvOpcode opcode then .recvResp
    else .asyncEvt
  else .cmdResp

/-- The opcodes of `_SlActionLookupTable`, from `ACCEPT_ID` on. -/
def slActionLookupTable : List Nat := [0x1003, 0x1006, 0x1007, 0x1820, 0x1835, 0x1822, 0x0073]

/-- The table has no entry for `RECV_ID`: what is read there is `behind`. -/
def actionAsyncOpcode (behind : Nat → Nat) (actionID : Nat) : Nat :=
  if slMaxSockets ≤ actionID then
    (slActionLookupTable[actionID - slMaxSockets]?).getD (behind actionID)
  else behind actionID

/-- The loop of `_SlFindAndSetActiveObj`: the index of the object that waits for the message. -/
def slFindAndSetActiveObjFrom (behind : Nat → Nat) (pool : ObjPool) (sd : Nat) :
    Nat → Nat → Nat → Option (Option Nat)
  | 0, _, _ => none
  | fuel + 1, activeIndex, opcode =>
    if maxConcurrentActions > activeIndex then
      match pool.obj activeIndex with
      | none => none
      | some obj =>
        -- the IPv6 bit stays cleared for the objects behind this one
        let opcode := if obj.additionalData &&& 0x80 ≠ 0 then opcode &&& (0xFFFF - slOpcodeIpv6)
          else opcode
        if obj.actionID = SlActionId.recv.id ∧ sd = obj.additionalData ∧ isRecvOpcode opcode then
          some (some activeIndex)
        else if actionAsyncOpcode behind obj.actionID = opcode ∧
            ((sd = obj.additionalData &&& bsdSocketIdMask ∧ slMaxSockets > sd) ∨
              slMaxSockets = obj.additionalData &&& bsdSocketIdMask) then
          some (some activeIndex)
        else slFindAndSetActiveObjFrom behind pool sd fuel obj.nextIndex opcode
    else some none

def slFindAndSetActiveObj (behind : Nat → Nat) (cb : SlDriverCb) (opcode sd : Nat) :
    Option (Option Nat) :=
  slFindAndSetActiveObjFrom behind cb.objPool sd (maxConcurrentActions + 1) cb.activePoolIdx opcode

theorem slFindAndSetActiveObjFrom_ne_none {behind : Nat → Nat} {pool : ObjPool} {sd i : Nat}
    {l : List Nat} (h : PoolChain pool i l) {fuel : Nat} (hf : l.length < fuel) (opcode : Nat) :
    slFindAndSetActiveObjFrom behind pool sd fuel i opcode ≠ none := by
  induction h generalizing fuel opcode with
  | nil =>
    obtain ⟨fuel, rfl⟩ := Nat.exists_eq_succ_of_ne_zero (by omega : fuel ≠ 0)
    simp [slFindAndSetActiveObjFrom]
  | @cons i x l hx hi _ ih =>
    obtain ⟨fuel, rfl⟩ := Nat.exists_eq_succ_of_ne_zero (by omega : fuel ≠ 0)
    simp only [List.length_cons] at hf
    simp only [slFindAndSetActiveObjFrom, gt_iff_lt, hi, if_true, hx]
    have hlt : l.length < fuel := by omega
    generalize (if x.additionalData &&& 0x80 ≠ 0 then _ else opcode) = opcode'
    split
    · exact Option.some_ne_none _
    · split
      · exact Option.some_ne_none _
      · exact ih hlt opcode'

theorem slFindAndSetActiveObj_eq_some {cb : SlDriverCb} {A : List Nat}
    (h : PoolChain cb.objPool cb.activePoolIdx A) (hn : A.Nodup) (behind : Nat → Nat)
    (opcode sd : Nat) :
    ∃ actionIndex, slFindAndSetActiveObj behind cb opcode sd = some actionIndex := by
  have hlen := length_le_of_nodup hn h.lt
  apply Option.ne_none_iff_exists'.1
  exact slFindAndSetActiveObjFrom_ne_none h (by omega) _

/-! ## `_SlDrvMsgRead` -/

/-- `SL_ASYNC_MAX_PAYLOAD_LEN`. -/
abbrev slAsyncMaxPayloadLen : Nat := 160

/-- `RECV_ARGS_SIZE`, `RECVFROM_IPV4_ARGS_SIZE` and `RECVFROM_IPV6_ARGS_SIZE`. -/
abbrev recvArgsSize : Nat := 4
abbrev recvFromIpv4ArgsSize : Nat := 12
abbrev recvFromIpv6ArgsSize : Nat := 24

def expArgSize (opcode : Nat) : Nat :=
  if opcode = slOpcodeSocketRecvFromAsyncResponse then recvFromIpv4ArgsSize
  else if opcode = slOpcodeSocketRecvFromAsyncResponseV6 then recvFromIpv6ArgsSize
  else recvArgsSize

/-- `SD` of a socket response, less the bits of the address family. -/
def respSd (args : List UInt8) : Nat := (args.getD 2 0).toNat &&& bsdSocketIdMask

/-- `ACT_DATA_SIZE`, the `StatusOrLen` of a socket response. -/
def actDataSize (args : List UInt8) : Int :=
  i16 ((args.getD 0 0).toNat + 256 * (args.getD 1 0).toNat)

/-- The socket an event is for; `SL_MAX_SOCKETS` where it is for none. -/
def eventSd (opcode : Nat) (args : List UInt8) : Nat :=
  if opcode = slOpcodeSocketAcceptAsyncResponse ∨ opcode = slOpcodeSocketAcceptAsyncResponseV6 ∨
      opcode = slOpcodeSocketConnectAsyncResponse then respSd args
  else slMaxSockets

/-- `_SlCmdExt_t` as the receiver uses it. `RxPayloadLen` is an `_i16`, and no longer negative when
the response is read. -/
structure SlCmdExt where
  rxPayloadLen : Fin 32768
  actualRxPayloadLen : Int

/-- What `_SlDrvMsgRead` reads and writes of the control block. -/
structure RxCb where
  pool : SlDriverCb
  txSeqNum : UInt8
  txPoolCnt : UInt8
  socketNonBlocking : UInt8
  socketTXFailure : UInt8
  txSyncObj : Bool
  rxDescLen : UInt8
  pCmdExt : Option SlCmdExt

/-- What was stored for the caller: the class, the object that waits for the message, the bytes
stored from the start of the argument (or event) buffer and from the start of the payload buffer,
and the object that was signalled. -/
structure RxMsg where
  rxMsgClass : SlRxMsgClass
  actionIndex : Option Nat
  args : List UInt8
  payload : List UInt8
  signalled : Option Nat

def RxCb.flowCont (cb : RxCb) (hdr : SlResponseHeader) : RxCb :=
  if hdr.opcode ≠ slOpcodeDeviceInitComplete then
    { cb with
      txPoolCnt := hdr.txPoolCnt
      socketNonBlocking := hdr.socketNonBlocking
      socketTXFailure := hdr.socketTXFailure
      txSyncObj := cb.txSyncObj || decide (hdr.txPoolCnt.toNat > flowContMin) }
  else cb

/-- `case ASYNC_EVT_CLASS`. -/
def readAsyncEvt (behind : Nat → Nat) (fuel : Nat) (cb : RxCb) (f : SlIf)
    (opcode respPayloadLen : Nat) : Option (RxMsg × RxCb × SlIf) :=
  let aligned := slProtocolAlignSize respPayloadLen
  let alignedLengthRecv :=
    if aligned ≤ slAsyncMaxPayloadLen then aligned else slProtocolAlignSize slAsyncMaxPayloadLen
  let (args, f) := if respPayloadLen > 0 then f.read alignedLengthRecv else ([], f)
  let rest := if aligned > slAsyncMaxPayloadLen then
      dumpRest fuel (aligned - slAsyncMaxPayloadLen) f
    else some f
  match rest with
  | none => none
  | some f =>
    match slFindAndSetActiveObj behind cb.pool opcode (eventSd opcode args) with
    | none => none
    | some actionIndex => some (⟨.asyncEvt, actionIndex, args, [], none⟩, cb, f)

def readRecvPayload (f : SlIf) (actDataSize : Int) : List UInt8 × SlIf :=
  if actDataSize > 0 then readTail f (clear2 actDataSize.toNat) (low2 actDataSize.toNat)
  else ([], f)

/-- `case RECV_RESP_CLASS`. -/
def readRecvResp (behind : Nat → Nat) (cb : RxCb) (f : SlIf) (opcode : Nat) :
    Option (RxMsg × RxCb × SlIf) :=
  let (args, f) := f.read recvArgsSize
  if respSd args < slMaxSockets then
    match slFindAndSetActiveObj behind cb.pool opcode (respSd args) with
    | some (some i) =>
      let (more, f) :=
        if expArgSize opcode > recvArgsSize then f.read (expArgSize opcode - recvArgsSize)
        else ([], f)
      let rest := readRecvPayload f (actDataSize args)
      some (⟨.recvResp, some i, args ++ more, rest.1, some i⟩, cb, rest.2)
    | _ => none
  else none

/-- The receive payload of a command whose response has `actDataSize` bytes of it. -/
def readRxPayload (fuel : Nat) (f : SlIf) (rxPayloadLen : Nat) (actDataSize : Int) :
    Option (List UInt8 × SlIf) :=
  let len := if actDataSize > rxPayloadLen then rxPayloadLen else actDataSize.toNat
  let lengthToCopy := low2 len
  let (payload, f) := readTail f (clear2 len) lengthToCopy
  let actDataSize := if lengthToCopy > 0 then i16 (actDataSize - 4) else actDataSize
  if actDataSize > rxPayloadLen then
    match dumpRest fuel ((actDataSize - clear2 rxPayloadLen).toNat % 65536) f with
    | none => none
    | some f => some (payload, f)
  else some (payload, f)

/-- `case CMD_RESP_CLASS`. -/
def readCmdResp (fuel : Nat) (cb : RxCb) (f : SlIf) (respPayloadLen : Nat) :
    Option (RxMsg × RxCb × SlIf) :=
  let (args, f) := f.read (slProtocolAlignSize cb.rxDescLen.toNat)
  match cb.pCmdExt with
  | none => some (⟨.cmdResp, none, args, [], none⟩, cb, f)
  | some ext =>
    if ext.rxPayloadLen = 0 then some (⟨.cmdResp, none, args, [], none⟩, cb, f)
    else
      let actDataSize := i16 ((respPayloadLen : Int) - cb.rxDescLen.toNat)
      if actDataSize ≤ 0 then
        let cb := { cb with pCmdExt := some ⟨0, actDataSize⟩ }
        some (⟨.cmdResp, none, args, [], none⟩, cb, f)
      else
        match readRxPayload fuel f ext.rxPayloadLen actDataSize with
        | none => none
        | some (payload, f) =>
          let cb := { cb with pCmdExt := some { ext with actualRxPayloadLen := actDataSize } }
          some (⟨.cmdResp, none, args, payload, none⟩, cb, f)

def readClass (behind : Nat → Nat) (fuel : Nat) (cb : RxCb) (f : SlIf) (opcode respPayloadLen : Nat) :
    Option (RxMsg × RxCb × SlIf) :=
  match slDrvClassifyRxMsg opcode with
  | .asyncEvt => readAsyncEvt behind fuel cb f opcode respPayloadLen
  | .recvResp => readRecvResp behind cb f opcode
  | .cmdResp => readCmdResp fuel cb f respPayloadLen
  | .dummyMsg => some (⟨.dummyMsg, none, [], [], none⟩, cb, f)

/-- `_SlDrvMsgRead`. -/
def slDrvMsgRead (behind : Nat → Nat) (fuel : Nat) (cb : RxCb) (f : SlIf) :
    Option (RxMsg × RxCb × SlIf) :=
  match slDrvRxHdrRead fuel f cb.txSeqNum with
  | none => none
  | some (buf, alignSize, f) =>
    let hdr := SlResponseHeader.ofBytes buf
    let cb := { cb with txSeqNum := cb.txSeqNum + 1 }.flowCont hdr
    let respPayloadLen := (hdr.len + (65536 - slRespSpecHdrSize)) % 65536
    match readClass behind fuel cb f hdr.opcode respPayloadLen with
    | none => none
    | some (msg, cb, f) => some (msg, cb, if alignSize > 0 then (f.read alignSize).2 else f)

end SimpleLink.Driver
