import SimpleLink.Driver.FrameRead

/-!
# Writing a command (`_SlDrvMsgWrite`)

A command is a header with an opcode and a length, the arguments and the payloads, each padded to four
bytes. The length is computed from the control block before anything is written; the branches that
write round and check on their own. The payload that is meant for the response is sent before the other
one if its length is negative. `msgWrite_right_iff` says when the two agree.
-/

namespace SimpleLink.Driver

/-! ## The code -/

/-- `_SlCmdCtrl_t` as the sender uses it. -/
structure SlCmdCtrl where
  opcode : UInt16
  txDescLen : UInt8

/-- `_SlCmdExt_t` as the sender uses it; `RxPayloadLen` is an `_i16`. A payload is what stands from its
pointer on. -/
structure TxCmdExt where
  txPayloadLen : UInt16
  rxPayloadLen : Int
  pTxPayload : Nat → UInt8
  pRxPayload : Nat → UInt8
  lo : -32768 ≤ rxPayloadLen
  hi : rxPayloadLen < 32768

/-- Assignment to a `_u16`. -/
def u16 (n : Int) : Nat := (n % 65536).toNat

/-- `_SL_PROTOCOL_ALIGN_SIZE` of an `int`. -/
def alignSize (msgLen : Int) : Int := (msgLen + 3) / 4 * 4

/-- `NWP_IF_WRITE_CHECK`, with `spi_Write`: so many words are written; a negative number of them is
taken for one near 2^32, which the memory does not have. -/
def nwpIfWriteCheck (pBuff : Nat → UInt8) (len : Int) : Option (List UInt8) :=
  let expSize := i16 len
  let ulCnt := (expSize + 3) / 4
  if ulCnt < 0 then none else some (SlIf.bytes pBuff 0 (4 * ulCnt.toNat))

/-- `_SL_PROTOCOL_CALC_LEN`. -/
def slProtocolCalcLen (pCmdCtrl : SlCmdCtrl) : Option TxCmdExt → Int
  | some pCmdExt => alignSize pCmdCtrl.txDescLen.toNat + alignSize pCmdExt.txPayloadLen.toNat
  | none => alignSize pCmdCtrl.txDescLen.toNat

/-- The header that is written, what is written behind it, and `RxPayloadLen` as it is left. -/
structure MsgWritten where
  opcode : UInt16
  len : Nat
  body : List UInt8
  rxPayloadLen : Option Int

def writeDesc (pCmdCtrl : SlCmdCtrl) : Option (Nat → UInt8) → Option (List UInt8)
  | some pTxRxDescBuff =>
    if pCmdCtrl.txDescLen > 0 then
      nwpIfWriteCheck pTxRxDescBuff (alignSize pCmdCtrl.txDescLen.toNat)
    else some []
  | none => some []

/-- `_SlDrvMsgWrite` from the header on. A check that fails does not come back. -/
def slDrvMsgWrite (pCmdCtrl : SlCmdCtrl) (pCmdExt : Option TxCmdExt)
    (pTxRxDescBuff : Option (Nat → UInt8)) : Option MsgWritten :=
  match pCmdExt with
  | none =>
    (writeDesc pCmdCtrl pTxRxDescBuff).map fun desc =>
      ⟨pCmdCtrl.opcode, u16 (slProtocolCalcLen pCmdCtrl none), desc, none⟩
  | some ext =>
    let len := u16 (slProtocolCalcLen pCmdCtrl (some ext))
    let sendRxPayload := ext.rxPayloadLen < 0 ∧ ext.txPayloadLen ≠ 0
    let rxPayloadLen := if sendRxPayload then i16 (ext.rxPayloadLen * -1) else ext.rxPayloadLen
    let len := if sendRxPayload then u16 (len + rxPayloadLen) else len
    match writeDesc pCmdCtrl pTxRxDescBuff with
    | none => none
    | some desc =>
      match if sendRxPayload then nwpIfWriteCheck ext.pRxPayload (alignSize rxPayloadLen)
        else some [] with
      | none => none
      | some rx =>
        if ext.txPayloadLen > 0 then
          -- the arguments have to be aligned, or there would be a gap before the payload
          if pCmdCtrl.txDescLen.toNat % 4 = 0 then
            (nwpIfWriteCheck ext.pTxPayload (alignSize ext.txPayloadLen.toNat)).map fun tx =>
              ⟨pCmdCtrl.opcode, len, desc ++ rx ++ tx, some rxPayloadLen⟩
          else none
        else some ⟨pCmdCtrl.opcode, len, desc ++ rx, some rxPayloadLen⟩

/-! ## The message -/

def TxCmdExt.sendsRx (ext : TxCmdExt) : Prop := ext.rxPayloadLen < 0 ∧ ext.txPayloadLen ≠ 0

instance (ext : TxCmdExt) : Decidable ext.sendsRx := inferInstanceAs (Decidable (_ ∧ _))

def padded (pBuff : Nat → UInt8) (len : Nat) : List UInt8 :=
  SlIf.bytes pBuff 0 (slProtocolAlignSize len)

def argBytes (pCmdCtrl : SlCmdCtrl) : Option (Nat → UInt8) → List UInt8
  | some pTxRxDescBuff => padded pTxRxDescBuff pCmdCtrl.txDescLen.toNat
  | none => []

def payloadBytes : Option TxCmdExt → List UInt8
  | some ext =>
    (if ext.sendsRx then padded ext.pRxPayload (-ext.rxPayloadLen).toNat else []) ++
      padded ext.pTxPayload ext.txPayloadLen.toNat
  | none => []

/-- The message is written, the length in its header is the number of bytes behind the header, and
these are the arguments and then the payloads. -/
def MsgWriteRight (pCmdCtrl : SlCmdCtrl) (pCmdExt : Option TxCmdExt)
    (pTxRxDescBuff : Option (Nat → UInt8)) : Prop :=
  ∃ msg, slDrvMsgWrite pCmdCtrl pCmdExt pTxRxDescBuff = some msg ∧
    msg.len = msg.body.length ∧ msg.body = argBytes pCmdCtrl pTxRxDescBuff ++ payloadBytes pCmdExt

/-- The payloads fit an `_i16` and the message a `_u16`, the arguments are aligned before a payload,
and the payload of the response, if it is sent, needs no padding. -/
def ExtFits (pCmdCtrl : SlCmdCtrl) (ext : TxCmdExt) : Prop :=
  ext.txPayloadLen.toNat ≤ 32764 ∧
    (ext.txPayloadLen ≠ 0 → pCmdCtrl.txDescLen.toNat % 4 = 0) ∧
    (ext.sendsRx → -32764 ≤ ext.rxPayloadLen ∧ ext.rxPayloadLen % 4 = 0 ∧
      alignSize pCmdCtrl.txDescLen.toNat + alignSize ext.txPayloadLen.toNat - ext.rxPayloadLen < 65536)

/-- There is an argument buffer if there are arguments, and the payloads fit. -/
def MsgWriteCond (pCmdCtrl : SlCmdCtrl) (pCmdExt : Option TxCmdExt)
    (pTxRxDescBuff : Option (Nat → UInt8)) : Prop :=
  (pTxRxDescBuff.isSome ∨ pCmdCtrl.txDescLen = 0) ∧ ∀ ext, pCmdExt = some ext → ExtFits pCmdCtrl ext

/-! ## What is written -/

theorem alignSize_cast (n : Nat) : alignSize n = slProtocolAlignSize n := by
  unfold alignSize slProtocolAlignSize clear2
  omega

theorem length_padded (pBuff : Nat → UInt8) (len : Nat) :
    (padded pBuff len).length = slProtocolAlignSize len := SlIf.length_bytes ..

/-- Up to the largest multiple of four in an `_i16` the bytes are written with their padding. -/
theorem write_fits (pBuff : Nat → UInt8) {n : Nat} (h : n ≤ 32764) :
    nwpIfWriteCheck pBuff (alignSize n) = some (padded pBuff n) := by
  have hi : i16 (alignSize n) = alignSize n := by
    unfold alignSize
    exact i16_of_lt (by omega) (by omega)
  have hcnt : (alignSize n + 3) / 4 = ((n + 3) / 4 : Nat) := by
    unfold alignSize
    omega
  unfold nwpIfWriteCheck padded slProtocolAlignSize clear2
  simp only [hi, hcnt]
  rw [if_neg (by omega), Int.toNat_natCast, Nat.mul_comm]

theorem write_over (pBuff : Nat → UInt8) {n : Nat} (h : 32764 < n) (h' : n < 65536) :
    nwpIfWriteCheck pBuff (alignSize n) = if n ≤ 65532 then none else some [] := by
  have hi : i16 (alignSize n) = alignSize n - 65536 := by
    rw [← i16_of_lt (n := alignSize n - 65536) (by unfold alignSize; omega)
      (by unfold alignSize; omega)]
    unfold i16
    rw [← Int.emod_bmod, ← Int.emod_bmod (x := alignSize n - 65536)]
    congr 1
    omega
  unfold nwpIfWriteCheck
  simp only [hi]
  by_cases hlow : n ≤ 65532
  · rw [if_pos hlow, if_pos]
    unfold alignSize
    omega
  · have hcnt : (alignSize n - 65536 + 3) / 4 = 0 := by
      unfold alignSize
      omega
    rw [if_neg hlow, hcnt]
    rfl

theorem writeDesc_eq (pCmdCtrl : SlCmdCtrl) (pTxRxDescBuff : Option (Nat → UInt8)) :
    writeDesc pCmdCtrl pTxRxDescBuff = some (argBytes pCmdCtrl pTxRxDescBuff) := by
  have hlt := pCmdCtrl.txDescLen.toNat_lt
  cases pTxRxDescBuff with
  | none => rfl
  | some buf =>
    unfold writeDesc argBytes
    by_cases hd : pCmdCtrl.txDescLen > 0
    · simp only [if_pos hd]
      exact write_fits buf (by omega)
    · have hzero : pCmdCtrl.txDescLen.toNat = 0 := by
        have := UInt8.lt_iff_toNat_lt.not.1 hd
        simp only [UInt8.toNat_zero] at this
        omega
      simp only [if_neg hd, hzero]
      rfl

theorem length_argBytes (pCmdCtrl : SlCmdCtrl) (pTxRxDescBuff : Option (Nat → UInt8)) :
    (argBytes pCmdCtrl pTxRxDescBuff).length =
      if pTxRxDescBuff.isSome then slProtocolAlignSize pCmdCtrl.txDescLen.toNat else 0 := by
  cases pTxRxDescBuff with
  | none => rfl
  | some buf => exact length_padded ..

/-- The sign of `RxPayloadLen` is changed, which the least `_i16` does not survive. -/
theorem write_rx {ext : TxCmdExt} (hneg : ext.rxPayloadLen < 0) :
    nwpIfWriteCheck ext.pRxPayload (alignSize (i16 (ext.rxPayloadLen * -1))) =
      if -32764 ≤ ext.rxPayloadLen then some (padded ext.pRxPayload (-ext.rxPayloadLen).toNat)
      else none := by
  have hlo := ext.lo
  by_cases hmin : ext.rxPayloadLen = -32768
  · rw [hmin, if_neg (by omega)]
    rfl
  · have hcast : i16 (ext.rxPayloadLen * -1) = ((-ext.rxPayloadLen).toNat : Nat) := by
      rw [i16_of_lt (by omega) (by omega)]
      omega
    rw [hcast]
    by_cases hfits : -32764 ≤ ext.rxPayloadLen
    · rw [if_pos hfits, write_fits _ (by omega)]
    · rw [if_neg hfits, write_over _ (by omega) (by omega), if_pos (by omega)]

theorem write_tx (ext : TxCmdExt) :
    nwpIfWriteCheck ext.pTxPayload (alignSize ext.txPayloadLen.toNat) =
      if ext.txPayloadLen.toNat ≤ 32764 then some (padded ext.pTxPayload ext.txPayloadLen.toNat)
      else if ext.txPayloadLen.toNat ≤ 65532 then none else some [] := by
  have hlt := ext.txPayloadLen.toNat_lt
  by_cases hfits : ext.txPayloadLen.toNat ≤ 32764
  · rw [if_pos hfits, write_fits _ hfits]
  · rw [if_neg hfits, write_over _ (by omega) (by omega)]

theorem u16_of_lt {n : Int} (h : 0 ≤ n) (h' : n < 65536) : u16 n = n.toNat := by
  unfold u16
  rw [Int.emod_eq_of_lt h h']

theorem args_there (pCmdCtrl : SlCmdCtrl) (pTxRxDescBuff : Option (Nat → UInt8)) :
    (argBytes pCmdCtrl pTxRxDescBuff).length = slProtocolAlignSize pCmdCtrl.txDescLen.toNat ↔
      pTxRxDescBuff.isSome ∨ pCmdCtrl.txDescLen = 0 := by
  have hzero : pCmdCtrl.txDescLen = 0 ↔ pCmdCtrl.txDescLen.toNat = 0 := UInt8.toNat_inj.symm
  rw [length_argBytes, hzero]
  unfold slProtocolAlignSize clear2
  by_cases hd : pTxRxDescBuff.isSome
  · simp only [hd, if_true, true_or]
  · simp only [hd, Bool.false_eq_true, if_false, false_or]
    omega

/-! ## Main result -/

theorem msgWrite_none_iff (pCmdCtrl : SlCmdCtrl) (pTxRxDescBuff : Option (Nat → UInt8)) :
    MsgWriteRight pCmdCtrl none pTxRxDescBuff ↔
      (pTxRxDescBuff.isSome ∨ pCmdCtrl.txDescLen = 0) := by
  have hd := pCmdCtrl.txDescLen.toNat_lt
  have hlen : u16 (slProtocolCalcLen pCmdCtrl none) =
      slProtocolAlignSize pCmdCtrl.txDescLen.toNat := by
    unfold slProtocolCalcLen
    dsimp only
    rw [alignSize_cast, u16_of_lt (by omega) (by unfold slProtocolAlignSize clear2; omega),
      Int.toNat_natCast]
  rw [← args_there]
  unfold MsgWriteRight slDrvMsgWrite payloadBytes
  simp only [writeDesc_eq, Option.map_some, hlen, Option.some.injEq, exists_eq_left',
    List.append_nil, and_true]
  exact eq_comm

/-- What is left of the payload when its padded length has been assigned to an `_i16`. -/
def TxCmdExt.txWritten (ext : TxCmdExt) : List UInt8 :=
  if ext.txPayloadLen.toNat ≤ 32764 then padded ext.pTxPayload ext.txPayloadLen.toNat else []

/-- The payload is written behind aligned arguments, up to the largest length of an `_i16`; from 65533
on its padded length is 0. -/
theorem write_payload (pCmdCtrl : SlCmdCtrl) (ext : TxCmdExt) (written : List UInt8 → MsgWritten) :
    (if ext.txPayloadLen > 0 then
        if pCmdCtrl.txDescLen.toNat % 4 = 0 then
          (nwpIfWriteCheck ext.pTxPayload (alignSize ext.txPayloadLen.toNat)).map written
        else none
      else some (written [])) =
      if ext.txPayloadLen ≠ 0 ∧ (pCmdCtrl.txDescLen.toNat % 4 ≠ 0 ∨
          32764 < ext.txPayloadLen.toNat ∧ ext.txPayloadLen.toNat ≤ 65532) then none
      else some (written ext.txWritten) := by
  unfold TxCmdExt.txWritten
  have hzero : ext.txPayloadLen = 0 ↔ ext.txPayloadLen.toNat = 0 := UInt16.toNat_inj.symm
  have hpos : ext.txPayloadLen > 0 ↔ ext.txPayloadLen.toNat ≠ 0 := by
    rw [gt_iff_lt, UInt16.lt_iff_toNat_lt, UInt16.toNat_zero]
    omega
  simp only [hpos, ne_eq, hzero]
  by_cases htx : ext.txPayloadLen.toNat = 0
  · rw [if_neg (not_not.2 htx), if_neg (fun h => h.1 htx), htx, if_pos (by omega)]
    rfl
  · rw [if_pos htx]
    by_cases hd : pCmdCtrl.txDescLen.toNat % 4 = 0
    · rw [if_pos hd, write_tx]
      by_cases hfits : ext.txPayloadLen.toNat ≤ 32764
      · rw [if_pos hfits, if_pos hfits, Option.map_some, if_neg (by omega)]
      · rw [if_neg hfits, if_neg hfits]
        by_cases hover : ext.txPayloadLen.toNat ≤ 65532
        · rw [if_pos hover, if_pos (by omega), Option.map_none]
        · rw [if_neg hover, if_neg (by omega), Option.map_some]
    · rw [if_neg hd, if_pos ⟨htx, .inl hd⟩]

theorem slDrvMsgWrite_plain (pCmdCtrl : SlCmdCtrl) {ext : TxCmdExt} (hs : ¬ ext.sendsRx)
    (pTxRxDescBuff : Option (Nat → UInt8)) :
    slDrvMsgWrite pCmdCtrl (some ext) pTxRxDescBuff =
      if ext.txPayloadLen ≠ 0 ∧ (pCmdCtrl.txDescLen.toNat % 4 ≠ 0 ∨
          32764 < ext.txPayloadLen.toNat ∧ ext.txPayloadLen.toNat ≤ 65532) then none
      else some
        { opcode := pCmdCtrl.opcode
          len := u16 (slProtocolCalcLen pCmdCtrl (some ext))
          body := argBytes pCmdCtrl pTxRxDescBuff ++ ext.txWritten
          rxPayloadLen := some ext.rxPayloadLen } := by
  have hs' : ¬ (ext.rxPayloadLen < 0 ∧ ext.txPayloadLen ≠ 0) := hs
  rw [← write_payload pCmdCtrl ext fun tx => ⟨pCmdCtrl.opcode,
    u16 (slProtocolCalcLen pCmdCtrl (some ext)), argBytes pCmdCtrl pTxRxDescBuff ++ tx,
    some ext.rxPayloadLen⟩]
  unfold slDrvMsgWrite
  simp only [writeDesc_eq, if_neg hs', List.append_nil]

theorem slDrvMsgWrite_special (pCmdCtrl : SlCmdCtrl) {ext : TxCmdExt} (hs : ext.sendsRx)
    (pTxRxDescBuff : Option (Nat → UInt8)) :
    slDrvMsgWrite pCmdCtrl (some ext) pTxRxDescBuff =
      if -32764 ≤ ext.rxPayloadLen then
        if ext.txPayloadLen ≠ 0 ∧ (pCmdCtrl.txDescLen.toNat % 4 ≠ 0 ∨
            32764 < ext.txPayloadLen.toNat ∧ ext.txPayloadLen.toNat ≤ 65532) then none
        else some
          { opcode := pCmdCtrl.opcode
            len := u16 (u16 (slProtocolCalcLen pCmdCtrl (some ext)) - ext.rxPayloadLen)
            body := argBytes pCmdCtrl pTxRxDescBuff ++
              padded ext.pRxPayload (-ext.rxPayloadLen).toNat ++ ext.txWritten
            rxPayloadLen := some (-ext.rxPayloadLen) }
      else none := by
  have hs' : ext.rxPayloadLen < 0 ∧ ext.txPayloadLen ≠ 0 := hs
  by_cases hlow : -32764 ≤ ext.rxPayloadLen
  · have hneg : i16 (ext.rxPayloadLen * -1) = -ext.rxPayloadLen := by
      have := hs.1
      rw [i16_of_lt (by omega) (by omega)]
      omega
    rw [if_pos hlow, ← write_payload pCmdCtrl ext fun tx => ⟨pCmdCtrl.opcode,
      u16 (u16 (slProtocolCalcLen pCmdCtrl (some ext)) - ext.rxPayloadLen),
      argBytes pCmdCtrl pTxRxDescBuff ++ padded ext.pRxPayload (-ext.rxPayloadLen).toNat ++ tx,
      some (-ext.rxPayloadLen)⟩]
    have hrx := write_rx hs.1
    rw [hneg, if_pos hlow] at hrx
    unfold slDrvMsgWrite
    simp only [writeDesc_eq, if_pos hs', hneg, hrx, List.append_nil, Int.sub_eq_add_neg]
  · rw [if_neg hlow]
    unfold slDrvMsgWrite
    simp only [writeDesc_eq, if_pos hs', write_rx hs.1, if_neg hlow]

theorem calcLen_fits (pCmdCtrl : SlCmdCtrl) {ext : TxCmdExt} (h : ext.txPayloadLen.toNat ≤ 32764) :
    u16 (slProtocolCalcLen pCmdCtrl (some ext)) =
      slProtocolAlignSize pCmdCtrl.txDescLen.toNat + slProtocolAlignSize ext.txPayloadLen.toNat := by
  have hd := pCmdCtrl.txDescLen.toNat_lt
  unfold slProtocolCalcLen
  dsimp only
  rw [alignSize_cast, alignSize_cast, u16_of_lt (by omega)
    (by unfold slProtocolAlignSize clear2; omega)]
  omega

theorem txWritten_iff (ext : TxCmdExt) (before : List UInt8) :
    before ++ ext.txWritten = before ++ padded ext.pTxPayload ext.txPayloadLen.toNat ↔
      ext.txPayloadLen.toNat ≤ 32764 := by
  unfold TxCmdExt.txWritten
  by_cases hfits : ext.txPayloadLen.toNat ≤ 32764
  · rw [if_pos hfits]
    exact iff_of_true rfl hfits
  · refine iff_of_false (fun heq => ?_) hfits
    have hlen := congrArg List.length heq
    rw [if_neg hfits, List.length_append, List.length_append, length_padded] at hlen
    unfold slProtocolAlignSize clear2 at hlen
    simp only [List.length_nil] at hlen
    omega

theorem length_txWritten {ext : TxCmdExt} (h : ext.txPayloadLen.toNat ≤ 32764) :
    ext.txWritten.length = slProtocolAlignSize ext.txPayloadLen.toNat := by
  unfold TxCmdExt.txWritten
  rw [if_pos h, length_padded]

theorem passes_iff (pCmdCtrl : SlCmdCtrl) (ext : TxCmdExt) :
    (¬ (ext.txPayloadLen ≠ 0 ∧ (pCmdCtrl.txDescLen.toNat % 4 ≠ 0 ∨
        32764 < ext.txPayloadLen.toNat ∧ ext.txPayloadLen.toNat ≤ 65532)) ∧
      ext.txPayloadLen.toNat ≤ 32764) ↔
    ext.txPayloadLen.toNat ≤ 32764 ∧
      (ext.txPayloadLen ≠ 0 → pCmdCtrl.txDescLen.toNat % 4 = 0) := by
  constructor
  · rintro ⟨hgo, hfits⟩
    refine ⟨hfits, fun hne => ?_⟩
    by_contra hd
    exact hgo ⟨hne, .inl hd⟩
  · rintro ⟨hfits, halign⟩
    refine ⟨?_, hfits⟩
    rintro ⟨hne, hd⟩
    have := halign hne
    omega

theorem msgWrite_plain_iff (pCmdCtrl : SlCmdCtrl) {ext : TxCmdExt} (hs : ¬ ext.sendsRx)
    (pTxRxDescBuff : Option (Nat → UInt8)) :
    MsgWriteRight pCmdCtrl (some ext) pTxRxDescBuff ↔
      (pTxRxDescBuff.isSome ∨ pCmdCtrl.txDescLen = 0) ∧ ExtFits pCmdCtrl ext := by
  have hfit : ExtFits pCmdCtrl ext ↔ ext.txPayloadLen.toNat ≤ 32764 ∧
      (ext.txPayloadLen ≠ 0 → pCmdCtrl.txDescLen.toNat % 4 = 0) := by
    unfold ExtFits
    simp only [hs, false_imp_iff, and_true]
  have hpay : payloadBytes (some ext) = padded ext.pTxPayload ext.txPayloadLen.toNat := by
    unfold payloadBytes
    dsimp only
    rw [if_neg hs, List.nil_append]
  rw [hfit, ← passes_iff, ← args_there]
  unfold MsgWriteRight
  rw [slDrvMsgWrite_plain pCmdCtrl hs, hpay]
  constructor
  · rintro ⟨msg, hmsg, hlen, hbody⟩
    split at hmsg
    · cases hmsg
    · rename_i hgo
      cases hmsg
      have hfits := (txWritten_iff ext _).1 hbody
      rw [calcLen_fits pCmdCtrl hfits, List.length_append, length_txWritten hfits] at hlen
      exact ⟨(Nat.add_right_cancel hlen).symm, hgo, hfits⟩
  · rintro ⟨hargs, hgo, hfits⟩
    refine ⟨_, if_neg hgo, ?_, (txWritten_iff ext _).2 hfits⟩
    rw [calcLen_fits pCmdCtrl hfits, List.length_append, length_txWritten hfits, hargs]

theorem msgWrite_special_iff (pCmdCtrl : SlCmdCtrl) {ext : TxCmdExt} (hs : ext.sendsRx)
    (pTxRxDescBuff : Option (Nat → UInt8)) :
    MsgWriteRight pCmdCtrl (some ext) pTxRxDescBuff ↔
      (pTxRxDescBuff.isSome ∨ pCmdCtrl.txDescLen = 0) ∧ ExtFits pCmdCtrl ext := by
  have hneg := hs.1
  have hd := pCmdCtrl.txDescLen.toNat_lt
  have hfit : ExtFits pCmdCtrl ext ↔ (ext.txPayloadLen.toNat ≤ 32764 ∧
      (ext.txPayloadLen ≠ 0 → pCmdCtrl.txDescLen.toNat % 4 = 0)) ∧
      -32764 ≤ ext.rxPayloadLen ∧ ext.rxPayloadLen % 4 = 0 ∧
      (slProtocolAlignSize pCmdCtrl.txDescLen.toNat : Int) +
        slProtocolAlignSize ext.txPayloadLen.toNat - ext.rxPayloadLen < 65536 := by
    unfold ExtFits
    rw [alignSize_cast, alignSize_cast]
    simp only [hs, true_imp_iff, and_assoc]
  have hpay : payloadBytes (some ext) = padded ext.pRxPayload (-ext.rxPayloadLen).toNat ++
      padded ext.pTxPayload ext.txPayloadLen.toNat := by
    unfold payloadBytes
    dsimp only
    rw [if_pos hs]
  -- the length counts the payload of the response without its padding
  have hcount (A : Nat) (hA : A = slProtocolAlignSize pCmdCtrl.txDescLen.toNat ∨ A = 0)
      (hlow : -32764 ≤ ext.rxPayloadLen) (hfits : ext.txPayloadLen.toNat ≤ 32764) :
      u16 ((slProtocolAlignSize pCmdCtrl.txDescLen.toNat +
          slProtocolAlignSize ext.txPayloadLen.toNat : Nat) - ext.rxPayloadLen) =
        A + slProtocolAlignSize (-ext.rxPayloadLen).toNat +
          slProtocolAlignSize ext.txPayloadLen.toNat ↔
      A = slProtocolAlignSize pCmdCtrl.txDescLen.toNat ∧ ext.rxPayloadLen % 4 = 0 ∧
        (slProtocolAlignSize pCmdCtrl.txDescLen.toNat : Int) +
          slProtocolAlignSize ext.txPayloadLen.toNat - ext.rxPayloadLen < 65536 := by
    unfold u16
    unfold slProtocolAlignSize clear2 at hA ⊢
    omega
  have hA : (argBytes pCmdCtrl pTxRxDescBuff).length =
      slProtocolAlignSize pCmdCtrl.txDescLen.toNat ∨
      (argBytes pCmdCtrl pTxRxDescBuff).length = 0 := by
    rw [length_argBytes]
    split
    · exact .inl rfl
    · exact .inr rfl
  rw [hfit, ← passes_iff, ← args_there]
  unfold MsgWriteRight
  rw [slDrvMsgWrite_special pCmdCtrl hs, hpay, ← List.append_assoc]
  constructor
  · rintro ⟨msg, hmsg, hlen, hbody⟩
    split at hmsg
    · rename_i hlow
      split at hmsg
      · cases hmsg
      · rename_i hgo
        cases hmsg
        have hfits := (txWritten_iff ext _).1 hbody
        rw [calcLen_fits pCmdCtrl hfits, List.length_append, List.length_append, length_padded,
          length_txWritten hfits, hcount _ hA hlow hfits] at hlen
        exact ⟨hlen.1, ⟨hgo, hfits⟩, hlow, hlen.2⟩
    · cases hmsg
  · rintro ⟨hargs, ⟨hgo, hfits⟩, hlow, hrest⟩
    refine ⟨_, (if_pos hlow).trans (if_neg hgo), ?_, (txWritten_iff ext _).2 hfits⟩
    rw [calcLen_fits pCmdCtrl hfits, List.length_append, List.length_append, length_padded,
      length_txWritten hfits, hcount _ hA hlow hfits]
    exact ⟨hargs, hrest⟩

theorem msgWrite_some_iff (pCmdCtrl : SlCmdCtrl) (ext : TxCmdExt)
    (pTxRxDescBuff : Option (Nat → UInt8)) :
    MsgWriteRight pCmdCtrl (some ext) pTxRxDescBuff ↔
      (pTxRxDescBuff.isSome ∨ pCmdCtrl.txDescLen = 0) ∧ ExtFits pCmdCtrl ext := by
  by_cases hs : ext.sendsRx
  · exact msgWrite_special_iff pCmdCtrl hs pTxRxDescBuff
  · exact msgWrite_plain_iff pCmdCtrl hs pTxRxDescBuff

/-- A command is framed right exactly if its arguments are there and its payloads fit. -/
theorem msgWrite_right_iff (pCmdCtrl : SlCmdCtrl) (pCmdExt : Option TxCmdExt)
    (pTxRxDescBuff : Option (Nat → UInt8)) :
    MsgWriteRight pCmdCtrl pCmdExt pTxRxDescBuff ↔ MsgWriteCond pCmdCtrl pCmdExt pTxRxDescBuff := by
  unfold MsgWriteCond
  cases pCmdExt with
  | none =>
    rw [msgWrite_none_iff]
    simp only [reduceCtorEq, false_imp_iff, implies_true, and_true]
  | some ext =>
    rw [msgWrite_some_iff]
    simp only [Option.some.injEq, forall_eq']

/-! ## What goes wrong -/

def fourArgs : SlCmdCtrl := ⟨0x9407, 4⟩

def payloads (txPayloadLen : UInt16) (rxPayloadLen : Int) (lo : -32768 ≤ rxPayloadLen)
    (hi : rxPayloadLen < 32768) : TxCmdExt :=
  ⟨txPayloadLen, rxPayloadLen, fun _ => 0x55, fun _ => 0xAA, lo, hi⟩

/-- Five bytes of the payload that is meant for the response are counted as five and written as eight;
a payload of 40000 bytes is never written; arguments are counted without a buffer. -/
theorem msgWrite_not_right :
    (slDrvMsgWrite fourArgs (some (payloads 4 (-5) (by decide) (by decide))) (some fun _ => 0)).map
        (fun msg => (msg.len, msg.body.length)) = some (13, 16) ∧
      ¬ MsgWriteRight fourArgs (some (payloads 4 (-5) (by decide) (by decide))) (some fun _ => 0) ∧
      slDrvMsgWrite fourArgs (some (payloads 40000 0 (by decide) (by decide))) (some fun _ => 0) =
        none ∧
      ¬ MsgWriteRight fourArgs (some (payloads 40000 0 (by decide) (by decide))) (some fun _ => 0) ∧
      ¬ MsgWriteRight fourArgs none none := by
  refine ⟨by decide, ?_, by decide, ?_, ?_⟩
  · rw [msgWrite_some_iff]
    rintro ⟨-, -, -, hrx⟩
    exact absurd (hrx (by decide)).2.1 (by decide)
  · rw [msgWrite_some_iff]
    rintro ⟨-, hfits, -⟩
    exact absurd hfits (by decide)
  · rw [msgWrite_none_iff]
    decide

end SimpleLink.Driver
