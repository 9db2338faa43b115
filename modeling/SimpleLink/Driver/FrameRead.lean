import SimpleLink.Driver.MsgRead
import SimpleLink.Driver.PoolWakeup

/-!
# What a message read consumes

The body of a message starts where the header ends, at `g`, and its frame is the
length of the header rounded up to four bytes. `FrameRead` says that
`_SlDrvMsgRead` ends behind the frame (and the alignment bytes the header asks
for), with the buffers filled from its parts. `FrameFits` is the condition on
the header, the descriptors and the active list under which it does.
-/

namespace SimpleLink.Driver

open Lib

/-! ## The interface -/

/-- The interface `n` bytes further on. -/
def SlIf.skip (f : SlIf) (n : Nat) : SlIf := { f with pos := f.pos + n }

@[simp] theorem SlIf.skip_pos (f : SlIf) (n : Nat) : (f.skip n).pos = f.pos + n := rfl

@[simp] theorem SlIf.skip_stream (f : SlIf) (n : Nat) : (f.skip n).stream = f.stream := rfl

@[simp] theorem SlIf.skip_skip (f : SlIf) (m n : Nat) : (f.skip m).skip n = f.skip (m + n) := by
  simp only [skip, Nat.add_assoc]

theorem SlIf.skip_inj {f g : SlIf} {n : Nat} (h : f.skip n = g.skip n) : f = g := by
  obtain ⟨s, p⟩ := f
  obtain ⟨t, q⟩ := g
  simpa [skip] using h

@[simp] theorem SlIf.read_eq (f : SlIf) (n : Nat) :
    f.read n = (SlIf.bytes f.stream f.pos n, f.skip n) := rfl

@[simp] theorem SlIf.length_bytes (s : Nat → UInt8) (p n : Nat) : (SlIf.bytes s p n).length = n := by
  simp [bytes]

@[simp] theorem SlIf.bytes_zero (s : Nat → UInt8) (p : Nat) : SlIf.bytes s p 0 = [] := rfl

theorem SlIf.bytes_append (s : Nat → UInt8) (p m n : Nat) :
    SlIf.bytes s p m ++ SlIf.bytes s (p + m) n = SlIf.bytes s p (m + n) := by
  simp only [bytes, List.range_add, List.map_append, List.map_map]
  congr 1
  refine List.map_congr_left fun i _ => ?_
  simp [Nat.add_assoc]

theorem SlIf.take_bytes (s : Nat → UInt8) (p : Nat) {m n : Nat} (h : m ≤ n) :
    (SlIf.bytes s p n).take m = SlIf.bytes s p m := by
  obtain ⟨k, rfl⟩ := Nat.exists_eq_add_of_le h
  rw [← bytes_append, List.take_left' (length_bytes ..)]

theorem SlIf.drop_bytes (s : Nat → UInt8) (p m n : Nat) :
    (SlIf.bytes s p (m + n)).drop m = SlIf.bytes s (p + m) n := by
  rw [← bytes_append, List.drop_left' (length_bytes ..)]

theorem SlIf.bytes_prefix (s : Nat → UInt8) (p : Nat) {m n : Nat} (h : m ≤ n) :
    SlIf.bytes s p m <+: SlIf.bytes s p n := by
  rw [← take_bytes s p h]
  exact List.take_prefix ..

/-! ## Reading away and reading the tail -/

theorem dumpRest_of_dvd (n : Nat) (hn : n % 4 = 0) (hlt : n < 65536) {fuel : Nat} (hf : n < fuel)
    (f : SlIf) : dumpRest fuel n f = some (f.skip n) := by
  induction fuel generalizing n f with
  | zero => omega
  | succ fuel ih =>
    unfold dumpRest
    by_cases h0 : n > 0
    · have hstep : (n + 65532) % 65536 = n - 4 := by omega
      rw [if_pos h0, hstep, ih (n - 4) (by omega) (by omega) (by omega)]
      simp only [SlIf.read_eq, SlIf.skip_skip]
      rw [show 4 + (n - 4) = n by omega]
    · obtain rfl : n = 0 := by omega
      rfl

theorem dumpRest_of_not_dvd {n : Nat} (hn : n % 4 ≠ 0) (fuel : Nat) (f : SlIf) :
    dumpRest fuel n f = none := by
  induction fuel generalizing n f with
  | zero => rfl
  | succ fuel ih =>
    unfold dumpRest
    rw [if_pos (by omega)]
    exact ih (by omega) _

theorem dumpRest_mono {fuel fuel' n : Nat} {f g : SlIf} (h : dumpRest fuel n f = some g)
    (hle : fuel ≤ fuel') : dumpRest fuel' n f = some g := by
  induction fuel generalizing fuel' n f with
  | zero => cases h
  | succ fuel ih =>
    obtain ⟨k, rfl⟩ := Nat.exists_eq_add_of_le' hle
    unfold dumpRest at h
    rw [← Nat.add_assoc, dumpRest]
    split
    · rename_i h0
      rw [if_pos h0] at h
      exact ih h (by omega)
    · rename_i h0
      rwa [if_neg h0] at h

theorem readTail_eq (f : SlIf) (len : Nat) :
    readTail f (clear2 len) (low2 len) =
      (SlIf.bytes f.stream f.pos len, f.skip (slProtocolAlignSize len)) := by
  have hsplit : clear2 len + low2 len = len := by simp only [clear2, low2]; omega
  have halign : low2 len > 0 → clear2 len + 4 = slProtocolAlignSize len := by
    simp only [clear2, low2, slProtocolAlignSize]; omega
  have hexact : ¬ low2 len > 0 → len = slProtocolAlignSize len := by
    simp only [clear2, low2, slProtocolAlignSize]; omega
  have hread : (if clear2 len ≥ 4 then f.read (clear2 len) else ([], f)) =
      (SlIf.bytes f.stream f.pos (clear2 len), f.skip (clear2 len)) := by
    split
    · rfl
    · rename_i h
      have h0 : clear2 len = 0 := by simp only [clear2] at h ⊢; omega
      rw [h0]
      rfl
  unfold readTail
  simp only [hread]
  by_cases ht : low2 len > 0
  · have hle : low2 len ≤ 4 := by simp only [low2]; omega
    simp only [ht, if_true, SlIf.read_eq, SlIf.skip_skip, SlIf.skip_stream, SlIf.skip_pos,
      SlIf.take_bytes _ _ hle, SlIf.bytes_append, hsplit, halign ht]
  · have h0 : clear2 len = len := by omega
    simp only [ht, if_false]
    rw [h0, ← hexact ht]

/-! ## The receive payload -/

/-- A response with more payload than the caller has room for is read to its end if its length is a
multiple of four, or stays within the four bytes in which the caller's length ends. -/
def PayloadFits (rxPayloadLen actDataSize : Nat) : Prop :=
  actDataSize % 4 = 0 ∨ actDataSize ≤ slProtocolAlignSize rxPayloadLen

instance (rxPayloadLen actDataSize : Nat) : Decidable (PayloadFits rxPayloadLen actDataSize) :=
  inferInstanceAs (Decidable (_ ∨ _))

theorem i16_of_lt {n : Int} (h : -32768 ≤ n) (h' : n < 32768) : i16 n = n := by
  unfold i16
  exact Int.bmod_eq_of_le (by omega) (by omega)

section payload

variable {r a : Nat} (f : SlIf)

theorem readRxPayload_le (hr : a ≤ r) (ha : a < 32768) (fuel : Nat) :
    readRxPayload fuel f r a =
      some (SlIf.bytes f.stream f.pos a, f.skip (slProtocolAlignSize a)) := by
  have h1 : ¬ (a : Int) > r := by omega
  have h2 : ¬ (if low2 a > 0 then i16 ((a : Int) - 4) else (a : Int)) > r := by
    split
    · rw [i16_of_lt (by omega) (by omega)]; omega
    · omega
  simp only [readRxPayload, h1, if_false, Int.toNat_natCast, readTail_eq, h2]

theorem readRxPayload_gt (hr : r < a) (ha : a < 32768) (fuel : Nat) :
    readRxPayload fuel f r a =
      (if (if low2 r > 0 then a - 4 else a) > r then
        (dumpRest fuel ((if low2 r > 0 then a - 4 else a) - clear2 r)
          (f.skip (slProtocolAlignSize r))).map fun g => (SlIf.bytes f.stream f.pos r, g)
      else some (SlIf.bytes f.stream f.pos r, f.skip (slProtocolAlignSize r))) := by
  have h1 : (a : Int) > r := by omega
  have hact : (if low2 r > 0 then i16 ((a : Int) - 4) else (a : Int)) =
      (a : Int) - (if low2 r > 0 then 4 else 0 : Nat) := by
    split
    · exact i16_of_lt (by omega) (by omega)
    · simp
  simp only [readRxPayload, h1, if_true, readTail_eq, hact]
  have hc : clear2 r ≤ r := by simp only [clear2]; omega
  by_cases ht : low2 r > 0
  · simp only [ht, if_true]
    by_cases hgt : a - 4 > r
    · rw [if_pos (by omega), if_pos hgt]
      rw [show ((a : Int) - (4 : Nat) - clear2 r).toNat % 65536 = a - 4 - clear2 r by omega]
      cases dumpRest fuel (a - 4 - clear2 r) (f.skip (slProtocolAlignSize r)) <;> rfl
    · rw [if_neg (by omega), if_neg hgt]
  · simp only [ht, if_false]
    rw [if_pos (by omega), if_pos hr]
    rw [show ((a : Int) - (0 : Nat) - clear2 r).toNat % 65536 = a - clear2 r by omega]
    cases dumpRest fuel (a - clear2 r) (f.skip (slProtocolAlignSize r)) <;> rfl

theorem readRxPayload_fits (h : PayloadFits r a) (ha : a < 32768) {fuel : Nat} (hf : a < fuel) :
    readRxPayload fuel f r a =
      some (SlIf.bytes f.stream f.pos (min a r), f.skip (slProtocolAlignSize a)) := by
  by_cases hr : a ≤ r
  · rw [readRxPayload_le f hr ha, Nat.min_eq_left hr]
  · rw [readRxPayload_gt f (by omega) ha, Nat.min_eq_right (by omega)]
    simp only [PayloadFits, slProtocolAlignSize, clear2, low2] at h ⊢
    by_cases ht : r % 4 > 0
    · simp only [ht, if_true]
      by_cases hgt : a - 4 > r
      · have h4 : a % 4 = 0 := by omega
        rw [if_pos hgt, dumpRest_of_dvd _ (by omega) (by omega) (by omega)]
        simp only [Option.map_some, SlIf.skip_skip]
        rw [show (r + 3) / 4 * 4 + (a - 4 - r / 4 * 4) = (a + 3) / 4 * 4 by omega]
      · rw [if_neg hgt, show (r + 3) / 4 * 4 = (a + 3) / 4 * 4 by omega]
    · have h4 : a % 4 = 0 := by omega
      simp only [ht, if_false]
      rw [if_pos (by omega), dumpRest_of_dvd _ (by omega) (by omega) (by omega)]
      simp only [Option.map_some, SlIf.skip_skip]
      rw [show (r + 3) / 4 * 4 + (a - r / 4 * 4) = (a + 3) / 4 * 4 by omega]

theorem readRxPayload_loops (hr : r < a) (ha : a < 32768) (hr4 : r % 4 = 0) (ha4 : a % 4 ≠ 0)
    (fuel : Nat) : readRxPayload fuel f r a = none := by
  have h0 : ¬ low2 r > 0 := by simp only [low2]; omega
  rw [readRxPayload_gt f hr ha]
  simp only [h0, if_false]
  rw [if_pos hr, dumpRest_of_not_dvd (by simp only [clear2]; omega)]
  rfl

theorem readRxPayload_not_fits (h : ¬ PayloadFits r a) (ha : a < 32768) {fuel : Nat}
    {data : List UInt8} {g : SlIf} (he : readRxPayload fuel f r a = some (data, g)) :
    g.pos < f.pos + slProtocolAlignSize a := by
  simp only [PayloadFits, slProtocolAlignSize, clear2, not_or] at h
  by_cases ht : r % 4 > 0
  · rw [readRxPayload_gt f (by omega) ha] at he
    simp only [low2, clear2, ht, if_true] at he
    by_cases hgt : a - 4 > r
    · rw [if_pos hgt, dumpRest_of_not_dvd (by omega)] at he
      cases he
    · rw [if_neg hgt] at he
      cases he
      simp only [SlIf.skip_pos, slProtocolAlignSize, clear2]
      omega
  · rw [readRxPayload_loops f (by omega) ha (by omega) h.1] at he
    cases he

end payload

/-! ## The property -/

/-- The lengths of an argument buffer and of a payload buffer. -/
structure Buffers where
  args : Nat
  payload : Nat

/-- The buffers a message is stored to. `resp` has those of the caller that waits with an object,
its `pRespArgs`. -/
def RxMsg.buffers (resp : Nat → Buffers) (cb : RxCb) (msg : RxMsg) : Buffers :=
  match msg.rxMsgClass with
  | .asyncEvt => ⟨slAsyncMaxPayloadLen, 0⟩
  | .recvResp => (msg.actionIndex.map resp).getD ⟨0, 0⟩
  | .cmdResp => ⟨cb.rxDescLen.toNat, (cb.pCmdExt.map fun ext => ext.rxPayloadLen.val).getD 0⟩
  | .dummyMsg => ⟨0, 0⟩

def RxMsg.argsSize (cb : RxCb) (opcode : Nat) (msg : RxMsg) : Nat :=
  match msg.rxMsgClass with
  | .recvResp => expArgSize opcode
  | .cmdResp => cb.rxDescLen.toNat
  | _ => 0

/-- Each buffer holds what was stored to it, a prefix of its part of the frame. -/
structure RxMsg.Stored (resp : Nat → Buffers) (cb : RxCb) (opcode : Nat) (frame : List UInt8)
    (msg : RxMsg) : Prop where
  args_le : msg.args.length ≤ (msg.buffers resp cb).args
  payload_le : msg.payload.length ≤ (msg.buffers resp cb).payload
  args : msg.args <+: frame
  payload : msg.payload <+: frame.drop (msg.argsSize cb opcode)

/-- The body that starts at `g` is read to the end of its frame. -/
def BodyRead (behind : Nat → Nat) (resp : Nat → Buffers) (cb : RxCb) (g : SlIf)
    (opcode respPayloadLen : Nat) : Prop :=
  ∃ fuel msg cb', readClass behind fuel cb g opcode respPayloadLen =
      some (msg, cb', g.skip (slProtocolAlignSize respPayloadLen)) ∧
    msg.Stored resp cb opcode (SlIf.bytes g.stream g.pos (slProtocolAlignSize respPayloadLen))

/-- The message at `f`, whose body starts at `g`, is read to the end of its frame. -/
def FrameRead (behind : Nat → Nat) (resp : Nat → Buffers) (cb : RxCb) (f g : SlIf)
    (hdr : SlResponseHeader) (alignSize : Nat) : Prop :=
  ∃ fuel msg cb', slDrvMsgRead behind fuel cb f =
      some (msg, cb', g.skip (slProtocolAlignSize (hdr.len - slRespSpecHdrSize) + alignSize)) ∧
    msg.Stored resp cb hdr.opcode
      (SlIf.bytes g.stream g.pos (slProtocolAlignSize (hdr.len - slRespSpecHdrSize)))

/-! ## The condition -/

local instance neZero_payloadLen : NeZero 32768 := ⟨by decide⟩

/-- The descriptor of a command that waits for no receive payload, or gets none, is the frame. -/
def CmdFits (cb : RxCb) (respPayloadLen : Nat) : Prop :=
  cb.rxDescLen.toNat % 4 = 0 ∧
    match cb.pCmdExt with
    | none => slProtocolAlignSize respPayloadLen = cb.rxDescLen.toNat
    | some ext =>
      if ext.rxPayloadLen = 0 ∨ respPayloadLen ≤ cb.rxDescLen.toNat then
        slProtocolAlignSize respPayloadLen = cb.rxDescLen.toNat
      else respPayloadLen - cb.rxDescLen.toNat < 32768 ∧
        PayloadFits ext.rxPayloadLen (respPayloadLen - cb.rxDescLen.toNat)

/-- A receive response with the arguments `args` is for an object that waits, fits the buffers it
waits with, and its `StatusOrLen` makes the length of its header. -/
def RecvFits (behind : Nat → Nat) (resp : Nat → Buffers) (cb : RxCb) (args : List UInt8)
    (opcode respPayloadLen : Nat) : Prop :=
  respSd args < slMaxSockets ∧
    ∃ i, slFindAndSetActiveObj behind cb.pool opcode (respSd args) = some (some i) ∧
      expArgSize opcode ≤ (resp i).args ∧ (actDataSize args).toNat ≤ (resp i).payload ∧
      expArgSize opcode + slProtocolAlignSize (actDataSize args).toNat =
        slProtocolAlignSize respPayloadLen

def FrameFits (behind : Nat → Nat) (resp : Nat → Buffers) (cb : RxCb) (g : SlIf)
    (opcode respPayloadLen : Nat) : Prop :=
  match slDrvClassifyRxMsg opcode with
  | .asyncEvt => True
  | .recvResp =>
    RecvFits behind resp cb (SlIf.bytes g.stream g.pos recvArgsSize) opcode respPayloadLen
  | .cmdResp => CmdFits cb respPayloadLen
  | .dummyMsg => respPayloadLen = 0

/-! ## The classes -/

theorem readAsyncEvt_eq (behind : Nat → Nat) {cb : RxCb} {F P A W : List Nat}
    (h : Lists cb.pool F P A W) (g : SlIf) (opcode : Nat) {len fuel : Nat} (hlen : len < 65532)
    (hf : len + 4 < fuel) :
    ∃ actionIndex, readAsyncEvt behind fuel cb g opcode len =
      some (⟨.asyncEvt, actionIndex,
          SlIf.bytes g.stream g.pos (min (slProtocolAlignSize len) slAsyncMaxPayloadLen), [], none⟩,
        cb, g.skip (slProtocolAlignSize len)) := by
  have ha : slProtocolAlignSize len < len + 4 := by simp only [slProtocolAlignSize, clear2]; omega
  have h4 : slProtocolAlignSize len % 4 = 0 := by simp only [slProtocolAlignSize, clear2]; omega
  have hmin : (if slProtocolAlignSize len ≤ slAsyncMaxPayloadLen then slProtocolAlignSize len
      else slProtocolAlignSize slAsyncMaxPayloadLen) =
        min (slProtocolAlignSize len) slAsyncMaxPayloadLen := by
    have : slProtocolAlignSize slAsyncMaxPayloadLen = slAsyncMaxPayloadLen := rfl
    rw [this]
    split <;> omega
  have hread : (if len > 0 then g.read (min (slProtocolAlignSize len) slAsyncMaxPayloadLen)
      else ([], g)) =
        (SlIf.bytes g.stream g.pos (min (slProtocolAlignSize len) slAsyncMaxPayloadLen),
          g.skip (min (slProtocolAlignSize len) slAsyncMaxPayloadLen)) := by
    split
    · rfl
    · obtain rfl : len = 0 := by omega
      rfl
  have hdump : (if slProtocolAlignSize len > slAsyncMaxPayloadLen then
      dumpRest fuel (slProtocolAlignSize len - slAsyncMaxPayloadLen)
        (g.skip (min (slProtocolAlignSize len) slAsyncMaxPayloadLen))
      else some (g.skip (min (slProtocolAlignSize len) slAsyncMaxPayloadLen))) =
        some (g.skip (slProtocolAlignSize len)) := by
    have h160 : slAsyncMaxPayloadLen = 160 := rfl
    split
    · rw [dumpRest_of_dvd _ (by omega) (by omega) (by omega), SlIf.skip_skip,
        Nat.min_eq_right (by omega), Nat.add_sub_cancel' (by omega)]
    · rw [Nat.min_eq_left (by omega)]
  unfold readAsyncEvt
  simp only [hmin, hread, hdump]
  obtain ⟨actionIndex, he⟩ := slFindAndSetActiveObj_eq_some h.active h.nodup.2.2.1 behind opcode
    (eventSd opcode (SlIf.bytes g.stream g.pos (min (slProtocolAlignSize len) slAsyncMaxPayloadLen)))
  exact ⟨actionIndex, by rw [he]⟩

theorem recvArgsSize_le_expArgSize (opcode : Nat) : recvArgsSize ≤ expArgSize opcode := by
  unfold expArgSize
  split
  · decide
  · split <;> decide

theorem readRecvPayload_eq (f : SlIf) (n : Int) :
    readRecvPayload f n =
      (SlIf.bytes f.stream f.pos n.toNat, f.skip (slProtocolAlignSize n.toNat)) := by
  unfold readRecvPayload
  split
  · exact readTail_eq f n.toNat
  · rw [Int.toNat_of_nonpos (by omega)]
    rfl

theorem readRecvResp_eq {behind : Nat → Nat} {cb : RxCb} {g : SlIf} {opcode i n : Nat}
    {args : List UInt8} (hargs : SlIf.bytes g.stream g.pos recvArgsSize = args)
    (hn : (actDataSize args).toNat = n) (hsd : respSd args < slMaxSockets)
    (hfind : slFindAndSetActiveObj behind cb.pool opcode (respSd args) = some (some i)) :
    readRecvResp behind cb g opcode =
      some (⟨.recvResp, some i, SlIf.bytes g.stream g.pos (expArgSize opcode),
          SlIf.bytes g.stream (g.pos + expArgSize opcode) n, some i⟩,
        cb, g.skip (expArgSize opcode + slProtocolAlignSize n)) := by
  have hexp := recvArgsSize_le_expArgSize opcode
  have hmore : (if expArgSize opcode > recvArgsSize then
      (g.skip recvArgsSize).read (expArgSize opcode - recvArgsSize) else ([], g.skip recvArgsSize)) =
        (SlIf.bytes g.stream (g.pos + recvArgsSize) (expArgSize opcode - recvArgsSize),
          g.skip (expArgSize opcode)) := by
    split
    · simp only [SlIf.read_eq, SlIf.skip_skip, SlIf.skip_stream, SlIf.skip_pos,
        Nat.add_sub_cancel' hexp]
    · have heq : expArgSize opcode = recvArgsSize := by omega
      rw [heq, Nat.sub_self]
      rfl
  have happend : args ++
      SlIf.bytes g.stream (g.pos + recvArgsSize) (expArgSize opcode - recvArgsSize) =
        SlIf.bytes g.stream g.pos (expArgSize opcode) := by
    rw [← hargs, SlIf.bytes_append, Nat.add_sub_cancel' hexp]
  unfold readRecvResp
  rw [SlIf.read_eq, hargs]
  simp only [hsd, if_true, hfind]
  rw [hmore]
  simp only [happend, readRecvPayload_eq, hn, SlIf.skip_skip, SlIf.skip_stream, SlIf.skip_pos]

theorem readRecvResp_some {behind : Nat → Nat} {cb cb' : RxCb} {g g' : SlIf} {opcode : Nat}
    {args : List UInt8} {msg : RxMsg} (hargs : SlIf.bytes g.stream g.pos recvArgsSize = args)
    (h : readRecvResp behind cb g opcode = some (msg, cb', g')) :
    respSd args < slMaxSockets ∧
      ∃ i, slFindAndSetActiveObj behind cb.pool opcode (respSd args) = some (some i) := by
  unfold readRecvResp at h
  rw [SlIf.read_eq, hargs] at h
  by_cases hsd : respSd args < slMaxSockets
  · refine ⟨hsd, ?_⟩
    simp only [hsd, if_true] at h
    rcases hfind : slFindAndSetActiveObj behind cb.pool opcode (respSd args) with _ | _ | i
    · rw [hfind] at h; cases h
    · rw [hfind] at h; cases h
    · exact ⟨i, rfl⟩
  · simp only [hsd, if_false] at h
    cases h

theorem slProtocolAlignSize_of_dvd {n : Nat} (h : n % 4 = 0) : slProtocolAlignSize n = n := by
  simp only [slProtocolAlignSize, clear2]
  omega

theorem i16_of_ge {n : Int} (h : 32768 ≤ n) (h' : n < 65536) : i16 n ≤ 0 := by
  have hsub : i16 n = i16 (n - 65536) := by
    unfold i16
    rw [← Int.emod_bmod, ← Int.emod_bmod (x := n - 65536)]
    congr 1
    omega
  rw [hsub, i16_of_lt (by omega) (by omega)]
  omega

section cmd

variable {cb : RxCb} {g : SlIf} {len fuel : Nat}

theorem readCmdResp_args (g : SlIf) (fuel : Nat)
    (h : ∀ ext, cb.pCmdExt = some ext → ext.rxPayloadLen = 0 ∨
      i16 ((len : Int) - cb.rxDescLen.toNat) ≤ 0) :
    ∃ cb', readCmdResp fuel cb g len =
      some (⟨.cmdResp, none, SlIf.bytes g.stream g.pos (slProtocolAlignSize cb.rxDescLen.toNat), [],
        none⟩, cb', g.skip (slProtocolAlignSize cb.rxDescLen.toNat)) := by
  unfold readCmdResp
  cases hext : cb.pCmdExt with
  | none => exact ⟨cb, rfl⟩
  | some ext =>
    by_cases hr : ext.rxPayloadLen = 0
    · exact ⟨cb, by simp only [SlIf.read_eq, hr, if_true]⟩
    · have hact := (h ext hext).resolve_left hr
      exact ⟨{ cb with pCmdExt := some ⟨0, i16 ((len : Int) - cb.rxDescLen.toNat)⟩ },
        by simp only [SlIf.read_eq, hr, hact, if_true, if_false]⟩

theorem readCmdResp_payload (g : SlIf) (fuel : Nat) {ext : SlCmdExt} (hext : cb.pCmdExt = some ext)
    (hr : ext.rxPayloadLen ≠ 0) {a : Nat} (ha : i16 ((len : Int) - cb.rxDescLen.toNat) = a)
    (hpos : 0 < a) :
    readCmdResp fuel cb g len =
      (readRxPayload fuel (g.skip (slProtocolAlignSize cb.rxDescLen.toNat)) ext.rxPayloadLen a).map
        fun r => (⟨.cmdResp, none,
          SlIf.bytes g.stream g.pos (slProtocolAlignSize cb.rxDescLen.toNat), r.1, none⟩,
          { cb with pCmdExt := some { ext with actualRxPayloadLen := a } }, r.2) := by
  have hnot : ¬ (a : Int) ≤ 0 := by omega
  unfold readCmdResp
  simp only [SlIf.read_eq, hext, hr, if_false, ha, hnot]
  cases readRxPayload fuel (g.skip (slProtocolAlignSize cb.rxDescLen.toNat)) ext.rxPayloadLen a with
  | none => rfl
  | some r => rfl

theorem stored_args {resp : Nat → Buffers} {opcode n : Nat} {payload : List UInt8}
    (hD : slProtocolAlignSize cb.rxDescLen.toNat = cb.rxDescLen.toNat)
    (hn : cb.rxDescLen.toNat ≤ n)
    (hlen : payload.length ≤ (cb.pCmdExt.map fun ext => ext.rxPayloadLen.val).getD 0)
    (hpre : payload <+: (SlIf.bytes g.stream g.pos n).drop cb.rxDescLen.toNat) :
    RxMsg.Stored resp cb opcode (SlIf.bytes g.stream g.pos n)
      ⟨.cmdResp, none, SlIf.bytes g.stream g.pos (slProtocolAlignSize cb.rxDescLen.toNat), payload,
        none⟩ where
  args_le := by
    rw [SlIf.length_bytes, hD]
    exact Nat.le_refl _
  payload_le := hlen
  args := by
    rw [hD]
    exact SlIf.bytes_prefix _ _ hn
  payload := hpre

theorem rxDescLen_of_stored {resp : Nat → Buffers} {opcode : Nat} {frame payload : List UInt8}
    (h : RxMsg.Stored resp cb opcode frame
      ⟨.cmdResp, none, SlIf.bytes g.stream g.pos (slProtocolAlignSize cb.rxDescLen.toNat), payload,
        none⟩) : cb.rxDescLen.toNat % 4 = 0 := by
  have hle := h.args_le
  rw [SlIf.length_bytes] at hle
  have : slProtocolAlignSize cb.rxDescLen.toNat ≤ cb.rxDescLen.toNat := hle
  simp only [slProtocolAlignSize, clear2] at this
  omega

end cmd

/-! ## Bodies -/

section body

variable {behind : Nat → Nat} {resp : Nat → Buffers} {cb : RxCb} {g : SlIf} {opcode len : Nat}

theorem bodyRead_asyncEvt (hc : slDrvClassifyRxMsg opcode = .asyncEvt) {F P A W : List Nat}
    (h : Lists cb.pool F P A W) (hlen : len < 65532) : BodyRead behind resp cb g opcode len := by
  obtain ⟨actionIndex, he⟩ := readAsyncEvt_eq behind h g opcode hlen
    (Nat.lt_succ_self (len + 4))
  have hread : readClass behind (len + 4).succ cb g opcode len =
      readAsyncEvt behind (len + 4).succ cb g opcode len := by
    unfold readClass
    rw [hc]
  refine ⟨(len + 4).succ, _, cb, hread.trans he, ?_, Nat.le_refl _,
    SlIf.bytes_prefix _ _ (Nat.min_le_left ..), List.nil_prefix⟩
  rw [SlIf.length_bytes]
  exact Nat.min_le_right ..

theorem bodyRead_dummyMsg (hc : slDrvClassifyRxMsg opcode = .dummyMsg) :
    BodyRead behind resp cb g opcode len ↔ len = 0 := by
  have hread : ∀ fuel, readClass behind fuel cb g opcode len =
      some (⟨.dummyMsg, none, [], [], none⟩, cb, g) := by
    intro fuel
    unfold readClass
    rw [hc]
  constructor
  · rintro ⟨fuel, msg, cb', he, -⟩
    rw [hread] at he
    have hpos := congrArg SlIf.pos (Prod.mk.inj (Prod.mk.inj (Option.some.inj he)).2).2
    simp only [SlIf.skip_pos, slProtocolAlignSize, clear2] at hpos
    omega
  · rintro rfl
    exact ⟨0, _, cb, hread 0, Nat.le_refl _, Nat.le_refl _, List.nil_prefix, List.nil_prefix⟩

theorem bodyRead_recvResp (hc : slDrvClassifyRxMsg opcode = .recvResp) :
    BodyRead behind resp cb g opcode len ↔
      RecvFits behind resp cb (SlIf.bytes g.stream g.pos recvArgsSize) opcode len := by
  have hread : ∀ fuel, readClass behind fuel cb g opcode len = readRecvResp behind cb g opcode := by
    intro fuel
    unfold readClass
    rw [hc]
  generalize hargs : SlIf.bytes g.stream g.pos recvArgsSize = args
  unfold RecvFits
  generalize hn : (actDataSize args).toNat = n
  constructor
  · rintro ⟨fuel, msg, cb', he, hst⟩
    rw [hread] at he
    obtain ⟨hsd, i, hfind⟩ := readRecvResp_some hargs he
    rw [readRecvResp_eq hargs hn hsd hfind] at he
    simp only [Option.some.injEq, Prod.mk.injEq] at he
    obtain ⟨rfl, -, he⟩ := he
    have hpos := congrArg SlIf.pos he
    simp only [SlIf.skip_pos, Nat.add_left_cancel_iff] at hpos
    have hle := hst.args_le
    have hle' := hst.payload_le
    rw [SlIf.length_bytes] at hle hle'
    exact ⟨hsd, i, hfind, hle, hle', hpos⟩
  · rintro ⟨hsd, i, hfind, hle, hle', hlen⟩
    have he := readRecvResp_eq hargs hn hsd hfind
    have hn4 : n ≤ slProtocolAlignSize n := by
      simp only [slProtocolAlignSize, clear2]
      omega
    have hpre := SlIf.bytes_prefix g.stream (g.pos + expArgSize opcode) hn4
    rw [← SlIf.drop_bytes _ _ _ (slProtocolAlignSize n), hlen] at hpre
    rw [hlen] at he
    refine ⟨0, _, cb, (hread 0).trans he, ?_, ?_, SlIf.bytes_prefix _ _ (by omega), hpre⟩
    · rw [SlIf.length_bytes]
      exact hle
    · rw [SlIf.length_bytes]
      exact hle'

theorem bodyRead_cmdResp (hc : slDrvClassifyRxMsg opcode = .cmdResp) (hlen : len < 65532) :
    BodyRead behind resp cb g opcode len ↔ CmdFits cb len := by
  have hread : ∀ fuel, readClass behind fuel cb g opcode len = readCmdResp fuel cb g len := by
    intro fuel
    unfold readClass
    rw [hc]
  have hD := cb.rxDescLen.toNat_lt
  -- without a receive payload the frame is the descriptor
  have hargs : (∀ ext, cb.pCmdExt = some ext → ext.rxPayloadLen = 0 ∨
      i16 ((len : Int) - cb.rxDescLen.toNat) ≤ 0) →
      (BodyRead behind resp cb g opcode len ↔
        cb.rxDescLen.toNat % 4 = 0 ∧ slProtocolAlignSize len = cb.rxDescLen.toNat) := by
    intro h
    constructor
    · rintro ⟨fuel, msg, cb', he, hst⟩
      rw [hread] at he
      obtain ⟨cb'', he'⟩ := readCmdResp_args g fuel h
      rw [he'] at he
      simp only [Option.some.injEq, Prod.mk.injEq] at he
      obtain ⟨rfl, -, he⟩ := he
      have hD4 := rxDescLen_of_stored hst
      have hpos := congrArg SlIf.pos he
      simp only [SlIf.skip_pos, Nat.add_left_cancel_iff, slProtocolAlignSize_of_dvd hD4] at hpos
      exact ⟨hD4, hpos.symm⟩
    · rintro ⟨hD4, heq⟩
      have hal := slProtocolAlignSize_of_dvd hD4
      obtain ⟨cb'', he'⟩ := readCmdResp_args g 0 h
      refine ⟨0, _, cb'', ?_, stored_args hal (Nat.le_of_eq heq.symm) (Nat.zero_le _)
        List.nil_prefix⟩
      rw [hread, he', hal, heq]
  unfold CmdFits
  cases hext : cb.pCmdExt with
  | none => exact hargs (by rw [hext]; exact nofun)
  | some ext =>
    have hsome : ∀ {p : SlCmdExt → Prop}, p ext → ∀ ext', cb.pCmdExt = some ext' → p ext' := by
      intro p hp ext' he
      obtain rfl := Option.some.inj (hext.symm.trans he)
      exact hp
    simp only
    by_cases h0 : ext.rxPayloadLen = 0 ∨ len ≤ cb.rxDescLen.toNat
    · rw [if_pos h0]
      refine hargs (hsome (h0.imp_right fun hle => ?_))
      rw [i16_of_lt (by omega) (by omega)]
      omega
    · rw [if_neg h0]
      obtain ⟨hr, hgt⟩ := not_or.1 h0
      by_cases hbig : len - cb.rxDescLen.toNat < 32768
      · have ha : i16 ((len : Int) - cb.rxDescLen.toNat) = (len - cb.rxDescLen.toNat : Nat) := by
          rw [i16_of_lt (by omega) (by omega)]
          omega
        have hcmd := fun fuel => readCmdResp_payload g fuel hext hr ha (by omega)
        generalize haa : len - cb.rxDescLen.toNat = a at *
        constructor
        · rintro ⟨fuel, msg, cb', he, hst⟩
          rw [hread, hcmd, Option.map_eq_some_iff] at he
          obtain ⟨⟨data, g'⟩, he, heq⟩ := he
          simp only [Prod.mk.injEq] at heq
          obtain ⟨rfl, -, rfl⟩ := heq
          have hD4 := rxDescLen_of_stored hst
          refine ⟨hD4, hbig, ?_⟩
          by_contra hnot
          have hlt := readRxPayload_not_fits _ hnot hbig he
          simp only [SlIf.skip_pos, slProtocolAlignSize, clear2] at hlt
          omega
        · rintro ⟨hD4, -, hfits⟩
          have hal := slProtocolAlignSize_of_dvd hD4
          have hsum : cb.rxDescLen.toNat + slProtocolAlignSize a = slProtocolAlignSize len := by
            simp only [slProtocolAlignSize, clear2]
            omega
          have hle : min a ext.rxPayloadLen ≤ slProtocolAlignSize a := by
            simp only [slProtocolAlignSize, clear2]
            omega
          have hst : RxMsg.Stored resp cb opcode
              (SlIf.bytes g.stream g.pos (slProtocolAlignSize len))
              ⟨.cmdResp, none, SlIf.bytes g.stream g.pos (slProtocolAlignSize cb.rxDescLen.toNat),
                SlIf.bytes g.stream (g.pos + slProtocolAlignSize cb.rxDescLen.toNat)
                  (min a ext.rxPayloadLen), none⟩ := by
            refine stored_args hal (by omega) ?_ ?_
            · rw [SlIf.length_bytes, hext]
              exact Nat.min_le_right ..
            · rw [← hsum, SlIf.drop_bytes, hal]
              exact SlIf.bytes_prefix _ _ hle
          refine ⟨a + 1, _, { cb with pCmdExt := some { ext with actualRxPayloadLen := a } }, ?_, hst⟩
          rw [hread, hcmd, readRxPayload_fits _ hfits hbig (Nat.lt_succ_self a), Option.map_some,
            SlIf.skip_skip, ← hsum]
          simp only [SlIf.skip_stream, SlIf.skip_pos, hal]
      · refine (hargs (hsome (.inr (i16_of_ge (by omega) (by omega))))).trans ?_
        refine iff_of_false ?_ (fun h => hbig h.2.1)
        simp only [slProtocolAlignSize, clear2]
        omega

theorem bodyRead_iff {F P A W : List Nat} (h : Lists cb.pool F P A W) (hlen : len < 65532) :
    BodyRead behind resp cb g opcode len ↔ FrameFits behind resp cb g opcode len := by
  unfold FrameFits
  cases hc : slDrvClassifyRxMsg opcode with
  | asyncEvt => exact iff_of_true (bodyRead_asyncEvt hc h hlen) trivial
  | recvResp => exact bodyRead_recvResp hc
  | cmdResp => exact bodyRead_cmdResp hc hlen
  | dummyMsg => exact bodyRead_dummyMsg hc

end body

/-! ## More fuel -/

section mono

variable {fuel fuel' : Nat} (hle : fuel ≤ fuel')

include hle

theorem doubleScan_mono {f : SlIf} {seq : UInt8} {buf : List UInt8} {r : SlIf × List UInt8}
    (h : doubleScan seq fuel f buf = some r) : doubleScan seq fuel' f buf = some r := by
  induction fuel generalizing fuel' f buf with
  | zero => cases h
  | succ fuel ih =>
    obtain ⟨k, rfl⟩ := Nat.exists_eq_add_of_le' hle
    rw [← Nat.add_assoc, doubleScan]
    unfold doubleScan at h
    by_cases hm : n2hSyncPatternMatch buf seq
    · rw [if_pos hm] at h ⊢
      exact ih (by omega) h
    · rwa [if_neg hm] at h ⊢

theorem slDrvRxHdrRead_mono {f : SlIf} {seq : UInt8} {r : List UInt8 × Nat × SlIf}
    (h : slDrvRxHdrRead fuel f seq = some r) : slDrvRxHdrRead fuel' f seq = some r := by
  unfold slDrvRxHdrRead at h ⊢
  simp only at h ⊢
  cases hs : syncScan seq slSyncScanThreshold (f.read 4).2 ((f.read 4).1 ++ [0, 0, 0, 0]) 0 with
  | none => rw [hs] at h; cases h
  | some t =>
    obtain ⟨f₁, buf₁, syncCnt⟩ := t
    rw [hs] at h
    simp only at h ⊢
    generalize (if syncCnt % syncPatternLen > 0 then _ else f₁.read 4) = p at h ⊢
    cases hd : doubleScan seq fuel p.2 p.1 with
    | none => rw [hd] at h; cases h
    | some t =>
      rw [hd] at h
      rw [doubleScan_mono hle hd]
      exact h

theorem readRxPayload_mono {f : SlIf} {rxPayloadLen : Nat} {act : Int} {r : List UInt8 × SlIf}
    (h : readRxPayload fuel f rxPayloadLen act = some r) :
    readRxPayload fuel' f rxPayloadLen act = some r := by
  unfold readRxPayload at h ⊢
  simp only at h ⊢
  generalize (if act > (rxPayloadLen : Int) then rxPayloadLen else act.toNat) = len at h ⊢
  generalize (if low2 len > 0 then i16 (act - 4) else act) = act' at h ⊢
  split at h
  · rename_i hgt
    rw [if_pos hgt]
    split at h
    · cases h
    · rename_i f' hd
      rw [dumpRest_mono hd hle]
      exact h
  · rename_i hgt
    rw [if_neg hgt]
    exact h

theorem readClass_mono {behind : Nat → Nat} {cb : RxCb} {f : SlIf} {opcode len : Nat}
    {r : RxMsg × RxCb × SlIf} (h : readClass behind fuel cb f opcode len = some r) :
    readClass behind fuel' cb f opcode len = some r := by
  unfold readClass at h ⊢
  cases hc : slDrvClassifyRxMsg opcode with
  | asyncEvt =>
    simp only [hc] at h ⊢
    unfold readAsyncEvt at h ⊢
    simp only at h ⊢
    split at h
    · cases h
    · rename_i f' hrest
      split at hrest
      · rename_i hgt
        rw [if_pos hgt, dumpRest_mono hrest hle]
        exact h
      · rename_i hgt
        rw [if_neg hgt, hrest]
        exact h
  | recvResp => simpa only [hc] using h
  | cmdResp =>
    simp only [hc] at h ⊢
    unfold readCmdResp at h ⊢
    simp only at h ⊢
    cases hext : cb.pCmdExt with
    | none => simpa only [hext] using h
    | some ext =>
      simp only [hext] at h ⊢
      by_cases hr : ext.rxPayloadLen = 0
      · rwa [if_pos hr] at h ⊢
      · rw [if_neg hr] at h ⊢
        by_cases hact : i16 ((len : Int) - cb.rxDescLen.toNat) ≤ 0
        · rwa [if_pos hact] at h ⊢
        · rw [if_neg hact] at h ⊢
          split at h
          · cases h
          · rename_i payload f' hd
            rw [readRxPayload_mono hle hd]
            exact h
  | dummyMsg => simpa only [hc] using h

end mono

/-! ## Messages -/

@[simp] theorem RxCb.flowCont_pool (cb : RxCb) (hdr : SlResponseHeader) :
    (cb.flowCont hdr).pool = cb.pool := by
  unfold flowCont
  split <;> rfl

@[simp] theorem RxCb.flowCont_rxDescLen (cb : RxCb) (hdr : SlResponseHeader) :
    (cb.flowCont hdr).rxDescLen = cb.rxDescLen := by
  unfold flowCont
  split <;> rfl

@[simp] theorem RxCb.flowCont_pCmdExt (cb : RxCb) (hdr : SlResponseHeader) :
    (cb.flowCont hdr).pCmdExt = cb.pCmdExt := by
  unfold flowCont
  split <;> rfl

theorem bodyRead_flowCont {behind : Nat → Nat} {resp : Nat → Buffers} {cb : RxCb} {g : SlIf}
    (hdr : SlResponseHeader) {opcode len : Nat} (hlists : ∃ F P A W, Lists cb.pool F P A W)
    (hlen : len < 65532) :
    BodyRead behind resp ({ cb with txSeqNum := cb.txSeqNum + 1 }.flowCont hdr) g opcode len ↔
      FrameFits behind resp cb g opcode len := by
  obtain ⟨F, P, A, W, h⟩ := hlists
  have hpool : Lists ({ cb with txSeqNum := cb.txSeqNum + 1 }.flowCont hdr).pool F P A W := by
    rw [RxCb.flowCont_pool]
    exact h
  rw [bodyRead_iff hpool hlen]
  unfold FrameFits RecvFits CmdFits
  simp only [RxCb.flowCont_pool, RxCb.flowCont_rxDescLen, RxCb.flowCont_pCmdExt]

theorem stored_flowCont {resp : Nat → Buffers} {cb : RxCb} {hdr : SlResponseHeader} {opcode : Nat}
    {frame : List UInt8} {msg : RxMsg} :
    msg.Stored resp ({ cb with txSeqNum := cb.txSeqNum + 1 }.flowCont hdr) opcode frame ↔
      msg.Stored resp cb opcode frame := by
  have hbuf : msg.buffers resp ({ cb with txSeqNum := cb.txSeqNum + 1 }.flowCont hdr) =
      msg.buffers resp cb := by
    unfold RxMsg.buffers
    simp only [RxCb.flowCont_rxDescLen, RxCb.flowCont_pCmdExt]
  have hsize : msg.argsSize ({ cb with txSeqNum := cb.txSeqNum + 1 }.flowCont hdr) opcode =
      msg.argsSize cb opcode := by
    unfold RxMsg.argsSize
    simp only [RxCb.flowCont_rxDescLen]
  constructor
  · rintro ⟨h1, h2, h3, h4⟩
    rw [hbuf] at h1 h2
    rw [hsize] at h4
    exact ⟨h1, h2, h3, h4⟩
  · rintro ⟨h1, h2, h3, h4⟩
    rw [← hbuf] at h1 h2
    rw [← hsize] at h4
    exact ⟨h1, h2, h3, h4⟩

theorem SlResponseHeader.ofBytes_len_lt (buf : List UInt8) : (ofBytes buf).len < 65536 := by
  have h2 := (buf.getD 2 0).toNat_lt
  have h3 := (buf.getD 3 0).toNat_lt
  show (buf.getD 2 0).toNat + 256 * (buf.getD 3 0).toNat < 65536
  omega

theorem slDrvMsgRead_eq {behind : Nat → Nat} {fuel : Nat} {cb : RxCb} {f g : SlIf}
    {buf : List UInt8} {alignSize : Nat}
    (hhdr : slDrvRxHdrRead fuel f cb.txSeqNum = some (buf, alignSize, g))
    (hlen : slRespSpecHdrSize ≤ (SlResponseHeader.ofBytes buf).len) :
    slDrvMsgRead behind fuel cb f =
      (readClass behind fuel
          ({ cb with txSeqNum := cb.txSeqNum + 1 }.flowCont (SlResponseHeader.ofBytes buf)) g
          (SlResponseHeader.ofBytes buf).opcode
          ((SlResponseHeader.ofBytes buf).len - slRespSpecHdrSize)).map
        fun r => (r.1, r.2.1, r.2.2.skip alignSize) := by
  have hlt := SlResponseHeader.ofBytes_len_lt buf
  unfold slDrvMsgRead
  simp only [hhdr]
  generalize SlResponseHeader.ofBytes buf = hdr at *
  have hpay : (hdr.len + (65536 - slRespSpecHdrSize)) % 65536 = hdr.len - slRespSpecHdrSize := by
    have h4 : slRespSpecHdrSize = 4 := rfl
    omega
  rw [hpay]
  cases readClass behind fuel ({ cb with txSeqNum := cb.txSeqNum + 1 }.flowCont hdr) g hdr.opcode
      (hdr.len - slRespSpecHdrSize) with
  | none => rfl
  | some r =>
    simp only [Option.map_some]
    split
    · rfl
    · rename_i h0
      obtain rfl : alignSize = 0 := by omega
      rfl

theorem slDrvRxHdrRead_of_slDrvMsgRead {behind : Nat → Nat} {fuel : Nat} {cb : RxCb} {f : SlIf}
    {r : RxMsg × RxCb × SlIf} (h : slDrvMsgRead behind fuel cb f = some r)
    {fuel' : Nat} {r' : List UInt8 × Nat × SlIf}
    (hhdr : slDrvRxHdrRead fuel' f cb.txSeqNum = some r') :
    slDrvRxHdrRead fuel f cb.txSeqNum = some r' := by
  unfold slDrvMsgRead at h
  cases hr : slDrvRxHdrRead fuel f cb.txSeqNum with
  | none => rw [hr] at h; cases h
  | some r'' =>
    have hmax := slDrvRxHdrRead_mono (Nat.le_max_left fuel fuel') hr
    rwa [slDrvRxHdrRead_mono (Nat.le_max_right fuel fuel') hhdr, eq_comm] at hmax

/-- The message whose header is at `f` is read to the end of its frame just when the frame fits. -/
theorem slDrvMsgRead_reads_frame_iff (behind : Nat → Nat) (resp : Nat → Buffers) {cb : RxCb}
    (hpool : PoolReachable cb.pool) {fuel : Nat} {f g : SlIf} {buf : List UInt8} {alignSize : Nat}
    (hhdr : slDrvRxHdrRead fuel f cb.txSeqNum = some (buf, alignSize, g))
    (hlen : slRespSpecHdrSize ≤ (SlResponseHeader.ofBytes buf).len) :
    FrameRead behind resp cb f g (SlResponseHeader.ofBytes buf) alignSize ↔
      FrameFits behind resp cb g (SlResponseHeader.ofBytes buf).opcode
        ((SlResponseHeader.ofBytes buf).len - slRespSpecHdrSize) := by
  have hlt := SlResponseHeader.ofBytes_len_lt buf
  have h4 : slRespSpecHdrSize = 4 := rfl
  constructor
  · rintro ⟨fuel', msg, cb', he, hst⟩
    rw [slDrvMsgRead_eq (slDrvRxHdrRead_of_slDrvMsgRead he hhdr) hlen, Option.map_eq_some_iff] at he
    obtain ⟨⟨msg', cb'', g'⟩, he, hr⟩ := he
    simp only [Prod.mk.injEq] at hr
    obtain ⟨rfl, rfl, hg⟩ := hr
    refine (bodyRead_flowCont (SlResponseHeader.ofBytes buf) hpool.lists (by omega)).1
      ⟨fuel', msg', cb'', ?_, stored_flowCont.2 hst⟩
    rw [he, ← SlIf.skip_inj (hg.trans (SlIf.skip_skip ..).symm)]
  · intro hfits
    obtain ⟨fuel', msg, cb', he, hst⟩ :=
      (bodyRead_flowCont (SlResponseHeader.ofBytes buf) hpool.lists (by omega)).2 hfits
    have hhdr' := slDrvRxHdrRead_mono (Nat.le_max_left fuel fuel') hhdr
    refine ⟨max fuel fuel', msg, cb', ?_, stored_flowCont.1 hst⟩
    rw [slDrvMsgRead_eq hhdr' hlen, readClass_mono (Nat.le_max_right ..) he, Option.map_some,
      SlIf.skip_skip]

/-- A device that says `bytes` and then zeros. -/
def SlIf.ofBytes (bytes : List UInt8) : SlIf := ⟨fun i => bytes.getD i 0, 0⟩

/-- The control block of a command whose response has `rxDescLen` bytes of arguments. -/
def RxCb.ofCmd (rxDescLen : UInt8) (pCmdExt : Option SlCmdExt) : RxCb :=
  ⟨slDrvDriverCbInit, 0, 0, 0, 0, false, rxDescLen, pCmdExt⟩

theorem poolReachable_init : PoolReachable slDrvDriverCbInit :=
  ⟨[], poolInit, [], rfl, rfl⟩

/-- The response of `sl_DevGet` with a value of six bytes for a buffer of five. -/
theorem slDrvMsgRead_reads_deviceGet :
    FrameRead (fun _ => 0) (fun _ => ⟨0, 0⟩) (RxCb.ofCmd 8 (some ⟨5, 0⟩))
      (SlIf.ofBytes [0xBA, 0xDC, 0xCD, 0xAB, 0x66, 0x04, 18, 0])
      ((SlIf.ofBytes [0xBA, 0xDC, 0xCD, 0xAB, 0x66, 0x04, 18, 0]).skip 12)
      (SlResponseHeader.ofBytes [0x66, 0x04, 18, 0, 0, 0, 0, 0]) 0 :=
  (slDrvMsgRead_reads_frame_iff (fun _ => 0) (fun _ => ⟨0, 0⟩) poolReachable_init
    (show slDrvRxHdrRead 1 (SlIf.ofBytes [0xBA, 0xDC, 0xCD, 0xAB, 0x66, 0x04, 18, 0]) 0 =
      some ([0x66, 0x04, 18, 0, 0, 0, 0, 0], 0, _) from rfl) (by decide)).2
    ⟨rfl, show 14 - 8 < 32768 ∧ PayloadFits 5 (14 - 8) by decide⟩

/-- A value of five bytes for a buffer of four: what is left of it is never read away. -/
theorem deviceGet_never_returns :
    slDrvRxHdrRead 1 (SlIf.ofBytes [0xBA, 0xDC, 0xCD, 0xAB, 0x66, 0x04, 17, 0]) 0 =
        some ([0x66, 0x04, 17, 0, 0, 0, 0, 0], 0,
          (SlIf.ofBytes [0xBA, 0xDC, 0xCD, 0xAB, 0x66, 0x04, 17, 0]).skip 12) ∧
      ∀ behind fuel, slDrvMsgRead behind fuel (RxCb.ofCmd 8 (some ⟨4, 0⟩))
        (SlIf.ofBytes [0xBA, 0xDC, 0xCD, 0xAB, 0x66, 0x04, 17, 0]) = none := by
  refine ⟨rfl, fun behind fuel => ?_⟩
  generalize hf : SlIf.ofBytes [0xBA, 0xDC, 0xCD, 0xAB, 0x66, 0x04, 17, 0] = f
  have hhdr : slDrvRxHdrRead 1 f 0 = some ([0x66, 0x04, 17, 0, 0, 0, 0, 0], 0, f.skip 12) := by
    subst hf
    rfl
  cases hr : slDrvMsgRead behind fuel (RxCb.ofCmd 8 (some ⟨4, 0⟩)) f with
  | none => rfl
  | some r =>
    rw [slDrvMsgRead_eq (slDrvRxHdrRead_of_slDrvMsgRead hr hhdr) (by decide)] at hr
    have hc : slDrvClassifyRxMsg
        (SlResponseHeader.ofBytes [0x66, 0x04, 17, 0, 0, 0, 0, 0]).opcode = .cmdResp := rfl
    have hlen : (SlResponseHeader.ofBytes [0x66, 0x04, 17, 0, 0, 0, 0, 0]).len -
        slRespSpecHdrSize = 13 := rfl
    generalize hcb : RxCb.flowCont _ _ = cb at hr
    have hext : cb.pCmdExt = some ⟨4, 0⟩ := by
      rw [← hcb, RxCb.flowCont_pCmdExt]
      rfl
    have hact : i16 (((13 : Nat) : Int) - cb.rxDescLen.toNat) = (5 : Nat) := by
      rw [← hcb, RxCb.flowCont_rxDescLen]
      decide
    unfold readClass at hr
    rw [hc, hlen] at hr
    simp only at hr
    rw [readCmdResp_payload _ _ hext (by decide) hact (by decide),
      readRxPayload_loops _ (by decide) (by decide) (by decide) (by decide)] at hr
    cases hr

end SimpleLink.Driver
