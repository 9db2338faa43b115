import SimpleLink.Http.Frames
import SimpleLink.Http.Handshake

/-!
# The frames that are sent (`WebSockHandler.c`)

What `WSCore_DataSend` makes of a payload: the frames of the loop, and when they are one message.
-/

namespace SimpleLink.Http.Fragments

open Strings Conn Response Handlers Requests WebSocket Frames

/-! ## Messages -/

/-- A frame of a server, which does not mask. -/
structure SentFrame where
  fin : Bool
  opcode : Fin 16
  payload : Bytes
  fits : payload.length < 2 ^ 16

def SentFrame.header (f : SentFrame) : Bytes :=
  UInt8.ofNat ((if f.fin then 0x80 else 0) + f.opcode.val) ::
    if f.payload.length ≤ 125 then [UInt8.ofNat f.payload.length]
    else 126 :: bigEndian 2 f.payload.length

def SentFrame.encode (f : SentFrame) : Bytes := f.header ++ f.payload

/-- The frames are one message with that payload, and each fits the send buffer. -/
structure IsMessage (opcode : Fin 16) (payload : Bytes) (frames : List SentFrame) : Prop where
  payloads : (frames.map SentFrame.payload).flatten = payload
  opcodes : frames.map SentFrame.opcode = opcode :: List.replicate (frames.length - 1) 0
  fins : frames.map SentFrame.fin = List.replicate (frames.length - 1) false ++ [true]
  buffers : ∀ f ∈ frames, f.encode.length ≤ httpCoreMaxPacketSizeSend

def emit : List Bytes → Session → Result
  | [], s => .ok (s, true)
  | packet :: packets, s =>
    match wsSendPacket { s with packetSend := packet } with
    | .error halt => .error halt
    | .ok (s, false) => .ok (s, false)
    | .ok (s, true) => emit packets s

/-- `WSCore_DataSend` sends these frames, in every state in which the send buffer is empty. -/
def Emits (env : Env) (payLoad : HttpBlob) (opcode : Nat) (frames : List SentFrame) : Prop :=
  ∀ s : Session, s.packetSend = [] →
    wsCoreDataSend env payLoad opcode s = emit (frames.map SentFrame.encode) s

/-! ## A stream of frames can be read in one way only -/

theorem header_inj {f g : SentFrame} {x y : Bytes} (h : f.header ++ x = g.header ++ y) :
    f.fin = g.fin ∧ f.opcode = g.opcode ∧ f.payload.length = g.payload.length ∧ x = y := by
  unfold SentFrame.header at h
  simp only [List.cons_append, List.cons.injEq] at h
  obtain ⟨hfirst, hrest⟩ := h
  have hf := f.opcode.isLt
  have hg := g.opcode.isLt
  obtain ⟨hfin, hopcode⟩ : f.fin = g.fin ∧ f.opcode = g.opcode := by
    have hnat := congrArg UInt8.toNat hfirst
    rw [UInt8.toNat_ofNat', UInt8.toNat_ofNat'] at hnat
    rw [Fin.ext_iff]
    generalize f.fin = fin at hnat ⊢
    generalize g.fin = fin' at hnat ⊢
    cases fin <;> cases fin' <;> simp at hnat ⊢ <;> omega
  refine ⟨hfin, hopcode, ?_⟩
  have hf := f.fits
  have hg := g.fits
  by_cases hfs : f.payload.length ≤ 125 <;> by_cases hgs : g.payload.length ≤ 125
  · rw [if_pos hfs, if_pos hgs, List.cons_append, List.cons_append, List.cons.injEq] at hrest
    have hnat := congrArg UInt8.toNat hrest.1
    rw [UInt8.toNat_ofNat', UInt8.toNat_ofNat'] at hnat
    exact ⟨by omega, hrest.2⟩
  · rw [if_pos hfs, if_neg hgs, List.cons_append, List.cons_append, List.cons.injEq] at hrest
    have hnat := congrArg UInt8.toNat hrest.1
    rw [UInt8.toNat_ofNat'] at hnat
    have h126 : (126 : UInt8).toNat = 126 := rfl
    omega
  · rw [if_neg hfs, if_pos hgs, List.cons_append, List.cons_append, List.cons.injEq] at hrest
    have hnat := congrArg UInt8.toNat hrest.1
    rw [UInt8.toNat_ofNat'] at hnat
    have h126 : (126 : UInt8).toNat = 126 := rfl
    omega
  · rw [if_neg hfs, if_neg hgs, List.cons_append, List.cons_append, List.cons.injEq] at hrest
    obtain ⟨hlength, hxy⟩ := List.append_inj hrest.2 (by rw [length_bigEndian, length_bigEndian])
    exact ⟨bigEndian_inj hf hg hlength, hxy⟩

theorem encode_inj {f g : SentFrame} {x y : Bytes} (h : f.encode ++ x = g.encode ++ y) :
    f = g ∧ x = y := by
  unfold SentFrame.encode at h
  rw [List.append_assoc, List.append_assoc] at h
  obtain ⟨hfin, hopcode, hlength, hrest⟩ := header_inj h
  obtain ⟨hpayload, hrest⟩ := List.append_inj hrest hlength
  refine ⟨?_, hrest⟩
  cases f
  cases g
  cases hfin
  cases hopcode
  cases hpayload
  rfl

theorem encode_ne_nil (f : SentFrame) : f.encode ≠ [] := List.cons_ne_nil _ _

theorem encodes_inj {fs gs : List SentFrame}
    (h : (fs.map SentFrame.encode).flatten = (gs.map SentFrame.encode).flatten) : fs = gs := by
  induction fs generalizing gs with
  | nil =>
    cases gs with
    | nil => rfl
    | cons g gs => exact absurd h.symm (by simp [encode_ne_nil])
  | cons f fs ih =>
    cases gs with
    | nil => exact absurd h (by simp [encode_ne_nil])
    | cons g gs =>
      rw [List.map_cons, List.map_cons, List.flatten_cons, List.flatten_cons] at h
      obtain ⟨rfl, hrest⟩ := encode_inj h
      rw [ih hrest]

/-! ## The frames of the loop -/

theorem fragmentLen_le (total : Nat) : fragmentLen total ≤ 996 := by
  unfold fragmentLen
  split
  · omega
  · exact Nat.min_le_left ..

theorem fragmentLen_le_total (total : Nat) : fragmentLen total ≤ total := by
  unfold fragmentLen
  split
  · exact Nat.le_refl total
  · exact Nat.min_le_right ..

def fragments : Nat → Nat → Fin 16 → Bytes → List SentFrame
  | 0, _, _, _ => []
  | fuel + 1, total, opcode, payLoad =>
    ⟨total < fragmentLength, opcode, payLoad.take (fragmentLen total), by
      have hlen := fragmentLen_le total
      rw [List.length_take]
      omega⟩ ::
      if total - fragmentLen total = 0 then []
      else fragments fuel (total - fragmentLen total) 0 (payLoad.drop (fragmentLen total))

theorem header_fragment {total : Nat} {opcode : Fin 16} {payLoad : Bytes}
    (hlen : fragmentLen total ≤ payLoad.length) (hfits) :
    (SentFrame.mk (total < fragmentLength) opcode (payLoad.take (fragmentLen total)) hfits).header =
      fragmentHeader total opcode := by
  unfold SentFrame.header fragmentHeader
  dsimp only
  rw [List.length_take, Nat.min_eq_left hlen]
  have hfin : (if decide (total < fragmentLength) = true then 0x80 else 0) =
      if total < fragmentLength then 0x80 else 0 := by simp only [decide_eq_true_eq]
  rw [hfin]
  by_cases hshort : total ≤ 125
  · have heq : fragmentLen total = total := if_pos hshort
    rw [heq, if_pos hshort, if_pos hshort]
  · have heq : fragmentLen total = min 996 total := if_neg hshort
    have hlong : ¬ fragmentLen total ≤ 125 := by omega
    rw [if_neg hlong, if_neg hshort]
    rfl

theorem length_fragmentHeader_le (total opcode : Nat) : (fragmentHeader total opcode).length ≤ 4 := by
  unfold fragmentHeader
  rw [List.length_cons]
  by_cases hshort : total ≤ 125
  · rw [if_pos hshort, List.length_singleton]
    omega
  · rw [if_neg hshort]
    exact Nat.le_refl 4

theorem wsSendPacket_true {s t : Session} (h : wsSendPacket s = .ok (t, true)) :
    t.packetSend = [] ∧ t.sent = s.sent ++ s.packetSend := by
  unfold wsSendPacket at h
  have hsends := httpCoreSendPacket_sends s.packetSend s
  split at h
  · cases h
  · rename_i s₁ rc hsend
    cases h
    rw [hsend] at hsends
    unfold Sends at hsends
    split at hsends
    · cases hsends
    · cases hsends
      exact ⟨rfl, rfl⟩
    · obtain ⟨out, -, hout⟩ := hsends
      cases hout

theorem dataSendLoop_emit (env : Env) {fuel total : Nat} {opcode : Fin 16} {payLoad : Bytes}
    (hopcode : opcode.val ≠ wsClose) (hlen : total ≤ payLoad.length) {s : Session}
    (hs : s.packetSend = []) :
    dataSendLoop env fuel total opcode payLoad s =
      emit ((fragments fuel total opcode payLoad).map SentFrame.encode) s := by
  induction fuel generalizing total opcode payLoad s with
  | zero => rfl
  | succ fuel ih =>
    have hle := fragmentLen_le total
    have hle' := fragmentLen_le_total total
    have hlength : (fragmentHeader total opcode ++ payLoad.take (fragmentLen total)).length ≤
        httpCoreMaxPacketSizeSend := by
      have hheader := length_fragmentHeader_le total opcode
      rw [List.length_append, List.length_take]
      unfold httpCoreMaxPacketSizeSend
      omega
    have hadd : [fragmentHeader total opcode, payLoad.take (fragmentLen total)].foldlM addString s =
        .ok { s with
          packetSend := fragmentHeader total opcode ++ payLoad.take (fragmentLen total) } := by
      rw [addStrings_eq (by rw [hs]; exact Nat.zero_le _)]
      unfold addString
      rw [hs, List.length_nil, Nat.zero_add, List.nil_append]
      simp only [List.flatten_cons, List.flatten_nil, List.append_nil]
      exact if_pos hlength
    rw [dataSendLoop, if_neg (by omega), hadd, fragments, List.map_cons, emit, SentFrame.encode,
      header_fragment (by omega)]
    dsimp only
    generalize hsend : wsSendPacket { s with
      packetSend := fragmentHeader total opcode ++ payLoad.take (fragmentLen total) } = r
    rcases r with halt | ⟨s₁, _ | _⟩
    · rfl
    · rfl
    · dsimp only
      rw [if_neg hopcode]
      split
      · rfl
      · have hzero : (0 : Fin 16).val ≠ wsClose := by decide
        exact ih hzero (by rw [List.length_drop]; omega) (wsSendPacket_true hsend).1

/-! ## When they are a message -/

theorem fragmentLen_eq (total : Nat) :
    fragmentLen total = if total ≤ 996 then total else 996 := by
  unfold fragmentLen fragmentLength httpCoreMaxPacketSizeSend
  split
  · rw [if_pos (by omega)]
  · split <;> omega

section Loop

variable {fuel total : Nat} (opcode : Fin 16) (payLoad : Bytes)

theorem fragments_short (fuel : Nat) (hshort : total ≤ 996) :
    ∃ hfits, fragments (fuel + 1) total opcode payLoad = [⟨true, opcode, payLoad.take total, hfits⟩] := by
  have heq : fragmentLen total = total := by rw [fragmentLen_eq, if_pos hshort]
  have hfin : decide (total < fragmentLength) = true := decide_eq_true (by
    unfold fragmentLength httpCoreMaxPacketSizeSend
    omega)
  refine ⟨by rw [List.length_take]; omega, ?_⟩
  simp only [fragments, heq, hfin, Nat.sub_self, if_true]

theorem fragments_long (fuel : Nat) (hlong : 996 < total) :
    ∃ hfits, fragments (fuel + 1) total opcode payLoad =
      ⟨total < fragmentLength, opcode, payLoad.take 996, hfits⟩ ::
        fragments fuel (total - 996) 0 (payLoad.drop 996) := by
  have heq : fragmentLen total = 996 := by rw [fragmentLen_eq, if_neg (by omega)]
  refine ⟨by rw [List.length_take]; omega, ?_⟩
  have hrest : ¬ total - 996 = 0 := by omega
  simp only [fragments, heq, hrest, if_false]

theorem length_fragments_pos (total : Nat) (hfuel : 0 < fuel) :
    0 < (fragments fuel total opcode payLoad).length := by
  obtain ⟨fuel, rfl⟩ : ∃ k, fuel = k + 1 := ⟨fuel - 1, by omega⟩
  exact Nat.succ_pos _

theorem payloads_fragments (hfuel : total < fuel) :
    ((fragments fuel total opcode payLoad).map SentFrame.payload).flatten = payLoad.take total := by
  induction fuel generalizing total opcode payLoad with
  | zero => omega
  | succ fuel ih =>
    by_cases hshort : total ≤ 996
    · obtain ⟨hfits, heq⟩ := fragments_short opcode payLoad fuel hshort
      simp [heq]
    · obtain ⟨hfits, heq⟩ := fragments_long opcode payLoad fuel (Nat.lt_of_not_le hshort)
      rw [heq, List.map_cons, List.flatten_cons, ih _ _ (by omega), ← List.take_add,
        Nat.add_sub_cancel' (by omega)]

theorem opcodes_fragments (hfuel : total < fuel) :
    (fragments fuel total opcode payLoad).map SentFrame.opcode =
      opcode :: List.replicate ((fragments fuel total opcode payLoad).length - 1) 0 := by
  induction fuel generalizing total opcode payLoad with
  | zero => omega
  | succ fuel ih =>
    by_cases hshort : total ≤ 996
    · obtain ⟨hfits, heq⟩ := fragments_short opcode payLoad fuel hshort
      simp [heq]
    · obtain ⟨hfits, heq⟩ := fragments_long opcode payLoad fuel (Nat.lt_of_not_le hshort)
      have hfuel' : total - 996 < fuel := by omega
      have hpos := length_fragments_pos 0 (payLoad.drop 996) (total - 996) (Nat.zero_lt_of_lt hfuel')
      rw [heq, List.map_cons, ih _ _ (by omega), List.length_cons, Nat.add_sub_cancel,
        ← List.replicate_succ, Nat.sub_add_cancel hpos]

/-- A payload of that length is cut so that the loop sees which fragment is the last. -/
def CutRight (total : Nat) : Prop := total ≤ 996 ∨ total % 996 = 0 ∨ 3 < total % 996

theorem fins_fragments (hfuel : total < fuel) :
    (fragments fuel total opcode payLoad).map SentFrame.fin =
        List.replicate ((fragments fuel total opcode payLoad).length - 1) false ++ [true] ↔
      CutRight total := by
  induction fuel generalizing total opcode payLoad with
  | zero => omega
  | succ fuel ih =>
    by_cases hshort : total ≤ 996
    · obtain ⟨hfits, heq⟩ := fragments_short opcode payLoad fuel hshort
      exact iff_of_true (by simp [heq]) (.inl hshort)
    · obtain ⟨hfits, heq⟩ := fragments_long opcode payLoad fuel (Nat.lt_of_not_le hshort)
      have hfuel' : total - 996 < fuel := by omega
      have hpos := length_fragments_pos 0 (payLoad.drop 996) (total - 996) (Nat.zero_lt_of_lt hfuel')
      have hlen : (fragments fuel (total - 996) 0 (payLoad.drop 996)).length =
          (fragments fuel (total - 996) 0 (payLoad.drop 996)).length - 1 + 1 := by omega
      rw [heq, List.map_cons, List.length_cons, Nat.add_sub_cancel]
      rw [hlen, List.replicate_succ, List.cons_append, List.cons.injEq, ih _ _ (by omega)]
      unfold CutRight fragmentLength httpCoreMaxPacketSizeSend
      rw [decide_eq_false_iff_not]
      omega

theorem payload_le {f : SentFrame} (hf : f ∈ fragments fuel total opcode payLoad) :
    f.payload.length ≤ 996 := by
  induction fuel generalizing total opcode payLoad with
  | zero => cases hf
  | succ fuel ih =>
    have hle := fragmentLen_le total
    rw [fragments] at hf
    rcases List.mem_cons.1 hf with rfl | hf
    · dsimp only
      rw [List.length_take]
      omega
    · split at hf
      · cases hf
      · exact ih _ _ hf

end Loop

theorem SentFrame.length_header_le (f : SentFrame) : f.header.length ≤ 4 := by
  unfold SentFrame.header
  rw [List.length_cons]
  by_cases hshort : f.payload.length ≤ 125
  · rw [if_pos hshort, List.length_singleton]
    omega
  · rw [if_neg hshort, List.length_cons, length_bigEndian]

theorem isMessage_fragments {total : Nat} (opcode : Fin 16) {payLoad payload : Bytes} :
    IsMessage opcode payload (fragments (total + 1) total opcode payLoad) ↔
      payload = payLoad.take total ∧ CutRight total := by
  have hfuel : total < total + 1 := Nat.lt_succ_self total
  constructor
  · intro h
    exact ⟨by rw [← h.payloads, payloads_fragments opcode payLoad hfuel],
      (fins_fragments opcode payLoad hfuel).1 h.fins⟩
  · rintro ⟨rfl, hcut⟩
    refine ⟨payloads_fragments opcode payLoad hfuel, opcodes_fragments opcode payLoad hfuel,
      (fins_fragments opcode payLoad hfuel).2 hcut, fun f hf => ?_⟩
    have hpayload := payload_le opcode payLoad hf
    have hheader := f.length_header_le
    rw [SentFrame.encode, List.length_append]
    unfold httpCoreMaxPacketSizeSend
    omega

/-! ## What is sent -/

theorem emit_sent {packets : List Bytes} {s t : Session} (h : emit packets s = .ok (t, true)) :
    t.sent = s.sent ++ packets.flatten := by
  induction packets generalizing s with
  | nil =>
    cases h
    rw [List.flatten_nil, List.append_nil]
  | cons packet packets ih =>
    rw [emit] at h
    split at h
    · cases h
    · cases h
    · rename_i s₁ hsend
      rw [ih h, (wsSendPacket_true hsend).2, List.flatten_cons, List.append_assoc]

/-- Where `send` takes every packet, all are sent. -/
theorem emit_ok {packets : List Bytes}
    (hpackets : ∀ packet ∈ packets, 0 < packet.length ∧ packet.length ≤ httpCoreMaxPacketSizeSend)
    {s : Session} (hsends : s.sends = packets.map fun packet => (packet.length : Int)) :
    ∃ t, emit packets s = .ok (t, true) := by
  induction packets generalizing s with
  | nil => exact ⟨s, rfl⟩
  | cons packet packets ih =>
    obtain ⟨⟨hpos, hle⟩, hrest⟩ := List.forall_mem_cons.1 hpackets
    have hagain : (packet.length : Int) ≠ slEagain := by
      unfold slEagain
      omega
    have hdelivers : delivers s.sends (packetLens packet.length) =
        some (true, packets.map fun packet => (packet.length : Int)) := by
      rw [packetLens_short hpos hle, hsends, List.map_cons, delivers_cons, if_neg hagain, if_pos rfl,
        delivers_nil]
    have hsent := httpCoreSendPacket_sends packet { s with packetSend := packet }
    unfold Sends at hsent
    dsimp only at hsent
    rw [hdelivers] at hsent
    rw [emit, wsSendPacket]
    dsimp only
    rw [hsent]
    exact ih hrest rfl

theorem emit_frames_ok {frames : List SentFrame}
    (hbuffers : ∀ f ∈ frames, f.encode.length ≤ httpCoreMaxPacketSizeSend) :
    ∃ s t : Session, s.packetSend = [] ∧ emit (frames.map SentFrame.encode) s = .ok (t, true) := by
  let s : Session := { Handshake.upgrading 0 with
    sends := (frames.map SentFrame.encode).map fun packet => (packet.length : Int) }
  have hpackets : ∀ packet ∈ frames.map SentFrame.encode,
      0 < packet.length ∧ packet.length ≤ httpCoreMaxPacketSizeSend := by
    simp only [List.mem_map, forall_exists_index, and_imp, forall_apply_eq_imp_iff₂]
    exact fun f hf => ⟨List.length_pos_iff.2 (encode_ne_nil f), hbuffers f hf⟩
  obtain ⟨t, ht⟩ := emit_ok (s := s) hpackets rfl
  exact ⟨s, t, rfl, ht⟩

theorem emits_unique {env : Env} {payLoad : HttpBlob} {opcode : Nat} {fs gs : List SentFrame}
    (hfs : Emits env payLoad opcode fs) (hgs : Emits env payLoad opcode gs)
    (hbuffers : ∀ f ∈ fs, f.encode.length ≤ httpCoreMaxPacketSizeSend) : fs = gs := by
  obtain ⟨s, t, hs, ht⟩ := emit_frames_ok hbuffers
  have hsame : emit (gs.map SentFrame.encode) s = .ok (t, true) := by rw [← hgs s hs, hfs s hs, ht]
  exact encodes_inj (List.append_cancel_left ((emit_sent ht).symm.trans (emit_sent hsame)))

theorem message_iff {env : Env} {payLoad : HttpBlob} {opcode : Fin 16} {total : Nat} {payload : Bytes}
    (hemits : Emits env payLoad opcode.val (fragments (total + 1) total opcode payLoad.mem)) :
    (∃ frames, Emits env payLoad opcode.val frames ∧ IsMessage opcode payload frames) ↔
      payload = payLoad.mem.take total ∧ CutRight total := by
  rw [← isMessage_fragments opcode]
  constructor
  · rintro ⟨frames, hframes, hmessage⟩
    obtain rfl := emits_unique hframes hemits hmessage.buffers
    exact hmessage
  · exact fun hmessage => ⟨_, hemits, hmessage⟩

/-- The length that the loop starts from is the caller's: a text ends where its first zero is. -/
def CountsRight (payLoad : HttpBlob) (opcode : Nat) : Prop :=
  opcode = wsBinary ∨ 0 ∈ payLoad.mem ∧ (cString payLoad.mem).length % 2 ^ 16 = payLoad.uLength

theorem emits_fragments (env : Env) {payLoad : HttpBlob} {opcode : Fin 16} (hdata : opcode.val < 8)
    (hmem : payLoad.uLength ≤ payLoad.mem.length) (hzero : opcode.val = wsBinary ∨ 0 ∈ payLoad.mem) :
    ∃ total, total ≤ payLoad.mem.length ∧
      (total = payLoad.uLength ↔ CountsRight payLoad opcode.val) ∧
      Emits env payLoad opcode.val (fragments (total + 1) total opcode payLoad.mem) := by
  have hclose : opcode.val ≠ wsClose := by
    unfold wsClose
    omega
  by_cases hbinary : opcode.val = wsBinary
  · refine ⟨payLoad.uLength, hmem, iff_of_true rfl (.inl hbinary), fun s hs => ?_⟩
    rw [wsCoreDataSend, if_pos hbinary]
    exact dataSendLoop_emit env hclose hmem hs
  · have hzero : 0 ∈ payLoad.mem := hzero.resolve_left hbinary
    have hlen : (cString payLoad.mem).length ≤ payLoad.mem.length :=
      (List.takeWhile_prefix _).length_le
    have htotal : (cString payLoad.mem).length % 2 ^ 16 ≤ payLoad.mem.length :=
      Nat.le_trans (Nat.mod_le ..) hlen
    refine ⟨(cString payLoad.mem).length % 2 ^ 16, htotal, ?_, fun s hs => ?_⟩
    · unfold CountsRight
      rw [or_iff_right hbinary, and_iff_right hzero]
    · rw [wsCoreDataSend, if_neg hbinary, if_neg (not_not_intro hzero)]
      exact dataSendLoop_emit env hclose htotal hs

/-- The frames that are sent for a payload are one message if and only if the loop starts from the
length of the payload and this length is cut so that the loop sees which fragment is the last. -/
theorem data_send_message (env : Env) (payLoad : HttpBlob) (opcode : Fin 16) (hdata : opcode.val < 8)
    (hmem : payLoad.uLength ≤ payLoad.mem.length) :
    (∃ frames, Emits env payLoad opcode.val frames ∧ IsMessage opcode payLoad.bytes frames) ↔
      CountsRight payLoad opcode.val ∧ CutRight payLoad.uLength := by
  by_cases hzero : opcode.val = wsBinary ∨ 0 ∈ payLoad.mem
  · obtain ⟨total, htotal, hcounts, hemits⟩ := emits_fragments env hdata hmem hzero
    rw [message_iff hemits, ← hcounts]
    constructor
    · rintro ⟨hbytes, hcut⟩
      have hlen := congrArg List.length hbytes
      rw [HttpBlob.bytes, List.length_take_of_le hmem, List.length_take_of_le htotal] at hlen
      exact ⟨hlen.symm, hlen ▸ hcut⟩
    · rintro ⟨rfl, hcut⟩
      exact ⟨rfl, hcut⟩
  · rw [not_or] at hzero
    refine iff_of_false ?_ fun hright => hright.1.elim hzero.1 fun h => hzero.2 h.1
    rintro ⟨frames, hframes, hmessage⟩
    obtain ⟨s, t, hs, ht⟩ := emit_frames_ok hmessage.buffers
    have hhalt := hframes s hs
    rw [ht, wsCoreDataSend, if_neg hzero.1, if_pos hzero.2] at hhalt
    cases hhalt

theorem data_send_two : ∃ frames,
    Emits Handshake.quiet ⟨[97, 98], 2⟩ 2 frames ∧ IsMessage 2 [97, 98] frames :=
  (data_send_message Handshake.quiet ⟨[97, 98], 2⟩ 2 (by decide) (by decide)).2
    ⟨.inl rfl, .inl (by decide)⟩

/-- A payload of 998 bytes is sent as two frames that both say that they are the last. -/
theorem two_last_frames : ¬ ∃ frames, Emits Handshake.quiet ⟨List.replicate 998 0, 998⟩ 2 frames ∧
    IsMessage 2 (List.replicate 998 0) frames := by
  obtain ⟨total, -, hcounts, hemits⟩ := @emits_fragments Handshake.quiet
    ⟨List.replicate 998 0, 998⟩ 2 (by decide) (by rw [List.length_replicate]) (.inl rfl)
  obtain rfl : total = 998 := hcounts.2 (.inl rfl)
  rintro hframes
  have hcut := ((message_iff hemits).1 hframes).2
  unfold CutRight at hcut
  omega

end SimpleLink.Http.Fragments
