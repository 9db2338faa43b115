import SimpleLink.Lib.Prefixed
import SimpleLink.Server.RxParse

/-!
# PUBLISH packets (`mqtt_common.c`, `mqtt_common.h`)

`MqttPacket.procPubRx` is `mqp_proc_pub_rx` on the packet object that `mqp_recv` leaves:
it moves the bytes of the variable header from `pl_len` to `vh_len`, 16 and 32 bits wide.
The macros of `mqtt_common.h` find the topic and the payload again from these fields.

`PubBody` is what a PUBLISH consists of. `PubExact` says that the packet is accepted if
and only if it is one, and that fields and macros then say what is in it. The topic of a
QoS0 PUBLISH is not checked against the bytes received, `vh_len` is too narrow for the
longest topics, and the macros take the identifier 0 for none (`pubExact_iff`).
-/

namespace SimpleLink.Server

open Lib Mqtt

/-! ## The packet object -/

/-- `MQP_VHEADER_BUF`, as an index into the buffer. -/
def vheaderBuf (mqp : MqttPacket) : Nat := mqp.offset + mqp.fhLen

/-- `MQP_PAYLOAD_BUF`. -/
def payloadBuf (mqp : MqttPacket) : Nat := vheaderBuf mqp + mqp.vhLen

def received (mqp : MqttPacket) : List UInt8 := (mqp.buffer.drop (vheaderBuf mqp)).take mqp.plLen

/-- The bytes at index `i` of the buffer, `n` of them. -/
def slice (mqp : MqttPacket) (i n : Nat) : List UInt8 := (mqp.buffer.drop i).take n

/-- What `mqp_recv` leaves of a packet that was reset before it. -/
structure Received (mqp : MqttPacket) : Prop where
  msgId : mqp.msgId = 0
  vhLen : mqp.vhLen = 0
  fits : vheaderBuf mqp + mqp.plLen ≤ mqp.maxlen
  /-- `maxlen` has 32 bits. -/
  maxlen : mqp.maxlen < 2 ^ 32

/-- `buf_rd_nbo_2B` at byte `i` behind the fixed header; there is no outcome outside of what was
received. -/
def rdNbo2B (mqp : MqttPacket) (i : Nat) : Option UInt16 :=
  match (received mqp).drop i with
  | hi :: lo :: _ => some (bufRdNbo2B hi lo)
  | _ => none

/-- `n` bytes of the payload are the variable header, and `msgId` is the identifier in it. -/
def MqttPacket.toVh (mqp : MqttPacket) (msgId : UInt16) (n : Nat) : MqttPacket :=
  { mqp with
    msgId := msgId
    vhLen := (mqp.vhLen + n) % 2 ^ 16
    plLen := (mqp.plLen + 2 ^ 32 - n) % 2 ^ 32 }

section ToVh

variable (mqp : MqttPacket) (msgId : UInt16) (n : Nat)

theorem MqttPacket.toVh_vhLen :
    (MqttPacket.toVh mqp msgId n).vhLen = (mqp.vhLen + n) % 2 ^ 16 := rfl

theorem MqttPacket.toVh_plLen :
    (MqttPacket.toVh mqp msgId n).plLen = (mqp.plLen + 2 ^ 32 - n) % 2 ^ 32 := rfl

theorem MqttPacket.toVh_msgId : (MqttPacket.toVh mqp msgId n).msgId = msgId := rfl

theorem MqttPacket.toVh_vheaderBuf :
    vheaderBuf (MqttPacket.toVh mqp msgId n) = vheaderBuf mqp := rfl

theorem MqttPacket.toVh_slice (i k : Nat) :
    slice (MqttPacket.toVh mqp msgId n) i k = slice mqp i k := rfl

end ToVh

/-- `mqp_proc_pub_rx`. -/
def MqttPacket.procPubRx (mqp : MqttPacket) : Option (Bool × MqttPacket) :=
  if mqp.plLen < 2 then some (false, mqp)
  else
    match rdNbo2B mqp 0 with
    | none => none
    | some tmp =>
      let buf := 2 + tmp.toNat
      if enumQos mqp.fhByte1 = 0 then some (true, MqttPacket.toVh mqp mqp.msgId buf)
      else if mqp.plLen < buf + 2 then some (false, mqp)
      else
        match rdNbo2B mqp buf with
        | none => none
        | some msgId => some (true, MqttPacket.toVh mqp msgId (buf + 2))

/-- `MQP_PUB_TOP_BUF`. -/
def pubTopBuf (mqp : MqttPacket) : Nat := vheaderBuf mqp + 2

/-- `MQP_PUB_TOP_LEN`. -/
def pubTopLen (mqp : MqttPacket) : Int := mqp.vhLen - 2 - (if mqp.msgId ≠ 0 then 2 else 0)

/-- `MQP_PUB_PAY_BUF`. -/
def pubPayBuf (mqp : MqttPacket) : Option Nat :=
  if mqp.plLen ≠ 0 then some (payloadBuf mqp) else none

/-- `MQP_PUB_PAY_LEN`. -/
def pubPayLen (mqp : MqttPacket) : Nat := mqp.plLen

/-! ## What a PUBLISH consists of -/

structure PubBody where
  topic : List UInt8
  msgId : Option UInt16
  payload : List UInt8
  deriving DecidableEq

def PubBody.vh (b : PubBody) : List UInt8 :=
  prefixed b.topic ++ (match b.msgId with | none => [] | some id => be16 id.toNat)

/-- The packet has the topic, the identifier (if it is not QoS0) and the payload, and nothing else. -/
structure PubBody.Of (b : PubBody) (mqp : MqttPacket) : Prop where
  topic : b.topic.length < 2 ^ 16
  msgId : b.msgId.isSome ↔ enumQos mqp.fhByte1 ≠ 0
  bytes : received mqp = b.vh ++ b.payload

/-- The fields and macros say what is in the packet. -/
structure PubBody.Shown (b : PubBody) (mqp : MqttPacket) : Prop where
  msgId : mqp.msgId = b.msgId.getD 0
  topLen : pubTopLen mqp = b.topic.length
  topic : slice mqp (pubTopBuf mqp) b.topic.length = b.topic
  payLen : pubPayLen mqp = b.payload.length
  payBuf : match pubPayBuf mqp with
    | none => b.payload = []
    | some i => slice mqp i (pubPayLen mqp) = b.payload

/-- The packet is accepted if and only if it is a PUBLISH, and is then shown as what it is. -/
def PubExact (mqp : MqttPacket) : Prop :=
  ∃ ok mqp', MqttPacket.procPubRx mqp = some (ok, mqp') ∧ (ok = true ↔ ∃ b : PubBody, b.Of mqp) ∧
    (ok = true → mqp'.vhLen + mqp'.plLen = mqp.plLen ∧ ∀ b : PubBody, b.Of mqp → b.Shown mqp')

/-- Where a length is too short for a topic, it is seen, and no field is too narrow. -/
def PubRegular (mqp : MqttPacket) : Prop :=
  (enumQos mqp.fhByte1 = 0 → 2 ≤ mqp.plLen → ∃ b : PubBody, b.Of mqp) ∧
    ∀ b : PubBody, b.Of mqp → b.msgId ≠ some 0 ∧ b.vh.length < 2 ^ 16

/-! ## Reading -/

theorem toNat_bufRdNbo2B (hi lo : UInt8) : (bufRdNbo2B hi lo).toNat = be16Val hi lo :=
  toNat_shiftLeft_or hi lo

theorem Received.length {mqp : MqttPacket} (h : Received mqp) :
    (received mqp).length = mqp.plLen := by
  have hfits := h.fits
  unfold MqttPacket.maxlen at hfits
  unfold received
  rw [List.length_take, List.length_drop]
  omega

theorem Received.rdNbo2B {mqp : MqttPacket} (h : Received mqp) {i : Nat} (hi : i + 2 ≤ mqp.plLen) :
    ∃ hi lo rest, (received mqp).drop i = hi :: lo :: rest ∧
      rdNbo2B mqp i = some (bufRdNbo2B hi lo) := by
  have hlen : 2 ≤ ((received mqp).drop i).length := by
    rw [List.length_drop, h.length]
    omega
  unfold Server.rdNbo2B
  match hd : (received mqp).drop i with
  | [] => rw [hd] at hlen; cases hlen
  | [_] => rw [hd, List.length_singleton] at hlen; omega
  | hi :: lo :: rest => exact ⟨hi, lo, rest, rfl, rfl⟩

theorem PubBody.length_vh (b : PubBody) :
    b.vh.length = 2 + b.topic.length + if b.msgId.isSome then 2 else 0 := by
  unfold PubBody.vh
  cases b.msgId <;> simp [Nat.add_comm]

theorem received_topic {mqp : MqttPacket} {hi lo : UInt8} {rest : List UInt8}
    (h : received mqp = hi :: lo :: rest) (hlen : be16Val hi lo ≤ rest.length) :
    ∃ topic t, topic.length = be16Val hi lo ∧ received mqp = prefixed topic ++ t ∧
      t = (received mqp).drop (2 + be16Val hi lo) := by
  rcases prefixed_or_short hi lo rest with hlt | ⟨topic, t, heq, htopic, -, ht⟩
  · omega
  · refine ⟨topic, t, htopic, h.trans heq, ?_⟩
    rw [h, ht, Nat.add_comm]
    rfl

/-! ## The parser -/

theorem procPubRx_of {mqp : MqttPacket} (h : Received mqp) {b : PubBody} (hb : b.Of mqp) :
    MqttPacket.procPubRx mqp =
      some (true, MqttPacket.toVh mqp (b.msgId.getD 0) b.vh.length) := by
  have hlen := h.length
  have hbytes := hb.bytes
  have hsum : b.vh.length + b.payload.length = mqp.plLen := by
    rw [← hlen, hbytes, List.length_append]
  have hvh := b.length_vh
  have h2 : ¬ mqp.plLen < 2 := by omega
  have htmp : rdNbo2B mqp 0 = some (bufRdNbo2B (UInt8.ofNat (b.topic.length / 256))
      (UInt8.ofNat b.topic.length)) := by
    unfold rdNbo2B
    rw [hbytes]
    rfl
  have hval : (bufRdNbo2B (UInt8.ofNat (b.topic.length / 256)) (UInt8.ofNat b.topic.length)).toNat =
      b.topic.length := by
    rw [toNat_bufRdNbo2B]
    exact be16Val_be16 hb.topic
  unfold MqttPacket.procPubRx
  rw [if_neg h2, htmp]
  simp only [hval]
  cases hid : b.msgId with
  | none =>
    have hqos : enumQos mqp.fhByte1 = 0 := by
      by_contra hne
      have := hb.msgId.2 hne
      rw [hid] at this
      cases this
    rw [hid] at hvh
    rw [if_pos hqos, hvh, h.msgId, Option.getD_none]
    rfl
  | some id =>
    have hqos : enumQos mqp.fhByte1 ≠ 0 := hb.msgId.1 (by rw [hid]; rfl)
    rw [hid] at hvh
    have hvh' : b.vh.length = 2 + b.topic.length + 2 := hvh
    have hroom : ¬ mqp.plLen < 2 + b.topic.length + 2 := by omega
    have hread : rdNbo2B mqp (2 + b.topic.length) = some id := by
      unfold rdNbo2B
      have hdrop : (received mqp).drop (2 + b.topic.length) = be16 id.toNat ++ b.payload := by
        rw [hbytes, PubBody.vh, hid, List.append_assoc]
        exact List.drop_left' (by rw [length_prefixed, Nat.add_comm])
      rw [hdrop]
      show some (bufRdNbo2B _ _) = some id
      congr 1
      apply UInt16.toNat_inj.1
      rw [toNat_bufRdNbo2B]
      exact be16Val_be16 id.toNat_lt
    rw [if_neg hqos, if_neg hroom, hread, hvh', Option.getD_some]

/-- A packet that is not accepted is no PUBLISH; one that is accepted is one, or a QoS0 packet
whose topic does not end in it. -/
theorem procPubRx_cases {mqp : MqttPacket} (h : Received mqp) (hno : ¬ ∃ b : PubBody, b.Of mqp) :
    MqttPacket.procPubRx mqp = some (false, mqp) ∧ (enumQos mqp.fhByte1 = 0 → mqp.plLen < 2) ∨
      enumQos mqp.fhByte1 = 0 ∧ 2 ≤ mqp.plLen ∧
        ∃ mqp', MqttPacket.procPubRx mqp = some (true, mqp') := by
  unfold MqttPacket.procPubRx
  by_cases h2 : mqp.plLen < 2
  · rw [if_pos h2]
    exact .inl ⟨rfl, fun _ => h2⟩
  · rw [if_neg h2]
    obtain ⟨hi, lo, rest, hd, htmp⟩ := h.rdNbo2B (i := 0) (by omega)
    rw [List.drop_zero] at hd
    rw [htmp]
    simp only [toNat_bufRdNbo2B]
    by_cases hqos : enumQos mqp.fhByte1 = 0
    · rw [if_pos hqos]
      exact .inr ⟨hqos, by omega, _, rfl⟩
    · rw [if_neg hqos]
      left
      have hlen : rest.length + 2 = mqp.plLen := by
        rw [← h.length, hd]
        rfl
      have hshort : mqp.plLen < 2 + be16Val hi lo + 2 := by
        by_contra hge
        obtain ⟨topic, t, htopic, hrec, ht⟩ := received_topic hd (by omega)
        obtain ⟨hi', lo', rest', hd', -⟩ := h.rdNbo2B (i := 2 + be16Val hi lo) (by omega)
        refine hno ⟨⟨topic, some (bufRdNbo2B hi' lo'), rest'⟩, ?_, ?_, ?_⟩
        · exact htopic ▸ be16Val_lt hi lo
        · exact iff_of_true rfl hqos
        · rw [hrec, ht, hd', PubBody.vh, List.append_assoc]
          show _ = prefixed topic ++ (be16 (bufRdNbo2B hi' lo').toNat ++ rest')
          rw [toNat_bufRdNbo2B, be16_val]
          rfl
      rw [if_pos hshort]
      exact ⟨rfl, fun hq => absurd hq hqos⟩

/-! ## The fields after it -/

theorem plLen_sub {n vh pl : Nat} (hsum : vh + pl = n) (hn : n < 2 ^ 32) :
    (n + 2 ^ 32 - vh) % 2 ^ 32 = pl := by
  omega

theorem PubBody.Of.length {mqp : MqttPacket} (h : Received mqp) {b : PubBody} (hb : b.Of mqp) :
    b.vh.length + b.payload.length = mqp.plLen := by
  rw [← h.length, hb.bytes, List.length_append]

theorem PubBody.Of.plLen {mqp : MqttPacket} (h : Received mqp) {b : PubBody} (hb : b.Of mqp)
    (msgId : UInt16) :
    (MqttPacket.toVh mqp msgId b.vh.length).plLen = b.payload.length := by
  have hfits := h.fits
  have hmax := h.maxlen
  rw [MqttPacket.toVh_plLen]
  exact plLen_sub (hb.length h) (by omega)

theorem PubBody.Of.vhLen {mqp : MqttPacket} (h : Received mqp) {b : PubBody}
    (hvh : b.vh.length < 2 ^ 16) (msgId : UInt16) :
    (MqttPacket.toVh mqp msgId b.vh.length).vhLen = b.vh.length := by
  rw [MqttPacket.toVh_vhLen, h.vhLen, Nat.zero_add]
  exact Nat.mod_eq_of_lt hvh

theorem slice_received {mqp : MqttPacket} {k n : Nat} (hk : k + n ≤ mqp.plLen) :
    slice mqp (vheaderBuf mqp + k) n = ((received mqp).drop k).take n := by
  unfold slice received
  rw [List.drop_take, List.take_take, List.drop_drop]
  congr 1
  omega

theorem PubBody.Of.slice_topic {mqp : MqttPacket} (h : Received mqp) {b : PubBody} (hb : b.Of mqp) :
    slice mqp (vheaderBuf mqp + 2) b.topic.length = b.topic := by
  have hlen := hb.length h
  have hvh := b.length_vh
  rw [slice_received (by omega), hb.bytes, PubBody.vh, prefixed, List.append_assoc,
    List.append_assoc, List.drop_left' (length_be16 _)]
  exact List.take_left

theorem PubBody.Of.slice_payload {mqp : MqttPacket} (h : Received mqp) {b : PubBody}
    (hb : b.Of mqp) :
    slice mqp (vheaderBuf mqp + b.vh.length) b.payload.length = b.payload := by
  have hlen := hb.length h
  rw [slice_received (by omega), hb.bytes, List.drop_left]
  exact List.take_of_length_le (Nat.le_refl _)

theorem PubBody.Of.shown {mqp : MqttPacket} (h : Received mqp) {b : PubBody} (hb : b.Of mqp)
    (hid : b.msgId ≠ some 0) (hvh : b.vh.length < 2 ^ 16) :
    b.Shown (MqttPacket.toVh mqp (b.msgId.getD 0) b.vh.length) := by
  have hv := PubBody.Of.vhLen h hvh (b.msgId.getD 0)
  have hp := hb.plLen h (b.msgId.getD 0)
  have hpay : pubPayLen (MqttPacket.toVh mqp (b.msgId.getD 0) b.vh.length) = b.payload.length := by
    rw [pubPayLen, hp]
  refine ⟨?_, ?_, ?_, hpay, ?_⟩
  · rw [MqttPacket.toVh_msgId]
  · rw [pubTopLen, hv, b.length_vh, MqttPacket.toVh_msgId]
    cases hm : b.msgId with
    | none => simp
    | some id =>
      have hne : id ≠ 0 := fun he => hid (he ▸ hm)
      simp only [Option.getD_some, ne_eq, hne, not_false_eq_true, if_true, Option.isSome_some]
      omega
  · rw [pubTopBuf, MqttPacket.toVh_vheaderBuf, MqttPacket.toVh_slice]
    exact hb.slice_topic h
  · rw [pubPayBuf, hp]
    by_cases h0 : b.payload.length = 0
    · rw [if_neg (not_not_intro h0)]
      exact List.eq_nil_of_length_eq_zero h0
    · rw [if_pos h0]
      dsimp only
      rw [payloadBuf, hpay, hv, MqttPacket.toVh_vheaderBuf, MqttPacket.toVh_slice]
      exact hb.slice_payload h

/-- `mqp_proc_pub_rx` is exact where every topic that is read ends in the packet, no identifier
is 0, and the variable header is shorter than `vh_len` can say; and nowhere else. -/
theorem pubExact_iff (mqp : MqttPacket) (h : Received mqp) : PubExact mqp ↔ PubRegular mqp := by
  constructor
  · rintro ⟨ok, mqp', hrun, hacc, hok⟩
    refine ⟨fun hqos h2 => ?_, fun b hb => ?_⟩
    · by_contra hno
      rcases procPubRx_cases h hno with ⟨-, hlt⟩ | ⟨-, -, mqp'', hrun'⟩
      · exact absurd (hlt hqos) (by omega)
      · rw [hrun] at hrun'
        cases hrun'
        exact hno (hacc.1 rfl)
    · rw [procPubRx_of h hb] at hrun
      cases hrun
      obtain ⟨hsum, hshown⟩ := hok rfl
      have hs := hshown b hb
      have hfits := h.fits
      have hmax := h.maxlen
      have htotal := hb.length h
      have hvh : b.vh.length < 2 ^ 16 := by
        have hv : (MqttPacket.toVh mqp (b.msgId.getD 0) b.vh.length).vhLen < 2 ^ 16 :=
          Nat.mod_lt _ (by decide)
        have hp := hs.payLen
        rw [pubPayLen] at hp
        omega
      refine ⟨fun hid => ?_, hvh⟩
      -- the macro takes the two bytes of the identifier for bytes of the topic
      have htop := hs.topLen
      have hl := b.length_vh
      unfold pubTopLen at htop
      rw [MqttPacket.toVh_vhLen, MqttPacket.toVh_msgId] at htop
      simp only [h.vhLen, Nat.zero_add, hid, Option.getD_some, ne_eq,
        not_true_eq_false, if_false, hl, Option.isSome_some, if_true] at htop
      omega
  · rintro ⟨hqos, hreg⟩
    by_cases hb : ∃ b : PubBody, b.Of mqp
    · obtain ⟨b, hb⟩ := hb
      obtain ⟨hid, hvh⟩ := hreg b hb
      have hv := PubBody.Of.vhLen h hvh (b.msgId.getD 0)
      refine ⟨true, _, procPubRx_of h hb, iff_of_true rfl ⟨b, hb⟩, fun _ => ⟨?_, fun b' hb' => ?_⟩⟩
      · rw [hv, hb.plLen h, hb.length h]
      · have hsame := (procPubRx_of h hb').symm.trans (procPubRx_of h hb)
        obtain ⟨-, heq⟩ := Prod.mk.inj (Option.some.inj hsame)
        obtain ⟨hid', hvh'⟩ := hreg b' hb'
        rw [← heq]
        exact hb'.shown h hid' hvh'
    · rcases procPubRx_cases h hb with ⟨hrun, -⟩ | ⟨hq, h2, -⟩
      · exact ⟨false, mqp, hrun, iff_of_false Bool.false_ne_true hb, fun hf => by cases hf⟩
      · exact absurd (hqos hq h2) hb

def topicBehindEnd : MqttPacket where
  msgType := 0x03
  fhByte1 := 0x30
  msgId := 0
  offset := 0
  fhLen := 2
  vhLen := 0
  plLen := 2
  buffer := [0x30, 0x02, 0x00, 0x05]

theorem topicBehindEnd_received : Received topicBehindEnd :=
  ⟨rfl, rfl, by decide, by decide⟩

theorem topicBehindEnd_accepted :
    MqttPacket.procPubRx topicBehindEnd =
      some (true, { topicBehindEnd with vhLen := 7, plLen := 2 ^ 32 - 5 }) := by
  decide +kernel

theorem pub_not_exact : ¬ ∀ mqp, Received mqp → PubExact mqp := by
  intro hall
  obtain ⟨ok, mqp', hrun, -, hok⟩ := hall topicBehindEnd topicBehindEnd_received
  rw [topicBehindEnd_accepted] at hrun
  cases hrun
  exact absurd (hok rfl).1 (by decide +kernel)

/-- A PUBLISH of `b` to `a` with the identifier 5. -/
def pubToA : MqttPacket where
  msgType := 0x03
  fhByte1 := 0x32
  msgId := 0
  offset := 0
  fhLen := 2
  vhLen := 0
  plLen := 6
  buffer := [0x32, 0x06, 0x00, 0x01, 0x61, 0x00, 0x05, 0x62]

theorem pubToA_accepted : MqttPacket.procPubRx pubToA =
    some (true, { pubToA with msgId := 5, vhLen := 5, plLen := 1 }) := by
  decide +kernel

theorem pubExact_iff_behind_end :
    PubExact pubToA ∧ (PubExact topicBehindEnd ↔ PubRegular topicBehindEnd) := by
  have hreceived : Received pubToA := ⟨rfl, rfl, by decide, by decide⟩
  refine ⟨(pubExact_iff pubToA hreceived).2 ⟨fun hq => absurd hq (by decide), fun b hb => ?_⟩,
    pubExact_iff topicBehindEnd topicBehindEnd_received⟩
  have hsame := (procPubRx_of hreceived hb).symm.trans pubToA_accepted
  have hid : b.msgId.getD 0 = 5 := congrArg (fun r => r.2.msgId) (Option.some.inj hsame)
  have hlen := congrArg List.length hb.bytes
  rw [hreceived.length, List.length_append] at hlen
  refine ⟨fun hzero => ?_, ?_⟩
  · rw [hzero] at hid
    cases hid
  · change 6 = _ at hlen
    omega

end SimpleLink.Server
