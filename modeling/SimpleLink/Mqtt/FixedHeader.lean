import SimpleLink.Mqtt.Builders

/-!
# The fixed header (`mqtt_common.c`)

`mqp_prep_fh` puts the fixed header in front of what the builders have written: the
remaining length at the tail of the room that was left for it, and the first byte before
that. `FhPlaced` says that what is handed to the network then starts with a fixed header
that announces the bytes behind it. The four bytes of `val` hold a remaining length below
2 ^ 28; nothing stops the builders from going beyond it (`fixedHeader_iff`).
-/

namespace SimpleLink.Mqtt

open Lib

/-- `MAKE_FH_BYTE1`. -/
def makeFhByte1 (msgType flags : UInt8) : UInt8 := msgType <<< 4 ||| flags

/-- `mqp_prep_fh`: what it returns, and the packet. -/
def mqpPrepFh (mqp : MqttPacket) (flags : UInt8) : Option (Nat × MqttPacket) :=
  match bufTailWrRemlen ((mqp.vhLen + mqp.plLen) % 2 ^ 32) with
  | none => none
  | some val =>
    if mqp.offset < val.length + 1 then none
    else
      let b := makeFhByte1 mqp.msgType flags
      match storeBytes mqp.buffer (mqp.offset - val.length) val with
      | none => none
      | some buffer =>
        (storeBytes buffer (mqp.offset - (val.length + 1)) [b]).map fun buffer =>
          (val.length + 1,
            { mqp with
              fhByte1 := b
              offset := mqp.offset - (val.length + 1)
              fhLen := val.length + 1
              buffer := buffer })

def MqttPacket.held (mqp : MqttPacket) : List UInt8 :=
  (mqp.buffer.drop mqp.vhAt).take (mqp.vhLen + mqp.plLen)

/-- What is handed to the network: `MQP_CONTENT_LEN` bytes from `MQP_FHEADER_BUF` on. -/
def MqttPacket.handed (mqp : MqttPacket) : List UInt8 :=
  (mqp.buffer.drop mqp.offset).take (mqp.fhLen + mqp.vhLen + mqp.plLen)

/-- The header is placed directly in front of what was written, and says how much that is. -/
def FhPlaced (mqp : MqttPacket) (flags : UInt8) : Prop :=
  ∃ mqp' val, mqpPrepFh mqp flags = some (val.length + 1, mqp') ∧
    mqp'.handed = makeFhByte1 mqp.msgType flags :: (val ++ mqp.held) ∧
    bufRdRemlen (val ++ mqp.held) = some ((val.length : Int), mqp.held.length) ∧
    mqp.held.length = mqp.vhLen + mqp.plLen

/-- A packet that a builder has worked on: there is room for the longest header in front, and what was
written is in the buffer. -/
structure Built (mqp : MqttPacket) : Prop where
  fhLen : mqp.fhLen = 0
  room : maxFhLen ≤ mqp.offset
  inside : mqp.endAt ≤ mqp.maxlen
  maxlen : mqp.maxlen < 2 ^ 32

/-! ## The remaining length -/

theorem remlenBytesFrom_min {left n : Nat} {bs : List UInt8}
    (h : remlenBytesFrom n left = some bs) : bs.length = 1 ∨ 128 ^ (bs.length - 1) ≤ n := by
  induction left generalizing n bs with
  | zero => cases h
  | succ left ih =>
    simp only [remlenBytesFrom] at h
    split at h
    · cases h
      exact .inl rfl
    · next hne =>
      obtain ⟨bs', hbs, rfl⟩ := Option.map_eq_some_iff.1 h
      rw [Nat.shiftRight_eq_div_pow] at hbs hne
      right
      rw [List.length_cons, Nat.add_sub_cancel]
      rcases ih hbs with h1 | hle
      · rw [h1]
        omega
      · have hpos : bs'.length ≠ 0 := by
          rintro h0
          rw [h0] at hle
          simp only [List.length_eq_zero_iff] at h0
          subst h0
          cases left with
          | zero => cases hbs
          | succ left =>
            simp only [remlenBytesFrom] at hbs
            split at hbs
            · cases hbs
            · obtain ⟨_, -, heq⟩ := Option.map_eq_some_iff.1 hbs
              cases heq
        obtain ⟨k, hk⟩ := Nat.exists_eq_succ_of_ne_zero hpos
        rw [hk, Nat.succ_sub_one] at hle
        rw [hk, Nat.pow_succ]
        omega

theorem remlenBytesFrom_none {left n : Nat} (h : 128 ^ left ≤ n) :
    remlenBytesFrom n left = none := by
  induction left generalizing n with
  | zero => rfl
  | succ left ih =>
    rw [Nat.pow_succ] at h
    have hpos := Nat.pow_pos (n := left) (by decide : 0 < 128)
    have hdiv : 128 ^ left ≤ n / 2 ^ 7 := by omega
    simp only [remlenBytesFrom]
    rw [Nat.shiftRight_eq_div_pow, if_neg (by omega), ih hdiv]
    rfl

theorem bufRdRemlenFrom_field {xs buf post : List UInt8} {i left : Nat}
    (hn : fieldLen xs = some xs.length) (hlen : xs.length ≤ left + 1)
    (hb : buf.drop i = xs ++ post) (val mul : Nat) :
    bufRdRemlenFrom buf i val mul left =
      some (((i + xs.length : Nat) : Int), val + fieldVal xs * 2 ^ mul) := by
  induction xs generalizing i val mul left with
  | nil => cases hn
  | cons x xs ih =>
    have hi := getElem?_of_drop hb
    have hd : buf.drop (i + 1) = xs ++ post := by
      rw [← List.tail_drop, hb]
      rfl
    rw [bufRdRemlenFrom, hi]
    dsimp only
    simp only [fieldLen, List.length_cons] at hn hlen
    cases hx : contd x with
    | false =>
      rw [hx, if_neg Bool.false_ne_true] at hn
      obtain rfl : xs = [] := List.eq_nil_of_length_eq_zero (by
        have := Option.some.inj hn
        omega)
      rw [if_neg Bool.false_ne_true, Nat.shiftLeft_eq]
      rfl
    | true =>
      rw [hx, if_pos rfl] at hn
      obtain ⟨m, hm, hmx⟩ := Option.map_eq_some_iff.1 hn
      obtain rfl : m = xs.length := by omega
      have hpos := (fieldLen_bounds hm).1
      obtain ⟨k, rfl⟩ : ∃ k, left = k + 1 := ⟨left - 1, by omega⟩
      rw [if_pos rfl]
      dsimp only
      rw [ih hm (by omega) hd]
      congr 2
      · simp only [List.length_cons]
        omega
      · simp only [fieldVal, Nat.shiftLeft_eq, Nat.pow_add]
        ring

/-- What `buf_tail_wr_remlen` writes for a number below 2 ^ 28. -/
theorem bufTailWrRemlen_spec {n : Nat} (h : n < 2 ^ 28) :
    ∃ val, bufTailWrRemlen n = some val ∧ fieldLen val = some val.length ∧ val.length ≤ 4 ∧
      fieldVal val = n ∧ ∀ post, bufRdRemlen (val ++ post) = some ((val.length : Int), n) := by
  have h128 : n < 128 ^ maxRemlenBytes := h
  obtain ⟨val, hval, hf, hlen, hv⟩ := remlenBytesFrom_spec h128 (by decide)
  refine ⟨val, hval, hf, hlen, hv, fun post => ?_⟩
  have hrd := @bufRdRemlenFrom_field val (val ++ post) post 0 3 hf hlen List.drop_zero 0 0
  rw [bufRdRemlen, show maxRemlenBytes - 1 = 3 from rfl, hrd, hv, Nat.zero_add, Nat.zero_add,
    Nat.pow_zero, Nat.mul_one]

theorem bufTailWrRemlen_min {n : Nat} {val f : List UInt8} (h : bufTailWrRemlen n = some val)
    (hf : fieldLen f = some f.length) (hv : fieldVal f = n) : val.length ≤ f.length := by
  have hpos := (fieldLen_bounds hf).1
  have hlt := fieldVal_lt f
  rcases remlenBytesFrom_min h with h1 | hle
  · omega
  · by_contra hshort
    have hmono : 128 ^ f.length ≤ 128 ^ (val.length - 1) :=
      Nat.pow_le_pow_right (by decide) (by omega)
    omega

/-! ## The header -/

theorem storeBytes_header {pre post val : List UInt8} {room : List UInt8} (b : UInt8)
    (h : room.length = val.length + 1) :
    ∃ buffer, storeBytes (pre ++ (room ++ post)) (pre.length + 1) val = some buffer ∧
      storeBytes buffer pre.length [b] = some (pre ++ (b :: (val ++ post))) := by
  match room with
  | [] => cases h
  | x :: room =>
    have hlen : room.length = val.length := Nat.succ.inj h
    have hval := storeBytes_append (pre ++ [x]) (room ++ post) val
    have hb := storeBytes_append pre (x :: (val ++ post)) [b]
    rw [List.length_append, List.length_singleton, List.length_append, if_pos (by omega), ← hlen,
      List.drop_left] at hval
    rw [if_pos (by rw [List.length_cons]; exact Nat.succ_le_succ (Nat.zero_le _))] at hb
    refine ⟨pre ++ [x] ++ val ++ post, ?_, ?_⟩
    · rw [← hval]
      simp only [List.append_assoc, List.cons_append, List.nil_append]
    · simp only [List.append_assoc, List.cons_append, List.nil_append] at hb ⊢
      exact hb

theorem Built.length_held {mqp : MqttPacket} (h : Built mqp) :
    mqp.held.length = mqp.vhLen + mqp.plLen := by
  have hin := h.inside
  unfold MqttPacket.endAt MqttPacket.plAt MqttPacket.maxlen at hin
  unfold MqttPacket.held
  rw [List.length_take, List.length_drop]
  omega

theorem Built.fhPlaced {mqp : MqttPacket} (h : Built mqp) (flags : UInt8)
    (hlt : mqp.vhLen + mqp.plLen < 2 ^ 28) : FhPlaced mqp flags := by
  obtain ⟨val, hval, hf, h4, -, hrd⟩ := bufTailWrRemlen_spec hlt
  have hroom : val.length + 1 ≤ mqp.offset :=
    Nat.le_trans (Nat.succ_le_succ h4) h.room
  have hin : mqp.offset ≤ mqp.buffer.length := by
    have hend := h.inside
    unfold MqttPacket.endAt MqttPacket.plAt MqttPacket.vhAt MqttPacket.maxlen at hend
    omega
  have hmod : (mqp.vhLen + mqp.plLen) % 2 ^ 32 = mqp.vhLen + mqp.plLen := Nat.mod_eq_of_lt (by omega)
  -- the buffer, cut where the header begins and where it ends
  generalize hpre : mqp.buffer.take (mqp.offset - (val.length + 1)) = pre
  generalize hroomBytes : (mqp.buffer.drop (mqp.offset - (val.length + 1))).take (val.length + 1) = room
  have hprelen : pre.length = mqp.offset - (val.length + 1) := by
    rw [← hpre]
    exact List.length_take_of_le (by omega)
  have hroomlen : room.length = val.length + 1 := by
    rw [← hroomBytes, List.length_take, List.length_drop]
    omega
  have hcut : mqp.buffer = pre ++ (room ++ mqp.buffer.drop mqp.offset) := by
    have hdrop : mqp.buffer.drop mqp.offset =
        (mqp.buffer.drop (mqp.offset - (val.length + 1))).drop (val.length + 1) := by
      rw [List.drop_drop, Nat.sub_add_cancel hroom]
    rw [hdrop, ← hroomBytes, List.take_append_drop, ← hpre, List.take_append_drop]
  obtain ⟨buffer, hst1, hst2⟩ := @storeBytes_header pre (mqp.buffer.drop mqp.offset) val room
    (makeFhByte1 mqp.msgType flags) hroomlen
  rw [← hcut, hprelen, show mqp.offset - (val.length + 1) + 1 = mqp.offset - val.length by omega]
    at hst1
  rw [hprelen] at hst2
  have hheld : mqp.held = (mqp.buffer.drop mqp.offset).take (mqp.vhLen + mqp.plLen) := by
    unfold MqttPacket.held MqttPacket.vhAt
    rw [h.fhLen, Nat.add_zero]
  refine ⟨{ mqp with
    fhByte1 := makeFhByte1 mqp.msgType flags
    offset := mqp.offset - (val.length + 1)
    fhLen := val.length + 1
    buffer := pre ++ (makeFhByte1 mqp.msgType flags :: (val ++ mqp.buffer.drop mqp.offset)) },
    val, ?_, ?_, ?_, h.length_held⟩
  · unfold mqpPrepFh
    rw [hmod, hval]
    dsimp only
    rw [if_neg (by omega), hst1]
    dsimp only
    rw [hst2]
    rfl
  · unfold MqttPacket.handed
    dsimp only
    rw [← hprelen, List.drop_left, hheld]
    have hcount : val.length + 1 + mqp.vhLen + mqp.plLen =
        (val.length + (mqp.vhLen + mqp.plLen)) + 1 := by omega
    rw [hcount, List.take_succ_cons, List.take_length_add_append]
  · rw [hrd, h.length_held]

/-- Beyond that, `mqp_prep_fh` has no outcome. -/
theorem Built.lt_of_prepFh {mqp mqp' : MqttPacket} (h : Built mqp) {flags : UInt8} {n : Nat}
    (hrun : mqpPrepFh mqp flags = some (n, mqp')) : mqp.vhLen + mqp.plLen < 2 ^ 28 := by
  by_contra hge
  have hin := h.inside
  have hmax := h.maxlen
  have hend : mqp.vhLen + mqp.plLen ≤ mqp.endAt := by
    unfold MqttPacket.endAt MqttPacket.plAt
    omega
  have hnone : bufTailWrRemlen (mqp.vhLen + mqp.plLen) = none :=
    remlenBytesFrom_none (Nat.not_lt.1 hge)
  unfold mqpPrepFh at hrun
  rw [Nat.mod_eq_of_lt (by omega), hnone] at hrun
  cases hrun

theorem Built.fhPlaced_iff {mqp : MqttPacket} (h : Built mqp) (flags : UInt8) :
    FhPlaced mqp flags ↔ mqp.vhLen + mqp.plLen < 2 ^ 28 :=
  ⟨fun ⟨_, _, hrun, _⟩ => h.lt_of_prepFh hrun, h.fhPlaced flags⟩

/-- `body` is sent behind a fixed header that begins with `b` and announces it. -/
def Framed (b : UInt8) (sent body : List UInt8) : Prop :=
  ∃ val, sent = b :: (val ++ body) ∧
    bufRdRemlen (val ++ body) = some ((val.length : Int), body.length)

theorem Built.framed {mqp mqp' : MqttPacket} (h : Built mqp) {flags : UInt8} {n : Nat}
    (hrun : mqpPrepFh mqp flags = some (n, mqp')) :
    Framed (makeFhByte1 mqp.msgType flags) mqp'.handed mqp.held := by
  obtain ⟨mqp'', val, hrun', hhanded, hread, -⟩ := h.fhPlaced flags (h.lt_of_prepFh hrun)
  rw [hrun] at hrun'
  cases hrun'
  exact ⟨val, hhanded, hread⟩

/-! ## The packets of the builders -/

/-- What the builders keep: data is behind a topic only. -/
structure Builds (mqp : MqttPacket) : Prop extends Built mqp where
  first : mqp.vhLen = 0 → mqp.plLen = 0

/-- A packet as `mqp_client_send_alloc` gives it. -/
theorem builds_attach {buffer : List UInt8} (h : buffer.length < 2 ^ 32)
    (hroom : maxFhLen ≤ buffer.length) : Builds (mqpBufferAttach buffer maxFhLen) :=
  ⟨⟨rfl, Nat.le_refl _, hroom, h⟩, fun _ => rfl⟩

theorem storeBytes_some {buf bs buf' : List UInt8} {i : Nat} (h : storeBytes buf i bs = some buf')
    (hi : i ≤ buf.length) : i + bs.length ≤ buf.length ∧ buf'.length = buf.length := by
  by_cases hfit : i + bs.length ≤ buf.length
  · rw [storeBytes_fits hfit] at h
    cases h
    exact ⟨hfit, length_overwrite hfit⟩
  · rw [storeBytes_out (Nat.not_le.1 hfit) (by rintro rfl; exact hfit hi)] at h
    cases h

/-- Whatever the builders are asked for, the packet is one that `mqp_prep_fh` is made for. -/
theorem Builds.step {mqp mqp' : MqttPacket} {a : Append} {rv : Int} (h : Builds mqp)
    (hrun : appendStep mqp a = some (mqp', rv)) : Builds mqp' := by
  have hend : mqp.endAt = mqp.vhAt + mqp.vhLen + mqp.plLen := rfl
  cases a with
  | topic t msgId =>
    rw [appendStep_topic] at hrun
    split at hrun
    · cases hrun; exact h
    · next hvh =>
      split at hrun
      · cases hrun; exact h
      · obtain ⟨buffer, hst, heq⟩ := Option.map_eq_some_iff.1 hrun
        obtain ⟨rfl, -⟩ := Prod.mk.inj heq
        have hpl := h.first (not_not.1 hvh)
        have hin : mqp.endAt ≤ mqp.buffer.length := h.inside
        obtain ⟨hfit, hlen⟩ := storeBytes_some hst (by omega)
        refine ⟨⟨h.fhLen, h.room, ?_, lt_of_eq_of_lt hlen h.maxlen⟩, fun _ => hpl⟩
        show mqp.vhAt + (mqp.vhLen + (Append.topic t msgId).bytes.length) % 2 ^ 16 + mqp.plLen ≤
          buffer.length
        have hmod := Nat.mod_le (mqp.vhLen + (Append.topic t msgId).bytes.length) (2 ^ 16)
        omega
  | data d hd =>
    rw [appendStep_data] at hrun
    split at hrun
    · cases hrun; exact h
    · next hvh =>
      split at hrun
      · cases hrun; exact h
      · obtain ⟨buffer, hst, heq⟩ := Option.map_eq_some_iff.1 hrun
        obtain ⟨rfl, -⟩ := Prod.mk.inj heq
        obtain ⟨hfit, hlen⟩ := storeBytes_some hst h.inside
        refine ⟨⟨h.fhLen, h.room, ?_, lt_of_eq_of_lt hlen h.maxlen⟩, fun h0 => absurd h0 hvh⟩
        show mqp.vhAt + mqp.vhLen + (mqp.plLen + d.length) % 2 ^ 32 ≤ buffer.length
        have hmod := Nat.mod_le (mqp.plLen + d.length) (2 ^ 32)
        omega

theorem builds_runs {buffer : List UInt8} (h : buffer.length < 2 ^ 32)
    (hroom : maxFhLen ≤ buffer.length) {calls : List Append} {mqp : MqttPacket} {rvs : List Int}
    (hrun : runs appendStep (mqpBufferAttach buffer maxFhLen) calls = some (mqp, rvs)) :
    Builds mqp :=
  runs_preserves (fun hb hstep => hb.step hstep) (builds_attach h hroom) hrun

/-- The codec of the remaining length, and the header of every packet that the builders make: there it
is right as long as the length is below 2 ^ 28. -/
theorem fixedHeader_iff (n : Nat) (buffer : List UInt8) (calls : List Append) (flags : UInt8) :
    (n < 2 ^ 28 → ∃ val, bufTailWrRemlen n = some val ∧
      (∀ post, bufRdRemlen (val ++ post) = some ((val.length : Int), n)) ∧
      ∀ f, fieldLen f = some f.length → fieldVal f = n → val.length ≤ f.length) ∧
    ∀ (mqp : MqttPacket) (rvs : List Int), buffer.length < 2 ^ 32 → maxFhLen ≤ buffer.length →
      runs appendStep (mqpBufferAttach buffer maxFhLen) calls = some (mqp, rvs) →
      (FhPlaced mqp flags ↔ mqp.vhLen + mqp.plLen < 2 ^ 28) := by
  refine ⟨fun hn => ?_, fun mqp rvs h hroom hrun => ?_⟩
  · obtain ⟨val, hval, -, -, -, hrd⟩ := bufTailWrRemlen_spec hn
    exact ⟨val, hval, hrd, fun f hf hv => bufTailWrRemlen_min hval hf hv⟩
  · exact (builds_runs h hroom hrun).fhPlaced_iff flags

/-- The instances for a number of two digits, and for a topic in a packet of 16 bytes. -/
theorem fixedHeader_iff_sixteen :
    (∃ val, bufTailWrRemlen 200 = some val ∧
      (∀ post, bufRdRemlen (val ++ post) = some ((val.length : Int), 200)) ∧
      ∀ f, fieldLen f = some f.length → fieldVal f = 200 → val.length ≤ f.length) ∧
    ∃ mqp rvs, runs appendStep (mqpBufferAttach (List.replicate 16 0) maxFhLen)
      [.topic topicAbc 0] = some (mqp, rvs) ∧
      (FhPlaced mqp 0 ↔ mqp.vhLen + mqp.plLen < 2 ^ 28) := by
  refine ⟨(fixedHeader_iff 200 [] [] 0).1 (by decide), ?_⟩
  match hrun : runs appendStep (mqpBufferAttach (List.replicate 16 0) maxFhLen)
    [.topic topicAbc 0] with
  | none => exact absurd hrun (by decide +kernel)
  | some (mqp, rvs) =>
    exact ⟨mqp, rvs, rfl, (fixedHeader_iff 0 (List.replicate 16 0) [.topic topicAbc 0] 0).2 mqp rvs
      (by decide) (by decide) hrun⟩

theorem appendStep_topic_fits {mqp : MqttPacket} (h : Builds mqp) (hvh : mqp.vhLen = 0)
    {t : Utf8String} {msgId : UInt16}
    (hin : mqp.endAt + (Append.topic t msgId).bytes.length ≤ mqp.maxlen)
    (hlt : (Append.topic t msgId).bytes.length < 2 ^ 16) :
    ∃ mqp', appendStep mqp (.topic t msgId) =
        some (mqp', ((Append.topic t msgId).bytes.length : Int)) ∧
      Wrote mqp (.topic t msgId) mqp' := by
  have hpos := List.length_pos_iff.2 (bytes_topic_ne_nil t msgId)
  have h2 : 2 ≤ (Append.topic t msgId).bytes.length := by
    show 2 ≤ (prefixed t.content ++ _).length
    rw [List.length_append, length_prefixed]
    omega
  have hfree := freebufLen_eq h.maxlen h.inside
  have hfits : Fits mqp := ⟨h.maxlen, by rw [hvh]; exact Nat.two_pow_pos 16, h.first,
    fun _ => h.inside⟩
  obtain ⟨mqp', rv, hrun, hres⟩ := (appendExact_iff hfits (.topic t msgId)).2
    fun _ _ => ⟨hin, hlt⟩
  have hrun' := hrun
  rw [appendStep_topic, if_neg (not_not_intro hvh), if_neg (by omega)] at hrun'
  obtain ⟨buffer, -, heq⟩ := Option.map_eq_some_iff.1 hrun'
  obtain ⟨-, rfl⟩ := Prod.mk.inj heq
  rcases hres with ⟨hneg, -⟩ | ⟨-, hw⟩
  · omega
  · exact ⟨mqp', hrun, hw⟩

theorem appendStep_data_fits {mqp : MqttPacket} (h : Builds mqp) (hvh : mqp.vhLen ≠ 0)
    {d : List UInt8} (hd : d.length < 2 ^ 32) (hin : mqp.endAt + d.length ≤ mqp.maxlen) :
    ∃ mqp', appendStep mqp (.data d hd) = some (mqp', i32 d.length) ∧
      mqp'.plLen = mqp.plLen + d.length := by
  have hfree := freebufLen_eq h.maxlen h.inside
  have hmax := h.maxlen
  have hend : mqp.plLen ≤ mqp.endAt := Nat.le_add_left ..
  rw [appendStep_data, if_neg hvh, if_neg (by omega), storeBytes_fits hin]
  exact ⟨_, rfl, Nat.mod_eq_of_lt (by omega)⟩

/-- Behind a topic, a buffer of more than 2 ^ 28 bytes takes data that the header cannot announce. -/
theorem fixedHeader_overflows :
    ¬ ∀ (buffer : List UInt8) (calls : List Append) (mqp : MqttPacket) (rvs : List Int)
      (flags : UInt8), buffer.length < 2 ^ 32 → maxFhLen ≤ buffer.length →
      runs appendStep (mqpBufferAttach buffer maxFhLen) calls = some (mqp, rvs) →
      FhPlaced mqp flags := by
  intro hall
  obtain ⟨buffer, hbuf⟩ : ∃ l : List UInt8, l.length = 2 ^ 28 + 16 :=
    ⟨List.replicate (2 ^ 28 + 16) 0, List.length_replicate ..⟩
  obtain ⟨d, hd⟩ : ∃ l : List UInt8, l.length = 2 ^ 28 :=
    ⟨List.replicate (2 ^ 28) 0, List.length_replicate ..⟩
  have h32 : buffer.length < 2 ^ 32 := by omega
  have hd32 : d.length < 2 ^ 32 := by omega
  have hroom : maxFhLen ≤ buffer.length := by
    show 5 ≤ buffer.length
    omega
  have hinit := builds_attach h32 hroom
  have hlen : (Append.topic topicAbc 0).bytes.length = 5 := rfl
  have hend : (mqpBufferAttach buffer maxFhLen).endAt = 5 := rfl
  have hmax : (mqpBufferAttach buffer maxFhLen).maxlen = buffer.length := rfl
  obtain ⟨mqp, h1, hw⟩ := @appendStep_topic_fits _ hinit rfl topicAbc 0
    (by rw [hlen, hend, hmax]; omega) (by decide)
  have hb := hinit.step h1
  obtain ⟨hend', hmax'⟩ := hw.endAt
  have hvh : mqp.vhLen = 5 := hw.vhLen
  obtain ⟨mqp', h2, hpl⟩ := appendStep_data_fits hb (by omega) hd32
    (by rw [hend', hmax', hlen, hend, hmax]; omega)
  have hrun : runs appendStep (mqpBufferAttach buffer maxFhLen)
      [.topic topicAbc 0, .data d hd32] = some (mqp', [_, _]) :=
    runs_cons h1 (runs_cons h2 rfl)
  have hplaced := hall buffer _ mqp' _ 0 h32 hroom hrun
  have hlt := ((builds_runs h32 hroom hrun).fhPlaced_iff 0).1 hplaced
  omega

end SimpleLink.Mqtt
