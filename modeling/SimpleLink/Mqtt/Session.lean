import SimpleLink.Mqtt.Framing

/-!
# Receiving a stream of packets

A session is any number of `mqp_recv` calls on one packet object, reset after
every completed call as its users do; a call that failed is made again on what
is buffered. The completed calls return the packets the stream is made of
(`session_spec`), unless some packet starts with a remaining length that goes on
after its fourth byte: the guard of the second header loop lets a sixth header
byte in.
-/

namespace SimpleLink.Mqtt

open Lib

/-! ## Packets on the wire -/

structure Packet where
  fhByte1 : UInt8
  remlen : List UInt8
  payload : List UInt8
  deriving DecidableEq, Repr

def Packet.bytes (p : Packet) : List UInt8 := p.fhByte1 :: (p.remlen ++ p.payload)

/-- A remaining length of one to four bytes, and as much after it as it says. -/
structure Packet.WellFormed (p : Packet) : Prop where
  field : fieldLen p.remlen = some p.remlen.length
  short : p.remlen.length ≤ maxRemlenBytes
  payload : p.payload.length = fieldVal p.remlen

/-- A well-formed packet that fits the buffer from `offset` on. -/
structure Packet.Fits (maxlen offset : Nat) (p : Packet) : Prop extends p.WellFormed where
  room : offset + p.bytes.length ≤ maxlen

def wire (ps : List Packet) : List UInt8 := (ps.map Packet.bytes).flatten

def MqttPacket.packet (mqp : MqttPacket) : Packet where
  fhByte1 := mqp.fhByte1
  remlen := (mqp.buffer.drop (mqp.offset + 1)).take (mqp.fhLen - 1)
  payload := (mqp.buffer.drop (mqp.offset + mqp.fhLen)).take mqp.plLen

def MqttPacket.buffered (mqp : MqttPacket) : List UInt8 :=
  (mqp.buffer.drop mqp.offset).take (mqp.fhLen + mqp.plLen)

/-- Successive calls of `mqp_recv`, each with the network's answers to it. The packets of the
completed calls, and the packet object and the stream after the last call. -/
def session (mqp : MqttPacket) (stream : List UInt8) :
    List (List Nat) → Option (List Packet × MqttPacket × List UInt8)
  | [] => some ([], mqp, stream)
  | answers :: calls =>
    match mqpRecv mqp stream answers with
    | none => none
    | some (rv, mqp, stream) =>
      if 0 < rv then
        match session (mqpReset mqp) stream calls with
        | none => none
        | some (ps, mqp', stream) => some (mqp.packet :: ps, mqp', stream)
      else session mqp stream calls

/-- The remaining length `t` starts with goes on after its fourth byte. -/
def Overlong (t : List UInt8) : Prop :=
  maxFhLen ≤ t.length ∧ ∀ b ∈ t.tail.take maxRemlenBytes, contd b = true

/-- `t` starts with a remaining length that ends with its fifth byte, and the bytes that its
first four announce are there and fit. -/
def EndsLate (maxlen : Nat) (t : List UInt8) : Prop :=
  headerLen t = some (maxFhLen + 1) ∧ packetLen t (maxFhLen + 1) ≤ min maxlen t.length

instance (maxlen : Nat) (t : List UInt8) : Decidable (EndsLate maxlen t) :=
  inferInstanceAs (Decidable (_ ∧ _))

/-- Where a packet starts in the stream, none starts that ends late or has a header too long
for the buffer itself. -/
def Regular (maxlen offset : Nat) (s : List UInt8) : Prop :=
  ∀ ps t, (∀ p ∈ ps, p.Fits maxlen offset) → s = wire ps ++ t →
    ¬ EndsLate maxlen t ∧ ¬ Overruns maxlen offset t

theorem Packet.header {p : Packet} (h : p.WellFormed) (t : List UInt8) :
    headerLen (p.bytes ++ t) = some (p.remlen.length + 1) := by
  simp only [bytes, List.cons_append, headerLen, List.tail_cons, Option.map_eq_some_iff]
  refine ⟨_, ?_, rfl⟩
  rw [List.append_assoc]
  exact fieldLen_append _ h.field

theorem Packet.length {p : Packet} (h : p.WellFormed) :
    packetLen p.bytes (p.remlen.length + 1) = p.bytes.length := by
  have := h.short
  have := h.payload
  simp only [packetLen, bytes, List.tail_cons, Nat.add_sub_cancel, List.take_left,
    List.length_cons, List.length_append]
  rw [List.take_of_length_le (by assumption)]
  omega

theorem Packet.Fits.complete {maxlen offset : Nat} {p : Packet} (h : p.Fits maxlen offset) :
    Complete maxlen p.bytes := by
  have hroom := h.room
  have hshort := h.short
  have hlen := p.length h.toWellFormed
  refine ⟨p.remlen.length + 1, ?_, ?_, ?_, hlen.symm⟩
  · simpa only [List.append_nil] using p.header h.toWellFormed []
  · simp only [maxRemlenBytes, maxFhLen] at hshort ⊢; omega
  · omega

theorem Complete.packet {maxlen : Nat} {e : List UInt8} (h : Complete maxlen e)
    (h6 : headerLen e ≠ some (maxFhLen + 1)) : ∃ p : Packet, p.WellFormed ∧ p.bytes = e := by
  obtain ⟨n, hn, hle, -, hlen⟩ := h
  have hb := headerLen_bounds hn
  cases e with
  | nil => simp only [List.length_nil] at hb; omega
  | cons b e =>
    have hn5 : n - 1 ≤ maxRemlenBytes := by
      have : n ≠ maxFhLen + 1 := fun heq => h6 (heq ▸ hn)
      simp only [maxRemlenBytes, maxFhLen] at *; omega
    simp only [headerLen, List.tail_cons, Option.map_eq_some_iff] at hn
    obtain ⟨m, hm, rfl⟩ := hn
    have hbm := fieldLen_bounds hm
    simp only [Nat.add_sub_cancel] at hn5
    have hml : (e.take m).length = m := by rw [List.length_take]; omega
    refine ⟨⟨b, e.take m, e.drop m⟩, ⟨?_, ?_, ?_⟩, ?_⟩
    · simp only [hml]; exact fieldLen_take hm
    · simp only [hml]; exact hn5
    · simp only [packetLen, List.tail_cons, Nat.add_sub_cancel, List.length_cons] at hlen
      rw [List.take_of_length_le (by omega)] at hlen
      simp only [List.length_drop]; omega
    · simp only [Packet.bytes, List.take_append_drop]

theorem remlenBytesFrom_spec {left remlen : Nat} (h : remlen < 128 ^ left) (hleft : 0 < left) :
    ∃ bs, remlenBytesFrom remlen left = some bs ∧ fieldLen bs = some bs.length ∧
      bs.length ≤ left ∧ fieldVal bs = remlen := by
  induction left generalizing remlen with
  | zero => omega
  | succ left ih =>
    obtain ⟨hl, hlv, hc, hcv⟩ := digit_byte ⟨remlen % 128, Nat.mod_lt _ (by decide)⟩
    have hand : remlen &&& 0x7F = remlen % 128 := Nat.and_two_pow_sub_one_eq_mod remlen 7
    have hshift : remlen >>> 7 = remlen / 128 := Nat.shiftRight_eq_div_pow remlen 7
    simp only [remlenBytesFrom, hand, hshift]
    by_cases h0 : remlen / 128 = 0
    · rw [if_pos h0]
      refine ⟨_, rfl, ?_, by simp, ?_⟩
      · simp [fieldLen, hl]
      · simp only [fieldVal, hlv]; omega
    · rw [if_neg h0]
      have hdiv : remlen / 128 < 128 ^ left := by
        rw [Nat.pow_succ] at h; omega
      have hpos : 0 < left := by
        rcases Nat.eq_zero_or_pos left with rfl | hp
        · simp only [Nat.pow_zero] at hdiv; omega
        · exact hp
      obtain ⟨bs, he, hf, hlen, hv⟩ := ih hdiv hpos
      rw [he]
      refine ⟨_, rfl, ?_, ?_, ?_⟩
      · simp [fieldLen, hc, hf]
      · simp only [List.length_cons]; omega
      · simp only [fieldVal, hcv, hv]; omega

theorem EndsLate.overlong {maxlen : Nat} {t : List UInt8} (h : EndsLate maxlen t) :
    Overlong t := by
  obtain ⟨hn, -⟩ := h
  have hb := headerLen_bounds hn
  refine ⟨Nat.le_of_succ_le hb.2, fieldLen_eq_none.1 ?_⟩
  simp only [headerLen, Option.map_eq_some_iff] at hn
  obtain ⟨m, hm, heq⟩ := hn
  obtain rfl : m = maxFhLen := by omega
  exact (fieldLen_spec hm).1

theorem Packet.not_overlong {p : Packet} (h : p.WellFormed) (t : List UInt8) :
    ¬ Overlong (p.bytes ++ t) := by
  rintro ⟨-, hall⟩
  have hb := fieldLen_bounds h.field
  have hlen := h.short
  obtain ⟨-, b, hb1, hb2⟩ := fieldLen_spec h.field
  have hmem : b ∈ (p.bytes ++ t).tail.take maxRemlenBytes := by
    refine List.mem_of_getElem? (i := p.remlen.length - 1) ?_
    rw [List.getElem?_take_of_lt (by omega), bytes, List.cons_append, List.tail_cons,
      List.append_assoc, List.getElem?_append_left (by omega), hb1]
  rw [hall b hmem] at hb2
  cases hb2

theorem Packet.bytes_inj {p q : Packet} (hp : p.WellFormed) (hq : q.WellFormed)
    (h : p.bytes = q.bytes) : p = q := by
  have h1 := p.header hp []
  have h2 := q.header hq []
  rw [h, h2, Option.some.injEq] at h1
  simp only [bytes, List.cons.injEq] at h
  obtain ⟨hr, hl⟩ := List.append_inj h.2 (by omega)
  cases p; cases q
  simp_all

theorem wire_cons (p : Packet) (ps : List Packet) : wire (p :: ps) = p.bytes ++ wire ps := rfl

theorem wire_unique {maxlen offset : Nat} {ps qs : List Packet} {x y : List UInt8}
    (hp : ∀ p ∈ ps, p.Fits maxlen offset) (hq : ∀ q ∈ qs, q.Fits maxlen offset)
    (h : wire ps ++ x = wire qs ++ y) :
    (∃ qs', qs = ps ++ qs' ∧ x = wire qs' ++ y) ∨
      ∃ p ps', ps = qs ++ p :: ps' ∧ y = wire (p :: ps') ++ x := by
  induction ps generalizing qs with
  | nil => exact .inl ⟨qs, rfl, h⟩
  | cons p ps ih =>
    cases qs with
    | nil => exact .inr ⟨p, ps, rfl, h.symm⟩
    | cons q qs =>
      have hp0 := hp p (List.mem_cons_self ..)
      have hq0 := hq q (List.mem_cons_self ..)
      rw [wire_cons, wire_cons, List.append_assoc, List.append_assoc] at h
      have hb : p.bytes = q.bytes :=
        hp0.complete.eq_of_prefixes hq0.complete (List.prefix_append ..) ⟨_, h.symm⟩
      obtain rfl := Packet.bytes_inj hp0.toWellFormed hq0.toWellFormed hb
      rcases ih (fun p hp' => hp p (List.mem_cons_of_mem _ hp'))
        (fun q hq' => hq q (List.mem_cons_of_mem _ hq')) (List.append_cancel_left h) with
        ⟨qs', rfl, hx⟩ | ⟨p', ps', rfl, hy⟩
      · exact .inl ⟨qs', rfl, hx⟩
      · exact .inr ⟨p', ps', rfl, hy⟩

/-! ## The packet object between calls -/

theorem Holds.reset (mqp : MqttPacket) (h : mqp.offset ≤ mqp.maxlen) : Holds (mqpReset mqp) [] where
  cells := ⟨mqp.buffer.take mqp.offset, mqp.buffer.drop mqp.offset, by simp [mqpReset],
    List.length_take_of_le h⟩
  header _ := ⟨rfl, rfl, Nat.zero_le _⟩
  body n hn := by cases hn
  fits n hn := by cases hn

theorem Holds.length {mqp : MqttPacket} {r : List UInt8} (h : Holds mqp r) :
    mqp.fhLen + mqp.plLen = r.length := by
  cases hn : headerLen r with
  | none => have := h.header hn; omega
  | some n => exact (h.body n hn).2.1

theorem Holds.buffered {mqp : MqttPacket} {r : List UInt8} (h : Holds mqp r) :
    mqp.buffered = r := by
  obtain ⟨pre, post, hb, hp⟩ := h.cells
  rw [MqttPacket.buffered, h.length, hb, ← hp, List.append_assoc, List.drop_left, List.take_left]

theorem Holds.packet {mqp : MqttPacket} {p : Packet} (h : Holds mqp p.bytes) (hp : p.WellFormed)
    (hb : p.bytes.head? = some mqp.fhByte1) : mqp.packet = p := by
  obtain ⟨pre, post, hbuf, hpre⟩ := h.cells
  have hn : headerLen p.bytes = some (p.remlen.length + 1) := by
    simpa only [List.append_nil] using p.header hp []
  have hf := (h.body _ hn).1
  have hl := h.length
  have hlen : p.bytes.length = p.remlen.length + p.payload.length + 1 := by
    simp [Packet.bytes]
  have hdrop : ∀ k, mqp.buffer.drop (mqp.offset + k) = (p.bytes ++ post).drop k := by
    intro k
    rw [hbuf, ← hpre, List.append_assoc, ← List.drop_drop, List.drop_left]
  simp only [MqttPacket.packet, hdrop, hf, Nat.add_sub_cancel]
  cases p with
  | mk b l d =>
    simp only [Packet.bytes, List.head?_cons, Option.some.injEq] at hb hf hl hlen ⊢
    simp [hb, show mqp.plLen = d.length by omega]

/-! ## Sessions -/

theorem Regular.next {maxlen offset : Nat} {p : Packet} {s : List UInt8}
    (hp : p.Fits maxlen offset) (h : Regular maxlen offset (p.bytes ++ s)) :
    Regular maxlen offset s := by
  rintro ps t hps rfl
  refine h (p :: ps) t (fun q hq => ?_) (by rw [wire_cons, List.append_assoc])
  rcases List.mem_cons.1 hq with rfl | hq
  · exact hp
  · exact hps q hq

theorem session_spec {mqp : MqttPacket} {r s : List UInt8} (h : Holds mqp r)
    (hr : ¬ Complete mqp.maxlen r) (hreg : Regular mqp.maxlen mqp.offset (r ++ s))
    (calls : List (List Nat)) :
    ∃ ps mqp' r' s', session mqp s calls = some (ps, mqp', s') ∧
      (∀ p ∈ ps, p.Fits mqp.maxlen mqp.offset) ∧ r ++ s = wire ps ++ (r' ++ s') ∧
      Holds mqp' r' ∧ ¬ Complete mqp.maxlen r' ∧ mqp'.maxlen = mqp.maxlen := by
  induction calls generalizing mqp r s with
  | nil => exact ⟨[], mqp, r, s, rfl, nofun, rfl, h, hr, rfl⟩
  | cons answers calls ih =>
    have hcall := mqpRecv_called h s answers
    rw [session]
    generalize mqpRecv mqp s answers = o at hcall
    cases hcall with
    | overrun hov => exact absurd hov (hreg [] _ nofun rfl).2
    | @failed rv e s' mqp₁ ht hh hl ho hc hrv _ =>
      simp only [Int.not_lt.2 (Int.le_of_lt hrv), if_false]
      rw [ht, ← hl, ← ho] at hreg
      rw [← hl] at hc
      obtain ⟨ps, mqp', r', s'', hs, hps, hw, hh', hc', hl'⟩ := ih hh hc hreg
      rw [hl, ho] at hps
      rw [hl] at hc' hl'
      exact ⟨ps, mqp', r', s'', hs, hps, ht.trans hw, hh', hc', hl'⟩
    | @packet e s' mqp₁ ht hh hl ho hc hb =>
      have hlate : headerLen e ≠ some (maxFhLen + 1) := by
        intro h6
        refine (hreg [] (e ++ s') nofun ht).1 ?_
        obtain ⟨n, hn, -, hle, hlen⟩ := hc
        obtain rfl := Option.some.inj (hn.symm.trans h6)
        refine ⟨headerLen_append s' h6, ?_⟩
        rw [packetLen_append s' h6, List.length_append]
        omega
      obtain ⟨p, hp, rfl⟩ := hc.packet hlate
      have hfit : p.Fits mqp.maxlen mqp.offset := ⟨hp, by have := hh.room; omega⟩
      have hpos : (0 : Int) < p.bytes.length :=
        Int.natCast_pos.2 (by simp [Packet.bytes])
      have hres := Holds.reset mqp₁ (by have := hh.room; omega)
      have hnc : ¬ Complete (mqpReset mqp₁).maxlen [] := fun ⟨n, hn, _⟩ => by cases hn
      have hreg' : Regular (mqpReset mqp₁).maxlen (mqpReset mqp₁).offset s' := by
        show Regular mqp₁.maxlen mqp₁.offset s'
        rw [hl, ho]
        exact (ht ▸ hreg).next hfit
      obtain ⟨ps, mqp', r', s'', hs, hps, hw, hh', hc', hl'⟩ := ih hres hnc hreg'
      simp only [hpos, if_true, hs]
      refine ⟨mqp₁.packet :: ps, mqp', r', s'', rfl, ?_, ?_, hh', ?_, hl'.trans hl⟩
      · rw [hh.packet hp hb]
        intro q hq
        rcases List.mem_cons.1 hq with rfl | hq
        · exact hfit
        · have := hps q hq
          rwa [show (mqpReset mqp₁).maxlen = mqp.maxlen from hl,
            show (mqpReset mqp₁).offset = mqp.offset from ho] at this
      · rw [hh.packet hp hb, ht, wire_cons, List.append_assoc, ← hw]
        rfl
      · rwa [show (mqpReset mqp₁).maxlen = mqp.maxlen from hl] at hc'

theorem mqpRecv_ample {mqp : MqttPacket} (h : Holds mqp []) {e s : List UInt8} {n : Nat}
    (he : Complete mqp.maxlen e) (hn : (e ++ s).length < n) :
    (mqpRecv mqp (e ++ s) (List.replicate n 1) = none ∧
      Overruns mqp.maxlen mqp.offset (e ++ s)) ∨
    ∃ mqp', mqpRecv mqp (e ++ s) (List.replicate n 1) = some ((e.length : Int), mqp', s) ∧
      Holds mqp' e ∧ mqp'.maxlen = mqp.maxlen ∧ mqp'.offset = mqp.offset ∧
      e.head? = some mqp'.fhByte1 := by
  have hcall := mqpRecv_called h (e ++ s) (List.replicate n 1)
  generalize mqpRecv mqp (e ++ s) (List.replicate n 1) = o at hcall
  rw [List.nil_append] at hcall
  cases hcall with
  | overrun hov => exact .inl ⟨rfl, hov⟩
  | @packet e' s' mqp' ht hh hl ho hc hb =>
    obtain rfl := hc.eq_of_prefixes he ⟨_, ht.symm⟩ (List.prefix_append ..)
    obtain rfl := List.append_cancel_left ht
    exact .inr ⟨mqp', rfl, hh, hl, ho, hb⟩
  | @failed rv e' s' mqp' ht hh hl ho hc hrv hw =>
    -- the call gave up, yet bytes of the packet were still to come
    have hpre : e' <+: e :=
      hh.prefix_of_complete (hl ▸ he) ⟨_, ht.symm⟩ (List.prefix_append ..)
    have hne : e' ≠ e := fun heq => hc (heq ▸ he)
    have hask := he.ask hpre hne
    have hlt : e'.length < e.length :=
      Nat.lt_of_le_of_ne hpre.length_le fun heq => hne (hpre.eq_of_length heq)
    have hlen := congrArg List.length ht
    simp only [List.length_append] at hlen hn
    rcases hw with hw | rfl | hw | hw
    · omega
    · simp only [List.length_nil] at hlen; omega
    · cases (List.mem_replicate.1 hw).2
    · simp only [List.length_nil, List.length_replicate] at hw; omega

theorem mqpRecv_overruns {mqp : MqttPacket} (h : Holds mqp []) {t : List UInt8} {n : Nat}
    (hov : Overruns mqp.maxlen mqp.offset t) (hn : t.length < n) :
    mqpRecv mqp t (List.replicate n 1) = none := by
  obtain ⟨d, hd, hne, ha, hle⟩ := hov
  have hlt : d.length < t.length :=
    Nat.lt_of_le_of_ne hd.length_le fun heq => hne (hd.eq_of_length heq)
  have hwithin : ∀ {e s mqp'}, t = e ++ s → Holds mqp' e → mqp'.maxlen = mqp.maxlen →
      mqp'.offset = mqp.offset → 0 < ask mqp.maxlen e ∧ e.length < t.length := by
    intro e s mqp' ht hh hl ho
    have hroom := hh.room
    have hlen : e.length ≤ d.length := by omega
    exact ⟨ask_of_isPrefix (List.prefix_of_prefix_length_le ⟨_, ht.symm⟩ hd hlen) ha, by omega⟩
  have hcall := mqpRecv_called h t (List.replicate n 1)
  generalize mqpRecv mqp t (List.replicate n 1) = o at hcall
  rw [List.nil_append] at hcall
  cases hcall with
  | overrun => rfl
  | packet ht hh hl ho hc =>
    have := (hwithin ht hh hl ho).1
    have := hc.not_ask
    omega
  | failed ht hh hl ho hc hrv hw =>
    obtain ⟨hask, hlt'⟩ := hwithin ht hh hl ho
    rcases hw with hw | rfl | hw | hw
    · omega
    · rw [ht, List.append_nil] at hlt'; omega
    · cases (List.mem_replicate.1 hw).2
    · simp only [List.length_nil, List.length_replicate] at hw; omega

theorem EndsLate.complete {maxlen : Nat} {t : List UInt8} (h : EndsLate maxlen t) :
    ∃ e s, t = e ++ s ∧ Complete maxlen e := by
  obtain ⟨hn, hle⟩ := h
  have hge : maxFhLen + 1 ≤ packetLen t (maxFhLen + 1) := Nat.le_add_right ..
  obtain ⟨e, s, rfl, hlen⟩ : ∃ e s, t = e ++ s ∧ e.length = packetLen t (maxFhLen + 1) :=
    ⟨t.take _, t.drop _, (List.take_append_drop ..).symm, List.length_take_of_le (by omega)⟩
  have hne : headerLen e = some (maxFhLen + 1) := by
    cases he : headerLen e with
    | none => have := lt_headerLen he hn; omega
    | some m => rw [headerLen_append s he] at hn; exact hn
  rw [packetLen_append s hne] at hlen hle
  exact ⟨e, s, rfl, _, hne, Nat.le_refl _, by omega, hlen⟩

theorem Packet.Fits.not_overruns {maxlen offset : Nat} {p : Packet} (hp : p.Fits maxlen offset)
    (s : List UInt8) : ¬ Overruns maxlen offset (p.bytes ++ s) := by
  rintro ⟨d, hd, -, ha, hle⟩
  have hroom := hp.room
  rcases List.prefix_or_prefix_of_prefix hd (List.prefix_append p.bytes s) with h | h
  · have := h.length_le
    have hne : d ≠ p.bytes := fun heq => by
      have := hp.complete.not_ask
      rw [heq] at ha; omega
    have : d.length ≠ p.bytes.length := fun heq => hne (h.eq_of_length heq)
    omega
  · have := ask_of_isPrefix h ha
    have := hp.complete.not_ask
    omega

/-- A session that receives the packets `ps`, and goes on with the calls `calls`. -/
theorem session_wire {mqp : MqttPacket} (h : mqp.offset ≤ mqp.maxlen) {ps : List Packet}
    (hps : ∀ p ∈ ps, p.Fits mqp.maxlen mqp.offset) {t : List UInt8} {n : Nat}
    (hn : (wire ps ++ t).length < n) (calls : List (List Nat)) :
    ∃ mqp', mqp'.maxlen = mqp.maxlen ∧ mqp'.offset = mqp.offset ∧
      session (mqpReset mqp) (wire ps ++ t) (List.replicate ps.length (List.replicate n 1) ++ calls)
        = (session (mqpReset mqp') t calls).map fun r => (ps ++ r.1, r.2) := by
  induction ps generalizing mqp with
  | nil => exact ⟨mqp, rfl, rfl, by simp [wire]⟩
  | cons p ps ih =>
    have hp := hps p (List.mem_cons_self ..)
    rw [wire_cons, List.append_assoc] at hn ⊢
    rcases mqpRecv_ample (Holds.reset mqp h) hp.complete hn with ⟨-, hov⟩ | ⟨mqp₁, he, hh, hl, ho, hb⟩
    · exact absurd hov (hp.not_overruns _)
    · have hl' : mqp₁.maxlen = mqp.maxlen := hl
      have ho' : mqp₁.offset = mqp.offset := ho
      have hpos : (0 : Int) < p.bytes.length := Int.natCast_pos.2 (by simp [Packet.bytes])
      obtain ⟨mqp', hm, ho'', hs⟩ := ih (hl' ▸ ho' ▸ h)
        (fun q hq => by rw [hl', ho']; exact hps q (List.mem_cons_of_mem _ hq))
        (by simp only [List.length_append] at hn ⊢; omega)
      refine ⟨mqp', hm.trans hl', ho''.trans ho', ?_⟩
      simp only [List.length_cons, List.replicate_succ, List.cons_append, session, he, hpos, if_true,
        hs, hh.packet hp.toWellFormed hb]
      cases session (mqpReset mqp') t calls <;> rfl

/-! ## The contract -/

/-- Whatever the calls and the network's answers: nothing is stored behind the buffer; as far as
the stream is made of packets that fit, the completed calls return its packets in order, the
bytes of the others being buffered or still to come; and no call completes a packet that starts
with an overlong remaining length. -/
def Receives (mqp : MqttPacket) (s : List UInt8) : Prop :=
  ∀ calls, ∃ ps mqp' s', session (mqpReset mqp) s calls = some (ps, mqp', s') ∧
    ∀ qs t, (∀ q ∈ qs, q.Fits mqp.maxlen mqp.offset) → s = wire qs ++ t →
      (t = [] → ps <+: qs ∧ mqp'.buffered ++ s' = wire (qs.drop ps.length) ∧
        (s' = [] → ps = qs)) ∧
      (Overlong t → ps.length ≤ qs.length)

theorem Regular.receives {mqp : MqttPacket} {s : List UInt8} (hm : mqp.offset ≤ mqp.maxlen)
    (h : Regular mqp.maxlen mqp.offset s) : Receives mqp s := by
  intro calls
  have hnc : ¬ Complete (mqpReset mqp).maxlen [] := fun ⟨n, hn, _⟩ => by cases hn
  obtain ⟨ps, mqp', r, s', hs, hps, hw, hh, hc, hl⟩ := session_spec (Holds.reset mqp hm) hnc h calls
  refine ⟨ps, mqp', s', hs, ?_⟩
  rintro qs t hqs rfl
  rw [List.nil_append] at hw
  rcases wire_unique hqs hps hw with ⟨ps', rfl, ht⟩ | ⟨q, qs', rfl, ht⟩
  · refine ⟨?_, fun hlong => ?_⟩
    · rintro rfl
      have hnil : ps' = [] := by
        cases ps' with
        | nil => rfl
        | cons p ps' => simp [wire_cons, Packet.bytes] at ht
      subst hnil
      obtain ⟨-, hrs⟩ := List.append_eq_nil_iff.1 ht.symm
      obtain ⟨rfl, rfl⟩ := List.append_eq_nil_iff.1 hrs
      rw [List.append_nil, hh.buffered, List.drop_length]
      exact ⟨List.prefix_refl _, rfl, fun _ => rfl⟩
    · cases ps' with
      | nil => rw [List.append_nil]
      | cons p ps' =>
        have hp := hps p (by simp)
        rw [wire_cons, List.append_assoc] at ht
        exact absurd (ht ▸ hlong) (p.not_overlong hp.toWellFormed _)
  · refine ⟨?_, fun _ => by simp⟩
    rintro rfl
    rw [List.append_nil] at ht
    have hq := hqs q (by simp)
    rw [hh.buffered, List.drop_left]
    refine ⟨List.prefix_append .., ht, ?_⟩
    rintro rfl
    rw [List.append_nil, wire_cons] at ht
    -- all bytes are buffered, so the packet `q` is
    have hpre := hh.prefix_of_complete (hl ▸ hq.complete) ⟨[], List.append_nil _⟩ ⟨_, ht.symm⟩
    have := hpre.eq_of_length (Nat.le_antisymm hpre.length_le (by
      have := congrArg List.length ht
      simp only [List.length_append] at this; omega))
    exact absurd (this ▸ hq.complete) hc

theorem Receives.regular {mqp : MqttPacket} {s : List UInt8} (hm : mqp.offset ≤ mqp.maxlen)
    (h : Receives mqp s) : Regular mqp.maxlen mqp.offset s := by
  rintro qs t hqs rfl
  have hn := Nat.lt_succ_self (wire qs ++ t).length
  obtain ⟨mqp₁, hl, ho, hs⟩ := session_wire hm hqs hn [List.replicate ((wire qs ++ t).length + 1) 1]
  obtain ⟨ps, mqp', s', hrun, hspec⟩ := h _
  rw [hs, Option.map_eq_some_iff] at hrun
  obtain ⟨⟨ps₁, x⟩, hrun, heq⟩ := hrun
  simp only [Prod.mk.injEq] at heq
  have hreset : Holds (mqpReset mqp₁) [] := Holds.reset mqp₁ (hl ▸ ho ▸ hm)
  have hmax : (mqpReset mqp₁).maxlen = mqp.maxlen := hl
  have hofs : (mqpReset mqp₁).offset = mqp.offset := ho
  have hn' : t.length < (wire qs ++ t).length + 1 := by simp only [List.length_append]; omega
  refine ⟨fun hlate => ?_, fun hov => ?_⟩
  · have hnone : ps₁ = [] := by
      have := (hspec qs t hqs rfl).2 hlate.overlong
      rw [← heq.1, List.length_append] at this
      exact List.length_eq_zero_iff.1 (by omega)
    obtain ⟨e, s, rfl, hc⟩ := hlate.complete
    rcases mqpRecv_ample hreset (hmax ▸ hc) hn' with ⟨he, -⟩ | ⟨mqp₂, he, -⟩
    · simp only [session, he, reduceCtorEq] at hrun
    · have hpos : (0 : Int) < e.length := Int.natCast_pos.2 (by
        obtain ⟨n, hn, -⟩ := hc
        have := headerLen_bounds hn
        omega)
      simp only [session, he, hpos, if_true, Option.some.injEq, Prod.mk.injEq] at hrun
      rw [hnone] at hrun
      cases hrun.1
  · have he := mqpRecv_overruns hreset (by rwa [hmax, hofs]) hn'
    simp only [session, he, reduceCtorEq] at hrun

/-- `mqp_recv` receives a stream as it should if and only if, wherever a packet starts in it, the
remaining length does not end with a fifth byte (with all it announces present and fitting) and
what is read does not go past the end of the buffer. -/
theorem receives_iff (mqp : MqttPacket) (hm : mqp.offset ≤ mqp.maxlen) (s : List UInt8) :
    Receives mqp s ↔ Regular mqp.maxlen mqp.offset s :=
  ⟨Receives.regular hm, Regular.receives hm⟩

theorem receives_iff_server_buffer :
    Receives (mqpBufferAttach (List.replicate 1024 0) 0) [0xD0, 0x00] ↔
      Regular 1024 0 [0xD0, 0x00] := by
  have h := receives_iff (mqpBufferAttach (List.replicate 1024 0) 0) (Nat.zero_le _) [0xD0, 0x00]
  rwa [show (mqpBufferAttach (List.replicate 1024 0) 0).maxlen = 1024 from
    List.length_replicate] at h

/-- A remaining length whose fifth byte is its last one is accepted, its first four bytes alone
giving the length. -/
theorem overlong_accepted :
    ¬ Receives (mqpBufferAttach (List.replicate 1024 0) 0) [0x30, 0x80, 0x80, 0x80, 0x80, 0x00] := by
  intro h
  have hlate : EndsLate 1024 [0x30, 0x80, 0x80, 0x80, 0x80, 0x00] := by decide
  have hreg := h.regular (Nat.zero_le _)
  rw [show (mqpBufferAttach (List.replicate 1024 0) 0).maxlen = 1024 from
    List.length_replicate] at hreg
  exact (hreg [] _ nofun rfl).1 hlate

end SimpleLink.Mqtt
