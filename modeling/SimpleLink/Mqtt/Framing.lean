import Mathlib.Tactic.Ring
import SimpleLink.Lib.Base128
import SimpleLink.Mqtt.Recv

/-!
# Packet framing

What `mqp_recv` has buffered of a packet is the list `r` of the bytes received
since the packet was reset: `Holds mqp r`. All it does next depends on `r` alone.
`ask maxlen r` is the number of bytes it asks the network for, and a resumed call
goes on exactly where the previous one stopped (`mqpRecv_cons`).
-/

namespace SimpleLink.Mqtt

open Lib

/-! ## What the received bytes say -/

def headerLen (r : List UInt8) : Option Nat := (fieldLen r.tail).map (· + 1)

/-- The length of the packet whose header has `h` bytes: at most four of them are decoded. -/
def packetLen (r : List UInt8) (h : Nat) : Nat :=
  h + fieldVal ((r.tail.take (h - 1)).take maxRemlenBytes)

/-- The number of bytes asked for after `r`; `0` if the call then returns. -/
def ask (maxlen : Nat) (r : List UInt8) : Nat :=
  match headerLen r with
  | none => if r.length ≤ maxFhLen then 1 else 0
  | some h =>
    if h ≤ maxFhLen + 1 ∧ packetLen r h ≤ maxlen then packetLen r h - r.length else 0

/-- `r` is all of a packet that the buffer has room for. -/
def Complete (maxlen : Nat) (r : List UInt8) : Prop :=
  ∃ h, headerLen r = some h ∧ h ≤ maxFhLen + 1 ∧ packetLen r h ≤ maxlen ∧
    r.length = packetLen r h

theorem headerLen_bounds {r : List UInt8} {h : Nat} (hh : headerLen r = some h) :
    2 ≤ h ∧ h ≤ r.length := by
  simp only [headerLen, Option.map_eq_some_iff] at hh
  obtain ⟨n, hn, rfl⟩ := hh
  have := fieldLen_bounds hn
  simp only [List.length_tail] at this; omega

theorem headerLen_append {r : List UInt8} {h : Nat} (d : List UInt8)
    (hh : headerLen r = some h) : headerLen (r ++ d) = some h := by
  cases r with
  | nil => simp [headerLen, fieldLen] at hh
  | cons b r =>
    simp only [headerLen, List.tail_cons, Option.map_eq_some_iff, List.cons_append] at hh ⊢
    obtain ⟨n, hn, rfl⟩ := hh
    exact ⟨n, fieldLen_append d hn, rfl⟩

theorem packetLen_append {r : List UInt8} {h : Nat} (d : List UInt8)
    (hh : headerLen r = some h) : packetLen (r ++ d) h = packetLen r h := by
  have hb := headerLen_bounds hh
  cases r with
  | nil => simp only [List.length_nil] at hb; omega
  | cons b r =>
    simp only [packetLen, List.cons_append, List.tail_cons, List.length_cons] at hb ⊢
    rw [List.take_append_of_le_length (by omega)]

theorem ask_header {maxlen : Nat} {r : List UInt8} (hn : headerLen r = none)
    (ha : 0 < ask maxlen r) : r.length ≤ maxFhLen ∧ ask maxlen r = 1 := by
  simp only [ask, hn] at ha ⊢
  split at ha
  · simp [*]
  · omega

theorem ask_body {maxlen : Nat} {r : List UInt8} {n : Nat} (hn : headerLen r = some n)
    (ha : 0 < ask maxlen r) :
    n ≤ maxFhLen + 1 ∧ packetLen r n ≤ maxlen ∧ ask maxlen r = packetLen r n - r.length := by
  simp only [ask, hn] at ha ⊢
  split at ha
  next h => exact ⟨h.1, h.2, if_pos h⟩
  next => omega

theorem headerLen_snoc {r : List UInt8} (b : UInt8) (hr : r ≠ []) (hh : headerLen r = none) :
    headerLen (r ++ [b]) = if contd b then none else some (r.length + 1) := by
  cases r with
  | nil => exact absurd rfl hr
  | cons a r =>
    simp only [headerLen, List.tail_cons, Option.map_eq_none_iff, List.cons_append] at hh ⊢
    rw [fieldLen_snoc b hh]
    split <;> simp [*]

/-- A header that has not ended in `d` ends behind `d`. -/
theorem lt_headerLen {d e : List UInt8} {n : Nat} (hd : headerLen d = none)
    (he : headerLen (d ++ e) = some n) : d.length < n := by
  cases d with
  | nil => have := headerLen_bounds he; simp only [List.length_nil]; omega
  | cons b d =>
    simp only [headerLen, List.tail_cons, List.cons_append, Option.map_eq_none_iff] at hd he
    rw [fieldLen_append_none e hd] at he
    simp only [Option.map_map, Option.map_eq_some_iff, Function.comp_apply] at he
    obtain ⟨m, hm, rfl⟩ := he
    have := fieldLen_bounds hm
    simp only [List.length_cons]; omega

theorem ask_of_isPrefix {maxlen : Nat} {d e : List UInt8} (h : d <+: e) (ha : 0 < ask maxlen e) :
    0 < ask maxlen d := by
  obtain ⟨x, rfl⟩ := h
  have hlen : d.length ≤ (d ++ x).length := by simp
  cases hd : headerLen d with
  | some n =>
    obtain ⟨h6, hle, hask⟩ := ask_body (headerLen_append x hd) ha
    rw [packetLen_append x hd] at hle hask
    simp only [ask, hd, h6, hle, and_self, if_true]
    omega
  | none =>
    cases he : headerLen (d ++ x) with
    | none =>
      have := (ask_header he ha).1
      simp only [ask, hd, if_pos (Nat.le_trans hlen this), Nat.one_pos]
    | some n =>
      have h6 := (ask_body he ha).1
      have hlt := lt_headerLen hd he
      simp only [ask, hd, if_pos (show d.length ≤ maxFhLen by omega), Nat.one_pos]

theorem Complete.ask {maxlen : Nat} {d e : List UInt8} (he : Complete maxlen e) (h : d <+: e)
    (hne : d ≠ e) : 0 < ask maxlen d := by
  obtain ⟨x, rfl⟩ := h
  obtain ⟨n, hn, h6, hle, hlen⟩ := he
  have hx : 0 < x.length := List.length_pos_iff.2 fun h => hne (by simp [h])
  simp only [List.length_append] at hlen
  cases hd : headerLen d with
  | some m =>
    obtain rfl := Option.some.inj ((headerLen_append x hd).symm.trans hn)
    rw [packetLen_append x hd] at hle hlen
    simp only [Mqtt.ask, hd, h6, hle, and_self, if_true]
    omega
  | none =>
    have hlt := lt_headerLen hd hn
    simp only [Mqtt.ask, hd, if_pos (show d.length ≤ maxFhLen by omega), Nat.one_pos]

theorem Complete.eq_of_isPrefix {maxlen : Nat} {d e : List UInt8} (hd : Complete maxlen d)
    (he : Complete maxlen e) (h : d <+: e) : d = e := by
  by_contra hne
  have ha := he.ask h hne
  obtain ⟨n, hn, h6, hle, hlen⟩ := hd
  have := (ask_body hn ha).2.2
  omega

theorem Complete.eq_of_prefixes {maxlen : Nat} {d e t : List UInt8} (hd : Complete maxlen d)
    (he : Complete maxlen e) (hdt : d <+: t) (het : e <+: t) : d = e := by
  rcases List.prefix_or_prefix_of_prefix hdt het with h | h
  · exact hd.eq_of_isPrefix he h
  · exact (he.eq_of_isPrefix hd h).symm

/-! ## Buffer -/

theorem storeBytes_append (pre post d : List UInt8) :
    storeBytes (pre ++ post) pre.length d =
      if d.length ≤ post.length then some (pre ++ d ++ post.drop d.length) else none := by
  induction d generalizing pre post with
  | nil => simp [storeBytes]
  | cons b d ih =>
    cases post with
    | nil => simp [storeBytes]
    | cons c post =>
      have := ih (pre ++ [b]) post
      simp only [List.append_assoc, List.length_append, List.length_singleton,
        List.singleton_append] at this
      simp [storeBytes, this]

theorem getElem?_of_drop {buf xs post : List UInt8} {i : Nat} {x : UInt8}
    (hb : buf.drop i = x :: xs ++ post) : buf[i]? = some x := by
  have : (buf.drop i)[0]? = some x := by rw [hb]; rfl
  simpa only [List.getElem?_drop, Nat.add_zero] using this

theorem bufRdRemlenFrom_eq {xs : List UInt8} {n : Nat} (hn : fieldLen xs = some n)
    {buf : List UInt8} {i : Nat} (post : List UInt8) (hb : buf.drop i = xs ++ post)
    (val mul left : Nat) :
    ∃ j, bufRdRemlenFrom buf i val mul left =
      some (j, val + fieldVal ((xs.take n).take (left + 1)) * 2 ^ mul) := by
  induction left generalizing xs n i val mul with
  | zero =>
    cases xs with
    | nil => simp only [fieldLen, reduceCtorEq] at hn
    | cons x xs =>
      have hi := getElem?_of_drop hb
      obtain ⟨m, rfl⟩ : ∃ m, n = m + 1 := ⟨n - 1, by have := fieldLen_bounds hn; omega⟩
      refine ⟨if contd x then -1 else i + 1, ?_⟩
      simp only [bufRdRemlenFrom, hi, List.take_succ_cons, List.take_zero, fieldVal, Nat.shiftLeft_eq]
      split <;> simp
  | succ left ih =>
    cases xs with
    | nil => simp only [fieldLen, reduceCtorEq] at hn
    | cons x xs =>
      have hi := getElem?_of_drop hb
      have hd : buf.drop (i + 1) = xs ++ post := by
        rw [← List.tail_drop, hb]; rfl
      simp only [fieldLen] at hn
      cases hx : contd x with
      | false =>
        simp only [hx, Bool.false_eq_true, if_false, Option.some.injEq] at hn
        subst hn
        refine ⟨i + 1, ?_⟩
        simp [bufRdRemlenFrom, hi, hx, fieldVal, Nat.shiftLeft_eq]
      | true =>
        simp only [hx, if_true, Option.map_eq_some_iff] at hn
        obtain ⟨m, hm, rfl⟩ := hn
        obtain ⟨j, hj⟩ := ih hm hd (val + (x &&& 0x7F).toNat <<< mul) (mul + 7)
        refine ⟨j, ?_⟩
        rw [bufRdRemlenFrom, hi]
        simp only [hx, if_true]
        rw [hj]
        simp only [List.take_succ_cons, fieldVal, Nat.shiftLeft_eq, Nat.pow_add]
        congr 2
        ring

/-- `mqp` has received exactly the bytes `r` since it was reset. -/
structure Holds (mqp : MqttPacket) (r : List UInt8) : Prop where
  cells : ∃ pre post, mqp.buffer = pre ++ r ++ post ∧ pre.length = mqp.offset
  header : headerLen r = none → mqp.fhLen = r.length ∧ mqp.plLen = 0 ∧ r.length ≤ maxFhLen + 1
  body : ∀ h, headerLen r = some h → mqp.fhLen = h ∧ mqp.fhLen + mqp.plLen = r.length ∧
    h ≤ maxFhLen + 1
  fits : ∀ h, headerLen r = some h → h < r.length →
    packetLen r h ≤ mqp.maxlen ∧ r.length ≤ packetLen r h

/-- The packet after `d` has been received behind `r`; `buf` is the buffer with `d` stored. -/
def MqttPacket.took (mqp : MqttPacket) (r d buf : List UInt8) : MqttPacket :=
  match headerLen r with
  | none => { mqp with buffer := buf, fhLen := mqp.fhLen + 1 }
  | some _ => { mqp with buffer := buf, plLen := mqp.plLen + d.length }

@[simp]
theorem MqttPacket.took_offset (mqp : MqttPacket) (r d buf : List UInt8) :
    (mqp.took r d buf).offset = mqp.offset := by
  unfold took; split <;> rfl

@[simp]
theorem MqttPacket.took_buffer (mqp : MqttPacket) (r d buf : List UInt8) :
    (mqp.took r d buf).buffer = buf := by
  unfold took; split <;> rfl

theorem Holds.store {mqp : MqttPacket} {r d buf : List UInt8} (h : Holds mqp r)
    (hst : storeBytes mqp.buffer (mqp.offset + r.length) d = some buf) :
    (∃ pre post, buf = pre ++ (r ++ d) ++ post ∧ pre.length = mqp.offset) ∧
      buf.length = mqp.maxlen := by
  obtain ⟨pre, post, hb, hp⟩ := h.cells
  have := storeBytes_append (pre ++ r) post d
  rw [hb, ← hp, ← List.length_append, this] at hst
  split at hst
  · cases hst
    refine ⟨⟨pre, post.drop d.length, by simp, hp⟩, ?_⟩
    simp only [MqttPacket.maxlen, hb, List.length_append, List.length_drop]
    omega
  · cases hst

/-- Receiving `d`, no longer than what was asked for, behind `r`. -/
theorem Holds.took {mqp : MqttPacket} {r d buf : List UInt8} (h : Holds mqp r) (hd : d ≠ [])
    (hl : d.length ≤ ask mqp.maxlen r)
    (hst : storeBytes mqp.buffer (mqp.offset + r.length) d = some buf) :
    Holds (mqp.took r d buf) (r ++ d) := by
  obtain ⟨hcells, hlen⟩ := h.store hst
  have hmax : (mqp.took r d buf).maxlen = mqp.maxlen := by
    simp only [MqttPacket.maxlen, MqttPacket.took_buffer] at hlen ⊢; exact hlen
  have h1 : 0 < d.length := List.length_pos_iff.2 hd
  have ha0 : 0 < ask mqp.maxlen r := by omega
  have hcells' : ∃ pre post, (mqp.took r d buf).buffer = pre ++ (r ++ d) ++ post ∧
      pre.length = (mqp.took r d buf).offset := by simpa using hcells
  cases hn : headerLen r with
  | none =>
    obtain ⟨hf, hp, -⟩ := h.header hn
    obtain ⟨h5, ha⟩ := ask_header hn ha0
    obtain ⟨x, rfl⟩ := List.length_eq_one_iff.1 (show d.length = 1 by omega)
    have hfields : (mqp.took r [x] buf).fhLen = r.length + 1 ∧ (mqp.took r [x] buf).plLen = 0 := by
      simp [MqttPacket.took, hn, hf, hp]
    have hs : ∀ n, headerLen (r ++ [x]) = some n → n = r.length + 1 := by
      intro n hn'
      cases r with
      | nil => simp [headerLen, fieldLen] at hn'
      | cons a r =>
        rw [headerLen_snoc x (List.cons_ne_nil _ _) hn] at hn'
        split at hn'
        · cases hn'
        · exact (Option.some.inj hn').symm
    refine ⟨hcells', fun _ => ?_, fun n hn' => ?_, fun n hn' hlt => ?_⟩
    · simp only [List.length_append, List.length_singleton]; omega
    · have := hs n hn'
      simp only [List.length_append, List.length_singleton]; omega
    · have := hs n hn'
      simp only [List.length_append, List.length_singleton] at hlt; omega
  | some n =>
    obtain ⟨hf, hp, h6⟩ := h.body n hn
    obtain ⟨-, hle, ha⟩ := ask_body hn ha0
    have hn' := headerLen_append d hn
    have hfields : (mqp.took r d buf).fhLen = mqp.fhLen ∧
        (mqp.took r d buf).plLen = mqp.plLen + d.length := by
      simp [MqttPacket.took, hn]
    refine ⟨hcells', fun hc => ?_, fun m hm => ?_, fun m hm _ => ?_⟩
    · rw [hn'] at hc; cases hc
    · obtain rfl := Option.some.inj (hn'.symm.trans hm)
      simp only [List.length_append]; omega
    · obtain rfl := Option.some.inj (hn'.symm.trans hm)
      rw [packetLen_append d hn, hmax, List.length_append]
      omega

theorem Holds.at {mqp : MqttPacket} {r : List UInt8} (h : Holds mqp r) (i : Nat)
    (hi : i < r.length) : mqp.buffer[mqp.offset + i]? = r[i]? := by
  obtain ⟨pre, post, hb, hp⟩ := h.cells
  rw [hb, ← hp, List.append_assoc, List.getElem?_append_right (by omega),
    List.getElem?_append_left (by omega), Nat.add_sub_cancel_left]

theorem Holds.last {mqp : MqttPacket} {r : List UInt8} (h : Holds mqp r) (h2 : 2 ≤ r.length) :
    ∃ b, mqp.buffer[mqp.offset + mqp.fhLen - 1]? = some b ∧
      contd b = (headerLen r).isNone := by
  cases r with
  | nil => simp at h2
  | cons a r =>
    cases hh : headerLen (a :: r) with
    | none =>
      have hf := (h.header hh).1
      have hall := fieldLen_eq_none.1 (show fieldLen r = none by
        simpa only [headerLen, List.tail_cons, Option.map_eq_none_iff] using hh)
      simp only [List.length_cons] at h2 hf
      have hlt : r.length - 1 < r.length := by omega
      refine ⟨r.get ⟨_, hlt⟩, ?_, hall _ (List.get_mem ..)⟩
      rw [show mqp.offset + mqp.fhLen - 1 = mqp.offset + r.length by omega,
        h.at _ (by simp), List.getElem?_cons, if_neg (by omega)]
      simp [hlt]
    | some n =>
      have hf := h.body n hh
      have hb := headerLen_bounds hh
      simp only [headerLen, List.tail_cons, Option.map_eq_some_iff] at hh
      obtain ⟨m, hm, rfl⟩ := hh
      have hm0 := fieldLen_bounds hm
      obtain ⟨-, b, hb1, hb2⟩ := fieldLen_spec hm
      refine ⟨b, ?_, hb2⟩
      rw [show mqp.offset + mqp.fhLen - 1 = mqp.offset + m by omega,
        h.at _ (by simp only [List.length_cons]; omega), List.getElem?_cons, if_neg (by omega), hb1]

theorem Holds.remlen {mqp : MqttPacket} {r : List UInt8} {n : Nat} (h : Holds mqp r)
    (hn : headerLen r = some n) :
    ∃ j, bufRdRemlen (mqp.buffer.drop (mqp.offset + 1)) = some (j, packetLen r n - n) := by
  obtain ⟨pre, post, hb, hp⟩ := h.cells
  cases r with
  | nil => simp [headerLen, fieldLen] at hn
  | cons a r =>
    simp only [headerLen, List.tail_cons, Option.map_eq_some_iff] at hn
    obtain ⟨m, hm, rfl⟩ := hn
    have hd : mqp.buffer.drop (mqp.offset + 1) = r ++ post := by
      rw [hb, ← hp, List.append_assoc, ← List.drop_drop, List.drop_left]; rfl
    obtain ⟨j, hj⟩ := bufRdRemlenFrom_eq (i := 0) hm post hd 0 0 (maxRemlenBytes - 1)
    refine ⟨j, ?_⟩
    rw [bufRdRemlen, hj]
    simp only [packetLen, List.tail_cons, Nat.add_sub_cancel, Nat.add_sub_cancel_left,
      Nat.pow_zero, Nat.mul_one, Nat.zero_add]
    rfl

theorem Holds.room {mqp : MqttPacket} {r : List UInt8} (h : Holds mqp r) :
    mqp.offset + r.length ≤ mqp.maxlen := by
  obtain ⟨pre, post, hb, hp⟩ := h.cells
  simp only [MqttPacket.maxlen, hb, List.length_append]; omega

theorem Holds.prefix_of_complete {mqp : MqttPacket} {r e t : List UInt8} (h : Holds mqp r)
    (he : Complete mqp.maxlen e) (hr : r <+: t) (het : e <+: t) : r <+: e := by
  rcases List.prefix_or_prefix_of_prefix hr het with h' | ⟨x, rfl⟩
  · exact h'
  · obtain ⟨n, hn, h6, hle, hlen⟩ := he
    have hn' := headerLen_append x hn
    have hb := headerLen_bounds hn
    have hx : x.length = 0 := by
      by_contra hx
      have := h.fits n hn' (by simp only [List.length_append]; omega)
      simp only [packetLen_append x hn, List.length_append] at this
      omega
    simp [List.length_eq_zero_iff.1 hx]

/-! ## One call -/

theorem recvFhMin_exit {mqp : MqttPacket} (h : 2 ≤ mqp.fhLen) (s : List UInt8) (ks : List Nat) :
    recvFhMin mqp s ks = some (.next mqp s ks) := by
  cases ks <;> simp [recvFhMin, Nat.not_lt.2 h]

theorem recvFhMore_exit {mqp : MqttPacket} {b : UInt8}
    (hb : mqp.buffer[mqp.offset + mqp.fhLen - 1]? = some b) (hc : contd b = false)
    (s : List UInt8) (ks : List Nat) : recvFhMore mqp s ks = some (.next mqp s ks) := by
  cases ks <;> simp [recvFhMore, hb, hc]

theorem recvBody_exit {mqp : MqttPacket} {remlen : Nat} (h : remlen ≤ mqp.plLen) (s : List UInt8)
    (ks : List Nat) : recvBody remlen mqp s ks = some (.next mqp s ks) := by
  cases ks <;> simp [recvBody, Nat.not_lt.2 h]

/-- What `mqp_recv` does once the header is complete. -/
theorem mqpRecv_body {mqp : MqttPacket} {r : List UInt8} {n : Nat} (h : Holds mqp r)
    (hn : headerLen r = some n) (s : List UInt8) (ks : List Nat) :
    mqpRecv mqp s ks =
      if mqp.maxlen < packetLen r n then some (mqpErrPktLen, mqp, s)
      else
        andThen (recvBody (packetLen r n - n) mqp s ks) fun mqp s _ =>
        match mqp.buffer[mqp.offset]? with
        | none => none
        | some b =>
          some ((mqp.fhLen + (packetLen r n - n) : Nat),
            { mqp with fhByte1 := b, msgType := (b &&& 0xF0) >>> 4 }, s) := by
  have hf := (h.body n hn).1
  have hb := headerLen_bounds hn
  have hle : n ≤ packetLen r n := Nat.le_add_right ..
  obtain ⟨b, hb1, hb2⟩ := h.last (by omega)
  simp only [hn, Option.isNone_some] at hb2
  obtain ⟨j, hj⟩ := h.remlen hn
  simp only [mqpRecv, recvFhMin_exit (by omega : 2 ≤ mqp.fhLen), andThen,
    recvFhMore_exit hb1 hb2, hj, hf, Nat.sub_add_cancel hle]
  rfl

theorem mqpRecv_cons {mqp : MqttPacket} {r : List UInt8} (h : Holds mqp r)
    (ha : 0 < ask mqp.maxlen r) (s : List UInt8) (k : Nat) (ks : List Nat) :
    mqpRecv mqp s (k :: ks) =
      match storeBytes mqp.buffer (mqp.offset + r.length)
        (s.take (min k (ask mqp.maxlen r))) with
      | none => none
      | some buf =>
        if s.take (min k (ask mqp.maxlen r)) = [] then
          some (mqpErrNetwork, { mqp with buffer := buf }, s)
        else
          mqpRecv (mqp.took r (s.take (min k (ask mqp.maxlen r))) buf)
            (s.drop (s.take (min k (ask mqp.maxlen r))).length) ks := by
  cases hn : headerLen r with
  | none =>
    obtain ⟨hf, -, -⟩ := h.header hn
    obtain ⟨h5, ha1⟩ := ask_header hn ha
    simp only [ha1]
    generalize hd : s.take (min k 1) = d
    by_cases h2 : mqp.fhLen < 2
    · rw [mqpRecv, recvFhMin, if_pos h2, netRecv, hd, ← hf]
      cases hst : storeBytes mqp.buffer (mqp.offset + mqp.fhLen) d with
      | none => rfl
      | some buf =>
        cases d with
        | nil => rfl
        | cons x d => simp only [MqttPacket.took, hn]; rfl
    · obtain ⟨b, hb1, hb2⟩ := h.last (by omega)
      simp only [hn, Option.isNone_none] at hb2
      rw [mqpRecv, recvFhMin_exit (by omega), andThen, recvFhMore, hb1]
      simp only [hb2, if_true, show ¬ mqp.fhLen > maxFhLen by omega, if_false, netRecv, hd, ← hf]
      cases hst : storeBytes mqp.buffer (mqp.offset + mqp.fhLen) d with
      | none => rfl
      | some buf =>
        cases d with
        | nil => rfl
        | cons x d =>
          simp only [MqttPacket.took, hn, reduceCtorEq, if_false]
          rw [mqpRecv, recvFhMin_exit (by simp only; omega)]
          rfl
  | some n =>
    obtain ⟨hf, hl, h6⟩ := h.body n hn
    obtain ⟨-, hle, ha'⟩ := ask_body hn ha
    replace ha' : ask mqp.maxlen r = packetLen r n - n - mqp.plLen := by omega
    have hpos : mqp.offset + mqp.fhLen + mqp.plLen = mqp.offset + r.length := by omega
    rw [mqpRecv_body h hn, if_neg (by omega), recvBody, if_pos (by omega), netRecv, hpos, ← ha']
    generalize hd : s.take (min k (ask mqp.maxlen r)) = d
    cases hst : storeBytes mqp.buffer (mqp.offset + r.length) d with
    | none => rfl
    | some buf =>
      cases d with
      | nil => rfl
      | cons x d =>
        have hne : x :: d ≠ [] := List.cons_ne_nil _ _
        have hl : (x :: d).length ≤ ask mqp.maxlen r := by rw [← hd, List.length_take]; omega
        have ht := h.took hne hl hst
        have hlen := (h.store hst).2
        have hmax : (mqp.took r (x :: d) buf).maxlen = mqp.maxlen := by
          rw [MqttPacket.maxlen, MqttPacket.took_buffer, hlen]
        simp only [reduceCtorEq, if_false]
        rw [mqpRecv_body ht (headerLen_append _ hn), hmax, packetLen_append _ hn,
          if_neg (Nat.not_lt.2 hle)]
        simp only [MqttPacket.took, hn]
        rfl

theorem mqpRecv_nil {mqp : MqttPacket} {r : List UInt8} (h : Holds mqp r)
    (ha : 0 < ask mqp.maxlen r) (s : List UInt8) :
    mqpRecv mqp s [] = some (mqpErrNetwork, mqp, s) := by
  cases hn : headerLen r with
  | none =>
    have hf := (h.header hn).1
    have h5 := (ask_header hn ha).1
    by_cases h2 : mqp.fhLen < 2
    · rw [mqpRecv, recvFhMin, if_pos h2]
      rfl
    · obtain ⟨b, hb1, hb2⟩ := h.last (by omega)
      simp only [hn, Option.isNone_none] at hb2
      rw [mqpRecv, recvFhMin_exit (by omega), andThen, recvFhMore, hb1]
      simp only [hb2, if_true, show ¬ mqp.fhLen > maxFhLen by omega, if_false, andThen]
  | some n =>
    have hf := h.body n hn
    obtain ⟨-, hle, ha'⟩ := ask_body hn ha
    rw [mqpRecv_body h hn, if_neg (by omega), recvBody, if_pos (by omega), andThen]

theorem mqpRecv_idle {mqp : MqttPacket} {r : List UInt8} (h : Holds mqp r)
    (ha : ask mqp.maxlen r = 0) (s : List UInt8) (ks : List Nat) :
    (Complete mqp.maxlen r ∧ ∃ b, r.head? = some b ∧ mqpRecv mqp s ks =
      some ((r.length : Int), { mqp with fhByte1 := b, msgType := (b &&& 0xF0) >>> 4 }, s)) ∨
    (¬ Complete mqp.maxlen r ∧ ∃ rv, rv < 0 ∧ mqpRecv mqp s ks = some (rv, mqp, s)) := by
  cases hn : headerLen r with
  | none =>
    right
    have hf := (h.header hn).1
    have h5 : maxFhLen < r.length := by
      by_contra hle
      simp only [ask, hn, Nat.not_lt.1 hle, if_true, Nat.one_ne_zero] at ha
    refine ⟨fun ⟨n, hn', _⟩ => (by rw [hn] at hn'; cases hn'), mqpErrNotDef, by decide, ?_⟩
    have h2 : 2 ≤ r.length := by simp only [maxFhLen] at h5; omega
    obtain ⟨b, hb1, hb2⟩ := h.last h2
    simp only [hn, Option.isNone_none] at hb2
    rw [mqpRecv, recvFhMin_exit (by omega), andThen]
    rw [← hf] at h5
    cases ks <;> simp only [recvFhMore, hb1, hb2, if_true, gt_iff_lt, h5, andThen]
  | some n =>
    have hb := headerLen_bounds hn
    obtain ⟨hf, hp, h6⟩ := h.body n hn
    rw [mqpRecv_body h hn]
    by_cases hle : mqp.maxlen < packetLen r n
    · right
      rw [if_pos hle]
      refine ⟨fun ⟨m, hm, _, hm', _⟩ => ?_, mqpErrPktLen, by decide, rfl⟩
      obtain rfl := Option.some.inj (hn.symm.trans hm)
      omega
    · left
      have hn0 : n ≤ packetLen r n := Nat.le_add_right ..
      have hlen : r.length = packetLen r n := by
        simp only [ask, hn, h6, Nat.not_lt.1 hle, and_self, if_true] at ha
        by_cases hlt : n < r.length
        · have := (h.fits n hn hlt).2; omega
        · omega
      refine ⟨⟨n, hn, h6, Nat.not_lt.1 hle, hlen⟩, ?_⟩
      cases r with
      | nil => simp only [List.length_nil] at hb; omega
      | cons b r =>
        have h0 : mqp.buffer[mqp.offset]? = some b := h.at 0 (by simp)
        refine ⟨b, rfl, ?_⟩
        rw [if_neg hle, recvBody_exit (by omega), andThen, h0, hlen, hf]
        simp only [Nat.add_sub_cancel' hn0]

/-- The receiver stores a byte of `t` at or behind index `maxlen`. -/
def Overruns (maxlen offset : Nat) (t : List UInt8) : Prop :=
  ∃ d, d <+: t ∧ d ≠ t ∧ 0 < ask maxlen d ∧ maxlen ≤ offset + d.length

/-- The outcomes of a call with the answers `ks` when `n` bytes of `t` are buffered and the
others are coming: afterwards `e` is buffered and `s` is coming. -/
inductive Called (maxlen offset : Nat) (t : List UInt8) (n : Nat) (ks : List Nat) :
    Option (Int × MqttPacket × List UInt8) → Prop where
  | overrun : Overruns maxlen offset t → Called maxlen offset t n ks none
  | packet {e s mqp} : t = e ++ s → Holds mqp e → mqp.maxlen = maxlen → mqp.offset = offset →
      Complete maxlen e → e.head? = some mqp.fhByte1 →
      Called maxlen offset t n ks (some (e.length, mqp, s))
  | failed {rv e s mqp} : t = e ++ s → Holds mqp e → mqp.maxlen = maxlen → mqp.offset = offset →
      ¬ Complete maxlen e → rv < 0 →
      (ask maxlen e = 0 ∨ s = [] ∨ 0 ∈ ks ∨ n + ks.length ≤ e.length) →
      Called maxlen offset t n ks (some (rv, mqp, s))

theorem Called.mono {maxlen offset : Nat} {t : List UInt8} {m n k : Nat} {ks : List Nat}
    {o : Option (Int × MqttPacket × List UInt8)} (h : Called maxlen offset t n ks o)
    (hm : m + 1 ≤ n) : Called maxlen offset t m (k :: ks) o := by
  cases h with
  | overrun h => exact .overrun h
  | packet ht hh hl ho hc hb => exact .packet ht hh hl ho hc hb
  | failed ht hh hl ho hc hrv hw =>
    refine .failed ht hh hl ho hc hrv ?_
    rcases hw with hw | hw | hw | hw
    · exact .inl hw
    · exact .inr (.inl hw)
    · exact .inr (.inr (.inl (List.mem_cons_of_mem k hw)))
    · refine .inr (.inr (.inr ?_))
      simp only [List.length_cons]; omega

theorem Complete.not_ask {maxlen : Nat} {r : List UInt8} (h : Complete maxlen r) :
    Mqtt.ask maxlen r = 0 := by
  obtain ⟨n, hn, h6, hle, hlen⟩ := h
  simp only [Mqtt.ask, hn, h6, hle, and_self, if_true]
  omega

theorem called_idle {mqp : MqttPacket} {r : List UInt8} (h : Holds mqp r)
    (ha : ask mqp.maxlen r = 0) (s : List UInt8) (ks : List Nat) :
    Called mqp.maxlen mqp.offset (r ++ s) r.length ks (mqpRecv mqp s ks) := by
  rcases mqpRecv_idle h ha s ks with ⟨hc, b, hb, he⟩ | ⟨hc, rv, hrv, he⟩
  · rw [he]
    exact .packet rfl ⟨h.cells, h.header, h.body, h.fits⟩ rfl rfl hc hb
  · rw [he]
    exact .failed rfl h rfl rfl hc hrv (.inl ha)

theorem Holds.overruns {mqp : MqttPacket} {r d : List UInt8} (h : Holds mqp r) (s : List UInt8)
    (hd : d <+: s) (hl : d.length ≤ ask mqp.maxlen r)
    (hst : storeBytes mqp.buffer (mqp.offset + r.length) d = none) :
    Overruns mqp.maxlen mqp.offset (r ++ s) := by
  obtain ⟨pre, post, hb, hp⟩ := h.cells
  have hsto := storeBytes_append (pre ++ r) post d
  rw [hb, ← hp, ← List.length_append, hsto] at hst
  split at hst
  next => cases hst
  next hlt =>
    have hlen : (d.take post.length).length = post.length := by
      rw [List.length_take]; omega
    have hpre : d.take post.length <+: s := (List.take_prefix ..).trans hd
    refine ⟨r ++ d.take post.length, (List.prefix_append_right_inj r).2 hpre, fun heq => ?_, ?_, ?_⟩
    · have := congrArg List.length (List.append_cancel_left heq)
      have := hd.length_le
      omega
    · cases hn : headerLen r with
      | none =>
        have ha : 0 < ask mqp.maxlen r := by omega
        have := (ask_header hn ha).2
        have hnil : d.take post.length = [] := List.length_eq_zero_iff.1 (by omega)
        simpa only [hnil, List.append_nil] using ha
      | some n =>
        obtain ⟨h6, hle, ha⟩ := ask_body hn (show 0 < ask mqp.maxlen r by omega)
        simp only [ask, headerLen_append _ hn, packetLen_append _ hn, h6, hle, and_self, if_true,
          List.length_append]
        omega
    · simp only [MqttPacket.maxlen, hb, List.length_append]; omega

theorem mqpRecv_called {mqp : MqttPacket} {r : List UInt8} (h : Holds mqp r) (s : List UInt8)
    (ks : List Nat) : Called mqp.maxlen mqp.offset (r ++ s) r.length ks (mqpRecv mqp s ks) := by
  induction ks generalizing mqp r s with
  | nil =>
    rcases Nat.eq_zero_or_pos (ask mqp.maxlen r) with ha | ha
    · exact called_idle h ha s []
    · rw [mqpRecv_nil h ha]
      exact .failed rfl h rfl rfl (fun hc => by have := hc.not_ask; omega) (by decide)
        (.inr (.inr (.inr (Nat.le_refl _))))
  | cons k ks ih =>
    rcases Nat.eq_zero_or_pos (ask mqp.maxlen r) with ha | ha
    · exact called_idle h ha s _
    · rw [mqpRecv_cons h ha]
      generalize hd : s.take (min k (ask mqp.maxlen r)) = d
      have hpre : d <+: s := hd ▸ List.take_prefix ..
      have hl : d.length ≤ ask mqp.maxlen r := by rw [← hd, List.length_take]; omega
      have hs : s = d ++ s.drop d.length := by
        obtain ⟨x, rfl⟩ := hpre
        simp
      cases hst : storeBytes mqp.buffer (mqp.offset + r.length) d with
      | none => exact .overrun (h.overruns s hpre hl hst)
      | some buf =>
        by_cases hnil : d = []
        · subst hnil
          obtain rfl : mqp.buffer = buf := Option.some.inj hst
          have hw : s = [] ∨ 0 ∈ k :: ks := by
            rcases List.take_eq_nil_iff.1 hd with h0 | h0
            · exact .inr (by simp; omega)
            · exact .inl h0
          simp only [if_true]
          refine .failed rfl h rfl rfl (fun hc => by have := hc.not_ask; omega) (by decide) ?_
          exact .inr (hw.imp_right .inl)
        · have hpos := List.length_pos_iff.2 hnil
          have ht := h.took hnil hl hst
          have hmax : (mqp.took r d buf).maxlen = mqp.maxlen := by
            rw [MqttPacket.maxlen, MqttPacket.took_buffer, (h.store hst).2]
          have := ih ht (s.drop d.length)
          rw [hmax, MqttPacket.took_offset, List.append_assoc, ← hs] at this
          simp only [hnil, if_false]
          exact this.mono (by simp only [List.length_append]; omega)

end SimpleLink.Mqtt
