import SimpleLink.Lib.Overwrite
import SimpleLink.Lib.Prefixed
import SimpleLink.Lib.Run
import SimpleLink.Mqtt.Session

/-!
# Building a packet (`mqtt_common.c`, `mqtt_client.c`)

The builders write behind what the packet holds already, and count what they write in
`vh_len` (16 bits) and `pl_len` (32 bits). A store outside of the buffer has no outcome.

`mqp_pub_append_topic` compares the free bytes with `topic + msg_id? 2 : 0`, which is 2 for
any topic, and `buf_utf8_wr_try` compares them with `topic->length + 2 + (..)? 0 : 1`, which
is 0: the room for the topic is not checked by either. `AppendExact` is what a call of the
first two is to do, and `meets_appendExact_iff` says of all sequences of calls when they do
it; `bufUtf8WrTry_exact_iff` and `utf8ArrayWrite_exact_iff` are about the lists of topics.
-/

namespace SimpleLink.Mqtt

open Lib

/-- `struct utf8_string`; the length has 16 bits. -/
structure Utf8String where
  content : List UInt8
  length_lt : content.length < 2 ^ 16

/-! ## Buffer -/

/-- `MQP_VHEADER_BUF`, as an index into the buffer. -/
def MqttPacket.vhAt (mqp : MqttPacket) : Nat := mqp.offset + mqp.fhLen

/-- `MQP_PAYLOAD_BUF`. -/
def MqttPacket.plAt (mqp : MqttPacket) : Nat := mqp.vhAt + mqp.vhLen

def MqttPacket.endAt (mqp : MqttPacket) : Nat := mqp.plAt + mqp.plLen

/-- `MQP_FREEBUF_LEN`, in 32 bits. -/
def MqttPacket.freebufLen (mqp : MqttPacket) : Nat :=
  (((mqp.maxlen : Int) - mqp.endAt) % 2 ^ 32).toNat

theorem storeBytes_fits {buf bs : List UInt8} {i : Nat} (h : i + bs.length ≤ buf.length) :
    storeBytes buf i bs = some (overwrite buf i bs) := by
  have hpre : (buf.take i).length = i := List.length_take_of_le (by omega)
  have hsplit := storeBytes_append (buf.take i) (buf.drop i) bs
  rw [List.take_append_drop, hpre, List.length_drop, if_pos (by omega), List.drop_drop] at hsplit
  exact hsplit

theorem storeBytes_out {buf bs : List UInt8} {i : Nat} (h : buf.length < i + bs.length)
    (hne : bs ≠ []) : storeBytes buf i bs = none := by
  by_cases hi : i ≤ buf.length
  · have hpre : (buf.take i).length = i := List.length_take_of_le hi
    have hsplit := storeBytes_append (buf.take i) (buf.drop i) bs
    rw [List.take_append_drop, hpre, List.length_drop, if_neg (by omega)] at hsplit
    exact hsplit
  · match bs with
    | [] => exact absurd rfl hne
    | b :: bs =>
      unfold storeBytes
      rw [if_neg (by omega)]

theorem storeBytes_eq_some {buf bs buf' : List UInt8} {i : Nat} (h : storeBytes buf i bs = some buf')
    (hne : bs ≠ []) : i + bs.length ≤ buf.length ∧ buf' = overwrite buf i bs := by
  by_cases hfit : i + bs.length ≤ buf.length
  · rw [storeBytes_fits hfit] at h
    exact ⟨hfit, (Option.some.inj h).symm⟩
  · rw [storeBytes_out (Nat.not_le.1 hfit) hne] at h
    cases h

/-! ## PUBLISH -/

/-- `mqp_pub_append_topic`: what it returns, and the packet. -/
def mqpPubAppendTopic (mqp : MqttPacket) (topic : Utf8String) (msgId : UInt16) :
    Option (Int × MqttPacket) :=
  if mqp.vhLen ≠ 0 then some (-1, mqp)
  -- the sum of the pointer and the identifier is not 0
  else if mqp.freebufLen < 2 then some (mqpErrPktLen, mqp)
  else
    let bytes := prefixed topic.content ++ (if msgId ≠ 0 then be16 msgId.toNat else [])
    match storeBytes mqp.buffer mqp.vhAt bytes with
    | none => none
    | some buffer =>
      some (bytes.length,
        { mqp with
          msgId := if msgId ≠ 0 then msgId else mqp.msgId
          vhLen := (mqp.vhLen + bytes.length) % 2 ^ 16
          buffer := buffer })

def i32 (n : Nat) : Int := if n % 2 ^ 32 < 2 ^ 31 then n % 2 ^ 32 else (n % 2 ^ 32 : Int) - 2 ^ 32

/-- `mqp_pub_append_data`. -/
def mqpPubAppendData (mqp : MqttPacket) (data : List UInt8) : Option (Int × MqttPacket) :=
  if mqp.vhLen = 0 then some (-1, mqp)
  else if mqp.freebufLen < data.length then some (mqpErrPktLen, mqp)
  else
    match storeBytes mqp.buffer mqp.endAt data with
    | none => none
    | some buffer =>
      some (i32 data.length,
        { mqp with plLen := (mqp.plLen + data.length) % 2 ^ 32, buffer := buffer })

/-- A call of one of them; the length of the data has 32 bits. -/
inductive Append where
  | topic (topic : Utf8String) (msgId : UInt16)
  | data (data : List UInt8) (h : data.length < 2 ^ 32)

def appendStep (mqp : MqttPacket) : Append → Option (MqttPacket × Int)
  | .topic topic msgId => (mqpPubAppendTopic mqp topic msgId).map Prod.swap
  | .data data _ => (mqpPubAppendData mqp data).map Prod.swap

def Append.bytes : Append → List UInt8
  | .topic t msgId => prefixed t.content ++ (if msgId ≠ 0 then be16 msgId.toNat else [])
  | .data d _ => d

def Append.vhBytes : Append → Nat
  | .topic t msgId => (Append.topic t msgId).bytes.length
  | .data _ _ => 0

/-- The bytes are written behind what the packet holds, inside the buffer, and are counted. -/
structure Wrote (mqp : MqttPacket) (a : Append) (mqp' : MqttPacket) : Prop where
  inside : mqp.endAt + a.bytes.length ≤ mqp.maxlen
  buffer : mqp'.buffer = overwrite mqp.buffer mqp.endAt a.bytes
  offset : mqp'.offset = mqp.offset
  fhLen : mqp'.fhLen = mqp.fhLen
  vhLen : mqp'.vhLen = mqp.vhLen + a.vhBytes
  plLen : mqp'.plLen = mqp.plLen + (a.bytes.length - a.vhBytes)

/-- A call writes what it is to write, or reports an error and leaves the packet as it was. -/
def AppendExact (mqp : MqttPacket) (a : Append) : Prop :=
  ∃ mqp' rv, appendStep mqp a = some (mqp', rv) ∧
    ((rv < 0 ∧ mqp' = mqp) ∨ (rv = a.bytes.length ∧ Wrote mqp a mqp'))

/-- The first topic has room in the buffer and in `vh_len`, if there is room for its length; data has a
length that the answer can say, if there is room for it. -/
def AppendRegular (mqp : MqttPacket) : Append → Prop
  | .topic topic msgId =>
    mqp.vhLen = 0 → 2 ≤ mqp.freebufLen →
      mqp.endAt + (Append.topic topic msgId).bytes.length ≤ mqp.maxlen ∧
        (Append.topic topic msgId).bytes.length < 2 ^ 16
  | .data data _ => mqp.vhLen ≠ 0 → mqp.endAt + data.length ≤ mqp.maxlen → data.length < 2 ^ 31

/-- What the builders keep: there is data behind a topic only, and what there is is in the buffer. -/
structure Fits (mqp : MqttPacket) : Prop where
  maxlen : mqp.maxlen < 2 ^ 32
  vhLen : mqp.vhLen < 2 ^ 16
  first : mqp.vhLen = 0 → mqp.plLen = 0
  inside : mqp.vhLen ≠ 0 → mqp.endAt ≤ mqp.maxlen

theorem fits_attach (buffer : List UInt8) (offset : Nat) (h : buffer.length < 2 ^ 32) :
    Fits (mqpBufferAttach buffer offset) :=
  ⟨h, Nat.two_pow_pos 16, fun _ => rfl, fun hne => absurd rfl hne⟩

theorem bytes_topic_ne_nil (t : Utf8String) (msgId : UInt16) :
    (Append.topic t msgId).bytes ≠ [] := by
  unfold Append.bytes prefixed be16
  exact List.cons_ne_nil _ _

theorem freebufLen_eq {mqp : MqttPacket} (hmax : mqp.maxlen < 2 ^ 32) (h : mqp.endAt ≤ mqp.maxlen) :
    mqp.freebufLen = mqp.maxlen - mqp.endAt := by
  unfold MqttPacket.freebufLen
  omega

theorem i32_of_lt {n : Nat} (h : n < 2 ^ 31) : i32 n = n := by
  unfold i32
  rw [if_pos (by omega)]
  omega

theorem i32_neg {n : Nat} (h : 2 ^ 31 ≤ n) (hn : n < 2 ^ 32) : i32 n < 0 := by
  unfold i32
  rw [if_neg (by omega)]
  omega

/-! ## One call -/

theorem appendStep_topic (mqp : MqttPacket) (t : Utf8String) (msgId : UInt16) :
    appendStep mqp (.topic t msgId) =
      if mqp.vhLen ≠ 0 then some (mqp, -1)
      else if mqp.freebufLen < 2 then some (mqp, mqpErrPktLen)
      else (storeBytes mqp.buffer mqp.vhAt (Append.topic t msgId).bytes).map fun buffer =>
        ({ mqp with
            msgId := if msgId ≠ 0 then msgId else mqp.msgId
            vhLen := (mqp.vhLen + (Append.topic t msgId).bytes.length) % 2 ^ 16
            buffer := buffer }, ((Append.topic t msgId).bytes.length : Int)) := by
  simp only [appendStep, mqpPubAppendTopic]
  split
  · rfl
  · split
    · rfl
    · rw [Append.bytes]
      split <;> rename_i heq <;> rw [heq] <;> rfl

theorem appendStep_data (mqp : MqttPacket) (d : List UInt8) (hd : d.length < 2 ^ 32) :
    appendStep mqp (.data d hd) =
      if mqp.vhLen = 0 then some (mqp, -1)
      else if mqp.freebufLen < d.length then some (mqp, mqpErrPktLen)
      else (storeBytes mqp.buffer mqp.endAt d).map fun buffer =>
        ({ mqp with plLen := (mqp.plLen + d.length) % 2 ^ 32, buffer := buffer },
          i32 d.length) := by
  simp only [appendStep, mqpPubAppendData]
  split
  · rfl
  · split
    · rfl
    · split <;> rename_i heq <;> rw [heq] <;> rfl

theorem AppendExact.error {mqp : MqttPacket} {a : Append} {rv : Int}
    (h : appendStep mqp a = some (mqp, rv)) (hrv : rv < 0) : AppendExact mqp a :=
  ⟨mqp, rv, h, .inl ⟨hrv, rfl⟩⟩

theorem appendTopic_exact_iff {mqp : MqttPacket} (h : Fits mqp) (t : Utf8String) (msgId : UInt16) :
    AppendExact mqp (.topic t msgId) ↔ AppendRegular mqp (.topic t msgId) := by
  have hstep := appendStep_topic mqp t msgId
  have hne := bytes_topic_ne_nil t msgId
  have hv : (Append.topic t msgId).vhBytes = (Append.topic t msgId).bytes.length := rfl
  simp only [AppendRegular]
  by_cases hvh : mqp.vhLen = 0
  · have hat : mqp.vhAt = mqp.endAt := by
      rw [MqttPacket.endAt, MqttPacket.plAt, hvh, h.first hvh, Nat.add_zero]
    rw [if_neg (not_not_intro hvh), hat] at hstep
    by_cases hfree : mqp.freebufLen < 2
    · rw [if_pos hfree] at hstep
      exact iff_of_true (.error hstep (by decide)) fun _ h2 => absurd hfree (Nat.not_lt.2 h2)
    · rw [if_neg hfree] at hstep
      constructor
      · rintro ⟨mqp', rv, hrun, hres⟩ - -
        rw [hstep] at hrun
        by_cases hin : mqp.endAt + (Append.topic t msgId).bytes.length ≤ mqp.maxlen
        · refine ⟨hin, ?_⟩
          rw [storeBytes_fits hin] at hrun
          cases hrun
          rcases hres with ⟨hneg, -⟩ | ⟨-, hw⟩
          · omega
          · have hcount := hw.vhLen
            dsimp only at hcount
            rw [hvh, hv] at hcount
            omega
        · rw [storeBytes_out (Nat.not_le.1 hin) hne] at hrun
          cases hrun
      · intro hreg
        obtain ⟨hin, hlt⟩ := hreg hvh (Nat.not_lt.1 hfree)
        rw [storeBytes_fits hin] at hstep
        refine ⟨_, _, hstep, .inr ⟨rfl, hin, rfl, rfl, rfl, ?_, ?_⟩⟩
        · dsimp only
          rw [hvh, hv, Nat.zero_add]
          exact Nat.mod_eq_of_lt hlt
        · rw [hv, Nat.sub_self]
          rfl
  · rw [if_pos hvh] at hstep
    exact iff_of_true (.error hstep (by decide)) fun h0 => absurd h0 hvh

theorem appendData_exact_iff {mqp : MqttPacket} (h : Fits mqp) (d : List UInt8)
    (hd : d.length < 2 ^ 32) : AppendExact mqp (.data d hd) ↔ AppendRegular mqp (.data d hd) := by
  have hstep := appendStep_data mqp d hd
  simp only [AppendRegular]
  by_cases hvh : mqp.vhLen = 0
  · rw [if_pos hvh] at hstep
    exact iff_of_true (.error hstep (by decide)) fun hne => absurd hvh hne
  · have hinside := h.inside hvh
    have hmax := h.maxlen
    have hend : mqp.plLen ≤ mqp.endAt := Nat.le_add_left ..
    rw [if_neg hvh, freebufLen_eq hmax hinside] at hstep
    by_cases hfree : mqp.maxlen - mqp.endAt < d.length
    · rw [if_pos hfree] at hstep
      refine iff_of_true (.error hstep (by decide)) fun _ hin => ?_
      omega
    · have hin : mqp.endAt + d.length ≤ mqp.maxlen := by omega
      rw [if_neg hfree, storeBytes_fits hin] at hstep
      constructor
      · rintro ⟨mqp', rv, hrun, hres⟩ - -
        rw [hstep] at hrun
        cases hrun
        by_contra hge
        have hneg := i32_neg (Nat.not_lt.1 hge) hd
        rcases hres with ⟨-, hsame⟩ | ⟨hrv, -⟩
        · have hpl := congrArg MqttPacket.plLen hsame
          dsimp only at hpl
          omega
        · change i32 d.length = (d.length : Int) at hrv
          omega
      · intro hreg
        have hcount : (mqp.plLen + d.length) % 2 ^ 32 = mqp.plLen + d.length :=
          Nat.mod_eq_of_lt (by omega)
        rw [hcount, i32_of_lt (hreg hvh hin)] at hstep
        exact ⟨_, _, hstep, .inr ⟨rfl, hin, rfl, rfl, rfl, rfl, rfl⟩⟩

theorem appendExact_iff {mqp : MqttPacket} (h : Fits mqp) (a : Append) :
    AppendExact mqp a ↔ AppendRegular mqp a := by
  cases a with
  | topic t msgId => exact appendTopic_exact_iff h t msgId
  | data d hd => exact appendData_exact_iff h d hd

/-! ## Sequences of calls -/

theorem Append.vhBytes_le (a : Append) : a.vhBytes ≤ a.bytes.length := by
  cases a with
  | topic t msgId => exact Nat.le_refl _
  | data d hd => exact Nat.zero_le _

theorem Wrote.endAt {mqp mqp' : MqttPacket} {a : Append} (h : Wrote mqp a mqp') :
    mqp'.endAt = mqp.endAt + a.bytes.length ∧ mqp'.maxlen = mqp.maxlen := by
  have hle := a.vhBytes_le
  constructor
  · simp only [MqttPacket.endAt, MqttPacket.plAt, MqttPacket.vhAt, h.offset, h.fhLen, h.vhLen,
      h.plLen]
    omega
  · rw [MqttPacket.maxlen, h.buffer]
    exact length_overwrite h.inside

theorem AppendExact.fits {mqp mqp' : MqttPacket} {a : Append} {rv : Int} (h : Fits mqp)
    (hex : AppendExact mqp a) (hrun : appendStep mqp a = some (mqp', rv)) : Fits mqp' := by
  obtain ⟨mqp'', rv', hrun', hres⟩ := hex
  obtain ⟨rfl, rfl⟩ := Prod.mk.inj (Option.some.inj (hrun.symm.trans hrun'))
  rcases hres with ⟨-, rfl⟩ | ⟨-, hw⟩
  · exact h
  · obtain ⟨hend, hmax⟩ := hw.endAt
    refine ⟨hmax ▸ h.maxlen, ?_, fun h0 => ?_, fun _ => ?_⟩
    · -- the field has 16 bits
      cases a with
      | topic t msgId =>
        rw [appendStep_topic] at hrun
        split at hrun
        · cases hrun; exact h.vhLen
        · split at hrun
          · cases hrun; exact h.vhLen
          · obtain ⟨buffer, -, heq⟩ := Option.map_eq_some_iff.1 hrun
            obtain ⟨rfl, -⟩ := Prod.mk.inj heq
            exact Nat.mod_lt _ (Nat.two_pow_pos 16)
      | data d hd => exact hw.vhLen ▸ h.vhLen
    · cases a with
      | topic t msgId =>
        have hpos := List.length_pos_iff.2 (bytes_topic_ne_nil t msgId)
        have hv : (Append.topic t msgId).vhBytes = (Append.topic t msgId).bytes.length := rfl
        have hcount := hw.vhLen
        omega
      | data d hd =>
        -- data is taken behind a topic only
        have hvh : mqp.vhLen = 0 := by
          have hcount := hw.vhLen
          have hv : (Append.data d hd).vhBytes = 0 := rfl
          omega
        rw [appendStep_data, if_pos hvh] at hrun
        cases hrun
        exact h.first hvh
    · rw [hend, hmax]
      exact hw.inside

/-- Every call of a sequence does what it is to do if and only if each meets a packet for which it has
one of the good sizes. -/
theorem meets_appendExact_iff (buffer : List UInt8) (h : buffer.length < 2 ^ 32) (offset : Nat)
    (calls : List Append) :
    Meets appendStep AppendExact (mqpBufferAttach buffer offset) calls ↔
      Meets appendStep AppendRegular (mqpBufferAttach buffer offset) calls := by
  have hinit := fits_attach buffer offset h
  constructor
  · exact Meets.imp (fun hf hex => (appendExact_iff hf _).1 hex)
      (fun hf hex hrun => hex.fits hf hrun) hinit
  · exact Meets.imp (fun hf hreg => (appendExact_iff hf _).2 hreg)
      (fun hf hreg hrun => ((appendExact_iff hf _).2 hreg).fits hf hrun) hinit

/-! ## Lists of topics -/

/-- `QFL_VALUE`. -/
def qflValue : UInt8 := 0x80

/-- `MQP_ERR_CONTENT`. -/
def mqpErrContent : Int := -9

/-- A topic of a SUBSCRIBE, or (with `QFL_VALUE`) of an UNSUBSCRIBE; its buffer may be NULL. -/
structure TopicReq where
  topic : Option Utf8String
  qid : UInt8

/-- `is_valid_utf8_string`. -/
def TopicReq.isValid (u : TopicReq) : Bool := u.topic.any fun t => !t.content.isEmpty

/-- `topic->length`. -/
def TopicReq.length (u : TopicReq) : Nat := (u.topic.map fun t => t.content.length).getD 0

def TopicReq.bytes (u : TopicReq) : List UInt8 :=
  match u.topic with
  | none => []
  | some t => prefixed t.content ++ (if u.qid ≠ qflValue then [u.qid] else [])

/-- `buf_utf8_wr_try` at index `buf`: what it returns, and the buffer. -/
def bufUtf8WrTry (buffer : List UInt8) (buf fsz : Nat) (u : TopicReq) :
    Option (Int × List UInt8) :=
  -- the sum is the condition of the `? 0 : 1` behind it
  if fsz < (if u.length + 2 + (if u.qid = qflValue then 1 else 0) ≠ 0 then 0 else 1) then
    some (mqpErrPktLen, buffer)
  else if !u.isValid then some (mqpErrContent, buffer)
  else (storeBytes buffer buf u.bytes).map fun buffer => ((u.bytes.length : Int), buffer)

/-- The loop of `utf8_array_send`: an error, or the buffer and the end of what was written. -/
def utf8ArrayLoop (fin : Nat) : List TopicReq → List UInt8 → Nat →
    Option (Except Int (List UInt8 × Nat))
  | [], buffer, buf => some (.ok (buffer, buf))
  | u :: us, buffer, buf =>
    match bufUtf8WrTry buffer buf (((fin : Int) - buf) % 2 ^ 32).toNat u with
    | none => none
    | some (rv, buffer) =>
      if rv < 0 then some (.error rv) else utf8ArrayLoop fin us buffer (buf + rv.toNat)

/-- `tail_incorp_msg_id`, with the next identifier: the number of bytes, and the packet. -/
def tailIncorpMsgId (mqp : MqttPacket) (msgId : UInt16) : Option (Nat × MqttPacket) :=
  if mqp.msgId = 0 then
    (storeBytes mqp.buffer (mqp.offset + mqp.vhLen) (be16 msgId.toNat)).map fun buffer =>
      (2, { mqp with msgId := msgId, vhLen := (mqp.vhLen + 2) % 2 ^ 16, buffer := buffer })
  else some (0, mqp)

/-- `utf8_array_send` with a packet it has allocated, up to `_msg_dispatch`: an error, after which it
has freed the packet, or the packet to dispatch. -/
def utf8ArrayWrite (mqp : MqttPacket) (msgId : UInt16) (us : List TopicReq) :
    Option (Except Int MqttPacket) :=
  let fin := mqp.vhAt + mqp.freebufLen
  if i32 mqp.freebufLen < 2 then some (.error mqpErrPktLen)
  else
    match tailIncorpMsgId mqp msgId with
    | none => none
    | some (n, mqp') =>
      let ref := mqp.vhAt + n
      match utf8ArrayLoop fin us mqp'.buffer ref with
      | none => none
      | some (.error rv) => some (.error rv)
      | some (.ok (buffer, buf)) => some (.ok { mqp' with plLen := buf - ref, buffer := buffer })

def WrTryExact (buffer : List UInt8) (buf fsz : Nat) (u : TopicReq) : Prop :=
  ∃ rv buffer', bufUtf8WrTry buffer buf fsz u = some (rv, buffer') ∧
    ((rv < 0 ∧ buffer' = buffer) ∨
      (rv = u.bytes.length ∧ u.bytes.length ≤ fsz ∧ buffer' = overwrite buffer buf u.bytes))

def topicBytes (us : List TopicReq) : List UInt8 :=
  ((us.takeWhile TopicReq.isValid).map TopicReq.bytes).flatten

/-- The identifier and the topics are written behind one another, inside the buffer, and are counted;
or an error is reported, and there is no packet any more. -/
def ArrayExact (mqp : MqttPacket) (msgId : UInt16) (us : List TopicReq) : Prop :=
  ∃ r, utf8ArrayWrite mqp msgId us = some r ∧
    match r with
    | .error rv => rv < 0
    | .ok mqp' =>
      mqp.endAt + (2 + (topicBytes us).length) ≤ mqp.maxlen ∧
        mqp'.buffer = overwrite mqp.buffer mqp.endAt (be16 msgId.toNat ++ topicBytes us) ∧
        mqp'.offset = mqp.offset ∧ mqp'.fhLen = mqp.fhLen ∧ mqp'.msgId = msgId ∧
        mqp'.vhLen = 2 ∧ mqp'.plLen = (topicBytes us).length

def ArrayRegular (mqp : MqttPacket) (us : List TopicReq) : Prop :=
  2 ≤ i32 mqp.freebufLen → mqp.endAt + (2 + (topicBytes us).length) ≤ mqp.maxlen

theorem bufUtf8WrTry_eq (buffer : List UInt8) (buf fsz : Nat) (u : TopicReq) :
    bufUtf8WrTry buffer buf fsz u =
      if u.isValid then
        (storeBytes buffer buf u.bytes).map fun buffer => ((u.bytes.length : Int), buffer)
      else some (mqpErrContent, buffer) := by
  have hsum : u.length + 2 + (if u.qid = qflValue then 1 else 0) ≠ 0 := by omega
  unfold bufUtf8WrTry
  rw [if_pos hsum, if_neg (Nat.not_lt_zero fsz)]
  cases u.isValid <;> rfl

theorem TopicReq.bytes_ne_nil {u : TopicReq} (h : u.isValid = true) : u.bytes ≠ [] := by
  obtain ⟨t, q⟩ := u
  cases t with
  | none => cases h
  | some t =>
    unfold TopicReq.bytes prefixed be16
    exact List.cons_ne_nil _ _

/-- `buf_utf8_wr_try` is right for a topic that has room among the bytes that are free. -/
theorem wrTryExact_iff {buffer : List UInt8} {buf fsz : Nat} (h : buf + fsz ≤ buffer.length)
    (u : TopicReq) :
    WrTryExact buffer buf fsz u ↔ (u.isValid → u.bytes.length ≤ fsz) := by
  unfold WrTryExact
  rw [bufUtf8WrTry_eq]
  cases hv : u.isValid with
  | false =>
    rw [if_neg Bool.false_ne_true]
    exact iff_of_true ⟨_, _, rfl, .inl ⟨by decide, rfl⟩⟩ nofun
  | true =>
    rw [if_pos rfl]
    constructor
    · rintro ⟨rv, buffer', hrun, hres⟩ -
      obtain ⟨buffer'', -, heq⟩ := Option.map_eq_some_iff.1 hrun
      obtain ⟨rfl, -⟩ := Prod.mk.inj heq
      rcases hres with ⟨hneg, -⟩ | ⟨-, hle, -⟩
      · omega
      · exact hle
    · intro hle
      have hfit := hle rfl
      rw [storeBytes_fits (by omega)]
      exact ⟨_, _, rfl, .inr ⟨rfl, hfit, rfl⟩⟩

theorem topicBytes_cons {u : TopicReq} (h : u.isValid = true) (us : List TopicReq) :
    topicBytes (u :: us) = u.bytes ++ topicBytes us := by
  simp [topicBytes, h]

/-- The loop, where the valid topics have room: it reports the topic that is not valid, or ends behind
the last one. -/
theorem utf8ArrayLoop_fits (fin : Nat) {us : List TopicReq} {buffer : List UInt8} {buf : Nat}
    (h : buf + (topicBytes us).length ≤ buffer.length) :
    utf8ArrayLoop fin us buffer buf = some (.error mqpErrContent) ∨
      utf8ArrayLoop fin us buffer buf =
        some (.ok (overwrite buffer buf (topicBytes us), buf + (topicBytes us).length)) := by
  induction us generalizing buffer buf with
  | nil =>
    right
    show some (Except.ok (buffer, buf)) = some (.ok (overwrite buffer buf [], buf + 0))
    rw [overwrite_nil, Nat.add_zero]
  | cons u us ih =>
    unfold utf8ArrayLoop
    rw [bufUtf8WrTry_eq]
    cases hv : u.isValid with
    | false =>
      left
      rw [if_neg Bool.false_ne_true]
      rfl
    | true =>
      rw [topicBytes_cons hv, List.length_append] at h ⊢
      have hfit : buf + u.bytes.length ≤ buffer.length := by omega
      rw [if_pos rfl, storeBytes_fits hfit]
      dsimp only [Option.map_some]
      rw [if_neg (by omega), Int.toNat_natCast]
      have hroom : buf + u.bytes.length + (topicBytes us).length ≤
          (overwrite buffer buf u.bytes).length := by
        rw [length_overwrite hfit]
        omega
      have hnext := ih hroom
      rw [overwrite_overwrite (by omega), Nat.add_assoc] at hnext
      exact hnext

theorem utf8ArrayLoop_out (fin : Nat) {us : List TopicReq} {buffer : List UInt8} {buf : Nat}
    (hbuf : buf ≤ buffer.length) (h : buffer.length < buf + (topicBytes us).length) :
    utf8ArrayLoop fin us buffer buf = none := by
  induction us generalizing buffer buf with
  | nil =>
    have hnil : (topicBytes []).length = 0 := rfl
    omega
  | cons u us ih =>
    unfold utf8ArrayLoop
    rw [bufUtf8WrTry_eq]
    cases hv : u.isValid with
    | false =>
      have hnil : topicBytes (u :: us) = [] := by simp [topicBytes, hv]
      rw [hnil, List.length_nil] at h
      omega
    | true =>
      rw [topicBytes_cons hv, List.length_append] at h
      rw [if_pos rfl]
      by_cases hfit : buf + u.bytes.length ≤ buffer.length
      · have hlen : (overwrite buffer buf u.bytes).length = buffer.length := length_overwrite hfit
        rw [storeBytes_fits hfit]
        dsimp only [Option.map_some]
        rw [if_neg (by omega), Int.toNat_natCast]
        exact ih (by omega) (by omega)
      · rw [storeBytes_out (Nat.not_le.1 hfit) (TopicReq.bytes_ne_nil hv)]
        rfl

theorem room_of_i32 {mqp : MqttPacket} (hmax : mqp.maxlen < 2 ^ 32) (hend : mqp.endAt < 2 ^ 31)
    (h : 2 ≤ i32 mqp.freebufLen) : mqp.endAt + 2 ≤ mqp.maxlen := by
  unfold i32 MqttPacket.freebufLen at h
  split at h <;> omega

/-- `utf8_array_send` builds the right packet if and only if there is room for the topics that are
valid, or not even for the identifier. -/
theorem arrayExact_iff (buffer : List UInt8) (h : buffer.length < 2 ^ 32) (offset : UInt8)
    (msgId : UInt16) (us : List TopicReq) :
    ArrayExact (mqpBufferAttach buffer offset.toNat) msgId us ↔
      ArrayRegular (mqpBufferAttach buffer offset.toNat) us := by
  have hoff := offset.toNat_lt
  have hend : (mqpBufferAttach buffer offset.toNat).endAt = offset.toNat := rfl
  have hvh : (mqpBufferAttach buffer offset.toNat).vhAt = offset.toNat := rfl
  have hmax : (mqpBufferAttach buffer offset.toNat).maxlen = buffer.length := rfl
  unfold ArrayExact ArrayRegular utf8ArrayWrite
  by_cases hfree : i32 (mqpBufferAttach buffer offset.toNat).freebufLen < 2
  · simp only [if_pos hfree]
    refine iff_of_true ⟨.error mqpErrPktLen, rfl, ?_⟩ fun h2 => by omega
    show mqpErrPktLen < 0
    decide
  · have hroom := @room_of_i32 (mqpBufferAttach buffer offset.toNat) h (by omega)
      (Int.not_lt.1 hfree)
    rw [hend, hmax] at hroom
    have hid : offset.toNat + (be16 msgId.toNat).length ≤ buffer.length := hroom
    have htail : tailIncorpMsgId (mqpBufferAttach buffer offset.toNat) msgId =
        some (2, { mqpBufferAttach buffer offset.toNat with
          msgId := msgId
          vhLen := 2
          buffer := overwrite buffer offset.toNat (be16 msgId.toNat) }) := by
      have hnew : (mqpBufferAttach buffer offset.toNat).msgId = 0 := rfl
      have hstore : storeBytes (mqpBufferAttach buffer offset.toNat).buffer
          ((mqpBufferAttach buffer offset.toNat).offset +
            (mqpBufferAttach buffer offset.toNat).vhLen) (be16 msgId.toNat) =
          some (overwrite buffer offset.toNat (be16 msgId.toNat)) := storeBytes_fits hid
      unfold tailIncorpMsgId
      rw [if_pos hnew, hstore]
      rfl
    have hlen : (overwrite buffer offset.toNat (be16 msgId.toNat)).length = buffer.length :=
      length_overwrite hid
    simp only [if_neg hfree, htail, hend, hmax, hvh]
    generalize offset.toNat + (mqpBufferAttach buffer offset.toNat).freebufLen = fin
    constructor
    · rintro ⟨r, hrun, -⟩ -
      by_contra hover
      rw [utf8ArrayLoop_out fin (by omega) (by omega)] at hrun
      cases hrun
    · intro hreg
      have hfit := hreg (by omega)
      have hjoin : overwrite (overwrite buffer offset.toNat (be16 msgId.toNat)) (offset.toNat + 2)
          (topicBytes us) = overwrite buffer offset.toNat (be16 msgId.toNat ++ topicBytes us) :=
        overwrite_overwrite (by omega) (topicBytes us)
      have hin : offset.toNat + 2 + (topicBytes us).length ≤
          (overwrite buffer offset.toNat (be16 msgId.toNat)).length := by omega
      rcases utf8ArrayLoop_fits fin hin with hloop | hloop
      · rw [hloop]
        refine ⟨.error mqpErrContent, rfl, ?_⟩
        show mqpErrContent < 0
        decide
      · rw [hloop, hjoin]
        refine ⟨_, rfl, hfit, rfl, rfl, rfl, rfl, rfl, ?_⟩
        show offset.toNat + 2 + (topicBytes us).length - (offset.toNat + 2) = _
        omega

/-! ## All builders -/

/-- Exactly when the builders keep to the buffer: for any sequence of calls of `mqp_pub_append_topic`
and `mqp_pub_append_data` on any packet, for a topic, and for a list of topics. -/
theorem builders_exact_iff (buffer : List UInt8) :
    (buffer.length < 2 ^ 32 → ∀ (offset : Nat) (calls : List Append),
      (Meets appendStep AppendExact (mqpBufferAttach buffer offset) calls ↔
        Meets appendStep AppendRegular (mqpBufferAttach buffer offset) calls)) ∧
    (∀ (buf fsz : Nat) (u : TopicReq), buf + fsz ≤ buffer.length →
      (WrTryExact buffer buf fsz u ↔ (u.isValid → u.bytes.length ≤ fsz))) ∧
    (buffer.length < 2 ^ 32 → ∀ (offset : UInt8) (msgId : UInt16) (us : List TopicReq),
      (ArrayExact (mqpBufferAttach buffer offset.toNat) msgId us ↔
        ArrayRegular (mqpBufferAttach buffer offset.toNat) us)) :=
  ⟨fun h offset calls => meets_appendExact_iff buffer h offset calls,
    fun _ _ u h => wrTryExact_iff h u,
    fun h offset msgId us => arrayExact_iff buffer h offset msgId us⟩

def topicAbc : Utf8String := ⟨[0x61, 0x62, 0x63], by decide⟩

/-- A packet of 16 bytes, with 11 of them behind the room for the fixed header, takes the topic. -/
theorem builders_exact_iff_sixteen :
    Meets appendStep AppendExact (mqpBufferAttach (List.replicate 16 0) 5) [.topic topicAbc 0] ∧
    WrTryExact (List.replicate 16 0) 5 11 ⟨some topicAbc, 1⟩ ∧
    ArrayExact (mqpBufferAttach (List.replicate 16 0) (5 : UInt8).toNat) 1 [⟨some topicAbc, 1⟩] := by
  refine ⟨((builders_exact_iff _).1 (by decide) 5 _).2 ⟨fun _ _ => ⟨by decide, by decide⟩, ?_⟩,
    ((builders_exact_iff _).2.1 5 11 _ (by decide)).2 fun _ => by decide,
    ((builders_exact_iff _).2.2 (by decide) 5 1 _).2 fun _ => by decide⟩
  split
  · trivial
  · trivial

theorem topicAbc_overruns :
    appendStep (mqpBufferAttach (List.replicate 8 0) 5) (.topic topicAbc 0) = none := by
  decide +kernel

theorem builders_not_exact :
    ¬ ∀ (buffer : List UInt8) (offset : Nat) (calls : List Append), buffer.length < 2 ^ 32 →
      Meets appendStep AppendExact (mqpBufferAttach buffer offset) calls := by
  intro hall
  obtain ⟨⟨mqp', rv, hrun, -⟩, -⟩ :=
    hall (List.replicate 8 0) 5 [.topic topicAbc 0] (by decide)
  rw [topicAbc_overruns] at hrun
  cases hrun

end SimpleLink.Mqtt
