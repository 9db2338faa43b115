import SimpleLink.Client.ConnectBytes

/-!
# The bytes of a PUBLISH, a SUBSCRIBE and an UNSUBSCRIBE (`mqtt_client.c`)

What `_msg_dispatch` hands to the network for a call that has built its packet: the identifier and the
topics of a list (`utf8ArrayMsg_framed`), and the topic, the identifier and the data of a PUBLISH whose
variable header is no longer than `vh_len` can say (`pubMsg_framed`).
-/

namespace SimpleLink.Client.Send

open SimpleLink.Lib SimpleLink.Mqtt
open SimpleLink.Server (MqttQos)

/-! ## What is sent -/

/-- What `_msg_dispatch` hands over. -/
def sentBy (p : Prepared) (qos : MqttQos) (retain : Bool) : Option (List UInt8) :=
  match p with
  | some (.ok (s, i)) =>
    (mqpPrepFh (s.mqps i).pkt (makeFhFlags false qos retain)).map fun r => r.2.handed
  | _ => none

def SendCall.sent (s : Lib) (c : SendCall) : Option (List UInt8) :=
  sentBy (c.prepared s) c.qos c.retain

/-- What `connect_msg_send` hands over. -/
def connectSent (s : Lib) (c : ConnectCall) : Option (List UInt8) :=
  match mqpClientSendAlloc s 0x01 with
  | none => none
  | some (i, s) =>
    match connectBuild (s.mqps i).pkt s.cfg.protoV31 c.info c.cleanSession c.kaSecs with
    | some (.ok pkt) => some pkt.handed
    | _ => none

/-- The lengths of the buffers have 32 bits, and the identifiers begin behind 0xFFFF and go up by 2. -/
structure NumberedLib extends Lib where
  maxlen : ∀ i, (mqps i).pkt.maxlen < 2 ^ 32
  odd : msgId.toNat % 2 = 1

theorem pkt_alloc {s s' : Lib} {msgType : UInt8} {i : Nat}
    (h : mqpClientSendAlloc s msgType = some (i, s')) :
    (s'.mqps i).pkt = newPacket (s.mqps i).pkt.buffer msgType ∧
      s'.msgId = s.msgId ∧ s'.cfg = s.cfg := by
  unfold mqpClientSendAlloc at h
  split at h
  · cases h
  · cases h
    refine ⟨?_, rfl, rfl⟩
    dsimp only
    rw [Function.update_self]
    rfl

theorem odd_assignNewMsgId {s : Lib} (h : s.msgId.toNat % 2 = 1) :
    (assignNewMsgId s).2.toNat % 2 = 1 := by
  show (s.msgId + 2).toNat % 2 = 1
  rw [UInt16.toNat_add]
  have h2 : (2 : UInt16).toNat = 2 := rfl
  omega

/-! ## Lists of topics -/

def listBytes (us : List TopicReq) : List UInt8 := (us.map TopicReq.bytes).flatten

theorem utf8ArrayLoop_ok {fin : Nat} {us : List TopicReq} {buffer buffer' : List UInt8}
    {buf buf' : Nat} (h : utf8ArrayLoop fin us buffer buf = some (.ok (buffer', buf')))
    (hbuf : buf ≤ buffer.length) :
    (∀ u ∈ us, u.isValid = true) ∧ buf + (listBytes us).length ≤ buffer.length ∧
      buffer' = overwrite buffer buf (listBytes us) ∧ buf' = buf + (listBytes us).length := by
  induction us generalizing buffer buf with
  | nil =>
    cases h
    exact ⟨nofun, hbuf, (overwrite_nil ..).symm, rfl⟩
  | cons u us ih =>
    unfold utf8ArrayLoop at h
    rw [bufUtf8WrTry_eq] at h
    cases hv : u.isValid with
    | false =>
      rw [hv, if_neg Bool.false_ne_true] at h
      cases h
    | true =>
      rw [hv, if_pos rfl] at h
      cases hst : storeBytes buffer buf u.bytes with
      | none =>
        rw [hst] at h
        cases h
      | some buffer₁ =>
        rw [hst] at h
        dsimp only [Option.map_some] at h
        rw [if_neg (by omega), Int.toNat_natCast] at h
        obtain ⟨hfit, rfl⟩ := storeBytes_eq_some hst (TopicReq.bytes_ne_nil hv)
        have hlen := length_overwrite hfit
        obtain ⟨hvalid, hin, hbuffer, hend⟩ := ih h (by omega)
        rw [hlen] at hin
        rw [overwrite_overwrite (by omega)] at hbuffer
        have hcons : listBytes (u :: us) = u.bytes ++ listBytes us := rfl
        rw [hcons, List.length_append]
        exact ⟨List.forall_mem_cons.2 ⟨hv, hvalid⟩, by omega, hbuffer, by omega⟩

theorem utf8ArrayWrite_ok {buffer : List UInt8} {msgType : UInt8} {msgId : UInt16}
    {us : List TopicReq} {mqp : MqttPacket}
    (h : utf8ArrayWrite (newPacket buffer msgType) msgId us = some (.ok mqp)) :
    (∀ u ∈ us, u.isValid = true) ∧
      maxFhLen + (be16 msgId.toNat ++ listBytes us).length ≤ buffer.length ∧
      mqp = holding buffer msgType msgId (be16 msgId.toNat) (listBytes us) := by
  have htail : tailIncorpMsgId (newPacket buffer msgType) msgId =
      (storeBytes buffer maxFhLen (be16 msgId.toNat)).map fun written =>
        (2, { newPacket buffer msgType with msgId := msgId, vhLen := 2, buffer := written }) := rfl
  have hat : (newPacket buffer msgType).vhAt = maxFhLen := rfl
  unfold utf8ArrayWrite at h
  rw [htail, hat] at h
  dsimp only at h
  split at h
  · cases h
  · cases hst : storeBytes buffer maxFhLen (be16 msgId.toNat) with
    | none =>
      rw [hst] at h
      cases h
    | some buffer₁ =>
      rw [hst] at h
      dsimp only [Option.map_some] at h
      obtain ⟨hfit, rfl⟩ := storeBytes_eq_some hst (List.cons_ne_nil _ _)
      rw [length_be16] at hfit
      have hlen : (overwrite buffer maxFhLen (be16 msgId.toNat)).length = buffer.length :=
        length_overwrite hfit
      split at h
      · cases h
      · cases h
      · next buffer₂ buf hloop =>
        obtain rfl := Except.ok.inj (Option.some.inj h)
        obtain ⟨hvalid, hin, rfl, rfl⟩ := utf8ArrayLoop_ok hloop (by omega)
        have hjoin : overwrite (overwrite buffer maxFhLen (be16 msgId.toNat)) (maxFhLen + 2)
            (listBytes us) = overwrite buffer maxFhLen (be16 msgId.toNat ++ listBytes us) :=
          overwrite_overwrite (by omega) (listBytes us)
        rw [hjoin, Nat.add_sub_cancel_left, List.length_append, length_be16]
        exact ⟨hvalid, by omega, rfl⟩

theorem utf8ArrayMsg_framed (s : NumberedLib) {msgType : UInt8} {topics : Option (List TopicReq)}
    {sent : List UInt8} (h : sentBy (utf8ArrayMsg s.toLib msgType topics) .qos1 false = some sent) :
    ∃ us, topics = some us ∧ us ≠ [] ∧ (∀ u ∈ us, u.isValid = true) ∧
      Framed (makeFhByte1 msgType (makeFhFlags false .qos1 false)) sent
        (be16 (s.msgId + 2).toNat ++ listBytes us) := by
  unfold utf8ArrayMsg at h
  split at h
  · cases h
  · cases h
  · next us hne =>
    split at h
    · cases h
    · next i s' halloc =>
      obtain ⟨hpkt, hid, -⟩ := pkt_alloc halloc
      have hmax := s.maxlen i
      dsimp only at h
      by_cases hroom : i32 (s'.mqps i).pkt.freebufLen < 2
      · have herror : utf8ArrayWrite (s'.mqps i).pkt 0 us = some (.error mqpErrPktLen) := by
          unfold utf8ArrayWrite
          exact if_pos hroom
        rw [if_pos hroom, herror] at h
        cases h
      · rw [if_neg hroom] at h
        unfold assignNewMsgId at h
        dsimp only at h
        rw [hpkt, hid] at h
        cases hw : utf8ArrayWrite (newPacket (s.mqps i).pkt.buffer msgType) (s.msgId + 2) us with
        | none =>
          rw [hw] at h
          cases h
        | some r =>
          rw [hw] at h
          cases r with
          | error rv => cases h
          | ok pkt =>
            obtain ⟨hvalid, hin, rfl⟩ := utf8ArrayWrite_ok hw
            obtain ⟨⟨n, mqp⟩, hprep, rfl⟩ := Option.map_eq_some_iff.1 h
            rw [mqps_setPkt] at hprep
            exact ⟨us, rfl, fun hnil => hne (hnil ▸ rfl), hvalid, framed_holding hprep hmax hin⟩

/-! ## PUBLISH -/

theorem appendTopic_ok {buffer : List UInt8} {msgType : UInt8} {t : Utf8String} {msgId : UInt16}
    {rv : Int} {mqp : MqttPacket}
    (h : mqpPubAppendTopic (newPacket buffer msgType) t msgId = some (rv, mqp)) (hrv : ¬ rv < 0)
    (hlt : (Append.topic t msgId).bytes.length < 2 ^ 16) :
    maxFhLen + (Append.topic t msgId).bytes.length ≤ buffer.length ∧
      mqp = holding buffer msgType msgId (Append.topic t msgId).bytes [] := by
  have hstep := appendStep_topic (newPacket buffer msgType) t msgId
  have hnew : (newPacket buffer msgType).vhLen = 0 := rfl
  rw [appendStep, h, Option.map_some, if_neg (not_not_intro hnew)] at hstep
  split at hstep
  · cases hstep
    exact absurd (by decide) hrv
  · obtain ⟨buffer₁, hst, heq⟩ := Option.map_eq_some_iff.1 hstep.symm
    obtain ⟨hfit, rfl⟩ := storeBytes_eq_some hst (bytes_topic_ne_nil t msgId)
    obtain ⟨rfl, -⟩ := Prod.mk.inj heq
    refine ⟨hfit, ?_⟩
    have hid : (if msgId ≠ 0 then msgId else (newPacket buffer msgType).msgId) = msgId := by
      split
      · rfl
      · next h0 => exact (not_not.1 h0).symm
    have hvh : ((newPacket buffer msgType).vhLen + (Append.topic t msgId).bytes.length) % 2 ^ 16 =
        (Append.topic t msgId).bytes.length := by
      rw [hnew, Nat.zero_add]
      exact Nat.mod_eq_of_lt hlt
    rw [hid, hvh]
    unfold holding
    rw [List.append_nil]
    rfl

theorem appendData_ok {buffer vh data : List UInt8} {msgType : UInt8} {msgId : UInt16} {rv : Int}
    {mqp : MqttPacket}
    (h : mqpPubAppendData (holding buffer msgType msgId vh []) data = some (rv, mqp))
    (hrv : ¬ rv < 0) (hmax : buffer.length < 2 ^ 32) (hin : maxFhLen + vh.length ≤ buffer.length)
    (hne : data ≠ []) :
    maxFhLen + (vh ++ data).length ≤ buffer.length ∧
      mqp = holding buffer msgType msgId vh data := by
  have hend : (holding buffer msgType msgId vh []).endAt = maxFhLen + vh.length := rfl
  have hbuf : (holding buffer msgType msgId vh []).buffer = overwrite buffer maxFhLen vh := by
    show overwrite buffer maxFhLen (vh ++ []) = _
    rw [List.append_nil]
  unfold mqpPubAppendData at h
  rw [hend, hbuf] at h
  split at h
  · cases h
    exact absurd (by decide) hrv
  · split at h
    · cases h
      exact absurd (by decide) hrv
    · split at h
      · cases h
      · next buffer₁ hst =>
        obtain ⟨hfit, rfl⟩ := storeBytes_eq_some hst hne
        rw [length_overwrite hin] at hfit
        rw [overwrite_overwrite (by omega)] at h
        have hpl : (0 + data.length) % 2 ^ 32 = data.length := by omega
        cases h
        rw [List.length_append]
        refine ⟨by omega, ?_⟩
        unfold holding
        dsimp only [List.length_nil]
        rw [hpl]

def pubId (s : Lib) (qos : MqttQos) : UInt16 := if qos ≠ .qos0 then s.msgId + 2 else 0

theorem pubMsg_framed (s : NumberedLib) {topic : Option (Option Utf8String)}
    {data : Option (List UInt8)} {qos : MqttQos} {retain : Bool} {sent : List UInt8}
    (h : sentBy (pubMsg s.toLib topic data qos) qos retain = some sent) :
    ∃ t d, topic = some (some t) ∧ data = some d ∧
      ((Append.topic t (pubId s.toLib qos)).bytes.length < 2 ^ 16 →
        Framed (makeFhByte1 0x03 (makeFhFlags false qos retain)) sent
          ((Append.topic t (pubId s.toLib qos)).bytes ++ d)) := by
  unfold pubMsg at h
  split at h
  · cases h
  · cases h
  · cases h
  · next t d =>
    refine ⟨t, d, rfl, rfl, fun hlt => ?_⟩
    split at h
    · cases h
    · split at h
      · cases h
      · next i s' halloc =>
        obtain ⟨hpkt, hid, -⟩ := pkt_alloc halloc
        have hmax := s.maxlen i
        have hr : ((if qos ≠ .qos0 then assignNewMsgId s' else (s', 0)).1.mqps i).pkt =
            newPacket (s.mqps i).pkt.buffer 0x03 ∧
            (if qos ≠ .qos0 then assignNewMsgId s' else (s', 0)).2 = pubId s.toLib qos := by
          unfold pubId assignNewMsgId
          rw [hid]
          split
          · exact ⟨hpkt, rfl⟩
          · exact ⟨hpkt, rfl⟩
        dsimp only at h
        rw [hr.1, hr.2] at h
        split at h
        · cases h
        · next rv mqp happend =>
          split at h
          · cases h
          · next hrv =>
            obtain ⟨hin, rfl⟩ := appendTopic_ok happend hrv hlt
            split at h
            · next hnil =>
              subst hnil
              obtain ⟨⟨n, mqp⟩, hprep, rfl⟩ := Option.map_eq_some_iff.1 h
              rw [mqps_setPkt] at hprep
              have hframed := framed_holding hprep hmax (by rwa [List.append_nil])
              exact hframed
            · next hne =>
              split at h
              · cases h
              · next rv' mqp' hdata =>
                split at h
                · cases h
                · next hrv' =>
                  obtain ⟨hfit, rfl⟩ := appendData_ok hdata hrv' hmax hin hne
                  obtain ⟨⟨n, mqp⟩, hprep, rfl⟩ := Option.map_eq_some_iff.1 h
                  rw [mqps_setPkt] at hprep
                  exact framed_holding hprep hmax hfit

end SimpleLink.Client.Send
