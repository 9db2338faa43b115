import SimpleLink.Client.TxStream
import SimpleLink.Server.ClientMgmt

/-!
# What a send returns (`mqtt_client.c`)

The calls of the client library that send a PUBLISH, a SUBSCRIBE or an UNSUBSCRIBE. They build a
packet, or are given one, and end in `_msg_dispatch`. `SendExact` is what the result of a call is to
say: a call that hands nothing to the network reports an error and has nothing wait for an
acknowledgement, and one that reports no error has handed its packet over and, above QoS0, enlisted
it. `_msg_dispatch` returns the identifier of a QoS0 packet whatever became of it
(`sendExact_iff`).
-/

namespace SimpleLink.Client.Send

open SimpleLink.Lib SimpleLink.Mqtt
open SimpleLink.Server (MqttQos)

/-! ## Dispatch -/

def qosVal : MqttQos → UInt8
  | .qos0 => 0
  | .qos1 => 1
  | .qos2 => 2

/-- `MAKE_FH_FLAGS`. -/
def makeFhFlags (dup : Bool) (qos : MqttQos) (retain : Bool) : UInt8 :=
  (dup.toUInt8 <<< 3 ||| qosVal qos <<< 1 ||| retain.toUInt8) &&& 0xF

/-- `_msg_dispatch`. -/
def msgDispatch (s : Lib) (i : Nat) (qos : MqttQos) (retain : Bool) (net : Net) :
    Option (Lib × Int) :=
  let msgId := (s.mqps i).pkt.msgId
  match mqpPrepFh (s.mqps i).pkt (makeFhFlags false qos retain) with
  | none => none
  | some (_, pkt) =>
    let s := s.setPkt i pkt
    let s := if qos ≠ .qos0 then addRef s i else s
    let r := clCtxSeg1Send s (.mqp i) false net
    if r.2 ≤ 0 ∧ qos ≠ .qos0 then some (mqpFree r.1 i, r.2)
    else
      let s :=
        if qos ≠ .qos0 then r.1.setCtx { r.1.ctx with ack1Wl := r.1.ctx.ack1Wl ++ [i] } else r.1
      some (s, msgId.toNat)

/-! ## The packets -/

/-- What a call has before it dispatches: a packet, or the error with which it ends. -/
abbrev Prepared := Option (Except (Lib × Int) (Lib × Nat))

/-- `len_err_free_mqp`. -/
def lenErrFreeMqp (s : Lib) (i : Nat) : Lib × Int := (mqpFree s i, mqpErrPktLen)

/-- `assign_new_msg_id`. -/
def assignNewMsgId (s : Lib) : Lib × UInt16 :=
  ({ s with msgId := s.msgId + 2 }, s.msgId + 2)

/-- `mqtt_client_pub_msg_send` up to `_msg_dispatch`; the topic and its buffer may be NULL, and so may
the data, for a length that is not 0. -/
def pubMsg (s : Lib) (topic : Option (Option Utf8String)) (data : Option (List UInt8))
    (qos : MqttQos) : Prepared :=
  match topic, data with
  | none, _ => some (.error (s, mqpErrFnparam))
  | _, none => some (.error (s, mqpErrFnparam))
  | some none, some _ => some (.error (s, mqpErrContent))
  | some (some topic), some data =>
    if topic.content = [] then some (.error (s, mqpErrContent))
    else
      match mqpClientSendAlloc s 0x03 with
      | none => some (.error (s, mqpErrPktAvl))
      | some (i, s) =>
        let r := if qos ≠ .qos0 then assignNewMsgId s else (s, 0)
        match mqpPubAppendTopic (r.1.mqps i).pkt topic r.2 with
        | none => none
        | some (rv, pkt) =>
          let s := r.1.setPkt i pkt
          if rv < 0 then some (.error (lenErrFreeMqp s i))
          else if data = [] then some (.ok (s, i))
          else
            match mqpPubAppendData pkt data with
            | none => none
            | some (rv, pkt) =>
              let s := s.setPkt i pkt
              some (if rv < 0 then .error (lenErrFreeMqp s i) else .ok (s, i))

/-- `utf8_array_send` up to `_msg_dispatch`; the array may be NULL. -/
def utf8ArrayMsg (s : Lib) (msgType : UInt8) (topics : Option (List TopicReq)) : Prepared :=
  match topics with
  | none => some (.error (s, mqpErrFnparam))
  | some [] => some (.error (s, mqpErrFnparam))
  | some us =>
    match mqpClientSendAlloc s msgType with
    | none => some (.error (s, mqpErrPktAvl))
    | some (i, s) =>
      -- the identifier is taken when there is room for it
      let r := if i32 (s.mqps i).pkt.freebufLen < 2 then (s, 0) else assignNewMsgId s
      match utf8ArrayWrite (r.1.mqps i).pkt r.2 us with
      | none => none
      | some (.error rv) => some (.error (mqpFree r.1 i, rv))
      | some (.ok pkt) => some (.ok (r.1.setPkt i pkt, i))

/-- `msg_dispatch_no_free` up to `_msg_dispatch`. -/
def msgNoFree (s : Lib) : Option Nat → Prepared
  | none => some (.error (s, mqpErrFnparam))
  | some i => some (.ok (addRef s i, i))

/-! ## The calls -/

def dispatchPrepared (p : Prepared) (qos : MqttQos) (retain : Bool) (net : Net) :
    Option (Lib × Int) :=
  match p with
  | none => none
  | some (.error r) => some r
  | some (.ok (s, i)) => msgDispatch s i qos retain net

/-- `mqtt_client_pub_msg_send`. -/
def mqttClientPubMsgSend (s : Lib) (topic : Option (Option Utf8String))
    (data : Option (List UInt8)) (qos : MqttQos) (retain : Bool) (net : Net) :
    Option (Lib × Int) :=
  dispatchPrepared (pubMsg s topic data qos) qos retain net

/-- `mqtt_client_pub_dispatch`. -/
def mqttClientPubDispatch (s : Lib) (mqp : Option Nat) (qos : MqttQos) (retain : Bool) (net : Net) :
    Option (Lib × Int) :=
  dispatchPrepared (msgNoFree s mqp) qos retain net

/-- `mqtt_sub_msg_send`. -/
def mqttSubMsgSend (s : Lib) (topics : Option (List TopicReq)) (net : Net) : Option (Lib × Int) :=
  dispatchPrepared (utf8ArrayMsg s 0x08 topics) .qos1 false net

/-- `mqtt_sub_dispatch`. -/
def mqttSubDispatch (s : Lib) (mqp : Option Nat) (net : Net) : Option (Lib × Int) :=
  dispatchPrepared (msgNoFree s mqp) .qos1 false net

/-- `mqtt_unsub_msg_send`; its topics have no QoS. -/
def mqttUnsubMsgSend (s : Lib) (topics : Option (List (Option Utf8String))) (net : Net) :
    Option (Lib × Int) :=
  dispatchPrepared (utf8ArrayMsg s 0x0A (topics.map fun us => us.map (⟨·, qflValue⟩))) .qos1 false
    net

/-- `mqtt_unsub_dispatch`. -/
def mqttUnsubDispatch (s : Lib) (mqp : Option Nat) (net : Net) : Option (Lib × Int) :=
  dispatchPrepared (msgNoFree s mqp) .qos1 false net

/-- A call that sends a message. -/
inductive SendCall where
  | pubMsgSend (topic : Option (Option Utf8String)) (data : Option (List UInt8)) (qos : MqttQos)
      (retain : Bool)
  | pubDispatch (mqp : Option Nat) (qos : MqttQos) (retain : Bool)
  | subMsgSend (topics : Option (List TopicReq))
  | subDispatch (mqp : Option Nat)
  | unsubMsgSend (topics : Option (List (Option Utf8String)))
  | unsubDispatch (mqp : Option Nat)

def SendCall.run (s : Lib) (net : Net) : SendCall → Option (Lib × Int)
  | .pubMsgSend topic data qos retain => mqttClientPubMsgSend s topic data qos retain net
  | .pubDispatch mqp qos retain => mqttClientPubDispatch s mqp qos retain net
  | .subMsgSend topics => mqttSubMsgSend s topics net
  | .subDispatch mqp => mqttSubDispatch s mqp net
  | .unsubMsgSend topics => mqttUnsubMsgSend s topics net
  | .unsubDispatch mqp => mqttUnsubDispatch s mqp net

def SendCall.qos : SendCall → MqttQos
  | .pubMsgSend _ _ qos _ => qos
  | .pubDispatch _ qos _ => qos
  | _ => .qos1

def SendCall.retain : SendCall → Bool
  | .pubMsgSend _ _ _ retain => retain
  | .pubDispatch _ _ retain => retain
  | _ => false

def SendCall.prepared (s : Lib) : SendCall → Prepared
  | .pubMsgSend topic data qos _ => pubMsg s topic data qos
  | .pubDispatch mqp _ _ => msgNoFree s mqp
  | .subMsgSend topics => utf8ArrayMsg s 0x08 topics
  | .subDispatch mqp => msgNoFree s mqp
  | .unsubMsgSend topics => utf8ArrayMsg s 0x0A (topics.map fun us => us.map (⟨·, qflValue⟩))
  | .unsubDispatch mqp => msgNoFree s mqp

theorem SendCall.run_eq (s : Lib) (net : Net) (c : SendCall) :
    c.run s net = dispatchPrepared (c.prepared s) c.qos c.retain net := by
  cases c <;> rfl

/-! ## What becomes of a message -/

/-- A message can be sent now: the context is connected, nothing is under way, and the network takes
something. -/
def Clear (s : Lib) (net : Net) : Prop :=
  s.ctx.isConnected = true ∧ s.ctx.txPart.bufSz = 0 ∧ s.ctx.net ≠ -1 ∧ 0 < net.takes

instance (s : Lib) (net : Net) : Decidable (Clear s net) :=
  inferInstanceAs (Decidable (_ ∧ _ ∧ _ ∧ _))

/-- The network took bytes of the message, and what is left of it is in the slot. -/
structure Taken (s s' : Lib) (bytes : List UInt8) : Prop where
  sent : ∃ bs, bs ≠ [] ∧ bs <+: bytes ∧
    s'.log = s.log ++ [.accepted bytes, .sent s.ctx.net bs] ∧ s'.txBuf = bytes.drop bs.length

/-- The network took nothing, and nothing is enlisted. -/
structure Untaken (s s' : Lib) : Prop where
  log : ∃ l, s'.log = s.log ++ l ∧ ∀ n bs, .sent n bs ∉ l
  ack1Wl : s'.ctx.ack1Wl.Sublist s.ctx.ack1Wl

theorem Untaken.same {s s' : Lib} (hlog : s'.log = s.log)
    (hwl : s'.ctx.ack1Wl.Sublist s.ctx.ack1Wl) : Untaken s s' :=
  ⟨⟨[], by rw [hlog, List.append_nil], fun _ _ => List.not_mem_nil⟩, hwl⟩

theorem Untaken.refl (s : Lib) : Untaken s s := .same rfl (.refl _)

theorem Untaken.trans {s s' s'' : Lib} (h : Untaken s s') (h' : Untaken s' s'') :
    Untaken s s'' := by
  obtain ⟨l, hlog, hl⟩ := h.log
  obtain ⟨l', hlog', hl'⟩ := h'.log
  refine ⟨⟨l ++ l', ?_, fun n bs hm => ?_⟩, h'.ack1Wl.trans h.ack1Wl⟩
  · rw [hlog', hlog, List.append_assoc]
  · rcases List.mem_append.1 hm with hm | hm
    · exact hl n bs hm
    · exact hl' n bs hm

theorem Untaken.not_taken {s s' : Lib} (h : Untaken s s') (bytes : List UInt8) :
    ¬ Taken s s' bytes := by
  intro ht
  obtain ⟨l, hlog, hl⟩ := h.log
  obtain ⟨bs, -, -, hlog', -⟩ := ht.sent
  obtain rfl := List.append_cancel_left (hlog.symm.trans hlog')
  exact hl s.ctx.net bs (by simp)

theorem ack1Wl_session311fix (s : Lib) :
    (session311fix s).ctx.ack1Wl.Sublist s.ctx.ack1Wl := by
  have hfold : ∀ (l wl : List Nat), (l.foldl (fun wl i =>
      if (s.mqps i).pkt.msgType ≠ 0x03 then ackWlistRemove s wl (s.mqps i).pkt.msgId else wl)
      wl).Sublist wl := by
    intro l
    induction l with
    | nil => exact fun wl => .refl wl
    | cons i l ih =>
      intro wl
      refine (ih _).trans ?_
      dsimp only
      split
      · exact List.eraseP_sublist
      · exact .refl wl
  exact hfold s.ctx.ack1Wl s.ctx.ack1Wl

theorem untaken_doNetClose (s : Lib) : Untaken s (doNetClose s) := by
  by_cases hnet : s.ctx.net = -1
  · have hsame : doNetClose s = s := if_pos hnet
    rw [hsame]
    exact .refl s
  · obtain ⟨s₁, hsession, he⟩ := doNetClose_split (P := Untaken s) hnet
      (.same (sameBytes_foldl s.ctx.ack1Wl s).log (List.nil_sublist _))
      (.same rfl (ack1Wl_session311fix s)) (.refl s)
    rw [he]
    refine hsession.trans ⟨⟨[.closed s.ctx.net], ?_, fun n bs hm => ?_⟩, ?_⟩
    · show (txPartReset s₁).log ++ _ = _
      rw [log_txPartReset]
    · cases List.mem_singleton.1 hm
    · show (txPartReset s₁).ctx.ack1Wl.Sublist _
      rw [ctx_txPartReset]

theorem untaken_doNetCloseTx (s : Lib) : Untaken s (doNetCloseTx s) := by
  unfold doNetCloseTx
  split
  · exact .same rfl (.refl _)
  · dsimp only
    split
    · exact (untaken_doNetClose s).trans (.same rfl (.refl _))
    · rename_i i _
      have hsame := sameBytes_mqpFree (doNetClose s) i
      refine (untaken_doNetClose s).trans (.same hsame.log ?_)
      show (mqpFree (doNetClose s) i).ctx.ack1Wl.Sublist _
      rw [hsame.ctx]

theorem txBuf_slotSent {s : Lib} {n : Nat} : (slotSent s n).txBuf = s.txBuf.drop n := by
  unfold slotSent
  split
  · exact txBuf_addup s n
  · rename_i hall
    have hnil : (txPartReset s).txBuf = [] := by
      unfold Lib.txBuf TxPart.bufSz
      rw [ctx_txPartReset]
      rfl
    rw [hnil]
    refine (List.drop_eq_nil_of_le ((length_txBuf_le s).trans (Nat.le_of_eq ?_))).symm
    exact (Decidable.not_not.1 hall).symm

theorem log_slotSent (s : Lib) (n : Nat) : (slotSent s n).log = s.log := by
  unfold slotSent
  split
  · rfl
  · exact log_txPartReset s

theorem ack1Wl_slotSent (s : Lib) (n : Nat) : (slotSent s n).ctx.ack1Wl = s.ctx.ack1Wl := by
  unfold slotSent
  split
  · rfl
  · rw [ctx_txPartReset]

theorem pkt_slotSent (s : Lib) (n i : Nat) : ((slotSent s n).mqps i).pkt = (s.mqps i).pkt := by
  unfold slotSent
  split
  · rfl
  · unfold txPartReset
    dsimp only
    split
    · rfl
    · exact (sameBytes_mqpFree s _).pkt i

theorem seg1Send_taken {s : Lib} (hslot : s.ctx.txPart.Ok) {msg : Msg} (hne : s.bytes msg ≠ [])
    {isConnMsg : Bool} (hgate : (isConnMsg ^^ s.ctx.isConnected) = true) {net : Net}
    (hidle : s.ctx.txPart.bufSz = 0) (hnet : s.ctx.net ≠ -1) (htakes : 0 < net.takes) :
    0 < (clCtxSeg1Send s msg isConnMsg net).2 ∧
      Taken s (clCtxSeg1Send s msg isConnMsg net).1 (s.bytes msg) ∧
      (clCtxSeg1Send s msg isConnMsg net).1.ctx.ack1Wl = s.ctx.ack1Wl ∧
      ∀ i, ((clCtxSeg1Send s msg isConnMsg net).1.mqps i).pkt = (s.mqps i).pkt := by
  unfold clCtxSeg1Send
  rw [hgate, if_neg (by decide), if_neg (not_not_intro hidle)]
  have hbuf := txBuf_txPartSetup (s.report (.accepted (s.bytes msg))) msg (hslot.idle hidle).2
  dsimp only
  generalize hs₁ : (s.report (.accepted (s.bytes msg))).setCtx
    { (s.report (.accepted (s.bytes msg))).ctx with
      txPart := txPartSetup (s.report (.accepted (s.bytes msg)))
        (s.report (.accepted (s.bytes msg))).ctx.txPart msg } = s₁ at hbuf ⊢
  have hctx : s₁.ctx.net = s.ctx.net ∧ s₁.ctx.ack1Wl = s.ctx.ack1Wl ∧ s₁.mqps = s.mqps ∧
      s₁.log = s.log ++ [.accepted (s.bytes msg)] := by
    rw [← hs₁]
    exact ⟨rfl, rfl, rfl, rfl⟩
  have hbuf : s₁.txBuf = s.bytes msg := hbuf
  obtain ⟨hnet₁, hwl, hmqps, hlog⟩ := hctx
  have htake : netSend s₁ s₁.txBuf net = (s.bytes msg).take net.takes := by
    unfold netSend
    rw [hnet₁, if_neg hnet, hbuf]
  have hsent : netSend s₁ s₁.txBuf net ≠ [] := by
    rw [htake]
    intro hnil
    rcases List.take_eq_nil_iff.1 hnil with h0 | hnil
    · omega
    · exact hne hnil
  obtain ⟨timeout, heq⟩ := partSend_sent hsent
  rw [heq, htake, ← htake]
  refine ⟨Int.natCast_pos.2 (List.length_pos_of_ne_nil hsent), ⟨_, hsent, ?_, ?_, ?_⟩, ?_, ?_⟩
  · rw [htake]
    exact List.take_prefix ..
  · rw [log_slotSent]
    show s₁.log ++ _ = _
    rw [hlog, hnet₁, List.append_assoc]
    rfl
  · rw [txBuf_slotSent]
    show s₁.txBuf.drop _ = _
    rw [hbuf]
  · rw [ack1Wl_slotSent]
    exact hwl
  · intro i
    rw [pkt_slotSent]
    exact congrArg (fun m => (m i).pkt) hmqps

theorem seg1Send_untaken {s : Lib} (msg : Msg) {net : Net}
    (h : ¬ Clear s net) :
    (clCtxSeg1Send s msg false net).2 < 0 ∧ Untaken s (clCtxSeg1Send s msg false net).1 := by
  unfold clCtxSeg1Send
  split
  · exact ⟨show mqpErrNotconn < 0 by decide, .refl s⟩
  · rename_i hgate
    split
    · exact ⟨show mqpErrBadcall < 0 by decide, .refl s⟩
    · rename_i hidle
      dsimp only
      generalize hs₁ : (s.report (.accepted (s.bytes msg))).setCtx
        { (s.report (.accepted (s.bytes msg))).ctx with
          txPart := txPartSetup (s.report (.accepted (s.bytes msg)))
            (s.report (.accepted (s.bytes msg))).ctx.txPart msg } = s₁
      have haccepted : Untaken s s₁ := by
        rw [← hs₁]
        exact ⟨⟨[.accepted (s.bytes msg)], rfl, fun n bs hm => nomatch List.mem_singleton.1 hm⟩,
          .refl _⟩
      have hnet₁ : s₁.ctx.net = s.ctx.net := by
        rw [← hs₁]
        rfl
      have hsent : netSend s₁ s₁.txBuf net = [] := by
        unfold netSend
        rw [hnet₁]
        split
        · rfl
        · rename_i hnet
          have htakes : net.takes = 0 := by
            refine Nat.eq_zero_of_not_pos fun htakes => h ⟨?_, Decidable.not_not.1 hidle, hnet, htakes⟩
            rw [Bool.false_xor] at hgate
            exact Bool.of_not_eq_false hgate
          rw [htakes, List.take_zero]
      rw [partSend_refused hsent]
      exact ⟨show mqpErrNetwork < 0 by decide, haccepted.trans (untaken_doNetCloseTx s₁)⟩

/-! ## Dispatch -/

theorem handed_mqpPrepFh {mqp mqp' : MqttPacket} {flags : UInt8} {n : Nat}
    (h : mqpPrepFh mqp flags = some (n, mqp')) :
    mqp'.handed ≠ [] ∧ mqp'.msgId = mqp.msgId := by
  unfold mqpPrepFh at h
  split at h
  · cases h
  · rename_i val _
    split at h
    · cases h
    · dsimp only at h
      split at h
      · cases h
      · rename_i buffer _
        obtain ⟨buffer', hstore, heq⟩ := Option.map_eq_some_iff.1 h
        obtain ⟨-, rfl⟩ := Prod.mk.inj heq
        refine ⟨fun hnil => ?_, rfl⟩
        have hin : mqp.offset - (val.length + 1) < buffer.length := by
          rw [storeBytes] at hstore
          split at hstore
          · assumption
          · cases hstore
        have hlen : buffer'.length = buffer.length :=
          (storeBytes_some hstore (Nat.le_of_lt hin)).2
        rcases List.take_eq_nil_iff.1 hnil with h0 | hnil
        · dsimp only at h0
          omega
        · have hle := List.drop_eq_nil_iff.1 hnil
          dsimp only at hle
          omega

/-- What `_msg_dispatch` hands to `cl_ctx_seg1_send`. -/
def enlisting (s : Lib) (i : Nat) (pkt : MqttPacket) (qos : MqttQos) : Lib :=
  if qos ≠ .qos0 then addRef (s.setPkt i pkt) i else s.setPkt i pkt

theorem ctx_enlisting (s : Lib) (i : Nat) (pkt : MqttPacket) (qos : MqttQos) :
    (enlisting s i pkt qos).ctx = s.ctx := by
  unfold enlisting
  split <;> rfl

theorem log_enlisting (s : Lib) (i : Nat) (pkt : MqttPacket) (qos : MqttQos) :
    (enlisting s i pkt qos).log = s.log := by
  unfold enlisting
  split <;> rfl

theorem pkt_enlisting (s : Lib) (i : Nat) (pkt : MqttPacket) (qos : MqttQos) :
    ((enlisting s i pkt qos).mqps i).pkt = pkt := by
  have hset : (s.setPkt i pkt).mqps i = { s.mqps i with pkt := pkt } := Function.update_self ..
  have hadd : ∀ s' : Lib, (addRef s' i).mqps i = { s'.mqps i with nRefs := (s'.mqps i).nRefs + 1 } :=
    fun _ => Function.update_self ..
  unfold enlisting
  split
  · rw [hadd, hset]
  · rw [hset]

theorem msgDispatch_eq {s : Lib} {i n : Nat} {qos : MqttQos} {retain : Bool} {pkt : MqttPacket}
    (h : mqpPrepFh (s.mqps i).pkt (makeFhFlags false qos retain) = some (n, pkt)) (net : Net) :
    msgDispatch s i qos retain net =
      (let r := clCtxSeg1Send (enlisting s i pkt qos) (.mqp i) false net
      if r.2 ≤ 0 ∧ qos ≠ .qos0 then some (mqpFree r.1 i, r.2)
      else
        some (if qos ≠ .qos0 then r.1.setCtx { r.1.ctx with ack1Wl := r.1.ctx.ack1Wl ++ [i] }
          else r.1, ((s.mqps i).pkt.msgId.toNat : Int))) := by
  unfold msgDispatch
  rw [h]
  rfl

theorem msgDispatch_untaken {s s' : Lib} {i n : Nat} {qos : MqttQos} {retain : Bool} {net : Net}
    {pkt : MqttPacket} {rv : Int}
    (hprep : mqpPrepFh (s.mqps i).pkt (makeFhFlags false qos retain) = some (n, pkt))
    (hclear : ¬ Clear s net) (h : msgDispatch s i qos retain net = some (s', rv)) :
    Untaken s s' ∧ (qos ≠ .qos0 → rv < 0) ∧ (qos = .qos0 → 0 ≤ rv) := by
  have hctx := ctx_enlisting s i pkt qos
  have hclear : ¬ Clear (enlisting s i pkt qos) net := by
    unfold Clear at hclear ⊢
    rwa [hctx]
  have hfirst : Untaken s (enlisting s i pkt qos) :=
    .same (log_enlisting s i pkt qos) (by rw [hctx])
  obtain ⟨hneg, huntaken⟩ := seg1Send_untaken (.mqp i) hclear
  rw [msgDispatch_eq hprep] at h
  dsimp only at h
  generalize clCtxSeg1Send (enlisting s i pkt qos) (.mqp i) false net = r at hneg huntaken h
  by_cases hqos : qos = .qos0
  · rw [if_neg (fun hand => hand.2 hqos), if_neg (not_not_intro hqos)] at h
    cases h
    exact ⟨hfirst.trans huntaken, fun hne => absurd hqos hne, fun _ => Int.natCast_nonneg _⟩
  · rw [if_pos ⟨Int.le_of_lt hneg, hqos⟩] at h
    cases h
    have hfree := sameBytes_mqpFree r.1 i
    refine ⟨(hfirst.trans huntaken).trans (.same hfree.log (by rw [hfree.ctx])), fun _ => hneg, ?_⟩
    exact fun h0 => absurd h0 hqos

theorem msgDispatch_taken {s s' : Lib} {i n : Nat} {qos : MqttQos} {retain : Bool} {net : Net}
    {pkt : MqttPacket} {rv : Int} (hslot : s.ctx.txPart.Ok)
    (hprep : mqpPrepFh (s.mqps i).pkt (makeFhFlags false qos retain) = some (n, pkt))
    (hclear : Clear s net) (h : msgDispatch s i qos retain net = some (s', rv)) :
    Taken s s' (s'.mqps i).pkt.handed ∧ rv = (s'.mqps i).pkt.msgId.toNat ∧
      (qos ≠ .qos0 → s'.ctx.ack1Wl = s.ctx.ack1Wl ++ [i]) ∧ (s'.mqps i).pkt = pkt := by
  have hctx := ctx_enlisting s i pkt qos
  have hpkt := pkt_enlisting s i pkt qos
  obtain ⟨hne, hmsgId⟩ := handed_mqpPrepFh hprep
  obtain ⟨hconn, hidle, hnet, htakes⟩ := hclear
  have hgate : (false ^^ (enlisting s i pkt qos).ctx.isConnected) = true := by
    rw [hctx, hconn]
    rfl
  have hbytes : (enlisting s i pkt qos).bytes (.mqp i) = pkt.handed :=
    congrArg MqttPacket.handed hpkt
  obtain ⟨hpos, htaken, hwl, hsame⟩ := seg1Send_taken (s := enlisting s i pkt qos) (hctx ▸ hslot)
    (hbytes ▸ hne) hgate (hctx ▸ hidle) (hctx ▸ hnet) htakes
  rw [msgDispatch_eq hprep] at h
  dsimp only at h
  rw [hbytes] at htaken
  generalize clCtxSeg1Send (enlisting s i pkt qos) (.mqp i) false net = r at hpos htaken hwl hsame h
  rw [if_neg (fun hand => absurd hpos (Int.not_lt.2 hand.1))] at h
  have hpkt' : (r.1.mqps i).pkt = pkt := (hsame i).trans hpkt
  obtain ⟨bs, hbs, hpre, hlog, hbuf⟩ := htaken.sent
  rw [log_enlisting, hctx] at hlog
  by_cases hqos : qos = .qos0
  · rw [if_neg (not_not_intro hqos)] at h
    cases h
    rw [hpkt', hmsgId]
    exact ⟨⟨bs, hbs, hpre, hlog, hbuf⟩, rfl, fun hne => absurd hqos hne, rfl⟩
  · rw [if_pos hqos] at h
    cases h
    have hpkt'' : ((r.1.setCtx { r.1.ctx with ack1Wl := r.1.ctx.ack1Wl ++ [i] }).mqps i).pkt = pkt :=
      hpkt'
    rw [hpkt'', hmsgId]
    refine ⟨⟨bs, hbs, hpre, hlog, hbuf⟩, rfl, fun _ => ?_, rfl⟩
    show r.1.ctx.ack1Wl ++ [i] = _
    rw [hwl, hctx]

/-! ## The packets of the calls -/

/-- A call that prepares has only worked on packets, and an error that ends it is negative. -/
def PreparedOk (s : Lib) (packet : Option Nat) : Prepared → Prop
  | none => True
  | some (.error (s', rv)) => s'.ctx = s.ctx ∧ s'.log = s.log ∧ rv < 0
  | some (.ok (s', i)) => s'.ctx = s.ctx ∧ s'.log = s.log ∧ packet = some i

theorem utf8ArrayLoop_error {fin : Nat} {us : List TopicReq} {buffer : List UInt8} {buf : Nat}
    {rv : Int} (h : utf8ArrayLoop fin us buffer buf = some (.error rv)) : rv < 0 := by
  induction us generalizing buffer buf with
  | nil => cases h
  | cons u us ih =>
    unfold utf8ArrayLoop at h
    split at h
    · cases h
    · split at h
      · cases h
        assumption
      · exact ih h

theorem utf8ArrayWrite_error {mqp : MqttPacket} {msgId : UInt16} {us : List TopicReq} {rv : Int}
    (h : utf8ArrayWrite mqp msgId us = some (.error rv)) : rv < 0 := by
  unfold utf8ArrayWrite at h
  dsimp only at h
  split at h
  · cases h
    decide
  · split at h
    · cases h
    · split at h
      · cases h
      · rename_i hloop
        cases h
        exact utf8ArrayLoop_error hloop
      · cases h

theorem alloc_cases {s s' : Lib} {msgType : UInt8} {i : Nat}
    (h : mqpClientSendAlloc s msgType = some (i, s')) :
    s'.ctx = s.ctx ∧ s'.log = s.log ∧ s.freeList.head? = some i := by
  unfold mqpClientSendAlloc at h
  split at h
  · cases h
  · rename_i hfree
    cases h
    exact ⟨rfl, rfl, by rw [hfree]; rfl⟩

theorem preparedOk_free {s s' : Lib} (packet : Option Nat) (hctx : s'.ctx = s.ctx)
    (hlog : s'.log = s.log) (i : Nat) {rv : Int} (hrv : rv < 0) :
    PreparedOk s packet (some (.error (mqpFree s' i, rv))) :=
  have hsame := sameBytes_mqpFree s' i
  ⟨hsame.ctx.trans hctx, hsame.log.trans hlog, hrv⟩

theorem preparedOk_lenErr {s s' : Lib} (packet : Option Nat) (hctx : s'.ctx = s.ctx)
    (hlog : s'.log = s.log) (i : Nat) :
    PreparedOk s packet (some (.error (lenErrFreeMqp s' i))) :=
  preparedOk_free packet hctx hlog i (by decide)

theorem preparedOk_pubMsg (s : Lib) (topic : Option (Option Utf8String))
    (data : Option (List UInt8)) (qos : MqttQos) :
    PreparedOk s s.freeList.head? (pubMsg s topic data qos) := by
  unfold pubMsg
  split
  · exact ⟨rfl, rfl, by decide⟩
  · exact ⟨rfl, rfl, by decide⟩
  · exact ⟨rfl, rfl, by decide⟩
  · rename_i topic data
    split
    · exact ⟨rfl, rfl, by decide⟩
    · split
      · exact ⟨rfl, rfl, by decide⟩
      · rename_i i s₁ halloc
        obtain ⟨hctx, hlog, hi⟩ := alloc_cases halloc
        dsimp only
        have hid : (if qos ≠ .qos0 then assignNewMsgId s₁ else (s₁, 0)).1.ctx = s₁.ctx ∧
            (if qos ≠ .qos0 then assignNewMsgId s₁ else (s₁, 0)).1.log = s₁.log := by
          split <;> exact ⟨rfl, rfl⟩
        generalize (if qos ≠ .qos0 then assignNewMsgId s₁ else (s₁, 0)) = r at hid ⊢
        have hctx : r.1.ctx = s.ctx := hid.1.trans hctx
        have hlog : r.1.log = s.log := hid.2.trans hlog
        split
        · trivial
        · split
          · refine preparedOk_lenErr _ ?_ ?_ i
            · exact hctx
            · exact hlog
          · split
            · exact ⟨hctx, hlog, hi⟩
            · split
              · trivial
              · split
                · refine preparedOk_lenErr _ ?_ ?_ i
                  · exact hctx
                  · exact hlog
                · exact ⟨hctx, hlog, hi⟩

theorem preparedOk_utf8ArrayMsg (s : Lib) (msgType : UInt8) (topics : Option (List TopicReq)) :
    PreparedOk s s.freeList.head? (utf8ArrayMsg s msgType topics) := by
  unfold utf8ArrayMsg
  split
  · exact ⟨rfl, rfl, by decide⟩
  · exact ⟨rfl, rfl, by decide⟩
  · split
    · exact ⟨rfl, rfl, by decide⟩
    · rename_i i s₁ halloc
      obtain ⟨hctx, hlog, hi⟩ := alloc_cases halloc
      dsimp only
      have hid : (if i32 (s₁.mqps i).pkt.freebufLen < 2 then (s₁, 0) else assignNewMsgId s₁).1.ctx =
          s₁.ctx ∧ (if i32 (s₁.mqps i).pkt.freebufLen < 2 then (s₁, 0)
            else assignNewMsgId s₁).1.log = s₁.log := by
        split <;> exact ⟨rfl, rfl⟩
      generalize (if i32 (s₁.mqps i).pkt.freebufLen < 2 then (s₁, 0) else assignNewMsgId s₁) = r
        at hid ⊢
      have hctx : r.1.ctx = s.ctx := hid.1.trans hctx
      have hlog : r.1.log = s.log := hid.2.trans hlog
      split
      · trivial
      · rename_i hwrite
        exact preparedOk_free _ hctx hlog i (utf8ArrayWrite_error hwrite)
      · exact ⟨hctx, hlog, hi⟩

theorem preparedOk_msgNoFree (s : Lib) (mqp : Option Nat) :
    PreparedOk s mqp (msgNoFree s mqp) := by
  cases mqp with
  | none => exact ⟨rfl, rfl, by decide⟩
  | some i => exact ⟨rfl, rfl, rfl⟩

/-- The packet that a call sends: its own, or one that it takes from the pool. -/
def SendCall.packet (s : Lib) : SendCall → Option Nat
  | .pubDispatch mqp _ _ => mqp
  | .subDispatch mqp => mqp
  | .unsubDispatch mqp => mqp
  | _ => s.freeList.head?

theorem preparedOk_call (s : Lib) (c : SendCall) : PreparedOk s (c.packet s) (c.prepared s) := by
  cases c with
  | pubMsgSend topic data qos retain => exact preparedOk_pubMsg s topic data qos
  | pubDispatch mqp qos retain => exact preparedOk_msgNoFree s mqp
  | subMsgSend topics => exact preparedOk_utf8ArrayMsg s _ topics
  | subDispatch mqp => exact preparedOk_msgNoFree s mqp
  | unsubMsgSend topics => exact preparedOk_utf8ArrayMsg s _ _
  | unsubDispatch mqp => exact preparedOk_msgNoFree s mqp

/-! ## Results -/

/-- What a call is to return: without a packet that was handed to the network an error, and nothing is
enlisted; without an error its packet was handed to the network, and has the identifier that is
returned and waits for its acknowledgement if there is to be one. -/
structure ResultExact (s s' : Lib) (rv : Int) (c : SendCall) : Prop where
  failed : (∀ bytes, ¬ Taken s s' bytes) → rv < 0 ∧ s'.ctx.ack1Wl.Sublist s.ctx.ack1Wl
  succeeded : 0 ≤ rv → ∃ i, c.packet s = some i ∧ Taken s s' (s'.mqps i).pkt.handed ∧
    (c.qos ≠ .qos0 → rv = (s'.mqps i).pkt.msgId.toNat ∧ s'.ctx.ack1Wl = s.ctx.ack1Wl ++ [i])

def SendExact (s : Lib) (c : SendCall) (net : Net) : Prop :=
  ∀ s' rv, c.run s net = some (s', rv) → ResultExact s s' rv c

def SendCall.Ready (s : Lib) (c : SendCall) : Prop :=
  ∃ s' i, c.prepared s = some (.ok (s', i)) ∧
    (mqpPrepFh (s'.mqps i).pkt (makeFhFlags false c.qos c.retain)).isSome

/-- A call reports what became of its message, but for a QoS0 message that cannot be sent now. -/
theorem sendExact_iff (s : ClientLib) (c : SendCall) (net : Net) :
    SendExact s.toLib c net ↔ (c.qos = .qos0 → c.Ready s.toLib → Clear s.toLib net) := by
  have hok := preparedOk_call s.toLib c
  have hrun := c.run_eq s.toLib net
  constructor
  · rintro hexact hqos ⟨s₁, i, hprepared, hsome⟩
    obtain ⟨⟨n, pkt⟩, hprep⟩ := Option.isSome_iff_exists.1 hsome
    rw [hprepared] at hok hrun
    obtain ⟨hctx, hlog, -⟩ := hok
    refine Decidable.byContradiction fun hclear => ?_
    have hclear₁ : ¬ Clear s₁ net := by
      unfold Clear at hclear ⊢
      rwa [hctx]
    obtain ⟨⟨s', rv⟩, hres⟩ : ∃ r, msgDispatch s₁ i c.qos c.retain net = some r := by
      rw [msgDispatch_eq hprep]
      dsimp only
      split <;> exact ⟨_, rfl⟩
    obtain ⟨huntaken, -, hrv⟩ := msgDispatch_untaken hprep hclear₁ hres
    obtain ⟨j, -, htaken, -⟩ := (hexact s' rv (hrun.trans hres)).succeeded (hrv hqos)
    have hall : Untaken s.toLib s' := (Untaken.same hlog (by rw [hctx])).trans huntaken
    exact hall.not_taken _ htaken
  · rintro hcond s' rv hres
    rw [hrun] at hres
    cases hprepared : c.prepared s.toLib with
    | none =>
      rw [hprepared] at hres
      cases hres
    | some p =>
      rw [hprepared] at hres hok
      cases p with
      | error r =>
        obtain ⟨hctx, hlog, hneg⟩ := hok
        cases hres
        refine ⟨fun _ => ⟨hneg, by rw [hctx]⟩, fun hpos => ?_⟩
        exact absurd hneg (Int.not_lt.2 hpos)
      | ok r =>
        obtain ⟨s₁, i⟩ := r
        obtain ⟨hctx, hlog, hpacket⟩ := hok
        have hres : msgDispatch s₁ i c.qos c.retain net = some (s', rv) := hres
        have hsome : (mqpPrepFh (s₁.mqps i).pkt (makeFhFlags false c.qos c.retain)).isSome := by
          unfold msgDispatch at hres
          dsimp only at hres
          split at hres
          · cases hres
          · rename_i hprep
            rw [hprep]
            rfl
        obtain ⟨⟨n, pkt⟩, hprep⟩ := Option.isSome_iff_exists.1 hsome
        have hclear : Clear s₁ net ↔ Clear s.toLib net := by
          unfold Clear
          rw [hctx]
        by_cases hnow : Clear s.toLib net
        · obtain ⟨htaken, hrv, hwl, -⟩ :=
            msgDispatch_taken (hctx ▸ s.slot) hprep (hclear.2 hnow) hres
          obtain ⟨bs, hbs, hpre, hlog', hbuf⟩ := htaken.sent
          have htaken : Taken s.toLib s' (s'.mqps i).pkt.handed := by
            refine ⟨bs, hbs, hpre, ?_, hbuf⟩
            rw [hlog', hlog, hctx]
          refine ⟨fun hnone => absurd htaken (hnone _), fun _ => ⟨i, hpacket, htaken, ?_⟩⟩
          exact fun hqos => ⟨hrv, by rw [hwl hqos, hctx]⟩
        · obtain ⟨huntaken, hneg, -⟩ := msgDispatch_untaken hprep (mt hclear.1 hnow) hres
          have hqos : c.qos ≠ .qos0 := fun h0 =>
            hnow (hcond h0 ⟨s₁, i, hprepared, hsome⟩)
          refine ⟨fun _ => ⟨hneg hqos, hctx ▸ huntaken.ack1Wl⟩, fun hpos => ?_⟩
          exact absurd (hneg hqos) (Int.not_lt.2 hpos)

def poolMqp : Mqp := ⟨mqpBufferAttach (List.replicate 16 0) 0, 0, true⟩

/-- Once the CONNACK has come, a QoS0 message is sent. -/
theorem sendExact_connected : ∃ s : ClientLib, s.ctx.isConnected = true ∧
    SendExact s.toLib (.pubMsgSend (some (some ⟨[97], by decide⟩)) (some [98]) .qos0 false)
      ⟨-1, 16, 0, 2⟩ := by
  have hrun : ∃ s, runs txStep
      (created ⟨true, false, false⟩ (fun i => if i = 0 then connectMqp else poolMqp) [1])
        [.connect 0 60 true ⟨5, 14, 0, 0⟩, .connack true ⟨-1, 0, 0, 1⟩] = some (s, [(), ()]) ∧
      Clear s ⟨-1, 16, 0, 2⟩ := ⟨_, rfl, by decide⟩
  obtain ⟨s, hs, hclear⟩ := hrun
  exact ⟨.ofRun hs, hclear.1, (sendExact_iff (.ofRun hs) _ _).2 fun _ _ => hclear⟩

/-- A QoS0 message on a context without a connection: the call returns 0, and nothing was sent. -/
theorem pubMsgSend_not_exact :
    ¬ SendExact (created ⟨true, false, false⟩ (fun _ => poolMqp) [0])
      (.pubMsgSend (some (some ⟨[97], by decide⟩)) (some [98]) .qos0 false) ⟨-1, 16, 0, 0⟩ := by
  intro hexact
  obtain ⟨i, -, htaken, -⟩ := (hexact _ _ rfl).succeeded (by decide)
  obtain ⟨bs, -, -, hlog, -⟩ := htaken.sent
  cases hlog

end SimpleLink.Client.Send
