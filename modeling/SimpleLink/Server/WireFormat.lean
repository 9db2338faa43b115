import SimpleLink.Client.MessageBytes
import SimpleLink.Server.ConnectRx

/-!
# Client and server on the wire (`mqtt_client.c`, `server_pkts.c`)

The packets that the client library builds, read with the parsers of the server. Each parser returns
what the client was asked to send, and leaves no byte; but the server keeps half as long again as the
keep-alive of a CONNECT, and takes no more than 16 topics (`wireFormat`).
-/

namespace SimpleLink.Server

open Lib Mqtt Client.Send

/-! ## CONNECT -/

/-- The strings of a registration as the server has them; a string that is not there may be an empty
one. -/
def utf8sOf (r : Registration) : ConnUtf8s where
  clientId := (r.clientId.map Utf8String.content).getD []
  willTop := r.will.map fun w => w.top.content
  willMsg := r.will.map fun w => (w.msg.map Utf8String.content).getD []
  userName := r.user.map fun u => u.name.content
  passWord := (r.user.bind User.passWord).map Utf8String.content

theorem utf8sOf_bytes (r : Registration) : (utf8sOf r).bytes = r.payload := by
  obtain ⟨clientId, will, user⟩ := r
  unfold ConnUtf8s.bytes utf8sOf Registration.payload
  congr 1
  cases will with
  | none =>
    cases user with
    | none => rfl
    | some u =>
      obtain ⟨name, passWord⟩ := u
      cases passWord <;> rfl
  | some w =>
    cases user with
    | none => simp [optBytes]
    | some u =>
      obtain ⟨name, passWord⟩ := u
      cases passWord <;> simp [optBytes]

/-- `CONN_FLAGS_WQID_GET`. -/
def connFlagsWqidGet (connFlags : UInt8) : UInt8 := connFlags >>> 3 &&& 0x3

/-- The flags say what was registered, and which session is asked for. -/
structure FlagsSay (connFlags : UInt8) (r : Registration) (cleanSession : Bool) : Prop where
  clean : (connFlags &&& cleanStartVal != 0) = cleanSession
  will : (connFlags &&& willConfigVal != 0) = r.will.isSome
  willQos : ∀ w ∈ r.will, connFlagsWqidGet connFlags = qosVal w.qos
  willRetain : ∀ w ∈ r.will, (connFlags &&& willRetainVal != 0) = w.retain
  userName : (connFlags &&& userNameOpval != 0) = r.user.isSome
  passWord : (connFlags &&& passWordOpval != 0) = (r.user.bind User.passWord).isSome

theorem flags_bits (qos : MqttQos) (retain clean will user pass : Bool) :
    let connFlags := (if retain then qosVal qos <<< 3 ||| willRetainVal else qosVal qos <<< 3) |||
      ((if clean then 0x02 else 0) ||| (if will then 0x04 else 0) ||| (if user then 0x80 else 0) |||
        (if pass then 0x40 else 0))
    (connFlags &&& cleanStartVal != 0) = clean ∧ (connFlags &&& willConfigVal != 0) = will ∧
      connFlagsWqidGet connFlags = qosVal qos ∧ (connFlags &&& willRetainVal != 0) = retain ∧
      (connFlags &&& userNameOpval != 0) = user ∧ (connFlags &&& passWordOpval != 0) = pass := by
  cases qos <;> revert retain clean will user pass <;> decide

theorem flagsSay (r : Registration) (cleanSession : Bool) :
    FlagsSay (r.connFlags cleanSession) r cleanSession := by
  obtain ⟨clientId, will, user⟩ := r
  cases will with
  | none =>
    obtain ⟨hclean, hwill, -, -, huser, hpass⟩ := flags_bits .qos0 false cleanSession false
      user.isSome (user.bind User.passWord).isSome
    exact ⟨hclean, hwill, nofun, nofun, huser, hpass⟩
  | some w =>
    obtain ⟨hclean, hwill, hqos, hretain, huser, hpass⟩ := flags_bits w.qos w.retain cleanSession true
      user.isSome (user.bind User.passWord).isSome
    exact ⟨hclean, hwill, fun _ hw => Option.some.inj hw ▸ hqos,
      fun _ hw => Option.some.inj hw ▸ hretain, huser, hpass⟩

/-- The server reads the CONNECT that the client was asked for: the flags, the strings up to the last
byte, and a time-out of the keep-alive and half of it, if that has 16 bits. -/
def ConnectAgrees (r : Registration) (cleanSession : Bool) (kaSecs : UInt16) (sent : List UInt8) :
    Prop :=
  ∃ body connFlags timeout buf, Framed 0x10 sent body ∧
    procConnectVhRxAt body = some (.ok (connFlags, timeout, buf)) ∧
    FlagsSay connFlags r cleanSession ∧
    (kaSecs.toNat + kaSecs.toNat / 2 < 2 ^ 16 →
      timeout.toNat = kaSecs.toNat + kaSecs.toNat / 2) ∧
    procConnectPlRxAt body connFlags buf = some (some (utf8sOf r, (body.length : Int)))

theorem fits_map {α : Type} (o : Option α) (f : α → Utf8String) :
    OptFits (o.map fun a => (f a).content) := by
  intro xs hxs
  obtain ⟨a, -, rfl⟩ := Option.mem_map.1 hxs
  exact (f a).length_lt

theorem length_content_lt (o : Option Utf8String) : ((o.map Utf8String.content).getD []).length < 2 ^ 16 := by
  cases o with
  | none => exact Nat.two_pow_pos 16
  | some t => exact t.length_lt

theorem utf8sOf_announced {r : Registration} {connFlags : UInt8} {cleanSession : Bool}
    (h : FlagsSay connFlags r cleanSession) : (utf8sOf r).Announced connFlags where
  clientId := length_content_lt r.clientId
  willTop := ⟨fits_map r.will Will.top, by rw [h.will]; exact Option.isSome_map⟩
  willMsg := by
    refine ⟨fun xs hxs => ?_, by rw [h.will]; exact Option.isSome_map⟩
    obtain ⟨w, -, rfl⟩ := Option.mem_map.1 hxs
    exact length_content_lt w.msg
  userName := ⟨fits_map r.user User.name, by rw [h.userName]; exact Option.isSome_map⟩
  passWord := ⟨fits_map (r.user.bind User.passWord) id, by rw [h.passWord]; exact Option.isSome_map⟩
  both := by
    intro hpass
    unfold utf8sOf at hpass ⊢
    cases hu : r.user with
    | none =>
      rw [hu] at hpass
      cases hpass
    | some u => rfl

theorem CursorAt.atEnd {payload : List UInt8} {buf : Int} (h : CursorAt payload buf []) :
    buf = payload.length := by
  obtain ⟨pre, rfl, rfl⟩ := h
  rw [List.append_nil]

theorem protoBytes_supported (protoV31 : Bool) :
    ∃ name ver, protoBytes protoV31 = prefixed name ++ [ver] ∧ procProtocolInfo name ver = true := by
  cases protoV31 with
  | false => exact ⟨[77, 81, 84, 84], 0x04, rfl, rfl⟩
  | true => exact ⟨[77, 81, 73, 115, 100, 112], 0x03, rfl, rfl⟩

theorem timeout_toNat {kaSecs : UInt16} (h : kaSecs.toNat + kaSecs.toNat / 2 < 2 ^ 16) :
    (kaSecs + kaSecs >>> 1).toNat = kaSecs.toNat + kaSecs.toNat / 2 := by
  have hhalf : (kaSecs >>> 1).toNat = kaSecs.toNat / 2 := by
    rw [UInt16.toNat_shiftRight]
    exact Nat.shiftRight_eq_div_pow kaSecs.toNat 1
  rw [UInt16.toNat_add, hhalf]
  exact Nat.mod_eq_of_lt h

theorem connectAgrees_of_framed {protoV31 cleanSession : Bool} {r : Registration} {kaSecs : UInt16}
    {sent : List UInt8} (h : Framed 0x10 sent (connectBody protoV31 r cleanSession kaSecs)) :
    ConnectAgrees r cleanSession kaSecs sent := by
  obtain ⟨name, ver, hproto, hsupported⟩ := protoBytes_supported protoV31
  have hlen := procProtocolInfo_length hsupported
  have hka : bufRdNbo2B (UInt8.ofNat (kaSecs.toNat / 256)) (UInt8.ofNat kaSecs.toNat) = kaSecs := by
    apply UInt16.toNat_inj.1
    rw [toNat_bufRdNbo2B]
    exact be16Val_be16 kaSecs.toNat_lt
  have hbody : connectBody protoV31 r cleanSession kaSecs =
      prefixed name ++ ver :: r.connFlags cleanSession :: UInt8.ofNat (kaSecs.toNat / 256) ::
        UInt8.ofNat kaSecs.toNat :: r.payload := by
    simp only [connectBody, connectVh, hproto, be16, List.append_assoc, List.cons_append,
      List.nil_append]
  have hsay := flagsSay r cleanSession
  have hvh := @procConnectVhRxAt_name name (ver :: r.connFlags cleanSession ::
    UInt8.ofNat (kaSecs.toNat / 256) :: UInt8.ofNat kaSecs.toNat :: r.payload) hlen
  have hpl := (cursorAt_connectPl name r.payload ver (r.connFlags cleanSession)
    (UInt8.ofNat (kaSecs.toNat / 256)) (UInt8.ofNat kaSecs.toNat)).procConnectPlRx
      (r.connFlags cleanSession)
  have hread : procConnectPlRx (r.connFlags cleanSession) r.payload = some (utf8sOf r, []) := by
    rw [procConnectPlRx_eq_some]
    exact ⟨utf8sOf_announced hsay, by rw [List.append_nil, utf8sOf_bytes]⟩
  rw [← hbody] at hvh hpl
  rw [hread] at hpl
  obtain ⟨buf, hpl, hend⟩ := hpl
  unfold connectVhRest at hvh
  dsimp only at hvh
  rw [hsupported, Bool.not_true, if_neg Bool.false_ne_true, hka] at hvh
  refine ⟨_, _, _, _, h, hvh, hsay, timeout_toNat, ?_⟩
  rw [hpl, hend.atEnd]

/-! ## SUBSCRIBE and UNSUBSCRIBE -/

section Topics

variable {α β : Type} {rd : List UInt8 → Option (α × List UInt8)} {bytes : β → List UInt8} {val : β → α}

theorem rdTopics_flatten {us : List β} (hrd : ∀ u ∈ us, ∀ t, rd (bytes u ++ t) = some (val u, t))
    (hne : ∀ u ∈ us, bytes u ≠ []) (n : Nat) :
    rdTopics rd n (us.map bytes).flatten =
      ((us.take n).map val, ((us.drop n).map bytes).flatten) := by
  induction us generalizing n with
  | nil => cases n <;> rfl
  | cons u us ih =>
    cases n with
    | zero => rfl
    | succ n =>
      obtain ⟨hu, hus⟩ := List.forall_mem_cons.1 hrd
      obtain ⟨hu', hus'⟩ := List.forall_mem_cons.1 hne
      have hfirst : (bytes u ++ (us.map bytes).flatten).isEmpty = false :=
        List.isEmpty_eq_false_iff.2 (List.append_ne_nil_of_left_ne_nil hu' _)
      rw [List.map_cons, List.flatten_cons]
      unfold rdTopics
      rw [hfirst, if_neg Bool.false_ne_true, hu]
      dsimp only
      rw [ih hus hus' n]
      rfl

theorem procTopicsRx_flatten {us : List β} (hrd : ∀ u ∈ us, ∀ t, rd (bytes u ++ t) = some (val u, t))
    (hne : ∀ u ∈ us, bytes u ≠ []) (hus : us ≠ []) (msgId : UInt16) :
    procTopicsRx rd (be16 msgId.toNat ++ (us.map bytes).flatten) =
      if us.length ≤ mqpMaxTopics then some (msgId, us.map val) else none := by
  have hid : mqpProcVhMsgIdRx (be16 msgId.toNat ++ (us.map bytes).flatten) =
      some (msgId, (us.map bytes).flatten) := by
    show some (bufRdNbo2B _ _, _) = some (msgId, _)
    congr 2
    apply UInt16.toNat_inj.1
    rw [toNat_bufRdNbo2B]
    exact be16Val_be16 msgId.toNat_lt
  unfold procTopicsRx
  rw [hid]
  dsimp only
  rw [rdTopics_flatten hrd hne]
  dsimp only
  have hfirst : ((us.take mqpMaxTopics).map val).isEmpty = false := by
    cases us with
    | nil => exact absurd rfl hus
    | cons u us => rfl
  rw [hfirst, Bool.false_or]
  by_cases hle : us.length ≤ mqpMaxTopics
  · rw [if_pos hle, List.drop_of_length_le hle, List.take_of_length_le hle]
    rfl
  · rw [if_neg hle]
    match hdrop : us.drop mqpMaxTopics with
    | [] => exact absurd (List.drop_eq_nil_iff.1 hdrop) hle
    | u :: rest =>
      have hmem : u ∈ us := List.mem_of_mem_drop (hdrop ▸ List.mem_cons_self ..)
      have hleft : (bytes u ++ (rest.map bytes).flatten).isEmpty = false :=
        List.isEmpty_eq_false_iff.2 (List.append_ne_nil_of_left_ne_nil (hne u hmem) _)
      rw [List.map_cons, List.flatten_cons, hleft]
      rfl

end Topics

/-- A topic of `struct utf8_strqos`; the buffer may be NULL. -/
structure Utf8Strqos where
  topic : Option Utf8String
  qosreq : MqttQos

/-- The topic as `utf8_array_send` has it. -/
def Utf8Strqos.req (u : Utf8Strqos) : TopicReq := ⟨u.topic, qosVal u.qosreq⟩

def contentOf (topic : Option Utf8String) : List UInt8 := (topic.map Utf8String.content).getD []

/-- The server reads the identifier and the topics of the list, or refuses a list that is too long. -/
def SubAgrees (us : List Utf8Strqos) (msgId : UInt16) (sent : List UInt8) : Prop :=
  ∃ body, Framed 0x82 sent body ∧
    procSubMsgRxRaw body =
      if us.length ≤ mqpMaxTopics then
        some (msgId, us.map fun u => (contentOf u.topic, qosVal u.qosreq))
      else none

def UnsubAgrees (us : List (Option Utf8String)) (msgId : UInt16) (sent : List UInt8) : Prop :=
  ∃ body, Framed 0xA2 sent body ∧
    procUnsubMsgRxRaw body =
      if us.length ≤ mqpMaxTopics then some (msgId, us.map contentOf) else none

theorem rdUtf8_prefixed (t : Utf8String) (rest : List UInt8) :
    mqpBufRdUtf8 (prefixed t.content ++ rest) = some (t.content, rest) :=
  mqpBufRdUtf8_eq_some.2 ⟨t.length_lt, rfl⟩

theorem subAgrees_of_framed {us : List Utf8Strqos} {msgId : UInt16} {sent : List UInt8}
    (hvalid : ∀ u ∈ us, u.req.isValid = true) (hus : us ≠ [])
    (h : Framed 0x82 sent (be16 msgId.toNat ++ listBytes (us.map Utf8Strqos.req))) :
    SubAgrees us msgId sent := by
  refine ⟨_, h, ?_⟩
  have hrd : ∀ u ∈ us, ∀ t, bufRdUtf8Qos (u.req.bytes ++ t) =
      some ((contentOf u.topic, qosVal u.qosreq), t) := by
    intro u hu t
    obtain ⟨topic, qosreq⟩ := u
    cases topic with
    | none => cases hvalid _ hu
    | some topic =>
      have hqos : qosVal qosreq ≠ qflValue := by cases qosreq <;> decide
      unfold bufRdUtf8Qos TopicReq.bytes Utf8Strqos.req
      dsimp only
      rw [if_pos hqos, List.append_assoc, rdUtf8_prefixed]
      rfl
  unfold procSubMsgRxRaw listBytes
  rw [List.map_map]
  exact procTopicsRx_flatten hrd (fun u hu => TopicReq.bytes_ne_nil (hvalid u hu)) hus msgId

theorem unsubAgrees_of_framed {us : List (Option Utf8String)} {msgId : UInt16} {sent : List UInt8}
    (hvalid : ∀ u ∈ us, TopicReq.isValid ⟨u, qflValue⟩ = true) (hus : us ≠ [])
    (h : Framed 0xA2 sent (be16 msgId.toNat ++ listBytes (us.map (⟨·, qflValue⟩)))) :
    UnsubAgrees us msgId sent := by
  refine ⟨_, h, ?_⟩
  have hrd : ∀ u ∈ us, ∀ t, mqpBufRdUtf8 (TopicReq.bytes ⟨u, qflValue⟩ ++ t) =
      some (contentOf u, t) := by
    intro u hu t
    cases u with
    | none => cases hvalid _ hu
    | some topic =>
      unfold TopicReq.bytes
      dsimp only
      rw [if_neg (not_not_intro rfl), List.append_nil, rdUtf8_prefixed]
      rfl
  unfold procUnsubMsgRxRaw listBytes
  rw [List.map_map]
  exact procTopicsRx_flatten hrd (fun u hu => TopicReq.bytes_ne_nil (hvalid u hu)) hus msgId

/-! ## PUBLISH -/

def pubBody (t : Utf8String) (msgId : UInt16) (qos : MqttQos) (data : List UInt8) : PubBody :=
  ⟨t.content, if qos ≠ .qos0 then some msgId else none, data⟩

/-- The server has QoS and retain flag from the first byte, and from any packet that it has received
with this body the topic, the identifier and the data. -/
def PubAgrees (t : Utf8String) (msgId : UInt16) (qos : MqttQos) (retain : Bool) (data sent : List UInt8) :
    Prop :=
  ∃ b body, Framed b sent body ∧ b >>> 4 = 0x03 ∧ enumQos b = qosVal qos ∧
    (b &&& 0x1 != 0) = retain ∧ (b &&& 0x8 != 0) = false ∧
    ∀ mqp, Received mqp → mqp.fhByte1 = b → received mqp = body →
      ∃ mqp', MqttPacket.procPubRx mqp = some (true, mqp') ∧
        (pubBody t msgId qos data).Shown mqp'

theorem pub_byte1 (qos : MqttQos) (retain : Bool) :
    let b := makeFhByte1 0x03 (makeFhFlags false qos retain)
    b >>> 4 = 0x03 ∧ enumQos b = qosVal qos ∧ (b &&& 0x1 != 0) = retain ∧
      (b &&& 0x8 != 0) = false := by
  cases qos <;> cases retain <;> decide

/-- The variable header is what `mqp_pub_append_topic` is to write. -/
theorem pubBody_vh (t : Utf8String) {msgId : UInt16} (qos : MqttQos) (data : List UInt8)
    (hid : msgId ≠ 0) :
    (pubBody t msgId qos data).vh =
      (Append.topic t (if qos ≠ .qos0 then msgId else 0)).bytes := by
  unfold PubBody.vh pubBody Append.bytes
  by_cases h0 : qos = .qos0
  · rw [if_neg (not_not_intro h0), if_neg (not_not_intro h0)]
    rfl
  · rw [if_pos h0, if_pos h0]
    dsimp only
    rw [if_pos hid]

theorem pubAgrees_of_framed {t : Utf8String} {msgId : UInt16} {qos : MqttQos} {retain : Bool}
    {data sent : List UInt8} (hid : msgId ≠ 0)
    (hlt : (Append.topic t (if qos ≠ .qos0 then msgId else 0)).bytes.length < 2 ^ 16)
    (h : Framed (makeFhByte1 0x03 (makeFhFlags false qos retain)) sent
      ((Append.topic t (if qos ≠ .qos0 then msgId else 0)).bytes ++ data)) :
    PubAgrees t msgId qos retain data sent := by
  obtain ⟨htype, hqos, hretain, hdup⟩ := pub_byte1 qos retain
  refine ⟨_, _, h, htype, hqos, hretain, hdup, fun mqp hrec hb hbody => ?_⟩
  have hvh := pubBody_vh t qos data hid
  have hof : (pubBody t msgId qos data).Of mqp := by
    refine ⟨t.length_lt, ?_, by rw [hvh]; exact hbody⟩
    rw [hb, hqos]
    unfold pubBody
    cases qos <;> simp [qosVal]
  refine ⟨_, procPubRx_of hrec hof, hof.shown hrec (fun h0 => ?_) (by rw [hvh]; exact hlt)⟩
  unfold pubBody at h0
  dsimp only at h0
  split at h0
  · exact hid (Option.some.inj h0)
  · cases h0

/-! ## Every packet -/

theorem connectSent_agrees (s : NumberedLib) (r : Registration) {cleanSession : Bool} {kaSecs : UInt16}
    {sent : List UInt8} (h : connectSent s.toLib ⟨r.info, cleanSession, kaSecs⟩ = some sent) :
    ConnectAgrees r cleanSession kaSecs sent := by
  unfold connectSent at h
  split at h
  · cases h
  · next i s' halloc =>
    obtain ⟨hpkt, -, -⟩ := pkt_alloc halloc
    dsimp only at h
    rw [hpkt] at h
    split at h
    · next pkt hbuild =>
      cases h
      exact connectAgrees_of_framed (connectBuild_framed (s.maxlen i) hbuild)
    · cases h

/-- What the client library builds, the server reads as it was meant: every CONNECT, whatever was
registered; every list of topics; and every PUBLISH whose variable header is shorter than `vh_len`
can say. -/
theorem wireFormat (s : NumberedLib) (calls : List RegisterCall) :
    (∀ cleanSession kaSecs sent,
      connectSent s.toLib ⟨registered calls, cleanSession, kaSecs⟩ = some sent →
        ConnectAgrees (registrationOf calls) cleanSession kaSecs sent) ∧
    (∀ us sent, (SendCall.subMsgSend (some (us.map Utf8Strqos.req))).sent s.toLib = some sent →
      SubAgrees us (s.msgId + 2) sent) ∧
    (∀ us sent, (SendCall.unsubMsgSend (some us)).sent s.toLib = some sent →
      UnsubAgrees us (s.msgId + 2) sent) ∧
    ∀ t data qos retain sent,
      (SendCall.pubMsgSend (some (some t)) (some data) qos retain).sent s.toLib = some sent →
        (pubBody t (s.msgId + 2) qos data).vh.length < 2 ^ 16 →
          PubAgrees t (s.msgId + 2) qos retain data sent := by
  refine ⟨fun cleanSession kaSecs sent h => ?_, fun us sent h => ?_, fun us sent h => ?_,
    fun t data qos retain sent h hlt => ?_⟩
  · rw [registered_info] at h
    exact connectSent_agrees s _ h
  · obtain ⟨reqs, heq, hne, hvalid, hframed⟩ := utf8ArrayMsg_framed s h
    cases heq
    exact subAgrees_of_framed (fun u hu => hvalid _ (List.mem_map_of_mem hu))
      (fun hnil => hne (hnil ▸ rfl)) hframed
  · obtain ⟨reqs, heq, hne, hvalid, hframed⟩ := utf8ArrayMsg_framed s h
    cases heq
    exact unsubAgrees_of_framed (fun u hu => hvalid _ (List.mem_map_of_mem hu))
      (fun hnil => hne (hnil ▸ rfl)) hframed
  · have hsent : sentBy (pubMsg s.toLib (some (some t)) (some data) qos) qos retain = some sent := h
    obtain ⟨t', data', ht, hdata, hframed⟩ := pubMsg_framed s hsent
    obtain rfl := Option.some.inj (Option.some.inj ht)
    cases hdata
    have hid : s.msgId + 2 ≠ 0 := by
      intro h0
      have hodd : (s.msgId + 2).toNat % 2 = 1 := odd_assignNewMsgId s.odd
      rw [h0] at hodd
      exact absurd hodd (by decide)
    have hvh := pubBody_vh t qos data hid
    rw [hvh] at hlt
    exact pubAgrees_of_framed hid hlt (hframed hlt)

def wireLib : NumberedLib where
  toLib := created ⟨true, false, false⟩ (fun _ => ⟨mqpBufferAttach (List.replicate 64 0) 0, 0, true⟩) [0]
  maxlen := fun _ => (by decide : (List.replicate 64 (0 : UInt8)).length < 2 ^ 32)
  odd := rfl

def wireCalls : List RegisterCall :=
  [.will (some (some topicAbc)) none .qos1 true,
    .info none (some (some topicAbc)) (some (some topicAbc))]

/-- The instances for these calls, and for a packet of each kind. -/
theorem wireFormat_abc :
    (∃ sent, connectSent wireLib.toLib ⟨registered wireCalls, true, 60⟩ = some sent ∧
      ConnectAgrees (registrationOf wireCalls) true 60 sent) ∧
    (∃ sent, SubAgrees [⟨some topicAbc, .qos2⟩] (wireLib.msgId + 2) sent) ∧
    (∃ sent, UnsubAgrees [some topicAbc] (wireLib.msgId + 2) sent) ∧
    ∃ sent, PubAgrees topicAbc (wireLib.msgId + 2) .qos1 true [1] sent := by
  obtain ⟨hconnect, hsub, hunsub, hpub⟩ := wireFormat wireLib wireCalls
  refine ⟨?_, ?_, ?_, ?_⟩
  · have hsome : (connectSent wireLib.toLib ⟨registered wireCalls, true, 60⟩).isSome := by
      decide +kernel
    obtain ⟨sent, h⟩ := Option.isSome_iff_exists.1 hsome
    exact ⟨sent, h, hconnect _ _ _ h⟩
  · have hsome : ((SendCall.subMsgSend
        (some ([⟨some topicAbc, .qos2⟩].map Utf8Strqos.req))).sent wireLib.toLib).isSome := by
      decide +kernel
    obtain ⟨sent, h⟩ := Option.isSome_iff_exists.1 hsome
    exact ⟨sent, hsub _ _ h⟩
  · have hsome : ((SendCall.unsubMsgSend (some [some topicAbc])).sent wireLib.toLib).isSome := by
      decide +kernel
    obtain ⟨sent, h⟩ := Option.isSome_iff_exists.1 hsome
    exact ⟨sent, hunsub _ _ h⟩
  · have hsome : ((SendCall.pubMsgSend (some (some topicAbc)) (some [1]) .qos1 true).sent
        wireLib.toLib).isSome := by
      decide +kernel
    obtain ⟨sent, h⟩ := Option.isSome_iff_exists.1 hsome
    exact ⟨sent, hpub _ _ _ _ _ h (by decide)⟩

/-- A keep-alive of 60 seconds is not what the server has of it. -/
theorem keepAlive_not_same :
    ¬ ∀ (s : NumberedLib) (calls : List RegisterCall) (cleanSession : Bool) (kaSecs : UInt16)
      (sent : List UInt8),
      connectSent s.toLib ⟨registered calls, cleanSession, kaSecs⟩ = some sent →
        ∀ body, Framed 0x10 sent body →
          ∃ connFlags buf, procConnectVhRxAt body = some (.ok (connFlags, kaSecs, buf)) := by
  intro hall
  have hsent : connectSent wireLib.toLib ⟨registered [], true, 60⟩ =
      some (0x10 :: ([12] ++ [0, 4, 77, 81, 84, 84, 4, 2, 0, 60, 0, 0])) := by
    decide +kernel
  obtain ⟨connFlags, buf, hread⟩ := hall wireLib [] true 60 _ hsent
    [0, 4, 77, 81, 84, 84, 4, 2, 0, 60, 0, 0] ⟨[12], rfl, by decide +kernel⟩
  have h90 : procConnectVhRxAt [0, 4, 77, 81, 84, 84, 4, 2, 0, 60, 0, 0] =
      some (.ok (2, 90, 10)) := by
    rfl
  rw [h90] at hread
  simp at hread

end SimpleLink.Server
