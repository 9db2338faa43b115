import SimpleLink.Gagent.Cloud
import SimpleLink.Lib.Run

/-!
# When a session with the cloud runs

`SessionRun` keeps beside the gateway what has happened on its connection since it was made. A
session may run when a CONNACK that accepts it and a SUBACK for each of the subscriptions were among
that (`Acknowledged`). What one read has brought is cut into packets as MQTT says (`mqttPackets`),
and each of them is to be dispatched.
-/

namespace SimpleLink.Gagent

open Lib

/-! ## What was received -/

/-- How long the packet is that a buffer starts with; its length takes four bytes at most. -/
def mqttPacketSize (buf : List UInt8) : Option Nat :=
  match fieldLen buf.tail with
  | some n => if n ≤ 4 then some (1 + n + fieldVal (buf.tail.take n)) else none
  | none => none

def packetsIn : Nat → List UInt8 → List (List UInt8)
  | 0, _ => []
  | k + 1, buf =>
    match mqttPacketSize buf with
    | some n => if n ≤ buf.length then buf.take n :: packetsIn k (buf.drop n) else []
    | none => []

def mqttPackets (buf : List UInt8) : List (List UInt8) := packetsIn buf.length buf

def IsConnack (p : List UInt8) : Prop :=
  mqttParseMessageType p = MQTT_MSG_CONNACK ∧ p.length = 4 ∧ byteAt p 1 = 2 ∧ byteAt p 3 = 0

/-- A SUBACK with the identifier `id`. -/
def IsSuback (id : UInt16) (p : List UInt8) : Prop :=
  mqttParseMessageType p = MQTT_MSG_SUBACK ∧ mqttNumRemLenBytes p + 3 ≤ p.length ∧
    ntohsAt p (1 + mqttNumRemLenBytes p) = id

instance (p : List UInt8) : Decidable (IsConnack p) := by unfold IsConnack; infer_instance

instance (id : UInt16) (p : List UInt8) : Decidable (IsSuback id p) := by
  unfold IsSuback; infer_instance

/-- A CONNACK was received, and after it, from the last topic of the list to the first, a SUBACK for
the subscription that the gateway had sent before. -/
def Acknowledged : List LoginTopic → List CloudEv → Prop
  | [], log => ∃ bs, .received bs ∈ log ∧ ∃ p ∈ mqttPackets bs, IsConnack p
  | t :: ts, log => ∃ pre post id bs, log = pre ++ post ∧ Acknowledged ts pre ∧
      [.subscribe t id, .received bs].Sublist post ∧ ∃ p ∈ mqttPackets bs, IsSuback id p

def LoginTopic.before : LoginTopic → List LoginTopic
  | .topic1 => []
  | .topic2 => [.topic1]
  | .topic3 => [.topic2, .topic1]

/-! ## Runs -/

/-- The gateway, and what has happened since it last connected. -/
structure SessionRun where
  cloud : Cloud
  log : List CloudEv

def logAfter (log evs : List CloudEv) : List CloudEv :=
  evs.foldl (fun log e => if e = .connect then [] else log ++ [e]) log

def sessionStep (s : SessionRun) (op : CloudOp) : Option (SessionRun × List CloudEv) :=
  some (⟨(cloudStep s.cloud op).1, logAfter s.log (cloudStep s.cloud op).2⟩,
    (cloudStep s.cloud op).2)

def sessionInit : SessionRun := ⟨cloudInit, []⟩

def dispatched (evs : List CloudEv) : List (List UInt8) :=
  evs.filterMap fun
    | .dispatch p => some p
    | _ => none

def complete (evs : List CloudEv) : List (List UInt8) :=
  evs.flatMap fun
    | .received bs => mqttPackets bs
    | _ => []

/-- The session runs only when everything was acknowledged, and what is dispatched are the complete
packets of a read. -/
structure SessionRight (s : SessionRun) (op : CloudOp) : Prop where
  acknowledged : (cloudStep s.cloud op).1.mqttstatus = .running →
    Acknowledged [.topic3, .topic2, .topic1] (logAfter s.log (cloudStep s.cloud op).2)
  exactly : dispatched (cloudStep s.cloud op).2 = complete (cloudStep s.cloud op).2

def Cloud.examines (c : Cloud) (buf : List UInt8) (now : UInt32) : Prop :=
  mqttParseMessageType buf = MQTT_MSG_CONNACK ∨ mqttParseMessageType buf = MQTT_MSG_SUBACK ∨
    { c with reConnectMqttTime := GAGENT_MQTT_TIMEOUT }.late now = true

/-- What the stage of the login takes for its answer is that answer. -/
def AnswerCond (c : Cloud) (buf : List UInt8) : Prop :=
  match c.mqttstatus with
  | .resLogin => cloudResConnect (some buf) = true → ∃ p ∈ mqttPackets buf, IsConnack p
  | .resLoginTopic _ =>
    cloudResSubTopic (some buf) c.mqttMsgsubid = true →
      ∃ p ∈ mqttPackets buf, IsSuback c.mqttMsgsubid p
  | _ => True

/-- A read fails with -1, finds the connection closed, or takes one complete packet, perhaps with
the beginning of another. -/
def ReadCond (c : Cloud) (r : Recv) (now : UInt32) : Prop :=
  match r with
  | .error n => n.val = 0
  | .data _ => r.taken = [] ∨
      (mqttPackets r.taken).length = 1 ∧ (c.examines r.taken now → AnswerCond c r.taken)

def SessionCond (s : SessionRun) : CloudOp → Prop
  | .handle h => h.hasIp = true → s.cloud.mqttstatus ≠ .start →
      ∀ r ∈ s.cloud.reads h, ReadCond s.cloud r h.now
  | _ => True

instance (c : Cloud) (buf : List UInt8) (now : UInt32) : Decidable (c.examines buf now) := by
  unfold Cloud.examines; infer_instance

instance (c : Cloud) (buf : List UInt8) : Decidable (AnswerCond c buf) := by
  unfold AnswerCond; split <;> infer_instance

instance (c : Cloud) (r : Recv) (now : UInt32) : Decidable (ReadCond c r now) := by
  unfold ReadCond; split <;> infer_instance

instance (s : SessionRun) (op : CloudOp) : Decidable (SessionCond s op) := by
  unfold SessionCond; split <;> infer_instance

/-! ## The length of a packet -/

variable {buf : List UInt8}

theorem mqttPacketLength_eq {n : Nat} (h : mqttPacketSize buf = some n)
    (hn : n ≤ GAGENT_BUF_LEN) : mqttPacketLength buf = n := by
  unfold mqttPacketSize at h
  split at h
  · rename_i k hk
    split at h
    · rename_i hk4
      cases h
      have hval : (mqttParseRemLen buf).toNat = fieldVal (buf.tail.take k) := by
        rw [toNat_mqttParseRemLen hk]
        have : fieldVal (buf.tail.take k) ≤ 1024 := by
          have : 1 + k + fieldVal (buf.tail.take k) ≤ 1024 := hn
          omega
        omega
      rw [mqttPacketLength, mqttNumRemLenBytes_eq hk hk4, hval]
      omega
    · cases h
  · cases h

theorem packet_of_length_one (h : (mqttPackets buf).length = 1) (hn : buf.length ≤ GAGENT_BUF_LEN) :
    mqttPackets buf = [buf.take (mqttPacketLength buf)] ∧ mqttPacketLength buf ≤ buf.length := by
  obtain ⟨p, hp⟩ := List.length_eq_one_iff.1 h
  have hpackets := hp
  unfold mqttPackets at hp
  cases hk : buf.length with
  | zero => rw [hk] at hp; cases hp
  | succ k =>
    rw [hk, packetsIn] at hp
    split at hp
    · rename_i n hsize
      split at hp
      · rename_i hle
        have hlen : mqttPacketLength buf = n := mqttPacketLength_eq hsize (by omega)
        rw [hlen, hpackets, ← (List.cons.inj hp).1]
        exact ⟨rfl, hk ▸ hle⟩
      · cases hp
    · cases hp

/-! ## What was acknowledged -/

variable {log pre evs : List CloudEv} {c : Cloud} {t : LoginTopic} {id : UInt16}

theorem Acknowledged.append {ts : List LoginTopic} (h : Acknowledged ts log)
    (l : List CloudEv) : Acknowledged ts (log ++ l) := by
  cases ts with
  | nil =>
    obtain ⟨bs, hbs, hp⟩ := h
    exact ⟨bs, List.mem_append_left _ hbs, hp⟩
  | cons t ts =>
    obtain ⟨pre, post, id, bs, rfl, hpre, hsub, hp⟩ := h
    exact ⟨pre, post ++ l, id, bs, List.append_assoc .., hpre,
      hsub.trans (List.sublist_append_left ..), hp⟩

/-- The topics before `t` have been acknowledged, and then `t` was subscribed to under `id`. -/
def Subscribed (t : LoginTopic) (id : UInt16) (log : List CloudEv) : Prop :=
  ∃ pre post, log = pre ++ post ∧ Acknowledged t.before pre ∧ .subscribe t id ∈ post

theorem Subscribed.append (h : Subscribed t id log) (l : List CloudEv) :
    Subscribed t id (log ++ l) := by
  obtain ⟨pre, post, rfl, hpre, hmem⟩ := h
  exact ⟨pre, post ++ l, List.append_assoc .., hpre, List.mem_append_left _ hmem⟩

theorem Subscribed.again {id' : UInt16} (h : Subscribed t id log) :
    Subscribed t id' (log ++ [.subscribe t id']) := by
  obtain ⟨pre, post, rfl, hpre, -⟩ := h
  exact ⟨pre, post ++ [.subscribe t id'], List.append_assoc .., hpre,
    List.mem_append_right _ List.mem_cons_self⟩

theorem Acknowledged.subscribed (h : Acknowledged t.before log) :
    Subscribed t id (log ++ [.subscribe t id]) :=
  ⟨log, [.subscribe t id], rfl, h, List.mem_cons_self⟩

theorem Subscribed.received {bs : List UInt8} (h : Subscribed t id log)
    (hp : ∃ p ∈ mqttPackets bs, IsSuback id p) (l : List CloudEv) :
    Acknowledged (t :: t.before) (log ++ .received bs :: l) := by
  obtain ⟨pre, post, rfl, hpre, hmem⟩ := h
  have hsub : [.subscribe t id, .received bs].Sublist (post ++ .received bs :: l) :=
    (List.singleton_sublist.2 hmem).append (List.singleton_sublist.2 List.mem_cons_self)
  exact ⟨pre, post ++ .received bs :: l, id, bs, List.append_assoc .., hpre, hsub, hp⟩

/-- What must have happened for the status, if the last SUBSCRIBE had the identifier `id`. -/
def Earned (log : List CloudEv) (id : UInt16) : MqttStatus → Prop
  | .resLoginTopic t => Subscribed t id log
  | .running => Acknowledged [.topic3, .topic2, .topic1] log
  | _ => True

def Sound (s : SessionRun) : Prop := Earned s.log s.cloud.mqttMsgsubid s.cloud.mqttstatus

theorem Earned.append {st : MqttStatus} (h : Earned log id st) (l : List CloudEv) :
    Earned (log ++ l) id st := by
  cases st with
  | resLoginTopic t => exact Subscribed.append h l
  | running => exact Acknowledged.append h l
  | unset => trivial
  | start => trivial
  | resLogin => trivial

theorem logAfter_append (log evs evs' : List CloudEv) :
    logAfter log (evs ++ evs') = logAfter (logAfter log evs) evs' := List.foldl_append

/-! ## The handler -/

theorem loginStage_earned {b : Option (List UInt8)} {late : Bool} {fd : Option Int}
    (hI : Earned log c.mqttMsgsubid c.mqttstatus)
    (hlogin : c.mqttstatus = .resLogin → cloudResConnect b = true → Acknowledged [] log)
    (htopic : ∀ t, c.mqttstatus = .resLoginTopic t → cloudResSubTopic b c.mqttMsgsubid = true →
      Acknowledged (t :: t.before) log) :
    Earned (logAfter log (loginStage c b late fd).2) (loginStage c b late fd).1.mqttMsgsubid
      (loginStage c b late fd).1.mqttstatus := by
  unfold loginStage
  cases hs : c.mqttstatus with
  | unset => exact hI
  | start => exact hI
  | running => exact hI
  | resLogin =>
    simp only
    split
    · rename_i hres
      exact Acknowledged.subscribed (t := .topic1) (hlogin hs hres)
    · split
      · simp only [askAgain, cloudReqConnect]
        split
        · simp only [hs]
          trivial
        · split
          · simp only [hs]
            trivial
          · simp only [hs]
            trivial
      · rw [hs]
        trivial
  | resLoginTopic t =>
    rw [hs] at hI
    simp only
    split
    · rename_i hres
      have hack := htopic t hs hres
      cases t with
      | topic1 => exact Acknowledged.subscribed (t := .topic2) hack
      | topic2 => exact Acknowledged.subscribed (t := .topic3) hack
      | topic3 => exact hack
    · split
      · simp only [askAgain, cloudReqSubTopic, hs]
        exact Subscribed.again hI
      · rw [hs]
        exact hI

theorem loginStage_quiet (c : Cloud) (b : Option (List UInt8)) (late : Bool) (fd : Option Int) :
    ∀ e ∈ (loginStage c b late fd).2, e = .connect ∨ ∃ t id, e = .subscribe t id := by
  have hconnect : ∀ e ∈ (cloudReqConnect c fd).2, e = .connect ∨ ∃ t id, e = .subscribe t id := by
    intro e he
    unfold cloudReqConnect at he
    split at he
    · cases he
    · split at he <;> exact .inl (List.mem_singleton.1 he)
  have hsub (t : LoginTopic) :
      ∀ e ∈ (cloudReqSubTopic c t).2, e = .connect ∨ ∃ t id, e = .subscribe t id :=
    fun e he => .inr ⟨t, c.seq, List.mem_singleton.1 he⟩
  intro e he
  unfold loginStage at he
  split at he
  · split at he
    · exact hsub _ e he
    · split at he
      · exact hconnect e he
      · cases he
  · split at he
    · split at he
      · exact hsub _ e he
      · cases he
    · split at he
      · exact hsub _ e he
      · cases he
  · cases he
  · cases he
  · cases he

theorem dispatched_quiet (h : ∀ e ∈ evs, e = .connect ∨ ∃ t id, e = .subscribe t id) :
    dispatched evs = [] := by
  refine List.filterMap_eq_nil_iff.2 fun e he => ?_
  obtain rfl | ⟨t, id, rfl⟩ := h e he <;> rfl

theorem complete_quiet (h : ∀ e ∈ evs, e = .connect ∨ ∃ t id, e = .subscribe t id) :
    complete evs = [] := by
  refine List.flatMap_eq_nil_iff.2 fun e he => ?_
  obtain rfl | ⟨t, id, rfl⟩ := h e he <;> rfl

/-- The type of what was read, zero if nothing was. -/
def typeOf (b : Option (List UInt8)) : UInt8 := (b.map mqttParseMessageType).getD 0

theorem cloudHandleBuf_earned {b : Option (List UInt8)} {h : Turn}
    (hI : Earned log c.mqttMsgsubid c.mqttstatus)
    (hanswer : (typeOf b = MQTT_MSG_CONNACK ∨ typeOf b = MQTT_MSG_SUBACK ∨ c.late h.now = true) →
      (c.mqttstatus = .resLogin → cloudResConnect b = true → Acknowledged [] log) ∧
      ∀ t, c.mqttstatus = .resLoginTopic t → cloudResSubTopic b c.mqttMsgsubid = true →
        Acknowledged (t :: t.before) log) :
    Earned (logAfter log (cloudHandleBuf c b h).2) (cloudHandleBuf c b h).1.mqttMsgsubid
      (cloudHandleBuf c b h).1.mqttstatus := by
  unfold cloudHandleBuf
  simp only
  split
  · split
    · rename_i hlook
      obtain ⟨hlogin, htopic⟩ := hanswer hlook
      exact loginStage_earned hI hlogin htopic
    · exact hI
  · split
    · exact hI
    · exact hI

theorem cloudHandleBuf_quiet (c : Cloud) (b : Option (List UInt8)) (h : Turn) :
    ∀ e ∈ (cloudHandleBuf c b h).2, e = .connect ∨ ∃ t id, e = .subscribe t id := by
  intro e he
  unfold cloudHandleBuf at he
  simp only at he
  split at he
  · split at he
    · exact loginStage_quiet c b _ h.fd e he
    · cases he
  · split at he <;> cases he

theorem cloudHandleBuf_read {h : Turn} {ev : CloudEv}
    (hI : Earned log c.mqttMsgsubid c.mqttstatus)
    (hcond : c.examines buf h.now → AnswerCond c buf) :
    Earned (logAfter (log ++ [.received buf, ev])
        (cloudHandleBuf { c with reConnectMqttTime := GAGENT_MQTT_TIMEOUT } (some buf) h).2)
      (cloudHandleBuf { c with reConnectMqttTime := GAGENT_MQTT_TIMEOUT } (some buf) h).1.mqttMsgsubid
      (cloudHandleBuf { c with reConnectMqttTime := GAGENT_MQTT_TIMEOUT } (some buf) h).1.mqttstatus := by
  refine cloudHandleBuf_earned (hI.append _) fun hlook => ⟨fun hs hres => ?_, fun t hs hres => ?_⟩
  · have hanswer := hcond hlook
    simp only at hs
    simp only [AnswerCond, hs] at hanswer
    exact ⟨buf, List.mem_append_right _ List.mem_cons_self, hanswer hres⟩
  · have hanswer := hcond hlook
    simp only at hs
    simp only [AnswerCond, hs] at hanswer
    rw [hs] at hI
    exact Subscribed.received hI (hanswer hres) [ev]

theorem logAfter_read (bs p : List UInt8) :
    logAfter log [.received bs, .dispatch p] = log ++ [.received bs, .dispatch p] := by
  simp [logAfter]

theorem taken_length (r : Recv) : r.taken.length ≤ GAGENT_BUF_LEN := by
  cases r with
  | error n => exact Nat.zero_le _
  | data bs => exact List.length_take_le _ _

theorem cloudReceive_packet {r : Recv} {h : Turn} (hr : r.taken ≠ [])
    (hlen : mqttPacketLength r.taken ≤ r.taken.length) :
    cloudReceive c r h =
      ((cloudHandleBuf { c with reConnectMqttTime := GAGENT_MQTT_TIMEOUT } (some r.taken) h).1,
        [.received r.taken, .dispatch (r.taken.take (mqttPacketLength r.taken))] ++
          (cloudHandleBuf { c with reConnectMqttTime := GAGENT_MQTT_TIMEOUT } (some r.taken) h).2) := by
  have hbound : r.taken.length ≤ 1024 := taken_length r
  have hbytes : r.bytesRcvd = r.taken.length := by
    cases r with
    | error n => exact absurd rfl hr
    | data bs => rfl
  have hpos : 0 < r.taken.length := List.length_pos_of_ne_nil hr
  have hread : mqttReadPacket r = r.taken.length := by
    rw [mqttReadPacket, hbytes, if_neg (by omega), if_neg (by omega)]
  have hlen32 : (UInt32.ofInt (r.taken.length : Int)).toNat = r.taken.length := by
    show (UInt32.ofNat _).toNat = _
    rw [UInt32.toNat_ofNat']
    omega
  unfold cloudReceive
  rw [hread]
  have hne : UInt32.ofInt (r.taken.length : Int) ≠ UInt32.ofInt (-1) := by
    intro he
    have := congrArg UInt32.toNat he
    rw [hlen32] at this
    have hmax : (UInt32.ofInt (-1)).toNat = 2 ^ 32 - 1 := rfl
    omega
  have h0 : 0 < UInt32.ofInt (r.taken.length : Int) := by
    rw [UInt32.lt_iff_toNat_lt, hlen32]
    exact hpos
  simp only [if_neg hne, if_pos h0, receivedEv, if_neg hr]
  rfl

theorem cloudReceive_right {r : Recv} {h : Turn} (hI : Earned log c.mqttMsgsubid c.mqttstatus)
    (hC : ReadCond c r h.now) :
    Earned (logAfter log (cloudReceive c r h).2) (cloudReceive c r h).1.mqttMsgsubid
        (cloudReceive c r h).1.mqttstatus ∧
      dispatched (cloudReceive c r h).2 = complete (cloudReceive c r h).2 := by
  by_cases hr : r.taken = []
  · cases r with
    | error n =>
      have hn : n = 0 := Fin.ext hC
      subst hn
      exact ⟨trivial, rfl⟩
    | data bs =>
      have hbytes : (Recv.data bs).bytesRcvd = 0 := by
        show ((Recv.data bs).taken.length : Int) = 0
        rw [hr]
        rfl
      have hread : mqttReadPacket (.data bs) = 0 := by
        rw [mqttReadPacket, hbytes, if_pos (Int.le_refl 0)]
      have heq : cloudReceive c (.data bs) h = (c, []) := by
        unfold cloudReceive
        rw [hread, receivedEv, if_pos hr]
        rfl
      rw [heq]
      exact ⟨hI, rfl⟩
  · cases r with
    | error n => exact absurd rfl hr
    | data bs =>
      obtain ⟨hone, hcond⟩ := hC.resolve_left hr
      obtain ⟨hpackets, hlen⟩ := packet_of_length_one hone (taken_length _)
      rw [cloudReceive_packet hr hlen]
      constructor
      · rw [logAfter_append, logAfter_read]
        exact cloudHandleBuf_read hI hcond
      · have hquiet := cloudHandleBuf_quiet { c with reConnectMqttTime := GAGENT_MQTT_TIMEOUT }
          (some (Recv.data bs).taken) h
        have hd := dispatched_quiet hquiet
        have hc := complete_quiet hquiet
        unfold dispatched at hd ⊢
        unfold complete at hc ⊢
        rw [List.filterMap_append, hd, List.flatMap_append, hc]
        simp [hpackets]

theorem cloudM2MDataHandle_right {h : Turn} (hI : Earned log c.mqttMsgsubid c.mqttstatus)
    (hC : h.hasIp = true → c.mqttstatus ≠ .start → ∀ r ∈ c.reads h, ReadCond c r h.now) :
    Earned (logAfter log (cloudM2MDataHandle c h).2) (cloudM2MDataHandle c h).1.mqttMsgsubid
        (cloudM2MDataHandle c h).1.mqttstatus ∧
      dispatched (cloudM2MDataHandle c h).2 = complete (cloudM2MDataHandle c h).2 := by
  unfold cloudM2MDataHandle
  split
  · exact ⟨hI, rfl⟩
  rename_i hip
  split
  · split
    · refine ⟨trivial, ?_⟩
      simp only [cloudReqConnect]
      split
      · rfl
      · split <;> rfl
    · exact ⟨hI, rfl⟩
  rename_i hstart
  split
  · rename_i r hr
    exact cloudReceive_right hI (hC (by simpa using hip) hstart r hr)
  · split
    · have hquiet := cloudHandleBuf_quiet c none h
      refine ⟨cloudHandleBuf_earned hI fun _ => ⟨nofun, nofun⟩, ?_⟩
      rw [dispatched_quiet hquiet, complete_quiet hquiet]
    · exact ⟨hI, rfl⟩

theorem cloudStep_right {s : SessionRun} {op : CloudOp} (hI : Sound s) (hC : SessionCond s op) :
    Sound ⟨(cloudStep s.cloud op).1, logAfter s.log (cloudStep s.cloud op).2⟩ ∧
      dispatched (cloudStep s.cloud op).2 = complete (cloudStep s.cloud op).2 := by
  cases op with
  | handle h => exact cloudM2MDataHandle_right hI hC
  | tick dTime =>
    refine ⟨?_, rfl⟩
    show Earned s.log (gAgentCloudTick s.cloud dTime).mqttMsgsubid
      (gAgentCloudTick s.cloud dTime).mqttstatus
    unfold gAgentCloudTick
    split
    · exact hI
    · simp only
      split
      · split
        · trivial
        · exact hI
      · exact hI
  | restart => exact ⟨trivial, rfl⟩

theorem Sound.right {s : SessionRun} {op : CloudOp} (hI : Sound s) (hC : SessionCond s op) :
    SessionRight s op := by
  obtain ⟨hnext, hexact⟩ := cloudStep_right hI hC
  refine ⟨fun hrun => ?_, hexact⟩
  have hearned : Earned _ _ (cloudStep s.cloud op).1.mqttstatus := hnext
  rw [hrun] at hearned
  exact hearned

theorem Sound.next {s s' : SessionRun} {op : CloudOp} {o : List CloudEv} (hI : Sound s)
    (hC : SessionCond s op) (hs : sessionStep s op = some (s', o)) : Sound s' := by
  obtain rfl := congrArg Prod.fst (Option.some.inj hs)
  exact (cloudStep_right hI hC).1

/-- A turn at which `bs` can be read. -/
def reading (now : UInt32) (bs : List UInt8) : CloudOp :=
  .handle { hasIp := true, now, readable := some (.data bs), fd := none }

/-- The network comes up, and the gateway connects with socket 3. -/
def connecting : List CloudOp :=
  [.restart, .handle { hasIp := true, now := 6, readable := none, fd := some 3 }]

def subacks : List CloudOp :=
  [reading 8 [0x90, 3, 0, 1, 0], reading 9 [0x90, 3, 0, 2, 0], reading 10 [0x90, 3, 0, 3, 0]]

end SimpleLink.Gagent
