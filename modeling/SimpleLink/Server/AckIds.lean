import SimpleLink.Server.NoLoss
import SimpleLink.Server.SessionDispatch

/-!
# Identifiers of what awaits an acknowledgement (`client_mgmt.c`, `server_util.c`)

An acknowledgement is looked up in `qos_ack1_wl` by its identifier alone. `IdsDistinct` is what it
takes for that to find the one packet it is for: the packets on the list have different identifiers,
and so has what is in flight to one client. `AcksExact` is what follows for a PUBACK or a PUBREC.

The identifiers come from a counter of sixteen bits, and nothing checks that the next one is free. A
packet for a session is queued with the identifier of the packet for the others. `FreshIds` says when
a step brings in no identifier that is in use, and `acks_exact` that the runs of such steps keep the
identifiers distinct.
-/

namespace SimpleLink.Server

open Lib Mqtt

/-! ## The property -/

def awaiting (m : ClMgmt) (i : ClIdx) : List Mqp := m.qosAck1Wl.filter fun mqp => bit mqp.clMap i

def txRecorded (m : ClMgmt) (i : ClIdx) : List UInt16 := (m.users i).qos2TxCq.recorded

/-- No two packets, and nothing in flight to one client, have the same identifier. -/
structure IdsDistinct (m : ClMgmt) : Prop where
  waiting : (m.qosAck1Wl.map Mqp.msgId).Nodup
  inFlight : ∀ i, ((awaiting m i).map Mqp.msgId ++ txRecorded m i).Nodup

def unmapId (i : ClIdx) (msgId : UInt16) (mqp : Mqp) : Mqp :=
  if mqp.msgId = msgId then mqp.unmap i else mqp

/-- The bits on `qos_ack1_wl` are as before, less that of the client on the packet with the
identifier. -/
def AckedOnly (m m' : ClMgmt) (i : ClIdx) (msgId : UInt16) : Prop :=
  ∀ k, m'.qosAck1Wl.filter (fun mqp => bit mqp.clMap k) =
    (m.qosAck1Wl.map (unmapId i msgId)).filter fun mqp => bit mqp.clMap k

/-- A PUBACK for a packet of QoS1, and a PUBREC, retire the packet they are for. -/
structure AcksExact (m : ClMgmt) : Prop where
  puback : ∀ i msgId b m', clNotifyAck m i .puback msgId = some (b, m') →
    (∀ mqp ∈ awaiting m i, mqp.msgId = msgId → mqp.qos = .qos1) → AckedOnly m m' i msgId
  pubrec : ∀ i msgId b m', clNotifyAck m i .pubrec msgId = some (b, m') → AckedOnly m m' i msgId

/-! ## The condition -/

/-- The packets that wait for a client to come back, and that it has to acknowledge. -/
def returning (m : ClMgmt) (i : ClIdx) : List Mqp :=
  m.sessMqpWl.filter fun mqp => bit mqp.clMap i && decide (mqp.qos ≠ .qos0)

/-- They have different identifiers, and none that is in use. -/
structure SessFresh (m : ClMgmt) (i : ClIdx) : Prop where
  distinct : ((returning m i).map Mqp.msgId).Nodup
  waiting : ∀ mqp ∈ returning m i, mqp.msgId ∉ m.qosAck1Wl.map Mqp.msgId
  recorded : ∀ mqp ∈ returning m i, ∀ k : ClIdx, bit mqp.clMap k = true →
    mqp.msgId ∉ txRecorded m k

def OfClients (clMap : BitVec 32) : Prop := clMap &&& 0xFFFF#32 = clMap

/-- The step brings in no identifier that is in use; a PUBCOMP is for the oldest one on record. -/
def FreshIds (m : ClMgmt) : ClOp → Prop
  | .pubMsgSend _ _ qos _ clMap =>
    OfClients clMap ∧
      (qos ≠ .qos0 → m.env.newMsgId ∉ m.qosAck1Wl.map Mqp.msgId ∧
        ∀ i : ClIdx, bit clMap i = true → m.env.newMsgId ∉ txRecorded m i)
  | .connect _ cleanSession clientId _ =>
    cleanSession = false → ∀ i, connectIdx m clientId = some i → SessFresh m i
  | .notifyAck i .pubrec msgId =>
    (m.users i).connected = true → msgId ∈ m.qosAck1Wl.map Mqp.msgId →
      (m.users i).qos2TxCq.nFree ≠ 0 → msgId ∉ txRecorded m i
  | .notifyAck i .pubcomp msgId =>
    (m.users i).connected = true → txRecorded m i ≠ [] → (txRecorded m i).head? = some msgId
  | _ => True

/-! ### Decidability -/

instance (m : ClMgmt) (i : ClIdx) : Decidable (SessFresh m i) :=
  decidable_of_iff (((returning m i).map Mqp.msgId).Nodup ∧
      (∀ mqp ∈ returning m i, mqp.msgId ∉ m.qosAck1Wl.map Mqp.msgId) ∧
      ∀ mqp ∈ returning m i, ∀ k : ClIdx, bit mqp.clMap k = true → mqp.msgId ∉ txRecorded m k)
    ⟨fun h => ⟨h.1, h.2.1, h.2.2⟩, fun h => ⟨h.distinct, h.waiting, h.recorded⟩⟩

instance (clMap : BitVec 32) : Decidable (OfClients clMap) :=
  inferInstanceAs (Decidable (_ = _))

instance (m : ClMgmt) : ∀ op, Decidable (FreshIds m op)
  | .pubMsgSend _ _ _ _ _ => inferInstanceAs (Decidable (_ ∧ (_ → _ ∧ ∀ _ : ClIdx, _ → _)))
  | .connect _ _ _ _ => inferInstanceAs (Decidable (_ → ∀ i : ClIdx, _ → SessFresh m i))
  | .notifyAck _ .pubrec _ => inferInstanceAs (Decidable (_ → _ → _ → _))
  | .notifyAck _ .pubcomp _ => inferInstanceAs (Decidable (_ → _ → _))
  | .notifyAck _ .puback _ => inferInstanceAs (Decidable True)
  | .notifyAck _ .pubrel _ => inferInstanceAs (Decidable True)
  | .onNetClose _ => inferInstanceAs (Decidable True)
  | .vhMsgSend _ _ _ => inferInstanceAs (Decidable True)
  | .qos2PubRxUpdate _ _ => inferInstanceAs (Decidable True)
  | .subCount _ _ => inferInstanceAs (Decidable True)

/-! ### The counter -/

/-- The identifier that was given out `age` identifiers ago. -/
def Env.pastMsgId (env : Env) (age : Nat) : UInt16 := env.lastMsgId - 2 * UInt16.ofNat age

theorem Env.pastMsgId_newMsgId (env : Env) (age : Nat) :
    { env with lastMsgId := env.newMsgId }.pastMsgId (age + 1) = env.pastMsgId age := by
  unfold pastMsgId newMsgId
  rw [UInt16.ofNat_add]
  grind

/-- The counter comes back to an identifier after all the `2 ^ 15` of its parity. -/
theorem Env.newMsgId_ne_pastMsgId (env : Env) {age : Nat} (h : age + 1 < 2 ^ 15) :
    env.newMsgId ≠ env.pastMsgId age := by
  intro heq
  have hsum : 2 * UInt16.ofNat (age + 1) = 0 := by
    unfold pastMsgId newMsgId at heq
    rw [UInt16.ofNat_add]
    grind
  have hnat : 2 * (age + 1) % 2 ^ 16 = 0 := by
    have htoNat := congrArg UInt16.toNat hsum
    rw [UInt16.toNat_mul, UInt16.toNat_ofNat'] at htoNat
    simpa using htoNat
  omega

/-- The identifiers that wait or are on record are among the last `n` of the counter. -/
structure Recent (m : ClMgmt) (n : Nat) : Prop where
  waiting : ∀ msgId ∈ m.qosAck1Wl.map Mqp.msgId, ∃ age < n, msgId = m.env.pastMsgId age
  recorded : ∀ i, ∀ msgId ∈ txRecorded m i, ∃ age < n, msgId = m.env.pastMsgId age

/-- A further identifier makes them older by one. -/
theorem Recent.newMsgId {m : ClMgmt} {n : Nat} (h : Recent m n) :
    Recent { m with env := { m.env with lastMsgId := m.env.newMsgId } } (n + 1) where
  waiting msgId hmem := by
    obtain ⟨age, hage, rfl⟩ := h.waiting msgId hmem
    exact ⟨age + 1, Nat.succ_lt_succ hage, (m.env.pastMsgId_newMsgId age).symm⟩
  recorded i msgId hmem := by
    obtain ⟨age, hage, rfl⟩ := h.recorded i msgId hmem
    exact ⟨age + 1, Nat.succ_lt_succ hage, (m.env.pastMsgId_newMsgId age).symm⟩

/-- With fewer than `2 ^ 15` identifiers since the oldest of them the next one is free. -/
theorem Recent.freshIds {m : ClMgmt} {n : Nat} (h : Recent m n) (hn : n < 2 ^ 15)
    {clMap : BitVec 32} (hclients : OfClients clMap) (topic data : List UInt8) (qos : MqttQos)
    (retain : Bool) : FreshIds m (.pubMsgSend topic data qos retain clMap) := by
  refine ⟨hclients, fun _ => ⟨fun hmem => ?_, fun i _ hmem => ?_⟩⟩
  · obtain ⟨age, hage, heq⟩ := h.waiting _ hmem
    exact m.env.newMsgId_ne_pastMsgId (Nat.lt_of_le_of_lt hage hn) heq
  · obtain ⟨age, hage, heq⟩ := h.recorded i _ hmem
    exact m.env.newMsgId_ne_pastMsgId (Nat.lt_of_le_of_lt hage hn) heq

theorem OfClients.bit {clMap : BitVec 32} (h : OfClients clMap) {k : Nat} (hk : maxClients ≤ k) :
    bit clMap k = false := by
  have hmask : (0xFFFF#32).getLsbD k = false := by
    have hone : (0xFFFF : Nat) = 2 ^ 16 - 1 := rfl
    rw [BitVec.getLsbD_ofNat, hone, Nat.testBit_two_pow_sub_one,
      decide_eq_false (p := k < 16) (Nat.not_lt.2 hk), Bool.and_false]
  unfold OfClients at h
  rw [bit_eq, ← h, BitVec.getLsbD_and, hmask, Bool.and_false]

/-! ## Taking clients off packets -/

/-- `wl'` is what is left of `wl` when packets lose bits, and some are released. -/
def Thins (wl wl' : List Mqp) : Prop :=
  ∃ f : Mqp → Mqp, (∀ mqp, (f mqp).msgId = mqp.msgId ∧ (f mqp).qos = mqp.qos ∧
    ∀ k, bit (f mqp).clMap k = true → bit mqp.clMap k = true) ∧ wl'.Sublist (wl.map f)

theorem Thins.refl (wl : List Mqp) : Thins wl wl :=
  ⟨id, fun _ => ⟨rfl, rfl, fun _ => id⟩, by rw [List.map_id]⟩

theorem bit_of_unmap {i : ClIdx} {mqp : Mqp} {k : Nat} (h : bit (mqp.unmap i).clMap k = true) :
    bit mqp.clMap k = true := by
  rw [bit_unmap] at h
  exact (Bool.and_eq_true_iff.1 h).1

theorem thins_wlPurge (i : ClIdx) (wl : List Mqp) : Thins wl (wlPurge i wl) :=
  ⟨Mqp.unmap i, fun _ => ⟨rfl, rfl, fun _ => bit_of_unmap⟩, List.filter_sublist⟩

theorem unmapId_spec (i : ClIdx) (msgId : UInt16) (mqp : Mqp) :
    (unmapId i msgId mqp).msgId = mqp.msgId ∧ (unmapId i msgId mqp).qos = mqp.qos ∧
      ∀ k, bit (unmapId i msgId mqp).clMap k = true → bit mqp.clMap k = true := by
  unfold unmapId
  split
  · exact ⟨rfl, rfl, fun _ => bit_of_unmap⟩
  · exact ⟨rfl, rfl, fun _ => id⟩

theorem thins_unmapId {i : ClIdx} {msgId : UInt16} {wl wl' : List Mqp}
    (h : wl'.Sublist (wl.map (unmapId i msgId))) : Thins wl wl' :=
  ⟨unmapId i msgId, unmapId_spec i msgId, h⟩

theorem Thins.ids {wl wl' : List Mqp} (h : Thins wl wl') :
    (wl'.map Mqp.msgId).Sublist (wl.map Mqp.msgId) := by
  obtain ⟨f, hf, hsub⟩ := h
  have hids : (wl.map f).map Mqp.msgId = wl.map Mqp.msgId := by
    rw [List.map_map]
    exact List.map_congr_left fun mqp _ => (hf mqp).1
  exact hids ▸ hsub.map _

theorem Thins.awaiting {wl wl' : List Mqp} (h : Thins wl wl') (k : Nat) :
    ((wl'.filter fun mqp => bit mqp.clMap k).map Mqp.msgId).Sublist
      ((wl.filter fun mqp => bit mqp.clMap k).map Mqp.msgId) := by
  obtain ⟨f, hf, hsub⟩ := h
  refine ((hsub.filter _).map _).trans ?_
  clear hsub
  induction wl with
  | nil => exact .refl _
  | cons mqp wl ih =>
    rw [List.map_cons, List.filter_cons, List.filter_cons]
    by_cases hbit : bit (f mqp).clMap k = true
    · rw [if_pos hbit, if_pos ((hf mqp).2.2 k hbit), List.map_cons, List.map_cons, (hf mqp).1]
      exact ih.cons_cons _
    · rw [if_neg hbit]
      split
      · exact ih.trans (List.sublist_cons_self _ _)
      · exact ih

theorem Thins.mem {wl wl' : List Mqp} (h : Thins wl wl') {mqp' : Mqp} (hm : mqp' ∈ wl') :
    ∃ mqp ∈ wl, mqp'.msgId = mqp.msgId ∧ mqp'.qos = mqp.qos ∧
      ∀ k, bit mqp'.clMap k = true → bit mqp.clMap k = true := by
  obtain ⟨f, hf, hsub⟩ := h
  obtain ⟨mqp, hmem, rfl⟩ := List.mem_map.1 (hsub.subset hm)
  exact ⟨mqp, hmem, hf mqp⟩

/-! ## The invariant -/

/-- Besides the identifiers: the queues are well formed, and no packet of QoS1 and nothing that is
queued for a session is for a client with a clean session. -/
structure AckInv (m : ClMgmt) : Prop where
  ids : IdsDistinct m
  queue : ∀ i, Rep (m.users i).qos2TxCq (txRecorded m i)
  acks : ∀ mqp ∈ m.qosAck1Wl, mqp.qos = .qos1 → ∀ i : ClIdx, bit mqp.clMap i = true →
    (m.users i).cleanSession = false
  sess : ∀ mqp ∈ m.sessMqpWl, ∀ i : ClIdx, bit mqp.clMap i = true →
    (m.users i).cleanSession = false

theorem ackInv_init (sendOk mallocOk : Nat → Bool) : AckInv (clMgmtInit sendOk mallocOk) where
  ids := ⟨List.nodup_nil, fun _ => List.nodup_nil⟩
  queue _ := rep_reset
  acks _ h := nomatch h
  sess _ h := nomatch h

/-- Nothing is added to the lists and the records. -/
structure Shrinks (m m' : ClMgmt) : Prop where
  acks : Thins m.qosAck1Wl m'.qosAck1Wl
  sess : Thins m.sessMqpWl m'.sessMqpWl
  queue : ∀ i, Rep (m'.users i).qos2TxCq (txRecorded m' i)
  recorded : ∀ i, (txRecorded m' i).Sublist (txRecorded m i)
  clean : ∀ i, (m.users i).cleanSession = false → (m'.users i).cleanSession = false ∨
    ∀ mqp, mqp ∈ m'.qosAck1Wl ∨ mqp ∈ m'.sessMqpWl → bit mqp.clMap i = false

theorem AckInv.shrinks {m m' : ClMgmt} (h : AckInv m) (hs : Shrinks m m') : AckInv m' where
  ids := {
    waiting := hs.acks.ids.nodup h.ids.waiting
    inFlight := fun i =>
      ((hs.acks.awaiting i).append (hs.recorded i)).nodup (h.ids.inFlight i) }
  queue := hs.queue
  acks mqp' hm hq i hbit := by
    obtain ⟨mqp, hmem, -, hqos, hbits⟩ := hs.acks.mem hm
    have hclean := h.acks mqp hmem (hqos ▸ hq) i (hbits i hbit)
    refine (hs.clean i hclean).resolve_right fun hnone => ?_
    rw [hnone mqp' (.inl hm)] at hbit
    cases hbit
  sess mqp' hm i hbit := by
    obtain ⟨mqp, hmem, -, -, hbits⟩ := hs.sess.mem hm
    have hclean := h.sess mqp hmem i (hbits i hbit)
    refine (hs.clean i hclean).resolve_right fun hnone => ?_
    rw [hnone mqp' (.inr hm)] at hbit
    cases hbit

theorem AckInv.shrinks_setUser {m m' : ClMgmt} (h : AckInv m) {i : ClIdx} {u : ClientUsr}
    (hu : m'.users = Function.update m.users i u) (hacks : Thins m.qosAck1Wl m'.qosAck1Wl)
    (hsess : Thins m.sessMqpWl m'.sessMqpWl) (hq : Rep u.qos2TxCq u.qos2TxCq.recorded)
    (hrec : u.qos2TxCq.recorded.Sublist (txRecorded m i))
    (hclean : (m.users i).cleanSession = false → u.cleanSession = false ∨
      ∀ mqp, mqp ∈ m'.qosAck1Wl ∨ mqp ∈ m'.sessMqpWl → bit mqp.clMap i = false) :
    Shrinks m m' := by
  have hself : m'.users i = u := by rw [hu, Function.update_self]
  have hother : ∀ j, j ≠ i → m'.users j = m.users j := fun j hj => by
    rw [hu, Function.update_of_ne hj]
  refine ⟨hacks, hsess, fun j => ?_, fun j => ?_, fun j => ?_⟩
  · unfold txRecorded
    by_cases hj : j = i
    · subst hj
      rw [hself]
      exact hq
    · rw [hother j hj]
      exact h.queue j
  · unfold txRecorded
    by_cases hj : j = i
    · subst hj
      rw [hself]
      exact hrec
    · rw [hother j hj]
  · by_cases hj : j = i
    · subst hj
      rw [hself]
      exact hclean
    · rw [hother j hj]
      exact .inl

/-- Packets are put to `qos_ack1_wl`. -/
structure Puts (m m' : ClMgmt) (l : List Mqp) : Prop where
  users : m'.users = m.users
  acks : m'.qosAck1Wl = m.qosAck1Wl ++ l
  distinct : (l.map Mqp.msgId).Nodup
  waiting : ∀ mqp ∈ l, mqp.msgId ∉ m.qosAck1Wl.map Mqp.msgId
  recorded : ∀ mqp ∈ l, ∀ i : ClIdx, bit mqp.clMap i = true → mqp.msgId ∉ txRecorded m i
  clean : ∀ mqp ∈ l, mqp.qos = .qos1 → ∀ i : ClIdx, bit mqp.clMap i = true →
    (m.users i).cleanSession = false
  sess : ∀ mqp ∈ m'.sessMqpWl, ∀ i : ClIdx, bit mqp.clMap i = true →
    (m.users i).cleanSession = false

theorem AckInv.puts {m m' : ClMgmt} {l : List Mqp} (h : AckInv m) (hp : Puts m m' l) :
    AckInv m' where
  ids := {
    waiting := by
      rw [hp.acks, List.map_append]
      refine List.nodup_append.2 ⟨h.ids.waiting, hp.distinct, fun a ha b hb hab => ?_⟩
      obtain ⟨mqp, hm, rfl⟩ := List.mem_map.1 hb
      exact hp.waiting mqp hm (hab ▸ ha)
    inFlight := fun i => by
      have hrec : txRecorded m' i = txRecorded m i := by
        unfold txRecorded
        rw [hp.users]
      have hnodup := List.nodup_append.1 (h.ids.inFlight i)
      have hold : ∀ {x}, x ∈ (awaiting m i).map Mqp.msgId → x ∈ m.qosAck1Wl.map Mqp.msgId :=
        fun hx => (List.filter_sublist.map _).subset hx
      have hnew : ∀ {x}, x ∈ (l.filter fun mqp => bit mqp.clMap i).map Mqp.msgId →
          x ∉ m.qosAck1Wl.map Mqp.msgId ∧ x ∉ txRecorded m i := by
        intro x hx
        obtain ⟨mqp, hm, rfl⟩ := List.mem_map.1 hx
        obtain ⟨hmem, hbit⟩ := List.mem_filter.1 hm
        exact ⟨hp.waiting mqp hmem, hp.recorded mqp hmem i hbit⟩
      unfold awaiting at hnodup hold ⊢
      rw [hrec, hp.acks, List.filter_append, List.map_append]
      refine List.nodup_append.2 ⟨List.nodup_append.2 ⟨hnodup.1,
        (List.filter_sublist.map _).nodup hp.distinct, fun a ha b hb hab => ?_⟩, hnodup.2.1,
        fun a ha b hb hab => ?_⟩
      · exact (hnew hb).1 (hab ▸ hold ha)
      · rcases List.mem_append.1 ha with ha | ha
        · exact hnodup.2.2 a ha b hb hab
        · exact (hnew ha).2 (hab ▸ hb) }
  queue i := by
    unfold txRecorded
    rw [hp.users]
    exact h.queue i
  acks mqp hm hq i hbit := by
    rw [hp.acks] at hm
    rw [hp.users]
    rcases List.mem_append.1 hm with hm | hm
    · exact h.acks mqp hm hq i hbit
    · exact hp.clean mqp hm hq i hbit
  sess mqp hm i hbit := by
    rw [hp.users]
    exact hp.sess mqp hm i hbit

/-! ## A dispatch -/

/-- What the loop over the clients has done: who is left in the first map has to acknowledge, and
who got into the second is away. -/
structure LoopMaps (m m' : ClMgmt) (mqp : Mqp) (is : List ClIdx) (a b a' b' : BitVec 32) : Prop where
  sends : ∃ l, m' = { m with env := { m.env with sends := l ++ m.env.sends } }
  left : ∀ k, bit a' k = true → bit a k = true
  needs : ∀ j ∈ is, bit a' j = true → needToWaitListPublish mqp.qos (m.users j) = true
  away : ∀ j : ClIdx, bit b' j = true → bit b j = true ∨ (m.users j).isInactive = true

theorem LoopMaps.cons {m m₁ m' : ClMgmt} {mqp : Mqp} {i : ClIdx} {is : List ClIdx}
    {a b a₁ b₁ a' b' : BitVec 32}
    (hm : ∃ l, m₁ = { m with env := { m.env with sends := l ++ m.env.sends } })
    (ha : ∀ k, bit a₁ k = true → bit a k = true)
    (hi : bit a₁ i = true → needToWaitListPublish mqp.qos (m.users i) = true)
    (hb : ∀ j : ClIdx, bit b₁ j = true → bit b j = true ∨ (m.users j).isInactive = true)
    (h : LoopMaps m₁ m' mqp is a₁ b₁ a' b') : LoopMaps m m' mqp (i :: is) a b a' b' := by
  obtain ⟨l, rfl⟩ := hm
  obtain ⟨⟨l', rfl⟩, hleft, hneeds, haway⟩ := h
  refine ⟨⟨l' ++ l, by simp only [List.append_assoc]⟩, fun k hk => ha k (hleft k hk),
    fun j hj hbit => ?_, fun j hj => (haway j hj).elim (hb j) .inr⟩
  rcases List.mem_cons.1 hj with rfl | hj
  · exact hi (hleft _ hbit)
  · exact hneeds j hj hbit

theorem pubDispatchTo_sent {m m' : ClMgmt} {i : ClIdx} {mqp : Mqp} {dup ok : Bool}
    (h : pubDispatchTo m i mqp dup = some (ok, m')) :
    ∃ l, m' = { m with env := { m.env with sends := l ++ m.env.sends } } := by
  unfold pubDispatchTo at h
  split at h
  · cases h
  · rename_i c _
    cases h
    exact ⟨[.pub c mqp dup], rfl⟩

theorem pubDispatchLoop_maps (mqp : Mqp) (is : List ClIdx) :
    ∀ {m m' : ClMgmt} {a b a' b' : BitVec 32},
      pubDispatchLoop mqp is m a b = some (m', a', b') → LoopMaps m m' mqp is a b a' b' := by
  induction is with
  | nil =>
    intro m m' a b a' b' h
    obtain ⟨rfl, h'⟩ := Prod.mk.inj (Option.some.inj h)
    obtain ⟨rfl, rfl⟩ := Prod.mk.inj h'
    exact ⟨⟨[], rfl⟩, fun _ => id, fun _ hj => (nomatch hj), fun j => .inl⟩
  | cons i is ih =>
    intro m m' a b a' b' h
    unfold pubDispatchLoop at h
    by_cases hbit : bit a i = true
    · rw [if_pos hbit] at h
      simp only at h
      split at h
      · cases h
      · rename_i ok m₁ he
        have hm₁ : ∃ l, m₁ = { m with env := { m.env with sends := l ++ m.env.sends } } := by
          split at he
          · exact pubDispatchTo_sent he
          · cases he
            exact ⟨[], rfl⟩
        split at h
        · rename_i hneed
          exact .cons hm₁ (fun _ => id) (fun _ => (Bool.and_eq_true_iff.1 hneed).2)
            (fun j => .inl) (ih h)
        · refine .cons hm₁ (fun k hk => ?_) (fun hi => ?_) (fun j hj => ?_) (ih h)
          · rw [clBmap, bit_clear, Bool.and_eq_true] at hk
            exact hk.1
          · rw [bit_clear_clBmap, decide_eq_true rfl, Bool.not_true, Bool.and_false] at hi
            cases hi
          · split at hj
            · rename_i hin
              rw [bit_or, bit_clBmap, Bool.or_eq_true, decide_eq_true_iff] at hj
              exact hj.imp_right fun hji => by rw [hji]; exact hin
            · exact .inl hj
    · rw [if_neg hbit] at h
      exact .cons ⟨[], rfl⟩ (fun _ => id) (fun hi => absurd hi hbit) (fun j => .inl) (ih h)

theorem isInactive_clean {u : ClientUsr} (h : u.isInactive = true) : u.cleanSession = false := by
  unfold ClientUsr.isInactive ClientUsr.flagless at h
  simp only [Bool.and_eq_true, Bool.not_eq_true'] at h
  exact h.1.1.2

theorem needToWaitListPublish_iff {qos : MqttQos} {u : ClientUsr} :
    needToWaitListPublish qos u = true ↔
      qos ≠ .qos0 ∧ (qos = .qos1 → u.cleanSession = false) := by
  unfold needToWaitListPublish
  cases qos <;> simp

theorem sessWlAppend_same (m : ClMgmt) (b : BitVec 32) (mqp : Mqp) :
    (sessWlAppend m b mqp).users = m.users ∧ (sessWlAppend m b mqp).qosAck1Wl = m.qosAck1Wl := by
  unfold sessWlAppend
  split <;> exact ⟨rfl, rfl⟩

theorem mem_sessWlAppend {m : ClMgmt} {b : BitVec 32} {mqp p : Mqp} (hmap : mqp.clMap = 0#32)
    (hp : p ∈ (sessWlAppend m b mqp).sessMqpWl) :
    p ∈ m.sessMqpWl ∨ ∀ k, bit p.clMap k = true → bit b k = true := by
  unfold sessWlAppend mqpServerCopy Env.malloc at hp
  split at hp
  · simp only at hp
    rcases List.mem_append.1 hp with hp | hp
    · exact .inl hp
    · split at hp
      · rw [Option.toList_some, List.map_singleton, List.mem_singleton] at hp
        subst hp
        simp only [hmap, BitVec.zero_or]
        exact .inr fun _ => id
      · cases hp
  · exact .inl hp

theorem AckInv.clPubDispatch {m m' : ClMgmt} (h : AckInv m) {clMap : BitVec 32} {mqp : Mqp}
    (hmap : mqp.clMap = 0#32) (hclients : OfClients clMap)
    (hfresh : mqp.qos ≠ .qos0 → mqp.msgId ∉ m.qosAck1Wl.map Mqp.msgId ∧
      ∀ i : ClIdx, bit clMap i = true → mqp.msgId ∉ txRecorded m i)
    (he : clPubDispatch m clMap mqp = some m') : AckInv m' := by
  unfold Server.clPubDispatch at he
  split at he
  · cases he
  rename_i m₁ a b hloop
  obtain ⟨⟨l, rfl⟩, hleft, hneeds, haway⟩ := pubDispatchLoop_maps mqp _ hloop
  cases he
  obtain ⟨hu, hacks⟩ :=
    sessWlAppend_same { m with env := { m.env with sends := l ++ m.env.sends } } b mqp
  have hsess : ∀ p ∈ (sessWlAppend
      { m with env := { m.env with sends := l ++ m.env.sends } } b mqp).sessMqpWl,
      ∀ i : ClIdx, bit p.clMap i = true → (m.users i).cleanSession = false := by
    intro p hp i hbit
    rcases mem_sessWlAppend hmap hp with hp | hp
    · exact h.sess p hp i hbit
    · refine isInactive_clean ((haway i (hp i hbit)).resolve_left ?_)
      rw [bit_zero]
      exact Bool.false_ne_true
  unfold ack1WlAppend
  split
  · rename_i hne
    have hneed : ∀ i : ClIdx, bit a i = true → mqp.qos ≠ .qos0 ∧
        (mqp.qos = .qos1 → (m.users i).cleanSession = false) := fun i hi =>
      needToWaitListPublish_iff.1 (hneeds i (List.mem_finRange i) hi)
    have hqos : mqp.qos ≠ .qos0 := by
      intro hq
      refine hne (eq_zero_of_bit fun k => Bool.eq_false_iff.2 fun hk => ?_)
      by_cases hlt : k < maxClients
      · exact (hneed ⟨k, hlt⟩ hk).1 hq
      · have hnot := hclients.bit (Nat.le_of_not_lt hlt)
        rw [hleft k hk] at hnot
        cases hnot
    obtain ⟨hwait, hrec⟩ := hfresh hqos
    refine h.puts (l := [{ mqp with clMap := mqp.clMap ||| a }])
      ⟨hu, ?_, List.nodup_singleton _, ?_, ?_, ?_, hsess⟩
    · simp only [hacks]
    · intro p hp
      rw [List.mem_singleton.1 hp]
      exact hwait
    · intro p hp i hbit
      rw [List.mem_singleton.1 hp] at hbit ⊢
      simp only [hmap, BitVec.zero_or] at hbit
      exact hrec i (hleft i hbit)
    · intro p hp hq i hbit
      rw [List.mem_singleton.1 hp] at hbit hq
      simp only [hmap, BitVec.zero_or] at hbit
      exact (hneed i hbit).2 hq
  · refine h.puts (l := []) ⟨hu, ?_, List.nodup_nil, nofun, nofun, nofun, hsess⟩
    rw [List.append_nil]
    exact hacks

/-! ## A session that is resumed -/

theorem unmap_remap {i : ClIdx} {mqp : Mqp} (h : bit mqp.clMap i = true) :
    { mqp.unmap i with clMap := (mqp.unmap i).clMap ||| clBmap i } = mqp := by
  have hmap : (mqp.unmap i).clMap ||| clBmap i = mqp.clMap := by
    refine BitVec.eq_of_getLsbD_eq fun k hk => ?_
    rw [← bit_eq, ← bit_eq, bit_or, bit_unmap, clBmap, bit_mask]
    by_cases hki : k = i.val
    · have hlt : i.val < 32 := by omega
      rw [hki, h]
      simp [hlt]
    · simp [hki]
  rw [hmap]
  rfl

theorem sessAcked_sublist (sendOk mallocOk : Nat → Bool) {i : ClIdx} {wl : List Mqp}
    (hall : ∀ mqp ∈ wl, bit mqp.clMap i = true) :
    ∀ n k, (sessAcked sendOk i (sessSent mallocOk i wl k) n).Sublist
      (wl.filter fun mqp => bit mqp.clMap i && decide (mqp.qos ≠ .qos0)) := by
  induction wl with
  | nil => exact fun _ _ => .refl _
  | cons mqp wl ih =>
    intro n k
    have hbit := hall mqp List.mem_cons_self
    have hrest := ih fun p hp => hall p (List.mem_cons_of_mem _ hp)
    have hskip : ∀ n k, (sessAcked sendOk i (sessSent mallocOk i wl k) n).Sublist
        ((mqp :: wl).filter fun mqp => bit mqp.clMap i && decide (mqp.qos ≠ .qos0)) :=
      fun n k => (hrest n k).trans ((List.sublist_cons_self _ _).filter _)
    have hsent : ∀ n k, (sessAcked sendOk i (mqp.unmap i :: sessSent mallocOk i wl k) n).Sublist
        ((mqp :: wl).filter fun mqp => bit mqp.clMap i && decide (mqp.qos ≠ .qos0)) := by
      intro n k
      unfold sessAcked ackPart
      by_cases hack : sendOk n = true ∧ (mqp.unmap i).qos ≠ .qos0
      · have hq : mqp.qos ≠ .qos0 := hack.2
        rw [if_pos hack, unmap_remap hbit, List.filter_cons_of_pos (by simp [hbit, hq])]
        exact (hrest (n + 1) k).cons_cons _
      · rw [if_neg hack]
        exact hskip (n + 1) k
    unfold sessSent
    split
    · exact hsent n k
    · split
      · exact hsent n (k + 1)
      · exact hskip n (k + 1)

/-- `sess_wl_mqp_dispatch` for a client whose packets have fresh identifiers. -/
theorem AckInv.sessWlMqpDispatch {m m' : ClMgmt} (h : AckInv m) {i : ClIdx} {c : Nat}
    (hr : Resumable m i c) (hf : SessFresh m i) (he : sessWlMqpDispatch m i = some m') :
    AckInv m' := by
  by_cases hall : ∀ mqp ∈ m.sessMqpWl, bit mqp.clMap i = true
  · obtain ⟨m₁, he₁, hrun⟩ := sessWlMqpDispatchFrom_all m.sessMqpWl false []
      (m := { m with sessMqpWl := [] }) (hr.of_users rfl) rfl hall
    obtain rfl := Option.some.inj (he₁.symm.trans he)
    have hsub := sessAcked_sublist m.env.sendOk m.env.mallocOk hall m.env.sends.length
      m.env.mallocs
    refine h.puts ⟨hrun.users, hrun.acks, (hsub.map _).nodup hf.distinct,
      fun p hp => hf.waiting p (hsub.subset hp), fun p hp => hf.recorded p (hsub.subset hp), ?_, ?_⟩
    · intro p hp _ k hbit
      exact h.sess p (List.mem_filter.1 (hsub.subset hp)).1 k hbit
    · intro p hp k hbit
      rw [hrun.left, List.nil_append] at hp
      obtain ⟨q, hq, rfl⟩ := List.mem_map.1 (List.mem_filter.1 hp).1
      exact h.sess q hq k (bit_of_unmap hbit)
  · have hsome : ∃ mqp ∈ m.sessMqpWl, bit mqp.clMap i = false := by
      simpa using hall
    obtain ⟨p, hp, hnot⟩ := hsome
    cases hwl : m.sessMqpWl with
    | nil =>
      rw [hwl] at hp
      cases hp
    | cons mqp wl =>
      cases hbit : bit mqp.clMap i with
      | true =>
        rw [hwl] at hp
        rcases List.mem_cons.1 hp with rfl | hp
        · rw [hbit] at hnot
          cases hnot
        · cases (sessWlMqpDispatch_stuck hr hwl hbit ⟨p, hp, hnot⟩).symm.trans he
      | false =>
        obtain rfl := Option.some.inj ((sessWlMqpDispatch_other hwl hbit).symm.trans he)
        exact h

theorem AckInv.of_sends {m m' : ClMgmt} {n : Nat} (h : AckInv m) (hs : Sends m m' n) :
    AckInv m' := by
  obtain ⟨l, rfl, -⟩ := hs
  exact ⟨⟨h.ids.waiting, h.ids.inFlight⟩, h.queue, h.acks, h.sess⟩

theorem AckInv.sessionResume {m m' : ClMgmt} (h : AckInv m) {i : ClIdx} {c : Nat}
    (hr : Resumable m i c) (hf : SessFresh m i) (he : sessionResume m i = some m') : AckInv m' := by
  have hrd := (h.queue i).rd
  obtain ⟨m₁, he₁, hs₁⟩ := ack1WlMqpDispatch_spec (m := m) (i := i) m.qosAck1Wl
    (by rw [hr.ctx]; exact Option.some_ne_none c)
  obtain ⟨m₂, he₂, hs₂⟩ := ack2MsgIdDispatchFrom_spec (c := c) (m.users i).qos2TxCq
    ((maxPubrelInflt - (m.users i).qos2TxCq.nFree) - (m.users i).qos2TxCq.rdIdx)
    (k := (m.users i).qos2TxCq.rdIdx) (m := m₁) (by omega)
  unfold Server.sessionResume ack2MsgIdDispatch at he
  simp only [he₁, hs₁.users, hr.ctx, he₂] at he
  have hs := hs₁.sends.trans hs₂
  refine (h.of_sends hs).sessWlMqpDispatch (c := c) ?_ ?_ he
  · obtain ⟨l, rfl, -⟩ := hs
    exact hr.of_users rfl
  · obtain ⟨l, rfl, -⟩ := hs
    exact ⟨hf.distinct, hf.waiting, hf.recorded⟩

/-! ## Acknowledgements -/

theorem unmapFind_eq_map {i : ClIdx} {msgId : UInt16} {wl prev rest : List Mqp} {mqp : Mqp}
    (hnodup : (wl.map Mqp.msgId).Nodup) (h : wlMqpUnmapFind i msgId wl = some (prev, mqp, rest)) :
    prev ++ mqp :: rest = wl.map (unmapId i msgId) := by
  obtain ⟨p, rfl, -, hid, rfl⟩ := wlMqpUnmapFind_spec h
  rw [List.map_append, List.map_cons] at hnodup ⊢
  have hne : ∀ q, q ∈ prev ∨ q ∈ rest → unmapId i msgId q = q := by
    intro q hq
    refine if_neg fun hqid => ?_
    obtain ⟨-, htail, hdisj⟩ := List.nodup_append.1 hnodup
    rcases hq with hq | hq
    · exact hdisj _ (List.mem_map_of_mem hq) _ List.mem_cons_self (hqid.trans hid.symm)
    · exact (List.nodup_cons.1 htail).1 (by rw [hid, ← hqid]; exact List.mem_map_of_mem hq)
  have hself : unmapId i msgId p = p.unmap i := if_pos hid
  rw [List.map_congr_left (fun q hq => hne q (.inl hq)),
    List.map_congr_left (fun q hq => hne q (.inr hq)), hself, List.map_id', List.map_id']
  rfl

theorem unmapFind_none {i : ClIdx} {msgId : UInt16} {wl : List Mqp}
    (h : wlMqpUnmapFind i msgId wl = none) : ∀ mqp ∈ wl, mqp.msgId ≠ msgId := by
  induction wl with
  | nil => exact fun _ hm => nomatch hm
  | cons mqp wl ih =>
    unfold wlMqpUnmapFind at h
    split at h
    · cases h
    · rename_i hid
      split at h
      · rename_i hnone
        intro q hq
        rcases List.mem_cons.1 hq with rfl | hq
        · exact Ne.symm hid
        · exact ih hnone q hq
      · cases h

theorem map_unmapId_of_none {i : ClIdx} {msgId : UInt16} {wl : List Mqp}
    (h : wlMqpUnmapFind i msgId wl = none) : wl.map (unmapId i msgId) = wl := by
  have hsame : ∀ mqp ∈ wl, unmapId i msgId mqp = mqp := fun mqp hm =>
    if_neg (unmapFind_none h mqp hm)
  rw [List.map_congr_left hsame, List.map_id']

theorem wlRmfreeTry_sublist (prev : List Mqp) (mqp : Mqp) (wl : List Mqp) :
    (wlRmfreeTry prev mqp wl).Sublist (prev ++ mqp :: wl) := by
  unfold wlRmfreeTry
  split
  · exact (List.Sublist.refl prev).append (List.sublist_cons_self mqp wl)
  · exact .refl _

theorem filter_wlRmfreeTry (prev : List Mqp) (mqp : Mqp) (wl : List Mqp) (k : Nat) :
    (wlRmfreeTry prev mqp wl).filter (fun mqp => bit mqp.clMap k) =
      (prev ++ mqp :: wl).filter fun mqp => bit mqp.clMap k := by
  unfold wlRmfreeTry
  split
  · rename_i hzero
    rw [List.filter_append, List.filter_append, List.filter_cons_of_neg (by simp [hzero])]
  · rfl

theorem unmapFind_cases {m : ClMgmt} (h : IdsDistinct m) (i : ClIdx) (msgId : UInt16) :
    (wlMqpUnmapFind i msgId m.qosAck1Wl = none ∧
      m.qosAck1Wl.map (unmapId i msgId) = m.qosAck1Wl) ∨
    ∃ prev mqp rest, wlMqpUnmapFind i msgId m.qosAck1Wl = some (prev, mqp, rest) ∧
      prev ++ mqp :: rest = m.qosAck1Wl.map (unmapId i msgId) := by
  cases he : wlMqpUnmapFind i msgId m.qosAck1Wl with
  | none => exact .inl ⟨rfl, map_unmapId_of_none he⟩
  | some r =>
    obtain ⟨prev, mqp, rest⟩ := r
    exact .inr ⟨prev, mqp, rest, rfl, unmapFind_eq_map h.waiting he⟩

theorem AckInv.puback {m : ClMgmt} (h : AckInv m) (i : ClIdx) (msgId : UInt16) :
    AckInv (ack1UnmapRmfreeTry m i msgId) := by
  unfold ack1UnmapRmfreeTry
  split
  · exact h
  · rcases unmapFind_cases h.ids i msgId with ⟨he, -⟩ | ⟨prev, mqp, rest, he, hmap⟩
    · rw [he]
      exact h
    · rw [he]
      have hsub := wlRmfreeTry_sublist prev mqp rest
      rw [hmap] at hsub
      exact h.shrinks ⟨thins_unmapId hsub, .refl _, h.queue, fun _ => .refl _, fun _ => .inl⟩

theorem AckInv.pubackExact {m : ClMgmt} (h : AckInv m) (i : ClIdx) (msgId : UInt16)
    (hq : ∀ mqp ∈ awaiting m i, mqp.msgId = msgId → mqp.qos = .qos1) :
    AckedOnly m (ack1UnmapRmfreeTry m i msgId) i msgId := by
  intro k
  unfold ack1UnmapRmfreeTry
  split
  · -- nothing of QoS1 waits for a client with a clean session
    rename_i hclean
    have hsame : ∀ mqp ∈ m.qosAck1Wl, unmapId i msgId mqp = mqp := by
      intro mqp hm
      unfold unmapId
      split
      · rename_i hid
        have hbit : bit mqp.clMap i = false := by
          refine Bool.eq_false_iff.2 fun hbit => ?_
          have hqos := hq mqp (List.mem_filter.2 ⟨hm, hbit⟩) hid
          rw [h.acks mqp hm hqos i hbit] at hclean
          cases hclean
        have hmap : (mqp.unmap i).clMap = mqp.clMap := by
          refine BitVec.eq_of_getLsbD_eq fun k _ => ?_
          rw [← bit_eq, ← bit_eq, bit_unmap]
          by_cases hk : k = i.val
          · rw [hk, hbit, Bool.false_and]
          · rw [decide_eq_false hk, Bool.not_false, Bool.and_true]
        calc mqp.unmap i = { mqp.unmap i with clMap := mqp.clMap } := by rw [← hmap]
          _ = mqp := rfl
      · rfl
    rw [List.map_congr_left hsame, List.map_id']
  · rcases unmapFind_cases h.ids i msgId with ⟨he, hmap⟩ | ⟨prev, mqp, rest, he, hmap⟩
    · rw [he, hmap]
    · rw [he, ← hmap]
      exact filter_wlRmfreeTry prev mqp rest k

theorem nodup_logup {m m' : ClMgmt} (h : IdsDistinct m) {i : ClIdx} {msgId : UInt16}
    (hsub : m'.qosAck1Wl.Sublist (m.qosAck1Wl.map (unmapId i msgId)))
    (hrec : txRecorded m' i = txRecorded m i ++ [msgId]) (hfresh : msgId ∉ txRecorded m i) :
    ((awaiting m' i).map Mqp.msgId ++ txRecorded m' i).Nodup := by
  have hold := ((thins_unmapId hsub).awaiting i).append (List.Sublist.refl (txRecorded m i))
  have hnot : msgId ∉ (awaiting m' i).map Mqp.msgId := by
    intro hm
    obtain ⟨p, hp, hid⟩ := List.mem_map.1 hm
    obtain ⟨hmem, hbit⟩ := List.mem_filter.1 hp
    obtain ⟨q, -, rfl⟩ := List.mem_map.1 (hsub.subset hmem)
    rw [(unmapId_spec i msgId q).1] at hid
    simp only [unmapId, if_pos hid, bit_unmap, decide_true, Bool.not_true, Bool.and_false,
      Bool.false_eq_true] at hbit
  have hdup : ((awaiting m' i).map Mqp.msgId ++ txRecorded m i).Nodup := hold.nodup (h.inFlight i)
  rw [hrec, ← List.append_assoc]
  refine List.nodup_append.2 ⟨hdup, List.nodup_singleton _, fun a ha b hb hab => ?_⟩
  rw [List.mem_singleton.1 hb] at hab
  rw [hab] at ha
  rcases List.mem_append.1 ha with ha | ha
  · exact hnot ha
  · exact hfresh ha

theorem AckInv.logup {m m' : ClMgmt} (h : AckInv m) {i : ClIdx} {msgId : UInt16} {cq : PubQos2Cq}
    (hu : m'.users = Function.update m.users i { m.users i with qos2TxCq := cq })
    (hsub : m'.qosAck1Wl.Sublist (m.qosAck1Wl.map (unmapId i msgId)))
    (hsess : m'.sessMqpWl = m.sessMqpWl) (hrep : Rep cq (txRecorded m i ++ [msgId]))
    (hfresh : msgId ∉ txRecorded m i) : AckInv m' := by
  have hself : m'.users i = { m.users i with qos2TxCq := cq } := by rw [hu, Function.update_self]
  have hother : ∀ j, j ≠ i → m'.users j = m.users j := fun j hj => by
    rw [hu, Function.update_of_ne hj]
  have hrec : txRecorded m' i = txRecorded m i ++ [msgId] := by
    unfold txRecorded at hrep ⊢
    rw [hself]
    exact hrep.recorded
  have hclean : ∀ j, (m'.users j).cleanSession = (m.users j).cleanSession := by
    intro j
    by_cases hj : j = i
    · rw [hj, hself]
    · rw [hother j hj]
  have hthins := thins_unmapId hsub
  refine ⟨⟨hthins.ids.nodup h.ids.waiting, fun j => ?_⟩, fun j => ?_, fun p hp hq j hbit => ?_,
    fun p hp j hbit => ?_⟩
  · by_cases hj : j = i
    · rw [hj]
      exact nodup_logup h.ids hsub hrec hfresh
    · have hsame : txRecorded m' j = txRecorded m j := by
        unfold txRecorded
        rw [hother j hj]
      rw [hsame]
      exact ((hthins.awaiting j).append (.refl _)).nodup (h.ids.inFlight j)
  · by_cases hj : j = i
    · subst hj
      rw [hrec, hself]
      exact hrep
    · unfold txRecorded
      rw [hother j hj]
      exact h.queue j
  · obtain ⟨q, hq', -, hqos, hbits⟩ := hthins.mem hp
    rw [hclean j]
    exact h.acks q hq' (hqos ▸ hq) j (hbits j hbit)
  · rw [hclean j]
    rw [hsess] at hp
    exact h.sess p hp j hbit

theorem procPubRecRx_some {m m' : ClMgmt} {i : ClIdx} {msgId : UInt16} {b : Bool} (h : AckInv m)
    (he : procPubRecRx m i msgId = some (b, m')) :
    AckedOnly m m' i msgId ∧
      ((msgId ∈ m.qosAck1Wl.map Mqp.msgId → (m.users i).qos2TxCq.nFree ≠ 0 →
        msgId ∉ txRecorded m i) → AckInv m') := by
  unfold procPubRecRx at he
  rcases unmapFind_cases h.ids i msgId with ⟨hf, hmap⟩ | ⟨prev, mqp, rest, hf, hmap⟩
  · rw [hf] at he
    cases he
    exact ⟨fun k => by rw [hmap], fun _ => h⟩
  · rw [hf] at he
    have hin : msgId ∈ m.qosAck1Wl.map Mqp.msgId := by
      obtain ⟨p, hp, -, hid, -⟩ := wlMqpUnmapFind_spec hf
      rw [hp, ← hid]
      exact List.mem_map_of_mem (List.mem_append_right _ List.mem_cons_self)
    obtain ⟨cq, hl, hrep⟩ := logup_rep (h.queue i) msgId
    simp only [hl] at he
    by_cases hroom : (txRecorded m i).length < maxPubrelInflt
    · have hfull : Fifo.logup (txRecorded m i) msgId = (txRecorded m i ++ [msgId], true) :=
        if_pos hroom
      rw [hfull] at he hrep
      cases he
      have hsub := wlRmfreeTry_sublist prev mqp rest
      rw [hmap] at hsub
      refine ⟨fun k => ?_, fun hfresh => ?_⟩
      · rw [mqttVhMsgSend_qosAck1Wl, ← hmap]
        exact filter_wlRmfreeTry prev mqp rest k
      · have hfree : (m.users i).qos2TxCq.nFree ≠ 0 := by
          have := (h.queue i).room
          omega
        have hlist : ∀ m₁ : ClMgmt, m₁.qosAck1Wl = wlRmfreeTry prev mqp rest →
            (mqttVhMsgSend m₁ (m.users i).ctx .pubrel msgId).2.qosAck1Wl.Sublist
              (m.qosAck1Wl.map (unmapId i msgId)) := by
          intro m₁ hm₁
          rw [mqttVhMsgSend_qosAck1Wl, hm₁]
          exact hsub
        exact h.logup (mqttVhMsgSend_users ..) (hlist _ rfl) (mqttVhMsgSend_sessMqpWl ..) hrep
          (hfresh hin hfree)
    · have hfull : Fifo.logup (txRecorded m i) msgId = (txRecorded m i, false) := if_neg hroom
      rw [hfull] at he
      cases he
      have hsub : (prev ++ mqp :: rest).Sublist (m.qosAck1Wl.map (unmapId i msgId)) := by rw [hmap]
      exact ⟨fun k => by rw [hmap], fun _ =>
        h.shrinks ⟨thins_unmapId hsub, .refl _, h.queue, fun _ => .refl _, fun _ => .inl⟩⟩

theorem AckInv.acksExact {m : ClMgmt} (h : AckInv m) : AcksExact m where
  puback i msgId b m' he hq := by
    cases he
    exact h.pubackExact i msgId hq
  pubrec i msgId b m' he := (procPubRecRx_some h he).1

/-! ## Steps -/

theorem AckInv.sessionDelete {m m' : ClMgmt} (h : AckInv m) {i : ClIdx} {u : ClientUsr}
    (hu : m'.users = Function.update m.users i u) (hq : u.qos2TxCq = qos2PubCqReset)
    (hacks : m'.qosAck1Wl = wlPurge i m.qosAck1Wl) (hsess : m'.sessMqpWl = wlPurge i m.sessMqpWl) :
    AckInv m' := by
  have hpurged : ∀ wl, ∀ mqp ∈ wlPurge i wl, bit mqp.clMap i = false := by
    intro wl mqp hm
    obtain ⟨p, -, rfl⟩ := List.mem_map.1 (List.mem_filter.1 hm).1
    rw [bit_clear_clBmap, decide_eq_true rfl, Bool.not_true, Bool.and_false]
  have hempty : Rep qos2PubCqReset qos2PubCqReset.recorded := rep_self rep_reset
  refine h.shrinks (h.shrinks_setUser hu ?_ ?_ (hq ▸ hempty) ?_ fun _ => .inr fun mqp hm => ?_)
  · rw [hacks]
    exact thins_wlPurge i _
  · rw [hsess]
    exact thins_wlPurge i _
  · rw [hq]
    exact List.nil_sublist _
  · rw [hacks, hsess] at hm
    exact hm.elim (hpurged _ mqp) (hpurged _ mqp)

theorem AckInv.setUser {m : ClMgmt} (h : AckInv m) {i : ClIdx} {u : ClientUsr}
    (hq : u.qos2TxCq = (m.users i).qos2TxCq)
    (hclean : (m.users i).cleanSession = false → u.cleanSession = false) :
    AckInv (m.setUser i u) := by
  refine h.shrinks (h.shrinks_setUser rfl (.refl _) (.refl _) ?_ ?_ fun hc => .inl (hclean hc))
  · rw [hq]
    exact h.queue i
  · rw [hq]
    exact .refl _

theorem AckInv.vhMsgSend {m : ClMgmt} (h : AckInv m) (ctx : Option Nat) (t : AckType)
    (msgId : UInt16) : AckInv (mqttVhMsgSend m ctx t msgId).2 := by
  unfold mqttVhMsgSend
  split
  · exact h
  · exact ⟨⟨h.ids.waiting, h.ids.inFlight⟩, h.queue, h.acks, h.sess⟩

theorem AckInv.subCount {m : ClMgmt} (h : AckInv m) (i : ClIdx) (c : Bool) (n : Nat) :
    AckInv (if c then m.setUser i { m.users i with nSub := n } else m) := by
  split
  · exact h.setUser rfl id
  · exact h

theorem AckInv.pubrel {m m' : ClMgmt} (h : AckInv m) {i : ClIdx} {msgId : UInt16} {b : Bool}
    (he : procPubRelRx m i msgId = some (b, m')) : AckInv m' := by
  have hsent := h.vhMsgSend (m.users i).ctx .pubcomp msgId
  have hu := mqttVhMsgSend_users m (m.users i).ctx .pubcomp msgId
  unfold procPubRelRx at he
  simp only at he
  split at he
  · cases he
  · cases he
    exact hsent
  · split at he
    · cases he
    · cases he
      exact hsent.setUser (by rw [hu]) (by rw [hu]; exact id)

theorem AckInv.clOnNetClose {m : ClMgmt} (h : AckInv m) (i : ClIdx) : AckInv (clOnNetClose m i) := by
  unfold Server.clOnNetClose
  simp only
  split
  · split
    · exact h
    · exact h.shrinks (h.shrinks_setUser rfl (.refl _) (.refl _) (rep_self rep_reset)
        (List.nil_sublist _) fun _ => .inl rfl)
  · split
    · refine h.sessionDelete (i := i) (u := clUsrReset) ?_ rfl rfl rfl
      unfold ClMgmt.setUser Server.sessionDelete
      simp only [Function.update_idem]
    · exact h.setUser rfl id

theorem AckInv.pubcomp {m : ClMgmt} (h : AckInv m) {i : ClIdx} {msgId : UInt16} {cq : PubQos2Cq}
    {b : Bool} (hhead : txRecorded m i ≠ [] → (txRecorded m i).head? = some msgId)
    (he : qos2PubCqUnlog (m.users i).qos2TxCq msgId = some (cq, b)) :
    AckInv (m.setUser i { m.users i with qos2TxCq := cq }) := by
  have hrep := h.queue i
  have hcq : Rep cq cq.recorded ∧ cq.recorded.Sublist (txRecorded m i) := by
    cases hrec : txRecorded m i with
    | nil =>
      rw [hrec] at hrep
      obtain ⟨rfl, -⟩ := Prod.mk.inj (Option.some.inj ((unlog_empty hrep msgId).symm.trans he))
      rw [hrep.recorded]
      exact ⟨hrep, .refl _⟩
    | cons hd q =>
      rw [hrec] at hrep hhead
      obtain rfl := Option.some.inj (hhead (List.cons_ne_nil hd q))
      rw [unlog_cons hrep, if_pos rfl] at he
      cases he
      have htail := rep_tail hrep
      rw [htail.recorded]
      exact ⟨htail, List.sublist_cons_self hd q⟩
  exact h.shrinks (h.shrinks_setUser rfl (.refl _) (.refl _) hcq.1 hcq.2 .inl)

theorem AckInv.connect {m m' : ClMgmt} {e : Option ClIdx} (h : AckInv m) {ctx : Nat}
    {cleanSession : Bool} {clientId : Option (List UInt8)} {will : Option Nat}
    (hf : cleanSession = false → ∀ i, connectIdx m clientId = some i → SessFresh m i)
    (he : clStep m (.connect ctx cleanSession clientId will) = some (m', e)) : AckInv m' := by
  unfold clStep at he
  simp only at he
  split at he
  · cases he
    exact h
  · rename_i i present m₁ hrx
    obtain ⟨u, rfl, hu, hctx⟩ := clConnectRx_spec hrx
    have hidx := clConnectRx_idx hrx
    unfold clOnConnackSend at he
    simp only [setUser_users_self, hu.assigned, if_true, setUser_setUser] at he
    cases cleanSession with
    | true =>
      cases he
      refine h.sessionDelete (i := i) (u := { u with
          assigned := false
          cleanSession := true
          connected := true
          qos2TxCq := qos2PubCqReset
          qos2RxCq := qos2PubCqReset }) ?_ rfl rfl rfl
      unfold Server.sessionDelete ClMgmt.setUser
      simp only [Function.update_self, Function.update_idem]
    | false =>
      have hfresh := hf rfl i hidx
      simp only [Bool.false_eq_true, if_false] at he
      split at he
      · cases he
      · rename_i m₂ hres
        cases he
        have hset := h.setUser (i := i)
          (u := { u with assigned := false, cleanSession := false, connected := true }) hu.txQueue
          fun _ => rfl
        have hrec : ∀ k, txRecorded (m.setUser i
            { u with assigned := false, cleanSession := false, connected := true }) k =
            txRecorded m k := by
          intro k
          unfold txRecorded
          by_cases hk : k = i
          · rw [hk, setUser_users_self]
            exact congrArg _ hu.txQueue
          · rw [setUser_users_ne _ _ hk]
        refine hset.sessionResume (c := ctx) ⟨?_, ?_, ?_⟩ ⟨hfresh.distinct, hfresh.waiting, ?_⟩ hres
        · rw [setUser_users_self]
        · rw [setUser_users_self]
        · rw [setUser_users_self]
          exact hctx
        · intro p hp k hbit
          rw [hrec k]
          exact hfresh.recorded p hp k hbit

theorem AckInv.pubMsgSend {m m' : ClMgmt} (h : AckInv m) {topic data : List UInt8} {qos : MqttQos}
    {retain : Bool} {clMap : BitVec 32} (hf : FreshIds m (.pubMsgSend topic data qos retain clMap))
    (he : pubMsgSend m topic data qos retain clMap = some m') : AckInv m' := by
  obtain ⟨hclients, hfresh⟩ := hf
  have henv : ∀ env, AckInv { m with env := env } := fun _ =>
    ⟨⟨h.ids.waiting, h.ids.inFlight⟩, h.queue, h.acks, h.sess⟩
  unfold Server.pubMsgSend Env.malloc at he
  simp only at he
  split at he
  · split at he
    · cases hq : qos with
      | qos0 =>
        subst hq
        exact (henv _).clPubDispatch rfl hclients (fun hne => absurd rfl hne) he
      | qos1 =>
        subst hq
        exact (henv _).clPubDispatch rfl hclients (fun _ => hfresh nofun) he
      | qos2 =>
        subst hq
        exact (henv _).clPubDispatch rfl hclients (fun _ => hfresh nofun) he
    · cases he
      split
      · exact henv _
      · exact henv _
  · cases he
    exact henv _

theorem clStep_ackInv {m m' : ClMgmt} {op : ClOp} {e : Option ClIdx} (h : AckInv m)
    (hf : FreshIds m op) (hs : clStep m op = some (m', e)) : AckInv m' := by
  cases op with
  | pubMsgSend topic data qos retain clMap =>
    unfold clStep at hs
    simp only at hs
    split at hs
    · cases hs
    · rename_i m₁ he
      cases hs
      exact h.pubMsgSend hf he
  | connect ctx cleanSession clientId will => exact h.connect hf hs
  | onNetClose i =>
    unfold clStep at hs
    simp only at hs
    split at hs
    · cases hs
      exact h.clOnNetClose i
    · cases hs
      exact h
  | notifyAck i t msgId =>
    unfold clStep clNotifyAck at hs
    simp only at hs
    split at hs
    · rename_i hconn
      cases t with
      | puback =>
        cases hs
        exact h.puback i msgId
      | pubrec =>
        simp only at hs
        split at hs
        · cases hs
        · rename_i he
          cases hs
          exact (procPubRecRx_some h he).2 (hf hconn)
      | pubrel =>
        simp only at hs
        split at hs
        · cases hs
        · rename_i he
          cases hs
          exact h.pubrel he
      | pubcomp =>
        simp only at hs
        cases he : qos2PubCqUnlog (m.users i).qos2TxCq msgId with
        | none =>
          rw [he] at hs
          cases hs
        | some p =>
          rw [he] at hs
          cases hs
          exact h.pubcomp (hf hconn) he
    · cases hs
      exact h
  | vhMsgSend i t msgId =>
    cases hs
    exact h.vhMsgSend _ t msgId
  | qos2PubRxUpdate i msgId =>
    unfold clStep clMgmtQos2PubRxUpdate at hs
    simp only at hs
    split at hs
    · cases hs
    · rename_i he
      cases hs
      split at he
      · cases he
      · cases he
        exact h
      · split at he
        · cases he
        · cases he
          exact h.setUser rfl id
  | subCount i add =>
    cases hs
    cases add with
    | true => exact h.subCount i _ _
    | false => exact h.subCount i _ _

/-- **An acknowledgement retires its packet and no other** in the runs whose steps bring in no
identifier that is in use: what waits, and what is in flight to one client, has different identifiers
in every state reached. -/
theorem acks_exact (sendOk mallocOk : Nat → Bool) (ops : List ClOp)
    (hops : Meets clStep FreshIds (clMgmtInit sendOk mallocOk) ops) :
    ∀ before after, ops = before ++ after →
      ∀ m es, runs clStep (clMgmtInit sendOk mallocOk) before = some (m, es) →
        IdsDistinct m ∧ AcksExact m := by
  rintro before after rfl m es hbefore
  obtain ⟨hpre, -⟩ := hops.append hbefore
  have hinv := hpre.preserves (I := AckInv) clStep_ackInv (ackInv_init sendOk mallocOk) hbefore
  exact ⟨hinv.ids, hinv.acksExact⟩

local instance neZero_twoClients : NeZero maxClients := ⟨by decide⟩

/-- Packets of QoS1 and QoS2 for two clients, one of which is away for some time. -/
def twoClientsOps : List ClOp :=
  [.connect 7 false (some [0x61]) none, .connect 8 false (some [0x62]) none,
    .pubMsgSend [0x74] [] .qos2 false 3#32, .notifyAck 0 .pubrec 1, .onNetClose 1,
    .pubMsgSend [0x74] [] .qos1 false 3#32, .notifyAck 0 .puback 3,
    .connect 9 false (some [0x62]) none, .notifyAck 0 .pubcomp 1]

theorem acks_exact_two_clients :
    ∃ m es, runs clStep (clMgmtInit allOk allOk) twoClientsOps = some (m, es) ∧
      IdsDistinct m ∧ AcksExact m :=
  ⟨_, _, rfl, acks_exact allOk allOk twoClientsOps (by decide) twoClientsOps []
    (List.append_nil _).symm _ _ rfl⟩

/-- The packet that a client finds in its session has the identifier of the one that another client
has not acknowledged: its PUBACK is taken for that one. A client that sends a PUBREC again while
another client has not sent its own has the identifier on record twice. -/
theorem acks_not_exact :
    (∃ m es, runs clStep (clMgmtInit allOk allOk)
        [.connect 7 false (some [0x61]) none, .connect 8 false (some [0x62]) none, .onNetClose 1,
          .pubMsgSend [0x74] [] .qos1 false 3#32, .connect 9 false (some [0x62]) none] =
          some (m, es) ∧ ¬ IdsDistinct m ∧ ¬ AcksExact m) ∧
    ∃ m es, runs clStep (clMgmtInit allOk allOk)
        [.connect 7 false (some [0x61]) none, .connect 8 false (some [0x62]) none,
          .pubMsgSend [0x74] [] .qos2 false 3#32, .notifyAck 0 .pubrec 1, .notifyAck 0 .pubrec 1] =
          some (m, es) ∧ ¬ IdsDistinct m := by
  refine ⟨⟨_, _, rfl, fun h => ?_, fun h => ?_⟩, _, _, rfl, fun h => ?_⟩
  · have hdup := h.waiting
    revert hdup
    decide
  · have hack := h.puback 1 1 true _ rfl (by decide) 1
    revert hack
    decide
  · have hdup := h.inFlight 0
    revert hdup
    decide

end SimpleLink.Server
