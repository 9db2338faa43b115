import Mathlib.Data.List.Nodup
import SimpleLink.Server.Publish

/-!
# Connecting and dispatching (`client_mgmt.c`)

A CONNECT is assigned a client that is away. `pub_dispatch` sends a packet to
the connected clients of its map, and appends it to the wait lists. It changes
no client and takes nothing off a list. `DispatchOk` says which sends have to
succeed for no client with a persistent session to be left out.
-/

namespace SimpleLink.Server

open Lib Mqtt

/-! ## Clients -/

@[simp] theorem setUser_users_self (m : ClMgmt) (i : ClIdx) (u : ClientUsr) :
    (m.setUser i u).users i = u := Function.update_self ..

theorem setUser_users_ne (m : ClMgmt) {i j : ClIdx} (u : ClientUsr) (h : j ≠ i) :
    (m.setUser i u).users j = m.users j := Function.update_of_ne h ..

theorem setUser_setUser (m : ClMgmt) (i : ClIdx) (u v : ClientUsr) :
    (m.setUser i u).setUser i v = m.setUser i v := by
  unfold ClMgmt.setUser
  simp only [Function.update_idem]

@[simp] theorem setUser_env (m : ClMgmt) (i : ClIdx) (u : ClientUsr) :
    (m.setUser i u).env = m.env := rfl

@[simp] theorem setUser_qosAck1Wl (m : ClMgmt) (i : ClIdx) (u : ClientUsr) :
    (m.setUser i u).qosAck1Wl = m.qosAck1Wl := rfl

@[simp] theorem setUser_sessMqpWl (m : ClMgmt) (i : ClIdx) (u : ClientUsr) :
    (m.setUser i u).sessMqpWl = m.sessMqpWl := rfl

def HasCtx (m : ClMgmt) : Prop := ∀ j, (m.users j).connected = true → (m.users j).ctx ≠ none

theorem HasCtx.of_users {m m' : ClMgmt} (h : HasCtx m) (hu : m'.users = m.users) : HasCtx m' := by
  unfold HasCtx
  rw [hu]
  exact h

theorem bit_clBmap (i j : ClIdx) : bit (clBmap i) j = decide (j = i) := by
  unfold clBmap
  rw [bit_mask]
  have := j.isLt
  simp only [Fin.ext_iff, maxClients] at *
  rw [decide_eq_decide]
  omega

theorem bit_clear_clBmap (bm : BitVec 32) (i j : ClIdx) :
    bit (bm &&& ~~~clBmap i) j = (bit bm j && !decide (j = i)) := by
  unfold clBmap
  rw [bit_clear]
  simp only [Fin.ext_iff]

/-- The client that a CONNECT gets: it was away, and has the queues it had. -/
structure Assigned (m : ClMgmt) (i : ClIdx) (u : ClientUsr) : Prop where
  queue : u.qos2RxCq = (m.users i).qos2RxCq
  txQueue : u.qos2TxCq = (m.users i).qos2TxCq
  assigned : u.assigned = true
  away : (m.users i).connected = false

theorem assignClUsr_spec {m m' : ClMgmt} {clientId : Option (List UInt8)} {i : ClIdx}
    (h : assignClUsr m clientId = some (i, m')) : ∃ u, m' = m.setUser i u ∧ Assigned m i u := by
  unfold assignClUsr at h
  split at h
  · simp only at h
    split at h
    · cases h
    · rename_i hconn
      cases h
      exact ⟨_, rfl, rfl, rfl, rfl, Bool.eq_false_iff.2 hconn⟩
  · rename_i hfind
    cases h
    refine ⟨_, rfl, rfl, rfl, rfl, ?_⟩
    have hfree := List.find?_some (Prod.mk.inj hfind).1
    unfold ClientUsr.isFree ClientUsr.flagless at hfree
    simp only [Bool.and_eq_true, Bool.not_eq_true'] at hfree
    exact hfree.1.1.1
  · cases h

theorem clConnectRx_spec {m m' : ClMgmt} {ctx : Nat} {cleanSession present : Bool}
    {clientId : Option (List UInt8)} {will : Option Nat} {i : ClIdx}
    (h : clConnectRx m ctx cleanSession clientId will = some (i, present, m')) :
    ∃ u, m' = m.setUser i u ∧ Assigned m i u ∧ u.ctx = some ctx := by
  unfold clConnectRx at h
  split at h
  · cases h
  · split at h
    · cases h
    · rename_i i₁ m₁ he
      obtain ⟨u, rfl, hu⟩ := assignClUsr_spec he
      obtain ⟨rfl, hm⟩ := Prod.mk.inj (Option.some.inj h)
      obtain ⟨-, rfl⟩ := Prod.mk.inj hm
      refine ⟨{ u with ctx := some ctx, will := will }, ?_, ⟨hu.queue, hu.txQueue, hu.assigned, hu.away⟩,
        rfl⟩
      rw [setUser_setUser, setUser_users_self]

/-! ## Sends -/

/-- All that happened is that `n` packets were sent, no acknowledgements among them. -/
def SendsPubs (m m' : ClMgmt) (n : Nat) : Prop :=
  ∃ l, m' = { m with env := { m.env with sends := l ++ m.env.sends } } ∧ l.length = n ∧
    ∀ p ∈ l, p.ack? = none

theorem SendsPubs.refl (m : ClMgmt) : SendsPubs m m 0 := ⟨[], rfl, rfl, nofun⟩

theorem SendsPubs.trans {m₁ m₂ m₃ : ClMgmt} {a b : Nat} (h : SendsPubs m₁ m₂ a)
    (h' : SendsPubs m₂ m₃ b) : SendsPubs m₁ m₃ (a + b) := by
  obtain ⟨l, rfl, rfl, hp⟩ := h
  obtain ⟨l', rfl, rfl, hp'⟩ := h'
  refine ⟨l' ++ l, by rw [List.append_assoc], by rw [List.length_append, Nat.add_comm], ?_⟩
  intro p hmem
  rcases List.mem_append.1 hmem with hmem | hmem
  · exact hp' p hmem
  · exact hp p hmem

theorem SendsPubs.users {m m' : ClMgmt} {n : Nat} (h : SendsPubs m m' n) : m'.users = m.users := by
  obtain ⟨l, rfl, -⟩ := h
  rfl

theorem SendsPubs.sends_length {m m' : ClMgmt} {n : Nat} (h : SendsPubs m m' n) :
    m'.env.sends.length = m.env.sends.length + n := by
  obtain ⟨l, rfl, rfl, -⟩ := h
  exact List.length_append.trans (Nat.add_comm ..)

theorem SendsPubs.sendOk {m m' : ClMgmt} {n : Nat} (h : SendsPubs m m' n) :
    m'.env.sendOk = m.env.sendOk := by
  obtain ⟨l, rfl, -⟩ := h
  rfl

theorem pubDispatchTo_sends {m : ClMgmt} {i : ClIdx} (h : (m.users i).ctx ≠ none) (mqp : Mqp)
    (dup : Bool) :
    ∃ m', pubDispatchTo m i mqp dup = some (m.env.sendOk m.env.sends.length, m') ∧
      SendsPubs m m' 1 := by
  obtain ⟨c, hc⟩ := Option.ne_none_iff_exists'.1 h
  unfold pubDispatchTo
  rw [hc]
  refine ⟨_, rfl, [.pub c mqp dup], rfl, rfl, ?_⟩
  simp [Sent.ack?]

@[simp] theorem mqttVhMsgSend_users (m : ClMgmt) (ctx : Option Nat) (t : AckType) (id : UInt16) :
    (mqttVhMsgSend m ctx t id).2.users = m.users := by
  unfold mqttVhMsgSend
  split <;> rfl

@[simp] theorem mqttVhMsgSend_qosAck1Wl (m : ClMgmt) (ctx : Option Nat) (t : AckType)
    (id : UInt16) : (mqttVhMsgSend m ctx t id).2.qosAck1Wl = m.qosAck1Wl := by
  unfold mqttVhMsgSend
  split <;> rfl

@[simp] theorem mqttVhMsgSend_sessMqpWl (m : ClMgmt) (ctx : Option Nat) (t : AckType)
    (id : UInt16) : (mqttVhMsgSend m ctx t id).2.sessMqpWl = m.sessMqpWl := by
  unfold mqttVhMsgSend
  split <;> rfl

/-! ## The loop over the clients -/

/-- From client to client, from the `n`-th send on: the send to a connected client with a persistent
session succeeds. -/
def DispatchOk (m : ClMgmt) (clMap : BitVec 32) : List ClIdx → Nat → Prop
  | [], _ => True
  | i :: is, n =>
    if bit clMap i ∧ (m.users i).connected then
      ((m.users i).cleanSession = false → m.env.sendOk n = true) ∧ DispatchOk m clMap is (n + 1)
    else DispatchOk m clMap is n

def sendCount (m : ClMgmt) (clMap : BitVec 32) (is : List ClIdx) : Nat :=
  (is.filter fun i : ClIdx => bit clMap i && (m.users i).connected).length

/-- What the loop has done: `a` and `b` are the map and the map of the sessions before it, `a'` and
`b'` afterwards. -/
structure LoopDone (m : ClMgmt) (mqp : Mqp) (is : List ClIdx) (a b a' b' : BitVec 32) : Prop where
  other : ∀ j, j ∉ is → bit a' j = bit a j
  session : ∀ j : ClIdx, bit b j → bit b' j
  same : (∀ j ∈ is, bit a j → (m.users j).isInactive = false) → b' = b
  waits : DispatchOk m a is m.env.sends.length → mqp.qos ≠ .qos0 → ∀ j ∈ is, bit a j →
    (m.users j).connected = true → (m.users j).cleanSession = false → bit a' j
  keeps : ∀ j ∈ is, bit a j → (m.users j).isInactive = true → bit b' j

theorem isInactive_of_connected {u : ClientUsr} (h : u.connected = true) : u.isInactive = false := by
  unfold ClientUsr.isInactive ClientUsr.flagless
  rw [h]
  rfl

theorem needToWaitListPublish_of {qos : MqttQos} {u : ClientUsr} (hq : qos ≠ .qos0)
    (hc : u.cleanSession = false) : needToWaitListPublish qos u = true := by
  cases qos with
  | qos0 => exact absurd rfl hq
  | qos1 => simp [needToWaitListPublish, hc]
  | qos2 => rfl

theorem DispatchOk.congr {m m' : ClMgmt} {a a' : BitVec 32} (hu : m'.users = m.users)
    (hok : m'.env.sendOk = m.env.sendOk) {is : List ClIdx} :
    ∀ {n}, (∀ j ∈ is, bit a' j = bit a j) → DispatchOk m a is n → DispatchOk m' a' is n := by
  induction is with
  | nil => exact fun _ _ => trivial
  | cons i is ih =>
    intro n hbit h
    have htail : ∀ j ∈ is, bit a' j = bit a j := fun j hj => hbit j (List.mem_cons_of_mem _ hj)
    unfold DispatchOk at h ⊢
    rw [hbit i List.mem_cons_self, hu, hok]
    split
    · rename_i hc
      rw [if_pos hc] at h
      exact ⟨h.1, ih htail h.2⟩
    · rename_i hc
      rw [if_neg hc] at h
      exact ih htail h

/-- One client of the loop: the rest of the loop goes on with `m₁`, `a₁` and `b₁`. -/
theorem pubDispatchLoop_cons {m : ClMgmt} (h : HasCtx m) (mqp : Mqp) (i : ClIdx)
    (is : List ClIdx) (a b : BitVec 32) :
    ∃ m₁ a₁ b₁, pubDispatchLoop mqp (i :: is) m a b = pubDispatchLoop mqp is m₁ a₁ b₁ ∧
      SendsPubs m m₁ (sendCount m a [i]) ∧ (∀ j, j ≠ i → bit a₁ j = bit a j) ∧
      (∀ j : ClIdx, bit b j → bit b₁ j) ∧
      ((bit a i → (m.users i).isInactive = false) → b₁ = b) ∧
      (bit a i → (m.users i).isInactive = true → bit b₁ i) ∧
      (mqp.qos ≠ .qos0 → bit a i → (m.users i).connected = true →
        (m.users i).cleanSession = false → m.env.sendOk m.env.sends.length = true → bit a₁ i) := by
  by_cases hbit : bit a i = true
  · by_cases hconn : (m.users i).connected = true
    · obtain ⟨m₁, he, hs⟩ := pubDispatchTo_sends (h i hconn) mqp false
      have hin := isInactive_of_connected hconn
      have hcount : sendCount m a [i] = 1 := by simp [sendCount, hbit, hconn]
      rw [hcount]
      by_cases hok : (m.env.sendOk m.env.sends.length &&
          needToWaitListPublish mqp.qos (m.users i)) = true
      · refine ⟨m₁, a, b, ?_, hs, fun _ _ => rfl, fun _ hj => hj, fun _ => rfl, ?_,
          fun _ hb _ _ _ => hb⟩
        · simp only [pubDispatchLoop, hbit, hconn, he, if_true, Bool.true_and, hok]
        · rw [hin]
          exact fun _ => nofun
      · refine ⟨m₁, a &&& ~~~clBmap i, b, ?_, hs, fun j hj => ?_, fun _ hj => hj, fun _ => rfl, ?_,
          fun hq _ _ hclean hsent => ?_⟩
        · simp only [pubDispatchLoop, hbit, hconn, he, if_true, Bool.true_and, hok, hin,
            Bool.false_eq_true, if_false]
        · rw [bit_clear_clBmap, decide_eq_false hj]
          exact Bool.and_true _
        · rw [hin]
          exact fun _ => nofun
        · rw [hsent, needToWaitListPublish_of hq hclean] at hok
          exact absurd rfl hok
    · have hcount : sendCount m a [i] = 0 := by simp [sendCount, hconn]
      rw [hcount]
      refine ⟨m, a &&& ~~~clBmap i, if (m.users i).isInactive then b ||| clBmap i else b, ?_,
        .refl m, fun j hj => ?_, fun j hj => ?_, fun hin => ?_, fun _ hin => ?_,
        fun _ _ hc => absurd hc hconn⟩
      · simp only [pubDispatchLoop, hbit, hconn, if_true, if_false, Bool.false_and,
          Bool.false_eq_true]
      · rw [bit_clear_clBmap, decide_eq_false hj]
        exact Bool.and_true _
      · split
        · rw [bit_or, hj]
          rfl
        · exact hj
      · rw [hin hbit]
        rfl
      · rw [hin, if_pos rfl, bit_or, bit_clBmap, decide_eq_true rfl]
        exact Bool.or_true _
  · have hcount : sendCount m a [i] = 0 := by simp [sendCount, hbit]
    rw [hcount]
    refine ⟨m, a, b, ?_, .refl m, fun _ _ => rfl, fun _ hj => hj, fun _ => rfl,
      fun hb => absurd hb hbit, fun _ hb => absurd hb hbit⟩
    simp only [pubDispatchLoop, hbit, if_false, Bool.false_eq_true]

theorem pubDispatchLoop_spec (mqp : Mqp) {is : List ClIdx} (hnodup : is.Nodup) :
    ∀ {m}, HasCtx m → ∀ a b, ∃ m' a' b', pubDispatchLoop mqp is m a b = some (m', a', b') ∧
      SendsPubs m m' (sendCount m a is) ∧ LoopDone m mqp is a b a' b' := by
  induction is with
  | nil =>
    intro m h a b
    exact ⟨m, a, b, rfl, .refl m, fun _ _ => rfl, fun _ hj => hj, fun _ => rfl, fun _ _ => nofun,
      nofun⟩
  | cons i is ih =>
    intro m h a b
    obtain ⟨hi, hnodup⟩ := List.nodup_cons.1 hnodup
    obtain ⟨m₁, a₁, b₁, he, hs₁, ha₁, hb₁, hsame₁, hkeep₁, hwait₁⟩ :=
      pubDispatchLoop_cons h mqp i is a b
    obtain ⟨m', a', b', he', hs', hdone⟩ := ih hnodup (h.of_users hs₁.users) a₁ b₁
    have hne : ∀ {j}, j ∈ is → j ≠ i := fun hj he => hi (he ▸ hj)
    have hbits : ∀ j ∈ is, bit a₁ j = bit a j := fun j hj => ha₁ j (hne hj)
    have hu := hs₁.users
    have hcount : sendCount m a [i] + sendCount m₁ a₁ is = sendCount m a (i :: is) := by
      have htail : sendCount m₁ a₁ is = sendCount m a is := by
        unfold sendCount
        rw [List.filter_congr fun j hj => by rw [hbits j hj, hu]]
      rw [htail]
      unfold sendCount
      rw [← List.length_append, ← List.filter_append]
      rfl
    refine ⟨m', a', b', he.trans he', hcount ▸ hs₁.trans hs', ?_, ?_, ?_, ?_, ?_⟩
    · intro j hj
      rw [List.mem_cons, not_or] at hj
      rw [hdone.other j hj.2, ha₁ j hj.1]
    · exact fun j hj => hdone.session j (hb₁ j hj)
    · intro hin
      rw [hdone.same fun j hj hb => ?_, hsame₁ (hin i List.mem_cons_self)]
      rw [hu]
      exact hin j (List.mem_cons_of_mem _ hj) (hbits j hj ▸ hb)
    · intro hok hq j hj hb hconn hclean
      unfold DispatchOk at hok
      rcases List.mem_cons.1 hj with rfl | hj
      · rw [if_pos ⟨hb, hconn⟩] at hok
        rw [hdone.other j hi]
        exact hwait₁ hq hb hconn hclean (hok.1 hclean)
      · refine hdone.waits ?_ hq j hj (by rw [hbits j hj, hb]) (by rw [hu, hconn])
          (by rw [hu, hclean])
        refine DispatchOk.congr hu hs₁.sendOk hbits ?_
        rw [hs₁.sends_length]
        unfold sendCount
        split at hok
        · rename_i hc
          rw [List.filter_cons_of_pos (by simpa using hc)]
          exact hok.2
        · rename_i hc
          rw [List.filter_cons_of_neg (by simpa using hc)]
          exact hok
    · intro j hj hb hin
      rcases List.mem_cons.1 hj with rfl | hj
      · exact hdone.session j (hkeep₁ hb hin)
      · exact hdone.keeps j hj (by rw [hbits j hj, hb]) (by rw [hu, hin])

/-! ## A dispatch -/

def Mqp.msg (mqp : Mqp) : Mqp := { mqp with clMap := 0#32 }

def InWl (wl : List Mqp) (i : ClIdx) (msg : Mqp) : Prop :=
  ∃ mqp ∈ wl, mqp.msg = msg ∧ bit mqp.clMap i = true

theorem InWl.left {wl : List Mqp} {i : ClIdx} {msg : Mqp} (h : InWl wl i msg) (l : List Mqp) :
    InWl (wl ++ l) i msg := by
  obtain ⟨mqp, hmem, hmsg, hbit⟩ := h
  exact ⟨mqp, List.mem_append_left _ hmem, hmsg, hbit⟩

theorem InWl.right {wl : List Mqp} {i : ClIdx} {msg : Mqp} (h : InWl wl i msg) (l : List Mqp) :
    InWl (l ++ wl) i msg := by
  obtain ⟨mqp, hmem, hmsg, hbit⟩ := h
  exact ⟨mqp, List.mem_append_right _ hmem, hmsg, hbit⟩

theorem inWl_single {mqp : Mqp} {i : ClIdx} {clMap : BitVec 32} (h : bit clMap i = true) :
    InWl [{ mqp with clMap := mqp.clMap ||| clMap }] i mqp.msg :=
  ⟨_, List.mem_singleton_self _, rfl, by simp only [bit_or, h, Bool.or_true]⟩

theorem ne_zero_of_bit {bm : BitVec 32} {k : Nat} (h : bit bm k = true) : bm ≠ 0#32 := by
  rintro rfl
  rw [bit_zero] at h
  cases h

/-- No client changes, nothing is taken off a wait list, only PUBLISH packets are sent. -/
structure Appends (m m' : ClMgmt) : Prop where
  users : m'.users = m.users
  acks : ∃ l, m'.qosAck1Wl = m.qosAck1Wl ++ l
  sess : ∃ l, m'.sessMqpWl = m.sessMqpWl ++ l
  sends : ∃ l, m'.env.sends = l ++ m.env.sends ∧ ∀ p ∈ l, p.ack? = none

theorem Appends.of_eq {m m' : ClMgmt} (hu : m'.users = m.users) (ha : m'.qosAck1Wl = m.qosAck1Wl)
    (hs : m'.sessMqpWl = m.sessMqpWl) (he : m'.env.sends = m.env.sends) : Appends m m' where
  users := hu
  acks := ⟨[], by rw [ha, List.append_nil]⟩
  sess := ⟨[], by rw [hs, List.append_nil]⟩
  sends := ⟨[], he, nofun⟩

theorem Appends.refl (m : ClMgmt) : Appends m m := .of_eq rfl rfl rfl rfl

theorem Appends.trans {m₁ m₂ m₃ : ClMgmt} (h : Appends m₁ m₂) (h' : Appends m₂ m₃) :
    Appends m₁ m₃ where
  users := h'.users.trans h.users
  acks := by
    obtain ⟨l, hl⟩ := h.acks
    obtain ⟨l', hl'⟩ := h'.acks
    exact ⟨l ++ l', by rw [hl', hl, List.append_assoc]⟩
  sess := by
    obtain ⟨l, hl⟩ := h.sess
    obtain ⟨l', hl'⟩ := h'.sess
    exact ⟨l ++ l', by rw [hl', hl, List.append_assoc]⟩
  sends := by
    obtain ⟨l, hl, hp⟩ := h.sends
    obtain ⟨l', hl', hp'⟩ := h'.sends
    refine ⟨l' ++ l, by rw [hl', hl, List.append_assoc], fun p hmem => ?_⟩
    rcases List.mem_append.1 hmem with hmem | hmem
    · exact hp' p hmem
    · exact hp p hmem

theorem SendsPubs.appends {m m' : ClMgmt} {n : Nat} (h : SendsPubs m m' n) : Appends m m' := by
  obtain ⟨l, rfl, -, hp⟩ := h
  exact ⟨rfl, ⟨[], (List.append_nil _).symm⟩, ⟨[], (List.append_nil _).symm⟩, l, rfl, hp⟩

theorem sessWlAppend_appends (m : ClMgmt) (spMap : BitVec 32) (mqp : Mqp) :
    Appends m (sessWlAppend m spMap mqp) := by
  unfold sessWlAppend
  split
  · exact ⟨rfl, ⟨[], (List.append_nil _).symm⟩, ⟨_, rfl⟩, [], rfl, nofun⟩
  · exact .refl m

theorem ack1WlAppend_appends (m : ClMgmt) (clMap : BitVec 32) (mqp : Mqp) :
    Appends m (ack1WlAppend m clMap mqp) := by
  unfold ack1WlAppend
  split
  · exact ⟨rfl, ⟨_, rfl⟩, ⟨[], (List.append_nil _).symm⟩, [], rfl, nofun⟩
  · exact .refl m

theorem clPubDispatch_eq {m : ClMgmt} (h : HasCtx m) (clMap : BitVec 32) (mqp : Mqp) :
    ∃ m₁ a b, clPubDispatch m clMap mqp = some (ack1WlAppend (sessWlAppend m₁ b mqp) a mqp) ∧
      SendsPubs m m₁ (sendCount m clMap (List.finRange maxClients)) ∧
      LoopDone m mqp (List.finRange maxClients) clMap 0#32 a b := by
  obtain ⟨m₁, a, b, he, hs, hdone⟩ :=
    pubDispatchLoop_spec mqp (List.nodup_finRange maxClients) h clMap 0#32
  refine ⟨m₁, a, b, ?_, hs, hdone⟩
  unfold clPubDispatch
  rw [he]

theorem clPubDispatch_appends {m : ClMgmt} (h : HasCtx m) (clMap : BitVec 32) (mqp : Mqp) :
    ∃ m', clPubDispatch m clMap mqp = some m' ∧ Appends m m' := by
  obtain ⟨m₁, a, b, he, hs, -⟩ := clPubDispatch_eq h clMap mqp
  exact ⟨_, he, (hs.appends.trans (sessWlAppend_appends ..)).trans (ack1WlAppend_appends ..)⟩

/-- Who is in the map gets the message: into `qos_ack1_wl` when the sends succeed, into
`sess_mqp_wl` when there is memory for a copy. -/
theorem clPubDispatch_queues {m m' : ClMgmt} (h : HasCtx m) {clMap : BitVec 32} {mqp : Mqp}
    (he : clPubDispatch m clMap mqp = some m') (hq : mqp.qos ≠ .qos0) {i : ClIdx}
    (hbit : bit clMap i = true) :
    (DispatchOk m clMap (List.finRange maxClients) m.env.sends.length →
      (m.users i).connected = true → (m.users i).cleanSession = false →
        InWl m'.qosAck1Wl i mqp.msg) ∧
    (m.env.mallocOk m.env.mallocs = true → (m.users i).isInactive = true →
      InWl m'.sessMqpWl i mqp.msg) := by
  obtain ⟨m₁, a, b, he', ⟨l, rfl, -⟩, hdone⟩ := clPubDispatch_eq h clMap mqp
  obtain rfl := Option.some.inj (he'.symm.trans he)
  constructor
  · intro hok hconn hclean
    have ha := hdone.waits hok hq i (List.mem_finRange i) hbit hconn hclean
    unfold ack1WlAppend
    rw [if_pos (ne_zero_of_bit ha)]
    exact (inWl_single ha).right _
  · intro hmem hin
    have hb := hdone.keeps i (List.mem_finRange i) hbit hin
    have hsess : InWl (sessWlAppend
        { m with env := { m.env with sends := l ++ m.env.sends } } b mqp).sessMqpWl i mqp.msg := by
      unfold sessWlAppend mqpServerCopy Env.malloc
      rw [if_pos (ne_zero_of_bit hb)]
      simp only [hmem, if_true]
      exact (inWl_single hb).right _
    obtain ⟨l', hl'⟩ := (ack1WlAppend_appends (sessWlAppend
        { m with env := { m.env with sends := l ++ m.env.sends } } b mqp) a mqp).sess
    rw [hl']
    exact hsess.left l'

theorem filter_eq_self_idx (p : ClIdx → Bool) (i : ClIdx) (hp : ∀ j, p j = true ↔ j = i) :
    ((List.finRange maxClients).filter p).length = 1 := by
  have hfun : p = fun j => j == i := by
    funext j
    rw [Bool.eq_iff_iff, hp j, beq_iff_eq]
  rw [hfun, ← List.countP_eq_length_filter]
  exact List.count_eq_one_of_mem (List.nodup_finRange _) (List.mem_finRange i)

theorem dispatchOk_clBmap {m : ClMgmt} {i : ClIdx} {is : List ClIdx} (hnodup : is.Nodup) :
    ∀ {n}, (i ∈ is → m.env.sendOk n = true) → DispatchOk m (clBmap i) is n := by
  induction is with
  | nil => exact fun _ => trivial
  | cons k is ih =>
    intro n hok
    obtain ⟨hk, hnodup⟩ := List.nodup_cons.1 hnodup
    unfold DispatchOk
    split
    · rename_i hc
      rw [bit_clBmap, decide_eq_true_iff] at hc
      obtain rfl := hc.1
      exact ⟨fun _ => hok List.mem_cons_self, ih hnodup fun hmem => absurd hmem hk⟩
    · exact ih hnodup fun hmem => hok (List.mem_cons_of_mem _ hmem)

theorem clPubDispatch_one {m : ClMgmt} (h : HasCtx m) {i : ClIdx}
    (hconn : (m.users i).connected = true) (mqp : Mqp) :
    ∃ m', clPubDispatch m (clBmap i) mqp = some m' ∧ Appends m m' ∧
      m'.sessMqpWl = m.sessMqpWl ∧ m'.env.sendOk = m.env.sendOk ∧
      m'.env.mallocOk = m.env.mallocOk ∧ m'.env.mallocs = m.env.mallocs ∧
      m'.env.sends.length = m.env.sends.length + 1 ∧
      (m.env.sendOk m.env.sends.length = true → (m.users i).cleanSession = false →
        mqp.qos ≠ .qos0 → InWl m'.qosAck1Wl i mqp.msg) := by
  obtain ⟨m₁, a, b, he, hs, hdone⟩ := clPubDispatch_eq h (clBmap i) mqp
  have hcount : sendCount m (clBmap i) (List.finRange maxClients) = 1 := by
    refine filter_eq_self_idx _ i fun j => ?_
    rw [Bool.and_eq_true, bit_clBmap, decide_eq_true_iff]
    exact ⟨And.left, fun hj => ⟨hj, hj ▸ hconn⟩⟩
  have hb : b = 0#32 := by
    refine hdone.same fun j _ hj => ?_
    rw [bit_clBmap, decide_eq_true_iff] at hj
    rw [hj]
    exact isInactive_of_connected hconn
  have hsess : sessWlAppend m₁ b mqp = m₁ := by
    unfold sessWlAppend
    rw [hb, if_neg fun hh => hh rfl]
  have hok : m.env.sendOk m.env.sends.length = true →
      DispatchOk m (clBmap i) (List.finRange maxClients) m.env.sends.length :=
    fun hsend => dispatchOk_clBmap (List.nodup_finRange _) fun _ => hsend
  rw [hcount] at hs
  have hlen := hs.sends_length
  rw [hsess] at he
  refine ⟨_, he, hs.appends.trans (ack1WlAppend_appends ..), ?_, ?_, ?_, ?_, ?_,
    fun hsend hclean hq => ?_⟩
  · obtain ⟨l, rfl, -⟩ := hs
    unfold ack1WlAppend
    split <;> rfl
  · obtain ⟨l, rfl, -⟩ := hs
    unfold ack1WlAppend
    split <;> rfl
  · obtain ⟨l, rfl, -⟩ := hs
    unfold ack1WlAppend
    split <;> rfl
  · obtain ⟨l, rfl, -⟩ := hs
    unfold ack1WlAppend
    split <;> rfl
  · rw [← hlen]
    unfold ack1WlAppend
    split <;> rfl
  · have hbit : bit (clBmap i) i = true := by rw [bit_clBmap, decide_eq_true rfl]
    exact (clPubDispatch_queues h he hq hbit).1 (hok hsend) hconn hclean

/-! ## Publishing -/

/-- The state in which `pub_msg_send` dispatches. -/
def msgIdAssigned (m : ClMgmt) (qos : MqttQos) : ClMgmt :=
  { m with env := { m.env with
      mallocs := m.env.mallocs + 1
      lastMsgId := if qos = .qos0 then m.env.lastMsgId else m.env.newMsgId } }

theorem pubMsgSend_eq (m : ClMgmt) (topic data : List UInt8) (qos : MqttQos) (retain : Bool)
    (clMap : BitVec 32) :
    pubMsgSend m topic data qos retain clMap =
      if m.env.mallocOk m.env.mallocs then
        if clMap ≠ 0#32 then
          clPubDispatch (msgIdAssigned m qos) clMap
            ⟨qos, retain, if qos = .qos0 then 0 else m.env.newMsgId, topic, data, 0#32⟩
        else some (msgIdAssigned m qos)
      else some { m with env := { m.env with mallocs := m.env.mallocs + 1 } } := by
  unfold pubMsgSend msgIdAssigned
  by_cases hq : qos = .qos0
  · simp only [hq, if_true]
    rfl
  · simp only [hq, if_false]
    rfl

theorem msgIdAssigned_appends (m : ClMgmt) (qos : MqttQos) : Appends m (msgIdAssigned m qos) :=
  .of_eq rfl rfl rfl rfl

theorem pubMsgSend_appends {m : ClMgmt} (h : HasCtx m) (topic data : List UInt8) (qos : MqttQos)
    (retain : Bool) (clMap : BitVec 32) :
    ∃ m', pubMsgSend m topic data qos retain clMap = some m' ∧ Appends m m' := by
  have hassigned := msgIdAssigned_appends m qos
  rw [pubMsgSend_eq]
  split
  · split
    · obtain ⟨m', he, happ⟩ := clPubDispatch_appends (m := msgIdAssigned m qos)
        (h.of_users rfl) clMap
        ⟨qos, retain, if qos = .qos0 then 0 else m.env.newMsgId, topic, data, 0#32⟩
      exact ⟨m', he, hassigned.trans happ⟩
    · exact ⟨_, rfl, hassigned⟩
  · exact ⟨_, rfl, .of_eq rfl rfl rfl rfl⟩

end SimpleLink.Server
