import SimpleLink.Server.Dispatch

/-!
# What a session gets when its client is back (`client_mgmt.c`)

`sess_wl_mqp_dispatch` goes through `sess_mqp_wl` for one client. `SessDispatched` says what it is
for: the client is sent its packets in order, and nothing changes for the other clients.
`sess_wl_mqp_dispatch_iff` says when it does that. The cursor is moved by the packets of the client
only, so that the first packet of others ends the loop, or is visited for ever once a packet of the
client came before it. A packet that is shared is copied with the bits of the others, and the copy
goes to `qos_ack1_wl` with them.
-/

namespace SimpleLink.Server

open Lib Mqtt

/-! ## What it is for -/

/-- `MQP_CL_MAP_CLR` of one client. -/
def Mqp.unmap (i : ClIdx) (mqp : Mqp) : Mqp := { mqp with clMap := mqp.clMap &&& ~~~clBmap i }

/-- The list without the client; a packet that nobody else waits for is released. -/
def sessLess (i : ClIdx) (wl : List Mqp) : List Mqp :=
  wl.filterMap fun mqp =>
    if bit mqp.clMap i then
      if (mqp.unmap i).clMap = 0#32 then none else some (mqp.unmap i)
    else some mqp

/-- The packets of the client were handed to its network `c`, oldest first. -/
structure SessDispatched (m m' : ClMgmt) (i : ClIdx) (c : Nat) : Prop where
  users : m'.users = m.users
  sends : m'.env.sends = ((m.sessMqpWl.filter fun mqp => bit mqp.clMap i).map fun mqp =>
    Sent.pub c (mqp.unmap i) false).reverse ++ m.env.sends
  left : m'.sessMqpWl = sessLess i m.sessMqpWl
  others : ∀ k, k ≠ i.val → m'.qosAck1Wl.filter (fun mqp => bit mqp.clMap k) =
    m.qosAck1Wl.filter fun mqp => bit mqp.clMap k

def SessDispatches (m : ClMgmt) (i : ClIdx) (c : Nat) : Prop :=
  ∃ m', sessWlMqpDispatch m i = some m' ∧ SessDispatched m m' i c

/-- From send `n` and allocation `k` on: each packet that is shared can be copied, and the copy is
not put to `qos_ack1_wl`. -/
def SharedOk (sendOk mallocOk : Nat → Bool) (i : ClIdx) : List Mqp → Nat → Nat → Prop
  | [], _, _ => True
  | mqp :: wl, n, k =>
    if (mqp.unmap i).clMap = 0#32 then SharedOk sendOk mallocOk i wl (n + 1) k
    else
      mallocOk k = true ∧ (mqp.qos = .qos0 ∨ sendOk n = false) ∧
        SharedOk sendOk mallocOk i wl (n + 1) (k + 1)

def SessDispatchExact (m : ClMgmt) (i : ClIdx) : Prop :=
  (∀ mqp ∈ m.sessMqpWl, bit mqp.clMap i = false) ∨
    (∀ mqp ∈ m.sessMqpWl, bit mqp.clMap i = true) ∧
      SharedOk m.env.sendOk m.env.mallocOk i m.sessMqpWl m.env.sends.length m.env.mallocs

/-! ## A dispatch to one client -/

theorem pubDispatchLoop_skip (mqp : Mqp) {is : List ClIdx} (is' : List ClIdx) (m : ClMgmt)
    {a : BitVec 32} (b : BitVec 32) (h : ∀ j ∈ is, bit a j = false) :
    pubDispatchLoop mqp (is ++ is') m a b = pubDispatchLoop mqp is' m a b := by
  induction is with
  | nil => rfl
  | cons j is ih =>
    rw [List.cons_append, pubDispatchLoop, if_neg (by simp [h j List.mem_cons_self])]
    exact ih fun r hr => h r (List.mem_cons_of_mem _ hr)

/-- What is appended to `qos_ack1_wl` after a send to a client with a persistent session. -/
def ackPart (sent : Bool) (i : ClIdx) (mqp : Mqp) : List Mqp :=
  if sent = true ∧ mqp.qos ≠ .qos0 then [{ mqp with clMap := mqp.clMap ||| clBmap i }] else []

/-- The client is connected to the network `c`, and its session persists. -/
structure Resumable (m : ClMgmt) (i : ClIdx) (c : Nat) : Prop where
  connected : (m.users i).connected = true
  cleanSession : (m.users i).cleanSession = false
  ctx : (m.users i).ctx = some c

variable {m : ClMgmt} {i : ClIdx} {c : Nat}

theorem clBmap_ne_zero (i : ClIdx) : clBmap i ≠ 0#32 :=
  ne_zero_of_bit (by rw [bit_clBmap, decide_eq_true rfl])

def sessSend (m : ClMgmt) (i : ClIdx) (c : Nat) (mqp : Mqp) : ClMgmt :=
  { m with
    env := { m.env with sends := .pub c mqp false :: m.env.sends }
    qosAck1Wl := m.qosAck1Wl ++ ackPart (m.env.sendOk m.env.sends.length) i mqp }

theorem clPubDispatch_client (h : Resumable m i c) (mqp : Mqp) :
    clPubDispatch m (clBmap i) mqp = some (sessSend m i c mqp) := by
  have hbit : bit (clBmap i) i = true := by rw [bit_clBmap, decide_eq_true rfl]
  have hzero : clBmap i &&& ~~~clBmap i = 0#32 := BitVec.and_not_self _
  -- the other clients, before and after this one
  obtain ⟨is, is', hsplit⟩ := List.append_of_mem (List.mem_finRange i)
  have hnodup := List.nodup_finRange maxClients
  rw [hsplit] at hnodup
  obtain ⟨-, htail, hdisj⟩ := List.nodup_append.1 hnodup
  have hbefore : ∀ j ∈ is, bit (clBmap i) j = false := fun j hj => by
    rw [bit_clBmap, decide_eq_false (hdisj j hj i List.mem_cons_self)]
  have hafter : ∀ j ∈ is', bit (clBmap i) j = false := fun j hj => by
    rw [bit_clBmap, decide_eq_false]
    rintro rfl
    exact (List.nodup_cons.1 htail).1 hj
  have hend : ∀ (m' : ClMgmt) (a : BitVec 32), (∀ j ∈ is', bit a j = false) →
      pubDispatchLoop mqp is' m' a 0#32 = some (m', a, 0#32) := by
    intro m' a ha
    have hskip := pubDispatchLoop_skip mqp [] m' 0#32 ha
    rwa [List.append_nil] at hskip
  have hneed : needToWaitListPublish mqp.qos (m.users i) = decide (mqp.qos ≠ .qos0) := by
    unfold needToWaitListPublish
    rw [h.cleanSession]
    cases mqp.qos <;> rfl
  unfold clPubDispatch sessSend
  rw [hsplit, pubDispatchLoop_skip mqp _ m 0#32 hbefore, pubDispatchLoop, if_pos hbit]
  simp only [h.connected, if_true, pubDispatchTo, h.ctx, Env.send, Bool.true_and, hneed,
    isInactive_of_connected h.connected, Bool.false_eq_true, if_false]
  by_cases hack : (m.env.sendOk m.env.sends.length = true ∧ mqp.qos ≠ .qos0)
  · rw [if_pos (by simpa using hack), hend _ _ hafter]
    simp only [ackPart, if_pos hack, sessWlAppend, ack1WlAppend, clBmap_ne_zero, ne_eq,
      not_true_eq_false, not_false_eq_true, if_true, if_false]
  · rw [if_neg (by simpa using hack), hzero, hend _ _ (fun j _ => bit_zero j)]
    simp only [ackPart, if_neg hack, sessWlAppend, ack1WlAppend, ne_eq, not_true_eq_false, if_false,
      List.append_nil]

theorem Resumable.of_users {m' : ClMgmt} (h : Resumable m i c) (hu : m'.users = m.users) :
    Resumable m' i c where
  connected := by rw [hu]; exact h.connected
  cleanSession := by rw [hu]; exact h.cleanSession
  ctx := by rw [hu]; exact h.ctx

def countMalloc (m : ClMgmt) : ClMgmt := { m with env := { m.env with mallocs := m.env.mallocs + 1 } }

theorem sessWlMqpDispatchFrom_own (h : Resumable m i c) {mqp : Mqp} (hbit : bit mqp.clMap i = true)
    (visited : Bool) (kept wl : List Mqp) :
    sessWlMqpDispatchFrom i visited kept (mqp :: wl) m =
      if (mqp.unmap i).clMap = 0#32 then
        sessWlMqpDispatchFrom i true kept wl (sessSend m i c (mqp.unmap i))
      else sessWlMqpDispatchFrom i true (kept ++ [mqp.unmap i]) wl
        (if m.env.mallocOk m.env.mallocs = true then sessSend (countMalloc m) i c (mqp.unmap i)
          else countMalloc m) := by
  rw [sessWlMqpDispatchFrom.eq_def]
  simp only [hbit, if_true]
  by_cases hzero : (mqp.unmap i).clMap = 0#32
  · rw [if_pos hzero, if_pos (show mqp.clMap &&& ~~~clBmap i = 0#32 from hzero)]
    have hone := clPubDispatch_client h (mqp.unmap i)
    unfold Mqp.unmap at hone
    rw [hone]
    rfl
  · rw [if_neg hzero, if_neg (show ¬ mqp.clMap &&& ~~~clBmap i = 0#32 from hzero)]
    unfold mqpServerCopy Env.malloc
    by_cases hcopy : m.env.mallocOk m.env.mallocs = true
    · have hcounted : Resumable (countMalloc m) i c := h.of_users rfl
      have hone := clPubDispatch_client hcounted (mqp.unmap i)
      unfold countMalloc Mqp.unmap at hone
      simp only [hcopy, if_true]
      rw [hone]
      rfl
    · simp only [hcopy]
      rfl

/-! ## A list with the client in every map -/

/-- The packets that are sent, from allocation `k` on: those that are not shared, and those that
can be copied. -/
def sessSent (mallocOk : Nat → Bool) (i : ClIdx) : List Mqp → Nat → List Mqp
  | [], _ => []
  | mqp :: wl, k =>
    if (mqp.unmap i).clMap = 0#32 then mqp.unmap i :: sessSent mallocOk i wl k
    else if mallocOk k then mqp.unmap i :: sessSent mallocOk i wl (k + 1)
    else sessSent mallocOk i wl (k + 1)

/-- What they leave in `qos_ack1_wl`, from send `n` on. -/
def sessAcked (sendOk : Nat → Bool) (i : ClIdx) : List Mqp → Nat → List Mqp
  | [], _ => []
  | mqp :: l, n => ackPart (sendOk n) i mqp ++ sessAcked sendOk i l (n + 1)

/-- The packets of `l` have been sent, and `left` is what remains of the session list. -/
structure SessRun (m m' : ClMgmt) (i : ClIdx) (c : Nat) (l left : List Mqp) : Prop where
  users : m'.users = m.users
  sends : m'.env.sends = (l.map fun mqp => Sent.pub c mqp false).reverse ++ m.env.sends
  left : m'.sessMqpWl = left
  acks : m'.qosAck1Wl = m.qosAck1Wl ++ sessAcked m.env.sendOk i l m.env.sends.length

theorem SessRun.sent {m' : ClMgmt} {mqp : Mqp} {l left : List Mqp}
    (h : SessRun (sessSend m i c mqp) m' i c l left) : SessRun m m' i c (mqp :: l) left where
  users := h.users
  sends := by
    rw [h.sends]
    simp [sessSend]
  left := h.left
  acks := by
    rw [h.acks, sessSend, List.append_assoc]
    rfl

theorem SessRun.counted {m' : ClMgmt} {l left : List Mqp} (h : SessRun (countMalloc m) m' i c l left) :
    SessRun m m' i c l left :=
  ⟨h.users, h.sends, h.left, h.acks⟩

theorem sessWlMqpDispatchFrom_all (wl : List Mqp) :
    ∀ visited kept {m : ClMgmt}, Resumable m i c → m.sessMqpWl = [] →
      (∀ mqp ∈ wl, bit mqp.clMap i = true) →
      ∃ m', sessWlMqpDispatchFrom i visited kept wl m = some m' ∧
        SessRun m m' i c (sessSent m.env.mallocOk i wl m.env.mallocs)
          (kept ++ (wl.map (Mqp.unmap i)).filter fun mqp => mqp.clMap ≠ 0#32) := by
  induction wl with
  | nil =>
    intro visited kept m _ hsess _
    refine ⟨_, rfl, rfl, rfl, ?_, (List.append_nil _).symm⟩
    simp [hsess]
  | cons mqp wl ih =>
    intro visited kept m h hsess hall
    have hrest : ∀ p ∈ wl, bit p.clMap i = true := fun p hp => hall p (List.mem_cons_of_mem _ hp)
    rw [sessWlMqpDispatchFrom_own h (hall mqp List.mem_cons_self), List.map_cons, sessSent]
    by_cases hzero : (mqp.unmap i).clMap = 0#32
    · obtain ⟨m', he, hrun⟩ := ih true kept (m := sessSend m i c (mqp.unmap i)) (h.of_users rfl)
        hsess hrest
      rw [if_pos hzero, if_pos hzero, List.filter_cons_of_neg (by simpa using hzero)]
      exact ⟨m', he, hrun.sent⟩
    · rw [if_neg hzero, if_neg hzero, List.filter_cons_of_pos (by simpa using hzero),
        List.append_cons kept (mqp.unmap i) ((wl.map (Mqp.unmap i)).filter _)]
      by_cases hcopy : m.env.mallocOk m.env.mallocs = true
      · obtain ⟨m', he, hrun⟩ := ih true (kept ++ [mqp.unmap i])
          (m := sessSend (countMalloc m) i c (mqp.unmap i)) (h.of_users rfl) hsess hrest
        rw [if_pos hcopy, if_pos hcopy]
        exact ⟨m', he, hrun.sent.counted⟩
      · obtain ⟨m', he, hrun⟩ := ih true (kept ++ [mqp.unmap i]) (m := countMalloc m)
          (h.of_users rfl) hsess hrest
        rw [if_neg hcopy, if_neg hcopy]
        exact ⟨m', he, hrun.counted⟩

/-! ## A list with packets of others -/

/-- Once a packet of the client has been visited, the first packet of others is visited for ever. -/
theorem sessWlMqpDispatchFrom_stuck (h : Resumable m i c) (wl : List Mqp) (kept : List Mqp)
    (hwl : ∃ mqp ∈ wl, bit mqp.clMap i = false) :
    sessWlMqpDispatchFrom i true kept wl m = none := by
  induction wl generalizing kept m with
  | nil =>
    obtain ⟨_, hmem, -⟩ := hwl
    cases hmem
  | cons mqp wl ih =>
    by_cases hbit : bit mqp.clMap i = true
    · have hrest : ∃ mqp ∈ wl, bit mqp.clMap i = false := by
        obtain ⟨p, hp, hnot⟩ := hwl
        rcases List.mem_cons.1 hp with rfl | hp
        · rw [hbit] at hnot
          cases hnot
        · exact ⟨p, hp, hnot⟩
      rw [sessWlMqpDispatchFrom_own h hbit]
      split
      · exact ih (m := sessSend m i c (mqp.unmap i)) (h.of_users rfl) kept hrest
      · refine ih (h.of_users ?_) _ hrest
        split <;> rfl
    · unfold sessWlMqpDispatchFrom
      rw [if_neg hbit, if_pos rfl]

theorem sessWlMqpDispatch_stuck (h : Resumable m i c) {mqp : Mqp} {wl : List Mqp}
    (hwl : m.sessMqpWl = mqp :: wl) (hbit : bit mqp.clMap i = true)
    (hrest : ∃ mqp ∈ wl, bit mqp.clMap i = false) : sessWlMqpDispatch m i = none := by
  have hstuck : ∀ kept m₂, m₂.users = m.users → sessWlMqpDispatchFrom i true kept wl m₂ = none :=
    fun kept _ hu => sessWlMqpDispatchFrom_stuck (h.of_users hu) wl kept hrest
  unfold sessWlMqpDispatch
  rw [hwl, sessWlMqpDispatchFrom_own (m := { m with sessMqpWl := [] }) (h.of_users rfl) hbit]
  split
  · exact hstuck _ _ (by rfl)
  · exact hstuck _ _ (by split <;> rfl)

theorem sessWlMqpDispatch_other {mqp : Mqp} {wl : List Mqp} (hwl : m.sessMqpWl = mqp :: wl)
    (hbit : bit mqp.clMap i = false) : sessWlMqpDispatch m i = some m := by
  unfold sessWlMqpDispatch
  rw [hwl]
  unfold sessWlMqpDispatchFrom
  rw [if_neg (by rw [hbit]; exact Bool.false_ne_true), if_neg Bool.false_ne_true, List.append_nil,
    List.nil_append, ← hwl]

/-! ## When it does what it is for -/

theorem bit_unmap (i : ClIdx) (mqp : Mqp) (k : Nat) :
    bit (mqp.unmap i).clMap k = (bit mqp.clMap k && !decide (k = i.val)) :=
  bit_clear mqp.clMap i.val k

theorem exists_bit_of_shared {mqp : Mqp} (h : (mqp.unmap i).clMap ≠ 0#32) :
    ∃ k, k ≠ i.val ∧ bit (mqp.unmap i).clMap k = true := by
  refine Classical.byContradiction fun hnone => h (eq_zero_of_bit fun k => ?_)
  by_cases hk : k = i.val
  · rw [bit_unmap, decide_eq_true hk, Bool.not_true, Bool.and_false]
  · exact Bool.eq_false_iff.2 fun hb => hnone ⟨k, hk, hb⟩

def NotForOthers (i : ClIdx) (l : List Mqp) : Prop :=
  ∀ k, k ≠ i.val → ∀ mqp ∈ l, bit mqp.clMap k = false

theorem notForOthers_append {l l' : List Mqp} :
    NotForOthers i (l ++ l') ↔ NotForOthers i l ∧ NotForOthers i l' := by
  constructor
  · intro h
    exact ⟨fun k hk mqp hm => h k hk mqp (List.mem_append_left _ hm),
      fun k hk mqp hm => h k hk mqp (List.mem_append_right _ hm)⟩
  · rintro ⟨hl, hl'⟩ k hk mqp hm
    rcases List.mem_append.1 hm with hm | hm
    · exact hl k hk mqp hm
    · exact hl' k hk mqp hm

theorem notForOthers_ackPart_alone {mqp : Mqp} (h : (mqp.unmap i).clMap = 0#32) (sent : Bool) :
    NotForOthers i (ackPart sent i (mqp.unmap i)) := by
  intro k hk p hp
  unfold ackPart at hp
  split at hp
  · rw [List.mem_singleton.1 hp]
    simp only [h, BitVec.zero_or]
    unfold clBmap
    rw [bit_mask, decide_eq_false fun he => hk he.1]
  · cases hp

theorem notForOthers_ackPart_shared {mqp : Mqp} (h : (mqp.unmap i).clMap ≠ 0#32) (sent : Bool) :
    NotForOthers i (ackPart sent i (mqp.unmap i)) ↔ mqp.qos = .qos0 ∨ sent = false := by
  obtain ⟨k, hk, hbit⟩ := exists_bit_of_shared h
  have hqos : (mqp.unmap i).qos = mqp.qos := rfl
  unfold ackPart
  rw [hqos]
  by_cases hack : sent = true ∧ mqp.qos ≠ .qos0
  · rw [if_pos hack]
    refine iff_of_false (fun hnone => ?_) ?_
    · have hno := hnone k hk _ (List.mem_singleton_self _)
      rw [bit_or, hbit, Bool.true_or] at hno
      cases hno
    · rintro (hq | hs)
      · exact hack.2 hq
      · rw [hs] at hack
        exact Bool.false_ne_true hack.1
  · rw [if_neg hack]
    refine iff_of_true (fun _ _ _ hp => nomatch hp) ?_
    by_cases hq : mqp.qos = .qos0
    · exact .inl hq
    · exact .inr (Bool.eq_false_iff.2 fun hs => hack ⟨hs, hq⟩)

theorem length_sessSent_le (mallocOk : Nat → Bool) (wl : List Mqp) :
    ∀ k, (sessSent mallocOk i wl k).length ≤ wl.length := by
  induction wl with
  | nil => exact fun _ => Nat.le_refl _
  | cons mqp wl ih =>
    intro k
    unfold sessSent
    split
    · exact Nat.succ_le_succ (ih k)
    · split
      · exact Nat.succ_le_succ (ih (k + 1))
      · exact Nat.le_succ_of_le (ih (k + 1))

theorem sharedOk_iff (sendOk mallocOk : Nat → Bool) (wl : List Mqp) :
    ∀ n k, SharedOk sendOk mallocOk i wl n k ↔
      sessSent mallocOk i wl k = wl.map (Mqp.unmap i) ∧
        NotForOthers i (sessAcked sendOk i (sessSent mallocOk i wl k) n) := by
  induction wl with
  | nil =>
    intro n k
    exact iff_of_true trivial ⟨rfl, fun _ _ _ hp => nomatch hp⟩
  | cons mqp wl ih =>
    intro n k
    unfold SharedOk sessSent
    rw [List.map_cons]
    split
    · rename_i hzero
      rw [ih, List.cons_inj_right, sessAcked, notForOthers_append]
      have halone := notForOthers_ackPart_alone hzero (sendOk n)
      exact ⟨fun h => ⟨h.1, halone, h.2⟩, fun h => ⟨h.1, h.2.2⟩⟩
    · rename_i hzero
      by_cases hcopy : mallocOk k = true
      · rw [if_pos hcopy, ih, List.cons_inj_right, sessAcked, notForOthers_append,
          notForOthers_ackPart_shared hzero]
        exact ⟨fun h => ⟨h.2.2.1, h.2.1, h.2.2.2⟩, fun h => ⟨hcopy, h.2.1, h.1, h.2.2⟩⟩
      · rw [if_neg hcopy]
        refine iff_of_false (fun h => hcopy h.1) fun h => ?_
        have hlen := congrArg List.length h.1
        rw [List.length_cons, List.length_map] at hlen
        have hle := length_sessSent_le (i := i) mallocOk wl (k + 1)
        omega

theorem sessLess_of_none {wl : List Mqp} (h : ∀ mqp ∈ wl, bit mqp.clMap i = false) :
    sessLess i wl = wl := by
  unfold sessLess
  rw [List.filterMap_congr (g := some) fun mqp hm => by rw [h mqp hm]; rfl]
  exact List.filterMap_some

theorem sessLess_of_all {wl : List Mqp} (h : ∀ mqp ∈ wl, bit mqp.clMap i = true) :
    sessLess i wl = (wl.map (Mqp.unmap i)).filter fun mqp => mqp.clMap ≠ 0#32 := by
  induction wl with
  | nil => rfl
  | cons mqp wl ih =>
    have hrest := ih fun p hp => h p (List.mem_cons_of_mem _ hp)
    unfold sessLess at hrest ⊢
    rw [List.filterMap_cons, if_pos (h mqp List.mem_cons_self), List.map_cons]
    by_cases hzero : (mqp.unmap i).clMap = 0#32
    · rw [if_pos hzero, List.filter_cons_of_neg (by simpa using hzero)]
      exact hrest
    · rw [if_neg hzero, List.filter_cons_of_pos (by simpa using hzero)]
      exact congrArg _ hrest

theorem filter_append_eq_self_iff {l l' : List Mqp} {p : Mqp → Bool} :
    (l ++ l').filter p = l.filter p ↔ ∀ mqp ∈ l', p mqp = false := by
  rw [List.filter_append, List.append_right_eq_self, List.filter_eq_nil_iff]
  simp only [Bool.not_eq_true]

theorem sessDispatches_all (h : Resumable m i c) (hall : ∀ mqp ∈ m.sessMqpWl, bit mqp.clMap i = true) :
    SessDispatches m i c ↔
      SharedOk m.env.sendOk m.env.mallocOk i m.sessMqpWl m.env.sends.length m.env.mallocs := by
  obtain ⟨m₁, he, hrun⟩ := sessWlMqpDispatchFrom_all m.sessMqpWl false []
    (m := { m with sessMqpWl := [] }) (h.of_users rfl) rfl hall
  have hfilter : (m.sessMqpWl.filter fun mqp => bit mqp.clMap i) = m.sessMqpWl :=
    List.filter_eq_self.2 hall
  have hinj : Function.Injective fun mqp => Sent.pub c mqp false := fun a b hab => by
    injection hab
  have hacks := hrun.acks
  simp only at hacks
  rw [sharedOk_iff]
  constructor
  · rintro ⟨m', he', hd⟩
    obtain rfl := Option.some.inj (he'.symm.trans he)
    have hsends := hd.sends
    rw [hrun.sends, List.append_left_inj, List.reverse_inj, hfilter] at hsends
    have hmap : (m.sessMqpWl.map fun mqp => Sent.pub c (mqp.unmap i) false) =
        (m.sessMqpWl.map (Mqp.unmap i)).map fun mqp => Sent.pub c mqp false := by
      rw [List.map_map]
      rfl
    refine ⟨List.map_injective_iff.2 hinj (hsends.trans hmap), fun k hk => ?_⟩
    have hothers := hd.others k hk
    rw [hacks] at hothers
    exact filter_append_eq_self_iff.1 hothers
  · rintro ⟨hsent, hothers⟩
    refine ⟨m₁, he, hrun.users, ?_, ?_, fun k hk => ?_⟩
    · rw [hrun.sends, hfilter]
      simp only [hsent, List.map_map]
      rfl
    · rw [hrun.left, sessLess_of_all hall, List.nil_append]
    · rw [hacks]
      exact filter_append_eq_self_iff.2 (hothers k hk)

/-- A reconnecting client gets what waited for it, and nothing changes for the others, exactly when
it is in no map of the session list, or in all of them and for each packet that is shared the copy
can be made and is not kept for acknowledgement. -/
theorem sess_wl_mqp_dispatch_iff {m : ClMgmt} {i : ClIdx} {c : Nat} (h : Resumable m i c) :
    SessDispatches m i c ↔ SessDispatchExact m i := by
  unfold SessDispatchExact
  by_cases hall : ∀ mqp ∈ m.sessMqpWl, bit mqp.clMap i = true
  · rw [sessDispatches_all h hall]
    refine ⟨fun hok => .inr ⟨hall, hok⟩, ?_⟩
    rintro (hnone | hok)
    · have hnil : m.sessMqpWl = [] := by
        refine List.eq_nil_iff_forall_not_mem.2 fun mqp hm => ?_
        have hb := hnone mqp hm
        rw [hall mqp hm] at hb
        cases hb
      rw [hnil]
      trivial
    · exact hok.2
  · have hsome : ∃ mqp ∈ m.sessMqpWl, bit mqp.clMap i = false := by
      simpa using hall
    cases hwl : m.sessMqpWl with
    | nil =>
      rw [hwl] at hsome
      obtain ⟨_, hm, -⟩ := hsome
      cases hm
    | cons mqp wl =>
      rw [← hwl]
      cases hbit : bit mqp.clMap i with
      | true =>
        -- the packet of others comes after one of the client
        have hrest : ∃ mqp ∈ wl, bit mqp.clMap i = false := by
          obtain ⟨p, hp, hnot⟩ := hsome
          rw [hwl] at hp
          rcases List.mem_cons.1 hp with rfl | hp
          · rw [hbit] at hnot
            cases hnot
          · exact ⟨p, hp, hnot⟩
        refine iff_of_false ?_ ?_
        · rintro ⟨m', he, -⟩
          cases he.symm.trans (sessWlMqpDispatch_stuck h hwl hbit hrest)
        · rintro (hnone | hok)
          · have hno := hnone mqp (by rw [hwl]; exact List.mem_cons_self)
            rw [hbit] at hno
            cases hno
          · exact hall hok.1
      | false =>
        -- the loop ends at the first packet, without a send
        have hm := sessWlMqpDispatch_other hwl hbit
        constructor
        · rintro ⟨m', he, hd⟩
          obtain rfl := Option.some.inj (hm.symm.trans he)
          have hsends := congrArg List.length hd.sends
          rw [List.length_append, List.length_reverse, List.length_map] at hsends
          have hnil : m.sessMqpWl.filter (fun mqp => bit mqp.clMap i) = [] := by
            rw [← List.length_eq_zero_iff]
            omega
          left
          simpa using hnil
        · rintro (hnone | hok)
          · refine ⟨m, hm, rfl, ?_, (sessLess_of_none hnone).symm, fun _ _ => rfl⟩
            rw [List.filter_eq_nil_iff.2 fun mqp hm => by simp [hnone mqp hm]]
            rfl
          · exact absurd hok.1 hall

instance decidableSharedOk (sendOk mallocOk : Nat → Bool) (i : ClIdx) :
    ∀ wl n k, Decidable (SharedOk sendOk mallocOk i wl n k)
  | [], _, _ => inferInstanceAs (Decidable True)
  | mqp :: wl, n, k =>
    have := decidableSharedOk sendOk mallocOk i wl (n + 1) k
    have := decidableSharedOk sendOk mallocOk i wl (n + 1) (k + 1)
    inferInstanceAs (Decidable (if (mqp.unmap i).clMap = 0#32 then _ else _))

local instance neZero_backServer : NeZero maxClients := ⟨by decide⟩

def backServer (sendOk : Nat → Bool) (wl : List (MqttQos × BitVec 32)) : ClMgmt :=
  { (clMgmtInit sendOk allOk).setUser 0 { clUsrReset with
      ctx := some 7
      connected := true
      assigned := true } with
    sessMqpWl := wl.map fun p => ⟨p.1, false, 2, [], [], p.2⟩ }

/-- Its own packets are sent even where a send fails, and so is one of QoS0 that is shared. -/
theorem back_dispatches :
    SessDispatches (backServer (fun n => n != 1) [(.qos1, 1), (.qos2, 1), (.qos0, 3)]) 0 7 :=
  (sess_wl_mqp_dispatch_iff ⟨rfl, rfl, rfl⟩).2 (.inr (by decide))

/-- A packet of another client behind the client's own is visited for ever; one before it hides it;
and one that both wait for is put to `qos_ack1_wl` for both. -/
theorem back_mixed_owners :
    sessWlMqpDispatch (backServer allOk [(.qos1, 1), (.qos1, 2)]) 0 = none ∧
      (¬ SessDispatches (backServer allOk [(.qos1, 2), (.qos1, 1)]) 0 7) ∧
      ¬ SessDispatches (backServer allOk [(.qos1, 3)]) 0 7 := by
  refine ⟨rfl, ?_, ?_⟩
  · rintro ⟨m', he, hd⟩
    have hsent := congrArg (Option.map fun m : ClMgmt => m.env.sends) he
    rw [Option.map_some, hd.sends] at hsent
    revert hsent
    decide
  · rintro ⟨m', he, hd⟩
    have hacked := congrArg
      (Option.map fun m : ClMgmt => m.qosAck1Wl.filter fun mqp => bit mqp.clMap 1) he
    rw [Option.map_some, hd.others 1 (by decide)] at hacked
    revert hacked
    decide

end SimpleLink.Server
