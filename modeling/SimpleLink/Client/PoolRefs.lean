import Mathlib.Algebra.BigOperators.Fin
import Mathlib.Algebra.Order.BigOperators.Group.Finset
import SimpleLink.Client.Qos2Rx

/-!
# The packet pool of the client library

A packet is held by the wait list of a context, by its record of a partial
transmission, by its partial reception, or by the application. `PoolExact` says that
its reference count is the number of these holders and that it is free when there are
none. During a step a call also has references in its local variables: `PoolInv` has a
list of them.

`PoolCond` is the condition on a step: the packets that it passes on are taken (the
error exits of `cl_ctx_seg1_send` and of `net_connect` forget them), a close drops no
SUBSCRIBE or UNSUBSCRIBE from a wait list, and none comes between a partial reception
and its end.
-/

namespace SimpleLink.Client

open SimpleLink.Lib SimpleLink.Mqtt Finset

/-! ## The property -/

/-- The references of a context to packet `i`. -/
def ClientDesc.refs (x : ClientDesc) (i : Nat) : Nat :=
  x.qosAck1Wl.count i + (if x.txPart.txMqp = some i then 1 else 0) +
    if x.rxMqp = some (.pool i) then 1 else 0

/-- The holders of packet `i`. -/
def holders (l : ClientLib) (i : Nat) : Nat := ∑ c, (l.ctxs c).refs i + l.held.count i

def ClientDesc.purged (x : ClientDesc) : Prop := x.net = false ∧ x.qosAck1Wl = []

structure PoolExact (numMqp : Nat) (l : ClientLib) : Prop where
  counted : ∀ i < numMqp, (l.mqps i).nRefs.toNat = holders l i
  free : ∀ i < numMqp, i ∈ l.freeList ↔ (l.mqps i).nRefs = 0
  nodup : l.freeList.Nodup
  recovered : (∀ c, (l.ctxs c).purged) → l.held = [] → ∀ i < numMqp, i ∈ l.freeList

/-! ## The condition -/

/-- `cl_ctx_seg1_send` gets as far as the network. -/
def attempts (x : ClientDesc) (isConnMsg : Bool) : Prop :=
  (isConnMsg ^^ x.isConnected) = true ∧ x.txPart.bufSz = 0

def ClientLib.wlMqps (l : ClientLib) (c : CtxIdx) : List Mqp := (l.ctxs c).qosAck1Wl.map l.mqps

def closeOk (cfg : CtxCfg) (x : ClientDesc) (ws : List Mqp) : Prop :=
  x.cleanSession = true ∨ cfg.protoV31 = true ∨ ∀ m ∈ ws, m.msgType = .publish

def txCloseOk (cfg : CtxCfg) (x : ClientDesc) (ws : List Mqp) : Prop :=
  cfg.recvTask = true ∨ closeOk cfg x ws

/-- There is a reception into a packet of the pool that is not complete. -/
def ClientDesc.rxPartial (x : ClientDesc) : Bool :=
  match x.rxMqp with
  | some (.pool _) => true
  | _ => false

/-- The sender may close the network while a packet is processed. -/
def rxFailOk (cfg : CtxCfg) (x : ClientDesc) (ws : List Mqp) : Prop :=
  cfg.recvTask = true ∨ closeOk cfg x ws ∧ x.rxPartial = false

def rxSendCond (cfg : CtxCfg) (x : ClientDesc) (ws : List Mqp) (taken : Nat) : Prop :=
  attempts x false → taken = 0 → rxFailOk cfg x ws

/-- The PUBRELs `ids` sent from the `n`-th send on. -/
def releaseCond (failOk : Prop) (takes : Nat → Nat) : Nat → List UInt16 → Prop
  | _, [] => True
  | n, _ :: ids =>
    if takes n = 0 then failOk else takes n < 4 ∨ releaseCond failOk takes (n + 1) ids

/-- The wait list sent again from the `n`-th send on, then the PUBRELs. A packet after one sent in
part is forgotten. -/
def dispatchCond (failOk : Prop) (takes : Nat → Nat) (ids : List UInt16) : Nat → List Mqp → Prop
  | n, [] => releaseCond failOk takes n ids
  | n, m :: ms =>
    if takes n = 0 then failOk
    else if takes n < m.len then ms = []
    else dispatchCond failOk takes ids (n + 1) ms

def resumeCond (cfg : CtxCfg) (x : ClientDesc) (ws : List Mqp) (takes : Nat → Nat) (n : Nat) :
    Prop :=
  if x.networkClose = false ∧ x.txPart.bufSz = 0 then
    dispatchCond (rxFailOk cfg x ws) takes (PubQos2Cq.dispatched x.qos2TxCq) n ws
  else ws = []

def recvCond (cfg : CtxCfg) (x : ClientDesc) (ws : List Mqp) (takes : Nat → Nat) (n : Nat)
    (pkt : RxPkt) : Prop :=
  if x.connackAwait then
    match pkt with
    | .connack true => x.cleanSession = true ∨ resumeCond cfg x ws takes n
    | _ => closeOk cfg x ws
  else
    match pkt with
    | .ack id => (∃ m ∈ ws, m.msgId = id) ∨ closeOk cfg x ws
    | .pubrec id =>
      match ws, qos2PubCqLogup x.qos2TxCq id with
      | [], _ => True
      | m :: ms, some (_, true) =>
        if id = m.msgId then rxSendCond cfg x ms (takes n) else closeOk cfg x ws
      | _ :: _, some (_, false) => closeOk cfg x ws
      | m :: _, none => id = m.msgId ∨ closeOk cfg x ws
    | .pubrel _ => rxSendCond cfg x ws (takes n)
    | .pubcomp id =>
      match qos2PubCqUnlog x.qos2TxCq id with
      | some (_, false) => closeOk cfg x ws
      | _ => True
    | .publish .qos0 _ _ => True
    | .publish .qos1 _ _ => rxSendCond cfg x ws (takes n)
    | .publish .qos2 id _ =>
      match qos2PubCqCheck x.qos2RxCq id, qos2PubCqLogup x.qos2RxCq id with
      | some false, some (_, true) => rxSendCond cfg x ws (takes n)
      | some false, some (_, false) => closeOk cfg x ws
      | _, _ => True
    | .pingrsp => x.kaPinger = true ∨ x.userPing = true ∨ closeOk cfg x ws
    | .connack _ => closeOk cfg x ws
    | .bad => closeOk cfg x ws

def rxCloseOk (cfg : CtxCfg) (x : ClientDesc) (ws : List Mqp) : Prop :=
  closeOk cfg x ws ∧ x.rxPartial = false

def rxPrepCond (cfg : CtxCfg) (x : ClientDesc) (ws : List Mqp) (taken : Nat) (expired : Bool) :
    Prop :=
  x.net = true →
    if x.networkClose then rxCloseOk cfg x ws
    else if expired then
      if x.isConnected && !x.kaPinger then
        if x.txPart.bufSz = 0 then
          taken = 0 → if cfg.recvTask then rxCloseOk cfg x ws else closeOk cfg x ws
        else rxCloseOk cfg x ws
      else rxCloseOk cfg x ws
    else True

def PoolCond (l : ClientLib) : ClOp → Prop
  | .connect c _ opened fits _ =>
    l.freeList ≠ [] → fits = true → (l.ctxs c).networkClose = false ∧ opened = true ∧
      (l.ctxs c).connackAwait = false ∧ attempts (l.ctxs c) true ∧
      (l.takes l.nSends = 0 → txCloseOk (l.cfg c) (l.ctxs c) (l.wlMqps c))
  | .send c _ _ fits _ =>
    l.freeList ≠ [] → fits = true → attempts (l.ctxs c) false ∧
      (l.takes l.nSends = 0 → txCloseOk (l.cfg c) (l.ctxs c) (l.wlMqps c))
  | .alloc _ => True
  | .free _ => True
  | .dispatch c i qos _ _ =>
    -- only after a failed send is the reference of `msg_dispatch_no_free` the application's again
    i ∈ l.held → qos ≠ .qos0 ∧ attempts (l.ctxs c) false ∧ l.takes l.nSends = 0 ∧
      txCloseOk (l.cfg c) (l.ctxs c) (l.wlMqps c)
  | .pingreq c =>
    attempts (l.ctxs c) false → l.takes l.nSends = 0 →
      txCloseOk (l.cfg c) (l.ctxs c) (l.wlMqps c)
  | .disconn c => attempts (l.ctxs c) false → txCloseOk (l.cfg c) (l.ctxs c) (l.wlMqps c)
  | .progress c =>
    (l.ctxs c).txPart.bufSz ≠ 0 → l.takes l.nSends = 0 →
      txCloseOk (l.cfg c) (l.ctxs c) (l.wlMqps c)
  | .rxPrep c expired =>
    rxPrepCond (l.cfg c) (l.ctxs c) (l.wlMqps c) (l.takes l.nSends) expired
  | .recv c mqp evt =>
    (l.ctxs c).net = true → (mqpSetup l c mqp).isSome →
      match evt with
      | .timeout => True
      | .error => closeOk (l.cfg c) (l.ctxs c) (l.wlMqps c)
      | .packet pkt => recvCond (l.cfg c) (l.ctxs c) (l.wlMqps c) l.takes l.nSends pkt
  | .delete _ => True

/-! ## The invariant -/

/-- Every packet has a reference for each of its holders and each of its occurrences in `fl`, the
references in flight. The reception on context `ex` is under way. -/
structure PoolInv (numMqp : Nat) (l : ClientLib) (fl : List Nat) (ex : Option CtxIdx) : Prop where
  counted : ∀ i, (l.mqps i).nRefs.toNat = holders l i + fl.count i
  range : ∀ i, numMqp ≤ i → (l.mqps i).nRefs = 0
  free : ∀ i, i ∈ l.freeList ↔ i < numMqp ∧ (l.mqps i).nRefs = 0
  nodup : l.freeList.Nodup
  once : ∀ i, ∑ c, (l.ctxs c).qosAck1Wl.count i ≤ 1
  heldOnce : l.held.Nodup
  tx : ∀ c, (l.ctxs c).txPart.txMqp ≠ none → (l.ctxs c).txPart.bufSz ≠ 0
  offset : ∀ c, (l.ctxs c).txPart.bufSz = 0 → (l.ctxs c).txPart.offset = 0
  len : ∀ c, ∀ i ∈ (l.ctxs c).qosAck1Wl, (l.mqps i).len ≠ 0
  closed : ∀ c, (l.ctxs c).net = false →
    (l.ctxs c).txPart.txMqp = none ∧ (l.ctxs c).nowConnected = false
  rx : ∀ c, ex ≠ some c → (l.ctxs c).net = false → (l.ctxs c).rxPartial = false
  rxOwn : ∀ c, ex ≠ some c → ∀ i, (l.ctxs c).rxMqp = some (.pool i) →
    i ∉ l.held ∧ ∀ d, d ≠ c → (l.ctxs d).rxMqp ≠ some (.pool i)

theorem poolInv_init (cfg : CtxIdx → CtxCfg) (takes : Nat → Nat) (numMqp : Nat) :
    PoolInv numMqp (clientInit cfg takes numMqp) [] none where
  counted _ := rfl
  range _ _ := rfl
  free i := by simp [clientInit]
  nodup := List.nodup_reverse.2 List.nodup_range
  once _ := by simp [clientInit, clientReset]
  heldOnce := List.nodup_nil
  tx _ h := absurd rfl h
  offset _ _ := rfl
  len _ _ h := nomatch h
  closed _ _ := ⟨rfl, rfl⟩
  rx _ _ _ := rfl
  rxOwn _ _ _ h := nomatch h

theorem sum_setCtx (w : ClientDesc → Nat) (l : ClientLib) (c : CtxIdx) (x : ClientDesc) :
    ∑ d, w ((l.setCtx c x).ctxs d) + w (l.ctxs c) = ∑ d, w (l.ctxs d) + w x := by
  have hrest : ∑ d ∈ univ.erase c, w ((l.setCtx c x).ctxs d) = ∑ d ∈ univ.erase c, w (l.ctxs d) :=
    sum_congr rfl fun d hd => by rw [setCtx_ctxs_ne l x (ne_of_mem_erase hd)]
  rw [← add_sum_erase univ _ (mem_univ c), ← add_sum_erase univ (fun d => w (l.ctxs d)) (mem_univ c),
    hrest, setCtx_ctxs_self]
  omega

theorem holders_setCtx (l : ClientLib) (c : CtxIdx) (x : ClientDesc) (i : Nat) :
    holders (l.setCtx c x) i + (l.ctxs c).refs i = holders l i + x.refs i := by
  have hsum := sum_setCtx (fun x => x.refs i) l c x
  have hheld : (l.setCtx c x).held = l.held := rfl
  unfold holders
  rw [hheld]
  omega

theorem holders_eq (l : ClientLib) (i : Nat) :
    holders l i = ∑ c, (l.ctxs c).qosAck1Wl.count i +
      ∑ c, (if (l.ctxs c).txPart.txMqp = some i then 1 else 0) +
      ∑ c, (if (l.ctxs c).rxMqp = some (.pool i) then 1 else 0) + l.held.count i := by
  unfold holders ClientDesc.refs
  rw [sum_add_distrib, sum_add_distrib]

theorem refs_le_holders (l : ClientLib) (c : CtxIdx) (i : Nat) : (l.ctxs c).refs i ≤ holders l i :=
  Nat.le_add_right_of_le (single_le_sum (f := fun c => (l.ctxs c).refs i) (fun _ _ => Nat.zero_le _)
    (mem_univ c))

theorem PoolInv.le {numMqp : Nat} {l : ClientLib} {fl : List Nat} {ex : Option CtxIdx}
    (h : PoolInv numMqp l fl ex) (i : Nat) : (l.mqps i).nRefs.toNat ≤ 10 + fl.length := by
  have hone : ∀ p : CtxIdx → Prop, ∀ [DecidablePred p], ∑ c, (if p c then 1 else 0) ≤ 4 := by
    intro p _
    exact (sum_le_card_nsmul univ _ 1 fun c _ => by split <;> omega).trans (by simp)
  have htx := hone fun c => (l.ctxs c).txPart.txMqp = some i
  have hrx := hone fun c => (l.ctxs c).rxMqp = some (.pool i)
  have hheld := List.nodup_iff_count_le_one.1 h.heldOnce i
  have hfl := List.count_le_length (a := i) (l := fl)
  have honce := h.once i
  rw [h.counted, holders_eq]
  omega

/-! ## Packets -/

section

variable {numMqp : Nat} {l l' : ClientLib} {fl : List Nat} {ex : Option CtxIdx}

theorem holders_congr (hctx : l'.ctxs = l.ctxs) (hheld : l'.held = l.held) (i : Nat) :
    holders l' i = holders l i := by
  unfold holders
  rw [hctx, hheld]

theorem PoolInv.mqps (h : PoolInv numMqp l fl ex) (l' : ClientLib) (hctx : l'.ctxs = l.ctxs)
    (hheld : l'.held = l.held) {fl' : List Nat}
    (hcounted : ∀ i, (l'.mqps i).nRefs.toNat = holders l i + fl'.count i)
    (hrange : ∀ i, numMqp ≤ i → (l'.mqps i).nRefs = 0)
    (hfree : ∀ i, i ∈ l'.freeList ↔ i < numMqp ∧ (l'.mqps i).nRefs = 0)
    (hnodup : l'.freeList.Nodup)
    (hlen : ∀ c, ∀ i ∈ (l.ctxs c).qosAck1Wl, (l'.mqps i).len ≠ 0) : PoolInv numMqp l' fl' ex where
  counted i := by rw [hcounted, holders_congr hctx hheld]
  range := hrange
  free := hfree
  nodup := hnodup
  once := hctx ▸ h.once
  heldOnce := hheld ▸ h.heldOnce
  tx := hctx ▸ h.tx
  offset := hctx ▸ h.offset
  len := hctx ▸ hlen
  closed := hctx ▸ h.closed
  rx := hctx ▸ h.rx
  rxOwn := by
    rw [hctx, hheld]
    exact h.rxOwn

theorem PoolInv.setMqp (h : PoolInv numMqp l fl ex) {i : Nat} {m : Mqp}
    (hm : m.nRefs = (l.mqps i).nRefs) (hlen : m.len ≠ 0) : PoolInv numMqp (l.setMqp i m) fl ex := by
  have hrefs : ∀ j, ((l.setMqp i m).mqps j).nRefs = (l.mqps j).nRefs := by
    intro j
    by_cases hj : j = i
    · subst hj
      simp [ClientLib.setMqp, hm]
    · simp [ClientLib.setMqp, hj]
  apply h.mqps (l.setMqp i m) rfl rfl
  · intro j
    rw [hrefs, h.counted]
  · intro j hj
    rw [hrefs, h.range j hj]
  · intro j
    rw [hrefs, ← h.free]
    rfl
  · exact h.nodup
  · intro c j hj
    by_cases hji : j = i
    · subst hji
      simpa [ClientLib.setMqp] using hlen
    · simpa [ClientLib.setMqp, hji] using h.len c j hj

/-- The contents of the packets, but for their reference counts. -/
def SameContents (l l' : ClientLib) : Prop :=
  ∀ j, (l'.mqps j).msgType = (l.mqps j).msgType ∧ (l'.mqps j).msgId = (l.mqps j).msgId ∧
    (l'.mqps j).len = (l.mqps j).len

theorem SameContents.refl (l : ClientLib) : SameContents l l := fun _ => ⟨rfl, rfl, rfl⟩

theorem sameContents_addRef (l : ClientLib) (i : Nat) : SameContents l (addRef l i) := by
  intro j
  by_cases hj : j = i
  · subst hj
    simp [addRef, ClientLib.setMqp]
  · simp [addRef, ClientLib.setMqp, hj]

theorem sameContents_freeMqp (l : ClientLib) (i : Nat) : SameContents l (freeMqp l i) := by
  intro j
  unfold freeMqp
  by_cases hj : j = i
  · subst hj
    simp only
    split <;> simp [ClientLib.setMqp]
  · simp only
    split <;> simp [ClientLib.setMqp, hj]

theorem PoolInv.addRef (h : PoolInv numMqp l fl ex) {i : Nat} (hi : (l.mqps i).nRefs ≠ 0)
    (hlen : fl.length < 200) : PoolInv numMqp (addRef l i) (i :: fl) ex := by
  have hlt : (l.mqps i).nRefs.toNat < 210 := by
    have := h.le i
    omega
  have hself : ((Client.addRef l i).mqps i).nRefs = (l.mqps i).nRefs + 1 := by
    simp [Client.addRef, ClientLib.setMqp]
  have hother : ∀ j, j ≠ i → (Client.addRef l i).mqps j = l.mqps j := by
    intro j hj
    simp [Client.addRef, ClientLib.setMqp, hj]
  have hsucc : ((l.mqps i).nRefs + 1).toNat = (l.mqps i).nRefs.toNat + 1 := by
    rw [UInt8.toNat_add]
    exact Nat.mod_eq_of_lt (by change _ + 1 < 256; omega)
  have hiN : i < numMqp := by
    by_contra hge
    exact hi (h.range i (by omega))
  apply h.mqps (Client.addRef l i) rfl rfl
  · intro j
    by_cases hj : j = i
    · subst hj
      rw [hself, hsucc, h.counted, List.count_cons_self]
      omega
    · rw [hother j hj, h.counted, List.count_cons_of_ne (Ne.symm hj)]
  · intro j hj
    rw [hother j (by omega), h.range j hj]
  · intro j
    change j ∈ l.freeList ↔ _
    rw [h.free]
    by_cases hj : j = i
    · subst hj
      rw [hself]
      refine iff_of_false (fun hand => hi hand.2) fun hand => ?_
      rw [← UInt8.toNat_inj, hsucc] at hand
      cases hand.2
    · rw [hother j hj]
  · exact h.nodup
  · intro c j hj
    rw [(sameContents_addRef l i j).2.2]
    exact h.len c j hj

theorem PoolInv.freeMqp {i : Nat} (h : PoolInv numMqp l (i :: fl) ex) :
    PoolInv numMqp (freeMqp l i) fl ex := by
  have hcount := h.counted i
  rw [List.count_cons_self] at hcount
  have hi : (l.mqps i).nRefs ≠ 0 := by
    intro hz
    rw [hz] at hcount
    simp at hcount
  have hiN : i < numMqp := by
    by_contra hge
    exact hi (h.range i (by omega))
  have hpred : ((l.mqps i).nRefs - 1).toNat = (l.mqps i).nRefs.toNat - 1 :=
    UInt8.toNat_sub_of_le _ _ (by rw [UInt8.le_iff_toNat_le]; simp; omega)
  have hnot : i ∉ l.freeList := fun hm => hi ((h.free i).1 hm).2
  have hself : ((Client.freeMqp l i).mqps i).nRefs = (l.mqps i).nRefs - 1 := by
    unfold Client.freeMqp
    simp only
    split <;> simp [ClientLib.setMqp]
  have hother : ∀ j, j ≠ i → (Client.freeMqp l i).mqps j = l.mqps j := by
    intro j hj
    unfold Client.freeMqp
    simp only
    split <;> simp [ClientLib.setMqp, hj]
  have hlist : (Client.freeMqp l i).freeList =
      if (l.mqps i).nRefs - 1 = 0 then i :: l.freeList else l.freeList := by
    unfold Client.freeMqp
    simp only
    split <;> rfl
  apply h.mqps (Client.freeMqp l i) (sameCtxs_freeMqp l i).ctxs
    (sameCtxs_freeMqp l i).held
  · intro j
    by_cases hj : j = i
    · subst hj
      rw [hself, hpred, hcount]
      omega
    · rw [hother j hj, h.counted, List.count_cons_of_ne (Ne.symm hj)]
  · intro j hj
    rw [hother j (by omega), h.range j hj]
  · intro j
    rw [hlist]
    by_cases hj : j = i
    · subst hj
      rw [hself]
      split
      · rename_i hz
        exact iff_of_true List.mem_cons_self ⟨hiN, hz⟩
      · rename_i hz
        exact iff_of_false hnot fun hand => hz hand.2
    · rw [hother j hj, ← h.free]
      split
      · rw [List.mem_cons, or_iff_right hj]
      · exact Iff.rfl
  · rw [hlist]
    split
    · exact List.nodup_cons.2 ⟨hnot, h.nodup⟩
    · exact h.nodup
  · intro c j hj
    rw [(sameContents_freeMqp l i j).2.2]
    exact h.len c j hj

theorem PoolInv.alloc (h : PoolInv numMqp l fl ex) {t : MsgType} {i : Nat}
    (ha : mqpClientAlloc l t = some (i, l')) :
    PoolInv numMqp l' (i :: fl) ex ∧ holders l' i = 0 ∧ l'.held = l.held ∧
      ∀ j, j ≠ i → l'.mqps j = l.mqps j := by
  unfold mqpClientAlloc at ha
  cases hlist : l.freeList with
  | nil =>
    rw [hlist] at ha
    cases ha
  | cons k rest =>
    rw [hlist] at ha
    obtain ⟨rfl, rfl⟩ := Prod.mk.inj (Option.some.inj ha)
    obtain ⟨hkN, hz⟩ := (h.free k).1 (by rw [hlist]; exact List.mem_cons_self)
    have hcount := h.counted k
    rw [hz] at hcount
    have hnone : holders l k = 0 ∧ fl.count k = 0 := by
      simp at hcount
      omega
    have hnodup := h.nodup
    rw [hlist] at hnodup
    obtain ⟨hnot, hrest⟩ := List.nodup_cons.1 hnodup
    have hother : ∀ j, j ≠ k →
        (({ l with freeList := rest } : ClientLib).setMqp k ⟨t, 0, 1, 0⟩).mqps j = l.mqps j := by
      intro j hj
      simp [ClientLib.setMqp, hj]
    refine ⟨?_, hnone.1, rfl, hother⟩
    apply h.mqps (({ l with freeList := rest } : ClientLib).setMqp k ⟨t, 0, 1, 0⟩) rfl rfl
    · intro j
      by_cases hj : j = k
      · subst hj
        rw [List.count_cons_self, hnone.1, hnone.2]
        simp [ClientLib.setMqp]
      · rw [hother j hj, h.counted, List.count_cons_of_ne (Ne.symm hj)]
    · intro j hj
      rw [hother j (by omega), h.range j hj]
    · intro j
      change j ∈ rest ↔ _
      by_cases hj : j = k
      · subst hj
        refine iff_of_false hnot fun hand => ?_
        simp [ClientLib.setMqp] at hand
      · rw [hother j hj, ← h.free, hlist, List.mem_cons, or_iff_right hj]
    · exact hrest
    · intro c j hj
      have hjk : j ≠ k := by
        rintro rfl
        have hpos := List.count_pos_iff.2 hj
        have hle := refs_le_holders l c j
        unfold ClientDesc.refs at hle
        omega
      rw [hother j hjk]
      exact h.len c j hj

/-! ## Contexts -/

theorem PoolInv.set (h : PoolInv numMqp l fl ex) (c : CtxIdx) (x : ClientDesc) (fl' : List Nat)
    (ex' : Option CtxIdx)
    (hrefs : ∀ i, x.refs i + fl'.count i = (l.ctxs c).refs i + fl.count i)
    (honce : ∀ i, x.qosAck1Wl.count i ≤ (l.ctxs c).qosAck1Wl.count i ∨
      (∀ d, i ∉ (l.ctxs d).qosAck1Wl) ∧ x.qosAck1Wl.count i ≤ 1)
    (htx : x.txPart.txMqp ≠ none → x.txPart.bufSz ≠ 0)
    (hoffset : x.txPart.bufSz = 0 → x.txPart.offset = 0)
    (hlen : ∀ i ∈ x.qosAck1Wl, (l.mqps i).len ≠ 0)
    (hclosed : x.net = false → x.txPart.txMqp = none ∧ x.nowConnected = false)
    (hrx : ex' ≠ some c → x.net = false → x.rxPartial = false)
    (hown : ∀ i, x.rxMqp = some (.pool i) →
      (l.ctxs c).rxMqp = some (.pool i) ∧ (ex' ≠ some c → ex ≠ some c) ∨
        i ∉ l.held ∧ ∀ d, d ≠ c → (l.ctxs d).rxMqp ≠ some (.pool i))
    (hex : ∀ d, d ≠ c → ex' ≠ some d → ex ≠ some d) : PoolInv numMqp (l.setCtx c x) fl' ex' where
  counted i := by
    have hold := h.counted i
    have hholders := holders_setCtx l c x i
    have hi := hrefs i
    change (l.mqps i).nRefs.toNat = _
    omega
  range := h.range
  free := h.free
  nodup := h.nodup
  once i := by
    have hsum := sum_setCtx (fun x => x.qosAck1Wl.count i) l c x
    have hold := h.once i
    rcases honce i with hle | ⟨hnone, hle⟩
    · omega
    · have hzero : ∑ d, (l.ctxs d).qosAck1Wl.count i = 0 :=
        sum_eq_zero fun d _ => List.count_eq_zero.2 (hnone d)
      omega
  heldOnce := h.heldOnce
  tx d := by
    by_cases hd : d = c
    · subst hd
      rwa [setCtx_ctxs_self]
    · rw [setCtx_ctxs_ne _ _ hd]
      exact h.tx d
  offset d := by
    by_cases hd : d = c
    · subst hd
      rwa [setCtx_ctxs_self]
    · rw [setCtx_ctxs_ne _ _ hd]
      exact h.offset d
  len d := by
    by_cases hd : d = c
    · subst hd
      rwa [setCtx_ctxs_self]
    · rw [setCtx_ctxs_ne _ _ hd]
      exact h.len d
  closed d := by
    by_cases hd : d = c
    · subst hd
      rwa [setCtx_ctxs_self]
    · rw [setCtx_ctxs_ne _ _ hd]
      exact h.closed d
  rx d hd' := by
    by_cases hd : d = c
    · subst hd
      rw [setCtx_ctxs_self]
      exact hrx hd'
    · rw [setCtx_ctxs_ne _ _ hd]
      exact h.rx d (hex d hd hd')
  rxOwn d hd' i := by
    by_cases hd : d = c
    · subst hd
      rw [setCtx_ctxs_self]
      intro hx
      obtain ⟨hheld, hother⟩ : i ∉ l.held ∧ ∀ e, e ≠ d → (l.ctxs e).rxMqp ≠ some (.pool i) := by
        rcases hown i hx with ⟨hsame, hex'⟩ | hnew
        · exact h.rxOwn d (hex' hd') i hsame
        · exact hnew
      exact ⟨hheld, fun e he => by rw [setCtx_ctxs_ne _ _ he]; exact hother e he⟩
    · rw [setCtx_ctxs_ne _ _ hd]
      intro hi
      obtain ⟨hheld, hother⟩ := h.rxOwn d (hex d hd hd') i hi
      refine ⟨hheld, fun e he => ?_⟩
      by_cases hec : e = c
      · subst hec
        rw [setCtx_ctxs_self]
        intro hx
        rcases hown i hx with ⟨hsame, -⟩ | hnew
        · exact hother e he hsame
        · exact hnew.2 d hd hi
      · rw [setCtx_ctxs_ne _ _ hec]
        exact hother e he

theorem PoolInv.setFlags (h : PoolInv numMqp l fl ex) (c : CtxIdx) (x : ClientDesc)
    (hwl : x.qosAck1Wl = (l.ctxs c).qosAck1Wl)
    (htx : x.txPart = (l.ctxs c).txPart)
    (hrx : x.rxMqp = (l.ctxs c).rxMqp)
    (hnet : x.net = false → (l.ctxs c).net = false)
    (hconn : x.net = false → x.nowConnected = true → (l.ctxs c).nowConnected = true) :
    PoolInv numMqp (l.setCtx c x) fl ex := by
  have hincomplete : x.rxPartial = (l.ctxs c).rxPartial := by
    unfold ClientDesc.rxPartial
    rw [hrx]
  apply h.set
  · intro i
    unfold ClientDesc.refs
    rw [hwl, htx, hrx]
  · exact fun i => .inl (by rw [hwl])
  · rw [htx]
    exact h.tx c
  · rw [htx]
    exact h.offset c
  · rw [hwl]
    exact h.len c
  · intro hn
    obtain ⟨hnone, hcl⟩ := h.closed c (hnet hn)
    refine ⟨by rw [htx, hnone], ?_⟩
    have := mt (hconn hn) (by rw [hcl]; exact Bool.false_ne_true)
    simpa using this
  · rw [hincomplete]
    exact fun he hn => h.rx c he (hnet hn)
  · rw [hrx]
    exact fun i he => .inl ⟨he, id⟩
  · exact fun d _ => id

theorem freeMqp_setCtx (l : ClientLib) (c : CtxIdx) (x : ClientDesc) (i : Nat) :
    (freeMqp l i).setCtx c x = freeMqp (l.setCtx c x) i := by
  by_cases hz : (l.mqps i).nRefs - 1 = 0 <;>
    simp [freeMqp, ClientLib.setCtx, ClientLib.setMqp, hz]

theorem foldl_freeMqp_setCtx (c : CtxIdx) (x : ClientDesc) (wl : List Nat) :
    ∀ l : ClientLib, (wl.foldl freeMqp l).setCtx c x = wl.foldl freeMqp (l.setCtx c x) := by
  induction wl with
  | nil => exact fun _ => rfl
  | cons i wl ih =>
    intro l
    rw [List.foldl_cons, ih, freeMqp_setCtx, List.foldl_cons]

theorem PoolInv.foldl_freeMqp {wl : List Nat} :
    ∀ {l : ClientLib}, PoolInv numMqp l (wl ++ fl) ex →
      PoolInv numMqp (wl.foldl Client.freeMqp l) fl ex := by
  induction wl with
  | nil => exact id
  | cons i wl ih => exact fun h => ih h.freeMqp

theorem PoolInv.sessionDelete (h : PoolInv numMqp l fl ex) (c : CtxIdx) :
    PoolInv numMqp (sessionDelete l c) fl ex := by
  unfold Client.sessionDelete
  rw [foldl_freeMqp_setCtx]
  apply PoolInv.foldl_freeMqp
  apply h.set
  · intro i
    unfold ClientDesc.refs
    simp only [List.count_nil, List.count_append]
    omega
  · exact fun i => .inl (Nat.zero_le _)
  · exact h.tx c
  · exact h.offset c
  · exact nofun
  · exact h.closed c
  · exact h.rx c
  · exact fun i he => .inl ⟨he, id⟩
  · exact fun d _ => id

theorem PoolInv.txPartReset (h : PoolInv numMqp l fl ex) (c : CtxIdx) :
    PoolInv numMqp (txPartReset l c) fl ex := by
  have hset : ∀ fl', (∀ i, fl'.count i =
      (if (l.ctxs c).txPart.txMqp = some i then 1 else 0) + fl.count i) →
      PoolInv numMqp (l.setCtx c { l.ctxs c with txPart := ⟨none, 0, 0⟩ }) fl' ex := by
    intro fl' hfl
    apply h.set
    · intro i
      unfold ClientDesc.refs
      simp only [hfl, reduceCtorEq, if_false]
      omega
    · exact fun i => .inl (Nat.le_refl _)
    · exact fun hne => absurd rfl hne
    · exact fun _ => rfl
    · exact h.len c
    · exact fun hn => ⟨rfl, (h.closed c hn).2⟩
    · exact h.rx c
    · exact fun i he => .inl ⟨he, id⟩
    · exact fun d _ => id
  unfold Client.txPartReset
  simp only
  split
  · rename_i hnone
    exact hset fl fun i => by simp [hnone]
  · rename_i i hsome
    rw [freeMqp_setCtx]
    apply PoolInv.freeMqp
    apply hset
    intro j
    rw [hsome]
    by_cases hj : j = i
    · subst hj
      simp [Nat.add_comm]
    · rw [List.count_cons_of_ne (Ne.symm hj), if_neg fun he => hj (Option.some.inj he).symm,
        Nat.zero_add]

/-! ## Closing -/

theorem PoolInv.report (h : PoolInv numMqp l fl ex) (o : Obs) : PoolInv numMqp (l.report o) fl ex :=
  h.mqps (l.report o) rfl rfl h.counted h.range h.free h.nodup h.len

theorem session311fixWl_eq (l : ClientLib) {wl : List Nat}
    (h : ∀ i ∈ wl, (l.mqps i).msgType = .publish) : session311fixWl l wl = wl := by
  have hloop : ∀ wl' : List Nat, (∀ i ∈ wl', (l.mqps i).msgType = .publish) → ∀ acc,
      wl'.foldl (fun wl i => if (l.mqps i).msgType = .publish then wl
        else (ackWlistRemove l wl (l.mqps i).msgId).2) acc = acc := by
    intro wl'
    induction wl' with
    | nil => exact fun _ _ => rfl
    | cons i wl' ih =>
      intro h acc
      rw [List.foldl_cons, if_pos (h i List.mem_cons_self)]
      exact ih (fun j hj => h j (List.mem_cons_of_mem _ hj)) acc
  exact hloop wl h wl

theorem txPartReset_ctxs_self (l : ClientLib) (c : CtxIdx) :
    (txPartReset l c).ctxs c = { l.ctxs c with txPart := ⟨none, 0, 0⟩ } := setCtx_ctxs_self ..

theorem sameCtxs_txPart (l : ClientLib) (c : CtxIdx) :
    SameCtxs l (match (l.ctxs c).txPart.txMqp with
      | none => l
      | some i => freeMqp l i) := by
  split
  · exact SameCtxs.refl l
  · exact sameCtxs_freeMqp ..

theorem txPartReset_ctxs_ne (l : ClientLib) {c d : CtxIdx} (h : d ≠ c) :
    (txPartReset l c).ctxs d = l.ctxs d := by
  exact (setCtx_ctxs_ne _ _ h).trans (congrFun (sameCtxs_txPart l c).ctxs d)

theorem txPartReset_held (l : ClientLib) (c : CtxIdx) : (txPartReset l c).held = l.held :=
  (sameCtxs_txPart l c).held

theorem sessionDelete_held (l : ClientLib) (c : CtxIdx) : (sessionDelete l c).held = l.held :=
  (sameCtxs_foldl_freeMqp (l.ctxs c).qosAck1Wl l).held

/-- What a close does to the contexts and to what the application holds. -/
structure NetClosed (l l' : ClientLib) (c : CtxIdx) : Prop where
  cfg : l'.cfg = l.cfg
  held : l'.held = l.held
  other : ∀ d, d ≠ c → l'.ctxs d = l.ctxs d
  net : (l'.ctxs c).net = false
  rxMqp : (l'.ctxs c).rxMqp = (l.ctxs c).rxMqp

theorem netClosed_doNetClose (l : ClientLib) (c : CtxIdx) : NetClosed l (doNetClose l c) c := by
  unfold doNetClose
  split
  · have hfix : ∀ l₁ : ClientLib, l₁.held = l.held → (∀ d, d ≠ c → l₁.ctxs d = l.ctxs d) →
        (l₁.ctxs c).rxMqp = (l.ctxs c).rxMqp → l₁.cfg = l.cfg →
        NetClosed l (((txPartReset l₁ c).setCtx c { (txPartReset l₁ c).ctxs c with
          net := false
          connackAwait := false
          nowConnected := false
          kaPinger := false
          userPing := false
          networkClose := false }).report (.close c)) c := by
      intro l₁ hheld hother hrx hcfg
      refine ⟨((quiet_txPartReset l₁ c).cfg).trans hcfg, (txPartReset_held l₁ c).trans hheld,
        fun d hd => ?_, ?_, ?_⟩
      · exact (setCtx_ctxs_ne _ _ hd).trans ((txPartReset_ctxs_ne l₁ hd).trans (hother d hd))
      · exact congrArg ClientDesc.net (setCtx_ctxs_self ..)
      · refine (congrArg ClientDesc.rxMqp (setCtx_ctxs_self ..)).trans ?_
        rw [txPartReset_ctxs_self, hrx]
    apply hfix
    · split
      · exact sessionDelete_held l c
      · split <;> rfl
    · intro d hd
      split
      · exact sessionDelete_ctxs_ne l hd
      · split
        · exact setCtx_ctxs_ne _ _ hd
        · rfl
    · split
      · rw [sessionDelete_ctxs_self]
      · split
        · unfold session311fix
          rw [setCtx_ctxs_self]
        · rfl
    · split
      · exact sessionDelete_cfg l c
      · split <;> rfl
  · rename_i hnet
    exact ⟨rfl, rfl, fun _ _ => rfl, by simpa using hnet, rfl⟩

theorem rxPartial_congr {x y : ClientDesc} (h : x.rxMqp = y.rxMqp) : x.rxPartial = y.rxPartial := by
  unfold ClientDesc.rxPartial
  rw [h]

theorem PoolInv.doNetClose (h : PoolInv numMqp l fl ex) (c : CtxIdx)
    (hok : (l.ctxs c).net = true → closeOk (l.cfg c) (l.ctxs c) (l.wlMqps c))
    (hrx : ex ≠ some c → (l.ctxs c).rxPartial = false) :
    PoolInv numMqp (doNetClose l c) fl ex := by
  have hclosed := netClosed_doNetClose l c
  unfold Client.doNetClose at hclosed ⊢
  split at hclosed
  · rename_i hnet
    rw [if_pos hnet]
    have hsession : PoolInv numMqp (if (l.ctxs c).cleanSession then Client.sessionDelete l c
        else if !(l.cfg c).protoV31 then session311fix l c else l) fl ex := by
      split
      · exact h.sessionDelete c
      · rename_i hclean
        split
        · rename_i hv31
          have hwl : ∀ i ∈ (l.ctxs c).qosAck1Wl, (l.mqps i).msgType = .publish := by
            intro i hi
            rcases hok hnet with hc | hv | hall
            · exact absurd hc hclean
            · rw [hv] at hv31
              cases hv31
            · exact hall _ (List.mem_map_of_mem hi)
          unfold session311fix
          rw [session311fixWl_eq l hwl]
          exact h.setFlags c _ rfl rfl rfl id fun _ => id
        · exact h
    simp only at hclosed ⊢
    generalize (if (l.ctxs c).cleanSession = true then Client.sessionDelete l c
      else if (!(l.cfg c).protoV31) = true then session311fix l c else l) = l₁ at hsession hclosed ⊢
    have hreset := hsession.txPartReset c
    have hself := txPartReset_ctxs_self l₁ c
    apply PoolInv.report
    apply hreset.set
    · exact fun i => rfl
    · exact fun i => .inl (Nat.le_refl _)
    · exact hreset.tx c
    · exact hreset.offset c
    · exact hreset.len c
    · exact fun _ => ⟨by rw [hself], rfl⟩
    · intro hex _
      have hrxMqp := hclosed.rxMqp
      rw [show ((((Client.txPartReset l₁ c).setCtx c { (Client.txPartReset l₁ c).ctxs c with
          net := false, connackAwait := false, nowConnected := false, kaPinger := false,
          userPing := false, networkClose := false }).report (.close c)).ctxs c) = _ from
        setCtx_ctxs_self ..] at hrxMqp
      exact (rxPartial_congr hrxMqp).trans (hrx hex)
    · exact fun i he => .inl ⟨he, id⟩
    · exact fun d _ => id
  · rename_i hnet
    rwa [if_neg hnet]

/-! ## Sending -/

/-- The reception on context `c` is what it was. -/
structure RxKept (l l' : ClientLib) (c : CtxIdx) : Prop where
  cfg : l'.cfg = l.cfg
  held : l'.held = l.held
  other : ∀ d, d ≠ c → l'.ctxs d = l.ctxs d
  rx : ∀ i, (l'.ctxs c).rxMqp = some (.pool i) ↔ (l.ctxs c).rxMqp = some (.pool i)

theorem RxKept.refl (l : ClientLib) (c : CtxIdx) : RxKept l l c :=
  ⟨rfl, rfl, fun _ _ => rfl, fun _ => Iff.rfl⟩

theorem RxKept.trans {l'' : ClientLib} {c : CtxIdx} (h : RxKept l l' c) (h' : RxKept l' l'' c) :
    RxKept l l'' c :=
  ⟨h'.cfg.trans h.cfg, h'.held.trans h.held, fun d hd => (h'.other d hd).trans (h.other d hd),
    fun i => (h'.rx i).trans (h.rx i)⟩

theorem rxPartial_iff {x : ClientDesc} : x.rxPartial = true ↔ ∃ i, x.rxMqp = some (.pool i) := by
  unfold ClientDesc.rxPartial
  split
  · rename_i i he
    exact iff_of_true rfl ⟨i, he⟩
  · rename_i hno
    refine iff_of_false Bool.false_ne_true ?_
    rintro ⟨i, he⟩
    exact hno i he

theorem not_pool {x : ClientDesc} (h : x.rxPartial = false) (i : Nat) : x.rxMqp ≠ some (.pool i) := by
  intro he
  rw [rxPartial_iff.2 ⟨i, he⟩] at h
  cases h

theorem PoolInv.weaken (h : PoolInv numMqp l fl ex) {c : CtxIdx} (hex : ex = none ∨ ex = some c) :
    PoolInv numMqp l fl (some c) := by
  have hd : ∀ d, some c ≠ some d → ex ≠ some d := by
    intro d hne
    rcases hex with rfl | rfl
    · exact nofun
    · exact hne
  exact { h with
    rx := fun d hne => h.rx d (hd d hne)
    rxOwn := fun d hne => h.rxOwn d (hd d hne) }

theorem PoolInv.doNetCloseTx (h : PoolInv numMqp l fl ex) {c : CtxIdx}
    (hex : ex = none ∨ ex = some c)
    (hok : (l.ctxs c).net = true → txCloseOk (l.cfg c) (l.ctxs c) (l.wlMqps c)) :
    PoolInv numMqp (doNetCloseTx l c) fl ex := by
  unfold Client.doNetCloseTx
  split
  · exact h.setFlags c _ rfl rfl rfl id fun _ => id
  · rename_i htask
    have hclosed := netClosed_doNetClose l c
    have hinv : PoolInv numMqp (Client.doNetClose l c) fl (some c) := by
      apply (h.weaken hex).doNetClose c
      · intro hnet
        exact (hok hnet).resolve_left htask
      · exact fun hne => absurd rfl hne
    have hother : ∀ d, d ≠ c → ex ≠ some d → some c ≠ some d := by
      rintro d hd - he
      exact hd (Option.some.inj he).symm
    have hset : ∀ fl', (∀ i, fl'.count i =
        (if (l.ctxs c).rxMqp = some (.pool i) then 1 else 0) + fl.count i) →
        PoolInv numMqp ((Client.doNetClose l c).setCtx c
          { (Client.doNetClose l c).ctxs c with rxMqp := none }) fl' ex := by
      intro fl' hfl
      apply hinv.set
      · intro i
        unfold ClientDesc.refs
        simp only [hfl, hclosed.rxMqp, reduceCtorEq, if_false]
        omega
      · exact fun i => .inl (Nat.le_refl _)
      · exact hinv.tx c
      · exact hinv.offset c
      · exact hinv.len c
      · exact hinv.closed c
      · exact fun _ _ => rfl
      · exact fun i he => nomatch he
      · exact hother
    simp only
    split
    · rename_i i hrx
      rw [(sameCtxs_freeMqp (Client.doNetClose l c) i).ctxs, freeMqp_setCtx]
      apply PoolInv.freeMqp
      apply hset
      intro j
      rw [hrx]
      by_cases hj : j = i
      · subst hj
        simp [Nat.add_comm]
      · rw [List.count_cons_of_ne (Ne.symm hj), if_neg, Nat.zero_add]
        simp only [Option.some.injEq, RxMqp.pool.injEq]
        exact Ne.symm hj
    · rename_i hrx
      apply hset
      intro j
      rw [if_neg (hrx j), Nat.zero_add]

theorem rxKept_doNetCloseTx (l : ClientLib) {c : CtxIdx}
    (h : (l.cfg c).recvTask = true ∨ (l.ctxs c).rxPartial = false) :
    RxKept l (doNetCloseTx l c) c := by
  have hclosed := netClosed_doNetClose l c
  unfold doNetCloseTx
  split
  · refine ⟨rfl, rfl, fun d hd => setCtx_ctxs_ne _ _ hd, fun i => ?_⟩
    rw [setCtx_ctxs_self]
  · rename_i htask
    have hnot := not_pool (h.resolve_left htask)
    simp only
    refine ⟨hclosed.cfg, hclosed.held,
      fun d hd => (setCtx_ctxs_ne _ _ hd).trans (hclosed.other d hd), fun i => ?_⟩
    rw [setCtx_ctxs_self]
    exact iff_of_false nofun (hnot i)

/-- What a send that the network takes does besides counting. -/
structure Sent (l l' : ClientLib) (c : CtxIdx) (len : Nat) : Prop where
  cfg : l'.cfg = l.cfg
  held : l'.held = l.held
  takes : l'.takes = l.takes
  nSends : l'.nSends = l.nSends + 1
  contents : SameContents l l'
  other : ∀ d, d ≠ c → l'.ctxs d = l.ctxs d
  self : l'.ctxs c = { l.ctxs c with txPart := (l'.ctxs c).txPart }
  whole : len ≤ l.takes l.nSends → (l'.ctxs c).txPart.bufSz = 0
  part : (l.ctxs c).txPart.offset = 0 → l.takes l.nSends < len → (l'.ctxs c).txPart.bufSz ≠ 0

theorem clCtxPartSend_ok {c : CtxIdx} (ht : 0 < l.takes l.nSends) :
    (clCtxPartSend l c).2 = true ∧
      Sent l (clCtxPartSend l c).1 c (l.ctxs c).txPart.bufSz := by
  unfold clCtxPartSend
  simp only [ht, if_true]
  split
  · rename_i hlt
    refine ⟨rfl, rfl, rfl, rfl, rfl, SameContents.refl _, fun d hd => setCtx_ctxs_ne _ _ hd, ?_,
      fun hle => ?_, fun _ _ => ?_⟩
    · simp only [setCtx_ctxs_self]
    · omega
    · simp only [setCtx_ctxs_self]
      unfold TxPartPkt.bufSz at hlt ⊢
      simp only
      omega
  · rename_i hle
    have hreset := txPartReset_ctxs_self ({ l with nSends := l.nSends + 1 }) c
    have hsame := sameCtxs_txPart ({ l with nSends := l.nSends + 1 }) c
    refine ⟨rfl, hsame.cfg, hsame.held, hsame.takes, hsame.nSends, ?_,
      fun d hd => txPartReset_ctxs_ne _ hd, by rw [hreset], fun _ => by rw [hreset]; rfl,
      fun _ hlt => absurd hlt hle⟩
    unfold txPartReset
    simp only
    split
    · exact SameContents.refl _
    · exact fun j => sameContents_freeMqp _ _ j

theorem Sent.rxKept {c : CtxIdx} {len : Nat} (h : Sent l l' c len) : RxKept l l' c :=
  ⟨h.cfg, h.held, h.other, fun i => by rw [h.self]⟩

theorem PoolInv.count (h : PoolInv numMqp l fl ex) :
    PoolInv numMqp { l with nSends := l.nSends + 1 } fl ex :=
  h.mqps { l with nSends := l.nSends + 1 } rfl rfl h.counted h.range h.free h.nodup h.len

theorem PoolInv.clCtxPartSend (h : PoolInv numMqp l fl ex) {c : CtxIdx}
    (hex : ex = none ∨ ex = some c)
    (hok : l.takes l.nSends = 0 → (l.ctxs c).net = true →
      txCloseOk (l.cfg c) (l.ctxs c) (l.wlMqps c)) :
    PoolInv numMqp (clCtxPartSend l c).1 fl ex := by
  unfold Client.clCtxPartSend
  simp only
  split
  · split
    · rename_i hlt
      apply h.count.set
      · exact fun i => rfl
      · exact fun i => .inl (Nat.le_refl _)
      · intro _
        unfold TxPartPkt.bufSz at hlt ⊢
        simp only
        omega
      · intro hz
        unfold TxPartPkt.bufSz at hlt hz
        simp only at hz
        omega
      · exact h.len c
      · exact h.closed c
      · exact h.rx c
      · exact fun i he => .inl ⟨he, id⟩
      · exact fun d _ => id
    · exact h.count.txPartReset c
  · rename_i hz
    exact h.count.doNetCloseTx hex (hok (by omega))

/-! ### The first segment -/

theorem clCtxSeg1Send_refused {c : CtxIdx} {isConnMsg : Bool} (len : Nat) (txMqp : Option Nat)
    (h : ¬ attempts (l.ctxs c) isConnMsg) : clCtxSeg1Send l c len isConnMsg txMqp = (l, false) := by
  unfold clCtxSeg1Send
  simp only
  by_cases hconn : (isConnMsg ^^ (l.ctxs c).isConnected) = false
  · rw [if_pos hconn]
  · rw [if_neg hconn]
    by_cases hbuf : (l.ctxs c).txPart.bufSz ≠ 0
    · rw [if_pos hbuf]
    · exact absurd ⟨by simpa using hconn, not_not.1 hbuf⟩ h

theorem clCtxSeg1Send_attempts {c : CtxIdx} {isConnMsg : Bool} (len : Nat) (txMqp : Option Nat)
    (h : attempts (l.ctxs c) isConnMsg) :
    clCtxSeg1Send l c len isConnMsg txMqp =
      clCtxPartSend (l.setCtx c { l.ctxs c with
        txPart := { (l.ctxs c).txPart with txMqp := txMqp, length := len } }) c := by
  unfold clCtxSeg1Send
  simp only
  rw [if_neg (by rw [h.1]; exact Bool.true_eq_false_eq_False), if_neg (not_not.2 h.2)]

theorem PoolInv.clCtxSeg1Send (txMqp : Option Nat) (fl : List Nat) {c : CtxIdx} {isConnMsg : Bool}
    {len : Nat} (h : PoolInv numMqp l (txMqp.toList ++ fl) ex) (hex : ex = none ∨ ex = some c)
    (hlen : len ≠ 0) (hnet : (l.ctxs c).net = true) (ha : attempts (l.ctxs c) isConnMsg)
    (hok : l.takes l.nSends = 0 → txCloseOk (l.cfg c) (l.ctxs c) (l.wlMqps c)) :
    PoolInv numMqp (clCtxSeg1Send l c len isConnMsg txMqp).1 fl ex := by
  have hoffset := h.offset c ha.2
  have hnone : (l.ctxs c).txPart.txMqp = none := by
    by_contra hne
    exact h.tx c hne ha.2
  rw [clCtxSeg1Send_attempts len txMqp ha]
  apply PoolInv.clCtxPartSend _ hex
  · intro hz _
    have hsame : ({ l.ctxs c with txPart := { (l.ctxs c).txPart with
        txMqp := txMqp, length := len } } : ClientDesc) =
        (l.setCtx c { l.ctxs c with txPart := { (l.ctxs c).txPart with
          txMqp := txMqp, length := len } }).ctxs c := (setCtx_ctxs_self ..).symm
    unfold ClientLib.wlMqps
    rw [← hsame]
    exact hok hz
  · apply h.set
    · intro i
      unfold ClientDesc.refs
      rw [hnone, List.count_append]
      cases txMqp with
      | none => simp
      | some j =>
        by_cases hj : j = i
        · subst hj
          simp
          omega
        · simp [hj]
    · exact fun i => .inl (Nat.le_refl _)
    · intro _
      unfold TxPartPkt.bufSz
      simp only
      omega
    · intro _
      exact hoffset
    · exact h.len c
    · intro hn
      rw [hnet] at hn
      cases hn
    · exact h.rx c
    · exact fun i he => .inl ⟨he, id⟩
    · exact fun d _ => id

theorem rxKept_clCtxSeg1Send {c : CtxIdx} {isConnMsg : Bool} {len : Nat} {txMqp : Option Nat}
    (hok : attempts (l.ctxs c) isConnMsg → l.takes l.nSends = 0 →
      (l.cfg c).recvTask = true ∨ (l.ctxs c).rxPartial = false) :
    RxKept l (clCtxSeg1Send l c len isConnMsg txMqp).1 c := by
  by_cases ha : attempts (l.ctxs c) isConnMsg
  · rw [clCtxSeg1Send_attempts len txMqp ha]
    have hset : RxKept l (l.setCtx c { l.ctxs c with
        txPart := { (l.ctxs c).txPart with txMqp := txMqp, length := len } }) c :=
      ⟨rfl, rfl, fun d hd => setCtx_ctxs_ne _ _ hd, fun i => by rw [setCtx_ctxs_self]⟩
    apply hset.trans
    by_cases hz : l.takes l.nSends = 0
    · have hcount : RxKept (l.setCtx c { l.ctxs c with txPart :=
          { (l.ctxs c).txPart with txMqp := txMqp, length := len } }) { l.setCtx c { l.ctxs c with
            txPart := { (l.ctxs c).txPart with txMqp := txMqp, length := len } } with
          nSends := l.nSends + 1 } c := ⟨rfl, rfl, fun _ _ => rfl, fun _ => Iff.rfl⟩
      unfold clCtxPartSend
      simp only
      rw [if_neg (by change ¬ 0 < l.takes l.nSends; omega)]
      apply hcount.trans
      apply rxKept_doNetCloseTx
      simp only [setCtx_ctxs_self]
      exact hok ha hz
    · exact (clCtxPartSend_ok (by exact Nat.pos_of_ne_zero hz)).2.rxKept
  · rw [clCtxSeg1Send_refused len txMqp ha]
    exact RxKept.refl l c

theorem clCtxSeg1Send_nothing (h : l.takes l.nSends = 0) {c : CtxIdx} {isConnMsg : Bool} {len : Nat}
    {txMqp : Option Nat} : (clCtxSeg1Send l c len isConnMsg txMqp).2 = false := by
  by_cases ha : attempts (l.ctxs c) isConnMsg
  · rw [clCtxSeg1Send_attempts len txMqp ha]
    unfold clCtxPartSend
    simp only
    rw [if_neg (by change ¬ 0 < l.takes l.nSends; omega)]
  · rw [clCtxSeg1Send_refused len txMqp ha]

theorem clCtxSeg1Send_ok {c : CtxIdx} {isConnMsg : Bool} {len : Nat} {txMqp : Option Nat}
    (h : (clCtxSeg1Send l c len isConnMsg txMqp).2 = true) :
    Sent l (clCtxSeg1Send l c len isConnMsg txMqp).1 c len := by
  by_cases ha : attempts (l.ctxs c) isConnMsg
  · rw [clCtxSeg1Send_attempts len txMqp ha] at h ⊢
    by_cases hz : l.takes l.nSends = 0
    · have hnothing : (clCtxSeg1Send l c len isConnMsg txMqp).2 = false := clCtxSeg1Send_nothing hz
      rw [clCtxSeg1Send_attempts len txMqp ha, h] at hnothing
      cases hnothing
    · have hsent := (clCtxPartSend_ok (l := l.setCtx c { l.ctxs c with
        txPart := { (l.ctxs c).txPart with txMqp := txMqp, length := len } }) (c := c)
        (Nat.pos_of_ne_zero hz)).2
      refine ⟨hsent.cfg, hsent.held, hsent.takes, hsent.nSends, hsent.contents, fun d hd => ?_, ?_,
        fun hle => hsent.whole ?_, fun hoff hlt => hsent.part ?_ ?_⟩
      · rw [hsent.other d hd, setCtx_ctxs_ne _ _ hd]
      · have hself := hsent.self
        rw [setCtx_ctxs_self] at hself
        exact hself
      · rw [setCtx_ctxs_self]
        unfold TxPartPkt.bufSz
        exact (Nat.sub_le _ _).trans hle
      · rw [setCtx_ctxs_self]
        exact hoff
      · rw [setCtx_ctxs_self]
        unfold TxPartPkt.bufSz
        simp only [hoff, Nat.sub_zero]
        exact hlt
  · rw [clCtxSeg1Send_refused len txMqp ha] at h
    cases h

/-! ## Calls that send -/

theorem PoolInv.net_of_attempts (h : PoolInv numMqp l fl ex) {c : CtxIdx}
    (ha : attempts (l.ctxs c) false) : (l.ctxs c).net = true := by
  by_contra hnet
  have hclosed := (h.closed c (by simpa using hnet)).2
  have hconn := ha.1
  unfold ClientDesc.isConnected at hconn
  rw [hclosed] at hconn
  cases hconn

theorem PoolInv.vhSend (h : PoolInv numMqp l fl ex) {c : CtxIdx} (hex : ex = none ∨ ex = some c)
    (len : Nat) (hlen : len ≠ 0)
    (hok : attempts (l.ctxs c) false → l.takes l.nSends = 0 →
      txCloseOk (l.cfg c) (l.ctxs c) (l.wlMqps c)) :
    PoolInv numMqp (Client.clCtxSeg1Send l c len false none).1 fl ex := by
  by_cases ha : attempts (l.ctxs c) false
  · exact PoolInv.clCtxSeg1Send none fl h hex hlen (h.net_of_attempts ha) ha (hok ha)
  · rw [clCtxSeg1Send_refused len none ha]
    exact h

theorem PoolInv.vhMsgSend (h : PoolInv numMqp l fl ex) {c : CtxIdx} (hex : ex = none ∨ ex = some c)
    (hok : attempts (l.ctxs c) false → l.takes l.nSends = 0 →
      txCloseOk (l.cfg c) (l.ctxs c) (l.wlMqps c)) (t : MsgType) (id : UInt16) :
    PoolInv numMqp (vhMsgSend l c t id).1 fl ex := by
  have hsent := h.vhSend hex 4 (by decide) hok
  unfold Client.vhMsgSend
  simp only
  split
  · exact hsent.report _
  · exact hsent

theorem PoolInv.pingreqSend (h : PoolInv numMqp l fl ex) {c : CtxIdx}
    (hex : ex = none ∨ ex = some c)
    (hok : attempts (l.ctxs c) false → l.takes l.nSends = 0 →
      txCloseOk (l.cfg c) (l.ctxs c) (l.wlMqps c)) (user : Bool) :
    PoolInv numMqp (pingreqSend l c user).1 fl ex := by
  have hsent := h.vhSend hex 2 (by decide) hok
  unfold Client.pingreqSend
  simp only
  split
  · cases user
    · exact hsent.setFlags c _ rfl rfl rfl id fun _ => id
    · exact hsent.setFlags c _ rfl rfl rfl id fun _ => id
  · exact hsent

theorem wlMqps_congr {c : CtxIdx} (hwl : (l'.ctxs c).qosAck1Wl = (l.ctxs c).qosAck1Wl)
    (hmqps : ∀ i ∈ (l.ctxs c).qosAck1Wl, l'.mqps i = l.mqps i) : l'.wlMqps c = l.wlMqps c := by
  unfold ClientLib.wlMqps
  rw [hwl]
  exact List.map_congr_left hmqps

theorem closeOk_congr {c : CtxIdx} (h : closeOk (l.cfg c) (l.ctxs c) (l.wlMqps c))
    (htypes : ∀ i ∈ (l.ctxs c).qosAck1Wl, (l'.mqps i).msgType = (l.mqps i).msgType)
    (hcfg : l'.cfg = l.cfg)
    (hclean : (l'.ctxs c).cleanSession = (l.ctxs c).cleanSession)
    (hwl : (l'.ctxs c).qosAck1Wl = (l.ctxs c).qosAck1Wl ) :
    closeOk (l'.cfg c) (l'.ctxs c) (l'.wlMqps c) := by
  unfold closeOk ClientLib.wlMqps at h ⊢
  rw [hcfg, hclean, hwl]
  refine h.imp_right (Or.imp_right fun hall m hm => ?_)
  obtain ⟨i, hi, rfl⟩ := List.mem_map.1 hm
  rw [htypes i hi]
  exact hall _ (List.mem_map_of_mem hi)

theorem txCloseOk_congr {c : CtxIdx} (h : txCloseOk (l.cfg c) (l.ctxs c) (l.wlMqps c))
    (htypes : ∀ i ∈ (l.ctxs c).qosAck1Wl, (l'.mqps i).msgType = (l.mqps i).msgType)
    (hcfg : l'.cfg = l.cfg)
    (hclean : (l'.ctxs c).cleanSession = (l.ctxs c).cleanSession)
    (hwl : (l'.ctxs c).qosAck1Wl = (l.ctxs c).qosAck1Wl ) :
    txCloseOk (l'.cfg c) (l'.ctxs c) (l'.wlMqps c) :=
  h.imp (fun ht => by rwa [hcfg]) fun hc => closeOk_congr hc htypes hcfg hclean hwl

theorem txCloseOk_setCtx {c : CtxIdx} (x : ClientDesc)
    (h : txCloseOk (l.cfg c) (l.ctxs c) (l.wlMqps c))
    (hclean : x.cleanSession = (l.ctxs c).cleanSession)
    (hwl : x.qosAck1Wl = (l.ctxs c).qosAck1Wl ) :
    txCloseOk ((l.setCtx c x).cfg c) ((l.setCtx c x).ctxs c) ((l.setCtx c x).wlMqps c) := by
  have hself : (l.setCtx c x).ctxs c = x := setCtx_ctxs_self ..
  have hws : (l.setCtx c x).wlMqps c = l.wlMqps c :=
    wlMqps_congr (by rw [hself, hwl]) fun _ _ => rfl
  unfold txCloseOk closeOk at h ⊢
  rw [hws, hself, hclean]
  exact h

theorem PoolInv.mqttDisconnSend (h : PoolInv numMqp l fl none) {c : CtxIdx}
    (hok : attempts (l.ctxs c) false → txCloseOk (l.cfg c) (l.ctxs c) (l.wlMqps c)) :
    PoolInv numMqp (mqttDisconnSend l c) fl none := by
  have hinv := h.vhSend (c := c) (.inl rfl) 2 (by decide) fun ha _ => hok ha
  unfold Client.mqttDisconnSend
  simp only
  split
  · rename_i hr
    have hsent := clCtxSeg1Send_ok hr
    apply hinv.doNetCloseTx (.inl rfl)
    intro _
    have ha : attempts (l.ctxs c) false := by
      by_contra ha
      rw [clCtxSeg1Send_refused 2 none ha] at hr
      cases hr
    exact txCloseOk_congr (hok ha) (fun i _ => (hsent.contents i).1) hsent.cfg
      (by rw [hsent.self]) (by rw [hsent.self])
  · exact hinv

theorem PoolInv.mqttClientSendProgress (h : PoolInv numMqp l fl none) {c : CtxIdx}
    (hok : (l.ctxs c).txPart.bufSz ≠ 0 → l.takes l.nSends = 0 →
      txCloseOk (l.cfg c) (l.ctxs c) (l.wlMqps c)) :
    PoolInv numMqp (mqttClientSendProgress l c) fl none := by
  unfold Client.mqttClientSendProgress
  split
  · exact h
  · rename_i hbuf
    exact h.clCtxPartSend (.inl rfl) fun hz _ => hok hbuf hz

theorem PoolInv.msgDispatch {i : Nat} (h : PoolInv numMqp l (i :: fl) none) (hfl : fl.length < 100)
    {c : CtxIdx} {qos : Qos} (hlen : (l.mqps i).len ≠ 0) (ha : attempts (l.ctxs c) false)
    (hok : l.takes l.nSends = 0 → txCloseOk (l.cfg c) (l.ctxs c) (l.wlMqps c))
    (hwl : l.takes l.nSends ≠ 0 → ∀ d, i ∉ (l.ctxs d).qosAck1Wl) :
    PoolInv numMqp (msgDispatch l c i qos).1 fl none := by
  have hnet := h.net_of_attempts ha
  by_cases hq : qos = .qos0
  · subst hq
    exact PoolInv.clCtxSeg1Send (some i) fl h (.inl rfl) hlen hnet ha hok
  · have hrefs : (l.mqps i).nRefs ≠ 0 := by
      intro hz
      have hcount := h.counted i
      rw [hz, List.count_cons_self] at hcount
      simp at hcount
    have hinv₁ := h.addRef hrefs (by simp only [List.length_cons]; omega)
    have hlen₁ : ((Client.addRef l i).mqps i).len ≠ 0 := by
      rwa [(sameContents_addRef l i i).2.2]
    have hok₁ : (Client.addRef l i).takes (Client.addRef l i).nSends = 0 →
        txCloseOk ((Client.addRef l i).cfg c) ((Client.addRef l i).ctxs c)
          ((Client.addRef l i).wlMqps c) := fun hz =>
      txCloseOk_congr (hok hz) (fun j _ => (sameContents_addRef l i j).1) rfl rfl rfl
    have hsend := PoolInv.clCtxSeg1Send (some i) (i :: fl) hinv₁ (.inl rfl) hlen₁ hnet ha hok₁
    unfold Client.msgDispatch
    simp only [ne_eq, hq, not_false_eq_true, if_true]
    split
    · rename_i hr
      have hsent := clCtxSeg1Send_ok hr
      have hfresh : ∀ d, i ∉ (l.ctxs d).qosAck1Wl := hwl fun hz => by
        rw [clCtxSeg1Send_nothing (l := Client.addRef l i) hz] at hr
        cases hr
      have hsame : ∀ d, ((Client.clCtxSeg1Send (Client.addRef l i) c
          ((Client.addRef l i).mqps i).len false (some i)).1.ctxs d).qosAck1Wl =
          (l.ctxs d).qosAck1Wl := by
        intro d
        by_cases hd : d = c
        · subst hd
          rw [hsent.self]
          rfl
        · rw [hsent.other d hd]
          rfl
      apply hsend.set
      · intro j
        unfold ClientDesc.refs
        simp only [List.count_append]
        by_cases hj : i = j
        · subst hj
          simp
          omega
        · simp [hj]
      · intro j
        rw [List.count_append]
        by_cases hj : i = j
        · subst hj
          refine .inr ⟨fun d => by rw [hsame]; exact hfresh d, ?_⟩
          rw [hsame, List.count_eq_zero.2 (hfresh c)]
          simp
        · exact .inl (by simp [hj])
      · exact hsend.tx c
      · exact hsend.offset c
      · intro j hj
        rcases List.mem_append.1 hj with hj | hj
        · exact hsend.len c j hj
        · rw [List.mem_singleton.1 hj, (hsent.contents i).2.2]
          exact hlen₁
      · exact hsend.closed c
      · exact hsend.rx c
      · exact fun i he => .inl ⟨he, id⟩
      · exact fun d _ => id
    · exact hsend.freeMqp

theorem msgDispatch_nothing (h : l.takes l.nSends = 0) {c : CtxIdx} {i : Nat} {qos : Qos}
    (hq : qos ≠ .qos0) : (msgDispatch l c i qos).2 = false := by
  unfold Client.msgDispatch
  simp only [if_pos hq]
  rw [if_neg (by rw [clCtxSeg1Send_nothing (l := Client.addRef l i) h]; decide)]

theorem not_in_wl_of_fresh {i : Nat} (h : holders l i = 0) (c : CtxIdx) :
    i ∉ (l.ctxs c).qosAck1Wl := by
  intro hi
  have hpos := List.count_pos_iff.2 hi
  have hle := refs_le_holders l c i
  unfold ClientDesc.refs at hle
  omega

theorem PoolInv.newMsgId (h : PoolInv numMqp l fl ex) : PoolInv numMqp l.newMsgId fl ex :=
  h.mqps l.newMsgId rfl rfl h.counted h.range h.free h.nodup h.len

theorem mqpClientAlloc_nil {t : MsgType} {i : Nat} (h : mqpClientAlloc l t = some (i, l')) :
    l.freeList ≠ [] := by
  intro hnil
  unfold mqpClientAlloc at h
  rw [hnil] at h
  cases h

/-- `l₂` has the packet `i` more in flight, that nobody else has. -/
structure Fresh (numMqp : Nat) (l l₂ : ClientLib) (i : Nat) : Prop where
  inv : PoolInv numMqp l₂ [i] none
  same : SameCtxs l l₂
  fresh : ∀ d, i ∉ (l.ctxs d).qosAck1Wl
  other : ∀ j, j ≠ i → l₂.mqps j = l.mqps j

theorem PoolInv.fresh {i : Nat} {t : MsgType} (h : PoolInv numMqp l [] none)
    (ha : mqpClientAlloc l t = some (i, l')) : Fresh numMqp l l' i := by
  obtain ⟨hinv, hnone, -, hother⟩ := h.alloc ha
  refine ⟨hinv, sameCtxs_mqpClientAlloc ha, fun d => ?_, hother⟩
  rw [← (sameCtxs_mqpClientAlloc ha).ctxs]
  exact not_in_wl_of_fresh hnone d

theorem Fresh.setMqp {i : Nat} (h : Fresh numMqp l l' i) {m : Mqp}
    (hm : m.nRefs = (l'.mqps i).nRefs) (hlen : m.len ≠ 0) :
    Fresh numMqp l (l'.setMqp i m) i where
  inv := h.inv.setMqp hm hlen
  same := h.same.trans (sameCtxs_setMqp ..)
  fresh := h.fresh
  other j hj := by
    rw [← h.other j hj]
    simp [ClientLib.setMqp, hj]

theorem Fresh.txCloseOk {i : Nat} (h : Fresh numMqp l l' i) {c : CtxIdx}
    (hok : l.takes l.nSends = 0 → txCloseOk (l.cfg c) (l.ctxs c) (l.wlMqps c))
    (hz : l'.takes l'.nSends = 0) : txCloseOk (l'.cfg c) (l'.ctxs c) (l'.wlMqps c) := by
  rw [h.same.takes, h.same.nSends] at hz
  exact txCloseOk_congr (hok hz) (fun j hj => by rw [h.other j fun he => h.fresh c (he ▸ hj)])
    h.same.cfg (by rw [h.same.ctxs]) (by rw [h.same.ctxs])

theorem PoolInv.mqpMsgSend (h : PoolInv numMqp l [] none) {c : CtxIdx} {t : MsgType} {qos : Qos}
    {fits : Bool} {n : Nat} (hc : PoolCond l (.send c t qos fits n)) :
    PoolInv numMqp (mqpMsgSend l c t qos fits n) [] none := by
  unfold Client.mqpMsgSend
  cases halloc : mqpClientAlloc l t with
  | none => exact h
  | some r =>
    obtain ⟨i, l₁⟩ := r
    have hfresh := h.fresh halloc
    have hid : Fresh numMqp l (if qos ≠ .qos0 then l₁.newMsgId else l₁) i := by
      split
      · exact { hfresh with
          inv := hfresh.inv.newMsgId
          same := hfresh.same.trans ⟨rfl, rfl, rfl, rfl, rfl, rfl⟩ }
      · exact hfresh
    simp only
    generalize (if qos ≠ .qos0 then l₁.newMsgId else l₁) = l₂ at hid
    cases fits with
    | false => exact hid.inv.freeMqp
    | true =>
      obtain ⟨ha, hok⟩ := hc (mqpClientAlloc_nil halloc) rfl
      simp only [if_true]
      generalize hm : ({ l₂.mqps i with
        msgId := if qos ≠ .qos0 then l₂.msgId else 0, len := 2 + n } : Mqp) = m
      have hlen : m.len ≠ 0 := by
        rw [← hm]
        simp only
        omega
      have hfill := hid.setMqp (m := m) (by rw [← hm]) hlen
      apply hfill.inv.msgDispatch (by decide)
      · simpa [ClientLib.setMqp] using hlen
      · rwa [hfill.same.ctxs]
      · exact hfill.txCloseOk hok
      · intro _ d
        rw [hfill.same.ctxs]
        exact hfill.fresh d

theorem PoolInv.connectMsgSend (h : PoolInv numMqp l [] none) {c : CtxIdx}
    {clean opened fits : Bool} {n : Nat} (hc : PoolCond l (.connect c clean opened fits n)) :
    PoolInv numMqp (connectMsgSend l c clean opened fits n) [] none := by
  unfold Client.connectMsgSend
  cases halloc : mqpClientAlloc l .connect with
  | none => exact h
  | some r =>
    obtain ⟨i, l₁⟩ := r
    have hfresh := h.fresh halloc
    simp only
    cases fits with
    | false => exact hfresh.inv.freeMqp
    | true =>
      obtain ⟨hclose, rfl, hawait, ha, hok⟩ := hc (mqpClientAlloc_nil halloc) rfl
      simp only [if_true]
      generalize hm : ({ l₁.mqps i with len := 2 + n } : Mqp) = m
      have hlen : m.len ≠ 0 := by
        rw [← hm]
        simp only
        omega
      have hfill := hfresh.setMqp (m := m) (by rw [← hm]) hlen
      have hlen' : ((l₁.setMqp i m).mqps i).len ≠ 0 := by simpa [ClientLib.setMqp] using hlen
      generalize l₁.setMqp i m = l₂ at hfill hlen'
      have hself : (l₂.setCtx c { l₂.ctxs c with net := true }).ctxs c =
          { l.ctxs c with net := true } := by rw [setCtx_ctxs_self, hfill.same.ctxs]
      have hopen : PoolInv numMqp (l₂.setCtx c { l₂.ctxs c with net := true }) [i] none :=
        hfill.inv.setFlags c { l₂.ctxs c with net := true } rfl rfl rfl nofun nofun
      have hsend : PoolInv numMqp (Client.clCtxSeg1Send
          (l₂.setCtx c { l₂.ctxs c with net := true }) c (l₂.mqps i).len true (some i)).1 [] none := by
        apply PoolInv.clCtxSeg1Send (some i) [] hopen (.inl rfl) hlen'
        · rw [hself]
        · rw [hself]
          exact ha
        · exact fun hz => txCloseOk_setCtx _ (hfill.txCloseOk hok hz) rfl rfl
      unfold clCtxConnStateTry
      rw [if_neg (by rw [hfill.same.ctxs, hclose]; exact Bool.false_ne_true)]
      simp only [Bool.not_true, Bool.false_eq_true, if_false]
      rw [if_neg (by rw [setCtx_ctxs_self, hfill.same.ctxs, hawait]; exact Bool.false_ne_true)]
      split
      · exact hsend.setFlags c _ rfl rfl rfl id fun _ => id
      · exact hsend

theorem PoolInv.nRefs_ne_zero (h : PoolInv numMqp l fl ex) {i : Nat} (hi : 0 < holders l i) :
    (l.mqps i).nRefs ≠ 0 := by
  intro hz
  have hcount := h.counted i
  rw [hz] at hcount
  simp at hcount
  omega

theorem holders_pos_of_held {i : Nat} (h : i ∈ l.held) : 0 < holders l i := by
  have hpos := List.count_pos_iff.2 h
  unfold holders
  omega

theorem PoolInv.msgDispatchNoFree (h : PoolInv numMqp l [] none) {c : CtxIdx} {i : Nat} {qos : Qos}
    {msgId : UInt16} {n : Nat} (hheld : i ∈ l.held)
    (hc : PoolCond l (.dispatch c i qos msgId n)) :
    PoolInv numMqp (msgDispatchNoFree l c i qos msgId n) [] none := by
  obtain ⟨hq, ha, hz, hok⟩ := hc hheld
  unfold Client.msgDispatchNoFree
  simp only
  generalize hm : ({ l.mqps i with msgId := msgId, len := 2 + n } : Mqp) = m
  have hlen : m.len ≠ 0 := by
    rw [← hm]
    simp only
    omega
  have htype : m.msgType = (l.mqps i).msgType := by rw [← hm]
  have hinv := h.setMqp (i := i) (m := m) (by rw [← hm]) hlen
  have hrefs := hinv.nRefs_ne_zero (holders_pos_of_held (l := l.setMqp i m) hheld)
  have hcontents := sameContents_addRef (l.setMqp i m) i
  rw [if_neg (by rw [msgDispatch_nothing (l := Client.addRef (l.setMqp i m) i) hz hq]; decide)]
  apply (hinv.addRef hrefs (by decide)).msgDispatch (by decide)
  · rw [(hcontents i).2.2]
    simpa [ClientLib.setMqp] using hlen
  · exact ha
  · intro _
    refine txCloseOk_congr hok (fun j _ => ?_) rfl rfl rfl
    rw [(hcontents j).1]
    by_cases hj : j = i
    · subst hj
      simpa [ClientLib.setMqp] using htype
    · simp [ClientLib.setMqp, hj]
  · exact fun hne => absurd hz hne

theorem PoolInv.hold {i : Nat} (h : PoolInv numMqp l (i :: fl) ex) (hheld : i ∉ l.held)
    (hrx : ∀ d, ex ≠ some d → (l.ctxs d).rxMqp ≠ some (.pool i)) :
    PoolInv numMqp { l with held := i :: l.held } fl ex :=
  { h with
    counted := by
      intro j
      have hcount := h.counted j
      unfold holders at hcount ⊢
      simp only
      by_cases hj : i = j
      · subst hj
        rw [List.count_cons_self] at hcount ⊢
        omega
      · rw [List.count_cons_of_ne hj] at hcount ⊢
        exact hcount
    heldOnce := List.nodup_cons.2 ⟨hheld, h.heldOnce⟩
    rxOwn := by
      intro d hd j hj
      obtain ⟨hown, hother⟩ := h.rxOwn d hd j hj
      refine ⟨fun hmem => ?_, hother⟩
      rcases List.mem_cons.1 hmem with rfl | hmem
      · exact hrx d hd hj
      · exact hown hmem }

theorem PoolInv.allocHeld (h : PoolInv numMqp l [] none) {t : MsgType} {i : Nat}
    (ha : mqpClientAlloc l t = some (i, l')) :
    PoolInv numMqp { l' with held := i :: l'.held } [] none := by
  obtain ⟨hinv, hnone, -, -⟩ := h.alloc ha
  apply hinv.hold
  · intro hi
    have := holders_pos_of_held hi
    omega
  · intro d _ hrx
    have hle := refs_le_holders l' d i
    unfold ClientDesc.refs at hle
    rw [if_pos hrx] at hle
    omega

theorem PoolInv.freeHeld (h : PoolInv numMqp l [] none) {i : Nat} (hi : i ∈ l.held) :
    PoolInv numMqp (Client.freeMqp { l with held := l.held.erase i } i) [] none := by
  apply PoolInv.freeMqp
  exact { h with
    counted := by
      intro j
      have hcount := h.counted j
      unfold holders at hcount ⊢
      have herase := List.count_erase (a := j) (b := i) (l := l.held)
      have hpos := List.count_pos_iff.2 hi
      by_cases hj : i = j
      · subst hj
        simp only [beq_self_eq_true, if_true] at herase
        rw [List.count_cons_self]
        simp only [List.count_nil] at hcount ⊢
        omega
      · rw [List.count_cons_of_ne hj, List.count_erase_of_ne (Ne.symm hj)]
        exact hcount
    heldOnce := h.heldOnce.erase i
    rxOwn := fun c hc j hj =>
      (h.rxOwn c hc j hj).imp_left fun hheld hmem => hheld (List.mem_of_mem_erase hmem) }

theorem PoolInv.mqttClientCtxDelete (h : PoolInv numMqp l [] none) (c : CtxIdx) :
    PoolInv numMqp (mqttClientCtxDelete l c) [] none := by
  unfold Client.mqttClientCtxDelete
  split
  · exact h
  · rename_i hbusy
    have hnet : (l.ctxs c).net = false := by
      simp only [Bool.or_eq_true, not_or, Bool.not_eq_true] at hbusy
      exact hbusy.1
    have hdel := (h.sessionDelete c).txPartReset c
    have hself : (Client.txPartReset (Client.sessionDelete l c) c).ctxs c = { l.ctxs c with
        qos2RxCq := qos2PubCqReset
        qos2TxCq := qos2PubCqReset
        qosAck1Wl := []
        txPart := ⟨none, 0, 0⟩ } := by
      rw [txPartReset_ctxs_self, sessionDelete_ctxs_self]
    have hrx := not_pool (h.rx c nofun hnet)
    apply hdel.set
    · intro i
      rw [hself]
      unfold ClientDesc.refs
      simp [clientReset, hrx i]
    · exact fun i => .inl (Nat.zero_le _)
    · exact fun hne => absurd rfl hne
    · exact fun _ => rfl
    · exact nofun
    · exact fun _ => ⟨rfl, rfl⟩
    · exact fun _ _ => rfl
    · exact fun i he => nomatch he
    · exact fun d _ => id

end

end SimpleLink.Client
