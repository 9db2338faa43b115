import SimpleLink.Client.SendResult
import Mathlib.Data.List.Perm.Subperm

/-!
# A connect attempt that fails (`mqtt_client.c`)

`mqtt_connect_msg_send` takes a packet from the pool, builds the CONNECT, opens the network, and sends.
`FailExact` is what an attempt that fails is to leave behind: the connection that was there, or no
connection and no packet less. `net_connect` stores the handle before the library looks at the state
of the context, and only a send gives the packet back (`connectFail_iff`).
-/

namespace SimpleLink.Client.Send

open SimpleLink.Lib SimpleLink.Mqtt

/-! ## The CONNECT packet -/

/-- What a context was registered with for its CONNECT: `conn_pl_utf8s` and `will_opts`. -/
structure ConnInfo where
  clientId : Option Utf8String
  willTop : Option Utf8String
  willMsg : Option Utf8String
  userName : Option Utf8String
  password : Option Utf8String
  willOpts : UInt8

/-- `conn_pl_utf8s` with the index and `utf8_sel`. -/
def ConnInfo.utf8s (c : ConnInfo) : List (Nat × UInt8 × Option Utf8String) :=
  [(0, 0x00, c.clientId), (1, 0x04, c.willTop), (2, 0x00, c.willMsg), (3, 0x80, c.userName),
    (4, 0x40, c.password)]

/-- The loop of `wr_connect_pl`: an error, or the buffer, the end of what was written, and the options. -/
def wrConnectLoop (ref fsz : Nat) : List (Nat × UInt8 × Option Utf8String) → List UInt8 → Nat →
    UInt8 → Option (Except Int (List UInt8 × Nat × UInt8))
  | [], buffer, buf, connOpts => some (.ok (buffer, buf, connOpts))
  | (i, sel, utf8) :: us, buffer, buf, connOpts =>
    if utf8.isNone && i ≠ 0 && !(i = 2 && connOpts &&& 0x04 ≠ 0) then
      wrConnectLoop ref fsz us buffer buf connOpts
    else
      let content := (utf8.map Utf8String.content).getD []
      let len := (2 + content.length) % 2 ^ 16
      if fsz < buf - ref + len then some (.error mqpErrPktLen)
      else
        let bytes := if len = 2 then be16 0 else prefixed content
        match storeBytes buffer buf bytes with
        | none => none
        | some buffer => wrConnectLoop ref fsz us buffer (buf + bytes.length) (connOpts ||| sel)

/-- `mqtt310` and `mqtt311`. -/
def protoBytes (protoV31 : Bool) : List UInt8 :=
  if protoV31 then [0x00, 0x06, 77, 81, 73, 115, 100, 112, 0x03]
  else [0x00, 0x04, 77, 81, 84, 84, 0x04]

/-- `get_connect_vh_len`. -/
def getConnectVhLen (protoV31 : Bool) : Nat := (protoBytes protoV31).length + 3

/-- `connect_msg_send` with a packet it has allocated, up to `cl_ctx_conn_state_try_locked`: an error,
after which it has freed the packet, or the packet to send. -/
def connectBuild (mqp : MqttPacket) (protoV31 : Bool) (info : ConnInfo) (cleanSession : Bool)
    (kaSecs : UInt16) : Option (Except Int MqttPacket) :=
  let vhl := getConnectVhLen protoV31
  let fsz := mqp.freebufLen
  if fsz < vhl then some (.error mqpErrPktLen)
  else
    let mqp := { mqp with vhLen := vhl }
    let ref := mqp.plAt
    let connOpts : UInt8 := if cleanSession then 0x02 else 0
    match wrConnectLoop ref (fsz - vhl) info.utf8s mqp.buffer ref connOpts with
    | none => none
    | some (.error rv) => some (.error rv)
    | some (.ok (buffer, buf, connOpts)) =>
      -- `wr_connect_vh`
      let vh := protoBytes protoV31 ++ [info.willOpts ||| connOpts] ++ be16 kaSecs.toNat
      match storeBytes buffer (ref - vhl) vh with
      | none => none
      | some buffer =>
        (mqpPrepFh { mqp with buffer := buffer, plLen := buf - ref } (makeFhFlags false .qos0 false)).map
          fun r => .ok r.2

/-- The arguments of a call, with what the context was registered with. -/
structure ConnectCall where
  info : ConnInfo
  cleanSession : Bool
  kaSecs : UInt16

/-- `connect_msg_send`. -/
def connectMsgSend (s : Lib) (c : ConnectCall) (net : Net) : Option (Lib × Int) :=
  match mqpClientSendAlloc s 0x01 with
  | none => some (s, mqpErrPktAvl)
  | some (i, s) =>
    match connectBuild (s.mqps i).pkt s.cfg.protoV31 c.info c.cleanSession c.kaSecs with
    | none => none
    | some (.error rv) => some (mqpFree s i, rv)
    | some (.ok pkt) =>
      some (clCtxConnStateTryLocked (s.setPkt i pkt) i c.kaSecs c.cleanSession net)

/-! ## What a failure leaves -/

/-- `flags`. -/
def Ctx.flags (x : Ctx) : List Bool :=
  [x.connackAwait, x.nowConnected, x.cleanSession, x.kaPinger, x.userPing, x.networkClose,
    x.doConnackTo]

def Ctx.Unconnected (x : Ctx) : Prop := x.nowConnected = false ∧ x.connackAwait = false

/-- A connection that was there is as it was; without one, there is none, and the pool has its packets. -/
structure LeftAsBefore (s s' : Lib) : Prop where
  connected : s.ctx.net ≠ -1 →
    s'.ctx.net = s.ctx.net ∧ s'.ctx.flags = s.ctx.flags ∧ s'.ctx.timeout = s.ctx.timeout
  unconnected : s.ctx.net = -1 →
    s'.ctx.net = -1 ∧ s'.ctx.Unconnected ∧ s.freeList.Subperm s'.freeList

def FailExact (s : Lib) (c : ConnectCall) (net : Net) : Prop :=
  ∀ s' rv, connectMsgSend s c net = some (s', rv) → rv < 0 → LeftAsBefore s s'

/-! ## Giving a packet back -/

/-- A packet that was taken from a free list with `rest` behind it was given back, or is given back by the
next call. -/
def Releases (i : Nat) (rest : List Nat) (s : Lib) : Prop :=
  ((s.mqps i).pooled = true ∧ (s.mqps i).nRefs = 1 ∧ rest.Subperm s.freeList) ∨
    (i :: rest).Subperm s.freeList

theorem freeList_mqpFree (s : Lib) (j : Nat) : s.freeList.Sublist (mqpFree s j).freeList := by
  unfold mqpFree
  split
  · dsimp only
    split
    · exact List.sublist_cons_self ..
    · exact .refl _
  · exact .refl _

theorem Releases.free {i : Nat} {rest : List Nat} {s : Lib} (h : Releases i rest s) :
    (i :: rest).Subperm (mqpFree s i).freeList := by
  rcases h with ⟨hpooled, hrefs, hrest⟩ | hdone
  · unfold mqpFree
    rw [if_pos hpooled, hrefs]
    exact (List.subperm_cons i).2 hrest
  · exact hdone.trans (freeList_mqpFree s i).subperm

theorem mqps_mqpFree_of_ne (s : Lib) {i j : Nat} (hj : j ≠ i) :
    (mqpFree s j).mqps i = s.mqps i := by
  unfold mqpFree
  split
  · dsimp only
    split <;> exact Function.update_of_ne (Ne.symm hj) ..
  · rfl

theorem Releases.mqpFree {i : Nat} {rest : List Nat} {s : Lib} (h : Releases i rest s) (j : Nat) :
    Releases i rest (mqpFree s j) := by
  by_cases hj : j = i
  · subst hj
    exact .inr h.free
  · rcases h with ⟨hpooled, hrefs, hrest⟩ | hdone
    · have hsame := mqps_mqpFree_of_ne s hj
      refine .inl ⟨?_, ?_, hrest.trans (freeList_mqpFree s j).subperm⟩
      · rw [hsame]
        exact hpooled
      · rw [hsame]
        exact hrefs
    · exact .inr (hdone.trans (freeList_mqpFree s j).subperm)

theorem Releases.foldl {i : Nat} {rest : List Nat} (l : List Nat) {s : Lib}
    (h : Releases i rest s) : Releases i rest (l.foldl Send.mqpFree s) := by
  induction l generalizing s with
  | nil => exact h
  | cons j l ih => exact ih (h.mqpFree j)

/-- A packet without a `free` is on the free list as often as before. -/
def Unpooled (i n : Nat) (s : Lib) : Prop :=
  (s.mqps i).pooled = false ∧ s.freeList.count i = n

theorem Unpooled.mqpFree {i n : Nat} {s : Lib} (h : Unpooled i n s) (j : Nat) :
    Unpooled i n (mqpFree s j) := by
  obtain ⟨hpooled, hcount⟩ := h
  by_cases hj : j = i
  · subst hj
    have hsame : Send.mqpFree s j = s := if_neg (by rw [hpooled]; decide)
    rw [hsame]
    exact ⟨hpooled, hcount⟩
  · refine ⟨(congrArg Mqp.pooled (mqps_mqpFree_of_ne s hj)).trans hpooled, ?_⟩
    unfold Send.mqpFree
    split
    · dsimp only
      split
      · exact (List.count_cons_of_ne hj).trans hcount
      · exact hcount
    · exact hcount

theorem Unpooled.foldl {i n : Nat} (l : List Nat) {s : Lib} (h : Unpooled i n s) :
    Unpooled i n (l.foldl Send.mqpFree s) := by
  induction l generalizing s with
  | nil => exact h
  | cons j l ih => exact ih (h.mqpFree j)

theorem Unpooled.doNetClose {i n : Nat} {s : Lib} (h : Unpooled i n s) :
    Unpooled i n (doNetClose s) := by
  by_cases hnet : s.ctx.net = -1
  · have hsame : Send.doNetClose s = s := if_pos hnet
    rw [hsame]
    exact h
  · obtain ⟨s₁, hsession, he⟩ := doNetClose_split (P := Unpooled i n) hnet
      (h.foldl s.ctx.ack1Wl) h h
    rw [he]
    show Unpooled i n (txPartReset s₁)
    unfold txPartReset
    dsimp only
    split
    · exact hsession
    · exact hsession.mqpFree _

theorem Unpooled.doNetCloseTx {i n : Nat} {s : Lib} (h : Unpooled i n s) :
    Unpooled i n (doNetCloseTx s) := by
  unfold Send.doNetCloseTx
  split
  · exact h
  · dsimp only
    split
    · exact h.doNetClose
    · exact h.doNetClose.mqpFree _

theorem releases_doNetClose {i : Nat} {rest : List Nat} {s : Lib} (hnet : s.ctx.net ≠ -1)
    (htx : s.ctx.txPart.txMqp = some i) (h : Releases i rest s) :
    (i :: rest).Subperm (doNetClose s).freeList := by
  have hctx := (sameBytes_foldl s.ctx.ack1Wl s).ctx
  have hdelete : (sessionDelete s).ctx.txPart = s.ctx.txPart := by
    show (s.ctx.ack1Wl.foldl mqpFree s).ctx.txPart = s.ctx.txPart
    rw [hctx]
  obtain ⟨s₁, ⟨hrel, hpart⟩, he⟩ :=
    doNetClose_split (P := fun s₁ => Releases i rest s₁ ∧ s₁.ctx.txPart = s.ctx.txPart) hnet
      ⟨h.foldl s.ctx.ack1Wl, hdelete⟩ ⟨h, rfl⟩ ⟨h, rfl⟩
  rw [he]
  show (i :: rest).Subperm (txPartReset s₁).freeList
  unfold txPartReset
  dsimp only
  rw [hpart, htx]
  exact hrel.free

theorem unconnected_doNetClose {s : Lib} (hnet : s.ctx.net ≠ -1) :
    (doNetClose s).ctx.net = -1 ∧ (doNetClose s).ctx.Unconnected := by
  unfold doNetClose
  dsimp only
  rw [if_neg hnet]
  exact ⟨rfl, rfl, rfl⟩

theorem doNetCloseTx_closed {s : Lib} (htask : s.cfg.recvTask = false) (hnet : s.ctx.net ≠ -1) :
    (doNetCloseTx s).ctx.net = -1 ∧ (doNetCloseTx s).ctx.Unconnected ∧
      (doNetClose s).freeList.Subperm (doNetCloseTx s).freeList := by
  obtain ⟨hclosed, hun⟩ := unconnected_doNetClose hnet
  unfold doNetCloseTx
  rw [htask, if_neg (by decide)]
  dsimp only
  split
  · exact ⟨hclosed, hun, .refl _⟩
  · rename_i j _
    have hctx := (sameBytes_mqpFree (doNetClose s) j).ctx
    refine ⟨?_, ?_, (freeList_mqpFree (doNetClose s) j).subperm⟩
    · show (mqpFree (doNetClose s) j).ctx.net = -1
      rw [hctx]
      exact hclosed
    · show (mqpFree (doNetClose s) j).ctx.Unconnected
      rw [hctx]
      exact hun

/-! ## The attempt -/

def Unopened (s : Lib) : Prop := s.ctx.networkClose = true ∨ s.netOps = false

def TooLate (s : Lib) : Prop :=
  s.initDone = false ∨ s.ctx.connackAwait = true ∨ s.ctx.isConnected = true ∨
    s.ctx.txPart.bufSz ≠ 0

instance (s : Lib) : Decidable (Unopened s) := inferInstanceAs (Decidable (_ ∨ _))

instance (s : Lib) : Decidable (TooLate s) := inferInstanceAs (Decidable (_ ∨ _ ∨ _ ∨ _))

def openedLib (s : Lib) (net : Net) : Lib :=
  (s.setCtx { s.ctx with net := net.opened }).report (.opened net.opened)

theorem tryLocked_unopened {s : Lib} (h : Unopened s) (i : Nat) (kaSecs : UInt16)
    (cleanSession : Bool) (net : Net) :
    ∃ rv < 0, clCtxConnStateTryLocked s i kaSecs cleanSession net = (s, rv) := by
  have hopen : ∃ rv < 0, netConnect s net = (s, rv) := by
    unfold netConnect
    by_cases hclose : s.ctx.networkClose = true
    · rw [if_pos hclose]
      exact ⟨mqpErrNotDef, by decide, rfl⟩
    · rw [if_neg hclose, h.resolve_left hclose]
      exact ⟨mqpErrNetOps, by decide, rfl⟩
  obtain ⟨rv, hneg, heq⟩ := hopen
  refine ⟨rv, hneg, ?_⟩
  unfold clCtxConnStateTryLocked
  rw [heq]
  exact if_pos hneg

theorem netConnect_opened {s : Lib} (h : ¬ Unopened s) (net : Net) :
    netConnect s net = (openedLib s net, if net.opened = -1 then mqpErrNetwork else 0) := by
  have hclose : ¬ s.ctx.networkClose = true := fun hc => h (.inl hc)
  have hops : s.netOps = true := Bool.of_not_eq_false fun hn => h (.inr hn)
  unfold netConnect
  rw [if_neg hclose, hops]
  rfl

theorem tryLocked_notOpened {s : Lib} (h : ¬ Unopened s) {net : Net} (hnet : net.opened = -1)
    (i : Nat) (kaSecs : UInt16) (cleanSession : Bool) :
    clCtxConnStateTryLocked s i kaSecs cleanSession net = (openedLib s net, mqpErrNetwork) := by
  unfold clCtxConnStateTryLocked
  rw [netConnect_opened h, if_pos hnet]
  exact if_pos (show mqpErrNetwork < 0 by decide)

/-- The wait for the CONNACK begins where `r` is no error. -/
def awaitConnack (r : Lib × Int) (kaSecs : UInt16) (cleanSession : Bool) (net : Net) : Lib × Int :=
  if r.2 < 0 then r
  else
    let s := r.1.setCtx { r.1.ctx with
      timeout := net.now
      doConnackTo := true
      connackAwait := true
      cleanSession := r.1.ctx.cleanSession || cleanSession
      kaSecs := kaSecs }
    if s.cfg.groupMember then
      ({ s with connCtxs := true }, if s.connCtxs then r.2 else net.loopb)
    else (s, r.2)

theorem tryLocked_opened {s : Lib} (h : ¬ Unopened s) {net : Net} (hnet : net.opened ≠ -1)
    (i : Nat) (kaSecs : UInt16) (cleanSession : Bool) :
    clCtxConnStateTryLocked s i kaSecs cleanSession net =
      awaitConnack (if (!s.initDone || s.ctx.connackAwait) = true then (openedLib s net, mqpErrBadcall)
        else clCtxSeg1Send (openedLib s net) (.mqp i) true net) kaSecs cleanSession net := by
  unfold clCtxConnStateTryLocked
  rw [netConnect_opened h, if_neg hnet]
  rfl

theorem tryLocked_tooLate {s : Lib} (h : ¬ Unopened s) (hlate : TooLate s) {net : Net}
    (hnet : net.opened ≠ -1) (i : Nat) (kaSecs : UInt16) (cleanSession : Bool) :
    ∃ rv < 0, clCtxConnStateTryLocked s i kaSecs cleanSession net = (openedLib s net, rv) := by
  rw [tryLocked_opened h hnet]
  by_cases hstate : (!s.initDone || s.ctx.connackAwait) = true
  · refine ⟨mqpErrBadcall, by decide, ?_⟩
    rw [if_pos hstate]
    exact if_pos (show mqpErrBadcall < 0 by decide)
  · have hsend : ∃ rv < 0, clCtxSeg1Send (openedLib s net) (.mqp i) true net =
        (openedLib s net, rv) := by
      unfold clCtxSeg1Send
      by_cases hconn : s.ctx.isConnected = true
      · refine ⟨mqpErrNotconn, by decide, if_pos ?_⟩
        show (true ^^ s.ctx.isConnected) = false
        rw [hconn]
        rfl
      · refine ⟨mqpErrBadcall, by decide, ?_⟩
        have hgate : ¬ (true ^^ (openedLib s net).ctx.isConnected) = false := by
          show ¬ (true ^^ s.ctx.isConnected) = false
          rw [Bool.eq_false_iff.2 hconn]
          decide
        rw [if_neg hgate]
        refine if_pos ?_
        rcases hlate with hinit | hawait | hc | hsz
        · exact absurd (by rw [hinit]; rfl) hstate
        · exact absurd (by rw [hawait, Bool.or_true]) hstate
        · exact absurd hc hconn
        · exact hsz
    obtain ⟨rv, hneg, heq⟩ := hsend
    refine ⟨rv, hneg, ?_⟩
    rw [if_neg hstate, heq]
    exact if_pos hneg

def acceptedLib (s : Lib) (i : Nat) (net : Net) : Lib :=
  ((openedLib s net).report (.accepted (s.bytes (.mqp i)))).setCtx
    { (openedLib s net).ctx with txPart := txPartSetup s s.ctx.txPart (.mqp i) }

theorem tryLocked_sends {s : Lib} (h : ¬ Unopened s) (hlate : ¬ TooLate s) {net : Net}
    (hnet : net.opened ≠ -1) (i : Nat) (kaSecs : UInt16) (cleanSession : Bool) :
    clCtxConnStateTryLocked s i kaSecs cleanSession net =
      awaitConnack (clCtxPartSend (acceptedLib s i net) net) kaSecs cleanSession net := by
  have hstate : ¬ (!s.initDone || s.ctx.connackAwait) = true := by
    intro hstate
    rcases Bool.or_eq_true_iff.1 hstate with hinit | hawait
    · exact hlate (.inl (by simpa using hinit))
    · exact hlate (.inr (.inl hawait))
  have hconn : s.ctx.isConnected = false :=
    Bool.eq_false_iff.2 fun hc => hlate (.inr (.inr (.inl hc)))
  have hidle : ¬ s.ctx.txPart.bufSz ≠ 0 := fun hsz => hlate (.inr (.inr (.inr hsz)))
  have hsend : clCtxSeg1Send (openedLib s net) (.mqp i) true net =
      clCtxPartSend (acceptedLib s i net) net := by
    have hgate : ¬ (true ^^ (openedLib s net).ctx.isConnected) = false := by
      show ¬ (true ^^ s.ctx.isConnected) = false
      rw [hconn]
      decide
    unfold clCtxSeg1Send
    rw [if_neg hgate]
    exact if_neg hidle
  rw [tryLocked_opened h hnet, if_neg hstate, hsend]

theorem tryLocked_refused {s : Lib} (h : ¬ Unopened s) (hlate : ¬ TooLate s) {net : Net}
    (hnet : net.opened ≠ -1) (htakes : net.takes = 0) (i : Nat) (kaSecs : UInt16)
    (cleanSession : Bool) :
    clCtxConnStateTryLocked s i kaSecs cleanSession net =
      (doNetCloseTx (acceptedLib s i net), mqpErrNetwork) := by
  have hsent : netSend (acceptedLib s i net) (acceptedLib s i net).txBuf net = [] := by
    unfold netSend
    split
    · rfl
    · rw [htakes, List.take_zero]
  rw [tryLocked_sends h hlate hnet, partSend_refused hsent]
  exact if_pos (show mqpErrNetwork < 0 by decide)

theorem cfg_slotSent (s : Lib) (n : Nat) :
    (slotSent s n).cfg = s.cfg ∧ (slotSent s n).connCtxs = s.connCtxs ∧
      (slotSent s n).ctx.net = s.ctx.net := by
  unfold slotSent
  split
  · exact ⟨rfl, rfl, rfl⟩
  · have hfree : ∀ j, (mqpFree s j).cfg = s.cfg ∧ (mqpFree s j).connCtxs = s.connCtxs := by
      intro j
      unfold mqpFree
      split
      · dsimp only
        split <;> exact ⟨rfl, rfl⟩
      · exact ⟨rfl, rfl⟩
    refine ⟨?_, ?_, by rw [ctx_txPartReset]⟩
    · unfold txPartReset
      dsimp only
      split
      · rfl
      · exact (hfree _).1
    · unfold txPartReset
      dsimp only
      split
      · rfl
      · exact (hfree _).2

theorem tryLocked_taken {s : Lib} (hslot : s.ctx.txPart.Ok) (h : ¬ Unopened s)
    (hlate : ¬ TooLate s) {net : Net} (hnet : net.opened ≠ -1) (htakes : 0 < net.takes) {i : Nat}
    (hne : (s.mqps i).pkt.handed ≠ []) (kaSecs : UInt16) (cleanSession : Bool) :
    ∃ s' rv, clCtxConnStateTryLocked s i kaSecs cleanSession net = (s', rv) ∧
      s'.ctx.net = net.opened ∧ s'.ctx.connackAwait = true ∧
      (rv < 0 ↔ s.cfg.groupMember = true ∧ s.connCtxs = false ∧ net.loopb < 0) := by
  have hidle : s.ctx.txPart.bufSz = 0 :=
    Decidable.not_not.1 fun hsz => hlate (.inr (.inr (.inr hsz)))
  have hbuf : (acceptedLib s i net).txBuf = (s.mqps i).pkt.handed :=
    txBuf_txPartSetup (openedLib s net) (.mqp i) (hslot.idle hidle).2
  have hnet' : (acceptedLib s i net).ctx.net ≠ -1 := hnet
  have hsent : netSend (acceptedLib s i net) (acceptedLib s i net).txBuf net ≠ [] := by
    unfold netSend
    rw [if_neg hnet', hbuf]
    intro hnil
    rcases List.take_eq_nil_iff.1 hnil with h0 | hnil
    · omega
    · exact hne hnil
  obtain ⟨timeout, heq⟩ := partSend_sent hsent
  have hpos : (0 : Int) < (netSend (acceptedLib s i net) (acceptedLib s i net).txBuf net).length :=
    Int.natCast_pos.2 (List.length_pos_of_ne_nil hsent)
  rw [tryLocked_sends h hlate hnet, heq]
  unfold awaitConnack
  dsimp only
  generalize netSend (acceptedLib s i net) (acceptedLib s i net).txBuf net = sent at hpos ⊢
  obtain ⟨hcfg, hctxs, hopened⟩ := cfg_slotSent (((acceptedLib s i net).setCtx
    { (acceptedLib s i net).ctx with timeout := timeout }).report
      (.sent (acceptedLib s i net).ctx.net sent)) sent.length
  generalize slotSent (((acceptedLib s i net).setCtx
    { (acceptedLib s i net).ctx with timeout := timeout }).report
      (.sent (acceptedLib s i net).ctx.net sent)) sent.length = s₂ at hcfg hctxs hopened ⊢
  rw [if_neg (Int.not_lt.2 (Int.le_of_lt hpos))]
  have hcfg : s₂.cfg = s.cfg := hcfg
  have hctxs : s₂.connCtxs = s.connCtxs := hctxs
  have hopened : s₂.ctx.net = net.opened := hopened
  by_cases hgroup : s.cfg.groupMember = true
  · refine ⟨_, _, if_pos (by rw [← hcfg] at hgroup; exact hgroup), hopened, rfl, ?_⟩
    show (if s₂.connCtxs = true then (sent.length : Int) else net.loopb) < 0 ↔ _
    rw [hctxs]
    cases s.connCtxs
    · exact ⟨fun hneg => ⟨hgroup, rfl, hneg⟩, fun hand => hand.2.2⟩
    · refine ⟨fun hneg => absurd hpos (Int.not_lt.2 (Int.le_of_lt hneg)), fun hand => ?_⟩
      cases hand.2.1
  · refine ⟨_, _, if_neg (by rw [← hcfg] at hgroup; exact hgroup), hopened, rfl, ?_⟩
    refine ⟨fun hneg => absurd hpos (Int.not_lt.2 (Int.le_of_lt hneg)), fun hand => ?_⟩
    exact absurd hand.1 hgroup

/-! ## When it is as before -/

/-- The library after a packet was taken from the pool and written. -/
structure TookPacket (s s' : Lib) (i : Nat) : Prop where
  ctx : s'.ctx = s.ctx
  cfg : s'.cfg = s.cfg
  netOps : s'.netOps = s.netOps
  initDone : s'.initDone = s.initDone
  connCtxs : s'.connCtxs = s.connCtxs
  freeList : s.freeList = i :: s'.freeList
  nRefs : (s'.mqps i).nRefs = 1
  pooled : (s'.mqps i).pooled = (s.mqps i).pooled

theorem tookPacket_alloc {s s' : Lib} {msgType : UInt8} {i : Nat}
    (h : mqpClientSendAlloc s msgType = some (i, s')) : TookPacket s s' i := by
  unfold mqpClientSendAlloc at h
  split at h
  · cases h
  · rename_i rest hfree
    cases h
    refine ⟨rfl, rfl, rfl, rfl, rfl, hfree, ?_, ?_⟩
    · dsimp only
      rw [Function.update_self]
    · dsimp only
      rw [Function.update_self]

theorem mqps_setPkt (s : Lib) (i : Nat) (pkt : MqttPacket) :
    (s.setPkt i pkt).mqps i = { s.mqps i with pkt := pkt } := Function.update_self ..

theorem TookPacket.setPkt {s s' : Lib} {i : Nat} (h : TookPacket s s' i) (pkt : MqttPacket) :
    TookPacket s (s'.setPkt i pkt) i := by
  have hmqp := mqps_setPkt s' i pkt
  refine ⟨h.ctx, h.cfg, h.netOps, h.initDone, h.connCtxs, h.freeList, ?_, ?_⟩
  · rw [hmqp]
    exact h.nRefs
  · rw [hmqp]
    exact h.pooled

theorem TookPacket.missing {s s' : Lib} {i : Nat} (h : TookPacket s s' i) :
    ¬ s.freeList.Subperm s'.freeList := by
  intro hsub
  have hle := hsub.length_le
  rw [h.freeList, List.length_cons] at hle
  omega

theorem TookPacket.releases {s s' : Lib} {i : Nat} (h : TookPacket s s' i)
    (hpooled : (s.mqps i).pooled = true) : Releases i s'.freeList s' :=
  .inl ⟨h.pooled.trans hpooled, h.nRefs, .refl _⟩

theorem TookPacket.unopened_iff {s s' : Lib} {i : Nat} (h : TookPacket s s' i) :
    Unopened s' ↔ Unopened s := by
  unfold Unopened
  rw [h.ctx, h.netOps]

theorem TookPacket.tooLate_iff {s s' : Lib} {i : Nat} (h : TookPacket s s' i) :
    TooLate s' ↔ TooLate s := by
  unfold TooLate
  rw [h.ctx, h.initDone]

theorem leftAsBefore_took_iff {s s' : Lib} {i : Nat} (h : TookPacket s s' i) :
    LeftAsBefore s s' ↔ s.ctx.net ≠ -1 := by
  constructor
  · exact fun hleft hnet => h.missing (hleft.unconnected hnet).2.2
  · intro hnet
    refine ⟨fun _ => ?_, fun h0 => absurd h0 hnet⟩
    rw [h.ctx]
    exact ⟨rfl, rfl, rfl⟩

theorem leftAsBefore_opened_iff {s s' : Lib} {i : Nat} (h : TookPacket s s' i) (net : Net) :
    LeftAsBefore s (openedLib s' net) ↔ s.ctx.net ≠ -1 ∧ net.opened = s.ctx.net := by
  constructor
  · intro hleft
    have hnet : s.ctx.net ≠ -1 := fun hnet => h.missing (hleft.unconnected hnet).2.2
    exact ⟨hnet, (hleft.connected hnet).1⟩
  · rintro ⟨hnet, hsame⟩
    refine ⟨fun _ => ⟨hsame, ?_, ?_⟩, fun h0 => absurd h0 hnet⟩
    · show s'.ctx.flags = s.ctx.flags
      rw [h.ctx]
    · show s'.ctx.timeout = s.ctx.timeout
      rw [h.ctx]

/-- A CONNECT that the network refuses: only a context without a receive task closes the connection, and
with it gives the packet back. -/
theorem leftAsBefore_refused_iff {s s' : Lib} {i : Nat} (h : TookPacket s s' i)
    (hopen : ¬ Unopened s) {net : Net} (hnet : net.opened ≠ -1) :
    LeftAsBefore s (doNetCloseTx (acceptedLib s' i net)) ↔
      s.cfg.recvTask = false ∧ s.ctx.net = -1 ∧ (s.mqps i).pooled = true := by
  have hcfg : (acceptedLib s' i net).cfg = s.cfg := h.cfg
  by_cases htask : s.cfg.recvTask = true
  · refine iff_of_false (fun hleft => ?_) fun hand => by rw [hand.1] at htask; cases htask
    have hclose : doNetCloseTx (acceptedLib s' i net) = (acceptedLib s' i net).setCtx
        { (acceptedLib s' i net).ctx with networkClose := true } := if_pos (hcfg ▸ htask)
    rw [hclose] at hleft
    by_cases hnone : s.ctx.net = -1
    · exact hnet (hleft.unconnected hnone).1
    · have hflags := (hleft.connected hnone).2.1
      have hnot : s.ctx.networkClose = true := by
        unfold Ctx.flags at hflags
        simp only [List.cons.injEq] at hflags
        exact hflags.2.2.2.2.2.1.symm
      exact hopen (.inl hnot)
  · have htask : s.cfg.recvTask = false := Bool.eq_false_iff.2 htask
    obtain ⟨hclosed, hun, hsub⟩ := doNetCloseTx_closed (hcfg ▸ htask) (s := acceptedLib s' i net) hnet
    constructor
    · intro hleft
      have hnone : s.ctx.net = -1 := by
        refine Decidable.byContradiction fun hne => hne ?_
        exact ((hleft.connected hne).1.symm.trans hclosed)
      refine ⟨htask, hnone, Bool.of_not_eq_false fun hpooled => ?_⟩
      have hkept : Unpooled i (s'.freeList.count i) (acceptedLib s' i net) :=
        ⟨h.pooled.trans hpooled, rfl⟩
      have hle := (hleft.unconnected hnone).2.2.count_le i
      rw [h.freeList, List.count_cons_self, hkept.doNetCloseTx.2] at hle
      omega
    · rintro ⟨-, hnone, hpooled⟩
      refine ⟨fun hne => absurd hnone hne, fun _ => ⟨hclosed, hun, ?_⟩⟩
      rw [h.freeList]
      have hrel : Releases i s'.freeList (acceptedLib s' i net) := h.releases hpooled
      exact (releases_doNetClose (s := acceptedLib s' i net) hnet rfl hrel).trans hsub

/-! ## The call -/

/-- When an attempt with packet `i` leaves the context as before: none that opens a connection does, but
for one whose handle is the old one, one that closes it again, and one that is reported to the group. -/
def TryRestores (s : Lib) (i : Nat) (net : Net) : Prop :=
  if Unopened s then s.ctx.net ≠ -1
  else if net.opened = -1 then False
  else if TooLate s then s.ctx.net ≠ -1 ∧ net.opened = s.ctx.net
  else if net.takes = 0 then
    s.cfg.recvTask = false ∧ s.ctx.net = -1 ∧ (s.mqps i).pooled = true
  else ¬ (s.cfg.groupMember = true ∧ s.connCtxs = false ∧ net.loopb < 0)

theorem tryLocked_exact_iff {s s' : Lib} {i : Nat} (h : TookPacket s s' i)
    (hslot : s.ctx.txPart.Ok) (hne : (s'.mqps i).pkt.handed ≠ []) (kaSecs : UInt16)
    (cleanSession : Bool) (net : Net) :
    (∀ s'' rv, clCtxConnStateTryLocked s' i kaSecs cleanSession net = (s'', rv) → rv < 0 →
      LeftAsBefore s s'') ↔ TryRestores s i net := by
  -- an attempt that fails in one state
  have hfail : ∀ {s₂ : Lib} {rv₂ : Int} {P : Prop},
      clCtxConnStateTryLocked s' i kaSecs cleanSession net = (s₂, rv₂) → rv₂ < 0 →
      (LeftAsBefore s s₂ ↔ P) → ((∀ s'' rv, clCtxConnStateTryLocked s' i kaSecs cleanSession net =
        (s'', rv) → rv < 0 → LeftAsBefore s s'') ↔ P) := by
    intro s₂ rv₂ P heq hneg hiff
    refine ⟨fun hall => hiff.1 (hall s₂ rv₂ heq hneg), fun hP s'' rv heq' _ => ?_⟩
    obtain ⟨rfl, -⟩ := Prod.mk.inj (heq.symm.trans heq')
    exact hiff.2 hP
  unfold TryRestores
  by_cases hopen : Unopened s
  · rw [if_pos hopen]
    obtain ⟨rv, hneg, heq⟩ :=
      tryLocked_unopened (h.unopened_iff.2 hopen) i kaSecs cleanSession net
    exact hfail heq hneg (leftAsBefore_took_iff h)
  · rw [if_neg hopen]
    have hopen' : ¬ Unopened s' := mt h.unopened_iff.1 hopen
    by_cases hnet : net.opened = -1
    · rw [if_pos hnet]
      refine hfail (tryLocked_notOpened hopen' hnet i kaSecs cleanSession) (by decide) ?_
      rw [leftAsBefore_opened_iff h, hnet]
      exact iff_of_false (fun hand => hand.1 hand.2.symm) id
    · rw [if_neg hnet]
      by_cases hlate : TooLate s
      · rw [if_pos hlate]
        obtain ⟨rv, hneg, heq⟩ :=
          tryLocked_tooLate hopen' (h.tooLate_iff.2 hlate) hnet i kaSecs cleanSession
        exact hfail heq hneg (leftAsBefore_opened_iff h net)
      · rw [if_neg hlate]
        have hlate' : ¬ TooLate s' := mt h.tooLate_iff.1 hlate
        by_cases htakes : net.takes = 0
        · rw [if_pos htakes]
          exact hfail (tryLocked_refused hopen' hlate' hnet htakes i kaSecs cleanSession) (by decide)
            (leftAsBefore_refused_iff h hopen hnet)
        · rw [if_neg htakes]
          obtain ⟨s₂, rv, heq, hopened, hawait, hrv⟩ :=
            tryLocked_taken (h.ctx ▸ hslot) hopen' hlate' hnet (Nat.pos_of_ne_zero htakes) hne kaSecs
              cleanSession
          rw [h.cfg, h.connCtxs] at hrv
          by_cases hgroup : s.cfg.groupMember = true ∧ s.connCtxs = false ∧ net.loopb < 0
          · refine hfail heq (hrv.2 hgroup) (iff_of_false (fun hleft => ?_) (not_not_intro hgroup))
            by_cases hnone : s.ctx.net = -1
            · exact hnet (hopened.symm.trans (hleft.unconnected hnone).1)
            · have hflags := (hleft.connected hnone).2.1
              unfold Ctx.flags at hflags
              simp only [List.cons.injEq] at hflags
              exact hlate (.inr (.inl (hflags.1.symm.trans hawait)))
          · refine iff_of_true (fun s'' rv' heq' hneg => ?_) hgroup
            obtain ⟨-, rfl⟩ := Prod.mk.inj (heq.symm.trans heq')
            exact absurd (hrv.1 hneg) hgroup

def Restores (s : Lib) (c : ConnectCall) (net : Net) : Prop :=
  match mqpClientSendAlloc s 0x01 with
  | none => s.ctx.net = -1 → s.ctx.Unconnected
  | some (i, s') =>
    match connectBuild (s'.mqps i).pkt s'.cfg.protoV31 c.info c.cleanSession c.kaSecs with
    | none => True
    | some (.error _) => s.ctx.net = -1 → s.ctx.Unconnected ∧ (s.mqps i).pooled = true
    | some (.ok _) => TryRestores s i net

theorem wrConnectLoop_error {ref fsz : Nat} {us : List (Nat × UInt8 × Option Utf8String)}
    {buffer : List UInt8} {buf : Nat} {connOpts : UInt8} {rv : Int}
    (h : wrConnectLoop ref fsz us buffer buf connOpts = some (.error rv)) : rv < 0 := by
  induction us generalizing buffer buf connOpts with
  | nil => cases h
  | cons u us ih =>
    obtain ⟨i, sel, utf8⟩ := u
    unfold wrConnectLoop at h
    split at h
    · exact ih h
    · dsimp only at h
      split at h
      · cases h
        decide
      · split at h
        · cases h
        · exact ih h

theorem connectBuild_error {mqp : MqttPacket} {protoV31 cleanSession : Bool} {info : ConnInfo}
    {kaSecs : UInt16} {rv : Int}
    (h : connectBuild mqp protoV31 info cleanSession kaSecs = some (.error rv)) : rv < 0 := by
  unfold connectBuild at h
  dsimp only at h
  split at h
  · cases h
    decide
  · split at h
    · cases h
    · rename_i hloop
      cases h
      exact wrConnectLoop_error hloop
    · split at h
      · cases h
      · obtain ⟨r, -, hr⟩ := Option.map_eq_some_iff.1 h
        cases hr

theorem connectBuild_handed {mqp pkt : MqttPacket} {protoV31 cleanSession : Bool}
    {info : ConnInfo} {kaSecs : UInt16}
    (h : connectBuild mqp protoV31 info cleanSession kaSecs = some (.ok pkt)) :
    pkt.handed ≠ [] := by
  unfold connectBuild at h
  dsimp only at h
  split at h
  · cases h
  · split at h
    · cases h
    · cases h
    · split at h
      · cases h
      · obtain ⟨r, hprep, hr⟩ := Option.map_eq_some_iff.1 h
        cases hr
        exact (handed_mqpPrepFh hprep).1

/-- A packet that is freed without having been used is in the pool again, if it has a `free`. -/
theorem leftAsBefore_free_iff {s s' : Lib} {i : Nat} (h : TookPacket s s' i) :
    LeftAsBefore s (mqpFree s' i) ↔
      (s.ctx.net = -1 → s.ctx.Unconnected ∧ (s.mqps i).pooled = true) := by
  have hctx : (mqpFree s' i).ctx = s.ctx := (sameBytes_mqpFree s' i).ctx.trans h.ctx
  constructor
  · intro hleft hnone
    obtain ⟨-, hun, hsub⟩ := hleft.unconnected hnone
    refine ⟨hctx ▸ hun, Bool.of_not_eq_false fun hpooled => ?_⟩
    have hsame : mqpFree s' i = s' := if_neg (by rw [h.pooled, hpooled]; decide)
    rw [hsame] at hsub
    exact h.missing hsub
  · intro hcond
    refine ⟨fun _ => ?_, fun hnone => ⟨?_, ?_, ?_⟩⟩
    · rw [hctx]
      exact ⟨rfl, rfl, rfl⟩
    · rw [hctx]
      exact hnone
    · rw [hctx]
      exact (hcond hnone).1
    · rw [h.freeList]
      exact (h.releases (hcond hnone).2).free

theorem leftAsBefore_same_iff (s : Lib) :
    LeftAsBefore s s ↔ (s.ctx.net = -1 → s.ctx.Unconnected) :=
  ⟨fun hleft hnone => (hleft.unconnected hnone).2.1,
    fun hcond => ⟨fun _ => ⟨rfl, rfl, rfl⟩, fun hnone => ⟨hnone, hcond hnone, .refl _⟩⟩⟩

/-- A connect attempt that fails leaves the context as before exactly where `Restores` says so. -/
theorem connectFail_iff (s : ClientLib) (c : ConnectCall) (net : Net) :
    FailExact s.toLib c net ↔ Restores s.toLib c net := by
  unfold FailExact connectMsgSend Restores
  cases halloc : mqpClientSendAlloc s.toLib 0x01 with
  | none =>
    dsimp only
    rw [← leftAsBefore_same_iff]
    constructor
    · exact fun hall => hall s.toLib mqpErrPktAvl rfl (by decide)
    · intro hleft s' rv heq _
      cases heq
      exact hleft
  | some r =>
    obtain ⟨i, s₁⟩ := r
    have htook := tookPacket_alloc halloc
    dsimp only
    cases hbuild : connectBuild (s₁.mqps i).pkt s₁.cfg.protoV31 c.info c.cleanSession c.kaSecs with
    | none => exact iff_of_true (fun _ _ heq => nomatch heq) trivial
    | some b =>
      cases b with
      | error rv =>
        dsimp only
        rw [← leftAsBefore_free_iff htook]
        constructor
        · exact fun hall => hall (mqpFree s₁ i) rv rfl (connectBuild_error hbuild)
        · intro hleft s' rv' heq _
          cases heq
          exact hleft
      | ok pkt =>
        dsimp only
        have hne : ((s₁.setPkt i pkt).mqps i).pkt.handed ≠ [] := by
          rw [mqps_setPkt]
          exact connectBuild_handed hbuild
        rw [← tryLocked_exact_iff (htook.setPkt pkt) s.slot hne c.kaSecs c.cleanSession net]
        simp only [Option.some.injEq]

/-- A CONNECT for which a new context has no room leaves it as it was. -/
theorem connectFail_noRoom :
    FailExact (created ⟨true, false, false⟩
      (fun _ => ⟨mqpBufferAttach (List.replicate 4 0) 0, 0, true⟩) [0])
        ⟨⟨none, none, none, none, none, 0⟩, true, 60⟩ ⟨6, 0, 0, 0⟩ := by
  have hrun : runs txStep (created ⟨true, false, false⟩
      (fun _ => ⟨mqpBufferAttach (List.replicate 4 0) 0, 0, true⟩) [0]) [] = some (_, []) := rfl
  refine (connectFail_iff (.ofRun hrun) _ _).2 ?_
  unfold Restores
  simp only [ClientLib.ofRun, created, mqpClientSendAlloc, mqpBufferAttach]
  split
  · trivial
  · exact fun _ => ⟨⟨rfl, rfl⟩, trivial⟩
  · rename_i hbuild
    cases hbuild

/-! ## A connection that is lost -/

def connectedLib : Lib :=
  let s := created ⟨true, false, false⟩ (fun _ => ⟨mqpBufferAttach (List.replicate 32 0) 0, 0, true⟩) [0]
  s.setCtx { s.ctx with net := 5, nowConnected := true }

/-- A connected context that is asked to connect again has the new handle: 5 is lost. -/
theorem connectFail_lost :
    ¬ FailExact connectedLib ⟨⟨none, none, none, none, none, 0⟩, true, 60⟩ ⟨6, 0, 0, 0⟩ := by
  intro hexact
  have hleft := hexact _ _ rfl (by decide)
  exact absurd (hleft.connected (by decide)).1 (by decide)

end SimpleLink.Client.Send
