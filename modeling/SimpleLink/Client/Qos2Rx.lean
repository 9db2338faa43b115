import SimpleLink.Client.Ctx

/-!
# Exactly-once reception by the client library

What a context owes the server: a QoS2 PUBLISH that it has not on record is handed to
the application and recorded, one that it has on record is not; a PUBREL of a recorded
identifier is answered and takes it off the record. The record ends with the session:
with the connection, if its CONNECT asked for a clean session (`RxRun.asked`), else not.

The library keeps the record in a queue of `MAX_PUBREL_INFLT` cells that is unlogged at
its head only, and goes by `CLEAN_SESSION_FLAG`, which no later CONNECT clears. `Qos2Cond`
says when that makes no difference.
-/

namespace SimpleLink.Client

open SimpleLink.Lib SimpleLink.Mqtt

/-! ## The property -/

/-- The QoS2 identifiers of a context that are on record, oldest first. -/
def recorded (l : ClientLib) (c : CtxIdx) : List UInt16 := (l.ctxs c).qos2RxCq.recorded

/-- The library, and whether the last CONNECT that a context sent asked for a clean session. -/
structure RxRun where
  lib : ClientLib
  asked : CtxIdx → Bool

def rxInit (cfg : CtxIdx → CtxCfg) (takes : Nat → Nat) (numMqp : Nat) : RxRun where
  lib := clientInit cfg takes numMqp
  asked := fun _ => false

/-- A CONNECT has been sent if the context waits for the CONNACK now; a deleted context starts anew. -/
def askedAfter (l l' : ClientLib) (op : ClOp) (asked : CtxIdx → Bool) : CtxIdx → Bool :=
  match op with
  | .connect c clean _ _ _ =>
    if !(l.ctxs c).connackAwait && (l'.ctxs c).connackAwait then Function.update asked c clean
    else asked
  | .delete c =>
    if (l.ctxs c).net || awaitsPkts (l.ctxs c) then asked else Function.update asked c false
  | _ => asked

def rxStep (s : RxRun) (op : ClOp) : Option (RxRun × List Obs) :=
  match clStep s.lib op with
  | none => none
  | some (l, out) => some (⟨l, askedAfter s.lib l op s.asked⟩, out)

/-- The packet that a step receives, and on which context. -/
def ClOp.rxPkt? (l : ClientLib) : ClOp → Option (CtxIdx × RxPkt)
  | .recv c mqp (.packet pkt) =>
    if (l.ctxs c).net ∧ (mqpSetup l c mqp).isSome then some (c, pkt) else none
  | _ => none

/-- The QoS2 PUBLISH among them, on a connection that has been accepted. -/
def ClOp.qos2Publish? (l : ClientLib) (op : ClOp) : Option (CtxIdx × UInt16) :=
  match op.rxPkt? l with
  | some (c, .publish .qos2 id _) => if (l.ctxs c).connackAwait then none else some (c, id)
  | _ => none

def ClOp.pubrel? (l : ClientLib) (op : ClOp) : Option (CtxIdx × UInt16) :=
  match op.rxPkt? l with
  | some (c, .pubrel id) => if (l.ctxs c).connackAwait then none else some (c, id)
  | _ => none

def ClOp.accepted? (l : ClientLib) (op : ClOp) : Option CtxIdx :=
  match op.rxPkt? l with
  | some (c, .connack true) => if (l.ctxs c).connackAwait then some c else none
  | _ => none

def delivered (c : CtxIdx) (out : List Obs) : List UInt16 :=
  out.filterMap fun
    | .publishRx d .qos2 id => if d = c then some id else none
    | _ => none

def specDelivered (l : ClientLib) (op : ClOp) (d : CtxIdx) : List UInt16 :=
  match op.qos2Publish? l with
  | some (c, id) => if d = c ∧ id ∉ recorded l c then [id] else []
  | none => []

def nextRecorded (l : ClientLib) (op : ClOp) (d : CtxIdx) : List UInt16 :=
  match op.qos2Publish? l, op.pubrel? l with
  | some (c, id), _ => if d = c ∧ id ∉ recorded l c then recorded l c ++ [id] else recorded l d
  | none, some (c, id) => if d = c then (recorded l c).erase id else recorded l d
  | none, none => recorded l d

/-- The record a step should leave; a clean session starts and ends with its connection. -/
def specRecorded (s : RxRun) (op : ClOp) (out : List Obs) (d : CtxIdx) : List UInt16 :=
  if s.asked d ∧ (.close d ∈ out ∨ op.accepted? s.lib = some d) then []
  else nextRecorded s.lib op d

structure Qos2Exact (s : RxRun) (op : ClOp) : Prop where
  returns : (op.qos2Publish? s.lib).isSome ∨ (op.pubrel? s.lib).isSome → (rxStep s op).isSome
  recorded : ∀ s' out, rxStep s op = some (s', out) →
    ∀ d, recorded s'.lib d = specRecorded s op out d
  delivered : ∀ s' out, rxStep s op = some (s', out) →
    ∀ d, delivered d out = specDelivered s.lib op d
  answered : ∀ s' out, rxStep s op = some (s', out) →
    ∀ c id, op.pubrel? s.lib = some (c, id) → id ∈ Client.recorded s.lib c →
      .vh c .pubcomp id ∈ out

/-! ## The condition -/

def canSend (l : ClientLib) (c : CtxIdx) : Prop :=
  (l.ctxs c).isConnected = true ∧ (l.ctxs c).txPart.bufSz = 0 ∧ 0 < l.takes l.nSends

/-- A CONNECT that keeps the session does not follow one that asked for a clean session. -/
def ConnectCond (l : ClientLib) : ClOp → Prop
  | .connect c clean _ _ _ => clean = true ∨ (l.ctxs c).cleanSession = false
  | _ => True

/-- The application has registered its callback, and there is a free cell for a new identifier. -/
def PublishCond (l : ClientLib) (c : CtxIdx) (id : UInt16) : Prop :=
  (l.cfg c).publishRx = true ∧
    (id ∈ recorded l c ∨ (recorded l c).length < maxPubrelInflt)

/-- A recorded identifier is released as the oldest one, and the PUBCOMP can be sent. -/
def PubrelCond (l : ClientLib) (c : CtxIdx) (id : UInt16) : Prop :=
  id ∈ recorded l c → (recorded l c).head? = some id ∧ canSend l c

def Qos2Cond (s : RxRun) (op : ClOp) : Prop :=
  ConnectCond s.lib op ∧
    (∀ p ∈ op.qos2Publish? s.lib, PublishCond s.lib p.1 p.2) ∧
    ∀ p ∈ op.pubrel? s.lib, PubrelCond s.lib p.1 p.2

instance (l : ClientLib) (c : CtxIdx) : Decidable (canSend l c) :=
  inferInstanceAs (Decidable (_ ∧ _))

instance (l : ClientLib) : ∀ op, Decidable (ConnectCond l op)
  | .connect _ _ _ _ _ => inferInstanceAs (Decidable (_ ∨ _))
  | .send .. | .alloc _ | .free _ | .dispatch .. | .pingreq _ | .disconn _ | .progress _
  | .rxPrep _ _ | .recv _ _ _ | .delete _ => inferInstanceAs (Decidable True)

instance (l : ClientLib) (c : CtxIdx) (id : UInt16) : Decidable (PublishCond l c id) :=
  inferInstanceAs (Decidable (_ ∧ _))

instance (l : ClientLib) (c : CtxIdx) (id : UInt16) : Decidable (PubrelCond l c id) :=
  inferInstanceAs (Decidable (_ → _))

instance (s : RxRun) (op : ClOp) : Decidable (Qos2Cond s op) :=
  have : Decidable (∀ p ∈ op.qos2Publish? s.lib, PublishCond s.lib p.1 p.2) :=
    (op.qos2Publish? s.lib).decidableForallMem
  have : Decidable (∀ p ∈ op.pubrel? s.lib, PubrelCond s.lib p.1 p.2) :=
    (op.pubrel? s.lib).decidableForallMem
  inferInstanceAs (Decidable (_ ∧ _ ∧ _))

/-! ## Steps that leave the record to the session -/

/-- `l'` comes after `l` and `out` was reported on the way: no message handed over, and the record
of a context forgotten just where a clean session was closed. -/
structure Quiet (l l' : ClientLib) (out : List Obs) : Prop where
  cfg : l'.cfg = l.cfg
  log : l'.log = out ++ l.log
  clean : ∀ d, (l'.ctxs d).cleanSession = (l.ctxs d).cleanSession
  rx : ∀ d, (l'.ctxs d).qos2RxCq =
    if (l.ctxs d).cleanSession = true ∧ .close d ∈ out then qos2PubCqReset else (l.ctxs d).qos2RxCq
  await : ∀ d, (l'.ctxs d).connackAwait = true → (l.ctxs d).connackAwait = true
  silent : ∀ d, delivered d out = []

theorem delivered_append (d : CtxIdx) (out out' : List Obs) :
    delivered d (out ++ out') = delivered d out ++ delivered d out' := List.filterMap_append

/-- A context is forgotten where it was closed, now or before. -/
theorem closed_append {cleanSession : Bool} {d : CtxIdx} {out out' : List Obs} (cq cq' : PubQos2Cq) :
    (if cleanSession = true ∧ .close d ∈ out' then cq'
      else if cleanSession = true ∧ .close d ∈ out then cq' else cq) =
      if cleanSession = true ∧ .close d ∈ out' ++ out then cq' else cq := by
  by_cases hout' : Obs.close d ∈ out' <;> by_cases hclean : cleanSession = true <;>
    simp [hclean, hout']

theorem Quiet.trans {l l' l'' : ClientLib} {out out' : List Obs} (h : Quiet l l' out)
    (h' : Quiet l' l'' out') : Quiet l l'' (out' ++ out) where
  cfg := h'.cfg.trans h.cfg
  log := by rw [h'.log, h.log, List.append_assoc]
  clean d := (h'.clean d).trans (h.clean d)
  rx d := by
    rw [h'.rx, h.rx, h.clean]
    exact closed_append _ _
  await d hd := h.await d (h'.await d hd)
  silent d := by rw [delivered_append, h.silent, h'.silent, List.append_nil]

theorem Quiet.of_same {l l' : ClientLib} (hcfg : l'.cfg = l.cfg) (hlog : l'.log = l.log)
    (hctx : ∀ d, (l'.ctxs d).cleanSession = (l.ctxs d).cleanSession ∧
      (l'.ctxs d).qos2RxCq = (l.ctxs d).qos2RxCq ∧
      ((l'.ctxs d).connackAwait = true → (l.ctxs d).connackAwait = true)) : Quiet l l' [] where
  cfg := hcfg
  log := hlog
  clean d := (hctx d).1
  rx d := by
    rw [(hctx d).2.1, if_neg]
    exact fun h => List.not_mem_nil h.2
  await d := (hctx d).2.2
  silent _ := rfl

theorem Quiet.of_ctxs {l l' : ClientLib} (hcfg : l'.cfg = l.cfg) (hlog : l'.log = l.log)
    (hctx : l'.ctxs = l.ctxs) : Quiet l l' [] :=
  .of_same hcfg hlog fun _ => by rw [hctx]; exact ⟨rfl, rfl, id⟩

theorem Quiet.refl (l : ClientLib) : Quiet l l [] := .of_ctxs rfl rfl rfl

theorem Quiet.setCtx (l : ClientLib) (c : CtxIdx) (x : ClientDesc)
    (hclean : x.cleanSession = (l.ctxs c).cleanSession)
    (hrx : x.qos2RxCq = (l.ctxs c).qos2RxCq)
    (hawait : x.connackAwait = true → (l.ctxs c).connackAwait = true) :
    Quiet l (l.setCtx c x) [] := by
  refine .of_same rfl rfl fun d => ?_
  by_cases hd : d = c
  · subst hd
    rw [setCtx_ctxs_self]
    exact ⟨hclean, hrx, hawait⟩
  · rw [setCtx_ctxs_ne _ _ hd]
    exact ⟨rfl, rfl, id⟩

theorem Quiet.vh (l : ClientLib) (c : CtxIdx) (t : MsgType) (id : UInt16) :
    Quiet l (l.report (.vh c t id)) [.vh c t id] where
  cfg := rfl
  log := rfl
  clean _ := rfl
  rx d := by simp [ClientLib.report]
  await _ h := h
  silent _ := rfl

/-! ## What touches the packets only -/

/-- `l'` differs from `l` in the packets. -/
structure SameCtxs (l l' : ClientLib) : Prop where
  cfg : l'.cfg = l.cfg
  log : l'.log = l.log
  ctxs : l'.ctxs = l.ctxs
  takes : l'.takes = l.takes
  nSends : l'.nSends = l.nSends
  held : l'.held = l.held

theorem SameCtxs.refl (l : ClientLib) : SameCtxs l l := ⟨rfl, rfl, rfl, rfl, rfl, rfl⟩

theorem SameCtxs.trans {l l' l'' : ClientLib} (h : SameCtxs l l') (h' : SameCtxs l' l'') :
    SameCtxs l l'' :=
  ⟨h'.cfg.trans h.cfg, h'.log.trans h.log, h'.ctxs.trans h.ctxs, h'.takes.trans h.takes,
    h'.nSends.trans h.nSends, h'.held.trans h.held⟩

theorem SameCtxs.quiet {l l' : ClientLib} (h : SameCtxs l l') : Quiet l l' [] :=
  .of_ctxs h.cfg h.log h.ctxs

theorem SameCtxs.then {l l' l'' : ClientLib} {out : List Obs} (h : SameCtxs l l')
    (h' : Quiet l' l'' out) : Quiet l l'' out := by
  simpa only [List.append_nil] using h.quiet.trans h'

theorem sameCtxs_setMqp (l : ClientLib) (i : Nat) (m : Mqp) : SameCtxs l (l.setMqp i m) :=
  ⟨rfl, rfl, rfl, rfl, rfl, rfl⟩

theorem sameCtxs_freeMqp (l : ClientLib) (i : Nat) : SameCtxs l (freeMqp l i) := by
  unfold freeMqp
  simp only
  split
  · exact ⟨rfl, rfl, rfl, rfl, rfl, rfl⟩
  · exact sameCtxs_setMqp ..

theorem sameCtxs_foldl_freeMqp (wl : List Nat) :
    ∀ l : ClientLib, SameCtxs l (wl.foldl freeMqp l) := by
  induction wl with
  | nil => exact SameCtxs.refl
  | cons i wl ih => exact fun l => (sameCtxs_freeMqp l i).trans (ih _)

theorem sameCtxs_mqpClientAlloc {l l' : ClientLib} {t : MsgType} {i : Nat}
    (h : mqpClientAlloc l t = some (i, l')) : SameCtxs l l' := by
  unfold mqpClientAlloc at h
  split at h
  · cases h
  · cases h
    exact ⟨rfl, rfl, rfl, rfl, rfl, rfl⟩

theorem quiet_txPartReset (l : ClientLib) (c : CtxIdx) : Quiet l (txPartReset l c) [] := by
  unfold txPartReset
  simp only
  split
  · exact Quiet.setCtx _ _ _ (by rfl) (by rfl) (by simp)
  · rename_i i _
    have hfree := sameCtxs_freeMqp l i
    exact hfree.then (Quiet.setCtx _ _ _ (by rw [hfree.ctxs]) (by rw [hfree.ctxs])
      (by rw [hfree.ctxs]; exact id))

/-! ## Closing -/

/-- The session of `c` has been deleted if it is a clean one, nothing else has happened to the
records. -/
structure Ended (l l' : ClientLib) (c : CtxIdx) : Prop where
  cfg : l'.cfg = l.cfg
  log : l'.log = l.log
  clean : ∀ d, (l'.ctxs d).cleanSession = (l.ctxs d).cleanSession
  rx : (l'.ctxs c).qos2RxCq =
    if (l.ctxs c).cleanSession then qos2PubCqReset else (l.ctxs c).qos2RxCq
  other : ∀ d, d ≠ c → (l'.ctxs d).qos2RxCq = (l.ctxs d).qos2RxCq
  await : ∀ d, (l'.ctxs d).connackAwait = true → (l.ctxs d).connackAwait = true

theorem Ended.quiet {l l' l'' : ClientLib} {c : CtxIdx} (h : Ended l l' c) (h' : Quiet l' l'' []) :
    Ended l l'' c where
  cfg := h'.cfg.trans h.cfg
  log := h'.log.trans h.log
  clean d := (h'.clean d).trans (h.clean d)
  rx := by rw [h'.rx, if_neg (fun hc => List.not_mem_nil hc.2), h.rx]
  other d hd := by rw [h'.rx, if_neg (fun hc => List.not_mem_nil hc.2), h.other d hd]
  await d hd := h.await d (h'.await d hd)

theorem Ended.close {l l' : ClientLib} {c : CtxIdx} (h : Ended l l' c) :
    Quiet l (l'.report (.close c)) [.close c] where
  cfg := h.cfg
  log := congrArg (List.cons (Obs.close c)) h.log
  clean := h.clean
  rx d := by
    simp only [ClientLib.report, List.mem_singleton, Obs.close.injEq]
    by_cases hd : d = c
    · subst hd
      simp [h.rx]
    · simp [hd, h.other d hd]
  await := h.await
  silent _ := rfl

theorem sessionDelete_ctxs_self (l : ClientLib) (c : CtxIdx) :
    (sessionDelete l c).ctxs c = { l.ctxs c with
      qos2RxCq := qos2PubCqReset
      qos2TxCq := qos2PubCqReset
      qosAck1Wl := [] } := setCtx_ctxs_self ..

theorem sessionDelete_ctxs_ne (l : ClientLib) {c d : CtxIdx} (h : d ≠ c) :
    (sessionDelete l c).ctxs d = l.ctxs d := by
  unfold sessionDelete
  rw [setCtx_ctxs_ne _ _ h, (sameCtxs_foldl_freeMqp _ l).ctxs]

theorem sessionDelete_cfg (l : ClientLib) (c : CtxIdx) : (sessionDelete l c).cfg = l.cfg :=
  (sameCtxs_foldl_freeMqp (l.ctxs c).qosAck1Wl l).cfg

theorem sessionDelete_log (l : ClientLib) (c : CtxIdx) : (sessionDelete l c).log = l.log :=
  (sameCtxs_foldl_freeMqp (l.ctxs c).qosAck1Wl l).log

theorem sessionDelete_clean (l : ClientLib) (c d : CtxIdx) :
    ((sessionDelete l c).ctxs d).cleanSession = (l.ctxs d).cleanSession := by
  by_cases hd : d = c
  · subst hd
    rw [sessionDelete_ctxs_self]
  · rw [sessionDelete_ctxs_ne l hd]

theorem sessionDelete_await (l : ClientLib) (c d : CtxIdx) :
    ((sessionDelete l c).ctxs d).connackAwait = (l.ctxs d).connackAwait := by
  by_cases hd : d = c
  · subst hd
    rw [sessionDelete_ctxs_self]
  · rw [sessionDelete_ctxs_ne l hd]

theorem ended_sessionDelete {l : ClientLib} {c : CtxIdx} (h : (l.ctxs c).cleanSession = true) :
    Ended l (sessionDelete l c) c where
  cfg := sessionDelete_cfg l c
  log := sessionDelete_log l c
  clean := sessionDelete_clean l c
  rx := by rw [sessionDelete_ctxs_self, h]; rfl
  other d hd := by rw [sessionDelete_ctxs_ne l hd]
  await d hd := by rwa [sessionDelete_await] at hd

theorem ended_of_quiet {l l' : ClientLib} {c : CtxIdx} (h : (l.ctxs c).cleanSession = false)
    (hq : Quiet l l' []) : Ended l l' c where
  cfg := hq.cfg
  log := hq.log
  clean := hq.clean
  rx := by rw [hq.rx, if_neg (fun hc => List.not_mem_nil hc.2), h]; rfl
  other d _ := by rw [hq.rx, if_neg (fun hc => List.not_mem_nil hc.2)]
  await := hq.await

def Silent (l l' : ClientLib) : Prop := ∃ out, Quiet l l' out

theorem Quiet.silently {l l' : ClientLib} {out : List Obs} (h : Quiet l l' out) : Silent l l' :=
  ⟨out, h⟩

theorem Silent.trans {l l' l'' : ClientLib} : Silent l l' → Silent l' l'' → Silent l l'' :=
  fun ⟨_, h⟩ ⟨_, h'⟩ => ⟨_, h.trans h'⟩

theorem silent_doNetClose (l : ClientLib) (c : CtxIdx) : Silent l (doNetClose l c) := by
  unfold doNetClose
  split
  · have hended : Ended l (if (l.ctxs c).cleanSession then sessionDelete l c
        else if !(l.cfg c).protoV31 then session311fix l c else l) c := by
      split
      · rename_i hclean
        exact ended_sessionDelete hclean
      · rename_i hclean
        apply ended_of_quiet (by simpa using hclean)
        split
        · exact Quiet.setCtx _ _ _ (by rfl) (by rfl) (by simp)
        · exact Quiet.refl l
    have hreset := hended.quiet (quiet_txPartReset _ c)
    exact ⟨_, (hreset.quiet (Quiet.setCtx _ _ _ (by rfl) (by rfl) (by simp))).close⟩
  · exact (Quiet.refl l).silently

theorem silent_doNetCloseTx (l : ClientLib) (c : CtxIdx) : Silent l (doNetCloseTx l c) := by
  unfold doNetCloseTx
  split
  · exact (Quiet.setCtx _ _ _ (by rfl) (by rfl) (by simp)).silently
  · apply (silent_doNetClose l c).trans
    simp only
    split
    · exact ((sameCtxs_freeMqp ..).quiet.trans
        (Quiet.setCtx _ _ _ (by rfl) (by rfl) (by simp))).silently
    · exact (Quiet.setCtx _ _ _ (by rfl) (by rfl) (by simp)).silently

/-! ## Sending -/

theorem silent_clCtxPartSend (l : ClientLib) (c : CtxIdx) : Silent l (clCtxPartSend l c).1 := by
  have hsent : Quiet l { l with nSends := l.nSends + 1 } [] := .of_ctxs rfl rfl rfl
  unfold clCtxPartSend
  simp only
  split
  · split
    · exact (hsent.trans (Quiet.setCtx _ _ _ (by rfl) (by rfl) (by simp))).silently
    · exact (hsent.trans (quiet_txPartReset ..)).silently
  · exact hsent.silently.trans (silent_doNetCloseTx ..)

theorem silent_clCtxSeg1Send (l : ClientLib) (c : CtxIdx) (len : Nat) (isConnMsg : Bool)
    (txMqp : Option Nat) : Silent l (clCtxSeg1Send l c len isConnMsg txMqp).1 := by
  unfold clCtxSeg1Send
  simp only
  split
  · exact (Quiet.refl l).silently
  · split
    · exact (Quiet.refl l).silently
    · apply Silent.trans _ (silent_clCtxPartSend ..)
      exact (Quiet.setCtx _ _ _ (by rfl) (by rfl) (by simp)).silently

theorem silent_vhMsgSend (l : ClientLib) (c : CtxIdx) (t : MsgType) (id : UInt16) :
    Silent l (vhMsgSend l c t id).1 := by
  have hsent := silent_clCtxSeg1Send l c 4 false none
  unfold vhMsgSend
  simp only
  split
  · exact hsent.trans (Quiet.vh ..).silently
  · exact hsent

theorem silent_pingreqSend (l : ClientLib) (c : CtxIdx) (user : Bool) :
    Silent l (pingreqSend l c user).1 := by
  have hsent := silent_clCtxSeg1Send l c 2 false none
  unfold pingreqSend
  simp only
  split
  · apply hsent.trans
    split <;> exact (Quiet.setCtx _ _ _ (by rfl) (by rfl) (by simp)).silently
  · exact hsent

theorem silent_msgDispatch (l : ClientLib) (c : CtxIdx) (i : Nat) (qos : Qos) :
    Silent l (msgDispatch l c i qos).1 := by
  have href : Quiet l (if qos ≠ .qos0 then addRef l i else l) [] := by
    split
    · exact (sameCtxs_setMqp ..).quiet
    · exact Quiet.refl l
  unfold msgDispatch
  simp only
  generalize (if qos ≠ .qos0 then addRef l i else l) = l₁ at href
  have hsent := href.silently.trans (silent_clCtxSeg1Send l₁ c (l₁.mqps i).len false (some i))
  split
  · split
    · exact hsent.trans (Quiet.setCtx _ _ _ (by rfl) (by rfl) (by simp)).silently
    · exact hsent.trans (sameCtxs_freeMqp ..).quiet.silently
  · exact hsent

theorem silent_mqpMsgSend (l : ClientLib) (c : CtxIdx) (t : MsgType) (qos : Qos) (fits : Bool)
    (n : Nat) : Silent l (mqpMsgSend l c t qos fits n) := by
  unfold mqpMsgSend
  split
  · exact (Quiet.refl l).silently
  · rename_i i l₁ halloc
    have hid : SameCtxs l (if qos ≠ .qos0 then l₁.newMsgId else l₁) := by
      apply (sameCtxs_mqpClientAlloc halloc).trans
      split
      · exact ⟨rfl, rfl, rfl, rfl, rfl, rfl⟩
      · exact SameCtxs.refl l₁
    simp only
    split
    · exact (hid.trans (sameCtxs_setMqp ..)).quiet.silently.trans (silent_msgDispatch ..)
    · exact (hid.trans (sameCtxs_freeMqp ..)).quiet.silently

theorem silent_msgDispatchNoFree (l : ClientLib) (c : CtxIdx) (i : Nat) (qos : Qos)
    (msgId : UInt16) (n : Nat) : Silent l (msgDispatchNoFree l c i qos msgId n) := by
  unfold msgDispatchNoFree
  simp only
  generalize ({ l.mqps i with msgId := msgId, len := 2 + n } : Mqp) = m
  have href : SameCtxs l (addRef (l.setMqp i m) i) := (sameCtxs_setMqp ..).trans (sameCtxs_setMqp ..)
  have hsent := href.quiet.silently.trans (silent_msgDispatch _ c i qos)
  split
  · exact hsent.trans (Quiet.silently (.of_ctxs rfl rfl rfl))
  · exact hsent

theorem silent_mqttDisconnSend (l : ClientLib) (c : CtxIdx) : Silent l (mqttDisconnSend l c) := by
  have hsent := silent_clCtxSeg1Send l c 2 false none
  unfold mqttDisconnSend
  simp only
  split
  · exact hsent.trans (silent_doNetCloseTx ..)
  · exact hsent

theorem silent_mqttClientSendProgress (l : ClientLib) (c : CtxIdx) :
    Silent l (mqttClientSendProgress l c) := by
  unfold mqttClientSendProgress
  split
  · exact (Quiet.refl l).silently
  · exact silent_clCtxPartSend ..

theorem silent_singleCtxRxPrep (l : ClientLib) (c : CtxIdx) (expired : Bool) :
    Silent l (singleCtxRxPrep l c expired) := by
  unfold singleCtxRxPrep
  simp only
  split
  · exact (Quiet.refl l).silently
  split
  · exact silent_doNetClose ..
  split
  · split
    · have hping := silent_pingreqSend l c false
      split
      · exact hping
      · exact hping.trans (silent_doNetClose ..)
    · exact silent_doNetClose ..
  · exact (Quiet.refl l).silently

/-! ## Receiving -/

theorem silent_ack1WlMqpDispatch (c : CtxIdx) (wl : List Nat) :
    ∀ l : ClientLib, Silent l (ack1WlMqpDispatch l c wl).1 := by
  induction wl with
  | nil => exact fun l => (Quiet.refl l).silently
  | cons i wl ih =>
    intro l
    have hsent : Silent l (clCtxSeg1Send (addRef l i) c ((addRef l i).mqps i).len false (some i)).1 :=
      (sameCtxs_setMqp ..).quiet.silently.trans (silent_clCtxSeg1Send ..)
    unfold ack1WlMqpDispatch
    simp only
    split
    · exact hsent.trans (ih _)
    · exact hsent

theorem silent_ack2MsgIdDispatch (c : CtxIdx) (ids : List UInt16) :
    ∀ l : ClientLib, Silent l (ack2MsgIdDispatch l c ids) := by
  induction ids with
  | nil => exact fun l => (Quiet.refl l).silently
  | cons id ids ih =>
    intro l
    have hsent := silent_vhMsgSend l c .pubrel id
    unfold ack2MsgIdDispatch
    simp only
    split
    · exact hsent.trans (ih _)
    · exact hsent

theorem silent_sessionResume (l : ClientLib) (c : CtxIdx) : Silent l (sessionResume l c) := by
  have hacks := silent_ack1WlMqpDispatch c (l.ctxs c).qosAck1Wl l
  unfold sessionResume
  simp only
  split
  · exact hacks.trans (silent_ack2MsgIdDispatch ..)
  · exact hacks

theorem silent_ack1WlRmfree (l : ClientLib) (c : CtxIdx) (msgId : UInt16) :
    Silent l (ack1WlRmfree l c msgId).1 := by
  unfold ack1WlRmfree
  split
  · exact (Quiet.refl l).silently
  · exact (Quiet.setCtx _ _ _ (by rfl) (by rfl) (by simp)).silently.trans
      (sameCtxs_freeMqp ..).quiet.silently

theorem silent_procPubRecRx {l l' : ClientLib} {c : CtxIdx} {msgId : UInt16} {ok : Bool}
    (h : procPubRecRx l c msgId = some (l', ok)) : Silent l l' := by
  unfold procPubRecRx at h
  split at h
  · cases h
  split at h
  · split at h
    · cases h
    · cases h
      exact (Quiet.refl l).silently
    · cases h
      apply Silent.trans _ (silent_vhMsgSend ..)
      exact (Quiet.setCtx _ _ _ (by rfl) (by rfl) (by simp)).silently.trans (silent_ack1WlRmfree ..)
  · cases h
    exact (Quiet.refl l).silently

theorem silent_ack2MsgIdUnlog {l l' : ClientLib} {c : CtxIdx} {msgId : UInt16} {ok : Bool}
    (h : ack2MsgIdUnlog l c msgId = some (l', ok)) : Silent l l' := by
  unfold ack2MsgIdUnlog at h
  split at h
  · cases h
  · cases h
    exact (Quiet.setCtx _ _ _ (by rfl) (by rfl) (by simp)).silently

theorem silent_procPingrspRx (l : ClientLib) (c : CtxIdx) : Silent l (procPingrspRx l c).1 := by
  unfold procPingrspRx
  simp only
  split
  · exact (Quiet.setCtx _ _ _ (by rfl) (by rfl) (by simp)).silently
  split
  · exact (Quiet.setCtx _ _ _ (by rfl) (by rfl) (by simp)).silently
  · exact (Quiet.refl l).silently

/-- `out` was reported between `l` and `l'`, the messages `ds` among it, and the record of a context
is `cqs` of it, or has been reset at the close of a clean session. -/
structure Acts (l l' : ClientLib) (out : List Obs) (cqs : CtxIdx → PubQos2Cq)
    (ds : CtxIdx → List UInt16) : Prop where
  cfg : l'.cfg = l.cfg
  log : l'.log = out ++ l.log
  clean : ∀ d, (l'.ctxs d).cleanSession = (l.ctxs d).cleanSession
  rx : ∀ d, (l'.ctxs d).qos2RxCq =
    if (l.ctxs d).cleanSession = true ∧ .close d ∈ out then qos2PubCqReset else cqs d
  delivers : ∀ d, delivered d out = ds d

theorem rxOf_self (l : ClientLib) (c : CtxIdx) :
    (fun d => if d = c then (l.ctxs c).qos2RxCq else (l.ctxs d).qos2RxCq) =
      fun d => (l.ctxs d).qos2RxCq := by
  funext d
  split
  · rename_i hd
    rw [hd]
  · rfl

theorem Quiet.acts {l l' : ClientLib} {out : List Obs} (h : Quiet l l' out) :
    Acts l l' out (fun d => (l.ctxs d).qos2RxCq) (fun _ => []) :=
  ⟨h.cfg, h.log, h.clean, h.rx, h.silent⟩

theorem Acts.then {l l' l'' : ClientLib} {out out' : List Obs} {cqs : CtxIdx → PubQos2Cq}
    {ds : CtxIdx → List UInt16} (h : Acts l l' out cqs ds) (h' : Quiet l' l'' out') :
    Acts l l'' (out' ++ out) cqs ds where
  cfg := h'.cfg.trans h.cfg
  log := by rw [h'.log, h.log, List.append_assoc]
  clean d := (h'.clean d).trans (h.clean d)
  rx d := by
    rw [h'.rx, h.rx, h.clean]
    exact closed_append _ _
  delivers d := by rw [delivered_append, h'.silent, h.delivers, List.nil_append]

theorem SameCtxs.acts {l l' l'' : ClientLib} {out : List Obs} {cqs : CtxIdx → PubQos2Cq}
    {ds : CtxIdx → List UInt16} (h : SameCtxs l l') (h' : Acts l' l'' out cqs ds) :
    Acts l l'' out cqs ds :=
  ⟨h'.cfg.trans h.cfg, h.log ▸ h'.log, h.ctxs ▸ h'.clean, h.ctxs ▸ h'.rx, h'.delivers⟩

/-- The record of `c` is written and no connection has been closed. -/
theorem Quiet.setRx {l l' : ClientLib} {out : List Obs} (h : Quiet l l' out)
    (hopen : ∀ d, .close d ∉ out) (c : CtxIdx) (cq : PubQos2Cq) :
    Acts l (l'.setCtx c { l'.ctxs c with qos2RxCq := cq }) out
      (fun d => if d = c then cq else (l.ctxs d).qos2RxCq) (fun _ => []) where
  cfg := h.cfg
  log := h.log
  clean d := by
    rw [← h.clean]
    by_cases hd : d = c
    · subst hd
      rw [setCtx_ctxs_self]
    · rw [setCtx_ctxs_ne _ _ hd]
  rx d := by
    rw [if_neg fun hc => hopen d hc.2]
    by_cases hd : d = c
    · subst hd
      rw [setCtx_ctxs_self, if_pos rfl]
    · rw [setCtx_ctxs_ne _ _ hd, if_neg hd, h.rx, if_neg fun hc => hopen d hc.2]
  delivers := h.silent

/-! ### The callback -/

theorem publishRxCb_spec (l : ClientLib) (c : CtxIdx) (mqp : RxMqp) (qos : Qos) (id : UInt16)
    (keeps : Bool) :
    (publishRxCb l c mqp qos id keeps).cfg = l.cfg ∧
      (publishRxCb l c mqp qos id keeps).ctxs = l.ctxs ∧
      (publishRxCb l c mqp qos id keeps).log =
        (if (l.cfg c).publishRx then [.publishRx c qos id] else []) ++ l.log := by
  unfold publishRxCb
  split
  · cases mqp with
    | app j => exact ⟨rfl, rfl, rfl⟩
    | pool i => cases keeps <;> exact ⟨rfl, rfl, rfl⟩
  · exact ⟨rfl, rfl, rfl⟩

theorem silent_publishRxCb (l : ClientLib) (c : CtxIdx) (mqp : RxMqp) {qos : Qos}
    (hq : qos ≠ .qos2) (id : UInt16) (keeps : Bool) :
    Silent l (publishRxCb l c mqp qos id keeps) := by
  obtain ⟨hcfg, hctxs, hlog⟩ := publishRxCb_spec l c mqp qos id keeps
  refine ⟨_, hcfg, hlog, fun d => by rw [hctxs], fun d => ?_, fun d h => ?_, fun d => ?_⟩
  · rw [hctxs, if_neg]
    rintro ⟨-, hmem⟩
    split at hmem <;> simp at hmem
  · rwa [hctxs] at h
  · split
    · cases qos with
      | qos2 => exact absurd rfl hq
      | qos0 => rfl
      | qos1 => rfl
    · rfl

theorem Acts.publish {l l' : ClientLib} {out : List Obs} {cqs : CtxIdx → PubQos2Cq}
    (h : Acts l l' out cqs fun _ => []) {c : CtxIdx} (hcb : (l.cfg c).publishRx = true)
    (mqp : RxMqp) (id : UInt16) (keeps : Bool) :
    Acts l (publishRxCb l' c mqp .qos2 id keeps) (.publishRx c .qos2 id :: out) cqs
      (fun d => if d = c then [id] else []) where
  cfg := (publishRxCb_spec ..).1.trans h.cfg
  log := by
    rw [(publishRxCb_spec ..).2.2, h.cfg, hcb, h.log]
    rfl
  clean d := by rw [(publishRxCb_spec ..).2.1, h.clean]
  rx d := by
    rw [(publishRxCb_spec ..).2.1, h.rx]
    simp
  delivers d := by
    have hnil : delivered d out = [] := h.delivers d
    have hcons : delivered d (.publishRx c .qos2 id :: out) =
        delivered d [.publishRx c .qos2 id] ++ delivered d out :=
      delivered_append d [.publishRx c .qos2 id] out
    rw [hcons, hnil, List.append_nil]
    by_cases hd : d = c
    · simp [delivered, hd]
    · simp [delivered, hd, Ne.symm hd]

/-! ### PUBLISH and PUBREL -/

theorem procPubMsgRx_spec {l : ClientLib} {c : CtxIdx} {q : List UInt16}
    (h : Rep (l.ctxs c).qos2RxCq q) (hcb : (l.cfg c).publishRx = true) {id : UInt16}
    (hroom : id ∈ q ∨ q.length < maxPubrelInflt) (mqp : RxMqp) (keeps : Bool) :
    ∃ l' out cq, procPubMsgRx l c mqp .qos2 id keeps = some (l', true) ∧
      Rep cq (if id ∈ q then q else q ++ [id]) ∧
      Acts l l' out (fun d => if d = c then cq else (l.ctxs d).qos2RxCq)
        (fun d => if d = c ∧ id ∉ q then [id] else []) := by
  unfold procPubMsgRx
  simp only [check_rep h, Fifo.check]
  by_cases hid : id ∈ q
  · simp only [hid, decide_true, if_true, not_true, and_false, if_false]
    refine ⟨l, [], (l.ctxs c).qos2RxCq, rfl, h, ?_⟩
    rw [rxOf_self]
    exact (Quiet.refl l).acts
  · have hlen := hroom.resolve_left hid
    obtain ⟨cq, hlog, hrep⟩ := logup_rep h id
    simp only [Fifo.logup, hlen, if_true] at hlog hrep
    simp only [hid, decide_false, hlog, if_false, not_false_eq_true, and_true]
    obtain ⟨out, hsent⟩ := silent_vhMsgSend (l.setCtx c { l.ctxs c with qos2RxCq := cq }) c .pubrec id
    have hset := (Quiet.refl l).setRx (fun _ => List.not_mem_nil) c cq
    exact ⟨_, _, cq, rfl, hrep, (hset.then hsent).publish hcb mqp id keeps⟩

theorem clCtxPartSend_of_takes {l : ClientLib} {c : CtxIdx} (h : 0 < l.takes l.nSends) :
    ∃ l', clCtxPartSend l c = (l', true) ∧ Quiet l l' [] := by
  have hsent : Quiet l { l with nSends := l.nSends + 1 } [] := .of_ctxs rfl rfl rfl
  unfold clCtxPartSend
  simp only [h, if_true]
  split
  · exact ⟨_, rfl, hsent.trans (Quiet.setCtx _ _ _ (by rfl) (by rfl) (by simp))⟩
  · exact ⟨_, rfl, hsent.trans (quiet_txPartReset ..)⟩

theorem vhMsgSend_of_canSend {l : ClientLib} {c : CtxIdx} (h : canSend l c) (t : MsgType)
    (id : UInt16) : ∃ l', vhMsgSend l c t id = (l', true) ∧ Quiet l l' [.vh c t id] := by
  obtain ⟨hconn, hbuf, htakes⟩ := h
  have hsent : ∃ l', clCtxSeg1Send l c 4 false none = (l', true) ∧ Quiet l l' [] := by
    unfold clCtxSeg1Send
    simp only [hconn, hbuf, Bool.false_xor, Bool.true_eq_false, if_false, ne_eq, not_true]
    obtain ⟨l', he, hq⟩ := clCtxPartSend_of_takes (l := l.setCtx c { l.ctxs c with
      txPart := { (l.ctxs c).txPart with txMqp := none, length := 4 } }) (c := c) htakes
    exact ⟨l', he, (Quiet.setCtx _ _ _ (by rfl) (by rfl) (by simp)).trans hq⟩
  obtain ⟨l', he, hq⟩ := hsent
  refine ⟨_, by unfold vhMsgSend; rw [he]; rfl, hq.trans (Quiet.vh ..)⟩

/-- The oldest identifier on record is released and answered, one that is not on record is not
looked at. -/
theorem procPubRelRx_spec {l : ClientLib} {c : CtxIdx} {q : List UInt16}
    (h : Rep (l.ctxs c).qos2RxCq q) {id : UInt16} (hhead : id ∈ q → q.head? = some id ∧ canSend l c) :
    ∃ l' out cq, procPubRelRx l c id = some (l', true) ∧ Rep cq (q.erase id) ∧
      Acts l l' out (fun d => if d = c then cq else (l.ctxs d).qos2RxCq) (fun _ => []) ∧
      (id ∈ q → .vh c .pubcomp id ∈ out) := by
  by_cases hid : id ∈ q
  · obtain ⟨hq, hsend⟩ := hhead hid
    obtain ⟨hd, q, rfl⟩ := List.exists_cons_of_ne_nil (List.ne_nil_of_mem hid)
    obtain rfl := Option.some.inj hq
    obtain ⟨l₁, he, hquiet⟩ := vhMsgSend_of_canSend hsend .pubcomp hd
    have hrx : (l₁.ctxs c).qos2RxCq = (l.ctxs c).qos2RxCq := by
      rw [hquiet.rx, if_neg]
      simp
    have hcheck := check_rep h hd
    have hunlog := unlog_cons h hd
    rw [if_pos rfl] at hunlog
    refine ⟨_, _, _, ?_, by simpa using rep_tail h, hquiet.setRx (by simp) c _, fun _ => by simp⟩
    unfold procPubRelRx
    simp only [he, hrx, hcheck, Fifo.check, hid, decide_true, hunlog]
  · obtain ⟨out, hquiet⟩ := silent_vhMsgSend l c .pubcomp id
    have hcheck : qos2PubCqCheck ((vhMsgSend l c .pubcomp id).1.ctxs c).qos2RxCq id = some false := by
      rw [hquiet.rx]
      split
      · rfl
      · rw [check_rep h, Fifo.check, decide_eq_false hid]
    refine ⟨(vhMsgSend l c .pubcomp id).1, out, (l.ctxs c).qos2RxCq, ?_, ?_, ?_, fun hm => absurd hm hid⟩
    · unfold procPubRelRx
      simp only [hcheck]
    · rwa [List.erase_of_not_mem hid]
    · rw [rxOf_self]
      exact hquiet.acts

/-! ### The other packets -/

theorem silent_procPubMsgRx {l l' : ClientLib} {c : CtxIdx} {mqp : RxMqp} {qos : Qos}
    (hq : qos ≠ .qos2) {id : UInt16} {keeps ok : Bool}
    (h : procPubMsgRx l c mqp qos id keeps = some (l', ok)) : Silent l l' := by
  cases qos with
  | qos0 =>
    cases h
    exact silent_publishRxCb l c mqp hq id keeps
  | qos1 =>
    cases h
    exact (silent_vhMsgSend ..).trans (silent_publishRxCb _ c mqp hq id keeps)
  | qos2 => exact absurd rfl hq

theorem silent_processRecv {l l' : ClientLib} {c : CtxIdx} {mqp : RxMqp} {pkt : RxPkt} {ok : Bool}
    (hack : (l.ctxs c).connackAwait = true → pkt ≠ .connack true)
    (hpub : (l.ctxs c).connackAwait = false → ∀ id keeps, pkt ≠ .publish .qos2 id keeps)
    (hrel : (l.ctxs c).connackAwait = false → ∀ id, pkt ≠ .pubrel id)
    (h : processRecv l c mqp pkt = some (l', ok)) : Silent l l' := by
  unfold processRecv at h
  split at h
  · rename_i hawait
    cases pkt with
    | connack accepted =>
      cases h
      cases accepted with
      | true => exact absurd rfl (hack hawait)
      | false => exact (Quiet.setCtx _ _ _ (by rfl) (by rfl) (by simp)).silently
    | _ =>
      cases h
      exact (Quiet.refl l).silently
  · rename_i hawait
    have hawait : (l.ctxs c).connackAwait = false := by simpa using hawait
    cases pkt with
    | connack accepted =>
      cases h
      exact (Quiet.refl l).silently
    | ack id =>
      obtain ⟨rfl, -⟩ := Prod.mk.inj (Option.some.inj h)
      exact silent_ack1WlRmfree ..
    | pubrec id => exact silent_procPubRecRx h
    | pubrel id => exact absurd rfl (hrel hawait id)
    | pubcomp id => exact silent_ack2MsgIdUnlog h
    | publish qos id keeps =>
      have hq : qos ≠ .qos2 := fun hq => hpub hawait id keeps (hq ▸ rfl)
      exact silent_procPubMsgRx hq h
    | pingrsp =>
      obtain ⟨rfl, -⟩ := Prod.mk.inj (Option.some.inj h)
      exact silent_procPingrspRx ..
    | bad =>
      cases h
      exact (Quiet.refl l).silently

theorem procConnackRx_spec (l : ClientLib) (c : CtxIdx) :
    ∃ out, Acts l (procConnackRx l c true) out
      (fun d => if (l.ctxs d).cleanSession = true ∧ d = c then qos2PubCqReset
        else (l.ctxs d).qos2RxCq) (fun _ => []) := by
  have hopen : Quiet l ((l.setCtx c { l.ctxs c with connackAwait := false }).setCtx c
      { (l.setCtx c { l.ctxs c with connackAwait := false }).ctxs c with nowConnected := true }) [] :=
    (Quiet.setCtx _ _ _ (by rfl) (by rfl) (by simp)).trans
      (Quiet.setCtx _ _ _ (by rfl) (by rfl) (by simp))
  unfold procConnackRx
  simp only [if_true]
  generalize (l.setCtx c { l.ctxs c with connackAwait := false }).setCtx c
    { (l.setCtx c { l.ctxs c with connackAwait := false }).ctxs c with nowConnected := true } = l₁
    at hopen
  split
  · rename_i hclean
    have hclean' : (l.ctxs c).cleanSession = true := by rw [← hopen.clean, hclean]
    refine ⟨[], (sessionDelete_cfg l₁ c).trans hopen.cfg, (sessionDelete_log l₁ c).trans hopen.log,
      fun d => (sessionDelete_clean l₁ c d).trans (hopen.clean d), fun d => ?_, fun _ => rfl⟩
    have hnot : ¬ ((l.ctxs d).cleanSession = true ∧ Obs.close d ∈ ([] : List Obs)) :=
      fun h => List.not_mem_nil h.2
    rw [if_neg hnot]
    by_cases hd : d = c
    · subst hd
      rw [sessionDelete_ctxs_self, if_pos ⟨hclean', rfl⟩]
    · rw [sessionDelete_ctxs_ne l₁ hd, if_neg fun h => hd h.2, hopen.rx, if_neg hnot]
  · rename_i hclean
    have hclean' : (l.ctxs c).cleanSession = false := by rw [← hopen.clean]; simpa using hclean
    obtain ⟨out, hresume⟩ := silent_sessionResume l₁ c
    have hrx : (fun d => if (l.ctxs d).cleanSession = true ∧ d = c then qos2PubCqReset
        else (l.ctxs d).qos2RxCq) = fun d => (l.ctxs d).qos2RxCq := by
      funext d
      rw [if_neg]
      rintro ⟨hd, rfl⟩
      rw [hclean'] at hd
      cases hd
    rw [hrx]
    exact ⟨_, (hopen.trans hresume).acts⟩

/-! ### A reception -/

theorem mqpSetup_same {l l' : ClientLib} {c : CtxIdx} {m : Option Nat} {mqp : RxMqp}
    (h : mqpSetup l c m = some (mqp, l')) : SameCtxs l l' := by
  unfold mqpSetup at h
  split at h
  · split at h
    · cases h
      exact SameCtxs.refl l
    · split at h
      · cases h
        exact SameCtxs.refl l
      · cases h
  · split at h
    · cases h
      exact SameCtxs.refl l
    · obtain ⟨r, hr, he⟩ := Option.map_eq_some_iff.1 h
      obtain ⟨-, rfl⟩ := Prod.mk.inj he
      exact sameCtxs_mqpClientAlloc hr

theorem isSome_mqpSetup_log (l : ClientLib) (c : CtxIdx) (m : Option Nat) :
    (mqpSetup { l with log := [] } c m).isSome = (mqpSetup l c m).isSome := by
  unfold mqpSetup
  cases m with
  | some j =>
    cases hrx : (l.ctxs c).rxMqp with
    | none => simp
    | some mqp => by_cases hm : mqp = .app j <;> simp [hm]
  | none =>
    cases hrx : (l.ctxs c).rxMqp with
    | none => cases hfree : l.freeList <;> simp [mqpClientAlloc, hfree]
    | some mqp => simp

theorem silent_rxDone (l : ClientLib) (c : CtxIdx) (mqp : RxMqp) :
    Silent l (match mqp with
      | .pool i => freeMqp (l.setCtx c { l.ctxs c with rxMqp := none }) i
      | .app _ => l.setCtx c { l.ctxs c with rxMqp := none }) := by
  have hset : Silent l (l.setCtx c { l.ctxs c with rxMqp := none }) :=
    (Quiet.setCtx _ _ _ (by rfl) (by rfl) (by simp)).silently
  cases mqp with
  | pool i => exact hset.trans (sameCtxs_freeMqp ..).quiet.silently
  | app j => exact hset

theorem recv_idle (l : ClientLib) (c : CtxIdx) (m : Option Nat) (evt : RxEvent)
    (hevt : ∀ pkt, evt ≠ .packet pkt) :
    ∃ l', mqpSetupProcCtxDataRecv l c m evt = some l' ∧ Silent l l' := by
  unfold mqpSetupProcCtxDataRecv
  cases hset : mqpSetup l c m with
  | none => exact ⟨l, rfl, (Quiet.refl l).silently⟩
  | some r =>
    obtain ⟨mqp, l₁⟩ := r
    have hsame := (mqpSetup_same hset).quiet.silently
    cases evt with
    | timeout => exact ⟨_, rfl, hsame.trans (Quiet.setCtx _ _ _ (by rfl) (by rfl) (by simp)).silently⟩
    | error =>
      have hclosed := hsame.trans (silent_doNetClose l₁ c)
      cases mqp with
      | pool i => exact ⟨_, rfl, hclosed.trans (silent_rxDone _ c (.pool i))⟩
      | app j => exact ⟨_, rfl, hclosed.trans (silent_rxDone _ c (.app j))⟩
    | packet pkt => exact absurd rfl (hevt pkt)

theorem recv_packet {l l₁ l₂ : ClientLib} {c : CtxIdx} {m : Option Nat} {mqp : RxMqp} {pkt : RxPkt}
    {ok : Bool} (hset : mqpSetup l c m = some (mqp, l₁))
    (h : processRecv l₁ c mqp pkt = some (l₂, ok)) :
    ∃ l₃, mqpSetupProcCtxDataRecv l c m (.packet pkt) = some l₃ ∧ Silent l₂ l₃ := by
  have hclose : ∃ l', procCtxDataRecv l₁ c mqp (.packet pkt) = some l' ∧ Silent l₂ l' := by
    unfold procCtxDataRecv
    simp only [h]
    split
    · exact ⟨_, rfl, silent_doNetClose ..⟩
    · exact ⟨_, rfl, (Quiet.refl _).silently⟩
  obtain ⟨l', he, hclose⟩ := hclose
  unfold mqpSetupProcCtxDataRecv
  simp only [hset, he]
  cases mqp with
  | pool i => exact ⟨_, rfl, hclose.trans (silent_rxDone _ c (.pool i))⟩
  | app j => exact ⟨_, rfl, hclose.trans (silent_rxDone _ c (.app j))⟩

theorem recv_none {l l₁ : ClientLib} {c : CtxIdx} {m : Option Nat} {mqp : RxMqp} {pkt : RxPkt}
    (hset : mqpSetup l c m = some (mqp, l₁)) (h : processRecv l₁ c mqp pkt = none) :
    mqpSetupProcCtxDataRecv l c m (.packet pkt) = none := by
  unfold mqpSetupProcCtxDataRecv procCtxDataRecv
  simp only [hset, h]

/-! ### A connection -/

theorem connectMsgSend_spec (l : ClientLib) (c : CtxIdx) (clean opened fits : Bool) (n : Nat) :
    Silent l (connectMsgSend l c clean opened fits n) ∧
        (((connectMsgSend l c clean opened fits n).ctxs c).connackAwait = true →
          (l.ctxs c).connackAwait = true) ∨
      (l.ctxs c).connackAwait = false ∧ ∃ l₁, Silent l l₁ ∧
        connectMsgSend l c clean opened fits n = l₁.setCtx c { l₁.ctxs c with
          connackAwait := true
          cleanSession := (l₁.ctxs c).cleanSession || clean } := by
  have hquiet : ∀ {l'}, Silent l l' → Silent l l' ∧
      ((l'.ctxs c).connackAwait = true → (l.ctxs c).connackAwait = true) :=
    fun h => ⟨h, h.elim fun _ hq => hq.await c⟩
  unfold connectMsgSend
  split
  · exact .inl (hquiet (Quiet.refl l).silently)
  · rename_i i l₁ halloc
    have hsame := sameCtxs_mqpClientAlloc halloc
    split
    · have hsame := hsame.trans (sameCtxs_setMqp l₁ i { l₁.mqps i with len := 2 + n })
      generalize l₁.setMqp i { l₁.mqps i with len := 2 + n } = l₂ at hsame
      have hopen : Silent l (l₂.setCtx c { l₂.ctxs c with net := opened }) :=
        hsame.quiet.silently.trans (Quiet.setCtx _ _ _ (by rfl) (by rfl) (by simp)).silently
      unfold clCtxConnStateTry
      simp only
      split
      · exact .inl (hquiet hsame.quiet.silently)
      split
      · exact .inl (hquiet hopen)
      split
      · exact .inl (hquiet hopen)
      · rename_i hawait
        have hsent := hopen.trans (silent_clCtxSeg1Send _ c
          ((l₂.setCtx c { l₂.ctxs c with net := opened }).mqps i).len true (some i))
        split
        · refine .inr ⟨?_, _, hsent, rfl⟩
          rw [setCtx_ctxs_self, hsame.ctxs] at hawait
          simpa using hawait
        · exact .inl (hquiet hsent)
    · exact .inl (hquiet (hsame.trans (sameCtxs_freeMqp ..)).quiet.silently)

/-! ## Steps -/

/-- The queues hold what is on record, and the flag is what the last CONNECT asked for. -/
structure RxInv (s : RxRun) : Prop where
  queue : ∀ c, Rep (s.lib.ctxs c).qos2RxCq (recorded s.lib c)
  asked : ∀ c, (s.lib.ctxs c).cleanSession = s.asked c

theorem rxInv_init (cfg : CtxIdx → CtxCfg) (takes : Nat → Nat) (numMqp : Nat) :
    RxInv (rxInit cfg takes numMqp) :=
  ⟨fun _ => rep_reset, fun _ => rfl⟩

def StepOk (s : RxRun) (op : ClOp) : Prop :=
  Qos2Exact s op ∧ ∀ s' out, rxStep s op = some (s', out) → RxInv s'

theorem rxStep_eq {s : RxRun} {op : ClOp} {l' : ClientLib}
    (h : clOp { s.lib with log := [] } op = some l') :
    rxStep s op = some (⟨l', askedAfter s.lib l' op s.asked⟩, l'.log) := by
  unfold rxStep clStep
  simp only [h]

theorem stepOk_of_none {s : RxRun} {op : ClOp} (h : clOp { s.lib with log := [] } op = none)
    (hp : op.qos2Publish? s.lib = none) (hl : op.pubrel? s.lib = none) : StepOk s op := by
  have hs : rxStep s op = none := by
    unfold rxStep clStep
    simp only [h]
  refine ⟨⟨fun hsome => ?_, ?_, ?_, ?_⟩, ?_⟩
  · rw [hp, hl] at hsome
    simp at hsome
  all_goals
    intro s' out he
    rw [hs] at he
    cases he

theorem stepOk_of_rx {s : RxRun} (h : RxInv s) {op : ClOp} {l' : ClientLib}
    (he : clOp { s.lib with log := [] } op = some l') (cqs : CtxIdx → PubQos2Cq)
    (hrx : ∀ d, (l'.ctxs d).qos2RxCq =
      if (s.lib.ctxs d).cleanSession = true ∧ .close d ∈ l'.log then qos2PubCqReset else cqs d)
    (hrep : ∀ d, Rep (cqs d)
      (if s.asked d ∧ op.accepted? s.lib = some d then [] else nextRecorded s.lib op d))
    (hdel : ∀ d, delivered d l'.log = specDelivered s.lib op d)
    (hclean : ∀ d, (l'.ctxs d).cleanSession = askedAfter s.lib l' op s.asked d)
    (hans : ∀ c id, op.pubrel? s.lib = some (c, id) → id ∈ recorded s.lib c →
      .vh c .pubcomp id ∈ l'.log) : StepOk s op := by
  have hs := rxStep_eq he
  have hqueue : ∀ d, Rep (l'.ctxs d).qos2RxCq (specRecorded s op l'.log d) := by
    intro d
    have hd := hrep d
    rw [hrx, h.asked]
    unfold specRecorded
    by_cases hclosed : s.asked d = true ∧ Obs.close d ∈ l'.log
    · rw [if_pos hclosed, if_pos ⟨hclosed.1, .inl hclosed.2⟩]
      exact rep_reset
    · rw [if_neg hclosed]
      by_cases hacc : s.asked d = true ∧ op.accepted? s.lib = some d
      · rw [if_pos hacc] at hd
        rwa [if_pos ⟨hacc.1, .inr hacc.2⟩]
      · rw [if_neg hacc] at hd
        rwa [if_neg]
        rintro ⟨hasked, hor⟩
        exact hor.elim (fun hcl => hclosed ⟨hasked, hcl⟩) fun ha => hacc ⟨hasked, ha⟩
  have hrec : ∀ d, recorded l' d = specRecorded s op l'.log d := fun d => (hqueue d).recorded
  refine ⟨⟨fun _ => by rw [hs]; rfl, ?_, ?_, ?_⟩, ?_⟩
  all_goals
    intro s' out hs'
    obtain ⟨rfl, rfl⟩ := Prod.mk.inj (Option.some.inj (hs.symm.trans hs'))
  · exact hrec
  · exact hdel
  · exact hans
  · exact ⟨fun d => hrec d ▸ hqueue d, hclean⟩

theorem stepOk_of_silent {s : RxRun} (h : RxInv s) {op : ClOp} {l' : ClientLib}
    (he : clOp { s.lib with log := [] } op = some l') (hq : Silent { s.lib with log := [] } l')
    (hp : op.qos2Publish? s.lib = none) (hl : op.pubrel? s.lib = none)
    (ha : op.accepted? s.lib = none) (hasked : askedAfter s.lib l' op s.asked = s.asked) :
    StepOk s op := by
  obtain ⟨out, hq⟩ := hq
  have hlog : l'.log = out := hq.log.trans (List.append_nil out)
  subst hlog
  refine stepOk_of_rx h he _ hq.rx (fun d => ?_) (fun d => ?_) (fun d => ?_) fun c id hsome => ?_
  · rw [ha, if_neg (by simp)]
    unfold nextRecorded
    rw [hp, hl]
    exact h.queue d
  · unfold specDelivered
    rw [hp]
    exact hq.silent d
  · rw [hasked, ← h.asked]
    exact hq.clean d
  · rw [hl] at hsome
    cases hsome

/-! ### Receptions -/

section

variable {s : RxRun} {c : CtxIdx} {m : Option Nat} {mqp : RxMqp} {l₁ : ClientLib} {pkt : RxPkt}

theorem rxPkt?_packet (pkt : RxPkt) (hnet : (s.lib.ctxs c).net = true)
    (hset : mqpSetup { s.lib with log := [] } c m = some (mqp, l₁)) :
    (ClOp.recv c m (.packet pkt)).rxPkt? s.lib = some (c, pkt) := by
  have hsome : (mqpSetup s.lib c m).isSome := by
    rw [← isSome_mqpSetup_log, hset]
    rfl
  exact if_pos ⟨hnet, hsome⟩

theorem stepOk_of_acts (h : RxInv s) (hnet : (s.lib.ctxs c).net = true)
    (hset : mqpSetup { s.lib with log := [] } c m = some (mqp, l₁)) {l₂ : ClientLib} {ok : Bool}
    (hproc : processRecv l₁ c mqp pkt = some (l₂, ok)) {out : List Obs}
    {cqs : CtxIdx → PubQos2Cq} {ds : CtxIdx → List UInt16} (hacts : Acts l₁ l₂ out cqs ds)
    (hrep : ∀ d, Rep (cqs d)
      (if s.asked d ∧ (ClOp.recv c m (.packet pkt)).accepted? s.lib = some d then []
        else nextRecorded s.lib (.recv c m (.packet pkt)) d))
    (hdel : ∀ d, ds d = specDelivered s.lib (.recv c m (.packet pkt)) d)
    (hans : ∀ c' id, (ClOp.recv c m (.packet pkt)).pubrel? s.lib = some (c', id) →
      id ∈ recorded s.lib c' → .vh c' .pubcomp id ∈ out) :
    StepOk s (.recv c m (.packet pkt)) := by
  obtain ⟨l₃, he, out', hq⟩ := recv_packet hset hproc
  have hall := ((mqpSetup_same hset).acts hacts).then hq
  have hlog : l₃.log = out' ++ out := hall.log.trans (List.append_nil _)
  have he' : clOp { s.lib with log := [] } (.recv c m (.packet pkt)) = some l₃ :=
    (if_pos hnet).trans he
  apply stepOk_of_rx h he' cqs
  · rw [hlog]
    exact hall.rx
  · exact hrep
  · rw [hlog]
    exact fun d => (hall.delivers d).trans (hdel d)
  · exact fun d => (hall.clean d).trans (h.asked d)
  · rw [hlog]
    exact fun c' id hsome hmem => List.mem_append_right _ (hans c' id hsome hmem)

theorem stepOk_connack (h : RxInv s) (hnet : (s.lib.ctxs c).net = true)
    (hset : mqpSetup { s.lib with log := [] } c m = some (mqp, l₁))
    (hawait : (s.lib.ctxs c).connackAwait = true) :
    StepOk s (.recv c m (.packet (.connack true))) := by
  have hctxs : l₁.ctxs = s.lib.ctxs := (mqpSetup_same hset).ctxs
  have hpkt := rxPkt?_packet (.connack true) hnet hset
  have hproc : processRecv l₁ c mqp (.connack true) = some (procConnackRx l₁ c true, true) := by
    unfold processRecv
    rw [hctxs, if_pos hawait]
  obtain ⟨out, hacts⟩ := procConnackRx_spec l₁ c
  apply stepOk_of_acts h hnet hset hproc hacts
  · intro d
    unfold ClOp.accepted? nextRecorded ClOp.qos2Publish? ClOp.pubrel?
    simp only [hpkt, hawait, if_true, hctxs, h.asked, Option.some.injEq, eq_comm (a := d)]
    split
    · exact rep_reset
    · exact h.queue d
  · intro d
    unfold specDelivered ClOp.qos2Publish?
    simp only [hpkt]
  · intro c' id hsome
    unfold ClOp.pubrel? at hsome
    simp only [hpkt] at hsome
    cases hsome

theorem stepOk_publish (h : RxInv s) (hnet : (s.lib.ctxs c).net = true)
    (hset : mqpSetup { s.lib with log := [] } c m = some (mqp, l₁))
    (hawait : (s.lib.ctxs c).connackAwait = false) {id : UInt16} {keeps : Bool}
    (hc : PublishCond s.lib c id) : StepOk s (.recv c m (.packet (.publish .qos2 id keeps))) := by
  have hctxs : l₁.ctxs = s.lib.ctxs := (mqpSetup_same hset).ctxs
  have hpkt := rxPkt?_packet (.publish .qos2 id keeps) hnet hset
  have hpub : (ClOp.recv c m (.packet (.publish .qos2 id keeps))).qos2Publish? s.lib =
      some (c, id) := by
    unfold ClOp.qos2Publish?
    simp only [hpkt, hawait, Bool.false_eq_true, if_false]
  have hqueue : Rep (l₁.ctxs c).qos2RxCq (recorded s.lib c) := by
    rw [hctxs]
    exact h.queue c
  have hcb : (l₁.cfg c).publishRx = true := by
    rw [(mqpSetup_same hset).cfg]
    exact hc.1
  obtain ⟨l₂, out, cq, he, hrep, hacts⟩ := procPubMsgRx_spec hqueue hcb hc.2 mqp keeps
  have hproc : processRecv l₁ c mqp (.publish .qos2 id keeps) = some (l₂, true) := by
    unfold processRecv
    rwa [hctxs, hawait, if_neg Bool.false_ne_true]
  apply stepOk_of_acts h hnet hset hproc hacts
  · intro d
    unfold ClOp.accepted? nextRecorded
    simp only [hpkt, hpub, hctxs, reduceCtorEq, and_false, if_false]
    by_cases hd : d = c
    · subst hd
      by_cases hmem : id ∈ recorded s.lib d
      · simpa [hmem] using hrep
      · simpa [hmem] using hrep
    · simpa [hd] using h.queue d
  · intro d
    unfold specDelivered
    simp only [hpub]
  · intro c' id' hsome
    unfold ClOp.pubrel? at hsome
    simp only [hpkt] at hsome
    cases hsome

theorem stepOk_pubrel (h : RxInv s) (hnet : (s.lib.ctxs c).net = true)
    (hset : mqpSetup { s.lib with log := [] } c m = some (mqp, l₁))
    (hawait : (s.lib.ctxs c).connackAwait = false) {id : UInt16} (hc : PubrelCond s.lib c id) :
    StepOk s (.recv c m (.packet (.pubrel id))) := by
  have hsame := mqpSetup_same hset
  have hctxs : l₁.ctxs = s.lib.ctxs := hsame.ctxs
  have hpkt := rxPkt?_packet (.pubrel id) hnet hset
  have hpub : (ClOp.recv c m (.packet (.pubrel id))).qos2Publish? s.lib = none := by
    unfold ClOp.qos2Publish?
    simp only [hpkt]
  have hrel : (ClOp.recv c m (.packet (.pubrel id))).pubrel? s.lib = some (c, id) := by
    unfold ClOp.pubrel?
    simp only [hpkt, hawait, Bool.false_eq_true, if_false]
  have hqueue : Rep (l₁.ctxs c).qos2RxCq (recorded s.lib c) := by
    rw [hctxs]
    exact h.queue c
  have hsend : id ∈ recorded s.lib c → (recorded s.lib c).head? = some id ∧ canSend l₁ c := by
    intro hmem
    obtain ⟨hhead, hsend⟩ := hc hmem
    refine ⟨hhead, ?_⟩
    unfold canSend at hsend ⊢
    rwa [hctxs, hsame.takes, hsame.nSends]
  obtain ⟨l₂, out, cq, he, hrep, hacts, hans⟩ := procPubRelRx_spec hqueue hsend
  have hproc : processRecv l₁ c mqp (.pubrel id) = some (l₂, true) := by
    unfold processRecv
    rwa [hctxs, hawait, if_neg Bool.false_ne_true]
  apply stepOk_of_acts h hnet hset hproc hacts
  · intro d
    unfold ClOp.accepted? nextRecorded
    simp only [hpkt, hpub, hrel, hctxs, reduceCtorEq, and_false, if_false]
    by_cases hd : d = c
    · subst hd
      simpa using hrep
    · simpa [hd] using h.queue d
  · intro d
    unfold specDelivered
    simp only [hpub]
  · intro c' id' hsome hmem
    obtain ⟨rfl, rfl⟩ := Prod.mk.inj (Option.some.inj (hrel.symm.trans hsome))
    exact hans hmem

end

section

variable {l : ClientLib} {op : ClOp} {c : CtxIdx} {pkt : RxPkt}

theorem qos2Publish?_eq_none (hpkt : op.rxPkt? l = some (c, pkt))
    (h : (l.ctxs c).connackAwait = false → ∀ id keeps, pkt ≠ .publish .qos2 id keeps) :
    op.qos2Publish? l = none := by
  unfold ClOp.qos2Publish?
  rw [hpkt]
  cases pkt with
  | publish qos id keeps =>
    cases qos with
    | qos2 =>
      cases hawait : (l.ctxs c).connackAwait with
      | true => simp only [hawait, if_true]
      | false => exact absurd rfl (h hawait id keeps)
    | _ => rfl
  | _ => rfl

theorem pubrel?_eq_none (hpkt : op.rxPkt? l = some (c, pkt))
    (h : (l.ctxs c).connackAwait = false → ∀ id, pkt ≠ .pubrel id) : op.pubrel? l = none := by
  unfold ClOp.pubrel?
  rw [hpkt]
  cases pkt with
  | pubrel id =>
    cases hawait : (l.ctxs c).connackAwait with
    | true => simp only [hawait, if_true]
    | false => exact absurd rfl (h hawait id)
  | _ => rfl

theorem accepted?_eq_none (hpkt : op.rxPkt? l = some (c, pkt))
    (h : (l.ctxs c).connackAwait = true → pkt ≠ .connack true) : op.accepted? l = none := by
  unfold ClOp.accepted?
  rw [hpkt]
  cases pkt with
  | connack accepted =>
    cases accepted with
    | true =>
      cases hawait : (l.ctxs c).connackAwait with
      | true => exact absurd rfl (h hawait)
      | false => simp only [hawait, Bool.false_eq_true, if_false]
    | false => rfl
  | _ => rfl

end

theorem stepOk_recv {s : RxRun} (h : RxInv s) {c : CtxIdx} {m : Option Nat} {evt : RxEvent}
    (hc : Qos2Cond s (.recv c m evt)) : StepOk s (.recv c m evt) := by
  have hidle : ∀ {l'}, clOp { s.lib with log := [] } (.recv c m evt) = some l' →
      Silent { s.lib with log := [] } l' → (ClOp.recv c m evt).rxPkt? s.lib = none →
      StepOk s (.recv c m evt) := by
    intro l' he hq hp
    apply stepOk_of_silent h he hq
    · unfold ClOp.qos2Publish?
      rw [hp]
    · unfold ClOp.pubrel?
      rw [hp]
    · unfold ClOp.accepted?
      rw [hp]
    · rfl
  by_cases hnet : (s.lib.ctxs c).net = true
  · have hop : clOp { s.lib with log := [] } (.recv c m evt) =
        mqpSetupProcCtxDataRecv { s.lib with log := [] } c m evt := if_pos hnet
    cases evt with
    | timeout =>
      obtain ⟨l', he, hq⟩ := recv_idle { s.lib with log := [] } c m .timeout nofun
      exact hidle (hop.trans he) hq rfl
    | error =>
      obtain ⟨l', he, hq⟩ := recv_idle { s.lib with log := [] } c m .error nofun
      exact hidle (hop.trans he) hq rfl
    | packet pkt =>
      cases hset : mqpSetup { s.lib with log := [] } c m with
      | none =>
        have he : clOp { s.lib with log := [] } (.recv c m (.packet pkt)) =
            some { s.lib with log := [] } := by
          rw [hop]
          unfold mqpSetupProcCtxDataRecv
          rw [hset]
        apply hidle he (Quiet.refl _).silently
        apply if_neg
        rintro ⟨-, hsome⟩
        rw [← isSome_mqpSetup_log, hset] at hsome
        cases hsome
      | some r =>
        obtain ⟨mqp, l₁⟩ := r
        have hctxs : l₁.ctxs = s.lib.ctxs := (mqpSetup_same hset).ctxs
        have hpkt := rxPkt?_packet pkt hnet hset
        by_cases hack : (s.lib.ctxs c).connackAwait = true ∧ pkt = .connack true
        · obtain ⟨hawait, rfl⟩ := hack
          exact stepOk_connack h hnet hset hawait
        by_cases hpub : (s.lib.ctxs c).connackAwait = false ∧ ∃ id keeps, pkt = .publish .qos2 id keeps
        · obtain ⟨hawait, id, keeps, rfl⟩ := hpub
          apply stepOk_publish h hnet hset hawait
          apply hc.2.1 (c, id)
          unfold ClOp.qos2Publish?
          simp only [hpkt, hawait, Bool.false_eq_true, if_false]
          exact rfl
        by_cases hrel : (s.lib.ctxs c).connackAwait = false ∧ ∃ id, pkt = .pubrel id
        · obtain ⟨hawait, id, rfl⟩ := hrel
          apply stepOk_pubrel h hnet hset hawait
          apply hc.2.2 (c, id)
          unfold ClOp.pubrel?
          simp only [hpkt, hawait, Bool.false_eq_true, if_false]
          exact rfl
        have hp : (ClOp.recv c m (.packet pkt)).qos2Publish? s.lib = none :=
          qos2Publish?_eq_none hpkt fun hawait id keeps he => hpub ⟨hawait, id, keeps, he⟩
        have hl : (ClOp.recv c m (.packet pkt)).pubrel? s.lib = none :=
          pubrel?_eq_none hpkt fun hawait id he => hrel ⟨hawait, id, he⟩
        have ha : (ClOp.recv c m (.packet pkt)).accepted? s.lib = none :=
          accepted?_eq_none hpkt fun hawait he => hack ⟨hawait, he⟩
        cases hproc : processRecv l₁ c mqp pkt with
        | none => exact stepOk_of_none (hop.trans (recv_none hset hproc)) hp hl
        | some r =>
          obtain ⟨l₂, ok⟩ := r
          have hq := silent_processRecv (fun hawait he => hack ⟨hctxs ▸ hawait, he⟩)
            (fun hawait id keeps he => hpub ⟨hctxs ▸ hawait, id, keeps, he⟩)
            (fun hawait id he => hrel ⟨hctxs ▸ hawait, id, he⟩) hproc
          obtain ⟨l₃, he, hq'⟩ := recv_packet hset hproc
          have hall := (mqpSetup_same hset).quiet.silently.trans (hq.trans hq')
          exact stepOk_of_silent h (hop.trans he) hall hp hl ha rfl
  · apply hidle (if_neg hnet) (Quiet.refl _).silently
    cases evt with
    | packet pkt => exact if_neg fun hand => hnet hand.1
    | timeout => rfl
    | error => rfl

/-! ### Calls of the API -/

theorem stepOk_connect {s : RxRun} (h : RxInv s) {c : CtxIdx} {clean opened fits : Bool} {n : Nat}
    (hc : clean = true ∨ (s.lib.ctxs c).cleanSession = false) :
    StepOk s (.connect c clean opened fits n) := by
  have hspec := connectMsgSend_spec { s.lib with log := [] } c clean opened fits n
  have he : clOp { s.lib with log := [] } (.connect c clean opened fits n) =
      some (connectMsgSend { s.lib with log := [] } c clean opened fits n) := rfl
  generalize connectMsgSend { s.lib with log := [] } c clean opened fits n = l' at hspec he
  rcases hspec with ⟨hq, hawait⟩ | ⟨hawait, l₁, ⟨out, hq⟩, rfl⟩
  · apply stepOk_of_silent h he hq rfl rfl rfl
    unfold askedAfter
    simp only
    rw [if_neg]
    rintro hsent
    simp only [Bool.and_eq_true, Bool.not_eq_true'] at hsent
    have := hawait hsent.2
    rw [hsent.1] at this
    cases this
  · have hawait : (s.lib.ctxs c).connackAwait = false := hawait
    have hlog : l₁.log = out := hq.log.trans (List.append_nil out)
    have hasked : (l₁.ctxs c).cleanSession = s.asked c := (hq.clean c).trans (h.asked c)
    have hor : ((l₁.ctxs c).cleanSession || clean) = clean := by
      rw [hasked, ← h.asked]
      rcases hc with rfl | hc
      · exact Bool.or_true _
      · rw [hc, Bool.false_or]
    apply stepOk_of_rx h he fun d => (s.lib.ctxs d).qos2RxCq
    · intro d
      change _ = if (s.lib.ctxs d).cleanSession = true ∧ Obs.close d ∈ l₁.log then _ else _
      rw [hlog, ← hq.rx d]
      by_cases hd : d = c
      · subst hd
        rw [setCtx_ctxs_self]
      · rw [setCtx_ctxs_ne _ _ hd]
    · intro d
      have ha : (ClOp.connect c clean opened fits n).accepted? s.lib = none := rfl
      rw [ha, if_neg (by simp)]
      exact h.queue d
    · intro d
      exact (congrArg (delivered d) hlog).trans (hq.silent d)
    · intro d
      unfold askedAfter
      simp only [hor, hawait, setCtx_ctxs_self, Bool.not_false, Bool.and_self, if_true]
      by_cases hd : d = c
      · subst hd
        rw [setCtx_ctxs_self, Function.update_self]
      · rw [setCtx_ctxs_ne _ _ hd, Function.update_of_ne hd, hq.clean]
        exact h.asked d
    · intro c' id hsome
      cases hsome

theorem stepOk_delete {s : RxRun} (h : RxInv s) (c : CtxIdx) : StepOk s (.delete c) := by
  have he : clOp { s.lib with log := [] } (.delete c) =
      some (mqttClientCtxDelete { s.lib with log := [] } c) := rfl
  by_cases hbusy : ((s.lib.ctxs c).net || awaitsPkts (s.lib.ctxs c)) = true
  · rw [show mqttClientCtxDelete { s.lib with log := [] } c = { s.lib with log := [] } from
      if_pos hbusy] at he
    apply stepOk_of_silent h he (Quiet.refl _).silently rfl rfl rfl
    exact if_pos hbusy
  · rw [show mqttClientCtxDelete { s.lib with log := [] } c =
      (txPartReset (sessionDelete { s.lib with log := [] } c) c).setCtx c clientReset from
      if_neg hbusy] at he
    have hreset := quiet_txPartReset (sessionDelete { s.lib with log := [] } c) c
    have hlog : (txPartReset (sessionDelete { s.lib with log := [] } c) c).log = [] := by
      rw [hreset.log, sessionDelete_log]
      rfl
    have hempty : recorded s.lib c = [] := by
      have hcount := (h.queue c).count
      simp only [awaitsPkts, Bool.or_eq_true, not_or, bne_iff_ne, ne_eq, not_not] at hbusy
      apply List.length_eq_zero_iff.1
      rw [← hcount, hbusy.2.1.2]
    apply stepOk_of_rx h he fun d => if d = c then qos2PubCqReset else (s.lib.ctxs d).qos2RxCq
    · intro d
      change _ = if (s.lib.ctxs d).cleanSession = true ∧
        Obs.close d ∈ (txPartReset (sessionDelete { s.lib with log := [] } c) c).log then _ else _
      rw [hlog, if_neg fun hcl => List.not_mem_nil hcl.2]
      by_cases hd : d = c
      · subst hd
        rw [setCtx_ctxs_self, if_pos rfl]
        rfl
      · rw [setCtx_ctxs_ne _ _ hd, if_neg hd, hreset.rx, if_neg fun hcl => List.not_mem_nil hcl.2,
          sessionDelete_ctxs_ne _ hd]
    · intro d
      have ha : (ClOp.delete c).accepted? s.lib = none := rfl
      have hn : nextRecorded s.lib (.delete c) d = recorded s.lib d := rfl
      have hnone : ¬ (s.asked d = true ∧ (none : Option CtxIdx) = some d) := by simp
      rw [ha, if_neg hnone, hn]
      by_cases hd : d = c
      · subst hd
        rw [if_pos rfl, hempty]
        exact rep_reset
      · rw [if_neg hd]
        exact h.queue d
    · exact fun d => congrArg (delivered d) hlog
    · intro d
      unfold askedAfter
      simp only [hbusy, Bool.false_eq_true, if_false]
      by_cases hd : d = c
      · subst hd
        rw [setCtx_ctxs_self, Function.update_self]
        rfl
      · rw [setCtx_ctxs_ne _ _ hd, Function.update_of_ne hd, hreset.clean, sessionDelete_clean]
        exact h.asked d
    · intro c' id hsome
      cases hsome

theorem stepOk {s : RxRun} (h : RxInv s) {op : ClOp} (hc : Qos2Cond s op) : StepOk s op := by
  cases op with
  | connect c clean opened fits n => exact stepOk_connect h hc.1
  | send c t qos fits n => exact stepOk_of_silent h rfl (silent_mqpMsgSend ..) rfl rfl rfl rfl
  | alloc t =>
    have hop : ∃ l', clOp { s.lib with log := [] } (.alloc t) = some l' ∧
        Silent { s.lib with log := [] } l' := by
      unfold clOp
      simp only
      split
      · exact ⟨_, rfl, (Quiet.refl _).silently⟩
      · rename_i halloc
        exact ⟨_, rfl, (sameCtxs_mqpClientAlloc halloc).quiet.silently.trans
          (Quiet.silently (.of_ctxs rfl rfl rfl))⟩
    obtain ⟨l', he, hq⟩ := hop
    exact stepOk_of_silent h he hq rfl rfl rfl rfl
  | free i =>
    refine stepOk_of_silent h rfl ?_ rfl rfl rfl rfl
    split
    · apply Silent.trans _ (sameCtxs_freeMqp ..).quiet.silently
      exact Quiet.silently (.of_ctxs rfl rfl rfl)
    · exact (Quiet.refl _).silently
  | dispatch c i qos id n =>
    refine stepOk_of_silent h rfl ?_ rfl rfl rfl rfl
    split
    · exact silent_msgDispatchNoFree ..
    · exact (Quiet.refl _).silently
  | pingreq c => exact stepOk_of_silent h rfl (silent_pingreqSend ..) rfl rfl rfl rfl
  | disconn c => exact stepOk_of_silent h rfl (silent_mqttDisconnSend ..) rfl rfl rfl rfl
  | progress c => exact stepOk_of_silent h rfl (silent_mqttClientSendProgress ..) rfl rfl rfl rfl
  | rxPrep c expired => exact stepOk_of_silent h rfl (silent_singleCtxRxPrep ..) rfl rfl rfl rfl
  | recv c m evt => exact stepOk_recv h hc
  | delete c => exact stepOk_delete h c

/-! ## Runs -/

/-- **In the runs whose steps meet the condition, every step receives exactly once.** -/
theorem client_qos2_exactly_once (cfg : CtxIdx → CtxCfg) (takes : Nat → Nat) (numMqp : Nat)
    (ops : List ClOp) (h : Meets rxStep Qos2Cond (rxInit cfg takes numMqp) ops) :
    Meets rxStep Qos2Exact (rxInit cfg takes numMqp) ops :=
  Meets.imp (fun hinv hc => (stepOk hinv hc).1) (fun hinv hc hs => (stepOk hinv hc).2 _ _ hs)
    (rxInv_init cfg takes numMqp) h

def twoMessages : List ClOp :=
  [.connect 0 true true true 20, .recv 0 none (.packet (.connack true)),
    .recv 0 none (.packet (.publish .qos2 5 false)), .recv 0 none (.packet (.publish .qos2 7 false))]

/-- The first message is sent again, then both are released in order. -/
theorem client_qos2_exactly_once_in_order :
    Meets rxStep Qos2Exact (rxInit (fun _ => ⟨true, false, true⟩) (fun _ => 100) 4)
      (twoMessages ++ [.recv 0 none (.packet (.publish .qos2 5 false)),
        .recv 0 none (.packet (.pubrel 5)), .recv 0 none (.packet (.pubrel 7))]) :=
  client_qos2_exactly_once _ _ _ _ (by decide)

/-- The second message is released first: the first one is no longer on record, and is handed over
again when the server sends it again. -/
theorem released_out_of_order_delivers_again :
    ¬ Meets rxStep Qos2Exact (rxInit (fun _ => ⟨true, false, true⟩) (fun _ => 100) 4)
        (twoMessages ++ [.recv 0 none (.packet (.pubrel 7)),
          .recv 0 none (.packet (.publish .qos2 5 false))]) ∧
      (runs rxStep (rxInit (fun _ => ⟨true, false, true⟩) (fun _ => 100) 4)
        (twoMessages ++ [.recv 0 none (.packet (.pubrel 7)),
          .recv 0 none (.packet (.publish .qos2 5 false))])).map
        (fun r => r.2.flatMap (delivered 0)) = some [5, 7, 5] := by
  refine ⟨fun h => ?_, by decide⟩
  obtain ⟨s, outs, hr, s', out, hs, hne⟩ : ∃ s outs,
      runs rxStep (rxInit (fun _ => ⟨true, false, true⟩) (fun _ => 100) 4) twoMessages =
        some (s, outs) ∧
      ∃ s' out, rxStep s (.recv 0 none (.packet (.pubrel 7))) = some (s', out) ∧
        recorded s'.lib 0 ≠ specRecorded s (.recv 0 none (.packet (.pubrel 7))) out 0 :=
    ⟨_, _, rfl, _, _, rfl, by decide⟩
  have hexact := (Meets.append h hr).2.1
  exact hne (hexact.recorded s' out hs 0)

end SimpleLink.Client
