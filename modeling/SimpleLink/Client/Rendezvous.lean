import SimpleLink.Lib.Run

/-!
# Waiting for the broker

The calls of the application and the callbacks of the receive task meet in one client context:
a call writes into `awaited_ack` what it waits for, sends and takes `ack_sync_obj`; a callback
that finds what is awaited writes `awaited_ack` and posts. The two tasks run statement by
statement in any order: `slStep` is one statement of either.

`Rendezvous` is what the application relies on. It holds of the runs within `RendezvousCond`,
which says what the broker and the network must not do, and when.
-/

namespace SimpleLink.Client.Sl

open SimpleLink.Lib

/-- What a broker acknowledges with. -/
inductive Ack where
  | connack
  | puback
  | pubrec
  | pubcomp
  | suback
  | unsuback
  | pingrsp
  deriving DecidableEq, Repr

/-- `awaited_ack`; zero is `none`. -/
inductive Awaited where
  | none
  | ack (t : Ack)
  | disconnect
  deriving DecidableEq, Repr

inductive Qos where
  | qos0
  | qos1
  | qos2
  deriving DecidableEq, Repr

/-- The calls of the application. -/
inductive Call where
  | connect
  | disconnect
  | sub (count : Nat)
  | unsub (count : Nat)
  | send (qos : Qos)
  deriving DecidableEq, Repr

/-- Where the application is in its call. -/
inductive App where
  | idle
  /-- It has found the client connected. -/
  | starting (c : Call)
  | sending (c : Call)
  | waiting (c : Call)
  /-- It has taken the token. -/
  | woken (c : Call)
  | exiting (c : Call) (ret : Int) (waited : Bool)
  deriving DecidableEq

/-- Where the receive task is in a callback. -/
inductive Rx where
  | idle
  /-- It has seen the acknowledgement awaited, and clears `awaited_ack` next. -/
  | matched
  /-- It has seen that something is awaited, and writes `MQTT_DISCONNECT` next. -/
  | disconn
  | posting
  deriving DecidableEq

structure SlClientCtx where
  blockingSend : Bool
  awaitedAck : Awaited
  connAck : UInt16
  /-- The token of the binary semaphore. -/
  ackSyncObj : Bool
  /-- How many bytes the buffer behind `suback_qos` has. -/
  subackQos : Option Nat
  app : App
  rx : Rx

inductive Obs where
  | returned (c : Call) (ret : Int) (waited : Bool)
  /-- Bytes written through `suback_qos`. -/
  | stored (buf : List UInt8)
  | event (t : Ack)
  | appDisconn
  deriving DecidableEq

inductive Op where
  | call (c : Call) (ready : Bool)
  | arm
  /-- The library has sent the packet, or not. -/
  | sent (ret : Int)
  | wait
  | look
  | ret
  | notifyAck (t : Ack) (buf : List UInt8)
  | disconn
  /-- The next statement of the callback. -/
  | rx

variable {x x' : SlClientCtx} {out : List Obs}

def MAX_SIMULTANEOUS_SUB_TOPICS : Nat := 4
def MAX_SIMULTANEOUS_UNSUB_TOPICS : Nat := 4

/-- What the call writes into `awaited_ack` before it sends; `none` where it does not write. -/
def Call.awaits (blocking : Bool) : Call → Awaited
  | .connect => .ack .connack
  | .disconnect => .disconnect
  | .sub _ => if blocking then .ack .suback else .none
  | .unsub _ => if blocking then .ack .unsuback else .none
  | .send .qos0 => .none
  | .send .qos1 => .ack .puback
  | .send .qos2 => .ack .pubcomp

/-- Whether the call takes the token once the packet has been sent. -/
def Call.waits (blocking : Bool) : Call → Bool
  | .connect => true
  | .disconnect => true
  | .sub _ => blocking
  | .unsub _ => blocking
  | .send .qos0 => false
  | .send _ => blocking

/-! ## The calls -/

/-- A subscription to too many topics is refused as if there were no connection. -/
def Call.admits : Call → Bool
  | .sub count => count ≤ MAX_SIMULTANEOUS_SUB_TOPICS
  | .unsub count => count ≤ MAX_SIMULTANEOUS_UNSUB_TOPICS
  | _ => true

/-- A call that is refused leaves at its end, or at once. -/
def begin (x : SlClientCtx) (c : Call) (ready : Bool) : SlClientCtx × List Obs :=
  if ready && c.admits then ({ x with app := .starting c }, [])
  else
    match c with
    | .disconnect => (x, [.returned c (-1) false])
    | .send _ => (x, [.returned c (-1) false])
    | _ => ({ x with app := .exiting c (-1) false }, [])

def armed (x : SlClientCtx) (c : Call) : SlClientCtx :=
  let x := match c.awaits x.blockingSend with
    | .none => x
    | a => { x with awaitedAck := a }
  match c with
  | .connect => { x with connAck := 0 }
  | .sub count => if x.blockingSend then { x with subackQos := some count } else x
  | _ => x

def afterSend (x : SlClientCtx) (c : Call) (ret : Int) : App :=
  if ret < 0 then .exiting c (-1) false
  else if c.waits x.blockingSend then .waiting c
  else .exiting c 0 false

def result (x : SlClientCtx) (c : Call) : Int :=
  match c with
  | .disconnect => 0
  | .connect => if x.awaitedAck = .disconnect then -1 else x.connAck.toNat
  | _ => if x.awaitedAck = .disconnect then -1 else 0

def leave (x : SlClientCtx) (c : Call) : SlClientCtx :=
  let x := { x with awaitedAck := .none, app := .idle }
  match c with
  | .connect => { x with connAck := 0 }
  | _ => x

/-! ## The callbacks -/

def processNotifyAckCb (x : SlClientCtx) (t : Ack) (buf : List UInt8) : SlClientCtx × List Obs :=
  match t with
  | .connack =>
    ({ x with
        connAck := (buf.getD 0 0).toUInt16 <<< 8 ||| (buf.getD 1 0).toUInt16
        rx := .matched }, [])
  | .suback =>
    if x.blockingSend then
      (if x.awaitedAck = .ack .suback then { x with rx := .matched } else x, [.stored buf])
    else (x, [.event t])
  | t =>
    if x.blockingSend then
      (if x.awaitedAck = .ack t then { x with rx := .matched } else x, [])
    else (x, [.event t])

def processDisconnCb (x : SlClientCtx) : SlClientCtx × List Obs :=
  if x.awaitedAck ≠ .none then ({ x with rx := .disconn }, [])
  else if x.blockingSend then (x, [])
  else (x, [.appDisconn])

def rxNext (x : SlClientCtx) : Option SlClientCtx :=
  match x.rx with
  | .idle => none
  | .matched => some { x with awaitedAck := .none, rx := .posting }
  | .disconn => some { x with awaitedAck := .disconnect, rx := .posting }
  | .posting => some { x with ackSyncObj := true, rx := .idle }

/-- One statement of the application or of the receive task; `none` where the task is not there, or is
blocked. -/
def slStep (x : SlClientCtx) : Op → Option (SlClientCtx × List Obs)
  | .call c ready =>
    match x.app with
    | .idle => some (begin x c ready)
    | _ => none
  | .arm =>
    match x.app with
    | .starting c => some ({ armed x c with app := .sending c }, [])
    | _ => none
  | .sent ret =>
    match x.app with
    | .sending c => some ({ x with app := afterSend x c ret }, [])
    | _ => none
  | .wait =>
    match x.app with
    | .waiting c =>
      if x.ackSyncObj then some ({ x with ackSyncObj := false, app := .woken c }, []) else none
    | _ => none
  | .look =>
    match x.app with
    | .woken c => some ({ x with app := .exiting c (result x c) true }, [])
    | _ => none
  | .ret =>
    match x.app with
    | .exiting c ret waited => some (leave x c, [.returned c ret waited])
    | _ => none
  | .notifyAck t buf => if x.rx = .idle then some (processNotifyAckCb x t buf) else none
  | .disconn => if x.rx = .idle then some (processDisconnCb x) else none
  | .rx => (rxNext x).map fun x => (x, [])

/-! ## The rendezvous -/

/-- What a delivery means for a call in progress that waits: that it has succeeded, or failed. -/
def answers (blocking : Bool) (c : Call) : Op → Option Bool
  | .notifyAck t _ => if c.awaits blocking = .ack t then some true else none
  | .disconn => some (c.awaits blocking = .disconnect)
  | _ => none

def App.call? : App → Option Call
  | .idle => none
  | .starting c => some c
  | .sending c => some c
  | .waiting c => some c
  | .woken c => some c
  | .exiting c _ _ => some c

/-- The context, and the first delivery since the call began that it could be waiting for. -/
structure Talk where
  ctx : SlClientCtx
  answer : Option Bool

def answerAfter (s : Talk) (op : Op) : Option Bool :=
  match op with
  | .call _ _ => none
  | _ =>
    match s.answer, s.ctx.app.call? with
    | none, some c => answers s.ctx.blockingSend c op
    | a, _ => a

def talkStep (s : Talk) (op : Op) : Option (Talk × List Obs) :=
  (slStep s.ctx op).map fun (x, out) => (⟨x, answerAfter s op⟩, out)

def talkInit (blocking : Bool) : Talk :=
  ⟨⟨blocking, .none, 0, false, none, .idle, .idle⟩, none⟩

/-- A subscription with `count` bytes for the answer has been sent, or is being sent, and has not been
woken. -/
def App.Subscribing (a : App) (count : Nat) : Prop :=
  a = .sending (.sub count) ∨ a = .waiting (.sub count)

/-- A call that has waited returns after its answer, with success just if that was not the disconnect.
No token is left once a call has returned. The bytes of a SUBACK go into the buffer of a
subscription that waits. -/
structure Rendezvous (s : Talk) (op : Op) : Prop where
  returned : ∀ {s' out c ret}, talkStep s op = some (s', out) → .returned c ret true ∈ out →
    ∃ b, s.answer = some b ∧ (0 ≤ ret ↔ b = true)
  token : ∀ {s' out}, talkStep s op = some (s', out) → s'.ctx.app = .idle →
    s'.ctx.ackSyncObj = false
  stored : ∀ {s' out buf}, talkStep s op = some (s', out) → .stored buf ∈ out →
    ∃ count, s.ctx.app.Subscribing count ∧ buf.length ≤ count

/-- A send fails before anything that the call waits for is delivered. A CONNACK comes to a connect
that waits for it, and a SUBACK to a subscription with room for it. An acknowledgement or a
disconnect that would be taken for the one awaited comes while the call is sending or waiting;
a disconnect comes to a call that will wait, and before anything else has woken it. -/
def RendezvousCond (s : Talk) : Op → Prop
  | .sent ret => ret < 0 → s.ctx.rx = .idle ∧ s.ctx.ackSyncObj = false
  | .notifyAck .connack _ =>
    (s.ctx.app = .sending .connect ∨ s.ctx.app = .waiting .connect) ∧
      s.ctx.awaitedAck = .ack .connack
  | .notifyAck .suback buf => s.ctx.blockingSend = true →
    ∃ count, s.ctx.app.Subscribing count ∧ buf.length ≤ count
  | .notifyAck t _ => s.ctx.blockingSend = true →
    match s.ctx.app with
    | .starting c => c.awaits true ≠ .ack t
    | .woken _ => s.ctx.awaitedAck ≠ .ack t
    | .exiting _ _ _ => s.ctx.awaitedAck ≠ .ack t
    | _ => True
  | .disconn =>
    match s.ctx.app with
    | .idle => True
    | .starting c => c.waits s.ctx.blockingSend = false
    | .sending c => s.ctx.awaitedAck = .none ∨
        c.waits s.ctx.blockingSend = true ∧ s.ctx.ackSyncObj = false
    | .waiting _ => s.ctx.awaitedAck = .none ∨ s.ctx.ackSyncObj = false
    | .woken _ => s.ctx.awaitedAck = .none
    | .exiting _ _ _ => s.ctx.awaitedAck = .none
  | _ => True

/-! ## The invariant -/

/-- Neither the receive task nor the token says anything yet. -/
structure Still (x : SlClientCtx) : Prop where
  rx : x.rx = .idle
  token : x.ackSyncObj = false

/-- How far the answer has come to a call that is sending or waiting. -/
inductive Pending (blocking : Bool) (c : Call) : Awaited → Bool → Rx → Option Bool → Prop where
  | unanswered : Pending blocking c (c.awaits blocking) false .idle none
  | matched (t : Ack) (h : c.awaits blocking = .ack t) :
      Pending blocking c (c.awaits blocking) false .matched (some true)
  | cleared (t : Ack) (h : c.awaits blocking = .ack t) :
      Pending blocking c .none false .posting (some true)
  | acked (t : Ack) (h : c.awaits blocking = .ack t) :
      Pending blocking c .none true .idle (some true)
  | disconn : Pending blocking c (c.awaits blocking) false .disconn
      (some (c.awaits blocking = .disconnect))
  | written : Pending blocking c .disconnect false .posting
      (some (c.awaits blocking = .disconnect))
  | dropped : Pending blocking c .disconnect true .idle (some (c.awaits blocking = .disconnect))

/-- What the woken call finds in `awaited_ack`. -/
inductive Answered (blocking : Bool) (c : Call) : Awaited → Option Bool → Prop where
  | acked (t : Ack) (h : c.awaits blocking = .ack t) : Answered blocking c .none (some true)
  | dropped : Answered blocking c .disconnect (some (c.awaits blocking = .disconnect))

def TalkInv (s : Talk) : Prop :=
  match s.ctx.app with
  | .idle => Still s.ctx ∧ s.ctx.awaitedAck = .none
  | .starting c => Still s.ctx ∧ s.ctx.awaitedAck = .none ∧
      (c.waits s.ctx.blockingSend = true → s.answer = none)
  | .sending c =>
    if c.waits s.ctx.blockingSend then
      Pending s.ctx.blockingSend c s.ctx.awaitedAck s.ctx.ackSyncObj s.ctx.rx s.answer
    else Still s.ctx ∧ (s.ctx.blockingSend = true → s.ctx.awaitedAck = .none)
  | .waiting c => c.waits s.ctx.blockingSend = true ∧
      Pending s.ctx.blockingSend c s.ctx.awaitedAck s.ctx.ackSyncObj s.ctx.rx s.answer
  | .woken c => Still s.ctx ∧ c.waits s.ctx.blockingSend = true ∧
      Answered s.ctx.blockingSend c s.ctx.awaitedAck s.answer
  | .exiting _ ret waited => Still s.ctx ∧
      (waited = true → ∃ b, s.answer = some b ∧ (0 ≤ ret ↔ b = true))

theorem talkInv_init (blocking : Bool) : TalkInv (talkInit blocking) := ⟨⟨rfl, rfl⟩, rfl⟩

theorem awaits_of_waits {b : Bool} {c : Call} (h : c.waits b = true) : c.awaits b ≠ .none := by
  cases c with
  | send q => cases q <;> simp_all [Call.waits, Call.awaits]
  | _ => simp_all [Call.waits, Call.awaits]

theorem awaits_of_not_waits {c : Call} (h : c.waits true = false) : c.awaits true = .none := by
  cases c with
  | send q => cases q <;> simp_all [Call.waits, Call.awaits]
  | _ => simp_all [Call.waits]

theorem result_answered {x : SlClientCtx} {c : Call} {a : Option Bool}
    (h : Answered x.blockingSend c x.awaitedAck a) :
    ∃ b, a = some b ∧ (0 ≤ result x c ↔ b = true) := by
  generalize hw : x.awaitedAck = w at h
  cases h with
  | acked t ht =>
    refine ⟨true, rfl, iff_of_true ?_ rfl⟩
    unfold result
    rw [hw]
    cases c <;> simp
  | dropped =>
    refine ⟨_, rfl, ?_⟩
    unfold result
    rw [hw]
    cases c with
    | send q => cases q <;> cases x.blockingSend <;> simp [Call.awaits]
    | _ => cases x.blockingSend <;> simp [Call.awaits]

/-! ## What a callback that finds nothing leaves -/

variable {s s' : Talk} {op : Op} {c : Call} {t : Ack}

/-- Whether the call in progress will be, or has been, answered. -/
def App.needs (blocking : Bool) : App → Bool
  | .idle => false
  | .starting c => c.waits blocking
  | .sending c => c.waits blocking
  | .waiting _ => true
  | .woken _ => true
  | .exiting _ _ waited => waited

theorem TalkInv.withAnswer (h : TalkInv s) {a : Option Bool}
    (ha : s.ctx.app.needs s.ctx.blockingSend = true → a = s.answer) : TalkInv ⟨s.ctx, a⟩ := by
  unfold TalkInv at h ⊢
  cases happ : s.ctx.app with
  | idle =>
    rw [happ] at h
    exact h
  | starting c =>
    rw [happ] at h ha
    exact ⟨h.1, h.2.1, fun hw => (ha hw).trans (h.2.2 hw)⟩
  | sending c =>
    rw [happ] at h ha
    simp only at h ⊢
    split
    · rename_i hw
      rw [if_pos hw] at h
      rw [ha hw]
      exact h
    · rename_i hw
      rw [if_neg hw] at h
      exact h
  | waiting c =>
    rw [happ] at h ha
    rw [ha rfl]
    exact h
  | woken c =>
    rw [happ] at h ha
    rw [ha rfl]
    exact h
  | exiting c ret waited =>
    rw [happ] at h ha
    refine ⟨h.1, fun hw => ?_⟩
    rw [ha hw]
    exact h.2 hw

theorem Answered.isSome {b : Bool} {w : Awaited} {a : Option Bool} (h : Answered b c w a) :
    ∃ r, a = some r := by
  cases h with
  | acked t ht => exact ⟨_, rfl⟩
  | dropped => exact ⟨_, rfl⟩

theorem TalkInv.answerAfter (h : TalkInv s) {o : Op} (ho : ∀ d r, o ≠ .call d r)
    (hstart : ∀ d, s.ctx.app = .starting d → d.waits s.ctx.blockingSend = true →
      answers s.ctx.blockingSend d o = none)
    (hsend : ∀ d, s.ctx.app = .sending d ∨ s.ctx.app = .waiting d →
      d.waits s.ctx.blockingSend = true → s.answer = none → answers s.ctx.blockingSend d o = none)
    (hneeds : s.ctx.app.needs s.ctx.blockingSend = true) : answerAfter s o = s.answer := by
  have hkeep : ∀ {r}, s.answer = some r → Sl.answerAfter s o = s.answer := by
    intro r hr
    unfold Sl.answerAfter
    rw [hr]
    cases o with
    | call d r => exact absurd rfl (ho d r)
    | _ => rfl
  have hnone : ∀ {d}, s.ctx.app.call? = some d → s.answer = none →
      answers s.ctx.blockingSend d o = none → Sl.answerAfter s o = s.answer := by
    intro d hd hr ha
    unfold Sl.answerAfter
    rw [hr, hd]
    cases o with
    | call d r => exact absurd rfl (ho d r)
    | _ => exact ha
  unfold TalkInv at h
  cases ha : s.answer with
  | some r => rw [← ha]; exact hkeep ha
  | none =>
    rw [← ha]
    cases happ : s.ctx.app with
    | idle =>
      rw [happ] at hneeds
      cases hneeds
    | starting d =>
      rw [happ] at hneeds
      exact hnone (by rw [happ]; rfl) ha (hstart d happ hneeds)
    | sending d =>
      rw [happ] at hneeds
      exact hnone (by rw [happ]; rfl) ha (hsend d (.inl happ) hneeds ha)
    | waiting d =>
      rw [happ] at h
      exact hnone (by rw [happ]; rfl) ha (hsend d (.inr happ) h.1 ha)
    | woken d =>
      rw [happ] at h
      obtain ⟨r, hr⟩ := h.2.2.isSome
      rw [ha] at hr
      cases hr
    | exiting d ret waited =>
      rw [happ] at h hneeds
      obtain ⟨r, hr, -⟩ := h.2 hneeds
      rw [ha] at hr
      cases hr

theorem Pending.unansweredIff {b : Bool} {w : Awaited} {tok : Bool} {rx : Rx} {a : Option Bool}
    (h : Pending b c w tok rx a) (ha : a = none) : w = c.awaits b ∧ tok = false ∧ rx = .idle := by
  cases h with
  | unanswered => exact ⟨rfl, rfl, rfl⟩
  | _ => cases ha

/-- Between two callbacks, an acknowledgement in `awaited_ack` is the one of the call. -/
theorem Pending.awaitedAck {b : Bool} {tok : Bool} {a : Option Bool}
    (h : Pending b c (.ack t) tok .idle a) : c.awaits b = .ack t ∧ tok = false ∧ a = none := by
  generalize hw : Awaited.ack t = w at h
  generalize hr : Rx.idle = rx at h
  cases h with
  | unanswered => exact ⟨rfl, rfl, rfl⟩
  | acked => cases hw
  | dropped => cases hw
  | _ => cases hr

theorem TalkInv.pending (h : TalkInv s) (happ : s.ctx.app = .sending c ∨ s.ctx.app = .waiting c)
    (hw : c.waits s.ctx.blockingSend = true) :
    Pending s.ctx.blockingSend c s.ctx.awaitedAck s.ctx.ackSyncObj s.ctx.rx s.answer := by
  unfold TalkInv at h
  rcases happ with happ | happ
  · rw [happ] at h
    simpa only [hw, if_true] using h
  · rw [happ] at h
    exact h.2

theorem talkInv_of_pending {s : Talk} (happ : s.ctx.app = .sending c ∨ s.ctx.app = .waiting c)
    (hw : c.waits s.ctx.blockingSend = true)
    (h : Pending s.ctx.blockingSend c s.ctx.awaitedAck s.ctx.ackSyncObj s.ctx.rx s.answer) :
    TalkInv s := by
  unfold TalkInv
  rcases happ with happ | happ
  · rw [happ]
    simpa only [hw, if_true] using h
  · rw [happ]
    exact ⟨hw, h⟩

/-! ## The callbacks -/

theorem TalkInv.missed (h : TalkInv s) {o : Op} (ho : ∀ d r, o ≠ .call d r)
    (hstart : ∀ d, s.ctx.app = .starting d → d.waits s.ctx.blockingSend = true →
      answers s.ctx.blockingSend d o = none)
    (hsend : ∀ d, s.ctx.app = .sending d ∨ s.ctx.app = .waiting d →
      d.waits s.ctx.blockingSend = true → s.answer = none → answers s.ctx.blockingSend d o = none) :
    TalkInv ⟨s.ctx, Sl.answerAfter s o⟩ :=
  h.withAnswer (h.answerAfter ho hstart hsend)

theorem TalkInv.matched (h : TalkInv s) {x : SlClientCtx} {buf : List UInt8}
    (hphase : x.app = s.ctx.app) (hb : x.blockingSend = s.ctx.blockingSend)
    (hack : x.awaitedAck = s.ctx.awaitedAck) (htok : x.ackSyncObj = s.ctx.ackSyncObj)
    (hmatched : x.rx = .matched) (hrx : s.ctx.rx = .idle)
    (happ : s.ctx.app = .sending c ∨ s.ctx.app = .waiting c)
    (hw : c.waits s.ctx.blockingSend = true) (haw : s.ctx.awaitedAck = .ack t) :
    TalkInv ⟨x, Sl.answerAfter s (.notifyAck t buf)⟩ := by
  have hp := h.pending happ hw
  rw [haw, hrx] at hp
  obtain ⟨hcall, htok', hnone⟩ := hp.awaitedAck
  have hans : Sl.answerAfter s (.notifyAck t buf) = some true := by
    have hc : s.ctx.app.call? = some c := by
      rcases happ with happ | happ
      · rw [happ]; rfl
      · rw [happ]; rfl
    unfold Sl.answerAfter
    rw [hnone, hc]
    exact if_pos hcall
  refine talkInv_of_pending (c := c) (by rw [hphase]; exact happ) (by rw [hb]; exact hw) ?_
  rw [hb, hack, htok, hmatched, haw, htok', hans, ← hcall]
  exact .matched t hcall

/-- Where a call cannot take an acknowledgement for the one awaited. -/
def AckSafe (s : Talk) (t : Ack) : Prop :=
  match s.ctx.app with
  | .starting c => c.waits s.ctx.blockingSend = true → c.awaits s.ctx.blockingSend ≠ .ack t
  | .woken _ => s.ctx.awaitedAck ≠ .ack t
  | .exiting _ _ _ => s.ctx.awaitedAck ≠ .ack t
  | _ => True

theorem TalkInv.unmatched (h : TalkInv s) (hsafe : AckSafe s t) {buf : List UInt8}
    (hne : ∀ d, s.ctx.app = .sending d ∨ s.ctx.app = .waiting d →
      d.waits s.ctx.blockingSend = true → s.ctx.awaitedAck = d.awaits s.ctx.blockingSend →
      d.awaits s.ctx.blockingSend ≠ .ack t) :
    TalkInv ⟨s.ctx, Sl.answerAfter s (.notifyAck t buf)⟩ := by
  refine h.missed nofun (fun d happ hw => ?_) (fun d happ hw hnone => ?_)
  · unfold AckSafe at hsafe
    rw [happ] at hsafe
    exact if_neg (hsafe hw)
  · exact if_neg (hne d happ hw ((h.pending happ hw).unansweredIff hnone).1)

theorem TalkInv.matches (h : TalkInv s) (hb : s.ctx.blockingSend = true) (hsafe : AckSafe s t)
    (haw : s.ctx.awaitedAck = .ack t) :
    ∃ c, (s.ctx.app = .sending c ∨ s.ctx.app = .waiting c) ∧ c.waits s.ctx.blockingSend = true := by
  unfold TalkInv at h
  unfold AckSafe at hsafe
  cases happ : s.ctx.app with
  | idle =>
    rw [happ] at h
    rw [haw] at h
    cases h.2
  | starting c =>
    rw [happ] at h
    rw [haw] at h
    cases h.2.1
  | sending c =>
    rw [happ] at h
    simp only at h
    split at h
    · rename_i hw
      exact ⟨c, .inl rfl, hw⟩
    · rw [h.2 hb] at haw
      cases haw
  | waiting c =>
    rw [happ] at h
    exact ⟨c, .inr rfl, h.1⟩
  | woken c =>
    rw [happ] at hsafe
    exact absurd haw hsafe
  | exiting c ret waited =>
    rw [happ] at hsafe
    exact absurd haw hsafe

theorem awaits_nonblocking {d : Call} (hw : d.waits false = true) (ht : t ≠ .connack) :
    d.awaits false ≠ .ack t := by
  cases d with
  | connect => exact fun he => ht (Awaited.ack.inj he).symm
  | disconnect => exact nofun
  | sub count => cases hw
  | unsub count => cases hw
  | send q => cases q <;> cases hw

theorem TalkInv.acknowledged (h : TalkInv s) (hrx : s.ctx.rx = .idle) (ht : t ≠ .connack)
    (hsafe : s.ctx.blockingSend = true → AckSafe s t) {buf : List UInt8} {x : SlClientCtx}
    (hx : x = if s.ctx.blockingSend = true ∧ s.ctx.awaitedAck = .ack t then
      { s.ctx with rx := .matched } else s.ctx) :
    TalkInv ⟨x, Sl.answerAfter s (.notifyAck t buf)⟩ := by
  cases hb : s.ctx.blockingSend with
  | false =>
    rw [hb, if_neg (by simp)] at hx
    subst hx
    have hother : ∀ {d : Call}, d.waits s.ctx.blockingSend = true →
        d.awaits s.ctx.blockingSend ≠ .ack t := by
      intro d hw
      rw [hb] at hw ⊢
      exact awaits_nonblocking hw ht
    exact h.missed nofun (fun d _ hw => if_neg (hother hw)) fun d _ hw _ => if_neg (hother hw)
  | true =>
    have hsafe := hsafe hb
    by_cases haw : s.ctx.awaitedAck = .ack t
    · rw [if_pos ⟨hb, haw⟩] at hx
      subst hx
      obtain ⟨c, happ, hw⟩ := h.matches hb hsafe haw
      exact h.matched rfl rfl rfl rfl rfl hrx happ hw haw
    · rw [if_neg (fun hc => haw hc.2)] at hx
      subst hx
      exact h.unmatched hsafe fun d _ _ he hd => haw (he.trans hd)

theorem processNotifyAckCb_fst (ht : t ≠ .connack) (x : SlClientCtx) (buf : List UInt8) :
    (processNotifyAckCb x t buf).1 = if x.blockingSend = true ∧ x.awaitedAck = .ack t then
      { x with rx := .matched } else x := by
  unfold processNotifyAckCb
  cases hb : x.blockingSend with
  | false => cases t <;> simp at ht ⊢
  | true => cases t <;> simp at ht ⊢

theorem ackSafe_of_cond {buf : List UInt8} (ht : t ≠ .connack)
    (hc : RendezvousCond s (.notifyAck t buf)) (hb : s.ctx.blockingSend = true) : AckSafe s t := by
  by_cases hsub : t = .suback
  · subst hsub
    obtain ⟨count, hsub, -⟩ := hc hb
    unfold AckSafe
    rcases hsub with happ | happ
    · rw [happ]
      trivial
    · rw [happ]
      trivial
  · have hc : match s.ctx.app with
        | .starting c => c.awaits true ≠ .ack t
        | .woken _ => s.ctx.awaitedAck ≠ .ack t
        | .exiting _ _ _ => s.ctx.awaitedAck ≠ .ack t
        | _ => True := by
      cases t with
      | connack => exact absurd rfl ht
      | suback => exact absurd rfl hsub
      | _ => exact hc hb
    unfold AckSafe
    cases happ : s.ctx.app with
    | starting c =>
      rw [happ] at hc
      rw [hb]
      exact fun _ => hc
    | woken c =>
      rw [happ] at hc
      exact hc
    | exiting c ret waited =>
      rw [happ] at hc
      exact hc
    | _ => trivial

theorem TalkInv.notify (h : TalkInv s) (hrx : s.ctx.rx = .idle) {buf : List UInt8}
    (hc : RendezvousCond s (.notifyAck t buf)) :
    TalkInv ⟨(processNotifyAckCb s.ctx t buf).1, Sl.answerAfter s (.notifyAck t buf)⟩ := by
  by_cases ht : t = .connack
  · subst ht
    obtain ⟨happ, haw⟩ := hc
    exact h.matched (c := .connect) rfl rfl rfl rfl rfl hrx happ rfl haw
  · exact h.acknowledged hrx ht (ackSafe_of_cond ht hc) (processNotifyAckCb_fst ht ..)

theorem TalkInv.lost (h : TalkInv s) (hrx : s.ctx.rx = .idle) (hc : RendezvousCond s .disconn) :
    TalkInv ⟨(processDisconnCb s.ctx).1, Sl.answerAfter s .disconn⟩ := by
  unfold RendezvousCond at hc
  by_cases haw : s.ctx.awaitedAck = .none
  · -- nothing is awaited: the application is told, if calls do not block
    have hx : (processDisconnCb s.ctx).1 = s.ctx := by
      unfold processDisconnCb
      rw [if_neg (fun hne => hne haw)]
      split <;> rfl
    rw [hx]
    refine h.missed nofun (fun d happ hw => ?_) (fun d happ hw hnone => ?_)
    · simp only [happ] at hc
      rw [hc] at hw
      cases hw
    · have hcall := ((h.pending happ hw).unansweredIff hnone).1
      exact absurd (hcall.symm.trans haw) (awaits_of_waits hw)
  · have hx : (processDisconnCb s.ctx).1 = { s.ctx with rx := .disconn } := by
      unfold processDisconnCb
      rw [if_pos haw]
    rw [hx]
    have hcall : ∃ c, (s.ctx.app = .sending c ∨ s.ctx.app = .waiting c) ∧
        c.waits s.ctx.blockingSend = true ∧ s.ctx.ackSyncObj = false := by
      unfold TalkInv at h
      cases happ : s.ctx.app with
      | idle =>
        rw [happ] at h
        exact absurd h.2 haw
      | starting c =>
        rw [happ] at h
        exact absurd h.2.1 haw
      | sending c =>
        simp only [happ] at hc
        exact ⟨c, .inl rfl, hc.resolve_left haw⟩
      | waiting c =>
        rw [happ] at h
        simp only [happ] at hc
        exact ⟨c, .inr rfl, h.1, hc.resolve_left haw⟩
      | woken c =>
        simp only [happ] at hc
        exact absurd hc haw
      | exiting c ret waited =>
        simp only [happ] at hc
        exact absurd hc haw
    obtain ⟨c, happ, hw, htok⟩ := hcall
    have hp := h.pending happ hw
    obtain ⟨hawaits, hnone⟩ : s.ctx.awaitedAck = c.awaits s.ctx.blockingSend ∧ s.answer = none := by
      rw [htok, hrx] at hp
      generalize s.ctx.awaitedAck = w at hp haw
      generalize s.answer = a at hp
      cases hp with
      | unanswered => exact ⟨rfl, rfl⟩
    have hans : Sl.answerAfter s .disconn =
        some (decide (c.awaits s.ctx.blockingSend = .disconnect)) := by
      have hc : s.ctx.app.call? = some c := by
        rcases happ with happ | happ
        · rw [happ]; rfl
        · rw [happ]; rfl
      unfold Sl.answerAfter
      rw [hnone, hc]
      rfl
    refine talkInv_of_pending (c := c) happ hw ?_
    show Pending _ c s.ctx.awaitedAck s.ctx.ackSyncObj .disconn _
    rw [hawaits, htok, hans]
    exact .disconn

theorem TalkInv.rxNext (h : TalkInv s) {x : SlClientCtx} (hs : Sl.rxNext s.ctx = some x) :
    TalkInv ⟨x, Sl.answerAfter s .rx⟩ := by
  have hans : Sl.answerAfter s .rx = s.answer := by
    unfold Sl.answerAfter
    cases s.answer with
    | some r => rfl
    | none => cases s.ctx.app.call? <;> rfl
  have hbusy : s.ctx.rx ≠ .idle := by
    intro hidle
    unfold Sl.rxNext at hs
    rw [hidle] at hs
    cases hs
  have hcall : ∃ c, (s.ctx.app = .sending c ∨ s.ctx.app = .waiting c) ∧
      c.waits s.ctx.blockingSend = true := by
    unfold TalkInv at h
    cases happ : s.ctx.app with
    | idle =>
      rw [happ] at h
      exact absurd h.1.rx hbusy
    | starting c =>
      rw [happ] at h
      exact absurd h.1.rx hbusy
    | sending c =>
      rw [happ] at h
      simp only at h
      split at h
      · rename_i hw
        exact ⟨c, .inl rfl, hw⟩
      · exact absurd h.1.rx hbusy
    | waiting c =>
      rw [happ] at h
      exact ⟨c, .inr rfl, h.1⟩
    | woken c =>
      rw [happ] at h
      exact absurd h.1.rx hbusy
    | exiting c ret waited =>
      rw [happ] at h
      exact absurd h.1.rx hbusy
  obtain ⟨c, happ, hw⟩ := hcall
  have hp := h.pending happ hw
  rw [hans]
  unfold Sl.rxNext at hs
  cases hrx : s.ctx.rx with
  | idle => exact absurd hrx hbusy
  | matched =>
    simp only [hrx] at hs
    cases hs
    refine talkInv_of_pending (c := c) happ hw ?_
    rw [hrx] at hp
    generalize s.ctx.awaitedAck = w at hp
    generalize s.ctx.ackSyncObj = tok at hp ⊢
    generalize s.answer = a at hp ⊢
    cases hp with
    | matched t ht => exact .cleared t ht
  | disconn =>
    simp only [hrx] at hs
    cases hs
    refine talkInv_of_pending (c := c) happ hw ?_
    rw [hrx] at hp
    generalize s.ctx.awaitedAck = w at hp
    generalize s.ctx.ackSyncObj = tok at hp ⊢
    generalize s.answer = a at hp ⊢
    cases hp with
    | disconn => exact .written
  | posting =>
    simp only [hrx] at hs
    cases hs
    refine talkInv_of_pending (c := c) happ hw ?_
    rw [hrx] at hp
    generalize s.ctx.awaitedAck = w at hp ⊢
    generalize s.ctx.ackSyncObj = tok at hp
    generalize s.answer = a at hp ⊢
    cases hp with
    | cleared t ht => exact .acked t ht
    | written => exact .dropped

/-! ## The calls -/

theorem answerAfter_app {o : Op} (ho : ∀ d r, o ≠ .call d r)
    (hans : ∀ b d, answers b d o = none) : Sl.answerAfter s o = s.answer := by
  unfold Sl.answerAfter
  cases o with
  | call d r => exact absurd rfl (ho d r)
  | _ =>
    cases s.answer with
    | some r => rfl
    | none =>
      cases s.ctx.app.call? with
      | none => rfl
      | some d => exact hans _ _

theorem TalkInv.call (h : TalkInv s) (happ : s.ctx.app = .idle) (c : Call) (ready : Bool) :
    TalkInv ⟨(begin s.ctx c ready).1, none⟩ := by
  unfold TalkInv at h
  rw [happ] at h
  unfold begin
  split
  · exact ⟨⟨h.1.rx, h.1.token⟩, h.2, fun _ => rfl⟩
  · have hidle : TalkInv ⟨s.ctx, none⟩ := by
      unfold TalkInv
      rw [happ]
      exact h
    have hexit : ∀ c, TalkInv ⟨{ s.ctx with app := .exiting c (-1) false }, none⟩ :=
      fun c => ⟨⟨h.1.rx, h.1.token⟩, nofun⟩
    split
    · exact hidle
    · exact hidle
    · exact hexit c

theorem armed_spec (x : SlClientCtx) (c : Call) :
    (armed x c).blockingSend = x.blockingSend ∧ (armed x c).ackSyncObj = x.ackSyncObj ∧
      (armed x c).rx = x.rx ∧
      (armed x c).awaitedAck = if c.awaits x.blockingSend = .none then x.awaitedAck
        else c.awaits x.blockingSend := by
  unfold armed
  cases c with
  | connect => exact ⟨rfl, rfl, rfl, rfl⟩
  | disconnect => exact ⟨rfl, rfl, rfl, rfl⟩
  | sub count => cases hb : x.blockingSend <;> simp [Call.awaits, hb]
  | unsub count => cases hb : x.blockingSend <;> simp [Call.awaits, hb]
  | send q => cases q <;> simp [Call.awaits]

theorem TalkInv.arm (h : TalkInv s) {c : Call} (happ : s.ctx.app = .starting c) :
    TalkInv ⟨{ armed s.ctx c with app := .sending c }, s.answer⟩ := by
  unfold TalkInv at h
  rw [happ] at h
  obtain ⟨hstill, haw, hans⟩ := h
  obtain ⟨hb, htok, hrx, hawaits⟩ := armed_spec s.ctx c
  unfold TalkInv
  simp only [hb]
  split
  · rename_i hw
    rw [if_neg (awaits_of_waits hw)] at hawaits
    rw [hawaits, htok, hrx, hstill.token, hstill.rx, hans hw]
    exact .unanswered
  · rename_i hw
    refine ⟨⟨hrx.trans hstill.rx, htok.trans hstill.token⟩, fun hblock => ?_⟩
    have hw : c.waits true = false := by
      rw [hblock] at hw
      exact Bool.eq_false_iff.2 hw
    rw [hblock, awaits_of_not_waits hw, if_pos rfl] at hawaits
    exact hawaits.trans haw

theorem TalkInv.sent (h : TalkInv s) {c : Call} (happ : s.ctx.app = .sending c) {ret : Int}
    (hc : RendezvousCond s (.sent ret)) :
    TalkInv ⟨{ s.ctx with app := afterSend s.ctx c ret }, s.answer⟩ := by
  unfold TalkInv at h
  rw [happ] at h
  unfold afterSend
  by_cases hret : ret < 0
  · rw [if_pos hret]
    obtain ⟨hrx, htok⟩ := hc hret
    exact ⟨⟨hrx, htok⟩, nofun⟩
  · rw [if_neg hret]
    by_cases hw : c.waits s.ctx.blockingSend = true
    · simp only [hw, if_true] at h
      rw [if_pos hw]
      exact ⟨hw, h⟩
    · rw [if_neg hw]
      simp only [hw] at h
      exact ⟨⟨h.1.rx, h.1.token⟩, nofun⟩

theorem TalkInv.wake (h : TalkInv s) {c : Call} (happ : s.ctx.app = .waiting c)
    (htok : s.ctx.ackSyncObj = true) :
    TalkInv ⟨{ s.ctx with ackSyncObj := false, app := .woken c }, s.answer⟩ := by
  unfold TalkInv at h
  rw [happ] at h
  obtain ⟨hw, hp⟩ := h
  have hp : s.ctx.rx = .idle ∧ Answered s.ctx.blockingSend c s.ctx.awaitedAck s.answer := by
    rw [htok] at hp
    generalize s.ctx.awaitedAck = w at hp ⊢
    generalize s.ctx.rx = rx at hp ⊢
    generalize s.answer = a at hp ⊢
    cases hp with
    | acked t ht => exact ⟨rfl, .acked t ht⟩
    | dropped => exact ⟨rfl, .dropped⟩
  exact ⟨⟨hp.1, rfl⟩, hw, hp.2⟩

theorem TalkInv.look (h : TalkInv s) {c : Call} (happ : s.ctx.app = .woken c) :
    TalkInv ⟨{ s.ctx with app := .exiting c (result s.ctx c) true }, s.answer⟩ := by
  unfold TalkInv at h
  rw [happ] at h
  exact ⟨⟨h.1.rx, h.1.token⟩, fun _ => result_answered h.2.2⟩

theorem leave_spec (x : SlClientCtx) (c : Call) : (leave x c).app = .idle ∧
    (leave x c).awaitedAck = .none ∧ (leave x c).rx = x.rx ∧
    (leave x c).ackSyncObj = x.ackSyncObj := by
  unfold leave
  cases c <;> exact ⟨rfl, rfl, rfl, rfl⟩

theorem TalkInv.leave (h : TalkInv s) {c : Call} {ret : Int} {waited : Bool}
    (happ : s.ctx.app = .exiting c ret waited) : TalkInv ⟨Sl.leave s.ctx c, s.answer⟩ := by
  unfold TalkInv at h
  rw [happ] at h
  obtain ⟨hidle, haw, hrx, htok⟩ := leave_spec s.ctx c
  unfold TalkInv
  simp only [hidle]
  exact ⟨⟨hrx.trans h.1.rx, htok.trans h.1.token⟩, haw⟩

/-! ## Runs -/

theorem TalkInv.step (h : TalkInv s) {out : List Obs} (hc : RendezvousCond s op)
    (hs : talkStep s op = some (s', out)) : TalkInv s' := by
  unfold talkStep at hs
  obtain ⟨⟨x, out'⟩, hx, he⟩ := Option.map_eq_some_iff.1 hs
  obtain ⟨rfl, -⟩ := Prod.mk.inj he
  unfold slStep at hx
  cases op with
  | call c ready =>
    simp only at hx
    split at hx
    · rename_i happ
      obtain rfl := congrArg Prod.fst (Option.some.inj hx)
      exact h.call happ c ready
    · cases hx
  | arm =>
    simp only at hx
    split at hx
    · rename_i c happ
      cases hx
      rw [answerAfter_app (o := .arm) nofun fun _ _ => rfl]
      exact h.arm happ
    · cases hx
  | sent ret =>
    simp only at hx
    split at hx
    · rename_i c happ
      cases hx
      rw [answerAfter_app (o := .sent ret) nofun fun _ _ => rfl]
      exact h.sent happ hc
    · cases hx
  | wait =>
    simp only at hx
    split at hx
    · rename_i c happ
      split at hx
      · rename_i htok
        cases hx
        rw [answerAfter_app (o := .wait) nofun fun _ _ => rfl]
        exact h.wake happ htok
      · cases hx
    · cases hx
  | look =>
    simp only at hx
    split at hx
    · rename_i c happ
      cases hx
      rw [answerAfter_app (o := .look) nofun fun _ _ => rfl]
      exact h.look happ
    · cases hx
  | ret =>
    simp only at hx
    split at hx
    · rename_i c ret waited happ
      cases hx
      rw [answerAfter_app (o := .ret) nofun fun _ _ => rfl]
      exact h.leave happ
    · cases hx
  | notifyAck t buf =>
    simp only at hx
    split at hx
    · rename_i hrx
      obtain rfl := congrArg Prod.fst (Option.some.inj hx)
      exact h.notify hrx hc
    · cases hx
  | disconn =>
    simp only at hx
    split at hx
    · rename_i hrx
      obtain rfl := congrArg Prod.fst (Option.some.inj hx)
      exact h.lost hrx hc
    · cases hx
  | rx =>
    obtain ⟨x', hx', he⟩ := Option.map_eq_some_iff.1 hx
    obtain ⟨rfl, -⟩ := Prod.mk.inj he
    exact h.rxNext hx'

/-- What a call puts out that is over at once. -/
theorem begin_out {x : SlClientCtx} {c : Call} {ready : Bool} {o : Obs} (h : o ∈ (begin x c ready).2) :
    o = .returned c (-1) false := by
  unfold begin at h
  repeat' split at h
  all_goals first | exact List.mem_singleton.1 h | cases h

theorem returned_exiting {out : List Obs} {c : Call} {ret : Int}
    (hs : talkStep s op = some (s', out)) (hmem : .returned c ret true ∈ out) :
    s.ctx.app = .exiting c ret true := by
  unfold talkStep at hs
  obtain ⟨⟨x, out'⟩, hx, he⟩ := Option.map_eq_some_iff.1 hs
  obtain ⟨-, rfl⟩ := Prod.mk.inj he
  unfold slStep at hx
  cases op with
  | call d ready =>
    simp only at hx
    split at hx
    · obtain rfl := congrArg Prod.snd (Option.some.inj hx)
      cases begin_out hmem
    · cases hx
  | ret =>
    simp only at hx
    split at hx
    · rename_i d r w happ
      cases hx
      obtain ⟨rfl, rfl, rfl⟩ := Obs.returned.inj (List.mem_singleton.1 hmem)
      exact happ
    · cases hx
  | notifyAck t buf =>
    simp only at hx
    split at hx
    · obtain rfl := congrArg Prod.snd (Option.some.inj hx)
      unfold processNotifyAckCb at hmem
      repeat' split at hmem
      all_goals simp at hmem
    · cases hx
  | disconn =>
    simp only at hx
    split at hx
    · obtain rfl := congrArg Prod.snd (Option.some.inj hx)
      unfold processDisconnCb at hmem
      repeat' split at hmem
      all_goals simp at hmem
    · cases hx
  | rx =>
    obtain ⟨x', -, he⟩ := Option.map_eq_some_iff.1 hx
    obtain ⟨-, rfl⟩ := Prod.mk.inj he
    exact absurd hmem List.not_mem_nil
  | wait =>
    simp only at hx
    repeat' split at hx
    all_goals first
      | cases hx; exact absurd hmem List.not_mem_nil
      | cases hx
  | _ =>
    simp only at hx
    split at hx
    · cases hx
      exact absurd hmem List.not_mem_nil
    · cases hx

theorem stored_suback {out : List Obs} {buf : List UInt8}
    (hs : talkStep s op = some (s', out)) (hmem : .stored buf ∈ out) :
    op = .notifyAck .suback buf ∧ s.ctx.blockingSend = true := by
  unfold talkStep at hs
  obtain ⟨⟨x, out'⟩, hx, he⟩ := Option.map_eq_some_iff.1 hs
  obtain ⟨-, rfl⟩ := Prod.mk.inj he
  unfold slStep at hx
  cases op with
  | call d ready =>
    simp only at hx
    split at hx
    · obtain rfl := congrArg Prod.snd (Option.some.inj hx)
      cases begin_out hmem
    · cases hx
  | notifyAck t buf' =>
    simp only at hx
    split at hx
    · obtain rfl := congrArg Prod.snd (Option.some.inj hx)
      unfold processNotifyAckCb at hmem
      split at hmem
      · exact absurd hmem List.not_mem_nil
      · split at hmem
        · rename_i hb
          obtain rfl := Obs.stored.inj (List.mem_singleton.1 hmem)
          exact ⟨rfl, hb⟩
        · cases List.mem_singleton.1 hmem
      · split at hmem
        · exact absurd hmem List.not_mem_nil
        · cases List.mem_singleton.1 hmem
    · cases hx
  | disconn =>
    simp only at hx
    split at hx
    · obtain rfl := congrArg Prod.snd (Option.some.inj hx)
      unfold processDisconnCb at hmem
      repeat' split at hmem
      all_goals simp at hmem
    · cases hx
  | rx =>
    obtain ⟨x', -, he⟩ := Option.map_eq_some_iff.1 hx
    obtain ⟨-, rfl⟩ := Prod.mk.inj he
    exact absurd hmem List.not_mem_nil
  | ret =>
    simp only at hx
    split at hx
    · cases hx
      cases List.mem_singleton.1 hmem
    · cases hx
  | wait =>
    simp only at hx
    repeat' split at hx
    all_goals first
      | cases hx; exact absurd hmem List.not_mem_nil
      | cases hx
  | _ =>
    simp only at hx
    split at hx
    · cases hx
      exact absurd hmem List.not_mem_nil
    · cases hx

theorem TalkInv.rendezvous (h : TalkInv s) (hc : RendezvousCond s op) : Rendezvous s op where
  returned hs hmem := by
    have happ := returned_exiting hs hmem
    unfold TalkInv at h
    rw [happ] at h
    exact h.2 rfl
  token hs hidle := by
    have h' := h.step hc hs
    unfold TalkInv at h'
    rw [hidle] at h'
    exact h'.1.token
  stored hs hmem := by
    obtain ⟨rfl, hb⟩ := stored_suback hs hmem
    exact hc hb

/-- The calls and the callbacks keep the rendezvous, in any order of their statements within the
condition. -/
theorem rendezvous_kept (blocking : Bool) {ops : List Op}
    (hc : Meets talkStep RendezvousCond (talkInit blocking) ops) :
    Meets talkStep Rendezvous (talkInit blocking) ops :=
  hc.imp (I := TalkInv) (fun hI hC => hI.rendezvous hC) (fun hI hC hs => hI.step hC hs)
    (talkInv_init blocking)

/-- A connect, and a subscription that is acknowledged before its send returns. -/
def connectAndSubscribe : List Op :=
  [.call .connect true, .arm, .sent 0, .notifyAck .connack [0, 0], .rx, .rx, .wait, .look, .ret,
    .call (.sub 1) true, .arm, .notifyAck .suback [1], .sent 0, .rx, .rx, .wait, .look, .ret]

theorem rendezvous_kept_one : Meets talkStep Rendezvous (talkInit true) connectAndSubscribe := by
  refine rendezvous_kept true ?_
  exact ⟨trivial, trivial, fun h => absurd h (by decide), ⟨.inr rfl, rfl⟩, trivial, trivial, trivial,
    trivial, trivial, trivial, trivial, fun _ => ⟨1, .inl rfl, Nat.le_refl 1⟩,
    fun h => absurd h (by decide), trivial, trivial, trivial, trivial, trivial, trivial⟩

/-- The connection is lost while a message of QoS 1 is sent without blocking: the token stays, and the
next connect returns 0 although no CONNACK came. -/
theorem connect_without_connack :
    ∃ s outs, runs talkStep (talkInit false)
      [.call (.send .qos1) true, .arm, .disconn, .rx, .rx, .sent 0, .ret,
        .call .connect true, .arm, .sent 0, .wait, .look] = some (s, outs) ∧
      s.ctx.app = .exiting .connect 0 true ∧ s.answer = none ∧ ¬Rendezvous s .ret := by
  refine ⟨_, _, rfl, rfl, rfl, fun h => ?_⟩
  obtain ⟨b, hb, -⟩ := h.returned rfl List.mem_cons_self
  cases hb

end SimpleLink.Client.Sl
