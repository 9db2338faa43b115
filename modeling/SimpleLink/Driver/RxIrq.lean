import Mathlib.Data.Fintype.Basic
import SimpleLink.Lib.Run

/-!
# Interrupts, commands and the spawn context

Any number of threads `ι` are in `_SlDrvCmdOp`; the spawn context runs `_SlDrvMsgReadSpawnCtx`. A
context is `some t` for a thread, or `none` for the spawn context. The device announces a
frame by an interrupt; it answers every command that was written to it once, and does
not answer what an event handler sends with `_SlDrvCmdSend`.

A step is one statement of a context, or an interrupt. A frame is read, the interrupt unmasked and
`RxDoneCnt` incremented in one step: what an interrupt does in between does not depend
on it.
-/

namespace SimpleLink.Driver.RxIrq

open Lib

/-- What a transfer that failed does (`SL_NWP_IF_HANDLING`, `SL_DRV_RET_CODE_HANDLING`): it never
returns, or the function returns an error. -/
inductive Handling where
  | assert
  | error

/-- `masks`: the host has an interrupt that can be masked (`sl_IfMaskIntHdlr`). -/
structure Cfg where
  masks : Bool
  handling : Handling

/-- `_SlRxMsgClass_e`; the response is to the command of a thread. -/
inductive Frame (ι : Type) where
  | cmdResp (t : ι)
  | asyncEvt
  /-- `RECV_RESP_CLASS` and `DUMMY_MSG_CLASS`. -/
  | other

/-- Where a context is. -/
inductive Phase (ι : Type) where
  | idle
  /-- Locks `GlobalLockObj`. -/
  | lock
  /-- Sets `IsCmdRespWaited`. -/
  | setWaited
  | msgWrite
  /-- The loop of `_SlDrvMsgReadCmdCtx`. -/
  | loop
  | waitSync
  | msgRead
  /-- The command response was read; clears `IsCmdRespWaited`. -/
  | clearWaited
  | clearSync
  /-- In an event handler. -/
  | handler
  /-- In `_SlDrvCmdSend`, with what it saved. -/
  | cmdSend (waited : Bool) (params : Option ι)
  | unlock
  /-- Looks for a pending message once more. -/
  | spawnPending
  /-- `_SlDrvMsgReadSpawnCtx` looks for a pending message. -/
  | checkPending
  /-- In an assertion that failed. -/
  | halted

structure Ctx (ι : Type) where
  phase : Phase ι
  /-- Whose response is in the buffers of the command. -/
  answer : Option ι
  /-- The command has returned, with success or not. -/
  ret : Option Bool

structure Host (ι : Type) where
  rxIrqCnt : UInt8
  rxDoneCnt : UInt8
  /-- The frames announced and not yet read. -/
  frames : List (Frame ι)
  masked : Bool
  isCmdRespWaited : Bool
  cmdSyncObj : Bool
  globalLockObj : Option (Option ι)
  /-- Whose descriptors are in `FunctionParams`. -/
  params : Option ι
  /-- The entries for `_SlDrvMsgReadSpawnCtx` in the queue. -/
  spawns : Nat
  /-- The commands that the device has not answered. -/
  device : List ι
  ctxs : Option ι → Ctx ι

variable {ι : Type} [DecidableEq ι]

def hostInit : Host ι where
  rxIrqCnt := 0
  rxDoneCnt := 0
  frames := []
  masked := false
  isCmdRespWaited := false
  cmdSyncObj := false
  globalLockObj := none
  params := none
  spawns := 0
  device := []
  ctxs := fun _ => ⟨.idle, none, none⟩

def Host.setCtx (s : Host ι) (c : Option ι) (x : Ctx ι) : Host ι :=
  { s with ctxs := Function.update s.ctxs c x }

def Host.goto (s : Host ι) (c : Option ι) (p : Phase ι) : Host ι :=
  s.setCtx c { s.ctxs c with phase := p }

/-- The command of a thread returns; nothing is returned to by the spawn context. -/
def Host.return (s : Host ι) (c : Option ι) (ok : Bool) : Host ι :=
  s.setCtx c { s.ctxs c with phase := .idle, ret := c.map fun _ => ok }

def Host.fail (s : Host ι) (cfg : Cfg) (c : Option ι) : Host ι :=
  match cfg.handling with
  | .assert => s.goto c .halted
  | .error => s.return c false

/-- `_SL_PENDING_RX_MSG`. -/
def Host.pending (s : Host ι) : Bool := s.rxIrqCnt != s.rxDoneCnt

def Host.store (s : Host ι) (t : ι) : Host ι :=
  match s.params with
  | none => s
  | some p => s.setCtx (some p) { s.ctxs (some p) with answer := some t }

/-- `_SlDrvMsgRead` has read a frame. -/
def Host.took (s : Host ι) (rest : List (Frame ι)) : Host ι :=
  { s with frames := rest, rxDoneCnt := s.rxDoneCnt + 1, masked := false }

/-- What becomes of a step: whether the transfer in it succeeds, whether an event handler sends
another command, and whether `sl_Spawn` has room for an entry. -/
structure Run where
  ok : Bool
  send : Bool
  room : Bool

/-- `sl_Spawn`, whose queue may be full. Its result is not looked at. -/
def Host.slSpawn (s : Host ι) (room : Bool) : Host ι :=
  if room then { s with spawns := s.spawns + 1 } else s

def ctxStep (cfg : Cfg) (s : Host ι) (c : Option ι) (r : Run) : Option (Host ι) :=
  match (s.ctxs c).phase with
  | .idle =>
    match c with
    | some _ => none
    | none => if s.spawns = 0 then none else some ({ s with spawns := s.spawns - 1 }.goto c .lock)
  | .lock =>
    match s.globalLockObj with
    | some _ => none
    | none =>
      some ({ s with globalLockObj := some c }.goto c
        (if c.isSome then .setWaited else .checkPending))
  | .setWaited => some ({ s with isCmdRespWaited := true }.goto c .msgWrite)
  | .msgWrite =>
    let s := { s with params := c }
    if r.ok then some ({ s with device := s.device ++ c.toList }.goto c .loop)
    else
      match cfg.handling with
      | .assert => some (s.goto c .halted)
      | .error => some ({ s with globalLockObj := none }.return c false)
  | .loop =>
    if s.isCmdRespWaited then some (s.goto c (if s.pending then .msgRead else .waitSync))
    else some (s.goto c .unlock)
  | .waitSync => if s.cmdSyncObj then some ({ s with cmdSyncObj := false }.goto c .loop) else none
  | .checkPending => some (s.goto c (if s.pending then .msgRead else .unlock))
  | .msgRead =>
    match s.frames with
    | [] => none
    | f :: rest =>
      if r.ok then
        let s := s.took rest
        match f with
        | .cmdResp t =>
          -- illegal in the spawn context
          some (if c.isSome then (s.store t).goto c .clearWaited else s.fail cfg c)
        | .asyncEvt => some (s.goto c .handler)
        | .other => some (s.goto c (if c.isSome then .loop else .unlock))
      else some (s.fail cfg c)
  | .clearWaited => some ({ s with isCmdRespWaited := false }.goto c .clearSync)
  -- the loop ends with `IsCmdRespWaited`
  | .clearSync => some ({ s with cmdSyncObj := false }.goto c .unlock)
  | .handler =>
    if r.send then
      some ({ s with isCmdRespWaited := false, params := none }.goto c
        (.cmdSend s.isCmdRespWaited s.params))
    else some (s.goto c (if c.isSome then .loop else .unlock))
  | .cmdSend waited params =>
    if r.ok then some ({ s with isCmdRespWaited := waited, params := params }.goto c .handler)
    else
      match cfg.handling with
      | .assert => some (s.goto c .halted)
      | .error => some ({ s with isCmdRespWaited := waited, params := params }.goto c .handler)
  | .unlock =>
    if c.isSome then some ({ s with globalLockObj := none }.goto c .spawnPending)
    else some ({ s with globalLockObj := none }.goto c .idle)
  | .spawnPending =>
    some ((if s.pending then s.slSpawn r.room else s).return c true)
  | .halted => none

/-- The frame that the device announces; a response is to the oldest command without one. -/
inductive Announced where
  | cmdResp
  | asyncEvt
  | other
  deriving DecidableEq

inductive Act (ι : Type) where
  /-- A thread calls `_SlDrvCmdOp`. -/
  | call (t : ι)
  | run (c : Option ι) (r : Run)
  | irq (f : Announced) (room : Bool)

/-- `_SlDrvRxIrqHandler`. -/
def rxIrqHandler (s : Host ι) (f : Frame ι) (room : Bool) : Host ι :=
  let s := { s with masked := true, rxIrqCnt := s.rxIrqCnt + 1, frames := s.frames ++ [f] }
  if s.isCmdRespWaited then { s with cmdSyncObj := true } else s.slSpawn room

/-- One step; nothing happens if it cannot be made. At most 255 frames are unread. -/
def hostStep (cfg : Cfg) (s : Host ι) : Act ι → Option (Host ι × Unit)
  | .call t =>
    match (s.ctxs (some t)).phase with
    | .idle => some (s.setCtx (some t) ⟨.lock, none, none⟩, ())
    | _ => some (s, ())
  | .run c r => some ((ctxStep cfg s c r).getD s, ())
  | .irq f room =>
    if (cfg.masks && s.masked) = true ∨ 255 ≤ s.frames.length then some (s, ())
    else
      match f, s.device with
      | .cmdResp, [] => some (s, ())
      | .cmdResp, t :: rest => some (rxIrqHandler { s with device := rest } (.cmdResp t) room, ())
      | .asyncEvt, _ => some (rxIrqHandler s .asyncEvt room, ())
      | .other, _ => some (rxIrqHandler s .other room, ())

/-! ## The property and the condition -/

/-- A thread that waits for its response will read what is pending; it has been signalled if it
sleeps. -/
def WillRead (s : Host ι) (t : ι) : Prop :=
  match (s.ctxs (some t)).phase with
  | .msgWrite | .loop | .msgRead | .handler | .cmdSend _ _ => s.globalLockObj = some (some t)
  | .waitSync => s.globalLockObj = some (some t) ∧ s.cmdSyncObj = true
  | _ => False

/-- The thread has its response, and will look for a pending message before it returns. -/
def Phase.ending : Phase ι → Bool
  | .clearWaited | .clearSync | .unlock | .spawnPending => true
  | _ => false

/-- An entry for `_SlDrvMsgReadSpawnCtx` runs, and has not yet read its frame. -/
def Phase.spawnReads : Phase ι → Bool
  | .lock | .checkPending | .msgRead => true
  | _ => false

/-- The frames that the entries for `_SlDrvMsgReadSpawnCtx` will read. -/
def Host.covered (s : Host ι) : Nat :=
  s.spawns + if (s.ctxs none).phase.spawnReads then 1 else 0

structure HostLaw (s : Host ι) : Prop where
  count : s.rxIrqCnt - s.rxDoneCnt = UInt8.ofNat s.frames.length ∧ s.frames.length ≤ 255
  /-- A command that returned success has the response to itself. -/
  own : ∀ t, (s.ctxs (some t)).ret = some true → (s.ctxs (some t)).answer = some t
  /-- Somebody will read what is pending. -/
  unread : s.frames ≠ [] → (∃ t, WillRead s t) ∨ (∃ t, (s.ctxs (some t)).phase.ending = true) ∨
    s.covered ≠ 0
  /-- Whoever is not in its function does not have the lock, and `IsCmdRespWaited` is false while
  nobody has it. -/
  released : (∀ c, (match (s.ctxs c).phase with | .idle => True | _ => False) →
      s.globalLockObj ≠ some c) ∧ (s.globalLockObj = none → s.isCmdRespWaited = false)

/-- Transfers do not fail, and `sl_Spawn` has room for an entry; and where interrupts cannot be masked,
no more than one frame is left by a command that has no entry for the spawn context. -/
def HostCond (cfg : Cfg) (s : Host ι) : Act ι → Prop
  | .run c r =>
    match (s.ctxs c).phase with
    | .msgWrite => r.ok = true
    | .msgRead => r.ok = true
    | .cmdSend _ _ =>
      match cfg.handling with
      | .assert => r.ok = true
      | .error => True
    | .clearWaited => cfg.masks = false → s.frames.length ≤ s.covered + 1
    | .spawnPending => s.pending = true → r.room = true
    | _ => True
  | .irq _ room => s.isCmdRespWaited = false → room = true
  | .call _ => True

/-! ## The invariant -/

def Frame.answers : Frame ι → Option ι
  | .cmdResp t => some t
  | _ => none

def Host.owed (s : Host ι) : List ι := s.frames.filterMap Frame.answers ++ s.device

/-- A command waits for its response. -/
structure Asking (s : Host ι) (t : ι) : Prop where
  waited : s.isCmdRespWaited = true
  owed : s.owed = [t]
  params : s.params = some t

structure Quiet (s : Host ι) : Prop where
  waited : s.isCmdRespWaited = false
  owed : s.owed = []

/-- What a command that has `GlobalLockObj` knows. -/
def CmdHolds (s : Host ι) (t : ι) (x : Ctx ι) : Prop :=
  match x.phase with
  | .setWaited => Quiet s
  | .msgWrite => s.isCmdRespWaited = true ∧ s.owed = []
  | .loop | .msgRead | .handler => Asking s t
  | .waitSync => Asking s t ∧ (s.frames ≠ [] → s.cmdSyncObj = true)
  | .cmdSend waited params =>
    s.isCmdRespWaited = false ∧ s.owed = [t] ∧ waited = true ∧ params = some t
  | .clearWaited => s.isCmdRespWaited = true ∧ s.owed = [] ∧ x.answer = some t
  | .clearSync | .unlock => Quiet s ∧ x.answer = some t
  | _ => False

def SpawnHolds (s : Host ι) (x : Ctx ι) : Prop :=
  Quiet s ∧
    match x.phase with
    | .checkPending | .msgRead | .handler | .unlock => True
    | .cmdSend waited _ => waited = false
    | _ => False

def HolderInv (s : Host ι) : Option ι → Prop
  | none => SpawnHolds s (s.ctxs none)
  | some t => CmdHolds s t (s.ctxs (some t))

def OutInv (s : Host ι) (c : Option ι) : Prop :=
  match (s.ctxs c).phase with
  | .idle | .lock => True
  | .spawnPending => ∃ t, c = some t ∧ (s.ctxs c).answer = some t
  | _ => False

/-- Who has the lock, and whose response is under way. -/
structure Custody (s : Host ι) : Prop where
  holder : ∀ c, s.globalLockObj = some c → HolderInv s c
  out : ∀ c, s.globalLockObj ≠ some c → OutInv s c
  free : s.globalLockObj = none → Quiet s
  own : ∀ t, (s.ctxs (some t)).ret = some true → (s.ctxs (some t)).answer = some t

/-- In `_SlDrvCmdSend`. -/
def Phase.sends : Phase ι → Bool
  | .cmdSend _ _ => true
  | _ => false

/-- The command has cleared `IsCmdRespWaited`, and will look for a pending message. -/
def Phase.looks : Phase ι → Bool
  | .clearSync | .unlock | .spawnPending => true
  | _ => false

def Waiting (s : Host ι) : Prop :=
  s.isCmdRespWaited = true ∨
    ∃ t, s.globalLockObj = some (some t) ∧ (s.ctxs (some t)).phase.sends = true

def Looking (s : Host ι) : Prop := ∃ t, (s.ctxs (some t)).phase.looks = true

structure Counts (cfg : Cfg) (s : Host ι) : Prop where
  count : s.rxIrqCnt - s.rxDoneCnt = UInt8.ofNat s.frames.length
  le : s.frames.length ≤ 255
  mask : cfg.masks = true → s.frames.length ≤ 1 ∧ (s.frames ≠ [] → s.masked = true)
  bound : ¬Waiting s → s.frames.length ≤ s.covered ∨
    Looking s ∧ s.frames.length ≤ s.covered + 1

omit [DecidableEq ι] in
theorem custody_init : Custody (hostInit : Host ι) where
  holder _ h := nomatch h
  out _ _ := trivial
  free _ := ⟨rfl, rfl⟩
  own _ h := nomatch h

omit [DecidableEq ι] in
theorem counts_init (cfg : Cfg) : Counts cfg (hostInit : Host ι) where
  count := by
    show (0 : UInt8) - 0 = UInt8.ofNat 0
    decide
  le := Nat.zero_le _
  mask _ := ⟨Nat.zero_le _, fun h => absurd rfl h⟩
  bound _ := .inl (Nat.zero_le _)

variable {cfg : Cfg} {s s' : Host ι} {c : Option ι}

/-! ### Custody -/

section

omit [DecidableEq ι]

theorem OutInv.congr {d : Option ι} (h : OutInv s d) (hd : s'.ctxs d = s.ctxs d) : OutInv s' d := by
  unfold OutInv at h ⊢
  rw [hd]
  exact h

/-- The lock is in the hands of `c`; the others are as they were. -/
theorem Custody.handed (h : Custody s) (hout : ∀ d, d ≠ c → OutInv s d)
    (hother : ∀ d, d ≠ c → s'.ctxs d = s.ctxs d) (hlock : s'.globalLockObj = some c)
    (hinv : HolderInv s' c)
    (hown : ∀ t, c = some t → (s'.ctxs c).ret = some true → (s'.ctxs c).answer = some t) :
    Custody s' where
  holder d hd := by
    obtain rfl : c = d := Option.some.inj (hlock.symm.trans hd)
    exact hinv
  out d hd := by
    have hdc : d ≠ c := fun he => hd (he ▸ hlock)
    exact (hout d hdc).congr (hother d hdc)
  free hnone := by
    rw [hlock] at hnone
    cases hnone
  own t ht := by
    by_cases htc : some t = c
    · subst htc
      exact hown t rfl ht
    · rw [hother _ htc] at ht ⊢
      exact h.own t ht

theorem Custody.held (h : Custody s) (hc : s.globalLockObj = some c)
    (hother : ∀ d, d ≠ c → s'.ctxs d = s.ctxs d) (hlock : s'.globalLockObj = some c)
    (hinv : HolderInv s' c)
    (hown : ∀ t, c = some t → (s'.ctxs c).ret = some true → (s'.ctxs c).answer = some t) :
    Custody s' :=
  h.handed (fun d hdc => h.out d fun he => hdc (Option.some.inj (he.symm.trans hc))) hother hlock
    hinv hown

theorem Custody.acquired (h : Custody s) (hfree : s.globalLockObj = none)
    (hother : ∀ d, d ≠ c → s'.ctxs d = s.ctxs d) (hlock : s'.globalLockObj = some c)
    (hinv : HolderInv s' c)
    (hown : ∀ t, c = some t → (s'.ctxs c).ret = some true → (s'.ctxs c).answer = some t) :
    Custody s' :=
  h.handed (fun d _ => h.out d (by rw [hfree]; exact nofun)) hother hlock hinv hown

theorem Custody.unlocked (h : Custody s) (hc : s.globalLockObj = some c)
    (hother : ∀ d, d ≠ c → s'.ctxs d = s.ctxs d) (hlock : s'.globalLockObj = none)
    (hq : Quiet s') (hout : OutInv s' c)
    (hown : ∀ t, c = some t → (s'.ctxs c).ret = some true → (s'.ctxs c).answer = some t) :
    Custody s' where
  holder d hd := by
    rw [hlock] at hd
    cases hd
  out d _ := by
    by_cases hdc : d = c
    · subst hdc
      exact hout
    · exact (h.out d fun he => hdc (Option.some.inj (he.symm.trans hc))).congr (hother d hdc)
  free _ := hq
  own t ht := by
    by_cases htc : some t = c
    · subst htc
      exact hown t rfl ht
    · rw [hother _ htc] at ht ⊢
      exact h.own t ht

theorem HolderInv.congr {d : Option ι} (h : HolderInv s d) (hd : s'.ctxs d = s.ctxs d)
    (hwaited : s'.isCmdRespWaited = s.isCmdRespWaited) (howed : s'.owed = s.owed)
    (hparams : s'.params = s.params)
    (hsync : s.isCmdRespWaited = true → (s.frames ≠ [] → s.cmdSyncObj = true) →
      s'.frames ≠ [] → s'.cmdSyncObj = true) :
    HolderInv s' d := by
  have hquiet : Quiet s → Quiet s' := fun hq => ⟨hwaited.trans hq.waited, howed.trans hq.owed⟩
  have hasking : ∀ t, Asking s t → Asking s' t := fun t ha =>
    ⟨hwaited.trans ha.waited, howed.trans ha.owed, hparams.trans ha.params⟩
  cases d with
  | none =>
    have h : SpawnHolds s (s.ctxs none) := h
    show SpawnHolds s' (s'.ctxs none)
    rw [hd]
    exact ⟨hquiet h.1, h.2⟩
  | some t =>
    have h : CmdHolds s t (s.ctxs (some t)) := h
    show CmdHolds s' t (s'.ctxs (some t))
    rw [hd]
    unfold CmdHolds at h ⊢
    cases hphase : (s.ctxs (some t)).phase with
    | setWaited => rw [hphase] at h; exact hquiet h
    | msgWrite => rw [hphase] at h; exact ⟨hwaited.trans h.1, howed.trans h.2⟩
    | loop => rw [hphase] at h; exact hasking t h
    | msgRead => rw [hphase] at h; exact hasking t h
    | handler => rw [hphase] at h; exact hasking t h
    | waitSync => rw [hphase] at h; exact ⟨hasking t h.1, hsync h.1.waited h.2⟩
    | cmdSend _ _ => rw [hphase] at h; exact ⟨hwaited.trans h.1, howed.trans h.2.1, h.2.2⟩
    | clearWaited => rw [hphase] at h; exact ⟨hwaited.trans h.1, howed.trans h.2.1, h.2.2⟩
    | clearSync => rw [hphase] at h; exact ⟨hquiet h.1, h.2⟩
    | unlock => rw [hphase] at h; exact ⟨hquiet h.1, h.2⟩
    | _ => rw [hphase] at h; exact h.elim

theorem Custody.outside (h : Custody s) (hc : s.globalLockObj ≠ some c)
    (hother : ∀ d, d ≠ c → s'.ctxs d = s.ctxs d) (hlock : s'.globalLockObj = s.globalLockObj)
    (hwaited : s'.isCmdRespWaited = s.isCmdRespWaited) (hframes : s'.frames = s.frames)
    (hdevice : s'.device = s.device) (hparams : s'.params = s.params)
    (hsync : s'.cmdSyncObj = s.cmdSyncObj) (hout : OutInv s' c)
    (hown : ∀ t, c = some t → (s'.ctxs c).ret = some true → (s'.ctxs c).answer = some t) :
    Custody s' where
  holder d hd := by
    rw [hlock] at hd
    have hdc : d ≠ c := fun he => hc (he ▸ hd)
    refine (h.holder d hd).congr (hother d hdc) hwaited ?_ hparams ?_
    · unfold Host.owed
      rw [hframes, hdevice]
    · rw [hframes, hsync]
      exact fun _ => id
  out d hd := by
    by_cases hdc : d = c
    · subst hdc
      exact hout
    · rw [hlock] at hd
      exact (h.out d hd).congr (hother d hdc)
  free hnone := by
    rw [hlock] at hnone
    have hq := h.free hnone
    refine ⟨hwaited.trans hq.waited, ?_⟩
    unfold Host.owed
    rw [hframes, hdevice]
    exact hq.owed
  own t ht := by
    by_cases htc : some t = c
    · subst htc
      exact hown t rfl ht
    · rw [hother _ htc] at ht ⊢
      exact h.own t ht

/-! ### Counts -/

theorem Looking.keep (h : Looking s) (hother : ∀ d, d ≠ c → s'.ctxs d = s.ctxs d)
    (hc : ∀ t, c = some t → (s.ctxs c).phase.looks = true → (s'.ctxs c).phase.looks = true) :
    Looking s' := by
  obtain ⟨t, ht⟩ := h
  refine ⟨t, ?_⟩
  by_cases htc : some t = c
  · subst htc
    exact hc t rfl ht
  · rw [hother _ htc]
    exact ht

theorem Waiting.keep (h : Waiting s) (hother : ∀ d, d ≠ c → s'.ctxs d = s.ctxs d)
    (hlock : s'.globalLockObj = s.globalLockObj)
    (hwaited : s'.isCmdRespWaited = s.isCmdRespWaited)
    (hc : ∀ t, c = some t → (s.ctxs c).phase.sends = false) : Waiting s' := by
  refine h.imp (fun hw => hwaited.trans hw) fun ⟨t, ht, hs⟩ => ⟨t, hlock.trans ht, ?_⟩
  by_cases htc : some t = c
  · subst htc
    rw [hc t rfl] at hs
    cases hs
  · rw [hother _ htc]
    exact hs

theorem Counts.same (k : Counts cfg s) (hirq : s'.rxIrqCnt = s.rxIrqCnt)
    (hdone : s'.rxDoneCnt = s.rxDoneCnt) (hframes : s'.frames = s.frames)
    (hmasked : s'.masked = s.masked)
    (hbound : ¬Waiting s' → s'.frames.length ≤ s'.covered ∨
      Looking s' ∧ s'.frames.length ≤ s'.covered + 1) : Counts cfg s' where
  count := by
    rw [hirq, hdone, hframes]
    exact k.count
  le := by
    rw [hframes]
    exact k.le
  mask := by
    rw [hframes, hmasked]
    exact k.mask
  bound := hbound

theorem Counts.read (k : Counts cfg s) {f : Frame ι} {rest : List (Frame ι)}
    (hlist : s.frames = f :: rest) (hirq : s'.rxIrqCnt = s.rxIrqCnt)
    (hdone : s'.rxDoneCnt = s.rxDoneCnt + 1) (hframes : s'.frames = rest)
    (hbound : ¬Waiting s' → s'.frames.length ≤ s'.covered ∨
      Looking s' ∧ s'.frames.length ≤ s'.covered + 1) : Counts cfg s' where
  count := by
    have hcount := k.count
    rw [hlist, List.length_cons] at hcount
    have hone : UInt8.ofNat (rest.length + 1) = UInt8.ofNat rest.length + 1 := by
      rw [UInt8.ofNat_add]
      rfl
    rw [hone] at hcount
    rw [hirq, hdone, hframes]
    grind
  le := by
    have hle := k.le
    rw [hlist, List.length_cons] at hle
    rw [hframes]
    omega
  mask hm := by
    have hle := (k.mask hm).1
    rw [hlist, List.length_cons] at hle
    have hnil : rest = [] := List.length_eq_zero_iff.1 (by omega)
    rw [hframes, hnil]
    exact ⟨Nat.zero_le _, fun hne => absurd rfl hne⟩
  bound := hbound

end

@[simp] theorem goto_self (s : Host ι) (c : Option ι) (p : Phase ι) :
    (s.goto c p).ctxs c = { s.ctxs c with phase := p } := by
  simp [Host.goto, Host.setCtx]

theorem goto_other (s : Host ι) {c d : Option ι} (h : d ≠ c) (p : Phase ι) :
    (s.goto c p).ctxs d = s.ctxs d := by
  simp [Host.goto, Host.setCtx, h]

theorem covered_goto (s : Host ι) (t : ι) (p : Phase ι) :
    (s.goto (some t) p).covered = s.covered := by
  have hne : (none : Option ι) ≠ some t := nofun
  unfold Host.covered
  rw [goto_other s hne]
  rfl

theorem Looking.goto {t : ι} (h : Looking s) (hctxs : s'.ctxs = s.ctxs) {p : Phase ι}
    (hlook : (s.ctxs (some t)).phase.looks = true → p.looks = true) :
    Looking (s'.goto (some t) p) := by
  refine h.keep (c := some t) (fun d hd => ?_) fun u hu hs => ?_
  · rw [goto_other _ hd, hctxs]
  · rw [goto_self]
    exact hlook hs

theorem Custody.cmdGoto {t : ι} (h : Custody s) (hc : s.globalLockObj = some (some t)) {p : Phase ι}
    (hinv : CmdHolds (s'.goto (some t) p) t { s.ctxs (some t) with phase := p })
    (hctxs : s'.ctxs = s.ctxs) (hlock : s'.globalLockObj = s.globalLockObj) :
    Custody (s'.goto (some t) p) := by
  refine h.held hc (fun d hd => ?_) (hlock.trans hc) ?_ (fun u hu => ?_)
  · rw [goto_other _ hd, hctxs]
  · show CmdHolds _ t _
    rw [goto_self, hctxs]
    exact hinv
  · cases hu
    rw [goto_self, hctxs]
    exact h.own t

theorem Custody.spawnGoto (h : Custody s) (hc : s.globalLockObj = some none) {p : Phase ι}
    (hinv : SpawnHolds (s'.goto none p) { s.ctxs none with phase := p })
    (hctxs : s'.ctxs = s.ctxs) (hlock : s'.globalLockObj = s.globalLockObj) :
    Custody (s'.goto none p) := by
  refine h.held hc (fun d hd => ?_) (hlock.trans hc) ?_ nofun
  · rw [goto_other _ hd, hctxs]
  · show SpawnHolds _ _
    rw [goto_self, hctxs]
    exact hinv

theorem Counts.cmdWaits {t : ι} (k : Counts cfg s) {p : Phase ι}
    (hw : s'.isCmdRespWaited = true ∨ s'.globalLockObj = some (some t) ∧ p.sends = true)
    (hframes : s'.frames = s.frames) (hirq : s'.rxIrqCnt = s.rxIrqCnt)
    (hdone : s'.rxDoneCnt = s.rxDoneCnt) (hmasked : s'.masked = s.masked) :
    Counts cfg (s'.goto (some t) p) := by
  refine k.same hirq hdone hframes hmasked fun hnot => absurd ?_ hnot
  rcases hw with hw | ⟨hlock, hp⟩
  · exact .inl hw
  · refine .inr ⟨t, hlock, ?_⟩
    rw [goto_self]
    exact hp

theorem Counts.cmdLooks {t : ι} (k : Counts cfg s) (hnot : ¬Waiting s) {p : Phase ι}
    (hlook : (s.ctxs (some t)).phase.looks = true → p.looks = true)
    (hctxs : s'.ctxs = s.ctxs) (hframes : s'.frames = s.frames)
    (hspawns : s'.spawns = s.spawns) (hirq : s'.rxIrqCnt = s.rxIrqCnt)
    (hdone : s'.rxDoneCnt = s.rxDoneCnt) (hmasked : s'.masked = s.masked) :
    Counts cfg (s'.goto (some t) p) := by
  refine k.same hirq hdone hframes hmasked fun _ => ?_
  have hcov : (s'.goto (some t) p).covered = s.covered := by
    rw [covered_goto]
    unfold Host.covered
    rw [hspawns, hctxs]
  rw [hcov]
  show s'.frames.length ≤ _ ∨ _ ∧ s'.frames.length ≤ _
  rw [hframes]
  exact (k.bound hnot).imp_right fun ⟨hl, hle⟩ => ⟨hl.goto hctxs hlook, hle⟩

omit [DecidableEq ι] in
theorem Quiet.not_waiting {t : ι} (h : Quiet s) (hc : s.globalLockObj = some (some t))
    (hp : (s.ctxs (some t)).phase.sends = false) : ¬Waiting s := by
  rintro (hw | ⟨u, hu, hs⟩)
  · rw [h.waited] at hw
    cases hw
  · obtain rfl : t = u := Option.some.inj (Option.some.inj (hc.symm.trans hu))
    rw [hp] at hs
    cases hs

omit [DecidableEq ι] in
theorem owed_write (h : s.owed = []) (t : ι) :
    ({ s with params := some t, device := s.device ++ [t] } : Host ι).owed = [t] := by
  have hnil : s.frames.filterMap Frame.answers ++ s.device = [] := h
  show s.frames.filterMap Frame.answers ++ (s.device ++ [t]) = [t]
  rw [← List.append_assoc, hnil]
  rfl

omit [DecidableEq ι] in
theorem owed_took {rest : List (Frame ι)} {f : Frame ι} (h : s.frames = f :: rest) :
    s.owed = f.answers.toList ++ (s.took rest).owed := by
  unfold Host.owed Host.took
  rw [h]
  cases f <;> rfl

omit [DecidableEq ι] in
theorem Counts.pending_iff (k : Counts cfg s) : s.pending = true ↔ s.frames ≠ [] := by
  have hcount := k.count
  have hle := k.le
  unfold Host.pending
  rw [bne_iff_ne, ← List.length_pos_iff]
  constructor
  · intro hne
    by_contra hzero
    rw [Nat.eq_zero_of_not_pos hzero] at hcount
    exact hne (by grind)
  · intro hpos he
    rw [he, UInt8.sub_self] at hcount
    have hnat := congrArg UInt8.toNat hcount
    rw [UInt8.toNat_ofNat_of_lt' (by show _ < 256; omega)] at hnat
    exact absurd hnat (by show 0 ≠ _; omega)

theorem store_params {t : ι} (h : s.params = some t) (u : ι) :
    s.store u = s.setCtx (some t) { s.ctxs (some t) with answer := some u } := by
  unfold Host.store
  rw [h]

theorem cmdRead_inv (h : Custody s) (k : Counts cfg s) {t : ι} {f : Frame ι}
    {rest : List (Frame ι)} (hc : s.globalLockObj = some (some t)) (ha : Asking s t)
    (hlist : s.frames = f :: rest) :
    let s' := match f with
      | .cmdResp u => ((s.took rest).store u).goto (some t) .clearWaited
      | .asyncEvt => (s.took rest).goto (some t) .handler
      | .other => (s.took rest).goto (some t) .loop
    Custody s' ∧ Counts cfg s' := by
  intro s'
  have howed := owed_took hlist
  rw [ha.owed] at howed
  cases f with
  | cmdResp u =>
    obtain ⟨rfl, hnone⟩ := List.cons.inj howed
    have hparams : (s.took rest).params = some t := ha.params
    have hstore := store_params hparams t
    show Custody (((s.took rest).store t).goto _ _) ∧ Counts cfg (((s.took rest).store t).goto _ _)
    rw [hstore]
    refine ⟨h.held hc (fun d hd => ?_) hc ?_ (fun v hv => ?_), ?_⟩
    · rw [goto_other _ hd]
      exact Function.update_of_ne hd _ _
    · show CmdHolds _ _ _
      rw [goto_self]
      exact ⟨ha.waited, hnone.symm, by simp [Host.setCtx]⟩
    · cases hv
      rw [goto_self]
      intro _
      simp [Host.setCtx]
    · exact k.read hlist rfl rfl rfl fun hnot => absurd (Or.inl ha.waited) hnot
  | asyncEvt =>
    refine ⟨h.cmdGoto hc ?_ rfl rfl,
      k.read hlist rfl rfl rfl fun hnot => absurd (Or.inl ha.waited) hnot⟩
    exact Asking.mk ha.waited howed.symm ha.params
  | other =>
    refine ⟨h.cmdGoto hc ?_ rfl rfl,
      k.read hlist rfl rfl rfl fun hnot => absurd (Or.inl ha.waited) hnot⟩
    exact Asking.mk ha.waited howed.symm ha.params

theorem cmdHolder_inv (h : Custody s) (k : Counts cfg s) {t : ι} {r : Run}
    (hc : s.globalLockObj = some (some t)) (hcond : HostCond cfg s (.run (some t) r))
    (hs : ctxStep cfg s (some t) r = some s') : Custody s' ∧ Counts cfg s' := by
  have hh : CmdHolds s t (s.ctxs (some t)) := h.holder _ hc
  unfold ctxStep at hs
  unfold HostCond at hcond
  unfold CmdHolds at hh
  cases hp : (s.ctxs (some t)).phase with
  | setWaited =>
    simp only [hp] at hs hh
    cases hs
    refine ⟨h.cmdGoto hc ?_ rfl rfl, k.cmdWaits (by exact .inl rfl) rfl rfl rfl rfl⟩
    exact And.intro rfl hh.owed
  | msgWrite =>
    simp only [hp] at hs hh hcond
    simp only [hcond, if_true] at hs
    cases hs
    refine ⟨h.cmdGoto hc ?_ rfl rfl, k.cmdWaits (by exact .inl hh.1) rfl rfl rfl rfl⟩
    exact Asking.mk hh.1 (owed_write hh.2 t) rfl
  | loop =>
    simp only [hp] at hs hh
    rw [if_pos hh.waited] at hs
    cases hs
    refine ⟨h.cmdGoto hc ?_ rfl rfl, k.cmdWaits (by exact .inl hh.waited) rfl rfl rfl rfl⟩
    by_cases hpend : s.pending = true
    · rw [if_pos hpend]
      exact Asking.mk hh.waited hh.owed hh.params
    · rw [if_neg hpend]
      refine And.intro (Asking.mk hh.waited hh.owed hh.params) fun hne => ?_
      exact absurd (k.pending_iff.2 hne) hpend
  | waitSync =>
    simp only [hp] at hs hh
    split at hs
    · cases hs
      refine ⟨h.cmdGoto hc ?_ rfl rfl, k.cmdWaits (by exact .inl hh.1.waited) rfl rfl rfl rfl⟩
      exact Asking.mk hh.1.waited hh.1.owed hh.1.params
    · cases hs
  | msgRead =>
    simp only [hp] at hs hh hcond
    cases hlist : s.frames with
    | nil =>
      rw [hlist] at hs
      cases hs
    | cons f rest =>
      have hread := cmdRead_inv h k hc hh hlist
      simp only [hlist, hcond, if_true, Option.isSome_some] at hs
      cases f with
      | cmdResp u => cases hs; exact hread
      | asyncEvt => cases hs; exact hread
      | other => cases hs; exact hread
  | handler =>
    simp only [hp] at hs hh
    split at hs
    · cases hs
      refine ⟨h.cmdGoto hc ?_ rfl rfl, k.cmdWaits (by exact .inr ⟨hc, rfl⟩) rfl rfl rfl rfl⟩
      exact And.intro rfl ⟨hh.owed, hh.waited, hh.params⟩
    · cases hs
      refine ⟨h.cmdGoto hc ?_ rfl rfl, k.cmdWaits (by exact .inl hh.waited) rfl rfl rfl rfl⟩
      exact Asking.mk hh.waited hh.owed hh.params
  | cmdSend waited params =>
    simp only [hp] at hs hh hcond
    obtain ⟨-, howed, rfl, rfl⟩ := hh
    have he : s' = ({ s with isCmdRespWaited := true, params := some t } : Host ι).goto
        (some t) .handler := by
      cases hok : r.ok with
      | true => simpa [hok] using hs.symm
      | false =>
        cases hcfg : cfg.handling with
        | assert => simp [hok, hcfg] at hcond
        | error => simpa [hok, hcfg] using hs.symm
    subst he
    refine ⟨h.cmdGoto hc ?_ rfl rfl, k.cmdWaits (by exact .inl rfl) rfl rfl rfl rfl⟩
    exact Asking.mk rfl howed rfl
  | clearWaited =>
    simp only [hp] at hs hh hcond
    cases hs
    refine ⟨h.cmdGoto hc ?_ rfl rfl, k.same rfl rfl rfl rfl fun _ => .inr ⟨⟨t, ?_⟩, ?_⟩⟩
    · exact And.intro ⟨rfl, hh.2.1⟩ hh.2.2
    · rw [goto_self]
      rfl
    · rw [covered_goto]
      cases hm : cfg.masks with
      | false => exact hcond hm
      | true => exact (k.mask hm).1.trans (Nat.le_add_left _ _)
  | clearSync =>
    simp only [hp] at hs hh
    cases hs
    refine ⟨h.cmdGoto hc ?_ rfl rfl, k.cmdLooks (hh.1.not_waiting hc (by rw [hp]; rfl)) (fun _ => rfl)
      rfl rfl rfl rfl rfl rfl⟩
    exact And.intro ⟨hh.1.waited, hh.1.owed⟩ hh.2
  | unlock =>
    simp only [hp, Option.isSome_some, if_true] at hs hh
    cases hs
    refine ⟨h.unlocked hc (fun d hd => goto_other _ hd _) rfl ⟨hh.1.waited, hh.1.owed⟩ ?_ ?_,
      k.cmdLooks (hh.1.not_waiting hc (by rw [hp]; rfl)) (fun _ => rfl)
      rfl rfl rfl rfl rfl rfl⟩
    · show OutInv _ _
      unfold OutInv
      rw [goto_self]
      exact ⟨t, rfl, hh.2⟩
    · intro u hu _
      cases hu
      rw [goto_self]
      exact hh.2
  | idle => simp only [hp] at hh
  | lock => simp only [hp] at hh
  | checkPending => simp only [hp] at hh
  | spawnPending => simp only [hp] at hh
  | halted => simp only [hp] at hh

omit [DecidableEq ι] in
theorem Quiet.not_waiting_of_ne (h : Quiet s) (hc : ∀ t, s.globalLockObj ≠ some (some t)) :
    ¬Waiting s := by
  rintro (hw | ⟨u, hu, -⟩)
  · rw [h.waited] at hw
    cases hw
  · exact hc u hu

theorem cmdOut_inv (h : Custody s) (k : Counts cfg s) {t : ι} {r : Run}
    (hc : s.globalLockObj ≠ some (some t)) (hcond : HostCond cfg s (.run (some t) r))
    (hs : ctxStep cfg s (some t) r = some s') :
    Custody s' ∧ Counts cfg s' := by
  have hh := h.out _ hc
  unfold ctxStep at hs
  unfold OutInv at hh
  cases hp : (s.ctxs (some t)).phase with
  | lock =>
    simp only [hp, Option.isSome_some, if_true] at hs
    cases hlock : s.globalLockObj with
    | some _ =>
      rw [hlock] at hs
      cases hs
    | none =>
      simp only [hlock] at hs
      cases hs
      have hq := h.free hlock
      have hnot : ¬Waiting s := hq.not_waiting_of_ne (by rw [hlock]; exact nofun)
      refine ⟨h.acquired hlock (fun d hd => goto_other _ hd _) rfl ?_ ?_,
        k.cmdLooks hnot (by rw [hp]; exact nofun) rfl rfl rfl rfl rfl rfl⟩
      · show CmdHolds _ _ _
        rw [goto_self]
        exact Quiet.mk hq.waited hq.owed
      · intro u hu
        cases hu
        rw [goto_self]
        exact h.own t
  | spawnPending =>
    simp only [hp] at hs hh
    have hroom : (if s.pending then s.slSpawn r.room else s) =
        { s with spawns := if s.pending then s.spawns + 1 else s.spawns } := by
      unfold HostCond at hcond
      simp only [hp] at hcond
      split
      · rename_i hpend
        unfold Host.slSpawn
        rw [hcond hpend, if_pos rfl]
      · rfl
    rw [hroom] at hs
    cases hs
    obtain ⟨u, hu, hanswer⟩ := hh
    cases hu
    have hother : ∀ d, d ≠ some t → (({ s with
        spawns := if s.pending then s.spawns + 1 else s.spawns } : Host ι).return (some t)
          true).ctxs d = s.ctxs d := fun d hd => Function.update_of_ne hd _ _
    refine ⟨h.outside hc hother rfl rfl rfl rfl rfl rfl ?_ ?_, k.same rfl rfl rfl rfl ?_⟩
    · simp [OutInv, Host.return, Host.setCtx]
    · intro u hu _
      cases hu
      simpa [Host.return, Host.setCtx] using hanswer
    · intro hnot
      have hnot' : ¬Waiting s := fun hw =>
        hnot (hw.keep hother rfl rfl fun _ _ => by rw [hp]; rfl)
      have hne : (none : Option ι) ≠ some t := nofun
      have hbound := k.bound hnot'
      left
      unfold Host.covered at hbound ⊢
      rw [hother _ hne]
      show s.frames.length ≤ (if s.pending then s.spawns + 1 else s.spawns) + _
      by_cases hpend : s.pending = true
      · rw [if_pos hpend]
        omega
      · have hnil : s.frames = [] := by
          by_contra hne
          exact hpend (k.pending_iff.2 hne)
        rw [hnil]
        exact Nat.zero_le _
  | idle => simp only [hp, reduceCtorEq] at hs
  | _ => simp only [hp] at hh

theorem Counts.spawnGoto (k : Counts cfg s) (hnot : ¬Waiting s) {p : Phase ι}
    (hcov : s.frames ≠ [] → s.covered ≤ s'.spawns + if p.spawnReads then 1 else 0)
    (hctxs : s'.ctxs = s.ctxs) (hframes : s'.frames = s.frames)
    (hirq : s'.rxIrqCnt = s.rxIrqCnt) (hdone : s'.rxDoneCnt = s.rxDoneCnt)
    (hmasked : s'.masked = s.masked) : Counts cfg (s'.goto none p) := by
  refine k.same hirq hdone hframes hmasked fun _ => ?_
  by_cases hnil : s.frames = []
  · left
    show s'.frames.length ≤ _
    rw [hframes, hnil]
    exact Nat.zero_le _
  · have hcovered : s.covered ≤ (s'.goto none p).covered := by
      unfold Host.covered at hcov ⊢
      rw [goto_self]
      exact hcov hnil
    show s'.frames.length ≤ _ ∨ _ ∧ s'.frames.length ≤ _
    rw [hframes]
    refine (k.bound hnot).imp (fun hle => hle.trans hcovered) fun ⟨hl, hle⟩ => ⟨?_, by omega⟩
    refine hl.keep (c := none) (fun d hd => ?_) nofun
    rw [goto_other _ hd, hctxs]

theorem spawnRead_inv (h : Custody s) (k : Counts cfg s) {f : Frame ι} {rest : List (Frame ι)}
    (hc : s.globalLockObj = some none) (hq : Quiet s) (hp : (s.ctxs none).phase.spawnReads = true)
    (hlist : s.frames = f :: rest) :
    f.answers = none ∧ ∀ p : Phase ι, p = .handler ∨ p = .unlock →
      Custody ((s.took rest).goto none p) ∧ Counts cfg ((s.took rest).goto none p) := by
  have howed := owed_took hlist
  rw [hq.owed] at howed
  obtain ⟨hf, hrest⟩ := List.append_eq_nil_iff.1 howed.symm
  refine ⟨Option.toList_eq_nil_iff.1 hf, fun p hpp =>
    ⟨h.spawnGoto hc ⟨⟨hq.waited, hrest⟩, ?_⟩ rfl rfl, ?_⟩⟩
  · rcases hpp with rfl | rfl <;> exact trivial
  · have hnot : ¬Waiting s := hq.not_waiting_of_ne (by rw [hc]; exact nofun)
    refine k.read hlist rfl rfl rfl fun _ => ?_
    have hbound := k.bound hnot
    rw [hlist, List.length_cons] at hbound
    have hcovered : s.covered ≤ ((s.took rest).goto none p).covered + 1 := by
      unfold Host.covered
      rw [hp]
      show s.spawns + 1 ≤ s.spawns + _ + 1
      omega
    refine hbound.imp (fun hle => ?_) fun ⟨hl, hle⟩ => ⟨hl.keep (c := none) (fun d hd => ?_) nofun, ?_⟩
    · show rest.length ≤ _
      omega
    · rw [goto_other _ hd]
      rfl
    · show rest.length ≤ _
      omega

theorem spawnHolder_inv (h : Custody s) (k : Counts cfg s) {r : Run}
    (hc : s.globalLockObj = some none) (hcond : HostCond cfg s (.run none r))
    (hs : ctxStep cfg s none r = some s') : Custody s' ∧ Counts cfg s' := by
  have hh : SpawnHolds s (s.ctxs none) := h.holder _ hc
  have hq := hh.1
  have hnot : ¬Waiting s := hq.not_waiting_of_ne (by rw [hc]; exact nofun)
  have hh := hh.2
  unfold ctxStep at hs
  unfold HostCond at hcond
  cases hp : (s.ctxs none).phase with
  | checkPending =>
    simp only [hp] at hs
    cases hs
    refine ⟨h.spawnGoto hc ⟨⟨hq.waited, hq.owed⟩, ?_⟩ rfl rfl,
      k.spawnGoto hnot (fun hne => ?_) rfl rfl rfl rfl rfl⟩
    · by_cases hpend : s.pending = true
      · rw [if_pos hpend]
        trivial
      · rw [if_neg hpend]
        trivial
    · rw [if_pos (k.pending_iff.2 hne)]
      unfold Host.covered
      rw [hp]
      exact le_rfl
  | msgRead =>
    simp only [hp] at hs hcond
    cases hlist : s.frames with
    | nil =>
      rw [hlist] at hs
      cases hs
    | cons f rest =>
      obtain ⟨hf, hread⟩ := spawnRead_inv h k hc hq (by rw [hp]; rfl) hlist
      simp only [hlist, hcond, if_true] at hs
      cases f with
      | cmdResp u => cases hf
      | asyncEvt => cases hs; exact hread _ (.inl rfl)
      | other => cases hs; exact hread _ (.inr rfl)
  | handler =>
    simp only [hp] at hs
    have hcov : s.covered = s.spawns := by
      unfold Host.covered
      rw [hp]
      rfl
    split at hs
    · cases hs
      refine ⟨h.spawnGoto hc ⟨⟨rfl, hq.owed⟩, hq.waited⟩ rfl rfl,
        k.spawnGoto hnot (fun _ => ?_) rfl rfl rfl rfl rfl⟩
      exact hcov.le
    · cases hs
      refine ⟨h.spawnGoto hc ⟨⟨hq.waited, hq.owed⟩, trivial⟩ rfl rfl,
        k.spawnGoto hnot (fun _ => ?_) rfl rfl rfl rfl rfl⟩
      exact hcov.le
  | cmdSend waited params =>
    simp only [hp] at hs hh hcond
    obtain rfl := hh
    have hcov : s.covered = s.spawns := by
      unfold Host.covered
      rw [hp]
      rfl
    have he : s' = ({ s with isCmdRespWaited := false, params := params } : Host ι).goto
        none .handler := by
      cases hok : r.ok with
      | true => simpa [hok] using hs.symm
      | false =>
        cases hcfg : cfg.handling with
        | assert => simp [hok, hcfg] at hcond
        | error => simpa [hok, hcfg] using hs.symm
    subst he
    refine ⟨h.spawnGoto hc ⟨⟨rfl, hq.owed⟩, trivial⟩ rfl rfl,
      k.spawnGoto hnot (fun _ => ?_) rfl rfl rfl rfl rfl⟩
    exact hcov.le
  | unlock =>
    simp only [hp] at hs
    cases hs
    refine ⟨h.unlocked hc (fun d hd => goto_other _ hd _) rfl ⟨hq.waited, hq.owed⟩ ?_ nofun,
      k.spawnGoto hnot (fun _ => ?_) rfl rfl rfl rfl rfl⟩
    · show OutInv _ _
      unfold OutInv
      rw [goto_self]
      trivial
    · unfold Host.covered
      rw [hp]
      exact le_rfl
  | _ => simp only [hp] at hh

theorem spawnOut_inv (h : Custody s) (k : Counts cfg s) {r : Run}
    (hc : s.globalLockObj ≠ some none) (hs : ctxStep cfg s none r = some s') :
    Custody s' ∧ Counts cfg s' := by
  have hh := h.out _ hc
  unfold ctxStep at hs
  unfold OutInv at hh
  cases hp : (s.ctxs none).phase with
  | idle =>
    simp only [hp] at hs
    split at hs
    · cases hs
    · rename_i hspawns
      cases hs
      refine ⟨h.outside hc (fun d hd => goto_other _ hd _) rfl rfl rfl rfl rfl rfl ?_ nofun, ?_⟩
      · unfold OutInv
        rw [goto_self]
        trivial
      · by_cases hw : Waiting s
        · refine k.same rfl rfl rfl rfl fun hnot => absurd ?_ hnot
          exact hw.keep (fun d hd => goto_other _ hd _) rfl rfl nofun
        · refine k.spawnGoto hw (fun _ => ?_) rfl rfl rfl rfl rfl
          unfold Host.covered
          rw [hp]
          show s.spawns + 0 ≤ s.spawns - 1 + 1
          omega
  | lock =>
    simp only [hp, Option.isSome_none, Bool.false_eq_true, if_false] at hs
    cases hlock : s.globalLockObj with
    | some _ =>
      rw [hlock] at hs
      cases hs
    | none =>
      simp only [hlock] at hs
      cases hs
      have hq := h.free hlock
      have hnot : ¬Waiting s := hq.not_waiting_of_ne (by rw [hlock]; exact nofun)
      refine ⟨h.acquired hlock (fun d hd => goto_other _ hd _) rfl ?_ nofun,
        k.spawnGoto hnot (fun _ => ?_) rfl rfl rfl rfl rfl⟩
      · unfold HolderInv SpawnHolds
        rw [goto_self]
        exact ⟨⟨hq.waited, hq.owed⟩, trivial⟩
      · unfold Host.covered
        rw [hp]
        exact le_rfl
  | spawnPending =>
    simp only [hp] at hh
    obtain ⟨_, hne, -⟩ := hh
    cases hne
  | _ => simp only [hp] at hh

theorem ctxStep_inv (h : Custody s) (k : Counts cfg s) {r : Run}
    (hcond : HostCond cfg s (.run c r)) (hs : ctxStep cfg s c r = some s') :
    Custody s' ∧ Counts cfg s' := by
  by_cases hc : s.globalLockObj = some c
  · cases c with
    | none => exact spawnHolder_inv h k hc hcond hs
    | some t => exact cmdHolder_inv h k hc hcond hs
  · cases c with
    | none => exact spawnOut_inv h k hc hs
    | some t => exact cmdOut_inv h k hc hcond hs

/-- A thread calls `_SlDrvCmdOp`. -/
theorem call_inv (h : Custody s) (k : Counts cfg s) {t : ι}
    (hp : (s.ctxs (some t)).phase = .idle) :
    Custody (s.setCtx (some t) ⟨.lock, none, none⟩) ∧
      Counts cfg (s.setCtx (some t) ⟨.lock, none, none⟩) := by
  have hother : ∀ d, d ≠ some t → (s.setCtx (some t) ⟨.lock, none, none⟩).ctxs d = s.ctxs d :=
    fun d hd => Function.update_of_ne hd _ _
  have hself : (s.setCtx (some t) ⟨.lock, none, none⟩).ctxs (some t) = ⟨.lock, none, none⟩ :=
    Function.update_self _ _ _
  have hc : s.globalLockObj ≠ some (some t) := by
    intro hc
    have hh : CmdHolds s t (s.ctxs (some t)) := h.holder _ hc
    unfold CmdHolds at hh
    simp only [hp] at hh
  refine ⟨h.outside hc hother rfl rfl rfl rfl rfl rfl ?_ ?_, k.same rfl rfl rfl rfl ?_⟩
  · unfold OutInv
    rw [hself]
    trivial
  · intro u hu hret
    rw [hself] at hret
    cases hret
  · intro hnot
    have hnot' : ¬Waiting s := fun hw => hnot (hw.keep hother rfl rfl fun _ _ => by rw [hp]; rfl)
    have hne : (none : Option ι) ≠ some t := nofun
    have hcov : (s.setCtx (some t) ⟨.lock, none, none⟩).covered = s.covered := by
      unfold Host.covered
      rw [hother _ hne]
      rfl
    rw [hcov]
    refine (k.bound hnot').imp_right fun ⟨hl, hle⟩ => ⟨?_, hle⟩
    refine hl.keep hother fun u hu hlook => ?_
    rw [hp] at hlook
    cases hlook

section

omit [DecidableEq ι]

theorem Custody.announced (h : Custody s) (hctxs : s'.ctxs = s.ctxs)
    (hlock : s'.globalLockObj = s.globalLockObj)
    (hwaited : s'.isCmdRespWaited = s.isCmdRespWaited) (hparams : s'.params = s.params)
    (howed : s'.owed = s.owed) (hsync : s.isCmdRespWaited = true → s'.cmdSyncObj = true) :
    Custody s' where
  holder c hc := by
    rw [hlock] at hc
    exact (h.holder c hc).congr (by rw [hctxs]) hwaited howed hparams fun hw _ _ => hsync hw
  out c hc := by
    rw [hlock] at hc
    exact (h.out c hc).congr (by rw [hctxs])
  free hnone := by
    rw [hlock] at hnone
    have hq := h.free hnone
    exact ⟨hwaited.trans hq.waited, howed.trans hq.owed⟩
  own t ht := by
    rw [hctxs] at ht ⊢
    exact h.own t ht

theorem Counts.announced (k : Counts cfg s) {f : Frame ι} (hframes : s'.frames = s.frames ++ [f])
    (hirq : s'.rxIrqCnt = s.rxIrqCnt + 1) (hdone : s'.rxDoneCnt = s.rxDoneCnt)
    (hmasked : s'.masked = true) (hmask : cfg.masks = true → s.masked = false)
    (hlen : s.frames.length < 255)
    (hbound : ¬Waiting s' → s'.frames.length ≤ s'.covered ∨
      Looking s' ∧ s'.frames.length ≤ s'.covered + 1) : Counts cfg s' where
  count := by
    have hcount := k.count
    have hone : UInt8.ofNat (s.frames.length + 1) = UInt8.ofNat s.frames.length + 1 := by
      rw [UInt8.ofNat_add]
      rfl
    rw [hframes, List.length_append, List.length_singleton, hone, hirq, hdone]
    grind
  le := by
    rw [hframes, List.length_append, List.length_singleton]
    omega
  mask hm := by
    have hnil : s.frames = [] := by
      by_contra hne
      have htrue := (k.mask hm).2 hne
      rw [hmask hm] at htrue
      cases htrue
    rw [hframes, hnil]
    exact ⟨le_rfl, fun _ => hmasked⟩
  bound := hbound

theorem owed_irq {f : Frame ι} {rest : List ι} (h : s.device = f.answers.toList ++ rest)
    (hframes : s'.frames = s.frames ++ [f]) (hdevice : s'.device = rest) : s'.owed = s.owed := by
  unfold Host.owed
  rw [hframes, hdevice, h, List.filterMap_append, List.append_assoc]
  cases f <;> rfl

theorem irq_inv (h : Custody s) (k : Counts cfg s) {f : Frame ι} {rest : List ι} {room : Bool}
    (hdevice : s.device = f.answers.toList ++ rest) (hmask : cfg.masks = true → s.masked = false)
    (hlen : s.frames.length < 255) (hroom : s.isCmdRespWaited = false → room = true) :
    Custody (rxIrqHandler { s with device := rest } f room) ∧
      Counts cfg (rxIrqHandler { s with device := rest } f room) := by
  have howed : ∀ s' : Host ι, s'.frames = s.frames ++ [f] → s'.device = rest → s'.owed = s.owed :=
    fun s' => owed_irq hdevice
  unfold rxIrqHandler
  by_cases hw : s.isCmdRespWaited = true
  · rw [if_pos hw]
    refine ⟨h.announced rfl rfl rfl rfl (howed _ rfl rfl) fun _ => rfl,
      k.announced rfl rfl rfl rfl hmask hlen fun hnot => absurd ?_ hnot⟩
    exact Or.inl hw
  · obtain rfl := hroom (Bool.eq_false_iff.2 hw)
    rw [if_neg hw]
    unfold Host.slSpawn
    rw [if_pos rfl]
    refine ⟨h.announced rfl rfl rfl rfl (howed _ rfl rfl) fun ht => absurd ht hw,
      k.announced rfl rfl rfl rfl hmask hlen fun hnot => ?_⟩
    have hcov : ({ s with
        device := rest, masked := true, rxIrqCnt := s.rxIrqCnt + 1, frames := s.frames ++ [f],
        spawns := s.spawns + 1 } : Host ι).covered = s.covered + 1 := Nat.add_right_comm _ _ _
    have hlength : (s.frames ++ [f]).length = s.frames.length + 1 := by
      rw [List.length_append, List.length_singleton]
    have hbound := k.bound hnot
    refine hbound.imp (fun hle => ?_) fun ⟨hl, hle⟩ => ⟨hl, ?_⟩
    · exact hlength.le.trans ((Nat.add_le_add_right hle 1).trans hcov.ge)
    · exact hlength.le.trans (Nat.add_le_add_right (hle.trans hcov.ge) 1)

/-! ## The law -/

theorem Custody.willRead (h : Custody s) (hw : Waiting s) (hne : s.frames ≠ []) :
    ∃ t, WillRead s t ∨ (s.ctxs (some t)).phase.ending = true := by
  rcases hw with hw | ⟨t, hlock, hs⟩
  · cases hlock : s.globalLockObj with
    | none =>
      rw [(h.free hlock).waited] at hw
      cases hw
    | some c =>
      have hh := h.holder c hlock
      cases c with
      | none =>
        rw [hh.1.waited] at hw
        cases hw
      | some t =>
        refine ⟨t, ?_⟩
        have hh : CmdHolds s t (s.ctxs (some t)) := hh
        unfold CmdHolds at hh
        unfold WillRead
        cases hp : (s.ctxs (some t)).phase with
        | waitSync =>
          simp only [hp] at hh
          exact .inl ⟨hlock, hh.2 hne⟩
        | setWaited =>
          simp only [hp] at hh
          rw [hh.waited] at hw
          cases hw
        | clearWaited => exact .inr rfl
        | clearSync => exact .inr rfl
        | unlock => exact .inr rfl
        | spawnPending => exact .inr rfl
        | msgWrite => exact .inl hlock
        | loop => exact .inl hlock
        | msgRead => exact .inl hlock
        | handler => exact .inl hlock
        | cmdSend _ _ => exact .inl hlock
        | _ => simp only [hp] at hh
  · refine ⟨t, .inl ?_⟩
    unfold WillRead
    cases hp : (s.ctxs (some t)).phase with
    | cmdSend _ _ => exact hlock
    | _ =>
      rw [hp] at hs
      cases hs

theorem hostLaw_of (h : Custody s) (k : Counts cfg s) : HostLaw s where
  count := ⟨k.count, k.le⟩
  own := h.own
  unread hne := by
    by_cases hw : Waiting s
    · obtain ⟨t, ht | ht⟩ := h.willRead hw hne
      · exact .inl ⟨t, ht⟩
      · exact .inr (.inl ⟨t, ht⟩)
    · have hpos := List.length_pos_iff.2 hne
      rcases k.bound hw with hle | ⟨⟨t, ht⟩, -⟩
      · exact .inr (.inr (by omega))
      · refine .inr (.inl ⟨t, ?_⟩)
        cases hp : (s.ctxs (some t)).phase with
        | clearSync => rfl
        | unlock => rfl
        | spawnPending => rfl
        | _ =>
          rw [hp] at ht
          cases ht
  released := by
    refine ⟨fun c hc hlock => ?_, fun hlock => (h.free hlock).waited⟩
    have hh := h.holder c hlock
    cases c with
    | none =>
      have hh := hh.2
      cases hp : (s.ctxs none).phase with
      | idle => simp only [hp] at hh
      | _ => simp only [hp] at hc
    | some t =>
      have hh : CmdHolds s t (s.ctxs (some t)) := hh
      unfold CmdHolds at hh
      cases hp : (s.ctxs (some t)).phase with
      | idle => simp only [hp] at hh
      | _ => simp only [hp] at hc

end

theorem hostStep_inv {i : Act ι} {o : Unit} (h : Custody s ∧ Counts cfg s)
    (hcond : HostCond cfg s i) (hs : hostStep cfg s i = some (s', o)) :
    Custody s' ∧ Counts cfg s' := by
  unfold hostStep at hs
  cases i with
  | call t =>
    dsimp only at hs
    split at hs
    · rename_i hp
      cases hs
      exact call_inv h.1 h.2 hp
    · cases hs
      exact h
  | run c r =>
    cases hs
    cases hstep : ctxStep cfg s c r with
    | none => exact h
    | some s₁ => exact ctxStep_inv h.1 h.2 hcond hstep
  | irq f room =>
    dsimp only at hs
    split at hs
    · cases hs
      exact h
    · rename_i hoff
      have hmask : cfg.masks = true → s.masked = false := by grind
      have hlen : s.frames.length < 255 := by omega
      split at hs
      · cases hs
        exact h
      · rename_i t rest hdevice
        cases hs
        exact irq_inv h.1 h.2 hdevice hmask hlen hcond
      · cases hs
        exact irq_inv h.1 h.2 rfl hmask hlen hcond
      · cases hs
        exact irq_inv h.1 h.2 rfl hmask hlen hcond

/-- In every run that meets the condition the frames announced are accounted for. -/
theorem rx_accounting (cfg : Cfg) (is : List (Act ι)) (s : Host ι) (os : List Unit)
    (hmeets : Meets (hostStep cfg) (HostCond cfg) hostInit is)
    (hruns : runs (hostStep cfg) hostInit is = some (s, os)) : HostLaw s := by
  have hinv : Custody s ∧ Counts cfg s :=
    Meets.preserves (fun hI hC he => hostStep_inv hI hC he) ⟨custody_init, counts_init cfg⟩
      hmeets hruns
  exact hostLaw_of hinv.1 hinv.2

/-! ## An exchange, and two that go wrong -/

def steps (c : Option Unit) (n : Nat) : List (Act Unit) := List.replicate n (.run c ⟨true, false, true⟩)

/-- A command whose response comes behind an event, in whose handler another command is sent; and
an event that the spawn context reads. -/
def exchange : List (Act Unit) :=
  [.call ()] ++ steps (some ()) 4 ++ [.irq .asyncEvt false] ++ steps (some ()) 3 ++
    [.run (some ()) ⟨true, true, true⟩, .irq .cmdResp true] ++ steps (some ()) 6 ++
    [.irq .asyncEvt true] ++ steps (some ()) 2 ++ steps none 5

theorem rx_accounting_exchange :
    ∃ s os, runs (hostStep ⟨true, .assert⟩) hostInit exchange = some (s, os) ∧
      (s.ctxs (some ())).ret = some true ∧ s.frames = [] ∧ HostLaw s := by
  refine ⟨_, _, rfl, ?_, ?_, rx_accounting ⟨true, .assert⟩ exchange _ _ ?_ rfl⟩
  · rfl
  · rfl
  · repeat' refine And.intro ?_ ?_
    all_goals first | exact trivial | exact rfl | exact fun _ => rfl | exact nofun

/-- `_SlDrvCmdOp` cannot write the command and returns the error; then an event arrives. -/
def failedWrite : List (Act Unit) :=
  [.call ()] ++ steps (some ()) 2 ++ [.run (some ()) ⟨false, false, true⟩, .irq .asyncEvt true]

/-- Two events arrive behind the response, and one entry for the spawn context is queued. -/
def eventsBehind : List (Act Unit) :=
  [.call ()] ++ steps (some ()) 3 ++
    [.irq .cmdResp true, .irq .asyncEvt true, .irq .asyncEvt true] ++
    steps (some ()) 6 ++ steps none 6

/-- `IsCmdRespWaited` stays set when the write fails; the event then signals a command that nobody is
in. Where interrupts cannot be masked, the last event is left although no transfer failed. And an event
is left when the queue of `sl_Spawn` is full. -/
theorem rx_accounting_fails :
    (∃ s os, runs (hostStep ⟨true, .error⟩) hostInit failedWrite = some (s, os) ∧
      s.globalLockObj = none ∧ s.isCmdRespWaited = true ∧ s.frames.length = 1 ∧ s.covered = 0 ∧
      ¬HostLaw s) ∧
    (∃ s os, runs (hostStep ⟨false, .assert⟩) hostInit eventsBehind = some (s, os) ∧
      s.globalLockObj = none ∧ s.frames.length = 1 ∧ s.covered = 0 ∧ ¬HostLaw s) ∧
    ∃ s os, runs (hostStep ⟨true, .assert⟩) (hostInit (ι := Unit)) [.irq .asyncEvt false] =
      some (s, os) ∧ s.frames.length = 1 ∧ s.covered = 0 ∧ ¬HostLaw s := by
  refine ⟨⟨_, _, rfl, rfl, rfl, rfl, rfl, fun h => ?_⟩, ⟨_, _, rfl, rfl, rfl, rfl, fun h => ?_⟩,
    ⟨_, _, rfl, rfl, rfl, fun h => ?_⟩⟩
  · have hwaited := h.released.2 rfl
    cases hwaited
  · rcases h.unread (by decide) with ⟨_, h⟩ | ⟨_, h⟩ | h
    · exact h
    · cases h
    · exact h rfl
  · rcases h.unread (by decide) with ⟨_, h⟩ | ⟨_, h⟩ | h
    · exact h
    · cases h
    · exact h rfl

end SimpleLink.Driver.RxIrq
