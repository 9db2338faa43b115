import SimpleLink.Driver.PoolEvents
import SimpleLink.Driver.RxIrq

/-!
# Calls that take a pool object (`device.c`, `socket.c`, `netapp.c`)

`sl_Start`, `sl_Connect`, `sl_Accept`, `sl_NetAppDnsGetHostByName` and
`sl_NetAppDnsGetHostByService` take a pool object, send a command, wait for the response that the
device sends later, and release the object. Any number of threads `ι` make such calls, over the
pool of `EvtSys`; a step is what a thread does between two points where another thread can run.

`_SlDrvMsgRead` looks up the object that an event is for; the handler of the event runs in a later
step, and no other event is read in between.
-/

namespace SimpleLink.Driver.ApiCalls

open Lib RxIrq

/-- The calls, with what their use of the pool depends on. -/
inductive Api where
  /-- Whether the interface opens, and whether there is an init callback. -/
  | start (opens callback : Bool)
  /-- Whether the address family is one of those `sl_Connect` handles. -/
  | connect (family : Bool) (sd : Nat)
  | accept (sd : Nat)
  | getHostByName (ipv6 : Bool)
  | getHostByService (ipv6 : Bool)
  deriving DecidableEq

def Api.action : Api → SlActionId
  | start _ _ => .startStop
  | connect _ _ => .connect
  | accept _ => .accept
  | getHostByName _ => .getHostByName
  | getHostByService _ => .getHostByService

def Api.socket : Api → Nat
  | connect _ sd | accept sd => sd &&& bsdSocketIdMask
  | _ => slMaxSockets

/-- The object is marked with `SL_NETAPP_FAMILY_MASK`. -/
def Api.ipv6 : Api → Bool
  | getHostByName ipv6 | getHostByService ipv6 => ipv6
  | _ => false

def Api.checksSd : Api → Bool
  | connect _ _ | accept _ => true
  | _ => false

def Api.starts : Api → Bool
  | start _ _ => true
  | _ => false

/-- Where a call is. -/
inductive Phase where
  | idle
  /-- Calls `_SlDrvWaitForPoolObj`. -/
  | enter
  /-- Waits in it. -/
  | pending
  | taken
  | cmdOp
  /-- Waits for the response. -/
  | respWait
  | release
  /-- `sl_Start` has returned, and its init callback has not been called. -/
  | starting
  | returned
  /-- In an assertion that failed. -/
  | halted
  deriving DecidableEq

/-- A call; `released`, `delivered` and `signals` record the objects released for it, the responses
handed to the handler of its object, and the signals of its object. -/
structure Call where
  api : Api
  phase : Phase
  objIdx : Option Nat
  released : List Nat
  delivered : Nat
  signals : Nat

/-- The event that is being handled: a response for the object at `ActionIndex`, with the socket it
names, or the end of the initialization. -/
inductive Event where
  | obj (sd : Nat)
  | initComplete

structure Host (ι : Type) where
  sys : EvtSys
  /-- `pInitCallback` is set. -/
  initCallback : Bool
  event : Option Event
  calls : ι → Call

/-- What becomes of a step: `_SlDrvCmdOp` succeeds, the response names the socket of the call, its
status is `SL_RET_CODE_OK`. -/
structure Run where
  exchange : Bool
  sameSd : Bool
  accepted : Bool

variable {ι : Type} [DecidableEq ι]

def hostInit : Host ι where
  sys := evtInit
  initCallback := false
  event := none
  calls := fun _ => ⟨.accept 0, .idle, none, [], 0, 0⟩

def Host.set (s : Host ι) (t : ι) (c : Call) : Host ι :=
  { s with calls := Function.update s.calls t c }

def Host.goto (s : Host ι) (t : ι) (p : Phase) : Host ι := s.set t { s.calls t with phase := p }

/-- A check has failed (`VERIFY_RET_OK`, `VERIFY_PROTOCOL`). -/
def Host.fail (s : Host ι) (h : Handling) (t : ι) : Host ι :=
  match h with
  | .assert => s.goto t .halted
  | .error => s.goto t .returned

def Host.pool (s : Host ι) (op : PoolOp) : Option (Host ι) :=
  match poolStep s.sys.toPoolSys op with
  | none => none
  | some (sys, _) => some { s with sys := { s.sys with toPoolSys := sys } }

def Host.update (s : Host ι) (i : Nat) (f : SlPoolObj → SlPoolObj) : Option (Host ι) :=
  match s.sys.update i f with
  | none => none
  | some (sys, _) => some { s with sys := sys }

def Host.release (s : Host ι) (objIdx : Nat) : Option (Host ι) :=
  match slDrvReleasePoolObj s.sys.cb objIdx with
  | none => none
  | some cb =>
    some { s with sys := { s.sys with cb := cb, held := s.sys.held.erase objIdx } }

def Call.holds (c : Call) (i : Nat) : Bool :=
  match c.phase with
  | .taken | .cmdOp | .respWait | .release | .starting | .halted => c.objIdx = some i
  | _ => false

/-- The call waits for the response to the object, or for that to the command. -/
def Call.waits (c : Call) (i : Nat) : Bool :=
  match c.phase with
  | .cmdOp | .respWait => c.objIdx = some i
  | _ => false

/-- `sl_Start` waits. -/
def Call.awaitsInit (c : Call) : Bool :=
  match c.phase with
  | .respWait => c.api.starts
  | _ => false

/-- The call goes on; `i` is its object. -/
def callStep (h : Handling) (s : Host ι) (t : ι) (r : Run) : Option (Host ι) :=
  let call := s.calls t
  match call.phase, call.objIdx with
  | .enter, _ =>
    let i := s.sys.cb.freePoolIdx
    match s.pool (.call call.api.action call.api.socket) with
    | none => none
    | some s =>
      if maxConcurrentActions > i then
        some (s.set t { call with
          objIdx := some i
          phase := if i ∈ s.sys.held then .taken else .pending })
      -- `SL_POOL_IS_EMPTY`
      else some (s.goto t .returned)
  | .pending, some i =>
    match s.pool (.resume i) with
    | none => none
    | some s => some (if i ∈ s.sys.held then s.goto t .taken else s)
  | .taken, some i =>
    match call.api with
    | .start opens callback =>
      if opens then
        some ({ s with initCallback := callback }.goto t (if callback then .starting else .respWait))
      -- `SL_BAD_INTERFACE`
      else some (s.goto t .returned)
    | api =>
      if api.ipv6 then
        match s.update i fun obj =>
            { obj with additionalData := obj.additionalData ||| slNetappFamilyMask } with
        | none => none
        | some s => some (s.goto t .cmdOp)
      else some (s.goto t .cmdOp)
  | .cmdOp, some _ =>
    if r.exchange && (!call.api.checksSd || r.sameSd) then
      some (s.goto t (if r.accepted then .respWait else .release))
    else some (s.fail h t)
  | .respWait, some i =>
    if s.sys.signalled i then
      match s.update i fun obj => { obj with syncObj := false } with
      | none => none
      | some s =>
        some (if !call.api.checksSd || r.sameSd then s.goto t .release else s.fail h t)
    else some s
  | .release, some i =>
    let j := if call.api.starts then s.sys.actionIndex else i
    match s.release j with
    | none => none
    | some s => some (s.set t { call with phase := .returned, released := j :: call.released })
  | _, _ => some s

/-- What the handler of an object in `_SlActionLookupTable` does with a response: it signals, or
not; there is no outcome where a check fails under the protection lock. -/
def asyncEvtHandler (obj : SlPoolObj) (sd : Nat) : Option Bool :=
  if obj.actionID = SlActionId.accept.id ∨ obj.actionID = SlActionId.connect.id then
    if sd ≤ slMaxSockets then some true else none
  else if obj.actionID = SlActionId.getHostByService.id then
    some (obj.additionalData &&& slNetappFamilyMask = 0)
  else some true

/-- `_SlDrvMsgRead` reads an event. -/
def msgRead (behind : Nat → Nat) (s : Host ι) (opcode sd : Nat) : Option (Host ι) :=
  match slFindAndSetActiveObj behind s.sys.cb opcode sd with
  | none => none
  | some (some i) =>
    some { s with
      sys := { s.sys with actionIndex := i }
      event := some (.obj sd)
      calls := fun t =>
        let c := s.calls t
        if c.waits i then { c with delivered := c.delivered + 1 } else c }
  | some none =>
    if opcode = slOpcodeDeviceInitComplete then
      some { s with
        event := some .initComplete
        calls := fun t =>
          let c := s.calls t
          if c.awaitsInit then { c with delivered := c.delivered + 1 } else c }
    else some s

/-- `_SlDrvSyncObjSignal` of the object at `ActionIndex`. -/
def Host.signal (s : Host ι) : Option (Host ι) :=
  let i := s.sys.actionIndex
  match s.update i fun obj => { obj with syncObj := true } with
  | none => none
  | some s =>
    some { s with
      event := none
      calls := fun t =>
        let c := s.calls t
        if c.holds i then { c with signals := c.signals + 1 } else c }

/-- `_SlAsyncEventGenericHandler`. -/
def handle (s : Host ι) : Option (Host ι) :=
  match s.event with
  | none => some s
  | some (.obj sd) =>
    match s.sys.cb.objPool.obj s.sys.actionIndex with
    | none => none
    | some obj =>
      match asyncEvtHandler obj sd with
      | none => none
      | some true => s.signal
      | some false => some { s with event := none }
  | some .initComplete =>
    -- `_sl_HandleAsync_InitComplete`
    if s.initCallback then
      let i := s.sys.actionIndex
      match s.release i with
      | none => none
      | some s =>
        some { s with
          event := none
          calls := fun t =>
            let c := s.calls t
            if c.phase = .starting then { c with phase := .returned, released := i :: c.released }
            else c }
    else s.signal

inductive Act (ι : Type) where
  | call (t : ι) (api : Api)
  | run (t : ι) (r : Run)
  | event (opcode sd : Nat)
  | handle

def Call.over (c : Call) : Bool := c.phase = .idle ∨ c.phase = .returned

def hostStep (h : Handling) (behind : Nat → Nat) (s : Host ι) : Act ι → Option (Host ι × Unit)
  | .call t api =>
    if (s.calls t).over then
      match api with
      | .start _ _ =>
        some ({ s with sys := evtInit, initCallback := false }.set t ⟨api, .enter, none, [], 0, 0⟩, ())
      | .connect false _ => some (s.set t ⟨api, .returned, none, [], 0, 0⟩, ())
      | _ => some (s.set t ⟨api, .enter, none, [], 0, 0⟩, ())
    else some (s, ())
  | .run t r => (callStep h s t r).map (·, ())
  | .event opcode sd =>
    match s.event with
    | some _ => some (s, ())
    | none => (msgRead behind s opcode sd).map (·, ())
  | .handle => (handle s).map (·, ())

/-! ## The property and the condition -/

structure ApiLaw (s : Host ι) : Prop where
  /-- A call that has returned has released its object, once, and nothing else. -/
  released : ∀ t, (s.calls t).phase = .returned → (s.calls t).released = (s.calls t).objIdx.toList
  /-- The objects in use are those of the calls that have not returned. -/
  held : ∀ i, i ∈ s.sys.held ↔ ∃ t, (s.calls t).holds i = true
  /-- The object is signalled once for the response. -/
  signals : ∀ t, (s.calls t).signals ≤ (s.calls t).delivered ∧ (s.calls t).delivered ≤ 1 ∧
    (s.event = none → (s.calls t).signals = (s.calls t).delivered)
  /-- A call that waits for its response has the signal. -/
  wakes : ∀ t i, (s.calls t).waits i = true → (s.calls t).signals = 1 → s.sys.signalled i = true

def CallCond (h : Handling) (s : Host ι) (c : Call) (r : Run) : Prop :=
  match c.phase with
  | .enter => c.api.starts = true → s.sys.cb.freePoolIdx = s.sys.actionIndex
  | .cmdOp =>
    (r.accepted = false → c.delivered = 0) ∧
      match h with
      | .assert => True
      | .error => r.exchange = true ∧ (c.api.checksSd = true → r.sameSd = true)
  | .respWait =>
    match h with
    | .assert => True
    | .error => c.api.checksSd = true → r.sameSd = true
  | _ => True

/-- The response to a call on a socket names a socket, and the object of a service is not marked
with the IPv6 family. -/
structure Answerable (obj : SlPoolObj) (sd : Nat) : Prop where
  socket : obj.actionID = SlActionId.accept.id ∨ obj.actionID = SlActionId.connect.id →
    sd ≤ slMaxSockets
  family : obj.actionID = SlActionId.getHostByService.id →
    obj.additionalData &&& slNetappFamilyMask = 0

/-- Commands are exchanged, and their responses name the socket of the call, where a failed check
returns. An event is for a call that waits for it and has had none, and its object can be answered.
`sl_Start` is called when no call is in progress, opens the interface, takes the object that
`ActionIndex` names, and no event is for another object before it returns. -/
def HostCond (h : Handling) (behind : Nat → Nat) (s : Host ι) : Act ι → Prop
  | .call _ api =>
    match api with
    | .start opens _ => opens = true ∧ s.event = none ∧ ∀ t, (s.calls t).over = true
    | .connect _ sd | .accept sd => sd &&& bsdSocketIdMask < slMaxSockets
    | _ => True
  | .run t r => CallCond h s (s.calls t) r
  | .event opcode sd =>
    match slFindAndSetActiveObj behind s.sys.cb opcode sd with
    | some (some i) => (∃ t, (s.calls t).waits i = true ∧ (s.calls t).delivered = 0) ∧
        ∀ t, (s.calls t).api.starts = true → (s.calls t).over = true
    | _ => opcode = slOpcodeDeviceInitComplete →
        ∃ t, ((s.calls t).awaitsInit = true ∨ (s.calls t).phase = .starting) ∧
          (s.calls t).delivered = 0
  | .handle =>
    match s.event with
    | none => True
    | some (.obj sd) => ∀ obj ∈ s.sys.cb.objPool.obj s.sys.actionIndex, Answerable obj sd
    | some .initComplete => ∃ t, (s.calls t).api.starts = true ∧
        (s.calls t).phase = if s.initCallback then .starting else .respWait

end SimpleLink.Driver.ApiCalls
