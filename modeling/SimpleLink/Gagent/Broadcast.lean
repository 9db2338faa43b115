import SimpleLink.Lib.Run
import SimpleLink.Gagent.LanTcp

/-!
# The broadcast socket (`lan.c`)

Two activities broadcast over one UDP socket, one packet a tick: the gateway announces that it has
started, and that it has been configured. Each has a countdown, and releases the socket when that is at
its end. `broResourceNum` is there to count the activities that need the socket.

`BroadcastKept` is what a caller relies on, and `BroadcastCond` says when it is kept: `GAgent_LANInit`
sets the count to zero behind the first use, so the activity that ends first closes the socket.
-/

namespace SimpleLink.Gagent.Broadcast

open Lib

abbrev SEND_UDP_DATA_TIMES : Nat := 30

inductive Activity where
  | startup
  | onboarding
  deriving DecidableEq, Repr

inductive BroEv where
  /-- The turn of a packet; it is sent if there is a socket. -/
  | broadcast (a : Activity) (sent : Bool)
  /-- The countdown comes to zero. -/
  | ended (a : Activity)
  | released (a : Activity)
  deriving DecidableEq, Repr

structure Lan where
  udpBroadCastServerFd : Int
  /-- The broadcast sockets that have been made and not closed. -/
  sockets : List Int
  /-- An `int32`. -/
  broResourceNum : Int
  onboardingBroadCastTime : Nat
  startupBroadCastTime : Nat
  firstStartUp : Bool
  /-- `XPG_CFG_FLAG_CONFIG` in `gc.flag`. -/
  config : Bool
  /-- `WIFI_STATION_CONNECTED` in `GAgentStatus`. -/
  connected : Bool
  log : List BroEv

def Lan.did (s : Lan) (e : BroEv) : Lan := { s with log := s.log ++ [e] }

def Lan.active (s : Lan) : Activity → Bool
  | .startup => s.firstStartUp
  | .onboarding => s.config

def Lan.time (s : Lan) : Activity → Nat
  | .startup => s.startupBroadCastTime
  | .onboarding => s.onboardingBroadCastTime

def Lan.setTime (s : Lan) (n : Nat) : Activity → Lan
  | .startup => { s with startupBroadCastTime := n }
  | .onboarding => { s with onboardingBroadCastTime := n }

def Lan.stop (s : Lan) : Activity → Lan
  | .startup => { s with firstStartUp := false }
  | .onboarding => { s with config := false }

/-! ## The functions -/

/-- `newfd` is what `socket` answers. -/
def createUDPBroadCastServer (newfd : Int) (s : Lan) : Lan :=
  let s :=
    if 0 < s.onboardingBroadCastTime ∧ s.onboardingBroadCastTime ≠ SEND_UDP_DATA_TIMES then
      { s with broResourceNum := s.broResourceNum - 1 }
    else s
  let s := { s with broResourceNum := s.broResourceNum + 1 }
  if s.udpBroadCastServerFd = INVALID_SOCKET then
    if newfd < 0 then { s with udpBroadCastServerFd := INVALID_SOCKET }
    else { s with udpBroadCastServerFd := newfd, sockets := newfd :: s.sockets }
  else s

def destroyUDPBroadCastServer (s : Lan) : Lan :=
  let s := { s with broResourceNum := s.broResourceNum - 1 }
  if s.broResourceNum ≤ 0 then
    let s :=
      if s.udpBroadCastServerFd ≠ INVALID_SOCKET then
        { s with
          sockets := s.sockets.erase s.udpBroadCastServerFd
          udpBroadCastServerFd := INVALID_SOCKET }
      else s
    { s with broResourceNum := 0 }
  else s

def lanInitSocket (newfd : Int) (s : Lan) : Lan :=
  createUDPBroadCastServer newfd { s with
    udpBroadCastServerFd := INVALID_SOCKET
    onboardingBroadCastTime := SEND_UDP_DATA_TIMES
    startupBroadCastTime := SEND_UDP_DATA_TIMES }

/-- `GAgent_LANInit`. -/
def gAgentLANInit (newfd : Int) (s : Lan) : Lan :=
  { lanInitSocket newfd s with broResourceNum := 0 }

def sendBroadCastPacket (a : Activity) (s : Lan) : Lan :=
  s.did (.broadcast a (s.udpBroadCastServerFd ≠ INVALID_SOCKET))

/-- What `GAgent_LanTick` does for an activity. -/
def broadcastTick (a : Activity) (s : Lan) : Lan :=
  if s.active a then
    if 0 < s.time a then
      let s := (sendBroadCastPacket a s).setTime (s.time a - 1) a
      if s.time a = 0 then s.did (.ended a) else s
    else (destroyUDPBroadCastServer (s.stop a)).did (.released a)
  else s

/-- `GAgent_LanTick`. -/
def lanTick (s : Lan) : Lan :=
  if s.connected then broadcastTick .startup (broadcastTick .onboarding s) else s

/-- A request of the configuration page with both fields. -/
def webConfig (s : Lan) : Lan := { s with config := true, connected := true }

inductive BroOp where
  | init (newfd : Int)
  | webConfig
  /-- `Lan_udpOnBoarding` stores the network and its key only. -/
  | udpOnBoarding
  | station (connected : Bool)
  | tick

def broStep (s : Lan) : BroOp → Lan
  | .init newfd => gAgentLANInit newfd s
  | .webConfig => webConfig s
  | .udpOnBoarding => s
  | .station connected => { s with connected }
  | .tick => lanTick s

/-- After `GAgent_VarInit`; the flag comes from the stored configuration. -/
def varInit (config : Bool) : Lan where
  udpBroadCastServerFd := 0
  sockets := []
  broResourceNum := 0
  onboardingBroadCastTime := 0
  startupBroadCastTime := 0
  firstStartUp := true
  config := config
  connected := false
  log := []

/-! ## What a caller relies on -/

def Lan.running (s : Lan) (a : Activity) : Prop := s.active a = true ∧ 0 < s.time a

/-- The countdown is at its end, and the socket has not been released yet. -/
def Lan.pending (s : Lan) (a : Activity) : Prop := s.active a = true ∧ s.time a = 0

instance (s : Lan) (a : Activity) : Decidable (s.running a) := inferInstanceAs (Decidable (_ ∧ _))
instance (s : Lan) (a : Activity) : Decidable (s.pending a) := inferInstanceAs (Decidable (_ ∧ _))

/-- The releases that are still to come. -/
def Lan.due (s : Lan) (a : Activity) : Nat := if s.pending a then 1 else 0

def Lan.isOpen (s : Lan) : Prop := s.udpBroadCastServerFd ∈ s.sockets

instance (s : Lan) : Decidable s.isOpen := inferInstanceAs (Decidable (_ ∈ _))

structure BroadcastKept (s : Lan) : Prop where
  running_open : ∀ a, s.running a → s.isOpen
  heard : ∀ a, .broadcast a false ∉ s.log
  /-- Each countdown that has ended is followed by one release. -/
  released : ∀ a, s.log.count (.released a) + s.due a = s.log.count (.ended a)
  closed : (∀ a, s.active a = false) →
    s.sockets = [] ∧ s.udpBroadCastServerFd = INVALID_SOCKET ∧ s.broResourceNum = 0

/-- The LAN is not initialised again, except to no effect; a configuration is asked for while the socket
is open and its countdown not used up, or again before it has been announced; and no activity ends while
the other one is running. -/
def BroadcastCond (s : Lan) : BroOp → Prop
  | .init newfd => s.sockets = [] ∧ newfd < 0 ∧ ∀ a, s.active a = false
  | .webConfig => s.config = true ∨ s.isOpen ∧ 0 < s.onboardingBroadCastTime
  | .tick => s.connected = true →
      (s.pending .onboarding → ¬ s.running .startup) ∧
      (s.pending .startup → s.config = true → s.onboardingBroadCastTime ≤ 1)
  | _ => True

instance (s : Lan) (op : BroOp) : Decidable (BroadcastCond s op) :=
  match op with
  | .init newfd =>
    have : Decidable (∀ a, s.active a = false) :=
      decidable_of_iff (s.firstStartUp = false ∧ s.config = false)
        ⟨fun h a => by cases a with | startup => exact h.1 | onboarding => exact h.2,
          fun h => ⟨h .startup, h .onboarding⟩⟩
    inferInstanceAs (Decidable (s.sockets = [] ∧ newfd < 0 ∧ ∀ a, s.active a = false))
  | .webConfig => inferInstanceAs (Decidable (s.config = true ∨ s.isOpen ∧ 0 < s.onboardingBroadCastTime))
  | .tick => inferInstanceAs (Decidable (s.connected = true → _ ∧ _))
  | .udpOnBoarding => inferInstanceAs (Decidable True)
  | .station _ => inferInstanceAs (Decidable True)

/-! ## One activity -/

variable {s : Lan} {a b : Activity}

@[simp]
theorem active_did (e : BroEv) : (s.did e).active a = s.active a := by cases a <;> rfl

@[simp]
theorem time_did (e : BroEv) : (s.did e).time a = s.time a := by cases a <;> rfl

@[simp]
theorem active_setTime (n : Nat) : (s.setTime n a).active b = s.active b := by
  cases a <;> cases b <;> rfl

theorem time_setTime (n : Nat) : (s.setTime n a).time b = if b = a then n else s.time b := by
  cases a <;> cases b <;> rfl

theorem active_stop : (s.stop a).active b = if b = a then false else s.active b := by
  cases a <;> cases b <;> rfl

@[simp]
theorem time_stop : (s.stop a).time b = s.time b := by cases a <;> cases b <;> rfl

theorem due_eq : s.due a = if s.active a = true ∧ s.time a = 0 then 1 else 0 := rfl

theorem due_congr {t : Lan} (hactive : t.active a = s.active a) (htime : t.time a = s.time a) :
    t.due a = s.due a := by
  rw [due_eq, due_eq, hactive, htime]

/-- The socket and the count behind every event. -/
structure SocketOk (s : Lan) : Prop where
  socket : s.udpBroadCastServerFd = INVALID_SOCKET ∧ s.sockets = [] ∨
    s.udpBroadCastServerFd ≠ INVALID_SOCKET ∧ s.sockets = [s.udpBroadCastServerFd]
  num : s.broResourceNum = 0

structure Inv (s : Lan) : Prop extends BroadcastKept s, SocketOk s

def Lan.close (s : Lan) : Lan :=
  { s with sockets := [], udpBroadCastServerFd := INVALID_SOCKET, broResourceNum := 0 }

@[simp]
theorem active_close : s.close.active a = s.active a := by cases a <;> rfl

@[simp]
theorem time_close : s.close.time a = s.time a := by cases a <;> rfl

theorem destroy_eq (h : SocketOk s) : destroyUDPBroadCastServer s = s.close := by
  have hnum : s.broResourceNum - 1 ≤ 0 := by rw [h.num]; decide
  unfold destroyUDPBroadCastServer Lan.close
  rw [if_pos hnum]
  rcases h.socket with ⟨hfd, hsockets⟩ | ⟨hfd, hsockets⟩
  · simp [hfd, hsockets]
  · simp [hfd, hsockets]

theorem SocketOk.stop (h : SocketOk s) (a : Activity) : SocketOk (s.stop a) := by
  cases a <;> exact ⟨h.socket, h.num⟩

theorem isOpen_iff (h : SocketOk s) : s.isOpen ↔ s.udpBroadCastServerFd ≠ INVALID_SOCKET := by
  unfold Lan.isOpen
  rcases h.socket with ⟨hfd, hsockets⟩ | ⟨hfd, hsockets⟩ <;> simp [hfd, hsockets]

/-- The state behind a packet, but for the end of the countdown. -/
def Lan.counted (s : Lan) (a : Activity) : Lan := (sendBroadCastPacket a s).setTime (s.time a - 1) a

theorem broadcastTick_running (h : s.running a) :
    broadcastTick a s = if s.time a = 1 then (s.counted a).did (.ended a) else s.counted a := by
  have hpos := h.2
  have htime : ((sendBroadCastPacket a s).setTime (s.time a - 1) a).time a = 0 ↔ s.time a = 1 := by
    rw [time_setTime, if_pos rfl]
    omega
  unfold broadcastTick
  simp only [h.1, hpos, if_true, htime]
  rfl

theorem broadcastTick_pending (hs : SocketOk s) (h : s.pending a) :
    broadcastTick a s = (s.stop a).close.did (.released a) := by
  unfold broadcastTick
  rw [if_pos h.1, if_neg (by rw [h.2]; exact Nat.lt_irrefl 0), destroy_eq (hs.stop a)]

theorem broadcastTick_inactive (h : s.active a = false) : broadcastTick a s = s := by
  unfold broadcastTick
  rw [h]
  exact if_neg Bool.false_ne_true

theorem not_running_of_pending (h : s.pending a) : ¬ s.running a := by
  rintro ⟨-, hpos⟩
  rw [h.2] at hpos
  exact Nat.lt_irrefl 0 hpos

theorem active_counted : (s.counted a).active b = s.active b := by
  rw [Lan.counted, active_setTime, sendBroadCastPacket, active_did]

theorem time_counted : (s.counted a).time b = if b = a then s.time a - 1 else s.time b := by
  rw [Lan.counted, time_setTime, sendBroadCastPacket, time_did]

theorem log_counted (hfd : s.udpBroadCastServerFd ≠ INVALID_SOCKET) :
    (s.counted a).log = s.log ++ [.broadcast a true] := by
  have hlog : (s.counted a).log =
      s.log ++ [.broadcast a (decide (s.udpBroadCastServerFd ≠ INVALID_SOCKET))] := by
    cases a <;> rfl
  rw [hlog, decide_eq_true hfd]

theorem SocketOk.counted (h : SocketOk s) (a : Activity) : SocketOk (s.counted a) := by
  cases a <;> exact ⟨h.socket, h.num⟩

theorem due_counted : (s.counted a).due b =
    if b = a then (if s.active a = true ∧ s.time a ≤ 1 then 1 else 0) else s.due b := by
  rw [due_eq, active_counted, time_counted]
  by_cases hb : b = a
  · rw [if_pos hb, if_pos hb, hb]
    have htime : s.time a - 1 = 0 ↔ s.time a ≤ 1 := by omega
    simp only [htime]
  · rw [if_neg hb, if_neg hb, due_eq]

theorem Inv.running (h : Inv s) (ha : s.running a) : Inv (broadcastTick a s) := by
  have hfd := (isOpen_iff h.toSocketOk).1 (h.running_open a ha)
  have hsocket := h.toSocketOk.counted a
  have hopen : (s.counted a).isOpen := by
    refine (isOpen_iff hsocket).2 ?_
    cases a <;> exact hfd
  have hlog := log_counted (a := a) hfd
  have hnow : s.due a = 0 := if_neg fun hp => not_running_of_pending hp ha
  have hreleased := h.released
  have hpos := ha.2
  have hsome : ¬ ∀ b, (s.counted a).active b = false := fun hnone => by
    have hfalse := hnone a
    rw [active_counted, ha.1] at hfalse
    exact Bool.false_ne_true hfalse.symm
  have hheard : ∀ b, .broadcast b false ∉ (s.counted a).log := fun b hb => by
    rw [hlog, List.mem_append, List.mem_singleton] at hb
    exact hb.elim (h.heard b) nofun
  rw [broadcastTick_running ha]
  by_cases hone : s.time a = 1
  · rw [if_pos hone]
    refine ⟨⟨fun _ _ => hopen, fun b hb => ?_, fun b => ?_, fun hnone => ?_⟩, ⟨hsocket.socket, hsocket.num⟩⟩
    · rw [Lan.did, List.mem_append, List.mem_singleton] at hb
      exact hb.elim (hheard b) nofun
    · rw [due_congr (s := s.counted a) (active_did _) (time_did _), due_counted]
      show ((s.counted a).log ++ [BroEv.ended a]).count _ + _ = ((s.counted a).log ++ [BroEv.ended a]).count _
      rw [hlog]
      by_cases hb : b = a
      · subst hb
        have hb := hreleased b
        simp [ha.1, hone, List.count_append]
        omega
      · have hne : ¬ a = b := fun h => hb h.symm
        simpa [hb, hne, List.count_append, List.count_cons] using hreleased b
    · exact absurd (fun b => by rw [← hnone b, active_did]) hsome
  · rw [if_neg hone]
    refine ⟨⟨fun _ _ => hopen, hheard, fun b => ?_, fun hnone => absurd hnone hsome⟩, hsocket⟩
    show (s.counted a).log.count _ + (s.counted a).due b = (s.counted a).log.count _
    rw [due_counted, hlog]
    have hb := hreleased b
    by_cases hba : b = a
    · subst hba
      have hmore : ¬ s.time b ≤ 1 := by omega
      simp [hmore, List.count_append]
      omega
    · simpa [hba, List.count_append, List.count_cons] using hb

theorem Inv.pending (h : Inv s) (ha : s.pending a) (hother : ∀ b, ¬ s.running b) :
    Inv (broadcastTick a s) := by
  rw [broadcastTick_pending h.toSocketOk ha]
  have hactive : ∀ b, ((s.stop a).close.did (.released a)).active b =
      if b = a then false else s.active b := fun b => by
    rw [active_did, active_close, active_stop]
  have htime : ∀ b, ((s.stop a).close.did (.released a)).time b = s.time b := fun b => by
    rw [time_did, time_close, time_stop]
  have hlog : ((s.stop a).close.did (.released a)).log = s.log ++ [.released a] := by
    cases a <;> rfl
  refine ⟨⟨fun b hb => ?_, fun b hb => ?_, fun b => ?_, fun _ => ⟨rfl, rfl, rfl⟩⟩, ⟨.inl ⟨rfl, rfl⟩, rfl⟩⟩
  · rw [Lan.running, hactive, htime] at hb
    by_cases hba : b = a
    · rw [if_pos hba] at hb
      exact absurd hb.1 Bool.false_ne_true
    · rw [if_neg hba] at hb
      exact absurd hb (hother b)
  · rw [hlog, List.mem_append, List.mem_singleton] at hb
    exact hb.elim (h.heard b) nofun
  · have hreleased := h.released b
    rw [hlog, due_eq, hactive, htime]
    by_cases hba : b = a
    · subst hba
      have hdue : s.due b = 1 := if_pos ha
      rw [hdue] at hreleased
      simpa [List.count_append, List.count_cons] using hreleased
    · have hne : ¬ a = b := fun h => hba h.symm
      rw [if_neg hba, ← due_eq]
      simpa [hne, List.count_append, List.count_cons] using hreleased

theorem Inv.broadcastTick (h : Inv s) (a : Activity) (hother : s.pending a → ∀ b, ¬ s.running b) :
    Inv (broadcastTick a s) := by
  cases hactive : s.active a with
  | false => rwa [broadcastTick_inactive hactive]
  | true =>
    by_cases htime : s.time a = 0
    · exact h.pending ⟨hactive, htime⟩ (hother ⟨hactive, htime⟩)
    · exact h.running ⟨hactive, Nat.pos_of_ne_zero htime⟩

/-! ## The events -/

theorem connected_ignored {c : Bool} {t : Lan} (h : Inv t) : Inv { t with connected := c } := by
  have hactive : ∀ b, Lan.active { t with connected := c } b = t.active b := fun b => by cases b <;> rfl
  have htime : ∀ b, Lan.time { t with connected := c } b = t.time b := fun b => by cases b <;> rfl
  refine ⟨⟨fun b hb => ?_, h.heard, fun b => ?_, fun hnone => ?_⟩, ⟨h.socket, h.num⟩⟩
  · rw [Lan.running, hactive, htime] at hb
    exact h.running_open b hb
  · rw [due_congr (hactive b) (htime b)]
    exact h.released b
  · exact h.closed fun b => by rw [← hactive, hnone]

theorem onboarding_after (h : SocketOk s)
    (hlate : s.pending .startup → s.config = true → s.onboardingBroadCastTime ≤ 1) :
    (broadcastTick .onboarding s).pending .startup → ∀ b, ¬ (broadcastTick .onboarding s).running b := by
  intro hpend b hb
  have hstartup : b ≠ .startup := fun hb' => by
    subst hb'
    exact not_running_of_pending hpend hb
  obtain rfl : b = .onboarding := by
    cases b with
    | startup => exact absurd rfl hstartup
    | onboarding => rfl
  by_cases hrun : s.running .onboarding
  · have hcounted : ∀ {t : Lan}, t = s.counted .onboarding ∨
        t = (s.counted .onboarding).did (.ended .onboarding) →
        t.pending .startup → t.running .onboarding → False := by
      rintro t ht hp hr
      have hactive : ∀ c, t.active c = s.active c := fun c => by
        rcases ht with rfl | rfl
        · exact active_counted
        · rw [active_did, active_counted]
      have htime : ∀ c, t.time c = if c = .onboarding then s.time .onboarding - 1 else s.time c := fun c => by
        rcases ht with rfl | rfl
        · exact time_counted
        · rw [time_did, time_counted]
      rw [Lan.pending, hactive, htime, if_neg (by decide)] at hp
      rw [Lan.running, hactive, htime, if_pos rfl] at hr
      have hle : s.time .onboarding ≤ 1 := hlate hp hr.1
      have hpos := hr.2
      omega
    rw [broadcastTick_running hrun] at hpend hb
    by_cases hone : s.time .onboarding = 1
    · rw [if_pos hone] at hpend hb
      exact hcounted (.inr rfl) hpend hb
    · rw [if_neg hone] at hpend hb
      exact hcounted (.inl rfl) hpend hb
  · by_cases hwait : s.pending .onboarding
    · rw [broadcastTick_pending h hwait, Lan.running, active_did, active_close, active_stop, if_pos rfl] at hb
      exact Bool.false_ne_true hb.1
    · have hactive : s.active .onboarding = false := by
        refine eq_false_of_ne_true fun hactive => ?_
        rcases Nat.eq_zero_or_pos (s.time .onboarding) with hzero | hpos
        · exact hwait ⟨hactive, hzero⟩
        · exact hrun ⟨hactive, hpos⟩
      rw [broadcastTick_inactive hactive] at hb
      exact hrun hb

theorem Inv.tick (h : Inv s) (hc : BroadcastCond s .tick) : Inv (lanTick s) := by
  unfold lanTick
  split
  · rename_i hconnected
    obtain ⟨honboarding, hstartup⟩ := hc hconnected
    have hfirst : Inv (Broadcast.broadcastTick .onboarding s) := by
      refine h.broadcastTick .onboarding fun hp b => ?_
      cases b with
      | startup => exact honboarding hp
      | onboarding => exact not_running_of_pending hp
    exact hfirst.broadcastTick .startup (onboarding_after h.toSocketOk hstartup)
  · exact h

theorem Inv.webConfig (h : Inv s) (hc : BroadcastCond s .webConfig) : Inv (webConfig s) := by
  suffices hset : Inv { s with config := true } from connected_ignored (c := true) hset
  by_cases hconfig : s.config = true
  · have hsame : { s with config := true } = s := by rw [← hconfig]
    rwa [hsame]
  · obtain ⟨hopen, hpos⟩ := hc.resolve_left hconfig
    have hactive : ∀ b, b ≠ .onboarding → Lan.active { s with config := true } b = s.active b := fun b hb => by
      cases b with
      | startup => rfl
      | onboarding => exact absurd rfl hb
    have htime : ∀ b, Lan.time { s with config := true } b = s.time b := fun b => by cases b <;> rfl
    refine ⟨⟨fun _ _ => hopen, h.heard, fun b => ?_, fun hnone => absurd (hnone .onboarding) nofun⟩,
      ⟨h.socket, h.num⟩⟩
    have hdue : Lan.due { s with config := true } b = s.due b := by
      cases b with
      | startup => exact due_congr (hactive _ (by decide)) (htime _)
      | onboarding =>
        have hmore : s.onboardingBroadCastTime ≠ 0 := Nat.pos_iff_ne_zero.1 hpos
        have hnow : s.due .onboarding = 0 := if_neg fun hp => hconfig hp.1
        rw [hnow]
        exact if_neg fun hp => hmore hp.2
    rw [hdue]
    exact h.released b

theorem Inv.again (h : Inv s) {newfd : Int} (hfd : newfd < 0) (hsockets : s.sockets = [])
    (hnone : ∀ a, s.active a = false) : Inv (gAgentLANInit newfd s) := by
  have hinit : gAgentLANInit newfd s = { s with
      udpBroadCastServerFd := INVALID_SOCKET
      onboardingBroadCastTime := SEND_UDP_DATA_TIMES
      startupBroadCastTime := SEND_UDP_DATA_TIMES
      broResourceNum := 0 } := by
    simp [gAgentLANInit, lanInitSocket, createUDPBroadCastServer, hfd]
  have hactive : ∀ b, (gAgentLANInit newfd s).active b = false := fun b => by
    rw [hinit, ← hnone b]
    cases b <;> rfl
  have hdue : ∀ b, (gAgentLANInit newfd s).due b = s.due b := fun b => by
    rw [due_eq, due_eq, hactive, hnone]
    rfl
  refine ⟨⟨fun b hb => ?_, fun b => ?_, fun b => ?_, fun _ => ?_⟩, ?_⟩
  · exact absurd ((hactive b).symm.trans hb.1) Bool.false_ne_true
  · rw [hinit]
    exact h.heard b
  · rw [hdue, hinit]
    exact h.released b
  · rw [hinit]
    exact ⟨hsockets, rfl, rfl⟩
  · rw [hinit]
    exact ⟨.inl ⟨rfl, hsockets⟩, rfl⟩

theorem Inv.step (h : Inv s) {op : BroOp} (hc : BroadcastCond s op) : Inv (broStep s op) := by
  cases op with
  | init newfd => exact h.again hc.2.1 hc.1 hc.2.2
  | webConfig => exact h.webConfig hc
  | udpOnBoarding => exact h
  | station connected => exact connected_ignored h
  | tick => exact h.tick hc

theorem inv_init (config : Bool) {newfd : Int} (hfd : 0 ≤ newfd) :
    Inv (gAgentLANInit newfd (varInit config)) := by
  have hinit : gAgentLANInit newfd (varInit config) =
      ⟨newfd, [newfd], 0, SEND_UDP_DATA_TIMES, SEND_UDP_DATA_TIMES, true, config, false, []⟩ := by
    simp [gAgentLANInit, lanInitSocket, createUDPBroadCastServer, varInit, Int.not_lt.2 hfd]
  have hvalid : newfd ≠ INVALID_SOCKET := by
    unfold INVALID_SOCKET
    omega
  rw [hinit]
  refine ⟨⟨fun _ _ => List.mem_singleton_self newfd, fun _ => List.not_mem_nil, fun b => ?_,
    fun hnone => absurd (hnone .startup) nofun⟩, ⟨.inr ⟨hvalid, rfl⟩, rfl⟩⟩
  have hdue : Lan.due
      ⟨newfd, [newfd], 0, SEND_UDP_DATA_TIMES, SEND_UDP_DATA_TIMES, true, config, false, []⟩ b = 0 :=
    if_neg fun hp => by cases b <;> exact absurd hp.2 (Nat.succ_ne_zero _)
  rw [hdue]
  rfl

/-! ## Runs -/

def broRunStep (s : Lan) (op : BroOp) : Option (Lan × Unit) := some (broStep s op, ())

/-- The socket is there for the activities in every state of a run whose events meet the condition. -/
theorem broadcast_socket (config : Bool) {newfd : Int} (hfd : 0 ≤ newfd) {ops : List BroOp} {t : Lan}
    {us : List Unit} (hc : Meets broRunStep BroadcastCond (gAgentLANInit newfd (varInit config)) ops)
    (hr : runs broRunStep (gAgentLANInit newfd (varInit config)) ops = some (t, us)) : BroadcastKept t := by
  have hinv : Inv t := by
    refine Meets.preserves (I := Inv) (fun h hc he => ?_) (inv_init config hfd) hc hr
    cases he
    exact h.step hc
  exact hinv.toBroadcastKept

/-- A gateway that is configured while it connects for the first time. -/
theorem broadcast_socket_first :
    ∃ t us, runs broRunStep (gAgentLANInit 5 (varInit false))
      (.webConfig :: .udpOnBoarding :: .station true :: List.replicate 32 .tick) = some (t, us) ∧
        t.sockets = [] ∧ BroadcastKept t := by
  have hmeets : Meets broRunStep BroadcastCond (gAgentLANInit 5 (varInit false))
      (.webConfig :: .udpOnBoarding :: .station true :: List.replicate 32 .tick) := by decide
  exact ⟨_, _, rfl, rfl, broadcast_socket false (by decide) hmeets rfl⟩

/-- A gateway that is configured again after its start has been announced. -/
theorem configured_unheard :
    ∃ t us, runs broRunStep (gAgentLANInit 5 (varInit false))
      (.station true :: List.replicate 31 .tick ++ [.webConfig, .tick]) = some (t, us) ∧
        t.running .onboarding ∧ ¬ t.isOpen ∧ .broadcast .onboarding false ∈ t.log ∧ ¬ BroadcastKept t :=
  ⟨_, _, rfl, by decide, by decide, by decide, fun h => absurd (h.running_open .onboarding (by decide)) (by decide)⟩

end SimpleLink.Gagent.Broadcast
