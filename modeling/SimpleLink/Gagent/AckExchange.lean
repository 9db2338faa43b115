import SimpleLink.Gagent.LocalLink

/-!
# Waiting for the MCU

What `GAgent_CheckAck` does while it waits: a round takes what `GAgent_Local_GetPacket` finds, and a
frame that is not the answer is left at that. `Poll.outside` is what `GAgent_Local_Handle` does with
the same frame when the gateway is not waiting.

An `Exchange` is a frame that asks for an answer, and all the rounds there could be. `Right` is that
the wait ends, the frame is sent at most three times, the result tells whether the answer came in
time, and the other frames are treated as ever. It holds exactly under `Cond`.
-/

namespace SimpleLink.Gagent.AckExchange

open Lib

/-! ## What is done for a frame -/

inductive McuEv where
  /-- The frame that waits for its answer is sent again. -/
  | resent
  /-- `Local_Ack2MCU_Illegal` -/
  | illegal (sn : UInt8) (flag : McuError)
  /-- `Local_Ack2MCU` -/
  | ack (sn cmd : UInt8)
  /-- `ParsePacket` and `dealPacket`, for a packet from the MCU -/
  | forward (rx : List UInt8)
  | config (type : UInt8)
  | reset
  | test
  | bind
  deriving DecidableEq

/-- What `GAgent_Local_GetPacket` reports of a frame that does not pass its check. -/
def refused (q : Poll) : List McuEv :=
  match q.rx with
  | none => []
  | some rx =>
    if rx = [] then []
    else match localDataValidityCheck rx with
      | none => []
      | some flag => [.illegal (byteAt rx MCU_SN_POS) flag]

/-- `GAgent_LocalDataHandle`, with the `dealPacket` that follows it. The answer to a ping sets the
counter of silent ticks to zero, as every frame does when it is received. -/
def localDataHandle (rx : List UInt8) : List McuEv :=
  let cmd := byteAt rx MCU_CMD_POS
  let sn := byteAt rx MCU_SN_POS
  if setCheckSum rx (rx.length - 1) ≠ byteAt rx (rx.length - 1) then []
  else if cmd = MCU_REPORT then [.ack sn (cmd + 1), .forward rx]
  else if cmd = MCU_CONFIG_WIFI then [.ack sn (cmd + 1), .config (byteAt rx 8)]
  else if cmd = MCU_RESET_WIFI then [.ack sn (cmd + 1), .reset]
  else if cmd = WIFI_TEST then [.ack sn (cmd + 1), .test]
  else if cmd = MCU_ENABLE_BIND then [.ack sn (cmd + 1), .bind]
  else []

/-- `GAgent_Local_Handle` -/
def outside (q : Poll) : List McuEv :=
  refused q ++ match q.packet with
    | some rx => localDataHandle rx
    | none => []

/-! ## Rounds -/

inductive Wait where
  | waits (time : UInt32) (resendTime : Nat)
  | ends (ok : Bool)
  deriving DecidableEq

/-- One round of `GAgent_CheckAck` for what was sent in `buf`. -/
def checkAckRound (buf : List UInt8) (time : UInt32) (resendTime : Nat) (q : Poll) :
    List McuEv × Wait :=
  match q.packet with
  | some rx =>
    if (byteAt rx 4).toNat = (byteAt buf 4).toNat + 1 ∧ byteAt buf 5 = byteAt rx 5 then
      if setCheckSum rx (rx.length - 1) = byteAt rx (rx.length - 1) then
        if 9 < rx.length ∧ byteAt rx 4 = MCU_CTRL_CMD_ACK then (refused q ++ [.forward rx], .ends true)
        else (refused q, .ends true)
      else (refused q, .ends false)
    else (refused q, .waits time resendTime)
  | none =>
    if elapsed q.now time ≥ MCU_ACK_TIME_MS then
      if resendTime ≥ 3 then (refused q, .ends false)
      else (refused q ++ [.resent], .waits q.now (resendTime + 1))
    else (refused q, .waits time resendTime)

def Wait.round (buf : List UInt8) (s : Wait) (q : Poll) : List McuEv × Wait :=
  match s with
  | .waits time resendTime => checkAckRound buf time resendTime q
  | .ends ok => ([], .ends ok)

def Wait.run (buf : List UInt8) (s : Wait) (qs : List Poll) : Wait :=
  qs.foldl (fun s q => (s.round buf q).2) s

/-! ## The exchange -/

/-- A frame that was written at `start` and asks for an answer, and the rounds that follow. -/
structure Exchange where
  w : LocalWrite
  hasks : w.asks = true
  frame : List UInt8
  hframe : w.written = some frame
  start : UInt32
  polls : Nat → Poll

namespace Exchange

variable (x : Exchange)

/-- After the first `n` rounds. -/
def state (n : Nat) : Wait := (Wait.waits x.start 1).run x.frame ((List.range n).map x.polls)

/-- What is done in round `n`. -/
def events (n : Nat) : List McuEv := ((x.state n).round x.frame (x.polls n)).1

/-- How often the frame was sent again in the first `n` rounds. -/
def resent (n : Nat) : Nat := ((List.range n).flatMap x.events).count .resent

/-- The timeouts in the first `n` rounds, whatever was answered, and the time from which the next one
counts: nothing was received in a round, and the time is up. -/
def timeouts : Nat → Nat × UInt32
  | 0 => (0, x.start)
  | n + 1 =>
    if (x.polls n).packet = none ∧ MCU_ACK_TIME_MS ≤ elapsed (x.polls n).now (timeouts n).2 then
      ((timeouts n).1 + 1, (x.polls n).now)
    else timeouts n

/-- A frame that acknowledges the one that was sent arrives in round `n`. -/
def AnsweredAt (n : Nat) : Prop := ∃ rx, (x.polls n).packet = some rx ∧ Answers x.w rx

def InTime : Prop := ∃ n, x.AnsweredAt n ∧ (x.timeouts n).1 < 3

structure Right : Prop where
  terminates : ∃ n ok, x.state n = .ends ok
  sends : ∀ n, 1 + x.resent n ≤ 3
  success : ∀ n ok, x.state n = .ends ok → (ok = true ↔ x.InTime)
  others : ∀ n time resendTime, x.state n = .waits time resendTime →
    (x.polls n).packet ≠ none → ¬ x.AnsweredAt n → x.events n = outside (x.polls n)

def handled : List UInt8 := [MCU_REPORT, MCU_CONFIG_WIFI, MCU_RESET_WIFI, WIFI_TEST, MCU_ENABLE_BIND]

def Matched : Prop := (x.w.payload.length + 5) % 256 ≠ 255

structure Cond : Prop where
  /-- The answer comes, or there are three rounds without a frame after the time is up. -/
  stops : x.InTime ∨ ∃ n, 3 ≤ (x.timeouts n).1
  matched : x.InTime → x.Matched
  /-- Up to then the MCU sends nothing that asks for an acknowledgement itself. -/
  quiet : ∀ n rx, (x.timeouts n).1 < 3 → (∀ k ≤ n, ¬ x.AnsweredAt k) →
    (x.polls n).packet = some rx → byteAt rx MCU_CMD_POS ∉ handled

/-! ## One round -/

theorem state_succ (n : Nat) : x.state (n + 1) = ((x.state n).round x.frame (x.polls n)).2 := by
  unfold state Wait.run
  rw [List.range_succ, List.map_append, List.foldl_append]
  rfl

theorem resent_succ (n : Nat) : x.resent (n + 1) = x.resent n + (x.events n).count .resent := by
  unfold resent
  rw [List.range_succ, List.flatMap_append, List.count_append, List.flatMap_singleton]

end Exchange

theorem received_of_packet {q : Poll} {rx : List UInt8} (h : q.packet = some rx) :
    q.rx = some rx ∧ Received rx := by
  obtain ⟨rx', now⟩ := q
  cases rx' with
  | none => cases h
  | some rx' =>
    unfold Poll.packet at h
    dsimp only at h
    split at h
    · rename_i hr
      cases h
      exact ⟨rfl, hr⟩
    · cases h

theorem refused_of_packet {q : Poll} {rx : List UInt8} (h : q.packet = some rx) :
    refused q = [] := by
  obtain ⟨hq, hrx⟩ := received_of_packet h
  unfold refused
  rw [hq]
  dsimp only
  rw [if_neg hrx.1, hrx.2]

theorem count_refused (q : Poll) : (refused q).count .resent = 0 := by
  unfold refused
  split
  · rfl
  · split
    · rfl
    · split <;> rfl

theorem checkSum_of_received {rx : List UInt8} (h : Received rx) :
    setCheckSum rx (rx.length - 1) = byteAt rx (rx.length - 1) := by
  have hnone := h.2
  rw [localDataValidityCheck] at hnone
  split at hnone
  · cases hnone
  split at hnone
  · cases hnone
  · rename_i hs
    exact not_not.1 hs

theorem outside_eq_nil {q : Poll} {rx : List UInt8} (h : q.packet = some rx) :
    outside q = [] ↔ byteAt rx MCU_CMD_POS ∉ Exchange.handled := by
  have hs := checkSum_of_received (received_of_packet h).2
  unfold outside
  rw [refused_of_packet h, h, List.nil_append]
  dsimp only
  unfold localDataHandle
  dsimp only
  rw [if_neg (not_not_intro hs)]
  simp only [Exchange.handled, List.mem_cons, List.not_mem_nil, or_false, not_or]
  split
  · rename_i hc
    exact iff_of_false nofun fun hn => hn.1 hc
  rename_i hreport
  split
  · rename_i hc
    exact iff_of_false nofun fun hn => hn.2.1 hc
  rename_i hconfig
  split
  · rename_i hc
    exact iff_of_false nofun fun hn => hn.2.2.1 hc
  rename_i hreset
  split
  · rename_i hc
    exact iff_of_false nofun fun hn => hn.2.2.2.1 hc
  rename_i htest
  split
  · rename_i hc
    exact iff_of_false nofun fun hn => hn.2.2.2.2 hc
  · rename_i hbind
    exact iff_of_true rfl ⟨hreport, hconfig, hreset, htest, hbind⟩

theorem matches_iff (x : Exchange) {rx : List UInt8} (h : Received rx) :
    ((byteAt rx 4).toNat = (byteAt x.frame 4).toNat + 1 ∧ byteAt x.frame 5 = byteAt rx 5) ↔
      x.Matched ∧ Answers x.w rx := by
  obtain ⟨w, hasks, frame, hframe, start, polls⟩ := x
  rw [← accepts_iff h]
  unfold Exchange.Matched
  dsimp only
  cases w with
  | p0 p hp cmd sn =>
    have hlen := hp.length_payload_lt
    by_cases hroom : p.Room cmd sn
    · obtain ⟨p', hsent⟩ := localDataWriteP0_sent hp hroom
      rw [LocalWrite.written, hsent] at hframe
      cases hframe
      by_cases hl : (p.payload.length + 5) % 256 = 255
      · exact iff_of_false (not_accepts_of_length cmd sn p.payload (by omega) hl h)
          fun hall => hall.1 hl
      · have hans := (matches_p0 cmd sn hp hlen).2 (fun hl' => absurd hl' hl) rx h
        exact hans.trans (and_iff_right hl).symm
    · rw [LocalWrite.written, localDataWriteP0_none hp hroom] at hframe
      cases hframe
  | ack sn cmd => cases hasks
  | illegal sn flag => cases hasks
  | info =>
    obtain ⟨frame', hframe', -, hans⟩ := linked_info
    obtain rfl := Option.some.inj (hframe.symm.trans hframe')
    exact (hans rfl rx h).trans (and_iff_right (show (0 + 5) % 256 ≠ 255 by decide)).symm

namespace Exchange

variable (x : Exchange)

theorem round_answered {n : Nat} (hm : x.Matched) (ha : x.AnsweredAt n) (time : UInt32)
    (resendTime : Nat) : ∃ evs, evs.count .resent = 0 ∧
      (Wait.waits time resendTime).round x.frame (x.polls n) = (evs, .ends true) := by
  obtain ⟨rx, hrx, hans⟩ := ha
  have hrec := (received_of_packet hrx).2
  have hmatch := (matches_iff x hrec).2 ⟨hm, hans⟩
  have hround : (Wait.waits time resendTime).round x.frame (x.polls n) =
      checkAckRound x.frame time resendTime (x.polls n) := rfl
  rw [hround, checkAckRound, hrx]
  dsimp only
  rw [if_pos hmatch, if_pos (checkSum_of_received hrec), refused_of_packet hrx]
  split
  · exact ⟨_, rfl, rfl⟩
  · exact ⟨_, rfl, rfl⟩

theorem round_other {n : Nat} {rx : List UInt8} (hrx : (x.polls n).packet = some rx)
    (hno : ¬ (x.Matched ∧ x.AnsweredAt n)) (time : UInt32) (resendTime : Nat) :
    (Wait.waits time resendTime).round x.frame (x.polls n) = ([], .waits time resendTime) := by
  have hrec := (received_of_packet hrx).2
  have hmatch := (not_congr (matches_iff x hrec)).2 fun hall => hno ⟨hall.1, rx, hrx, hall.2⟩
  show checkAckRound x.frame time resendTime (x.polls n) = _
  unfold checkAckRound
  rw [hrx]
  dsimp only
  rw [if_neg hmatch, refused_of_packet hrx]

theorem round_silent {n : Nat} (hrx : (x.polls n).packet = none) (time : UInt32)
    (resendTime : Nat) : (Wait.waits time resendTime).round x.frame (x.polls n) =
      if MCU_ACK_TIME_MS ≤ elapsed (x.polls n).now time then
        if resendTime ≥ 3 then (refused (x.polls n), .ends false)
        else (refused (x.polls n) ++ [.resent], .waits (x.polls n).now (resendTime + 1))
      else (refused (x.polls n), .waits time resendTime) := by
  show checkAckRound x.frame time resendTime (x.polls n) = _
  unfold checkAckRound
  rw [hrx]

/-! ## All rounds -/

def Accepted (n : Nat) : Prop := x.Matched ∧ x.AnsweredAt n

theorem timeouts_mono {k n : Nat} (h : k ≤ n) : (x.timeouts k).1 ≤ (x.timeouts n).1 := by
  induction h with
  | refl => exact Nat.le_refl _
  | step _ ih =>
    refine ih.trans ?_
    rw [timeouts]
    split
    · exact Nat.le_succ _
    · exact Nat.le_refl _

/-- Where the exchange stands after `n` rounds. The gateway waits as long as it has recognised no
answer and the third timeout has not come. -/
def After (n : Nat) : Wait → Prop
  | .waits time resendTime => (∀ k < n, ¬ x.Accepted k) ∧ (x.timeouts n).1 < 3 ∧
      time = (x.timeouts n).2 ∧ resendTime = (x.timeouts n).1 + 1 ∧ x.resent n = (x.timeouts n).1
  | .ends true => x.resent n ≤ 2 ∧ ∃ k < n, x.Accepted k ∧ (x.timeouts k).1 < 3
  | .ends false => x.resent n ≤ 2 ∧ 3 ≤ (x.timeouts n).1 ∧
      ∀ k, x.Accepted k → 3 ≤ (x.timeouts k).1

theorem resent_succ_of_round {n : Nat} {time : UInt32} {resendTime : Nat} {evs : List McuEv}
    {s : Wait} (hs : x.state n = .waits time resendTime)
    (hround : (Wait.waits time resendTime).round x.frame (x.polls n) = (evs, s)) :
    x.state (n + 1) = s ∧ x.resent (n + 1) = x.resent n + evs.count .resent := by
  rw [state_succ, resent_succ, events, hs, hround]
  exact ⟨rfl, rfl⟩

theorem after_of_waits {n : Nat} {time : UInt32} {resendTime : Nat}
    (hs : x.state n = .waits time resendTime) (h : x.After n (.waits time resendTime)) :
    x.After (n + 1) (x.state (n + 1)) := by
  obtain ⟨hno, hlt, rfl, rfl, hsent⟩ := h
  have hsucc : ¬ x.Accepted n → ∀ k < n + 1, ¬ x.Accepted k := by
    intro hn k hk
    rcases Nat.lt_succ_iff_lt_or_eq.1 hk with hk | rfl
    · exact hno k hk
    · exact hn
  cases hp : (x.polls n).packet with
  | some rx =>
    have htime : x.timeouts (n + 1) = x.timeouts n := by
      rw [timeouts, if_neg (by rw [hp]; exact nofun)]
    by_cases hacc : x.Accepted n
    · obtain ⟨evs, hzero, hround⟩ :=
        x.round_answered hacc.1 hacc.2 (x.timeouts n).2 ((x.timeouts n).1 + 1)
      obtain ⟨hstate, hcount⟩ := x.resent_succ_of_round hs hround
      rw [hstate]
      exact ⟨by omega, n, Nat.lt_succ_self n, hacc, hlt⟩
    · have hround := x.round_other hp hacc (x.timeouts n).2 ((x.timeouts n).1 + 1)
      obtain ⟨hstate, hcount⟩ := x.resent_succ_of_round hs hround
      rw [hstate]
      refine ⟨hsucc hacc, ?_, ?_, ?_, ?_⟩
      · rwa [htime]
      · rw [htime]
      · rw [htime]
      · rw [hcount, htime, hsent]
        rfl
  | none =>
    have hacc : ¬ x.Accepted n := by
      rintro ⟨-, rx, hrx, -⟩
      rw [hp] at hrx
      cases hrx
    have hround := x.round_silent hp (x.timeouts n).2 ((x.timeouts n).1 + 1)
    by_cases hup : MCU_ACK_TIME_MS ≤ elapsed (x.polls n).now (x.timeouts n).2
    · have htime : x.timeouts (n + 1) = ((x.timeouts n).1 + 1, (x.polls n).now) := by
        rw [timeouts, if_pos ⟨hp, hup⟩]
      rw [if_pos hup] at hround
      by_cases hlast : (x.timeouts n).1 + 1 ≥ 3
      · rw [if_pos hlast] at hround
        obtain ⟨hstate, hcount⟩ := x.resent_succ_of_round hs hround
        rw [hstate]
        have hthree : 3 ≤ (x.timeouts (n + 1)).1 := by rw [htime]; exact hlast
        rw [count_refused] at hcount
        refine ⟨by omega, hthree, fun k hk => ?_⟩
        have hle : n + 1 ≤ k := Nat.lt_of_not_le fun hkn => hsucc hacc k (Nat.lt_succ_of_le hkn) hk
        exact hthree.trans (x.timeouts_mono hle)
      · rw [if_neg hlast] at hround
        obtain ⟨hstate, hcount⟩ := x.resent_succ_of_round hs hround
        rw [hstate]
        rw [List.count_append, count_refused, List.count_singleton_self] at hcount
        refine ⟨hsucc hacc, ?_, ?_, ?_, ?_⟩
        · rw [htime]
          exact Nat.lt_of_not_le hlast
        · rw [htime]
        · rw [htime]
        · rw [hcount, htime, hsent, Nat.zero_add]
    · have htime : x.timeouts (n + 1) = x.timeouts n := by
        rw [timeouts, if_neg fun hb => hup hb.2]
      rw [if_neg hup] at hround
      obtain ⟨hstate, hcount⟩ := x.resent_succ_of_round hs hround
      rw [hstate]
      rw [count_refused] at hcount
      refine ⟨hsucc hacc, ?_, ?_, ?_, ?_⟩
      · rwa [htime]
      · rw [htime]
      · rw [htime]
      · rw [hcount, htime, hsent, Nat.add_zero]

theorem after (n : Nat) : x.After n (x.state n) := by
  induction n with
  | zero => exact ⟨fun k hk => absurd hk (Nat.not_lt_zero k), Nat.zero_lt_succ 2, rfl, rfl, rfl⟩
  | succ n ih =>
    cases hs : x.state n with
    | waits time resendTime =>
      rw [hs] at ih
      exact x.after_of_waits hs ih
    | ends ok =>
      rw [hs] at ih
      have hstate : x.state (n + 1) = .ends ok := by rw [state_succ, hs]; rfl
      have hsent : x.resent (n + 1) = x.resent n := by rw [resent_succ, events, hs]; rfl
      rw [hstate]
      cases ok with
      | true =>
        obtain ⟨hle, k, hk, hacc⟩ := ih
        exact ⟨hsent ▸ hle, k, Nat.lt_succ_of_lt hk, hacc⟩
      | false =>
        obtain ⟨hle, hthree, hall⟩ := ih
        exact ⟨hsent ▸ hle, hthree.trans (x.timeouts_mono (Nat.le_succ n)), hall⟩

theorem waits_of {n : Nat} (hno : ∀ k < n, ¬ x.Accepted k) (hlt : (x.timeouts n).1 < 3) :
    ∃ time resendTime, x.state n = .waits time resendTime := by
  have hafter := x.after n
  cases hs : x.state n with
  | waits time resendTime => exact ⟨time, resendTime, rfl⟩
  | ends ok =>
    rw [hs] at hafter
    cases ok with
    | true =>
      obtain ⟨-, k, hk, hacc, -⟩ := hafter
      exact absurd hacc (hno k hk)
    | false => exact absurd hafter.2.1 (Nat.not_le_of_lt hlt)

theorem ends_iff {n : Nat} {ok : Bool} (h : x.state n = .ends ok) :
    ok = true ↔ ∃ k, x.Accepted k ∧ (x.timeouts k).1 < 3 := by
  have hafter := x.after n
  rw [h] at hafter
  cases ok with
  | true =>
    obtain ⟨-, k, -, hacc⟩ := hafter
    exact iff_of_true rfl ⟨k, hacc⟩
  | false =>
    refine iff_of_false nofun ?_
    rintro ⟨k, hacc, hlt⟩
    exact Nat.not_le_of_lt hlt (hafter.2.2 k hacc)

theorem ends_of_accepted {n : Nat} (hacc : x.Accepted n) : ∃ ok, x.state (n + 1) = .ends ok := by
  cases hs : x.state n with
  | waits time resendTime =>
    obtain ⟨evs, -, hround⟩ := x.round_answered hacc.1 hacc.2 time resendTime
    exact ⟨true, (x.resent_succ_of_round hs hround).1⟩
  | ends ok => exact ⟨ok, by rw [state_succ, hs]; rfl⟩

theorem resent_le (n : Nat) : x.resent n ≤ 2 := by
  have hafter := x.after n
  cases hs : x.state n with
  | waits time resendTime =>
    rw [hs] at hafter
    obtain ⟨-, hlt, -, -, hsent⟩ := hafter
    omega
  | ends ok =>
    rw [hs] at hafter
    cases ok with
    | true => exact hafter.1
    | false => exact hafter.1

theorem events_of_waits {n : Nat} {time : UInt32} {resendTime : Nat}
    (hs : x.state n = .waits time resendTime) {rx : List UInt8}
    (hrx : (x.polls n).packet = some rx) (hno : ¬ x.AnsweredAt n) :
    x.events n = outside (x.polls n) ↔ byteAt rx MCU_CMD_POS ∉ handled := by
  rw [← outside_eq_nil hrx, events, hs, x.round_other hrx fun hacc => hno hacc.2]
  exact eq_comm

/-- The exchange goes right exactly under `Cond`. -/
theorem ack_exchange : x.Right ↔ x.Cond := by
  constructor
  · intro h
    obtain ⟨n, ok, hend⟩ := h.terminates
    refine ⟨?_, fun hin => ?_, fun n rx hlt hno hrx => ?_⟩
    · have hafter := x.after n
      rw [hend] at hafter
      cases ok with
      | true => exact .inl ((h.success n true hend).1 rfl)
      | false => exact .inr ⟨n, hafter.2.1⟩
    · obtain ⟨k, hacc, -⟩ := (x.ends_iff hend).1 ((h.success n ok hend).2 hin)
      exact hacc.1
    · obtain ⟨time, resendTime, hs⟩ := x.waits_of (fun k hk hacc => hno k hk.le hacc.2) hlt
      have hsome : (x.polls n).packet ≠ none := by rw [hrx]; exact nofun
      have heq := h.others n time resendTime hs hsome (hno n (Nat.le_refl n))
      exact (x.events_of_waits hs hrx (hno n (Nat.le_refl n))).1 heq
  · intro h
    have haccepted {k : Nat} (ha : x.AnsweredAt k) (hlt : (x.timeouts k).1 < 3) : x.Accepted k :=
      ⟨h.matched ⟨k, ha, hlt⟩, ha⟩
    refine ⟨?_, fun n => ?_, fun n ok hend => ?_, fun n time resendTime hs hsome hno => ?_⟩
    · rcases h.stops with ⟨k, ha, hlt⟩ | ⟨n, hthree⟩
      · obtain ⟨ok, hok⟩ := x.ends_of_accepted (haccepted ha hlt)
        exact ⟨k + 1, ok, hok⟩
      · cases hs : x.state n with
        | waits time resendTime =>
          have hafter := x.after n
          rw [hs] at hafter
          exact absurd hthree (Nat.not_le_of_lt hafter.2.1)
        | ends ok => exact ⟨n, ok, hs⟩
    · have := x.resent_le n
      omega
    · rw [x.ends_iff hend]
      constructor
      · rintro ⟨k, hacc, hlt⟩
        exact ⟨k, hacc.2, hlt⟩
      · rintro ⟨k, ha, hlt⟩
        exact ⟨k, haccepted ha hlt, hlt⟩
    · obtain ⟨rx, hrx⟩ := Option.ne_none_iff_exists'.1 hsome
      have hafter := x.after n
      rw [hs] at hafter
      obtain ⟨hbefore, hlt, -⟩ := hafter
      refine (x.events_of_waits hs hrx hno).2 (h.quiet n rx hlt (fun k hk ha => ?_) hrx)
      rcases Nat.lt_or_eq_of_le hk with hk | rfl
      · exact hbefore k hk (haccepted ha (Nat.lt_of_le_of_lt (x.timeouts_mono hk.le) hlt))
      · exact hno ha

end Exchange

def reportFirst : Exchange where
  w := .info
  hasks := rfl
  frame := getMcuInfoBuf
  hframe := rfl
  start := 0
  polls n := if n = 0 then ⟨some (plainFrame MCU_REPORT 9 [1]), 0⟩ else ⟨none, 200 * n.toUInt32⟩

/-- The report is neither acknowledged nor passed on. -/
theorem report_dropped : ¬ ∀ x : Exchange, x.Right := by
  intro hall
  have hrx : (reportFirst.polls 0).packet = some (plainFrame MCU_REPORT 9 [1]) := by decide
  have hno : ¬ reportFirst.AnsweredAt 0 := by
    rintro ⟨rx, hrx', hcmd, -⟩
    obtain rfl := Option.some.inj (hrx.symm.trans hrx')
    revert hcmd
    decide
  have heq := (hall reportFirst).others 0 0 1 rfl (by rw [hrx]; exact nofun) hno
  exact (reportFirst.events_of_waits rfl hrx hno).1 heq (by decide)

end SimpleLink.Gagent.AckExchange
