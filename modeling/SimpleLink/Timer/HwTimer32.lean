import SimpleLink.Timer.CcTimer

/-!
# The monotone mode of a 32 bit timer (`hw_timer32.c`)

The hardware counts up 32 bits and interrupts when it rolls over and when it
matches a value. The software counts the rollovers, in the interrupt or ahead of
it: a read takes the time of its own access into account, and if that leads over
the end of the period it counts the rollover early.

`now` is what a counter of 64 bits would show. A step is a tick, a call (with the
interrupts disabled), or a part of the interrupt: between the read of its status
and its critical section, and around the callback, the counter goes on and calls
may be made.
-/

namespace SimpleLink.Timer.Hwt32

open Lib CcTimer

/-! ## The software -/

/-- `HWT32_ACCESS_CYCLES` -/
def hwt32AccessCycles : UInt32 := 5000

/-- `struct hw_timer32`, as far as the monotone mode uses it. -/
structure HwTimer32 where
  swEarlyRo : Bool
  nRollovers : UInt32
  mtoneExpy : U64Val

/-- `hwt32_process_monotone_current`, for the value of the counter. -/
def hwt32ProcessMonotoneCurrent (hwt : HwTimer32) (count : UInt32) : HwTimer32 × U64Val :=
  let current64 := utilU32DataAdd count hwt32AccessCycles
  let hwt := if current64.hi32 ≠ 0 ∧ hwt.swEarlyRo = false then
      { hwt with swEarlyRo := true, nRollovers := hwt.nRollovers + 1 }
    else hwt
  (hwt, { current64 with hi32 := hwt.nRollovers })

/-- `v1_to_v2_offset32` -/
def v1ToV2Offset32 (v1 v2 : UInt32) : UInt32 := if v2 > v1 then v2 - v1 else v1 + ~~~v2 + 1

/-- `expires` is too close to be sure of the interrupt. -/
def tooClose (current expires : UInt32) : Bool :=
  v1ToV2Offset32 current expires < hwt32AccessCycles ||
    v1ToV2Offset32 expires current < hwt32AccessCycles

/-- `hwt32_update_monotone`: the timer, the value that has been computed, and the match value. -/
def hwt32UpdateMonotone (hwt : HwTimer32) (count expires : UInt32) : HwTimer32 × U64Val × UInt32 :=
  let (hwt, value64) := hwt32ProcessMonotoneCurrent hwt count
  let current := value64.lo32
  let pushed : U64Val := if tooClose current expires then utilU32DataAdd hwt32AccessCycles current
    else ⟨0, expires⟩
  ({ hwt with mtoneExpy := ⟨pushed.hi32 + hwt.nRollovers, pushed.lo32⟩ }, value64, pushed.lo32)

/-- The interrupt status, or the flags that are raised in the hardware. -/
structure IntStatus where
  timeout : Bool
  matched : Bool

/-- The critical section of `hwt32_handle_monotone_timeout`. -/
def hwt32CountTimeout (hwt : HwTimer32) (status : IntStatus) (count : UInt32) :
    HwTimer32 × U64Val :=
  let hwt := if status.timeout then
      if hwt.swEarlyRo = false then { hwt with nRollovers := hwt.nRollovers + 1 }
      else { hwt with swEarlyRo := false }
    else hwt
  hwt32ProcessMonotoneCurrent hwt count

/-! ## The timer with its hardware -/

/-- Where `cc_hwt32_isr` is: it has read the status, is behind its critical section, or has compared
the expiry. -/
inductive Isr where
  | idle
  | entered (status : IntStatus)
  | counted (status : IntStatus) (current64 : U64Val)
  | compared (status : IntStatus)

/-- `expiry` is the 64 bit value that was asked for. -/
structure Sys where
  hwt : HwTimer32
  now : Nat
  matchVal : UInt32
  raised : IntStatus
  isr : Isr
  expiry : Nat

/-- The monotone timer after `cc_hwt32_start`. -/
def start (expires : UInt32) : Sys where
  hwt := ⟨false, 0, ⟨0, 0⟩⟩
  now := 0
  matchVal := expires
  raised := ⟨false, false⟩
  isr := .idle
  expiry := expires.toNat

def Sys.count (s : Sys) : UInt32 := UInt32.ofNat s.now

/-- The next value from `value` on with the low word `expires`, or later if that is too close. -/
def askedExpiry (value : Nat) (expires : UInt32) : Nat :=
  if tooClose (UInt32.ofNat value) expires then value + hwt32AccessCycles.toNat
  else value + (expires - UInt32.ofNat value).toNat

inductive Op where
  | tick
  /-- `cc_hwt32_get_current`, with the rollovers. -/
  | read
  /-- `cc_hwt32_update`. -/
  | update (expires : UInt32)
  | enter
  | count
  | compare
  | exit

/-- What a step shows: a computed value, with the counter, or a call of the timeout callback, with the
expiry and the value that it was compared with. -/
inductive Out where
  | none
  | value (now : Nat) (value : Nat)
  | reported (expiry : Nat) (value : Nat)
  deriving DecidableEq

/-- A rollover is not reached while the interrupt of the one before has not been serviced. -/
def sysTick (s : Sys) : Option Sys :=
  let rolls := (s.now + 1) % 2 ^ 32 = 0
  if rolls ∧ s.raised.timeout = true then none
  else some { s with
    now := s.now + 1
    raised := ⟨s.raised.timeout || rolls,
      s.raised.matched || UInt32.ofNat (s.now + 1) = s.matchVal⟩ }

def sysStep (s : Sys) : Op → Option (Sys × Out)
  | .tick => (sysTick s).map fun s' => (s', .none)
  | .read =>
    let (hwt, current64) := hwt32ProcessMonotoneCurrent s.hwt s.count
    some ({ s with hwt := hwt }, .value s.now current64.toNat)
  | .update expires =>
    if expires = 0 then some (s, .none)
    else
      let (hwt, value64, matchVal) := hwt32UpdateMonotone s.hwt s.count expires
      some ({ s with
        hwt := hwt
        matchVal := matchVal
        expiry := askedExpiry (s.now + hwt32AccessCycles.toNat) expires },
        .value s.now value64.toNat)
  | .enter =>
    match s.isr with
    | .idle =>
      if s.raised.timeout || s.raised.matched then some ({ s with isr := .entered s.raised }, .none)
      else none
    | _ => none
  | .count =>
    match s.isr with
    | .entered status =>
      let (hwt, current64) := hwt32CountTimeout s.hwt status s.count
      some ({ s with hwt := hwt, isr := .counted status current64 },
        .value s.now current64.toNat)
    | _ => none
  | .compare =>
    match s.isr with
    | .counted status current64 =>
      some ({ s with isr := .compared status },
        if status.matched ∧ utilU64DataCmp s.hwt.mtoneExpy current64 ≤ 0 then
          .reported s.expiry current64.toNat
        else .none)
    | _ => none
  | .exit =>
    match s.isr with
    | .compared status =>
      some ({ s with
        raised := ⟨s.raised.timeout && !status.timeout, s.raised.matched && !status.matched⟩
        isr := .idle }, .none)
    | _ => none

/-! ## The property and the condition -/

def values : List Out → List Nat
  | [] => []
  | .value _ v :: os => v :: values os
  | _ :: os => values os

/-- The values do not decrease, and each is the counter at the end of its access; an expiry is
reported when the value has reached it. -/
structure CounterLaw (os : List Out) : Prop where
  mono : (values os).Pairwise (· ≤ ·)
  exact : ∀ now v, .value now v ∈ os → v = now + hwt32AccessCycles.toNat
  reached : ∀ expiry v, .reported expiry v ∈ os → expiry ≤ v

def Isr.hasCounted : Isr → Bool
  | counted status _ | compared status => status.timeout
  | _ => false

def Isr.hasCompared : Isr → Bool
  | compared status => status.matched
  | _ => false

def Sys.uncounted (s : Sys) : Bool := s.raised.timeout && !s.isr.hasCounted

def Sys.carries (s : Sys) : Bool := 2 ^ 32 ≤ s.now % 2 ^ 32 + hwt32AccessCycles.toNat

/-- There is a rollover to count that was not counted early, or that was, and now the next one is
so near that it would have to be. -/
def Sys.Stale (s : Sys) : Prop :=
  s.uncounted = true ∧ (s.hwt.swEarlyRo = false ∨ s.carries = true)

def Sys.matchPending (s : Sys) : Bool := s.raised.matched && !s.isr.hasCompared

/-- `expires` is in the period after that of the current value. -/
def nextPeriod (current expires : UInt32) : Bool := !tooClose current expires && expires < current

/-- The condition of a step: no value is computed while a rollover is to be counted, but in the
interrupt that counts it; the expiry is not moved to the next period while a match is pending; and
the counter stays below 2 ^ 64. -/
def CounterCond (s : Sys) : Op → Prop
  | .tick => s.now + 1 + 2 * hwt32AccessCycles.toNat < 2 ^ 64
  | .read => ¬ s.Stale
  | .update expires => expires ≠ 0 → ¬ s.Stale ∧
      (nextPeriod (UInt32.ofNat (s.now + hwt32AccessCycles.toNat)) expires →
        s.matchPending = false)
  | .count => (∃ status, s.isr = .entered status ∧ status.timeout = true) ∨ ¬ s.Stale
  | _ => True

/-! ## A computed value -/

theorem utilU32DataAdd_toNat (data1 data2 : UInt32) :
    (utilU32DataAdd data1 data2).lo32.toNat = (data1.toNat + data2.toNat) % 2 ^ 32 ∧
      (utilU32DataAdd data1 data2).hi32.toNat = (data1.toNat + data2.toNat) / 2 ^ 32 := by
  have h1 := data1.toNat_lt
  have h2 := data2.toNat_lt
  unfold utilU32DataAdd
  simp only [GT.gt, UInt32.lt_iff_toNat_lt, UInt32.toNat_not, UInt32.size]
  split
  · simp only [UInt32.toNat_sub, UInt32.toNat_not, UInt32.size, UInt32.toNat_one]
    omega
  · simp only [UInt32.toNat_add, UInt32.toNat_zero, true_and]
    omega

theorem utilU64DataCmp_nonpos (v w : U64Val) : utilU64DataCmp v w ≤ 0 ↔ v.toNat ≤ w.toNat := by
  have hv := v.lo32.toNat_lt
  have hw := w.lo32.toNat_lt
  unfold utilU64DataCmp utilU32DataCmp U64Val.toNat
  simp only [← UInt32.toNat_inj, GT.gt, UInt32.lt_iff_toNat_lt]
  split
  · split
    · omega
    · split <;> omega
  · split <;> omega

@[simp] theorem hwt32AccessCycles_toNat : hwt32AccessCycles.toNat = 5000 := rfl

/-- The rollovers of the software are those of the counter, less one to be counted, and one more
that was counted early; and that is so only near the end of the period. -/
structure Rolls (hwt : HwTimer32) (now : Nat) (uncounted : Bool) : Prop where
  count : hwt.nRollovers.toNat + uncounted.toNat = now / 2 ^ 32 + hwt.swEarlyRo.toNat
  early : hwt.swEarlyRo = true → uncounted = false → 2 ^ 32 ≤ now % 2 ^ 32 + 5000

/-- The value is the counter at the end of the access, unless a rollover is to be counted that was
not counted early, or would have to be counted early as well. -/
theorem process_spec {hwt : HwTimer32} {now : Nat} {u : Bool} (h : Rolls hwt now u)
    (hlt : now + 5000 < 2 ^ 64) :
    Rolls (hwt32ProcessMonotoneCurrent hwt (UInt32.ofNat now)).1 now u ∧
      (hwt32ProcessMonotoneCurrent hwt (UInt32.ofNat now)).1.mtoneExpy = hwt.mtoneExpy ∧
      (hwt32ProcessMonotoneCurrent hwt (UInt32.ofNat now)).2.lo32 = UInt32.ofNat (now + 5000) ∧
      ((hwt32ProcessMonotoneCurrent hwt (UInt32.ofNat now)).2.toNat = now + 5000 ↔
        ¬ (u = true ∧ (hwt.swEarlyRo = false ∨ 2 ^ 32 ≤ now % 2 ^ 32 + 5000))) := by
  obtain ⟨hcount, hearly⟩ := h
  obtain ⟨hlo, hhi⟩ := utilU32DataAdd_toNat (UInt32.ofNat now) hwt32AccessCycles
  rw [UInt32.toNat_ofNat', hwt32AccessCycles_toNat] at hlo hhi
  have hn := hwt.nRollovers.toNat_lt
  have hlow : (utilU32DataAdd (UInt32.ofNat now) hwt32AccessCycles).lo32 =
      UInt32.ofNat (now + 5000) := by
    rw [← UInt32.toNat_inj, hlo, UInt32.toNat_ofNat']
    omega
  have hcarry : (utilU32DataAdd (UInt32.ofNat now) hwt32AccessCycles).hi32 ≠ 0 ↔
      2 ^ 32 ≤ now % 2 ^ 32 + 5000 := by
    rw [ne_eq, ← UInt32.toNat_inj, hhi, UInt32.toNat_zero]
    omega
  unfold hwt32ProcessMonotoneCurrent
  simp only [hcarry, hlow, U64Val.toNat, UInt32.toNat_ofNat']
  by_cases hc : 2 ^ 32 ≤ now % 2 ^ 32 + 5000 ∧ hwt.swEarlyRo = false
  · -- the rollover is counted early
    rw [if_pos hc]
    obtain ⟨hc, he⟩ := hc
    rw [he, Bool.toNat_false] at hcount
    have hsucc : (hwt.nRollovers + 1).toNat = hwt.nRollovers.toNat + 1 := by
      rw [UInt32.toNat_add, UInt32.toNat_one]
      omega
    refine ⟨⟨?_, fun _ _ => hc⟩, rfl, trivial, ?_⟩
    · show (hwt.nRollovers + 1).toNat + u.toNat = now / 2 ^ 32 + 1
      omega
    · rw [hsucc]
      cases u with
      | true =>
        rw [Bool.toNat_true] at hcount
        simp only [he, true_or, and_self, not_true_eq_false, iff_false]
        omega
      | false =>
        rw [Bool.toNat_false] at hcount
        simp only [Bool.false_eq_true, false_and, not_false_eq_true, iff_true]
        omega
  · rw [if_neg hc]
    refine ⟨⟨hcount, hearly⟩, rfl, trivial, ?_⟩
    cases he : hwt.swEarlyRo with
    | true =>
      rw [he, Bool.toNat_true] at hcount
      cases u with
      | true =>
        rw [Bool.toNat_true] at hcount
        simp only [Bool.true_eq_false, false_or, true_and]
        omega
      | false =>
        have hnear := hearly he rfl
        rw [Bool.toNat_false] at hcount
        simp only [Bool.false_eq_true, false_and, not_false_eq_true, iff_true]
        omega
    | false =>
      have hfar : ¬ 2 ^ 32 ≤ now % 2 ^ 32 + 5000 := fun h => hc ⟨h, he⟩
      rw [he, Bool.toNat_false] at hcount
      cases u with
      | true =>
        rw [Bool.toNat_true] at hcount
        simp only [true_or, and_self, not_true_eq_false, iff_false]
        omega
      | false =>
        rw [Bool.toNat_false] at hcount
        simp only [Bool.false_eq_true, false_and, not_false_eq_true, iff_true]
        omega

/-! ## The invariant -/

def Isr.status : Isr → Option IntStatus
  | idle => none
  | entered status | counted status _ | compared status => some status

/-- The stored expiry is that of an earlier period: then the hardware matches no earlier than at the
expiry that was asked for, and has not matched before it. -/
structure Due (s : Sys) : Prop where
  next : ∀ t, s.now < t → t % 2 ^ 32 = s.matchVal.toNat → s.expiry ≤ t
  pending : s.matchPending = true → s.expiry ≤ s.now
  latched : ∀ status current64, s.isr = .counted status current64 → status.matched = true →
    s.expiry ≤ current64.toNat

structure Inv (s : Sys) : Prop where
  rolls : Rolls s.hwt s.now s.uncounted
  bound : s.now + 2 * 5000 < 2 ^ 64
  raised : ∀ status ∈ s.isr.status, (status.timeout = true → s.raised.timeout = true) ∧
    (status.matched = true → s.raised.matched = true)
  expiry : s.hwt.mtoneExpy.toNat = s.expiry ∨ Due s

def Out.Right (s : Sys) : Out → Prop
  | none => True
  | value now v => now = s.now ∧ v = s.now + 5000
  | reported expiry v => expiry ≤ v

theorem inv_start (expires : UInt32) : Inv (start expires) where
  rolls := ⟨by simp [start, Sys.uncounted], nofun⟩
  bound := by
    show 0 + 2 * 5000 < 2 ^ 64
    omega
  raised := nofun
  expiry := by
    refine .inr ⟨fun t _ ht => ?_, nofun, nofun⟩
    show expires.toNat ≤ t
    have hle := Nat.mod_le t (2 ^ 32)
    exact Nat.le_trans (Nat.le_of_eq ht.symm) hle

section

variable {s s' : Sys} {o : Out}

theorem Sys.stale_iff (s : Sys) : s.Stale ↔
    s.uncounted = true ∧ (s.hwt.swEarlyRo = false ∨ 2 ^ 32 ≤ s.now % 2 ^ 32 + 5000) := by
  unfold Sys.Stale Sys.carries
  rw [hwt32AccessCycles_toNat, decide_eq_true_iff]

theorem Inv.withHwt (h : Inv s) {hwt : HwTimer32} (hrolls : Rolls hwt s.now s.uncounted)
    (hexpy : hwt.mtoneExpy = s.hwt.mtoneExpy) : Inv { s with hwt := hwt } where
  rolls := hrolls
  bound := h.bound
  raised := h.raised
  expiry := by
    rcases h.expiry with heq | ⟨hnext, hpending, hlatched⟩
    · refine .inl ?_
      show hwt.mtoneExpy.toNat = s.expiry
      rw [hexpy, heq]
    · exact .inr ⟨hnext, hpending, hlatched⟩

theorem read_inv (h : Inv s) (hfresh : ¬ s.Stale) (hs : sysStep s .read = some (s', o)) :
    Inv s' ∧ o.Right s ∧ s.now ≤ s'.now := by
  have hlt := h.bound
  obtain ⟨hrolls, hexpy, -, hval⟩ := process_spec h.rolls (by omega)
  rw [Sys.stale_iff] at hfresh
  cases hs
  exact ⟨h.withHwt hrolls hexpy, ⟨rfl, hval.2 hfresh⟩, Nat.le_refl _⟩

/-- A tick that starts a period leaves a rollover to be counted; another one leaves what there is. -/
theorem Rolls.tick {hwt : HwTimer32} {now : Nat} {u : Bool} (h : Rolls hwt now u)
    (hu : (now + 1) % 2 ^ 32 = 0 → u = false) :
    Rolls hwt (now + 1) (u || decide ((now + 1) % 2 ^ 32 = 0)) := by
  obtain ⟨hcount, hearly⟩ := h
  by_cases hroll : (now + 1) % 2 ^ 32 = 0
  · rw [hu hroll, Bool.toNat_false] at hcount
    rw [decide_eq_true hroll, Bool.or_true]
    refine ⟨?_, fun _ h => nomatch h⟩
    rw [Bool.toNat_true]
    omega
  · rw [decide_eq_false hroll, Bool.or_false]
    refine ⟨by omega, fun he hu => ?_⟩
    have hnear := hearly he hu
    omega

theorem Inv.hasCounted (h : Inv s) (hc : s.isr.hasCounted = true) : s.raised.timeout = true := by
  have hraised := h.raised
  cases hisr : s.isr with
  | idle => rw [hisr] at hc; cases hc
  | entered status => rw [hisr] at hc; cases hc
  | counted status current64 =>
    rw [hisr] at hc hraised
    exact (hraised status rfl).1 hc
  | compared status =>
    rw [hisr] at hc hraised
    exact (hraised status rfl).1 hc

theorem tick_inv (h : Inv s) (hbound : s.now + 1 + 2 * 5000 < 2 ^ 64)
    (hs : sysStep s .tick = some (s', o)) : Inv s' ∧ o.Right s ∧ s.now ≤ s'.now := by
  obtain ⟨s'', htick, heq⟩ := Option.map_eq_some_iff.1 hs
  obtain ⟨rfl, rfl⟩ := Prod.mk.inj heq
  unfold sysTick at htick
  dsimp only at htick
  split at htick
  · cases htick
  · rename_i hserviced
    have hroll : (s.now + 1) % 2 ^ 32 = 0 → s.raised.timeout = false := by
      intro hroll
      by_contra ht
      exact hserviced ⟨hroll, by simpa using ht⟩
    have hnone : (s.now + 1) % 2 ^ 32 = 0 → s.isr.hasCounted = false := by
      intro h0
      by_contra hc
      have ht := h.hasCounted (by simpa using hc)
      rw [hroll h0] at ht
      cases ht
    have hrolls := h.rolls.tick fun h0 => by rw [Sys.uncounted, hroll h0]; rfl
    cases htick
    refine ⟨⟨?_, hbound, fun status hst => ?_, ?_⟩, trivial, Nat.le_succ _⟩
    · have huncounted : ((s.raised.timeout || decide ((s.now + 1) % 2 ^ 32 = 0)) &&
          !s.isr.hasCounted) = (s.uncounted || decide ((s.now + 1) % 2 ^ 32 = 0)) := by
        rw [Sys.uncounted]
        by_cases h0 : (s.now + 1) % 2 ^ 32 = 0
        · rw [hnone h0, decide_eq_true h0, Bool.or_true, Bool.or_true]
          rfl
        · rw [decide_eq_false h0, Bool.or_false, Bool.or_false]
      rw [← huncounted] at hrolls
      exact hrolls
    · obtain ⟨ht, hm⟩ := h.raised status hst
      exact ⟨fun h => by simp [ht h], fun h => by simp [hm h]⟩
    · rcases h.expiry with heq | ⟨hnext, hpending, hlatched⟩
      · exact .inl heq
      · refine .inr ⟨fun t ht hmod => hnext t (Nat.lt_of_succ_lt ht) hmod, fun hp => ?_, hlatched⟩
        show s.expiry ≤ s.now + 1
        have hp : ((s.raised.matched || decide (UInt32.ofNat (s.now + 1) = s.matchVal)) &&
          !s.isr.hasCompared) = true := hp
        by_cases hmatch : UInt32.ofNat (s.now + 1) = s.matchVal
        · refine hnext (s.now + 1) (Nat.lt_succ_self _) ?_
          rw [← hmatch, UInt32.toNat_ofNat']
        · rw [decide_eq_false hmatch, Bool.or_false] at hp
          exact Nat.le_succ_of_le (hpending hp)

theorem enter_inv (h : Inv s) (hs : sysStep s .enter = some (s', o)) :
    Inv s' ∧ o.Right s ∧ s.now ≤ s'.now := by
  unfold sysStep at hs
  dsimp only at hs
  split at hs
  · rename_i hidle
    split at hs
    · cases hs
      have huncounted : s.uncounted = (s.raised.timeout && !(Isr.entered s.raised).hasCounted) := by
        rw [Sys.uncounted, hidle]
        rfl
      have hpend : s.matchPending = (s.raised.matched && !(Isr.entered s.raised).hasCompared) := by
        rw [Sys.matchPending, hidle]
        rfl
      refine ⟨⟨?_, h.bound, fun status hst => ?_, ?_⟩, trivial, Nat.le_refl _⟩
      · have hrolls := h.rolls
        rw [huncounted] at hrolls
        exact hrolls
      · cases hst
        exact ⟨id, id⟩
      · rcases h.expiry with heq | ⟨hnext, hpending, -⟩
        · exact .inl heq
        · rw [hpend] at hpending
          exact .inr ⟨hnext, hpending, nofun⟩
    · cases hs
  · cases hs

theorem Rolls.countTimeout {hwt : HwTimer32} {now : Nat} (h : Rolls hwt now true)
    (hlt : now < 2 ^ 64) :
    Rolls (if hwt.swEarlyRo = false then { hwt with nRollovers := hwt.nRollovers + 1 }
      else { hwt with swEarlyRo := false }) now false := by
  obtain ⟨hcount, -⟩ := h
  rw [Bool.toNat_true] at hcount
  cases he : hwt.swEarlyRo with
  | false =>
    rw [he, Bool.toNat_false] at hcount
    rw [if_pos rfl]
    refine ⟨?_, nofun⟩
    show (hwt.nRollovers + 1).toNat + 0 = now / 2 ^ 32 + 0
    rw [UInt32.toNat_add, UInt32.toNat_one]
    omega
  | true =>
    rw [he, Bool.toNat_true] at hcount
    rw [if_neg (by decide)]
    refine ⟨?_, nofun⟩
    show hwt.nRollovers.toNat + 0 = now / 2 ^ 32 + 0
    omega

theorem countTimeout_spec {hwt : HwTimer32} {now : Nat} {raised status : IntStatus}
    (h : Rolls hwt now raised.timeout) (hlt : now + 5000 < 2 ^ 64)
    (hraised : status.timeout = true → raised.timeout = true)
    (hfresh : status.timeout = true ∨
      ¬ (raised.timeout = true ∧ (hwt.swEarlyRo = false ∨ 2 ^ 32 ≤ now % 2 ^ 32 + 5000))) :
    Rolls (hwt32CountTimeout hwt status (UInt32.ofNat now)).1 now
        (raised.timeout && !status.timeout) ∧
      (hwt32CountTimeout hwt status (UInt32.ofNat now)).1.mtoneExpy = hwt.mtoneExpy ∧
      (hwt32CountTimeout hwt status (UInt32.ofNat now)).2.toNat = now + 5000 := by
  unfold hwt32CountTimeout
  dsimp only
  cases ht : status.timeout with
  | true =>
    rw [hraised ht] at h
    obtain ⟨hrolls, hexpy, -, hval⟩ := process_spec (h.countTimeout (by omega)) hlt
    rw [if_pos rfl, Bool.not_true, Bool.and_false]
    refine ⟨hrolls, hexpy.trans ?_, hval.2 fun hu => nomatch hu.1⟩
    split <;> rfl
  | false =>
    obtain ⟨hrolls, hexpy, -, hval⟩ := process_spec h hlt
    rw [if_neg (by decide), Bool.not_false, Bool.and_true]
    exact ⟨hrolls, hexpy, hval.2 (hfresh.resolve_left (by rw [ht]; decide))⟩

theorem count_inv (h : Inv s)
    (hfresh : (∃ status, s.isr = .entered status ∧ status.timeout = true) ∨ ¬ s.Stale)
    (hs : sysStep s .count = some (s', o)) : Inv s' ∧ o.Right s ∧ s.now ≤ s'.now := by
  have hlt := h.bound
  unfold sysStep at hs
  dsimp only at hs
  split at hs
  · rename_i status hisr
    have huncounted : s.uncounted = s.raised.timeout := by
      rw [Sys.uncounted, hisr]
      exact Bool.and_true _
    have hpend : s.matchPending = (s.raised.matched && !false) := by
      rw [Sys.matchPending, hisr]
      rfl
    have hraised := h.raised status (by rw [hisr]; rfl)
    have hrolls := h.rolls
    rw [Sys.stale_iff, huncounted, hisr] at hfresh
    rw [huncounted] at hrolls
    have hfresh := hfresh.imp_left fun ⟨status', heq, ht⟩ => by
      cases heq
      exact ht
    obtain ⟨hrolls', hexpy, hval⟩ := countTimeout_spec hrolls (by omega) hraised.1 hfresh
    cases hs
    refine ⟨⟨hrolls', h.bound, fun status' hst => ?_, ?_⟩, ⟨rfl, hval⟩, Nat.le_refl _⟩
    · cases hst
      exact hraised
    · rcases h.expiry with heq | ⟨hnext, hpending, -⟩
      · refine .inl ?_
        show (hwt32CountTimeout s.hwt status s.count).1.mtoneExpy.toNat = s.expiry
        rw [Sys.count, hexpy, heq]
      · refine .inr ⟨hnext, ?_, fun status' cur hcur hm => ?_⟩
        · rw [hpend] at hpending
          exact hpending
        · obtain ⟨rfl, rfl⟩ := Isr.counted.inj hcur
          have hle : s.expiry ≤ s.now := hpending (by rw [hpend, hraised.2 hm]; rfl)
          show s.expiry ≤ (hwt32CountTimeout s.hwt status s.count).2.toNat
          rw [Sys.count, hval]
          omega
  · cases hs

theorem compare_inv (h : Inv s) (hs : sysStep s .compare = some (s', o)) :
    Inv s' ∧ o.Right s ∧ s.now ≤ s'.now := by
  unfold sysStep at hs
  dsimp only at hs
  split at hs
  · rename_i status current64 hisr
    have hrolls := h.rolls
    have hraised := h.raised status (by rw [hisr]; rfl)
    have hpend : s.matchPending = s.raised.matched := by
      rw [Sys.matchPending, hisr]
      exact Bool.and_true _
    rw [Sys.uncounted, hisr] at hrolls
    cases hs
    refine ⟨⟨hrolls, h.bound, fun status' hst => ?_, ?_⟩, ?_, Nat.le_refl _⟩
    · cases hst
      exact hraised
    · rcases h.expiry with heq | ⟨hnext, hpending, -⟩
      · exact .inl heq
      · refine .inr ⟨hnext, fun hp => hpending ?_, nofun⟩
        rw [hpend]
        exact (Bool.and_eq_true_iff.1 hp).1
    · split
      · rename_i hreached
        obtain ⟨hm, hcmp⟩ := hreached
        show s.expiry ≤ current64.toNat
        rcases h.expiry with heq | ⟨-, -, hlatched⟩
        · rw [← heq]
          exact (utilU64DataCmp_nonpos _ _).1 hcmp
        · exact hlatched status current64 hisr hm
      · trivial
  · cases hs

theorem exit_inv (h : Inv s) (hs : sysStep s .exit = some (s', o)) :
    Inv s' ∧ o.Right s ∧ s.now ≤ s'.now := by
  unfold sysStep at hs
  dsimp only at hs
  split at hs
  · rename_i status hisr
    have hrolls := h.rolls
    have hpend : s.matchPending = ((s.raised.matched && !status.matched) && !false) := by
      rw [Sys.matchPending, hisr, Bool.not_false, Bool.and_true]
      rfl
    have huncounted : s.uncounted = ((s.raised.timeout && !status.timeout) && !false) := by
      rw [Sys.uncounted, hisr, Bool.not_false, Bool.and_true]
      rfl
    rw [huncounted] at hrolls
    cases hs
    refine ⟨⟨hrolls, h.bound, nofun, ?_⟩, trivial, Nat.le_refl _⟩
    rcases h.expiry with heq | ⟨hnext, hpending, -⟩
    · exact .inl heq
    · rw [hpend] at hpending
      exact .inr ⟨hnext, hpending, nofun⟩
  · cases hs

theorem process_hi32 (hwt : HwTimer32) (count : UInt32) :
    (hwt32ProcessMonotoneCurrent hwt count).2.hi32 =
      (hwt32ProcessMonotoneCurrent hwt count).1.nRollovers := rfl

theorem v1ToV2Offset32_toNat (v1 v2 : UInt32) :
    (v1ToV2Offset32 v1 v2).toNat =
      if v1.toNat < v2.toNat then v2.toNat - v1.toNat else v1.toNat - v2.toNat := by
  have h1 := v1.toNat_lt
  have h2 := v2.toNat_lt
  unfold v1ToV2Offset32
  by_cases hlt : v1.toNat < v2.toNat
  · rw [if_pos (UInt32.lt_iff_toNat_lt.2 hlt), if_pos hlt, UInt32.toNat_sub]
    omega
  · rw [if_neg (fun h => hlt (UInt32.lt_iff_toNat_lt.1 h)), if_neg hlt, UInt32.toNat_add,
      UInt32.toNat_add, UInt32.toNat_not, UInt32.toNat_one]
    simp only [UInt32.size]
    omega

theorem tooClose_iff (current expires : UInt32) : tooClose current expires = true ↔
    current.toNat < expires.toNat + 5000 ∧ expires.toNat < current.toNat + 5000 := by
  unfold tooClose
  rw [Bool.or_eq_true, decide_eq_true_iff, decide_eq_true_iff, UInt32.lt_iff_toNat_lt,
    UInt32.lt_iff_toNat_lt, v1ToV2Offset32_toNat, v1ToV2Offset32_toNat, hwt32AccessCycles_toNat]
  split
  · split <;> omega
  · split <;> omega

theorem updateMonotone_expiry {n current : UInt32} {value : Nat} (expires : UInt32)
    (hvalue : n.toNat * 2 ^ 32 + current.toNat = value) (hlt : value + 5000 < 2 ^ 64) :
    let pushed : U64Val := if tooClose current expires then
      utilU32DataAdd hwt32AccessCycles current else ⟨0, expires⟩
    U64Val.toNat ⟨pushed.hi32 + n, pushed.lo32⟩ = askedExpiry value expires ∨
      (nextPeriod current expires = true ∧ pushed.lo32 = expires ∧
        ∀ t, value - 5000 < t → t % 2 ^ 32 = expires.toNat → askedExpiry value expires ≤ t) := by
  have hcur := current.toNat_lt
  have hexp := expires.toNat_lt
  have hlow : UInt32.ofNat value = current := by
    rw [← UInt32.toNat_inj, UInt32.toNat_ofNat', ← hvalue]
    omega
  unfold askedExpiry
  rw [hlow]
  intro pushed
  cases hclose : tooClose current expires with
  | true =>
    have hpushed : pushed = utilU32DataAdd hwt32AccessCycles current := if_pos hclose
    refine .inl ?_
    obtain ⟨hlo, hhi⟩ := utilU32DataAdd_toNat hwt32AccessCycles current
    rw [hwt32AccessCycles_toNat] at hlo hhi
    rw [if_pos rfl, hpushed]
    simp only [U64Val.toNat, UInt32.toNat_add, hlo, hhi, hwt32AccessCycles_toNat]
    have hsum : (5000 + current.toNat) / 2 ^ 32 + n.toNat < 2 ^ 32 := by omega
    have hdiv := Nat.div_add_mod' (5000 + current.toNat) (2 ^ 32)
    rw [Nat.mod_eq_of_lt hsum, Nat.add_mul, Nat.add_right_comm, hdiv]
    omega
  | false =>
    have hpushed : pushed = ⟨0, expires⟩ := if_neg (by rw [hclose]; decide)
    rw [if_neg (by decide), hpushed]
    have hfar := (tooClose_iff current expires).not.1 (by rw [hclose]; decide)
    by_cases hnext : expires.toNat < current.toNat
    · refine .inr ⟨?_, rfl, fun t ht hmod => ?_⟩
      · rw [nextPeriod, hclose, decide_eq_true (UInt32.lt_iff_toNat_lt.2 hnext)]
        rfl
      · rw [UInt32.toNat_sub]
        omega
    · refine .inl ?_
      simp only [U64Val.toNat, UInt32.toNat_add, UInt32.toNat_sub, UInt32.toNat_zero]
      rw [Nat.zero_add, Nat.mod_eq_of_lt n.toNat_lt]
      omega

theorem update_inv (h : Inv s) {expires : UInt32} (hcond : CounterCond s (.update expires))
    (hs : sysStep s (.update expires) = some (s', o)) :
    Inv s' ∧ o.Right s ∧ s.now ≤ s'.now := by
  have hlt := h.bound
  unfold sysStep at hs
  dsimp only at hs
  split at hs
  · cases hs
    exact ⟨h, trivial, Nat.le_refl _⟩
  · rename_i hne
    obtain ⟨hfresh, hcalm⟩ := hcond hne
    rw [Sys.stale_iff] at hfresh
    obtain ⟨hrolls, -, hlow, hval⟩ := process_spec h.rolls (by omega)
    have hval := hval.2 hfresh
    have hsum := hval
    rw [U64Val.toNat, process_hi32] at hsum
    have hexpiry := updateMonotone_expiry expires hsum (by omega)
    cases hs
    refine ⟨⟨⟨hrolls.count, hrolls.early⟩, h.bound, h.raised, ?_⟩, ⟨rfl, hval⟩, Nat.le_refl _⟩
    rcases hexpiry with heq | ⟨hnext, hlo, hleast⟩
    · exact .inl heq
    · rw [hlow] at hnext
      have hcalm := hcalm hnext
      refine .inr ⟨fun t ht hmod => ?_, fun hp => ?_, fun status cur hcur hm => ?_⟩
      · have ht : s.now < t := ht
        refine hleast t (by omega) ?_
        rw [← hlo]
        exact hmod
      · exact absurd (hcalm.symm.trans hp) (by decide)
      · have hcur : s.isr = .counted status cur := hcur
        have hraised := (h.raised status (by rw [hcur]; rfl)).2 hm
        rw [Sys.matchPending, hraised, hcur] at hcalm
        cases hcalm

theorem sysStep_inv (h : Inv s) {op : Op} (hcond : CounterCond s op)
    (hs : sysStep s op = some (s', o)) : Inv s' ∧ o.Right s ∧ s.now ≤ s'.now := by
  cases op with
  | tick => exact tick_inv h hcond hs
  | read => exact read_inv h hcond hs
  | update expires => exact update_inv h hcond hs
  | enter => exact enter_inv h hs
  | count => exact count_inv h hcond hs
  | compare => exact compare_inv h hs
  | exit => exact exit_inv h hs

theorem CounterLaw.cons {os : List Out} (h : CounterLaw os) (ho : o.Right s)
    (hlater : ∀ now v, .value now v ∈ os → s.now ≤ now) : CounterLaw (o :: os) := by
  have hmem : ∀ w ∈ values os, s.now + 5000 ≤ w := by
    intro w hw
    obtain ⟨now, hnow⟩ : ∃ now, .value now w ∈ os := by
      clear h hlater
      induction os with
      | nil => cases hw
      | cons o os ih =>
        cases o with
        | value now v =>
          rcases List.mem_cons.1 hw with rfl | hw
          · exact ⟨now, List.mem_cons_self⟩
          · exact (ih hw).imp fun _ => List.mem_cons_of_mem _
        | none => exact (ih hw).imp fun _ => List.mem_cons_of_mem _
        | reported expiry v => exact (ih hw).imp fun _ => List.mem_cons_of_mem _
    have hle := hlater now w hnow
    have hw := h.exact now w hnow
    rw [hwt32AccessCycles_toNat] at hw
    omega
  refine ⟨?_, fun now v hv => ?_, fun expiry v hv => ?_⟩
  · cases o with
    | value now v => exact List.pairwise_cons.2 ⟨fun w hw => by rw [ho.2]; exact hmem w hw, h.mono⟩
    | none => exact h.mono
    | reported expiry v => exact h.mono
  · rcases List.mem_cons.1 hv with rfl | hv
    · obtain ⟨rfl, rfl⟩ := ho
      rfl
    · exact h.exact now v hv
  · rcases List.mem_cons.1 hv with rfl | hv
    · exact ho
    · exact h.reached expiry v hv

theorem runs_law {ops : List Op} {os : List Out} (h : Inv s)
    (hmeets : Meets sysStep CounterCond s ops) (hrun : runs sysStep s ops = some (s', os)) :
    CounterLaw os ∧ ∀ now v, .value now v ∈ os → s.now ≤ now := by
  induction ops generalizing s os with
  | nil =>
    cases hrun
    exact ⟨⟨.nil, nofun, nofun⟩, nofun⟩
  | cons op ops ih =>
    rw [runs] at hrun
    split at hrun
    · cases hrun
    · rename_i s₁ o hs
      split at hrun
      · cases hrun
      · rename_i s₂ os₂ hrest
        cases hrun
        obtain ⟨hinv, hright, hle⟩ := sysStep_inv h hmeets.1 hs
        obtain ⟨hlaw, hlater⟩ := ih hinv (hmeets.next hs) hrest
        refine ⟨hlaw.cons hright fun now v hv => Nat.le_trans hle (hlater now v hv), ?_⟩
        intro now v hv
        rcases List.mem_cons.1 hv with rfl | hv
        · exact Nat.le_of_eq hright.1.symm
        · exact Nat.le_trans hle (hlater now v hv)

end

/-! ## A rollover -/

theorem tick_plain {s : Sys} (h : s.now + 1 < 2 ^ 32) : sysStep s .tick = some ({ s with
    now := s.now + 1
    raised := ⟨s.raised.timeout,
      s.raised.matched || UInt32.ofNat (s.now + 1) = s.matchVal⟩ }, .none) := by
  have hroll : ¬ (s.now + 1) % 2 ^ 32 = 0 := by omega
  show (sysTick s).map _ = _
  unfold sysTick
  dsimp only
  rw [if_neg fun h => hroll h.1, decide_eq_false hroll, Bool.or_false]
  rfl

theorem runs_ticks (n : Nat) (s : Sys) (hn : s.now + n < 2 ^ 32) : ∃ matched,
    runs sysStep s (List.replicate n .tick) = some ({ s with
      now := s.now + n
      raised := ⟨s.raised.timeout, matched⟩ }, List.replicate n .none) := by
  induction n generalizing s with
  | zero => exact ⟨s.raised.matched, rfl⟩
  | succ n ih =>
    obtain ⟨matched, hrun⟩ := ih { s with
        now := s.now + 1
        raised := ⟨s.raised.timeout,
          s.raised.matched || UInt32.ofNat (s.now + 1) = s.matchVal⟩ } (by dsimp only; omega)
    refine ⟨matched, ?_⟩
    rw [List.replicate_succ, List.replicate_succ]
    refine runs_cons (tick_plain (by omega)) ?_
    rw [hrun]
    simp only [Nat.add_assoc, Nat.add_comm 1 n]

theorem meets_ticks {ops : List Op} (n : Nat) (s : Sys) (hn : s.now + n < 2 ^ 32)
    (hrest : ∀ matched, Meets sysStep CounterCond { s with
      now := s.now + n
      raised := ⟨s.raised.timeout, matched⟩ } ops) :
    Meets sysStep CounterCond s (List.replicate n .tick ++ ops) := by
  induction n generalizing s with
  | zero => exact hrest s.raised.matched
  | succ n ih =>
    rw [List.replicate_succ]
    refine .cons (show s.now + 1 + 2 * 5000 < 2 ^ 64 by omega) (tick_plain (by omega))
      (ih _ (by dsimp only; omega) fun matched => ?_)
    simpa only [Nat.add_assoc, Nat.add_comm 1 n] using hrest matched

theorem tick_rolls {s : Sys} (hnow : s.now + 1 = 2 ^ 32) (ht : s.raised.timeout = false) :
    ∃ matched, sysStep s .tick =
      some ({ s with now := 2 ^ 32, raised := ⟨true, matched⟩ }, .none) := by
  refine ⟨s.raised.matched || UInt32.ofNat (s.now + 1) = s.matchVal, ?_⟩
  show (sysTick s).map _ = _
  unfold sysTick
  dsimp only
  rw [if_neg (by rw [ht]; exact fun h => nomatch h.2), hnow, ht]
  rfl

/-- **The values never go back**, and no expiry is reported before its time, in the runs whose steps
compute no value while a rollover is to be counted, and move no expiry to the next period while a
match is pending. -/
theorem counter_monotone (expires : UInt32) (ops : List Op)
    (hops : Meets sysStep CounterCond (start expires) ops) (s : Sys) (os : List Out)
    (hrun : runs sysStep (start expires) ops = some (s, os)) : CounterLaw os :=
  (runs_law (inv_start expires) hops hrun).1

/-- The interrupt counts the rollover, and the counter is read behind it. -/
theorem counter_monotone_rollover : ∃ n s os, runs sysStep (start 2)
    (List.replicate n .tick ++ .tick :: [.enter, .count, .read, .compare, .exit, .read]) =
      some (s, os) ∧ s.now = 2 ^ 32 ∧ CounterLaw os := by
  obtain ⟨n, hn⟩ : ∃ n, n + 1 = 2 ^ 32 := ⟨2 ^ 32 - 1, by omega⟩
  have hfew : (start 2).now + n < 2 ^ 32 := by show 0 + n < 2 ^ 32; omega
  have hroll (m : Bool) := tick_rolls
    (s := { start 2 with now := 0 + n, raised := ⟨false, m⟩ }) (by dsimp only; omega) rfl
  obtain ⟨m, hfirst⟩ := runs_ticks n (start 2) hfew
  obtain ⟨m', htick⟩ := hroll m
  obtain ⟨s, os, hrest, hnow⟩ : ∃ s os,
      runs sysStep { start 2 with now := 2 ^ 32, raised := ⟨true, m'⟩ }
        [.enter, .count, .read, .compare, .exit, .read] = some (s, os) ∧ s.now = 2 ^ 32 :=
    ⟨_, _, rfl, rfl⟩
  have hrun := runs_append hfirst (runs_cons htick hrest)
  refine ⟨n, s, _, hrun, hnow, counter_monotone 2 _ (meets_ticks n _ hfew fun m => ?_) _ _ hrun⟩
  obtain ⟨m', htick⟩ := hroll m
  refine .cons ?_ htick (.cons trivial rfl (.cons (.inl ⟨_, rfl, rfl⟩) rfl (.cons (fun h => ?_) rfl
    (.cons trivial rfl (.cons trivial rfl (.cons (fun h => ?_) rfl trivial))))))
  · show 0 + n + 1 + 2 * 5000 < 2 ^ 64
    omega
  · exact Bool.false_ne_true h.1
  · exact Bool.false_ne_true h.1

/-! ## What goes wrong -/

theorem read_far {s : Sys} (h : s.now % 2 ^ 32 + 5000 < 2 ^ 32) : sysStep s .read =
    some (s, .value s.now (s.hwt.nRollovers.toNat * 2 ^ 32 + (s.now % 2 ^ 32 + 5000))) := by
  obtain ⟨hlo, hhi⟩ := utilU32DataAdd_toNat s.count hwt32AccessCycles
  rw [Sys.count, UInt32.toNat_ofNat', hwt32AccessCycles_toNat] at hlo hhi
  have hzero : ¬ ((utilU32DataAdd s.count hwt32AccessCycles).hi32 ≠ 0 ∧
      s.hwt.swEarlyRo = false) := by
    rintro ⟨hne, -⟩
    refine hne (UInt32.toNat_inj.1 ?_)
    rw [Sys.count, hhi]
    exact Nat.div_eq_of_lt h
  unfold sysStep hwt32ProcessMonotoneCurrent
  dsimp only
  rw [if_neg hzero, U64Val.toNat]
  dsimp only
  rw [Sys.count, hlo, Nat.mod_eq_of_lt h]

theorem values_append (os ps : List Out) : values (os ++ ps) = values os ++ values ps := by
  induction os with
  | nil => rfl
  | cons o os ih => cases o <;> simp [values, ih]

theorem values_none (n : Nat) : values (List.replicate n .none) = [] := by
  induction n with
  | zero => rfl
  | succ n ih => exact ih

/-- A counter that has rolled over is read before its interrupt: the value is a whole period less
than it should be, and less than the one 6000 ticks before. -/
theorem values_go_back : ∃ ops s os, runs sysStep (start 2) ops = some (s, os) ∧
    values os = [2 ^ 32 - 1000, 5000] := by
  obtain ⟨n, hn⟩ : ∃ n, n + 6000 = 2 ^ 32 := ⟨2 ^ 32 - 6000, by omega⟩
  obtain ⟨m, hfirst⟩ := runs_ticks n (start 2) (by show 0 + n < 2 ^ 32; omega)
  obtain ⟨m', hsecond⟩ := runs_ticks 5999 { start 2 with now := 0 + n, raised := ⟨false, m⟩ }
    (by dsimp only; omega)
  obtain ⟨m'', hroll⟩ := tick_rolls
    (s := { start 2 with now := 0 + n + 5999, raised := ⟨false, m'⟩ }) (by dsimp only; omega) rfl
  have hread := read_far (s := { start 2 with now := 0 + n, raised := ⟨false, m⟩ })
    (by dsimp only; omega)
  have hread' := read_far (s := { start 2 with now := 2 ^ 32, raised := ⟨true, m''⟩ })
    (by dsimp only; omega)
  have hlast : runs sysStep _ [.read] = some (_, [_]) := runs_cons hread' rfl
  have hrun := runs_append hfirst (runs_cons hread (runs_append hsecond (runs_cons hroll hlast)))
  refine ⟨_, _, _, hrun, ?_⟩
  rw [values_append, values_none]
  show _ :: values (_ ++ _) = _
  rw [values_append, values_none]
  show [0 * 2 ^ 32 + ((0 + n) % 2 ^ 32 + 5000), 0 * 2 ^ 32 + (2 ^ 32 % 2 ^ 32 + 5000)] = _
  rw [Nat.zero_mul, Nat.zero_add, Nat.zero_add, Nat.zero_add, Nat.mod_self, Nat.zero_add,
    Nat.mod_eq_of_lt (by omega), show n + 5000 = 2 ^ 32 - 1000 by omega]

/-- The expiry is moved to the next period while the match of the old one is pending: it is reported
at once, a period too early. And values go back. -/
theorem counter_not_monotone :
    (∃ s os, runs sysStep (start 2) [.tick, .tick, .update 1, .enter, .count, .compare] =
        some (s, os) ∧ .reported (2 ^ 32 + 1) 5002 ∈ os ∧ ¬ CounterLaw os) ∧
      ∃ ops s os, runs sysStep (start 2) ops = some (s, os) ∧ values os = [2 ^ 32 - 1000, 5000] ∧
        ¬ CounterLaw os := by
  refine ⟨⟨_, _, rfl, by decide, fun h => ?_⟩, ?_⟩
  · exact absurd (h.reached (2 ^ 32 + 1) 5002 (by decide)) (by decide)
  · obtain ⟨ops, s, os, hrun, hvalues⟩ := values_go_back
    refine ⟨ops, s, os, hrun, hvalues, fun h => ?_⟩
    have hmono := h.mono
    rw [hvalues] at hmono
    exact absurd ((List.pairwise_cons.1 hmono).1 5000 List.mem_cons_self) (by decide)

end SimpleLink.Timer.Hwt32
