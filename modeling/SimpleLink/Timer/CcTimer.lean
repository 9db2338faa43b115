import SimpleLink.Lib.Run
import Mathlib.Data.List.Sort
import Mathlib.Logic.Function.Basic

/-!
# Software timers (`cc_timer.c`)

The timers that run on one hardware timer are kept in the order of their expiry, and the hardware
timer is programmed with that of the first one. The calls and the interrupt run with the interrupts
disabled; the interrupt takes the expired timers off the list and then calls their callbacks one by
one, which call what they like. So a callback is what happens until its `ret`.

A list linked by `next` is the list of its timers.
-/

namespace SimpleLink.Timer.CcTimer

open Lib

/-! ## 64 bit values (`util64.c`) -/

structure U64Val where
  hi32 : UInt32
  lo32 : UInt32
  deriving DecidableEq

structure U64Time where
  secs : UInt32
  nsec : UInt32

def utilU32NsecAdd (nsec1 nsec2 : UInt32) : U64Time :=
  if nsec1 + nsec2 ≥ 1000000000 then ⟨1, nsec1 + nsec2 - 1000000000⟩ else ⟨0, nsec1 + nsec2⟩

def utilU32DataAdd (data1 data2 : UInt32) : U64Val :=
  if data1 > ~~~data2 then ⟨1, data1 - ~~~data2 - 1⟩ else ⟨0, data1 + data2⟩

def utilU64DataAdd (value1 value2 : U64Val) : U64Val :=
  let result := utilU32DataAdd value1.lo32 value2.lo32
  { result with hi32 := result.hi32 + (value1.hi32 + value2.hi32) }

def utilU32DataCmp (val1 val2 : UInt32) : Int :=
  if val1 = val2 then 0 else if val1 > val2 then 1 else -1

def utilU64DataCmp (val1 val2 : U64Val) : Int :=
  if val1.hi32 = val2.hi32 then utilU32DataCmp val1.lo32 val2.lo32
  else if val1.hi32 > val2.hi32 then 1
  else -1

def U64Val.toNat (v : U64Val) : Nat := v.hi32.toNat * 2 ^ 32 + v.lo32.toNat

theorem utilU64DataCmp_neg (v w : U64Val) : utilU64DataCmp v w < 0 ↔ v.toNat < w.toNat := by
  have hv := v.lo32.toNat_lt
  have hw := w.lo32.toNat_lt
  unfold utilU64DataCmp utilU32DataCmp U64Val.toNat
  simp only [← UInt32.toNat_inj, GT.gt, UInt32.lt_iff_toNat_lt]
  split
  · split
    · omega
    · split <;> omega
  · split <;> omega

/-! ## Timers -/

/-- `MAX_SW_TIMER`. -/
abbrev maxSwTimer : Nat := 6

/-- A pointer to one of `sw_timers`. -/
abbrev Swt : Type := Fin maxSwTimer

/-- The `SW_TIMER_` flags. -/
structure Flags where
  periodic : Bool
  hwSched : Bool
  allocate : Bool
  activate : Bool
  deriving DecidableEq

/-- `struct sw_timer`, less its callback. `hwtObj` tells that it has a hardware timer. -/
structure SwTimer where
  flags : Flags
  hwtExpires : U64Val
  swInterval : U64Val
  hwtObj : Bool

def Flags.zero : Flags := ⟨false, false, false, false⟩

namespace SwTimer

def setPeriodic (swt : SwTimer) (periodic : Bool) : SwTimer :=
  { swt with flags := { swt.flags with periodic := periodic } }

def setActivate (swt : SwTimer) (activate : Bool) : SwTimer :=
  { swt with flags := { swt.flags with activate := activate } }

def setScheduled (swt : SwTimer) (sched : Bool) : SwTimer :=
  { swt with flags := { swt.flags with hwSched := sched } }

def setAllocStatus (swt : SwTimer) (alloc : Bool) : SwTimer :=
  { swt with flags := { Flags.zero with allocate := alloc } }

def isAllocOnly (swt : SwTimer) : Bool := swt.flags = { Flags.zero with allocate := true }

def hasStarted (swt : SwTimer) : Bool := !swt.isAllocOnly

end SwTimer

/-- `struct hwt_info`: what the hardware timer is. -/
structure HwtInfo where
  hw64bits : Bool
  /-- Its source is `HW_REALTIME_CLK`. -/
  hasAbsTime : Bool
  frequency : UInt32

/-- What the hardware timer has been told. -/
structure Hwt where
  running : Bool
  expires : U64Val

/-- `stamp` and `armed` record in which order the timers have been put on the list. -/
structure Sys where
  timers : Swt → SwTimer
  freeList : List Swt
  usedList : List Swt
  /-- The expired timers; the callback of the first one runs. -/
  expired : List Swt
  hwt : Hwt
  stamp : Swt → Nat
  armed : Nat

def sysInit : Sys where
  timers := fun _ => ⟨Flags.zero, ⟨0, 0⟩, ⟨0, 0⟩, false⟩
  freeList := (List.finRange maxSwTimer).reverse
  usedList := []
  expired := []
  hwt := ⟨false, ⟨0, 0⟩⟩
  stamp := fun _ => 0
  armed := 0

/-- The results of the hardware timer's operations: the current value, and whether it takes a new
expiry. -/
structure Ops where
  getCurrent : Option U64Val
  taken : Bool

def Sys.modify (s : Sys) (swt : Swt) (f : SwTimer → SwTimer) : Sys :=
  { s with timers := Function.update s.timers swt (f (s.timers swt)) }

def Sys.expires (s : Sys) (swt : Swt) : U64Val := (s.timers swt).hwtExpires

/-! ## The hardware timer -/

/-- What of an expiry the hardware timer is given. -/
def HwtInfo.value (info : HwtInfo) (expires : U64Val) : U64Val :=
  if info.hw64bits then expires else { expires with hi32 := 0 }

def hwtStart (info : HwtInfo) (expires : U64Val) : Hwt := ⟨true, info.value expires⟩

def hwtUpdate (info : HwtInfo) (hwt : Hwt) (expires : U64Val) : Hwt :=
  { hwt with expires := info.value expires }

def hwtStop (hwt : Hwt) : Hwt := { hwt with running := false }

/-- `calc_ticks_interval`, with what it leaves in `sw_interval`. -/
def calcTicksInterval (info : HwtInfo) (time : U64Time) (swInterval : U64Val) : U64Val × Int :=
  if time.nsec > 999999999 then (swInterval, -1)
  else
    let lo32 := ((time.nsec.toUInt64 * info.frequency.toUInt64) / 1000000000).toUInt32
    let tmp64 := time.secs.toUInt64 * info.frequency.toUInt64 + lo32.toUInt64
    if info.hw64bits then (⟨(tmp64 >>> 32).toUInt32, tmp64.toUInt32⟩, 0)
    else if 0xFFFFFFFF < tmp64 then ({ swInterval with lo32 := lo32 }, -1)
    else (⟨0, tmp64.toUInt32⟩, 0)

def calcHwtExpirySecs (hwtCurrent swInterval : U64Val) : U64Val :=
  let timeExpiry := utilU32NsecAdd hwtCurrent.lo32 swInterval.lo32
  ⟨timeExpiry.secs + (hwtCurrent.hi32 + swInterval.hi32), timeExpiry.nsec⟩

def calcHwtExpiry (info : HwtInfo) (hwtCurrent swInterval : U64Val) : U64Val :=
  if info.hasAbsTime then calcHwtExpirySecs hwtCurrent swInterval
  else utilU64DataAdd hwtCurrent swInterval

/-! ## The list of the running timers -/

/-- `elem` expires earlier than `node`. -/
abbrev Sys.Earlier (s : Sys) (elem node : Swt) : Prop :=
  utilU64DataCmp (s.expires elem) (s.expires node) < 0

/-- `insert_ordered_expiry`: before the first timer that expires later. -/
def insertOrderedExpiry (s : Sys) (elem : Swt) : Sys :=
  let s' := { s with
    usedList := s.usedList.orderedInsert s.Earlier elem
    stamp := Function.update s.stamp elem s.armed
    armed := s.armed + 1 }
  match s.usedList with
  | [] => s'
  | node :: _ => if s.Earlier elem node then s'.modify node (·.setScheduled false) else s'

/-- `sched_timer_if_new`. -/
def schedTimerIfNew (info : HwtInfo) (ops : Ops) (s : Sys) (head : Swt) : Sys :=
  if (s.timers head).flags.hwSched then s
  else if ops.taken then
    let hwt := if s.hwt.running then hwtUpdate info s.hwt (s.expires head)
      else hwtStart info (s.expires head)
    { s with hwt := hwt }.modify head (·.setScheduled true)
  else s

/-- `sched_timer_if_new` for the first timer of the list. -/
def schedHead (info : HwtInfo) (ops : Ops) (s : Sys) : Sys :=
  match s.usedList with
  | [] => s
  | head :: _ => schedTimerIfNew info ops s head

/-- `setup_timer_exec`, once the expiry is known. -/
def arm (info : HwtInfo) (ops : Ops) (s : Sys) (swt : Swt) : Sys :=
  (schedHead info ops (insertOrderedExpiry s swt)).modify swt (·.setActivate true)

/-! ## The calls -/

/-- `setup_timer_exec` for `timer_start`: no reference for the current value is given. -/
def setupTimerExec (info : HwtInfo) (ops : Ops) (s : Sys) (swt : Swt) (hasExpval : Bool) :
    Sys × Int :=
  let start (hwtCurrent : U64Val) : Sys × Int :=
    let s := if hasExpval then s else s.modify swt fun x =>
      { x with hwtExpires := calcHwtExpiry info hwtCurrent x.swInterval }
    (arm info ops s swt, 0)
  if s.hwt.running || info.hasAbsTime then
    match ops.getCurrent with
    | none => (s, -1)
    | some hwtCurrent => start hwtCurrent
  else start ⟨0, 0⟩

def optTimerPeriodic (options : UInt32) : Bool := options &&& 1 ≠ 0

def optTimeAbsValue (options : UInt32) : Bool := options &&& 2 ≠ 0

def estblTimerInterval (info : HwtInfo) (time : U64Time) (swInterval : U64Val) : U64Val × Int :=
  if info.hasAbsTime then (⟨time.secs, time.nsec⟩, 0)
  else calcTicksInterval info time swInterval

def timerStart (info : HwtInfo) (ops : Ops) (s : Sys) (swt : Swt) (time : U64Time)
    (options : UInt32) : Sys × Int :=
  let periodic := optTimerPeriodic options
  if (s.timers swt).isAllocOnly = false then (s, -1)
  else if optTimeAbsValue options then
    setupTimerExec info ops
      (s.modify swt fun x => { x with hwtExpires := ⟨time.secs, time.nsec⟩ }.setPeriodic periodic)
      swt true
  else
    let (swInterval, rv) := estblTimerInterval info time (s.timers swt).swInterval
    if rv = -1 then (s.modify swt fun x => { x with swInterval := swInterval }, -1)
    else
      setupTimerExec info ops
        (s.modify swt fun x => { x with swInterval := swInterval }.setPeriodic periodic) swt false

/-- `has_valid_opts`; there is no hardware timer to ask without `hwt_obj`. -/
def hasValidOpts (info : HwtInfo) (hwtObj : Bool) (options : UInt32) : Option Bool :=
  if optTimerPeriodic options && optTimeAbsValue options then some false
  else if optTimeAbsValue options then if hwtObj then some info.hasAbsTime else none
  else some true

/-- `cc_timer_start`. -/
def ccTimerStart (info : HwtInfo) (ops : Ops) (s : Sys) (hndl : Option Swt) (time : U64Time)
    (options : UInt32) : Option (Sys × Int) :=
  match hndl with
  | none => some (s, -1)
  | some swt =>
    match hasValidOpts info (s.timers swt).hwtObj options with
    | none => none
    | some false => some (s, -1)
    | some true =>
      if (s.timers swt).hwtObj then
        -- the precision is reduced to milliseconds
        let nsec := if info.hasAbsTime then time.nsec / 1000000 * 1000000 else time.nsec
        some (timerStart info ops s swt ⟨time.secs, nsec⟩ options)
      else none

/-- `timer_stop`; `remove_elem` takes the timer off the list. -/
def timerStop (info : HwtInfo) (ops : Ops) (s : Sys) (swt : Swt) : Sys × Int :=
  if swt ∉ s.usedList then (s, -1)
  else
    let s := { s with usedList := s.usedList.erase swt }.modify swt fun x =>
      ((x.setScheduled false).setPeriodic false).setActivate false
    match s.usedList with
    | [] => ({ s with hwt := hwtStop s.hwt }, 0)
    | head :: _ => (schedTimerIfNew info ops s head, 0)

/-- `cc_timer_stop`. -/
def ccTimerStop (info : HwtInfo) (ops : Ops) (s : Sys) (hndl : Option Swt) : Option (Sys × Int) :=
  match hndl with
  | none => some (s, -1)
  | some swt =>
    if (s.timers swt).hasStarted then
      if (s.timers swt).hwtObj then some (timerStop info ops s swt) else none
    else some (s, -1)

/-- `cc_timer_create`. -/
def ccTimerCreate (s : Sys) : Sys × Option Swt :=
  match s.freeList with
  | [] => (s, none)
  | swt :: freeList =>
    ({ s with freeList := freeList }.modify swt fun x =>
      { x.setAllocStatus true with hwtObj := true }, some swt)

/-- `cc_timer_delete`. -/
def ccTimerDelete (s : Sys) (hndl : Option Swt) : Sys × Int :=
  match hndl with
  | none => (s, -1)
  | some swt =>
    if (s.timers swt).isAllocOnly = false then (s, -1)
    else
      ({ s with freeList := swt :: s.freeList }.modify swt fun x =>
        { x.setAllocStatus false with hwtObj := false }, 0)

/-! ## The interrupt -/

/-- `isolate_expired_swt_list` for the current value: the expired timers, and those that stay. -/
def isolateExpiredSwtList (s : Sys) (hwtCurrent : U64Val) : List Swt → List Swt × List Swt
  | [] => ([], [])
  | elem :: usedList =>
    if utilU64DataCmp hwtCurrent (s.expires elem) < 0 then ([], elem :: usedList)
    else
      let (expired, rest) := isolateExpiredSwtList s hwtCurrent usedList
      (elem :: expired, rest)

/-- `handle_expired_swt` up to the callback of the next expired timer, or `timer_isr` after its
loop. -/
def handleNext (s : Sys) : Sys :=
  match s.expired with
  | swt :: _ => s.modify swt (·.setScheduled false)
  | [] => if s.usedList = [] then { s with hwt := hwtStop s.hwt } else s

/-- `timer_isr`, up to the first callback. -/
def timerIsr (info : HwtInfo) (ops : Ops) (s : Sys) : Sys :=
  match ops.getCurrent with
  | none => handleNext s
  | some hwtCurrent =>
    let (expired, usedList) := isolateExpiredSwtList s hwtCurrent s.usedList
    handleNext (schedHead info ops { s with expired := expired, usedList := usedList })

/-- `handle_expired_swt` when the callback has returned, and the next one. -/
def callbackReturns (info : HwtInfo) (ops : Ops) (s : Sys) : Sys :=
  match s.expired with
  | [] => s
  | swt :: expired =>
    let s := { s with expired := expired }
    if (s.timers swt).flags.periodic then
      let s := s.modify swt fun x =>
        { x with hwtExpires := calcHwtExpiry info x.hwtExpires x.swInterval }
      handleNext (arm info ops s swt)
    else handleNext (s.modify swt (·.setActivate false))

inductive Act where
  | create
  | start (hndl : Option Swt) (time : U64Time) (options : UInt32) (ops : Ops)
  | stop (hndl : Option Swt) (ops : Ops)
  | delete (hndl : Option Swt)
  /-- The interrupt; it waits while its callbacks run. -/
  | isr (ops : Ops)
  /-- The callback of the first expired timer returns. -/
  | ret (ops : Ops)

/-- What a call returns. -/
inductive Out where
  | hndl (hndl : Option Swt)
  | rv (rv : Int)
  | none

def sysStep (info : HwtInfo) (s : Sys) : Act → Option (Sys × Out)
  | .create => some ((ccTimerCreate s).1, .hndl (ccTimerCreate s).2)
  | .start hndl time options ops =>
    (ccTimerStart info ops s hndl time options).map fun r => (r.1, .rv r.2)
  | .stop hndl ops => (ccTimerStop info ops s hndl).map fun r => (r.1, .rv r.2)
  | .delete hndl => some ((ccTimerDelete s hndl).1, .rv (ccTimerDelete s hndl).2)
  | .isr ops => some (if s.expired = [] then timerIsr info ops s else s, .none)
  | .ret ops => some (callbackReturns info ops s, .none)

/-! ## The property and the condition -/

/-- `t` expires earlier, or at the same time and was put on the list before. -/
def Before (s : Sys) (t u : Swt) : Prop :=
  (s.expires t).toNat < (s.expires u).toNat ∨
    (s.expires t).toNat = (s.expires u).toNat ∧ s.stamp t < s.stamp u

structure TimerLaw (info : HwtInfo) (s : Sys) : Prop where
  sorted : s.usedList.Pairwise (Before s)
  once : ∀ t, (s.freeList ++ s.usedList ++ s.expired).count t ≤ 1
  /-- No timer but the first one is flagged as programmed. -/
  flagged : ∀ t, (s.timers t).flags.hwSched = true → s.usedList.head? = some t
  /-- The hardware timer runs, and has been given the expiry of the first one. -/
  programmed : ∀ t ∈ s.usedList.head?, s.hwt = ⟨true, info.value (s.expires t)⟩

/-- The timer is one that has been created, and the hardware timer takes a new expiry. -/
def TimerCond (s : Sys) : Act → Prop
  | .start hndl _ _ ops | .stop hndl ops =>
    (∀ swt ∈ hndl, (s.timers swt).hwtObj = true) ∧ ops.taken = true
  | .isr ops | .ret ops => ops.taken = true
  | _ => True

/-! ## The invariant -/

/-- What holds of the lists also while the first timer is not yet programmed. -/
structure Lists (info : HwtInfo) (s : Sys) : Prop where
  sorted : s.usedList.Pairwise (Before s)
  armed : ∀ t ∈ s.usedList, s.stamp t < s.armed
  once : ∀ t, s.freeList.count t + s.usedList.count t + s.expired.count t ≤ 1
  free : ∀ t ∈ s.freeList, (s.timers t).flags.allocate = false
  flagged : ∀ t, (s.timers t).flags.hwSched = true →
    s.usedList.head? = some t ∧ s.hwt = ⟨true, info.value (s.expires t)⟩

structure Inv (info : HwtInfo) (s : Sys) : Prop extends Lists info s where
  active : ∀ t, t ∈ s.usedList ∨ t ∈ s.expired → (s.timers t).flags.activate = true
  head : ∀ t ∈ s.usedList.head?, (s.timers t).flags.hwSched = true

/-- The timer is on none of the lists. -/
structure Off (s : Sys) (t : Swt) : Prop where
  free : t ∉ s.freeList
  used : t ∉ s.usedList
  expired : t ∉ s.expired

section

variable {info : HwtInfo} {ops : Ops} {s : Sys} {t u : Swt}

theorem modify_self (f : SwTimer → SwTimer) : (s.modify t f).timers t = f (s.timers t) :=
  Function.update_self ..

theorem modify_of_ne (h : u ≠ t) (f : SwTimer → SwTimer) : (s.modify t f).timers u = s.timers u :=
  Function.update_of_ne h ..

/-- A field that `f` leaves as it is. -/
theorem modify_field {α : Type} (g : SwTimer → α) {f : SwTimer → SwTimer}
    (hf : g (f (s.timers t)) = g (s.timers t)) (u : Swt) :
    g ((s.modify t f).timers u) = g (s.timers u) := by
  by_cases h : u = t
  · subst h
    rw [modify_self, hf]
  · rw [modify_of_ne h]

theorem before_congr {s' : Sys} {a b : Swt} (ht : s'.timers = s.timers)
    (hstamp : s'.stamp = s.stamp) : Before s' a b ↔ Before s a b := by
  unfold Before Sys.expires
  rw [ht, hstamp]

theorem before_modify {f : SwTimer → SwTimer} {a b : Swt} (h : Before s a b)
    (hf : (f (s.timers t)).hwtExpires = (s.timers t).hwtExpires := by rfl) :
    Before (s.modify t f) a b := by
  have hexp : (s.modify t f).expires = s.expires :=
    funext fun u => modify_field SwTimer.hwtExpires hf u
  unfold Before
  rw [hexp]
  exact h

theorem Inv.law (h : Inv info s) : TimerLaw info s where
  sorted := h.sorted
  once t := by
    rw [List.count_append, List.count_append]
    exact h.once t
  flagged t ht := (h.flagged t ht).1
  programmed t ht := (h.flagged t (h.head t ht)).2

theorem inv_init : Inv info sysInit where
  sorted := .nil
  armed := nofun
  once := by decide
  free _ _ := rfl
  flagged _ h := by cases h
  active := nofun
  head := nofun

theorem Lists.off (h : Lists info s) (ht : (s.timers t).flags.allocate = true)
    (hused : t ∉ s.usedList) (hexpired : t ∉ s.expired) : Off s t := by
  refine ⟨fun hfree => ?_, hused, hexpired⟩
  rw [h.free t hfree] at ht
  cases ht

theorem Off.modify (h : Off s t) {f : SwTimer → SwTimer} : Off (s.modify t f) t :=
  ⟨h.free, h.used, h.expired⟩

theorem Off.flag (hs : Lists info s) (h : Off s t) : (s.timers t).flags.hwSched = false := by
  by_contra hf
  have hhead := (hs.flagged t (by simpa using hf)).1
  exact h.used (List.mem_of_mem_head? hhead)

/-- A timer with `ALLOCATE` for its only flag is on none of the lists. -/
theorem Inv.off_of_allocOnly (h : Inv info s) (ht : (s.timers t).isAllocOnly = true) : Off s t := by
  have hflags : (s.timers t).flags = { Flags.zero with allocate := true } := by
    simpa [SwTimer.isAllocOnly] using ht
  have hidle : ¬ (t ∈ s.usedList ∨ t ∈ s.expired) := by
    intro hmem
    have hactive := h.active t hmem
    rw [hflags] at hactive
    cases hactive
  refine h.toLists.off ?_ (fun hu => hidle (.inl hu)) fun he => hidle (.inr he)
  rw [hflags]

theorem Inv.modify_off (h : Inv info s) (ht : Off s t) {f : SwTimer → SwTimer}
    (hf : (f (s.timers t)).flags.hwSched = false) : Inv info (s.modify t f) := by
  have hother : ∀ u, u ∈ s.usedList → (s.modify t f).timers u = s.timers u :=
    fun u hu => modify_of_ne (by rintro rfl; exact ht.used hu) f
  refine ⟨⟨?_, h.armed, h.once, fun u hu => ?_, fun u hu => ?_⟩, fun u hu => ?_, fun u hu => ?_⟩
  · refine h.sorted.imp_of_mem fun {a b} ha hb hab => ?_
    unfold Before Sys.expires
    rw [hother a ha, hother b hb]
    exact hab
  · rw [modify_of_ne (by rintro rfl; exact ht.free hu)]
    exact h.free u hu
  · by_cases hut : u = t
    · subst hut
      rw [modify_self, hf] at hu
      cases hu
    · unfold Sys.expires
      rw [modify_of_ne hut] at hu ⊢
      exact h.flagged u hu
  · rw [modify_of_ne]
    · exact h.active u hu
    · rintro rfl
      exact hu.elim ht.used ht.expired
  · rw [hother u (List.mem_of_mem_head? hu)]
    exact h.head u hu

theorem pairwise_orderedInsert {α : Type} {r B : α → α → Prop} [DecidableRel r] {a : α}
    {l : List α} (h : l.Pairwise B) (hlt : ∀ b ∈ l, r a b → B a b ∧ ∀ c, B b c → B a c)
    (hge : ∀ b ∈ l, ¬ r a b → B b a) : (l.orderedInsert r a).Pairwise B := by
  induction l with
  | nil => exact List.pairwise_singleton _ _
  | cons b l ih =>
    obtain ⟨hb, hl⟩ := List.pairwise_cons.1 h
    rw [List.orderedInsert_cons]
    split
    · rename_i hr
      obtain ⟨hab, htrans⟩ := hlt b List.mem_cons_self hr
      refine List.pairwise_cons.2 ⟨fun c hc => ?_, h⟩
      rcases List.mem_cons.1 hc with rfl | hc
      · exact hab
      · exact htrans c (hb c hc)
    · rename_i hr
      refine List.pairwise_cons.2 ⟨fun c hc => ?_, ih hl
        (fun c hc => hlt c (List.mem_cons_of_mem _ hc)) fun c hc =>
          hge c (List.mem_cons_of_mem _ hc)⟩
      rcases (List.mem_orderedInsert _).1 hc with rfl | hc
      · exact hge b List.mem_cons_self hr
      · exact hb c hc

/-- The other lists and the `ACTIVATE` flags stay the same. -/
structure Kept (s s' : Sys) : Prop where
  free : s'.freeList = s.freeList
  expired : s'.expired = s.expired
  active : ∀ u, (s'.timers u).flags.activate = (s.timers u).flags.activate

theorem insertOrderedExpiry_sorted (h : Lists info s) (hused : t ∉ s.usedList) :
    let s' : Sys := { s with
      usedList := s.usedList.orderedInsert s.Earlier t
      stamp := Function.update s.stamp t s.armed
      armed := s.armed + 1 }
    s'.usedList.Pairwise (Before s') ∧ ∀ u ∈ s'.usedList, s'.stamp u < s'.armed := by
  have hstamp : ∀ u ∈ s.usedList, Function.update s.stamp t s.armed u = s.stamp u := by
    intro u hu
    exact Function.update_of_ne (by rintro rfl; exact hused hu) ..
  have hstamp' : Function.update s.stamp t s.armed t = s.armed := Function.update_self ..
  refine ⟨pairwise_orderedInsert ?_ (fun b hb hr => ?_) fun b hb hr => ?_, fun u hu => ?_⟩
  · refine h.sorted.imp_of_mem fun {a b} ha hb hab => ?_
    unfold Before at hab ⊢
    dsimp only
    rw [hstamp a ha, hstamp b hb]
    exact hab
  · have hlt := (utilU64DataCmp_neg _ _).1 hr
    refine ⟨.inl hlt, fun c hc => .inl ?_⟩
    rcases hc with hc | ⟨hc, -⟩
    · exact Nat.lt_trans hlt hc
    · exact Nat.lt_of_lt_of_eq hlt hc
  · have hle := Nat.le_of_not_lt fun hlt => hr ((utilU64DataCmp_neg _ _).2 hlt)
    rcases Nat.lt_or_eq_of_le hle with hlt | heq
    · exact .inl hlt
    · refine .inr ⟨heq, ?_⟩
      dsimp only
      rw [hstamp b hb, hstamp']
      exact h.armed b hb
  · dsimp only at hu ⊢
    rcases (List.mem_orderedInsert _).1 hu with rfl | hu
    · rw [hstamp']
      exact Nat.lt_succ_self _
    · rw [hstamp u hu]
      exact Nat.lt_succ_of_lt (h.armed u hu)

theorem insertOrderedExpiry_lists (h : Lists info s) (ht : Off s t) :
    Lists info (insertOrderedExpiry s t) ∧ Kept s (insertOrderedExpiry s t) ∧
      (∀ u, u ∈ (insertOrderedExpiry s t).usedList ↔ u = t ∨ u ∈ s.usedList) := by
  obtain ⟨hsorted, harmed⟩ := insertOrderedExpiry_sorted h ht.used
  have honce : ∀ u, s.freeList.count u + (s.usedList.orderedInsert s.Earlier t).count u +
      s.expired.count u ≤ 1 := by
    intro u
    have hcount := h.once u
    rw [List.orderedInsert_count]
    split
    · rename_i he
      subst he
      rw [List.count_eq_zero.2 ht.free, List.count_eq_zero.2 ht.used,
        List.count_eq_zero.2 ht.expired]
    · omega
  have hmem : ∀ u, u ∈ s.usedList.orderedInsert s.Earlier t ↔ u = t ∨ u ∈ s.usedList :=
    fun u => List.mem_orderedInsert _
  unfold insertOrderedExpiry
  dsimp only
  split
  · rename_i hnil
    refine ⟨⟨hsorted, harmed, honce, h.free, fun u hu => ?_⟩, ⟨rfl, rfl, fun _ => rfl⟩, hmem⟩
    have hhead := (h.flagged u hu).1
    rw [hnil] at hhead
    cases hhead
  · rename_i node l hcons
    split
    · refine ⟨⟨?_, harmed, honce, fun u hu => ?_, fun u hu => ?_⟩, ⟨rfl, rfl, fun u => ?_⟩, hmem⟩
      · exact hsorted.imp fun hab => before_modify hab
      · rw [modify_field (fun x => x.flags.allocate) rfl]
        exact h.free u hu
      · by_cases hun : u = node
        · subst hun
          rw [modify_self] at hu
          cases hu
        · rw [modify_of_ne hun] at hu
          have hhead := (h.flagged u hu).1
          rw [hcons] at hhead
          exact absurd (Option.some.inj hhead).symm hun
      · exact modify_field (fun x => x.flags.activate) rfl u
    · rename_i hlater
      refine ⟨⟨hsorted, harmed, honce, h.free, fun u hu => ?_⟩, ⟨rfl, rfl, fun _ => rfl⟩, hmem⟩
      have hhead := h.flagged u hu
      refine ⟨?_, hhead.2⟩
      rw [hcons] at hhead
      show (s.usedList.orderedInsert s.Earlier t).head? = some u
      rw [hcons, List.orderedInsert_cons, if_neg hlater]
      exact hhead.1

theorem schedTimerIfNew_lists (h : Lists info s) (hhead : s.usedList.head? = some t)
    (htaken : ops.taken = true) :
    Lists info (schedTimerIfNew info ops s t) ∧ Kept s (schedTimerIfNew info ops s t) ∧
      (schedTimerIfNew info ops s t).usedList = s.usedList ∧
      ((schedTimerIfNew info ops s t).timers t).flags.hwSched = true := by
  unfold schedTimerIfNew
  split
  · rename_i hflag
    exact ⟨h, ⟨rfl, rfl, fun _ => rfl⟩, rfl, hflag⟩
  · have hhwt : (if s.hwt.running then hwtUpdate info s.hwt (s.expires t)
        else hwtStart info (s.expires t)) = ⟨true, info.value (s.expires t)⟩ := by
      split
      · rename_i hrun
        unfold hwtUpdate
        rw [hrun]
      · rfl
    dsimp only
    rw [hhwt]
    refine ⟨⟨?_, h.armed, h.once, fun u hu => ?_, fun u hu => ?_⟩, ⟨rfl, rfl, fun u => ?_⟩, rfl, ?_⟩
    · refine h.sorted.imp fun {a b} hab => before_modify ?_
      refine (before_congr ?_ ?_).2 hab
      · rfl
      · rfl
    · rw [modify_field (fun x => x.flags.allocate) rfl]
      exact h.free u hu
    · have hut : u = t := by
        by_contra hut
        rw [modify_of_ne hut] at hu
        exact hut (Option.some.inj ((h.flagged u hu).1.symm.trans hhead))
      subst hut
      refine ⟨hhead, ?_⟩
      unfold Sys.expires
      rw [modify_field SwTimer.hwtExpires rfl]
      rfl
    · exact modify_field (fun x => x.flags.activate) rfl u
    · rw [modify_self]
      rfl

theorem schedHead_inv (h : Lists info s)
    (hactive : ∀ t, t ∈ s.usedList ∨ t ∈ s.expired → (s.timers t).flags.activate = true)
    (htaken : ops.taken = true) :
    Inv info (schedHead info ops s) ∧ (schedHead info ops s).expired = s.expired := by
  unfold schedHead
  split
  · rename_i hnil
    refine ⟨⟨h, hactive, fun u hu => ?_⟩, rfl⟩
    rw [hnil] at hu
    cases hu
  · rename_i head l hcons
    have hhead : s.usedList.head? = some head := by
      rw [hcons]
      rfl
    obtain ⟨hlists, hkept, hused, hflag⟩ := schedTimerIfNew_lists h hhead htaken
    refine ⟨⟨hlists, fun u hu => ?_, fun u hu => ?_⟩, hkept.expired⟩
    · rw [hused, hkept.expired] at hu
      rw [hkept.active]
      exact hactive u hu
    · rw [hused, hhead] at hu
      cases hu
      exact hflag

theorem arm_inv (h : Inv info s) (ht : Off s t) (htaken : ops.taken = true) :
    Inv info (arm info ops s t) ∧ (arm info ops s t).expired = s.expired := by
  obtain ⟨hlists, hkept, hmem⟩ := insertOrderedExpiry_lists h.toLists ht
  obtain ⟨hlists', hkept', hused', hflag⟩ : Lists info (schedHead info ops (insertOrderedExpiry s t)) ∧
      Kept (insertOrderedExpiry s t) (schedHead info ops (insertOrderedExpiry s t)) ∧
      (schedHead info ops (insertOrderedExpiry s t)).usedList = (insertOrderedExpiry s t).usedList ∧
      ∀ u ∈ (insertOrderedExpiry s t).usedList.head?,
        ((schedHead info ops (insertOrderedExpiry s t)).timers u).flags.hwSched = true := by
    unfold schedHead
    split
    · rename_i hnil
      refine ⟨hlists, ⟨rfl, rfl, fun _ => rfl⟩, rfl, fun u hu => ?_⟩
      rw [hnil] at hu
      cases hu
    · rename_i head l hcons
      have hhead : (insertOrderedExpiry s t).usedList.head? = some head := by
        rw [hcons]
        rfl
      obtain ⟨hl, hk, hu, hf⟩ := schedTimerIfNew_lists hlists hhead htaken
      refine ⟨hl, hk, hu, fun u hu => ?_⟩
      rw [hhead] at hu
      cases hu
      exact hf
  unfold arm
  refine ⟨⟨⟨?_, hlists'.armed, hlists'.once, fun u hu => ?_, fun u hu => ?_⟩, fun u hu => ?_,
    fun u hu => ?_⟩, hkept'.expired.trans hkept.expired⟩
  · exact hlists'.sorted.imp fun hab => before_modify hab
  · rw [modify_field (fun x => x.flags.allocate) rfl]
    exact hlists'.free u hu
  · rw [modify_field (fun x => x.flags.hwSched) rfl] at hu
    unfold Sys.expires
    rw [modify_field SwTimer.hwtExpires rfl]
    exact hlists'.flagged u hu
  · by_cases hut : u = t
    · subst hut
      rw [modify_self]
      rfl
    · have hu : u ∈ (schedHead info ops (insertOrderedExpiry s t)).usedList ∨
          u ∈ (schedHead info ops (insertOrderedExpiry s t)).expired := hu
      rw [hused', hmem, hkept'.expired, hkept.expired] at hu
      rw [modify_of_ne hut, hkept'.active, hkept.active]
      exact h.active u (hu.imp_left fun hu => hu.resolve_left hut)
  · rw [modify_field (fun x => x.flags.hwSched) rfl]
    refine hflag u ?_
    rw [← hused']
    exact hu

/-! ### The calls -/

theorem setupTimerExec_inv (h : Inv info s) (ht : Off s t) (htaken : ops.taken = true)
    (hasExpval : Bool) : Inv info (setupTimerExec info ops s t hasExpval).1 := by
  have hstart : ∀ hwtCurrent : U64Val, Inv info (arm info ops (if hasExpval then s else
      s.modify t fun x => { x with
        hwtExpires := calcHwtExpiry info hwtCurrent x.swInterval }) t) := by
    intro hwtCurrent
    split
    · exact (arm_inv h ht htaken).1
    · refine (arm_inv (h.modify_off ht ?_) ht.modify htaken).1
      exact ht.flag h.toLists
  unfold setupTimerExec
  dsimp only
  split
  · split
    · exact h
    · exact hstart _
  · exact hstart _

theorem timerStart_inv (h : Inv info s) (htaken : ops.taken = true) (time : U64Time)
    (options : UInt32) : Inv info (timerStart info ops s t time options).1 := by
  unfold timerStart
  dsimp only
  split
  · exact h
  · rename_i halloc
    have ht := h.off_of_allocOnly (Bool.not_eq_false _ ▸ halloc)
    have hflag := ht.flag h.toLists
    split
    · refine setupTimerExec_inv (h.modify_off ht ?_) ht.modify htaken true
      exact hflag
    · split
      · dsimp only
        refine h.modify_off ht ?_
        exact hflag
      · refine setupTimerExec_inv (h.modify_off ht ?_) ht.modify htaken false
        exact hflag

theorem hasValidOpts_isSome (options : UInt32) : ∃ b, hasValidOpts info true options = some b := by
  unfold hasValidOpts
  split
  · exact ⟨_, rfl⟩
  · split <;> exact ⟨_, rfl⟩

theorem ccTimerStart_inv (h : Inv info s) {hndl : Option Swt} (htaken : ops.taken = true)
    (hobj : ∀ swt ∈ hndl, (s.timers swt).hwtObj = true) (time : U64Time) (options : UInt32) :
    ∃ r, ccTimerStart info ops s hndl time options = some r ∧ Inv info r.1 := by
  unfold ccTimerStart
  cases hndl with
  | none => exact ⟨_, rfl, h⟩
  | some swt =>
    dsimp only
    rw [hobj swt rfl]
    obtain ⟨b, hb⟩ : ∃ b, hasValidOpts info true options = some b := hasValidOpts_isSome options
    rw [hb]
    cases b with
    | false => exact ⟨_, rfl, h⟩
    | true => exact ⟨_, rfl, timerStart_inv h htaken _ _⟩

/-- `remove_elem`. -/
theorem erase_lists (h : Lists info s) (ht : t ∈ s.usedList) {f : SwTimer → SwTimer}
    (hf : (f (s.timers t)).flags.hwSched = false)
    (hfa : (f (s.timers t)).flags.allocate = (s.timers t).flags.allocate) :
    Lists info ({ s with usedList := s.usedList.erase t }.modify t f) ∧
      t ∉ s.usedList.erase t := by
  have hcount : (s.usedList.erase t).count t = 0 := by
    have honce := h.once t
    have hpos := List.count_pos_iff.2 ht
    rw [List.count_erase_self]
    omega
  have hnot : t ∉ s.usedList.erase t := List.count_eq_zero.1 hcount
  have hne : ∀ u ∈ s.usedList.erase t, u ≠ t := by
    rintro u hu rfl
    exact hnot hu
  refine ⟨⟨?_, fun u hu => ?_, fun u => ?_, fun u hu => ?_, fun u hu => ?_⟩, hnot⟩
  · refine (h.sorted.sublist List.erase_sublist).imp_of_mem fun {a b} ha hb hab => ?_
    unfold Before Sys.expires at hab ⊢
    rw [modify_of_ne (hne a ha), modify_of_ne (hne b hb)]
    exact hab
  · exact h.armed u (List.mem_of_mem_erase hu)
  · have honce := h.once u
    have hsub : (s.usedList.erase t).Sublist s.usedList := List.erase_sublist
    have hle := hsub.count_le u
    show s.freeList.count u + (s.usedList.erase t).count u + s.expired.count u ≤ 1
    omega
  · rw [modify_field (s := { s with usedList := s.usedList.erase t })
      (fun x => x.flags.allocate) hfa]
    exact h.free u hu
  · by_cases hut : u = t
    · subst hut
      rw [modify_self, hf] at hu
      cases hu
    · rw [modify_of_ne hut] at hu
      unfold Sys.expires
      rw [modify_of_ne hut]
      obtain ⟨hhead, hhwt⟩ := h.flagged u hu
      refine ⟨?_, hhwt⟩
      show (s.usedList.erase t).head? = some u
      obtain ⟨l, hl⟩ : ∃ l, s.usedList = u :: l := List.head?_eq_some_iff.1 hhead
      rw [hl, List.erase_cons_tail (by simpa using hut)]
      rfl

theorem timerStop_inv (h : Inv info s) (htaken : ops.taken = true) :
    Inv info (timerStop info ops s t).1 := by
  unfold timerStop
  split
  · exact h
  · rename_i ht
    have ht : t ∈ s.usedList := by simpa using ht
    obtain ⟨hlists, hnot⟩ := erase_lists h.toLists ht
      (f := fun x => ((x.setScheduled false).setPeriodic false).setActivate false) rfl rfl
    have hexpired : t ∉ s.expired := by
      have honce := h.once t
      have hpos := List.count_pos_iff.2 ht
      exact List.count_eq_zero.1 (by omega)
    have hactive : ∀ u, u ∈ s.usedList.erase t ∨ u ∈ s.expired →
        (({ s with usedList := s.usedList.erase t }.modify t fun x =>
          ((x.setScheduled false).setPeriodic false).setActivate false).timers
            u).flags.activate = true := by
      intro u hu
      rw [modify_of_ne]
      · exact h.active u (hu.imp_left List.mem_of_mem_erase)
      · rintro rfl
        exact hu.elim hnot hexpired
    have hsched := schedHead_inv hlists hactive htaken
    unfold schedHead at hsched
    dsimp only
    split
    · rename_i hnil
      have hnil : s.usedList.erase t = [] := hnil
      refine ⟨⟨hlists.sorted, hlists.armed, hlists.once, hlists.free, fun u hu => ?_⟩, hactive,
        fun u hu => ?_⟩
      · have hhead : (s.usedList.erase t).head? = some u := (hlists.flagged u hu).1
        rw [hnil] at hhead
        cases hhead
      · have hu : u ∈ (s.usedList.erase t).head? := hu
        rw [hnil] at hu
        cases hu
    · rename_i head l hcons
      rw [hcons] at hsched
      exact hsched.1

theorem ccTimerStop_inv (h : Inv info s) {hndl : Option Swt} (htaken : ops.taken = true)
    (hobj : ∀ swt ∈ hndl, (s.timers swt).hwtObj = true) :
    ∃ r, ccTimerStop info ops s hndl = some r ∧ Inv info r.1 := by
  unfold ccTimerStop
  cases hndl with
  | none => exact ⟨_, rfl, h⟩
  | some swt =>
    dsimp only
    split
    · rw [if_pos (hobj swt rfl)]
      exact ⟨_, rfl, timerStop_inv h htaken⟩
    · exact ⟨_, rfl, h⟩

/-- The first timer of the free list is taken off it. -/
theorem off_taken {freeList : List Swt} (hfree : s.freeList = t :: freeList)
    (honce : ∀ u, s.freeList.count u + s.usedList.count u + s.expired.count u ≤ 1) :
    Off { s with freeList := freeList } t ∧
      ∀ u, freeList.count u + s.usedList.count u + s.expired.count u ≤ 1 := by
  rw [hfree] at honce
  refine ⟨?_, fun u => ?_⟩
  · have hcount := honce t
    rw [List.count_cons_self] at hcount
    refine ⟨?_, ?_, ?_⟩ <;> exact List.count_eq_zero.1 (by dsimp only; omega)
  · have hle := List.count_le_count_cons (a := u) (b := t) (l := freeList)
    exact le_trans (by omega) (honce u)

/-- A timer that is on none of the lists is put on the free list. -/
theorem Off.returned (hoff : Off s t)
    (honce : ∀ u, s.freeList.count u + s.usedList.count u + s.expired.count u ≤ 1) (u : Swt) :
    (t :: s.freeList).count u + s.usedList.count u + s.expired.count u ≤ 1 := by
  have hcount := honce u
  rw [List.count_cons]
  split
  · rename_i he
    obtain rfl : t = u := by simpa using he
    rw [List.count_eq_zero.2 hoff.free, List.count_eq_zero.2 hoff.used,
      List.count_eq_zero.2 hoff.expired]
  · omega

theorem ccTimerCreate_inv (h : Inv info s) : Inv info (ccTimerCreate s).1 := by
  unfold ccTimerCreate
  split
  · exact h
  · rename_i swt freeList hfree
    obtain ⟨hoff, honce⟩ := off_taken hfree h.once
    have hinv : Inv info { s with freeList := freeList } :=
      ⟨⟨h.sorted, h.armed, honce, fun u hu => h.free u (by rw [hfree]; exact List.mem_cons_of_mem _ hu),
        h.flagged⟩, h.active, h.head⟩
    dsimp only
    refine hinv.modify_off hoff ?_
    rfl

theorem ccTimerDelete_inv (h : Inv info s) (hndl : Option Swt) :
    Inv info (ccTimerDelete s hndl).1 := by
  unfold ccTimerDelete
  cases hndl with
  | none => exact h
  | some swt =>
    dsimp only
    split
    · exact h
    · rename_i halloc
      have hoff := h.off_of_allocOnly (Bool.not_eq_false _ ▸ halloc)
      have hinv := h.modify_off hoff (f := fun x => { x.setAllocStatus false with hwtObj := false })
        rfl
      refine ⟨⟨hinv.sorted, hinv.armed, hoff.returned h.once, List.forall_mem_cons.2 ⟨?_, hinv.free⟩,
        hinv.flagged⟩, hinv.active, hinv.head⟩
      show (SwTimer.flags (Function.update s.timers swt _ swt)).allocate = false
      rw [Function.update_self]
      rfl

/-! ### The interrupt -/

theorem isolateExpiredSwtList_append (hwtCurrent : U64Val) (l : List Swt) :
    (isolateExpiredSwtList s hwtCurrent l).1 ++ (isolateExpiredSwtList s hwtCurrent l).2 = l := by
  induction l with
  | nil => rfl
  | cons elem l ih =>
    rw [isolateExpiredSwtList]
    split
    · rfl
    · exact congrArg (elem :: ·) ih

theorem modify_comm (hne : t ≠ u) (f g : SwTimer → SwTimer) :
    (s.modify t f).modify u g = (s.modify u g).modify t f := by
  unfold Sys.modify
  dsimp only
  rw [Function.update_of_ne hne.symm, Function.update_of_ne hne, Function.update_comm hne]

theorem schedTimerIfNew_modify (hne : u ≠ t) (f : SwTimer → SwTimer) :
    schedTimerIfNew info ops (s.modify t f) u = (schedTimerIfNew info ops s u).modify t f := by
  have hu : (s.modify t f).timers u = s.timers u := modify_of_ne hne f
  have hexp : (s.modify t f).expires u = s.expires u := congrArg SwTimer.hwtExpires hu
  unfold schedTimerIfNew
  rw [hu, hexp]
  split
  · rfl
  · split
    · have hcomm := fun hwt => modify_comm (s := { s with hwt := hwt }) hne.symm f
        (·.setScheduled true)
      exact hcomm (if s.hwt.running then hwtUpdate info s.hwt (s.expires u)
        else hwtStart info (s.expires u))
    · rfl

theorem schedHead_modify (ht : t ∉ s.usedList) (f : SwTimer → SwTimer) :
    schedHead info ops (s.modify t f) = (schedHead info ops s).modify t f := by
  unfold schedHead
  show (match s.usedList with | [] => _ | head :: _ => _) = _
  split
  · rfl
  · rename_i head l hcons
    refine schedTimerIfNew_modify ?_ f
    rintro rfl
    rw [hcons] at ht
    exact ht List.mem_cons_self

theorem handleNext_inv (h : Inv info s) : Inv info (handleNext s) := by
  unfold handleNext
  split
  · rename_i t l hcons
    have hused : t ∉ s.usedList := by
      have honce := h.once t
      rw [hcons, List.count_cons_self] at honce
      exact List.count_eq_zero.1 (by omega)
    refine ⟨⟨h.sorted.imp fun hab => before_modify hab, h.armed, h.once, fun u hu => ?_,
      fun u hu => ?_⟩, fun u hu => ?_, fun u hu => ?_⟩
    · rw [modify_field (fun x => x.flags.allocate) rfl]
      exact h.free u hu
    · by_cases hut : u = t
      · subst hut
        rw [modify_self] at hu
        cases hu
      · unfold Sys.expires
        rw [modify_of_ne hut] at hu ⊢
        exact h.flagged u hu
    · rw [modify_field (fun x => x.flags.activate) rfl]
      exact h.active u hu
    · rw [modify_of_ne]
      · exact h.head u hu
      · rintro rfl
        exact hused (List.mem_of_mem_head? hu)
  · split
    · rename_i hnil
      refine ⟨⟨h.sorted, h.armed, h.once, h.free, fun u hu => ?_⟩, h.active, h.head⟩
      have hhead := (h.flagged u hu).1
      rw [hnil] at hhead
      cases hhead
    · exact h

theorem timerIsr_inv (h : Inv info s) (htaken : ops.taken = true) :
    Inv info (timerIsr info ops s) := by
  unfold timerIsr
  split
  · exact handleNext_inv h
  · rename_i hwtCurrent _
    have happ := isolateExpiredSwtList_append (s := s) hwtCurrent s.usedList
    generalize isolateExpiredSwtList s hwtCurrent s.usedList = r at happ ⊢
    obtain ⟨expired, usedList⟩ := r
    dsimp only at happ ⊢
    have hsub : usedList.Sublist s.usedList := by
      rw [← happ]
      exact List.sublist_append_right _ _
    have honce : ∀ u, s.freeList.count u + usedList.count u + expired.count u ≤ 1 := by
      intro u
      have honce := h.once u
      rw [← happ, List.count_append] at honce
      omega
    have hactive : ∀ u, u ∈ usedList ∨ u ∈ expired → (s.timers u).flags.activate = true := by
      intro u hu
      refine h.active u (.inl ?_)
      rw [← happ]
      exact List.mem_append.2 hu.symm
    cases expired with
    | nil =>
      have hused : s.usedList = usedList := happ.symm
      have harmed : ∀ u ∈ usedList, s.stamp u < s.armed := fun u hu => h.armed u (hsub.subset hu)
      have hlists : Lists info { s with usedList := usedList, expired := [] } := by
        refine ⟨h.sorted.sublist hsub, harmed, honce, h.free, fun u hu => ?_⟩
        have hflagged := h.flagged u hu
        rw [hused] at hflagged
        exact hflagged
      exact handleNext_inv (schedHead_inv hlists hactive htaken).1
    | cons t expired =>
      -- the first expired timer is the one that was programmed
      have hused : t ∉ usedList := by
        have hcount := honce t
        rw [List.count_cons_self] at hcount
        exact List.count_eq_zero.1 (by omega)
      have hlists : Lists info ({ s with usedList := usedList, expired := t :: expired }.modify t
          (·.setScheduled false)) := by
        refine ⟨?_, fun u hu => h.armed u (hsub.subset hu), honce, fun u hu => ?_, fun u hu => ?_⟩
        · refine (h.sorted.sublist hsub).imp fun {a b} hab => before_modify ?_
          refine (before_congr ?_ ?_).2 hab
          · rfl
          · rfl
        · have hfree : (s.timers u).flags.allocate = false := h.free u hu
          rw [modify_field (fun x => x.flags.allocate) rfl]
          exact hfree
        · by_cases hut : u = t
          · subst hut
            rw [modify_self] at hu
            cases hu
          · rw [modify_of_ne hut] at hu
            have hhead := (h.flagged u hu).1
            rw [← happ] at hhead
            exact absurd (Option.some.inj hhead).symm hut
      have hinv := schedHead_inv hlists (fun u hu => ?_) htaken
      · have hexpired := hinv.2
        rw [schedHead_modify hused] at hinv hexpired
        unfold handleNext
        have hcons : (schedHead info ops
            { s with usedList := usedList, expired := t :: expired }).expired = t :: expired :=
          hexpired
        rw [hcons]
        exact hinv.1
      · rw [modify_field (fun x => x.flags.activate) rfl]
        exact hactive u hu

theorem callbackReturns_inv (h : Inv info s) (htaken : ops.taken = true) :
    Inv info (callbackReturns info ops s) := by
  unfold callbackReturns
  split
  · exact h
  · rename_i t expired hcons
    have hinv : Inv info { s with expired := expired } := by
      refine ⟨⟨h.sorted, h.armed, fun u => ?_, h.free, h.flagged⟩, fun u hu => ?_, h.head⟩
      · have honce := h.once u
        rw [hcons] at honce
        have hle := List.count_le_count_cons (a := u) (b := t) (l := expired)
        show s.freeList.count u + s.usedList.count u + expired.count u ≤ 1
        omega
      · refine h.active u (hu.imp_right fun hu => ?_)
        rw [hcons]
        exact List.mem_cons_of_mem _ hu
    have hoff : Off { s with expired := expired } t := by
      have hcount := h.once t
      rw [hcons, List.count_cons_self] at hcount
      refine ⟨?_, ?_, ?_⟩ <;> exact List.count_eq_zero.1 (by dsimp only; omega)
    have hflag := hoff.flag hinv.toLists
    dsimp only
    split
    · refine handleNext_inv (arm_inv (hinv.modify_off hoff ?_) hoff.modify htaken).1
      exact hflag
    · refine handleNext_inv (hinv.modify_off hoff ?_)
      exact hflag

theorem sysStep_inv (h : Inv info s) {i : Act} (hcond : TimerCond s i) :
    ∃ s' o, sysStep info s i = some (s', o) ∧ Inv info s' := by
  cases i with
  | create => exact ⟨_, _, rfl, ccTimerCreate_inv h⟩
  | start hndl time options ops =>
    obtain ⟨r, hr, hinv⟩ := ccTimerStart_inv h hcond.2 hcond.1 time options
    refine ⟨r.1, .rv r.2, ?_, hinv⟩
    show (ccTimerStart info ops s hndl time options).map _ = _
    rw [hr]
    rfl
  | stop hndl ops =>
    obtain ⟨r, hr, hinv⟩ := ccTimerStop_inv h hcond.2 hcond.1
    refine ⟨r.1, .rv r.2, ?_, hinv⟩
    show (ccTimerStop info ops s hndl).map _ = _
    rw [hr]
    rfl
  | delete hndl => exact ⟨_, _, rfl, ccTimerDelete_inv h hndl⟩
  | isr ops =>
    refine ⟨_, _, rfl, ?_⟩
    split
    · exact timerIsr_inv h hcond
    · exact h
  | ret ops => exact ⟨_, _, rfl, callbackReturns_inv h hcond⟩

end

/-- In every run in which the hardware timer takes the expiries that it is given, and no timer is
started or stopped that is not there. -/
theorem timer_list (info : HwtInfo) (is : List Act)
    (hmeets : Meets (sysStep info) TimerCond sysInit is) :
    ∃ s os, runs (sysStep info) sysInit is = some (s, os) ∧ TimerLaw info s := by
  obtain ⟨s, os, hr, hinv⟩ := runs_invariant (fun _ _ hI hC => sysStep_inv hI hC) inv_init hmeets
  exact ⟨s, os, hr, hinv.law⟩

/-- A periodic and an one-shot timer; the interrupt finds both expired, and the callback of the first
one stops the second, in vain. -/
theorem timer_list_two :
    ∃ s os, runs (sysStep ⟨false, false, 1000⟩) sysInit
        [.create, .create, .start (some 5) ⟨2, 0⟩ 1 ⟨none, true⟩,
          .start (some 4) ⟨2, 0⟩ 0 ⟨some ⟨0, 0⟩, true⟩, .isr ⟨some ⟨0, 3000⟩, true⟩,
          .stop (some 4) ⟨none, true⟩, .ret ⟨none, true⟩, .ret ⟨none, true⟩] = some (s, os) ∧
      TimerLaw ⟨false, false, 1000⟩ s := by
  refine timer_list _ _ ?_
  refine And.intro trivial <| And.intro trivial <| And.intro ⟨?_, rfl⟩ <| And.intro ⟨?_, rfl⟩ <|
    And.intro rfl <| And.intro ⟨?_, rfl⟩ <| And.intro rfl <| And.intro rfl trivial
  all_goals
    rintro _ ⟨⟩
    rfl

/-- A timer is started with an expiry that the hardware timer does not take. -/
theorem start_not_taken :
    ∃ s os, runs (sysStep ⟨false, false, 1000⟩) sysInit
        [.create, .start (some 5) ⟨0, 0⟩ 0 ⟨none, false⟩] = some (s, os) ∧
      s.usedList = [5] ∧ s.hwt.running = false ∧ ¬ TimerLaw ⟨false, false, 1000⟩ s := by
  refine ⟨_, _, rfl, rfl, rfl, fun h => ?_⟩
  have hrunning := congrArg Hwt.running (h.programmed 5 rfl)
  cases hrunning

end SimpleLink.Timer.CcTimer
