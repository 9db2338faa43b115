import Mathlib.Data.List.FinRange
import Mathlib.Logic.Function.Basic
import SimpleLink.Lib.Run

/-!
# Without an operating system (`nonos.c`)

`_SlNonOsMainLoopTask` calls the entries that were spawned, one slot after the other, and
`_SlNonOsSemGet` calls it while it waits, also when an entry waits. What has been called and has not
returned is a list of frames, the innermost one first, and `next` is a step of that one. Interrupts and
the entries spawn, read frames and signal in between.

A job is a call of `_SlNonOsSpawn`, which are counted. `wanted` records those that returned OK while a
received frame was unread, and `ran` how often each was run.
-/

namespace SimpleLink.Driver.NonOs

open Lib

abbrev nonosRetOk : Int := 0
/-- `0xFF`, as a signed byte. -/
abbrev nonosRetErr : Int := -1

abbrev nonosWaitForever : UInt8 := 0xFF
abbrev nonosNoWait : UInt8 := 0x00
/-- `__NON_OS_SYNC_OBJ_SIGNAL_VALUE`. -/
abbrev syncObjSignalValue : UInt8 := 0x22

/-- A call of `_SlNonOsSemGet`. -/
structure SemGet (O : Type) where
  pSyncObj : O
  waitValue : UInt8
  setValue : UInt8
  timeout : UInt8
  timeOutRequest : UInt8
  /-- It has called `_SlNonOsMainLoopTask`, and is behind the call. -/
  afterTask : Bool

/-- `task` is `_SlNonOsMainLoopTask` in front of a slot, and `call` the job of a slot that it runs. -/
inductive Frame (N : Nat) (O : Type) where
  | task (i : Nat)
  | call (i : Fin N) (job : Nat)
  | semGet (g : SemGet O)

/-- `N` is `NONOS_MAX_SPAWN_ENTRIES`, and `O` are the sync and lock objects. -/
structure Sys (N : Nat) (O : Type) where
  spawnEntries : Fin N → Option Nat
  rxIrqCnt : UInt8
  rxDoneCnt : UInt8
  objs : O → UInt8
  frames : List (Frame N O)
  spawned : Nat
  wanted : Nat → Bool
  ran : Nat → Nat

def sysInit (N : Nat) {O : Type} (objs : O → UInt8) : Sys N O where
  spawnEntries := fun _ => none
  rxIrqCnt := 0
  rxDoneCnt := 0
  objs := objs
  frames := []
  spawned := 0
  wanted := fun _ => false
  ran := fun _ => 0

variable {N : Nat} {O : Type} [DecidableEq O]

def Sys.pending (s : Sys N O) : Bool := s.rxIrqCnt != s.rxDoneCnt

def Sys.setEntry (s : Sys N O) (i : Fin N) (e : Option Nat) : Sys N O :=
  { s with spawnEntries := Function.update s.spawnEntries i e }

def Sys.freeEntry (s : Sys N O) : Option (Fin N) :=
  (List.finRange N).find? fun i => (s.spawnEntries i).isNone

/-- `_SlNonOsSpawn`. -/
def slNonOsSpawn (s : Sys N O) : Sys N O × Int :=
  let job := s.spawned
  let s := { s with spawned := job + 1, wanted := Function.update s.wanted job s.pending }
  match s.freeEntry with
  | some i => (s.setEntry i (some job), nonosRetOk)
  | none => (s, nonosRetOk)

/-- `_SlNonOsMainLoopTask` looks at slot `i`. -/
def lookEntry (s : Sys N O) (fs : List (Frame N O)) (i : Fin N) : Sys N O :=
  match s.spawnEntries i with
  | none => { s with frames := .task (i + 1) :: fs }
  | some job =>
    if s.pending then { s with frames := .call i job :: fs, ran := Function.update s.ran job (s.ran job + 1) }
    else { s.setEntry i none with frames := .task (i + 1) :: fs }

/-- What a step gives back: nothing, or the result of a function, and whether `_SlNonOsSemGet` has replaced
the value. -/
inductive Out where
  | none
  | ret (v : Int)
  | semRet (v : Int) (replaced : Bool)

/-- `_SlNonOsSemGet` replaces the value that it waits for, and returns. -/
def semGrant (s : Sys N O) (fs : List (Frame N O)) (g : SemGet O) : Sys N O × Out :=
  ({ s with objs := Function.update s.objs g.pSyncObj g.setValue, frames := fs },
    .semRet (if g.timeout = 0 then nonosRetErr else nonosRetOk) true)

/-- A step of `_SlNonOsSemGet`, with or without `_SlSyncWaitLoopCallback`. -/
def semStep (callback : Bool) (s : Sys N O) (fs : List (Frame N O)) (g : SemGet O) : Sys N O × Out :=
  if g.afterTask then
    if callback ∧ g.waitValue = syncObjSignalValue ∧ g.timeOutRequest ≠ nonosNoWait ∧
        s.objs g.pSyncObj = g.waitValue then semGrant s fs g
    else ({ s with frames := .semGet { g with afterTask := false } :: fs }, .none)
  else if 0 < g.timeout then
    if s.objs g.pSyncObj = g.waitValue then semGrant s fs g
    else
      let timeout := if g.timeout ≠ nonosWaitForever then g.timeout - 1 else g.timeout
      ({ s with frames := .task 0 :: .semGet { g with timeout := timeout, afterTask := true } :: fs }, .none)
  else ({ s with frames := fs }, .semRet nonosRetErr false)

inductive Act (O : Type) where
  | irq
  | spawn
  | frameRead
  | semSet (o : O) (v : UInt8)
  /-- A call of `_SlNonOsMainLoopTask`. -/
  | mainLoopTask
  /-- A call of `_SlNonOsSemGet`. -/
  | semGet (o : O) (waitValue setValue timeout : UInt8)
  | next

/-- Only the program and an entry call functions that wait. -/
def Sys.canCall (s : Sys N O) : Bool :=
  match s.frames with
  | [] => true
  | .call .. :: _ => true
  | _ => false

def nextStep (callback : Bool) (s : Sys N O) : Sys N O × Out :=
  match s.frames with
  | [] => (s, .none)
  | .task i :: fs =>
    if h : i < N then (lookEntry s fs ⟨i, h⟩, .none) else ({ s with frames := fs }, .ret nonosRetOk)
  | .call i _ :: fs => ({ s.setEntry i none with frames := .task (i + 1) :: fs }, .none)
  | .semGet g :: fs => semStep callback s fs g

def sysStep (callback : Bool) (s : Sys N O) : Act O → Option (Sys N O × Out)
  | .irq => some ({ s with rxIrqCnt := s.rxIrqCnt + 1 }, .none)
  | .spawn =>
    let (s, ret) := slNonOsSpawn s
    some (s, .ret ret)
  | .frameRead => some ({ s with rxDoneCnt := s.rxDoneCnt + 1 }, .none)
  | .semSet o v => some ({ s with objs := Function.update s.objs o v }, .none)
  | .mainLoopTask => some (if s.canCall then { s with frames := .task 0 :: s.frames } else s, .none)
  | .semGet o waitValue setValue timeout =>
    some (if s.canCall then
        { s with frames := .semGet ⟨o, waitValue, setValue, timeout, timeout, false⟩ :: s.frames } else s, .none)
  | .next => some (nextStep callback s)

/-! ## What is expected -/

/-- A wanted job is not run twice, and has been run when it is in no slot any more. -/
def Law (s : Sys N O) : Prop :=
  ∀ job, s.wanted job = true →
    s.ran job ≤ 1 ∧ ((∀ i, s.spawnEntries i ≠ some job) → s.ran job = 1)

/-- An error is returned when there is no free slot. `_SlNonOsSemGet` returns OK where it has found and replaced
the value; otherwise the objects stay as they are, and the request was not one that could be granted at
once. -/
def OutOk (s s' : Sys N O) (act : Act O) (out : Out) : Prop :=
  match act with
  | .spawn => (out = .ret nonosRetOk ↔ ∃ i, s.spawnEntries i = none)
  | .next =>
    match s.frames, out with
    | .semGet g :: _, .semRet v replaced =>
      if replaced then v = nonosRetOk ∧ s.objs g.pSyncObj = g.waitValue ∧
        s'.objs = Function.update s.objs g.pSyncObj g.setValue
      else v = nonosRetErr ∧ s'.objs = s.objs ∧
        ¬ (g.timeOutRequest = nonosNoWait ∧ s.objs g.pSyncObj = g.waitValue)
    | _, _ => s'.objs = s.objs
  | _ => True

def Keeps (callback : Bool) (s : Sys N O) (act : Act O) : Prop :=
  ∃ s' out, sysStep callback s act = some (s', out) ∧ Law s' ∧ OutOk s s' act out

def calls (fs : List (Frame N O)) : List (Fin N × Nat) :=
  fs.filterMap fun
    | .call i job => some (i, job)
    | _ => none

def InCall (s : Sys N O) (job : Nat) : Prop := ∃ i, (i, job) ∈ calls s.frames

/-- What is needed of a step: a spawn finds a free slot. A wanted job that the main loop comes to is not being
run if a frame is unread, and is being run if none is; where a job returns, its slot holds no wanted job
that is not being run. A request is not one without waiting for a value that is there, and the value does
not come in the last turn of the loop with the callback. -/
def Cond (callback : Bool) (s : Sys N O) : Act O → Prop
  | .spawn => ∃ i, s.spawnEntries i = none
  | .next =>
    match s.frames with
    | .task i :: _ => ∀ h : i < N, ∀ job, s.spawnEntries ⟨i, h⟩ = some job → s.wanted job = true →
        (s.pending = true ↔ ¬ InCall s job)
    | .call i _ :: _ => ∀ job, s.spawnEntries i = some job → s.wanted job = true → InCall s job
    | .semGet g :: _ =>
      if g.afterTask then
        callback = true → g.waitValue = syncObjSignalValue → g.timeOutRequest ≠ nonosNoWait →
          s.objs g.pSyncObj = g.waitValue → g.timeout ≠ 0
      else g.timeout = 0 → ¬ (g.timeOutRequest = nonosNoWait ∧ s.objs g.pSyncObj = g.waitValue)
    | [] => True
  | _ => True

/-! ## Jobs in slots and in calls -/

/-- A job is in one slot, and is run in that one; what is in a slot was run as often as it is being run. -/
structure Inv (s : Sys N O) : Prop where
  fresh : ∀ i job, s.spawnEntries i = some job → job < s.spawned
  called : ∀ i job, (i, job) ∈ calls s.frames → job < s.spawned
  unran : ∀ job, s.spawned ≤ job → s.ran job = 0 ∧ s.wanted job = false
  one : ∀ i j job, s.spawnEntries i = some job → s.spawnEntries j = some job → i = j
  place : ∀ i j job, (i, job) ∈ calls s.frames → s.spawnEntries j = some job → j = i
  count : ∀ i job, s.spawnEntries i = some job → s.ran job = (calls s.frames).countP (·.2 = job)

section Steps

omit [DecidableEq O]

variable {s s' : Sys N O}

theorem inv_init (objs : O → UInt8) : Inv (sysInit N objs) where
  fresh := nofun
  called := nofun
  unran := fun _ _ => ⟨rfl, rfl⟩
  one := nofun
  place := nofun
  count := nofun

theorem law_init (objs : O → UInt8) : Law (sysInit N objs) := nofun

theorem Inv.congr (h : Inv s) (hentries : s'.spawnEntries = s.spawnEntries) (hcalls : calls s'.frames = calls s.frames)
    (hspawned : s'.spawned = s.spawned) (hwanted : s'.wanted = s.wanted) (hran : s'.ran = s.ran) : Inv s' where
  fresh := by rw [hentries, hspawned]; exact h.fresh
  called := by rw [hcalls, hspawned]; exact h.called
  unran := by rw [hspawned, hran, hwanted]; exact h.unran
  one := by rw [hentries]; exact h.one
  place := by rw [hentries, hcalls]; exact h.place
  count := by rw [hentries, hcalls, hran]; exact h.count

theorem Law.congr (hentries : s'.spawnEntries = s.spawnEntries) (hwanted : s'.wanted = s.wanted)
    (hran : s'.ran = s.ran) : Law s' ↔ Law s := by
  unfold Law
  rw [hentries, hwanted, hran]

theorem setEntry_entries (s : Sys N O) (i j : Fin N) (e : Option Nat) :
    (s.setEntry i e).spawnEntries j = if j = i then e else s.spawnEntries j := by
  by_cases h : j = i
  · rw [if_pos h, h]
    exact Function.update_self ..
  · rw [if_neg h]
    exact Function.update_of_ne h ..

theorem Inv.clear (h : Inv s) (i : Fin N) {fs : List (Frame N O)} (hsub : ∀ c ∈ calls fs, c ∈ calls s.frames)
    (hcount : ∀ j job, j ≠ i → s.spawnEntries j = some job →
      (calls fs).countP (·.2 = job) = (calls s.frames).countP (·.2 = job)) :
    Inv { s.setEntry i none with frames := fs } := by
  have hother {j : Fin N} {job : Nat} (hj : (s.setEntry i none).spawnEntries j = some job) :
      j ≠ i ∧ s.spawnEntries j = some job := by
    rw [setEntry_entries] at hj
    split at hj
    · cases hj
    · rename_i hne
      exact ⟨hne, hj⟩
  exact
    { fresh := fun j job hj => h.fresh j job (hother hj).2
      called := fun j job hc => h.called j job (hsub _ hc)
      unran := h.unran
      one := fun j k job hj hk => h.one j k job (hother hj).2 (hother hk).2
      place := fun j k job hc hk => h.place j k job (hsub _ hc) (hother hk).2
      count := fun j job hj => by
        obtain ⟨hne, hj⟩ := hother hj
        exact (h.count j job hj).trans (hcount j job hne hj).symm }

theorem inCall_iff (s : Sys N O) (job : Nat) : 0 < (calls s.frames).countP (·.2 = job) ↔ InCall s job := by
  rw [List.countP_pos_iff]
  simp [InCall]

theorem law_clear (h : Inv s) (hlaw : Law s) (i : Fin N) (fs : List (Frame N O)) :
    Law { s.setEntry i none with frames := fs } ↔
      ∀ job, s.spawnEntries i = some job → s.wanted job = true → InCall s job := by
  have hiff {job : Nat} (hj : s.spawnEntries i = some job) (hw : s.wanted job = true) :
      s.ran job = 1 ↔ InCall s job := by
    have hle := (hlaw job hw).1
    rw [← inCall_iff, ← h.count i job hj]
    omega
  constructor
  · intro hl job hj hw
    refine (hiff hj hw).1 ((hl job hw).2 fun j hj' => ?_)
    have hentry := setEntry_entries s i j none
    rw [show (s.setEntry i none).spawnEntries j = some job from hj'] at hentry
    split at hentry
    · cases hentry
    · rename_i hne
      exact hne (h.one j i job hentry.symm hj)
  · intro hall job hw
    refine ⟨(hlaw job hw).1, fun hout => ?_⟩
    by_cases hj : s.spawnEntries i = some job
    · exact (hiff hj hw).2 (hall job hj hw)
    · refine (hlaw job hw).2 fun j hj' => ?_
      have hne : j ≠ i := fun he => hj (he ▸ hj')
      refine hout j ?_
      rw [show ({ s.setEntry i none with frames := fs } : Sys N O).spawnEntries j =
        (s.setEntry i none).spawnEntries j from rfl, setEntry_entries, if_neg hne]
      exact hj'

theorem freeEntry_some {i : Fin N} (h : s.freeEntry = some i) : s.spawnEntries i = none := by
  have hnone := List.find?_some h
  simpa using hnone

theorem freeEntry_none (h : s.freeEntry = none) : ¬ ∃ i, s.spawnEntries i = none := by
  rintro ⟨i, hi⟩
  have hsome := List.find?_eq_none.1 h i (List.mem_finRange i)
  rw [hi] at hsome
  exact hsome rfl

def Sys.counted (s : Sys N O) : Sys N O :=
  { s with spawned := s.spawned + 1, wanted := Function.update s.wanted s.spawned s.pending }

theorem wanted_counted (h : Inv s) {job : Nat} (hjob : s.spawned + 1 ≤ job) : s.counted.wanted job = false := by
  have hne : job ≠ s.spawned := by omega
  exact (Function.update_of_ne hne ..).trans (h.unran job (by omega)).2

theorem slNonOsSpawn_some {i : Fin N} (h : s.freeEntry = some i) :
    slNonOsSpawn s = (s.counted.setEntry i (some s.spawned), nonosRetOk) := by
  have hc : s.counted.freeEntry = some i := h
  show (match s.counted.freeEntry with | some i => _ | none => _) = _
  rw [hc]
  rfl

theorem slNonOsSpawn_none (h : s.freeEntry = none) : slNonOsSpawn s = (s.counted, nonosRetOk) := by
  have hc : s.counted.freeEntry = none := h
  show (match s.counted.freeEntry with | some i => _ | none => _) = _
  rw [hc]
  rfl

theorem spawned_entries (h : Inv s) {i j : Fin N} {job : Nat}
    (hj : (s.counted.setEntry i (some s.spawned)).spawnEntries j = some job) :
    j = i ∧ job = s.spawned ∨ j ≠ i ∧ s.spawnEntries j = some job ∧ job < s.spawned := by
  rw [setEntry_entries] at hj
  split at hj
  · rename_i he
    exact .inl ⟨he, (Option.some.inj hj).symm⟩
  · rename_i hne
    exact .inr ⟨hne, hj, h.fresh j job hj⟩

theorem Inv.spawn (h : Inv s) : Inv (slNonOsSpawn s).1 := by
  cases hf : s.freeEntry with
  | none =>
    rw [slNonOsSpawn_none hf]
    exact
      { fresh := fun i job hi => Nat.lt_succ_of_lt (h.fresh i job hi)
        called := fun i job hc => Nat.lt_succ_of_lt (h.called i job hc)
        unran := fun job hjob => ⟨(h.unran job (Nat.le_of_succ_le hjob)).1, wanted_counted h hjob⟩
        one := h.one
        place := h.place
        count := h.count }
  | some i =>
    rw [slNonOsSpawn_some hf]
    exact
      { fresh := fun j job hj => by
          rcases spawned_entries h hj with ⟨-, rfl⟩ | ⟨-, -, hlt⟩
          · exact Nat.lt_succ_self _
          · exact Nat.lt_succ_of_lt hlt
        called := fun j job hc => Nat.lt_succ_of_lt (h.called j job hc)
        unran := fun job hjob => ⟨(h.unran job (Nat.le_of_succ_le hjob)).1, wanted_counted h hjob⟩
        one := fun j k job hj hk => by
          rcases spawned_entries h hj with ⟨rfl, rfl⟩ | ⟨-, hj, hlt⟩
          · rcases spawned_entries h hk with ⟨rfl, -⟩ | ⟨-, -, hlt⟩
            · rfl
            · exact absurd hlt (Nat.lt_irrefl _)
          · rcases spawned_entries h hk with ⟨-, rfl⟩ | ⟨-, hk, -⟩
            · exact absurd hlt (Nat.lt_irrefl _)
            · exact h.one j k job hj hk
        place := fun j k job hc hk => by
          have hlt := h.called j job hc
          rcases spawned_entries h hk with ⟨-, rfl⟩ | ⟨-, hk, -⟩
          · exact absurd hlt (Nat.lt_irrefl _)
          · exact h.place j k job hc hk
        count := fun j job hj => by
          rcases spawned_entries h hj with ⟨-, rfl⟩ | ⟨-, hj, -⟩
          · have hzero : (calls s.frames).countP (·.2 = s.spawned) = 0 := by
              rw [List.countP_eq_zero]
              intro c hc he
              have hlt := h.called c.1 c.2 hc
              rw [of_decide_eq_true he] at hlt
              exact Nat.lt_irrefl _ hlt
            exact (h.unran _ (Nat.le_refl _)).1.trans hzero.symm
          · exact h.count j job hj }

theorem law_spawn (h : Inv s) (hlaw : Law s) {i : Fin N} (hi : s.spawnEntries i = none) :
    Law (s.counted.setEntry i (some s.spawned)) := by
  intro job hw
  by_cases hjob : job = s.spawned
  · subst hjob
    refine ⟨?_, fun hout => ?_⟩
    · exact Nat.le_trans (Nat.le_of_eq (h.unran _ (Nat.le_refl _)).1) (Nat.zero_le 1)
    · refine absurd ?_ (hout i)
      rw [setEntry_entries, if_pos rfl]
  · have hw' : s.wanted job = true := (Function.update_of_ne hjob ..).symm.trans hw
    obtain ⟨hle, hrun⟩ := hlaw job hw'
    refine ⟨hle, fun hout => hrun fun j hj => hout j ?_⟩
    have hne : j ≠ i := fun he => by
      rw [he, hi] at hj
      cases hj
    rw [setEntry_entries, if_neg hne]
    exact hj

theorem Inv.look (h : Inv s) {fs : List (Frame N O)} (hfs : calls fs = calls s.frames) (i : Fin N) :
    Inv (lookEntry s fs i) := by
  unfold lookEntry
  cases hi : s.spawnEntries i with
  | none => exact h.congr rfl hfs rfl rfl rfl
  | some job =>
    dsimp only
    split
    · have hcalls : calls (.call i job :: fs) = (i, job) :: calls s.frames := congrArg ((i, job) :: ·) hfs
      exact
        { fresh := h.fresh
          called := fun j job' hc => by
            rw [hcalls] at hc
            rcases List.mem_cons.1 hc with he | hc
            · obtain ⟨-, rfl⟩ := Prod.mk.inj he
              exact h.fresh i _ hi
            · exact h.called j job' hc
          unran := fun job' (hjob' : s.spawned ≤ job') => by
            obtain ⟨hran, hw⟩ := h.unran job' hjob'
            have hne : job' ≠ job := fun he => by
              have hlt := h.fresh i job hi
              omega
            exact ⟨(Function.update_of_ne hne ..).trans hran, hw⟩
          one := h.one
          place := fun j k job' hc hk => by
            rw [hcalls] at hc
            rcases List.mem_cons.1 hc with he | hc
            · obtain ⟨rfl, rfl⟩ := Prod.mk.inj he
              exact h.one k j _ hk hi
            · exact h.place j k job' hc hk
          count := fun j job' hj => by
            rw [hcalls, List.countP_cons, ← h.count j job' hj]
            show Function.update s.ran job (s.ran job + 1) job' = _
            by_cases he : job' = job
            · subst he
              rw [Function.update_self, if_pos (decide_eq_true rfl)]
            · rw [Function.update_of_ne he, if_neg fun hd => he (of_decide_eq_true hd).symm]
              rfl }
    · refine h.clear i (fun c hc => ?_) fun j job' _ _ => ?_
      · exact hfs ▸ hc
      · exact congrArg (List.countP _) hfs

theorem Inv.returned (h : Inv s) {fs : List (Frame N O)} {i : Fin N} {job : Nat}
    (hfs : s.frames = .call i job :: fs) :
    Inv { s.setEntry i none with frames := .task (i + 1) :: fs } := by
  have hcalls : calls s.frames = (i, job) :: calls fs := by
    rw [hfs]
    rfl
  refine h.clear i (fun c hc => ?_) fun j job' hne hj => ?_
  · rw [hcalls]
    exact List.mem_cons_of_mem _ hc
  · have hother : job ≠ job' := by
      rintro rfl
      exact hne (h.place i j job (by rw [hcalls]; exact List.mem_cons_self) hj)
    rw [hcalls, List.countP_cons, if_neg fun hd => hother (of_decide_eq_true hd)]
    rfl

theorem law_run (h : Inv s) (hlaw : Law s) {i : Fin N} {job : Nat} (hi : s.spawnEntries i = some job)
    (fs : List (Frame N O)) :
    Law { s with frames := fs, ran := Function.update s.ran job (s.ran job + 1) } ↔
      (s.wanted job = true → ¬ InCall s job) := by
  have hzero : s.ran job = 0 ↔ ¬ InCall s job := by
    rw [← inCall_iff, ← h.count i job hi]
    omega
  constructor
  · intro hl hw
    have hle := (hl job hw).1
    rw [show ({ s with frames := fs, ran := Function.update s.ran job (s.ran job + 1) } : Sys N O).ran job =
      s.ran job + 1 from Function.update_self ..] at hle
    exact hzero.1 (by omega)
  · intro hcall job' hw
    by_cases he : job' = job
    · subst he
      have hone : Function.update s.ran job' (s.ran job' + 1) job' = 1 := by
        rw [Function.update_self, hzero.2 (hcall hw)]
      exact ⟨Nat.le_of_eq hone, fun _ => hone⟩
    · have hsame : Function.update s.ran job (s.ran job + 1) job' = s.ran job' := Function.update_of_ne he ..
      exact ⟨Nat.le_trans (Nat.le_of_eq hsame) (hlaw job' hw).1, fun hout => hsame.trans ((hlaw job' hw).2 hout)⟩

theorem lookEntry_objs (s : Sys N O) (fs : List (Frame N O)) (i : Fin N) : (lookEntry s fs i).objs = s.objs := by
  unfold lookEntry
  split
  · rfl
  · split
    · rfl
    · rfl

theorem law_look (h : Inv s) (hlaw : Law s) (fs : List (Frame N O)) (i : Fin N) :
    Law (lookEntry s fs i) ↔ ∀ job, s.spawnEntries i = some job → s.wanted job = true →
      (s.pending = true ↔ ¬ InCall s job) := by
  unfold lookEntry
  cases hi : s.spawnEntries i with
  | none => exact iff_of_true hlaw nofun
  | some job =>
    dsimp only
    split
    · rename_i hp
      rw [law_run h hlaw hi]
      simp [hp]
    · rename_i hp
      rw [law_clear h hlaw, hi]
      simp [hp]

end Steps

/-! ## Every step -/

section Every

variable {s s' : Sys N O} {callback : Bool} {out : Out}

omit [DecidableEq O] in
theorem calls_cons_task (i : Nat) (fs : List (Frame N O)) : calls (.task i :: fs) = calls fs := rfl

omit [DecidableEq O] in
theorem calls_cons_semGet (g : SemGet O) (fs : List (Frame N O)) : calls (.semGet g :: fs) = calls fs := rfl

theorem inv_semStep (h : Inv s) {fs : List (Frame N O)} (hfs : calls fs = calls s.frames) (g : SemGet O) :
    Inv (semStep callback s fs g).1 ∧ (Law (semStep callback s fs g).1 ↔ Law s) := by
  unfold semStep semGrant
  split
  · split
    · exact ⟨h.congr rfl hfs rfl rfl rfl, Law.congr rfl rfl rfl⟩
    · exact ⟨h.congr rfl hfs rfl rfl rfl, Law.congr rfl rfl rfl⟩
  · split
    · split
      · exact ⟨h.congr rfl hfs rfl rfl rfl, Law.congr rfl rfl rfl⟩
      · exact ⟨h.congr rfl hfs rfl rfl rfl, Law.congr rfl rfl rfl⟩
    · exact ⟨h.congr rfl hfs rfl rfl rfl, Law.congr rfl rfl rfl⟩

theorem inv_next (h : Inv s) : Inv (nextStep callback s).1 := by
  unfold nextStep
  split
  · exact h
  · rename_i i fs hfs
    have hcalls : calls fs = calls s.frames := by rw [hfs, calls_cons_task]
    split
    · exact h.look hcalls _
    · exact h.congr rfl hcalls rfl rfl rfl
  · rename_i i job fs hfs
    exact h.returned hfs
  · rename_i g fs hfs
    exact (inv_semStep h (by rw [hfs, calls_cons_semGet]) g).1

theorem inv_step (h : Inv s) (act : Act O) (hs : sysStep callback s act = some (s', out)) : Inv s' := by
  cases act with
  | irq =>
    cases hs
    exact h.congr rfl rfl rfl rfl rfl
  | spawn =>
    cases hs
    exact h.spawn
  | frameRead =>
    cases hs
    exact h.congr rfl rfl rfl rfl rfl
  | semSet o v =>
    cases hs
    exact h.congr rfl rfl rfl rfl rfl
  | mainLoopTask =>
    cases hs
    split
    · exact h.congr rfl rfl rfl rfl rfl
    · exact h
  | semGet o waitValue setValue timeout =>
    cases hs
    split
    · exact h.congr rfl rfl rfl rfl rfl
    · exact h
  | next =>
    have he : nextStep callback s = (s', out) := Option.some.inj hs
    have hnext := @inv_next _ _ _ s callback h
    rwa [he] at hnext

theorem keeps_of_step {act : Act O} (hs : sysStep callback s act = some (s', out)) :
    Keeps callback s act ↔ Law s' ∧ OutOk s s' act out := by
  unfold Keeps
  rw [hs]
  simp

/-- `_SlNonOsSemGet` returns as it should. -/
theorem semStep_ok {fs : List (Frame N O)} {g : SemGet O} (hfs : s.frames = .semGet g :: fs) :
    OutOk s (semStep callback s fs g).1 .next (semStep callback s fs g).2 ↔ Cond callback s .next := by
  unfold OutOk Cond
  rw [hfs]
  dsimp only
  unfold semStep semGrant
  by_cases hafter : g.afterTask = true
  · rw [if_pos hafter, if_pos hafter]
    by_cases hc : callback = true ∧ g.waitValue = syncObjSignalValue ∧ g.timeOutRequest ≠ nonosNoWait ∧
        s.objs g.pSyncObj = g.waitValue
    · rw [if_pos hc]
      obtain ⟨hcb, hsig, hreq, hval⟩ := hc
      dsimp only
      rw [if_pos rfl]
      by_cases h0 : g.timeout = 0
      · rw [if_pos h0]
        exact iff_of_false (fun h => absurd h.1 (by decide)) fun h => h hcb hsig hreq hval h0
      · rw [if_neg h0]
        exact iff_of_true ⟨rfl, hval, rfl⟩ fun _ _ _ _ => h0
    · rw [if_neg hc]
      exact iff_of_true rfl fun hcb hsig hreq hval => absurd ⟨hcb, hsig, hreq, hval⟩ hc
  · rw [if_neg hafter, if_neg hafter]
    by_cases h0 : g.timeout = 0
    · have hlt : ¬ 0 < g.timeout := by rw [h0]; decide
      rw [if_neg hlt]
      dsimp only
      rw [if_neg Bool.false_ne_true]
      exact ⟨fun h _ => h.2.2, fun h => ⟨rfl, rfl, h h0⟩⟩
    · have hlt : 0 < g.timeout := UInt8.pos_iff_ne_zero.2 h0
      rw [if_pos hlt]
      refine iff_of_true ?_ fun he => absurd he h0
      by_cases hval : s.objs g.pSyncObj = g.waitValue
      · rw [if_pos hval]
        dsimp only
        rw [if_pos rfl, if_neg h0]
        exact ⟨rfl, hval, rfl⟩
      · rw [if_neg hval]

theorem keeps_iff (h : Inv s) (hlaw : Law s) (act : Act O) : Keeps callback s act ↔ Cond callback s act := by
  cases act with
  | irq =>
    refine (keeps_of_step rfl).trans ?_
    exact iff_of_true ⟨hlaw, trivial⟩ trivial
  | frameRead =>
    refine (keeps_of_step rfl).trans ?_
    exact iff_of_true ⟨hlaw, trivial⟩ trivial
  | semSet o v =>
    refine (keeps_of_step rfl).trans ?_
    exact iff_of_true ⟨hlaw, trivial⟩ trivial
  | mainLoopTask =>
    refine (keeps_of_step rfl).trans (iff_of_true ⟨?_, trivial⟩ trivial)
    split
    · exact hlaw
    · exact hlaw
  | semGet o waitValue setValue timeout =>
    refine (keeps_of_step rfl).trans (iff_of_true ⟨?_, trivial⟩ trivial)
    split
    · exact hlaw
    · exact hlaw
  | spawn =>
    have hs : sysStep callback s .spawn = some ((slNonOsSpawn s).1, .ret (slNonOsSpawn s).2) := rfl
    rw [keeps_of_step hs]
    cases hf : s.freeEntry with
    | none =>
      have hno := freeEntry_none hf
      refine iff_of_false (fun hk => hno ?_) hno
      have hret : Out.ret (slNonOsSpawn s).2 = .ret nonosRetOk := by rw [slNonOsSpawn_none hf]
      exact hk.2.1 hret
    | some i =>
      have hi := freeEntry_some hf
      rw [slNonOsSpawn_some hf]
      exact iff_of_true ⟨law_spawn h hlaw hi, iff_of_true rfl ⟨i, hi⟩⟩ ⟨i, hi⟩
  | next =>
    have hs : sysStep callback s .next = some ((nextStep callback s).1, (nextStep callback s).2) := rfl
    rw [keeps_of_step hs]
    cases hfs : s.frames with
    | nil =>
      have hn : nextStep callback s = (s, .none) := by rw [nextStep, hfs]
      rw [hn]
      unfold OutOk Cond
      rw [hfs]
      exact iff_of_true ⟨hlaw, rfl⟩ trivial
    | cons f fs =>
      cases f with
      | task i =>
        by_cases hi : i < N
        · have hn : nextStep callback s = (lookEntry s fs ⟨i, hi⟩, .none) := by
            rw [nextStep, hfs]
            exact dif_pos hi
          rw [hn, law_look h hlaw]
          unfold OutOk Cond
          rw [hfs]
          exact ⟨fun hk _ => hk.1, fun hc => ⟨hc hi, lookEntry_objs s fs _⟩⟩
        · have hn : nextStep callback s = ({ s with frames := fs }, .ret nonosRetOk) := by
            rw [nextStep, hfs]
            exact dif_neg hi
          rw [hn]
          unfold OutOk Cond
          rw [hfs]
          exact iff_of_true ⟨hlaw, rfl⟩ fun hlt => absurd hlt hi
      | call i job =>
        have hn : nextStep callback s = ({ s.setEntry i none with frames := .task (i + 1) :: fs }, .none) := by
          rw [nextStep, hfs]
        rw [hn, law_clear h hlaw]
        unfold OutOk Cond
        rw [hfs]
        exact and_iff_left rfl
      | semGet g =>
        have hn : nextStep callback s = semStep callback s fs g := by rw [nextStep, hfs]
        have hlaw' := (@inv_semStep _ _ _ s callback h fs (by rw [hfs, calls_cons_semGet]) g).2
        rw [hn, semStep_ok hfs, hlaw', and_iff_right hlaw]

end Every

/-! ## Runs -/

/-- In a run of interrupts, entries, main loops and waits every step keeps to what is expected exactly where
every step meets the condition. -/
theorem nonos_kept (N : Nat) (callback : Bool) (objs : O → UInt8) (acts : List (Act O)) :
    Meets (sysStep callback) (Keeps callback) (sysInit N objs) acts ↔
      Meets (sysStep callback) (Cond callback) (sysInit N objs) acts := by
  have hnext : ∀ {s s' : Sys N O} {act : Act O} {out : Out}, Inv s → Keeps callback s act →
      sysStep callback s act = some (s', out) → Inv s' ∧ Law s' := by
    rintro s s' act out hinv ⟨s₁, out₁, hs₁, hlaw, -⟩ hs
    obtain rfl : s₁ = s' := (Prod.mk.inj (Option.some.inj (hs₁.symm.trans hs))).1
    exact ⟨inv_step hinv act hs, hlaw⟩
  have hstart : Inv (sysInit N objs) ∧ Law (sysInit N objs) := ⟨inv_init objs, law_init objs⟩
  constructor
  · refine Meets.imp (I := fun s => Inv s ∧ Law s) (fun hI h => (keeps_iff hI.1 hI.2 _).1 h) ?_ hstart
    exact fun hI h hs => hnext hI.1 h hs
  · refine Meets.imp (I := fun s => Inv s ∧ Law s) (fun hI h => (keeps_iff hI.1 hI.2 _).2 h) ?_ hstart
    exact fun hI h hs => hnext hI.1 ((keeps_iff hI.1 hI.2 _).2 h) hs

/-- A lock object that is free is not given to a request that does not wait. -/
theorem no_wait_refused :
    ¬ Meets (sysStep false) (Keeps false) (sysInit 5 fun _ : Unit => 0x33) [.semGet () 0x33 0x44 0, .next] := by
  intro h
  obtain ⟨s', out, hs, -, hok⟩ := (h.next rfl).1
  cases hs
  exact hok.2.2 ⟨rfl, rfl⟩

end SimpleLink.Driver.NonOs
