import SimpleLink.Lib.IndexList
import SimpleLink.Lib.Run
import Mathlib.Logic.Function.Basic

/-!
# The spawn queue (`spawn.c`)

`_SlInternalSpawn` takes a record off the free list and puts it at the end of the queue; the spawn
task takes records off the queue, calls their entries, and puts them back on the free list. Any
number of callers `ι` (tasks and interrupts) call it, also the entry that runs. What runs with the
lock is one step.

A pointer to a record is its index, and `NULL` the index behind the records. A step that reads or
writes through `NULL` has no outcome.
-/

namespace SimpleLink.Driver.Spawn

open Lib

/-- `_SL_MAX_INTERNAL_SPAWN_ENTRIES`. -/
abbrev slMaxInternalSpawnEntries : Nat := 10

abbrev null : Nat := slMaxInternalSpawnEntries

/-- `_SlInternalSpawnEntry_t`; `job` is `pEntry` with `pValue`. -/
structure SlInternalSpawnEntry (ε : Type) where
  job : Option ε
  pNext : Nat

/-- `_SlInternalSpawnCB_t`, less its sync and lock objects. -/
structure SlInternalSpawnCb (ε : Type) where
  spawnEntries : Vector (SlInternalSpawnEntry ε) slMaxInternalSpawnEntries
  pFree : Nat
  pWaitForExe : Nat
  pLastInWaitList : Nat

variable {ι ε : Type} [DecidableEq ι]

def SlInternalSpawnCb.entry (cb : SlInternalSpawnCb ε) (p : Nat) :
    Option (SlInternalSpawnEntry ε) := cb.spawnEntries[p]?

def SlInternalSpawnCb.setEntry (cb : SlInternalSpawnCb ε) (p : Nat) (e : SlInternalSpawnEntry ε) :
    SlInternalSpawnCb ε :=
  { cb with spawnEntries := cb.spawnEntries.setIfInBounds p e }

/-- What `_SlInternalSpawnTaskEntry` does before its loop. -/
def spawnInit : SlInternalSpawnCb ε where
  spawnEntries := Vector.ofFn fun i => ⟨none, i + 1⟩
  pFree := 0
  pWaitForExe := null
  pLastInWaitList := null

/-- `_SlInternalSpawn`, while it has the lock. -/
def slInternalSpawn (cb : SlInternalSpawnCb ε) (job : ε) : Option (SlInternalSpawnCb ε) :=
  let pSpawnEntry := cb.pFree
  match cb.entry pSpawnEntry with
  | none => none
  | some entry =>
    let cb := { cb.setEntry pSpawnEntry ⟨some job, null⟩ with pFree := entry.pNext }
    if cb.pWaitForExe = null then
      some { cb with pWaitForExe := pSpawnEntry, pLastInWaitList := pSpawnEntry }
    else
      match cb.entry cb.pLastInWaitList with
      | none => none
      | some last =>
        some { cb.setEntry cb.pLastInWaitList { last with pNext := pSpawnEntry } with
          pLastInWaitList := pSpawnEntry }

/-- The task gets an entry to execute; `LastEntry` is true if it is the last one. -/
def getEntry (cb : SlInternalSpawnCb ε) :
    Option (SlInternalSpawnCb ε × Option (Nat × Bool)) :=
  let pEntry := cb.pWaitForExe
  if pEntry = null then some (cb, none)
  else
    match cb.entry pEntry with
    | none => none
    | some entry =>
      let cb := { cb with pWaitForExe := entry.pNext }
      if pEntry = cb.pLastInWaitList then
        some ({ cb with pLastInWaitList := null }, some (pEntry, true))
      else some (cb, some (pEntry, false))

/-- The task frees the entry. -/
def freeEntry (cb : SlInternalSpawnCb ε) (pEntry : Nat) : Option (SlInternalSpawnCb ε) :=
  match cb.entry pEntry with
  | none => none
  | some entry =>
    some { cb.setEntry pEntry { entry with pNext := cb.pFree } with pFree := pEntry }

/-- Where the spawn task is. -/
inductive Task where
  /-- Waits for `SyncObj`. -/
  | wait
  | get
  /-- Calls the entry, and has it called. -/
  | call (pEntry : Nat) (lastEntry : Bool)
  | free (pEntry : Nat) (lastEntry : Bool)

/-- A caller of `sl_Spawn` has returned, or has not signalled `SyncObj` yet. -/
inductive Caller where
  | returned (res : Int)
  | signal

/-- `queued` and `executed` record the jobs in the order in which they were. -/
structure Sys (ι ε : Type) where
  cb : SlInternalSpawnCb ε
  syncObj : Bool
  task : Task
  callers : ι → Caller
  queued : List ε
  executed : List ε

def sysInit : Sys ι ε where
  cb := spawnInit
  syncObj := false
  task := .wait
  callers := fun _ => .returned 0
  queued := []
  executed := []

inductive Act (ι ε : Type) where
  /-- `sl_Spawn`, with `NULL` for the entry or a job. -/
  | spawn (t : ι) (job : Option ε)
  | signal (t : ι)
  | task

/-- A step of the spawn task; while it waits there is none. -/
def taskStep (s : Sys ι ε) : Option (Sys ι ε) :=
  match s.task with
  | .wait => some (if s.syncObj then { s with syncObj := false, task := .get } else s)
  | .get =>
    match getEntry s.cb with
    | none => none
    | some (cb, none) => some { s with cb := cb, task := .wait }
    | some (cb, some (pEntry, lastEntry)) =>
      some { s with cb := cb, task := .call pEntry lastEntry }
  | .call pEntry lastEntry =>
    match (s.cb.entry pEntry).bind SlInternalSpawnEntry.job with
    | none => none
    | some job =>
      some { s with executed := s.executed ++ [job], task := .free pEntry lastEntry }
  | .free pEntry lastEntry =>
    match freeEntry s.cb pEntry with
    | none => none
    | some cb =>
      -- a new entry may have been received meanwhile
      let lastEntry := if cb.pWaitForExe ≠ null then false else lastEntry
      some { s with cb := cb, task := if lastEntry then .wait else .get }

def sysStep (s : Sys ι ε) : Act ι ε → Option (Sys ι ε × Unit)
  | .spawn t job =>
    match s.callers t with
    | .signal => some (s, ())
    | .returned _ =>
      match job with
      | none => some ({ s with callers := Function.update s.callers t (.returned (-1)) }, ())
      | some job =>
        match slInternalSpawn s.cb job with
        | none => none
        | some cb =>
          some ({ s with
            cb := cb
            callers := Function.update s.callers t .signal
            queued := s.queued ++ [job] }, ())
  | .signal t =>
    match s.callers t with
    | .signal =>
      some ({ s with
        syncObj := true, callers := Function.update s.callers t (.returned 0) }, ())
    | .returned _ => some (s, ())
  | .task => (taskStep s).map (·, ())

/-! ## The property and the condition -/

def SlInternalSpawnCb.freeList (cb : SlInternalSpawnCb ε) : List Nat :=
  cells cb.entry SlInternalSpawnEntry.pNext null slMaxInternalSpawnEntries cb.pFree

def SlInternalSpawnCb.waitList (cb : SlInternalSpawnCb ε) : List Nat :=
  cells cb.entry SlInternalSpawnEntry.pNext null slMaxInternalSpawnEntries cb.pWaitForExe

def SlInternalSpawnCb.job (cb : SlInternalSpawnCb ε) (p : Nat) : Option ε :=
  (cb.entry p).bind SlInternalSpawnEntry.job

/-- The record that the task has taken. -/
def Task.entry : Task → Option Nat
  | wait | get => none
  | call pEntry _ | free pEntry _ => some pEntry

/-- The record whose entry the task is about to call. -/
def Task.next : Task → Option Nat
  | call pEntry _ => some pEntry
  | _ => none

def Task.waits : Task → Bool
  | wait => true
  | _ => false

def Caller.signals : Caller → Bool
  | signal => true
  | returned _ => false

structure SpawnLaw (s : Sys ι ε) : Prop where
  /-- What has been queued is what has been executed, what is about to be, and what waits, in this
  order. -/
  fifo : (s.queued.map some) =
    s.executed.map some ++ (s.task.next.toList ++ s.cb.waitList).map s.cb.job
  /-- A record is on one of the lists, or the task has it. -/
  records : ∀ p < slMaxInternalSpawnEntries,
    (s.cb.freeList ++ s.cb.waitList ++ s.task.entry.toList).count p = 1
  /-- The task does not sleep on a queue unless somebody is about to wake it. -/
  awake : s.cb.waitList ≠ [] →
    s.syncObj = true ∨ (∃ t, (s.callers t).signals = true) ∨ s.task.waits = false

def SpawnCond (s : Sys ι ε) : Act ι ε → Prop
  | .spawn t (some _) =>
    match s.callers t with
    | .signal => True
    | .returned _ => s.cb.pFree ≠ null
  | _ => True

/-! ## The invariant -/

abbrev SpawnChain (cb : SlInternalSpawnCb ε) : Nat → List Nat → Prop :=
  Chain cb.entry SlInternalSpawnEntry.pNext null

/-- `F` are the free records, `Q` those in the queue. -/
structure Inv (s : Sys ι ε) (F Q : List Nat) : Prop where
  free : SpawnChain s.cb s.cb.pFree F
  wait : SpawnChain s.cb s.cb.pWaitForExe Q
  last : s.cb.pLastInWaitList = Q.getLast?.getD null
  once : ∀ p < slMaxInternalSpawnEntries, F.count p + Q.count p + s.task.entry.toList.count p = 1
  lt : ∀ p ∈ s.task.entry, p < slMaxInternalSpawnEntries
  fifo : (s.queued.map some) =
    s.executed.map some ++ (s.task.next.toList ++ Q).map s.cb.job
  awake : Q ≠ [] →
    s.syncObj = true ∨ (∃ t, (s.callers t).signals = true) ∨ s.task.waits = false

section

omit [DecidableEq ι]

variable {cb : SlInternalSpawnCb ε} {p q : Nat} {e : SlInternalSpawnEntry ε}

theorem entry_set_self (cb : SlInternalSpawnCb ε) (hp : p < slMaxInternalSpawnEntries)
    (e : SlInternalSpawnEntry ε) : (cb.setEntry p e).entry p = some e := by
  simp [SlInternalSpawnCb.setEntry, SlInternalSpawnCb.entry, hp]

theorem entry_set_other (cb : SlInternalSpawnCb ε) (hq : q ≠ p) (e : SlInternalSpawnEntry ε) :
    (cb.setEntry p e).entry q = cb.entry q := by
  simp [SlInternalSpawnCb.setEntry, SlInternalSpawnCb.entry, hq.symm]

theorem exists_entry (cb : SlInternalSpawnCb ε) (hp : p < slMaxInternalSpawnEntries) :
    ∃ e, cb.entry p = some e :=
  ⟨_, Vector.getElem?_eq_getElem hp⟩

variable {s : Sys ι ε} {F Q : List Nat}

theorem entry_init (hp : p < slMaxInternalSpawnEntries) :
    (spawnInit : SlInternalSpawnCb ε).entry p = some ⟨none, p + 1⟩ := by
  simp [spawnInit, SlInternalSpawnCb.entry, hp]

theorem chain_init (l : List Nat) (p : Nat)
    (hl : l = List.range' p (slMaxInternalSpawnEntries - p)) (hp : p ≤ slMaxInternalSpawnEntries) :
    SpawnChain (spawnInit : SlInternalSpawnCb ε) p l := by
  induction l generalizing p with
  | nil =>
    have hlen := congrArg List.length hl
    rw [List.length_nil, List.length_range'] at hlen
    have hge : slMaxInternalSpawnEntries ≤ p := Nat.sub_eq_zero_iff_le.1 hlen.symm
    obtain rfl : p = null := Nat.le_antisymm hp hge
    exact .nil
  | cons q l ih =>
    have hlen := congrArg List.length hl
    rw [List.length_cons, List.length_range'] at hlen
    rw [← hlen, List.range'_succ] at hl
    obtain ⟨rfl, hl⟩ := List.cons.inj hl
    have hlt : q < slMaxInternalSpawnEntries := by omega
    refine .cons (entry_init hlt) hlt (ih (q + 1) ?_ hlt)
    rw [hl]
    congr 1
    omega

theorem inv_init : Inv (sysInit : Sys ι ε) (List.range slMaxInternalSpawnEntries) [] where
  free := chain_init _ 0 List.range_eq_range' (Nat.zero_le _)
  wait := .nil
  last := rfl
  once p hp := by
    simp only [sysInit, Task.entry, Option.toList_none, List.count_nil, Nat.add_zero]
    exact List.count_eq_one_of_mem List.nodup_range (List.mem_range.2 hp)
  lt := nofun
  fifo := rfl
  awake h := absurd rfl h

theorem Inv.nodup (h : Inv s F Q) : F.Nodup ∧ Q.Nodup := by
  constructor
  · refine List.nodup_iff_count_le_one.2 fun p => ?_
    by_cases hp : p ∈ F
    · have hcount := h.once p (h.free.lt p hp)
      omega
    · rw [List.count_eq_zero.2 hp]
      exact Nat.zero_le 1
  · refine List.nodup_iff_count_le_one.2 fun p => ?_
    by_cases hp : p ∈ Q
    · have hcount := h.once p (h.wait.lt p hp)
      omega
    · rw [List.count_eq_zero.2 hp]
      exact Nat.zero_le 1

theorem Inv.law (h : Inv s F Q) : SpawnLaw s := by
  have hF : s.cb.freeList = F := h.free.cells (length_le_of_nodup h.nodup.1 h.free.lt)
  have hQ : s.cb.waitList = Q := h.wait.cells (length_le_of_nodup h.nodup.2 h.wait.lt)
  refine ⟨?_, fun p hp => ?_, ?_⟩
  · rw [hQ]
    exact h.fifo
  · rw [hF, hQ, List.count_append, List.count_append]
    exact h.once p hp
  · rw [hQ]
    exact h.awake

theorem Inv.not_free (h : Inv s F Q) (hp : p ∈ Q ∨ p ∈ s.task.entry) : p ∉ F := by
  intro hF
  have hcount := h.once p (h.free.lt p hF)
  have hpos := List.count_pos_iff.2 hF
  rcases hp with hp | hp
  · have := List.count_pos_iff.2 hp
    omega
  · have := List.count_pos_iff.2 (Option.mem_toList.2 hp)
    omega

theorem Inv.wait_null (h : Inv s F Q) : s.cb.pWaitForExe = null ↔ Q = [] := by
  rcases h.wait.head with ⟨hQ, hnull⟩ | ⟨x, Q', hQ, -, hlt, -⟩
  · exact iff_of_true hnull hQ
  · refine iff_of_false (Nat.ne_of_lt hlt) ?_
    rw [hQ]
    exact List.cons_ne_nil _ _

theorem Task.next_entry {task : Task} (h : p ∈ task.next) : p ∈ task.entry := by
  cases task with
  | call _ _ => exact h
  | _ => cases h

theorem jobs_append {cb cb' : SlInternalSpawnCb ε} {l : List Nat} {job : ε}
    (hl : ∀ q ∈ l, cb'.job q = cb.job q) (hp : cb'.job p = some job) :
    (l ++ [p]).map cb'.job = l.map cb.job ++ [some job] := by
  rw [List.map_append, List.map_congr_left hl, List.map_singleton, hp]

theorem slInternalSpawn_eq (h : Inv s F Q) (hfree : s.cb.pFree ≠ null) (job : ε) :
    ∃ cb F', slInternalSpawn s.cb job = some cb ∧ F = s.cb.pFree :: F' ∧
      SpawnChain cb cb.pFree F' ∧ SpawnChain cb cb.pWaitForExe (Q ++ [s.cb.pFree]) ∧
      cb.pLastInWaitList = s.cb.pFree ∧ cb.job s.cb.pFree = some job ∧
      ∀ q, q ≠ s.cb.pFree → cb.job q = s.cb.job q := by
  rcases h.free.head with ⟨-, hnull⟩ | ⟨x, F', hF, hx, hlt, hchain⟩
  · exact absurd hnull hfree
  have hnodup := h.nodup.1
  rw [hF] at hnodup
  have hpF := (List.nodup_cons.1 hnodup).1
  have hpQ : s.cb.pFree ∉ Q := fun hp => h.not_free (.inl hp) (by rw [hF]; exact List.mem_cons_self)
  have hself := entry_set_self s.cb hlt (⟨some job, null⟩ : SlInternalSpawnEntry ε)
  have hother : ∀ q, q ≠ s.cb.pFree → (s.cb.setEntry s.cb.pFree ⟨some job, null⟩).entry q =
      s.cb.entry q := fun q hq => entry_set_other s.cb hq _
  unfold slInternalSpawn
  simp only [hx]
  by_cases hQ : Q = []
  · have hwait := h.wait_null.2 hQ
    have hcond : ({ s.cb.setEntry s.cb.pFree ⟨some job, null⟩ with pFree := x.pNext } :
        SlInternalSpawnCb ε).pWaitForExe = null := hwait
    rw [if_pos hcond]
    refine ⟨_, F', rfl, hF, ?_, ?_, rfl, ?_, fun q hq => ?_⟩
    · refine hchain.congr fun q hq => ?_
      have hne : q ≠ s.cb.pFree := fun he => hpF (he ▸ hq)
      exact congrArg _ (hother q hne)
    · rw [hQ]
      exact .cons hself hlt .nil
    · exact congrArg (fun e => Option.bind e SlInternalSpawnEntry.job) hself
    · exact congrArg (fun e => Option.bind e SlInternalSpawnEntry.job) (hother q hq)
  · have hcond : ({ s.cb.setEntry s.cb.pFree ⟨some job, null⟩ with pFree := x.pNext } :
        SlInternalSpawnCb ε).pWaitForExe ≠ null := fun hn => hQ (h.wait_null.1 hn)
    rw [if_neg hcond]
    have hlast : s.cb.pLastInWaitList = Q.getLast hQ := by
      rw [h.last, List.getLast?_eq_some_getLast hQ]
      rfl
    have hlastQ : s.cb.pLastInWaitList ∈ Q := hlast ▸ List.getLast_mem hQ
    have hlastlt := h.wait.lt _ hlastQ
    have hlastp : s.cb.pLastInWaitList ≠ s.cb.pFree := fun he => hpQ (he ▸ hlastQ)
    have hlastF : s.cb.pLastInWaitList ∉ F' := fun hm =>
      h.not_free (.inl hlastQ) (by rw [hF]; exact List.mem_cons_of_mem _ hm)
    obtain ⟨last, hentry⟩ := exists_entry s.cb hlastlt
    have hentry' := (hother _ hlastp).trans hentry
    split
    · rename_i hnone
      cases hnone.symm.trans hentry'
    · rename_i last' hsome
      obtain rfl := Option.some.inj (hsome.symm.trans hentry')
      let cb₁ : SlInternalSpawnCb ε := s.cb.setEntry s.cb.pFree ⟨some job, null⟩
      let cb₂ := cb₁.setEntry s.cb.pLastInWaitList { last' with pNext := s.cb.pFree }
      have hset : ∀ q, q ≠ s.cb.pLastInWaitList → cb₂.entry q = cb₁.entry q :=
        fun q hq => entry_set_other cb₁ hq _
      have hsetLast : cb₂.entry s.cb.pLastInWaitList = some { last' with pNext := s.cb.pFree } :=
        entry_set_self cb₁ hlastlt _
      have hsame : ∀ q, q ≠ s.cb.pFree → q ≠ s.cb.pLastInWaitList → cb₂.entry q = s.cb.entry q :=
        fun q hq hq' => (hset q hq').trans (hother q hq)
      refine ⟨_, F', rfl, hF, ?_, ?_, rfl, ?_, fun q hq => ?_⟩
      · refine hchain.congr fun q hq => congrArg _ (hsame q ?_ ?_)
        · rintro rfl
          exact hpF hq
        · rintro rfl
          exact hlastF hq
      · refine h.wait.snoc h.nodup.2 hQ hlt ?_ ?_ fun q hq hq' => congrArg _ (hsame q ?_ ?_)
        · rw [← hlast]
          exact congrArg (Option.map _) hsetLast
        · exact congrArg (Option.map _) ((hset _ hlastp.symm).trans hself)
        · rintro rfl
          exact hpQ hq
        · rwa [hlast]
      · exact congrArg (fun e => Option.bind e SlInternalSpawnEntry.job)
          ((hset _ hlastp.symm).trans hself)
      · by_cases hql : q = s.cb.pLastInWaitList
        · subst hql
          have hjob : s.cb.job s.cb.pLastInWaitList = last'.job := by
            unfold SlInternalSpawnCb.job
            rw [hentry]
            rfl
          rw [hjob]
          exact congrArg (fun e => Option.bind e SlInternalSpawnEntry.job) hsetLast
        · exact congrArg (fun e => Option.bind e SlInternalSpawnEntry.job) (hsame q hq hql)

theorem getEntry_eq (h : Inv s F Q) :
    (Q = [] ∧ getEntry s.cb = some (s.cb, none)) ∨
      ∃ p Q' cb last, Q = p :: Q' ∧ getEntry s.cb = some (cb, some (p, last)) ∧
        cb.spawnEntries = s.cb.spawnEntries ∧ cb.pFree = s.cb.pFree ∧
        SpawnChain s.cb cb.pWaitForExe Q' ∧ cb.pLastInWaitList = Q'.getLast?.getD null := by
  unfold getEntry
  rcases h.wait.head with ⟨hQ, hnull⟩ | ⟨x, Q', hQ, hx, hlt, hchain⟩
  · left
    refine ⟨hQ, ?_⟩
    dsimp only
    rw [if_pos hnull]
  · right
    have hlast := h.last
    have hnodup := h.nodup.2
    rw [hQ] at hlast hnodup
    dsimp only
    rw [if_neg (Nat.ne_of_lt hlt), hx]
    dsimp only
    cases Q' with
    | nil =>
      have hp : s.cb.pWaitForExe = s.cb.pLastInWaitList := hlast.symm
      rw [if_pos hp]
      exact ⟨_, [], _, _, hQ, rfl, rfl, rfl, hchain, rfl⟩
    | cons q Q' =>
      have hmem : s.cb.pLastInWaitList ∈ q :: Q' := by
        rw [hlast, List.getLast?_cons_cons, List.getLast?_eq_some_getLast (List.cons_ne_nil q Q')]
        exact List.getLast_mem _
      have hp : s.cb.pWaitForExe ≠ s.cb.pLastInWaitList := fun he =>
        (List.nodup_cons.1 hnodup).1 (he ▸ hmem)
      rw [if_neg hp]
      refine ⟨_, q :: Q', _, _, hQ, rfl, rfl, rfl, hchain, ?_⟩
      rw [hlast, List.getLast?_cons_cons]

theorem freeEntry_eq (h : Inv s F Q) (hp : p ∈ s.task.entry) :
    ∃ cb, freeEntry s.cb p = some cb ∧ SpawnChain cb cb.pFree (p :: F) ∧
      SpawnChain cb cb.pWaitForExe Q ∧ cb.pWaitForExe = s.cb.pWaitForExe ∧
      cb.pLastInWaitList = s.cb.pLastInWaitList ∧ ∀ q, cb.job q = s.cb.job q := by
  have hlt := h.lt p hp
  have hcount := List.count_pos_iff.2 (Option.mem_toList.2 hp)
  have honce := h.once p hlt
  have hpF : p ∉ F := List.count_eq_zero.1 (by omega)
  have hpQ : p ∉ Q := List.count_eq_zero.1 (by omega)
  obtain ⟨e, he⟩ := exists_entry s.cb hlt
  let e' : SlInternalSpawnEntry ε := { e with pNext := s.cb.pFree }
  have hself := entry_set_self s.cb hlt e'
  have hother : ∀ q, q ≠ p → (s.cb.setEntry p e').entry q = s.cb.entry q :=
    fun q hq => entry_set_other s.cb hq e'
  unfold freeEntry
  rw [he]
  refine ⟨_, rfl, .cons hself hlt ?_, ?_, rfl, rfl, fun q => ?_⟩
  · exact h.free.congr fun q hq => congrArg _ (hother q fun hqp => hpF (hqp ▸ hq))
  · exact h.wait.congr fun q hq => congrArg _ (hother q fun hqp => hpQ (hqp ▸ hq))
  · by_cases hqp : q = p
    · subst hqp
      have hjob : s.cb.job q = e.job := by
        unfold SlInternalSpawnCb.job
        rw [he]
        rfl
      rw [hjob]
      exact congrArg (fun e => Option.bind e SlInternalSpawnEntry.job) hself
    · exact congrArg (fun e => Option.bind e SlInternalSpawnEntry.job) (hother q hqp)

theorem Inv.job (h : Inv s F Q) (hp : p ∈ s.task.next) :
    ∃ job, s.cb.job p = some job ∧
      s.queued.map some = (s.executed ++ [job]).map some ++ Q.map s.cb.job := by
  have hfifo := h.fifo
  have hp : s.task.next = some p := hp
  rw [hp, Option.toList_some, List.singleton_append, List.map_cons] at hfifo
  have hmem : s.cb.job p ∈ s.queued.map some := by
    rw [hfifo]
    exact List.mem_append_right _ List.mem_cons_self
  obtain ⟨job, -, hjob⟩ := List.mem_map.1 hmem
  refine ⟨job, hjob.symm, ?_⟩
  rw [hfifo, ← hjob, List.map_append, List.map_singleton, List.append_assoc]
  rfl

def Task.weight : Task → Nat
  | wait => 0
  | get => 1
  | call _ _ => 3
  | free _ _ => 2

/-- The steps that the task makes at most until the queue is empty. -/
def Sys.weight (s : Sys ι ε) (Q : List Nat) : Nat :=
  3 * Q.length + (if s.syncObj then 2 else 0) + s.task.weight

/-- A step of the task; it only waits if nobody has signalled. -/
structure Works (s s' : Sys ι ε) (Q Q' : List Nat) : Prop where
  queued : s'.queued = s.queued
  callers : s'.callers = s.callers
  weight : s.task.waits = true ∧ s.syncObj = false ∧ s' = s ∨ s'.weight Q' < s.weight Q

theorem taskStep_inv (h : Inv s F Q) :
    ∃ s' F' Q', taskStep s = some s' ∧ Inv s' F' Q' ∧ Works s s' Q Q' := by
  unfold taskStep
  cases htask : s.task with
  | wait =>
    by_cases hsync : s.syncObj = true
    · refine ⟨_, F, Q, rfl, ?_⟩
      rw [if_pos hsync]
      have honce := h.once
      have hfifo := h.fifo
      rw [htask] at honce hfifo
      refine ⟨⟨h.free, h.wait, h.last, honce, nofun, hfifo, fun _ => .inr (.inr rfl)⟩,
        rfl, rfl, .inr ?_⟩
      simp [Sys.weight, Task.weight, hsync, htask]
    · refine ⟨_, F, Q, rfl, ?_⟩
      rw [if_neg hsync]
      exact ⟨h, rfl, rfl, .inl ⟨by rw [htask]; rfl, by simpa using hsync, rfl⟩⟩
  | get =>
    have honce := h.once
    have hfifo := h.fifo
    rw [htask] at honce hfifo
    rcases getEntry_eq h with ⟨hQ, hget⟩ | ⟨p, Q', cb, last, hQ, hget, hentries, hfree, hwait, hlast⟩
    · simp only [hget]
      refine ⟨_, F, Q, rfl, ⟨h.free, h.wait, h.last, honce, nofun, hfifo, fun hne => absurd hQ hne⟩,
        rfl, rfl, .inr ?_⟩
      simp [Sys.weight, Task.weight, htask]
    · simp only [hget]
      have hentry : cb.entry = s.cb.entry := by
        funext q
        unfold SlInternalSpawnCb.entry
        rw [hentries]
      have hjob : cb.job = s.cb.job := by
        funext q
        unfold SlInternalSpawnCb.job
        rw [hentry]
      have hchain : ∀ {i l}, SpawnChain s.cb i l → SpawnChain cb i l := by
        intro i l hil
        unfold SpawnChain
        rw [hentry]
        exact hil
      refine ⟨_, F, Q', rfl, ⟨?_, hchain hwait, hlast, fun q hq => ?_, fun q hq => ?_, ?_,
        fun _ => .inr (.inr rfl)⟩, rfl, rfl, .inr ?_⟩
      · show SpawnChain cb cb.pFree F
        rw [hfree]
        exact hchain h.free
      · have hcount := honce q hq
        rw [hQ, List.count_cons] at hcount
        show F.count q + Q'.count q + [p].count q = 1
        rw [List.count_singleton]
        simp only [Task.entry, Option.toList_none, List.count_nil] at hcount
        omega
      · cases hq
        exact h.wait.lt p (by rw [hQ]; exact List.mem_cons_self)
      · show s.queued.map some = s.executed.map some ++ ([p] ++ Q').map cb.job
        rw [hjob, hfifo, hQ]
        rfl
      · simp only [Sys.weight, Task.weight, htask, hQ, List.length_cons]
        omega
  | call p last =>
    obtain ⟨job, hjob, hfifo⟩ := h.job (p := p) (by rw [htask]; rfl)
    have honce := h.once
    have hlt := h.lt
    rw [htask] at honce hlt
    have hbind : (s.cb.entry p).bind SlInternalSpawnEntry.job = some job := hjob
    simp only [hbind]
    refine ⟨_, F, Q, rfl, ⟨h.free, h.wait, h.last, honce, hlt, hfifo, fun _ => .inr (.inr rfl)⟩,
      rfl, rfl, .inr ?_⟩
    simp [Sys.weight, Task.weight, htask]
  | free p last =>
    obtain ⟨cb, hfreeEntry, hfree, hwait, hpw, hpl, hjob⟩ := freeEntry_eq h (p := p) (by rw [htask]; rfl)
    have honce := h.once
    have hfifo := h.fifo
    rw [htask] at honce hfifo
    simp only [hfreeEntry]
    have hcount : ∀ q < slMaxInternalSpawnEntries,
        (p :: F).count q + Q.count q + List.count q [] = 1 := by
      intro q hq
      have hcount := honce q hq
      simp only [Task.entry, Option.toList_some, List.count_singleton] at hcount
      rw [List.count_cons, List.count_nil]
      omega
    have hfifo' : s.queued.map some = s.executed.map some ++ ([] ++ Q).map cb.job := by
      rw [hfifo, List.map_congr_left fun q _ => hjob q]
      rfl
    refine ⟨_, p :: F, Q, rfl, ⟨hfree, hwait, hpl.trans h.last, ?_, ?_, ?_, fun hne => ?_⟩,
      rfl, rfl, .inr ?_⟩
    · dsimp only
      split <;> split <;> exact hcount
    · dsimp only
      split <;> split <;> exact nofun
    · dsimp only
      split <;> split <;> exact hfifo'
    · right
      right
      have hnull : cb.pWaitForExe ≠ null := by
        rw [hpw]
        exact fun hn => hne (h.wait_null.1 hn)
      simp only [hnull, ne_eq, not_false_eq_true, if_true, Bool.false_eq_true, if_false]
      rfl
    · have hle : ∀ b : Bool, (if b = true then Task.wait else Task.get).weight ≤ 1 := by decide
      refine Nat.add_lt_add_left ?_ _
      rw [htask]
      exact Nat.lt_succ_of_le (hle _)

end

/-- `_SlInternalSpawn` queues the job behind the others. -/
theorem spawn_inv {s : Sys ι ε} {F Q : List Nat} (h : Inv s F Q) {t : ι} (job : ε)
    (hfree : s.cb.pFree ≠ null) :
    ∃ cb F' Q', slInternalSpawn s.cb job = some cb ∧ Inv { s with
      cb := cb
      callers := Function.update s.callers t .signal
      queued := s.queued ++ [job] } F' Q' := by
  obtain ⟨cb, F', hspawn, hF, hchain, hwait, hlast, hjob, hother⟩ := slInternalSpawn_eq h hfree job
  refine ⟨cb, F', _, hspawn, hchain, hwait, ?_, fun q hq => ?_, h.lt, ?_, fun _ => ?_⟩
  · rw [List.getLast?_append_of_ne_nil Q (List.cons_ne_nil _ _)]
    exact hlast
  · have hcount := h.once q hq
    rw [hF, List.count_cons] at hcount
    rw [List.count_append, List.count_singleton]
    show F'.count q + _ + s.task.entry.toList.count q = 1
    omega
  · have hmem : ∀ q ∈ s.task.next.toList ++ Q, cb.job q = s.cb.job q := by
      intro q hq
      refine hother q ?_
      rintro rfl
      have hpF : s.cb.pFree ∈ F := by
        rw [hF]
        exact List.mem_cons_self
      rcases List.mem_append.1 hq with hq | hq
      · exact h.not_free (.inr (Task.next_entry (Option.mem_toList.1 hq))) hpF
      · exact h.not_free (.inl hq) hpF
    show (s.queued ++ [job]).map some = s.executed.map some ++
      (s.task.next.toList ++ (Q ++ [s.cb.pFree])).map cb.job
    rw [← List.append_assoc, jobs_append hmem hjob, List.map_append, h.fifo, List.append_assoc]
    rfl
  · refine .inr (.inl ⟨t, ?_⟩)
    show Caller.signals (Function.update s.callers t .signal t) = true
    rw [Function.update_self]
    rfl

theorem sysStep_inv {s : Sys ι ε} {F Q : List Nat} (h : Inv s F Q) {i : Act ι ε}
    (hcond : SpawnCond s i) :
    ∃ s' o F' Q', sysStep s i = some (s', o) ∧ Inv s' F' Q' := by
  unfold sysStep
  cases i with
  | spawn t job =>
    unfold SpawnCond at hcond
    cases hcaller : s.callers t with
    | signal => exact ⟨s, (), F, Q, by simp only [hcaller], h⟩
    | returned res =>
      cases job with
      | none =>
        simp only [hcaller]
        refine ⟨_, (), F, Q, rfl, h.free, h.wait, h.last, h.once, h.lt, h.fifo, fun hne => ?_⟩
        refine (h.awake hne).imp_right (.imp_left fun ⟨u, hu⟩ => ⟨u, ?_⟩)
        have hut : u ≠ t := by
          rintro rfl
          rw [hcaller] at hu
          cases hu
        show (Function.update s.callers t _ u).signals = true
        rw [Function.update_of_ne hut]
        exact hu
      | some job =>
        simp only [hcaller] at hcond ⊢
        obtain ⟨cb, F', Q', hspawn, hinv⟩ := spawn_inv h (t := t) job hcond
        rw [hspawn]
        exact ⟨_, (), F', Q', rfl, hinv⟩
  | signal t =>
    cases hcaller : s.callers t with
    | returned res => exact ⟨s, (), F, Q, by simp only [hcaller], h⟩
    | signal =>
      simp only [hcaller]
      exact ⟨_, (), F, Q, rfl, h.free, h.wait, h.last, h.once, h.lt, h.fifo, fun _ => .inl rfl⟩
  | task =>
    obtain ⟨s', F', Q', hs, hinv, -⟩ := taskStep_inv h
    refine ⟨s', (), F', Q', ?_, hinv⟩
    show (taskStep s).map _ = _
    rw [hs]
    rfl

omit [DecidableEq ι] in
theorem Inv.queue_nil {s : Sys ι ε} {F Q : List Nat} (h : Inv s F Q)
    (hquiet : ∀ t, (s.callers t).signals = false) (hwait : s.task.waits = true)
    (hsync : s.syncObj = false) : Q = [] := by
  by_contra hne
  rcases h.awake hne with hs | ⟨t, ht⟩ | hw
  · rw [hsync] at hs
    cases hs
  · rw [hquiet t] at ht
    cases ht
  · rw [hwait] at hw
    cases hw

omit [DecidableEq ι] in
theorem Inv.executed_eq {s : Sys ι ε} {F Q : List Nat} (h : Inv s F Q) (hQ : Q = [])
    (hwait : s.task.waits = true) : s.queued = s.executed := by
  have hfifo := h.fifo
  have hnext : s.task.next = none := by
    cases htask : s.task with
    | wait => rfl
    | _ =>
      rw [htask] at hwait
      cases hwait
  rw [hQ, hnext] at hfifo
  have hfifo : s.queued.map some = s.executed.map some := hfifo.trans (List.append_nil _)
  exact List.map_injective_iff.2 (fun _ _ => Option.some.inj) hfifo

/-- When no caller is in `sl_Spawn`, the task executes what is queued and waits. -/
theorem Inv.drains (n : Nat) : ∀ {s : Sys ι ε} {F Q : List Nat}, Inv s F Q →
    (∀ t, (s.callers t).signals = false) → s.weight Q < n →
    ∃ s' os, runs sysStep s (List.replicate n .task) = some (s', os) ∧ s'.queued = s.queued ∧
      s'.executed = s.queued ∧ s'.task.waits = true := by
  induction n with
  | zero => exact fun _ _ hn => absurd hn (Nat.not_lt_zero _)
  | succ n ih =>
    intro s F Q h hquiet hn
    obtain ⟨s₁, F₁, Q₁, hs, hinv, hworks⟩ := taskStep_inv h
    have hstep : sysStep s (.task : Act ι ε) = some (s₁, ()) := by
      show (taskStep s).map _ = _
      rw [hs]
      rfl
    rcases hworks.weight with ⟨hwait, hsync, rfl⟩ | hlt
    · have hQ := h.queue_nil hquiet hwait hsync
      refine ⟨s₁, _, runs_const hstep _, rfl, (h.executed_eq hQ hwait).symm, hwait⟩
    · obtain ⟨s', os, hr, hqueued, hexecuted, hwaits⟩ :=
        ih hinv (fun t => by rw [hworks.callers]; exact hquiet t) (by omega)
      rw [hworks.queued] at hqueued hexecuted
      exact ⟨s', _, runs_cons hstep hr, hqueued, hexecuted, hwaits⟩

/-- In every run in which there is a free record when a job is to be queued, no job is lost, executed
twice or out of order, and the records are conserved; when the callers have returned, the task
executes all that has been queued. -/
theorem spawn_queue (is : List (Act ι ε)) (hmeets : Meets sysStep SpawnCond (sysInit : Sys ι ε) is) :
    ∃ s os, runs sysStep (sysInit : Sys ι ε) is = some (s, os) ∧ SpawnLaw s ∧
      ((∀ t, (s.callers t).signals = false) →
        ∃ n s' os', runs sysStep s (List.replicate n .task) = some (s', os') ∧
          s'.executed = s.queued ∧ s'.task.waits = true) := by
  obtain ⟨s, os, hr, F, Q, hinv⟩ := runs_invariant (I := fun s : Sys ι ε => ∃ F Q, Inv s F Q)
    (fun s i ⟨F, Q, hI⟩ hC => by
      obtain ⟨s', o, F', Q', hs, hinv⟩ := sysStep_inv hI hC
      exact ⟨s', o, hs, F', Q', hinv⟩) ⟨_, _, inv_init⟩ hmeets
  refine ⟨s, os, hr, hinv.law, fun hquiet => ?_⟩
  obtain ⟨s', os', hr', -, he, hw⟩ := hinv.drains _ hquiet (Nat.lt_succ_self _)
  exact ⟨_, s', os', hr', he, hw⟩

/-- A second job is queued while the task has the first one. -/
theorem spawn_queue_two :
    ∃ s os, runs sysStep (sysInit : Sys Unit Nat)
        [.spawn () (some 5), .signal (), .task, .task, .spawn () (some 6)] = some (s, os) ∧
      SpawnLaw s ∧ ((∀ t, (s.callers t).signals = false) →
        ∃ n s' os', runs sysStep s (List.replicate n .task) = some (s', os') ∧
          s'.executed = s.queued ∧ s'.task.waits = true) := by
  refine spawn_queue _ ?_
  exact And.intro nofun <| And.intro trivial <| And.intro trivial <| And.intro trivial <|
    And.intro nofun trivial

/-- The eleventh job that is queued before the task runs gets no record, and `NULL` is read. -/
theorem spawn_full :
    ∃ s os, runs sysStep (sysInit : Sys Unit Nat)
        (List.replicate 10 [.spawn () (some 5), .signal ()]).flatten = some (s, os) ∧
      s.cb.pFree = null ∧ sysStep s (.spawn () (some 5)) = none :=
  ⟨_, _, rfl, rfl, rfl⟩

end SimpleLink.Driver.Spawn
