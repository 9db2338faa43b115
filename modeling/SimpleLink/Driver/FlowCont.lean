import Mathlib.Data.Fintype.Basic
import SimpleLink.Lib.Run

/-!
# Transmit flow control

Any number of threads `ι` are in `_SlDrvDataReadOp` and `_SlDrvDataWriteOp`; whoever reads messages
from the device holds the global lock meanwhile, and every header sets `TxPoolCnt`. A
step is one statement of a thread or of the reader.

The pool object of a receive is taken before the steps below, and released after them.
-/

namespace SimpleLink.Driver.TxFlow

open Lib

/-- `FLOW_CONT_MIN`. -/
def flowContMin : UInt8 := 1

/-- What `VERIFY_PROTOCOL` does with a condition that is false (`SL_PROTOCOL_HANDLING`): it never
returns, it returns an error, or nothing is verified. -/
inductive SlHandling where
  | assert
  | error
  | none

/-- A data command: `_SlDrvDataReadOp`, or `_SlDrvDataWriteOp` of a socket. -/
inductive DataOp where
  | read
  | write (sd : UInt8)
  deriving DecidableEq

/-- The command waits while `TxPoolCnt` is not above this. -/
def DataOp.flowMin : DataOp → UInt8
  | .read => flowContMin
  | .write _ => flowContMin + 1

/-- Where a thread is in its command. -/
inductive DataPhase where
  | idle
  /-- Locks `TxLockObj`. -/
  | lockTx
  /-- Clears `TxSyncObj`. -/
  | clearSync
  /-- Checks `SocketTXFailure`. -/
  | checkFailure
  /-- Compares `TxPoolCnt`. -/
  | checkPool
  /-- Checks `SocketNonBlocking`. -/
  | checkNonBlocking
  /-- Waits for `TxSyncObj`. -/
  | waitSync
  /-- Compares `TxPoolCnt` once more. -/
  | recheckPool
  /-- Locks `GlobalLockObj`. -/
  | lockGlobal
  /-- Verifies and takes the credit, and unlocks `TxLockObj`. -/
  | takeCredit
  /-- Writes the message, and unlocks `GlobalLockObj`. -/
  | msgWrite
  /-- Waits for the response. -/
  | waitResponse
  /-- In an assertion that failed. -/
  | halted
  deriving DecidableEq

structure DataThread where
  op : DataOp
  phase : DataPhase
  /-- The credits it took and the commands it wrote. -/
  credits : Nat
  written : Nat

/-- Who holds the global lock. -/
inductive GlobalHolder (ι : Type) where
  | reader
  | thread (t : ι)
  deriving DecidableEq

inductive ReaderPhase where
  | idle
  | reading
  /-- The header has been read, and `TxSyncObj` is to be signalled. -/
  | signalling
  deriving DecidableEq

structure FlowCont (ι : Type) where
  txPoolCnt : UInt8
  socketTxFailure : UInt8
  socketNonBlocking : UInt8
  txSyncObj : Bool
  txLockObj : Option ι
  globalLockObj : Option (GlobalHolder ι)
  reader : ReaderPhase
  threads : ι → DataThread

variable {ι : Type} [DecidableEq ι]

/-- The state that `_SlDrvDriverCBInit` leaves. -/
def flowInit : FlowCont ι where
  txPoolCnt := flowContMin
  socketTxFailure := 0
  socketNonBlocking := 0
  txSyncObj := false
  txLockObj := none
  globalLockObj := none
  reader := .idle
  threads := fun _ => ⟨.read, .idle, 0, 0⟩

def FlowCont.setThread (s : FlowCont ι) (t : ι) (th : DataThread) : FlowCont ι :=
  { s with threads := Function.update s.threads t th }

def FlowCont.goto (s : FlowCont ι) (t : ι) (p : DataPhase) : FlowCont ι :=
  s.setThread t { s.threads t with phase := p }

/-- The credit is taken and `TxLockObj` unlocked. -/
def FlowCont.tookCredit (s : FlowCont ι) (t : ι) : FlowCont ι :=
  { s with txPoolCnt := s.txPoolCnt - 1, txLockObj := none }.setThread t
    { s.threads t with credits := (s.threads t).credits + 1, phase := .msgWrite }

/-- The command is written and `GlobalLockObj` unlocked. -/
def FlowCont.wrote (s : FlowCont ι) (t : ι) (p : DataPhase) : FlowCont ι :=
  { s with globalLockObj := none }.setThread t
    { s.threads t with written := (s.threads t).written + 1, phase := p }

/-- `map & (1 << (Sd & BSD_SOCKET_ID_MASK))`. -/
def socketBit (map sd : UInt8) : Bool := map.toUInt16 &&& (1 <<< (sd &&& 0x0F).toUInt16) != 0

/-- The next statement of a thread; `ok` is what `_SlDrvMsgWrite` returns. There is none while it
waits for a lock, a signal or its response. -/
def threadStep (handling : SlHandling) (s : FlowCont ι) (t : ι) (ok : Bool) : Option (FlowCont ι) :=
  match (s.threads t).phase with
  | .idle => none
  | .lockTx =>
    match s.txLockObj with
    | none => some ({ s with txLockObj := some t }.goto t .clearSync)
    | some _ => none
  | .clearSync =>
    let s := { s with txSyncObj := false }
    match (s.threads t).op with
    | .read => some (s.goto t .checkPool)
    | .write _ => some (s.goto t .checkFailure)
  | .checkFailure =>
    match (s.threads t).op with
    | .read => none
    | .write sd =>
      if socketBit s.socketTxFailure sd then some ({ s with txLockObj := none }.goto t .idle)
      else some (s.goto t .checkPool)
  | .checkPool =>
    if s.txPoolCnt ≤ (s.threads t).op.flowMin then
      match (s.threads t).op with
      | .read => some (s.goto t .waitSync)
      | .write _ => some (s.goto t .checkNonBlocking)
    else
      match (s.threads t).op with
      | .read => some (s.goto t .lockGlobal)
      | .write _ => some (s.goto t .recheckPool)
  | .checkNonBlocking =>
    match (s.threads t).op with
    | .read => none
    | .write sd =>
      if socketBit s.socketNonBlocking sd then some ({ s with txLockObj := none }.goto t .idle)
      else some (s.goto t .waitSync)
  | .waitSync =>
    if s.txSyncObj then
      let s := { s with txSyncObj := false }
      match (s.threads t).op with
      -- a receive does not compare again
      | .read => some (s.goto t .lockGlobal)
      | .write _ => some (s.goto t .recheckPool)
    else none
  | .recheckPool =>
    if (s.threads t).op.flowMin < s.txPoolCnt then some (s.goto t .lockGlobal)
    else some ({ s with txLockObj := none }.goto t .lockTx)
  | .lockGlobal =>
    match s.globalLockObj with
    | none => some ({ s with globalLockObj := some (.thread t) }.goto t .takeCredit)
    | some _ => none
  | .takeCredit =>
    if (s.threads t).op.flowMin < s.txPoolCnt then some (s.tookCredit t)
    else
      match handling with
      | .assert => some (s.goto t .halted)
      | .error => some (s.goto t .idle)
      | .none => some (s.tookCredit t)
  | .msgWrite =>
    match (s.threads t).op with
    | .read => some (s.wrote t (if ok then .waitResponse else .idle))
    | .write _ => some (s.wrote t .idle)
  | .waitResponse => none
  | .halted => none

/-- What a thread, the device or the reader does next. -/
inductive FlowAct (ι : Type) where
  | call (t : ι) (op : DataOp)
  | run (t : ι) (ok : Bool)
  /-- The response to a receive has come. -/
  | respond (t : ι)
  /-- A command or the spawn context gets the global lock to read messages. -/
  | readBegin
  | header (txPoolCnt socketTxFailure socketNonBlocking : UInt8)
  | signal
  | readEnd

def flowStep (handling : SlHandling) (s : FlowCont ι) : FlowAct ι → Option (FlowCont ι × Unit)
  | .call t op =>
    if (s.threads t).phase = .idle then
      some (s.setThread t { s.threads t with op := op, phase := .lockTx }, ())
    else some (s, ())
  | .run t ok => some ((threadStep handling s t ok).getD s, ())
  | .respond t =>
    if (s.threads t).phase = .waitResponse then some (s.goto t .idle, ()) else some (s, ())
  | .readBegin =>
    if s.globalLockObj = none then
      some ({ s with globalLockObj := some .reader, reader := .reading }, ())
    else some (s, ())
  | .header cnt failure nonBlocking =>
    if s.reader = .reading then
      some ({ s with
        txPoolCnt := cnt
        socketTxFailure := failure
        socketNonBlocking := nonBlocking
        reader := .signalling }, ())
    else some (s, ())
  | .signal =>
    if s.reader = .signalling then
      some ({ s with
        txSyncObj := s.txSyncObj || flowContMin < s.txPoolCnt
        reader := .reading }, ())
    else some (s, ())
  | .readEnd =>
    if s.reader = .reading then some ({ s with globalLockObj := none, reader := .idle }, ())
    else some (s, ())

/-! ## The property and the condition -/

/-- No signal is pending and no thread can make a step: only the device can go on. -/
def Stuck (handling : SlHandling) (s : FlowCont ι) : Prop :=
  s.txSyncObj = false ∧ s.reader = .idle ∧ ∀ t ok, threadStep handling s t ok = none

structure FlowLaw (handling : SlHandling) (s : FlowCont ι) : Prop where
  /-- A command that takes its credit finds `TxPoolCnt` high enough. -/
  credit : ∀ t, (s.threads t).phase = .takeCredit → (s.threads t).op.flowMin < s.txPoolCnt
  /-- One credit for each command written. -/
  one : ∀ t, (s.threads t).credits =
    (s.threads t).written + if (s.threads t).phase = .msgWrite then 1 else 0
  /-- A thread that is not in a command, or waits for its response, holds no lock. -/
  locks : ∀ t, (s.threads t).phase = .idle ∨ (s.threads t).phase = .waitResponse →
    s.txLockObj ≠ some t ∧ s.globalLockObj ≠ some (.thread t)
  /-- Nobody waits who could go on. -/
  wake : Stuck handling s → ∀ t, (s.threads t).phase = .lockTx ∨ (s.threads t).phase = .waitSync →
    s.txPoolCnt ≤ (s.threads t).op.flowMin

/-- A receive is at `TxLockObj`. -/
def ReadAtLock (s : FlowCont ι) : Prop :=
  ∃ t, (s.threads t).phase = .lockTx ∧ (s.threads t).op = .read

def SendKeepsLock (s : FlowCont ι) : Prop :=
  s.txSyncObj = false ∧ s.txPoolCnt = flowContMin + 1 ∧
    ∃ t, (s.threads t).phase = .waitSync ∧ (s.threads t).op ≠ .read

/-- No header takes away the credits of a command that is about to take one; a receive is not
woken by an old signal; and no send waits with the lock that a receive could go on with. -/
def FlowCond (s : FlowCont ι) : FlowAct ι → Prop
  | .header cnt _ _ =>
    s.reader = .reading → ∀ t, (s.threads t).phase = .lockGlobal → (s.threads t).op.flowMin < cnt
  | .run t _ =>
    ((s.threads t).phase = .waitSync → (s.threads t).op = .read → s.txSyncObj = true →
      flowContMin < s.txPoolCnt) ∧
    ((s.threads t).phase = .checkNonBlocking → s.txSyncObj = false →
      s.txPoolCnt = flowContMin + 1 → ¬ReadAtLock s)
  | .call _ op => op = .read → ¬SendKeepsLock s
  | _ => True

instance [Fintype ι] (s : FlowCont ι) : Decidable (ReadAtLock s) :=
  Fintype.decidableExistsFintype

instance [Fintype ι] (s : FlowCont ι) : Decidable (SendKeepsLock s) :=
  have : Decidable (∃ t, (s.threads t).phase = .waitSync ∧ (s.threads t).op ≠ .read) :=
    Fintype.decidableExistsFintype
  inferInstanceAs (Decidable (_ ∧ _ ∧ _))

instance [Fintype ι] (s : FlowCont ι) : (a : FlowAct ι) → Decidable (FlowCond s a)
  | .header cnt _ _ =>
    have : Decidable (∀ t, (s.threads t).phase = .lockGlobal → (s.threads t).op.flowMin < cnt) :=
      Fintype.decidableForallFintype
    inferInstanceAs (Decidable (_ → _))
  | .run _ _ => inferInstanceAs (Decidable (_ ∧ _))
  | .call _ _ => inferInstanceAs (Decidable (_ → _))
  | .respond _ => inferInstanceAs (Decidable True)
  | .readBegin => inferInstanceAs (Decidable True)
  | .signal => inferInstanceAs (Decidable True)
  | .readEnd => inferInstanceAs (Decidable True)

/-! ## The invariant -/

/-- The phases in which a thread has `TxLockObj`, and those in which it has `GlobalLockObj`. -/
def DataPhase.holdsTx : DataPhase → Bool
  | .clearSync | .checkFailure | .checkPool | .checkNonBlocking | .waitSync | .recheckPool
  | .lockGlobal | .takeCredit => true
  | _ => false

def DataPhase.holdsGlobal : DataPhase → Bool
  | .takeCredit | .msgWrite => true
  | _ => false

structure FlowInv (s : FlowCont ι) : Prop where
  tx : ∀ t, (s.threads t).phase.holdsTx = true ↔ s.txLockObj = some t
  global : ∀ t, (s.threads t).phase.holdsGlobal = true ↔ s.globalLockObj = some (.thread t)
  reader : s.reader ≠ .idle ↔ s.globalLockObj = some .reader
  write : ∀ t, (s.threads t).phase = .checkFailure ∨ (s.threads t).phase = .checkNonBlocking →
    (s.threads t).op ≠ .read
  credit : ∀ t, (s.threads t).phase = .lockGlobal ∨ (s.threads t).phase = .takeCredit →
    (s.threads t).op.flowMin < s.txPoolCnt
  one : ∀ t, (s.threads t).credits =
    (s.threads t).written + if (s.threads t).phase = .msgWrite then 1 else 0
  /-- Whoever waits has seen a counter that is low, unless a signal is on its way. -/
  asleep : ∀ t, (s.threads t).phase = .checkNonBlocking ∨ (s.threads t).phase = .waitSync →
    s.txSyncObj = false → s.reader ≠ .signalling → s.txPoolCnt ≤ (s.threads t).op.flowMin
  keeps : SendKeepsLock s → s.reader ≠ .signalling → ¬ReadAtLock s

omit [DecidableEq ι] in
theorem flowInv_init : FlowInv (flowInit : FlowCont ι) where
  tx _ := ⟨nofun, nofun⟩
  global _ := ⟨nofun, nofun⟩
  reader := ⟨fun h => absurd rfl h, nofun⟩
  write _ h := by rcases h with h | h <;> cases h
  credit _ h := by rcases h with h | h <;> cases h
  one _ := rfl
  asleep _ h := by rcases h with h | h <;> cases h
  keeps h := by
    obtain ⟨-, -, t, h, -⟩ := h
    cases h

variable {s s' : FlowCont ι} {t : ι}

@[simp] theorem setThread_self (s : FlowCont ι) (t : ι) (th : DataThread) :
    (s.setThread t th).threads t = th := by
  simp [FlowCont.setThread]

theorem setThread_other (s : FlowCont ι) {t u : ι} (h : u ≠ t) (th : DataThread) :
    (s.setThread t th).threads u = s.threads u := by
  simp [FlowCont.setThread, h]

/-- A step of the thread that has `TxLockObj`; the others have none of the phases in which the
counter or the signal matters to them. -/
theorem FlowInv.holder (h : FlowInv s) (hp : (s.threads t).phase.holdsTx = true) (th : DataThread)
    (cnt : UInt8) (sync : Bool) {tx : Option ι} {global : Option (GlobalHolder ι)}
    (htx : tx = if th.phase.holdsTx then some t else none)
    (hglobal : (global = s.globalLockObj ∧
        th.phase.holdsGlobal = (s.threads t).phase.holdsGlobal) ∨
      (s.globalLockObj = none ∧ global = some (.thread t) ∧ th.phase.holdsGlobal = true))
    (hwrite : th.phase = .checkFailure ∨ th.phase = .checkNonBlocking → th.op ≠ .read)
    (hcredit : th.phase = .lockGlobal ∨ th.phase = .takeCredit → th.op.flowMin < cnt)
    (hone : th.credits = th.written + if th.phase = .msgWrite then 1 else 0)
    (hasleep : th.phase = .checkNonBlocking ∨ th.phase = .waitSync → sync = false →
      s.reader ≠ .signalling → cnt ≤ th.op.flowMin)
    (hkeeps : th.phase = .waitSync → th.op ≠ .read → sync = false → cnt = flowContMin + 1 →
      ¬ReadAtLock s) :
    FlowInv (FlowCont.setThread { s with
      txPoolCnt := cnt, txSyncObj := sync, txLockObj := tx, globalLockObj := global } t th) := by
  have htx₀ : s.txLockObj = some t := (h.tx t).1 hp
  have hother : ∀ u, u ≠ t → (s.threads u).phase.holdsTx = false := by
    intro u hu
    refine Bool.eq_false_iff.2 fun hu' => hu ?_
    exact Option.some.inj (((h.tx u).1 hu').symm.trans htx₀)
  have hphase : ∀ u, u ≠ t → ∀ p : DataPhase, p.holdsTx = true → (s.threads u).phase ≠ p := by
    intro u hu p hpt he
    have hf := hother u hu
    rw [he, hpt] at hf
    cases hf
  have hglobal₀ : ∀ u, u ≠ t → (s.globalLockObj = some (.thread u) ↔ global = some (.thread u)) := by
    intro u hu
    rcases hglobal with ⟨rfl, -⟩ | ⟨hnone, rfl, -⟩
    · rfl
    · rw [hnone]
      simp [Ne.symm hu]
  constructor
  case tx =>
    intro u
    rcases eq_or_ne u t with rfl | hu
    · rw [setThread_self]
      show _ ↔ tx = some u
      rw [htx]
      cases th.phase.holdsTx <;> simp
    · rw [setThread_other _ hu, hother u hu]
      show _ ↔ tx = some u
      rw [htx]
      cases th.phase.holdsTx <;> simp [Ne.symm hu]
  case global =>
    intro u
    rcases eq_or_ne u t with rfl | hu
    · rw [setThread_self]
      rcases hglobal with ⟨rfl, hsame⟩ | ⟨-, rfl, htrue⟩
      · rw [hsame]
        exact h.global u
      · exact iff_of_true htrue rfl
    · rw [setThread_other _ hu]
      exact (h.global u).trans (hglobal₀ u hu)
  case reader =>
    refine h.reader.trans ?_
    rcases hglobal with ⟨rfl, -⟩ | ⟨hnone, rfl, -⟩
    · exact Iff.rfl
    · rw [hnone]
      exact ⟨nofun, nofun⟩
  case write =>
    intro u hu
    rcases eq_or_ne u t with rfl | hne
    · rw [setThread_self] at hu ⊢
      exact hwrite hu
    · rw [setThread_other _ hne] at hu ⊢
      exact h.write u hu
  case credit =>
    intro u hu
    rcases eq_or_ne u t with rfl | hne
    · rw [setThread_self] at hu ⊢
      exact hcredit hu
    · rw [setThread_other _ hne] at hu
      exact hu.elim (fun he => absurd he (hphase u hne _ rfl)) fun he =>
        absurd he (hphase u hne _ rfl)
  case one =>
    intro u
    rcases eq_or_ne u t with rfl | hne
    · rw [setThread_self]
      exact hone
    · rw [setThread_other _ hne]
      exact h.one u
  case asleep =>
    intro u hu hs hr
    rcases eq_or_ne u t with rfl | hne
    · rw [setThread_self] at hu ⊢
      exact hasleep hu hs hr
    · rw [setThread_other _ hne] at hu
      exact hu.elim (fun he => absurd he (hphase u hne _ rfl)) fun he =>
        absurd he (hphase u hne _ rfl)
  case keeps =>
    rintro ⟨hs, hcnt, u, hu, hop⟩ - ⟨v, hv, hvop⟩
    rcases eq_or_ne u t with rfl | hne
    · rw [setThread_self] at hu hop
      refine hkeeps hu hop hs hcnt ⟨v, ?_⟩
      rcases eq_or_ne v u with rfl | hvu
      · rw [setThread_self] at hv
        exact absurd (hu.symm.trans hv) nofun
      · rw [setThread_other _ hvu] at hv hvop
        exact ⟨hv, hvop⟩
    · rw [setThread_other _ hne] at hu
      exact absurd hu (hphase u hne _ rfl)

/-- A step that leaves the counter and `GlobalLockObj` alone. -/
theorem FlowInv.goto (h : FlowInv s) {q : DataPhase} (hq : (s.threads t).phase = q)
    (hqTx : q.holdsTx = true) (hqGlobal : q.holdsGlobal = false) (sync : Bool) {tx : Option ι}
    {p : DataPhase} (hpGlobal : p.holdsGlobal = false)
    (htx : tx = if p.holdsTx then some t else none)
    (hwrite : p = .checkFailure ∨ p = .checkNonBlocking → (s.threads t).op ≠ .read)
    (hcredit : p = .lockGlobal → (s.threads t).op.flowMin < s.txPoolCnt)
    (hasleep : p = .checkNonBlocking ∨ p = .waitSync → sync = false → s.reader ≠ .signalling →
      s.txPoolCnt ≤ (s.threads t).op.flowMin)
    (hkeeps : p = .waitSync → (s.threads t).op ≠ .read → sync = false →
      s.txPoolCnt = flowContMin + 1 → ¬ReadAtLock s) :
    FlowInv (FlowCont.goto { s with txSyncObj := sync, txLockObj := tx } t p) := by
  refine h.holder (by rw [hq]; exact hqTx) { s.threads t with phase := p } s.txPoolCnt sync htx
    (.inl ⟨rfl, ?_⟩) hwrite ?_ ?_ hasleep hkeeps
  · rw [hq, hqGlobal]
    exact hpGlobal
  · rintro (hpl | hpt)
    · exact hcredit hpl
    · obtain rfl : p = .takeCredit := hpt
      cases hpGlobal
  · have hone := h.one t
    have hqm : q ≠ .msgWrite := fun he => by rw [he] at hqGlobal; cases hqGlobal
    have hpm : p ≠ .msgWrite := fun he => by rw [he] at hpGlobal; cases hpGlobal
    rw [hq, if_neg hqm] at hone
    rw [if_neg hpm]
    exact hone

/-- A step of a thread that does not have `TxLockObj`; the counter and the signal stay. -/
theorem FlowInv.outside (h : FlowInv s) (hp : (s.threads t).phase.holdsTx = false) (th : DataThread)
    {tx : Option ι} {global : Option (GlobalHolder ι)}
    (htx : (tx = s.txLockObj ∧ th.phase.holdsTx = false) ∨
      (s.txLockObj = none ∧ tx = some t ∧ th.phase.holdsTx = true))
    (hglobal : (global = s.globalLockObj ∧
        th.phase.holdsGlobal = (s.threads t).phase.holdsGlobal) ∨
      (s.globalLockObj = some (.thread t) ∧ global = none ∧ th.phase.holdsGlobal = false))
    (hphase : th.phase = .idle ∨ th.phase = .lockTx ∨ th.phase = .clearSync ∨
      th.phase = .waitResponse)
    (hone : th.credits = th.written)
    (hkeeps : th.phase = .lockTx → th.op = .read → ¬SendKeepsLock s) :
    FlowInv (FlowCont.setThread { s with txLockObj := tx, globalLockObj := global } t th) := by
  constructor
  case tx =>
    intro u
    rcases eq_or_ne u t with rfl | hu
    · rw [setThread_self]
      rcases htx with ⟨rfl, hfalse⟩ | ⟨-, rfl, htrue⟩
      · rw [hfalse, ← hp]
        exact h.tx u
      · exact iff_of_true htrue rfl
    · rw [setThread_other _ hu]
      refine (h.tx u).trans ?_
      rcases htx with ⟨rfl, -⟩ | ⟨hnone, rfl, -⟩
      · exact Iff.rfl
      · rw [hnone]
        exact iff_of_false nofun fun he => hu (Option.some.inj he).symm
  case global =>
    intro u
    rcases eq_or_ne u t with rfl | hu
    · rw [setThread_self]
      rcases hglobal with ⟨rfl, hsame⟩ | ⟨-, rfl, hfalse⟩
      · rw [hsame]
        exact h.global u
      · exact iff_of_false (by rw [hfalse]; exact Bool.false_ne_true) nofun
    · rw [setThread_other _ hu]
      refine (h.global u).trans ?_
      rcases hglobal with ⟨rfl, -⟩ | ⟨hsome, rfl, -⟩
      · exact Iff.rfl
      · rw [hsome]
        exact iff_of_false (fun he => hu (GlobalHolder.thread.inj (Option.some.inj he)).symm) nofun
  case reader =>
    refine h.reader.trans ?_
    rcases hglobal with ⟨rfl, -⟩ | ⟨hsome, rfl, -⟩
    · exact Iff.rfl
    · rw [hsome]
      exact iff_of_false nofun nofun
  case write =>
    intro u hu
    rcases eq_or_ne u t with rfl | hne
    · rw [setThread_self] at hu
      rcases hphase with he | he | he | he <;> rw [he] at hu <;> rcases hu with hu | hu <;> cases hu
    · rw [setThread_other _ hne] at hu ⊢
      exact h.write u hu
  case credit =>
    intro u hu
    rcases eq_or_ne u t with rfl | hne
    · rw [setThread_self] at hu
      rcases hphase with he | he | he | he <;> rw [he] at hu <;> rcases hu with hu | hu <;> cases hu
    · rw [setThread_other _ hne] at hu ⊢
      exact h.credit u hu
  case one =>
    intro u
    rcases eq_or_ne u t with rfl | hne
    · rw [setThread_self]
      rcases hphase with he | he | he | he <;> rw [he] <;> exact hone
    · rw [setThread_other _ hne]
      exact h.one u
  case asleep =>
    intro u hu
    rcases eq_or_ne u t with rfl | hne
    · rw [setThread_self] at hu
      rcases hphase with he | he | he | he <;> rw [he] at hu <;> rcases hu with hu | hu <;> cases hu
    · rw [setThread_other _ hne] at hu ⊢
      exact h.asleep u hu
  case keeps =>
    rintro ⟨hs, hcnt, u, hu, hop⟩ hr ⟨v, hv, hvop⟩
    have hut : u ≠ t := by
      rintro rfl
      rw [setThread_self] at hu
      rcases hphase with he | he | he | he <;> rw [he] at hu <;> cases hu
    rw [setThread_other _ hut] at hu hop
    have hk : SendKeepsLock s := ⟨hs, hcnt, u, hu, hop⟩
    rcases eq_or_ne v t with rfl | hvt
    · rw [setThread_self] at hv hvop
      exact hkeeps hv hvop hk
    · rw [setThread_other _ hvt] at hv hvop
      exact h.keeps hk hr ⟨v, hv, hvop⟩

theorem FlowInv.lockTx (h : FlowInv s) (hp : (s.threads t).phase = .lockTx)
    (hfree : s.txLockObj = none) :
    FlowInv (FlowCont.goto { s with txLockObj := some t } t .clearSync) := by
  have hone := h.one t
  rw [hp] at hone
  have hglobal : (DataPhase.clearSync).holdsGlobal = (s.threads t).phase.holdsGlobal := by
    rw [hp]
    rfl
  exact h.outside (by rw [hp]; rfl) { s.threads t with phase := .clearSync }
    (.inr ⟨hfree, rfl, rfl⟩) (.inl ⟨rfl, hglobal⟩) (.inr (.inr (.inl rfl))) hone nofun

theorem FlowInv.lockGlobal (h : FlowInv s) (hp : (s.threads t).phase = .lockGlobal)
    (hfree : s.globalLockObj = none) :
    FlowInv (FlowCont.goto { s with globalLockObj := some (.thread t) } t .takeCredit) := by
  have hcredit := h.credit t (.inl hp)
  have hone := h.one t
  rw [hp] at hone
  exact h.holder (by rw [hp]; rfl) { s.threads t with phase := .takeCredit } s.txPoolCnt s.txSyncObj
    ((h.tx t).1 (by rw [hp]; rfl)) (.inr ⟨hfree, rfl, rfl⟩) nofun
    (fun _ => hcredit) hone nofun nofun

theorem FlowInv.tookCredit (h : FlowInv s) (hp : (s.threads t).phase = .takeCredit) :
    FlowInv (s.tookCredit t) := by
  have hone := h.one t
  rw [hp] at hone
  have hglobal : (DataPhase.msgWrite).holdsGlobal = (s.threads t).phase.holdsGlobal := by
    rw [hp]
    rfl
  exact h.holder (by rw [hp]; rfl)
    { s.threads t with credits := (s.threads t).credits + 1, phase := .msgWrite } (s.txPoolCnt - 1)
    s.txSyncObj rfl (.inl ⟨rfl, hglobal⟩) nofun nofun (congrArg (· + 1) hone) nofun nofun

theorem FlowInv.wrote (h : FlowInv s) (hp : (s.threads t).phase = .msgWrite) {p : DataPhase}
    (hend : p = .idle ∨ p = .waitResponse) : FlowInv (s.wrote t p) := by
  have hone := h.one t
  rw [hp] at hone
  have hglobal := (h.global t).1 (by rw [hp]; rfl)
  have hout : p.holdsTx = false ∧ p.holdsGlobal = false ∧ p ≠ .lockTx := by
    rcases hend with rfl | rfl <;> exact ⟨rfl, rfl, nofun⟩
  exact h.outside (by rw [hp]; rfl)
    { s.threads t with written := (s.threads t).written + 1, phase := p } (.inl ⟨rfl, hout.1⟩)
    (.inr ⟨hglobal, rfl, hout.2.1⟩) (hend.imp_right fun he => .inr (.inr he)) hone
    fun he => absurd he hout.2.2

theorem FlowInv.run {handling : SlHandling} (h : FlowInv s) (t : ι) {ok : Bool}
    (hc : FlowCond s (.run t ok)) (hs : threadStep handling s t ok = some s') : FlowInv s' := by
  have htx : (s.threads t).phase.holdsTx = true → s.txLockObj = some t := (h.tx t).1
  unfold threadStep at hs
  cases hp : (s.threads t).phase with
  | idle => simp only [hp] at hs; cases hs
  | waitResponse => simp only [hp] at hs; cases hs
  | halted => simp only [hp] at hs; cases hs
  | lockTx =>
    simp only [hp] at hs
    split at hs
    · rename_i hfree
      cases hs
      exact h.lockTx hp hfree
    · cases hs
  | clearSync =>
    rw [hp] at htx
    simp only [hp] at hs
    split at hs
    · cases hs
      exact h.goto hp rfl rfl false rfl (htx rfl) nofun nofun nofun nofun
    · rename_i sd hop
      cases hs
      exact h.goto hp rfl rfl false rfl (htx rfl) (fun _ => by rw [hop]; exact nofun) nofun nofun
        nofun
  | checkFailure =>
    rw [hp] at htx
    simp only [hp] at hs
    split at hs
    · cases hs
    · split at hs
      · cases hs
        exact h.goto hp rfl rfl s.txSyncObj rfl rfl nofun nofun nofun nofun
      · cases hs
        exact h.goto hp rfl rfl s.txSyncObj rfl (htx rfl) nofun nofun nofun nofun
  | checkPool =>
    rw [hp] at htx
    simp only [hp] at hs
    split at hs
    · rename_i hle
      split at hs
      · rename_i hop
        cases hs
        exact h.goto hp rfl rfl s.txSyncObj rfl (htx rfl) nofun nofun (fun _ _ _ => hle)
          fun _ hne => absurd hop hne
      · rename_i sd hop
        cases hs
        exact h.goto hp rfl rfl s.txSyncObj rfl (htx rfl) (fun _ => by rw [hop]; exact nofun) nofun
          (fun _ _ _ => hle) nofun
    · rename_i hnot
      split at hs
      · cases hs
        exact h.goto hp rfl rfl s.txSyncObj rfl (htx rfl) nofun
          (fun _ => UInt8.not_le.1 hnot) nofun nofun
      · cases hs
        exact h.goto hp rfl rfl s.txSyncObj rfl (htx rfl) nofun nofun nofun nofun
  | checkNonBlocking =>
    rw [hp] at htx
    simp only [hp] at hs
    split at hs
    · cases hs
    · split at hs
      · cases hs
        exact h.goto hp rfl rfl s.txSyncObj rfl rfl nofun nofun nofun nofun
      · cases hs
        exact h.goto hp rfl rfl s.txSyncObj rfl (htx rfl) nofun nofun
          (fun _ => h.asleep t (.inl hp)) fun _ _ => hc.2 hp
  | waitSync =>
    rw [hp] at htx
    simp only [hp] at hs
    split at hs
    · rename_i hsync
      split at hs
      · rename_i hop
        cases hs
        have hcnt := hc.1 hp hop hsync
        exact h.goto hp rfl rfl false rfl (htx rfl) nofun (fun _ => by rw [hop]; exact hcnt) nofun
          nofun
      · cases hs
        exact h.goto hp rfl rfl false rfl (htx rfl) nofun nofun nofun nofun
    · cases hs
  | recheckPool =>
    rw [hp] at htx
    simp only [hp] at hs
    split at hs
    · rename_i hlt
      cases hs
      exact h.goto hp rfl rfl s.txSyncObj rfl (htx rfl) nofun (fun _ => hlt) nofun nofun
    · cases hs
      exact h.goto hp rfl rfl s.txSyncObj rfl rfl nofun nofun nofun nofun
  | lockGlobal =>
    simp only [hp] at hs
    split at hs
    · rename_i hfree
      cases hs
      exact h.lockGlobal hp hfree
    · cases hs
  | takeCredit =>
    simp only [hp] at hs
    rw [if_pos (h.credit t (.inr hp))] at hs
    cases hs
    exact h.tookCredit hp
  | msgWrite =>
    simp only [hp] at hs
    split at hs
    · cases hs
      refine h.wrote hp ?_
      cases ok
      · exact .inl rfl
      · exact .inr rfl
    · cases hs
      exact h.wrote hp (.inl rfl)

/-! ### The device and the reader -/

omit [DecidableEq ι] in
theorem FlowInv.not_takeCredit (h : FlowInv s) (hr : s.reader = .reading) (t : ι) :
    (s.threads t).phase ≠ .takeCredit := by
  intro hp
  have hreader := h.reader.1 (by rw [hr]; exact nofun)
  have hthread := (h.global t).1 (by rw [hp]; rfl)
  exact absurd (hreader.symm.trans hthread) nofun

omit [DecidableEq ι] in
theorem FlowInv.header (h : FlowInv s) (hr : s.reader = .reading) {cnt failure nonBlocking : UInt8}
    (hc : ∀ t, (s.threads t).phase = .lockGlobal → (s.threads t).op.flowMin < cnt) :
    FlowInv { s with
      txPoolCnt := cnt
      socketTxFailure := failure
      socketNonBlocking := nonBlocking
      reader := .signalling } where
  tx := h.tx
  global := h.global
  reader := iff_of_true nofun (h.reader.1 (by rw [hr]; exact nofun))
  write := h.write
  credit t ht := ht.elim (hc t) fun he => absurd he (h.not_takeCredit hr t)
  one := h.one
  asleep _ _ _ hne := absurd rfl hne
  keeps _ hne := absurd rfl hne

theorem flowContMin_le (op : DataOp) : flowContMin ≤ op.flowMin := by
  cases op with
  | read => exact UInt8.le_refl _
  | write _ =>
    show flowContMin ≤ flowContMin + 1
    decide

theorem flowMin_le (op : DataOp) : op.flowMin ≤ flowContMin + 1 := by
  cases op with
  | read =>
    show flowContMin ≤ flowContMin + 1
    decide
  | write _ => exact UInt8.le_refl _

omit [DecidableEq ι] in
theorem FlowInv.signal (h : FlowInv s) (hr : s.reader = .signalling) :
    FlowInv { s with
      txSyncObj := s.txSyncObj || flowContMin < s.txPoolCnt
      reader := .reading } := by
  have hlow : (s.txSyncObj || decide (flowContMin < s.txPoolCnt)) = false →
      s.txPoolCnt ≤ flowContMin := by
    intro he
    rw [Bool.or_eq_false_iff, decide_eq_false_iff_not] at he
    exact UInt8.not_lt.1 he.2
  exact {
    tx := h.tx
    global := h.global
    reader := iff_of_true nofun (h.reader.1 (by rw [hr]; exact nofun))
    write := h.write
    credit := h.credit
    one := h.one
    asleep := fun t _ he _ => UInt8.le_trans (hlow he) (flowContMin_le _)
    keeps := fun ⟨he, hcnt, _⟩ _ => by
      have hle := hlow he
      rw [hcnt] at hle
      exact absurd hle (by decide) }

omit [DecidableEq ι] in
theorem FlowInv.readBegin (h : FlowInv s) (hfree : s.globalLockObj = none) :
    FlowInv { s with globalLockObj := some .reader, reader := .reading } := by
  have hidle : s.reader ≠ .signalling := by
    intro hr
    have hreader := h.reader.1 (by rw [hr]; exact nofun)
    rw [hfree] at hreader
    cases hreader
  exact {
    tx := h.tx
    global := fun t => by
      refine (h.global t).trans ?_
      rw [hfree]
      exact iff_of_false nofun nofun
    reader := iff_of_true nofun rfl
    write := h.write
    credit := h.credit
    one := h.one
    asleep := fun t ht he _ => h.asleep t ht he hidle
    keeps := fun hk _ => h.keeps hk hidle }

omit [DecidableEq ι] in
theorem FlowInv.readEnd (h : FlowInv s) (hr : s.reader = .reading) :
    FlowInv { s with globalLockObj := none, reader := .idle } := by
  have hreader := h.reader.1 (by rw [hr]; exact nofun)
  have hidle : s.reader ≠ .signalling := by
    rw [hr]
    exact nofun
  exact {
    tx := h.tx
    global := fun t => by
      refine (h.global t).trans ?_
      rw [hreader]
      exact iff_of_false nofun nofun
    reader := iff_of_false (fun hne => hne rfl) nofun
    write := h.write
    credit := h.credit
    one := h.one
    asleep := fun t ht he _ => h.asleep t ht he hidle
    keeps := fun hk _ => h.keeps hk hidle }

theorem FlowInv.call (h : FlowInv s) (hp : (s.threads t).phase = .idle) {op : DataOp}
    (hc : op = .read → ¬SendKeepsLock s) :
    FlowInv (s.setThread t { s.threads t with op := op, phase := .lockTx }) := by
  have hone := h.one t
  rw [hp] at hone
  have hglobal : (DataPhase.lockTx).holdsGlobal = (s.threads t).phase.holdsGlobal := by
    rw [hp]
    rfl
  exact h.outside (by rw [hp]; rfl) { s.threads t with op := op, phase := .lockTx }
    (.inl ⟨rfl, rfl⟩) (.inl ⟨rfl, hglobal⟩) (.inr (.inl rfl)) hone fun _ => hc

theorem FlowInv.respond (h : FlowInv s) (hp : (s.threads t).phase = .waitResponse) :
    FlowInv (s.goto t .idle) := by
  have hone := h.one t
  rw [hp] at hone
  have hglobal : (DataPhase.idle).holdsGlobal = (s.threads t).phase.holdsGlobal := by
    rw [hp]
    rfl
  exact h.outside (by rw [hp]; rfl) { s.threads t with phase := .idle }
    (.inl ⟨rfl, rfl⟩) (.inl ⟨rfl, hglobal⟩) (.inl rfl) hone nofun

theorem FlowInv.step {handling : SlHandling} (h : FlowInv s) {a : FlowAct ι} {out : Unit}
    (hc : FlowCond s a) (hs : flowStep handling s a = some (s', out)) : FlowInv s' := by
  have hid : ∀ {s₁ : FlowCont ι}, FlowInv s₁ → some (s₁, ()) = some (s', out) → FlowInv s' := by
    intro s₁ h₁ he
    cases he
    exact h₁
  cases a with
  | call t op =>
    simp only [flowStep] at hs
    split at hs
    · rename_i hp
      exact hid (h.call hp hc) hs
    · exact hid h hs
  | run t ok =>
    refine hid ?_ hs
    cases hstep : threadStep handling s t ok with
    | none => exact h
    | some s₁ => exact h.run t hc hstep
  | respond t =>
    simp only [flowStep] at hs
    split at hs
    · rename_i hp
      exact hid (h.respond hp) hs
    · exact hid h hs
  | readBegin =>
    simp only [flowStep] at hs
    split at hs
    · rename_i hfree
      exact hid (h.readBegin hfree) hs
    · exact hid h hs
  | header cnt failure nonBlocking =>
    simp only [flowStep] at hs
    split at hs
    · rename_i hr
      exact hid (h.header hr (hc hr)) hs
    · exact hid h hs
  | signal =>
    simp only [flowStep] at hs
    split at hs
    · rename_i hr
      exact hid (h.signal hr) hs
    · exact hid h hs
  | readEnd =>
    simp only [flowStep] at hs
    split at hs
    · rename_i hr
      exact hid (h.readEnd hr) hs
    · exact hid h hs

/-! ## Runs -/

/-- The thread with `TxLockObj` can go on, unless it waits for a signal. -/
theorem FlowInv.holder_waits {handling : SlHandling} (h : FlowInv s) (hstuck : Stuck handling s)
    (ht : s.txLockObj = some t) : (s.threads t).phase = .waitSync := by
  obtain ⟨-, hreader, hnone⟩ := hstuck
  have hp := (h.tx t).2 ht
  have hstep := hnone t true
  have hwrite := h.write t
  unfold threadStep at hstep
  cases hphase : (s.threads t).phase with
  | waitSync => rfl
  | lockGlobal =>
    simp only [hphase] at hstep
    cases hglobal : s.globalLockObj with
    | none => rw [hglobal] at hstep; cases hstep
    | some x =>
      cases x with
      | reader => exact absurd hreader (h.reader.2 hglobal)
      | thread u =>
        -- whoever has the global lock can go on
        have hu := (h.global u).2 hglobal
        have hustep := hnone u true
        unfold threadStep at hustep
        cases huphase : (s.threads u).phase with
        | takeCredit =>
          simp only [huphase, if_pos (h.credit u (.inr huphase))] at hustep
          cases hustep
        | msgWrite =>
          simp only [huphase] at hustep
          split at hustep <;> cases hustep
        | _ => rw [huphase] at hu; cases hu
  | takeCredit =>
    simp only [hphase, if_pos (h.credit t (.inr hphase))] at hstep
    cases hstep
  | clearSync =>
    simp only [hphase] at hstep
    split at hstep <;> cases hstep
  | checkFailure =>
    simp only [hphase] at hstep
    split at hstep
    · rename_i hop
      exact absurd hop (hwrite (.inl hphase))
    · split at hstep <;> cases hstep
  | checkPool =>
    simp only [hphase] at hstep
    split at hstep <;> split at hstep <;> cases hstep
  | checkNonBlocking =>
    simp only [hphase] at hstep
    split at hstep
    · rename_i hop
      exact absurd hop (hwrite (.inr hphase))
    · split at hstep <;> cases hstep
  | recheckPool =>
    simp only [hphase] at hstep
    split at hstep <;> cases hstep
  | _ => rw [hphase] at hp; cases hp

theorem FlowInv.law {handling : SlHandling} (h : FlowInv s) : FlowLaw handling s where
  credit t ht := h.credit t (.inr ht)
  one := h.one
  locks t ht := by
    have hout : (s.threads t).phase.holdsTx = false ∧ (s.threads t).phase.holdsGlobal = false := by
      rcases ht with ht | ht <;> rw [ht] <;> exact ⟨rfl, rfl⟩
    exact ⟨fun he => by rw [(h.tx t).2 he] at hout; exact absurd hout.1 nofun,
      fun he => by rw [(h.global t).2 he] at hout; exact absurd hout.2 nofun⟩
  wake hstuck t ht := by
    have hsignalling : s.reader ≠ .signalling := by
      rw [hstuck.2.1]
      exact nofun
    rcases ht with ht | ht
    · -- `t` is at the lock of a thread that waits
      obtain ⟨u, hu⟩ : ∃ u, s.txLockObj = some u := by
        have hstep := hstuck.2.2 t true
        unfold threadStep at hstep
        simp only [ht] at hstep
        cases htx : s.txLockObj with
        | none => rw [htx] at hstep; cases hstep
        | some u => exact ⟨u, rfl⟩
      have hwait := h.holder_waits hstuck hu
      have hle := h.asleep u (.inr hwait) hstuck.1 hsignalling
      cases hop : (s.threads t).op with
      | write sd => exact UInt8.le_trans hle (flowMin_le _)
      | read =>
        cases hopu : (s.threads u).op with
        | read => rwa [hopu] at hle
        | write sd =>
          have hne : s.txPoolCnt ≠ flowContMin + 1 := fun hcnt =>
            h.keeps ⟨hstuck.1, hcnt, u, hwait, by rw [hopu]; exact nofun⟩ hsignalling ⟨t, ht, hop⟩
          rw [hopu] at hle
          have hlt : s.txPoolCnt < flowContMin + 1 := UInt8.lt_of_le_of_ne hle hne
          exact UInt8.le_iff_toNat_le.2 (Nat.lt_succ_iff.1 (UInt8.lt_iff_toNat_lt.1 hlt))
    · exact h.asleep t (.inr ht) hstuck.1 hsignalling

/-- A receive waits for a credit with the lock and a second one for the lock; a header wakes the first,
and both are written. -/
def twoReceives : List (FlowAct Bool) :=
  [.call false .read, .run false true, .run false true, .run false true, .run false true,
    .call true .read, .run true true, .readBegin, .header 3 0 0, .signal, .readEnd] ++
    List.replicate 4 (.run false true) ++ List.replicate 6 (.run true true)

/-- A send waits for a second credit and keeps the lock, with a receive at the lock that needs only
the first. -/
def sendKeepsLock : List (FlowAct Bool) :=
  [.readBegin, .header 2 0 0, .signal, .readEnd, .call false (.write 0), .run false true,
    .run false true, .run false true, .run false true, .run false true, .call true .read]

def creditTakenAway : List (FlowAct Bool) :=
  [.readBegin, .header 2 0 0, .signal, .readEnd, .call true .read, .run true true, .run true true,
    .run true true, .readBegin, .header 1 0 0, .signal, .readEnd, .run true true]

end SimpleLink.Driver.TxFlow
