import Mathlib.Data.Nat.Bitwise
import SimpleLink.Lib.Run

/-!
# The circular queue of QoS2 identifiers (`mqtt_common.c`)

`PubQos2Cq` is `struct pub_qos2_cq`. An operation returns `none` where the C
code would index `id_vec` outside its `MAX_PUBREL_INFLT` cells.

The queue is compared with a FIFO list of at most `MAX_PUBREL_INFLT`
identifiers (`Fifo`). `Rep cq q` says that the cells from `rd_idx` on hold `q`
and that `wr_idx` and `n_free` agree with its length. The code keeps the two in
step as long as every identifier unlogged from a non-empty queue is the one at
its head: a mismatch has already advanced `rd_idx`.
-/

namespace SimpleLink.Mqtt

open Lib

/-- `MAX_PUBREL_INFLT`. -/
abbrev maxPubrelInflt : Nat := 8

structure PubQos2Cq where
  idVec : Vector UInt16 maxPubrelInflt
  nFree : Nat
  rdIdx : Nat
  wrIdx : Nat
  deriving DecidableEq

def qos2PubCqReset : PubQos2Cq where
  idVec := Vector.replicate _ 0
  nFree := maxPubrelInflt
  rdIdx := 0
  wrIdx := 0

def qos2PubCqLogup (cq : PubQos2Cq) (msgId : UInt16) : Option (PubQos2Cq × Bool) :=
  if cq.nFree ≠ 0 then
    if h : cq.wrIdx < maxPubrelInflt then
      some ({ cq with
        idVec := cq.idVec.set cq.wrIdx msgId h
        wrIdx := (cq.wrIdx + 1) &&& (maxPubrelInflt - 1)
        nFree := cq.nFree - 1 }, true)
    else none
  else some (cq, false)

def qos2PubCqUnlog (cq : PubQos2Cq) (msgId : UInt16) : Option (PubQos2Cq × Bool) :=
  if cq.nFree < maxPubrelInflt then
    match cq.idVec[cq.rdIdx]? with
    | none => none
    | some id =>
      -- `rd_idx++` is part of the comparison, so it happens on a mismatch too
      if msgId = id then
        some ({ cq with
          rdIdx := (cq.rdIdx + 1) &&& (maxPubrelInflt - 1)
          nFree := cq.nFree + 1 }, true)
      else some ({ cq with rdIdx := cq.rdIdx + 1 }, false)
  else some (cq, false)

/-- The loop of `qos2_pub_cq_check`: `n` entries are left, the next one at `rd`. -/
def qos2PubCqCheckFrom (cq : PubQos2Cq) (msgId : UInt16) : Nat → Nat → Option Bool
  | 0, _ => some false
  | n + 1, rd =>
    match cq.idVec[rd]? with
    | none => none
    | some id =>
      if msgId = id then some true
      else qos2PubCqCheckFrom cq msgId n ((rd + 1) &&& (maxPubrelInflt - 1))

def qos2PubCqCheck (cq : PubQos2Cq) (msgId : UInt16) : Option Bool :=
  qos2PubCqCheckFrom cq msgId (maxPubrelInflt - cq.nFree) cq.rdIdx

/-- `qos2_pub_cq_count`. -/
def qos2PubCqCount (cq : PubQos2Cq) : Nat := maxPubrelInflt - cq.nFree

/-- The identifiers on record, oldest first. -/
def PubQos2Cq.recorded (cq : PubQos2Cq) : List UInt16 :=
  (List.range (qos2PubCqCount cq)).map fun k =>
    cq.idVec.get ⟨(cq.rdIdx + k) % maxPubrelInflt, Nat.mod_lt _ (by decide)⟩

/-- The calls made on a queue. -/
inductive CqOp where
  | logup (msgId : UInt16)
  | unlog (msgId : UInt16)
  | check (msgId : UInt16)
  deriving DecidableEq, Repr

def cqStep (cq : PubQos2Cq) : CqOp → Option (PubQos2Cq × Bool)
  | .logup id => qos2PubCqLogup cq id
  | .unlog id => qos2PubCqUnlog cq id
  | .check id => (qos2PubCqCheck cq id).map fun b => (cq, b)

/-! ## The FIFO the queue stands for -/

namespace Fifo

def logup (q : List UInt16) (id : UInt16) : List UInt16 × Bool :=
  if q.length < maxPubrelInflt then (q ++ [id], true) else (q, false)

/-- Only the oldest identifier can be removed. -/
def unlog (q : List UInt16) (id : UInt16) : List UInt16 × Bool :=
  if q.head? = some id then (q.tail, true) else (q, false)

def check (q : List UInt16) (id : UInt16) : Bool := decide (id ∈ q)

def step (q : List UInt16) : CqOp → List UInt16 × Bool
  | .logup id => logup q id
  | .unlog id => unlog q id
  | .check id => (q, check q id)

end Fifo

/-! ## Representation -/

/-- `cq` holds the identifiers `q`, oldest first. -/
structure Rep (cq : PubQos2Cq) (q : List UInt16) : Prop where
  room : q.length + cq.nFree = maxPubrelInflt
  rd : cq.rdIdx < maxPubrelInflt
  wr : cq.wrIdx = (cq.rdIdx + q.length) % maxPubrelInflt
  cells : ∀ k (h : k < q.length),
    cq.idVec[(cq.rdIdx + k) % maxPubrelInflt]? = some (q.get ⟨k, h⟩)

/-- The indices address cells of `id_vec` and the free count complements what is stored. -/
structure InArray (cq : PubQos2Cq) : Prop where
  rd : cq.rdIdx < maxPubrelInflt
  wr : cq.wrIdx < maxPubrelInflt
  conserved : cq.nFree + cq.recorded.length = maxPubrelInflt

theorem wrap_idx (n : Nat) : n &&& (maxPubrelInflt - 1) = n % maxPubrelInflt :=
  Nat.and_two_pow_sub_one_eq_mod n 3

theorem rep_reset : Rep qos2PubCqReset [] where
  room := rfl
  rd := by decide
  wr := rfl
  cells k h := absurd h (Nat.not_lt_zero k)

theorem Rep.count {cq : PubQos2Cq} {q : List UInt16} (h : Rep cq q) :
    qos2PubCqCount cq = q.length := by
  have := h.room
  unfold qos2PubCqCount; omega

theorem Rep.recorded {cq : PubQos2Cq} {q : List UInt16} (h : Rep cq q) : cq.recorded = q := by
  unfold PubQos2Cq.recorded
  rw [h.count]
  apply List.ext_getElem (by simp)
  intro k hk hk'
  have hc := h.cells k hk'
  rw [Vector.getElem?_eq_getElem (Nat.mod_lt _ (by decide))] at hc
  simpa [Vector.get] using hc

theorem Rep.inArray {cq : PubQos2Cq} {q : List UInt16} (h : Rep cq q) : InArray cq where
  rd := h.rd
  wr := by rw [h.wr]; exact Nat.mod_lt _ (by decide)
  conserved := by rw [h.recorded]; have := h.room; omega

/-! ## The operations -/

theorem logup_rep {cq : PubQos2Cq} {q : List UInt16} (h : Rep cq q) (id : UInt16) :
    ∃ cq', qos2PubCqLogup cq id = some (cq', (Fifo.logup q id).2) ∧
      Rep cq' (Fifo.logup q id).1 := by
  have hroom := h.room
  have hrd := h.rd
  unfold qos2PubCqLogup Fifo.logup
  by_cases hfull : cq.nFree = 0
  · have : ¬ q.length < maxPubrelInflt := by omega
    simp only [hfull, this, ne_eq, not_true_eq_false, ↓reduceIte]
    exact ⟨cq, rfl, h⟩
  · have hlt : q.length < maxPubrelInflt := by omega
    have hwr : cq.wrIdx < maxPubrelInflt := h.inArray.wr
    simp only [hfull, hlt, hwr, ne_eq, not_false_eq_true, ↓reduceIte, ↓reduceDIte]
    refine ⟨_, rfl, ⟨by simp; omega, h.rd, ?_, ?_⟩⟩
    · simp only [wrap_idx, h.wr, List.length_append, List.length_singleton, Nat.mod_add_mod,
        Nat.add_assoc]
    · intro k hk
      have hk' : k < q.length ∨ k = q.length := by
        simp only [List.length_append, List.length_singleton] at hk; omega
      rcases hk' with hk' | rfl
      · -- an older entry sits in another cell than the one written
        have hne : cq.wrIdx ≠ (cq.rdIdx + k) % maxPubrelInflt := by
          rw [h.wr]; simp only [maxPubrelInflt] at *; omega
        rw [Vector.getElem?_set_ne _ hne, h.cells k hk']
        simp [List.getElem_append_left hk']
      · simp [← h.wr]

theorem unlog_empty {cq : PubQos2Cq} (h : Rep cq []) (id : UInt16) :
    qos2PubCqUnlog cq id = some (cq, false) := by
  have : ¬ cq.nFree < maxPubrelInflt := by have := h.room; simp at this; omega
  simp only [qos2PubCqUnlog, this, ↓reduceIte]

/-- Unlogging from a non-empty queue: `rd_idx` moves whether or not the head matches. -/
theorem unlog_cons {cq : PubQos2Cq} {hd : UInt16} {q : List UInt16} (h : Rep cq (hd :: q))
    (id : UInt16) :
    qos2PubCqUnlog cq id =
      if id = hd then
        some ({ cq with rdIdx := (cq.rdIdx + 1) % maxPubrelInflt, nFree := cq.nFree + 1 }, true)
      else some ({ cq with rdIdx := cq.rdIdx + 1 }, false) := by
  have hlt : cq.nFree < maxPubrelInflt := by have := h.room; simp at this; omega
  have hcell := h.cells 0 (by simp)
  rw [Nat.add_zero, Nat.mod_eq_of_lt h.rd] at hcell
  simp only [qos2PubCqUnlog, hlt, hcell, wrap_idx, ↓reduceIte, List.get_eq_getElem,
    List.getElem_cons_zero]

theorem rep_tail {cq : PubQos2Cq} {hd : UInt16} {q : List UInt16} (h : Rep cq (hd :: q)) :
    Rep { cq with rdIdx := (cq.rdIdx + 1) % maxPubrelInflt, nFree := cq.nFree + 1 } q := by
  have hroom := h.room
  simp only [List.length_cons] at hroom
  refine ⟨by simp only; omega, Nat.mod_lt _ (by decide), ?_, fun k hk => ?_⟩
  · simp only [h.wr, List.length_cons, Nat.mod_add_mod]
    congr 1; omega
  · have := h.cells (k + 1) (by simp; omega)
    simp only [Nat.mod_add_mod]
    rw [show cq.rdIdx + 1 + k = cq.rdIdx + (k + 1) by omega, this]
    simp

theorem check_rep {cq : PubQos2Cq} {q : List UInt16} (h : Rep cq q) (id : UInt16) :
    qos2PubCqCheck cq id = some (Fifo.check q id) := by
  -- `n` entries are left to compare and `k` were compared already
  have loop : ∀ n k, k + n = q.length →
      qos2PubCqCheckFrom cq id n ((cq.rdIdx + k) % maxPubrelInflt) =
        some (decide (id ∈ q.drop k)) := by
    intro n
    induction n with
    | zero =>
      intro k hk
      have : q.drop k = [] := List.drop_eq_nil_of_le (by omega)
      simp [qos2PubCqCheckFrom, this]
    | succ n ih =>
      intro k hk
      have hlt : k < q.length := by omega
      simp only [qos2PubCqCheckFrom, h.cells k hlt, List.get_eq_getElem]
      rw [List.drop_eq_getElem_cons hlt]
      by_cases hid : id = q[k]
      · simp only [hid, ↓reduceIte, List.mem_cons, true_or, decide_true]
      · simp only [hid, ↓reduceIte, wrap_idx, Nat.mod_add_mod, Nat.add_assoc, List.mem_cons,
          false_or]
        exact ih (k + 1) (by omega)
  have := loop q.length 0 (by simp)
  simpa [qos2PubCqCheck, qos2PubCqCount, ← h.count, Nat.mod_eq_of_lt h.rd, Fifo.check] using this

/-! ## Refinement -/

/-- An identifier unlogged from a non-empty queue is the one at its head. -/
def HeadUnlog (cq : PubQos2Cq) : CqOp → Prop
  | .unlog id => cq.nFree < maxPubrelInflt → cq.idVec[cq.rdIdx]? = some id
  | _ => True

instance (cq : PubQos2Cq) (op : CqOp) : Decidable (HeadUnlog cq op) := by
  cases op <;> unfold HeadUnlog <;> infer_instance

theorem headUnlog_cons {cq : PubQos2Cq} {hd : UInt16} {q : List UInt16} (h : Rep cq (hd :: q))
    (id : UInt16) : HeadUnlog cq (.unlog id) ↔ id = hd := by
  have hlt : cq.nFree < maxPubrelInflt := by have := h.room; simp at this; omega
  have hcell := h.cells 0 (by simp)
  rw [Nat.add_zero, Nat.mod_eq_of_lt h.rd] at hcell
  simp only [HeadUnlog, hlt, forall_const, hcell]
  simp [eq_comm]

theorem cqStep_simulates : Simulates cqStep Fifo.step Rep HeadUnlog where
  step {cq q op} h hc := by
    cases op with
    | logup id => exact logup_rep h id
    | check id => exact ⟨cq, by simp [cqStep, check_rep h, Fifo.step], h⟩
    | unlog id =>
      cases q with
      | nil => exact ⟨cq, by simp [cqStep, unlog_empty h, Fifo.step, Fifo.unlog], h⟩
      | cons hd q =>
        obtain rfl := (headUnlog_cons h id).1 hc
        have hspec : Fifo.step (id :: q) (.unlog id) = (q, true) := by
          simp [Fifo.step, Fifo.unlog]
        rw [hspec]
        exact ⟨_, by simp [cqStep, unlog_cons h], rep_tail h⟩

/-- A mismatched unlog leaves a queue that represents no FIFO contents of the same length: its
read index has drifted against its write index, or has left the array. -/
theorem not_rep_of_mismatch {cq : PubQos2Cq} {hd : UInt16} {q : List UInt16}
    (h : Rep cq (hd :: q)) (q' : List UInt16) : ¬ Rep { cq with rdIdx := cq.rdIdx + 1 } q' := by
  intro h'
  have h1 := h.room
  have h2 := h'.room
  have h3 := h.wr
  have h4 := h'.wr
  have h5 := h'.rd
  simp only [List.length_cons, maxPubrelInflt] at *
  omega

/-- **The identifier queue is a bounded FIFO, as far as unlogs are made in order.** Every run
whose unlogs name the head of a non-empty queue returns the FIFO's answers and ends with the
FIFO's contents on record and the indices inside the array; and from a queue holding `q` a
single call keeps that correspondence exactly when it meets the condition. -/
theorem cq_refines_fifo (ops : List CqOp) :
    (Meets cqStep HeadUnlog qos2PubCqReset ops →
      ∃ cq, runs cqStep qos2PubCqReset ops = some (cq, (specRuns Fifo.step [] ops).2) ∧
        cq.recorded = (specRuns Fifo.step [] ops).1 ∧ InArray cq) ∧
    ∀ cq q, Rep cq q → ∀ op,
      (∃ cq', cqStep cq op = some (cq', (Fifo.step q op).2) ∧ Rep cq' (Fifo.step q op).1) ↔
        HeadUnlog cq op := by
  refine ⟨fun hops => ?_, fun cq q h op => ⟨fun ⟨cq', hs, hr⟩ => ?_, cqStep_simulates.step h⟩⟩
  · obtain ⟨cq, hrun, hrep⟩ := cqStep_simulates.run rep_reset hops
    exact ⟨cq, hrun, hrep.recorded, hrep.inArray⟩
  · cases op with
    | logup id => trivial
    | check id => trivial
    | unlog id =>
      cases q with
      | nil =>
        have := h.room
        simp only [List.length_nil] at this
        exact fun hlt => absurd hlt (by omega)
      | cons hd q =>
        refine (headUnlog_cons h id).2 (Classical.byContradiction fun hne => ?_)
        simp only [cqStep, unlog_cons h, hne, ↓reduceIte, Option.some.injEq, Prod.mk.injEq] at hs
        obtain ⟨rfl, -⟩ := hs
        exact not_rep_of_mismatch h _ hr

theorem cq_refines_fifo_in_order :
    ∃ cq, runs cqStep qos2PubCqReset [.logup 1, .logup 2, .unlog 1, .check 2] =
        some (cq, [true, true, true, true]) ∧ cq.recorded = [2] ∧ InArray cq :=
  (cq_refines_fifo [.logup 1, .logup 2, .unlog 1, .check 2]).1 (by decide)

/-- Unlogging 2 while 1 is at the head is refused, and yet identifier 1 is forgotten. -/
theorem unlog_out_of_order_forgets :
    (runs cqStep qos2PubCqReset [.logup 1, .logup 2, .unlog 2, .check 1]).map Prod.snd ≠
      some (specRuns Fifo.step [] [.logup 1, .logup 2, .unlog 2, .check 1]).2 := by
  decide

end SimpleLink.Mqtt
