import Mathlib.Data.List.Basic
import Mathlib.Data.UInt

/-!
# Reads and writes of a file in chunks

`sl_FsRead` and `sl_FsWrite` are one loop: a command for each chunk of
`MAX_NVMEM_CHUNK_SIZE` bytes. Offset, pointer and remaining length go on by the
chunk that was asked for; the count goes on by the status of the response, the
number of bytes that the device has moved. `moved` are the bytes of the file and
the bytes of the buffer that a run brings together, in order.
-/

namespace SimpleLink.Driver

/-! ## The loop -/

/-- `MAX_NVMEM_CHUNK_SIZE` -/
def maxNvmemChunkSize : Nat := 1460

/-- The value of an `_i32`. -/
def toI32 (n : Int) : Int := n.bmod (2 ^ 32)

theorem toI32_add (m n : Int) : toI32 (toI32 m + n) = toI32 (m + n) := by
  simp only [toI32, Int.bmod_add_bmod]

theorem toI32_of_lt {n : Nat} (h : n < 2 ^ 31) : toI32 n = n := by
  rw [toI32]
  exact Int.bmod_eq_of_le (by omega) (by omega)

theorem toI32_neg {n : Nat} (h : 2 ^ 31 ≤ n) (hn : n < 2 ^ 32) : toI32 n < 0 := by
  simp only [toI32, Int.bmod_def]
  omega

@[simp] theorem toI32_zero : toI32 0 = 0 := toI32_of_lt (n := 0) (by omega)

attribute [irreducible] toI32

/-- A command, and how far from `pData` its payload pointer is. -/
structure FsCmd where
  opcode : Nat
  fileHandle : Int
  offset : Nat
  len : Nat
  ptr : Nat

/-- `_SlDrvCmdOp` fails, or the device responds. -/
inductive FsRsp where
  | failed (retVal : Int)
  | status (status : Int)

/-- The local variables of the loop. -/
@[ext]
structure FsLoop where
  offset : Nat
  len : Nat
  chunkLen : Nat
  ptr : Nat
  retCount : Int

/-- `(_u16)sl_min(MAX_NVMEM_CHUNK_SIZE, Len)` -/
def fsChunkLen (len : Nat) : Nat := min maxNvmemChunkSize len % 65536

def fsLoopInit (offset len : Nat) : FsLoop := ⟨offset, len, fsChunkLen len, 0, 0⟩

def FsLoop.cmd (s : FsLoop) (opcode : Nat) (fileHdl : Int) : FsCmd :=
  ⟨opcode, fileHdl, s.offset, s.chunkLen, s.ptr⟩

def FsLoop.next (s : FsLoop) (status : Int) : FsLoop where
  offset := (s.offset + s.chunkLen) % 2 ^ 32
  len := s.len - s.chunkLen
  chunkLen := fsChunkLen (s.len - s.chunkLen)
  ptr := s.ptr + s.chunkLen
  retCount := toI32 (s.retCount + status)

/-- The `do … while (ChunkLen > 0)` from the `n`-th command on: the commands with their responses,
and what is returned. -/
def fsLoop (opcode : Nat) (fileHdl : Int) (rsps : Nat → FsRsp) :
    Nat → Nat → FsLoop → Option (List (FsCmd × FsRsp) × Int)
  | 0, _, _ => none
  | fuel + 1, n, s =>
    let exchange := (s.cmd opcode fileHdl, rsps n)
    match rsps n with
    | .failed retVal => some ([exchange], retVal)
    | .status status =>
      if status < 0 then
        some ([exchange], if s.retCount > 0 then s.retCount else status)
      else if (s.next status).chunkLen > 0 then
        (fsLoop opcode fileHdl rsps fuel (n + 1) (s.next status)).map fun r =>
          (exchange :: r.1, r.2)
      else some ([exchange], (s.next status).retCount)

def slOpcodeNvmemFileReadCommand : Nat := 0xA440

def slOpcodeNvmemFileWriteCommand : Nat := 0xA441

/-- `sl_FsRead`, over the responses to its commands. -/
def slFsRead (fileHdl : Int) (offset len : Nat) (rsps : Nat → FsRsp) (fuel : Nat) :
    Option (List (FsCmd × FsRsp) × Int) :=
  fsLoop slOpcodeNvmemFileReadCommand fileHdl rsps fuel 0 (fsLoopInit offset len)

/-- `sl_FsWrite`, over the responses to its commands. -/
def slFsWrite (fileHdl : Int) (offset len : Nat) (rsps : Nat → FsRsp) (fuel : Nat) :
    Option (List (FsCmd × FsRsp) × Int) :=
  fsLoop slOpcodeNvmemFileWriteCommand fileHdl rsps fuel 0 (fsLoopInit offset len)

/-! ## What is moved -/

def FsRsp.count : FsRsp → Nat
  | failed _ => 0
  | status s => s.toNat

def FsRsp.error : FsRsp → Option Int
  | failed retVal => some retVal
  | status s => if s < 0 then some s else none

/-- The positions in the file and in the buffer of the bytes that an exchange moves. -/
def fsMoves (c : FsCmd × FsRsp) : List (Nat × Nat) :=
  (List.range c.2.count).map fun i => (c.1.offset + i, c.1.ptr + i)

def moved (trace : List (FsCmd × FsRsp)) : List (Nat × Nat) := trace.flatMap fsMoves

/-- A run returns; no command reaches behind the buffer; it returns the error of its first chunk, with
nothing moved, or the number of bytes that it has moved, from `offset` on and in order. -/
def FsExact (run : Nat → Option (List (FsCmd × FsRsp) × Int)) (offset len : Nat)
    (rsps : Nat → FsRsp) : Prop :=
  ∃ trace v, (∀ fuel > len, run fuel = some (trace, v)) ∧ (∀ c ∈ trace, c.1.ptr + c.1.len ≤ len) ∧
    (((rsps 0).error = some v ∧ moved trace = []) ∨
      ∃ n : Nat, v = n ∧ moved trace = (List.range n).map fun i => (offset + i, i))

/-! ## The chunks -/

def fsChunks (len : Nat) : Nat := max 1 ((len + 1459) / 1460)

/-- The length of the `j`-th chunk. -/
def fsChunkAt (len j : Nat) : Nat := min 1460 (len - 1460 * j)

/-- The device answers a chunk with a status of its length at most, and an error of the driver is
negative. -/
structure FsDevice (len : Nat) (rsps : Nat → FsRsp) : Prop where
  status : ∀ j s, rsps j = .status s → s ≤ fsChunkAt len j
  failed : ∀ j r, rsps j = .failed r → r < 0

/-- What the first `k` responses add up to. -/
def fsTotal (rsps : Nat → FsRsp) : Nat → Nat
  | 0 => 0
  | k + 1 => fsTotal rsps k + (rsps k).count

/-- What the first `k` commands move. -/
def fsMovedUpTo (offset : Nat) (rsps : Nat → FsRsp) : Nat → List (Nat × Nat)
  | 0 => []
  | k + 1 => fsMovedUpTo offset rsps k ++
      (List.range (rsps k).count).map fun i => ((offset + 1460 * k) % 2 ^ 32 + i, 1460 * k + i)

@[simp] theorem fsChunkLen_eq (len : Nat) : fsChunkLen len = min 1460 len := by
  simp only [fsChunkLen, maxNvmemChunkSize]
  omega

theorem FsRsp.count_eq_zero {r : FsRsp} {e : Int} (h : r.error = some e) : r.count = 0 := by
  cases r with
  | failed retVal => rfl
  | status s =>
    simp only [error] at h
    split at h
    · simp only [count]
      omega
    · cases h

theorem FsDevice.count_le {len : Nat} {rsps : Nat → FsRsp} (h : FsDevice len rsps) (j : Nat) :
    (rsps j).count ≤ fsChunkAt len j := by
  cases hr : rsps j with
  | failed retVal => exact Nat.zero_le _
  | status s =>
    have hle := h.status j s hr
    simp only [FsRsp.count]
    omega

theorem fsTotal_le {len : Nat} {rsps : Nat → FsRsp} (h : FsDevice len rsps) (k : Nat) :
    fsTotal rsps k ≤ 1460 * k ∧ fsTotal rsps k ≤ len := by
  induction k with
  | zero => exact ⟨Nat.zero_le _, Nat.zero_le _⟩
  | succ k ih =>
    have hle := h.count_le k
    simp only [fsChunkAt] at hle
    simp only [fsTotal]
    omega

theorem fsTotal_mono (rsps : Nat → FsRsp) {j k : Nat} (h : j ≤ k) : fsTotal rsps j ≤ fsTotal rsps k := by
  induction h with
  | refl => exact Nat.le_refl _
  | step _ ih => exact Nat.le_trans ih (Nat.le_add_right _ _)

/-- The first `k` chunks are full if they add up to `k` full ones. -/
theorem fsTotal_eq_iff {len : Nat} {rsps : Nat → FsRsp} (h : FsDevice len rsps) (k : Nat) :
    fsTotal rsps k = 1460 * k ↔ ∀ i < k, (rsps i).count = 1460 := by
  induction k with
  | zero => simp [fsTotal]
  | succ k ih =>
    have hle := h.count_le k
    have htot := (fsTotal_le h k).1
    simp only [fsChunkAt] at hle
    simp only [fsTotal]
    constructor
    · intro heq i hi
      rcases Nat.lt_succ_iff_lt_or_eq.1 hi with hi | rfl
      · exact ih.1 (by omega) i hi
      · omega
    · intro hall
      have hk := ih.2 fun i hi => hall i (by omega)
      have hlast := hall k (by omega)
      omega

@[simp] theorem length_fsMovedUpTo (offset : Nat) (rsps : Nat → FsRsp) (k : Nat) :
    (fsMovedUpTo offset rsps k).length = fsTotal rsps k := by
  induction k with
  | zero => rfl
  | succ k ih => simp [fsMovedUpTo, fsTotal, ih]

/-! ## How a run ends -/

/-- The run ends after `k` chunks: it has done them all, or the next one fails. -/
inductive FsEnds (len : Nat) (rsps : Nat → FsRsp) (k : Nat) : Int → Prop where
  | done (hk : k = fsChunks len) : FsEnds len rsps k (toI32 (fsTotal rsps k))
  | failed {r : Int} (hk : k < fsChunks len) (hr : rsps k = .failed r) : FsEnds len rsps k r
  | status {s : Int} (hk : k < fsChunks len) (hr : rsps k = .status s) (hs : s < 0) :
      FsEnds len rsps k (if toI32 (fsTotal rsps k) > 0 then toI32 (fsTotal rsps k) else s)

/-- The variables before the `j`-th chunk. -/
def fsLoopAt (offset len : Nat) (rsps : Nat → FsRsp) (j : Nat) : FsLoop where
  offset := (offset + 1460 * j) % 2 ^ 32
  len := len - 1460 * j
  chunkLen := fsChunkAt len j
  ptr := 1460 * j
  retCount := toI32 (fsTotal rsps j)

theorem fsLoopInit_eq {offset : Nat} (h : offset < 2 ^ 32) (len : Nat) (rsps : Nat → FsRsp) :
    fsLoopInit offset len = fsLoopAt offset len rsps 0 := by
  rw [fsLoopInit, fsLoopAt, fsTotal, Nat.mul_zero, Nat.add_zero, Nat.mod_eq_of_lt h]
  simp [fsChunkAt]

theorem fsLoopAt_next_retCount {rsps : Nat → FsRsp} {j : Nat} {s : Int} (hr : rsps j = .status s)
    (hs : ¬ s < 0) (offset len : Nat) :
    ((fsLoopAt offset len rsps j).next s).retCount = toI32 (fsTotal rsps (j + 1)) := by
  have hcount : ((rsps j).count : Int) = s := by
    rw [hr]
    simp only [FsRsp.count]
    omega
  have hsum : ((fsTotal rsps (j + 1) : Nat) : Int) = fsTotal rsps j + s := by
    rw [← hcount]
    rfl
  rw [hsum, ← toI32_add]
  rfl

theorem fsLoopAt_next_chunkLen (offset len : Nat) (rsps : Nat → FsRsp) (j : Nat) (s : Int) :
    ((fsLoopAt offset len rsps j).next s).chunkLen = fsChunkAt len (j + 1) := by
  simp only [FsLoop.next, fsLoopAt, fsChunkAt, fsChunkLen_eq]
  omega

theorem fsLoopAt_next {rsps : Nat → FsRsp} {len j : Nat} {s : Int} (hr : rsps j = .status s)
    (hs : ¬ s < 0) (hmore : fsChunkAt len (j + 1) > 0) (offset : Nat) :
    (fsLoopAt offset len rsps j).next s = fsLoopAt offset len rsps (j + 1) := by
  have hfull : fsChunkAt len j = 1460 := by
    simp only [fsChunkAt] at hmore ⊢
    omega
  have hret := fsLoopAt_next_retCount hr hs offset len
  refine FsLoop.ext ?_ ?_ (fsLoopAt_next_chunkLen offset len rsps j s) ?_ hret
  · simp only [FsLoop.next, fsLoopAt, hfull]
    omega
  · simp only [FsLoop.next, fsLoopAt, hfull]
    omega
  · simp only [FsLoop.next, fsLoopAt, hfull]
    omega

theorem fsChunkAt_pos_iff {len j : Nat} : fsChunkAt len (j + 1) > 0 ↔ j + 1 < fsChunks len := by
  simp only [fsChunkAt, fsChunks]
  omega

theorem moved_cons (c : FsCmd × FsRsp) (trace : List (FsCmd × FsRsp)) :
    moved (c :: trace) = fsMoves c ++ moved trace := rfl

theorem moved_singleton (c : FsCmd × FsRsp) : moved [c] = fsMoves c := by
  simp [moved]

theorem fsMoves_of_error {c : FsCmd × FsRsp} {e : Int} (h : c.2.error = some e) :
    fsMoves c = [] := by
  rw [fsMoves, FsRsp.count_eq_zero h]
  rfl

/-- The exchange of the `j`-th chunk. -/
def fsExchangeAt (opcode : Nat) (fileHdl : Int) (offset len : Nat) (rsps : Nat → FsRsp) (j : Nat) :
    FsCmd × FsRsp :=
  ((fsLoopAt offset len rsps j).cmd opcode fileHdl, rsps j)

theorem fsExchangeAt_in {len j : Nat} (hj : j < fsChunks len) (opcode : Nat) (fileHdl : Int)
    (offset : Nat) (rsps : Nat → FsRsp) :
    (fsExchangeAt opcode fileHdl offset len rsps j).1.ptr +
      (fsExchangeAt opcode fileHdl offset len rsps j).1.len ≤ len := by
  simp only [fsExchangeAt, FsLoop.cmd, fsLoopAt, fsChunkAt]
  simp only [fsChunks] at hj
  omega

theorem fsMovedUpTo_succ (opcode : Nat) (fileHdl : Int) (offset len : Nat) (rsps : Nat → FsRsp)
    (j : Nat) : fsMovedUpTo offset rsps (j + 1) =
      fsMovedUpTo offset rsps j ++ fsMoves (fsExchangeAt opcode fileHdl offset len rsps j) := rfl

/-- The `j`-th chunk ends the run, or leads to the next one. -/
theorem fsLoop_step (opcode : Nat) (fileHdl : Int) (offset len : Nat) (rsps : Nat → FsRsp)
    {j : Nat} (hj : j < fsChunks len) :
    (∃ e v, (rsps j).error = some e ∧ FsEnds len rsps j v ∧ ∀ fuel,
        fsLoop opcode fileHdl rsps (fuel + 1) j (fsLoopAt offset len rsps j) =
          some ([fsExchangeAt opcode fileHdl offset len rsps j], v)) ∨
      ((rsps j).error = none ∧ ∀ fuel,
        fsLoop opcode fileHdl rsps (fuel + 1) j (fsLoopAt offset len rsps j) =
          if j + 1 < fsChunks len then
            (fsLoop opcode fileHdl rsps fuel (j + 1) (fsLoopAt offset len rsps (j + 1))).map fun r =>
              (fsExchangeAt opcode fileHdl offset len rsps j :: r.1, r.2)
          else
            some ([fsExchangeAt opcode fileHdl offset len rsps j],
              toI32 (fsTotal rsps (j + 1)))) := by
  cases hr : rsps j with
  | failed r =>
    refine .inl ⟨r, r, rfl, .failed hj hr, fun fuel => ?_⟩
    rw [fsLoop]
    simp only [hr, fsExchangeAt]
  | status s =>
    by_cases hs : s < 0
    · refine .inl ⟨s, _, if_pos hs, .status hj hr hs, fun fuel => ?_⟩
      rw [fsLoop]
      simp only [hr, if_pos hs, fsExchangeAt]
      rfl
    · refine .inr ⟨if_neg hs, fun fuel => ?_⟩
      rw [fsLoop]
      simp only [hr, if_neg hs]
      rw [fsLoopAt_next_chunkLen, fsLoopAt_next_retCount hr hs]
      by_cases hmore : fsChunkAt len (j + 1) > 0
      · rw [if_pos hmore, if_pos (fsChunkAt_pos_iff.1 hmore), fsLoopAt_next hr hs hmore]
        simp only [fsExchangeAt, hr]
      · rw [if_neg hmore, if_neg (fun h => hmore (fsChunkAt_pos_iff.2 h))]
        simp only [fsExchangeAt, hr]

/-- The run from the `j`-th chunk on returns, with fuel for the `m` chunks that are left. -/
theorem fsLoop_ends (opcode : Nat) (fileHdl : Int) (offset len : Nat) (rsps : Nat → FsRsp)
    (m j : Nat) (hm : j + m = fsChunks len) (hj : j < fsChunks len)
    (hok : ∀ i < j, (rsps i).error = none) :
    ∃ trace k v, (∀ fuel ≥ m,
        fsLoop opcode fileHdl rsps fuel j (fsLoopAt offset len rsps j) = some (trace, v)) ∧
      (∀ c ∈ trace, c.1.ptr + c.1.len ≤ len) ∧ (∀ i < k, (rsps i).error = none) ∧
      FsEnds len rsps k v ∧ fsMovedUpTo offset rsps j ++ moved trace = fsMovedUpTo offset rsps k := by
  induction m generalizing j with
  | zero => omega
  | succ m ih =>
    have hin := fsExchangeAt_in hj opcode fileHdl offset rsps
    have hmoved := fsMovedUpTo_succ opcode fileHdl offset len rsps j
    obtain ⟨e, v, he, hends, hrun⟩ | ⟨he, hrun⟩ := fsLoop_step opcode fileHdl offset len rsps hj
    · refine ⟨[fsExchangeAt opcode fileHdl offset len rsps j], j, v, ?_, ?_, hok, hends, ?_⟩
      · intro fuel hfuel
        obtain ⟨fuel, rfl⟩ := Nat.exists_eq_add_one_of_ne_zero (by omega : fuel ≠ 0)
        exact hrun fuel
      · simpa using hin
      · rw [moved_singleton, fsMoves_of_error he, List.append_nil]
    · have hok' : ∀ i < j + 1, (rsps i).error = none := by
        intro i hi
        rcases Nat.lt_succ_iff_lt_or_eq.1 hi with hi | rfl
        · exact hok i hi
        · exact he
      by_cases hmore : j + 1 < fsChunks len
      · obtain ⟨trace, k, v, htail, hins, hk, hends, hmoves⟩ := ih (j + 1) (by omega) hmore hok'
        refine ⟨fsExchangeAt opcode fileHdl offset len rsps j :: trace, k, v, ?_, ?_, hk, hends, ?_⟩
        · intro fuel hfuel
          obtain ⟨fuel, rfl⟩ := Nat.exists_eq_add_one_of_ne_zero (by omega : fuel ≠ 0)
          rw [hrun, if_pos hmore, htail fuel (by omega)]
          rfl
        · intro c hc
          rcases List.mem_cons.1 hc with rfl | hc
          · exact hin
          · exact hins c hc
        · rw [moved_cons, ← List.append_assoc, ← hmoved, hmoves]
      · refine ⟨[fsExchangeAt opcode fileHdl offset len rsps j], j + 1, _, ?_, ?_, hok',
          .done (by omega), ?_⟩
        · intro fuel hfuel
          obtain ⟨fuel, rfl⟩ := Nat.exists_eq_add_one_of_ne_zero (by omega : fuel ≠ 0)
          rw [hrun, if_neg hmore]
        · simpa using hin
        · rw [moved_singleton, hmoved]

/-! ## When a run is exact -/

/-- The bytes that `k` chunks move are the first ones of the range, each at its place, if no chunk
that moves anything comes after one that was not full, or at an offset beyond 32 bits. -/
theorem fsMovedUpTo_eq_iff {len : Nat} {rsps : Nat → FsRsp} (h : FsDevice len rsps) (offset k : Nat) :
    fsMovedUpTo offset rsps k = (List.range (fsTotal rsps k)).map (fun i => (offset + i, i)) ↔
      ∀ j < k, (rsps j).count ≠ 0 →
        (∀ i < j, (rsps i).count = 1460) ∧ offset + 1460 * j < 2 ^ 32 := by
  induction k with
  | zero => simp [fsMovedUpTo, fsTotal]
  | succ k ih =>
    have hchunk : ((List.range (rsps k).count).map fun i =>
        ((offset + 1460 * k) % 2 ^ 32 + i, 1460 * k + i)) =
          ((List.range (rsps k).count).map fun i =>
            (offset + (fsTotal rsps k + i), fsTotal rsps k + i)) ↔
        ((rsps k).count ≠ 0 → (∀ i < k, (rsps i).count = 1460) ∧ offset + 1460 * k < 2 ^ 32) := by
      rw [← fsTotal_eq_iff h]
      constructor
      · intro heq hne
        have hzero := List.map_eq_map_iff.1 heq 0 (List.mem_range.2 (by omega))
        obtain ⟨hfile, hbuf⟩ := Prod.mk.inj hzero
        omega
      · intro hcond
        refine List.map_congr_left fun i hi => ?_
        have hpos := List.mem_range.1 hi
        obtain ⟨htot, hoff⟩ := hcond (by omega)
        rw [htot, Nat.mod_eq_of_lt hoff, Nat.add_assoc]
    have hsplit : (List.range (fsTotal rsps (k + 1))).map (fun i => (offset + i, i)) =
        (List.range (fsTotal rsps k)).map (fun i => (offset + i, i)) ++
          (List.range (rsps k).count).map fun i =>
            (offset + (fsTotal rsps k + i), fsTotal rsps k + i) := by
      rw [fsTotal, List.range_add, List.map_append, List.map_map]
      rfl
    have hlen : (fsMovedUpTo offset rsps k).length =
        ((List.range (fsTotal rsps k)).map fun i => (offset + i, i)).length := by simp
    rw [fsMovedUpTo, hsplit]
    constructor
    · intro heq
      obtain ⟨hpre, hlast⟩ := List.append_inj heq hlen
      rw [ih] at hpre
      rw [hchunk] at hlast
      intro j hj
      rcases Nat.lt_succ_iff_lt_or_eq.1 hj with hj | rfl
      · exact hpre j hj
      · exact hlast
    · intro hall
      rw [ih.2 fun j hj => hall j (by omega), hchunk.2 (hall k (by omega))]

/-- No chunk that moves anything comes after one that was not full, or at an offset beyond 32 bits;
the count stays below 2 ^ 31; and an error comes first, or is a status that is given up for the
bytes moved before it. All of this is about the chunks before the first error. -/
structure FsRegular (offset len : Nat) (rsps : Nat → FsRsp) : Prop where
  full : ∀ k ≤ fsChunks len, (∀ i < k, (rsps i).error = none) → ∀ j < k, (rsps j).count ≠ 0 →
    (∀ i < j, (rsps i).count = 1460) ∧ offset + 1460 * j < 2 ^ 32
  count : ∀ k ≤ fsChunks len, (∀ i < k, (rsps i).error = none) → fsTotal rsps k < 2 ^ 31
  error : ∀ k < fsChunks len, (∀ i < k, (rsps i).error = none) → (rsps k).error ≠ none →
    k = 0 ∨ (0 < fsTotal rsps k ∧ ∃ s, rsps k = .status s)

theorem FsEnds.le {len k : Nat} {rsps : Nat → FsRsp} {v : Int} (h : FsEnds len rsps k v) :
    k ≤ fsChunks len := by
  cases h with
  | done hk => omega
  | failed hk hr => omega
  | status hk hr hs => omega

theorem FsEnds.ge {len k : Nat} {rsps : Nat → FsRsp} {v : Int} (h : FsEnds len rsps k v) {k' : Nat}
    (hle : k' ≤ fsChunks len) (hok : ∀ i < k', (rsps i).error = none) : k' ≤ k := by
  by_contra hlt
  have hnone := hok k (by omega)
  cases h with
  | done hk => omega
  | failed hk hr =>
    rw [hr] at hnone
    cases hnone
  | status hk hr hs =>
    rw [hr, FsRsp.error, if_pos hs] at hnone
    cases hnone

theorem FsEnds.of_count {len k n : Nat} {rsps : Nat → FsRsp} (h : FsDevice len rsps)
    (hlen : len < 2 ^ 32) (hends : FsEnds len rsps k n) (hn : fsTotal rsps k = n) :
    n < 2 ^ 31 ∧ (k < fsChunks len → 0 < n ∧ ∃ s, rsps k = .status s) := by
  have hle := (fsTotal_le h k).2
  have hneg : ¬ n < 2 ^ 31 → toI32 n < 0 := fun hge => toI32_neg (by omega) (by omega)
  generalize hv : (n : Int) = v at hends
  cases hends with
  | done hk =>
    rw [hn] at hv
    exact ⟨by by_contra hge; have := hneg hge; omega, by omega⟩
  | failed hk hr =>
    have hr' := h.failed k _ hr
    omega
  | @status s hk hr hs =>
    rw [hn] at hv
    by_cases hpos : toI32 n > 0
    · rw [if_pos hpos] at hv
      exact ⟨by by_contra hge; have := hneg hge; omega, fun _ => ⟨by omega, s, hr⟩⟩
    · rw [if_neg hpos] at hv
      omega

theorem fsExact_iff {len : Nat} {rsps : Nat → FsRsp} (h : FsDevice len rsps) (opcode : Nat)
    (fileHdl : Int) {offset : Nat} (hoff : offset < 2 ^ 32) (hlen : len < 2 ^ 32) :
    FsExact (fun fuel => fsLoop opcode fileHdl rsps fuel 0 (fsLoopInit offset len)) offset len rsps ↔
      FsRegular offset len rsps := by
  have hchunks : fsChunks len ≤ len + 1 ∧ 0 < fsChunks len := by
    simp only [fsChunks]
    omega
  obtain ⟨trace, k, v, hrun, hin, hok, hends, hmoved⟩ :=
    fsLoop_ends opcode fileHdl offset len rsps (fsChunks len) 0 (Nat.zero_add _) hchunks.2
      (fun i hi => absurd hi (Nat.not_lt_zero i))
  rw [← fsLoopInit_eq hoff] at hrun
  have hmoved : moved trace = fsMovedUpTo offset rsps k := hmoved
  constructor
  · rintro ⟨trace', v', hrun', -, hres⟩
    have heq := (hrun' (len + 1) (by omega)).symm.trans (hrun (len + 1) (by omega))
    cases heq
    rcases hres with ⟨herr, -⟩ | ⟨n, rfl, hmoves⟩
    · -- nothing comes before an error of the first chunk
      have hzero : ∀ k' ≤ fsChunks len, (∀ i < k', (rsps i).error = none) → k' = 0 := by
        intro k' _ hok'
        by_contra hne
        have hnone := hok' 0 (by omega)
        rw [herr] at hnone
        cases hnone
      constructor
      · intro k' hle hok' j hj
        have := hzero k' hle hok'
        omega
      · intro k' hle hok'
        rw [hzero k' hle hok', fsTotal]
        omega
      · intro k' hlt hok' _
        exact .inl (hzero k' (by omega) hok')
    · have hn : fsTotal rsps k = n := by
        have hlen := congrArg List.length (hmoved.symm.trans hmoves)
        simpa using hlen
      obtain ⟨hcount, herror⟩ := hends.of_count h hlen hn
      rw [hmoved, ← hn, fsMovedUpTo_eq_iff h] at hmoves
      constructor
      · intro k' hle hok' j hj
        exact hmoves j (Nat.lt_of_lt_of_le hj (hends.ge hle hok'))
      · intro k' hle hok'
        have hmono := fsTotal_mono rsps (hends.ge hle hok')
        omega
      · intro k' hlt hok' hne
        have hk' : k' = k := by
          have hge := hends.ge (Nat.le_of_lt hlt) hok'
          by_contra hne'
          exact hne (hok k' (by omega))
        subst hk'
        rw [hn]
        exact .inr (herror hlt)
  · intro hreg
    have hfull := (fsMovedUpTo_eq_iff h offset k).2 (hreg.full k hends.le hok)
    have hcount := hreg.count k hends.le hok
    refine ⟨trace, v, fun fuel hfuel => hrun fuel (by omega), hin, ?_⟩
    cases hends with
    | done hk => exact .inr ⟨fsTotal rsps k, toI32_of_lt hcount, hmoved.trans hfull⟩
    | failed hk hr =>
      rcases hreg.error k hk hok (by rw [hr]; exact Option.some_ne_none _) with rfl | ⟨-, s, hs⟩
      · exact .inl ⟨by rw [hr]; rfl, hmoved⟩
      · cases hr.symm.trans hs
    | @status s hk hr hs =>
      have herr : (rsps k).error = some s := by rw [hr, FsRsp.error, if_pos hs]
      rcases hreg.error k hk hok (by rw [herr]; exact Option.some_ne_none _) with rfl | ⟨hpos, -⟩
      · refine .inl ⟨?_, hmoved⟩
        rw [herr, fsTotal]
        simp
      · refine .inr ⟨fsTotal rsps k, ?_, hmoved.trans hfull⟩
        rw [toI32_of_lt hcount, if_pos (by omega)]

/-- **Exactly when a count is true**, for both directions and every sequence of responses. -/
theorem fs_counts_iff {len : Nat} {rsps : Nat → FsRsp} (h : FsDevice len rsps) (fileHdl : Int)
    {offset : Nat} (hoff : offset < 2 ^ 32) (hlen : len < 2 ^ 32) :
    (FsExact (slFsRead fileHdl offset len rsps) offset len rsps ↔ FsRegular offset len rsps) ∧
      (FsExact (slFsWrite fileHdl offset len rsps) offset len rsps ↔ FsRegular offset len rsps) :=
  ⟨fsExact_iff h slOpcodeNvmemFileReadCommand fileHdl hoff hlen,
    fsExact_iff h slOpcodeNvmemFileWriteCommand fileHdl hoff hlen⟩

def fsFull (len j : Nat) : FsRsp := .status (fsChunkAt len j)

theorem fsDevice_full (len : Nat) : FsDevice len (fsFull len) where
  status j s hr := by
    cases hr
    exact Int.le_refl _
  failed j r hr := nomatch hr

theorem fsRegular_full {offset len : Nat} (hoff : offset + len < 2 ^ 32) (hlen : len < 2 ^ 31) :
    FsRegular offset len (fsFull len) := by
  constructor
  · intro k hk _ j hj hne
    have hpos : fsChunkAt len j ≠ 0 := hne
    simp only [fsChunkAt] at hpos
    refine ⟨fun i hi => ?_, by omega⟩
    show fsChunkAt len i = 1460
    simp only [fsChunkAt]
    omega
  · intro k _ _
    have hle := (fsTotal_le (fsDevice_full len) k).2
    omega
  · intro k _ _ hne
    have hnone : (fsFull len k).error = none := by
      simp only [fsFull, FsRsp.error]
      exact if_neg (by omega)
    exact absurd hnone hne

/-- 3000 bytes in three full chunks. -/
theorem fs_counts_full :
    FsExact (slFsRead 1 64 3000 (fsFull 3000)) 64 3000 (fsFull 3000) ∧
      FsExact (slFsWrite 1 64 3000 (fsFull 3000)) 64 3000 (fsFull 3000) :=
  have hcounts := fs_counts_iff (fsDevice_full 3000) 1 (by omega : 64 < 2 ^ 32) (by omega)
  have hreg := fsRegular_full (by omega : 64 + 3000 < 2 ^ 32) (by omega)
  ⟨hcounts.1.2 hreg, hcounts.2.2 hreg⟩

def fsShort : Nat → FsRsp
  | 0 => .status 700
  | 1 => .status 1460
  | _ => .status 0

theorem fsDevice_short : FsDevice 2920 fsShort where
  status j s hr := by
    rcases j with _ | _ | j
    · cases hr
      decide
    · cases hr
      decide
    · cases hr
      omega
  failed j r hr := by
    rcases j with _ | _ | j <;> cases hr

/-- A short chunk is followed by the next one: 2160 is returned, and the bytes from 700 to 1459 of
the buffer are not those of the file. -/
theorem fs_short_not_exact : ¬ FsExact (slFsRead 1 0 2920 fsShort) 0 2920 fsShort := by
  intro hexact
  have hreg := (fsExact_iff fsDevice_short slOpcodeNvmemFileReadCommand 1 (by omega) (by omega)).1
    hexact
  have hok : ∀ i < 2, (fsShort i).error = none := by decide
  have hfirst := (hreg.full 2 (by decide) hok 1 (by omega) (by decide)).1 0 (by omega)
  exact absurd hfirst (by decide)

end SimpleLink.Driver
