import Mathlib.Data.List.Basic
import Mathlib.Logic.Function.Basic
import SimpleLink.Lib.Run

/-!
# The link to the network processor (`cc_pal.c`)

Words of 32 bits go out and come in over SPI at the same time, one for one. `spi_Read` and `spi_Write` move
them with the processor, or with a DMA transfer and its completion. A transfer that has no words or more
than the controller can count has no defined outcome, and neither has waiting for a completion that does
not come.
-/

namespace SimpleLink.Driver.SpiTransfer

open Lib

abbrev dmaBuffSizeMin : Nat := 100
abbrev maxDmaRecvTransactionSize : Nat := 4000
/-- The items that a transfer of the controller can have. -/
abbrev maxItems : Nat := 1024

/-! ## Words -/

/-- The memory, the words that come in, in order, and those that have gone out. -/
structure Bus where
  mem : Nat → UInt8
  rx : Nat → UInt32
  sent : List UInt32

def load32 (mem : Nat → UInt8) (pos : Nat) : UInt32 :=
  (mem pos).toUInt32 ||| ((mem (pos + 1)).toUInt32 <<< 8) ||| ((mem (pos + 2)).toUInt32 <<< 16) |||
    ((mem (pos + 3)).toUInt32 <<< 24)

def store32 (mem : Nat → UInt8) (pos : Nat) (w : UInt32) : Nat → UInt8 := fun a =>
  if a = pos then w.toUInt8
  else if a = pos + 1 then (w >>> 8).toUInt8
  else if a = pos + 2 then (w >>> 16).toUInt8
  else if a = pos + 3 then (w >>> 24).toUInt8
  else mem a

def Bus.incoming (b : Bus) : UInt32 := b.rx b.sent.length

/-- `out` goes out, and what comes in is put at `pos`. -/
def readWord (b : Bus) (pos : Nat) (out : UInt32) : Bus :=
  { b with mem := store32 b.mem pos b.incoming, sent := b.sent ++ [out] }

/-- The word at `pos` goes out, and what comes in is dropped. -/
def writeWord (b : Bus) (pos : Nat) : Bus := { b with sent := b.sent ++ [load32 b.mem pos] }

def readWords (b : Bus) (pos : Nat) (out : UInt32) : Nat → Bus
  | 0 => b
  | n + 1 => readWords (readWord b pos out) (pos + 4) out n

def writeWords (b : Bus) (pos : Nat) : Nat → Bus
  | 0 => b
  | n + 1 => writeWords (writeWord b pos) (pos + 4) n

theorem readWords_add (m n : Nat) (out : UInt32) (b : Bus) (pos : Nat) :
    readWords b pos out (m + n) = readWords (readWords b pos out m) (pos + 4 * m) out n := by
  induction m generalizing b pos with
  | zero =>
    rw [Nat.zero_add]
    rfl
  | succ m ih =>
    rw [Nat.add_right_comm, readWords, ih, show pos + 4 + 4 * m = pos + 4 * (m + 1) by omega]
    rfl

theorem length_sent_readWords (n : Nat) (out : UInt32) (b : Bus) (pos : Nat) :
    (readWords b pos out n).sent.length = b.sent.length + n := by
  induction n generalizing b pos with
  | zero => rfl
  | succ n ih =>
    have hone : (readWord b pos out).sent.length = b.sent.length + 1 := List.length_append
    rw [readWords, ih, hone]
    omega

theorem length_sent_writeWords (n : Nat) (b : Bus) (pos : Nat) :
    (writeWords b pos n).sent.length = b.sent.length + n := by
  induction n generalizing b pos with
  | zero => rfl
  | succ n ih =>
    have hone : (writeWord b pos).sent.length = b.sent.length + 1 := List.length_append
    rw [writeWords, ih, hone]
    omega

/-! ## The port -/

/-- `started` are the word counts of the transfers so far, `raised` how many have said that they are done, and
`waited` how many were waited for. -/
structure Port where
  bus : Bus
  gSpiFd : Int
  gUcDMAEnabled : Bool
  gUcDinDout : Fin 20 → UInt32
  started : List Nat
  raised : Nat
  waited : Nat

/-- `spi_Open`. -/
def spiOpen (bus : Bus) (dmaEnabled : Bool) : Port where
  bus := bus
  gSpiFd := 1
  gUcDMAEnabled := dmaEnabled
  gUcDinDout := fun _ => if dmaEnabled then 0xFFFFFFFF else 0
  started := []
  raised := 0
  waited := 0

/-- The controller has moved `items` words, and says that it is done. -/
def Port.moved (p : Port) (items : Nat) (bus : Bus) (dinDout : Fin 20 → UInt32) : Option Port :=
  if 0 < items ∧ items ≤ maxItems then
    some { p with bus := bus, gUcDinDout := dinDout, started := p.started ++ [items], raised := p.raised + 1 }
  else none

/-- `SetupDMAReceive`, and the chip select. -/
def setupDMAReceive (p : Port) (ucBuff len : Nat) : Option Port :=
  p.moved (len / 4) (readWords p.bus ucBuff (p.gUcDinDout 5) (len / 4)) p.gUcDinDout

/-- `SetupDMASend`, and the chip select: the words that come in are put in one place, one over the other. -/
def setupDMASend (p : Port) (ucBuff len : Nat) : Option Port :=
  p.moved (len / 4) (writeWords p.bus ucBuff (len / 4))
    (Function.update p.gUcDinDout 15 (p.bus.rx (p.bus.sent.length + len / 4 - 1)))

/-- `osi_MsgQRead` of the queue of completions. -/
def waitDone (p : Port) : Option Port :=
  if p.waited < p.raised then some { p with waited := p.waited + 1 } else none

/-- `(len + 3) >> 2`, of a signed number, as an unsigned one. -/
def wordCount (len : Nat) : Nat :=
  let sum : Int := if len + 3 < 2 ^ 31 then len + 3 else len + 3 - 2 ^ 32
  ((sum / 4) % 2 ^ 32).toNat

def spiReadCPU (p : Port) (pBuff len : Nat) : Port × Int :=
  ({ p with bus := readWords p.bus pBuff 0xFFFFFFFF (wordCount len) }, len)

def spiWriteCPU (p : Port) (pBuff len : Nat) : Port × Int :=
  ({ p with bus := writeWords p.bus pBuff (wordCount len) }, len)

/-- One turn of the loop of `spi_Read`. -/
def readTransaction (p : Port) (pBuff len : Nat) : Option Port :=
  match setupDMAReceive p pBuff len with
  | none => none
  | some p => waitDone p

/-- The loop of `spi_Read`. -/
def readLoop (p : Port) (pBuff readSize len : Nat) : Option (Port × Int) :=
  if len = 0 then some (p, readSize)
  else if len < maxDmaRecvTransactionSize then
    match readTransaction p (pBuff + readSize) len with
    | none => none
    | some p => some (p, readSize + len)
  else
    match readTransaction p (pBuff + readSize) maxDmaRecvTransactionSize with
    | none => none
    | some p => readLoop p pBuff (readSize + maxDmaRecvTransactionSize) (len - maxDmaRecvTransactionSize)
termination_by len
decreasing_by
  unfold maxDmaRecvTransactionSize at *
  omega

def Port.dma (p : Port) (pBuff : UInt32) (len : Nat) : Bool :=
  decide (dmaBuffSizeMin < len) && p.gUcDMAEnabled && decide (pBuff.toNat % 4 = 0)

def spiRead (p : Port) (fd : Int) (pBuff : UInt32) (len : Nat) : Option (Port × Int) :=
  if fd ≠ 1 ∨ p.gSpiFd ≠ 1 then some (p, -1)
  else if p.dma pBuff len then readLoop p pBuff.toNat 0 len
  else some (spiReadCPU p pBuff.toNat len)

def spiWrite (p : Port) (fd : Int) (pBuff : UInt32) (len : Nat) : Option (Port × Int) :=
  if fd ≠ 1 ∨ p.gSpiFd ≠ 1 then some (p, -1)
  else if p.dma pBuff len then
    match setupDMASend p pBuff.toNat len with
    | none => none
    | some p =>
      match waitDone p with
      | none => none
      | some p => some (p, len)
  else some (spiWriteCPU p pBuff.toNat len)

/-- A call for an open port. -/
structure Request where
  read : Bool
  pBuff : UInt32
  len : Nat
  len_lt : len < 2 ^ 31

def transfer (p : Port) (r : Request) : Option (Port × Int) :=
  if r.read then spiRead p 1 r.pBuff r.len else spiWrite p 1 r.pBuff r.len

/-! ## What is expected -/

/-- `n` words, to the buffer or from it. -/
def Request.words (r : Request) (b : Bus) (n : Nat) : Bus :=
  if r.read then readWords b r.pBuff.toNat 0xFFFFFFFF n else writeWords b r.pBuff.toNat n

/-- All words are exchanged, the length is returned, and each transfer that was started is one that the
controller can do and was waited for. -/
def Exchanges (p : Port) (r : Request) : Prop :=
  ∃ p', transfer p r = some (p', (r.len : Int)) ∧ p'.bus = r.words p.bus ((r.len + 3) / 4) ∧
    ∃ items, p'.started = p.started ++ items ∧ (∀ n ∈ items, 0 < n ∧ n ≤ maxItems) ∧
      p'.raised = p.raised + items.length ∧ p'.waited = p.waited + items.length

/-- With the DMA whole words, and no more of them to write than a transfer can have; without, a length that can be
rounded up. -/
def Cond (p : Port) (r : Request) : Prop :=
  if p.dma r.pBuff r.len then r.len % 4 = 0 ∧ (r.read = false → r.len ≤ 4 * maxItems)
  else r.len + 3 < 2 ^ 31

/-! ## The transfers -/

/-- The port is open, and no completion is left. -/
structure Ready (p : Port) : Prop where
  opened : p.gSpiFd = 1
  ones : p.gUcDMAEnabled = true → p.gUcDinDout 5 = 0xFFFFFFFF
  idle : p.raised = p.waited

theorem ready_open (bus : Bus) (dmaEnabled : Bool) : Ready (spiOpen bus dmaEnabled) where
  opened := rfl
  ones := fun h => if_pos h
  idle := rfl

/-- `p'` comes of `p` by transfers that the controller can do, which were waited for. -/
structure Transferred (p p' : Port) (bus : Bus) : Prop where
  bus : p'.bus = bus
  opened : p'.gSpiFd = p.gSpiFd
  enabled : p'.gUcDMAEnabled = p.gUcDMAEnabled
  ones : p'.gUcDinDout 5 = p.gUcDinDout 5
  counts : ∃ items, p'.started = p.started ++ items ∧ (∀ n ∈ items, 0 < n ∧ n ≤ maxItems) ∧
    p'.raised = p.raised + items.length ∧ p'.waited = p.waited + items.length

theorem Transferred.refl (p : Port) (bus : Bus) : Transferred p { p with bus := bus } bus where
  bus := rfl
  opened := rfl
  enabled := rfl
  ones := rfl
  counts := ⟨[], (List.append_nil _).symm, nofun, rfl, rfl⟩

theorem Transferred.trans {p p' p'' : Port} {bus bus' : Bus} (h : Transferred p p' bus) (h' : Transferred p' p'' bus') :
    Transferred p p'' bus' := by
  obtain ⟨items, hstarted, hitems, hraised, hwaited⟩ := h.counts
  obtain ⟨items', hstarted', hitems', hraised', hwaited'⟩ := h'.counts
  refine ⟨h'.bus, h'.opened.trans h.opened, h'.enabled.trans h.enabled, h'.ones.trans h.ones, items ++ items', ?_, ?_,
    ?_, ?_⟩
  · rw [hstarted', hstarted, List.append_assoc]
  · intro n hn
    rcases List.mem_append.1 hn with hn | hn
    · exact hitems n hn
    · exact hitems' n hn
  · rw [hraised', hraised, List.length_append, Nat.add_assoc]
  · rw [hwaited', hwaited, List.length_append, Nat.add_assoc]

theorem Transferred.ready {p p' : Port} {bus : Bus} (h : Transferred p p' bus) (hp : Ready p) : Ready p' where
  opened := h.opened.trans hp.opened
  ones := fun hen => h.ones.trans (hp.ones (h.enabled.symm.trans hen))
  idle := by
    obtain ⟨items, -, -, hraised, hwaited⟩ := h.counts
    rw [hraised, hwaited, hp.idle]

theorem moved_waited {p : Port} (hp : Ready p) {items : Nat} (bus : Bus) {dinDout : Fin 20 → UInt32}
    (hdin : dinDout 5 = p.gUcDinDout 5) (hitems : 0 < items ∧ items ≤ maxItems) :
    ∃ p₁ p', p.moved items bus dinDout = some p₁ ∧ waitDone p₁ = some p' ∧ Transferred p p' bus := by
  refine ⟨_, _, if_pos hitems, if_pos ?_, rfl, rfl, rfl, hdin, [items], rfl, ?_, rfl, rfl⟩
  · show p.waited < p.raised + 1
    rw [hp.idle]
    exact Nat.lt_succ_self _
  · intro n hn
    rwa [List.mem_singleton.1 hn]

theorem moved_bus {p p' : Port} {items : Nat} {bus : Bus} {dinDout : Fin 20 → UInt32}
    (h : p.moved items bus dinDout = some p') : (0 < items ∧ items ≤ maxItems) ∧ p'.bus = bus := by
  unfold Port.moved at h
  split at h
  · rename_i hitems
    cases h
    exact ⟨hitems, rfl⟩
  · cases h

theorem waitDone_bus {p p' : Port} (h : waitDone p = some p') : p'.bus = p.bus := by
  unfold waitDone at h
  split at h
  · cases h
    rfl
  · cases h

/-! ## Reading -/

/-- One turn of the loop of `spi_Read`. -/
theorem readTransaction_some {p : Port} (hp : Ready p) (pBuff : Nat) {len : Nat} (hlen : 4 ≤ len)
    (hle : len ≤ maxDmaRecvTransactionSize) :
    ∃ p', readTransaction p pBuff len = some p' ∧
      Transferred p p' (readWords p.bus pBuff (p.gUcDinDout 5) (len / 4)) := by
  have hitems : 0 < len / 4 ∧ len / 4 ≤ maxItems := by
    unfold maxItems
    unfold maxDmaRecvTransactionSize at hle
    omega
  obtain ⟨p₁, p', hmoved, hwait, htr⟩ :=
    moved_waited hp (readWords p.bus pBuff (p.gUcDinDout 5) (len / 4)) rfl hitems
  refine ⟨p', ?_, htr⟩
  unfold readTransaction setupDMAReceive
  rw [hmoved]
  exact hwait

theorem readTransaction_sent {p p' : Port} {pBuff len : Nat} (h : readTransaction p pBuff len = some p') :
    p'.bus.sent.length = p.bus.sent.length + len / 4 := by
  unfold readTransaction at h
  split at h
  · cases h
  · rename_i p₁ hmoved
    rw [waitDone_bus h, (moved_bus hmoved).2, length_sent_readWords]

/-- The loop of `spi_Read` reads whole words. -/
theorem readLoop_some {len : Nat} (hmod : len % 4 = 0) (pBuff readSize : Nat) {p : Port} (hp : Ready p) :
    ∃ p', readLoop p pBuff readSize len = some (p', ((readSize + len : Nat) : Int)) ∧
      Transferred p p' (readWords p.bus (pBuff + readSize) (p.gUcDinDout 5) (len / 4)) := by
  induction len using Nat.strongRecOn generalizing p readSize with
  | ind len ih =>
    unfold readLoop
    by_cases h0 : len = 0
    · subst h0
      rw [if_pos rfl]
      exact ⟨p, rfl, Transferred.refl p p.bus⟩
    rw [if_neg h0]
    by_cases hlt : len < maxDmaRecvTransactionSize
    · rw [if_pos hlt]
      obtain ⟨p', hone, htr⟩ := readTransaction_some hp (pBuff + readSize) (by omega) (Nat.le_of_lt hlt)
      rw [hone]
      exact ⟨p', rfl, htr⟩
    · rw [if_neg hlt]
      unfold maxDmaRecvTransactionSize at hlt
      obtain ⟨p₁, hone, htr⟩ := readTransaction_some hp (pBuff + readSize)
        (show 4 ≤ maxDmaRecvTransactionSize by decide) (Nat.le_refl _)
      rw [hone]
      dsimp only
      obtain ⟨p', hrest, htr'⟩ := ih (len - maxDmaRecvTransactionSize) (by unfold maxDmaRecvTransactionSize; omega)
        (by unfold maxDmaRecvTransactionSize; omega) (readSize + maxDmaRecvTransactionSize) (htr.ready hp)
      have htotal : readSize + maxDmaRecvTransactionSize + (len - maxDmaRecvTransactionSize) = readSize + len := by
        unfold maxDmaRecvTransactionSize
        omega
      have hcount : len / 4 = maxDmaRecvTransactionSize / 4 + (len - maxDmaRecvTransactionSize) / 4 := by
        unfold maxDmaRecvTransactionSize
        omega
      rw [htotal] at hrest
      rw [htr.bus, htr.ones, show pBuff + (readSize + maxDmaRecvTransactionSize) =
        pBuff + readSize + 4 * (maxDmaRecvTransactionSize / 4) by omega, ← readWords_add, ← hcount] at htr'
      exact ⟨p', hrest, htr.trans htr'⟩

theorem readLoop_sent (pBuff readSize len : Nat) {p p' : Port} {ret : Int}
    (h : readLoop p pBuff readSize len = some (p', ret)) : p'.bus.sent.length = p.bus.sent.length + len / 4 := by
  induction len using Nat.strongRecOn generalizing p readSize with
  | ind len ih =>
    unfold readLoop at h
    split at h
    · rename_i h0
      cases h
      rw [h0]
      rfl
    split at h
    · split at h
      · cases h
      · rename_i p₁ hone
        cases h
        exact readTransaction_sent hone
    · rename_i h0 hlt
      unfold maxDmaRecvTransactionSize at hlt
      split at h
      · cases h
      · rename_i p₁ hone
        rw [ih _ (by unfold maxDmaRecvTransactionSize; omega) _ h, readTransaction_sent hone]
        unfold maxDmaRecvTransactionSize
        omega

/-! ## Both ways -/

theorem wordCount_eq {len : Nat} (h : len + 3 < 2 ^ 31) : wordCount len = (len + 3) / 4 := by
  unfold wordCount
  rw [if_pos h]
  dsimp only
  omega

theorem wordCount_large {len : Nat} (h : ¬ len + 3 < 2 ^ 31) :
    wordCount len ≠ (len + 3) / 4 := by
  unfold wordCount
  rw [if_neg h]
  dsimp only
  omega

variable {p p' : Port} {r : Request}

theorem length_sent_words (r : Request) (b : Bus) (n : Nat) : (r.words b n).sent.length = b.sent.length + n := by
  unfold Request.words
  split
  · exact length_sent_readWords ..
  · exact length_sent_writeWords ..

theorem spiRead_open (hp : Ready p) (pBuff : UInt32) (len : Nat) :
    spiRead p 1 pBuff len =
      if p.dma pBuff len then readLoop p pBuff.toNat 0 len else some (spiReadCPU p pBuff.toNat len) := by
  have hopen : ¬ ((1 : Int) ≠ 1 ∨ p.gSpiFd ≠ 1) := by
    rw [hp.opened]
    decide
  exact if_neg hopen

theorem spiWrite_open (hp : Ready p) (pBuff : UInt32) (len : Nat) :
    spiWrite p 1 pBuff len =
      if p.dma pBuff len then
        match setupDMASend p pBuff.toNat len with
        | none => none
        | some p =>
          match waitDone p with
          | none => none
          | some p => some (p, (len : Int))
      else some (spiWriteCPU p pBuff.toNat len) := by
  have hopen : ¬ ((1 : Int) ≠ 1 ∨ p.gSpiFd ≠ 1) := by
    rw [hp.opened]
    decide
  exact if_neg hopen

theorem transfer_cpu (hp : Ready p) (hdma : ¬ p.dma r.pBuff r.len = true) :
    transfer p r = some ({ p with bus := r.words p.bus (wordCount r.len) }, (r.len : Int)) := by
  unfold transfer Request.words
  rw [spiRead_open hp, spiWrite_open hp, if_neg hdma, if_neg hdma]
  split
  · rfl
  · rfl

theorem transfer_read (hp : Ready p) (hdma : p.dma r.pBuff r.len = true) (hread : r.read = true) :
    transfer p r = readLoop p r.pBuff.toNat 0 r.len := by
  unfold transfer
  rw [spiRead_open hp, hread, if_pos rfl, if_pos hdma]

theorem transfer_write (hp : Ready p) (hdma : p.dma r.pBuff r.len = true) (hwrite : r.read = false) :
    transfer p r =
      match setupDMASend p r.pBuff.toNat r.len with
      | none => none
      | some p =>
        match waitDone p with
        | none => none
        | some p => some (p, (r.len : Int)) := by
  unfold transfer
  rw [spiWrite_open hp, hwrite, if_neg Bool.false_ne_true, if_pos hdma]

theorem dma_len (hdma : p.dma r.pBuff r.len = true) : 100 < r.len ∧ p.gUcDMAEnabled = true := by
  unfold Port.dma at hdma
  simp only [Bool.and_eq_true, decide_eq_true_eq] at hdma
  exact hdma.1

theorem transfer_sent (hp : Ready p) (hdma : p.dma r.pBuff r.len = true) {ret : Int}
    (h : transfer p r = some (p', ret)) :
    p'.bus.sent.length = p.bus.sent.length + r.len / 4 ∧ (r.read = false → r.len / 4 ≤ maxItems) := by
  cases hread : r.read with
  | true =>
    rw [transfer_read hp hdma hread] at h
    exact ⟨readLoop_sent _ _ _ h, nofun⟩
  | false =>
    rw [transfer_write hp hdma hread] at h
    split at h
    · cases h
    · rename_i p₁ hmoved
      split at h
      · cases h
      · rename_i p₂ hwait
        cases h
        obtain ⟨hitems, hbus⟩ := moved_bus hmoved
        refine ⟨?_, fun _ => hitems.2⟩
        rw [waitDone_bus hwait, hbus, length_sent_writeWords]

theorem transfer_some (hp : Ready p) (hc : Cond p r) :
    ∃ p', transfer p r = some (p', (r.len : Int)) ∧ Transferred p p' (r.words p.bus ((r.len + 3) / 4)) := by
  unfold Cond at hc
  split at hc
  · rename_i hdma
    obtain ⟨hmod, hmax⟩ := hc
    obtain ⟨hlen, hen⟩ := dma_len hdma
    have hround : (r.len + 3) / 4 = r.len / 4 := by omega
    rw [hround]
    unfold Request.words
    cases hread : r.read with
    | true =>
      rw [transfer_read hp hdma hread, if_pos rfl]
      obtain ⟨p', hloop, htr⟩ := readLoop_some hmod r.pBuff.toNat 0 hp
      rw [Nat.zero_add] at hloop
      rw [hp.ones hen] at htr
      exact ⟨p', hloop, htr⟩
    | false =>
      have hitems : 0 < r.len / 4 ∧ r.len / 4 ≤ maxItems := by
        have hle := hmax hread
        omega
      have hsink (w : UInt32) : Function.update p.gUcDinDout 15 w 5 = p.gUcDinDout 5 :=
        Function.update_of_ne (by decide) ..
      obtain ⟨p₁, p', hmoved, hwait, htr⟩ :=
        moved_waited hp (writeWords p.bus r.pBuff.toNat (r.len / 4)) (hsink _) hitems
      rw [transfer_write hp hdma hread, setupDMASend, hmoved]
      dsimp only
      rw [hwait]
      exact ⟨p', rfl, htr⟩
  · rename_i hdma
    rw [transfer_cpu hp hdma, wordCount_eq hc]
    exact ⟨_, rfl, Transferred.refl p _⟩

theorem exchanges_iff (hp : Ready p) (r : Request) : Exchanges p r ↔ Cond p r := by
  constructor
  · rintro ⟨p', htr, hbus, -⟩
    have hsent : p'.bus.sent.length = p.bus.sent.length + (r.len + 3) / 4 := by
      rw [hbus, length_sent_words]
    unfold Cond
    split
    · rename_i hdma
      obtain ⟨hcount, hmax⟩ := transfer_sent hp hdma htr
      refine ⟨by omega, fun hwrite => ?_⟩
      have hle := hmax hwrite
      omega
    · rename_i hdma
      rw [transfer_cpu hp hdma] at htr
      cases htr
      rw [length_sent_words] at hsent
      have hwords : wordCount r.len = (r.len + 3) / 4 := by omega
      by_contra hlarge
      exact wordCount_large hlarge hwords
  · intro hc
    obtain ⟨p', htr, hdone⟩ := transfer_some hp hc
    exact ⟨p', htr, hdone.bus, hdone.counts⟩

/-- In a run of reads and writes on an open port all words are exchanged exactly where every call meets the
condition. -/
theorem spi_exchanges (bus : Bus) (dmaEnabled : Bool) (rs : List Request) :
    Meets transfer Exchanges (spiOpen bus dmaEnabled) rs ↔ Meets transfer Cond (spiOpen bus dmaEnabled) rs := by
  have hnext : ∀ {p p' : Port} {r : Request} {ret : Int}, Ready p → Cond p r → transfer p r = some (p', ret) →
      Ready p' := by
    intro p p' r ret hp hc h
    obtain ⟨p₁, htr, hdone⟩ := transfer_some hp hc
    obtain rfl : p₁ = p' := (Prod.mk.inj (Option.some.inj (htr.symm.trans h))).1
    exact hdone.ready hp
  constructor
  · refine Meets.imp (I := Ready) (fun hp h => (exchanges_iff hp _).1 h) ?_ (ready_open bus dmaEnabled)
    exact fun hp h hs => hnext hp ((exchanges_iff hp _).1 h) hs
  · refine Meets.imp (I := Ready) (fun hp h => (exchanges_iff hp _).2 h) ?_ (ready_open bus dmaEnabled)
    exact fun hp h hs => hnext hp h hs

/-- The last byte of a length that is no multiple of four is not read. -/
theorem tail_lost :
    ¬ Meets transfer Exchanges (spiOpen ⟨fun _ => 0, fun _ => 0, []⟩ true) [⟨true, 0x20000000, 4001, by decide⟩] := by
  intro h
  have hiff := exchanges_iff (ready_open ⟨fun _ => 0, fun _ => 0, []⟩ true) ⟨true, 0x20000000, 4001, by decide⟩
  have hc := hiff.1 h.1
  exact absurd hc.1 (by decide)

end SimpleLink.Driver.SpiTransfer
