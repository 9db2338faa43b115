import SimpleLink.Driver.FrameRead

/-!
# Finding the header behind garbage

`_SlDrvRxHdrRead` shifts a window over the bytes of the device until the sync
pattern is in it, and reads four more bytes at every fourth shift. Whatever the
alignment of the pattern, the eight bytes behind it are the header, and what has
been read is brought to a multiple of four by the count it reports.
-/

namespace SimpleLink.Driver

/-! ## The pattern -/

theorem n2hSyncPatternMatch_take (buf : List UInt8) (txSeqNum : UInt8) :
    n2hSyncPatternMatch (buf.take 4) txSeqNum = n2hSyncPatternMatch buf txSeqNum := by
  have hword : word (buf.take 4) = word buf := by
    simp [word, List.getD_eq_getElem?_getD]
  unfold n2hSyncPatternMatch
  rw [hword]

theorem word_toNat (buf : List UInt8) :
    (word buf).toNat = (buf.getD 0 0).toNat + 256 * (buf.getD 1 0).toNat +
      65536 * (buf.getD 2 0).toNat + 16777216 * (buf.getD 3 0).toNat := by
  have h0 := (buf.getD 0 0).toNat_lt
  have h1 := (buf.getD 1 0).toNat_lt
  have h2 := (buf.getD 2 0).toNat_lt
  have h3 := (buf.getD 3 0).toNat_lt
  rw [word, BitVec.toNat_ofNat]
  omega

theorem match_bits {buf : List UInt8} {txSeqNum : UInt8}
    (h : n2hSyncPatternMatch buf txSeqNum = true) {k : Nat} (hk : k ∈ [3, 11, 19, 27]) :
    (word buf).extractLsb' k 4 = n2hSyncSpim.extractLsb' k 4 := by
  have hconst : (0x7FFF7F7F#32).extractLsb' k 4 = BitVec.allOnes 4 ∧
      (0xFFFFFFF8#32).extractLsb' k 4 = BitVec.allOnes 4 ∧ (0x4#32).extractLsb' k 4 = 0#4 ∧
      (0x3#32).extractLsb' k 4 = 0#4 := by
    revert k
    decide
  obtain ⟨hmask, hhigh, hfour, hthree⟩ := hconst
  unfold n2hSyncPatternMatch at h
  dsimp only at h
  split at h
  · have heq := congrArg (BitVec.extractLsb' k 4) (of_decide_eq_true h)
    rwa [BitVec.extractLsb'_and, BitVec.extractLsb'_or, BitVec.extractLsb'_or,
      BitVec.extractLsb'_and, BitVec.extractLsb'_and, hmask, hhigh, hfour, hthree,
      BitVec.and_allOnes, BitVec.and_allOnes, BitVec.and_zero, BitVec.or_zero,
      BitVec.or_zero] at heq
  · have heq := congrArg (BitVec.extractLsb' k 4) (of_decide_eq_true h)
    rwa [BitVec.extractLsb'_and, hmask, BitVec.and_allOnes] at heq

theorem match_bytes {buf : List UInt8} {txSeqNum : UInt8}
    (h : n2hSyncPatternMatch buf txSeqNum = true) :
    (buf.getD 0 0).toNat / 8 % 16 = 7 ∧ (buf.getD 1 0).toNat / 8 % 16 = 11 ∧
      (buf.getD 2 0).toNat / 8 % 16 = 9 ∧ (buf.getD 3 0).toNat / 8 % 16 = 5 := by
  have h0 := (buf.getD 0 0).toNat_lt
  have h1 := (buf.getD 1 0).toNat_lt
  have h2 := (buf.getD 2 0).toNat_lt
  have hw := word_toNat buf
  have hbits : ∀ k ∈ [3, 11, 19, 27], (word buf).toNat / 2 ^ k % 16 =
      (n2hSyncSpim.extractLsb' k 4).toNat := by
    intro k hk
    rw [← match_bits h hk, BitVec.extractLsb'_toNat, Nat.shiftRight_eq_div_pow]
  have k0 := hbits 3 (by decide)
  have k1 := hbits 11 (by decide)
  have k2 := hbits 19 (by decide)
  have k3 := hbits 27 (by decide)
  rw [hw] at k0 k1 k2 k3
  rw [show (n2hSyncSpim.extractLsb' 3 4).toNat = 7 by decide] at k0
  rw [show (n2hSyncSpim.extractLsb' 11 4).toNat = 11 by decide] at k1
  rw [show (n2hSyncSpim.extractLsb' 19 4).toNat = 9 by decide] at k2
  rw [show (n2hSyncSpim.extractLsb' 27 4).toNat = 5 by decide] at k3
  omega

/-- The window of four bytes at index `i` of the bytes to come has the pattern. -/
def SlIf.PatternAt (f : SlIf) (txSeqNum : UInt8) (i : Nat) : Prop :=
  n2hSyncPatternMatch (SlIf.bytes f.stream (f.pos + i) 4) txSeqNum = true

instance (f : SlIf) (txSeqNum : UInt8) (i : Nat) : Decidable (f.PatternAt txSeqNum i) :=
  inferInstanceAs (Decidable (_ = true))

theorem SlIf.getD_bytes (s : Nat → UInt8) (p : Nat) {n j : Nat} (h : j < n) :
    (SlIf.bytes s p n).getD j 0 = s (p + j) := by
  simp [bytes, h]

theorem SlIf.PatternAt.apart {f : SlIf} {txSeqNum : UInt8} {i j : Nat}
    (hi : f.PatternAt txSeqNum i) (hj : f.PatternAt txSeqNum j) (hlt : i < j) : i + 4 ≤ j := by
  by_contra hnear
  obtain ⟨-, h1, h2, h3⟩ := match_bytes hi
  obtain ⟨h0, -, -, -⟩ := match_bytes hj
  rw [SlIf.getD_bytes _ _ (by omega)] at h0 h1 h2 h3
  rcases (by omega : j = i + 1 ∨ j = i + 2 ∨ j = i + 3) with rfl | rfl | rfl
  · rw [← Nat.add_assoc, Nat.add_zero, h1] at h0
    omega
  · rw [← Nat.add_assoc, Nat.add_zero, h2] at h0
    omega
  · rw [← Nat.add_assoc, Nat.add_zero, h3] at h0
    omega

/-! ## The scan -/

/-- What has been read after `n` shifts. -/
def scanned (n : Nat) : Nat := 4 + slProtocolAlignSize n

/-- The buffer after `n` shifts: the window, the bytes behind it that have been read, and zeros. -/
def scanBuf (f : SlIf) (n : Nat) : List UInt8 :=
  SlIf.bytes f.stream (f.pos + n) (scanned n - n) ++ List.replicate (8 - (scanned n - n)) 0

theorem scanned_sub (n : Nat) : 4 ≤ scanned n - n ∧ scanned n - n ≤ 7 := by
  simp only [scanned, slProtocolAlignSize, clear2]
  omega

theorem take_scanBuf (f : SlIf) (n : Nat) :
    (scanBuf f n).take 4 = SlIf.bytes f.stream (f.pos + n) 4 := by
  have hlen := (scanned_sub n).1
  rw [scanBuf, List.take_append_of_le_length (by simpa using hlen), SlIf.take_bytes _ _ hlen]

theorem scanBuf_match (f : SlIf) (txSeqNum : UInt8) (n : Nat) :
    n2hSyncPatternMatch (scanBuf f n) txSeqNum = true ↔ f.PatternAt txSeqNum n := by
  rw [← n2hSyncPatternMatch_take, take_scanBuf]
  rfl

theorem SlIf.bytes_drop_one (s : Nat → UInt8) (p n : Nat) :
    (SlIf.bytes s p (n + 1)).drop 1 = SlIf.bytes s (p + 1) n := by
  rw [Nat.add_comm]
  exact SlIf.drop_bytes s p 1 n

theorem scanBuf_succ (f : SlIf) (n : Nat) :
    (if n % syncPatternLen = 0 then
      ((scanBuf f n).take 4 ++ SlIf.bytes f.stream (f.pos + scanned n) 4).drop 1 ++ [0]
    else (scanBuf f n).drop 1 ++ [0]) = scanBuf f (n + 1) := by
  by_cases h : n % syncPatternLen = 0
  · have hn : n % 4 = 0 := h
    have hscanned : scanned n = n + 4 ∧ scanned (n + 1) = n + 8 := by
      simp only [scanned, slProtocolAlignSize, clear2]
      omega
    rw [if_pos h, take_scanBuf, hscanned.1, ← Nat.add_assoc, SlIf.bytes_append,
      SlIf.bytes_drop_one, scanBuf, hscanned.2, show n + 8 - (n + 1) = 7 by omega]
    rfl
  · have hn : n % 4 ≠ 0 := h
    obtain ⟨k, hk⟩ : ∃ k, scanned n - n = k + 1 ∧ scanned (n + 1) - (n + 1) = k ∧ k + 1 ≤ 7 := by
      refine ⟨scanned n - n - 1, ?_⟩
      simp only [scanned, slProtocolAlignSize, clear2]
      omega
    obtain ⟨hk, hk', hle⟩ := hk
    rw [if_neg h, scanBuf, scanBuf, hk, hk', List.drop_append_of_le_length (by simp),
      SlIf.bytes_drop_one, List.append_assoc, ← Nat.add_assoc,
      show 8 - k = 8 - (k + 1) + 1 by omega, List.replicate_succ']

theorem syncScan_succ (f : SlIf) (txSeqNum : UInt8) (left n : Nat) :
    syncScan txSeqNum (left + 1) (f.skip (scanned n)) (scanBuf f n) n =
      if f.PatternAt txSeqNum n then some (f.skip (scanned n), scanBuf f n, n)
      else syncScan txSeqNum left (f.skip (scanned (n + 1))) (scanBuf f (n + 1)) (n + 1) := by
  have hnext := scanBuf_succ f n
  rw [syncScan]
  by_cases hm : f.PatternAt txSeqNum n
  · rw [if_pos ((scanBuf_match f txSeqNum n).2 hm), if_pos hm]
  · rw [if_neg fun h => hm ((scanBuf_match f txSeqNum n).1 h), if_neg hm]
    by_cases h4 : n % syncPatternLen = 0
    · have hscanned : scanned (n + 1) = scanned n + 4 := by
        have hn : n % 4 = 0 := h4
        simp only [scanned, slProtocolAlignSize, clear2]
        omega
      rw [if_pos h4] at hnext ⊢
      simp only [SlIf.read_eq, SlIf.skip_stream, SlIf.skip_pos, SlIf.skip_skip]
      rw [hnext, hscanned]
    · have hscanned : scanned (n + 1) = scanned n := by
        have hn : n % 4 ≠ 0 := h4
        simp only [scanned, slProtocolAlignSize, clear2]
        omega
      rw [if_neg h4] at hnext ⊢
      rw [hnext, hscanned]

theorem syncScan_found (f : SlIf) {txSeqNum : UInt8} {g : Nat} (hg : f.PatternAt txSeqNum g)
    (hbefore : ∀ i < g, ¬ f.PatternAt txSeqNum i) {left n : Nat} (hn : n ≤ g) (hle : g ≤ n + left) :
    syncScan txSeqNum left (f.skip (scanned n)) (scanBuf f n) n =
      some (f.skip (scanned g), scanBuf f g, g) := by
  induction left generalizing n with
  | zero =>
    obtain rfl : n = g := by omega
    rw [syncScan, if_pos ((scanBuf_match f txSeqNum n).2 hg)]
  | succ left ih =>
    rw [syncScan_succ]
    rcases Nat.lt_or_eq_of_le hn with hlt | rfl
    · rw [if_neg (hbefore n hlt)]
      exact ih hlt (by omega)
    · rw [if_pos hg]

theorem syncScan_limit (f : SlIf) {txSeqNum : UInt8} {left n : Nat}
    (hbefore : ∀ i ≤ n + left, ¬ f.PatternAt txSeqNum i) :
    syncScan txSeqNum left (f.skip (scanned n)) (scanBuf f n) n = none := by
  induction left generalizing n with
  | zero =>
    rw [syncScan, if_neg fun h => hbefore n (by omega) ((scanBuf_match f txSeqNum n).1 h)]
  | succ left ih =>
    rw [syncScan_succ, if_neg (hbefore n (by omega))]
    exact ih fun i hi => hbefore i (by omega)

/-! ## The header -/

/-- The rest of a buffer in which the pattern was found is the beginning of the header, which is read
to its end; what has been read then is four bytes less than a multiple of four and the count. -/
theorem header_word (f : SlIf) (g : Nat) :
    (if g % syncPatternLen > 0 then
      let (data, f') := (f.skip (scanned g)).read (g % syncPatternLen)
      (((scanBuf f g).drop 4).take (syncPatternLen - g % syncPatternLen) ++ data, f')
    else (f.skip (scanned g)).read 4) =
      (SlIf.bytes f.stream (f.pos + g + 4) 4, f.skip (g + 8)) := by
  simp only [SlIf.read_eq, SlIf.skip_stream, SlIf.skip_pos, SlIf.skip_skip, syncPatternLen]
  by_cases hr : g % 4 > 0
  · have hscanned : scanned g = g + 4 + (4 - g % 4) := by
      simp only [scanned, slProtocolAlignSize, clear2]
      omega
    have hlen : scanned g - g = 4 + (4 - g % 4) := by omega
    have hbuf : (scanBuf f g).drop 4 = SlIf.bytes f.stream (f.pos + g + 4) (4 - g % 4) ++
        List.replicate (8 - (scanned g - g)) 0 := by
      rw [scanBuf, hlen, List.drop_append_of_le_length (by simp), SlIf.drop_bytes]
    rw [if_pos hr, hbuf, List.take_left' (SlIf.length_bytes ..), hscanned, ← Nat.add_assoc,
      ← Nat.add_assoc, SlIf.bytes_append]
    congr 2 <;> omega
  · have hscanned : scanned g = g + 4 := by
      simp only [scanned, slProtocolAlignSize, clear2]
      omega
    rw [if_neg hr, hscanned, ← Nat.add_assoc]

theorem hdrRead_limit {f : SlIf} {txSeqNum : UInt8}
    (h : ∀ i ≤ slSyncScanThreshold, ¬ f.PatternAt txSeqNum i) (fuel : Nat) :
    slDrvRxHdrRead fuel f txSeqNum = none := by
  have hinit : SlIf.bytes f.stream f.pos 4 ++ [0, 0, 0, 0] = scanBuf f 0 := rfl
  have hscan : syncScan txSeqNum slSyncScanThreshold (f.skip (scanned 0)) (scanBuf f 0) 0 = none :=
    syncScan_limit f fun i hi => h i (by omega)
  unfold slDrvRxHdrRead
  rw [SlIf.read_eq]
  dsimp only
  rw [hinit, show f.skip 4 = f.skip (scanned 0) from rfl, hscan]

/-- **The header behind garbage.** The first window with the pattern is at `g`, and the word behind
it is not the pattern again. -/
theorem hdrRead_resync (f : SlIf) (txSeqNum : UInt8) (g : Nat) (hg : f.PatternAt txSeqNum g)
    (hgarbage : ∀ i, i + 4 ≤ g → ¬ f.PatternAt txSeqNum i)
    (hhdr : ¬ f.PatternAt txSeqNum (g + 4)) :
    (g ≤ slSyncScanThreshold → ∃ alignSize, (g + 12 + alignSize) % 4 = 0 ∧
      (g = 0 → alignSize = 0) ∧ ∀ fuel > 0, slDrvRxHdrRead fuel f txSeqNum =
        some (SlIf.bytes f.stream (f.pos + g + 4) 8, alignSize, f.skip (g + 12))) ∧
    (g > slSyncScanThreshold → ∀ fuel, slDrvRxHdrRead fuel f txSeqNum = none) := by
  -- a window that reaches into the pattern has no pattern
  have hbefore : ∀ i < g, ¬ f.PatternAt txSeqNum i := fun i hi h => hgarbage i (h.apart hg hi) h
  have hinit : SlIf.bytes f.stream f.pos 4 ++ [0, 0, 0, 0] = scanBuf f 0 := rfl
  refine ⟨fun hle => ?_, fun hgt fuel => ?_⟩
  · refine ⟨if g % syncPatternLen > 0 then syncPatternLen - g % syncPatternLen else 0, ?_, ?_, ?_⟩
    · simp only [syncPatternLen]
      split <;> omega
    · rintro rfl
      rfl
    · intro fuel hfuel
      obtain ⟨fuel, rfl⟩ := Nat.exists_eq_succ_of_ne_zero (by omega : fuel ≠ 0)
      have hscan := syncScan_found f hg hbefore (Nat.zero_le g)
        (by omega : g ≤ 0 + slSyncScanThreshold)
      have hword := header_word f g
      have hmatch : n2hSyncPatternMatch (SlIf.bytes f.stream (f.pos + g + 4) 4) txSeqNum = false :=
        Bool.eq_false_iff.2 hhdr
      unfold slDrvRxHdrRead
      rw [SlIf.read_eq]
      dsimp only
      rw [hinit, show f.skip 4 = f.skip (scanned 0) from rfl, hscan]
      dsimp only at hword ⊢
      rw [hword]
      dsimp only
      rw [doubleScan, if_neg (by rw [hmatch]; decide)]
      simp only [SlIf.read_eq, SlIf.skip_stream, SlIf.skip_pos, SlIf.skip_skip]
      rw [show f.pos + (g + 8) = f.pos + g + 4 + 4 by omega, SlIf.bytes_append]
      rfl
  · exact hdrRead_limit (fun i hi => hbefore i (by omega)) fuel

/-- Five bytes of garbage before the pattern: three more bytes are to be read behind the header. -/
def patternSixth : SlIf :=
  SlIf.ofBytes [0xBA, 0xDC, 0, 0, 0xCD, 0xBA, 0xDC, 0xCD, 0xAB, 0x66, 0x04, 18, 0, 1, 2, 3, 4]

theorem hdrRead_resync_sixth : ∃ alignSize, (5 + 12 + alignSize) % 4 = 0 ∧
    (5 = 0 → alignSize = 0) ∧ ∀ fuel > 0, slDrvRxHdrRead fuel patternSixth 0 =
      some ([0x66, 0x04, 18, 0, 1, 2, 3, 4], alignSize, patternSixth.skip 17) :=
  (hdrRead_resync patternSixth 0 5 (by decide)
    (by
      intro i hi
      obtain rfl | rfl : i = 0 ∨ i = 1 := by omega
      · decide
      · decide) (by decide)).1 (by decide)

def patternLate : SlIf where
  stream i := if i < 2001 then 0
    else [0xBA, 0xDC, 0xCD, 0xAB, 0x66, 0x04, 18, 0, 1, 2, 3, 4].getD (i - 2001) 0
  pos := 0

/-- The assertion ends the scan before the pattern is found. -/
theorem hdrRead_not_resync : (∀ i, i + 4 ≤ 2001 → ¬ patternLate.PatternAt 0 i) ∧
    patternLate.PatternAt 0 2001 ∧ ¬ patternLate.PatternAt 0 2005 ∧
    ∀ fuel, slDrvRxHdrRead fuel patternLate 0 = none := by
  have hfirst : ∀ i < 2001, ¬ patternLate.PatternAt 0 i := by
    intro i hi h
    have hbits := (match_bytes h).1
    rw [SlIf.getD_bytes _ _ (by omega), show patternLate.pos + i + 0 = i from Nat.zero_add i,
      show patternLate.stream i = 0 from if_pos hi] at hbits
    exact absurd hbits (by decide)
  refine ⟨fun i hi => hfirst i (by omega), by decide, by decide, hdrRead_limit fun i hi => ?_⟩
  exact hfirst i (Nat.lt_succ_of_le hi)

end SimpleLink.Driver
