import Mathlib.Data.List.Basic
import Mathlib.Data.UInt

/-!
# The mode word of a file creation

`sl_FsOpen` gets the access, the maximum size and the flags of a new file in one
word. `_sl_GetCreateFsMode` looks for the first granularity of which 255 units
hold the size, rounds the size up to units, and packs the three. A size above
255 units of the last entry leaves the walk behind the table.
-/

namespace SimpleLink.Driver

/-! ## The packed word -/

/-- The width in bits of a field of the mode word, and where it starts. -/
structure FsModeField where
  offset : Nat
  width : Nat

def fsModeAccess : FsModeField := ⟨12, 4⟩

def fsModeSizeGran : FsModeField := ⟨8, 4⟩

def fsModeSize : FsModeField := ⟨0, 8⟩

def fsModeAccessFlags : FsModeField := ⟨16, 8⟩

/-- `_FS_MODE_*_MASK`: the mask of a field, at bit 0. -/
def FsModeField.mask (f : FsModeField) : Nat := 2 ^ f.width - 1

/-- `((_u32)((v) & MASK) << OFFSET)` -/
def FsModeField.put (f : FsModeField) (v : Nat) : Nat := (v &&& f.mask) <<< f.offset

def FsModeField.get (f : FsModeField) (mode : Nat) : Nat := (mode >>> f.offset) &&& f.mask

/-- `_FS_MODE(Access, SizeGran, Size, Flags)` -/
def fsMode (access sizeGran size flags : Nat) : Nat :=
  fsModeAccess.put access ||| fsModeSizeGran.put sizeGran ||| fsModeSize.put size |||
    fsModeAccessFlags.put flags

theorem FsModeField.put_eq (f : FsModeField) (v : Nat) :
    f.put v = v % 2 ^ f.width * 2 ^ f.offset := by
  rw [put, mask, Nat.and_two_pow_sub_one_eq_mod, Nat.shiftLeft_eq]

theorem FsModeField.get_eq (f : FsModeField) (mode : Nat) :
    f.get mode = mode / 2 ^ f.offset % 2 ^ f.width := by
  rw [get, mask, Nat.and_two_pow_sub_one_eq_mod, Nat.shiftRight_eq_div_pow]

theorem fsMode_eq (access sizeGran size flags : Nat) :
    fsMode access sizeGran size flags =
      flags % 256 * 65536 + (access % 16 * 4096 + (sizeGran % 16 * 256 + size % 256)) := by
  have hor : ∀ (a b i : Nat), b < 2 ^ i → b ||| a * 2 ^ i = a * 2 ^ i + b := by
    intro a b i hb
    rw [Nat.or_comm, ← Nat.shiftLeft_eq, Nat.shiftLeft_add_eq_or_of_lt hb]
  have hsize : sizeGran % 16 * 256 ||| size % 256 = sizeGran % 16 * 256 + size % 256 := by
    rw [Nat.or_comm]
    exact hor (sizeGran % 16) (size % 256) 8 (by omega)
  have haccess : access % 16 * 4096 ||| (sizeGran % 16 * 256 + size % 256) =
      access % 16 * 4096 + (sizeGran % 16 * 256 + size % 256) := by
    rw [Nat.or_comm]
    exact hor (access % 16) _ 12 (by omega)
  have hput : fsModeAccess.put access = access % 16 * 4096 ∧
      fsModeSizeGran.put sizeGran = sizeGran % 16 * 256 ∧ fsModeSize.put size = size % 256 ∧
      fsModeAccessFlags.put flags = flags % 256 * 65536 := by
    simp [FsModeField.put_eq, fsModeAccess, fsModeSizeGran, fsModeSize, fsModeAccessFlags]
  obtain ⟨ha, hg, hs, hf⟩ := hput
  rw [fsMode, ha, hg, hs, hf, Nat.or_assoc (access % 16 * 4096), hsize, haccess]
  exact hor (flags % 256) _ 16 (by omega)

theorem get_fsMode (access sizeGran size flags : Nat) :
    fsModeAccess.get (fsMode access sizeGran size flags) = access % 16 ∧
      fsModeSizeGran.get (fsMode access sizeGran size flags) = sizeGran % 16 ∧
      fsModeSize.get (fsMode access sizeGran size flags) = size % 256 ∧
      fsModeAccessFlags.get (fsMode access sizeGran size flags) = flags % 256 := by
  simp only [FsModeField.get_eq, fsMode_eq, fsModeAccess, fsModeSizeGran, fsModeSize,
    fsModeAccessFlags]
  omega

/-! ## The granularity -/

def granTable : List Nat := [256, 1024, 4096, 16384, 65536]

/-- `MAX_MODE_SIZE`, written as 255 in the loop. -/
def maxModeSize : Nat := 255

/-- The value of the loop variable behind the loop: the first granularity of which 255 units hold
the size, or the length of the table. -/
def granIdx (maxSizeInBytes : Nat) : Nat :=
  granTable.findIdx fun gran => maxSizeInBytes ≤ gran * maxModeSize

def granNum (maxSizeInBytes gran : Nat) : Nat :=
  if maxSizeInBytes % gran ≠ 0 then maxSizeInBytes / gran + 1 else maxSizeInBytes / gran

/-- `_FS_MODE_OPEN_WRITE_CREATE_IF_NOT_EXIST` -/
def fsModeOpenWriteCreateIfNotExist : Nat := 3

/-- `_sl_GetCreateFsMode`, or `none` where the table is read behind its end. -/
def slGetCreateFsMode (maxSizeInBytes accessFlags : Nat) : Option Nat :=
  (getElem? granTable (granIdx maxSizeInBytes)).map fun gran =>
    fsMode fsModeOpenWriteCreateIfNotExist (granIdx maxSizeInBytes) (granNum maxSizeInBytes gran)
      accessFlags

theorem le_mul_granNum {size gran : Nat} (h : 0 < gran) : size ≤ gran * granNum size gran := by
  have hdiv := Nat.div_add_mod size gran
  have hmod := Nat.mod_lt size h
  unfold granNum
  split
  · rw [Nat.mul_add, Nat.mul_one]
    omega
  · omega

theorem granNum_le {size gran n : Nat} (hn : size ≤ gran * n) :
    granNum size gran ≤ n := by
  have hdiv := Nat.div_add_mod size gran
  have hle : size / gran ≤ n := by
    rw [Nat.mul_comm] at hn
    exact Nat.div_le_of_le_mul (by rwa [Nat.mul_comm])
  unfold granNum
  split
  · rename_i hne
    by_contra hlt
    have heq : size / gran = n := by omega
    rw [heq] at hdiv
    omega
  · exact hle

theorem pos_of_mem_granTable {gran : Nat} (h : gran ∈ granTable) : 0 < gran := by
  simp only [granTable, List.mem_cons, List.not_mem_nil, or_false] at h
  omega

theorem granIdx_lt_iff (size : Nat) : granIdx size < granTable.length ↔ size ≤ 65536 * 255 := by
  rw [granIdx, List.findIdx_lt_length]
  constructor
  · rintro ⟨gran, hmem, hle⟩
    have hlast : gran ≤ 65536 := by
      clear hle
      simp only [granTable, List.mem_cons, List.not_mem_nil, or_false] at hmem
      omega
    exact Nat.le_trans (of_decide_eq_true hle) (Nat.mul_le_mul_right 255 hlast)
  · intro h
    exact ⟨65536, by simp [granTable], decide_eq_true h⟩

theorem granIdx_spec {size i gran : Nat} (hi : granIdx size = i)
    (hgran : getElem? granTable i = some gran) :
    size ≤ gran * 255 ∧ ∀ gran' ∈ granTable, size ≤ gran' * 255 → gran ≤ gran' := by
  subst hi
  obtain ⟨hlt, rfl⟩ := List.getElem?_eq_some_iff.1 hgran
  refine ⟨of_decide_eq_true (List.findIdx_getElem (w := hlt)), ?_⟩
  intro gran' hmem hle
  obtain ⟨j, hj, rfl⟩ := List.getElem_of_mem hmem
  by_cases hlt' : j < granIdx size
  · have hnot := List.not_of_lt_findIdx hlt'
    exact absurd hle (of_decide_eq_false hnot)
  · -- the table is ascending
    have hsorted : granTable.Pairwise (· ≤ ·) := by decide
    rcases Nat.lt_or_ge (granIdx size) j with hlt'' | hge
    · exact List.pairwise_iff_getElem.1 hsorted _ _ hlt hj hlt''
    · obtain rfl : j = granIdx size := by omega
      exact Nat.le_refl _

/-! ## What the mode says -/

/-- A mode says a granularity of the table and a count of 255 at most that hold the size together,
with no smaller granularity that has such a count, and the flags of the caller. -/
structure FsModeSays (mode size flags gran num : Nat) : Prop where
  access : fsModeAccess.get mode = fsModeOpenWriteCreateIfNotExist
  unit : getElem? granTable (fsModeSizeGran.get mode) = some gran
  count : fsModeSize.get mode = num
  holds : size ≤ gran * num
  fits : num ≤ maxModeSize
  least : ∀ gran' ∈ granTable, ∀ num' ≤ maxModeSize, size ≤ gran' * num' → gran ≤ gran'
  flags : fsModeAccessFlags.get mode = flags

/-- `_sl_GetCreateFsMode` stays inside the table and answers a mode that says what was asked. -/
def FsModeRight (size flags : Nat) : Prop :=
  ∃ mode gran num, slGetCreateFsMode size flags = some mode ∧ FsModeSays mode size flags gran num

theorem slGetCreateFsMode_eq {size : Nat} (hsize : size ≤ 65536 * 255) (flags : Nat) :
    ∃ mode gran num, slGetCreateFsMode size flags = some mode ∧
      FsModeSays mode size (flags % 256) gran num := by
  have hlt := (granIdx_lt_iff size).2 hsize
  have hgran : getElem? granTable (granIdx size) = some granTable[granIdx size] :=
    List.getElem?_eq_getElem hlt
  generalize granTable[granIdx size] = gran at hgran
  have hpos : 0 < gran := pos_of_mem_granTable (List.mem_of_getElem? hgran)
  obtain ⟨hholds, hleast⟩ := granIdx_spec rfl hgran
  have hnum : granNum size gran ≤ 255 := granNum_le hholds
  have hidx : granIdx size < 5 := hlt
  obtain ⟨hga, hgg, hgs, hgf⟩ := get_fsMode fsModeOpenWriteCreateIfNotExist (granIdx size)
    (granNum size gran) flags
  refine ⟨_, gran, granNum size gran, by rw [slGetCreateFsMode, hgran]; rfl, ?_⟩
  constructor
  · exact hga
  · rw [hgg, Nat.mod_eq_of_lt (by omega), hgran]
  · rw [hgs, Nat.mod_eq_of_lt (by omega)]
  · exact le_mul_granNum hpos
  · exact hnum
  · intro gran' hmem num' hnum' hle
    refine hleast gran' hmem ?_
    exact Nat.le_trans hle (Nat.mul_le_mul_left gran' hnum')
  · exact hgf

/-- The mode is right for the sizes up to 255 units of 64 KiB, with flags that fit their field. -/
theorem fsMode_right_iff (size flags : Nat) :
    FsModeRight size flags ↔ size ≤ 65536 * 255 ∧ flags < 256 := by
  constructor
  · rintro ⟨mode, gran, num, hmode, hsays⟩
    have hsize : size ≤ 65536 * 255 := by
      rw [← granIdx_lt_iff]
      by_contra hge
      have hnone : getElem? granTable (granIdx size) = none :=
        List.getElem?_eq_none (Nat.le_of_not_lt hge)
      rw [slGetCreateFsMode, hnone] at hmode
      exact nomatch hmode
    obtain ⟨mode', _, _, hmode', hsays'⟩ := slGetCreateFsMode_eq hsize flags
    obtain rfl : mode' = mode := by simpa [hmode] using hmode'.symm
    have hflags := hsays'.flags.symm.trans hsays.flags
    exact ⟨hsize, by omega⟩
  · rintro ⟨hsize, hflags⟩
    have hright := slGetCreateFsMode_eq hsize flags
    rwa [Nat.mod_eq_of_lt hflags] at hright

/-- One byte more than 255 units of 64 KiB: the walk ends at index 5 of a table of five. -/
theorem not_fsMode_right : ¬ FsModeRight 16711681 0 := by
  rintro ⟨mode, gran, num, hmode, -⟩
  have hnone : slGetCreateFsMode 16711681 0 = none := by decide
  exact nomatch hnone.symm.trans hmode

example : slGetCreateFsMode (63 * 1024) 5 = some 0x530fc := by decide

end SimpleLink.Driver
