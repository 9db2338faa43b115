import Mathlib.Tactic.Ring
import SimpleLink.Lib.Base128

/-!
# Numbers in the packets of the gateway

A receive buffer is cleared before it is filled: what is read past the bytes received is
zero. Lengths are written as in MQTT, seven bits a byte with the low group first.
-/

namespace SimpleLink.Gagent

open Lib

/-- The byte at `phead + i` of a buffer that `rx` was received into. -/
def byteAt (rx : List UInt8) (i : Nat) : UInt8 := rx.getD i 0

/-- `ntohs` of the two bytes at `phead + i`. -/
def ntohsAt (rx : List UInt8) (i : Nat) : UInt16 :=
  (byteAt rx i).toUInt16 * 256 + (byteAt rx (i + 1)).toUInt16

/-- How many bytes the length after the first byte of `buf` takes; no more than four are looked
at. -/
def mqttNumRemLenBytes (buf : List UInt8) : Nat :=
  if byteAt buf 1 &&& 0x80 = 0x80 then
    if byteAt buf 2 &&& 0x80 = 0x80 then
      if byteAt buf 3 &&& 0x80 = 0x80 then 4 else 3
    else 2
  else 1

/-- The loop of `mqtt_parse_rem_len`, in sixteen bits. -/
def parseDigits : List UInt8 → (multiplier value : UInt16) → UInt16
  | [], _, value => value
  | digit :: buf, multiplier, value =>
    let value := value + (digit &&& 127).toUInt16 * multiplier
    if digit &&& 128 ≠ 0 then parseDigits buf (multiplier * 128) value else value

def mqttParseRemLen (buf : List UInt8) : UInt16 := parseDigits (buf.drop 1) 1 0

theorem uint16_ofInt_natCast (n : Nat) : UInt16.ofInt (n : Int) = n.toUInt16 := by
  have hmod : ((n : Int) % 2 ^ 16).toNat = n % 2 ^ 16 := by omega
  rw [UInt16.ofInt, hmod]
  exact UInt16.ofNat_mod_size

/-! ## Fields of at most four bytes -/

theorem toNat_and_127 (b : UInt8) : ((b &&& 127).toUInt16).toNat = (b &&& 0x7F).toNat := by
  simp only [UInt8.toNat_toUInt16]

theorem parseDigits_eq {bs : List UInt8} {n : Nat} (h : fieldLen bs = some n) :
    ∀ multiplier value : UInt16, (parseDigits bs multiplier value).toNat =
      (value.toNat + multiplier.toNat * fieldVal (bs.take n)) % 2 ^ 16 := by
  induction bs generalizing n with
  | nil => cases h
  | cons b bs ih =>
    intro multiplier value
    have hdigit : (value + (b &&& 127).toUInt16 * multiplier).toNat =
        (value.toNat + (b &&& 0x7F).toNat * multiplier.toNat) % 2 ^ 16 := by
      rw [UInt16.toNat_add, UInt16.toNat_mul, toNat_and_127]
      omega
    rw [fieldLen] at h
    rw [parseDigits]
    by_cases hc : contd b
    · rw [if_pos hc, Option.map_eq_some_iff] at h
      obtain ⟨m, hm, rfl⟩ := h
      have hbit : b &&& 128 ≠ 0 := by simpa [contd] using hc
      simp only [if_pos hbit]
      rw [ih hm, hdigit, List.take_succ_cons, fieldVal, UInt16.toNat_mul]
      show _ = (value.toNat + multiplier.toNat *
        ((b &&& 0x7F).toNat + 128 * fieldVal (bs.take m))) % 2 ^ 16
      have hmul : multiplier.toNat * 128 % 2 ^ 16 * fieldVal (bs.take m) % 2 ^ 16 =
          multiplier.toNat * 128 * fieldVal (bs.take m) % 2 ^ 16 := Nat.mod_mul_mod _ _ _
      have hassoc : multiplier.toNat * ((b &&& 0x7F).toNat + 128 * fieldVal (bs.take m)) =
          (b &&& 0x7F).toNat * multiplier.toNat +
            multiplier.toNat * 128 * fieldVal (bs.take m) := by ring
      rw [hassoc]
      show (_ + multiplier.toNat * 128 % 2 ^ 16 * fieldVal (bs.take m)) % 2 ^ 16 = _
      omega
    · rw [if_neg hc, Option.some.injEq] at h
      subst h
      have hbit : ¬ b &&& 128 ≠ 0 := by simpa [contd] using hc
      simp only [if_neg hbit]
      rw [hdigit, List.take_succ_cons, List.take_zero, fieldVal, fieldVal]
      congr 2
      ring

theorem mqttNumRemLenBytes_eq {buf : List UInt8} {n : Nat} (h : fieldLen buf.tail = some n) (hn : n ≤ 4) :
    mqttNumRemLenBytes buf = n := by
  have hbit (b : UInt8) : (b &&& 0x80 = 0x80) ↔ contd b = true := by
    have h256 : ∀ i : Fin 256, (UInt8.ofFin i &&& 0x80 = 0x80) ↔ contd (UInt8.ofFin i) = true := by
      decide +kernel
    exact h256 b.toFin
  rcases buf with _ | ⟨b0, bs⟩
  · cases h
  rw [List.tail_cons] at h
  unfold mqttNumRemLenBytes
  simp only [hbit]
  rcases bs with _ | ⟨b1, bs⟩
  · cases h
  simp only [byteAt, List.getD_cons_succ, List.getD_cons_zero]
  rw [fieldLen] at h
  split
  · rename_i h1
    rw [if_pos h1, Option.map_eq_some_iff] at h
    obtain ⟨m, h, rfl⟩ := h
    rcases bs with _ | ⟨b2, bs⟩
    · cases h
    simp only [List.getD_cons_succ, List.getD_cons_zero]
    rw [fieldLen] at h
    split
    · rename_i h2
      rw [if_pos h2, Option.map_eq_some_iff] at h
      obtain ⟨m, h, rfl⟩ := h
      rcases bs with _ | ⟨b3, bs⟩
      · cases h
      simp only [List.getD_cons_zero]
      rw [fieldLen] at h
      split
      · rename_i h3
        rw [if_pos h3, Option.map_eq_some_iff] at h
        obtain ⟨m, h, rfl⟩ := h
        have := fieldLen_bounds h
        omega
      · rename_i h3
        rw [if_neg h3, Option.some.injEq] at h
        omega
    · rename_i h2
      rw [if_neg h2, Option.some.injEq] at h
      omega
  · rename_i h1
    rw [if_neg h1, Option.some.injEq] at h
    omega

/-- The gateway finds the length of a packet that fits its buffer. -/

theorem toNat_mqttParseRemLen {buf : List UInt8} {n : Nat} (h : fieldLen buf.tail = some n) :
    (mqttParseRemLen buf).toNat = fieldVal (buf.tail.take n) % 2 ^ 16 := by
  rw [mqttParseRemLen, List.drop_one, parseDigits_eq h]
  show (0 + 1 * _) % 2 ^ 16 = _
  rw [Nat.zero_add, Nat.one_mul]

end SimpleLink.Gagent
