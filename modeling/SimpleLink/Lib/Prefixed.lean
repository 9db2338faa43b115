import Mathlib.Data.List.Basic
import Mathlib.Data.UInt

/-!
# Strings behind their length

`be16 v` is a 16-bit number in network byte order, `prefixed xs` the bytes `xs` behind
their length. A list starts with one prefixed string at most (`prefixed_inj`); where it
starts with none it has fewer than two bytes, or announces more than it has
(`prefixed_or_short`).
-/

namespace SimpleLink.Lib

/-! ## Numbers -/

/-- A number, most significant byte first. -/
def be16 (v : Nat) : List UInt8 := [UInt8.ofNat (v / 256), UInt8.ofNat v]

def be16Val (hi lo : UInt8) : Nat := 256 * hi.toNat + lo.toNat

@[simp]
theorem length_be16 (v : Nat) : (be16 v).length = 2 := rfl

theorem be16Val_lt (hi lo : UInt8) : be16Val hi lo < 2 ^ 16 := by
  have hhi := hi.toNat_lt
  have hlo := lo.toNat_lt
  unfold be16Val
  omega

theorem be16_val (hi lo : UInt8) : be16 (be16Val hi lo) = [hi, lo] := by
  have hlo := lo.toNat_lt
  have hhi : (256 * hi.toNat + lo.toNat) / 256 = hi.toNat := by omega
  have hmod : (256 * hi.toNat + lo.toNat) % 2 ^ 8 = lo.toNat := by omega
  unfold be16 be16Val
  rw [hhi, UInt8.ofNat_toNat, ← UInt8.ofNat_mod_size]
  show [hi, UInt8.ofNat ((256 * hi.toNat + lo.toNat) % 2 ^ 8)] = [hi, lo]
  rw [hmod, UInt8.ofNat_toNat]

theorem be16Val_be16 {v : Nat} (h : v < 2 ^ 16) :
    be16Val (UInt8.ofNat (v / 256)) (UInt8.ofNat v) = v := by
  have hhi : (UInt8.ofNat (v / 256)).toNat = v / 256 := UInt8.toNat_ofNat_of_lt' (by
    show v / 256 < 2 ^ 8
    omega)
  have hlo : (UInt8.ofNat v).toNat = v % 2 ^ 8 := UInt8.toNat_ofNat'
  unfold be16Val
  rw [hhi, hlo]
  omega

theorem toNat_shiftLeft_or (hi lo : UInt8) :
    (hi.toUInt16 <<< 8 ||| lo.toUInt16).toNat = be16Val hi lo := by
  have hhi := hi.toNat_lt
  have hlo : lo.toNat < 2 ^ 8 := lo.toNat_lt
  have hshift : (hi.toUInt16 <<< 8).toNat = hi.toNat <<< 8 := by
    rw [UInt16.toNat_shiftLeft, UInt8.toNat_toUInt16]
    show (hi.toNat <<< 8) % 2 ^ 16 = hi.toNat <<< 8
    rw [Nat.shiftLeft_eq]
    omega
  rw [UInt16.toNat_or, hshift, UInt8.toNat_toUInt16, ← Nat.shiftLeft_add_eq_or_of_lt hlo,
    Nat.shiftLeft_eq, be16Val, Nat.mul_comm]

/-! ## Strings -/

def prefixed (xs : List UInt8) : List UInt8 := be16 xs.length ++ xs

@[simp]
theorem length_prefixed (xs : List UInt8) : (prefixed xs).length = xs.length + 2 := by
  simp [prefixed, Nat.add_comm]

theorem prefixed_inj {xs ys s t : List UInt8} (hx : xs.length < 2 ^ 16) (hy : ys.length < 2 ^ 16)
    (h : prefixed xs ++ s = prefixed ys ++ t) : xs = ys ∧ s = t := by
  simp only [prefixed, be16, List.cons_append, List.nil_append, List.cons.injEq] at h
  obtain ⟨hhi, hlo, hrest⟩ := h
  have hlen : xs.length = ys.length := by
    have hv := be16Val_be16 hx
    rw [hhi, hlo, be16Val_be16 hy] at hv
    exact hv.symm
  exact List.append_inj hrest hlen

theorem prefixed_or_short (hi lo : UInt8) (rest : List UInt8) :
    rest.length < be16Val hi lo ∨
      ∃ xs t, hi :: lo :: rest = prefixed xs ++ t ∧ xs.length = be16Val hi lo ∧
        xs = rest.take (be16Val hi lo) ∧ t = rest.drop (be16Val hi lo) := by
  rcases Nat.lt_or_ge rest.length (be16Val hi lo) with hlt | hge
  · exact .inl hlt
  · have hlen : (rest.take (be16Val hi lo)).length = be16Val hi lo := List.length_take_of_le hge
    refine .inr ⟨_, _, ?_, hlen, rfl, rfl⟩
    rw [prefixed, hlen, be16_val, List.append_assoc, List.take_append_drop]
    rfl

end SimpleLink.Lib
