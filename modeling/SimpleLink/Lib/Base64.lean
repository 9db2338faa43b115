import Mathlib.Data.Fintype.Basic
import Mathlib.Data.UInt

/-!
# Base 64

Three bytes are a number of 24 bits, which has four digits to base 64. In the last group the bytes that
are missing count as zero, and a pad stands for every digit that only they would fill. The symbols for
the digits are those of any alphabet.
-/

namespace SimpleLink.Lib.Base64

/-- The symbols for the digits, and the pad. -/
structure Alphabet (α : Type) where
  symbol : Fin 64 → α
  value : α → Option (Fin 64)
  pad : α
  value_symbol : ∀ i, value (symbol i) = some i
  value_pad : value pad = none

/-- The digit before the last `k`. -/
def digit (n k : Nat) : Fin 64 := Fin.ofNat 64 (n / 64 ^ k)

def ofBytes (a b c : UInt8) : Nat := a.toNat * 65536 + b.toNat * 256 + c.toNat

def ofDigits (i j k l : Fin 64) : Nat := i.val * 262144 + j.val * 4096 + k.val * 64 + l.val

variable {α : Type} (A : Alphabet α)

def encode : List UInt8 → List α
  | [] => []
  | [a] =>
    let n := ofBytes a 0 0
    [A.symbol (digit n 3), A.symbol (digit n 2), A.pad, A.pad]
  | [a, b] =>
    let n := ofBytes a b 0
    [A.symbol (digit n 3), A.symbol (digit n 2), A.symbol (digit n 1), A.pad]
  | a :: b :: c :: rest =>
    let n := ofBytes a b c
    A.symbol (digit n 3) :: A.symbol (digit n 2) :: A.symbol (digit n 1) :: A.symbol (digit n 0) ::
      encode rest

/-- The bytes of a text, if it is an encoding. -/
def decode [DecidableEq α] : List α → Option (List UInt8)
  | [] => some []
  | w :: x :: y :: z :: rest =>
    match A.value w, A.value x, A.value y, A.value z with
    | some i, some j, some k, some l =>
      let n := ofDigits i j k l
      (decode rest).map (UInt8.ofNat (n / 65536) :: UInt8.ofNat (n / 256) :: UInt8.ofNat n :: ·)
    | some i, some j, some k, none =>
      let n := ofDigits i j k 0
      if z = A.pad ∧ rest = [] then some [UInt8.ofNat (n / 65536), UInt8.ofNat (n / 256)] else none
    | some i, some j, none, none =>
      let n := ofDigits i j 0 0
      if y = A.pad ∧ z = A.pad ∧ rest = [] then some [UInt8.ofNat (n / 65536)] else none
    | _, _, _, _ => none
  | _ => none

theorem digit_val (n k : Nat) : (digit n k).val = n / 64 ^ k % 64 := rfl

theorem ofBytes_lt (a b c : UInt8) : ofBytes a b c < 2 ^ 24 := by
  have ha := a.toNat_lt
  have hb := b.toNat_lt
  have hc := c.toNat_lt
  unfold ofBytes
  omega

theorem ofDigits_digit {n : Nat} (hn : n < 2 ^ 24) :
    ofDigits (digit n 3) (digit n 2) (digit n 1) (digit n 0) = n := by
  simp only [ofDigits, digit_val]
  omega

theorem ofNat_ofBytes (a b c : UInt8) :
    UInt8.ofNat (ofBytes a b c / 65536) = a ∧ UInt8.ofNat (ofBytes a b c / 256) = b ∧
      UInt8.ofNat (ofBytes a b c) = c := by
  have ha := a.toNat_lt
  have hb := b.toNat_lt
  have hc := c.toNat_lt
  refine ⟨UInt8.toNat.inj ?_, UInt8.toNat.inj ?_, UInt8.toNat.inj ?_⟩ <;>
  · rw [UInt8.toNat_ofNat', ofBytes]
    omega

theorem digit_missing (a b : UInt8) :
    digit (ofBytes a b 0) 0 = 0 ∧ digit (ofBytes a 0 0) 1 = 0 := by
  constructor <;>
  · refine Fin.ext ?_
    rw [digit_val, ofBytes, UInt8.toNat_zero]
    simp
    omega

theorem decode_encode [DecidableEq α] (l : List UInt8) : decode A (encode A l) = some l := by
  fun_induction encode A l with
  | case1 => rfl
  | case2 a n =>
    obtain ⟨ha, -, -⟩ := ofNat_ofBytes a 0 0
    have hn := ofDigits_digit (ofBytes_lt a 0 0)
    rw [(digit_missing a 0).1, (digit_missing a 0).2] at hn
    simp [decode, A.value_symbol, A.value_pad, n, hn, ha]
  | case3 a b n =>
    obtain ⟨ha, hb, -⟩ := ofNat_ofBytes a b 0
    have hn := ofDigits_digit (ofBytes_lt a b 0)
    rw [(digit_missing a b).1] at hn
    simp [decode, A.value_symbol, A.value_pad, n, hn, ha, hb]
  | case4 a b c rest n ih =>
    obtain ⟨ha, hb, hc⟩ := ofNat_ofBytes a b c
    have hn := ofDigits_digit (ofBytes_lt a b c)
    simp [decode, A.value_symbol, n, hn, ha, hb, hc, ih]

variable {A} in
theorem mem_encode {l : List UInt8} {x : α} (h : x ∈ encode A l) :
    x = A.pad ∨ ∃ i, x = A.symbol i := by
  fun_induction encode A l with
  | case1 => cases h
  | case2 a n =>
    simp only [List.mem_cons, List.not_mem_nil, or_false] at h
    rcases h with rfl | rfl | rfl | rfl
    exacts [.inr ⟨_, rfl⟩, .inr ⟨_, rfl⟩, .inl rfl, .inl rfl]
  | case3 a b n =>
    simp only [List.mem_cons, List.not_mem_nil, or_false] at h
    rcases h with rfl | rfl | rfl | rfl
    exacts [.inr ⟨_, rfl⟩, .inr ⟨_, rfl⟩, .inr ⟨_, rfl⟩, .inl rfl]
  | case4 a b c rest n ih =>
    simp only [List.mem_cons] at h
    rcases h with rfl | rfl | rfl | rfl | h
    exacts [.inr ⟨_, rfl⟩, .inr ⟨_, rfl⟩, .inr ⟨_, rfl⟩, .inr ⟨_, rfl⟩, ih h]

variable {A} in
theorem encode_inj {l l' : List UInt8} (h : encode A l = encode A l') : l = l' := by
  classical
  have hdecode := decode_encode A l
  rw [h, decode_encode] at hdecode
  exact (Option.some.inj hdecode).symm

end SimpleLink.Lib.Base64
