import Mathlib.Tactic.Ring

/-! Bytes read as a number, and the word that shifts put together. -/

namespace Library

/-- Bytes as a number, the first of them the most significant. -/
def fromBytes (bytes : List UInt8) : Nat :=
  bytes.foldl (fun total byte => 256 * total + byte.toNat) 0

/-- A byte behind a number takes the place that a shift left free. -/
theorem shifted_or_byte (total : Nat) {byte : Nat} (h : byte < 256) (i : Nat) :
    total <<< (i + 8) ||| byte <<< i = (256 * total + byte) <<< i := by
  have hLow : byte <<< i < 2 ^ (i + 8) := by
    rw [Nat.shiftLeft_eq, pow_add, mul_comm]
    exact (Nat.mul_lt_mul_left (Nat.two_pow_pos i)).mpr h
  rw [← Nat.shiftLeft_add_eq_or_of_lt hLow, Nat.shiftLeft_eq, Nat.shiftLeft_eq, Nat.shiftLeft_eq,
    pow_add]
  ring

/-- No bit of a byte is lost in a word of eight. -/
theorem toNat_shifted_byte (byte : UInt8) {amount : UInt64} {i : Nat} (hi : amount.toNat = i)
    (h : i ≤ 56) : (byte.toUInt64 <<< amount).toNat = byte.toNat <<< i := by
  have hByte := byte.toNat_lt
  have hSmall : byte.toNat <<< i < 2 ^ 64 := by
    rw [Nat.shiftLeft_eq]
    calc byte.toNat * 2 ^ i < 2 ^ 8 * 2 ^ i := (Nat.mul_lt_mul_right (Nat.two_pow_pos i)).mpr hByte
      _ = 2 ^ (8 + i) := (pow_add 2 8 i).symm
      _ ≤ 2 ^ 64 := Nat.pow_le_pow_right (by omega) (by omega)
  rw [UInt64.toNat_shiftLeft, UInt8.toNat_toUInt64, hi, Nat.mod_eq_of_lt (show i < 64 by omega),
    Nat.mod_eq_of_lt hSmall]

/-- Eight bytes put together by shifts are read from the most significant on. -/
theorem toNat_shifted_bytes (a b c d e f g h : UInt8) :
    ((a.toUInt64 <<< 56) ||| (b.toUInt64 <<< 48) ||| (c.toUInt64 <<< 40) |||
      (d.toUInt64 <<< 32) ||| (e.toUInt64 <<< 24) ||| (f.toUInt64 <<< 16) |||
      (g.toUInt64 <<< 8) ||| h.toUInt64).toNat = fromBytes [a, b, c, d, e, f, g, h] := by
  simp only [UInt64.toNat_or, UInt8.toNat_toUInt64]
  rw [toNat_shifted_byte a (show (56 : UInt64).toNat = 48 + 8 from rfl) (by omega),
    toNat_shifted_byte b (show (48 : UInt64).toNat = 40 + 8 from rfl) (by omega),
    toNat_shifted_byte c (show (40 : UInt64).toNat = 32 + 8 from rfl) (by omega),
    toNat_shifted_byte d (show (32 : UInt64).toNat = 24 + 8 from rfl) (by omega),
    toNat_shifted_byte e (show (24 : UInt64).toNat = 16 + 8 from rfl) (by omega),
    toNat_shifted_byte f (show (16 : UInt64).toNat = 8 + 8 from rfl) (by omega),
    toNat_shifted_byte g (show (8 : UInt64).toNat = 0 + 8 from rfl) (by omega)]
  rw [shifted_or_byte _ b.toNat_lt, shifted_or_byte _ c.toNat_lt, shifted_or_byte _ d.toNat_lt,
    shifted_or_byte _ e.toNat_lt, shifted_or_byte _ f.toNat_lt, shifted_or_byte _ g.toNat_lt,
    ← Nat.shiftLeft_zero (n := h.toNat), shifted_or_byte _ h.toNat_lt, Nat.shiftLeft_zero]
  simp [fromBytes]

end Library
