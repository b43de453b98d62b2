import Mathlib.Tactic

/-! # Fixed-width big-endian numbers

Numbers below `256 ^ width` written as `width` bytes, most significant first, and read back.

**`encode`** / **`decode`** are inverse to each other: `decode_encode` on numbers that fit the
width, `encode_decode` on every byte string. -/

namespace BigEndian

open List

/-- The `width` low bytes of `n`, most significant first. -/
def encode : Nat → Nat → List UInt8
  | 0, _ => []
  | width + 1, n => encode width (n / 256) ++ [UInt8.ofNat n]

/-- The number a byte string denotes, most significant byte first. -/
def decode (bytes : List UInt8) : Nat :=
  bytes.foldl (fun value byte => value * 256 + byte.toNat) 0

@[simp] theorem length_encode (width n : Nat) : (encode width n).length = width := by
  induction width generalizing n with
  | zero => rfl
  | succ width ih => simp [encode, ih]

variable (bytes : List UInt8)

@[simp] theorem decode_concat (byte : UInt8) :
    decode (bytes ++ [byte]) = decode bytes * 256 + byte.toNat := by
  simp [decode]

/-- A number that fits the width is read back exactly. -/
theorem decode_encode {width n : Nat} (h : n < 256 ^ width) : decode (encode width n) = n := by
  induction width generalizing n with
  | zero =>
    obtain rfl : n = 0 := by simpa using h
    rfl
  | succ width ih =>
    have hn : n / 256 < 256 ^ width := by
      rw [Nat.div_lt_iff_lt_mul (by decide), ← pow_succ]
      exact h
    rw [encode, decode_concat, ih hn, UInt8.toNat_ofNat']
    omega

/-- Every byte string of a width denotes a number that fits the width. -/
theorem decode_lt : decode bytes < 256 ^ bytes.length := by
  induction bytes using reverseRecOn with
  | nil => simp [decode]
  | append_singleton bytes byte ih =>
    have hb := byte.toNat_lt
    rw [decode_concat, length_append, length_singleton, pow_succ]
    omega

/-- Writing the number a byte string denotes gives the byte string. -/
theorem encode_decode : encode bytes.length (decode bytes) = bytes := by
  induction bytes using reverseRecOn with
  | nil => rfl
  | append_singleton bytes byte ih =>
    have hb := byte.toNat_lt
    have hdiv : (decode bytes * 256 + byte.toNat) / 256 = decode bytes := by omega
    have hlow : UInt8.ofNat (decode bytes * 256 + byte.toNat) = byte := by
      rw [← UInt8.toNat_inj, UInt8.toNat_ofNat']
      omega
    rw [length_append, length_singleton, encode, decode_concat, hdiv, ih, hlow]

end BigEndian
