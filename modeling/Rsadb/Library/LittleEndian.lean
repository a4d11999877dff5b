import Mathlib.Algebra.GroupWithZero.Nat

/-! Fixed-width little-endian numbers over bytes. The two directions are
inverse on numbers that fit the width and on byte strings of that width. -/
namespace LittleEndian

/-- The `width` low bytes of `n`, least significant first. Higher bytes are dropped. -/
def encode : Nat → Nat → List UInt8
  | 0, _ => []
  | width + 1, n => UInt8.ofNat (n % 256) :: encode width (n / 256)

/-- The number whose little-endian bytes are given. -/
def value : List UInt8 → Nat
  | [] => 0
  | byte :: rest => byte.toNat + 256 * value rest

@[simp] theorem encode_length (width n : Nat) : (encode width n).length = width := by
  induction width generalizing n with
  | zero => rfl
  | succ width ih => simp [encode, ih]

theorem value_lt (bytes : List UInt8) : value bytes < 256 ^ bytes.length := by
  induction bytes with
  | nil => simp [value]
  | cons byte rest ih =>
      have hByte : byte.toNat < 256 := byte.toNat_lt
      simp only [value, List.length_cons, Nat.pow_succ]
      omega

/-- Decoding what was encoded loses only the bytes above the width. -/
theorem value_encode_mod (width n : Nat) : value (encode width n) = n % 256 ^ width := by
  induction width generalizing n with
  | zero => simp [encode, value, Nat.mod_one]
  | succ width ih =>
      have hByte : (UInt8.ofNat (n % 256)).toNat = n % 256 := by
        simp
      rw [encode, value, ih, hByte, Nat.pow_succ', Nat.mod_mul]

theorem value_encode {width n : Nat} (h : n < 256 ^ width) : value (encode width n) = n := by
  rw [value_encode_mod, Nat.mod_eq_of_lt h]

/-- Every byte string is the encoding, at its own length, of its value. -/
theorem encode_value (bytes : List UInt8) : encode bytes.length (value bytes) = bytes := by
  induction bytes with
  | nil => rfl
  | cons byte rest ih =>
      have hByte : byte.toNat < 256 := byte.toNat_lt
      have hMod : (byte.toNat + 256 * value rest) % 256 = byte.toNat := by omega
      have hDiv : (byte.toNat + 256 * value rest) / 256 = value rest := by omega
      rw [List.length_cons, value, encode, hMod, hDiv, ih, UInt8.ofNat_toNat]

end LittleEndian
