import Mathlib.Data.List.Basic
import Mathlib.Tactic.SplitIfs

/-! The standard base64 alphabet with padding. Three bytes become four digits of
six bits; a group that is not full is padded, and its unused bits are zero. -/
namespace Base64

/-- The digit with a value below 64. -/
def digit (value : Nat) : UInt8 :=
  if value < 26 then UInt8.ofNat (65 + value)
  else if value < 52 then UInt8.ofNat (97 + (value - 26))
  else if value < 62 then UInt8.ofNat (48 + (value - 52))
  else if value = 62 then 43
  else 47

/-- The value of a digit. -/
def value (digit : UInt8) : Option Nat :=
  if 65 ≤ digit ∧ digit ≤ 90 then some (digit.toNat - 65)
  else if 97 ≤ digit ∧ digit ≤ 122 then some (digit.toNat - 97 + 26)
  else if 48 ≤ digit ∧ digit ≤ 57 then some (digit.toNat - 48 + 52)
  else if digit = 43 then some 62
  else if digit = 47 then some 63
  else none

def encode : List UInt8 → List UInt8
  | [] => []
  | [a] => [digit (a.toNat / 4), digit (a.toNat % 4 * 16), 61, 61]
  | [a, b] => [digit (a.toNat / 4), digit (a.toNat % 4 * 16 + b.toNat / 16), digit (b.toNat % 16 * 4), 61]
  | a :: b :: c :: rest =>
      digit (a.toNat / 4) :: digit (a.toNat % 4 * 16 + b.toNat / 16) ::
        digit (b.toNat % 16 * 4 + c.toNat / 64) :: digit (c.toNat % 64) :: encode rest

/-- The bytes of a group of four digits, padded or not. -/
def group (w x y z : UInt8) (isLast : Bool) : Option (List UInt8) := do
  let p ← value w
  let q ← value x
  if isLast ∧ y = 61 ∧ z = 61 then
    if q % 16 = 0 then some [UInt8.ofNat (p * 4 + q / 16)] else none
  else
    let r ← value y
    if isLast ∧ z = 61 then
      if r % 4 = 0 then some [UInt8.ofNat (p * 4 + q / 16), UInt8.ofNat (q % 16 * 16 + r / 4)] else none
    else
      let s ← value z
      some [UInt8.ofNat (p * 4 + q / 16), UInt8.ofNat (q % 16 * 16 + r / 4), UInt8.ofNat (r % 4 * 64 + s)]

def decode : List UInt8 → Option (List UInt8)
  | [] => some []
  | w :: x :: y :: z :: rest => do
      let bytes ← group w x y z rest.isEmpty
      let more ← decode rest
      some (bytes ++ more)
  | _ => none

/-- Digits are read back, and none is the padding. -/
theorem value_digit {n : Nat} (h : n < 64) : value (digit n) = some n ∧ digit n ≠ 61 := by
  have hAll : ∀ n < 64, value (digit n) = some n ∧ digit n ≠ 61 := by decide
  exact hAll n h

/-- Digits are visible characters. -/
theorem digit_visible (n : Nat) : 0x20 < digit n ∧ digit n < 0x7F := by
  have hAll : ∀ n < 64, 0x20 < digit n ∧ digit n < 0x7F := by decide
  by_cases h : n < 64
  · exact hAll n h
  · have hLast : digit n = 47 := by
      unfold digit
      split_ifs <;> first | omega | rfl
    rw [hLast]
    decide

theorem visible_of_mem_encode {bytes : List UInt8} {byte : UInt8} (h : byte ∈ encode bytes) :
    0x20 < byte ∧ byte < 0x7F := by
  have hPad : (0x20 : UInt8) < 61 ∧ (61 : UInt8) < 0x7F := by decide
  induction bytes using encode.induct with
  | case1 => cases h
  | case2 a =>
      simp only [encode, List.mem_cons, List.not_mem_nil, or_false] at h
      rcases h with rfl | rfl | rfl | rfl <;> first | exact digit_visible _ | exact hPad
  | case3 a b =>
      simp only [encode, List.mem_cons, List.not_mem_nil, or_false] at h
      rcases h with rfl | rfl | rfl | rfl <;> first | exact digit_visible _ | exact hPad
  | case4 a b c rest ih =>
      simp only [encode, List.mem_cons] at h
      rcases h with rfl | rfl | rfl | rfl | h
      all_goals first | exact digit_visible _ | exact ih h

theorem length_encode (bytes : List UInt8) : (encode bytes).length = 4 * ((bytes.length + 2) / 3) := by
  induction bytes using encode.induct with
  | case1 => rfl
  | case2 a => simp [encode]
  | case3 a b => simp [encode]
  | case4 a b c rest ih =>
      simp only [encode, List.length_cons, ih]
      omega

private theorem ofNat_eq {a : UInt8} {n : Nat} (h : n = a.toNat) : UInt8.ofNat n = a := by
  rw [h, UInt8.ofNat_toNat]

private theorem group_one (a : UInt8) : group (digit (a.toNat / 4)) (digit (a.toNat % 4 * 16)) 61 61 true = some [a] := by
  have hA := a.toNat_lt
  rw [group, (value_digit (show a.toNat / 4 < 64 by omega)).1, (value_digit (show a.toNat % 4 * 16 < 64 by omega)).1]
  simp only [Option.bind_eq_bind, Option.bind_some, and_self, if_true]
  rw [if_pos (by omega), @ofNat_eq a _ (by omega)]

private theorem group_two (a b : UInt8) : group (digit (a.toNat / 4)) (digit (a.toNat % 4 * 16 + b.toNat / 16))
    (digit (b.toNat % 16 * 4)) 61 true = some [a, b] := by
  have hA := a.toNat_lt
  have hB := b.toNat_lt
  have hLast := value_digit (show b.toNat % 16 * 4 < 64 by omega)
  rw [group, (value_digit (show a.toNat / 4 < 64 by omega)).1,
    (value_digit (show a.toNat % 4 * 16 + b.toNat / 16 < 64 by omega)).1, hLast.1]
  simp only [Option.bind_eq_bind, Option.bind_some, hLast.2, and_self, and_true, and_false, if_true, if_false]
  rw [if_pos (by omega), @ofNat_eq a _ (by omega), @ofNat_eq b _ (by omega)]

private theorem group_three (a b c : UInt8) (isLast : Bool) :
    group (digit (a.toNat / 4)) (digit (a.toNat % 4 * 16 + b.toNat / 16))
      (digit (b.toNat % 16 * 4 + c.toNat / 64)) (digit (c.toNat % 64)) isLast = some [a, b, c] := by
  have hA := a.toNat_lt
  have hB := b.toNat_lt
  have hC := c.toNat_lt
  have hLast := value_digit (show c.toNat % 64 < 64 by omega)
  rw [group, (value_digit (show a.toNat / 4 < 64 by omega)).1,
    (value_digit (show a.toNat % 4 * 16 + b.toNat / 16 < 64 by omega)).1,
    (value_digit (show b.toNat % 16 * 4 + c.toNat / 64 < 64 by omega)).1, hLast.1]
  simp only [Option.bind_eq_bind, Option.bind_some, hLast.2, and_false, if_false]
  rw [@ofNat_eq a _ (by omega), @ofNat_eq b _ (by omega), @ofNat_eq c _ (by omega)]

/-- What was encoded is decoded again. -/
theorem decode_encode (bytes : List UInt8) : decode (encode bytes) = some bytes := by
  induction bytes using encode.induct with
  | case1 => rfl
  | case2 a =>
      simp only [encode, decode, List.isEmpty_nil, group_one]
      rfl
  | case3 a b =>
      simp only [encode, decode, List.isEmpty_nil, group_two]
      rfl
  | case4 a b c rest ih =>
      simp only [encode, decode, group_three, ih]
      rfl

end Base64
