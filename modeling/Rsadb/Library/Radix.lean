import Mathlib.Algebra.GroupWithZero.Nat
import Mathlib.Data.List.Basic
import Mathlib.Tactic.Cases

/-! Numbers in the digits of some base, written with a fixed number of digits and
read digit by digit. What the digits look like is left open. -/
namespace Radix

variable {Digit : Type}

/-- Put digits behind a number, if all of them are digits. -/
def valueFrom (base : Nat) (read : Digit → Option Nat) : Nat → List Digit → Option Nat
  | start, [] => some start
  | start, digit :: rest => (read digit).bind fun value => valueFrom base read (start * base + value) rest

def value (base : Nat) (read : Digit → Option Nat) (digits : List Digit) : Option Nat :=
  valueFrom base read 0 digits

/-- The lowest `width` digits of a number, the highest of them first. -/
def digits (base : Nat) (write : Nat → Digit) : Nat → Nat → List Digit
  | 0, _ => []
  | width + 1, n => digits base write width (n / base) ++ [write (n % base)]

variable {base : Nat} {read : Digit → Option Nat} {write : Nat → Digit}

@[simp] theorem digits_length (width n : Nat) : (digits base write width n).length = width := by
  induction width generalizing n with
  | zero => rfl
  | succ width ih => rw [digits, List.length_append, ih, List.length_singleton]

theorem valueFrom_append (start : Nat) (front rest : List Digit) : valueFrom base read start (front ++ rest) =
    (valueFrom base read start front).bind fun value => valueFrom base read value rest := by
  induction front generalizing start with
  | nil => rfl
  | cons digit front ih =>
      rw [List.cons_append, valueFrom, valueFrom]
      cases read digit with
      | none => rfl
      | some value => exact ih _

/-- Enough digits of a number are read back as the number. -/
theorem value_digits (hRead : ∀ d < base, read (write d) = some d) {width n : Nat}
    (hFits : n < base ^ width) :
    value base read (digits base write width n) = some n := by
  induction width generalizing n with
  | zero =>
      obtain rfl : n = 0 := Nat.lt_one_iff.mp hFits
      rfl
  | succ width ih =>
      have hPositive : 0 < base := Nat.pos_of_ne_zero fun hZero => by
        rw [hZero, Nat.pow_succ, Nat.mul_zero] at hFits
        exact Nat.not_lt_zero n hFits
      have hFront : n / base < base ^ width := by
        rw [Nat.div_lt_iff_lt_mul hPositive]
        exact hFits
      have hWhole := ih hFront
      rw [value] at hWhole ⊢
      rw [digits, valueFrom_append, hWhole, Option.bind_some, valueFrom, hRead _ (Nat.mod_lt n hPositive)]
      exact congrArg some (Nat.div_add_mod' n base)

/-- Where a value is read, every digit is one. -/
theorem read_isSome {start n : Nat} {text : List Digit} (h : valueFrom base read start text = some n) :
    ∀ digit ∈ text, (read digit).isSome := by
  induction text generalizing start with
  | nil => exact fun _ hMem => absurd hMem List.not_mem_nil
  | cons digit text ih =>
      obtain ⟨value, hValue, hRest⟩ := Option.bind_eq_some_iff.mp h
      exact List.forall_mem_cons.mpr ⟨hValue ▸ rfl, ih hRest⟩

end Radix
