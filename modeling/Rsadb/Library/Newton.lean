import Mathlib.Algebra.Ring.Commute
import Mathlib.Logic.Function.Iterate
import Mathlib.Tactic.Ring

/-! Newton's iteration for the inverse of an element. Each step squares what is
missing to one, so the inverse is reached wherever a power of that vanishes. -/
namespace Newton

variable {R : Type} [CommRing R]

/-- One step towards the inverse of `a`. -/
def step (a x : R) : R := x * (2 - a * x)

/-- A step squares what is missing. -/
theorem missing_step (a x : R) : 1 - a * step a x = (1 - a * x) ^ 2 := by
  unfold step
  ring

theorem missing_iterate (a x : R) (count : Nat) :
    1 - a * (step a)^[count] x = (1 - a * x) ^ 2 ^ count := by
  induction count with
  | zero => rw [Function.iterate_zero_apply, Nat.pow_zero, pow_one]
  | succ count ih => rw [Function.iterate_succ_apply', missing_step, ih, ← pow_mul, ← Nat.pow_succ]

/-- The iteration has found the inverse once the power of what was missing vanishes. -/
theorem inverse_of_missing {a x : R} {count : Nat} (h : (1 - a * x) ^ 2 ^ count = 0) :
    a * (step a)^[count] x = 1 := by
  rw [← missing_iterate] at h
  exact (sub_eq_zero.mp h).symm

end Newton
