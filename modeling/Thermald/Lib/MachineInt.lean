import Mathlib.Algebra.Group.Int.Defs
import Mathlib.Algebra.Group.Nat.Defs
import Mathlib.Tactic.Common

/-!
# Fixed-width C integers

Machine values are mathematical integers. `int32`, `uint32` and `uint64` reduce a result into the
range of the C type that holds it, so overflow is taken modulo the width throughout. Values
already in range are unchanged (`int32_eq_self`, `uint32_eq_self`, `uint64_eq_self`).
-/

namespace Thermald

/-- `INT_MAX`. -/
abbrev intMax : Int := 2147483647

/-- The `int` congruent to a value modulo `2 ^ 32`. -/
def int32 (x : Int) : Int := (x + 2147483648) % 4294967296 - 2147483648

/-- The `unsigned int` congruent to a value modulo `2 ^ 32`. -/
def uint32 (x : Int) : Int := x % 4294967296

/-- The `uint64_t` congruent to a value modulo `2 ^ 64`. -/
def uint64 (x : Int) : Int := x % 18446744073709551616

/-- Every value is reduced into the range of `int`. -/
theorem int32_bounds (x : Int) : -2147483648 ≤ int32 x ∧ int32 x ≤ intMax := by
  unfold int32 intMax
  omega

/-- A value in the range of `int` is its own reduction. -/
theorem int32_eq_self {x : Int} (hlo : -2147483648 ≤ x) (hhi : x ≤ intMax) : int32 x = x := by
  unfold int32 intMax at *
  omega

/-- A reduction makes no value larger, unless that is below the range. -/
theorem int32_le {x : Int} (h : -2147483648 ≤ x) : int32 x ≤ x := by
  unfold int32
  omega

/-- One step past the upper end wraps around to the negative values. -/
theorem int32_wrap {x : Int} (hlo : intMax < x) (hhi : x ≤ 2 * intMax + 1) :
    int32 x = x - 4294967296 := by
  unfold int32 intMax at *
  omega

theorem uint32_eq_self {x : Int} (hlo : 0 ≤ x) (hhi : x < 4294967296) : uint32 x = x := by
  unfold uint32
  omega

end Thermald
