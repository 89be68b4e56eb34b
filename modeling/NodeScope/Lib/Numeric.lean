import Mathlib.Data.Int.Log
import Mathlib.Data.Rat.Floor
import Mathlib.Tactic.Linarith
import Mathlib.Tactic.Positivity
import Mathlib.Tactic.Ring

/-!
# Exact decimals

The type `numeric` of PostgreSQL. A value is a whole number of units of its scale. A product keeps
every digit. A quotient keeps sixteen digits or more, counted by the leading digits of base 10000,
and is rounded there with halves away from zero.

## Implementation notes

NaN and the infinities are left out. Division by zero, an error in the database, gives nothing.
-/

namespace NodeScope.Lib

/-- A number of units of `10 ^ (-scale)`. -/
structure Numeric where
  units : Int
  scale : Nat
deriving DecidableEq

namespace Numeric

def toRat (x : Numeric) : ℚ := x.units / 10 ^ x.scale

def ofInt (n : Int) : Numeric := ⟨n, 0⟩

/-- The nearest whole number, halves away from zero. -/
def roundHalfAway (q : ℚ) : Int := if q < 0 then -⌊-q + 1 / 2⌋ else ⌊q + 1 / 2⌋

def rounded (q : ℚ) (scale : Nat) : Numeric := ⟨roundHalfAway (q * 10 ^ scale), scale⟩

/-- The exponent of the first digit of base 10000, and the digit. -/
def weight (x : Numeric) : Int := Int.log 10000 |x.toRat|

def firstDigit (x : Numeric) : Int := ⌊|x.toRat| / 10000 ^ x.weight⌋

/-- `select_div_scale`. -/
def selectDivScale (x y : Numeric) : Nat :=
  let qweight := x.weight - y.weight - if x.firstDigit ≤ y.firstDigit then 1 else 0
  (min (max (max (max (16 - qweight * 4) x.scale) y.scale) 0) 1000).toNat

def div (x y : Numeric) : Option Numeric :=
  if y.units = 0 then none else some (rounded (x.toRat / y.toRat) (selectDivScale x y))

def mul (x y : Numeric) : Numeric := ⟨x.units * y.units, x.scale + y.scale⟩

/-- The function `round` with a number of digits. -/
def round (x : Numeric) (scale : Nat) : Numeric := rounded x.toRat scale

def floor (x : Numeric) : Int := ⌊x.toRat⌋

theorem toRat_ofInt (n : Int) : (ofInt n).toRat = n := by simp [ofInt, toRat]

theorem toRat_mul (x y : Numeric) : (x.mul y).toRat = x.toRat * y.toRat := by
  simp only [mul, toRat, pow_add]
  push_cast
  rw [div_mul_div_comm]

theorem roundHalfAway_of_nonneg {q : ℚ} (h : 0 ≤ q) : roundHalfAway q = ⌊q + 1 / 2⌋ := by
  rw [roundHalfAway, if_neg h.not_gt]

theorem roundHalfAway_nonneg {q : ℚ} (h : 0 ≤ q) : 0 ≤ roundHalfAway q := by
  rw [roundHalfAway_of_nonneg h, Int.floor_nonneg]
  linarith

/-- A rounded value is below a multiple of its unit if the value is below it by half a unit. -/
theorem roundHalfAway_lt {q : ℚ} (h : 0 ≤ q) {k : Int} :
    roundHalfAway q < k ↔ q < k - 1 / 2 := by
  rw [roundHalfAway_of_nonneg h, Int.floor_lt]
  constructor <;> intro hlt <;> linarith

theorem rounded_nonneg {q : ℚ} (h : 0 ≤ q) (scale : Nat) : 0 ≤ (rounded q scale).toRat :=
  div_nonneg (Int.cast_nonneg (roundHalfAway_nonneg (by positivity))) (by positivity)

theorem rounded_lt {q : ℚ} (h : 0 ≤ q) {scale : Nat} {k : Int} :
    (rounded q scale).toRat < k / 10 ^ scale ↔ q < (k - 1 / 2) / 10 ^ scale := by
  rw [toRat, rounded, div_lt_div_iff_of_pos_right (by positivity), Int.cast_lt,
    roundHalfAway_lt (by positivity), lt_div_iff₀ (by positivity)]

/-- A quotient of which few digits are kept is large. -/
theorem lt_div_of_selectDivScale {x y : Numeric} (hx : 0 < x.toRat) (hy : 0 < y.toRat)
    (h : selectDivScale x y < 5) : 10000 < x.toRat / y.toRat := by
  have hweight : y.weight + 3 ≤ x.weight := by
    simp only [selectDivScale] at h
    split_ifs at h <;> omega
  have hlow : (10000 : ℚ) ^ x.weight ≤ x.toRat := by
    rw [weight, abs_of_pos hx]
    exact_mod_cast Int.zpow_log_le_self (by decide) hx
  have hhigh : y.toRat < (10000 : ℚ) ^ (y.weight + 1) := by
    rw [weight, abs_of_pos hy]
    exact_mod_cast Int.lt_zpow_succ_log_self (b := 10000) (by decide) y.toRat
  rw [lt_div_iff₀ hy]
  calc 10000 * y.toRat < 10000 * 10000 ^ (y.weight + 1) := by
        exact mul_lt_mul_of_pos_left hhigh (by norm_num)
    _ = 10000 ^ (y.weight + 2) := by
        rw [← zpow_one_add₀ (by norm_num)]
        congr 1
        ring
    _ ≤ 10000 ^ x.weight := zpow_le_zpow_right₀ (by norm_num) (by omega)
    _ ≤ x.toRat := hlow

end Numeric

end NodeScope.Lib
