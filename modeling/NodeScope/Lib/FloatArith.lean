import Mathlib.Tactic.Linarith
import NodeScope.Lib.FloatOrder

/-!
# Arithmetic on doubles that are not negative

The doubles from zero to the greatest finite one are in the order of their bits, of the rationals
they denote, and of the rationals they are rounded from. Multiplication and division round the exact
result, and so respect that order too. A whole number below `2 ^ 53` is rounded to itself.
-/

namespace NodeScope.Lib.Float64

open Aggregate

/-- Go's `x >= y`, which is false of a NaN. -/
def atLeast (x y : Float64) : Bool :=
  !x.isNaN && !y.isNaN && decide (rank y ≤ rank x)

/-- Finite and without a sign. -/
def Plain (x : Float64) : Prop := x.bits.toNat < infinityBits

section Units

/-- The units of the double with these bits. -/
def unitsOf (b : Nat) : Nat :=
  if b / 2 ^ 52 = 0 then b % 2 ^ 52 else (2 ^ 52 + b % 2 ^ 52) * 2 ^ (b / 2 ^ 52 - 1)

theorem unitsOf_lt_pow (b : Nat) : unitsOf b < 2 ^ 52 * 2 ^ (b / 2 ^ 52) := by
  have hsignificand : b % 2 ^ 52 < 2 ^ 52 := Nat.mod_lt _ (by decide)
  rw [unitsOf]
  split
  · next hzero => rwa [hzero, Nat.pow_zero, Nat.mul_one]
  · next hnormal =>
      calc (2 ^ 52 + b % 2 ^ 52) * 2 ^ (b / 2 ^ 52 - 1)
          < (2 ^ 52 + 2 ^ 52) * 2 ^ (b / 2 ^ 52 - 1) :=
            Nat.mul_lt_mul_of_pos_right (Nat.add_lt_add_left hsignificand _) (Nat.two_pow_pos _)
        _ = 2 ^ 52 * 2 ^ (b / 2 ^ 52 - 1 + 1) := by ring
        _ = 2 ^ 52 * 2 ^ (b / 2 ^ 52) := by rw [Nat.sub_add_cancel (Nat.pos_of_ne_zero hnormal)]

theorem pow_le_unitsOf {b : Nat} (h : b / 2 ^ 52 ≠ 0) :
    2 ^ 52 * 2 ^ (b / 2 ^ 52 - 1) ≤ unitsOf b := by
  rw [unitsOf, if_neg h]
  exact Nat.mul_le_mul_right _ (Nat.le_add_right _ _)

/-- Bits and units have one order. -/
theorem unitsOf_strictMono : StrictMono unitsOf := by
  intro a b hlt
  rcases Nat.lt_or_ge (a / 2 ^ 52) (b / 2 ^ 52) with hexponent | hexponent
  · calc unitsOf a < 2 ^ 52 * 2 ^ (a / 2 ^ 52) := unitsOf_lt_pow a
      _ ≤ 2 ^ 52 * 2 ^ (b / 2 ^ 52 - 1) :=
          Nat.mul_le_mul_left _ (Nat.pow_le_pow_right (by decide) (by omega))
      _ ≤ unitsOf b := pow_le_unitsOf (by omega)
  · have hsame : a / 2 ^ 52 = b / 2 ^ 52 := by omega
    have hsignificand : a % 2 ^ 52 < b % 2 ^ 52 := by omega
    rw [unitsOf, unitsOf, hsame]
    split
    · exact hsignificand
    · exact Nat.mul_lt_mul_of_pos_right (Nat.add_lt_add_left hsignificand _) (Nat.two_pow_pos _)

end Units

section Plain

variable {x y z : Float64}

theorem Plain.bits_lt (h : x.Plain) : x.bits.toNat < 2047 * 2 ^ 52 := h

theorem Plain.negative (h : x.Plain) : x.negative = false := by
  have hbits := h.bits_lt
  exact decide_eq_false (by omega)

theorem Plain.isFinite (h : x.Plain) : x.isFinite = true := by
  have hbits := h.bits_lt
  have hexponent : x.exponent ≠ 2047 := by
    rw [exponent]
    omega
  rw [Float64.isFinite, bne_iff_ne]
  exact hexponent

theorem Plain.isNaN (h : x.Plain) : x.isNaN = false := by
  rw [Float64.isNaN, h.isFinite]
  rfl

theorem Plain.rank_eq (h : x.Plain) : rank x = x.bits.toNat := by
  have hbits := h.bits_lt
  rw [rank, h.negative, Nat.mod_eq_of_lt (by omega)]
  rfl

theorem Plain.toRat_eq (h : x.Plain) : x.toRat = (unitsOf x.bits.toNat : ℚ) / 2 ^ 1074 := by
  have hbits := h.bits_lt
  have hexponent : x.exponent = x.bits.toNat / 2 ^ 52 := by
    rw [exponent]
    omega
  have hunits : x.units = unitsOf x.bits.toNat := by
    rw [units, unitsOf, hexponent, significand]
  rw [toRat, h.negative, hunits]
  rfl

theorem Plain.toRat_nonneg (h : x.Plain) : 0 ≤ x.toRat := by
  rw [h.toRat_eq]
  positivity

theorem Plain.toRat_le_iff (hx : x.Plain) (hy : y.Plain) :
    x.toRat ≤ y.toRat ↔ x.bits.toNat ≤ y.bits.toNat := by
  have hpos : (0 : ℚ) < 2 ^ 1074 := by positivity
  rw [hx.toRat_eq, hy.toRat_eq, div_le_div_iff_of_pos_right hpos, Nat.cast_le,
    unitsOf_strictMono.le_iff_le]

theorem Plain.atLeast_iff (hx : x.Plain) (hy : y.Plain) :
    atLeast x y = true ↔ y.bits.toNat ≤ x.bits.toNat := by
  rw [atLeast, hx.isNaN, hy.isNaN, hx.rank_eq, hy.rank_eq]
  simp

theorem plain_ofRat {q : ℚ} (hq : 0 ≤ q) (h : magnitude q < infinityBits) : (ofRat q).Plain := by
  rw [Plain, bits_ofRat hq]
  exact h

theorem bits_ofRat_mono {p q : ℚ} (hp : 0 ≤ p) (h : p ≤ q) :
    (ofRat p).bits.toNat ≤ (ofRat q).bits.toNat := by
  rw [bits_ofRat hp, bits_ofRat (hp.trans h)]
  exact magnitude_mono hp h

theorem rounded_of_nonneg {q : ℚ} : rounded false q = ofRat q := by
  rw [rounded]
  split
  · next hzero =>
      rw [hzero]
      rfl
  · rfl

theorem Plain.div_eq (hx : x.Plain) (hy : y.Plain) (hpos : 0 < y.toRat) :
    x.div y = ofRat (x.toRat / y.toRat) := by
  have hzero : y.isZero = false := by
    rw [isZero, hy.isFinite, Bool.true_and, beq_eq_false_iff_ne]
    intro hunits
    rw [toRat, hunits] at hpos
    simp at hpos
  simp only [div, hx.isNaN, hy.isNaN, hx.isFinite, hy.isFinite, hzero, hx.negative, hy.negative,
    Bool.or_false, Bool.not_true, Bool.false_eq_true, if_false, bne_self_eq_false]
  exact rounded_of_nonneg

theorem Plain.mul_eq (hx : x.Plain) (hy : y.Plain) : x.mul y = ofRat (x.toRat * y.toRat) := by
  simp only [mul, hx.isNaN, hy.isNaN, hx.isFinite, hy.isFinite, hx.negative, hy.negative,
    Bool.or_false, Bool.not_true, Bool.false_eq_true, if_false, bne_self_eq_false]
  exact rounded_of_nonneg

/-- A product of two plain doubles grows with the first. -/
theorem Plain.mul_le (hx : x.Plain) (hy : y.Plain) (hz : z.Plain)
    (h : x.bits.toNat ≤ y.bits.toNat) : (x.mul z).bits.toNat ≤ (y.mul z).bits.toNat := by
  rw [hx.mul_eq hz, hy.mul_eq hz]
  apply bits_ofRat_mono (mul_nonneg hx.toRat_nonneg hz.toRat_nonneg)
  exact mul_le_mul_of_nonneg_right ((hx.toRat_le_iff hy).mpr h) hz.toRat_nonneg

end Plain

section Whole

variable {n : Nat}

theorem exponentOf_one (hpos : 0 < n) : exponentOf n 1 = Nat.log 2 n := by
  have hlog := Nat.pow_log_le_self 2 hpos.ne'
  simpa [exponentOf] using hlog

theorem roundHalfEven_one (n : Nat) : roundHalfEven n 1 = n := by
  simp [roundHalfEven, Nat.mod_one]

/-- The bits of a whole number that fits the significand. -/
theorem magnitudeBits_one (hpos : 0 < n) (h : n < 2 ^ 53) :
    magnitudeBits n 1 = (Nat.log 2 n + 1022) * 2 ^ 52 + n * 2 ^ (52 - Nat.log 2 n) := by
  have hlog : Nat.log 2 n ≤ 52 := Nat.lt_succ_iff.mp (Nat.log_lt_of_lt_pow hpos.ne' h)
  have hheld : heldExponent n 1 = Nat.log 2 n := by
    rw [heldExponent, exponentOf_one hpos]
    omega
  have hsignificand : significandOf n 1 = n * 2 ^ (52 - Nat.log 2 n) := by
    have hup : ((52 : Int) - Nat.log 2 n).toNat = 52 - Nat.log 2 n := by omega
    have hdown : ((Nat.log 2 n : Int) - 52).toNat = 0 := by omega
    rw [significandOf, hheld, hup, hdown, Nat.pow_zero, Nat.mul_one, roundHalfEven_one]
  have hbound := significandOf_le hpos Nat.one_pos
  rw [hsignificand] at hbound
  rw [magnitudeBits_eq hpos.ne', hsignificand, hheld, min_eq_left (by omega)]
  congr 2

/-- A whole number that fits the significand is kept. -/
theorem toRat_ofRat_natCast (h : n < 2 ^ 53) : (ofRat n).toRat = n := by
  obtain rfl | hpos := Nat.eq_zero_or_pos n
  · decide +kernel
  have hlog : Nat.log 2 n ≤ 52 := Nat.lt_succ_iff.mp (Nat.log_lt_of_lt_pow hpos.ne' h)
  have hbits : (ofRat n).bits.toNat =
      (Nat.log 2 n + 1022) * 2 ^ 52 + n * 2 ^ (52 - Nat.log 2 n) := by
    rw [bits_ofRat n.cast_nonneg, magnitude, Rat.num_natCast, Rat.den_natCast, Int.natAbs_natCast,
      magnitudeBits_one hpos h]
  have hlow : 2 ^ 52 ≤ n * 2 ^ (52 - Nat.log 2 n) := by
    calc 2 ^ 52 = 2 ^ Nat.log 2 n * 2 ^ (52 - Nat.log 2 n) := by
          rw [← Nat.pow_add, Nat.add_sub_cancel' hlog]
      _ ≤ n * 2 ^ (52 - Nat.log 2 n) :=
          Nat.mul_le_mul_right _ (Nat.pow_log_le_self 2 hpos.ne')
  have hhigh : n * 2 ^ (52 - Nat.log 2 n) < 2 ^ 53 := by
    calc n * 2 ^ (52 - Nat.log 2 n) < 2 ^ (Nat.log 2 n + 1) * 2 ^ (52 - Nat.log 2 n) :=
          Nat.mul_lt_mul_of_pos_right (Nat.lt_pow_succ_log_self (by decide) n) (Nat.two_pow_pos _)
      _ = 2 ^ 53 := by rw [← Nat.pow_add]; congr 1; omega
  have hplain : (ofRat n).Plain := by
    rw [Plain, hbits, infinityBits]
    omega
  have hunits : unitsOf (ofRat n).bits.toNat = n * 2 ^ 1074 := by
    have hexponent : (ofRat n).bits.toNat / 2 ^ 52 = Nat.log 2 n + 1023 := by omega
    have hrest : 2 ^ 52 + (ofRat n).bits.toNat % 2 ^ 52 = n * 2 ^ (52 - Nat.log 2 n) := by omega
    have hsum : 52 - Nat.log 2 n + (Nat.log 2 n + 1023 - 1) = 1074 := by omega
    rw [unitsOf, hexponent, if_neg (Nat.succ_ne_zero _), hrest, Nat.mul_assoc, ← Nat.pow_add]
    exact congrArg (n * 2 ^ ·) hsum
  rw [hplain.toRat_eq, hunits, Nat.cast_mul, Nat.cast_pow, Nat.cast_ofNat]
  exact mul_div_cancel_right₀ _ (by positivity)

end Whole

end NodeScope.Lib.Float64
