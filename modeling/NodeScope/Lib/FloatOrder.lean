import Mathlib.Algebra.Order.Field.Power
import Mathlib.Tactic.Positivity
import NodeScope.Lib.Aggregate

/-!
# The order of doubles

Comparison of doubles, and that rounding a rational to a double respects the order. The exponent
of a double is the greatest one that its magnitude reaches; between two of them the significands
are rounded alike, and a significand that rounds up to the next exponent is the least one there.
-/

namespace NodeScope.Lib.Float64

/-- `x < y`, which is false of a NaN. -/
def less (x y : Float64) : Bool :=
  !x.isNaN && !y.isNaN && decide (Aggregate.rank x < Aggregate.rank y)

def isInf (x : Float64) : Bool := !x.isFinite && x.significand == 0

section Rounding

variable {n d n' d' : Nat}

theorem div_le_roundHalfEven (n d : Nat) : n / d ≤ roundHalfEven n d := by
  rw [roundHalfEven]
  split
  · exact le_rfl
  · split <;> omega

theorem roundHalfEven_le (n d : Nat) : roundHalfEven n d ≤ n / d + 1 := by
  rw [roundHalfEven]
  split
  · omega
  · split <;> omega

theorem roundHalfEven_mono (hd : 0 < d) (hd' : 0 < d') (h : n * d' ≤ n' * d) :
    roundHalfEven n d ≤ roundHalfEven n' d' := by
  have hn := Nat.div_add_mod n d
  have hn' := Nat.div_add_mod n' d'
  have hfloor : n / d ≤ n' / d' := by
    rw [Nat.le_div_iff_mul_le hd']
    refine Nat.le_of_mul_le_mul_right ?_ hd
    calc n / d * d' * d = d * (n / d) * d' := by ring
      _ ≤ n * d' := Nat.mul_le_mul_right _ (Nat.mul_div_le n d)
      _ ≤ n' * d := h
  obtain hlt | heq := Nat.lt_or_eq_of_le hfloor
  · exact (roundHalfEven_le n d).trans (hlt.trans_le (div_le_roundHalfEven n' d'))
  · -- The floors agree, so that the remainders are in the order of the quotients.
    have hrest : n % d * d' ≤ n' % d' * d := by
      rw [← hn, ← hn', ← heq] at h
      nlinarith
    have htwice : 2 * (n % d) * d' ≤ 2 * (n' % d') * d := by nlinarith
    have hup : d ≤ 2 * (n % d) → d' ≤ 2 * (n' % d') := by
      intro hge
      refine Nat.le_of_mul_le_mul_right ?_ hd
      calc d' * d = d * d' := Nat.mul_comm ..
        _ ≤ 2 * (n % d) * d' := Nat.mul_le_mul_right _ hge
        _ ≤ 2 * (n' % d') * d := htwice
    have hover : d < 2 * (n % d) → d' < 2 * (n' % d') := by
      intro hgt
      refine Nat.lt_of_mul_lt_mul_right (a := d) ?_
      calc d' * d = d * d' := Nat.mul_comm ..
        _ < 2 * (n % d) * d' := Nat.mul_lt_mul_of_pos_right hgt hd'
        _ ≤ 2 * (n' % d') * d := htwice
    simp only [roundHalfEven, heq]
    split_ifs <;> omega

end Rounding

section Exponent

/-- The exponent that `magnitudeBits` finds, before it is held above the least one. -/
def exponentOf (n d : Nat) : Int :=
  let guess : Int := (Nat.log 2 n : Int) - Nat.log 2 d
  if n * 2 ^ (-guess).toNat < d * 2 ^ guess.toNat then guess - 1 else guess

/-- The exponent of the double. -/
def heldExponent (n d : Nat) : Int := max (exponentOf n d) (-1022)

/-- The significand of the double, with the leading bit of a normal one. -/
def significandOf (n d : Nat) : Nat :=
  roundHalfEven (n * 2 ^ (52 - heldExponent n d).toNat) (d * 2 ^ (heldExponent n d - 52).toNat)

variable {n d n' d' : Nat}

theorem magnitudeBits_eq (hn : n ≠ 0) (d : Nat) :
    magnitudeBits n d =
      min ((heldExponent n d + 1022).toNat * 2 ^ 52 + significandOf n d) (2047 * 2 ^ 52) := by
  rw [magnitudeBits, if_neg hn]
  simp only [significandOf, heldExponent, exponentOf, decide_eq_true_eq]

theorem two_zpow (z : Int) : (2 : ℚ) ^ z = 2 ^ z.toNat / 2 ^ (-z).toNat := by
  obtain ⟨k, rfl | rfl⟩ := z.eq_nat_or_neg
  · simp
  · simp

theorem div_lt_two_zpow (hd : 0 < d) (z : Int) :
    (n : ℚ) / d < 2 ^ z ↔ n * 2 ^ (-z).toNat < d * 2 ^ z.toNat := by
  have hd' : (0 : ℚ) < d := Nat.cast_pos.mpr hd
  rw [two_zpow, div_lt_div_iff₀ hd' (by positivity), mul_comm (2 ^ z.toNat) (d : ℚ)]
  exact_mod_cast Iff.rfl

theorem exponentOf_spec (hn : 0 < n) (hd : 0 < d) :
    (2 : ℚ) ^ exponentOf n d ≤ (n : ℚ) / d ∧ (n : ℚ) / d < 2 ^ (exponentOf n d + 1) := by
  have hd' : (0 : ℚ) < d := Nat.cast_pos.mpr hd
  have hlow : ((2 : ℚ) ^ Nat.log 2 n) ≤ n := by exact_mod_cast Nat.pow_log_le_self 2 hn.ne'
  have hhigh : (n : ℚ) < 2 ^ (Nat.log 2 n + 1) := by
    exact_mod_cast Nat.lt_pow_succ_log_self (by decide) n
  have hlow' : ((2 : ℚ) ^ Nat.log 2 d) ≤ d := by exact_mod_cast Nat.pow_log_le_self 2 hd.ne'
  have hhigh' : (d : ℚ) < 2 ^ (Nat.log 2 d + 1) := by
    exact_mod_cast Nat.lt_pow_succ_log_self (by decide) d
  have hbelow : (2 : ℚ) ^ ((Nat.log 2 n : Int) - Nat.log 2 d - 1) ≤ (n : ℚ) / d := by
    have hexp : (Nat.log 2 n : Int) - Nat.log 2 d - 1 = Nat.log 2 n - (Nat.log 2 d + 1 : Nat) := by
      push_cast
      ring
    rw [hexp, zpow_sub₀ (by norm_num), zpow_natCast, zpow_natCast]
    exact div_le_div₀ (by positivity) hlow hd' hhigh'.le
  have habove : (n : ℚ) / d < 2 ^ ((Nat.log 2 n : Int) - Nat.log 2 d + 1) := by
    have hexp : (Nat.log 2 n : Int) - Nat.log 2 d + 1 = (Nat.log 2 n + 1 : Nat) - Nat.log 2 d := by
      push_cast
      ring
    rw [hexp, zpow_sub₀ (by norm_num), zpow_natCast, zpow_natCast]
    exact div_lt_div₀ hhigh hlow' (by positivity) (by positivity)
  simp only [exponentOf]
  split
  · next h => exact ⟨hbelow, by rwa [sub_add_cancel, div_lt_two_zpow hd]⟩
  · next h =>
      rw [← div_lt_two_zpow hd, not_lt] at h
      exact ⟨h, habove⟩

theorem exponentOf_mono (hn : 0 < n) (hd : 0 < d) (hn' : 0 < n') (hd' : 0 < d')
    (h : n * d' ≤ n' * d) : exponentOf n d ≤ exponentOf n' d' := by
  have hle : (n : ℚ) / d ≤ (n' : ℚ) / d' := by
    rw [div_le_div_iff₀ (Nat.cast_pos.mpr hd) (Nat.cast_pos.mpr hd')]
    exact_mod_cast h
  have hlt := ((exponentOf_spec hn hd).1.trans hle).trans_lt (exponentOf_spec hn' hd').2
  have := (zpow_lt_zpow_iff_right₀ (by norm_num : (1 : ℚ) < 2)).mp hlt
  omega

/-- The scaled quotient that is rounded to the significand. -/
theorem scaled_eq (e : Int) :
    ((n * 2 ^ (52 - e).toNat : Nat) : ℚ) / (d * 2 ^ (e - 52).toNat : Nat) =
      (n : ℚ) / d * 2 ^ (52 - e) := by
  rw [two_zpow, neg_sub]
  push_cast
  rw [div_mul_div_comm]

theorem significandOf_le (hn : 0 < n) (hd : 0 < d) : significandOf n d ≤ 2 ^ 53 := by
  refine (roundHalfEven_le _ _).trans ?_
  rw [Nat.succ_le_iff, Nat.div_lt_iff_lt_mul (by positivity)]
  have hlt : (n : ℚ) / d * 2 ^ (52 - heldExponent n d) < 2 ^ 53 := by
    have hexp : (53 : Int) = heldExponent n d + 1 + (52 - heldExponent n d) := by ring
    have hpow : (2 : ℚ) ^ 53 = 2 ^ (heldExponent n d + 1) * 2 ^ (52 - heldExponent n d) := by
      rw [← zpow_add₀ (by norm_num), ← hexp]
      norm_num
    rw [hpow]
    refine mul_lt_mul_of_pos_right ((exponentOf_spec hn hd).2.trans_le ?_) (by positivity)
    refine zpow_le_zpow_right₀ (by norm_num) ?_
    rw [heldExponent]
    omega
  rw [← scaled_eq, div_lt_iff₀ (by exact_mod_cast (by positivity))] at hlt
  exact_mod_cast hlt

theorem le_significandOf (hn : 0 < n) (hd : 0 < d) (h : -1022 < heldExponent n d) :
    2 ^ 52 ≤ significandOf n d := by
  refine le_trans ?_ (div_le_roundHalfEven _ _)
  rw [Nat.le_div_iff_mul_le (by positivity)]
  have heq : heldExponent n d = exponentOf n d := by
    rw [heldExponent] at h ⊢
    omega
  have hle : (2 : ℚ) ^ 52 ≤ (n : ℚ) / d * 2 ^ (52 - heldExponent n d) := by
    have hpow : (2 : ℚ) ^ 52 = 2 ^ heldExponent n d * 2 ^ (52 - heldExponent n d) := by
      rw [← zpow_add₀ (by norm_num), add_sub_cancel]
      norm_num
    rw [hpow, heq]
    exact mul_le_mul_of_nonneg_right (exponentOf_spec hn hd).1 (by positivity)
  rw [← scaled_eq, le_div_iff₀ (by exact_mod_cast (by positivity))] at hle
  exact_mod_cast hle

/-- Rounding respects the order. -/
theorem magnitudeBits_mono (hd : 0 < d) (hd' : 0 < d') (h : n * d' ≤ n' * d) :
    magnitudeBits n d ≤ magnitudeBits n' d' := by
  obtain rfl | hn := Nat.eq_zero_or_pos n
  · rw [magnitudeBits, if_pos rfl]
    exact Nat.zero_le _
  have hn' : 0 < n' := Nat.pos_of_mul_pos_right ((Nat.mul_pos hn hd').trans_le h)
  have hexp : heldExponent n d ≤ heldExponent n' d' :=
    max_le_max (exponentOf_mono hn hd hn' hd' h) le_rfl
  have hleast : -1022 ≤ heldExponent n d := le_max_right _ _
  rw [magnitudeBits_eq hn.ne', magnitudeBits_eq hn'.ne']
  refine min_le_min ?_ le_rfl
  obtain heq | hlt := hexp.eq_or_lt
  · rw [heq]
    refine Nat.add_le_add_left ?_ _
    rw [significandOf, significandOf, heq]
    refine roundHalfEven_mono (by positivity) (by positivity) ?_
    calc n * 2 ^ (52 - heldExponent n' d').toNat * (d' * 2 ^ (heldExponent n' d' - 52).toNat)
        = n * d' * (2 ^ (52 - heldExponent n' d').toNat * 2 ^ (heldExponent n' d' - 52).toNat) := by
          ring
      _ ≤ n' * d * (2 ^ (52 - heldExponent n' d').toNat *
            2 ^ (heldExponent n' d' - 52).toNat) := Nat.mul_le_mul_right _ h
      _ = n' * 2 ^ (52 - heldExponent n' d').toNat * (d * 2 ^ (heldExponent n' d' - 52).toNat) := by
          ring
  · have hhigh := significandOf_le hn hd
    have hlow := le_significandOf hn' hd' (by omega)
    have hstep : (heldExponent n d + 1022).toNat + 1 ≤ (heldExponent n' d' + 1022).toNat := by
      omega
    have hmul := Nat.mul_le_mul_right (2 ^ 52) hstep
    omega

end Exponent

section Rationals

/-- The bits of the double nearest to a rational that is not negative. -/
def magnitude (q : ℚ) : Nat := magnitudeBits q.num.natAbs q.den

variable {p q : ℚ}

theorem magnitude_le (q : ℚ) : magnitude q ≤ infinityBits := by
  rw [magnitude, magnitudeBits]
  split
  · exact Nat.zero_le _
  · exact Nat.min_le_right _ _

theorem magnitude_mono (hp : 0 ≤ p) (h : p ≤ q) : magnitude p ≤ magnitude q := by
  refine magnitudeBits_mono p.den_pos q.den_pos ?_
  have hcross := (Rat.le_iff p q).mp h
  zify
  rwa [abs_of_nonneg (Rat.num_nonneg.mpr hp), abs_of_nonneg (Rat.num_nonneg.mpr (hp.trans h))]

theorem magnitude_div (n : Nat) {d : Nat} (hd : 0 < d) :
    magnitude ((n : ℚ) / d) = magnitudeBits n d := by
  have hd' : (d : ℚ) ≠ 0 := Nat.cast_ne_zero.mpr hd.ne'
  have hq : (0 : ℚ) ≤ (n : ℚ) / d := by positivity
  have hcross : ((n : ℚ) / d).num.natAbs * d = n * ((n : ℚ) / d).den := by
    have hden : (((n : ℚ) / d).den : ℚ) ≠ 0 := Nat.cast_ne_zero.mpr (Rat.den_ne_zero _)
    have hval := Rat.num_div_den ((n : ℚ) / d)
    rw [div_eq_div_iff hden hd'] at hval
    zify
    rw [abs_of_nonneg (Rat.num_nonneg.mpr hq)]
    exact_mod_cast hval
  exact le_antisymm (magnitudeBits_mono (Rat.den_pos _) hd hcross.le)
    (magnitudeBits_mono hd (Rat.den_pos _) hcross.ge)

theorem bits_ofRat (hq : 0 ≤ q) : (ofRat q).bits.toNat = magnitude q := by
  have hle := magnitude_le q
  rw [infinityBits] at hle
  rw [ofRat, if_neg hq.not_gt, Nat.zero_add, ← magnitude, UInt64.toNat_ofNat']
  exact Nat.mod_eq_of_lt (by omega)

theorem isNaN_ofRat (hq : 0 ≤ q) : (ofRat q).isNaN = false := by
  have hle := magnitude_le q
  rw [infinityBits] at hle
  rw [isNaN, isFinite, exponent, significand, bits_ofRat hq]
  simp only [bne, Bool.not_not, Bool.and_eq_false_imp, beq_iff_eq, Bool.not_eq_false']
  omega

theorem isInf_ofRat (hq : 0 ≤ q) : (ofRat q).isInf = decide (magnitude q = infinityBits) := by
  have hle := magnitude_le q
  rw [infinityBits] at hle
  rw [isInf, isFinite, exponent, significand, bits_ofRat hq, infinityBits]
  by_cases heq : magnitude q = 2047 * 2 ^ 52
  · simp [heq]
  · simp only [bne, Bool.not_not, heq, decide_false, Bool.and_eq_false_imp, beq_iff_eq,
      beq_eq_false_iff_ne]
    omega

theorem rank_ofRat (hq : 0 ≤ q) : Aggregate.rank (ofRat q) = magnitude q := by
  have hle := magnitude_le q
  rw [infinityBits] at hle
  rw [Aggregate.rank, negative, bits_ofRat hq, decide_eq_false (by omega),
    Nat.mod_eq_of_lt (by omega)]
  simp

theorem less_ofRat (hp : 0 ≤ p) (hq : 0 ≤ q) :
    less (ofRat p) (ofRat q) = decide (magnitude p < magnitude q) := by
  simp [less, isNaN_ofRat hp, isNaN_ofRat hq, rank_ofRat hp, rank_ofRat hq]

end Rationals

end NodeScope.Lib.Float64
