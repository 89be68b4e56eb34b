import Mathlib.Algebra.Order.Ring.Int
import Mathlib.Tactic.Linarith
import Mathlib.Tactic.Ring

/-!
# Counters of 64 bits and what they count

A counter of 64 bits shows what it counts modulo `2 ^ 64`, and so does the difference of two
readings. What was counted between them is the difference with a number of full turns.
-/

namespace NodeScope.Lib.Wrapping

/-- The full turns of a counter in an advance, negative where it went back. -/
def turns (advance : Int) : Int := advance / 2 ^ 64

/-- What the counter shows of an advance. -/
def shown (advance : Int) : Int := advance % 2 ^ 64

theorem shown_nonneg (advance : Int) : 0 ≤ shown advance := Int.emod_nonneg _ (by decide)

theorem shown_add_turns (advance : Int) : shown advance + 2 ^ 64 * turns advance = advance :=
  Int.emod_add_mul_ediv advance (2 ^ 64)

theorem pos_of_shown {advance : Int} (h : 0 ≤ advance) (hshown : shown advance ≠ 0) :
    0 < advance := by
  apply lt_of_le_of_ne h
  rintro rfl
  exact hshown rfl

/-- A sum in 64 bits is what a counter shows of the sum. -/
theorem toNat_foldl_add (values : List UInt64) (start : UInt64) :
    (values.foldl (· + ·) start).toNat =
      (start.toNat + (values.map UInt64.toNat).sum) % 2 ^ 64 := by
  induction values generalizing start with
  | nil =>
      rw [List.foldl_nil, List.map_nil, List.sum_nil, Nat.add_zero,
        Nat.mod_eq_of_lt start.toNat_lt]
  | cons value rest ih =>
      rw [List.foldl_cons, ih, UInt64.toNat_add, List.map_cons, List.sum_cons, Nat.mod_add_mod,
        Nat.add_assoc]

/-- A difference in 64 bits is what a counter shows of the advance. -/
theorem toNat_sub {x y : UInt64} {m n : Nat} (hx : x.toNat = m % 2 ^ 64)
    (hy : y.toNat = n % 2 ^ 64) : ((x - y).toNat : Int) = shown (m - n) := by
  rw [UInt64.toNat_sub, hx, hy, shown]
  omega

/-- The ratio of two advances is that of what the counters show of them, as far as their turns are
in this ratio too. -/
theorem mul_eq_mul_iff (part whole : Int) :
    shown part * whole = part * shown whole ↔
      shown part * turns whole = shown whole * turns part := by
  have hdifference : shown part * whole - part * shown whole =
      2 ^ 64 * (shown part * turns whole - shown whole * turns part) := by
    calc
      shown part * whole - part * shown whole =
          shown part * (shown whole + 2 ^ 64 * turns whole) -
            (shown part + 2 ^ 64 * turns part) * shown whole := by
        rw [shown_add_turns, shown_add_turns]
      _ = 2 ^ 64 * (shown part * turns whole - shown whole * turns part) := by ring
  rw [← sub_eq_zero, hdifference, mul_eq_zero, sub_eq_zero]
  exact or_iff_right (by decide)

section Signed

/-- What a signed integer of 64 bits holds of a number. -/
def signed (n : Int) : Int := (n + 2 ^ 63) % 2 ^ 64 - 2 ^ 63

theorem toInt_ofInt (n : Int) : (Int64.ofInt n).toInt = signed n := by
  rw [Int64.toInt_ofInt, signed, Int.bmod_def]
  simp only [Int64.size]
  split <;> omega

theorem signed_of_lt {n : Int} (h : 0 ≤ n) (hlt : n < 2 ^ 63) : signed n = n := by
  rw [signed]
  omega

theorem shown_of_lt {n : Int} (h : 0 ≤ n) (hlt : n < 2 ^ 63) : shown n = n := by
  rw [shown]
  omega

/-- A sum of two numbers covers both in 64 bits exactly if nothing is lost from what the first one
shows. -/
theorem signed_covers_iff {n more : Int} (hmore : 0 ≤ more) :
    (0 ≤ signed n ∧ signed n ≤ signed (n + more) ∧ more ≤ signed (n + more)) ↔
      shown n + more < 2 ^ 63 := by
  rw [signed, signed, shown]
  constructor
  · rintro ⟨hn, hcovers, hbudget⟩
    omega
  · intro hlt
    refine ⟨?_, ?_, ?_⟩
    · omega
    · omega
    · omega

/-- Numbers that rise from zero by no more than half a turn each pass through the negative ones
before they are too large. -/
theorem lt_of_signed_nonneg (f : Nat → Int) (last : Nat) (hzero : f 0 = 0)
    (hstep : ∀ x < last, f x ≤ f (x + 1) ∧ f (x + 1) ≤ f x + 2 ^ 63)
    (hsigned : ∀ x ≤ last, 0 ≤ signed (f x)) : 0 ≤ f last ∧ f last < 2 ^ 63 := by
  induction last with
  | zero =>
      rw [hzero]
      decide
  | succ last ih =>
      have hbefore := ih (fun x hx => hstep x (Nat.lt_succ_of_lt hx))
        (fun x hx => hsigned x (Nat.le_succ_of_le hx))
      have hlast := hstep last (Nat.lt_succ_self last)
      have hheld := hsigned (last + 1) (Nat.le_refl _)
      rw [signed] at hheld
      omega

end Signed

end NodeScope.Lib.Wrapping
