import NodeScope.Lib.Time
import Mathlib.Data.Rat.Defs
import Mathlib.Data.Nat.Log

/-!
# Doubles as bit patterns

A double is carried through the program as its 64 bits, so that transport
keeps every value, the infinities and the payloads of NaN included. Its
numeric meaning is a rational. Conversion from a rational rounds to the
nearest double, with ties to the even significand.
-/

namespace NodeScope.Lib

/-- An IEEE 754 binary64 value. -/
structure Float64 where
  bits : UInt64
deriving DecidableEq

namespace Float64

def exponent (x : Float64) : Nat := x.bits.toNat / 2 ^ 52 % 2048

def significand (x : Float64) : Nat := x.bits.toNat % 2 ^ 52

def negative (x : Float64) : Bool := 2 ^ 63 ≤ x.bits.toNat

/-- Neither an infinity nor a NaN. -/
def isFinite (x : Float64) : Bool := x.exponent != 2047

/-- The magnitude of a finite double as a whole number of units of `2 ^ (-1074)`. -/
def units (x : Float64) : Nat :=
  if x.exponent = 0 then x.significand else (2 ^ 52 + x.significand) * 2 ^ (x.exponent - 1)

/-- The rational a finite double denotes. -/
def toRat (x : Float64) : ℚ :=
  if x.negative then -((x.units : ℚ) / 2 ^ 1074) else (x.units : ℚ) / 2 ^ 1074

/-- The nearest whole number to `n / d`, ties to even. -/
def roundHalfEven (n d : Nat) : Nat :=
  let q := n / d
  let r := n % d
  if 2 * r < d then q
  else if d < 2 * r then q + 1
  else q + q % 2

/-- The bits of the double nearest to `n / d`, without a sign. The exponent is
chosen so that the rounded significand has 53 bits, or fewer below the least
normal exponent; a carry out of the significand moves into the exponent. -/
def magnitudeBits (n d : Nat) : Nat :=
  if n = 0 then 0
  else
    let guess : Int := (Nat.log 2 n : Int) - Nat.log 2 d
    let below : Bool := decide (n * 2 ^ (-guess).toNat < d * 2 ^ guess.toNat)
    let e : Int := max (if below then guess - 1 else guess) (-1022)
    let m := roundHalfEven (n * 2 ^ (52 - e).toNat) (d * 2 ^ (e - 52).toNat)
    min ((e + 1022).toNat * 2 ^ 52 + m) (2047 * 2 ^ 52)

/-- The double nearest to a rational. -/
def ofRat (q : ℚ) : Float64 :=
  ⟨UInt64.ofNat ((if q < 0 then 2 ^ 63 else 0) + magnitudeBits q.num.natAbs q.den)⟩

example : ofRat 73.25 = ⟨0x4052500000000000⟩ := by decide +kernel

example : ofRat (-1 / 10) = ⟨0xBFB999999999999A⟩ := by decide +kernel

example : (ofRat 73.25).toRat = 293 / 4 := by decide +kernel

/-- `time.Time.Sub`, which saturates at the ends of the type `Duration`. -/
def durationBetween (later earlier : Int) : Int :=
  max (-2 ^ 63) (min (later - earlier) (2 ^ 63 - 1))

/-- `Duration.Seconds`: whole seconds and the fraction are converted apart. -/
def durationSeconds (d : Int) : Float64 :=
  let sec := ofRat (d.tdiv Time.nanosPerSecond)
  let nsec := ofRat (d.tmod Time.nanosPerSecond)
  ofRat (sec.toRat + (ofRat (nsec.toRat / Time.nanosPerSecond)).toRat)

example : durationSeconds 1500000000 = ofRat 1.5 := by decide +kernel

end Float64

end NodeScope.Lib
