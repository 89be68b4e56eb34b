import NodeScope.Lib.Float64
import NodeScope.Lib.Text

/-!
# Reading doubles and computing with them

`parseFloat` is Go's `strconv.ParseFloat` for 64 bits: decimal and hexadecimal literals with
their underscores, infinities and NaN. A literal beyond the finite doubles is an error.

## Implementation notes

Which bits a NaN has that comes out of a computation depends on the machine; the operations
give the one Go itself uses.
-/

namespace NodeScope.Lib.Float64

/-- The bit of the sign. -/
def signBit (negative : Bool) : Nat := if negative then 2 ^ 63 else 0

/-- The double of a sign and of the bits below it. -/
def ofMagnitude (negative : Bool) (bits : Nat) : Float64 := ⟨UInt64.ofNat (signBit negative + bits)⟩

/-- The bits of an infinity, without a sign. -/
def infinityBits : Nat := 2047 * 2 ^ 52

def inf (negative : Bool) : Float64 := ofMagnitude negative infinityBits

/-- Go's `math.NaN`. -/
def nan : Float64 := ⟨0x7FF8000000000001⟩

/-- Go's `math.IsNaN`. -/
def isNaN (x : Float64) : Bool := !x.isFinite && x.significand != 0

def isZero (x : Float64) : Bool := x.isFinite && x.units == 0

/-- The double nearest to a rational that is not zero, or a zero with the given sign. -/
def rounded (negative : Bool) (q : ℚ) : Float64 :=
  if q = 0 then ofMagnitude negative 0 else ofRat q

/-- The product of two doubles. -/
def mul (x y : Float64) : Float64 :=
  let negative := x.negative != y.negative
  if x.isNaN || y.isNaN then nan
  else if !x.isFinite || !y.isFinite then
    if x.isZero || y.isZero then nan else inf negative
  else rounded negative (x.toRat * y.toRat)

/-- The quotient of two doubles. -/
def div (x y : Float64) : Float64 :=
  let negative := x.negative != y.negative
  if x.isNaN || y.isNaN then nan
  else if !x.isFinite then if y.isFinite then inf negative else nan
  else if !y.isFinite then ofMagnitude negative 0
  else if y.isZero then if x.isZero then nan else inf negative
  else rounded negative (x.toRat / y.toRat)

/-- The difference of two doubles. -/
def sub (x y : Float64) : Float64 :=
  if x.isNaN || y.isNaN then nan
  else if !x.isFinite then
    if !y.isFinite && x.negative == y.negative then nan else x
  else if !y.isFinite then inf !y.negative
  else rounded (x.negative && !y.negative) (x.toRat - y.toRat)

def neg (x : Float64) : Float64 := ofMagnitude (!x.negative) (x.bits.toNat % 2 ^ 63)

def add (x y : Float64) : Float64 := sub x (neg y)

def positive (x : Float64) : Bool := !x.isNaN && !x.negative && !x.isZero

def ofNat (n : Nat) : Float64 := ofRat n

def ofInt (n : Int) : Float64 := ofRat n

section Parse

def digitValue (base : Nat) (c : Char) : Option Nat :=
  if c.isDigit then some (c.toNat - 48)
  else if base == 16 && 'a' ≤ c.toLower && c.toLower ≤ 'f' then some (c.toLower.toNat - 87)
  else none

/-- The digits read so far, and how many of them stand behind the point. -/
structure Mantissa where
  value : Nat
  fraction : Nat
  sawDot : Bool
  sawDigits : Bool

/-- The digits of a mantissa with its point, and what stands behind them. -/
def readMantissa (base : Nat) : List Char → Mantissa → Mantissa × List Char
  | [], m => (m, [])
  | c :: rest, m =>
      if c == '_' then readMantissa base rest m
      else if c == '.' then
        if m.sawDot then (m, c :: rest) else readMantissa base rest { m with sawDot := true }
      else
        match digitValue base c with
        | some d =>
            readMantissa base rest ⟨base * m.value + d,
              if m.sawDot then m.fraction + 1 else m.fraction, m.sawDot, true⟩
        | none => (m, c :: rest)

/-- The digits of an exponent, which no longer count once they exceed 10000. -/
def readExponent : List Char → Nat → Nat × List Char
  | [], e => (e, [])
  | c :: rest, e =>
      if c == '_' then readExponent rest e
      else if c.isDigit then
        readExponent rest (if e < 10000 then e * 10 + (c.toNat - 48) else e)
      else (e, c :: rest)

def readSign : List Char → Bool × List Char
  | '+' :: rest => (false, rest)
  | '-' :: rest => (true, rest)
  | rest => (false, rest)

/-- Underscores stand between digits, or after the mark of a base. -/
def underscoreOK (hex : Bool) : Char → List Char → Bool
  | saw, [] => saw != '_'
  | saw, c :: rest =>
      if c.isDigit || (hex && 'a' ≤ c.toLower && c.toLower ≤ 'f') then underscoreOK hex '0' rest
      else if c == '_' then saw == '0' && underscoreOK hex '_' rest
      else saw != '_' && underscoreOK hex '!' rest

/-- The optional exponent of a literal, which a hexadecimal one must have. -/
def readOptionalExponent (base : Nat) (s : List Char) : Option Int :=
  match s with
  | [] => if base == 16 then none else some 0
  | c :: rest =>
      if c.toLower == (if base == 16 then 'p' else 'e') then
        let (negative, digits) := readSign rest
        match digits with
        | d :: _ =>
            if d.isDigit then
              match readExponent digits 0 with
              | (e, []) => some (if negative then -e else e)
              | _ => none
            else none
        | [] => none
      else none

/-- The double nearest to `m · base ^ e`, unless it is beyond the finite ones. -/
def scaled (negative : Bool) (m : Mantissa) (base radix : Nat) (e : Int) : Option Float64 :=
  let bits := magnitudeBits (m.value * radix ^ e.toNat) (base ^ m.fraction * radix ^ (-e).toNat)
  if bits = infinityBits then none else some (ofMagnitude negative bits)

/-- A number behind its sign, as `strconv.ParseFloat` reads it. -/
def parseNumber (negative : Bool) (s : List Char) : Option Float64 :=
  let (base, digits) :=
    match s with
    | '0' :: x :: d :: rest => if x.toLower == 'x' then (16, d :: rest) else (10, s)
    | _ => (10, s)
  let (m, rest) := readMantissa base digits ⟨0, 0, false, false⟩
  if m.sawDigits &&
      (!s.contains '_' || underscoreOK (base == 16) (if base == 16 then '0' else '^') digits) then
    (readOptionalExponent base rest).bind fun e =>
      scaled negative m base (if base == 16 then 2 else 10) e
  else none

/-- Go's `strconv.ParseFloat`. -/
def parseFloat (s : String) : Option Float64 :=
  let (negative, rest) := readSign s.toList
  let word := rest.map Char.toLower
  if word == "inf".toList || word == "infinity".toList then some (inf negative)
  else if s.toList.map Char.toLower == "nan".toList then some nan
  else parseNumber negative rest

example : parseFloat "73.25" = some (ofRat 73.25) := by decide +kernel

example : parseFloat "0x_1.8p-1" = some (ofRat 0.75) := by decide +kernel

example : parseFloat "1e999" = none := by decide +kernel

end Parse

end NodeScope.Lib.Float64
