import Mathlib.Algebra.Order.Ring.Int
import Mathlib.Data.Int.Basic

/-!
# Instants, database timestamps and their printed form

An instant is a count of nanoseconds from the Unix epoch, without a location:
every time the program compares, stores or prints is first taken to UTC. The
database type `timestamptz` keeps a count of microseconds from the same epoch,
and the driver drops the rest of a nanosecond count by rounding down.
-/

namespace NodeScope.Lib.Time

def nanosPerSecond : Int := 1000000000

/-- A duration of whole seconds, in nanoseconds. -/
def seconds (n : Int) : Int := n * nanosPerSecond

/-- A duration of whole seconds, in the database's microseconds. -/
def sqlSeconds (n : Int) : Int := n * 1000000

/-- What the database driver sends for an instant. -/
def toTimestamp (t : Int) : Int := t / 1000

/-- The instant a stored timestamp denotes. -/
def ofTimestamp (t : Int) : Int := t * 1000

theorem ofTimestamp_lt_ofTimestamp {s t : Int} : ofTimestamp s < ofTimestamp t ↔ s < t := by
  simp only [ofTimestamp]
  omega

/-- Go's zero time, 0001-01-01T00:00:00Z. -/
def zeroTime : Int := seconds (-62135596800)

/-- `Time.IsZero`. -/
def isZero (t : Int) : Bool := t == zeroTime

/-- `Time.Sub`: a difference that a `time.Duration` cannot hold is cut to the nearest one that
it can. -/
def sub (t u : Int) : Int := max (-2 ^ 63) (min (2 ^ 63 - 1) (t - u))

theorem le_sub_iff {t u d : Int} (hlow : -2 ^ 63 < d) (hhigh : d < 2 ^ 63) :
    d ≤ sub t u ↔ d ≤ t - u := by
  simp only [sub]
  omega

/-- The least timestamp of the type `timestamptz`, 4714-11-24 BC. -/
def minTimestamp : Int := -210866803200000000

/-- The first instant after the type `timestamptz`, 294277-01-01. -/
def endTimestamp : Int := 9224318016000000000

/-- The value can be stored in a column of type `timestamptz`. -/
def storable (t : Int) : Bool := minTimestamp ≤ t && t < endTimestamp

theorem storable_iff {t : Int} : storable t = true ↔ minTimestamp ≤ t ∧ t < endTimestamp := by
  simp [storable]

/-- `Time.MarshalJSON` refuses a year outside 0 to 9999. -/
def jsonEncodable (t : Int) : Bool :=
  seconds (-62167219200) ≤ t && t < seconds 253402300800

theorem jsonEncodable_iff {t : Int} :
    jsonEncodable t = true ↔ seconds (-62167219200) ≤ t ∧ t < seconds 253402300800 := by
  simp [jsonEncodable]

/-- The proleptic Gregorian date of a day number counted from 1970-01-01. The
count is shifted to an era of 400 years that starts on 0000-03-01. -/
def civil (day : Int) : Int × Nat × Nat :=
  let shifted := day + 719468
  let era := shifted / 146097
  let doe := (shifted % 146097).toNat
  let yoe := (doe - doe / 1460 + doe / 36524 - doe / 146096) / 365
  let doy := doe - (365 * yoe + yoe / 4 - yoe / 100)
  let mp := (5 * doy + 2) / 153
  let month := if mp < 10 then mp + 3 else mp - 9
  let year := era * 400 + yoe + (if month ≤ 2 then 1 else 0)
  (year, month, doy - (153 * mp + 2) / 5 + 1)

/-- Left padding with zeros to a width, as in Go's `appendInt`. -/
def padded (width n : Nat) : String :=
  let digits := (Nat.repr n).toList
  String.ofList (List.replicate (width - digits.length) '0' ++ digits)

/-- The year of a printed time: four digits at least, after a sign. -/
def paddedYear (year : Int) : String :=
  if year < 0 then "-" ++ padded 4 year.natAbs else padded 4 year.natAbs

/-- The fraction of a second of the layout `.999999999`: trailing zeros and an
empty fraction are not printed. -/
def fraction (nanos : Nat) : String :=
  match ((padded 9 nanos).toList.reverse.dropWhile (fun c => c == '0')).reverse with
  | [] => ""
  | digits => "." ++ String.ofList digits

/-- `t.UTC().Format(time.RFC3339Nano)`. -/
def formatRFC3339Nano (t : Int) : String :=
  let second := t / nanosPerSecond
  let date := civil (second / 86400)
  let clock := (second % 86400).toNat
  paddedYear date.1 ++ "-" ++ padded 2 date.2.1 ++ "-" ++ padded 2 date.2.2 ++ "T" ++
    padded 2 (clock / 3600) ++ ":" ++ padded 2 (clock / 60 % 60) ++ ":" ++
    padded 2 (clock % 60) ++ fraction (t % nanosPerSecond).toNat ++ "Z"

example : formatRFC3339Nano 1784722200000000000 = "2026-07-22T12:10:00Z" := by
  decide +kernel

example : formatRFC3339Nano (zeroTime + 1500) = "0001-01-01T00:00:00.0000015Z" := by
  decide +kernel

end NodeScope.Lib.Time
