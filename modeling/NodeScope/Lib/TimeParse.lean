import Mathlib.Tactic.IntervalCases
import NodeScope.Lib.TimeText

/-!
# Instants in JSON

`Time.MarshalJSON` prints an instant in the zone it was read in, and `Time.UnmarshalJSON` reads it
with `time.Parse`. The zone is printed in whole minutes, so that an offset with seconds moves the
instant that is read.

## Implementation notes

`Time.UnmarshalJSON` first tries a stricter reader of the same layout. What that one accepts,
`time.Parse` accepts with the same result, so that only `time.Parse` is modelled.
-/

namespace NodeScope.Lib.Time

section Definitions

/-- The zone of the layout `RFC3339`, for an offset in seconds. -/
def zoneText (offset : Int) : List Char :=
  let zone := (offset.tdiv 60).natAbs
  if offset = 0 then ['Z']
  else (if offset.tdiv 60 < 0 then '-' else '+') :: ((padded 2 (zone / 60)).toList ++
    ':' :: (padded 2 (zone % 60)).toList)

/-- The instant in a zone: what it is in UTC where the clock shows the same, with the offset in
place of the last letter. -/
def formatZone (offset t : Int) : String :=
  String.ofList ((formatRFC3339Nano (t + seconds offset)).toList.dropLast ++ zoneText offset)

/-- `Time.MarshalJSON` writes years of four digits and offsets of less than a day. -/
def zoneEncodable (offset t : Int) : Bool :=
  jsonEncodable (t + seconds offset) && (offset.tdiv 60).natAbs / 60 < 24

/-- Go's `getnum`: two digits, or one where that is enough. -/
def getnum (fixed : Bool) : List Char → Option (Nat × List Char)
  | a :: b :: rest =>
      if a.isDigit && b.isDigit then some (Nat.ofDigitChars 10 [a, b] 0, rest)
      else if a.isDigit && !fixed then some (Nat.ofDigitChars 10 [a] 0, b :: rest)
      else none
  | [a] => if a.isDigit && !fixed then some (Nat.ofDigitChars 10 [a] 0, []) else none
  | [] => none

/-- A number from a range. -/
def getRange (fixed : Bool) (low high : Nat) (s : List Char) : Option (Nat × List Char) :=
  (getnum fixed s).filter fun number => decide (low ≤ number.1 ∧ number.1 ≤ high)

def skipChar (c : Char) : List Char → Option (List Char)
  | x :: rest => if x = c then some rest else none
  | [] => none

def getYear (s : List Char) : Option (Nat × List Char) :=
  let digits := s.take 4
  if digits.length = 4 ∧ digits.all Char.isDigit then some (Nat.ofDigitChars 10 digits 0, s.drop 4)
  else none

def commaOrPeriod (c : Char) : Bool := c = '.' || c = ','

/-- Go's `parseNanoseconds`: digits beyond the ninth are dropped. -/
def parseNanoseconds (digits : List Char) : Nat :=
  Nat.ofDigitChars 10 (digits.take 9) 0 * 10 ^ (9 - digits.length)

/-- The fraction of a second, which no layout needs to name. -/
def getFraction (s : List Char) : Nat × List Char :=
  match s with
  | c :: d :: rest =>
      if commaOrPeriod c && d.isDigit then
        (parseNanoseconds ((d :: rest).takeWhile Char.isDigit), (d :: rest).dropWhile Char.isDigit)
      else (0, s)
  | _ => (0, s)

/-- The offset of a zone in seconds. Offsets of 24 hours and 60 minutes pass. -/
def getZone (s : List Char) : Option (Int × List Char) :=
  match s with
  | 'Z' :: rest => some (0, rest)
  | sign :: a :: b :: ':' :: c :: d :: rest => do
      let (hr, _) ← getRange true 0 24 [a, b]
      let (mm, _) ← getRange true 0 60 [c, d]
      let offset : Int := (hr * 60 + mm) * 60
      if sign = '+' then pure (offset, rest)
      else if sign = '-' then pure (-offset, rest)
      else none
  | _ => none

def isLeap (year : Nat) : Bool := year % 4 = 0 && (year % 100 ≠ 0 || year % 400 = 0)

def daysIn (month year : Nat) : Nat :=
  if month = 2 then if isLeap year then 29 else 28
  else if month = 4 ∨ month = 6 ∨ month = 9 ∨ month = 11 then 30
  else 31

def getDate (s : List Char) : Option ((Nat × Nat × Nat) × List Char) := do
  let (year, s) ← getYear s
  let s ← skipChar '-' s
  let (month, s) ← getRange true 1 12 s
  let s ← skipChar '-' s
  let (day, s) ← getnum true s
  pure ((year, month, day), s)

/-- The seconds of a day. -/
def getClock (s : List Char) : Option (Nat × List Char) := do
  let (hour, s) ← getRange false 0 23 s
  let s ← skipChar ':' s
  let (min, s) ← getRange true 0 59 s
  let s ← skipChar ':' s
  let (sec, s) ← getRange true 0 59 s
  pure (hour * 3600 + min * 60 + sec, s)

/-- `time.Parse(time.RFC3339, s)`. The day is checked against its month at the end. -/
def parseRFC3339 (s : List Char) : Option Int := do
  let ((year, month, day), s) ← getDate s
  let s ← skipChar 'T' s
  let (clock, s) ← getClock s
  let (nsec, s) := getFraction s
  let (offset, s) ← getZone s
  if s.isEmpty ∧ 1 ≤ day ∧ day ≤ daysIn month year then
    some (seconds (dayOfCivil (year, month, day) * 86400 + clock - offset) + nsec)
  else none

end Definitions

section Calendar

/-- A day of an era lies before the year after the one it falls into. -/
theorem lt_yearStart_succ {doe : Nat} (hyear : commonDays doe / 365 < 399) :
    doe < yearStart (commonDays doe / 365 + 1) := by
  by_contra hlate
  have hmono : commonDays (yearStart (commonDays doe / 365 + 1)) ≤ commonDays doe :=
    commonDays_mono (Nat.le_of_not_lt hlate)
  have hstart := (commonDays_yearStart (commonDays doe / 365 + 1) (by omega)).2
  omega

theorem isLeap_iff (year : Nat) :
    isLeap year = true ↔ year % 4 = 0 ∧ (year % 100 ≠ 0 ∨ year % 400 = 0) := by
  simp [isLeap]

/-- The days of an era's year, from March on. -/
theorem dayOfYear_bound {doe : Nat} (h : doe < 146097) :
    doe - yearStart (commonDays doe / 365) ≤ 364 ∨
      (doe - yearStart (commonDays doe / 365) = 365 ∧
        isLeap (commonDays doe / 365 + 1) = true) := by
  obtain ⟨hyear, hfrom, hto⟩ := yearStart_bounds h
  rw [isLeap_iff]
  by_cases hlast : commonDays doe / 365 < 399
  · have hnext := lt_yearStart_succ hlast
    generalize commonDays doe / 365 = yoe at *
    have hquarter : (yoe + 1) / 4 = yoe / 4 + if 4 ∣ yoe + 1 then 1 else 0 := Nat.succ_div
    have hcentury : (yoe + 1) / 100 = yoe / 100 + if 100 ∣ yoe + 1 then 1 else 0 :=
      Nat.succ_div
    simp only [yearStart] at *
    split_ifs at hquarter hcentury <;> omega
  · obtain hyoe : commonDays doe / 365 = 399 := by omega
    have hstart : yearStart 399 = 145731 := by decide
    rw [hyoe, hstart]
    omega

theorem isLeap_era (era : Int) (year : Nat) (h : 0 ≤ era * 400 + year) :
    isLeap (era * 400 + year).toNat = isLeap year := by
  rw [Bool.eq_iff_iff, isLeap_iff, isLeap_iff]
  omega

/-- The date of a day is one of the calendar. -/
theorem civil_valid {day : Int} (hyear : 0 ≤ (civil day).1) :
    (1 ≤ (civil day).2.1 ∧ (civil day).2.1 ≤ 12) ∧
      1 ≤ (civil day).2.2 ∧ (civil day).2.2 ≤ daysIn (civil day).2.1 (civil day).1.toNat := by
  have hdoe : ((day + 719468) % 146097).toNat < 146097 := by omega
  have hbound := dayOfYear_bound hdoe
  simp only [civil] at hyear ⊢
  rw [← commonDays, ← yearStart] at hyear ⊢
  generalize ((day + 719468) % 146097).toNat = doe at *
  generalize commonDays doe / 365 = yoe at *
  generalize doe - yearStart yoe = doy at *
  generalize (day + 719468) / 146097 = era at *
  have hleap : 0 ≤ era * 400 + (yoe : Int) + 1 →
      isLeap (era * 400 + (yoe : Int) + 1).toNat = isLeap (yoe + 1) := by
    intro h
    have := isLeap_era era (yoe + 1) (by omega)
    rwa [Int.natCast_add, Int.natCast_one, ← Int.add_assoc] at this
  have hmp : (5 * doy + 2) / 153 ≤ 11 := by omega
  have hdiv := Nat.div_add_mod (5 * doy + 2) 153
  have hmod := Nat.mod_lt (5 * doy + 2) (Nat.zero_lt_succ 152)
  generalize (5 * doy + 2) / 153 = mp at *
  generalize (5 * doy + 2) % 153 = r at *
  interval_cases mp
  all_goals simp [daysIn] at hyear ⊢
  all_goals try omega
  -- February is left, whose length depends on the year
  rw [hleap hyear]
  obtain hshort | ⟨hlong, hyes⟩ := hbound
  · split <;> omega
  · rw [if_pos hyes]
    omega

theorem civil_year {day : Int} (hlow : -719528 ≤ day) (hhigh : day < 2932897) :
    0 ≤ (civil day).1 ∧ (civil day).1 ≤ 9999 := by
  have hdoe : ((day + 719468) % 146097).toNat < 146097 := by omega
  obtain ⟨hyear, hfrom, hto⟩ := yearStart_bounds hdoe
  have hera := Int.mul_ediv_add_emod (day + 719468) 146097
  have hcast : (((day + 719468) % 146097).toNat : Int) = (day + 719468) % 146097 := by omega
  have hrange : -1 ≤ (day + 719468) / 146097 ∧ (day + 719468) / 146097 ≤ 24 := by omega
  simp only [civil]
  rw [← commonDays, ← yearStart]
  generalize ((day + 719468) % 146097).toNat = doe at *
  generalize commonDays doe / 365 = yoe at *
  generalize hdoy : doe - yearStart yoe = doy
  have hearly : doy < 306 → (5 * doy + 2) / 153 < 10 := by omega
  have hlate : 306 ≤ doy → 10 ≤ (5 * doy + 2) / 153 ∧ (5 * doy + 2) / 153 ≤ 11 := by omega
  generalize (5 * doy + 2) / 153 = mp at *
  simp only [yearStart] at *
  generalize (day + 719468) / 146097 = era at *
  split_ifs <;> omega

end Calendar

section Fields

variable {n : Nat} {rest : List Char}

theorem value_padded (width n : Nat) : Nat.ofDigitChars 10 (padded width n).toList 0 = n := by
  rw [toList_padded, Nat.ofDigitChars_append, Nat.ofDigitChars_replicate_zero, Nat.mul_zero,
    Nat.ofDigitChars_ten_toDigits]

theorem getnum_padded (fixed : Bool) (h : n < 100) (rest : List Char) :
    getnum fixed ((padded 2 n).toList ++ rest) = some (n, rest) := by
  have hlength : (padded 2 n).toList.length = 2 := length_padded (by decide) h
  obtain ⟨a, b, hpair⟩ := List.length_eq_two.mp hlength
  have hdigit (c : Char) (hc : c ∈ [a, b]) : c.isDigit = true :=
    isDigit_of_mem_padded (hpair ▸ hc)
  have hvalue := value_padded 2 n
  rw [hpair] at hvalue ⊢
  simp [getnum, hdigit a (by simp), hdigit b (by simp), hvalue]

theorem getRange_padded (fixed : Bool) {low high : Nat} (hlow : low ≤ n) (hhigh : n ≤ high)
    (h : n < 100) (rest : List Char) :
    getRange fixed low high ((padded 2 n).toList ++ rest) = some (n, rest) := by
  rw [getRange, getnum_padded fixed h, Option.filter_some]
  simp [hlow, hhigh]

theorem getYear_padded (h : n < 10000) (rest : List Char) :
    getYear ((padded 4 n).toList ++ rest) = some (n, rest) := by
  have hlength : (padded 4 n).toList.length = 4 := length_padded (by decide) h
  have hall : (padded 4 n).toList.all Char.isDigit = true :=
    List.all_eq_true.mpr fun c hc => isDigit_of_mem_padded hc
  rw [getYear, List.take_left' hlength, List.drop_left' hlength]
  simp [hlength, hall, value_padded]

theorem skipChar_cons (c : Char) (rest : List Char) : skipChar c (c :: rest) = some rest :=
  if_pos rfl

/-- A fraction in full is its significant digits with zeros after them. -/
theorem significant_append (h : n < 10 ^ 9) :
    significant n ++ List.replicate (9 - (significant n).length) '0' = (padded 9 n).toList := by
  have hsplit := congrArg List.reverse
    (replicate_append_dropWhile '0' (padded 9 n).toList.reverse)
  rw [List.reverse_append, List.reverse_replicate, List.reverse_reverse, List.length_reverse,
    length_padded (by decide) h] at hsplit
  rw [significant, List.length_reverse]
  exact hsplit

theorem parseNanoseconds_significant (h : n < 10 ^ 9) :
    parseNanoseconds (significant n) = n := by
  have hsplit := significant_append h
  have hlength := congrArg List.length hsplit
  rw [List.length_append, length_padded (by decide) h] at hlength
  have hvalue := value_padded 9 n
  rw [← hsplit, Nat.ofDigitChars_append, Nat.ofDigitChars_replicate_zero] at hvalue
  rw [parseNanoseconds, List.take_of_length_le (by omega), Nat.mul_comm]
  exact hvalue

theorem isDigit_of_mem_significant {c : Char} (h : c ∈ significant n) : c.isDigit = true :=
  isDigit_of_mem_padded (List.mem_reverse.mp (List.dropWhile_subset _ (List.mem_reverse.mp h)))

theorem getFraction_fraction (h : n < 10 ^ 9) {c : Char} (hdigit : c.isDigit = false)
    (hpoint : commaOrPeriod c = false) (rest : List Char) :
    getFraction ((fraction n).toList ++ c :: rest) = (n, c :: rest) := by
  have hvalue := parseNanoseconds_significant h
  rw [toList_fraction]
  cases hdigits : significant n with
  | nil =>
      rw [hdigits] at hvalue
      have hzero : n = 0 := hvalue.symm
      rw [if_pos rfl, List.nil_append, hzero, getFraction.eq_def]
      cases rest with
      | nil => rfl
      | cons d rest => simp [hpoint]
  | cons d ds =>
      have hall : ∀ x ∈ d :: ds, x.isDigit = true := fun x hx =>
        isDigit_of_mem_significant (hdigits ▸ hx)
      have htake : ((d :: ds) ++ c :: rest).takeWhile Char.isDigit = d :: ds := by
        rw [List.takeWhile_append_of_pos hall, List.takeWhile_cons_of_neg (by simp [hdigit]),
          List.append_nil]
      have hdrop : ((d :: ds) ++ c :: rest).dropWhile Char.isDigit = c :: rest := by
        rw [List.dropWhile_append_of_pos hall, List.dropWhile_cons_of_neg (by simp [hdigit])]
      rw [List.cons_append] at htake hdrop
      rw [hdigits] at hvalue
      rw [if_neg (List.cons_ne_nil _ _), List.cons_append, List.cons_append, getFraction, htake,
        hdrop, hvalue]
      simp [commaOrPeriod, hall d List.mem_cons_self]

end Fields

section RoundTrip

variable {offset t : Int}

theorem zoneText_eq_cons (offset : Int) :
    ∃ c rest, zoneText offset = c :: rest ∧ c.isDigit = false ∧ commaOrPeriod c = false := by
  rw [zoneText]
  split_ifs
  · exact ⟨_, _, rfl, by decide, by decide⟩
  · exact ⟨_, _, rfl, by decide, by decide⟩
  · exact ⟨_, _, rfl, by decide, by decide⟩

/-- The offset is read in whole minutes. -/
theorem getZone_zoneText (h : (offset.tdiv 60).natAbs / 60 < 24) :
    getZone (zoneText offset) = some (offset.tdiv 60 * 60, []) := by
  rw [zoneText]
  by_cases hzero : offset = 0
  · rw [if_pos hzero, hzero]
    rfl
  · rw [if_neg hzero]
    generalize offset.tdiv 60 = zone at *
    have hhour := getRange_padded true (Nat.zero_le (zone.natAbs / 60))
      (by omega : zone.natAbs / 60 ≤ 24) (by omega) []
    have hminute := getRange_padded true (Nat.zero_le (zone.natAbs % 60))
      (by omega : zone.natAbs % 60 ≤ 60) (by omega) []
    obtain ⟨a, b, hab⟩ := List.length_eq_two.mp
      (length_padded (by decide) (by omega : zone.natAbs / 60 < 10 ^ 2))
    obtain ⟨c, d, hcd⟩ := List.length_eq_two.mp
      (length_padded (by decide) (by omega : zone.natAbs % 60 < 10 ^ 2))
    rw [List.append_nil, hab] at hhour
    rw [List.append_nil, hcd] at hminute
    rw [hab, hcd]
    by_cases hnegative : zone < 0
    · simp [hnegative, getZone, hhour, hminute, -Nat.cast_natAbs]
      omega
    · simp [hnegative, getZone, hhour, hminute, -Nat.cast_natAbs]
      omega

/-- The text up to the zone. -/
theorem toList_formatZone (offset t : Int) :
    (formatZone offset t).toList =
      hourText (t + seconds offset) ++
        ':' :: ((padded 2 (clock (t + seconds offset) / 60 % 60)).toList ++
          ':' :: ((padded 2 (clock (t + seconds offset) % 60)).toList ++
            ((fraction ((t + seconds offset) % nanosPerSecond).toNat).toList ++
              zoneText offset))) := by
  have hdrop (a b c : List Char) (x y z : Char) :
      (a ++ x :: (b ++ y :: (c ++ [z]))).dropLast = a ++ x :: (b ++ y :: c) := by
    rw [← @List.dropLast_concat _ (a ++ x :: (b ++ y :: c)) z]
    simp
  rw [formatZone, String.toList_ofList, toList_format, secondText, ← List.append_assoc, hdrop]
  simp

theorem year_of_jsonEncodable (h : jsonEncodable t = true) :
    0 ≤ (date t).1 ∧ (date t).1 ≤ 9999 := by
  rw [jsonEncodable_iff] at h
  simp only [seconds, nanosPerSecond] at h
  apply civil_year <;> simp only [nanosPerSecond] <;> omega

theorem getDate_written {year : Int} {month day : Nat} (hlow : 0 ≤ year) (hhigh : year ≤ 9999)
    (hmonth : 1 ≤ month ∧ month ≤ 12) (hday : day < 100) (rest : List Char) :
    getDate ((paddedYear year).toList ++ '-' :: ((padded 2 month).toList ++
      '-' :: ((padded 2 day).toList ++ rest))) = some ((year.toNat, month, day), rest) := by
  have hyear : year.natAbs = year.toNat := by omega
  rw [toList_paddedYear, if_neg (not_lt.mpr hlow), hyear]
  simp [getDate, getYear_padded (by omega : year.toNat < 10000), skipChar_cons,
    getRange_padded true hmonth.1 hmonth.2 (by omega), getnum_padded true hday]

theorem getClock_written {clock : Nat} (h : clock < 86400) (rest : List Char) :
    getClock ((padded 2 (clock / 3600)).toList ++ ':' :: ((padded 2 (clock / 60 % 60)).toList ++
      ':' :: ((padded 2 (clock % 60)).toList ++ rest))) = some (clock, rest) := by
  have htime : clock / 3600 * 3600 + clock / 60 % 60 * 60 + clock % 60 = clock := by omega
  simp [getClock, skipChar_cons,
    getRange_padded false (Nat.zero_le _) (by omega : clock / 3600 ≤ 23) (by omega),
    getRange_padded true (Nat.zero_le _) (by omega : clock / 60 % 60 ≤ 59) (by omega),
    getRange_padded true (Nat.zero_le _) (by omega : clock % 60 ≤ 59) (by omega), htime]

/-- The fields of a date and a clock are read back. -/
theorem parse_fields {u : Int} (hjson : jsonEncodable u = true) {zone : List Char}
    (hzone : getZone zone = some (offset, []))
    (hfirst : ∃ c rest, zone = c :: rest ∧ c.isDigit = false ∧ commaOrPeriod c = false) :
    parseRFC3339 (hourText u ++ ':' :: ((padded 2 (clock u / 60 % 60)).toList ++
      ':' :: ((padded 2 (clock u % 60)).toList ++
        ((fraction (u % nanosPerSecond).toNat).toList ++ zone)))) = some (u - seconds offset) := by
  obtain ⟨hlow, hhigh⟩ := year_of_jsonEncodable hjson
  obtain ⟨hmonth, hday, hday'⟩ := civil_valid hlow
  rw [← date] at hmonth hday hday'
  have hthirty : daysIn (date u).2.1 (date u).1.toNat ≤ 31 := by
    rw [daysIn]
    split_ifs <;> decide
  have hclock : clock u < 86400 := by
    rw [clock]
    omega
  have hnanos : (u % nanosPerSecond).toNat < 10 ^ 9 := by
    simp only [nanosPerSecond]
    omega
  have hyear : ((date u).1.toNat : Int) = (date u).1 := Int.toNat_of_nonneg hlow
  have hdate : dayOfCivil ((date u).1, (date u).2.1, (date u).2.2) = u / nanosPerSecond / 86400 :=
    dayOfCivil_civil _
  obtain ⟨c, rest, rfl, hdigit, hpoint⟩ := hfirst
  rw [hourText]
  simp only [List.append_assoc, List.cons_append]
  rw [parseRFC3339, getDate_written hlow hhigh hmonth (by omega)]
  simp only [Option.bind_eq_bind, Option.bind_some, skipChar_cons, getClock_written hclock,
    getFraction_fraction hnanos hdigit hpoint, hzone]
  rw [if_pos ⟨rfl, hday, hday'⟩, hyear, hdate, clock, Option.some.injEq]
  simp only [seconds, nanosPerSecond]
  omega

/-- What is read back differs from the instant by the seconds of its offset. -/
theorem parse_formatZone (h : zoneEncodable offset t = true) :
    parseRFC3339 (formatZone offset t).toList = some (t + seconds (offset.tmod 60)) := by
  simp only [zoneEncodable, Bool.and_eq_true, decide_eq_true_eq] at h
  have hminutes := Int.mul_tdiv_add_tmod offset 60
  rw [toList_formatZone, parse_fields h.1 (getZone_zoneText h.2) (zoneText_eq_cons offset)]
  simp only [seconds, nanosPerSecond, Option.some.injEq]
  omega

end RoundTrip

end NodeScope.Lib.Time
