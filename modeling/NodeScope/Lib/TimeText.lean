import NodeScope.Lib.Text
import NodeScope.Lib.Time

/-!
# The printed form of an instant

The layout `RFC3339Nano` names an instant in UTC, so that two instants with one text are the same.
The text has exactly two colons, so that it can also be told from whatever stands before it and a
colon.
-/

namespace NodeScope.Lib.Time

open Text

section Civil

/-- The days of an era before a year of it. -/
def yearStart (yoe : Nat) : Nat := 365 * yoe + yoe / 4 - yoe / 100

/-- The days of an era up to a day of it, without the leap days. -/
def commonDays (doe : Nat) : Nat := doe - doe / 1460 + doe / 36524 - doe / 146096

theorem commonDays_mono {a b : Nat} (h : a ≤ b) : commonDays a ≤ commonDays b := by
  have hquarter (n : Nat) : n / 146096 = n / 36524 / 4 := by rw [Nat.div_div_eq_div_mul]
  have hcentury : a / 36524 ≤ b / 36524 := Nat.div_le_div_right h
  rw [commonDays, commonDays, hquarter, hquarter]
  omega

/-- The first day of each year is counted to it, the day before to the year before. -/
theorem commonDays_yearStart :
    ∀ yoe < 400, (0 < yoe → commonDays (yearStart yoe - 1) < 365 * yoe) ∧
      365 * yoe ≤ commonDays (yearStart yoe) := by
  decide +kernel

/-- A day of an era falls into the year that its common days give. -/
theorem yearStart_bounds {doe : Nat} (h : doe < 146097) :
    commonDays doe / 365 < 400 ∧ yearStart (commonDays doe / 365) ≤ doe ∧
      doe ≤ yearStart (commonDays doe / 365) + 365 := by
  have hmost : commonDays doe ≤ 145999 := commonDays_mono (Nat.le_of_lt_succ h)
  have hyear : commonDays doe / 365 < 400 := by omega
  have hdiv := Nat.div_add_mod (commonDays doe) 365
  have hmod := Nat.mod_lt (commonDays doe) (Nat.zero_lt_succ 364)
  generalize commonDays doe / 365 = yoe at *
  refine ⟨hyear, ?_, ?_⟩
  · by_contra hlt
    have hpos : 0 < yoe := by
      by_contra hzero
      obtain rfl : yoe = 0 := by omega
      exact hlt (Nat.zero_le _)
    have hbefore := (commonDays_yearStart yoe hyear).1 hpos
    have hmono : commonDays doe ≤ commonDays (yearStart yoe - 1) := commonDays_mono (by omega)
    omega
  · by_contra hlt
    obtain hlast | hnext : yoe = 399 ∨ yoe + 1 < 400 := by omega
    · have hstart : yearStart 399 = 145731 := by decide
      rw [hlast, hstart] at hlt
      omega
    · have hafter := (commonDays_yearStart (yoe + 1) hnext).2
      have hstep : yearStart (yoe + 1) ≤ yearStart yoe + 366 := by
        simp only [yearStart]
        omega
      have hmono : commonDays (yearStart (yoe + 1)) ≤ commonDays doe := commonDays_mono (by omega)
      omega

/-- The day number of a date. -/
def dayOfCivil : Int × Nat × Nat → Int
  | (year, month, day) =>
      let shifted := year - (if month ≤ 2 then 1 else 0)
      let mp := if 2 < month then month - 3 else month + 9
      let doe := yearStart (shifted % 400).toNat + ((153 * mp + 2) / 5 + (day - 1))
      shifted / 400 * 146097 + doe - 719468

/-- A date names one day. -/
theorem dayOfCivil_civil (day : Int) : dayOfCivil (civil day) = day := by
  have hera := Int.mul_ediv_add_emod (day + 719468) 146097
  have hdoe : ((day + 719468) % 146097).toNat < 146097 := by omega
  have hcast : (((day + 719468) % 146097).toNat : Int) = (day + 719468) % 146097 := by omega
  obtain ⟨hyear, hlow, hhigh⟩ := yearStart_bounds hdoe
  simp only [civil]
  rw [← commonDays, ← yearStart]
  generalize ((day + 719468) % 146097).toNat = doe at *
  generalize commonDays doe / 365 = yoe at *
  generalize hdoy : doe - yearStart yoe = doy
  have hmp : (5 * doy + 2) / 153 ≤ 11 := by omega
  have hday : (153 * ((5 * doy + 2) / 153) + 2) / 5 ≤ doy := by omega
  generalize (5 * doy + 2) / 153 = mp at *
  generalize (day + 719468) / 146097 = era at *
  have hdiv : (era * 400 + (yoe : Int)) / 400 = era := by omega
  have hrem : ((era * 400 + (yoe : Int)) % 400).toNat = yoe := by omega
  by_cases hlate : mp < 10
  · have hmonth : ¬ mp + 3 ≤ 2 := by omega
    simp only [dayOfCivil, hlate, hmonth, if_true, if_false, Int.add_zero, Int.sub_zero, hdiv,
      hrem, Nat.lt_of_not_le hmonth, Nat.add_sub_cancel]
    omega
  · have hmonth : mp - 9 ≤ 2 := by omega
    simp only [dayOfCivil, hlate, hmonth, if_true, if_false, Int.add_sub_cancel, hdiv, hrem,
      Nat.not_lt_of_le hmonth, Nat.sub_add_cancel (by omega : 9 ≤ mp)]
    omega

end Civil

section Numerals

theorem toList_padded (width n : Nat) :
    (padded width n).toList =
      List.replicate (width - (Nat.toDigits 10 n).length) '0' ++ Nat.toDigits 10 n := by
  rw [padded, String.toList_ofList, Nat.toList_repr]

theorem padded_inj {width m n : Nat} : padded width m = padded width n ↔ m = n := by
  refine ⟨fun h => ?_, congrArg (padded width)⟩
  have hvalue (k : Nat) : Nat.ofDigitChars 10 (padded width k).toList 0 = k := by
    rw [toList_padded, Nat.ofDigitChars_append, Nat.ofDigitChars_replicate_zero, Nat.mul_zero,
      Nat.ofDigitChars_ten_toDigits]
  rw [← hvalue m, h, hvalue n]

theorem isDigit_of_mem_padded {width n : Nat} {c : Char} (h : c ∈ (padded width n).toList) :
    c.isDigit = true := by
  rw [toList_padded, List.mem_append] at h
  obtain hzero | hdigit := h
  · rw [List.eq_of_mem_replicate hzero]
    decide
  · exact Nat.isDigit_of_mem_toDigits (by decide) (by decide) hdigit

theorem notMem_padded {c : Char} (hc : c.isDigit = false) (width n : Nat) :
    c ∉ (padded width n).toList := by
  intro h
  rw [isDigit_of_mem_padded h] at hc
  cases hc

theorem length_padded {width n : Nat} (hwidth : 0 < width) (h : n < 10 ^ width) :
    (padded width n).toList.length = width := by
  have hle := (Nat.length_toDigits_le_iff (by decide) hwidth).mpr h
  rw [toList_padded, List.length_append, List.length_replicate]
  omega

theorem padded_eq_cons (width n : Nat) :
    ∃ c rest, (padded width n).toList = c :: rest ∧ c.isDigit = true := by
  have hpos : 0 < (padded width n).toList.length := by
    have := Nat.length_toDigits_pos (b := 10) (n := n)
    rw [toList_padded, List.length_append]
    omega
  obtain ⟨c, rest, heq⟩ := List.exists_cons_of_length_pos hpos
  exact ⟨c, rest, heq, isDigit_of_mem_padded (heq ▸ List.mem_cons_self)⟩

theorem toList_paddedYear (year : Int) :
    (paddedYear year).toList =
      if year < 0 then '-' :: (padded 4 year.natAbs).toList else (padded 4 year.natAbs).toList := by
  rw [paddedYear]
  split
  · rw [String.toList_append]
    rfl
  · rfl

/-- What stripping a character takes away is that character over and over. -/
theorem replicate_append_dropWhile (a : Char) (l : List Char) :
    List.replicate (l.length - (l.dropWhile fun c => c == a).length) a ++
      l.dropWhile (fun c => c == a) = l := by
  have hall : l.takeWhile (fun c => c == a) =
      List.replicate (l.takeWhile fun c => c == a).length a :=
    List.eq_replicate_iff.mpr ⟨rfl, fun c hc => by simpa using List.mem_takeWhile_imp hc⟩
  have hwhole := List.takeWhile_append_dropWhile (p := fun c => c == a) (l := l)
  have hlengths := congrArg List.length hwhole
  rw [List.length_append] at hlengths
  rw [← hlengths, Nat.add_sub_cancel, ← hall, hwhole]

/-- What stripping a character takes away, the length gives back. -/
theorem eq_of_dropWhile {a : Char} {l l' : List Char} (hlength : l.length = l'.length)
    (h : l.dropWhile (fun c => c == a) = l'.dropWhile (fun c => c == a)) : l = l' := by
  rw [← replicate_append_dropWhile a l, ← replicate_append_dropWhile a l', hlength, h]

/-- The digits of a fraction without the zeros at their end. -/
def significant (nanos : Nat) : List Char :=
  ((padded 9 nanos).toList.reverse.dropWhile fun c => c == '0').reverse

theorem significant_inj {m n : Nat} (hm : m < 10 ^ 9) (hn : n < 10 ^ 9)
    (h : significant m = significant n) : m = n := by
  have hreverse := eq_of_dropWhile
    (by rw [List.length_reverse, List.length_reverse, length_padded (by decide) hm,
      length_padded (by decide) hn])
    (List.reverse_injective h)
  exact padded_inj.mp (String.toList_inj.mp (List.reverse_injective hreverse))

theorem toList_fraction (nanos : Nat) :
    (fraction nanos).toList = if significant nanos = [] then [] else '.' :: significant nanos := by
  rw [fraction, ← significant]
  cases significant nanos with
  | nil => rfl
  | cons c rest => simp

theorem fraction_inj {m n : Nat} (hm : m < 10 ^ 9) (hn : n < 10 ^ 9)
    (h : fraction m = fraction n) : m = n := by
  have hlist := congrArg String.toList h
  rw [toList_fraction, toList_fraction] at hlist
  apply significant_inj hm hn
  split at hlist
  · next hempty =>
      split at hlist
      · next hempty' => rw [hempty, hempty']
      · cases hlist
  · split at hlist
    · cases hlist
    · exact (List.cons.inj hlist).2

theorem notMem_fraction {c : Char} (hc : c.isDigit = false) (hdot : c ≠ '.') (nanos : Nat) :
    c ∉ (fraction nanos).toList := by
  rw [toList_fraction]
  split
  · exact List.not_mem_nil
  · intro hmem
    obtain hpoint | hdigit := List.mem_cons.mp hmem
    · exact hdot hpoint
    · have hpadded := List.dropWhile_subset _ (List.mem_reverse.mp hdigit)
      exact notMem_padded hc 9 nanos (List.mem_reverse.mp hpadded)

end Numerals

section Printed

/-- The seconds of the day of an instant. -/
def clock (t : Int) : Nat := (t / nanosPerSecond % 86400).toNat

def date (t : Int) : Int × Nat × Nat := civil (t / nanosPerSecond / 86400)

/-- The text up to the first colon. -/
def hourText (t : Int) : List Char :=
  (paddedYear (date t).1).toList ++ '-' :: ((padded 2 (date t).2.1).toList ++
    '-' :: ((padded 2 (date t).2.2).toList ++ 'T' :: (padded 2 (clock t / 3600)).toList))

/-- The text after the second colon. -/
def secondText (t : Int) : List Char :=
  (padded 2 (clock t % 60)).toList ++
    ((fraction (t % nanosPerSecond).toNat).toList ++ ['Z'])

theorem toList_format (t : Int) :
    (formatRFC3339Nano t).toList =
      hourText t ++ ':' :: ((padded 2 (clock t / 60 % 60)).toList ++ ':' :: secondText t) := by
  simp [formatRFC3339Nano, hourText, secondText, clock, date]

theorem notMem_paddedYear {c : Char} (hc : c.isDigit = false) (hsign : c ≠ '-') (year : Int) :
    c ∉ (paddedYear year).toList := by
  rw [toList_paddedYear]
  split
  · intro hmem
    obtain hminus | hdigit := List.mem_cons.mp hmem
    · exact hsign hminus
    · exact notMem_padded hc 4 _ hdigit
  · exact notMem_padded hc 4 _

theorem colon_notMem_hourText (t : Int) : ':' ∉ hourText t := by
  have hpadded (width n : Nat) := notMem_padded (c := ':') (by decide) width n
  simp [hourText, hpadded, notMem_paddedYear]

theorem colon_notMem_secondText (t : Int) : ':' ∉ secondText t := by
  have hpadded (width n : Nat) := notMem_padded (c := ':') (by decide) width n
  simp [secondText, hpadded, notMem_fraction]

/-- The year is written before the first hyphen that is not its sign. -/
theorem year_of_text {y z : Int} {r r' : List Char}
    (h : (paddedYear y).toList ++ '-' :: r = (paddedYear z).toList ++ '-' :: r') :
    y = z ∧ r = r' := by
  have hdigits {m n : Nat} {s s' : List Char}
      (h : (padded 4 m).toList ++ '-' :: s = (padded 4 n).toList ++ '-' :: s') :
      m = n ∧ s = s' := by
    obtain ⟨hpadded, hrest⟩ :=
      append_cons_inj_left (notMem_padded (by decide) 4 m) (notMem_padded (by decide) 4 n) h
    exact ⟨padded_inj.mp (String.toList_inj.mp hpadded), hrest⟩
  have hsign {m n : Nat} {s s' : List Char}
      (h : '-' :: (padded 4 m).toList ++ '-' :: s = (padded 4 n).toList ++ '-' :: s') : False := by
    obtain ⟨c, rest, heq, hdigit⟩ := padded_eq_cons 4 n
    rw [heq, List.cons_append, List.cons_append] at h
    rw [← (List.cons.inj h).1] at hdigit
    exact absurd hdigit (by decide)
  rw [toList_paddedYear, toList_paddedYear] at h
  split at h
  · split at h
    · obtain ⟨habs, hrest⟩ := hdigits (List.cons.inj h).2
      exact ⟨by omega, hrest⟩
    · exact (hsign h).elim
  · split at h
    · exact (hsign h.symm).elim
    · obtain ⟨habs, hrest⟩ := hdigits h
      exact ⟨by omega, hrest⟩

/-- The pieces between the colons give the date and the clock back. -/
theorem instant_of_pieces {t u : Int} (hdate : date t = date u) (hclock : clock t = clock u)
    (hnanos : (t % nanosPerSecond).toNat = (u % nanosPerSecond).toNat) : t = u := by
  have hday := congrArg dayOfCivil hdate
  rw [date, date, dayOfCivil_civil, dayOfCivil_civil] at hday
  simp only [clock, nanosPerSecond] at *
  omega

theorem date_of_hourText {t u : Int} (h : hourText t = hourText u) :
    date t = date u ∧ clock t / 3600 = clock u / 3600 := by
  have hdigits (n : Nat) : '-' ∉ (padded 2 n).toList := notMem_padded (by decide) 2 n
  have hletter (n : Nat) : 'T' ∉ (padded 2 n).toList := notMem_padded (by decide) 2 n
  obtain ⟨hyear, h⟩ := year_of_text h
  obtain ⟨hmonth, h⟩ := append_cons_inj_left (hdigits _) (hdigits _) h
  obtain ⟨hday, h⟩ := append_cons_inj_left (hletter _) (hletter _) h
  rw [String.toList_inj, padded_inj] at hmonth hday h
  exact ⟨Prod.ext hyear (Prod.ext hmonth hday), h⟩

theorem clock_of_secondText {t u : Int} (h : secondText t = secondText u) :
    clock t % 60 = clock u % 60 ∧
      (t % nanosPerSecond).toNat = (u % nanosPerSecond).toNat := by
  have hlength (n : Nat) : (padded 2 (n % 60)).toList.length = 2 :=
    length_padded (by decide) (by omega)
  have hbound (v : Int) : (v % nanosPerSecond).toNat < 10 ^ 9 := by
    simp only [nanosPerSecond]
    omega
  obtain ⟨hseconds, h⟩ := List.append_inj h (by rw [hlength, hlength])
  rw [String.toList_inj, padded_inj] at hseconds
  rw [List.append_cancel_right_eq, String.toList_inj] at h
  exact ⟨hseconds, fraction_inj (hbound t) (hbound u) h⟩

/-- What stands before a colon and an instant can be told from it. -/
theorem append_format_inj {a b : List Char} {t u : Int} :
    a ++ ':' :: (formatRFC3339Nano t).toList = b ++ ':' :: (formatRFC3339Nano u).toList ↔
      a = b ∧ t = u := by
  constructor
  · intro h
    have hminute (n : Nat) : ':' ∉ (padded 2 n).toList := notMem_padded (by decide) 2 n
    rw [toList_format, toList_format] at h
    simp only [← List.cons_append, ← List.append_assoc] at h
    obtain ⟨h, hsecond⟩ :=
      append_cons_inj_right (colon_notMem_secondText t) (colon_notMem_secondText u) h
    obtain ⟨h, hminutes⟩ := append_cons_inj_right (hminute _) (hminute _) h
    obtain ⟨hab, hhour⟩ :=
      append_cons_inj_right (colon_notMem_hourText t) (colon_notMem_hourText u) h
    obtain ⟨hdate, hhours⟩ := date_of_hourText hhour
    obtain ⟨hseconds, hnanos⟩ := clock_of_secondText hsecond
    rw [String.toList_inj, padded_inj] at hminutes
    exact ⟨hab, instant_of_pieces hdate (by omega) hnanos⟩
  · rintro ⟨rfl, rfl⟩
    rfl

end Printed

end NodeScope.Lib.Time
