import NodeScope.Lib.Check
import NodeScope.Lib.Text
import NodeScope.Lib.Url

/-!
# Decimal numbers and settings in the bytes of a string

Go's `strconv.Atoi` and `strconv.Itoa`, and the values of `strconv.ParseBool`. A number that is
written without a leading zero is written back as it was read. The environment gives the bytes of a
variable, empty where it is not set; white space around a setting does not count.
-/

namespace NodeScope.Lib.Decimal

open Text

abbrev Bytes := List UInt8

/-- The value of a run of decimal digits. -/
def decimal (digits : Bytes) : Nat := digits.foldl (fun value b => value * 10 + (b.toNat - 0x30)) 0

/-- Go's `strconv.Atoi` where an `int` has 64 bits. -/
def atoi (s : Bytes) : Option Int :=
  let negative := s.head? == some 0x2d
  let digits := if negative || s.head? == some 0x2b then s.tail else s
  if digits.isEmpty || !digits.all Url.isDigit then none
  else if negative then
    if 2 ^ 63 < decimal digits then none else some (-decimal digits)
  else if 2 ^ 63 ≤ decimal digits then none
  else some (decimal digits)

/-- Go's `strconv.Itoa` of a number that is not negative. -/
def itoa (n : Nat) : Bytes := utf8 (Nat.repr n)

/-- Go's `strconv.ParseBool`. -/
def parseBool (s : Bytes) : Option Bool :=
  if [utf8 "1", utf8 "t", utf8 "T", utf8 "true", utf8 "TRUE", utf8 "True"].contains s then some true
  else if
      [utf8 "0", utf8 "f", utf8 "F", utf8 "false", utf8 "FALSE", utf8 "False"].contains s then
    some false
  else none

section Settings

open Check

abbrev Environment := String → Bytes

/-- The value of a variable without white space around it. -/
def setting (getenv : Environment) (key : String) : Bytes := trimSpaceBytes (getenv key)

/-- A setting, or what stands for it where it is not set. -/
def settingOr (getenv : Environment) (key default : String) : Bytes :=
  if (setting getenv key).isEmpty then utf8 default else setting getenv key

/-- A variable that holds a boolean if it is set. -/
def boolSetting (getenv : Environment) (key : String) : Except Bytes Bool :=
  let raw := setting getenv key
  if raw.isEmpty then .ok false
  else orFail (parseBool raw) (utf8 (key ++ " must be a boolean"))

end Settings

variable {digits : Bytes} {n m : Nat}

theorem itoa_inj : itoa n = itoa m ↔ n = m := by
  rw [itoa, itoa, utf8_inj, Nat.repr_inj]

theorem utf8_ofList (l : List Char) :
    utf8 (String.ofList l) = l.flatMap String.utf8EncodeChar := by
  simp [utf8, List.utf8Encode]

theorem itoa_eq (n : Nat) : itoa n = (Nat.toDigits 10 n).flatMap String.utf8EncodeChar := by
  rw [itoa, ← utf8_ofList]
  rfl

/-- A number is written with digits only. -/
theorem isDigit_of_mem_itoa {b : UInt8} (h : b ∈ itoa n) : Url.isDigit b = true := by
  have hdigit : ∀ k < 10, ∀ b ∈ String.utf8EncodeChar (Char.ofNat (48 + k)),
      Url.isDigit b = true := by decide +kernel
  rw [itoa_eq, List.mem_flatMap] at h
  obtain ⟨c, hc, hmem⟩ := h
  have hc := Nat.isDigit_of_mem_toDigits (by decide) (by decide) hc
  simp only [Char.isDigit, Bool.and_eq_true, decide_eq_true_eq] at hc
  have hlow : 48 ≤ c.toNat := hc.1
  have hhigh : c.toNat ≤ 57 := hc.2
  have hbyte := hdigit (c.toNat - 48) (by omega)
  rw [show 48 + (c.toNat - 48) = c.toNat by omega, Char.ofNat_toNat] at hbyte
  exact hbyte b hmem

theorem decimal_concat (digits : Bytes) (b : UInt8) :
    decimal (digits ++ [b]) = decimal digits * 10 + (b.toNat - 0x30) := by
  rw [decimal, List.foldl_append]
  rfl

/-- Digits that begin with no zero, or are one digit. -/
def Canonical (digits : Bytes) : Prop :=
  digits ≠ [] ∧ digits.all Url.isDigit = true ∧ (1 < digits.length → digits.head? ≠ some 0x30)

theorem itoa_digit {b : UInt8} (h : Url.isDigit b = true) : itoa (b.toNat - 0x30) = [b] := by
  have hdigit : ∀ k < 10, itoa k = [UInt8.ofNat (k + 0x30)] := by decide
  simp only [Url.isDigit, Bool.and_eq_true, decide_eq_true_eq, UInt8.le_iff_toNat_le,
    UInt8.reduceToNat] at h
  rw [hdigit _ (by omega), Nat.sub_add_cancel h.1, UInt8.ofNat_toNat]

/-- A number without a leading zero is written back as it was read. -/
theorem itoa_decimal (h : Canonical digits) :
    itoa (decimal digits) = digits ∧ (digits.head? ≠ some 0x30 → 0 < decimal digits) := by
  obtain ⟨hne, hall, hzero⟩ := h
  induction digits using List.reverseRecOn with
  | nil => exact absurd rfl hne
  | append_singleton front b ih =>
      rw [List.all_append, Bool.and_eq_true] at hall
      have hb : Url.isDigit b = true := by simpa using hall.2
      have hbounds : 0x30 ≤ b.toNat ∧ b.toNat ≤ 0x39 := by
        simpa [Url.isDigit, UInt8.le_iff_toNat_le] using hb
      rw [decimal_concat]
      by_cases hfront : front = []
      · subst hfront
        refine ⟨by simpa [decimal] using itoa_digit hb, fun hhead => ?_⟩
        have hb0 : b.toNat ≠ 0x30 := by
          intro heq
          exact hhead (congrArg some (UInt8.toNat_inj.mp heq))
        omega
      · have hheads : (front ++ [b]).head? = front.head? := List.head?_append_of_ne_nil _ hfront
        have hlong : 1 < (front ++ [b]).length := by
          have := List.length_pos_iff.mpr hfront
          rw [List.length_append]
          exact Nat.lt_add_of_pos_left this
        have hhead : front.head? ≠ some 0x30 := hheads ▸ hzero hlong
        obtain ⟨hwritten, hpos⟩ := ih hfront hall.1 fun _ => hhead
        have hvalue := hpos hhead
        refine ⟨?_, fun _ => by omega⟩
        have hlast : b.toNat - 0x30 < 10 := by omega
        have hdigits := Nat.toDigits_append_toDigits (b := 10) (by decide) hvalue hlast
        rw [Nat.mul_comm, itoa_eq, ← hdigits, List.flatMap_append, ← itoa_eq, ← itoa_eq, hwritten,
          itoa_digit hb]

theorem atoi_digits (hne : digits ≠ []) (hall : digits.all Url.isDigit = true) :
    atoi digits = if 2 ^ 63 ≤ decimal digits then none else some ↑(decimal digits) := by
  cases digits with
  | nil => exact absurd rfl hne
  | cons b rest =>
      have hb : Url.isDigit b = true := by
        rw [List.all_cons, Bool.and_eq_true] at hall
        exact hall.1
      have hsign : (b == 0x2d) = false ∧ (b == 0x2b) = false := by
        constructor <;> rw [beq_eq_false_iff_ne] <;> rintro rfl <;> cases hb
      simp [atoi, hall, hsign.1, hsign.2]

end NodeScope.Lib.Decimal
