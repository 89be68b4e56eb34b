import NodeScope.Lib.Decimal
import NodeScope.Lib.Runes

/-!
# JSON as Go writes it

`json.Encoder` escapes what must be escaped in a string and what has a meaning in HTML, and writes
no white space between its tokens. Texts are put together from their parts, and each way of doing
so has a rule that says what the reader finds there.
-/

namespace NodeScope.Lib.Json

open Text

abbrev Bytes := List UInt8

section Writer

/-- What follows the backslash of a short escape. -/
def shortEscape (c : Char) : Option UInt8 :=
  if c = '"' then some 0x22
  else if c = '\\' then some 0x5c
  else if c = '\x08' then some 0x62
  else if c = '\x0c' then some 0x66
  else if c = '\n' then some 0x6e
  else if c = '\r' then some 0x72
  else if c = '\t' then some 0x74
  else none

/-- The characters that are written as the escape of their code unit. -/
def numbered (c : Char) : Bool :=
  c.toNat < 0x20 || c = '<' || c = '>' || c = '&' || c.toNat = 0x2028 || c.toNat = 0x2029

def writeChar (c : Char) : Bytes :=
  match shortEscape c with
  | some e => [0x5c, e]
  | none => if numbered c then escapeUnit c.toNat else String.utf8EncodeChar c

def writeString (s : String) : Bytes := 0x22 :: (s.toList.flatMap writeChar ++ [0x22])

/-- A literal of ASCII characters. -/
def writeLiteral (literal : List Char) : Bytes := literal.map fun c => UInt8.ofNat c.toNat

/-- The literal of a whole number. -/
def intLiteral (n : Int) : List Char :=
  if n < 0 then '-' :: Nat.toDigits 10 n.natAbs else Nat.toDigits 10 n.natAbs

def writeInt (n : Int) : Bytes := writeLiteral (intLiteral n)

/-- Texts with a comma between each two. -/
def separated : List Bytes → Bytes
  | [] => []
  | [text] => text
  | text :: rest => text ++ 0x2c :: separated rest

def writeArray (elements : List Bytes) : Bytes := 0x5b :: (separated elements ++ [0x5d])

def writeMember (member : String × Bytes) : Bytes := writeString member.1 ++ 0x3a :: member.2

def writeObject (members : List (String × Bytes)) : Bytes :=
  0x7b :: (separated (members.map writeMember) ++ [0x7d])

end Writer

section Encoding

variable {a b c d : UInt8} {v : Nat}

theorem isTail_of_toNat {n : Nat} (h : b.toNat = n % 0x40 + 0x80) : isTail b = true := by
  simp only [isTail, Bool.and_eq_true, decide_eq_true_eq, UInt8.le_iff_toNat_le,
    UInt8.reduceToNat]
  omega

theorem twoBytes_encoded (hlow : 0x80 ≤ v) (hhigh : v < 0x800) (ha : a.toNat = v / 0x40 + 0xc0)
    (hb : b.toNat = v % 0x40 + 0x80) : twoBytes a b = some (Char.ofNat v) := by
  have hfirst : 0xc2 ≤ a ∧ a ≤ 0xdf := by
    simp only [UInt8.le_iff_toNat_le, UInt8.reduceToNat]
    omega
  have hvalue : (a.toNat - 0xc0) * 64 + (b.toNat - 0x80) = v := by omega
  rw [twoBytes, isTail_of_toNat hb, hvalue]
  simp [hfirst]

theorem twoBytes_late (ha : 0xdf < a.toNat) : twoBytes a b = none := by
  have hlate : ¬ a ≤ 0xdf := by
    simp only [UInt8.le_iff_toNat_le, UInt8.reduceToNat]
    omega
  simp [twoBytes, hlate]

theorem threeBytes_late (ha : 0xef < a.toNat) : threeBytes a b c = none := by
  have hlate : ¬ a ≤ 0xef := by
    simp only [UInt8.le_iff_toNat_le, UInt8.reduceToNat]
    omega
  simp [threeBytes, hlate]

theorem threeBytes_encoded (hlow : 0x800 ≤ v) (hhigh : v < 0x10000)
    (hscalar : v < 0xd800 ∨ 0xdfff < v) (ha : a.toNat = v / 0x1000 + 0xe0)
    (hb : b.toNat = v / 0x40 % 0x40 + 0x80) (hc : c.toNat = v % 0x40 + 0x80) :
    threeBytes a b c = some (Char.ofNat v) := by
  have hfirst : 0xe0 ≤ a ∧ a ≤ 0xef := by
    simp only [UInt8.le_iff_toNat_le, UInt8.reduceToNat]
    omega
  have hoverlong : a ≠ 0xe0 ∨ 0xa0 ≤ b := by
    simp only [ne_eq, ← UInt8.toNat_inj, UInt8.le_iff_toNat_le, UInt8.reduceToNat]
    omega
  have hsurrogate : a ≠ 0xed ∨ b ≤ 0x9f := by
    simp only [ne_eq, ← UInt8.toNat_inj, UInt8.le_iff_toNat_le, UInt8.reduceToNat]
    omega
  have hvalue : ((a.toNat - 0xe0) * 64 + (b.toNat - 0x80)) * 64 + (c.toNat - 0x80) = v := by omega
  rw [threeBytes, isTail_of_toNat hb, isTail_of_toNat hc, hvalue]
  simp [hfirst, hoverlong, hsurrogate]

theorem fourBytes_encoded (hlow : 0x10000 ≤ v) (hhigh : v < 0x110000)
    (ha : a.toNat = v / 0x40000 + 0xf0) (hb : b.toNat = v / 0x1000 % 0x40 + 0x80)
    (hc : c.toNat = v / 0x40 % 0x40 + 0x80) (hd : d.toNat = v % 0x40 + 0x80) :
    fourBytes a b c d = some (Char.ofNat v) := by
  have hfirst : 0xf0 ≤ a ∧ a ≤ 0xf4 := by
    simp only [UInt8.le_iff_toNat_le, UInt8.reduceToNat]
    omega
  have hoverlong : a ≠ 0xf0 ∨ 0x90 ≤ b := by
    simp only [ne_eq, ← UInt8.toNat_inj, UInt8.le_iff_toNat_le, UInt8.reduceToNat]
    omega
  have hlast : a ≠ 0xf4 ∨ b ≤ 0x8f := by
    simp only [ne_eq, ← UInt8.toNat_inj, UInt8.le_iff_toNat_le, UInt8.reduceToNat]
    omega
  have hvalue : (((a.toNat - 0xf0) * 64 + (b.toNat - 0x80)) * 64 + (c.toNat - 0x80)) * 64 +
      (d.toNat - 0x80) = v := by omega
  rw [fourBytes, isTail_of_toNat hb, isTail_of_toNat hc, isTail_of_toNat hd, hvalue]
  simp [hfirst, hoverlong, hlast]

theorem decodeRune_two {x : Char} (ha : 0x80 ≤ a.toNat) (h : twoBytes a b = some x)
    (rest : Bytes) : decodeRune (a :: b :: rest) = some (x, rest) := by
  have hascii : ¬ a < 0x80 := by
    simp only [UInt8.lt_iff_toNat_lt, UInt8.reduceToNat]
    omega
  match rest with
  | [] => simp [decodeRune, hascii, h]
  | [c] => simp [decodeRune, hascii, h]
  | c :: d :: more => simp [decodeRune, hascii, h]

theorem decodeRune_three {x : Char} (ha : 0xdf < a.toNat) (h : threeBytes a b c = some x)
    (rest : Bytes) : decodeRune (a :: b :: c :: rest) = some (x, rest) := by
  have hascii : ¬ a < 0x80 := by
    simp only [UInt8.lt_iff_toNat_lt, UInt8.reduceToNat]
    omega
  match rest with
  | [] => simp [decodeRune, hascii, twoBytes_late ha, h]
  | d :: more => simp [decodeRune, hascii, twoBytes_late ha, h]

theorem decodeRune_four {x : Char} (ha : 0xef < a.toNat) (h : fourBytes a b c d = some x)
    (rest : Bytes) : decodeRune (a :: b :: c :: d :: rest) = some (x, rest) := by
  have hascii : ¬ a < 0x80 := by
    simp only [UInt8.lt_iff_toNat_lt, UInt8.reduceToNat]
    omega
  have htwo : twoBytes a b = none := twoBytes_late (by omega)
  simp [decodeRune, hascii, htwo, threeBytes_late ha, h]

theorem toNat_ofNat_small {n : Nat} (h : n < 0x100) : (UInt8.ofNat n).toNat = n :=
  UInt8.toNat_ofNat_of_lt' h

/-- A character is read from its encoding. -/
theorem decodeRune_encode (x : Char) (rest : Bytes) :
    decodeRune (String.utf8EncodeChar x ++ rest) = some (x, rest) := by
  have hscalar : x.val.toNat < 0xd800 ∨ 0xdfff < x.val.toNat ∧ x.val.toNat < 0x110000 := x.valid
  have hself : Char.ofNat x.val.toNat = x := Char.ofNat_toNat x
  rw [String.utf8EncodeChar]
  generalize x.val.toNat = v at *
  rw [← hself]
  split_ifs with hone htwo hthree
  · have hbyte : (UInt8.ofNat v).toNat = v := toNat_ofNat_small (by omega)
    have hascii : UInt8.ofNat v < 0x80 := by
      rw [UInt8.lt_iff_toNat_lt, hbyte]
      exact Nat.lt_succ_of_le hone
    rw [List.cons_append, List.nil_append, Runes.decodeRune_ascii hascii, toChar, hbyte]
  · refine decodeRune_two ?_ (twoBytes_encoded (v := v) (by omega) (by omega) ?_ ?_) rest <;>
      rw [toNat_ofNat_small] <;> omega
  · refine decodeRune_three ?_ (threeBytes_encoded (v := v) (by omega) (by omega) ?_ ?_ ?_ ?_) rest
    · rw [toNat_ofNat_small] <;> omega
    · omega
    all_goals rw [toNat_ofNat_small] <;> omega
  · refine decodeRune_four ?_ (fourBytes_encoded (v := v) (by omega) (by omega) ?_ ?_ ?_ ?_) rest <;>
      rw [toNat_ofNat_small] <;> omega

end Encoding

section Strings

theorem escaped_of_shortEscape {x : Char} {e : UInt8} (h : shortEscape x = some e) :
    (e == 0x75) = false ∧ escaped e = some x := by
  unfold shortEscape at h
  split_ifs at h with h1 h2 h3 h4 h5 h6 h7
  all_goals
    obtain rfl := Option.some.inj h
    subst x
    decide

theorem numbered_bound {x : Char} (h : numbered x = true) : x.toNat < 0x202a := by
  simp only [numbered, Bool.or_eq_true, decide_eq_true_eq] at h
  obtain ((((h | rfl) | rfl) | rfl) | h) | h := h
  · omega
  all_goals first | decide | omega

/-- What is written as itself begins with a byte that has no meaning in a string. -/
theorem encode_plain {x : Char} (hshort : shortEscape x = none) (hnumbered : numbered x = false) :
    ∃ b more, String.utf8EncodeChar x = b :: more ∧ 0x20 ≤ b ∧ b ≠ 0x22 ∧ b ≠ 0x5c := by
  obtain ⟨b, more, heq⟩ := List.exists_cons_of_ne_nil (String.utf8EncodeChar_ne_nil (c := x))
  refine ⟨b, more, heq, ?_⟩
  by_cases hascii : x.toNat < 0x80
  · have hb : b.toNat = x.toNat := by
      rw [Runes.encode_ascii hascii] at heq
      rw [← (List.cons.inj heq).1, toNat_ofNat_small (by omega)]
    have hcontrol : 0x20 ≤ x.toNat := by
      simp only [numbered, Bool.or_eq_false_iff, decide_eq_false_iff_not] at hnumbered
      omega
    have hquote : x.toNat ≠ 0x22 := by
      intro h
      have hx : x = '"' := Char.toNat_inj.mp h
      rw [hx] at hshort
      exact absurd hshort (by decide)
    have hslash : x.toNat ≠ 0x5c := by
      intro h
      have hx : x = '\\' := Char.toNat_inj.mp h
      rw [hx] at hshort
      exact absurd hshort (by decide)
    simp only [UInt8.le_iff_toNat_le, ne_eq, ← UInt8.toNat_inj, UInt8.reduceToNat, hb]
    exact ⟨hcontrol, hquote, hslash⟩
  · have hforeign : 0x80 ≤ b :=
      Runes.encode_foreign (Nat.le_of_not_lt hascii) b (heq ▸ List.mem_cons_self)
    simp only [UInt8.le_iff_toNat_le, ne_eq, ← UInt8.toNat_inj, UInt8.reduceToNat] at hforeign ⊢
    omega

theorem readString_writeChar (x : Char) (fuel : Nat) (rest : Bytes) :
    readString (fuel + 1) (writeChar x ++ rest) =
      (readString fuel rest).map fun (s, after) => (x :: s, after) := by
  rw [writeChar]
  cases hshort : shortEscape x with
  | some e =>
      obtain ⟨hunit, hescaped⟩ := escaped_of_shortEscape hshort
      simp [readString, hunit, hescaped]
  | none =>
      dsimp only
      by_cases hnumbered : numbered x = true
      · have hbound := numbered_bound hnumbered
        have hhigh : isHighSurrogate x.toNat = false := by
          simp [isHighSurrogate]
          omega
        have hlow : isLowSurrogate x.toNat = false := by
          simp [isLowSurrogate]
          omega
        rw [if_pos hnumbered, readString_escapeUnit (by omega) hhigh, readString.unitChar, hhigh,
          hlow]
        simp
      · rw [Bool.not_eq_true] at hnumbered
        obtain ⟨b, more, heq, hcontrol, hquote, hslash⟩ := encode_plain hshort hnumbered
        have hrune := decodeRune_encode x rest
        rw [if_neg (by simp [hnumbered])]
        rw [heq, List.cons_append] at hrune ⊢
        have hprinted : ¬ b < 0x20 := UInt8.not_lt.mpr hcontrol
        rw [readString.eq_def]
        simp [hquote, hslash, hprinted, hrune]

theorem readString_written (s : List Char) {fuel : Nat} (h : s.length < fuel) (rest : Bytes) :
    readString fuel (s.flatMap writeChar ++ 0x22 :: rest) = some (s, rest) := by
  induction s generalizing fuel with
  | nil =>
      obtain ⟨fuel, rfl⟩ := Nat.exists_eq_add_of_lt h
      simp [readString]
  | cons x s ih =>
      obtain ⟨fuel, rfl⟩ := Nat.exists_eq_add_of_lt h
      rw [List.flatMap_cons, List.append_assoc, readString_writeChar, ih (by simp; omega)]
      rfl

theorem writeChar_ne_nil (x : Char) : writeChar x ≠ [] := by
  rw [writeChar]
  split
  · exact List.cons_ne_nil _ _
  · split
    · exact List.cons_ne_nil _ _
    · exact String.utf8EncodeChar_ne_nil

theorem length_le_written (s : List Char) : s.length ≤ (s.flatMap writeChar).length := by
  induction s with
  | nil => exact Nat.le_refl _
  | cons x s ih =>
      have := List.length_pos_iff.mpr (writeChar_ne_nil x)
      rw [List.flatMap_cons, List.length_append, List.length_cons]
      omega

/-- A written string is read as it was. -/
theorem readString_writeString (s : String) (rest : Bytes) :
    ∃ body, writeString s ++ rest = 0x22 :: body ∧
      readString (body.length + 1) body = some (s.toList, rest) := by
  refine ⟨s.toList.flatMap writeChar ++ 0x22 :: rest, by simp [writeString], ?_⟩
  apply readString_written
  have := length_le_written s.toList
  rw [List.length_append]
  omega

end Strings

section Numbers

variable {rest : Bytes} {literal : List Char}

/-- What follows a number is nothing that the number could go on with. -/
def Delimited (rest : Bytes) : Prop :=
  ∀ b ∈ rest.head?, isDigit b = false ∧ b ≠ 0x2e ∧ b ≠ 0x65 ∧ b ≠ 0x45

theorem digit_bounds {x : Char} (h : x.isDigit = true) : 48 ≤ x.toNat ∧ x.toNat ≤ 57 := by
  simp only [Char.isDigit, Bool.and_eq_true, decide_eq_true_eq] at h
  exact h

theorem isDigit_written {x : Char} (h : x.isDigit = true) :
    isDigit (UInt8.ofNat x.toNat) = true := by
  obtain ⟨hlow, hhigh⟩ := digit_bounds h
  simp only [isDigit, Bool.and_eq_true, decide_eq_true_eq, UInt8.le_iff_toNat_le,
    UInt8.reduceToNat, toNat_ofNat_small (by omega : x.toNat < 0x100)]
  exact ⟨hlow, hhigh⟩

theorem toChar_written {x : Char} (h : x.toNat < 0x100) : toChar (UInt8.ofNat x.toNat) = x := by
  rw [toChar, toNat_ofNat_small h, Char.ofNat_toNat]

/-- The bytes of a literal give its characters back. -/
theorem map_toChar_writeLiteral (h : ∀ x ∈ literal, x.toNat < 0x100) :
    (writeLiteral literal).map toChar = literal := by
  rw [writeLiteral, List.map_map]
  conv_rhs => rw [← List.map_id literal]
  exact List.map_congr_left fun x hx => toChar_written (h x hx)

theorem isDigit_of_mem_toDigits {n : Nat} {x : Char} (h : x ∈ Nat.toDigits 10 n) :
    x.isDigit = true := Nat.isDigit_of_mem_toDigits (by decide) (by decide) h

theorem readDigits_written (hne : literal ≠ []) (hall : ∀ x ∈ literal, x.isDigit = true)
    (hrest : Delimited rest) :
    readDigits (writeLiteral literal ++ rest) = some (writeLiteral literal, rest) := by
  have hdigits : ∀ b ∈ writeLiteral literal, isDigit b = true := by
    intro b hb
    obtain ⟨x, hx, rfl⟩ := List.mem_map.mp hb
    exact isDigit_written (hall x hx)
  have htake : rest.takeWhile isDigit = [] := by
    cases rest with
    | nil => rfl
    | cons b more => rw [List.takeWhile_cons_of_neg (by simp [(hrest b rfl).1])]
  have hdrop : rest.dropWhile isDigit = rest := by
    cases rest with
    | nil => rfl
    | cons b more => rw [List.dropWhile_cons_of_neg (by simp [(hrest b rfl).1])]
  obtain ⟨x, more, hcons⟩ := List.exists_cons_of_ne_nil hne
  rw [readDigits, List.span_eq_takeWhile_dropWhile, List.takeWhile_append_of_pos hdigits,
    List.dropWhile_append_of_pos hdigits, htake, hdrop, List.append_nil, hcons, writeLiteral,
    List.map_cons]

/-- No number but zero begins with a zero. -/
theorem head_toDigits {n : Nat} (h : 0 < n) : (Nat.toDigits 10 n).head? ≠ some '0' := by
  induction n using Nat.strong_induction_on with
  | _ n ih =>
      by_cases hsmall : n < 10
      · rw [Nat.toDigits_of_lt_base hsmall, List.head?_cons, ne_eq, Option.some.injEq,
          Nat.digitChar_eq_zero]
        omega
      · rw [Nat.toDigits_of_base_le (by decide) (Nat.le_of_not_lt hsmall),
          List.head?_append_of_ne_nil _ Nat.toDigits_ne_nil]
        exact ih (n / 10) (by omega) (by omega)

theorem readInteger_written (n : Nat) (hrest : Delimited rest) :
    readInteger (writeLiteral (Nat.toDigits 10 n) ++ rest) =
      some (writeLiteral (Nat.toDigits 10 n), rest) := by
  have hall : ∀ x ∈ Nat.toDigits 10 n, x.isDigit = true := fun x hx => isDigit_of_mem_toDigits hx
  have hdigits := readDigits_written Nat.toDigits_ne_nil hall hrest
  obtain hzero | hpos := Nat.eq_zero_or_pos n
  · subst hzero
    rfl
  · have hhead := head_toDigits hpos
    obtain ⟨x, more, hcons⟩ := List.exists_cons_of_ne_nil (Nat.toDigits_ne_nil (b := 10) (n := n))
    have hx := isDigit_of_mem_toDigits (hcons ▸ List.mem_cons_self)
    rw [hcons] at hhead hdigits ⊢
    have hfirst : (UInt8.ofNat x.toNat == 0x30) = false := by
      rw [beq_eq_false_iff_ne, ne_eq, ← UInt8.toNat_inj,
        toNat_ofNat_small (by have := digit_bounds hx; omega)]
      intro hzero
      exact hhead (congrArg some (Char.toNat_inj.mp hzero))
    rw [← hdigits]
    simp [writeLiteral, readInteger, hfirst]

theorem readFraction_delimited (hrest : Delimited rest) :
    readFraction rest = some ([], rest) := by
  cases rest with
  | nil => rfl
  | cons b more => simp [readFraction, (hrest b rfl).2.1]

theorem readExponent_delimited (hrest : Delimited rest) :
    readExponent rest = some ([], rest) := by
  cases rest with
  | nil => rfl
  | cons b more => simp [readExponent, (hrest b rfl).2.2.1, (hrest b rfl).2.2.2]

theorem small_of_mem_intLiteral {n : Int} {x : Char} (h : x ∈ intLiteral n) : x.toNat < 0x100 := by
  have hdigit {x : Char} (h : x ∈ Nat.toDigits 10 n.natAbs) : x.toNat < 0x100 := by
    have := digit_bounds (isDigit_of_mem_toDigits h)
    omega
  rw [intLiteral] at h
  split at h
  · obtain rfl | h := List.mem_cons.mp h
    · decide
    · exact hdigit h
  · exact hdigit h

/-- A written number is read with its literal. -/
theorem readNumber_written (n : Int) (hrest : Delimited rest) :
    readNumber (writeInt n ++ rest) = some (intLiteral n, rest) := by
  have hinteger := readInteger_written n.natAbs hrest
  have hchars := map_toChar_writeLiteral fun x hx => small_of_mem_intLiteral (n := n) hx
  by_cases hnegative : n < 0
  · rw [writeInt]
    rw [intLiteral, if_pos hnegative] at hchars ⊢
    have hsplit : writeLiteral ('-' :: Nat.toDigits 10 n.natAbs) =
        0x2d :: writeLiteral (Nat.toDigits 10 n.natAbs) := rfl
    rw [hsplit] at hchars ⊢
    simp [readNumber, hinteger, readFraction_delimited hrest, readExponent_delimited hrest]
    exact List.cons.inj hchars
  · rw [writeInt]
    rw [intLiteral, if_neg hnegative] at hchars ⊢
    obtain ⟨x, more, hcons⟩ :=
      List.exists_cons_of_ne_nil (Nat.toDigits_ne_nil (b := 10) (n := n.natAbs))
    have hx := digit_bounds (isDigit_of_mem_toDigits (hcons ▸ List.mem_cons_self))
    have hhead : ((writeLiteral (Nat.toDigits 10 n.natAbs) ++ rest).head? == some 0x2d) = false := by
      rw [hcons]
      simp only [writeLiteral, List.map_cons, List.cons_append, List.head?_cons,
        beq_eq_false_iff_ne, ne_eq, Option.some.injEq, ← UInt8.toNat_inj, UInt8.reduceToNat,
        toNat_ofNat_small (by omega : x.toNat < 0x100)]
      omega
    simp only [readNumber, hhead]
    simp [hinteger, readFraction_delimited hrest, readExponent_delimited hrest, hchars]

theorem int64_intLiteral {n : Int} (hlow : -2 ^ 63 ≤ n) (hhigh : n < 2 ^ 63) :
    int64 (intLiteral n) = some n := by
  have hall : (Nat.toDigits 10 n.natAbs).all Char.isDigit = true :=
    List.all_eq_true.mpr fun x hx => isDigit_of_mem_toDigits hx
  have hvalue (digits : List Char) (start : Nat) :
      digits.foldl (fun (n : Int) c => 10 * n + (c.toNat - 48 : Nat)) start =
        (Nat.ofDigitChars 10 digits start : Int) := by
    induction digits generalizing start with
    | nil => rfl
    | cons x digits ih =>
        rw [List.foldl_cons, Nat.ofDigitChars_cons, ← ih]
        rfl
  have hmagnitude : (Nat.toDigits 10 n.natAbs).foldl
      (fun (n : Int) c => 10 * n + (c.toNat - 48 : Nat)) 0 = n.natAbs := by
    have := hvalue (Nat.toDigits 10 n.natAbs) 0
    rwa [Nat.ofDigitChars_ten_toDigits] at this
  by_cases hnegative : n < 0
  · rw [show (n.natAbs : Int) = -n by omega] at hmagnitude
    simp [int64, intLiteral, if_pos hnegative, hall, hmagnitude]
    omega
  · rw [show (n.natAbs : Int) = n by omega] at hmagnitude
    obtain ⟨x, more, hcons⟩ :=
      List.exists_cons_of_ne_nil (Nat.toDigits_ne_nil (b := 10) (n := n.natAbs))
    have hminus : x ≠ '-' := by
      rintro rfl
      exact absurd (isDigit_of_mem_toDigits (hcons ▸ List.mem_cons_self)) (by decide)
    rw [intLiteral, if_neg hnegative, int64]
    · simp [hall, hmagnitude]
      omega
    · intro rest hrest
      exact hminus (List.cons.inj (hcons.symm.trans hrest)).1

end Numbers

section Texts

variable {depth fuel : Nat} {rest : Bytes}

/-- Under enough fuel a text is read as a value of its depth, whatever stands after it that is no
part of a number. -/
def Reads (depth : Nat) (text : Bytes) (value : Value) : Prop :=
  ∀ fuel rest, 2 * text.length ≤ fuel → Delimited rest →
    readValue fuel depth (text ++ rest) = some (value, rest)

theorem delimited_cons {b : UInt8} (h : b = 0x2c ∨ b = 0x5d ∨ b = 0x7d) (rest : Bytes) :
    Delimited (b :: rest) := by
  intro x hx
  obtain rfl := Option.some.inj hx
  obtain rfl | rfl | rfl := h <;> decide

theorem separated_cons (text : Bytes) {texts : List Bytes} (h : texts ≠ []) :
    separated (text :: texts) = text ++ 0x2c :: separated texts := by
  cases texts with
  | nil => exact absurd rfl h
  | cons next texts => rfl

theorem reads_string (s : String) : Reads depth (writeString s) (.string s) := by
  intro fuel rest hfuel hrest
  obtain ⟨body, heq, hread⟩ := readString_writeString s rest
  obtain ⟨fuel, rfl⟩ : ∃ k, fuel = k + 1 := Nat.exists_eq_succ_of_ne_zero (by
    rw [writeString, List.length_cons] at hfuel
    omega)
  rw [heq, readValue_string hread, String.ofList_toList]

/-- A number is read by `readNumber` where no other value can begin. -/
theorem readValue_number {b : UInt8} (h : isDigit b = true ∨ b = 0x2d) (fuel : Nat)
    (text : Bytes) :
    readValue (fuel + 1) depth (b :: text) =
      (readNumber (b :: text)).map fun (literal, after) => (.number literal, after) := by
  have hbound : 0x2d ≤ b.toNat ∧ b.toNat ≤ 0x39 := by
    obtain h | rfl := h
    · simp only [isDigit, Bool.and_eq_true, decide_eq_true_eq, UInt8.le_iff_toNat_le,
        UInt8.reduceToNat] at h
      omega
    · decide
  have hother (c : UInt8) (hc : c.toNat < 0x2d ∨ 0x39 < c.toNat) : (b == c) = false := by
    rw [beq_eq_false_iff_ne, ne_eq, ← UInt8.toNat_inj]
    omega
  have hspace : isSpace b = false := by
    simp [isSpace, hother 0x20 (by decide), hother 0x09 (by decide), hother 0x0a (by decide),
      hother 0x0d (by decide)]
  rw [readValue, skipSpace, List.dropWhile_cons_of_neg (by simp [hspace])]
  simp [hother 0x7b (by decide), hother 0x5b (by decide), hother 0x22 (by decide),
    hother 0x74 (by decide), hother 0x66 (by decide), hother 0x6e (by decide)]

theorem reads_int (n : Int) : Reads depth (writeInt n) (.number (intLiteral n)) := by
  intro fuel rest hfuel hrest
  have hread := readNumber_written n hrest
  have hfirst : ∃ b text, writeInt n = b :: text ∧ (isDigit b = true ∨ b = 0x2d) := by
    rw [writeInt, intLiteral]
    split
    · exact ⟨_, _, rfl, Or.inr rfl⟩
    · obtain ⟨x, more, hcons⟩ :=
        List.exists_cons_of_ne_nil (Nat.toDigits_ne_nil (b := 10) (n := n.natAbs))
      rw [hcons]
      exact ⟨_, _, rfl,
        Or.inl (isDigit_written (isDigit_of_mem_toDigits (hcons ▸ List.mem_cons_self)))⟩
  obtain ⟨b, text, heq, hb⟩ := hfirst
  rw [heq] at hfuel hread ⊢
  obtain ⟨fuel, rfl⟩ : ∃ k, fuel = k + 1 := Nat.exists_eq_succ_of_ne_zero (by
    rw [List.length_cons] at hfuel
    omega)
  rw [List.cons_append] at hread ⊢
  rw [readValue_number hb, hread]
  rfl

/-- No value begins with the end of an array. -/
theorem skipSpace_of_readValue {input : Bytes} {r : Value × Bytes}
    (h : readValue fuel depth input = some r) :
    ∃ c after, skipSpace input = c :: after ∧ c ≠ 0x5d := by
  cases fuel with
  | zero =>
      rw [readValue] at h
      cases h
  | succ fuel =>
      rw [readValue] at h
      cases hskip : skipSpace input with
      | nil =>
          rw [hskip] at h
          cases h
      | cons c after =>
          refine ⟨c, after, rfl, ?_⟩
          rintro rfl
          rw [hskip] at h
          simp [readNumber, readInteger, readDigits, isDigit, List.span_eq_takeWhile_dropWhile] at h

theorem skipSpace_of_readElements {input : Bytes} {r : List Value × Bytes}
    (h : readElements fuel depth input = some r) :
    ∃ c after, skipSpace input = c :: after ∧ c ≠ 0x5d := by
  cases fuel with
  | zero =>
      rw [readElements] at h
      cases h
  | succ fuel =>
      cases hvalue : readValue fuel depth input with
      | none =>
          rw [readElements, hvalue] at h
          cases h
      | some read => exact skipSpace_of_readValue hvalue

section Arrays

variable {elements : List Bytes} {values : List Value}

theorem readElements_written (h : List.Forall₂ (Reads depth) elements values)
    (hne : elements ≠ []) (hfuel : 2 * (separated elements).length + 1 ≤ fuel) (rest : Bytes) :
    readElements fuel depth (separated elements ++ 0x5d :: rest) = some (values, rest) := by
  induction h generalizing fuel with
  | nil => exact absurd rfl hne
  | @cons text value texts values hvalue hvalues ih =>
      obtain ⟨fuel, rfl⟩ : ∃ k, fuel = k + 1 := Nat.exists_eq_succ_of_ne_zero (by omega)
      by_cases hlast : texts = []
      · subst hlast
        cases hvalues
        have hread := hvalue fuel (0x5d :: rest) (by rw [separated] at hfuel; omega)
          (delimited_cons (Or.inr (Or.inl rfl)) rest)
        rw [separated, readElements, hread]
        simp [skipSpace, isSpace]
      · rw [separated_cons text hlast] at hfuel ⊢
        rw [List.length_append, List.length_cons] at hfuel
        rw [List.append_assoc, List.cons_append]
        have hread := hvalue fuel (0x2c :: (separated texts ++ 0x5d :: rest)) (by omega)
          (delimited_cons (Or.inl rfl) _)
        rw [readElements, hread]
        simp [skipSpace, isSpace, ih hlast (by omega : 2 * (separated texts).length + 1 ≤ fuel)]

theorem reads_array (hdepth : depth < maxNestingDepth)
    (h : List.Forall₂ (Reads (depth + 1)) elements values) :
    Reads depth (writeArray elements) (.array values) := by
  intro fuel rest hfuel hrest
  rw [writeArray, List.length_cons, List.length_append] at hfuel
  obtain ⟨fuel, rfl⟩ : ∃ k, fuel = k + 1 := Nat.exists_eq_succ_of_ne_zero (by omega)
  cases h with
  | nil => simp [writeArray, separated, readValue, skipSpace, isSpace, hdepth]
  | @cons text value texts values hvalue hvalues =>
      have hread := readElements_written (List.Forall₂.cons hvalue hvalues) (List.cons_ne_nil _ _)
        (by omega : 2 * (separated (text :: texts)).length + 1 ≤ fuel) rest
      obtain ⟨c, after, hskip, hc⟩ := skipSpace_of_readElements hread
      rw [writeArray, List.cons_append, List.append_assoc, List.singleton_append, readValue]
      have hspace : skipSpace (0x5b :: (separated (text :: texts) ++ 0x5d :: rest)) =
          0x5b :: (separated (text :: texts) ++ 0x5d :: rest) := rfl
      rw [hspace]
      simp [hdepth, hskip, hc, hread]

end Arrays

section Objects

variable {members : List (String × Bytes)} {values : List (String × Value)}

/-- A text of a member is read as its value, under the same name. -/
def ReadsMember (depth : Nat) (member : String × Bytes) (value : String × Value) : Prop :=
  member.1 = value.1 ∧ Reads depth member.2 value.2

/-- The members up to the end of an object, where the first one stands. -/
theorem readMembers_cons {member : String × Bytes} {value : String × Value} {b : UInt8}
    (h : ReadsMember depth member value) (hb : b = 0x2c ∨ b = 0x5d ∨ b = 0x7d)
    (hfuel : 2 * (writeMember member).length ≤ fuel) (rest : Bytes) :
    readMembers (fuel + 1) depth (writeMember member ++ b :: rest) =
      if b == 0x7d then some ([value], rest)
      else if b == 0x2c then
        (readMembers fuel depth rest).map fun (members, after) => (value :: members, after)
      else none := by
  obtain ⟨name, text⟩ := member
  obtain ⟨other, v⟩ := value
  obtain ⟨hname, hreads⟩ := h
  obtain rfl : name = other := hname
  obtain ⟨body, heq, hstring⟩ := readString_writeString name (0x3a :: (text ++ b :: rest))
  have hlength : text.length ≤ (writeMember (name, text)).length := by
    simp only [writeMember, List.length_append, List.length_cons]
    omega
  dsimp only at hreads
  have hread := hreads fuel (b :: rest) (by omega) (delimited_cons hb rest)
  have hspace : isSpace b = false := by obtain rfl | rfl | rfl := hb <;> decide
  have hskip : skipSpace (b :: rest) = b :: rest :=
    List.dropWhile_cons_of_neg (by simp [hspace])
  rw [writeMember, List.append_assoc, List.cons_append, heq, readMembers]
  have hquote : skipSpace (0x22 :: body) = 0x22 :: body := rfl
  have hcolon : skipSpace (0x3a :: (text ++ b :: rest)) = 0x3a :: (text ++ b :: rest) := rfl
  simp only [hquote, hstring, hcolon, hread, hskip, String.ofList_toList]
  rfl

theorem readMembers_written (h : List.Forall₂ (ReadsMember depth) members values)
    (hne : members ≠ []) (hfuel : 2 * (separated (members.map writeMember)).length + 1 ≤ fuel)
    (rest : Bytes) :
    readMembers fuel depth (separated (members.map writeMember) ++ 0x7d :: rest) =
      some (values, rest) := by
  induction h generalizing fuel with
  | nil => exact absurd rfl hne
  | @cons member value members values hvalue hvalues ih =>
      obtain ⟨fuel, rfl⟩ : ∃ k, fuel = k + 1 := Nat.exists_eq_succ_of_ne_zero (by omega)
      by_cases hlast : members = []
      · subst hlast
        cases hvalues
        rw [List.map_cons, List.map_nil, separated] at hfuel ⊢
        rw [readMembers_cons hvalue (Or.inr (Or.inr rfl)) (by omega)]
        rfl
      · have hmap : members.map writeMember ≠ [] := by simpa using hlast
        rw [List.map_cons, separated_cons _ hmap] at hfuel ⊢
        rw [List.length_append, List.length_cons] at hfuel
        rw [List.append_assoc, List.cons_append,
          readMembers_cons hvalue (Or.inl rfl) (by omega), ih hlast (by omega)]
        rfl

theorem reads_object (hdepth : depth < maxNestingDepth)
    (h : List.Forall₂ (ReadsMember (depth + 1)) members values) :
    Reads depth (writeObject members) (.object values) := by
  intro fuel rest hfuel hrest
  rw [writeObject, List.length_cons, List.length_append] at hfuel
  obtain ⟨fuel, rfl⟩ : ∃ k, fuel = k + 1 := Nat.exists_eq_succ_of_ne_zero (by omega)
  cases h with
  | nil => simp [writeObject, separated, readValue, skipSpace, isSpace, hdepth]
  | @cons member value members values hvalue hvalues =>
      have hread := readMembers_written (List.Forall₂.cons hvalue hvalues) (List.cons_ne_nil _ _)
        (by omega : 2 * (separated ((member :: members).map writeMember)).length + 1 ≤ fuel) rest
      have hfirst : ∃ body, separated ((member :: members).map writeMember) ++ 0x7d :: rest =
          0x22 :: body := by
        cases members with
        | nil => exact ⟨_, rfl⟩
        | cons next members => exact ⟨_, rfl⟩
      obtain ⟨body, hbody⟩ := hfirst
      rw [writeObject, List.cons_append, List.append_assoc, List.singleton_append, readValue]
      rw [hbody] at hread ⊢
      have hopen : skipSpace (0x7b :: 0x22 :: body) = 0x7b :: 0x22 :: body := rfl
      have hquote : skipSpace (0x22 :: body) = 0x22 :: body := rfl
      rw [hopen]
      simp [hdepth, hquote, hread]

end Objects

/-- A written text with white space after it is the text of its value. -/
theorem parse_of_reads {text : Bytes} {value : Value} (h : Reads 0 text value) {spaces : Bytes}
    (hspaces : ∀ b ∈ spaces, isSpace b = true) : parse (text ++ spaces) = some value := by
  have hdelimited : Delimited spaces := by
    intro b hb
    have hspace := hspaces b (List.mem_of_mem_head? hb)
    simp only [isSpace, Bool.or_eq_true, beq_iff_eq] at hspace
    obtain ((rfl | rfl) | rfl) | rfl := hspace <;> decide
  have hread := h (2 * (text ++ spaces).length + 2) spaces
    (by rw [List.length_append]; omega) hdelimited
  have hskip : skipSpace spaces = [] := List.dropWhile_eq_nil_iff.mpr hspaces
  rw [parse, hread]
  simp [hskip]

end Texts

end NodeScope.Lib.Json
