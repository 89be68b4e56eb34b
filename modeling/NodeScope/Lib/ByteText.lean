import NodeScope.Lib.Text
import NodeScope.Lib.Url

/-!
# Words and hexadecimal digits

Go's `strings.Fields` and `hex.DecodeString` on the bytes of a string. Text that is cut off after
its first word began has a beginning of that word as its first word, as long as the word consists
of hexadecimal digits, none of which begins a space.
-/

namespace NodeScope.Lib.ByteText

open Text

abbrev Bytes := List UInt8

/-- The word at the start of a text, and what is left. -/
def takeWord : Bytes → Bytes × Bytes
  | [] => ([], [])
  | c :: rest =>
      if spaces.any (·.isPrefixOf (c :: rest)) then ([], c :: rest)
      else
        let (word, left) := takeWord rest
        (c :: word, left)

/-- The words of a text, up to a number of them. -/
def byteFields : Nat → Bytes → List Bytes
  | 0, _ => []
  | fuel + 1, b =>
      match dropLeading spaces b.length b with
      | [] => []
      | trimmed => (takeWord trimmed).1 :: byteFields fuel (takeWord trimmed).2

/-- `strings.Fields`. -/
def fields (b : Bytes) : List Bytes := byteFields b.length b

/-- `hex.DecodeString`. -/
def hexDecode : Bytes → Option Bytes
  | [] => some []
  | [_] => none
  | x :: y :: rest => do
      let high ← Url.hexValue x
      let low ← Url.hexValue y
      let decoded ← hexDecode rest
      some ((high * 16 + low) :: decoded)

/-- `strings.EqualFold` of two texts of hexadecimal digits. -/
def hexEqualFold (x y : Bytes) : Bool := x.map Url.lower == y.map Url.lower

example : fields (utf8 " ab  c\n") = [utf8 "ab", utf8 "c"] := by decide

section Digits

def isHexDigit (b : UInt8) : Bool := (Url.hexValue b).isSome

theorem hexValue_lower (b : UInt8) : Url.hexValue (Url.lower b) = Url.hexValue b := by
  rw [Url.lower]
  split
  · next h =>
      have hcapital : ∀ n < 26, Url.hexValue (UInt8.ofNat (0x41 + n) + 0x20) =
          Url.hexValue (UInt8.ofNat (0x41 + n)) := by decide
      simp only [Bool.and_eq_true, decide_eq_true_eq, UInt8.le_iff_toNat_le,
        UInt8.reduceToNat] at h
      have hb := hcapital (b.toNat - 0x41) (by omega)
      rwa [show 0x41 + (b.toNat - 0x41) = b.toNat by omega, UInt8.ofNat_toNat] at hb
  · rfl

theorem lower_lower (b : UInt8) : Url.lower (Url.lower b) = Url.lower b := by
  simp only [Url.lower]
  split
  · next h =>
      rw [if_neg]
      simp only [Bool.and_eq_true, decide_eq_true_eq, UInt8.le_iff_toNat_le, UInt8.reduceToNat,
        UInt8.toNat_add] at h ⊢
      omega
  · rfl

theorem hexEqualFold_lower (b : Bytes) : hexEqualFold (b.map Url.lower) b = true := by
  rw [hexEqualFold, List.map_map, beq_iff_eq]
  exact List.map_congr_left fun x _ => lower_lower x

theorem hexDecode_map_lower (b : Bytes) : hexDecode (b.map Url.lower) = hexDecode b := by
  fun_induction hexDecode b with
  | case1 => rfl
  | case2 x => rfl
  | case3 x y rest ih =>
      rw [List.map_cons, List.map_cons, hexDecode, hexValue_lower, hexValue_lower, ih]

theorem hexDecode_congr {x y : Bytes} (h : hexEqualFold x y = true) :
    hexDecode x = hexDecode y := by
  rw [← hexDecode_map_lower x, eq_of_beq h, hexDecode_map_lower]

/-- Decoded text has two digits for each byte. -/
theorem hexDecode_eq_some {b decoded : Bytes} (h : hexDecode b = some decoded) :
    b.length = 2 * decoded.length ∧ ∀ c ∈ b, isHexDigit c = true := by
  induction b using hexDecode.induct generalizing decoded with
  | case1 =>
      obtain rfl : [] = decoded := by simpa [hexDecode] using h
      exact ⟨rfl, nofun⟩
  | case2 x => cases h
  | case3 x y rest ih =>
      simp only [hexDecode, Option.bind_eq_bind, Option.bind_eq_some_iff] at h
      obtain ⟨high, hhigh, low, hlow, tail, htail, h⟩ := h
      cases h
      obtain ⟨hlength, hdigits⟩ := ih htail
      refine ⟨by simp only [List.length_cons]; omega, ?_⟩
      intro c hc
      simp only [List.mem_cons] at hc
      rcases hc with rfl | rfl | hc
      · rw [isHexDigit, hhigh]
        rfl
      · rw [isHexDigit, hlow]
        rfl
      · exact hdigits c hc

end Digits

section Words

theorem hexDigit_not_space {c : UInt8} (h : isHexDigit c = true) (b : Bytes) :
    ∀ e ∈ spaces, ¬ e <+: c :: b := by
  have hheads : ∀ e ∈ spaces, e ≠ [] ∧ ∀ x ∈ e.head?, isHexDigit x = false := by
    decide +kernel
  intro e he hstart
  cases e with
  | nil => exact (hheads [] he).1 rfl
  | cons x rest =>
      obtain ⟨rfl, -⟩ := List.cons_prefix_cons.mp hstart
      have hx := (hheads (x :: rest) he).2 x rfl
      rw [h] at hx
      cases hx

/-- No space begins with another one. -/
theorem spaces_eq_of_start : ∀ e ∈ spaces, ∀ e' ∈ spaces, e <+: e' → e = e' := by decide

/-- A digit begins a text with nothing to drop. -/
theorem dropLeading_append {f g : Nat} {b : Bytes} (hf : b.length ≤ f) (hg : b.length ≤ g)
    {c : UInt8} {rest : Bytes} (hdrop : dropLeading spaces f b = c :: rest)
    (hc : isHexDigit c = true) (more : Bytes) :
    dropLeading spaces g (b ++ more) = c :: rest ++ more := by
  induction f generalizing g b with
  | zero =>
      rw [List.length_eq_zero_iff.mp (Nat.le_zero.mp hf)] at hdrop
      cases hdrop
  | succ f ih =>
      rw [dropLeading] at hdrop
      cases hfind : spaces.find? (·.isPrefixOf b) with
      | none =>
          rw [hfind] at hdrop
          obtain rfl : b = c :: rest := hdrop
          exact dropLeading_eq_self (hexDigit_not_space hc (rest ++ more)) g
      | some e =>
          rw [hfind] at hdrop
          have he := List.mem_of_find?_eq_some hfind
          have hstart : e <+: b := by
            have := List.find?_some hfind
            simpa using this
          have hpos := List.length_pos_iff.mpr (spaces_ne_nil e he)
          have hlength := hstart.length_le
          obtain ⟨g, rfl⟩ : ∃ k, g = k + 1 := ⟨g - 1, by omega⟩
          -- The longer text begins with the same space, since no space begins with another.
          have hsame : spaces.find? (·.isPrefixOf (b ++ more)) = some e := by
            cases hother : spaces.find? (·.isPrefixOf (b ++ more)) with
            | none =>
                rw [List.find?_eq_none] at hother
                exact absurd (by simpa using hstart.trans (List.prefix_append b more))
                  (hother e he)
            | some e' =>
                have he' := List.mem_of_find?_eq_some hother
                have hstart' : e' <+: b ++ more := by
                  have := List.find?_some hother
                  simpa using this
                obtain h | h := List.prefix_or_prefix_of_prefix
                  (hstart.trans (List.prefix_append b more)) hstart'
                · rw [spaces_eq_of_start e he e' he' h]
                · rw [spaces_eq_of_start e' he' e he h]
          rw [dropLeading, hsame]
          dsimp only
          rw [List.drop_append_of_le_length hlength]
          exact ih (by rw [List.length_drop]; omega) (by rw [List.length_drop]; omega) hdrop

theorem takeWord_append {b : Bytes} (hdigits : ∀ c ∈ (takeWord b).1, isHexDigit c = true)
    (more : Bytes) : ∃ rest, (takeWord (b ++ more)).1 = (takeWord b).1 ++ rest := by
  induction b with
  | nil => exact ⟨(takeWord more).1, rfl⟩
  | cons c b ih =>
      by_cases hspace : spaces.any (·.isPrefixOf (c :: b)) = true
      · refine ⟨(takeWord (c :: b ++ more)).1, ?_⟩
        rw [takeWord, if_pos hspace]
        rfl
      · have hword : (takeWord (c :: b)).1 = c :: (takeWord b).1 := by
          rw [takeWord, if_neg hspace]
        rw [hword] at hdigits ⊢
        obtain ⟨rest, hrest⟩ := ih fun x hx => hdigits x (List.mem_cons_of_mem c hx)
        have hspace' : ¬ spaces.any (·.isPrefixOf (c :: (b ++ more))) = true := by
          have hnot := hexDigit_not_space (hdigits c List.mem_cons_self) (b ++ more)
          simpa using hnot
        refine ⟨rest, ?_⟩
        rw [List.cons_append, takeWord, if_neg hspace']
        dsimp only
        rw [hrest, List.cons_append]

theorem fields_head {b : Bytes} {word : Bytes} :
    (fields b).head? = some word ↔ ∃ c rest, dropLeading spaces b.length b = c :: rest ∧
      (takeWord (c :: rest)).1 = word := by
  rw [fields]
  cases hb : b.length with
  | zero =>
      rw [List.length_eq_zero_iff.mp hb]
      simp [byteFields, dropLeading]
  | succ fuel =>
      rw [byteFields, hb]
      cases hdrop : dropLeading spaces (fuel + 1) b with
      | nil => simp
      | cons c rest => simp

/-- The first word of a text that is cut off, if it consists of digits, begins the first word of
the whole text. -/
theorem fields_head_append {b word : Bytes} (h : (fields b).head? = some word) (hne : word ≠ [])
    (hdigits : ∀ c ∈ word, isHexDigit c = true) (more : Bytes) :
    ∃ rest, (fields (b ++ more)).head? = some (word ++ rest) := by
  obtain ⟨c, left, hdrop, hword⟩ := fields_head.mp h
  have hc : isHexDigit c = true := by
    rw [takeWord] at hword
    split at hword
    · exact absurd hword.symm hne
    · exact hdigits c (by rw [← hword]; exact List.mem_cons_self)
  rw [← hword] at hdigits
  obtain ⟨rest, hrest⟩ := takeWord_append hdigits more
  refine ⟨rest, fields_head.mpr ⟨c, left ++ more, ?_, ?_⟩⟩
  · exact dropLeading_append le_rfl (by simp) hdrop hc more
  · rw [← hword, ← hrest, List.cons_append]

theorem takeWord_digits {b : Bytes} (h : ∀ c ∈ b, isHexDigit c = true) : takeWord b = (b, []) := by
  induction b with
  | nil => rfl
  | cons c rest ih =>
      have hspace : ¬ spaces.any (·.isPrefixOf (c :: rest)) = true := by
        simpa using hexDigit_not_space (h c List.mem_cons_self) rest
      rw [takeWord, if_neg hspace, ih fun x hx => h x (List.mem_cons_of_mem c hx)]

theorem dropLeading_blanks {b : Bytes} (h : ∀ e ∈ spaces, ¬ e <+: b) (n : Nat) {fuel : Nat}
    (hfuel : n ≤ fuel) : dropLeading spaces fuel (List.replicate n 0x20 ++ b) = b := by
  induction n generalizing fuel with
  | zero => exact dropLeading_eq_self h fuel
  | succ n ih =>
      obtain ⟨fuel, rfl⟩ : ∃ k, fuel = k + 1 := ⟨fuel - 1, by omega⟩
      have hfind : spaces.find? (·.isPrefixOf (0x20 :: (List.replicate n 0x20 ++ b))) =
          some [0x20] := rfl
      rw [List.replicate_succ, List.cons_append, dropLeading, hfind]
      exact ih (by omega)

/-- Blanks before a word of digits. -/
theorem fields_head_blanks (n : Nat) {word : Bytes} (hne : word ≠ [])
    (h : ∀ c ∈ word, isHexDigit c = true) :
    (fields (List.replicate n 0x20 ++ word)).head? = some word := by
  cases word with
  | nil => exact absurd rfl hne
  | cons c rest =>
      refine fields_head.mpr ⟨c, rest, ?_, by rw [takeWord_digits h]⟩
      exact dropLeading_blanks (hexDigit_not_space (h c List.mem_cons_self) rest) n (by simp)

end Words

end NodeScope.Lib.ByteText
