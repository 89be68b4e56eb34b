import Mathlib.Data.List.DropRight
import NodeScope.Lib.Json
import NodeScope.Lib.Url

/-!
# The characters of a Go string

A Go string is bytes. A loop over it meets the characters that they encode and, where they encode
none, stray bytes. Reading a text stops where a character begins, whatever stands before.
Lower-casing writes a stray byte as the replacement character, so that it may write two texts
alike which are not one text up to case.

## Implementation notes

The case of letters beyond ASCII is a `CaseTable`: of Go's tables only what is laid down in its
fields is used.
-/

namespace NodeScope.Lib.Runes

open Text

abbrev Bytes := List UInt8

/-- What a loop over a string meets. -/
inductive Rune where
  | char (c : Char)
  | stray (b : UInt8)
deriving DecidableEq

/-- The first rune of a text, and the rest. -/
def nextRune (b : Bytes) : Option (Rune × Bytes) :=
  match b, Json.decodeRune b with
  | first :: rest, some (c, after) =>
      if 0x80 ≤ first && after.length == rest.length then some (.stray first, after)
      else some (.char c, after)
  | _, _ => none

/-- The runes of a text, up to a number of them. -/
def runesUpTo : Nat → Bytes → List Rune
  | 0, _ => []
  | fuel + 1, b =>
      match nextRune b with
      | some (r, rest) => r :: runesUpTo fuel rest
      | none => []

def runes (b : Bytes) : List Rune := runesUpTo b.length b

/-- Lower-casing of characters as `unicode.ToLower` does it: ASCII is fixed, white space has no
case, and what changes becomes a letter. -/
structure CaseTable where
  toLower : Char → Char
  ascii : ∀ c : Char, c.toNat < 0x80 → toLower c = c.toLower
  space : ∀ c : Char, isSpace c = true → toLower c = c
  letter : ∀ c : Char, toLower c = c ∨ 0x61 ≤ (toLower c).toNat

def CaseTable.lower (table : CaseTable) : Rune → Rune
  | .char c => .char (table.toLower c)
  | .stray b => .stray b

/-- The character that stands for a rune in a text. -/
def Rune.shown : Rune → Char
  | .char c => c
  | .stray _ => Json.replacement

/-- What `strings.Map` writes for a rune. -/
def Rune.written : Rune → Bytes
  | .char c => String.utf8EncodeChar c
  | .stray _ => String.utf8EncodeChar Json.replacement

/-- The runes of a text up to case. -/
def fold (table : CaseTable) (b : Bytes) : List Rune := (runes b).map table.lower

/-- Go's `strings.ToLower`. -/
def toLower (table : CaseTable) (b : Bytes) : Bytes :=
  if b.all (· < 0x80) then b.map Url.lower else (fold table b).flatMap Rune.written

/-- A text without the copies of `c` at its end. -/
def trimRight (c : UInt8) (s : Bytes) : Bytes := s.rdropWhile (· == c)

example : runes [0x61, 0xc3, 0xa9, 0xff] = [.char 'a', .char 'é', .stray 0xff] := by decide

section Decoding

open Json

variable {a b c d : UInt8} {s t : Bytes}

/-- No byte at the start of the text continues a character. -/
def Boundary (t : Bytes) : Prop := ∀ b ∈ t.head?, isTail b = false

theorem twoBytes_of_not_tail (h : isTail b = false) : twoBytes a b = none := by
  simp [twoBytes, h]

theorem threeBytes_of_not_tail (h : isTail b = false ∨ isTail c = false) :
    threeBytes a b c = none := by
  obtain h | h := h <;> simp [threeBytes, h]

theorem fourBytes_of_not_tail (h : isTail b = false ∨ isTail c = false ∨ isTail d = false) :
    fourBytes a b c d = none := by
  obtain h | h | h := h <;> simp [fourBytes, h]

/-- A character is read alike whatever follows it, unless what follows continues it. -/
theorem decodeRune_append (hs : s ≠ []) (ht : Boundary t) :
    decodeRune (s ++ t) = (decodeRune s).map fun (c, rest) => (c, rest ++ t) := by
  match s, t with
  | a :: s, [] =>
      rw [List.append_nil]
      cases decodeRune (a :: s) <;> simp
  | [a], b :: t =>
      have hb : isTail b = false := ht b rfl
      have htwo : twoBytes a b = none := twoBytes_of_not_tail hb
      by_cases hascii : a < 0x80
      · simp [decodeRune, hascii]
      · match t with
        | [] => simp [decodeRune, hascii, htwo]
        | [c] => simp [decodeRune, hascii, htwo, threeBytes_of_not_tail (Or.inl hb)]
        | c :: d :: t =>
            simp [decodeRune, hascii, htwo, threeBytes_of_not_tail (Or.inl hb),
              fourBytes_of_not_tail (Or.inl hb)]
  | [a, b], c :: t =>
      have hc : isTail c = false := ht c rfl
      by_cases hascii : a < 0x80
      · simp [decodeRune, hascii]
      · match t with
        | [] =>
            cases htwo : twoBytes a b <;>
              simp [decodeRune, hascii, htwo, threeBytes_of_not_tail (Or.inr hc)]
        | d :: t =>
            cases htwo : twoBytes a b <;>
              simp [decodeRune, hascii, htwo, threeBytes_of_not_tail (Or.inr hc),
                fourBytes_of_not_tail (Or.inr (Or.inl hc))]
  | [a, b, c], d :: t =>
      have hd : isTail d = false := ht d rfl
      by_cases hascii : a < 0x80
      · simp [decodeRune, hascii]
      · cases htwo : twoBytes a b <;> cases hthree : threeBytes a b c <;>
          simp [decodeRune, hascii, htwo, hthree, fourBytes_of_not_tail (Or.inr (Or.inr hd))]
  | a :: b :: c :: d :: s, t =>
      by_cases hascii : a < 0x80
      · simp [decodeRune, hascii]
      · cases htwo : twoBytes a b <;> cases hthree : threeBytes a b c <;>
          cases hfour : fourBytes a b c d <;>
          simp [decodeRune, hascii, htwo, hthree, hfour]

theorem decodeRune_ascii (h : a < 0x80) : decodeRune (a :: s) = some (toChar a, s) := by
  rw [decodeRune.eq_def]
  exact if_pos h

theorem toNat_ofNat {n : Nat} (h : n.isValidChar) : (Char.ofNat n).toNat = n := by
  rw [Char.ofNat, dif_pos h]
  rfl

theorem isTail_bounds (h : isTail b = true) : 0x80 ≤ b.toNat ∧ b.toNat ≤ 0xbf := by
  simpa [isTail, UInt8.le_iff_toNat_le] using h

/-- A character of more bytes than one is beyond ASCII. -/
theorem toNat_of_twoBytes {x : Char} (h : twoBytes a b = some x) : 0x80 ≤ x.toNat := by
  simp only [twoBytes, Option.ite_none_right_eq_some, Option.some.injEq, Bool.and_eq_true,
    decide_eq_true_eq, UInt8.le_iff_toNat_le, UInt8.reduceToNat] at h
  obtain ⟨⟨⟨hlow, hhigh⟩, hb⟩, rfl⟩ := h
  have := isTail_bounds hb
  rw [toNat_ofNat (Or.inl (by omega))]
  omega

theorem toNat_of_threeBytes {x : Char} (h : threeBytes a b c = some x) : 0x80 ≤ x.toNat := by
  simp only [threeBytes, Option.ite_none_right_eq_some, Option.some.injEq, Bool.and_eq_true,
    Bool.or_eq_true, bne_iff_ne, ne_eq, decide_eq_true_eq, UInt8.le_iff_toNat_le,
    ← UInt8.toNat_inj, UInt8.reduceToNat] at h
  obtain ⟨⟨⟨⟨⟨⟨hlow, hhigh⟩, hb⟩, hc⟩, hoverlong⟩, hsurrogate⟩, rfl⟩ := h
  have := isTail_bounds hb
  have := isTail_bounds hc
  rw [toNat_ofNat]
  · omega
  · by_cases hd : a.toNat ≤ 0xed
    · exact Or.inl (by omega)
    · exact Or.inr ⟨by omega, by omega⟩

theorem toNat_of_fourBytes {x : Char} (h : fourBytes a b c d = some x) : 0x80 ≤ x.toNat := by
  simp only [fourBytes, Option.ite_none_right_eq_some, Option.some.injEq, Bool.and_eq_true,
    Bool.or_eq_true, bne_iff_ne, ne_eq, decide_eq_true_eq, UInt8.le_iff_toNat_le,
    ← UInt8.toNat_inj, UInt8.reduceToNat] at h
  obtain ⟨⟨⟨⟨⟨⟨⟨hlow, hhigh⟩, hb⟩, hc⟩, hd⟩, hoverlong⟩, hlast⟩, rfl⟩ := h
  have := isTail_bounds hb
  have := isTail_bounds hc
  have := isTail_bounds hd
  rw [toNat_ofNat (Or.inr ⟨by omega, by omega⟩)]
  omega

/-- What is read at a byte beyond ASCII: a character beyond ASCII, or the byte alone. -/
theorem decodeRune_foreign (h : ¬ a < 0x80) :
    ∃ x rest, decodeRune (a :: s) = some (x, rest) ∧ rest <:+ s ∧ 0x80 ≤ x.toNat := by
  have hreplacement : 0x80 ≤ replacement.toNat := by decide
  rw [decodeRune.eq_def]
  dsimp only
  rw [if_neg h]
  match s with
  | [] => exact ⟨_, _, rfl, List.suffix_rfl, hreplacement⟩
  | [b] =>
      cases htwo : twoBytes a b with
      | some x => exact ⟨x, [], by simp [htwo], List.nil_suffix, toNat_of_twoBytes htwo⟩
      | none => exact ⟨_, _, by simp [htwo], List.suffix_rfl, hreplacement⟩
  | [b, c] =>
      cases htwo : twoBytes a b with
      | some x => exact ⟨x, [c], by simp [htwo], List.suffix_cons b [c], toNat_of_twoBytes htwo⟩
      | none =>
          cases hthree : threeBytes a b c with
          | some x =>
              exact ⟨x, [], by simp [htwo, hthree], List.nil_suffix, toNat_of_threeBytes hthree⟩
          | none => exact ⟨_, _, by simp [htwo, hthree], List.suffix_rfl, hreplacement⟩
  | b :: c :: d :: s =>
      cases htwo : twoBytes a b with
      | some x => exact ⟨x, _, by simp [htwo], List.suffix_cons b _, toNat_of_twoBytes htwo⟩
      | none =>
          cases hthree : threeBytes a b c with
          | some x =>
              exact ⟨x, d :: s, by simp [htwo, hthree], ⟨[b, c], rfl⟩, toNat_of_threeBytes hthree⟩
          | none =>
              cases hfour : fourBytes a b c d with
              | some x =>
                  exact ⟨x, s, by simp [htwo, hthree, hfour], ⟨[b, c, d], rfl⟩,
                    toNat_of_fourBytes hfour⟩
              | none =>
                  exact ⟨_, _, by simp [htwo, hthree, hfour], List.suffix_rfl, hreplacement⟩

end Decoding

section Reading

variable {a : UInt8} {s t rest : Bytes} {r : Rune}

/-- A rune of bytes beyond ASCII. -/
def Rune.Foreign : Rune → Prop
  | .char c => 0x80 ≤ c.toNat
  | .stray _ => True

theorem nextRune_ascii (h : a < 0x80) : nextRune (a :: s) = some (.char (Json.toChar a), s) := by
  have hnot : ¬ 0x80 ≤ a := UInt8.not_le.mpr h
  rw [nextRune.eq_def, decodeRune_ascii h]
  simp [hnot]

theorem nextRune_foreign (h : ¬ a < 0x80) :
    ∃ r rest, nextRune (a :: s) = some (r, rest) ∧ rest <:+ s ∧ r.Foreign := by
  obtain ⟨x, rest, hdecode, hrest, hx⟩ := decodeRune_foreign (s := s) h
  rw [nextRune.eq_def, hdecode]
  dsimp only
  split
  · exact ⟨_, _, rfl, hrest, trivial⟩
  · exact ⟨_, _, rfl, hrest, hx⟩

/-- A text that is not empty has a first rune, and the rest is shorter. -/
theorem nextRune_cons (a : UInt8) (s : Bytes) :
    ∃ r rest, nextRune (a :: s) = some (r, rest) ∧ rest <:+ s := by
  by_cases h : a < 0x80
  · exact ⟨_, s, nextRune_ascii h, List.suffix_rfl⟩
  · obtain ⟨r, rest, hnext, hrest, -⟩ := nextRune_foreign (s := s) h
    exact ⟨r, rest, hnext, hrest⟩

theorem nextRune_append (hs : s ≠ []) (ht : Boundary t) :
    nextRune (s ++ t) = (nextRune s).map fun (r, rest) => (r, rest ++ t) := by
  cases s with
  | nil => exact absurd rfl hs
  | cons a s =>
      have happend := decodeRune_append hs ht
      rw [nextRune.eq_def, nextRune.eq_def, happend]
      cases Json.decodeRune (a :: s) with
      | none => rfl
      | some pair => simp; split <;> rfl

/-- The number that bounds the runes does not matter once it reaches the length. -/
theorem runesUpTo_eq {f g : Nat} (hf : s.length ≤ f) (hg : s.length ≤ g) :
    runesUpTo f s = runesUpTo g s := by
  induction f generalizing g s with
  | zero =>
      obtain rfl := List.length_eq_zero_iff.mp (Nat.le_zero.mp hf)
      cases g <;> rfl
  | succ f ih =>
      cases s with
      | nil => cases g <;> rfl
      | cons a s =>
          cases g with
          | zero => cases hg
          | succ g =>
              obtain ⟨r, rest, hnext, hrest⟩ := nextRune_cons a s
              have hlength := hrest.length_le
              simp only [List.length_cons] at hf hg
              simp only [runesUpTo, hnext]
              rw [ih (g := g) (by omega) (by omega)]

@[simp] theorem runes_nil : runes [] = [] := rfl

theorem runes_of_nextRune (h : nextRune s = some (r, rest)) : runes s = r :: runes rest := by
  cases s with
  | nil => cases h
  | cons a s =>
      obtain ⟨r', rest', hnext, hrest⟩ := nextRune_cons a s
      obtain ⟨rfl, rfl⟩ := Prod.mk.inj (Option.some.inj (h.symm.trans hnext))
      rw [runes, List.length_cons, runesUpTo, h]
      dsimp only
      rw [runes, runesUpTo_eq hrest.length_le le_rfl]

theorem runes_ascii_cons (h : a < 0x80) :
    runes (a :: s) = .char (Json.toChar a) :: runes s :=
  runes_of_nextRune (nextRune_ascii h)

theorem runes_ascii (h : ∀ b ∈ s, b < 0x80) : runes s = s.map fun b => .char (Json.toChar b) := by
  induction s with
  | nil => rfl
  | cons a s ih =>
      rw [List.forall_mem_cons] at h
      rw [runes_ascii_cons h.1, ih h.2, List.map_cons]

/-- Reading stops where a character begins. -/
theorem runes_append (ht : Boundary t) : runes (s ++ t) = runes s ++ runes t := by
  induction hn : s.length using Nat.strong_induction_on generalizing s with
  | _ n ih =>
      cases s with
      | nil => rfl
      | cons a s =>
          obtain ⟨r, rest, hnext, hrest⟩ := nextRune_cons a s
          have hlength := hrest.length_le
          have happend := nextRune_append (List.cons_ne_nil a s) ht
          rw [hnext] at happend
          rw [List.length_cons] at hn
          rw [runes_of_nextRune happend, runes_of_nextRune hnext, List.cons_append,
            ih rest.length (by omega) rfl]

/-- A rune is an ASCII byte of the text or stands for bytes beyond ASCII. -/
theorem mem_runes (h : r ∈ runes s) :
    (∃ b ∈ s, b < 0x80 ∧ r = .char (Json.toChar b)) ∨ r.Foreign := by
  induction hn : s.length using Nat.strong_induction_on generalizing s with
  | _ n ih =>
      cases s with
      | nil => cases h
      | cons a s =>
          rw [List.length_cons] at hn
          by_cases hascii : a < 0x80
          · rw [runes_ascii_cons hascii] at h
            obtain rfl | h := List.mem_cons.mp h
            · exact Or.inl ⟨a, List.mem_cons_self, hascii, rfl⟩
            · obtain ⟨b, hb, hr⟩ | hr := ih s.length (by omega) h rfl
              · exact Or.inl ⟨b, List.mem_cons_of_mem a hb, hr⟩
              · exact Or.inr hr
          · obtain ⟨first, rest, hnext, hrest, hfirst⟩ := nextRune_foreign (s := s) hascii
            rw [runes_of_nextRune hnext] at h
            obtain rfl | h := List.mem_cons.mp h
            · exact Or.inr hfirst
            · have hlength := hrest.length_le
              obtain ⟨b, hb, hr⟩ | hr := ih rest.length (by omega) h rfl
              · exact Or.inl ⟨b, List.mem_cons_of_mem a (hrest.subset hb), hr⟩
              · exact Or.inr hr

/-- The last rune of a text whose last byte is beyond ASCII. -/
theorem runes_concat_foreign (h : ¬ a < 0x80) (s : Bytes) :
    ∃ before r, runes (s ++ [a]) = before ++ [r] ∧ r.Foreign := by
  induction hn : s.length using Nat.strong_induction_on generalizing s with
  | _ n ih =>
      cases s with
      | nil =>
          obtain ⟨r, rest, hnext, hrest, hr⟩ := nextRune_foreign (s := []) h
          obtain rfl := List.suffix_nil.mp hrest
          exact ⟨[], r, runes_of_nextRune hnext, hr⟩
      | cons b s =>
          rw [List.length_cons] at hn
          by_cases hascii : b < 0x80
          · obtain ⟨before, r, hruns, hr⟩ := ih s.length (by omega) s rfl
            exact ⟨_, r, by rw [List.cons_append, runes_ascii_cons hascii, hruns,
              ← List.cons_append], hr⟩
          · obtain ⟨first, rest, hnext, hrest, hfirst⟩ := nextRune_foreign (s := s ++ [a]) hascii
            obtain rfl | ⟨more, rfl, hmore⟩ := List.suffix_concat_iff.mp hrest
            · exact ⟨[], first, runes_of_nextRune hnext, hfirst⟩
            · have hlength := hmore.length_le
              obtain ⟨before, r, hruns, hr⟩ := ih more.length (by omega) more rfl
              exact ⟨first :: before, r, by rw [List.cons_append, runes_of_nextRune hnext, hruns,
                List.cons_append], hr⟩

end Reading

section Trimming

variable {c : UInt8} {s : Bytes}

/-- The number of copies of `c` at the end of a text. -/
def trailing (c : UInt8) (s : Bytes) : Nat := (s.rtakeWhile (· == c)).length

theorem trimRight_append_trailing (c : UInt8) (s : Bytes) :
    trimRight c s ++ List.replicate (trailing c s) c = s := by
  have hrun : s.rtakeWhile (· == c) = List.replicate (trailing c s) c := by
    refine List.eq_replicate_iff.mpr ⟨rfl, fun b hb => ?_⟩
    simpa using List.mem_rtakeWhile_imp hb
  rw [← hrun]
  exact List.rdropWhile_append_rtakeWhile

theorem trimRight_replicate (h : s.getLast? ≠ some c) (n : Nat) :
    trimRight c (s ++ List.replicate n c) = s := by
  induction n with
  | zero =>
      rw [List.replicate_zero, List.append_nil]
      refine List.rdropWhile_eq_self_iff.mpr fun hne hlast => h ?_
      rw [List.getLast?_eq_some_getLast hne]
      exact congrArg some (by simpa using hlast)
  | succ n ih =>
      rw [List.replicate_succ', ← List.append_assoc]
      exact (List.rdropWhile_concat_pos _ _ _ (by simp)).trans ih

theorem getLast?_trimRight (c : UInt8) (s : Bytes) : (trimRight c s).getLast? ≠ some c := by
  intro hlast
  obtain ⟨before, hbefore⟩ := List.getLast?_eq_some_iff.mp hlast
  have hne : trimRight c s ≠ [] := by simp [hbefore]
  have hnot := List.rdropWhile_last_not (· == c) s hne
  apply hnot
  simp only [trimRight] at hbefore
  simp [hbefore]

theorem trimRight_eq_self (h : s.getLast? ≠ some c) : trimRight c s = s := by
  simpa using trimRight_replicate h 0

theorem trimRight_append_replicate (s : Bytes) (n : Nat) :
    trimRight c (s ++ List.replicate n c) = trimRight c s := by
  conv_lhs => rw [← trimRight_append_trailing c s, List.append_assoc, ← List.replicate_add]
  exact trimRight_replicate (getLast?_trimRight c s) _

theorem trimRight_subset (c : UInt8) (s : Bytes) : trimRight c s ⊆ s :=
  (List.rdropWhile_prefix _ _).subset

end Trimming

section Case

variable {table : CaseTable} {a c : UInt8} {s t : Bytes} {r : Rune}

theorem fold_append (ht : Boundary t) : fold table (s ++ t) = fold table s ++ fold table t := by
  rw [fold, runes_append ht, List.map_append]
  rfl

theorem toNat_toChar (a : UInt8) : (Json.toChar a).toNat = a.toNat := by
  have hbound := a.toNat_lt
  exact toNat_ofNat (Or.inl (by omega))

theorem toNat_toLower (c : Char) :
    c.toLower.toNat = if 0x41 ≤ c.toNat ∧ c.toNat ≤ 0x5a then c.toNat + 0x20 else c.toNat := by
  have hcapital : (c.val ≥ 'A'.val ∧ c.val ≤ 'Z'.val) ↔ 0x41 ≤ c.toNat ∧ c.toNat ≤ 0x5a := Iff.rfl
  delta Char.toLower
  by_cases h : c.val ≥ 'A'.val ∧ c.val ≤ 'Z'.val
  · rw [dif_pos h, if_pos (hcapital.mp h)]
    have hbound : c.val.toNat ≤ 0x5a := h.2
    simp only [Char.toNat, UInt32.toNat_add]
    have hstep : ('a'.val - 'A'.val).toNat = 0x20 := by decide
    rw [hstep]
    omega
  · rw [dif_neg h, if_neg (mt hcapital.mpr h)]

theorem toLower_of_not_capital {c : Char} (h : ¬ (0x41 ≤ c.toNat ∧ c.toNat ≤ 0x5a)) :
    c.toLower = c := by
  delta Char.toLower
  rw [dif_neg]
  exact h

theorem encode_ascii {c : Char} (h : c.toNat < 0x80) :
    String.utf8EncodeChar c = [UInt8.ofNat c.toNat] := by
  have hle : c.val.toNat ≤ 0x7f := Nat.le_of_lt_succ h
  simp only [String.utf8EncodeChar, if_pos hle]
  rfl

theorem written_ascii (h : a < 0x80) :
    (table.lower (.char (Json.toChar a))).written = [Url.lower a] := by
  have hbound : a.toNat < 0x80 := UInt8.lt_iff_toNat_lt.mp h
  have hsame : table.toLower (Json.toChar a) = (Json.toChar a).toLower :=
    table.ascii _ (by rwa [toNat_toChar])
  have hvalue : (Json.toChar a).toLower.toNat = (Url.lower a).toNat := by
    rw [toNat_toLower, toNat_toChar, Url.lower]
    by_cases hcapital : 0x41 ≤ a.toNat ∧ a.toNat ≤ 0x5a
    · rw [if_pos hcapital, if_pos (by simpa [UInt8.le_iff_toNat_le] using hcapital)]
      simp only [UInt8.toNat_add, UInt8.reduceToNat]
      omega
    · rw [if_neg hcapital, if_neg (by simpa [UInt8.le_iff_toNat_le] using hcapital)]
  have hsmall : (Json.toChar a).toLower.toNat < 0x80 := by
    rw [toNat_toLower, toNat_toChar]
    split <;> omega
  rw [CaseTable.lower, hsame, Rune.written, encode_ascii hsmall, hvalue, UInt8.ofNat_toNat]

/-- The two ways in which `strings.ToLower` goes through a text agree. -/
theorem toLower_eq (table : CaseTable) (s : Bytes) :
    toLower table s = (fold table s).flatMap Rune.written := by
  rw [toLower]
  split
  · rename_i hascii
    simp only [List.all_eq_true, decide_eq_true_eq] at hascii
    rw [fold, runes_ascii hascii, List.map_map, List.flatMap_map, List.map_eq_flatMap]
    exact List.flatMap_congr fun b hb => (written_ascii (hascii b hb)).symm
  · rfl

theorem toLower_append (ht : Boundary t) :
    toLower table (s ++ t) = toLower table s ++ toLower table t := by
  simp only [toLower_eq, fold_append ht, List.flatMap_append]

theorem toLower_ascii (h : ∀ b ∈ s, b < 0x80) : toLower table s = s.map Url.lower := by
  rw [toLower, if_pos]
  simpa using h

theorem written_ne_nil (r : Rune) : r.written ≠ [] := by
  cases r with
  | char x => exact String.utf8EncodeChar_ne_nil (c := x)
  | stray b => exact String.utf8EncodeChar_ne_nil (c := Json.replacement)

theorem encode_foreign {x : Char} (h : 0x80 ≤ x.toNat) :
    ∀ b ∈ String.utf8EncodeChar x, 0x80 ≤ b := by
  intro b hb
  have hbound : x.val.toNat < 0x110000 := by
    obtain h | h := x.valid <;> omega
  have hforeign : ¬ x.val.toNat ≤ 0x7f := Nat.not_le_of_lt h
  rw [UInt8.le_iff_toNat_le]
  simp only [String.utf8EncodeChar, if_neg hforeign] at hb
  split_ifs at hb <;> simp only [List.mem_cons, List.not_mem_nil, or_false] at hb <;>
    obtain rfl | rfl | rfl | rfl := hb <;> simp <;> omega

/-- What a rune beyond ASCII is written with in small letters. -/
theorem written_foreign (h : r.Foreign) : ∀ b ∈ (table.lower r).written, 0x61 ≤ b := by
  have hchar : ∀ x : Char, 0x61 ≤ x.toNat → ∀ b ∈ String.utf8EncodeChar x, 0x61 ≤ b := by
    intro x hx b hb
    by_cases hascii : x.toNat < 0x80
    · have hsize : x.toNat < UInt8.size := lt_trans hascii (by decide)
      rw [encode_ascii hascii, List.mem_singleton] at hb
      rw [hb, UInt8.le_iff_toNat_le, UInt8.toNat_ofNat_of_lt' hsize]
      exact hx
    · exact UInt8.le_trans (by decide) (encode_foreign (Nat.le_of_not_lt hascii) b hb)
  cases r with
  | stray b => exact hchar Json.replacement (by decide)
  | char c =>
      refine hchar _ ?_
      obtain hsame | hletter := table.letter c
      · rw [hsame]
        exact le_trans (by decide) h
      · exact hletter

theorem toLower_cons (h : a < 0x80) :
    toLower table (a :: s) = Url.lower a :: toLower table s := by
  rw [toLower_eq, fold, runes_ascii_cons h, List.map_cons, List.flatMap_cons, written_ascii h,
    ← fold, ← toLower_eq, List.singleton_append]

/-- A byte before the small letters stands in the text itself. -/
theorem mem_of_mem_toLower (hc : c < 0x61) (h : c ∈ toLower table s) :
    ∃ b ∈ s, b < 0x80 ∧ Url.lower b = c := by
  rw [toLower_eq, fold, List.flatMap_map, List.mem_flatMap] at h
  obtain ⟨r, hr, hmem⟩ := h
  obtain ⟨b, hb, hascii, rfl⟩ | hforeign := mem_runes hr
  · rw [written_ascii hascii, List.mem_singleton] at hmem
    exact ⟨b, hb, hascii, hmem.symm⟩
  · exact absurd (written_foreign hforeign c hmem) (UInt8.not_le.mpr hc)

/-- Only the sign itself is written as a sign before the letters. -/
theorem lower_eq_sign {b : UInt8} (hc : c < 0x41) (h : Url.lower b = c) : b = c := by
  rw [Url.lower] at h
  split at h
  · rename_i hcapital
    simp only [Bool.and_eq_true, decide_eq_true_eq, UInt8.le_iff_toNat_le, UInt8.lt_iff_toNat_lt,
      ← UInt8.toNat_inj, UInt8.toNat_add, UInt8.reduceToNat] at hcapital hc h
    omega
  · exact h

theorem ascii_of_sign (hc : c < 0x41) : c < 0x80 := UInt8.lt_trans hc (by decide)

theorem lower_sign (hc : c < 0x41) : Url.lower c = c := by
  rw [Url.lower, if_neg]
  simp only [Bool.and_eq_true, decide_eq_true_eq, UInt8.le_iff_toNat_le, UInt8.lt_iff_toNat_lt,
    UInt8.reduceToNat] at hc ⊢
  omega

theorem sign_mem_toLower (hc : c < 0x41) (h : c ∈ toLower table s) : c ∈ s := by
  obtain ⟨b, hb, -, hlower⟩ := mem_of_mem_toLower (UInt8.lt_trans hc (by decide)) h
  rwa [← lower_eq_sign hc hlower]

theorem boundary_cons (h : a < 0x80) : Boundary (a :: s) := by
  intro b hb
  obtain rfl : a = b := by simpa using hb
  simp only [Json.isTail, Bool.and_eq_false_iff, decide_eq_false_iff_not, UInt8.not_le]
  exact Or.inl h

theorem mem_toLower_of_mem (hc : c < 0x41) (h : c ∈ s) : c ∈ toLower table s := by
  have hascii : c < 0x80 := ascii_of_sign hc
  obtain ⟨before, after, rfl⟩ := List.append_of_mem h
  rw [toLower_append (boundary_cons hascii), toLower_cons hascii, lower_sign hc]
  simp

theorem toLower_replicate (hc : c < 0x41) (n : Nat) :
    toLower table (List.replicate n c) = List.replicate n c := by
  have hascii : c < 0x80 := ascii_of_sign hc
  rw [toLower_ascii fun b hb => by rwa [List.eq_of_mem_replicate hb], List.map_replicate,
    lower_sign hc]

theorem getLast?_toLower (hc : c < 0x41) (h : s.getLast? ≠ some c) :
    (toLower table s).getLast? ≠ some c := by
  obtain rfl | ⟨front, a, rfl⟩ := List.eq_nil_or_concat s
  · simp [toLower]
  · rw [List.concat_eq_append] at h ⊢
    by_cases hascii : a < 0x80
    · have hlast : toLower table [a] = [Url.lower a] := toLower_cons hascii
      rw [toLower_append (boundary_cons hascii), hlast]
      intro heq
      apply h
      simp only [List.getLast?_concat, Option.some.injEq] at heq ⊢
      exact lower_eq_sign hc heq
    · obtain ⟨before, r, hruns, hr⟩ := runes_concat_foreign hascii front
      have hne := written_ne_nil (table.lower r)
      have hlower : toLower table (front ++ [a]) =
          (before.map table.lower).flatMap Rune.written ++ (table.lower r).written := by
        rw [toLower_eq, fold, hruns]
        simp
      intro heq
      rw [hlower, List.getLast?_append_of_ne_nil _ hne] at heq
      have hletter := written_foreign hr c (List.mem_of_getLast? heq)
      exact absurd hletter (UInt8.not_le.mpr (UInt8.lt_trans hc (by decide)))

/-- Lower-casing leaves the copies of a sign at the end of a text alone. -/
theorem toLower_trimRight (hc : c < 0x41) (s : Bytes) :
    toLower table s = toLower table (trimRight c s) ++ List.replicate (trailing c s) c := by
  have hascii : c < 0x80 := ascii_of_sign hc
  have hboundary : Boundary (List.replicate (trailing c s) c) := by
    cases trailing c s with
    | zero => intro b hb; cases hb
    | succ n => exact boundary_cons hascii
  have happend := @toLower_append table (trimRight c s) _ hboundary
  rwa [trimRight_append_trailing, toLower_replicate hc] at happend

theorem trimRight_toLower (hc : c < 0x41) (s : Bytes) :
    trimRight c (toLower table s) = toLower table (trimRight c s) := by
  rw [toLower_trimRight hc s]
  exact trimRight_replicate (getLast?_toLower hc (getLast?_trimRight c s)) _

end Case

section WhiteSpace

variable {table : CaseTable} {a b c : UInt8} {s t : Bytes} {x : Char}

theorem nextRune_two (h : Json.twoBytes a b = some x) :
    nextRune (a :: b :: t) = some (.char x, t) := by
  have hascii : ¬ a < 0x80 := by
    intro hascii
    simp only [UInt8.lt_iff_toNat_lt, UInt8.reduceToNat] at hascii
    simp only [Json.twoBytes, Option.ite_none_right_eq_some, Bool.and_eq_true, decide_eq_true_eq,
      UInt8.le_iff_toNat_le, UInt8.reduceToNat] at h
    omega
  rw [nextRune.eq_def, Json.decodeRune.eq_def]
  match t with
  | [] => simp [hascii, h]
  | [_] => simp [hascii, h]
  | _ :: _ :: _ => simp [hascii, h]

theorem nextRune_three (htwo : Json.twoBytes a b = none)
    (h : Json.threeBytes a b c = some x) : nextRune (a :: b :: c :: t) = some (.char x, t) := by
  have hascii : ¬ a < 0x80 := by
    intro hascii
    simp only [UInt8.lt_iff_toNat_lt, UInt8.reduceToNat] at hascii
    simp only [Json.threeBytes, Option.ite_none_right_eq_some, Bool.and_eq_true,
      decide_eq_true_eq, UInt8.le_iff_toNat_le, UInt8.reduceToNat] at h
    omega
  rw [nextRune.eq_def, Json.decodeRune.eq_def]
  match t with
  | [] => simp [hascii, htwo, h]
  | _ :: _ => simp [hascii, htwo, h]

/-- The encodings of white space, by their length. -/
def spaceForm : Bytes → Bool
  | [a] => a < 0x80 && isSpace (Json.toChar a)
  | [a, b] => (Json.twoBytes a b).any isSpace
  | [a, b, c] => (Json.twoBytes a b).isNone && (Json.threeBytes a b c).any isSpace
  | _ => false

theorem spaces_form : ∀ e ∈ spaces, spaceForm e = true := by decide

/-- White space at the start of a text is read as one character of white space. -/
theorem nextRune_space {e : Bytes} (he : e ∈ spaces) (t : Bytes) :
    ∃ x, nextRune (e ++ t) = some (.char x, t) ∧ isSpace x = true := by
  have hform := spaces_form e he
  match e with
  | [a] =>
      simp only [spaceForm, Bool.and_eq_true, decide_eq_true_eq] at hform
      exact ⟨_, nextRune_ascii hform.1, hform.2⟩
  | [a, b] =>
      obtain ⟨x, htwo, hx⟩ := (Option.any_eq_true _ _).mp hform
      exact ⟨x, nextRune_two htwo, hx⟩
  | [a, b, c] =>
      simp only [spaceForm, Bool.and_eq_true, Option.isNone_iff_eq_none] at hform
      obtain ⟨x, hthree, hx⟩ := (Option.any_eq_true _ _).mp hform.2
      exact ⟨x, nextRune_three hform.1 hthree, hx⟩

/-- White space has no case: it is written as it stands. -/
theorem written_space (hx : isSpace x = true) :
    (table.lower (.char x)).written = String.utf8EncodeChar x := by
  rw [CaseTable.lower, table.space x hx, Rune.written]

/-- A byte of printed ASCII. -/
def printed (b : UInt8) : Bool := 0x21 ≤ b && b < 0x7f

/-- A text that is written in small letters without white space holds none. -/
theorem space_not_mem (h : ∀ b ∈ toLower table s, printed b = true) (hx : isSpace x = true) :
    Rune.char x ∉ runes s := by
  intro hmem
  have hwritten : ∀ b ∈ String.utf8EncodeChar x, printed b = true := by
    intro b hb
    apply h
    rw [toLower_eq, fold, List.flatMap_map]
    rw [← @written_space table _ hx] at hb
    exact List.mem_flatMap.mpr ⟨_, hmem, hb⟩
  by_cases hascii : x.toNat < 0x80
  · rw [encode_ascii hascii] at hwritten
    have hprinted := hwritten _ List.mem_cons_self
    have hsize : x.toNat < UInt8.size := lt_trans hascii (by decide)
    simp only [printed, Bool.and_eq_true, decide_eq_true_eq, UInt8.le_iff_toNat_le,
      UInt8.toNat_ofNat_of_lt' hsize, UInt8.reduceToNat] at hprinted
    simp only [isSpace, Bool.or_eq_true, Bool.and_eq_true, decide_eq_true_eq, beq_iff_eq] at hx
    omega
  · obtain ⟨b, hb⟩ := List.exists_mem_of_ne_nil _ (String.utf8EncodeChar_ne_nil (c := x))
    have hforeign := encode_foreign (Nat.le_of_not_lt hascii) b hb
    have hprinted := hwritten b hb
    simp only [printed, Bool.and_eq_true, decide_eq_true_eq, UInt8.le_iff_toNat_le,
      UInt8.lt_iff_toNat_lt, UInt8.reduceToNat] at hprinted hforeign
    omega

theorem spaces_boundary : ∀ e ∈ spaces, ∀ b ∈ e.head?, Json.isTail b = false := by
  decide +kernel

/-- Such a text is not shortened by trimming it. -/
theorem trimSpaceBytes_of_toLower (h : ∀ b ∈ toLower table s, printed b = true) :
    trimSpaceBytes s = s := by
  have hfront : ∀ e ∈ spaces, ¬ e <+: s := by
    rintro e he ⟨t, rfl⟩
    obtain ⟨x, hnext, hx⟩ := nextRune_space he t
    apply space_not_mem h hx
    rw [runes_of_nextRune hnext]
    exact List.mem_cons_self
  have hback : ∀ e ∈ spaces.map List.reverse, ¬ e <+: s.reverse := by
    intro backward hbackward hprefix
    obtain ⟨e, he, rfl⟩ := List.mem_map.mp hbackward
    obtain ⟨t, rfl⟩ := List.reverse_prefix.mp hprefix
    obtain ⟨x, hnext, hx⟩ := nextRune_space he []
    rw [List.append_nil] at hnext
    apply space_not_mem h hx
    rw [runes_append (spaces_boundary e he), runes_of_nextRune hnext]
    simp
  rw [trimSpaceBytes, dropLeading_eq_self hfront, dropLeading_eq_self hback, List.reverse_reverse]

/-- The case of the ASCII letters alone. -/
def asciiTable : CaseTable where
  toLower := Char.toLower
  ascii := fun _ _ => rfl
  space := by
    intro c hc
    apply toLower_of_not_capital
    simp only [isSpace, Bool.or_eq_true, Bool.and_eq_true, decide_eq_true_eq, beq_iff_eq] at hc
    omega
  letter := by
    intro c
    by_cases hcapital : 0x41 ≤ c.toNat ∧ c.toNat ≤ 0x5a
    · right
      rw [toNat_toLower, if_pos hcapital]
      omega
    · exact Or.inl (toLower_of_not_capital hcapital)

theorem trimSpaceBytes_of_printed (h : ∀ b ∈ s, printed b = true) : trimSpaceBytes s = s := by
  have hascii : ∀ b ∈ s, b < 0x80 := by
    intro b hb
    have hprinted := h b hb
    simp only [printed, Bool.and_eq_true, decide_eq_true_eq] at hprinted
    exact UInt8.lt_trans hprinted.2 (by decide)
  refine @trimSpaceBytes_of_toLower asciiTable _ fun b hb => ?_
  rw [toLower_ascii hascii] at hb
  obtain ⟨a, ha, rfl⟩ := List.mem_map.mp hb
  have hprinted := h a ha
  rw [Url.lower]
  split
  · rename_i hcapital
    simp only [printed, Bool.and_eq_true, decide_eq_true_eq, UInt8.le_iff_toNat_le,
      UInt8.lt_iff_toNat_lt, UInt8.toNat_add, UInt8.reduceToNat] at hcapital ⊢
    omega
  · exact hprinted

end WhiteSpace

section Surrounded

variable {s v : Bytes} {encodings around before after : List Bytes}

/-- No text of the list begins with another one. -/
def PrefixFree (encodings : List Bytes) : Prop :=
  ∀ e ∈ encodings, e ≠ [] ∧ ∀ e' ∈ encodings, e <+: e' → e = e'

theorem spaces_prefixFree : PrefixFree spaces := by
  unfold PrefixFree
  decide +kernel

theorem backward_prefixFree : PrefixFree (spaces.map List.reverse) := by
  unfold PrefixFree
  decide +kernel

/-- What is dropped at the start are encodings. -/
theorem exists_flatten_dropLeading (encodings : List Bytes) (fuel : Nat) (s : Bytes) :
    ∃ around : List Bytes, (∀ e ∈ around, e ∈ encodings) ∧
      s = around.flatten ++ dropLeading encodings fuel s := by
  induction fuel generalizing s with
  | zero => exact ⟨[], by simp, rfl⟩
  | succ fuel ih =>
      rw [dropLeading]
      cases hfind : encodings.find? (·.isPrefixOf s) with
      | none => exact ⟨[], by simp, rfl⟩
      | some e =>
          have he := List.mem_of_find?_eq_some hfind
          obtain ⟨rest, rfl⟩ : e <+: s := by simpa using List.find?_some hfind
          obtain ⟨around, haround, hrest⟩ := ih rest
          refine ⟨e :: around, List.forall_mem_cons.mpr ⟨he, haround⟩, ?_⟩
          dsimp only
          rw [List.drop_left, List.flatten_cons, List.append_assoc, ← hrest]

/-- Encodings at the start are dropped as they stand. -/
theorem dropLeading_flatten (hfree : PrefixFree encodings) (haround : ∀ e ∈ around, e ∈ encodings)
    (hclean : ∀ e ∈ encodings, ¬ e <+: s) {fuel : Nat}
    (hfuel : (around.flatten ++ s).length ≤ fuel) :
    dropLeading encodings fuel (around.flatten ++ s) = s := by
  induction around generalizing fuel with
  | nil => exact dropLeading_eq_self hclean fuel
  | cons e around ih =>
      have he := haround e List.mem_cons_self
      have hpos := List.length_pos_iff.mpr (hfree e he).1
      rw [List.flatten_cons, List.append_assoc] at hfuel ⊢
      rw [List.length_append] at hfuel
      obtain ⟨fuel, rfl⟩ : ∃ n, fuel = n + 1 := ⟨fuel - 1, by omega⟩
      have hfind : encodings.find? (·.isPrefixOf (e ++ (around.flatten ++ s))) = some e := by
        cases hfind : encodings.find? (·.isPrefixOf (e ++ (around.flatten ++ s))) with
        | none =>
            rw [List.find?_eq_none] at hfind
            exact absurd (by simp) (hfind e he)
        | some e' =>
            have he' := List.mem_of_find?_eq_some hfind
            have hprefix : e' <+: e ++ (around.flatten ++ s) := by
              simpa using List.find?_some hfind
            obtain h | h := List.prefix_or_prefix_of_prefix hprefix (List.prefix_append e _)
            · rw [(hfree e' he').2 e he h]
            · rw [(hfree e he).2 e' he' h]
      rw [dropLeading, hfind]
      dsimp only
      rw [List.drop_left]
      exact ih (fun e' he' => haround e' (List.mem_cons_of_mem e he')) (by omega)

/-- A text that begins with a printed byte and does not end with white space. -/
structure Solid (v : Bytes) : Prop where
  start : ∃ first rest, v = first :: rest ∧ printed first = true
  tail : ∀ e ∈ spaces, ¬ e <:+ v

/-- White space is a byte that begins a character, and bytes that continue it. -/
theorem spaces_shape : ∀ e ∈ spaces,
    (∀ b ∈ e.head?, printed b = false ∧ Json.isTail b = false) ∧
      ∀ b ∈ e.tail, Json.isTail b = true := by
  decide +kernel

theorem printed_not_tail {b : UInt8} (h : printed b = true) : Json.isTail b = false := by
  have hbyte : ∀ b : UInt8, printed b = true → Json.isTail b = false :=
    Url.forall_byte (by decide +kernel)
  exact hbyte b h

theorem not_prefix_of_printed {first : UInt8} (h : printed first = true) (rest : Bytes) :
    ∀ e ∈ spaces, ¬ e <+: first :: rest := by
  intro e he hprefix
  cases e with
  | nil => exact spaces_ne_nil [] he rfl
  | cons b e =>
      obtain ⟨rfl, -⟩ := List.cons_prefix_cons.mp hprefix
      have hb := ((spaces_shape _ he).1 _ rfl).1
      rw [h] at hb
      cases hb

/-- More text before it leaves the end of a text without white space. -/
theorem Solid.append (h : Solid v) (front : Bytes) : ∀ e ∈ spaces, ¬ e <:+ front ++ v := by
  obtain ⟨first, rest, rfl, hfirst⟩ := h.start
  intro e he hsuffix
  obtain hshort | ⟨before, hne, rfl⟩ :
      e <:+ first :: rest ∨ ∃ before, before ≠ [] ∧ e = before ++ first :: rest := by
    obtain hshort | ⟨before, hbefore⟩ :=
      List.suffix_or_suffix_of_suffix hsuffix (List.suffix_append front (first :: rest))
    · exact Or.inl hshort
    · cases before with
      | nil => exact Or.inl (by rw [← hbefore]; exact List.suffix_rfl)
      | cons b before => exact Or.inr ⟨b :: before, List.cons_ne_nil _ _, hbefore.symm⟩
  · exact h.tail e he hshort
  · obtain ⟨b, before, rfl⟩ := List.exists_cons_of_ne_nil hne
    have htail := (spaces_shape _ he).2 first (by simp)
    rw [printed_not_tail hfirst] at htail
    cases htail

theorem backward_not_start (h : ∀ e ∈ spaces, ¬ e <:+ s) :
    ∀ e ∈ spaces.map List.reverse, ¬ e <+: s.reverse := by
  intro backward hbackward hprefix
  obtain ⟨e, he, rfl⟩ := List.mem_map.mp hbackward
  exact h e he (List.reverse_prefix.mp hprefix)

/-- White space after a text without white space at its ends is all that is trimmed. -/
theorem trimSpaceBytes_append_flatten (hstart : ∀ e ∈ spaces, ¬ e <+: s ++ after.flatten)
    (hend : ∀ e ∈ spaces, ¬ e <:+ s) (hafter : ∀ e ∈ after, e ∈ spaces) :
    trimSpaceBytes (s ++ after.flatten) = s := by
  have hreverse : (s ++ after.flatten).reverse =
      ((after.map List.reverse).reverse).flatten ++ s.reverse := by
    rw [List.reverse_append, List.reverse_flatten]
  have hback : ∀ e ∈ (after.map List.reverse).reverse, e ∈ spaces.map List.reverse := by
    intro e he
    obtain ⟨e', he', rfl⟩ := List.mem_map.mp (List.mem_reverse.mp he)
    exact List.mem_map.mpr ⟨e', hafter e' he', rfl⟩
  rw [trimSpaceBytes, dropLeading_eq_self hstart, hreverse, dropLeading_flatten backward_prefixFree hback (backward_not_start hend)
    (by rw [← hreverse, List.length_reverse]), List.reverse_reverse]

theorem Solid.trimSpaceBytes_surrounded (h : Solid v) (hbefore : ∀ e ∈ before, e ∈ spaces)
    (hafter : ∀ e ∈ after, e ∈ spaces) :
    trimSpaceBytes (before.flatten ++ (v ++ after.flatten)) = v := by
  obtain ⟨first, rest, rfl, hfirst⟩ := h.start
  have hstart : ∀ e ∈ spaces, ¬ e <+: first :: rest ++ after.flatten :=
    not_prefix_of_printed hfirst _
  have hdrop := @dropLeading_flatten _ _ _ spaces_prefixFree hbefore hstart _ le_rfl
  have hrest := trimSpaceBytes_append_flatten hstart h.tail hafter
  rw [trimSpaceBytes, dropLeading_eq_self hstart] at hrest
  rw [trimSpaceBytes, hdrop]
  exact hrest

/-- A text is what trimming leaves of it, with white space around. -/
theorem exists_surrounded (s : Bytes) :
    ∃ before after : List Bytes, (∀ e ∈ before, e ∈ spaces) ∧ (∀ e ∈ after, e ∈ spaces) ∧
      s = before.flatten ++ (trimSpaceBytes s ++ after.flatten) := by
  obtain ⟨before, hbefore, hfront⟩ := exists_flatten_dropLeading spaces s.length s
  generalize hdrop : dropLeading spaces s.length s = front at hfront
  obtain ⟨backward, hbackward, hback⟩ :=
    exists_flatten_dropLeading (spaces.map List.reverse) front.length front.reverse
  have htrim : trimSpaceBytes s =
      (dropLeading (spaces.map List.reverse) front.length front.reverse).reverse := by
    rw [trimSpaceBytes, hdrop]
  refine ⟨before, (backward.map List.reverse).reverse, hbefore, ?_, ?_⟩
  · intro e he
    obtain ⟨e', he', rfl⟩ := List.mem_map.mp (List.mem_reverse.mp he)
    obtain ⟨space, hspace, rfl⟩ := List.mem_map.mp (hbackward e' he')
    rw [List.reverse_reverse]
    exact hspace
  · rw [htrim, ← List.reverse_flatten, ← List.reverse_append, ← hback, List.reverse_reverse]
    exact hfront

/-- What trimming leaves does not end with white space. -/
theorem trimSpaceBytes_tail (s : Bytes) : ∀ e ∈ spaces, ¬ e <:+ trimSpaceBytes s := by
  have hne : ∀ e ∈ spaces.map List.reverse, e ≠ [] := by decide
  intro e he hsuffix
  rw [trimSpaceBytes, ← List.reverse_prefix, List.reverse_reverse] at hsuffix
  exact dropLeading_clean hne (by rw [List.length_reverse]) e.reverse
    (List.mem_map.mpr ⟨e, he, rfl⟩) hsuffix

/-- A text that begins with a printed byte is not blank. -/
theorem trimSpaceBytes_ne_nil {first : UInt8} (h : printed first = true) (rest : Bytes) :
    trimSpaceBytes (first :: rest) ≠ [] := by
  intro hnil
  obtain ⟨before, after, hbefore, hafter, hsplit⟩ := exists_surrounded (first :: rest)
  rw [hnil, List.nil_append, ← List.flatten_append] at hsplit
  cases hall : before ++ after with
  | nil =>
      rw [hall] at hsplit
      cases hsplit
  | cons e more =>
      have he : e ∈ spaces := by
        have hmem : e ∈ before ++ after := by simp [hall]
        obtain hmem | hmem := List.mem_append.mp hmem
        · exact hbefore e hmem
        · exact hafter e hmem
      rw [hall, List.flatten_cons] at hsplit
      apply not_prefix_of_printed h rest e he
      rw [hsplit]
      exact List.prefix_append e _

end Surrounded

end NodeScope.Lib.Runes
