import Mathlib.Algebra.Order.Ring.Int
import Mathlib.Data.List.DropRight
import Std.Data.String.ToNat

/-!
# Text: trimming, joining and lengths

Two programs look at one string with different notions of blank text. Go's
`strings.TrimSpace` strips the Unicode white space characters, while SQL's
`trim` strips the space character only. Both are instances of one trimming of
a list of characters. Joining with a separator is kept separate from any use
of the joined text as a key; the injectivity lemma says exactly which parts a
key made by joining still determines.
-/

namespace NodeScope.Lib.Text

/-- Remove the characters satisfying `p` from both ends. -/
def trimBoth (p : Char → Bool) (l : List Char) : List Char :=
  (l.dropWhile p).rdropWhile p

theorem trimBoth_eq_nil_iff (p : Char → Bool) (l : List Char) :
    trimBoth p l = [] ↔ ∀ c ∈ l, p c = true := by
  rw [trimBoth, List.rdropWhile_eq_nil_iff]
  induction l with
  | nil => simp
  | cons a rest ih =>
      by_cases ha : p a = true
      · simp [ha, ih]
      · simp [ha]

/-- Text whose two end characters survive is not shortened by trimming. -/
theorem trimBoth_eq_self {p : Char → Bool} {l : List Char} (hne : l ≠ [])
    (hhead : p (l.head hne) = false) (hlast : p (l.getLast hne) = false) :
    trimBoth p l = l := by
  have hdrop : l.dropWhile p = l := by
    cases l with
    | nil => exact absurd rfl hne
    | cons a rest => exact List.dropWhile_cons_of_neg (by simpa using hhead)
  rw [trimBoth, hdrop, List.rdropWhile_eq_self_iff]
  intro h
  simp [hlast]

/-- Go's `unicode.IsSpace`. -/
def isSpace (c : Char) : Bool :=
  (9 ≤ c.toNat && c.toNat ≤ 13) || c.toNat == 0x20 || c.toNat == 0x85 ||
    c.toNat == 0xA0 || c.toNat == 0x1680 || (0x2000 ≤ c.toNat && c.toNat ≤ 0x200A) ||
    c.toNat == 0x2028 || c.toNat == 0x2029 || c.toNat == 0x202F ||
    c.toNat == 0x205F || c.toNat == 0x3000

/-- Go's `strings.TrimSpace`. -/
def trimSpace (s : String) : String :=
  String.ofList (trimBoth isSpace s.toList)

/-- SQL's `trim` with its default argument: only the space is stripped. -/
def sqlTrim (s : String) : String :=
  String.ofList (trimBoth (fun c => c == ' ') s.toList)

/-- SQL's `length`, counted in characters. -/
def sqlLength (s : String) : Nat := s.toList.length

/-- Go's `len` of a string, counted in bytes of its UTF-8 form. -/
def byteLength (s : String) : Nat := (s.toList.map Char.utf8Size).sum

/-- The `length` of a JavaScript string, counted in UTF-16 code units. -/
def utf16Length (s : String) : Nat :=
  (s.toList.map fun c => if c.toNat < 0x10000 then 1 else 2).sum

theorem trimSpace_eq_empty_iff (s : String) :
    trimSpace s = "" ↔ ∀ c ∈ s.toList, isSpace c = true := by
  rw [trimSpace, ← String.toList_inj, String.toList_ofList]
  exact trimBoth_eq_nil_iff _ _

theorem sqlLength_sqlTrim_pos_iff (s : String) :
    0 < sqlLength (sqlTrim s) ↔ ∃ c ∈ s.toList, c ≠ ' ' := by
  rw [sqlLength, sqlTrim, String.toList_ofList, List.length_pos_iff, ne_eq,
    trimBoth_eq_nil_iff]
  simp

/-- Text that is not blank for Go is not blank for SQL either. -/
theorem sqlLength_sqlTrim_pos {s : String} (h : trimSpace s ≠ "") :
    0 < sqlLength (sqlTrim s) := by
  rw [sqlLength_sqlTrim_pos_iff]
  by_contra hc
  push Not at hc
  apply h
  rw [trimSpace_eq_empty_iff]
  intro c hm
  rw [hc c hm]
  decide

theorem endsWith_iff {s ending : String} :
    s.endsWith ending = true ↔ ending.toList <:+ s.toList := by
  rw [String.endsWith, String.Slice.endsWith_string_iff, String.copy_toSlice]

theorem isPrefixOf_iff {start s : String} :
    start.isPrefixOf s = true ↔ start.toList <+: s.toList := by
  rw [String.isPrefixOf, String.startsWith_string_iff]

/-- The bytes of a Go string. -/
def utf8 (s : String) : List UInt8 := s.toByteArray.data.toList

/-- The text of the bytes, when they are valid UTF-8. -/
def ofUtf8 (b : List UInt8) : Option String := String.fromUTF8? ⟨b.toArray⟩

theorem utf8_empty : utf8 "" = [] := by
  decide

theorem utf8_append (a b : String) : utf8 (a ++ b) = utf8 a ++ utf8 b := by
  simp [utf8]

theorem ofUtf8_utf8 (s : String) : ofUtf8 (utf8 s) = some s := by
  have hb : (⟨(utf8 s).toArray⟩ : ByteArray) = s.toByteArray := by
    simp [utf8]
  rw [ofUtf8, hb, String.fromUTF8?, dif_pos s.isValidUTF8]
  rfl

theorem utf8_inj {a b : String} : utf8 a = utf8 b ↔ a = b := by
  refine ⟨fun h => ?_, congrArg utf8⟩
  have htext := congrArg ofUtf8 h
  rw [ofUtf8_utf8, ofUtf8_utf8] at htext
  exact Option.some.inj htext

/-- Whether a Go string is blank: `strings.TrimSpace` leaves nothing of it. Bytes that
are no UTF-8 are not space. -/
def blank (b : List UInt8) : Bool :=
  match ofUtf8 b with
  | some s => trimSpace s == ""
  | none => false

/-- The characters of `isSpace` as they are encoded. -/
def spaces : List (List UInt8) :=
  [[0x09], [0x0a], [0x0b], [0x0c], [0x0d], [0x20], [0xc2, 0x85], [0xc2, 0xa0],
    [0xe1, 0x9a, 0x80], [0xe2, 0x80, 0xa8], [0xe2, 0x80, 0xa9], [0xe2, 0x80, 0xaf],
    [0xe2, 0x81, 0x9f], [0xe3, 0x80, 0x80]] ++
    ((List.range 11).map fun n => [0xe2, 0x80, (0x80 + n).toUInt8])

/-- Drop the encodings at the start of a text, one after the other. -/
def dropLeading (encodings : List (List UInt8)) : Nat → List UInt8 → List UInt8
  | 0, b => b
  | fuel + 1, b =>
      match encodings.find? (·.isPrefixOf b) with
      | some e => dropLeading encodings fuel (b.drop e.length)
      | none => b

/-- Go's `strings.TrimSpace` on the bytes of a string, which need not be UTF-8. -/
def trimSpaceBytes (b : List UInt8) : List UInt8 :=
  let front := dropLeading spaces b.length b
  (dropLeading (spaces.map List.reverse) front.length front.reverse).reverse

/-- Text that starts with none of the encodings is left alone. -/
theorem dropLeading_eq_self {encodings : List (List UInt8)} {b : List UInt8}
    (h : ∀ e ∈ encodings, ¬ e <+: b) (fuel : Nat) : dropLeading encodings fuel b = b := by
  cases fuel with
  | zero => rfl
  | succ fuel =>
      have hnone : encodings.find? (·.isPrefixOf b) = none := by
        simpa using h
      rw [dropLeading, hnone]

theorem dropLeading_suffix (encodings : List (List UInt8)) (fuel : Nat) (b : List UInt8) :
    dropLeading encodings fuel b <:+ b := by
  induction fuel generalizing b with
  | zero => exact List.suffix_rfl
  | succ fuel ih =>
      rw [dropLeading]
      split
      · exact (ih _).trans (List.drop_suffix _ _)
      · exact List.suffix_rfl

/-- With enough fuel nothing to drop is left. -/
theorem dropLeading_clean {encodings : List (List UInt8)} (hne : ∀ e ∈ encodings, e ≠ [])
    {fuel : Nat} {b : List UInt8} (hfuel : b.length ≤ fuel) :
    ∀ e ∈ encodings, ¬ e <+: dropLeading encodings fuel b := by
  induction fuel generalizing b with
  | zero =>
      intro e he hstart
      rw [dropLeading, List.length_eq_zero_iff.mp (Nat.le_zero.mp hfuel)] at hstart
      exact hne e he (List.prefix_nil.mp hstart)
  | succ fuel ih =>
      rw [dropLeading]
      split
      · next e hfind =>
          have hpos := List.length_pos_iff.mpr (hne e (List.mem_of_find?_eq_some hfind))
          apply ih
          rw [List.length_drop]
          omega
      · next hnone =>
          simpa using hnone

theorem spaces_ne_nil : ∀ e ∈ spaces, e ≠ [] := by decide

/-- What has been trimmed is not shortened by trimming it again. -/
theorem trimSpaceBytes_idem (b : List UInt8) :
    trimSpaceBytes (trimSpaceBytes b) = trimSpaceBytes b := by
  have hne : ∀ e ∈ spaces.map List.reverse, e ≠ [] := by decide
  let front := dropLeading spaces b.length b
  let back := dropLeading (spaces.map List.reverse) front.length front.reverse
  have hclean : ∀ e ∈ spaces, ¬ e <+: front := dropLeading_clean spaces_ne_nil le_rfl
  have hback : ∀ e ∈ spaces.map List.reverse, ¬ e <+: back :=
    dropLeading_clean hne (by rw [List.length_reverse])
  have hinner : back.reverse <+: front := by
    have hsuffix : back <:+ front.reverse := dropLeading_suffix _ _ _
    rwa [← List.reverse_prefix, List.reverse_reverse] at hsuffix
  have hfront : dropLeading spaces back.reverse.length back.reverse = back.reverse :=
    dropLeading_eq_self (fun e he hstart => hclean e he (hstart.trans hinner)) _
  have htrimmed : trimSpaceBytes b = back.reverse := rfl
  rw [htrimmed, trimSpaceBytes, hfront, List.reverse_reverse, dropLeading_eq_self hback]

/-- Two letters beyond ASCII fold to an ASCII letter. -/
def foldsTo (letter c : Char) : Bool :=
  c == letter || c == letter.toUpper || (letter == 's' && c == 'ſ') ||
    (letter == 'k' && c == '\u212a')

/-- Go's `strings.EqualFold` of two texts, of which the first has no capital letters and no
letters beyond ASCII. -/
def foldEqual (letters s : String) : Bool :=
  s.toList.length == letters.toList.length &&
    (letters.toList.zip s.toList).all fun p => foldsTo p.1 p.2

/-- Go's `strings.Split` at a character. -/
def splitAt (c : Char) (s : String) : List String := (s.toList.splitOn c).map String.ofList

/-- Go's `strings.Fields`. -/
def fields (s : String) : List String :=
  ((s.toList.splitOnP isSpace).filter fun word => !word.isEmpty).map String.ofList

/-- Go's `strings.EqualFold` with a text of small ASCII letters. -/
def equalFold (b : List UInt8) (letters : String) : Bool :=
  match ofUtf8 b with
  | some s => s.toList.length == letters.toList.length &&
      (letters.toList.zip s.toList).all fun p => foldsTo p.1 p.2
  | none => false

theorem append_cons_inj_left {c : Char} :
    ∀ {a a' r r' : List Char}, c ∉ a → c ∉ a' → a ++ c :: r = a' ++ c :: r' →
      a = a' ∧ r = r'
  | [], [], _, _, _, _, h => ⟨rfl, by simpa using h⟩
  | [], x :: _, _, _, _, h', h => by
      simp only [List.nil_append, List.cons_append, List.cons.injEq] at h
      exact absurd (by simp [h.1]) h'
  | x :: _, [], _, _, h₁, _, h => by
      simp only [List.nil_append, List.cons_append, List.cons.injEq] at h
      exact absurd (by simp [h.1]) h₁
  | x :: a, y :: a', _, _, h₁, h₂, h => by
      simp only [List.cons_append, List.cons.injEq] at h
      simp only [List.mem_cons, not_or] at h₁ h₂
      obtain ⟨ha, hr⟩ := append_cons_inj_left h₁.2 h₂.2 h.2
      exact ⟨by rw [h.1, ha], hr⟩

theorem append_cons_inj_right {c : Char} {b b' d d' : List Char}
    (hd : c ∉ d) (hd' : c ∉ d') (h : b ++ c :: d = b' ++ c :: d') :
    b = b' ∧ d = d' := by
  have hr := congrArg List.reverse h
  simp only [List.reverse_append, List.reverse_cons, List.append_assoc,
    List.singleton_append] at hr
  obtain ⟨h₁, h₂⟩ := append_cons_inj_left (by simpa using hd) (by simpa using hd') hr
  exact ⟨List.reverse_injective h₂, List.reverse_injective h₁⟩

/-- A join of three parts determines them when the outer two avoid the
separator. The middle part is unrestricted. -/
theorem intercalate_three_inj {c : Char} {a b d a' b' d' : String}
    (ha : c ∉ a.toList) (ha' : c ∉ a'.toList) (hd : c ∉ d.toList) (hd' : c ∉ d'.toList) :
    String.intercalate (String.singleton c) [a, b, d] =
        String.intercalate (String.singleton c) [a', b', d'] ↔
      a = a' ∧ b = b' ∧ d = d' := by
  constructor
  · intro h
    have hl := congrArg String.toList h
    simp only [String.toList_intercalate, String.toList_singleton, List.map_cons,
      List.map_nil, List.intercalate_cons_cons, List.intercalate_singleton,
      List.append_assoc, List.singleton_append] at hl
    obtain ⟨h₁, h₂⟩ := append_cons_inj_left ha ha' hl
    obtain ⟨h₃, h₄⟩ := append_cons_inj_right hd hd' h₂
    exact ⟨String.toList_inj.mp h₁, String.toList_inj.mp h₃, String.toList_inj.mp h₄⟩
  · rintro ⟨rfl, rfl, rfl⟩
    rfl

/-- Joins that share their last part differ in the first two, which are told apart if the second
avoids the separator. -/
theorem intercalate_three_inj_left {c : Char} {a b d a' b' : String} (hb : c ∉ b.toList)
    (hb' : c ∉ b'.toList) :
    String.intercalate (String.singleton c) [a, b, d] =
        String.intercalate (String.singleton c) [a', b', d] ↔ a = a' ∧ b = b' := by
  constructor
  · intro h
    have hl := congrArg String.toList h
    simp only [String.toList_intercalate, String.toList_singleton, List.map_cons,
      List.map_nil, List.intercalate_cons_cons, List.intercalate_singleton] at hl
    simp only [← List.append_assoc, List.append_cancel_right_eq] at hl
    simp only [List.append_assoc, List.singleton_append] at hl
    obtain ⟨h₁, h₂⟩ := append_cons_inj_right hb hb' hl
    exact ⟨String.toList_inj.mp h₁, String.toList_inj.mp h₂⟩
  · rintro ⟨rfl, rfl⟩
    rfl

/-- A literal text is not blank if its first character is none of the spaces. -/
theorem trimSpace_ofList_cons_ne {c : Char} (h : isSpace c = false) (rest : List Char) :
    trimSpace (String.ofList (c :: rest)) ≠ "" := by
  rw [ne_eq, trimSpace_eq_empty_iff, String.toList_ofList]
  intro hblank
  rw [hblank c List.mem_cons_self] at h
  cases h

/-- Text that starts with something is not blank. -/
theorem trimSpace_append_ne {a : String} (h : trimSpace a ≠ "") (b : String) :
    trimSpace (a ++ b) ≠ "" := by
  intro hblank
  apply h
  rw [trimSpace_eq_empty_iff] at hblank ⊢
  intro c hc
  exact hblank c (by simp [hc])

/-- A decimal numeral contains no character outside the ten digits. -/
theorem notMem_repr {c : Char} (hc : c.isDigit = false) (n : Nat) :
    c ∉ (Nat.repr n).toList := by
  intro h
  rw [Nat.toList_repr] at h
  have := Nat.isDigit_of_mem_toDigits (by decide) (by decide) h
  rw [hc] at this
  exact Bool.noConfusion this

end NodeScope.Lib.Text
