import NodeScope.Lib.Text

/-!
# JSON as Go reads it

A text is first scanned as a whole: it is one value with white space around it, nested at
most 10000 deep. Strings are read with their escapes; a byte that is no UTF-8 and half of a
surrogate pair both become U+FFFD. Numbers keep their text, since what they mean depends on
the type they are decoded into.

## Implementation notes

`fuel` bounds the recursion of the reader. Every two calls consume a byte, so that twice the
length of the text is enough.
-/

namespace NodeScope.Lib.Json

inductive Value where
  | null
  | bool (b : Bool)
  | number (literal : List Char)
  | string (s : String)
  | array (elements : List Value)
  | object (members : List (String × Value))

def maxNestingDepth : Nat := 10000

def replacement : Char := '\ufffd'

def isSpace (b : UInt8) : Bool := b == 0x20 || b == 0x09 || b == 0x0a || b == 0x0d

def skipSpace (input : List UInt8) : List UInt8 := input.dropWhile isSpace

def isDigit (b : UInt8) : Bool := 0x30 ≤ b && b ≤ 0x39

def toChar (b : UInt8) : Char := Char.ofNat b.toNat

def hexValue (b : UInt8) : Option Nat :=
  if isDigit b then some (b.toNat - 0x30)
  else if 0x61 ≤ b && b ≤ 0x66 then some (b.toNat - 0x61 + 10)
  else if 0x41 ≤ b && b ≤ 0x46 then some (b.toNat - 0x41 + 10)
  else none

/-- The four digits after `\u`. -/
def hexFour (a b c d : UInt8) : Option Nat := do
  let a ← hexValue a
  let b ← hexValue b
  let c ← hexValue c
  let d ← hexValue d
  pure (((a * 16 + b) * 16 + c) * 16 + d)

def isHighSurrogate (n : Nat) : Bool := 0xd800 ≤ n && n < 0xdc00

def isLowSurrogate (n : Nat) : Bool := 0xdc00 ≤ n && n < 0xe000

/-- The code unit of an escape that stands at the start of the text. -/
def leadingUnit : List UInt8 → Option Nat
  | x :: y :: a :: b :: c :: d :: _ => if x == 0x5c && y == 0x75 then hexFour a b c d else none
  | _ => none

def escaped (b : UInt8) : Option Char :=
  if b == 0x22 then some '"'
  else if b == 0x5c then some '\\'
  else if b == 0x2f then some '/'
  else if b == 0x62 then some '\x08'
  else if b == 0x66 then some '\x0c'
  else if b == 0x6e then some '\n'
  else if b == 0x72 then some '\r'
  else if b == 0x74 then some '\t'
  else none

def isTail (b : UInt8) : Bool := 0x80 ≤ b && b ≤ 0xbf

def twoBytes (a b : UInt8) : Option Char :=
  if 0xc2 ≤ a && a ≤ 0xdf && isTail b then
    some (Char.ofNat ((a.toNat - 0xc0) * 64 + (b.toNat - 0x80)))
  else none

/-- No overlong form and no surrogate. -/
def threeBytes (a b c : UInt8) : Option Char :=
  if 0xe0 ≤ a && a ≤ 0xef && isTail b && isTail c && (a != 0xe0 || 0xa0 ≤ b) &&
      (a != 0xed || b ≤ 0x9f) then
    some (Char.ofNat (((a.toNat - 0xe0) * 64 + (b.toNat - 0x80)) * 64 + (c.toNat - 0x80)))
  else none

def fourBytes (a b c d : UInt8) : Option Char :=
  if 0xf0 ≤ a && a ≤ 0xf4 && isTail b && isTail c && isTail d && (a != 0xf0 || 0x90 ≤ b) &&
      (a != 0xf4 || b ≤ 0x8f) then
    some (Char.ofNat ((((a.toNat - 0xf0) * 64 + (b.toNat - 0x80)) * 64 + (c.toNat - 0x80)) * 64 +
      (d.toNat - 0x80)))
  else none

/-- Go's `utf8.DecodeRune`, with the bytes that follow the character. -/
def decodeRune : List UInt8 → Option (Char × List UInt8)
  | [] => none
  | a :: rest =>
      if a < 0x80 then some (toChar a, rest)
      else
        match rest with
        | b :: c :: d :: more =>
            match twoBytes a b, threeBytes a b c, fourBytes a b c d with
            | some x, _, _ => some (x, c :: d :: more)
            | _, some x, _ => some (x, d :: more)
            | _, _, some x => some (x, more)
            | _, _, _ => some (replacement, rest)
        | [b, c] =>
            match twoBytes a b, threeBytes a b c with
            | some x, _ => some (x, [c])
            | _, some x => some (x, [])
            | _, _ => some (replacement, rest)
        | [b] =>
            match twoBytes a b with
            | some x => some (x, [])
            | none => some (replacement, rest)
        | [] => some (replacement, rest)

/-- The rest of a string, up to its closing quote. -/
def readString : Nat → List UInt8 → Option (List Char × List UInt8)
  | 0, _ => none
  | _ + 1, [] => none
  | fuel + 1, b :: rest =>
      if b == 0x22 then some ([], rest)
      else if b < 0x20 then none
      else if b == 0x5c then
        match rest with
        | [] => none
        | e :: rest =>
            if e == 0x75 then
              match leadingUnit (b :: e :: rest) with
              | none => none
              | some high =>
                  match leadingUnit (rest.drop 4) with
                  | some low =>
                      if isHighSurrogate high && isLowSurrogate low then
                        (readString fuel (rest.drop 10)).map fun (s, after) =>
                          (Char.ofNat (0x10000 + (high - 0xd800) * 1024 + (low - 0xdc00)) :: s, after)
                      else (readString fuel (rest.drop 4)).map fun (s, after) =>
                        (unitChar high :: s, after)
                  | none => (readString fuel (rest.drop 4)).map fun (s, after) =>
                      (unitChar high :: s, after)
            else
              match escaped e with
              | some c => (readString fuel rest).map fun (s, after) => (c :: s, after)
              | none => none
      else
        match decodeRune (b :: rest) with
        | some (c, rest) => (readString fuel rest).map fun (s, after) => (c :: s, after)
        | none => none
where
  unitChar (n : Nat) : Char :=
    if isHighSurrogate n || isLowSurrogate n then replacement else Char.ofNat n

/-- The digits at the start of the text, of which there is at least one. -/
def readDigits (input : List UInt8) : Option (List UInt8 × List UInt8) :=
  match input.span isDigit with
  | ([], _) => none
  | (digits, rest) => some (digits, rest)

/-- No digit follows a leading zero. -/
def readInteger (input : List UInt8) : Option (List UInt8 × List UInt8) :=
  match input with
  | b :: rest => if b == 0x30 then some ([b], rest) else readDigits input
  | [] => none

def readFraction (input : List UInt8) : Option (List UInt8 × List UInt8) :=
  match input with
  | b :: rest =>
      if b == 0x2e then (readDigits rest).map fun (digits, after) => (b :: digits, after)
      else some ([], input)
  | [] => some ([], [])

def readExponent (input : List UInt8) : Option (List UInt8 × List UInt8) :=
  match input with
  | b :: rest =>
      if b == 0x65 || b == 0x45 then
        match rest with
        | s :: more =>
            if s == 0x2b || s == 0x2d then
              (readDigits more).map fun (digits, after) => (b :: s :: digits, after)
            else (readDigits rest).map fun (digits, after) => (b :: digits, after)
        | [] => none
      else some ([], input)
  | [] => some ([], [])

def readNumber (input : List UInt8) : Option (List Char × List UInt8) := do
  let (sign, rest) :=
    if input.head? == some 0x2d then ([(0x2d : UInt8)], input.drop 1) else ([], input)
  let (integer, rest) ← readInteger rest
  let (fraction, rest) ← readFraction rest
  let (exponent, rest) ← readExponent rest
  pure ((sign ++ integer ++ fraction ++ exponent).map toChar, rest)

def readLiteral (literal : String) (value : Value) (input : List UInt8) :
    Option (Value × List UInt8) :=
  let bytes := literal.toList.map fun c => c.toNat.toUInt8
  if bytes.isPrefixOf input then some (value, input.drop bytes.length) else none

mutual

/-- A value after white space. -/
def readValue : Nat → Nat → List UInt8 → Option (Value × List UInt8)
  | 0, _, _ => none
  | fuel + 1, depth, input =>
      match skipSpace input with
      | [] => none
      | b :: rest =>
          if b == 0x7b then
            if depth < maxNestingDepth then
              match skipSpace rest with
              | c :: after =>
                  if c == 0x7d then some (.object [], after)
                  else (readMembers fuel (depth + 1) rest).map fun (members, after) =>
                    (.object members, after)
              | [] => none
            else none
          else if b == 0x5b then
            if depth < maxNestingDepth then
              match skipSpace rest with
              | c :: after =>
                  if c == 0x5d then some (.array [], after)
                  else (readElements fuel (depth + 1) rest).map fun (elements, after) =>
                    (.array elements, after)
              | [] => none
            else none
          else if b == 0x22 then
            (readString (rest.length + 1) rest).map fun (s, after) =>
              (.string (String.ofList s), after)
          else if b == 0x74 then readLiteral "true" (.bool true) (b :: rest)
          else if b == 0x66 then readLiteral "false" (.bool false) (b :: rest)
          else if b == 0x6e then readLiteral "null" .null (b :: rest)
          else (readNumber (b :: rest)).map fun (literal, after) => (.number literal, after)

/-- The elements of an array, at least one, and its end. -/
def readElements : Nat → Nat → List UInt8 → Option (List Value × List UInt8)
  | 0, _, _ => none
  | fuel + 1, depth, input =>
      match readValue fuel depth input with
      | none => none
      | some (element, rest) =>
          match skipSpace rest with
          | b :: rest =>
              if b == 0x5d then some ([element], rest)
              else if b == 0x2c then
                (readElements fuel depth rest).map fun (elements, after) =>
                  (element :: elements, after)
              else none
          | [] => none

/-- The members of an object, at least one, and its end. -/
def readMembers : Nat → Nat → List UInt8 → Option (List (String × Value) × List UInt8)
  | 0, _, _ => none
  | fuel + 1, depth, input =>
      match skipSpace input with
      | q :: rest =>
          if q == 0x22 then
            match readString (rest.length + 1) rest with
            | none => none
            | some (name, rest) =>
                match skipSpace rest with
                | colon :: rest =>
                    if colon == 0x3a then
                      match readValue fuel depth rest with
                      | none => none
                      | some (value, rest) =>
                          match skipSpace rest with
                          | b :: rest =>
                              if b == 0x7d then some ([(String.ofList name, value)], rest)
                              else if b == 0x2c then
                                (readMembers fuel depth rest).map fun (members, after) =>
                                  ((String.ofList name, value) :: members, after)
                              else none
                          | [] => none
                    else none
                | [] => none
          else none
      | [] => none

end

/-- The one value of a text. -/
def parse (input : List UInt8) : Option Value :=
  match readValue (2 * input.length + 2) 0 input with
  | some (value, rest) => if (skipSpace rest).isEmpty then some value else none
  | none => none

/-- The first value of a text, as `Decoder.Decode` reads it: nothing after it is looked at. -/
def parseFirst (input : List UInt8) : Option Value :=
  (readValue (2 * input.length + 2) 0 input).map Prod.fst

/-- Whether a member belongs to a field with a name of small ASCII letters and underscores: Go
falls back to a comparison without regard to case. -/
def nameMatches (field name : String) : Bool := Text.foldEqual field name

/-- The number of a literal without fraction and exponent, within 64 bits. -/
def int64 (literal : List Char) : Option Int :=
  let (negative, digits) :=
    match literal with
    | '-' :: rest => (true, rest)
    | other => (false, other)
  if digits.all Char.isDigit then
    let magnitude : Int := digits.foldl (fun n c => 10 * n + (c.toNat - 48 : Nat)) 0
    let n := if negative then -magnitude else magnitude
    if -2 ^ 63 ≤ n && n < 2 ^ 63 then some n else none
  else none

section Members

/-- The value of the last member with a property. -/
def lastWhere (p : String × Value → Bool) (members : List (String × Value)) : Option Value :=
  (members.reverse.find? p).map Prod.snd

def Value.isNull : Value → Bool
  | .null => true
  | _ => false

/-- The value a reader finds that compares names as they are and takes the last one. -/
def lastNamed (name : String) : List (String × Value) → Option Value :=
  lastWhere fun member => member.1 == name

/-- The value that Go leaves in a field: names match without regard to case, and `null` sets
nothing. -/
def lastSet (field : String) : List (String × Value) → Option Value :=
  lastWhere fun member => nameMatches field member.1 && !member.2.isNull

/-- The members after the last one of a name, which are all where there is none. -/
def afterNamed (name : String) : List (String × Value) → List (String × Value) :=
  List.rtakeWhile fun member => member.1 != name

theorem lastWhere_concat (p : String × Value → Bool) (members : List (String × Value))
    (member : String × Value) :
    lastWhere p (members ++ [member]) = if p member then some member.2 else lastWhere p members := by
  rw [lastWhere, List.reverse_append, List.reverse_singleton, List.singleton_append,
    List.find?_cons, lastWhere]
  cases p member <;> rfl

/-- A decoder that goes through the members gets through all but the last one, and then that one. -/
theorem foldlM_concat_eq_some {S : Type} {decode : S → String × Value → Option S}
    {members : List (String × Value)} {member : String × Value} {start last : S} :
    (members ++ [member]).foldlM decode start = some last ↔
      ∃ before, members.foldlM decode start = some before ∧ decode before member = some last := by
  simp [List.foldlM_append, Option.bind_eq_some_iff]

/-- What follows the last member of a name decides, if it sets the field at all. -/
theorem lastSet_of_lastNamed {name : String} (hname : nameMatches name name = true) {value : Value}
    (hvalue : value.isNull = false) {members : List (String × Value)}
    (h : lastNamed name members = some value) :
    lastSet name members = some ((lastSet name (afterNamed name members)).getD value) := by
  induction members using List.reverseRecOn with
  | nil => cases h
  | append_singleton members member ih =>
      rw [lastNamed, lastWhere_concat] at h
      rw [lastSet, lastWhere_concat, afterNamed, List.rtakeWhile_concat]
      split at h
      · next hlast =>
          obtain rfl := Option.some.inj h
          have hsame : member.1 = name := by simpa using hlast
          simp [hsame, hname, hvalue, lastWhere]
      · next hother =>
          have hne : member.1 ≠ name := by simpa using hother
          have hrest := ih h
          rw [lastSet, afterNamed] at hrest
          simp only [bne_iff_ne, ne_eq, hne, not_false_eq_true, if_true, lastWhere_concat]
          split
          · rfl
          · exact hrest

end Members

section Writing

def hexDigit (n : Nat) : UInt8 := (if n < 10 then 0x30 + n else 0x57 + n).toUInt8

/-- A code unit as an escape. -/
def escapeUnit (n : Nat) : List UInt8 :=
  [0x5c, 0x75, hexDigit (n / 4096 % 16), hexDigit (n / 256 % 16), hexDigit (n / 16 % 16),
    hexDigit (n % 16)]

def escapeChar (c : Char) : List UInt8 :=
  if c.toNat < 0x10000 then escapeUnit c.toNat
  else escapeUnit (0xd800 + (c.toNat - 0x10000) / 1024) ++
    escapeUnit (0xdc00 + (c.toNat - 0x10000) % 1024)

/-- A string with all its characters escaped. -/
def quote (s : String) : List UInt8 := 0x22 :: (s.toList.flatMap escapeChar ++ [0x22])

/-- An object with one member. -/
def singleMember (name value : String) : List UInt8 :=
  0x7b :: (quote name ++ 0x3a :: (quote value ++ [0x7d]))

theorem hexValue_hexDigit : ∀ n < 16, hexValue (hexDigit n) = some n := by decide

theorem leadingUnit_escapeUnit {n : Nat} (h : n < 65536) (rest : List UInt8) :
    leadingUnit (escapeUnit n ++ rest) = some n := by
  have hdigit (k : Nat) : hexValue (hexDigit (k % 16)) = some (k % 16) :=
    hexValue_hexDigit _ (Nat.mod_lt _ (by decide))
  have hsum : ((n / 4096 % 16 * 16 + n / 256 % 16) * 16 + n / 16 % 16) * 16 + n % 16 = n := by
    omega
  simp [escapeUnit, leadingUnit, hexFour, hdigit, hsum]

/-- The rest of a string after a unit that is no half of a pair. -/
theorem readString_escapeUnit {n : Nat} (h : n < 65536) (hhigh : isHighSurrogate n = false)
    (fuel : Nat) (rest : List UInt8) :
    readString (fuel + 1) (escapeUnit n ++ rest) =
      (readString fuel rest).map fun (s, after) => (readString.unitChar n :: s, after) := by
  have hunit := leadingUnit_escapeUnit h rest
  simp only [escapeUnit, List.cons_append, List.nil_append] at hunit ⊢
  rw [readString, hunit]
  simp only [List.drop_succ_cons, List.drop_zero, hhigh, Bool.false_and]
  cases leadingUnit rest <;> rfl

theorem readString_pair {high low : Nat} (hhigh : isHighSurrogate high = true)
    (hlow : isLowSurrogate low = true) (fuel : Nat) (rest : List UInt8) :
    readString (fuel + 1) (escapeUnit high ++ (escapeUnit low ++ rest)) =
      (readString fuel rest).map fun (s, after) =>
        (Char.ofNat (0x10000 + (high - 0xd800) * 1024 + (low - 0xdc00)) :: s, after) := by
  have hbound : high < 65536 ∧ low < 65536 := by
    simp [isHighSurrogate, isLowSurrogate] at hhigh hlow
    omega
  have hfirst := leadingUnit_escapeUnit hbound.1 (escapeUnit low ++ rest)
  have hsecond := leadingUnit_escapeUnit hbound.2 rest
  simp only [escapeUnit, List.cons_append, List.nil_append] at hfirst hsecond ⊢
  rw [readString, hfirst]
  simp [hsecond, hhigh, hlow]

theorem readString_escapeChar (c : Char) (fuel : Nat) (rest : List UInt8) :
    readString (fuel + 1) (escapeChar c ++ rest) =
      (readString fuel rest).map fun (s, after) => (c :: s, after) := by
  have hvalid : c.toNat < 0xd800 ∨ 0xdfff < c.toNat ∧ c.toNat < 0x110000 := c.valid
  rw [escapeChar]
  split
  · next hsmall =>
      have hhigh : isHighSurrogate c.toNat = false := by
        simp [isHighSurrogate]
        omega
      have hlow : isLowSurrogate c.toNat = false := by
        simp [isLowSurrogate]
        omega
      rw [readString_escapeUnit hsmall hhigh, readString.unitChar, hhigh, hlow]
      simp
  · next hlarge =>
      rw [List.append_assoc, readString_pair]
      · have hsum : 0x10000 + (0xd800 + (c.toNat - 0x10000) / 1024 - 0xd800) * 1024 +
            (0xdc00 + (c.toNat - 0x10000) % 1024 - 0xdc00) = c.toNat := by
          omega
        rw [hsum, Char.ofNat_toNat]
      · simp [isHighSurrogate]
        omega
      · simp [isLowSurrogate]
        omega

theorem readString_escaped (s : List Char) {fuel : Nat} (h : s.length < fuel)
    (rest : List UInt8) :
    readString fuel (s.flatMap escapeChar ++ 0x22 :: rest) = some (s, rest) := by
  induction s generalizing fuel with
  | nil =>
      obtain ⟨fuel, rfl⟩ := Nat.exists_eq_add_of_lt h
      simp [readString]
  | cons c s ih =>
      obtain ⟨fuel, rfl⟩ := Nat.exists_eq_add_of_lt h
      rw [List.flatMap_cons, List.append_assoc, readString_escapeChar, ih (by simp; omega)]
      rfl

theorem length_escapeChar (c : Char) : 1 ≤ (escapeChar c).length := by
  rw [escapeChar]
  split <;> simp [escapeUnit]

theorem length_le_escaped (s : List Char) : s.length ≤ (s.flatMap escapeChar).length := by
  induction s with
  | nil => exact Nat.le_refl _
  | cons c s ih =>
      have := length_escapeChar c
      rw [List.flatMap_cons, List.length_append, List.length_cons]
      omega

/-- A written string is read as it was. -/
theorem readString_quote (s : String) (rest : List UInt8) :
    ∃ body, quote s ++ rest = 0x22 :: body ∧
      readString (body.length + 1) body = some (s.toList, rest) := by
  refine ⟨s.toList.flatMap escapeChar ++ 0x22 :: rest, by simp [quote], ?_⟩
  apply readString_escaped
  have := length_le_escaped s.toList
  rw [List.length_append]
  omega

theorem readValue_string {body after : List UInt8} {text : List Char}
    (h : readString (body.length + 1) body = some (text, after)) (fuel depth : Nat) :
    readValue (fuel + 1) depth (0x22 :: body) = some (.string (String.ofList text), after) := by
  simp [readValue, skipSpace, isSpace, h]

theorem parse_singleMember (name value : String) :
    parse (singleMember name value) = some (.object [(name, .string value)]) := by
  obtain ⟨nameBody, hname, hreadName⟩ :=
    readString_quote name (0x3a :: (quote value ++ [0x7d]))
  obtain ⟨valueBody, hvalue, hreadValue⟩ := readString_quote value [0x7d]
  rw [singleMember, hname, parse]
  simp only [List.length_cons]
  rw [hvalue] at hreadName
  simp [readValue, readMembers, skipSpace, isSpace, maxNestingDepth, hreadName]
  rw [Nat.mul_succ, readValue_string hreadValue]
  simp [isSpace]

end Writing

end NodeScope.Lib.Json
