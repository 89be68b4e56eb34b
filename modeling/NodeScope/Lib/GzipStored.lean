import NodeScope.Lib.Protobuf

/-!
# Stored gzip members

The gzip format as far as a compressor needs it that stores its input: a header, one stored
block for every piece of the input, an empty last block, and the check sum and the length of the
input. The reader takes nothing less than a whole member.
-/

namespace NodeScope.Lib.GzipStored

open Protobuf (Bytes writeFixed readFixed readFixed_writeFixed)

/-- No file name and no time, written on an unknown system. -/
def header : Bytes := [0x1f, 0x8b, 0x08, 0, 0, 0, 0, 0, 0, 0xff]

def crcShift : Nat → UInt32 → UInt32
  | 0, c => c
  | n + 1, c => crcShift n (if c &&& 1 = 1 then (c >>> 1) ^^^ 0xedb88320 else c >>> 1)

/-- The check sum CRC-32. -/
def crc32 (b : Bytes) : UInt32 :=
  b.foldl (fun c byte => crcShift 8 (c ^^^ byte.toUInt32)) 0xffffffff ^^^ 0xffffffff

example : crc32 [0x31, 0x32, 0x33, 0x34, 0x35, 0x36, 0x37, 0x38, 0x39] = 0xcbf43926 := by
  decide +kernel

def trailer (b : Bytes) : Bytes := writeFixed 4 (crc32 b).toNat ++ writeFixed 4 (b.length % 2 ^ 32)

def maxBlockSize : Nat := 65535

/-- The header of a stored block: the mark of the last one, and the length with its
complement. -/
def blockHeader (last : Bool) (length : Nat) : Bytes :=
  writeFixed 1 last.toNat ++ (writeFixed 2 length ++ writeFixed 2 (65535 - length))

def writeBlocks : Nat → Bytes → List Bytes
  | 0, _ => []
  | fuel + 1, b =>
      if b = [] then []
      else blockHeader false (b.take maxBlockSize).length :: b.take maxBlockSize ::
        writeBlocks fuel (b.drop maxBlockSize)

/-- The mark and the length of the next block, and what follows its header. -/
def readHeader (input : Bytes) : Option (Nat × Nat × Bytes) := do
  let (last, rest) ← readFixed 1 input
  let (length, rest) ← readFixed 2 rest
  let (complement, rest) ← readFixed 2 rest
  if complement = 65535 - length ∧ length ≤ rest.length then some (last, length, rest) else none

/-- The contents of the blocks, and what is left of the input after the last one. -/
def readBlocks : Nat → Bytes → Option (Bytes × Bytes)
  | 0, _ => none
  | fuel + 1, input =>
      match readHeader input with
      | none => none
      | some (last, length, rest) =>
          if last = 1 then if length = 0 then some ([], rest) else none
          else match readBlocks fuel (rest.drop length) with
            | none => none
            | some (tail, after) => some (rest.take length ++ tail, after)

/-- The input of a whole member. -/
def decode (input : Bytes) : Option Bytes :=
  if header.isPrefixOf input then
    match readBlocks input.length (input.drop header.length) with
    | some (b, rest) => if rest = trailer b then some b else none
    | none => none
  else none

theorem readFixed_append {k n : Nat} {b rest : Bytes} (h : readFixed k b = some (n, rest))
    (more : Bytes) : readFixed k (b ++ more) = some (n, rest ++ more) := by
  induction k generalizing b n with
  | zero =>
      simp only [readFixed, Option.some.injEq, Prod.mk.injEq] at h
      obtain ⟨rfl, rfl⟩ := h
      rfl
  | succ k ih =>
      cases b with
      | nil => simp [readFixed] at h
      | cons byte b =>
          simp only [readFixed, Option.bind_eq_bind, Option.bind_eq_some_iff] at h
          obtain ⟨⟨m, rest'⟩, htail, hsome⟩ := h
          simp only [Option.some.injEq, Prod.mk.injEq] at hsome
          obtain ⟨rfl, rfl⟩ := hsome
          simp [readFixed, ih htail]

theorem readFixed_length {k n : Nat} {b rest : Bytes} (h : readFixed k b = some (n, rest)) :
    b.length = k + rest.length := by
  induction k generalizing b n with
  | zero =>
      simp only [readFixed, Option.some.injEq, Prod.mk.injEq] at h
      obtain ⟨rfl, rfl⟩ := h
      simp
  | succ k ih =>
      cases b with
      | nil => simp [readFixed] at h
      | cons byte b =>
          simp only [readFixed, Option.bind_eq_bind, Option.bind_eq_some_iff] at h
          obtain ⟨⟨m, rest'⟩, htail, hsome⟩ := h
          simp only [Option.some.injEq, Prod.mk.injEq] at hsome
          obtain ⟨-, rfl⟩ := hsome
          rw [List.length_cons, ih htail]
          omega

theorem readHeader_eq_some {input rest : Bytes} {last length : Nat}
    (h : readHeader input = some (last, length, rest)) :
    input.length = 5 + rest.length ∧ length ≤ rest.length ∧
      ∀ more, readHeader (input ++ more) = some (last, length, rest ++ more) := by
  simp only [readHeader, Option.bind_eq_bind, Option.bind_eq_some_iff] at h
  obtain ⟨⟨last', rest₁⟩, h₁, ⟨length', rest₂⟩, h₂, ⟨complement, rest₃⟩, h₃, hsome⟩ := h
  simp only [Option.ite_none_right_eq_some, Option.some.injEq, Prod.mk.injEq] at hsome
  obtain ⟨⟨hcomplement, hlength⟩, rfl, rfl, rfl⟩ := hsome
  refine ⟨?_, hlength, ?_⟩
  · rw [readFixed_length h₁, readFixed_length h₂, readFixed_length h₃]
    omega
  · intro more
    have hlonger : length' ≤ rest₃.length + more.length := by omega
    simp [readHeader, readFixed_append h₁, readFixed_append h₂, readFixed_append h₃, hcomplement,
      hlonger]

theorem readHeader_blockHeader (last : Bool) {b : Bytes} (h : b.length ≤ maxBlockSize)
    (rest : Bytes) :
    readHeader (blockHeader last b.length ++ (b ++ rest)) =
      some (last.toNat, b.length, b ++ rest) := by
  have hb : b.length ≤ 65535 := h
  have hlast : last.toNat < 256 ^ 1 := by
    cases last <;> decide
  have hlength : b.length < 256 ^ 2 := by omega
  have hcomplement : 65535 - b.length < 256 ^ 2 := by omega
  simp [readHeader, blockHeader, readFixed_writeFixed 1 _ hlast, readFixed_writeFixed 2 _ hlength,
    readFixed_writeFixed 2 _ hcomplement]

/-- Reading does not look at what follows the last block, and needs no more fuel than there are
bytes. -/
theorem readBlocks_append {fuel : Nat} {b data rest : Bytes}
    (h : readBlocks fuel b = some (data, rest)) (fuel' : Nat) (hfuel : b.length ≤ fuel')
    (more : Bytes) : readBlocks fuel' (b ++ more) = some (data, rest ++ more) := by
  induction fuel generalizing b data fuel' with
  | zero => cases h
  | succ fuel ih =>
      rw [readBlocks] at h
      cases hheader : readHeader b with
      | none => simp [hheader] at h
      | some header =>
          obtain ⟨last, length, rest₁⟩ := header
          obtain ⟨hlength, hle, hmore⟩ := readHeader_eq_some hheader
          obtain ⟨fuel'', rfl⟩ : ∃ n, fuel' = n + 1 := ⟨fuel' - 1, by omega⟩
          rw [readBlocks, hmore more]
          simp only [hheader] at h ⊢
          by_cases hlast : last = 1
          · rw [if_pos hlast, Option.ite_none_right_eq_some, Option.some.injEq,
              Prod.mk.injEq] at h
            obtain ⟨hzero, rfl, rfl⟩ := h
            rw [if_pos hlast, if_pos hzero]
          · rw [if_neg hlast] at h ⊢
            cases htail : readBlocks fuel (rest₁.drop length) with
            | none => simp [htail] at h
            | some result =>
                obtain ⟨tail, after⟩ := result
                simp only [htail, Option.some.injEq, Prod.mk.injEq] at h
                obtain ⟨rfl, rfl⟩ := h
                have hshort : (rest₁.drop length).length ≤ fuel'' := by
                  rw [List.length_drop]
                  omega
                rw [List.drop_append_of_le_length hle, ih htail fuel'' hshort,
                  List.take_append_of_le_length hle]

theorem readBlocks_last (rest : Bytes) :
    readBlocks 1 (blockHeader true 0 ++ rest) = some ([], rest) := by
  have hheader := readHeader_blockHeader true (b := []) (by decide) rest
  simp only [List.length_nil, List.nil_append] at hheader
  rw [readBlocks, hheader]
  rfl

theorem readBlocks_writeBlocks {fuel : Nat} {rest tail after : Bytes}
    (h : readBlocks fuel rest = some (tail, after)) (n : Nat) {b : Bytes}
    (hb : b.length ≤ n * maxBlockSize) :
    ∃ fuel', readBlocks fuel' ((writeBlocks n b).flatten ++ rest) = some (b ++ tail, after) := by
  induction n generalizing b with
  | zero =>
      obtain rfl : b = [] := List.eq_nil_of_length_eq_zero (by omega)
      exact ⟨fuel, h⟩
  | succ n ih =>
      rw [writeBlocks]
      by_cases hnil : b = []
      · subst hnil
        exact ⟨fuel, by simpa using h⟩
      · rw [if_neg hnil]
        have hdrop : (b.drop maxBlockSize).length ≤ n * maxBlockSize := by
          rw [List.length_drop]
          rw [Nat.succ_mul] at hb
          omega
        obtain ⟨fuel', htail⟩ := ih hdrop
        refine ⟨fuel' + 1, ?_⟩
        have hheader := readHeader_blockHeader false (b := b.take maxBlockSize)
          (List.length_take_le _ _) ((writeBlocks n (b.drop maxBlockSize)).flatten ++ rest)
        rw [List.flatten_cons, List.flatten_cons, List.append_assoc, List.append_assoc, readBlocks,
          hheader]
        simp only [Bool.toNat_false, Nat.zero_ne_one, if_false, List.drop_left, List.take_left,
          htail]
        rw [← List.append_assoc, List.take_append_drop]

/-- A member is read as a whole or not at all. -/
theorem decode_append {b data : Bytes} (h : decode b = some data) {more : Bytes}
    (hmore : more ≠ []) : decode (b ++ more) = none := by
  rw [decode, Option.ite_none_right_eq_some] at h
  obtain ⟨hheader, h⟩ := h
  obtain ⟨rest, rfl⟩ := List.isPrefixOf_iff_prefix.mp hheader
  rw [List.drop_left] at h
  cases hread : readBlocks (header ++ rest).length rest with
  | none =>
      rw [hread] at h
      cases h
  | some result =>
      obtain ⟨data', after⟩ := result
      rw [hread] at h
      simp only [Option.ite_none_right_eq_some] at h
      have hlong := readBlocks_append hread (header ++ rest ++ more).length
        (by simp only [List.length_append]; omega) more
      have hne : after ++ more ≠ trailer data' := by
        rw [h.1]
        simpa using hmore
      rw [decode, List.append_assoc, if_pos (by simp), List.drop_left, ← List.append_assoc, hlong]
      simp [hne]

/-- The member a writer has begun: its input so far, if it has any. -/
abbrev Member := Option Bytes

/-- The header goes before the first write. -/
def opening : Member → List Bytes
  | none => [header]
  | some _ => []

/-- What a write of the writer writes, and the member after it. -/
def writeMember (m : Member) (b : Bytes) : List Bytes × Member :=
  (opening m ++ writeBlocks b.length b, some (m.getD [] ++ b))

/-- What closing the writer writes. -/
def closeMember (m : Member) : List Bytes :=
  opening m ++ [blockHeader true 0 ++ trailer (m.getD [])]

/-- All that is written for the inputs from a member on. -/
def member : Member → List Bytes → List Bytes
  | m, [] => closeMember m
  | m, b :: rest => (writeMember m b).1 ++ member (writeMember m b).2 rest

theorem readBlocks_member (bs : List Bytes) (data : Bytes) :
    ∃ fuel, readBlocks fuel (member (some data) bs).flatten =
      some (bs.flatten, trailer (data ++ bs.flatten)) := by
  induction bs generalizing data with
  | nil => exact ⟨1, by simpa [member, closeMember, opening] using readBlocks_last (trailer data)⟩
  | cons b rest ih =>
      obtain ⟨fuel, hrest⟩ := ih (data ++ b)
      have hlength : b.length ≤ b.length * maxBlockSize := Nat.le_mul_of_pos_right _ (by decide)
      obtain ⟨fuel', hread⟩ := readBlocks_writeBlocks hrest b.length hlength
      refine ⟨fuel', ?_⟩
      simpa [member, writeMember, opening] using hread

theorem member_none (bs : List Bytes) :
    (member none bs).flatten = header ++ (member (some []) bs).flatten := by
  cases bs with
  | nil => simp [member, closeMember, opening]
  | cons b rest => simp [member, writeMember, opening]

/-- A reader gets back what was written, whatever the pieces were. -/
theorem decode_member (bs : List Bytes) : decode (member none bs).flatten = some bs.flatten := by
  obtain ⟨fuel, hread⟩ := readBlocks_member bs []
  have hall := readBlocks_append hread (header ++ (member (some []) bs).flatten).length
    (by simp) []
  rw [List.append_nil, List.append_nil, List.nil_append] at hall
  rw [member_none, decode, if_pos (by simp), List.drop_left, hall]
  exact if_pos rfl

/-- A reader gets nothing from less than a member. -/
theorem decode_of_prefix {bs : List Bytes} {b : Bytes} (h : b <+: (member none bs).flatten)
    (hne : b ≠ (member none bs).flatten) : decode b = none := by
  obtain ⟨more, hmore⟩ := h
  have hpart : more ≠ [] := by
    rintro rfl
    exact hne (by simpa using hmore)
  cases hdecode : decode b with
  | none => rfl
  | some data =>
      have hwhole := decode_append hdecode hpart
      rw [hmore, decode_member] at hwhole
      cases hwhole

end NodeScope.Lib.GzipStored
