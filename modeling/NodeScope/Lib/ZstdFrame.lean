import NodeScope.Lib.Protobuf

/-!
# Stored zstd frames

The part of the zstd format that a compressor needs when it stores its input: a
frame header with the content size, followed by raw blocks of at most 128 KiB,
the last of which is marked. The reader accepts these frames and the empty
input, and gives the stored bytes back.
-/

namespace NodeScope.Lib.ZstdFrame

open Protobuf (Bytes writeFixed readFixed readFixed_writeFixed)

def maxBlockSize : Nat := 128 * 1024

def magic : Bytes := [0x28, 0xb5, 0x2f, 0xfd]

/-- A single segment with a four-byte content size and no checksum. -/
def descriptor : UInt8 := 0xa0

/-- The header of a raw block: its length above three bits, of which the lowest
marks the last block. -/
def writeBlock (last : Bool) (b : Bytes) : Bytes :=
  writeFixed 3 (b.length * 8 + last.toNat) ++ b

def writeBlocks : Nat → Bytes → Bytes
  | 0, b => writeBlock true b
  | fuel + 1, b =>
      if b.length ≤ maxBlockSize then writeBlock true b
      else writeBlock false (b.take maxBlockSize) ++ writeBlocks fuel (b.drop maxBlockSize)

def readBlocks : Nat → Bytes → Option Bytes
  | 0, _ => none
  | fuel + 1, input => do
      let (header, rest) ← readFixed 3 input
      if header / 2 % 4 ≠ 0 ∨ rest.length < header / 8 then none
      else if header % 2 = 1 then
        if rest.length = header / 8 then some rest else none
      else do
        let tail ← readBlocks fuel (rest.drop (header / 8))
        some (rest.take (header / 8) ++ tail)

theorem readBlocks_last {b : Bytes} (h : b.length ≤ maxBlockSize) (fuel : Nat) :
    readBlocks (fuel + 1) (writeBlock true b) = some b := by
  have hb : b.length ≤ 131072 := h
  have hheader : b.length * 8 + Bool.toNat true < 256 ^ 3 := by
    simp only [Bool.toNat_true]
    omega
  rw [writeBlock, readBlocks, readFixed_writeFixed 3 _ hheader]
  simp only [Bool.toNat_true, Option.bind_eq_bind, Option.bind_some]
  rw [if_neg (by omega), if_pos (by omega), if_pos (by omega)]

theorem readBlocks_cons {b rest tail : Bytes} {fuel : Nat} (h : b.length ≤ maxBlockSize)
    (ht : readBlocks fuel rest = some tail) :
    readBlocks (fuel + 1) (writeBlock false b ++ rest) = some (b ++ tail) := by
  have hb : b.length ≤ 131072 := h
  have hheader : b.length * 8 + Bool.toNat false < 256 ^ 3 := by
    simp only [Bool.toNat_false]
    omega
  have hsize : (b.length * 8 + Bool.toNat false) / 8 = b.length := by
    simp only [Bool.toNat_false]
    omega
  rw [writeBlock, List.append_assoc, readBlocks, readFixed_writeFixed 3 _ hheader]
  simp only [Option.bind_eq_bind, Option.bind_some, hsize, List.length_append]
  simp only [Bool.toNat_false]
  rw [if_neg (by omega), if_neg (by omega), List.drop_left, List.take_left, ht]
  rfl

/-- A unit of fuel for each full block reads back what was written. -/
theorem readBlocks_writeBlocks (fuel : Nat) (b : Bytes)
    (h : b.length ≤ (fuel + 1) * maxBlockSize) :
    readBlocks (fuel + 1) (writeBlocks fuel b) = some b := by
  induction fuel generalizing b with
  | zero => exact readBlocks_last (by omega) 0
  | succ fuel ih =>
      by_cases hb : b.length ≤ maxBlockSize
      · rw [writeBlocks, if_pos hb]
        exact readBlocks_last hb (fuel + 1)
      · have htail : (b.drop maxBlockSize).length ≤ (fuel + 1) * maxBlockSize := by
          rw [List.length_drop, Nat.sub_le_iff_le_add]
          calc b.length ≤ (fuel + 1 + 1) * maxBlockSize := h
            _ = (fuel + 1) * maxBlockSize + maxBlockSize := Nat.succ_mul _ _
        rw [writeBlocks, if_neg hb, readBlocks_cons (List.length_take_le _ _) (ih _ htail),
          List.take_append_drop]

def encodeAll (b : Bytes) : Bytes :=
  magic ++ descriptor :: writeFixed 4 b.length ++ writeBlocks (b.length / maxBlockSize) b

def decodeFrame (input : Bytes) : Option Bytes := do
  let (header, rest) ← readFixed 5 input
  let (size, rest) ← readFixed 4 rest
  if header = 0xa0fd2fb528 then
    let b ← readBlocks (size / maxBlockSize + 1) rest
    if b.length = size then some b else none
  else none

/-- An empty input holds no frame and decodes to nothing. -/
def decodeAll (input : Bytes) : Option Bytes :=
  if input = [] then some [] else decodeFrame input

theorem decodeAll_encodeAll {b : Bytes} (h : b.length < 2 ^ 32) :
    decodeAll (encodeAll b) = some b := by
  have hsize : b.length < 256 ^ 4 := h
  have hfuel : b.length ≤ (b.length / maxBlockSize + 1) * maxBlockSize := by
    have hlt := Nat.lt_div_mul_add (a := b.length) (b := maxBlockSize) (by decide)
    rw [Nat.succ_mul]
    omega
  have hmagic : magic ++ descriptor :: writeFixed 4 b.length =
      writeFixed 5 0xa0fd2fb528 ++ writeFixed 4 b.length := by
    rfl
  have hencode : encodeAll b = writeFixed 5 0xa0fd2fb528 ++ (writeFixed 4 b.length ++
      writeBlocks (b.length / maxBlockSize) b) := by
    rw [encodeAll, hmagic, List.append_assoc]
  have hne : encodeAll b ≠ [] := by simp [encodeAll, magic]
  rw [decodeAll, if_neg hne, hencode, decodeFrame, readFixed_writeFixed 5 _ (by decide)]
  simp only [Option.bind_some, Option.bind_eq_bind, readFixed_writeFixed 4 _ hsize, if_true,
    readBlocks_writeBlocks _ _ hfuel]

end NodeScope.Lib.ZstdFrame
