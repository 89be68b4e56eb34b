import Mathlib.Algebra.Order.Ring.Int
import Mathlib.Tactic.Common
import Mathlib.Data.Nat.Basic

/-!
# The protobuf wire format

A message is a sequence of numbered fields. Each field is a tag, which holds
the number and the wire type, followed by a base-128 number, eight little-endian
bytes, or a length and that many bytes. Reading a sequence of written fields
gives exactly those fields, which is the only fact a message format built on
top needs.
-/

namespace NodeScope.Lib.Protobuf

abbrev Bytes := List UInt8

/-- The values of the wire types that messages with numbers, doubles, texts and messages use. -/
inductive Value where
  | varint (n : Nat)
  | fixed64 (n : Nat)
  | bytes (b : Bytes)
deriving DecidableEq

/-- A field of a message as it is on the wire. -/
structure Field where
  number : Nat
  value : Value
deriving DecidableEq

/-- Base-128 digits, least significant first, with a continuation bit on all
but the last. Ten bytes hold any 64-bit number. -/
def writeVarint : Nat → Nat → Bytes
  | 0, n => [UInt8.ofNat n]
  | fuel + 1, n =>
      if n < 128 then [UInt8.ofNat n]
      else UInt8.ofNat (n % 128 + 128) :: writeVarint fuel (n / 128)

/-- A varint, with what stands behind it. -/
def readVarint : Nat → Bytes → Option (Nat × Bytes)
  | _, [] => none
  | fuel, b :: rest =>
      if b.toNat < 128 then some (b.toNat, rest)
      else
        match fuel with
        | 0 => none
        | fuel + 1 => do
            let (n, rest) ← readVarint fuel rest
            some (b.toNat - 128 + 128 * n, rest)

theorem readVarint_writeVarint (fuel n : Nat) (h : n < 128 ^ (fuel + 1)) (rest : Bytes) :
    readVarint fuel (writeVarint fuel n ++ rest) = some (n, rest) := by
  induction fuel generalizing n with
  | zero =>
      have hn : n % 256 = n := Nat.mod_eq_of_lt (by omega)
      simp only [writeVarint, List.singleton_append, readVarint, UInt8.toNat_ofNat']
      rw [if_pos (by omega), hn]
  | succ fuel ih =>
      by_cases hs : n < 128
      · have hn : n % 256 = n := Nat.mod_eq_of_lt (by omega)
        simp only [writeVarint, hs, if_true, List.singleton_append, readVarint,
          UInt8.toNat_ofNat']
        rw [if_pos (by omega), hn]
      · have hd : n / 128 < 128 ^ (fuel + 1) := by
          rw [Nat.div_lt_iff_lt_mul (by omega)]
          rwa [Nat.pow_succ] at h
        have hb : (n % 128 + 128) % 256 = n % 128 + 128 := Nat.mod_eq_of_lt (by omega)
        simp only [writeVarint, hs, if_false, List.cons_append, readVarint,
          UInt8.toNat_ofNat', hb, ih (n / 128) hd]
        rw [if_neg (by omega)]
        simp only [Option.bind_eq_bind, Option.bind_some, Option.some.injEq, Prod.mk.injEq,
          and_true]
        omega

/-- Little-endian bytes of a number, `k` of them. -/
def writeFixed : Nat → Nat → Bytes
  | 0, _ => []
  | k + 1, n => UInt8.ofNat n :: writeFixed k (n / 256)

def readFixed : Nat → Bytes → Option (Nat × Bytes)
  | 0, rest => some (0, rest)
  | _ + 1, [] => none
  | k + 1, b :: rest => do
      let (n, rest) ← readFixed k rest
      some (b.toNat + 256 * n, rest)

theorem readFixed_writeFixed (k n : Nat) (h : n < 256 ^ k) (rest : Bytes) :
    readFixed k (writeFixed k n ++ rest) = some (n, rest) := by
  induction k generalizing n with
  | zero =>
      obtain rfl : n = 0 := by simpa using h
      rfl
  | succ k ih =>
      have hd : n / 256 < 256 ^ k := by
        rw [Nat.div_lt_iff_lt_mul (by omega)]
        rwa [Nat.pow_succ] at h
      simp only [writeFixed, List.cons_append, readFixed, ih (n / 256) hd, UInt8.toNat_ofNat',
        Option.bind_eq_bind, Option.bind_some, Option.some.injEq, Prod.mk.injEq, and_true]
      omega

def Value.wireType : Value → Nat
  | .varint _ => 0
  | .fixed64 _ => 1
  | .bytes _ => 2

def Value.write : Value → Bytes
  | .varint n => writeVarint 9 n
  | .fixed64 n => writeFixed 8 n
  | .bytes b => writeVarint 9 b.length ++ b

/-- The tag of a field, and its value. -/
def Field.write (f : Field) : Bytes :=
  writeVarint 9 (f.number * 8 + f.value.wireType) ++ f.value.write

def readValue (wireType : Nat) (input : Bytes) : Option (Value × Bytes) :=
  match wireType with
  | 0 => do
      let (n, rest) ← readVarint 9 input
      some (.varint n, rest)
  | 1 => do
      let (n, rest) ← readFixed 8 input
      some (.fixed64 n, rest)
  | 2 => do
      let (n, rest) ← readVarint 9 input
      if n ≤ rest.length then some (.bytes (rest.take n), rest.drop n) else none
  | _ => none

/-- The next field, with what stands behind it. -/
def readField (input : Bytes) : Option (Field × Bytes) := do
  let (tag, rest) ← readVarint 9 input
  let (value, rest) ← readValue (tag % 8) rest
  some (⟨tag / 8, value⟩, rest)

/-- A number fits sixty-four bits, and a length thirty-one. -/
def Value.Fits : Value → Prop
  | .varint n => n < 2 ^ 64
  | .fixed64 n => n < 2 ^ 64
  | .bytes b => b.length < 2 ^ 31

instance : (v : Value) → Decidable v.Fits
  | .varint n => inferInstanceAs (Decidable (n < 2 ^ 64))
  | .fixed64 n => inferInstanceAs (Decidable (n < 2 ^ 64))
  | .bytes b => inferInstanceAs (Decidable (b.length < 2 ^ 31))

/-- The numbers of a field fit the format. -/
def Field.Fits (f : Field) : Prop :=
  f.number < 2 ^ 29 ∧ f.value.Fits

instance (f : Field) : Decidable f.Fits :=
  inferInstanceAs (Decidable (f.number < 2 ^ 29 ∧ f.value.Fits))

theorem readValue_write (v : Value) (h : v.Fits) (rest : Bytes) :
    readValue v.wireType (v.write ++ rest) = some (v, rest) := by
  cases v with
  | varint n =>
      have hn : n < 128 ^ (9 + 1) := lt_trans h (by decide)
      simp [Value.wireType, Value.write, readValue, readVarint_writeVarint 9 n hn]
  | fixed64 n =>
      have hn : n < 256 ^ 8 := h
      simp [Value.wireType, Value.write, readValue, readFixed_writeFixed 8 n hn]
  | bytes b =>
      have hn : b.length < 128 ^ (9 + 1) := lt_trans h (by decide)
      simp only [Value.wireType, Value.write, readValue, List.append_assoc,
        readVarint_writeVarint 9 _ hn, Option.bind_eq_bind, Option.bind_some]
      rw [if_pos (by simp), List.take_left, List.drop_left]

theorem wireType_lt (v : Value) : v.wireType < 8 := by
  cases v <;> simp [Value.wireType]

theorem readField_write (f : Field) (h : f.Fits) (rest : Bytes) :
    readField (f.write ++ rest) = some (f, rest) := by
  have hw := wireType_lt f.value
  have htag : f.number * 8 + f.value.wireType < 128 ^ (9 + 1) := by
    have h29 : f.number < 2 ^ 29 := h.1
    have hpow : (128 : Nat) ^ (9 + 1) = 1180591620717411303424 := by decide
    omega
  have hval := readValue_write f.value h.2 rest
  simp only [readField, Field.write, List.append_assoc, readVarint_writeVarint 9 _ htag,
    Option.bind_eq_bind, Option.bind_some]
  rw [show (f.number * 8 + f.value.wireType) % 8 = f.value.wireType by omega, hval,
    show (f.number * 8 + f.value.wireType) / 8 = f.number by omega]
  rfl

/-- A message, field by field. -/
def writeFields (fs : List Field) : Bytes := fs.flatMap Field.write

/-- The fields of a message up to its end. -/
def readFields : Nat → Bytes → Option (List Field)
  | _, [] => some []
  | 0, _ :: _ => none
  | fuel + 1, b :: input => do
      let (f, rest) ← readField (b :: input)
      let fs ← readFields fuel rest
      some (f :: fs)

theorem writeVarint_ne_nil (fuel n : Nat) : writeVarint fuel n ≠ [] := by
  cases fuel with
  | zero => simp [writeVarint]
  | succ fuel =>
      simp only [writeVarint]
      split <;> simp

theorem Field.write_ne_nil (f : Field) : f.write ≠ [] := by
  simp [Field.write, writeVarint_ne_nil]

/-- Reading what was written gives the fields back. One unit of fuel for each
byte of the input is enough, as every field takes at least one byte. -/
theorem readFields_writeFields (fs : List Field) (h : ∀ f ∈ fs, f.Fits) (fuel : Nat)
    (hfuel : (writeFields fs).length ≤ fuel) :
    readFields fuel (writeFields fs) = some fs := by
  induction fs generalizing fuel with
  | nil => cases fuel <;> rfl
  | cons f rest ih =>
      have hne := f.write_ne_nil
      simp only [writeFields, List.flatMap_cons, List.length_append] at hfuel ⊢
      obtain ⟨b, bs, hb⟩ : ∃ b bs, f.write ++ rest.flatMap Field.write = b :: bs := by
        cases hw : f.write with
        | nil => exact absurd hw hne
        | cons b bs => exact ⟨b, bs ++ rest.flatMap Field.write, rfl⟩
      have hpos : 0 < f.write.length := List.length_pos_iff.mpr hne
      obtain ⟨k, rfl⟩ : ∃ k, fuel = k + 1 := ⟨fuel - 1, by omega⟩
      rw [hb, readFields, ← hb, readField_write f (h f (by simp))]
      have hr := ih (fun g hg => h g (by simp [hg])) k (by
        simp only [writeFields]
        omega)
      simp only [writeFields] at hr
      simp [hr]

end NodeScope.Lib.Protobuf
