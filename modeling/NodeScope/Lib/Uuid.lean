import Mathlib.Data.Vector.Defs
import Mathlib.Tactic.Common

/-!
# The database type `uuid`

Sixteen bytes, printed in the canonical lower-case form with hyphens after the
fourth, sixth, eighth and tenth byte. The input function is more liberal: it
takes either case, an optional pair of braces, and an optional hyphen after any
even number of bytes.
-/

namespace NodeScope.Lib

structure Uuid where
  bytes : List.Vector UInt8 16
deriving DecidableEq

namespace Uuid

def hexValue (c : Char) : Option Nat :=
  if '0' ≤ c ∧ c ≤ '9' then some (c.toNat - 48)
  else if 'a' ≤ c ∧ c ≤ 'f' then some (c.toNat - 87)
  else if 'A' ≤ c ∧ c ≤ 'F' then some (c.toNat - 55)
  else none

/-- The printed bytes from position `i` on. -/
def write : Nat → List UInt8 → List Char
  | _, [] => []
  | i, b :: rest =>
      Nat.digitChar (b.toNat / 16) :: Nat.digitChar (b.toNat % 16) ::
        ((if i = 3 ∨ i = 5 ∨ i = 7 ∨ i = 9 then ['-'] else []) ++ write (i + 1) rest)

def skipHyphen : List Char → List Char
  | '-' :: rest => rest
  | rest => rest

/-- Read `n` bytes, the first of which has position `i`. -/
def read : Nat → Nat → List Char → Option (List UInt8 × List Char)
  | 0, _, input => some ([], input)
  | n + 1, i, c :: d :: input => do
      let high ← hexValue c
      let low ← hexValue d
      let (bytes, rest) ← read n (i + 1)
        (if i % 2 = 1 ∧ i < 15 then skipHyphen input else input)
      some (UInt8.ofNat (high * 16 + low) :: bytes, rest)
  | _ + 1, _, _ => none

def ofBytes (bytes : List UInt8) : Option Uuid :=
  if h : bytes.length = 16 then some ⟨⟨bytes, h⟩⟩ else none

/-- The identifier made of one repeated byte. -/
def ofByte (b : UInt8) : Uuid := ⟨List.Vector.replicate 16 b⟩

/-- The output function of the type. -/
def toText (u : Uuid) : String := String.ofList (write 0 u.bytes.toList)

/-- The input function of the type. -/
def parse (s : String) : Option Uuid :=
  match s.toList with
  | '\x7b' :: input =>
      match read 16 0 input with
      | some (bytes, ['\x7d']) => ofBytes bytes
      | _ => none
  | input =>
      match read 16 0 input with
      | some (bytes, []) => ofBytes bytes
      | _ => none

/-- A printed byte has digits that read back, and none of them is punctuation. -/
theorem digit_spec (n : Fin 16) :
    hexValue (Nat.digitChar n) = some n.val ∧ Nat.digitChar n ≠ '-' ∧
      Nat.digitChar n ≠ '\x7b' := by
  revert n
  decide

theorem digit_spec_div (b : UInt8) :
    hexValue (Nat.digitChar (b.toNat / 16)) = some (b.toNat / 16) ∧
      Nat.digitChar (b.toNat / 16) ≠ '-' ∧ Nat.digitChar (b.toNat / 16) ≠ '\x7b' :=
  digit_spec ⟨b.toNat / 16, by have := b.toNat_lt; omega⟩

theorem digit_spec_mod (b : UInt8) :
    hexValue (Nat.digitChar (b.toNat % 16)) = some (b.toNat % 16) ∧
      Nat.digitChar (b.toNat % 16) ≠ '-' ∧ Nat.digitChar (b.toNat % 16) ≠ '\x7b' :=
  digit_spec ⟨b.toNat % 16, Nat.mod_lt _ (by decide)⟩

theorem skipHyphen_write (i : Nat) (bs : List UInt8) : skipHyphen (write i bs) = write i bs := by
  cases bs with
  | nil => rfl
  | cons b rest =>
      have hb := (digit_spec_div b).2.1
      simp only [write, skipHyphen]
      split
      · rename_i h
        exact absurd (List.cons.inj h).1 hb
      · rfl

theorem byte_eq (b : UInt8) : UInt8.ofNat (b.toNat / 16 * 16 + b.toNat % 16) = b := by
  rw [Nat.div_add_mod' b.toNat 16, UInt8.ofNat_toNat]

theorem read_write (bs : List UInt8) (i : Nat) :
    read bs.length i (write i bs) = some (bs, []) := by
  induction bs generalizing i with
  | nil => rfl
  | cons b rest ih =>
      have hinput : (if i % 2 = 1 ∧ i < 15 then
          skipHyphen ((if i = 3 ∨ i = 5 ∨ i = 7 ∨ i = 9 then ['-'] else []) ++ write (i + 1) rest)
          else ((if i = 3 ∨ i = 5 ∨ i = 7 ∨ i = 9 then ['-'] else []) ++ write (i + 1) rest)) =
          write (i + 1) rest := by
        by_cases h : i = 3 ∨ i = 5 ∨ i = 7 ∨ i = 9
        · rw [if_pos (by omega), if_pos h]
          rfl
        · rw [if_neg h, List.nil_append, skipHyphen_write, ite_self]
      rw [write, List.length_cons, read, (digit_spec_div b).1, (digit_spec_mod b).1, hinput, ih]
      simp only [Option.bind_eq_bind, Option.bind_some, byte_eq]

theorem parse_toText (u : Uuid) : parse u.toText = some u := by
  obtain ⟨⟨bytes, h⟩⟩ := u
  have hread : read 16 0 (write 0 bytes) = some (bytes, []) := by
    rw [← h]
    exact read_write bytes 0
  cases bytes with
  | nil => simp at h
  | cons b rest =>
      have hb := (digit_spec_div b).2.2
      simp only [parse, toText, String.toList_ofList, List.Vector.toList_mk]
      split
      · rename_i input hw
        rw [write] at hw
        exact absurd (List.cons.inj hw).1 hb
      · rw [hread]
        simp [ofBytes, h]

theorem toText_inj {u v : Uuid} (h : u.toText = v.toText) : u = v := by
  have hu := parse_toText u
  rw [h, parse_toText v] at hu
  exact (Option.some.inj hu).symm

/-- The printed form has digits and hyphens only. -/
theorem notMem_write {c : Char} (hyphen : c ≠ '-') (digit : ∀ n : Fin 16, c ≠ Nat.digitChar n)
    (bs : List UInt8) (i : Nat) : c ∉ write i bs := by
  induction bs generalizing i with
  | nil => simp [write]
  | cons b rest ih =>
      have h₁ := digit ⟨b.toNat / 16, by have := b.toNat_lt; omega⟩
      have h₂ := digit ⟨b.toNat % 16, Nat.mod_lt _ (by decide)⟩
      simp only [write, List.mem_cons, List.mem_append, not_or]
      refine ⟨h₁, h₂, ?_, ih _⟩
      split <;> simp [hyphen]

theorem colon_notMem_toText (u : Uuid) : ':' ∉ u.toText.toList := by
  rw [toText, String.toList_ofList]
  exact notMem_write (by decide) (by decide) _ _

theorem space_notMem_toText (u : Uuid) : ' ' ∉ u.toText.toList := by
  rw [toText, String.toList_ofList]
  exact notMem_write (by decide) (by decide) _ _

theorem nul_notMem_toText (u : Uuid) : '\x00' ∉ u.toText.toList := by
  rw [toText, String.toList_ofList]
  exact notMem_write (by decide) (by decide) _ _

theorem toText_length (u : Uuid) : u.toText.toList.length = 36 := by
  obtain ⟨⟨bytes, h⟩⟩ := u
  rw [toText, String.toList_ofList, List.Vector.toList_mk]
  match bytes, h with
  | [_, _, _, _, _, _, _, _, _, _, _, _, _, _, _, _], _ => simp [write]

end Uuid

end NodeScope.Lib
