import Mathlib.Algebra.Order.Ring.Int
import Mathlib.Data.List.TakeDrop

/-!
# Tar archives of regular files

The ustar format for files whose names and numbers fit its fields: a header block for each file,
its contents up to a whole number of blocks, and two blocks of zeros at the end. A file that does
not fit has no header.
-/

namespace NodeScope.Lib.Ustar

abbrev Bytes := List UInt8

def zeros (n : Nat) : Bytes := List.replicate n 0

/-- The zeros between the contents of a file and the next block. -/
def padding (size : Nat) : Nat := (512 - size % 512) % 512

/-- The octal digits of a number, in a field of a width. -/
def octal : Nat → Nat → Bytes
  | 0, _ => []
  | width + 1, n => octal width (n / 8) ++ [UInt8.ofNat (48 + n % 8)]

def readOctal (digits : Bytes) : Nat := digits.foldl (fun n d => 8 * n + (d.toNat - 48)) 0

theorem length_octal (width n : Nat) : (octal width n).length = width := by
  induction width generalizing n with
  | zero => rfl
  | succ width ih => rw [octal, List.length_append, ih, List.length_singleton]

theorem readOctal_octal {width n : Nat} (h : n < 8 ^ width) : readOctal (octal width n) = n := by
  induction width generalizing n with
  | zero =>
      obtain rfl : n = 0 := by simpa using h
      rfl
  | succ width ih =>
      have hdiv : n / 8 < 8 ^ width := by
        rw [Nat.div_lt_iff_lt_mul (by omega)]
        simpa [Nat.pow_succ] using h
      have hdigit : (UInt8.ofNat (48 + n % 8)).toNat = 48 + n % 8 := by
        rw [UInt8.toNat_ofNat']
        omega
      have hinit := ih hdiv
      rw [readOctal] at hinit
      rw [readOctal, octal, List.foldl_append, hinit, List.foldl_cons, List.foldl_nil, hdigit]
      omega

/-- What a header says of a file beside its name and its size. -/
structure Attributes where
  mode : Nat
  uid : Nat
  gid : Nat
  modTime : Nat
deriving DecidableEq

/-- The fields before the check sum. -/
def beforeSum (a : Attributes) (name : Bytes) (size : Nat) : Bytes :=
  (name ++ zeros (100 - name.length)) ++ ((octal 7 a.mode ++ [0]) ++ ((octal 7 a.uid ++ [0]) ++
    ((octal 7 a.gid ++ [0]) ++ ((octal 11 size ++ [0]) ++ (octal 11 a.modTime ++ [0])))))

/-- The fields after the check sum: a regular file, no link, the magic, no names of the owners
and no device. -/
def afterSum : Bytes :=
  [0x30] ++ zeros 100 ++ [0x75, 0x73, 0x74, 0x61, 0x72, 0, 0x30, 0x30] ++ zeros 64 ++
    (octal 7 0 ++ [0]) ++ (octal 7 0 ++ [0]) ++ zeros 167

/-- The sum of the bytes of a header with a blank check sum. -/
def checkSum (a : Attributes) (name : Bytes) (size : Nat) : Nat :=
  ((beforeSum a name size ++ List.replicate 8 0x20 ++ afterSum).map UInt8.toNat).sum

/-- The name and the numbers fit their fields. -/
def fits (a : Attributes) (name : Bytes) (size : Nat) : Bool :=
  name ≠ [] && name.length ≤ 100 && !name.contains 0 && a.mode < 8 ^ 7 && a.uid < 8 ^ 7 &&
    a.gid < 8 ^ 7 && size < 8 ^ 11 && a.modTime < 8 ^ 11

def header (a : Attributes) (name : Bytes) (size : Nat) : Option Bytes :=
  if fits a name size then
    some (beforeSum a name size ++ (octal 6 (checkSum a name size) ++ [0, 0x20]) ++ afterSum)
  else none

/-- The name, the size and the attributes in a header. -/
def readHeader (b : Bytes) : Attributes × Bytes × Nat :=
  let name := (b.take 100).takeWhile fun c => c ≠ 0
  let b := b.drop 100
  let mode := readOctal (b.take 8).dropLast
  let b := b.drop 8
  let uid := readOctal (b.take 8).dropLast
  let b := b.drop 8
  let gid := readOctal (b.take 8).dropLast
  let b := b.drop 8
  let size := readOctal (b.take 12).dropLast
  let b := b.drop 12
  (⟨mode, uid, gid, readOctal (b.take 12).dropLast⟩, name, size)

/-- The files of an archive. A header is taken when it is the one that is written for what it
says. -/
def read : Nat → Bytes → Option (List (Bytes × Bytes))
  | 0, _ => none
  | fuel + 1, b =>
      if b.take 1024 = zeros 1024 then some []
      else
        let (a, name, size) := readHeader b
        if header a name size = some (b.take 512) ∧ size ≤ (b.drop 512).length then
          (read fuel (b.drop (512 + (size + padding size)))).map fun files =>
            (name, (b.drop 512).take size) :: files
        else none

theorem length_header {a : Attributes} {name h : Bytes} {size : Nat}
    (hheader : header a name size = some h) : h.length = 512 := by
  simp only [header, Option.ite_none_right_eq_some, Option.some.injEq] at hheader
  obtain ⟨hfits, rfl⟩ := hheader
  simp only [fits, Bool.and_eq_true, decide_eq_true_eq] at hfits
  simp only [beforeSum, afterSum, List.length_append, length_octal, zeros, List.length_replicate,
    List.length_cons, List.length_nil]
  omega

theorem readOctal_field {width n : Nat} (h : n < 8 ^ width) :
    readOctal (octal width n ++ [0]).dropLast = n := by
  rw [List.dropLast_concat, readOctal_octal h]

theorem length_field (width n : Nat) : (octal width n ++ [0]).length = width + 1 := by
  rw [List.length_append, length_octal, List.length_singleton]

/-- A name without zeros is what stands before the zeros of its field. -/
theorem takeWhile_name {name : Bytes} (h : (0 : UInt8) ∉ name) (n : Nat) :
    (name ++ zeros n).takeWhile (fun c => decide (c ≠ 0)) = name := by
  rw [List.takeWhile_append_of_pos]
  · cases n with
    | zero => simp [zeros]
    | succ n => simp [zeros, List.replicate_succ]
  · intro c hc
    simp only [decide_eq_true_eq]
    rintro rfl
    exact h hc

theorem readHeader_header {a : Attributes} {name h : Bytes} {size : Nat}
    (hheader : header a name size = some h) (rest : Bytes) :
    readHeader (h ++ rest) = (a, name, size) := by
  simp only [header, Option.ite_none_right_eq_some, Option.some.injEq] at hheader
  obtain ⟨hfits, rfl⟩ := hheader
  simp only [fits, Bool.and_eq_true, decide_eq_true_eq, Bool.not_eq_true',
    List.contains_eq_mem, decide_eq_false_iff_not] at hfits
  obtain ⟨⟨⟨⟨⟨⟨⟨-, hlength⟩, hzero⟩, hmode⟩, huid⟩, hgid⟩, hsize⟩, htime⟩ := hfits
  have hname : (name ++ zeros (100 - name.length)).length = 100 := by
    rw [List.length_append, zeros, List.length_replicate]
    omega
  generalize htail : octal 6 (checkSum a name size) ++ [0, 0x20] ++ afterSum ++ rest = tail
  have hshape : beforeSum a name size ++ (octal 6 (checkSum a name size) ++ [0, 0x20]) ++
      afterSum ++ rest = (name ++ zeros (100 - name.length)) ++ ((octal 7 a.mode ++ [0]) ++
        ((octal 7 a.uid ++ [0]) ++ ((octal 7 a.gid ++ [0]) ++ ((octal 11 size ++ [0]) ++
          ((octal 11 a.modTime ++ [0]) ++ tail))))) := by
    rw [← htail]
    simp [beforeSum]
  have hseven (n : Nat) : (octal 7 n ++ [0]).length = 8 := length_field 7 n
  have heleven (n : Nat) : (octal 11 n ++ [0]).length = 12 := length_field 11 n
  rw [hshape]
  simp only [readHeader, List.take_left' hname, List.drop_left' hname, List.take_left' (hseven _),
    List.drop_left' (hseven _), List.take_left' (heleven _), List.drop_left' (heleven _),
    readOctal_field hmode, readOctal_field huid, readOctal_field hgid, readOctal_field hsize,
    readOctal_field htime, takeWhile_name hzero]

/-- The blocks of a file. -/
def entry (h contents : Bytes) : Bytes := h ++ contents ++ zeros (padding contents.length)

theorem read_zeros (fuel : Nat) : read (fuel + 1) (zeros 1024) = some [] := by
  rw [read, if_pos (List.take_of_length_le
    (by simp only [zeros, List.length_replicate, Nat.le_refl]))]

theorem read_entry {a : Attributes} {name h contents rest : Bytes} {fuel : Nat}
    {files : List (Bytes × Bytes)} (hheader : header a name contents.length = some h)
    (hrest : read fuel rest = some files) :
    read (fuel + 1) (entry h contents ++ rest) = some ((name, contents) :: files) := by
  have hlength := length_header hheader
  have hfirst : (entry h contents ++ rest).take 1024 ≠ zeros 1024 := by
    intro hzeros
    have hhead : ((entry h contents ++ rest).take 1024).head? = (zeros 1024).head? := by
      rw [hzeros]
    rw [List.head?_take, if_neg (by decide), zeros, List.head?_replicate,
      if_neg (by decide)] at hhead
    simp only [header, Option.ite_none_right_eq_some, Option.some.injEq] at hheader
    obtain ⟨hfits, rfl⟩ := hheader
    simp only [fits, Bool.and_eq_true, decide_eq_true_eq, Bool.not_eq_true',
      List.contains_eq_mem, decide_eq_false_iff_not] at hfits
    obtain ⟨⟨⟨⟨⟨⟨⟨hne, -⟩, hzero⟩, -⟩, -⟩, -⟩, -⟩, -⟩ := hfits
    cases name with
    | nil => exact hne rfl
    | cons c name =>
        simp only [entry, beforeSum, List.cons_append, List.head?_cons, Option.some.injEq] at hhead
        exact hzero (hhead ▸ List.mem_cons_self)
  have hshape : entry h contents ++ rest =
      h ++ (contents ++ (zeros (padding contents.length) ++ rest)) := by
    simp [entry]
  have hentry : (entry h contents).length = 512 + (contents.length + padding contents.length) := by
    rw [entry, List.length_append, List.length_append, hlength, zeros, List.length_replicate,
      Nat.add_assoc]
  have hdrop : (entry h contents ++ rest).drop
      (512 + (contents.length + padding contents.length)) = rest := List.drop_left' hentry
  rw [read, if_neg hfirst]
  rw [hshape] at hdrop ⊢
  rw [readHeader_header hheader]
  simp only [List.take_left' hlength, List.drop_left' hlength, hdrop, hrest, List.take_left]
  rw [if_pos ⟨hheader, by simp⟩]
  rfl

end NodeScope.Lib.Ustar
