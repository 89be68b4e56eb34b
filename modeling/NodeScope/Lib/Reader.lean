import Mathlib.Data.List.Basic

/-!
# Readers

A source of bytes that arrives in pieces and ends with the end of the file or with an error.
`reads n` is what successive calls of `Read` with a buffer of `n` bytes return.
-/

namespace NodeScope.Lib.Reader

/-- How a source ends. -/
inductive Ending where
  | eof
  | failed
deriving DecidableEq

structure Source where
  pieces : List (List UInt8)
  ending : Ending
deriving DecidableEq

def Source.content (s : Source) : List UInt8 := s.pieces.flatten

/-- A piece as it is read through a buffer of `n` bytes. -/
def cut (n : Nat) : Nat → List UInt8 → List (List UInt8)
  | 0, piece => [piece]
  | fuel + 1, piece =>
      if n < piece.length then piece.take n :: cut n fuel (piece.drop n) else [piece]

def Source.reads (s : Source) (n : Nat) : List (List UInt8) :=
  s.pieces.flatMap fun piece => cut n piece.length piece

/-- Go's `io.ReadAll`: the bytes up to the end, and whether that was the end of the file. -/
def Source.readAll (s : Source) : List UInt8 × Ending := (s.content, s.ending)

/-- Go's `io.ReadAll` of an `io.LimitReader`, which ends after `limit` bytes. -/
def Source.readLimited (s : Source) (limit : Nat) : List UInt8 × Ending :=
  if limit ≤ s.content.length then (s.content.take limit, .eof) else s.readAll

/-- Go's `io.ReadAll` of an `http.MaxBytesReader`, which fails beyond `limit` bytes. -/
def Source.readMax (s : Source) (limit : Nat) : Option (List UInt8) :=
  if s.content.length ≤ limit && s.ending == .eof then some s.content else none

theorem flatten_cut (n fuel : Nat) (piece : List UInt8) : (cut n fuel piece).flatten = piece := by
  induction fuel generalizing piece with
  | zero => simp [cut]
  | succ fuel ih =>
      rw [cut]
      split
      · rw [List.flatten_cons, ih, List.take_append_drop]
      · simp

/-- Nothing is lost or repeated, however small the buffer. -/
theorem Source.flatten_reads (s : Source) (n : Nat) : (s.reads n).flatten = s.content := by
  rw [Source.reads, Source.content]
  induction s.pieces with
  | nil => rfl
  | cons piece rest ih =>
      rw [List.flatMap_cons, List.flatten_append, flatten_cut, ih, List.flatten_cons]

end NodeScope.Lib.Reader
