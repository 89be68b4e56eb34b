import Mathlib.Data.List.Basic
import Mathlib.Order.Nat

/-!
# Writing to a sink that may fail

A sink takes one chunk after the other; each write may be cut short, and a cut write is reported.
A writer that stops at the first failure leaves a part of its output from the start: all of it
when every write fits, and less than all of it otherwise.
-/

namespace NodeScope.Lib.Sink

variable {α : Type}

/-- What was written, and in how many writes. -/
structure File (α : Type) where
  contents : List α
  writes : Nat

def empty : File α := ⟨[], 0⟩

/-- A sink says of each write how much it takes at most. -/
abbrev Limits := Nat → Option Nat

/-- The write of this number takes the whole chunk. -/
def fits (limits : Limits) (write : Nat) (chunk : List α) : Bool :=
  match limits write with
  | none => true
  | some n => chunk.length ≤ n

/-- Write a chunk, or as much of it as is taken, and say whether that was all. -/
def write (limits : Limits) (s : File α) (chunk : List α) : File α × Bool :=
  match limits s.writes with
  | none => (⟨s.contents ++ chunk, s.writes + 1⟩, true)
  | some n => (⟨s.contents ++ chunk.take n, s.writes + 1⟩, chunk.length ≤ n)

/-- Write the chunks in order up to the first that is cut short. -/
def writeAll (limits : Limits) (s : File α) : List (List α) → File α × Bool
  | [] => (s, true)
  | chunk :: rest =>
      let (s', ok) := write limits s chunk
      if ok then writeAll limits s' rest else (s', false)

/-- All the chunks fit, when the first is written with this number. -/
def AllFit (limits : Limits) : Nat → List (List α) → Prop
  | _, [] => True
  | write, chunk :: rest => fits limits write chunk = true ∧ AllFit limits (write + 1) rest

instance decidableAllFit (limits : Limits) :
    ∀ (write : Nat) (chunks : List (List α)), Decidable (AllFit limits write chunks)
  | _, [] => .isTrue trivial
  | write, chunk :: rest =>
      have : Decidable (AllFit limits (write + 1) rest) := decidableAllFit limits (write + 1) rest
      inferInstanceAs (Decidable (fits limits write chunk = true ∧ AllFit limits (write + 1) rest))

theorem write_of_fits {limits : Limits} {s : File α} {chunk : List α}
    (h : fits limits s.writes chunk = true) :
    write limits s chunk = (⟨s.contents ++ chunk, s.writes + 1⟩, true) := by
  rw [fits] at h
  rw [write]
  cases hlimit : limits s.writes with
  | none => rfl
  | some n =>
      rw [hlimit] at h
      simp only [decide_eq_true_eq] at h
      simp [List.take_of_length_le h, h]

/-- A write that is cut short leaves less than the chunk. -/
theorem write_of_not_fits {limits : Limits} {s : File α} {chunk : List α}
    (h : fits limits s.writes chunk = false) :
    ∃ n, n < chunk.length ∧
      write limits s chunk = (⟨s.contents ++ chunk.take n, s.writes + 1⟩, false) := by
  rw [fits] at h
  rw [write]
  cases hlimit : limits s.writes with
  | none => simp [hlimit] at h
  | some n =>
      rw [hlimit] at h
      simp only [decide_eq_false_iff_not, not_le] at h
      exact ⟨n, h, by simp [h]⟩

theorem writeAll_of_allFit {limits : Limits} {s : File α} {chunks : List (List α)}
    (h : AllFit limits s.writes chunks) :
    writeAll limits s chunks =
      (⟨s.contents ++ chunks.flatten, s.writes + chunks.length⟩, true) := by
  induction chunks generalizing s with
  | nil => simp [writeAll]
  | cons chunk rest ih =>
      obtain ⟨hfits, hrest⟩ := h
      rw [writeAll, write_of_fits hfits]
      simp only [if_true]
      rw [ih hrest]
      simp only [List.append_assoc, List.flatten_cons, List.length_cons]
      rw [Nat.add_right_comm, Nat.add_assoc]

/-- The writer has stopped before the end of its output. -/
theorem writeAll_of_not_allFit {limits : Limits} {s : File α} {chunks : List (List α)}
    (h : ¬ AllFit limits s.writes chunks) :
    ∃ n, n < chunks.flatten.length ∧
      (writeAll limits s chunks).1.contents = s.contents ++ chunks.flatten.take n ∧
      (writeAll limits s chunks).2 = false := by
  induction chunks generalizing s with
  | nil => exact absurd trivial h
  | cons chunk rest ih =>
      rw [List.flatten_cons, List.length_append]
      cases hfits : fits limits s.writes chunk with
      | false =>
          obtain ⟨n, hn, hwrite⟩ := write_of_not_fits hfits
          refine ⟨n, by omega, ?_, ?_⟩
          · rw [writeAll, hwrite, List.take_append_of_le_length hn.le]
            rfl
          · rw [writeAll, hwrite]
            rfl
      | true =>
          have hrest : ¬ AllFit limits (s.writes + 1) rest := fun hrest => h ⟨hfits, hrest⟩
          obtain ⟨n, hn, hcontents, hfails⟩ := ih (s := ⟨s.contents ++ chunk, s.writes + 1⟩) hrest
          refine ⟨chunk.length + n, by omega, ?_, ?_⟩
          · rw [writeAll, write_of_fits hfits, List.take_length_add_append]
            simpa using hcontents
          · rw [writeAll, write_of_fits hfits]
            simpa using hfails

theorem writeAll_eq_true_iff {limits : Limits} {s : File α} {chunks : List (List α)} :
    (writeAll limits s chunks).2 = true ↔ AllFit limits s.writes chunks := by
  constructor
  · intro hok
    by_contra hnot
    obtain ⟨-, -, -, hfails⟩ := writeAll_of_not_allFit hnot
    rw [hok] at hfails
    cases hfails
  · intro hfit
    rw [writeAll_of_allFit hfit]

theorem allFit_append {limits : Limits} {write : Nat} {before after : List (List α)} :
    AllFit limits write (before ++ after) ↔
      AllFit limits write before ∧ AllFit limits (write + before.length) after := by
  induction before generalizing write with
  | nil => simp [AllFit]
  | cons chunk rest ih =>
      rw [List.cons_append, AllFit, ih, AllFit, and_assoc, List.length_cons, Nat.add_assoc,
        Nat.add_comm 1]

/-- A sink that cuts no write takes everything. -/
theorem allFit_unlimited (write : Nat) (chunks : List (List α)) :
    AllFit (fun _ => none) write chunks := by
  induction chunks generalizing write with
  | nil => trivial
  | cons chunk rest ih => exact ⟨rfl, ih (write + 1)⟩

end NodeScope.Lib.Sink
