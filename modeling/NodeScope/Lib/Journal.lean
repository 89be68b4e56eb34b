import Mathlib.Data.List.Basic
import Mathlib.Data.List.Forall2

/-!
# Journals

A machine that answers every input may write entries to a log. A ledger says how its log is read:
which part of a state the log accounts for, and what an entry does to that part. Where every step
writes what it does, the log of a run says what the run did, entry by entry and in order.
-/

namespace NodeScope.Lib.Journal

section Answers

variable {S A O : Type}

/-- The answers to some inputs, and the state after them. -/
def answers (step : S → A → O × S) : S → List A → List O × S
  | s, [] => ([], s)
  | s, a :: rest =>
      let (o, s₁) := step s a
      let (os, s') := answers step s₁ rest
      (o :: os, s')

variable {step : S → A → O × S} {s : S}

@[simp] theorem answers_nil : answers step s [] = ([], s) := rfl

@[simp] theorem answers_cons (a : A) (rest : List A) :
    answers step s (a :: rest) =
      ((step s a).1 :: (answers step (step s a).2 rest).1,
        (answers step (step s a).2 rest).2) := rfl

/-- Entries that every step relates its two states by, and that add up, relate the states of a run.
The condition `P` is one on the past of a state that has it. -/
theorem collects_answers {E : Type} {P : S → Prop} {Q : A × O → List E → Prop}
    {R : S → List E → S → Prop} (hrefl : ∀ s, R s [] s)
    (htrans : ∀ s s₁ s' entries later, R s entries s₁ → R s₁ later s' → R s (entries ++ later) s')
    (hstep : ∀ s a, P (step s a).2 →
      P s ∧ ∃ entries, Q (a, (step s a).1) entries ∧ R s entries (step s a).2)
    (inputs : List A) (hlast : P (answers step s inputs).2) :
    P s ∧ ∃ parts, List.Forall₂ Q (inputs.zip (answers step s inputs).1) parts ∧
      R s parts.flatten (answers step s inputs).2 := by
  induction inputs generalizing s with
  | nil => exact ⟨hlast, [], List.Forall₂.nil, hrefl s⟩
  | cons a rest ih =>
      obtain ⟨hnext, parts, hparts, hrest⟩ := ih hlast
      obtain ⟨hpast, entries, hrecords, hfirst⟩ := hstep s a hnext
      refine ⟨hpast, entries :: parts, ?_, ?_⟩
      · exact List.Forall₂.cons hrecords hparts
      · exact htrans _ _ _ _ _ hfirst hrest

theorem related_answers {E : Type} {R : S → List E → S → Prop} (hrefl : ∀ s, R s [] s)
    (htrans : ∀ s s₁ s' entries later, R s entries s₁ → R s₁ later s' → R s (entries ++ later) s')
    (hstep : ∀ s a, ∃ entries, R s entries (step s a).2) (inputs : List A) :
    ∃ entries, R s entries (answers step s inputs).2 := by
  have hany (s : S) (a : A) : True → True ∧ ∃ entries, True ∧ R s entries (step s a).2 := by
    intro _
    obtain ⟨entries, hentries⟩ := hstep s a
    exact ⟨trivial, entries, trivial, hentries⟩
  obtain ⟨-, parts, -, hrun⟩ := collects_answers (P := fun _ => True) (Q := fun _ _ => True)
    hrefl htrans hany inputs trivial
  exact ⟨parts.flatten, hrun⟩

end Answers

/-- The log of a state, the part of the state that the log accounts for, and what an entry does to
that part. -/
structure Ledger (S V E : Type) where
  log : S → List E
  view : S → V
  apply : V → E → V

namespace Ledger

variable {S V E : Type} (j : Ledger S V E)

/-- The later state has some more entries, which lead to its view from that of the earlier one. -/
structure Grows (s : S) (entries : List E) (s' : S) : Prop where
  log : j.log s' = j.log s ++ entries
  view : j.view s' = entries.foldl j.apply (j.view s)

variable {j} {s s₁ s' : S} {entries later : List E}

theorem Grows.refl (s : S) : j.Grows s [] s := ⟨(List.append_nil _).symm, rfl⟩

/-- A step that neither logs nor changes what the log accounts for. -/
theorem Grows.of_eq (hlog : j.log s' = j.log s) (hview : j.view s' = j.view s) :
    j.Grows s [] s' :=
  ⟨hlog.trans (List.append_nil _).symm, hview⟩

theorem Grows.trans (h : j.Grows s entries s₁) (h' : j.Grows s₁ later s') :
    j.Grows s (entries ++ later) s' where
  log := by rw [h'.log, h.log, List.append_assoc]
  view := by rw [h'.view, h.view, List.foldl_append]

variable {A O : Type} {step : S → A → O × S}

/-- Where every step writes what it does, with entries that its input and its answer ask for, so
does a run. -/
theorem grows_answers {P : S → Prop} {Q : A × O → List E → Prop}
    (hstep : ∀ s a, P (step s a).2 →
      P s ∧ ∃ entries, Q (a, (step s a).1) entries ∧ j.Grows s entries (step s a).2)
    (inputs : List A) (hlast : P (answers step s inputs).2) :
    ∃ parts, List.Forall₂ Q (inputs.zip (answers step s inputs).1) parts ∧
      j.Grows s parts.flatten (answers step s inputs).2 :=
  (collects_answers Grows.refl (fun _ _ _ _ _ => Grows.trans) hstep inputs hlast).2

end Ledger

end NodeScope.Lib.Journal
