import Mathlib.Logic.Function.Basic
import NodeScope.Lib.Check

/-!
# Activation of a staged binary

`Activate` keeps the active binary under the path with the suffix `.previous`, moves the staged
one into its place and moves the kept one back when that fails; `Rollback` moves the active binary
aside and the kept one back. Both go through two renames, between which the active path holds
nothing. `activation_atomic_iff` says for which file systems and failures a call is atomic all the
same.

## Implementation notes

A file system gives what a path holds. The fields of a failure record say which of the operations
fail for a reason outside the modelled paths; an operation that fails changes nothing. Directories
are not modelled, so that `MkdirAll` either fails or does nothing.
-/

namespace NodeScope.Update

open Lib Lib.Check

/-- What a path holds, with the parts of its mode that are looked at. -/
structure Binary where
  content : List UInt8
  regular : Bool
  executable : Bool
deriving DecidableEq

abbrev Files : Type := String → Option Binary

/-- The file system and the states it has gone through. -/
structure Trace where
  earlier : List Files
  files : Files

namespace Trace

def start (files : Files) : Trace := ⟨[], files⟩

def push (t : Trace) (files : Files) : Trace := ⟨t.earlier ++ [t.files], files⟩

/-- Every state a process that stops can leave. -/
def states (t : Trace) : List Files := t.earlier ++ [t.files]

/-- `os.Remove` with its error ignored. -/
def remove (fails : Bool) (path : String) (t : Trace) : Trace :=
  if fails || (t.files path).isNone then t else t.push (Function.update t.files path none)

/-- `os.Rename`; no trace is an error. -/
def rename (fails : Bool) (source target : String) (t : Trace) : Option Trace :=
  match t.files source with
  | none => none
  | some entry =>
      if fails then none
      else some (t.push (Function.update (Function.update t.files source none) target (some entry)))

end Trace

/-- `os.Stat` with an error for a path that holds nothing. -/
def stat (fails : Bool) (files : Files) (path : String) : Option Binary :=
  if fails then none else files path

def previousPath (active : String) : String := active ++ ".previous"

def failedPath (active : String) : String := active ++ ".failed"

inductive UpdateError where
  | inspectStaged
  | notExecutable
  | makeDirectory
  | preservePrevious
  | activateStaged
  | previousUnavailable
  | preserveFailed
  | restorePrevious
deriving DecidableEq

structure Activation where
  previousBinary : String
  activeBinary : String
deriving DecidableEq

structure ActivateFailures where
  statStaged : Bool
  mkdirAll : Bool
  statActive : Bool
  removePrevious : Bool
  preserve : Bool
  activate : Bool
  statPrevious : Bool
  restore : Bool
deriving DecidableEq

/-- The part of `Activate` after the active binary was preserved. -/
def activateStaged (f : ActivateFailures) (staged active : String) (t : Trace) :
    Except UpdateError Activation × Trace :=
  match t.rename f.activate staged active with
  | some t' => (.ok ⟨previousPath active, active⟩, t')
  | none =>
      (.error .activateStaged,
        match stat f.statPrevious t.files (previousPath active) with
        | some _ => (t.rename f.restore (previousPath active) active).getD t
        | none => t)

def activate (f : ActivateFailures) (staged active : String) (files : Files) :
    Except UpdateError Activation × Trace :=
  match stat f.statStaged files staged with
  | none => (.error .inspectStaged, .start files)
  | some info =>
      if !info.regular || !info.executable then (.error .notExecutable, .start files)
      else if f.mkdirAll then (.error .makeDirectory, .start files)
      else
        match stat f.statActive files active with
        | none => activateStaged f staged active (.start files)
        | some _ =>
            let removed := (Trace.start files).remove f.removePrevious (previousPath active)
            match removed.rename f.preserve active (previousPath active) with
            | none => (.error .preservePrevious, removed)
            | some preserved => activateStaged f staged active preserved

structure RollbackFailures where
  statPrevious : Bool
  removeFailed : Bool
  preserve : Bool
  restore : Bool
deriving DecidableEq

/-- The part of `Rollback` after the active binary was moved aside. -/
def restorePrevious (f : RollbackFailures) (active : String) (t : Trace) :
    Except UpdateError Unit × Trace :=
  match t.rename f.restore (previousPath active) active with
  | none => (.error .restorePrevious, t)
  | some restored => (.ok (), restored)

def rollback (f : RollbackFailures) (active : String) (files : Files) :
    Except UpdateError Unit × Trace :=
  match stat f.statPrevious files (previousPath active) with
  | none => (.error .previousUnavailable, .start files)
  | some _ =>
      let removed := (Trace.start files).remove f.removeFailed (failedPath active)
      match removed.rename f.preserve active (failedPath active) with
      | none => (.error .preserveFailed, removed)
      | some preserved => restorePrevious f active preserved

section Statements

/-- A call is atomic: an active path that held a binary holds that one or the new one at every
step, and after an error the active and the previous path hold what they held. -/
structure Atomic {α : Type} (files : Files) (active : String) (new : Option Binary)
    (result : Except UpdateError α × Trace) : Prop where
  steps : (files active).isSome = true →
    ∀ state ∈ result.2.states, state active = files active ∨ state active = new
  unchanged : result.1.isOk = false →
    result.2.files active = files active ∧
      result.2.files (previousPath active) = files (previousPath active)

/-- The checks of `Activate` pass. -/
def ready (f : ActivateFailures) (staged : String) (files : Files) : Bool :=
  ((stat f.statStaged files staged).any fun info => info.regular && info.executable) && !f.mkdirAll

/-- `Activate` finds an active binary to preserve. -/
def found (f : ActivateFailures) (active : String) (files : Files) : Bool :=
  (stat f.statActive files active).isSome

/-- The active binary cannot be moved and the previous one is not lost; or, where no active binary
is found, the staged one is moved or the previous one is not moved back. -/
def ActivateKeeps (f : ActivateFailures) (staged active : String) (files : Files) : Prop :=
  ready f staged files = true →
    if found f active files then
      f.preserve = true ∧ (f.removePrevious = true ∨ files (previousPath active) = none)
    else
      f.activate = false ∨ stat f.statPrevious files (previousPath active) = none ∨
        f.restore = true

/-- Whenever there is something to roll back to, the active binary cannot be moved. -/
def RollbackKeeps (f : RollbackFailures) (active : String) (files : Files) : Prop :=
  (stat f.statPrevious files (previousPath active)).isSome = true →
    (files active).isSome = true → f.preserve = true

end Statements

section Paths

theorem previousPath_ne (active : String) : previousPath active ≠ active := by
  intro h
  have hlength := congrArg String.length h
  simp [previousPath, String.length_append] at hlength

theorem failedPath_ne (active : String) : failedPath active ≠ active := by
  intro h
  have hlength := congrArg String.length h
  simp [failedPath, String.length_append] at hlength

theorem failedPath_ne_previousPath (active : String) :
    failedPath active ≠ previousPath active := by
  intro h
  have hlength := congrArg String.length h
  simp only [failedPath, previousPath, String.length_append, Nat.add_left_cancel_iff] at hlength
  exact absurd hlength (by decide)

end Paths

namespace Trace

variable {fails : Bool} {source target : String} {t t' : Trace}

theorem rename_eq_none : t.rename fails source target = none ↔
    t.files source = none ∨ fails = true := by
  rw [rename]
  cases t.files source <;> simp

theorem rename_eq_some : t.rename fails source target = some t' ↔
    fails = false ∧ ∃ entry, t.files source = some entry ∧
      t' = t.push (Function.update (Function.update t.files source none) target (some entry)) := by
  rw [rename]
  cases t.files source <;> cases fails <;> simp [eq_comm]

theorem files_start (files : Files) : (start files).files = files := rfl

theorem files_push (t : Trace) (files : Files) : (t.push files).files = files := rfl

theorem states_push (t : Trace) (files : Files) : (t.push files).states = t.states ++ [files] := rfl

theorem files_mem_states (t : Trace) : t.files ∈ t.states :=
  List.mem_append_right _ List.mem_cons_self

/-- A removal changes nothing but the path. -/
theorem remove_files_of_ne (fails : Bool) {path other : String} (h : other ≠ path) (t : Trace) :
    (t.remove fails path).files other = t.files other := by
  rw [remove]
  split
  · rfl
  · exact Function.update_of_ne h _ _

theorem remove_files_self (fails : Bool) (path : String) (t : Trace) :
    (t.remove fails path).files path = if fails then t.files path else none := by
  rw [remove]
  cases fails with
  | true => rfl
  | false =>
      cases hpath : t.files path with
      | none => simp [hpath]
      | some entry => simp [push]

theorem remove_states {fails : Bool} {path other : String} (h : other ≠ path) {files : Files} :
    ∀ state ∈ ((start files).remove fails path).states, state other = files other := by
  intro state hstate
  rw [remove] at hstate
  split at hstate
  · rw [List.mem_singleton.mp hstate]
    rfl
  · rw [states_push] at hstate
    rcases List.mem_append.mp hstate with hstate | hstate
    · rw [List.mem_singleton.mp hstate]
      rfl
    · rw [List.mem_singleton.mp hstate]
      exact Function.update_of_ne h _ _

end Trace

section Activate

variable {f : ActivateFailures} {staged active : String} {files : Files}

theorem activate_of_not_ready (h : ready f staged files = false) :
    ∃ e, activate f staged active files = (.error e, .start files) := by
  rw [ready] at h
  rw [activate]
  cases hstaged : stat f.statStaged files staged with
  | none => exact ⟨_, rfl⟩
  | some info =>
      rw [hstaged, Option.any_some] at h
      simp only [← Bool.not_and]
      cases hmode : info.regular && info.executable with
      | false => exact ⟨_, rfl⟩
      | true =>
          rw [hmode, Bool.true_and, Bool.not_eq_false'] at h
          rw [h]
          exact ⟨_, rfl⟩

/-- Once the checks have passed, the call goes on from the state in which the active binary, if it
was found, is preserved. -/
theorem activate_of_ready (h : ready f staged files = true) :
    activate f staged active files =
      if found f active files then
        match ((Trace.start files).remove f.removePrevious (previousPath active)).rename f.preserve
          active (previousPath active) with
        | none => (.error .preservePrevious,
            (Trace.start files).remove f.removePrevious (previousPath active))
        | some preserved => activateStaged f staged active preserved
      else activateStaged f staged active (.start files) := by
  rw [ready, Bool.and_eq_true, Bool.not_eq_true'] at h
  obtain ⟨hstaged, hdir⟩ := h
  obtain ⟨info, hinfo, hmode⟩ := (Option.any_eq_true _ _).mp hstaged
  rw [activate, hinfo, found]
  simp only [← Bool.not_and, hmode, hdir]
  cases stat f.statActive files active <;> rfl

theorem stat_eq_some {fails : Bool} {path : String} {entry : Binary} :
    stat fails files path = some entry ↔ fails = false ∧ files path = some entry := by
  cases fails <;> simp [stat]

theorem staged_of_ready (h : ready f staged files = true) : ∃ new, files staged = some new := by
  rw [ready, Bool.and_eq_true] at h
  obtain ⟨info, hinfo, -⟩ := (Option.any_eq_true _ _).mp h.1
  exact ⟨info, (stat_eq_some.mp hinfo).2⟩

theorem active_of_found (h : found f active files = true) : ∃ old, files active = some old := by
  obtain ⟨old, hold⟩ := Option.isSome_iff_exists.mp h
  exact ⟨old, (stat_eq_some.mp hold).2⟩

/-- A call that changes nothing is atomic. -/
theorem atomic_start {α : Type} {new : Option Binary} (result : Except UpdateError α) :
    Atomic files active new (result, .start files) where
  steps _ state hstate := by
    rw [List.mem_singleton.mp hstate]
    exact Or.inl rfl
  unchanged _ := ⟨rfl, rfl⟩

/-- A call that has moved an active binary aside is not atomic. -/
theorem not_atomic_of_absent {α : Type} {new : Option Binary}
    {result : Except UpdateError α × Trace} {old entry : Binary} (hold : files active = some old)
    (hnew : new = some entry) {state : Files} (hstate : state ∈ result.2.states)
    (habsent : state active = none) : ¬ Atomic files active new result := by
  intro hatomic
  rcases hatomic.steps (by rw [hold]; rfl) state hstate with h | h
  · rw [habsent, hold] at h
    cases h
  · rw [habsent, hnew] at h
    cases h

/-- The part after the preservation only adds states. -/
theorem states_activateStaged {t : Trace} {state : Files} (h : state ∈ t.states) :
    state ∈ (activateStaged f staged active t).2.states := by
  rw [activateStaged]
  split
  · next t' hrename =>
      obtain ⟨-, entry, -, rfl⟩ := Trace.rename_eq_some.mp hrename
      exact List.mem_append_left _ h
  · split
    · cases hrestore : t.rename f.restore (previousPath active) active with
      | none => exact h
      | some t' =>
          obtain ⟨-, entry, -, rfl⟩ := Trace.rename_eq_some.mp hrestore
          exact List.mem_append_left _ h
    · exact h

/-- Where the active binary is found, the call is atomic if it cannot be moved and the previous one
is not lost. -/
theorem atomic_found_iff (hready : ready f staged files = true)
    (hfound : found f active files = true) :
    Atomic files active (files staged) (activate f staged active files) ↔
      f.preserve = true ∧ (f.removePrevious = true ∨ files (previousPath active) = none) := by
  obtain ⟨old, hold⟩ := active_of_found hfound
  obtain ⟨new, hnew⟩ := staged_of_ready hready
  have hne := previousPath_ne active
  have hkept := Trace.remove_files_of_ne f.removePrevious hne.symm (Trace.start files)
  rw [activate_of_ready hready, if_pos hfound]
  cases hrename : ((Trace.start files).remove f.removePrevious (previousPath active)).rename
      f.preserve active (previousPath active) with
  | none =>
      have hpreserve : f.preserve = true := by
        rcases Trace.rename_eq_none.mp hrename with h | h
        · rw [hkept] at h
          cases h.symm.trans hold
        · exact h
      have hprevious := Trace.remove_files_self f.removePrevious (previousPath active)
        (Trace.start files)
      rw [hpreserve]
      simp only [true_and]
      constructor
      · intro hatomic
        have hlost := (hatomic.unchanged rfl).2
        rw [hprevious] at hlost
        cases hremove : f.removePrevious with
        | true => exact Or.inl rfl
        | false =>
            rw [hremove] at hlost
            exact Or.inr hlost.symm
      · intro hleft
        constructor
        · intro _ state hstate
          exact Or.inl (Trace.remove_states hne.symm state hstate)
        · intro _
          refine ⟨hkept, hprevious.trans ?_⟩
          rcases hleft with hremove | hnone
          · rw [hremove]
            rfl
          · change (if _ then files (previousPath active) else none) = _
            rw [hnone, ite_self]
  | some preserved =>
      obtain ⟨hpreserve, entry, -, rfl⟩ := Trace.rename_eq_some.mp hrename
      rw [hpreserve]
      simp only [Bool.false_eq_true, false_and, iff_false]
      refine not_atomic_of_absent hold hnew (states_activateStaged (Trace.files_mem_states _)) ?_
      simp [Trace.push, hne.symm]

/-- Where no active binary is found, the call is atomic unless it moves the previous binary over
the active one. -/
theorem atomic_not_found_iff (hready : ready f staged files = true)
    (hfound : found f active files = false) :
    Atomic files active (files staged) (activate f staged active files) ↔
      f.activate = false ∨ stat f.statPrevious files (previousPath active) = none ∨
        f.restore = true := by
  obtain ⟨new, hnew⟩ := staged_of_ready hready
  have hne := previousPath_ne active
  rw [activate_of_ready hready, hfound, if_neg Bool.false_ne_true, activateStaged]
  cases hrename : (Trace.start files).rename f.activate staged active with
  | some t' =>
      obtain ⟨hactivate, entry, hentry, rfl⟩ := Trace.rename_eq_some.mp hrename
      simp only [hactivate, true_or, iff_true]
      constructor
      · intro _ state hstate
        rw [Trace.states_push] at hstate
        rcases List.mem_append.mp hstate with hstate | hstate
        · rw [List.mem_singleton.mp hstate]
          exact Or.inl rfl
        · rw [List.mem_singleton.mp hstate, Function.update_self]
          exact Or.inr hentry.symm
      · intro herror
        cases herror
  | none =>
      have hactivate : f.activate = true := by
        rcases Trace.rename_eq_none.mp hrename with h | h
        · cases h.symm.trans hnew
        · exact h
      simp only [hactivate, Bool.true_eq_false, false_or]
      rw [Trace.files_start]
      cases hprevious : stat f.statPrevious files (previousPath active) with
      | none => exact iff_of_true (atomic_start _) (Or.inl rfl)
      | some entry =>
          have hentry := (stat_eq_some.mp hprevious).2
          simp only [reduceCtorEq, false_or]
          cases hrestore : (Trace.start files).rename f.restore (previousPath active) active with
          | none =>
              have hfault : f.restore = true := by
                rcases Trace.rename_eq_none.mp hrestore with h | h
                · cases h.symm.trans hentry
                · exact h
              exact iff_of_true (atomic_start _) hfault
          | some t' =>
              obtain ⟨hfault, moved, -, rfl⟩ := Trace.rename_eq_some.mp hrestore
              rw [hfault]
              refine iff_of_false (fun hatomic => ?_) Bool.false_ne_true
              have hlost := (hatomic.unchanged rfl).2
              rw [hentry] at hlost
              simp [Trace.push, hne] at hlost

theorem activate_atomic_iff (f : ActivateFailures) (staged active : String) (files : Files) :
    Atomic files active (files staged) (activate f staged active files) ↔
      ActivateKeeps f staged active files := by
  rw [ActivateKeeps]
  cases hready : ready f staged files with
  | false =>
      obtain ⟨e, he⟩ : ∃ e, activate f staged active files = (.error e, .start files) :=
        activate_of_not_ready hready
      rw [he]
      exact iff_of_true (atomic_start _) (fun h => absurd h Bool.false_ne_true)
  | true =>
      rw [forall_prop_of_true rfl]
      cases hfound : found f active files with
      | true =>
          rw [if_pos rfl]
          exact atomic_found_iff hready hfound
      | false =>
          rw [if_neg Bool.false_ne_true]
          exact atomic_not_found_iff hready hfound

end Activate

section Rollback

variable {f : RollbackFailures} {active : String} {files : Files}

/-- The part after the active binary was moved aside only adds a state. -/
theorem states_restorePrevious {t : Trace} {state : Files} (h : state ∈ t.states) :
    state ∈ (restorePrevious f active t).2.states := by
  rw [restorePrevious]
  split
  · exact h
  · next restored hrestore =>
      obtain ⟨-, entry, -, rfl⟩ := Trace.rename_eq_some.mp hrestore
      exact List.mem_append_left _ h

theorem rollback_atomic_iff (f : RollbackFailures) (active : String) (files : Files) :
    Atomic files active (files (previousPath active)) (rollback f active files) ↔
      RollbackKeeps f active files := by
  have hne := failedPath_ne active
  have hkept : ((Trace.start files).remove f.removeFailed (failedPath active)).files active =
      files active :=
    Trace.remove_files_of_ne f.removeFailed hne.symm (Trace.start files)
  rw [RollbackKeeps]
  cases hprevious : stat f.statPrevious files (previousPath active) with
  | none =>
      have hrollback : rollback f active files = (.error .previousUnavailable, .start files) := by
        rw [rollback, hprevious]
      rw [hrollback]
      exact iff_of_true (atomic_start _) (fun h => by cases h)
  | some entry =>
      have hentry := (stat_eq_some.mp hprevious).2
      rw [Option.isSome_some, forall_prop_of_true rfl]
      cases hrename : ((Trace.start files).remove f.removeFailed (failedPath active)).rename
          f.preserve active (failedPath active) with
      | none =>
          have hrollback : rollback f active files = (.error .preserveFailed,
              (Trace.start files).remove f.removeFailed (failedPath active)) := by
            simp only [rollback, hprevious, hrename]
          rw [hrollback]
          refine iff_of_true ?_ ?_
          · constructor
            · intro _ state hstate
              exact Or.inl (Trace.remove_states hne.symm state hstate)
            · intro _
              exact ⟨hkept, Trace.remove_files_of_ne f.removeFailed
                (failedPath_ne_previousPath active).symm _⟩
          · intro hold
            rcases Trace.rename_eq_none.mp hrename with h | h
            · rw [← hkept, h] at hold
              cases hold
            · exact h
      | some preserved =>
          have hrollback : rollback f active files = restorePrevious f active preserved := by
            simp only [rollback, hprevious, hrename]
          obtain ⟨hpreserve, old, hold, rfl⟩ := Trace.rename_eq_some.mp hrename
          rw [hkept] at hold
          rw [hrollback, hpreserve]
          refine iff_of_false ?_ (fun h => Bool.false_ne_true (h (by rw [hold]; rfl)))
          refine not_atomic_of_absent hold hentry
            (states_restorePrevious (Trace.files_mem_states _)) ?_
          simp [Trace.push, hne.symm]

end Rollback

/-- A call of either function is atomic exactly for these file systems and failures. -/
theorem activation_atomic_iff (files : Files) (active : String) :
    (∀ (f : ActivateFailures) (staged : String),
        Atomic files active (files staged) (activate f staged active files) ↔
          ActivateKeeps f staged active files) ∧
      ∀ f : RollbackFailures,
        Atomic files active (files (previousPath active)) (rollback f active files) ↔
          RollbackKeeps f active files :=
  ⟨fun f staged => activate_atomic_iff f staged active files,
    fun f => rollback_atomic_iff f active files⟩

def noActivateFailure : ActivateFailures :=
  ⟨false, false, false, false, false, false, false, false⟩

/-- A staged binary and an active one. -/
def stagedAndActive : Files := fun path =>
  if path = "staged-agent" then some ⟨[110], true, true⟩
  else if path = "nodescope-agent" then some ⟨[111], true, true⟩
  else none

/-- Without any failure a process that stops between the two renames leaves no active binary. -/
theorem activate_not_atomic :
    (activate noActivateFailure "staged-agent" "nodescope-agent" stagedAndActive).1.isOk = true ∧
      ¬ Atomic stagedAndActive "nodescope-agent" (stagedAndActive "staged-agent")
        (activate noActivateFailure "staged-agent" "nodescope-agent" stagedAndActive) := by
  refine ⟨by decide, ?_⟩
  intro hatomic
  have hsteps := hatomic.steps rfl
  revert hsteps
  decide

end NodeScope.Update
