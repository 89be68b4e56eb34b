import NodeScope.Lib.Machine
import NodeScope.Update.Activate

/-!
# Histories of activations and rollbacks

A rollback moves back whatever the path with the suffix `.previous` holds. An activation writes
that path only where it finds an active binary, so that a binary some earlier activation left there
can come back instead. `rollback_undoes_iff` says for one activation when the following rollback
undoes it, and that over any history a rollback restores what was active before the last activation
if every activation finds the active binary or meets no other previous one.

## Implementation notes

Between the calls other processes place files anywhere but under the two paths. The binary that was
active before the last successful activation is kept beside the files.
-/

namespace NodeScope.Update

open Lib Lib.Check

section Model

structure HistoryState where
  files : Files
  before : Option (Option Binary)

inductive UpdateEvent where
  | stage (path : String) (entry : Option Binary)
  | activate (f : ActivateFailures) (staged : String)
  | rollback (f : RollbackFailures)

def historyStep (active : String) (s : HistoryState) : UpdateEvent → Option HistoryState
  | .stage path entry =>
      if path = active ∨ path = previousPath active then none
      else some { s with files := Function.update s.files path entry }
  | .activate f staged =>
      let result := activate f staged active s.files
      some ⟨result.2.files, if result.1.isOk then some (s.files active) else s.before⟩
  | .rollback f => some { s with files := (rollback f active s.files).2.files }

/-- A rollback that succeeds restores what was active before the last activation. -/
def Restores (active : String) (s : HistoryState) : UpdateEvent → Prop
  | .rollback f => ∀ before ∈ s.before, (rollback f active s.files).1.isOk = true →
      (rollback f active s.files).2.files active = before
  | .stage _ _ | .activate _ _ => True

/-- An activation that finds no active binary, and moves the staged one, meets no previous binary
but the active one. -/
def PreviousFits (active : String) (s : HistoryState) : UpdateEvent → Prop
  | .activate f staged => ready f staged s.files = true → f.activate = false →
      found f active s.files = false →
        s.files (previousPath active) = none ∨ s.files (previousPath active) = s.files active
  | .stage _ _ | .rollback _ => True

end Model

section Effects

variable {f : ActivateFailures} {g : RollbackFailures} {staged active : String} {files : Files}

/-- After the last rename of an activation the previous path holds what it held. -/
theorem activateStaged_ok {t : Trace} (h : (activateStaged f staged active t).1.isOk = true) :
    f.activate = false ∧ (activateStaged f staged active t).2.files (previousPath active) =
      if staged = previousPath active then none else t.files (previousPath active) := by
  rw [activateStaged] at h ⊢
  split at h
  · next t' hrename =>
      obtain ⟨hactivate, entry, -, rfl⟩ := Trace.rename_eq_some.mp hrename
      refine ⟨hactivate, ?_⟩
      rw [Trace.files_push, Function.update_of_ne (previousPath_ne active)]
      by_cases hstaged : staged = previousPath active
      · rw [if_pos hstaged, hstaged, Function.update_self]
      · rw [if_neg hstaged, Function.update_of_ne (Ne.symm hstaged)]
  · cases h

/-- A last rename that fails leaves the files, or no previous binary. -/
theorem activateStaged_error {t : Trace} (h : (activateStaged f staged active t).1.isOk = false) :
    (activateStaged f staged active t).2 = t ∨
      (activateStaged f staged active t).2.files (previousPath active) = none := by
  rw [activateStaged] at h ⊢
  split at h
  · cases h
  · split
    · cases hrestore : t.rename f.restore (previousPath active) active with
      | none => exact Or.inl rfl
      | some t' =>
          obtain ⟨-, entry, -, rfl⟩ := Trace.rename_eq_some.mp hrestore
          right
          rw [Option.getD_some, Trace.files_push, Function.update_of_ne (previousPath_ne active),
            Function.update_self]
    · exact Or.inl rfl

/-- What the previous path holds after an activation. -/
theorem activate_ok (h : (activate f staged active files).1.isOk = true) :
    ready f staged files = true ∧ f.activate = false ∧
      (activate f staged active files).2.files (previousPath active) =
        if staged = previousPath active then none
        else if found f active files then files active
        else files (previousPath active) := by
  cases hready : ready f staged files with
  | false =>
      obtain ⟨e, he⟩ : ∃ e, activate f staged active files = (.error e, .start files) :=
        activate_of_not_ready hready
      rw [he] at h
      cases h
  | true =>
      have hcall : activate f staged active files = _ := activate_of_ready hready
      cases hfound : found f active files with
      | false =>
          rw [hfound, if_neg Bool.false_ne_true] at hcall
          rw [hcall] at h ⊢
          exact ⟨rfl, activateStaged_ok h⟩
      | true =>
          rw [hfound, if_pos rfl] at hcall
          cases hrename : ((Trace.start files).remove f.removePrevious
              (previousPath active)).rename f.preserve active (previousPath active) with
          | none =>
              rw [hcall, hrename] at h
              cases h
          | some preserved =>
              rw [hrename] at hcall
              rw [hcall] at h ⊢
              obtain ⟨hactivate, hprevious⟩ := activateStaged_ok h
              obtain ⟨-, old, hold, rfl⟩ := Trace.rename_eq_some.mp hrename
              refine ⟨rfl, hactivate, hprevious.trans ?_⟩
              rw [Trace.remove_files_of_ne f.removePrevious (previousPath_ne active).symm] at hold
              rw [Trace.files_push, Function.update_self, if_pos rfl, ← hold, Trace.files_start]

/-- What a failed activation leaves. -/
theorem activate_error (h : (activate f staged active files).1.isOk = false) :
    (activate f staged active files).2.files active = none ∨
      (activate f staged active files).2.files (previousPath active) = none ∨
      ((activate f staged active files).2.files active = files active ∧
        (activate f staged active files).2.files (previousPath active) =
          files (previousPath active)) := by
  cases hready : ready f staged files with
  | false =>
      obtain ⟨e, he⟩ : ∃ e, activate f staged active files = (.error e, .start files) :=
        activate_of_not_ready hready
      rw [he]
      exact Or.inr (Or.inr ⟨rfl, rfl⟩)
  | true =>
      have hcall : activate f staged active files = _ := activate_of_ready hready
      cases hfound : found f active files with
      | false =>
          rw [hfound, if_neg Bool.false_ne_true] at hcall
          rw [hcall] at h ⊢
          rcases activateStaged_error h with hsame | hnone
          · rw [hsame]
            exact Or.inr (Or.inr ⟨rfl, rfl⟩)
          · exact Or.inr (Or.inl hnone)
      | true =>
          rw [hfound, if_pos rfl] at hcall
          cases hrename : ((Trace.start files).remove f.removePrevious
              (previousPath active)).rename f.preserve active (previousPath active) with
          | none =>
              rw [hrename] at hcall
              rw [hcall]
              right
              rw [Trace.remove_files_of_ne _ (previousPath_ne active).symm,
                Trace.remove_files_self, Trace.files_start]
              cases f.removePrevious with
              | true => exact Or.inr ⟨rfl, rfl⟩
              | false => exact Or.inl rfl
          | some preserved =>
              rw [hrename] at hcall
              rw [hcall] at h ⊢
              rcases activateStaged_error h with hsame | hnone
              · obtain ⟨-, old, -, rfl⟩ := Trace.rename_eq_some.mp hrename
                left
                rw [hsame, Trace.files_push, Function.update_of_ne (previousPath_ne active).symm,
                  Function.update_self]
              · exact Or.inr (Or.inl hnone)

/-- The states of a rollback that found a previous binary. -/
theorem rollback_cases (active : String) (files : Files) :
    ((rollback g active files).1.isOk = true ∧
        (files active).isSome = true ∧ (files (previousPath active)).isSome = true ∧
        (rollback g active files).2.files active = files (previousPath active) ∧
        (rollback g active files).2.files (previousPath active) = none) ∨
      ((rollback g active files).1.isOk = false ∧
        ((rollback g active files).2.files active = none ∨
          ((rollback g active files).2.files active = files active ∧
            (rollback g active files).2.files (previousPath active) =
              files (previousPath active)))) := by
  have hne := failedPath_ne active
  have hother := failedPath_ne_previousPath active
  cases hprevious : stat g.statPrevious files (previousPath active) with
  | none =>
      have hrollback : rollback g active files = (.error .previousUnavailable, .start files) := by
        rw [rollback, hprevious]
      rw [hrollback]
      exact Or.inr ⟨rfl, Or.inr ⟨rfl, rfl⟩⟩
  | some kept =>
      have hkept := (stat_eq_some.mp hprevious).2
      have hactive : ((Trace.start files).remove g.removeFailed (failedPath active)).files active =
          files active :=
        Trace.remove_files_of_ne g.removeFailed hne.symm (Trace.start files)
      have hleft : ((Trace.start files).remove g.removeFailed (failedPath active)).files
          (previousPath active) = files (previousPath active) :=
        Trace.remove_files_of_ne g.removeFailed hother.symm (Trace.start files)
      cases hrename : ((Trace.start files).remove g.removeFailed (failedPath active)).rename
          g.preserve active (failedPath active) with
      | none =>
          have hrollback : rollback g active files = (.error .preserveFailed,
              (Trace.start files).remove g.removeFailed (failedPath active)) := by
            simp only [rollback, hprevious, hrename]
          rw [hrollback]
          exact Or.inr ⟨rfl, Or.inr ⟨hactive, hleft⟩⟩
      | some preserved =>
          have hrollback : rollback g active files = restorePrevious g active preserved := by
            simp only [rollback, hprevious, hrename]
          obtain ⟨-, old, hold, rfl⟩ := Trace.rename_eq_some.mp hrename
          rw [hactive] at hold
          rw [hrollback, restorePrevious]
          cases hrestore : Trace.rename g.restore (previousPath active) active _ with
          | none =>
              right
              refine ⟨rfl, Or.inl ?_⟩
              rw [Trace.files_push, Function.update_of_ne hne.symm, Function.update_self]
          | some restored =>
              obtain ⟨-, entry, hentry, rfl⟩ := Trace.rename_eq_some.mp hrestore
              rw [Trace.files_push, Function.update_of_ne hother.symm,
                Function.update_of_ne (previousPath_ne active), hleft] at hentry
              left
              refine ⟨rfl, by rw [hold]; rfl, by rw [hkept]; rfl, ?_, ?_⟩
              · rw [Trace.files_push, Function.update_self, hentry]
              · rw [Trace.files_push, Function.update_of_ne (previousPath_ne active),
                  Function.update_self]

end Effects

section Undo

variable {active : String}

/-- A kept binary that a rollback could restore is the one that was active before. -/
def HistoryState.Fits (active : String) (s : HistoryState) : Prop :=
  s.files active = none ∨ s.files (previousPath active) = none ∨
    ∀ before ∈ s.before, s.files (previousPath active) = before

theorem HistoryState.Fits.of_same {s s' : HistoryState} (h : s.Fits active)
    (hactive : s'.files active = s.files active)
    (hprevious : s'.files (previousPath active) = s.files (previousPath active))
    (hbefore : s'.before = s.before) : s'.Fits active := by
  rw [HistoryState.Fits, hactive, hprevious, hbefore]
  exact h

theorem fits_step (s : HistoryState) (e : UpdateEvent) (s' : HistoryState)
    (hstep : historyStep active s e = some s') (hfits : PreviousFits active s e)
    (h : s.Fits active) : s'.Fits active := by
  cases e with
  | stage path entry =>
      rw [historyStep] at hstep
      split at hstep
      · cases hstep
      · next hpath =>
          obtain ⟨hactive, hprevious⟩ := not_or.mp hpath
          obtain rfl := Option.some.inj hstep
          exact h.of_same (Function.update_of_ne (Ne.symm hactive) _ _)
            (Function.update_of_ne (Ne.symm hprevious) _ _) rfl
  | rollback g =>
      obtain rfl := Option.some.inj hstep
      rcases rollback_cases (g := g) active s.files with
        ⟨-, -, -, -, hnone⟩ | ⟨-, hnone | ⟨hactive, hprevious⟩⟩
      · exact Or.inr (Or.inl hnone)
      · exact Or.inl hnone
      · exact h.of_same hactive hprevious rfl
  | activate f staged =>
      obtain rfl := Option.some.inj hstep
      cases hok : (activate f staged active s.files).1.isOk with
      | false =>
          rcases activate_error hok with hnone | hnone | ⟨hactive, hprevious⟩
          · exact Or.inl hnone
          · exact Or.inr (Or.inl hnone)
          · exact h.of_same hactive hprevious rfl
      | true =>
          obtain ⟨hready, hactivate, hprevious⟩ := activate_ok hok
          right
          rw [if_pos rfl]
          by_cases hstaged : staged = previousPath active
          · exact Or.inl (hprevious.trans (if_pos hstaged))
          · rw [if_neg hstaged] at hprevious
            cases hfound : found f active s.files with
            | true =>
                rw [hfound, if_pos rfl] at hprevious
                right
                intro before hbefore
                exact hprevious.trans (Option.some.inj hbefore)
            | false =>
                rw [hfound, if_neg Bool.false_ne_true] at hprevious
                rcases hfits hready hactivate hfound with hnone | hsame
                · exact Or.inl (hprevious.trans hnone)
                · right
                  intro before hbefore
                  calc _ = s.files (previousPath active) := hprevious
                    _ = s.files active := hsame
                    _ = before := Option.some.inj hbefore

theorem restores_of_fits (s : HistoryState) (e : UpdateEvent) (h : s.Fits active)
    (_ : PreviousFits active s e) : Restores active s e := by
  cases e with
  | stage path entry => trivial
  | activate f staged => trivial
  | rollback g =>
      intro before hbefore hok
      rcases rollback_cases (g := g) active s.files with
        ⟨-, hactive, hprevious, hrestored, -⟩ | ⟨herror, -⟩
      · rcases h with hnone | hnone | hkept
        · rw [hnone] at hactive
          cases hactive
        · rw [hnone] at hprevious
          cases hprevious
        · exact hrestored.trans (hkept before hbefore)
      · rw [hok] at herror
        cases herror

/-- A rollback after an activation restores what was active before exactly if the activation found
the active binary or met it under the previous path; and in every history whose activations find
the active binary or meet no other previous one, every rollback restores what was active before
the last activation. -/
theorem rollback_undoes_iff (active : String) :
    (∀ f staged files g, (activate f staged active files).1.isOk = true →
        (rollback g active (activate f staged active files).2.files).1.isOk = true →
          ((rollback g active (activate f staged active files).2.files).2.files active =
              files active ↔
            found f active files = true ∨ files (previousPath active) = files active)) ∧
      ∀ files events,
        Machine.Along (historyStep active) (PreviousFits active) ⟨files, none⟩ events →
          Machine.Along (historyStep active) (Restores active) ⟨files, none⟩ events := by
  constructor
  · intro f staged files g hactivated hrolled
    obtain ⟨-, -, hprevious⟩ := activate_ok hactivated
    rcases rollback_cases (g := g) active (activate f staged active files).2.files with
      ⟨-, -, hkept, hrestored, -⟩ | ⟨herror, -⟩
    · rw [hrestored]
      rw [hprevious] at hkept ⊢
      by_cases hstaged : staged = previousPath active
      · rw [if_pos hstaged] at hkept
        cases hkept
      · rw [if_neg hstaged]
        cases found f active files <;> simp
    · rw [hrolled] at herror
      cases herror
  · intro files events halong
    have hstart : HistoryState.Fits active ⟨files, none⟩ :=
      Or.inr (Or.inr fun before hbefore => by cases hbefore)
    exact Machine.along_of_invariant fits_step restores_of_fits hstart halong

end Undo

def noRollbackFailure : RollbackFailures := ⟨false, false, false, false⟩

/-- An activation over an active binary and its rollback. -/
theorem rollback_undoes_activate :
    (rollback noRollbackFailure "nodescope-agent"
      (activate noActivateFailure "staged-agent" "nodescope-agent"
        stagedAndActive).2.files).2.files "nodescope-agent" = stagedAndActive "nodescope-agent" :=
  ((rollback_undoes_iff "nodescope-agent").1 noActivateFailure "staged-agent" stagedAndActive
    noRollbackFailure (by decide) (by decide)).mpr (by decide)

/-- A staged binary, no active one, and a binary that an earlier activation has left. -/
def staleLeft : Files := fun path =>
  if path = "staged-agent" then some ⟨[110], true, true⟩
  else if path = "nodescope-agent.previous" then some ⟨[111], true, true⟩
  else none

/-- The rollback of the first binary of a path puts the one left behind in its place. -/
theorem rollback_restores_stale :
    (activate noActivateFailure "staged-agent" "nodescope-agent" staleLeft).1.isOk = true ∧
      (rollback noRollbackFailure "nodescope-agent"
        (activate noActivateFailure "staged-agent" "nodescope-agent" staleLeft).2.files).1.isOk =
          true ∧
      staleLeft "nodescope-agent" = none ∧
      (rollback noRollbackFailure "nodescope-agent"
        (activate noActivateFailure "staged-agent" "nodescope-agent"
          staleLeft).2.files).2.files "nodescope-agent" = some ⟨[111], true, true⟩ := by
  decide

end NodeScope.Update
