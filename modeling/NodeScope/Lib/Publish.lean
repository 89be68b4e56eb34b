import Mathlib.Data.List.Induction
import Mathlib.Data.List.Nodup
import Mathlib.Logic.Function.Basic
import NodeScope.Lib.Machine

/-!
# Publication by renaming

A writer fills a file under a hidden name that no file has, and renames it to the name that readers
know. Any number of writers do so at the same time, each of their steps may fail, and each of them
may stop at any time. Readers of the visible names see what they would see if every publication were
one step: the hidden files refine an atomic store.

## Implementation notes

The files are known by their names: a name that a writer has created stays its own until it renames
or removes it, since others only create names that are free.
-/

namespace NodeScope.Lib.Publish

variable {N B : Type} {hidden : N → Bool}

abbrev Files (N B : Type) := N → Option (List B)

/-- What is to be published, and the names that may be created for it. -/
structure Job (N B : Type) (hidden : N → Bool) where
  target : N
  candidate : Nat → N
  payload : List B
  target_visible : hidden target = false
  candidate_hidden : ∀ random, hidden (candidate random) = true

/-- Where a writer stands, with the name it has created; a name may be left behind. -/
inductive Phase (N : Type) where
  | begun
  | created (name : N)
  | secured (name : N)
  | written (name : N)
  | synced (name : N)
  | closed (name : N)
  | failed (name : N)
  | renamed
  | returned (published : Bool) (left : Option N)
  | exited (left : Option N)
deriving DecidableEq

namespace Phase

/-- The name that a writer holds or has left. -/
def name : Phase N → Option N
  | begun => none
  | created n => some n
  | secured n => some n
  | written n => some n
  | synced n => some n
  | closed n => some n
  | failed n => some n
  | renamed => none
  | returned _ left => left
  | exited left => left

/-- The name under which all of the payload stands. -/
def filled : Phase N → Option N
  | written n => some n
  | synced n => some n
  | closed n => some n
  | _ => none

/-- Whether a writer has renamed its file, where the phase tells it. -/
def hasPublished : Phase N → Option Bool
  | renamed => some true
  | returned published _ => some published
  | exited _ => none
  | _ => some false

theorem name_of_filled {p : Phase N} {n : N} (h : p.filled = some n) : p.name = some n := by
  cases p <;> simp_all [filled, name]

end Phase

structure Writer (N B : Type) (hidden : N → Bool) where
  job : Job N B hidden
  phase : Phase N

/-- The files with their writers and, in order, those that have published. -/
structure World (N B : Type) (hidden : N → Bool) where
  files : Files N B
  writers : List (Writer N B hidden)
  published : List Nat

inductive Action (N B : Type) (hidden : N → Bool) where
  | begin (job : Job N B hidden)
  | create (writer : Nat) (random : Option Nat)
  | proceed (writer : Nat) (fails : Bool) (written : Nat)
  | crash (writer : Nat) (written : Nat)

/-- The job that an action begins. -/
def Action.begun : Action N B hidden → Option (Job N B hidden)
  | .begin job => some job
  | _ => none

section Steps

variable [DecidableEq N]

/-- A step of a writer on the files: what it writes, its next phase, and whether it publishes. -/
def Writer.proceed (x : Writer N B hidden) (files : Files N B) (fails : Bool) (written : Nat) :
    Option (Files N B × Phase N × Bool) :=
  match x.phase with
  | .created n => some (files, if fails then .failed n else .secured n, false)
  | .secured n =>
      if fails then
        some (Function.update files n (some (x.job.payload.take written)), .failed n, false)
      else some (Function.update files n (some x.job.payload), .written n, false)
  | .written n => some (files, if fails then .failed n else .synced n, false)
  | .synced n => some (files, if fails then .failed n else .closed n, false)
  | .closed n =>
      if fails then some (files, .failed n, false)
      else some (Function.update (Function.update files x.job.target (files n)) n none, .renamed,
        true)
  | .failed n =>
      if fails then some (files, .returned false (some n), false)
      else some (Function.update files n none, .returned false none, false)
  | .renamed => some (files, .returned true none, false)
  | _ => none

/-- What is left of a writer that stops: a write may have been under way. -/
def Writer.crash (x : Writer N B hidden) (files : Files N B) (written : Nat) :
    Option (Files N B × Phase N) :=
  match x.phase with
  | .secured n =>
      some (Function.update files n (some (x.job.payload.take written)), .exited (some n))
  | .returned _ _ => none
  | .exited _ => none
  | phase => some (files, .exited phase.name)

namespace World

def step (w : World N B hidden) : Action N B hidden → Option (World N B hidden)
  | .begin job => some { w with writers := w.writers ++ [⟨job, .begun⟩] }
  | .create i random =>
      w.writers[i]?.bind fun x =>
        if x.phase = .begun then
          match random with
          | none => some { w with writers := w.writers.set i ⟨x.job, .returned false none⟩ }
          | some random =>
              let n := x.job.candidate random
              if (w.files n).isNone then
                some { w with
                  files := Function.update w.files n (some [])
                  writers := w.writers.set i ⟨x.job, .created n⟩ }
              else none
        else none
  | .proceed i fails written =>
      w.writers[i]?.bind fun x =>
        (x.proceed w.files fails written).map fun (files, phase, publishes) =>
          { files := files
            writers := w.writers.set i ⟨x.job, phase⟩
            published := if publishes then w.published ++ [i] else w.published }
  | .crash i written =>
      w.writers[i]?.bind fun x =>
        (x.crash w.files written).map fun (files, phase) =>
          { w with files := files, writers := w.writers.set i ⟨x.job, phase⟩ }

def run : World N B hidden → List (Action N B hidden) → Option (World N B hidden) :=
  Machine.run step

def init (files : Files N B) : World N B hidden := ⟨files, [], []⟩

/-- The jobs that were published, in order. -/
def publications (w : World N B hidden) : List (Job N B hidden) :=
  w.published.filterMap fun i => w.writers[i]?.map Writer.job

end World

/-- An atomic store: a publication is one step. -/
def put (files : Files N B) (job : Job N B hidden) : Files N B :=
  Function.update files job.target (some job.payload)

end Steps

section Stores

variable [DecidableEq N]

/-- A store has under a name what was stored there last. -/
theorem foldl_update {J C : Type} (target : J → N) (content : J → C) (before : N → C)
    (jobs : List J) (n : N) :
    jobs.foldl (fun store j => Function.update store (target j) (content j)) before n =
      ((jobs.filter fun j => target j = n).getLast?.map content).getD (before n) := by
  induction jobs using List.reverseRecOn with
  | nil => rfl
  | append_singleton jobs j ih =>
      rw [List.foldl_append, List.foldl_cons, List.foldl_nil, List.filter_append]
      by_cases h : target j = n
      · subst h
        rw [Function.update_self]
        simp
      · rw [Function.update_of_ne (Ne.symm h), ih]
        simp [h]

end Stores

section Effects

variable [DecidableEq N]

/-- What a step of a writer can do: stay, write under its own name or under a free one, remove its
name, or rename it. -/
inductive Effect (files : Files N B) (x : Writer N B hidden) :
    Files N B → Phase N → Bool → Prop where
  | stay {phase : Phase N} (hname : phase.name = x.phase.name)
      (hfilled : phase.filled = none ∨ phase.filled = x.phase.filled)
      (hpublished : phase.hasPublished = x.phase.hasPublished ∨ phase.hasPublished = none) :
      Effect files x files phase false
  | store {phase : Phase N} {n : N} {content : List B}
      (howned : x.phase.name = some n ∨
        x.phase.name = none ∧ hidden n = true ∧ files n = none)
      (hname : phase.name = some n) (hfilled : phase.filled = some n → content = x.job.payload)
      (hpublished : phase.hasPublished = x.phase.hasPublished ∨ phase.hasPublished = none) :
      Effect files x (Function.update files n (some content)) phase false
  | remove {phase : Phase N} {n : N} (howned : x.phase.name = some n) (hname : phase.name = none)
      (hpublished : phase.hasPublished = x.phase.hasPublished ∨ phase.hasPublished = none) :
      Effect files x (Function.update files n none) phase false
  | publish {n : N} (hfilled : x.phase.filled = some n)
      (hpublished : x.phase.hasPublished = some false) :
      Effect files x (Function.update (Function.update files x.job.target (files n)) n none)
        .renamed true

theorem effect_of_proceed {x : Writer N B hidden} {files files' : Files N B} {phase : Phase N}
    {fails publishes : Bool} {written : Nat}
    (h : x.proceed files fails written = some (files', phase, publishes)) :
    Effect files x files' phase publishes := by
  obtain ⟨job, current⟩ := x
  cases current with
  | created n =>
      simp only [Writer.proceed, Option.some.injEq, Prod.mk.injEq] at h
      obtain ⟨rfl, rfl, rfl⟩ := h
      cases fails <;> exact .stay rfl (Or.inl rfl) (Or.inl rfl)
  | secured n =>
      simp only [Writer.proceed] at h
      split at h
      · cases h
        exact .store (Or.inl rfl) rfl (by rintro ⟨⟩) (Or.inl rfl)
      · cases h
        exact .store (Or.inl rfl) rfl (fun _ => rfl) (Or.inl rfl)
  | written n =>
      simp only [Writer.proceed, Option.some.injEq, Prod.mk.injEq] at h
      obtain ⟨rfl, rfl, rfl⟩ := h
      cases fails with
      | true => exact .stay rfl (Or.inl rfl) (Or.inl rfl)
      | false => exact .stay rfl (Or.inr rfl) (Or.inl rfl)
  | synced n =>
      simp only [Writer.proceed, Option.some.injEq, Prod.mk.injEq] at h
      obtain ⟨rfl, rfl, rfl⟩ := h
      cases fails with
      | true => exact .stay rfl (Or.inl rfl) (Or.inl rfl)
      | false => exact .stay rfl (Or.inr rfl) (Or.inl rfl)
  | closed n =>
      simp only [Writer.proceed] at h
      split at h
      · cases h
        exact .stay rfl (Or.inl rfl) (Or.inl rfl)
      · cases h
        exact .publish rfl rfl
  | failed n =>
      simp only [Writer.proceed] at h
      split at h
      · cases h
        exact .stay rfl (Or.inl rfl) (Or.inl rfl)
      · cases h
        exact .remove rfl rfl (Or.inl rfl)
  | renamed =>
      cases h
      exact .stay rfl (Or.inl rfl) (Or.inl rfl)
  | begun => cases h
  | returned published left => cases h
  | exited left => cases h

theorem effect_of_crash {x : Writer N B hidden} {files files' : Files N B} {phase : Phase N}
    {written : Nat} (h : x.crash files written = some (files', phase)) :
    Effect files x files' phase false := by
  obtain ⟨job, current⟩ := x
  cases current with
  | secured n =>
      cases h
      exact .store (Or.inl rfl) rfl (by rintro ⟨⟩) (Or.inr rfl)
  | returned published left => cases h
  | exited left => cases h
  | _ =>
      cases h
      exact .stay rfl (Or.inl rfl) (Or.inr rfl)

theorem step_cases {w w' : World N B hidden} {a : Action N B hidden} (h : w.step a = some w') :
    (∃ job, a = .begin job ∧ w' = { w with writers := w.writers ++ [⟨job, .begun⟩] }) ∨
      ∃ i x files phase publishes, w.writers[i]? = some x ∧ a.begun = none ∧
        Effect w.files x files phase publishes ∧
        w' = ⟨files, w.writers.set i ⟨x.job, phase⟩,
          if publishes then w.published ++ [i] else w.published⟩ := by
  cases a with
  | begin job => exact Or.inl ⟨job, rfl, (Option.some.inj h).symm⟩
  | create i random =>
      obtain ⟨x, hx, h⟩ := Option.bind_eq_some_iff.mp h
      refine Or.inr ⟨i, x, ?_⟩
      split at h
      · next hbegun =>
          cases random with
          | none =>
              obtain rfl := Option.some.inj h
              exact ⟨_, _, false, hx, rfl, .stay (by rw [hbegun]; rfl) (Or.inl rfl)
                (Or.inl (by rw [hbegun]; rfl)), rfl⟩
          | some random =>
              simp only at h
              split at h
              · next hfree =>
                  obtain rfl := Option.some.inj h
                  refine ⟨_, _, false, hx, rfl, .store (Or.inr ⟨by rw [hbegun]; rfl,
                    x.job.candidate_hidden random, Option.isNone_iff_eq_none.mp hfree⟩) rfl
                    (by rintro ⟨⟩) (Or.inl (by rw [hbegun]; rfl)), rfl⟩
              · cases h
      · cases h
  | proceed i fails written =>
      obtain ⟨x, hx, h⟩ := Option.bind_eq_some_iff.mp h
      obtain ⟨⟨files, phase, publishes⟩, hproceed, rfl⟩ := Option.map_eq_some_iff.mp h
      exact Or.inr ⟨i, x, files, phase, publishes, hx, rfl, effect_of_proceed hproceed, rfl⟩
  | crash i written =>
      obtain ⟨x, hx, h⟩ := Option.bind_eq_some_iff.mp h
      obtain ⟨⟨files, phase⟩, hcrash, rfl⟩ := Option.map_eq_some_iff.mp h
      exact Or.inr ⟨i, x, files, phase, false, hx, rfl, effect_of_crash hcrash, rfl⟩

end Effects

section Writers

variable {writers : List (Writer N B hidden)} {i j : Nat} {x y : Writer N B hidden}
  {phase : Phase N}

/-- The writers after one of them has gone on. -/
theorem writer_cases (h : (writers.set i ⟨x.job, phase⟩)[j]? = some y) :
    (j = i ∧ y = ⟨x.job, phase⟩) ∨ (j ≠ i ∧ writers[j]? = some y) :=
  Machine.getElem?_set_cases h

theorem job_set (hx : writers[i]? = some x) (phase : Phase N) (j : Nat) :
    (writers.set i ⟨x.job, phase⟩)[j]?.map Writer.job = writers[j]?.map Writer.job := by
  by_cases hj : j = i
  · subst hj
    rw [List.getElem?_set_self (List.getElem?_eq_some_iff.mp hx).1, hx]
    rfl
  · rw [List.getElem?_set_ne (Ne.symm hj)]

/-- Publishing nothing leaves the list of what is published. -/
theorem World.publications_set (w : World N B hidden)
    (hx : w.writers[i]? = some x) (files : Files N B) (phase : Phase N) :
    World.publications ⟨files, w.writers.set i ⟨x.job, phase⟩, w.published⟩ = w.publications := by
  rw [World.publications, World.publications]
  exact List.filterMap_congr fun j _ => job_set hx phase j

end Writers

section Soundness

variable [DecidableEq N] {before : Files N B} {w w' : World N B hidden}

/-- The visible files are those of the atomic store, and a hidden file that was not there before
is some writer's own. -/
structure World.Sound (before : Files N B) (w : World N B hidden) : Prop where
  held : ∀ (i : Nat) (x : Writer N B hidden) n, w.writers[i]? = some x → x.phase.name = some n →
    hidden n = true ∧ before n = none ∧ w.files n ≠ none
  apart : ∀ (i j : Nat) (x y : Writer N B hidden) n, w.writers[i]? = some x → w.writers[j]? = some y →
    x.phase.name = some n → y.phase.name = some n → i = j
  filled : ∀ (i : Nat) (x : Writer N B hidden) n, w.writers[i]? = some x → x.phase.filled = some n →
    w.files n = some x.job.payload
  visible : ∀ n, hidden n = false → w.files n = w.publications.foldl put before n
  kept : ∀ n, hidden n = true → w.files n = before n ∨
    ∃ (i : Nat) (x : Writer N B hidden), w.writers[i]? = some x ∧ x.phase.name = some n
  recorded : ∀ i ∈ w.published, ∃ x : Writer N B hidden, w.writers[i]? = some x ∧ x.phase.hasPublished ≠ some false
  reported : ∀ (i : Nat) (x : Writer N B hidden), w.writers[i]? = some x → x.phase.hasPublished = some true → i ∈ w.published
  once : w.published.Nodup

theorem World.sound_init (before : Files N B) :
    (World.init before : World N B hidden).Sound before where
  held := by simp [World.init]
  apart := by simp [World.init]
  filled := by simp [World.init]
  visible := fun _ _ => rfl
  kept := fun _ _ => Or.inl rfl
  recorded := by simp [World.init]
  reported := by simp [World.init]
  once := List.nodup_nil

/-- A name that a writer holds, or that is free, is held by no other writer. -/
theorem World.Sound.other_ne (h : w.Sound before) {i j : Nat} {x y : Writer N B hidden} {m n : N}
    (hx : w.writers[i]? = some x)
    (hown : x.phase.name = some m ∨ x.phase.name = none ∧ hidden m = true ∧ w.files m = none)
    (hne : j ≠ i) (hy : w.writers[j]? = some y) (hname : y.phase.name = some n) : n ≠ m := by
  rintro rfl
  obtain howned | ⟨-, -, hfree⟩ := hown
  · exact hne (h.apart j i y x n hy hx hname howned)
  · exact (h.held j y n hy hname).2.2 hfree

/-- Writers that others do not meet stay apart. -/
theorem World.Sound.apart_set (h : w.Sound before) {i : Nat} {x : Writer N B hidden}
    {phase : Phase N}
    (hother : ∀ (j : Nat) (y : Writer N B hidden) n, j ≠ i → w.writers[j]? = some y → y.phase.name = some n →
      phase.name ≠ some n) (j k : Nat) (y z : Writer N B hidden) (n : N)
    (hy : (w.writers.set i ⟨x.job, phase⟩)[j]? = some y)
    (hz : (w.writers.set i ⟨x.job, phase⟩)[k]? = some z) (hyn : y.phase.name = some n)
    (hzn : z.phase.name = some n) : j = k := by
  obtain ⟨rfl, rfl⟩ | ⟨hj, hother_y⟩ := writer_cases hy
  · obtain ⟨rfl, rfl⟩ | ⟨hk, hother_z⟩ := writer_cases hz
    · rfl
    · exact absurd hyn (hother k z n hk hother_z hzn)
  · obtain ⟨rfl, rfl⟩ | ⟨hk, hother_z⟩ := writer_cases hz
    · exact absurd hzn (hother j y n hj hother_y hyn)
    · exact h.apart j k y z n hother_y hother_z hyn hzn

/-- What the log says stays right as long as nobody publishes. -/
theorem World.Sound.log_set (h : w.Sound before) {i : Nat} {x : Writer N B hidden}
    (hx : w.writers[i]? = some x) {phase : Phase N}
    (hpublished : phase.hasPublished = x.phase.hasPublished ∨ phase.hasPublished = none) :
    (∀ j ∈ w.published, ∃ y : Writer N B hidden, (w.writers.set i ⟨x.job, phase⟩)[j]? = some y ∧
        y.phase.hasPublished ≠ some false) ∧
      ∀ (j : Nat) (y : Writer N B hidden), (w.writers.set i ⟨x.job, phase⟩)[j]? = some y → y.phase.hasPublished = some true →
        j ∈ w.published := by
  constructor
  · intro j hj
    obtain ⟨y, hy, hynot⟩ := h.recorded j hj
    by_cases hji : j = i
    · subst hji
      obtain rfl := Option.some.inj (hx.symm.trans hy)
      refine ⟨_, List.getElem?_set_self (List.getElem?_eq_some_iff.mp hx).1, ?_⟩
      obtain hsame | hnone := hpublished
      · simpa [hsame] using hynot
      · simp [hnone]
    · exact ⟨y, by rw [List.getElem?_set_ne (Ne.symm hji), hy], hynot⟩
  · intro j y hy htrue
    obtain ⟨rfl, rfl⟩ | ⟨hj, hy⟩ := writer_cases hy
    · obtain hsame | hnone := hpublished
      · exact h.reported j x hx (hsame ▸ htrue)
      · rw [hnone] at htrue
        cases htrue
    · exact h.reported j y hy htrue

theorem World.Sound.stay (h : w.Sound before) {i : Nat} {x : Writer N B hidden}
    (hx : w.writers[i]? = some x) {phase : Phase N} (hname : phase.name = x.phase.name)
    (hfilled : phase.filled = none ∨ phase.filled = x.phase.filled)
    (hpublished : phase.hasPublished = x.phase.hasPublished ∨ phase.hasPublished = none) :
    World.Sound before ⟨w.files, w.writers.set i ⟨x.job, phase⟩, w.published⟩ where
  held := by
    intro j y n hy hyn
    obtain ⟨rfl, rfl⟩ | ⟨hj, hother⟩ := writer_cases hy
    · exact h.held j x n hx (hname ▸ hyn)
    · exact h.held j y n hother hyn
  apart := by
    apply h.apart_set
    intro j y n hj hy hyn hphase
    exact hj (h.apart j i y x n hy hx hyn (hname ▸ hphase))
  filled := by
    intro j y n hy hyn
    obtain ⟨rfl, rfl⟩ | ⟨hj, hother⟩ := writer_cases hy
    · obtain hnone | hsame := hfilled
      · rw [hnone] at hyn
        cases hyn
      · exact h.filled j x n hx (hsame ▸ hyn)
    · exact h.filled j y n hother hyn
  visible := by
    intro n hn
    rw [w.publications_set hx]
    exact h.visible n hn
  kept := by
    intro n hn
    obtain hsame | ⟨j, y, hy, hyn⟩ := h.kept n hn
    · exact Or.inl hsame
    · right
      by_cases hj : j = i
      · subst hj
        obtain rfl := Option.some.inj (hx.symm.trans hy)
        exact ⟨j, _, List.getElem?_set_self (List.getElem?_eq_some_iff.mp hx).1, hname ▸ hyn⟩
      · exact ⟨j, y, by rw [List.getElem?_set_ne (Ne.symm hj), hy], hyn⟩
  recorded := (h.log_set hx hpublished).1
  reported := (h.log_set hx hpublished).2
  once := h.once

/-- What the name of a writer, or a name that is free, says of the files before. -/
theorem World.Sound.own (h : w.Sound before) {i : Nat} {x : Writer N B hidden} {m : N}
    (hx : w.writers[i]? = some x)
    (hown : x.phase.name = some m ∨ x.phase.name = none ∧ hidden m = true ∧ w.files m = none) :
    hidden m = true ∧ before m = none := by
  obtain howned | ⟨-, hhidden, hfree⟩ := hown
  · exact ⟨(h.held i x m hx howned).1, (h.held i x m hx howned).2.1⟩
  · obtain hsame | ⟨j, y, hy, hyn⟩ := h.kept m hhidden
    · exact ⟨hhidden, hsame ▸ hfree⟩
    · exact absurd hfree (h.held j y m hy hyn).2.2

/-- A writer changes the file under its own name or makes one under a free name; where it removes
the file it holds no name any more. -/
theorem World.Sound.change (h : w.Sound before) {i : Nat} {x : Writer N B hidden} {m : N}
    (hx : w.writers[i]? = some x)
    (hown : x.phase.name = some m ∨ x.phase.name = none ∧ hidden m = true ∧ w.files m = none)
    {phase : Phase N} {content : Option (List B)}
    (hname : ∀ n, phase.name = some n ↔ n = m ∧ content ≠ none)
    (hfilled : ∀ n, phase.filled = some n → content = some x.job.payload)
    (hpublished : phase.hasPublished = x.phase.hasPublished ∨ phase.hasPublished = none) :
    World.Sound before
      ⟨Function.update w.files m content, w.writers.set i ⟨x.job, phase⟩, w.published⟩ where
  held := by
    intro j y n hy hyn
    obtain ⟨rfl, rfl⟩ | ⟨hj, hother⟩ := writer_cases hy
    · obtain ⟨rfl, hcontent⟩ := (hname n).mp hyn
      obtain ⟨hhidden, hbefore⟩ := h.own hx hown
      refine ⟨hhidden, hbefore, ?_⟩
      dsimp only
      rwa [Function.update_self]
    · dsimp only
      rw [Function.update_of_ne (h.other_ne hx hown hj hother hyn)]
      exact h.held j y n hother hyn
  apart := by
    apply h.apart_set
    intro j y n hj hy hyn hphase
    exact h.other_ne hx hown hj hy hyn ((hname n).mp hphase).1
  filled := by
    intro j y n hy hyn
    obtain ⟨rfl, rfl⟩ | ⟨hj, hother⟩ := writer_cases hy
    · obtain ⟨rfl, -⟩ := (hname n).mp (Phase.name_of_filled hyn)
      dsimp only
      rw [Function.update_self]
      exact hfilled n hyn
    · dsimp only
      rw [Function.update_of_ne
        (h.other_ne hx hown hj hother (Phase.name_of_filled hyn))]
      exact h.filled j y n hother hyn
  visible := by
    intro n hn
    have hne : n ≠ m := by
      rintro rfl
      rw [(h.own hx hown).1] at hn
      cases hn
    rw [w.publications_set hx]
    dsimp only
    rw [Function.update_of_ne hne]
    exact h.visible n hn
  kept := by
    intro n hn
    dsimp only
    by_cases hm : n = m
    · subst hm
      cases content with
      | none => exact Or.inl (by rw [Function.update_self, (h.own hx hown).2])
      | some content =>
          exact Or.inr ⟨i, _, List.getElem?_set_self (List.getElem?_eq_some_iff.mp hx).1,
            (hname n).mpr ⟨rfl, by simp⟩⟩
    · rw [Function.update_of_ne hm]
      obtain hsame | ⟨j, y, hy, hyn⟩ := h.kept n hn
      · exact Or.inl hsame
      · refine Or.inr ⟨j, y, ?_, hyn⟩
        rw [List.getElem?_set_ne, hy]
        rintro rfl
        obtain rfl := Option.some.inj (hx.symm.trans hy)
        obtain howned | ⟨hnone, -, -⟩ := hown
        · exact hm (Option.some.inj (hyn.symm.trans howned))
        · rw [hnone] at hyn
          cases hyn
  recorded := (h.log_set hx hpublished).1
  reported := (h.log_set hx hpublished).2
  once := h.once

/-- A writer without a name shows its payload to the readers. -/
theorem World.Sound.announce (h : w.Sound before) {i : Nat} {x : Writer N B hidden}
    (hx : w.writers[i]? = some x) (hname : x.phase.name = none)
    (hfalse : x.phase.hasPublished = some false) :
    World.Sound before ⟨Function.update w.files x.job.target (some x.job.payload),
      w.writers.set i ⟨x.job, .renamed⟩, w.published ++ [i]⟩ := by
  have hhidden {n : N} (hn : hidden n = true) : n ≠ x.job.target := by
    rintro rfl
    rw [x.job.target_visible] at hn
    cases hn
  have hself : (w.writers.set i ⟨x.job, .renamed⟩)[i]? = some ⟨x.job, .renamed⟩ :=
    List.getElem?_set_self (List.getElem?_eq_some_iff.mp hx).1
  refine ⟨?_, ?_, ?_, ?_, ?_, ?_, ?_, ?_⟩
  · intro j y n hy hyn
    obtain ⟨rfl, rfl⟩ | ⟨hj, hother⟩ := writer_cases hy
    · cases hyn
    · have hheld := h.held j y n hother hyn
      dsimp only
      rwa [Function.update_of_ne (hhidden hheld.1)]
  · apply h.apart_set
    intro j y n _ _ _ hphase
    cases hphase
  · intro j y n hy hyn
    obtain ⟨rfl, rfl⟩ | ⟨hj, hother⟩ := writer_cases hy
    · cases hyn
    · have hheld := h.held j y n hother (Phase.name_of_filled hyn)
      dsimp only
      rw [Function.update_of_ne (hhidden hheld.1)]
      exact h.filled j y n hother hyn
  · intro n hn
    have hjobs : World.publications ⟨Function.update w.files x.job.target (some x.job.payload),
        w.writers.set i ⟨x.job, .renamed⟩, w.published ++ [i]⟩ = w.publications ++ [x.job] := by
      have hsame := w.publications_set hx w.files .renamed
      rw [World.publications] at hsame
      rw [World.publications, List.filterMap_append, hsame]
      simp [hself]
    rw [hjobs, List.foldl_append, List.foldl_cons, List.foldl_nil, put]
    dsimp only
    by_cases ht : n = x.job.target
    · rw [ht, Function.update_self, Function.update_self]
    · rw [Function.update_of_ne ht, Function.update_of_ne ht]
      exact h.visible n hn
  · intro n hn
    dsimp only
    rw [Function.update_of_ne (hhidden hn)]
    obtain hsame | ⟨j, y, hy, hyn⟩ := h.kept n hn
    · exact Or.inl hsame
    · refine Or.inr ⟨j, y, ?_, hyn⟩
      rw [List.getElem?_set_ne, hy]
      rintro rfl
      obtain rfl := Option.some.inj (hx.symm.trans hy)
      rw [hname] at hyn
      cases hyn
  · intro j hj
    rw [List.mem_append, List.mem_singleton] at hj
    by_cases hji : j = i
    · subst hji
      exact ⟨_, hself, by simp [Phase.hasPublished]⟩
    · obtain ⟨y, hy, hynot⟩ := h.recorded j (hj.resolve_right hji)
      exact ⟨y, by rw [List.getElem?_set_ne (Ne.symm hji), hy], hynot⟩
  · intro j y hy htrue
    obtain ⟨rfl, -⟩ | ⟨-, hother⟩ := writer_cases hy
    · exact List.mem_append_right _ List.mem_cons_self
    · exact List.mem_append_left _ (h.reported j y hother htrue)
  · refine List.nodup_append.mpr ⟨h.once, List.nodup_singleton _, ?_⟩
    rintro j hj k hk rfl
    obtain rfl := List.mem_singleton.mp hk
    obtain ⟨y, hy, hynot⟩ := h.recorded j hj
    obtain rfl := Option.some.inj (hx.symm.trans hy)
    exact hynot hfalse

theorem World.Sound.begin (h : w.Sound before) (job : Job N B hidden) :
    World.Sound before { w with writers := w.writers ++ [⟨job, .begun⟩] } where
  held := by
    intro j y n hy hyn
    obtain hold | ⟨-, rfl⟩ := Machine.getElem?_concat.mp hy
    · exact h.held j y n hold hyn
    · cases hyn
  apart := by
    intro j k y z n hy hz hyn hzn
    obtain hold | ⟨-, rfl⟩ := Machine.getElem?_concat.mp hy
    · obtain hold' | ⟨-, rfl⟩ := Machine.getElem?_concat.mp hz
      · exact h.apart j k y z n hold hold' hyn hzn
      · cases hzn
    · cases hyn
  filled := by
    intro j y n hy hyn
    obtain hold | ⟨-, rfl⟩ := Machine.getElem?_concat.mp hy
    · exact h.filled j y n hold hyn
    · cases hyn
  visible := by
    intro n hn
    have hjobs : World.publications { w with writers := w.writers ++ [⟨job, .begun⟩] } =
        w.publications := by
      apply List.filterMap_congr
      intro j hj
      obtain ⟨y, hy, -⟩ := h.recorded j hj
      dsimp only
      rw [List.getElem?_append_left (List.getElem?_eq_some_iff.mp hy).1]
    rw [hjobs]
    exact h.visible n hn
  kept := by
    intro n hn
    obtain hsame | ⟨j, y, hy, hyn⟩ := h.kept n hn
    · exact Or.inl hsame
    · exact Or.inr ⟨j, y, Machine.getElem?_concat.mpr (Or.inl hy), hyn⟩
  recorded := by
    intro j hj
    obtain ⟨y, hy, hynot⟩ := h.recorded j hj
    exact ⟨y, Machine.getElem?_concat.mpr (Or.inl hy), hynot⟩
  reported := by
    intro j y hy htrue
    obtain hold | ⟨-, rfl⟩ := Machine.getElem?_concat.mp hy
    · exact h.reported j y hold htrue
    · cases htrue
  once := h.once

/-- A rename is a removal of the hidden file and a publication. -/
theorem World.Sound.publish (h : w.Sound before) {i : Nat} {x : Writer N B hidden} {m : N}
    (hx : w.writers[i]? = some x) (hfilled : x.phase.filled = some m)
    (hfalse : x.phase.hasPublished = some false) :
    World.Sound before ⟨Function.update (Function.update w.files x.job.target (w.files m)) m none,
      w.writers.set i ⟨x.job, .renamed⟩, w.published ++ [i]⟩ := by
  have hname := Phase.name_of_filled hfilled
  have hremoved : World.Sound before ⟨Function.update w.files m none,
      w.writers.set i ⟨x.job, .returned false none⟩, w.published⟩ :=
    h.change hx (Or.inl hname) (fun n => by simp [Phase.name]) (fun n hn => nomatch hn)
      (Or.inl hfalse.symm)
  have hself : (w.writers.set i ⟨x.job, .returned false none⟩)[i]? =
      some ⟨x.job, .returned false none⟩ :=
    List.getElem?_set_self (List.getElem?_eq_some_iff.mp hx).1
  have hannounced := hremoved.announce hself rfl rfl
  have hne : m ≠ x.job.target := by
    rintro rfl
    have hhidden := (h.held i x _ hx hname).1
    rw [x.job.target_visible] at hhidden
    cases hhidden
  rw [h.filled i x m hx hfilled, Function.update_comm hne.symm]
  simpa [List.set_set] using hannounced

theorem World.Sound.step (w : World N B hidden) (a : Action N B hidden) (w' : World N B hidden)
    (hstep : w.step a = some w') (h : w.Sound before) : w'.Sound before := by
  obtain ⟨job, -, rfl⟩ | ⟨i, x, files, phase, publishes, hx, -, heffect, rfl⟩ := step_cases hstep
  · exact h.begin job
  · cases heffect with
    | stay hname hfilled hpublished => exact h.stay hx hname hfilled hpublished
    | @store phase n content howned hname hfilled hpublished =>
        refine h.change hx howned ?_ ?_ hpublished
        · intro m
          rw [hname]
          simp [eq_comm]
        · intro m hm
          have hmn := (Phase.name_of_filled hm).symm.trans hname
          rw [hfilled (Option.some.inj hmn ▸ hm)]
    | remove howned hname hpublished =>
        refine h.change hx (Or.inl howned) (fun m => by simp [hname]) ?_ hpublished
        intro m hm
        rw [Phase.name_of_filled hm] at hname
        cases hname
    | publish hfilled hfalse => exact h.publish hx hfilled hfalse

theorem World.jobs_step {a : Action N B hidden} (h : w.step a = some w') :
    w'.writers.map Writer.job = w.writers.map Writer.job ++ a.begun.toList := by
  obtain ⟨job, rfl, rfl⟩ | ⟨i, x, files, phase, publishes, hx, hbegun, -, rfl⟩ := step_cases h
  · rw [List.map_append]
    rfl
  · rw [hbegun, Option.toList_none, List.append_nil]
    apply List.ext_getElem?
    intro j
    rw [List.getElem?_map, List.getElem?_map, job_set hx]

/-- The jobs of the writers are those that were begun, in order. -/
theorem World.jobs_run {actions : List (Action N B hidden)} (h : w.run actions = some w') :
    w'.writers.map Writer.job = w.writers.map Writer.job ++ actions.filterMap Action.begun := by
  induction actions generalizing w with
  | nil =>
      obtain rfl := Option.some.inj h
      exact (List.append_nil _).symm
  | cons a rest ih =>
      obtain ⟨next, hfirst, hrest⟩ := Machine.run_cons_eq_some.mp h
      rw [ih hrest, World.jobs_step hfirst, List.append_assoc]
      cases hbegun : a.begun with
      | none => rw [List.filterMap_cons_none hbegun, Option.toList_none, List.nil_append]
      | some job => rw [List.filterMap_cons_some hbegun, Option.toList_some, List.singleton_append]

/-- A hidden name that is not as before is one writer's alone. -/
theorem World.Sound.hidden_cases (h : w.Sound before) {n : N} (hn : hidden n = true) :
    w.files n = before n ∨ before n = none ∧
      ∃! i : Nat, ∃ x : Writer N B hidden, w.writers[i]? = some x ∧ x.phase.name = some n := by
  obtain hsame | ⟨i, x, hx, hname⟩ := h.kept n hn
  · exact Or.inl hsame
  · refine Or.inr ⟨(h.held i x n hx hname).2.1, i, ⟨x, hx, hname⟩, ?_⟩
    rintro j ⟨y, hy, hyname⟩
    exact h.apart j i y x n hy hx hyname hname

/-- A writer says that it has published exactly if it has, once. -/
theorem World.Sound.count_published (h : w.Sound before) {i : Nat} {x : Writer N B hidden}
    (hx : w.writers[i]? = some x) {published : Bool} (hphase : x.phase.hasPublished = some published) :
    w.published.count i = if published then 1 else 0 := by
  cases published with
  | true => exact List.count_eq_one_of_mem h.once (h.reported i x hx hphase)
  | false =>
      apply List.count_eq_zero_of_not_mem
      intro hmem
      obtain ⟨y, hy, hynot⟩ := h.recorded i hmem
      obtain rfl := Option.some.inj (hx.symm.trans hy)
      exact hynot hphase

/-- Along every interleaving the files are sound. -/
theorem World.sound_run {actions : List (Action N B hidden)}
    (hrun : (World.init before).run actions = some w) : w.Sound before :=
  Machine.invariant_run World.Sound.step hrun (World.sound_init before)

end Soundness

end NodeScope.Lib.Publish
