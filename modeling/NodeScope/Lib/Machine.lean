import Mathlib.Algebra.Order.Ring.Int
import Mathlib.Data.List.Basic
import Mathlib.Order.Nat

/-!
# Runs of a partial step function

A machine is a step function that says which actions are enabled in a state and
where they lead. A property of states holds along a run when the steps keep it,
and a relation between a state and the later ones needs a step to keep it on the
right only.
-/

namespace NodeScope.Lib.Machine

variable {S A : Type} {step : S → A → Option S}

/-- The actions in order, each enabled in the state it is taken in. -/
def run (step : S → A → Option S) : S → List A → Option S
  | s, [] => some s
  | s, a :: rest => (step s a).bind fun s' => run step s' rest

@[simp] theorem run_nil (s : S) : run step s [] = some s := rfl

theorem run_cons_eq_some {s s' : S} {a : A} {rest : List A} :
    run step s (a :: rest) = some s' ↔ ∃ s₁, step s a = some s₁ ∧ run step s₁ rest = some s' :=
  Option.bind_eq_some_iff

theorem run_append_eq_some {s s' : S} {before after : List A} :
    run step s (before ++ after) = some s' ↔
      ∃ s₁, run step s before = some s₁ ∧ run step s₁ after = some s' := by
  induction before generalizing s with
  | nil => simp
  | cons a rest ih =>
      rw [List.cons_append, run_cons_eq_some]
      constructor
      · rintro ⟨s₁, hstep, hrest⟩
        obtain ⟨s₂, hbefore, hafter⟩ := ih.mp hrest
        exact ⟨s₂, run_cons_eq_some.mpr ⟨s₁, hstep, hbefore⟩, hafter⟩
      · rintro ⟨s₂, hbefore, hafter⟩
        obtain ⟨s₁, hstep, hrest⟩ := run_cons_eq_some.mp hbefore
        exact ⟨s₁, hstep, ih.mpr ⟨s₂, hrest, hafter⟩⟩

/-- Where every action is enabled, every run is. -/
theorem run_isSome (hstep : ∀ s a, (step s a).isSome = true) (s : S) (actions : List A) :
    (run step s actions).isSome = true := by
  induction actions generalizing s with
  | nil => rfl
  | cons a rest ih =>
      obtain ⟨s₁, hfirst⟩ := Option.isSome_iff_exists.mp (hstep s a)
      rw [run, hfirst]
      exact ih s₁

/-- What every step keeps, a run keeps. -/
theorem invariant_run {I : S → Prop} (hstep : ∀ s a s', step s a = some s' → I s → I s')
    {s s' : S} {actions : List A} (hrun : run step s actions = some s') (hs : I s) : I s' := by
  induction actions generalizing s with
  | nil =>
      obtain rfl := Option.some.inj hrun
      exact hs
  | cons a rest ih =>
      obtain ⟨s₁, hfirst, hrest⟩ := run_cons_eq_some.mp hrun
      exact ih hrest (hstep s a s₁ hfirst hs)

/-- A run seen without some of its actions: where the other actions do to the related state
what they do in the run, and those that are left out keep it related, the rest is a run. -/
theorem run_filter {R : S → S → Prop} {visible : A → Bool}
    (hvisible : ∀ s t a s', step s a = some s' → visible a = true → R s t →
      ∃ t', step t a = some t' ∧ R s' t')
    (hhidden : ∀ s t a s', step s a = some s' → visible a = false → R s t → R s' t)
    {s t s' : S} {actions : List A} (hrun : run step s actions = some s') (hs : R s t) :
    ∃ t', run step t (actions.filter visible) = some t' ∧ R s' t' := by
  induction actions generalizing s t with
  | nil =>
      obtain rfl := Option.some.inj hrun
      exact ⟨t, rfl, hs⟩
  | cons a rest ih =>
      obtain ⟨s₁, hfirst, hrest⟩ := run_cons_eq_some.mp hrun
      cases ha : visible a with
      | true =>
          obtain ⟨t₁, ht, hrelated⟩ := hvisible s t a s₁ hfirst ha hs
          obtain ⟨t', htail, hlast⟩ := ih hrest hrelated
          rw [List.filter_cons_of_pos ha]
          exact ⟨t', run_cons_eq_some.mpr ⟨t₁, ht, htail⟩, hlast⟩
      | false =>
          rw [List.filter_cons_of_neg (by simp [ha])]
          exact ih hrest (hhidden s t a s₁ hfirst ha hs)

/-- Every step of a run is taken under a condition on the state before it. -/
def Along (step : S → A → Option S) (P : S → A → Prop) : S → List A → Prop
  | _, [] => True
  | s, a :: rest => P s a ∧ ∀ s', step s a = some s' → Along step P s' rest

theorem along_of_forall_mem {Q : A → Prop} {actions : List A} (h : ∀ a ∈ actions, Q a) (s : S) :
    Along step (fun _ a => Q a) s actions := by
  induction actions generalizing s with
  | nil => trivial
  | cons a rest ih =>
      refine ⟨h a List.mem_cons_self, ?_⟩
      intro s' _
      exact ih (fun b hb => h b (List.mem_cons_of_mem a hb)) s'

/-- Whether a run keeps to a condition can be found by running it. -/
instance decidableAlong {P : S → A → Prop} [∀ s a, Decidable (P s a)] :
    ∀ (s : S) (actions : List A), Decidable (Along step P s actions)
  | _, [] => .isTrue trivial
  | s, a :: rest =>
      match hstep : step s a with
      | none => decidable_of_iff (P s a) (by simp [Along, hstep])
      | some s' =>
          have : Decidable (Along step P s' rest) := decidableAlong s' rest
          decidable_of_iff (P s a ∧ Along step P s' rest) (by simp [Along, hstep])

/-- What every step under the condition keeps, a run under it keeps. -/
theorem invariant_run_along {I : S → Prop} {P : S → A → Prop}
    (hstep : ∀ s a s', step s a = some s' → P s a → I s → I s') {s s' : S} {actions : List A}
    (hrun : run step s actions = some s') (halong : Along step P s actions) (hs : I s) : I s' := by
  induction actions generalizing s with
  | nil =>
      obtain rfl := Option.some.inj hrun
      exact hs
  | cons a rest ih =>
      obtain ⟨s₁, hfirst, hrest⟩ := run_cons_eq_some.mp hrun
      exact ih hrest (halong.2 s₁ hfirst) (hstep s a s₁ hfirst halong.1 hs)

/-- A condition under which the steps keep an invariant entails what it entails where the
invariant holds, along every list of actions. -/
theorem along_of_invariant {I : S → Prop} {P Q : S → A → Prop}
    (hstep : ∀ s a s', step s a = some s' → P s a → I s → I s')
    (himp : ∀ s a, I s → P s a → Q s a) {s : S} {actions : List A} (hs : I s)
    (halong : Along step P s actions) : Along step Q s actions := by
  induction actions generalizing s with
  | nil => trivial
  | cons a rest ih =>
      refine ⟨himp s a hs halong.1, ?_⟩
      intro s₁ hfirst
      exact ih (hstep s a s₁ hfirst halong.1 hs) (halong.2 s₁ hfirst)

/-- Two conditions that agree wherever an invariant holds, and of which one keeps the
invariant, agree along a run. -/
theorem along_iff {I : S → Prop} {P Q : S → A → Prop}
    (hstep : ∀ s a s', step s a = some s' → P s a → I s → I s')
    (hiff : ∀ s a s', step s a = some s' → I s → (P s a ↔ Q s a)) {s s' : S} {actions : List A}
    (hrun : run step s actions = some s') (hs : I s) :
    Along step P s actions ↔ Along step Q s actions := by
  induction actions generalizing s with
  | nil => exact Iff.rfl
  | cons a rest ih =>
      obtain ⟨s₁, hfirst, hrest⟩ := run_cons_eq_some.mp hrun
      have hhead := hiff s a s₁ hfirst hs
      have htail (hP : P s a) : Along step P s₁ rest ↔ Along step Q s₁ rest :=
        ih hrest (hstep s a s₁ hfirst hP hs)
      simp only [Along, hfirst, Option.some.injEq, forall_eq']
      constructor
      · rintro ⟨hP, halong⟩
        exact ⟨hhead.mp hP, (htail hP).mp halong⟩
      · rintro ⟨hQ, halong⟩
        exact ⟨hhead.mpr hQ, (htail (hhead.mpr hQ)).mpr halong⟩

/-- The entries of a history that one more entry was added to. -/
theorem getElem?_concat {α : Type} {l : List α} {a b : α} {i : Nat} :
    (l ++ [a])[i]? = some b ↔ l[i]? = some b ∨ (i = l.length ∧ a = b) := by
  rcases lt_trichotomy i l.length with h | h | h
  · rw [List.getElem?_append_left h]
    simp [h.ne]
  · subst h
    simp
  · have hlength : (l ++ [a]).length ≤ i := by
      rw [List.length_append, List.length_singleton]
      exact h
    rw [List.getElem?_eq_none hlength, List.getElem?_eq_none h.le]
    simp [h.ne']

/-- The parties of a system after one of them was replaced. -/
theorem getElem?_set_cases {α : Type} {l : List α} {i j : Nat} {a b : α}
    (h : (l.set i a)[j]? = some b) : (j = i ∧ b = a) ∨ (j ≠ i ∧ l[j]? = some b) := by
  rcases eq_or_ne j i with rfl | hne
  · obtain ⟨hlt, hget⟩ := List.getElem?_eq_some_iff.mp h
    rw [List.getElem_set_self] at hget
    exact Or.inl ⟨rfl, hget.symm⟩
  · rw [List.getElem?_set_ne (Ne.symm hne)] at h
    exact Or.inr ⟨hne, h⟩

end NodeScope.Lib.Machine
