import Mathlib.Data.List.Nodup
import Mathlib.Data.List.Perm.Basic

/-!
# Lists without repetitions

When a list is put together from parts that cannot meet, it is free of repetitions if its parts
are. Labels are pairs of a subject and a name, and a group of subjects that all carry the same
names repeats a label only by repeating a subject.
-/

namespace NodeScope.Lib.Distinct

variable {A B K V : Type}

theorem nodup_append_iff {l₁ l₂ : List A} (h : ∀ a ∈ l₁, a ∉ l₂) :
    (l₁ ++ l₂).Nodup ↔ l₁.Nodup ∧ l₂.Nodup := by
  rw [List.nodup_append]
  constructor
  · rintro ⟨h₁, h₂, -⟩
    exact ⟨h₁, h₂⟩
  · rintro ⟨h₁, h₂⟩
    refine ⟨h₁, h₂, ?_⟩
    rintro a ha _ hb rfl
    exact h a ha hb

/-- Parts are kept apart by any view in which they differ. -/
theorem nodup_append_iff_of_view (view : A → B) {l₁ l₂ : List A}
    (h : ∀ a ∈ l₁, ∀ b ∈ l₂, view a ≠ view b) : (l₁ ++ l₂).Nodup ↔ l₁.Nodup ∧ l₂.Nodup :=
  nodup_append_iff fun a ha hb => h a ha a hb rfl

/-- Every part lies in an area of its own, the first in the one with the given number. -/
def Placed (area : A → Nat) : Nat → List (List A) → Prop
  | _, [] => True
  | n, part :: rest => (∀ a ∈ part, area a = n) ∧ Placed area (n + 1) rest

theorem Placed.le {area : A → Nat} {n : Nat} {parts : List (List A)} (h : Placed area n parts) :
    ∀ a ∈ parts.flatten, n ≤ area a := by
  induction parts generalizing n with
  | nil => simp
  | cons part rest ih =>
      obtain ⟨hpart, hrest⟩ := h
      intro a ha
      rw [List.flatten_cons, List.mem_append] at ha
      obtain ha | ha := ha
      · exact Nat.le_of_eq (hpart a ha).symm
      · exact Nat.le_of_succ_le (ih hrest a ha)

/-- Parts in areas of their own never meet. -/
theorem Placed.nodup_flatten_iff {area : A → Nat} {n : Nat} {parts : List (List A)}
    (h : Placed area n parts) : parts.flatten.Nodup ↔ ∀ part ∈ parts, part.Nodup := by
  induction parts generalizing n with
  | nil => simp
  | cons part rest ih =>
      obtain ⟨hpart, hrest⟩ := h
      rw [List.flatten_cons, nodup_append_iff_of_view area, ih hrest, List.forall_mem_cons]
      intro a ha b hb heq
      have hle := hrest.le b hb
      rw [← heq, hpart a ha] at hle
      omega

/-- Two views that identify the same elements. -/
theorem nodup_map_congr {f : A → B} {g : A → K} {l : List A}
    (h : ∀ a ∈ l, ∀ b ∈ l, f a = f b ↔ g a = g b) : (l.map f).Nodup ↔ (l.map g).Nodup := by
  rw [List.Nodup, List.Nodup, List.pairwise_map, List.pairwise_map]
  exact List.Pairwise.iff_of_mem fun ha hb => not_congr (h _ ha _ hb)

/-- Every subject with every name. -/
def labels (subjects : List K) (names : List V) : List (K × V) :=
  subjects.flatMap fun k => names.map (Prod.mk k)

theorem mem_labels {subjects : List K} {names : List V} {p : K × V} :
    p ∈ labels subjects names ↔ p.1 ∈ subjects ∧ p.2 ∈ names := by
  rw [labels, List.mem_flatMap]
  constructor
  · rintro ⟨k, hk, hp⟩
    obtain ⟨v, hv, rfl⟩ := List.mem_map.mp hp
    exact ⟨hk, hv⟩
  · rintro ⟨hk, hv⟩
    exact ⟨p.1, hk, List.mem_map.mpr ⟨p.2, hv, rfl⟩⟩

theorem nodup_labels_iff {subjects : List K} {names : List V} (hne : names ≠ [])
    (hnames : names.Nodup) : (labels subjects names).Nodup ↔ subjects.Nodup := by
  obtain ⟨v, hv⟩ := List.exists_mem_of_ne_nil names hne
  rw [labels, List.nodup_flatMap]
  constructor
  · rintro ⟨-, hpairs⟩
    refine hpairs.imp ?_
    rintro k _ hdisjoint rfl
    exact hdisjoint (List.mem_map_of_mem hv) (List.mem_map_of_mem hv)
  · intro hsubjects
    refine ⟨fun k _ => hnames.map fun _ _ heq => (Prod.mk.inj heq).2, ?_⟩
    refine List.Pairwise.imp ?_ hsubjects
    rintro k k' hk p hp hp'
    obtain ⟨_, -, rfl⟩ := List.mem_map.mp hp
    obtain ⟨_, -, heq⟩ := List.mem_map.mp hp'
    exact hk (Prod.mk.inj heq).1.symm

/-- A loop that for each element gives part of what another gives. -/
theorem map_flatMap_sublist {f : A → List B} {g : A → List K} {view : B → K}
    (h : ∀ a, ((f a).map view).Sublist (g a)) (l : List A) :
    ((l.flatMap f).map view).Sublist (l.flatMap g) := by
  induction l with
  | nil => exact List.Sublist.slnil
  | cons a rest ih =>
      rw [List.flatMap_cons, List.map_append, List.flatMap_cons]
      exact (h a).append ih

end NodeScope.Lib.Distinct
