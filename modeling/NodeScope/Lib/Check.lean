import Mathlib.Algebra.Order.Ring.Int
import Mathlib.Tactic.Common

/-!
# Sequences of checks that end at the first failure

A validator is a sequence of guards in `Except`. The equations below say when
such a sequence succeeds, so that a proof about an accepted value reads the
guards one after another and never unfolds the monad.
-/

namespace NodeScope.Lib.Check

variable {ε ε' α β : Type}

/-- Stop with the given error when the condition holds. -/
def failIf (c : Bool) (e : ε) : Except ε Unit := if c then .error e else .ok ()

@[simp] theorem failIf_eq_ok {c : Bool} {e : ε} {u : Unit} :
    failIf c e = .ok u ↔ c = false := by
  cases c <;> simp [failIf]

theorem failIf_false (e : ε) : failIf false e = .ok () := rfl

theorem bind_eq_ok {x : Except ε α} {f : α → Except ε β} {b : β} :
    (x >>= f) = .ok b ↔ ∃ a, x = .ok a ∧ f a = .ok b := by
  cases x with
  | error e => simp [bind, Except.bind]
  | ok a => simp [bind, Except.bind]

/-- A check that returns nothing passes its success on to the next one. -/
@[simp] theorem unit_bind_eq_ok {x : Except ε Unit} {f : Unit → Except ε β} {b : β} :
    (x >>= f) = .ok b ↔ x = .ok () ∧ f () = .ok b := by
  cases x with
  | error e => simp [bind, Except.bind]
  | ok u => simp [bind, Except.bind]

@[simp] theorem ok_bind (a : α) (f : α → Except ε β) : (Except.ok a >>= f) = f a := rfl

@[simp] theorem error_bind (e : ε) (f : α → Except ε β) :
    (Except.error e >>= f) = .error e := rfl

theorem map_bind {γ : Type} (x : Except ε α) (f : α → Except ε β) (g : β → γ) :
    (x >>= f).map g = x >>= fun a => (f a).map g := by
  cases x <;> rfl

theorem bind_map {γ : Type} (x : Except ε α) (g : α → β) (f : β → Except ε γ) :
    (x.map g >>= f) = x >>= fun a => f (g a) := by
  cases x <;> rfl

@[simp] theorem mapError_eq_ok {x : Except ε α} {g : ε → ε'} {a : α} :
    x.mapError g = .ok a ↔ x = .ok a := by
  cases x <;> simp [Except.mapError]

@[simp] theorem mapError_eq_error {x : Except ε α} {g : ε → ε'} {e : ε'} :
    x.mapError g = .error e ↔ ∃ cause, x = .error cause ∧ g cause = e := by
  cases x <;> simp [Except.mapError]

@[simp] theorem failIf_eq_error {c : Bool} {e e' : ε} :
    failIf c e = .error e' ↔ c = true ∧ e = e' := by
  cases c <;> simp [failIf]

/-- A sequence fails in its first part, or in the rest. -/
theorem bind_eq_error {x : Except ε α} {f : α → Except ε β} {e : ε} :
    (x >>= f) = .error e ↔ x = .error e ∨ ∃ a, x = .ok a ∧ f a = .error e := by
  cases x <;> simp [bind, Except.bind]

theorem toOption_eq_some {x : Except ε α} {a : α} : x.toOption = some a ↔ x = .ok a := by
  cases x <;> simp [Except.toOption]

/-- A value that must be there. -/
def orFail (o : Option α) (e : ε) : Except ε α :=
  match o with
  | some a => .ok a
  | none => .error e

theorem orFail_bind_eq_ok {o : Option α} {e : ε} {f : α → Except ε β} {b : β} :
    (orFail o e >>= f) = .ok b ↔ ∃ a, o = some a ∧ f a = .ok b := by
  cases o <;> simp [orFail]

theorem orFail_eq_ok {o : Option α} {e : ε} {a : α} : orFail o e = .ok a ↔ o = some a := by
  cases o <;> simp [orFail]

@[simp] theorem orFail_eq_error {o : Option α} {e e' : ε} :
    orFail o e = .error e' ↔ o = none ∧ e = e' := by
  cases o <;> simp [orFail]

/-- Run a check on every element, in order, stopping at the first failure. -/
def forAll (check : α → Except ε Unit) : List α → Except ε Unit
  | [] => .ok ()
  | a :: rest => do
      check a
      forAll check rest

@[simp] theorem forAll_eq_ok {check : α → Except ε Unit} {l : List α} {u : Unit} :
    forAll check l = .ok u ↔ ∀ a ∈ l, check a = .ok () := by
  induction l with
  | nil => simp [forAll]
  | cons a rest ih =>
      simp only [forAll, unit_bind_eq_ok, ih, List.forall_mem_cons]

/-- A traversal that is undone element by element is undone as a whole. -/
theorem mapM_inverse {f : α → Except ε β} {g : β → Except ε α} {l : List α} {l' : List β}
    (hinv : ∀ a ∈ l, ∀ b, f a = .ok b → g b = .ok a) (h : l.mapM f = .ok l') :
    l'.mapM g = .ok l := by
  induction l generalizing l' with
  | nil =>
      obtain rfl : [] = l' := by simpa [pure, Except.pure] using h
      rfl
  | cons a rest ih =>
      simp only [List.mapM_cons, bind_eq_ok] at h
      obtain ⟨b, hb, bs, hbs, h⟩ := h
      obtain rfl : b :: bs = l' := by simpa [pure, Except.pure] using h
      have ha : g b = .ok a := hinv a (by simp) b hb
      have hr : bs.mapM g = .ok rest := ih (fun x hx => hinv x (by simp [hx])) hbs
      simp only [List.mapM_cons, ha, hr, ok_bind]
      rfl

variable {κ : Type} [DecidableEq κ]

/-- Check every element with its index, and stop at an element whose key was
seen before. The element's own check comes first. -/
def forAllDistinct (check : Nat → α → Except ε Unit) (key : α → κ) (duplicate : κ → ε) :
    Nat → List κ → List α → Except ε Unit
  | _, _, [] => .ok ()
  | index, seen, a :: rest => do
      check index a
      failIf (decide (key a ∈ seen)) (duplicate (key a))
      forAllDistinct check key duplicate (index + 1) (key a :: seen) rest

/-- The loop accepts exactly the lists whose elements pass and whose keys are
new and pairwise distinct, when passing does not depend on the index. -/
theorem forAllDistinct_eq_ok {check : Nat → α → Except ε Unit} {key : α → κ}
    {duplicate : κ → ε} {passes : α → Prop}
    (hcheck : ∀ i a u, check i a = .ok u ↔ passes a) (l : List α) (i : Nat)
    (seen : List κ) {u : Unit} :
    forAllDistinct check key duplicate i seen l = .ok u ↔
      (∀ a ∈ l, passes a) ∧ (∀ a ∈ l, key a ∉ seen) ∧ (l.map key).Nodup := by
  induction l generalizing i seen with
  | nil => simp [forAllDistinct]
  | cons a rest ih =>
      simp only [forAllDistinct, unit_bind_eq_ok, hcheck, failIf_eq_ok, decide_eq_false_iff_not,
        ih, List.map_cons, List.nodup_cons, List.mem_cons, not_or, List.mem_map,
        forall_eq_or_imp]
      constructor
      · rintro ⟨ha, hs, hr, hk, hn⟩
        refine ⟨⟨ha, hr⟩, ⟨hs, fun b hb => (hk b hb).2⟩, ?_, hn⟩
        rintro ⟨b, hb, hba⟩
        exact (hk b hb).1 hba
      · rintro ⟨⟨ha, hr⟩, ⟨hs, hk⟩, hna, hn⟩
        exact ⟨ha, hs, hr, fun b hb => ⟨fun h => hna ⟨b, hb, h⟩, hk b hb⟩, hn⟩

/-- Where every element passes, the loop can fail only at a key it has seen. -/
theorem forAllDistinct_eq_error {check : Nat → α → Except ε Unit} {key : α → κ}
    {duplicate : κ → ε} {l : List α} (hcheck : ∀ i, ∀ a ∈ l, check i a = .ok ()) {i : Nat}
    {seen : List κ} {e : ε} (h : forAllDistinct check key duplicate i seen l = .error e) :
    ∃ k, e = duplicate k := by
  induction l generalizing i seen with
  | nil => cases h
  | cons a rest ih =>
      rw [forAllDistinct, hcheck i a List.mem_cons_self, ok_bind, bind_eq_error] at h
      obtain hseen | ⟨_, -, hrest⟩ := h
      · exact ⟨key a, (failIf_eq_error.mp hseen).2.symm⟩
      · exact ih (fun j b hb => hcheck j b (List.mem_cons_of_mem a hb)) hrest

end NodeScope.Lib.Check
