import Mathlib.Data.List.Induction
import Mathlib.Data.List.Nodup
import Mathlib.Data.Set.Function
import Mathlib.Order.MinMax

/-!
# Keyed tables

A table is a list of rows and a function that gives the primary key of a row.
`put` writes a row under its key, `upsert` is an insertion whose conflict clause
overwrites the stored row when a guard permits it. `find_foldl_upsert` reduces a
run of upserts to the offers made to one key, and `keep_spec` says what a run of
offers keeps when the guard follows a rank.
-/

namespace NodeScope.Lib.Table

section Rows

variable {R K : Type} [DecidableEq K] (key : R → K)

/-- The row stored under a key. -/
def find (k : K) (rows : List R) : Option R :=
  rows.find? fun r => decide (key r = k)

/-- Write a row in the place of the one with its key, or at the end. -/
def put (r : R) : List R → List R
  | [] => [r]
  | x :: rest => if key x = key r then r :: rest else x :: put r rest

variable {key}

theorem find_eq_none {k : K} {rows : List R} :
    find key k rows = none ↔ ∀ r ∈ rows, key r ≠ k := by
  simp [find]

theorem mem_of_find {k : K} {rows : List R} {r : R} (h : find key k rows = some r) :
    r ∈ rows ∧ key r = k :=
  ⟨List.mem_of_find?_eq_some h, by simpa using List.find?_some h⟩

theorem find_put (k : K) (r : R) (rows : List R) :
    find key k (put key r rows) = if key r = k then some r else find key k rows := by
  induction rows with
  | nil => by_cases h : key r = k <;> simp [put, find, h]
  | cons x rest ih =>
      simp only [find] at ih
      by_cases hx : key x = key r
      · rw [put, if_pos hx]
        by_cases h : key r = k
        · simp [find, h]
        · simp [find, h, hx]
      · rw [put, if_neg hx]
        by_cases h : key r = k
        · have hxk : key x ≠ k := fun e => hx (e.trans h.symm)
          rw [if_pos h] at ih ⊢
          simp [find, hxk, ih]
        · rw [if_neg h] at ih ⊢
          simp only [find, List.find?_cons, ih]

theorem mem_put {r x : R} {rows : List R} (h : x ∈ put key r rows) : x = r ∨ x ∈ rows := by
  induction rows with
  | nil => exact Or.inl (by simpa [put] using h)
  | cons y rest ih =>
      rw [put] at h
      by_cases hy : key y = key r
      · rw [if_pos hy, List.mem_cons] at h
        exact h.imp_right (List.mem_cons_of_mem y)
      · rw [if_neg hy, List.mem_cons] at h
        rcases h with rfl | h
        · exact Or.inr List.mem_cons_self
        · exact (ih h).imp_right (List.mem_cons_of_mem y)

/-- The rows of a class of keys are not touched by a write outside the class, and
see a write inside it as a write to them alone. -/
theorem filter_put (key : R → K) (p : R → Bool) (r : R) (rows : List R)
    (hp : ∀ x, key x = key r → p x = p r) :
    (put key r rows).filter p = if p r then put key r (rows.filter p) else rows.filter p := by
  induction rows with
  | nil => by_cases h : p r <;> simp [put, h]
  | cons x rest ih =>
      by_cases hx : key x = key r
      · have hpx := hp x hx
        by_cases h : p r = true
        · simp [put, hx, hpx, h]
        · simp [put, hx, hpx, h]
      · rw [put, if_neg hx]
        by_cases h : p r = true
        · by_cases hpx : p x = true
          · simp [hpx, h, put, hx, ih]
          · simp [hpx, h, ih]
        · simp only [h, Bool.false_eq_true, if_false] at ih ⊢
          simp only [List.filter_cons, ih]

/-- A class of keys can be looked up among its own rows. -/
theorem find_filter (p : R → Bool) (hp : ∀ x y, key x = key y → p x = p y) {r : R}
    (hr : p r = true) {rows : List R} :
    find key (key r) (rows.filter p) = find key (key r) rows := by
  simp only [find, List.find?_filter]
  congr 1
  funext x
  by_cases hx : key x = key r
  · simp [hx, hp x r hx, hr]
  · simp [hx]

theorem nodup_put (r : R) {rows : List R} (h : (rows.map key).Nodup) :
    ((put key r rows).map key).Nodup := by
  induction rows with
  | nil => simp [put]
  | cons x rest ih =>
      simp only [List.map_cons, List.nodup_cons, List.mem_map, not_exists, not_and] at h
      by_cases hx : key x = key r
      · simp only [put, hx, if_true, List.map_cons, List.nodup_cons, List.mem_map, not_exists,
          not_and]
        refine ⟨?_, h.2⟩
        intro y hy
        rw [← hx]
        exact h.1 y hy
      · simp only [put, hx, if_false, List.map_cons, List.nodup_cons, List.mem_map, not_exists,
          not_and]
        refine ⟨?_, ih h.2⟩
        intro y hy
        rcases mem_put hy with rfl | hy
        · exact fun e => hx e.symm
        · exact h.1 y hy

/-- Of two writes under one key the second counts. -/
theorem put_put {r r' : R} (h : key r = key r') (rows : List R) :
    put key r' (put key r rows) = put key r' rows := by
  induction rows with
  | nil => simp [put, h]
  | cons x rest ih =>
      by_cases hx : key x = key r
      · simp [put, h, hx]
      · simp [put, hx, h ▸ hx, ih]

/-- In a table without duplicate keys every row is the one its key finds. -/
theorem find_eq_some_iff {k : K} {rows : List R} {r : R} (h : (rows.map key).Nodup) :
    find key k rows = some r ↔ r ∈ rows ∧ key r = k := by
  constructor
  · exact mem_of_find
  · rintro ⟨hr, rfl⟩
    cases hfind : find key (key r) rows with
    | none => exact absurd rfl (find_eq_none.mp hfind r hr)
    | some r' =>
        obtain ⟨hr', hkey⟩ := mem_of_find hfind
        rw [List.inj_on_of_nodup_map h hr' hr hkey]

/-- A table has one row under the key of each of its rows. -/
theorem filter_key_eq {rows : List R} (h : (rows.map key).Nodup) {r : R} (hr : r ∈ rows) :
    (rows.filter fun x => decide (key x = key r)) = [r] := by
  induction rows with
  | nil => cases hr
  | cons x rest ih =>
      simp only [List.map_cons, List.nodup_cons, List.mem_map, not_exists, not_and] at h
      rcases List.mem_cons.mp hr with rfl | hr
      · have hrest : rest.filter (fun y => decide (key y = key r)) = [] := by
          rw [List.filter_eq_nil_iff]
          intro y hy hkey
          exact h.1 y hy (decide_eq_true_eq.mp hkey)
        simp [hrest]
      · have hx : ¬ key x = key r := fun hkey => h.1 r hr hkey.symm
        simpa [hx] using ih h.2 hr

/-- In a table without duplicate keys a write replaces the row with its key. -/
theorem mem_put_iff (r x : R) {rows : List R} (h : (rows.map key).Nodup) :
    x ∈ put key r rows ↔ x = r ∨ (x ∈ rows ∧ key x ≠ key r) := by
  induction rows with
  | nil => simp [put]
  | cons y rest ih =>
      simp only [List.map_cons, List.nodup_cons, List.mem_map, not_exists, not_and] at h
      by_cases hy : key y = key r
      · have hrest : x ∈ rest → key x ≠ key r := fun hx e => h.1 x hx (e.trans hy.symm)
        simp only [put, hy, if_true, List.mem_cons]
        constructor
        · rintro (rfl | hx)
          · exact Or.inl rfl
          · exact Or.inr ⟨Or.inr hx, hrest hx⟩
        · rintro (rfl | ⟨rfl | hx, hne⟩)
          · exact Or.inl rfl
          · exact absurd hy hne
          · exact Or.inr hx
      · simp only [put, hy, if_false, List.mem_cons, ih h.2]
        constructor
        · rintro (rfl | rfl | hx)
          · exact Or.inr ⟨Or.inl rfl, hy⟩
          · exact Or.inl rfl
          · exact Or.inr ⟨Or.inr hx.1, hx.2⟩
        · rintro (rfl | ⟨rfl | hx, hne⟩)
          · exact Or.inr (Or.inl rfl)
          · exact Or.inl rfl
          · exact Or.inr (Or.inr ⟨hx, hne⟩)

/-- A column that tells rows apart still does after a write whose value for it no
other row has. -/
theorem injOn_put {C : Type} {column : R → C} {r : R} {rows : List R}
    (hkeys : (rows.map key).Nodup) (hcolumn : Set.InjOn column {x | x ∈ rows})
    (hr : ∀ x ∈ rows, key x ≠ key r → column x ≠ column r) :
    Set.InjOn column {x | x ∈ put key r rows} := by
  intro x hx y hy hxy
  rcases (mem_put_iff r x hkeys).mp hx with rfl | ⟨hxold, hxr⟩
  · rcases (mem_put_iff x y hkeys).mp hy with rfl | ⟨hyold, hyx⟩
    · rfl
    · exact absurd hxy.symm (hr y hyold hyx)
  · rcases (mem_put_iff r y hkeys).mp hy with rfl | ⟨hyold, -⟩
    · exact absurd hxy (hr x hxold hxr)
    · exact hcolumn hxold hyold hxy

variable (replaces : R → R → Bool)

/-- What remains of a stored row after another one is offered for its key. -/
def keep : Option R → R → Option R
  | none, r => some r
  | some old, r => if replaces old r then some r else some old

variable (key) in
/-- No row is stored under the key of `r`, or `r` may replace the one that is. -/
def admits (rows : List R) (r : R) : Bool :=
  match find key (key r) rows with
  | none => true
  | some old => replaces old r

variable (key) in
/-- `insert … on conflict (key) do update … where replaces`. -/
def upsert (rows : List R) (r : R) : List R :=
  if admits key replaces rows r then put key r rows else rows

theorem find_upsert (k : K) (rows : List R) (r : R) :
    find key k (upsert key replaces rows r) =
      if key r = k then keep replaces (find key k rows) r else find key k rows := by
  by_cases hk : key r = k
  · subst hk
    cases hf : find key (key r) rows with
    | none => simp [upsert, admits, hf, keep, find_put]
    | some old => by_cases hr : replaces old r = true <;> simp [upsert, admits, hf, keep, find_put, hr]
  · by_cases ha : admits key replaces rows r = true <;> simp [upsert, ha, find_put, hk]

theorem nodup_foldl_upsert (rs : List R) {rows : List R} (h : (rows.map key).Nodup) :
    ((rs.foldl (upsert key replaces) rows).map key).Nodup := by
  induction rs generalizing rows with
  | nil => exact h
  | cons r rest ih =>
      apply ih
      rw [upsert]
      split
      · exact nodup_put r h
      · exact h

/-- A run of upserts acts on a key through the rows offered for it. -/
theorem mem_foldl_upsert {rs rows : List R} {x : R}
    (h : x ∈ rs.foldl (upsert key replaces) rows) : x ∈ rs ∨ x ∈ rows := by
  induction rs generalizing rows with
  | nil => exact Or.inr h
  | cons r rest ih =>
      rcases ih h with hrest | hrows
      · exact Or.inl (List.mem_cons_of_mem r hrest)
      · rw [upsert] at hrows
        split at hrows
        · rcases mem_put hrows with rfl | hold
          · exact Or.inl List.mem_cons_self
          · exact Or.inr hold
        · exact Or.inr hrows

theorem find_foldl_upsert (k : K) (rs rows : List R) :
    find key k (rs.foldl (upsert key replaces) rows) =
      (rs.filter fun r => decide (key r = k)).foldl (keep replaces) (find key k rows) := by
  induction rs generalizing rows with
  | nil => rfl
  | cons r rest ih =>
      rw [List.foldl_cons, ih, find_upsert]
      by_cases hk : key r = k <;> simp [hk]

theorem filter_upsert (p : R → Bool) (r : R) (rows : List R)
    (hp : ∀ x y, key x = key y → p x = p y) :
    (upsert key replaces rows r).filter p =
      if p r then upsert key replaces (rows.filter p) r else rows.filter p := by
  have hput := filter_put key p r rows fun x hx => hp x r hx
  by_cases hr : p r = true
  · have hadmits : admits key replaces (rows.filter p) r = admits key replaces rows r := by
      rw [admits, find_filter p hp hr, admits]
    rw [if_pos hr] at hput ⊢
    by_cases ha : admits key replaces rows r = true
    · simp only [upsert, hadmits, ha, if_true, hput]
    · simp only [upsert, hadmits, ha, Bool.false_eq_true, if_false]
  · rw [if_neg hr] at hput ⊢
    by_cases ha : admits key replaces rows r = true
    · simp only [upsert, ha, if_true, hput]
    · simp only [upsert, ha, Bool.false_eq_true, if_false]

section View

variable {f : R → R} (hkey : ∀ x, key (f x) = key x)

include hkey

theorem map_put (r : R) (rows : List R) :
    (put key r rows).map f = put key (f r) (rows.map f) := by
  induction rows with
  | nil => rfl
  | cons x rest ih =>
      by_cases hx : key x = key r
      · simp [put, hkey, hx]
      · simp [put, hkey, hx, ih]

theorem find_map (k : K) (rows : List R) :
    find key k (rows.map f) = (find key k rows).map f := by
  simp only [find, List.find?_map, Function.comp_def, hkey]

/-- A view that keeps the key and what the guard reads commutes with upserts. -/
theorem map_upsert (hreplaces : ∀ x y, replaces (f x) (f y) = replaces x y) (rows : List R)
    (r : R) :
    (upsert key replaces rows r).map f = upsert key replaces (rows.map f) (f r) := by
  have hadmits : admits key replaces (rows.map f) (f r) = admits key replaces rows r := by
    rw [admits, hkey, find_map hkey, admits]
    cases find key (key r) rows with
    | none => rfl
    | some old => exact hreplaces old r
  by_cases h : admits key replaces rows r = true
  · rw [upsert, upsert, hadmits, if_pos h, if_pos h, map_put hkey]
  · rw [upsert, upsert, hadmits, if_neg h, if_neg h]

theorem map_foldl_upsert (hreplaces : ∀ x y, replaces (f x) (f y) = replaces x y)
    (rs rows : List R) :
    (rs.foldl (upsert key replaces) rows).map f =
      (rs.map f).foldl (upsert key replaces) (rows.map f) := by
  induction rs generalizing rows with
  | nil => rfl
  | cons r rest ih =>
      rw [List.foldl_cons, ih, map_upsert replaces hkey hreplaces, List.map_cons, List.foldl_cons]

end View

end Rows

/-- What is kept of some views is the view of what is kept. -/
theorem map_foldl_keep {S R : Type} (f : S → R) (replaces : R → R → Bool) (rs : List S)
    (start : Option S) :
    (rs.foldl (keep fun x y => replaces (f x) (f y)) start).map f =
      (rs.map f).foldl (keep replaces) (start.map f) := by
  induction rs generalizing start with
  | nil => rfl
  | cons r rest ih =>
      rw [List.foldl_cons, ih, List.map_cons, List.foldl_cons]
      cases start with
      | none => rfl
      | some old => by_cases h : replaces (f old) (f r) = true <;> simp [keep, h]

section Rank

variable {R L : Type} [LinearOrder L] (rank : R → L) (replaces : R → R → Bool)

/-- The guard lets a greater row in and never lets a smaller one in. What it does
with a tie is left open. -/
structure Follows : Prop where
  greater : ∀ old r, rank old < rank r → replaces old r = true
  noSmaller : ∀ old r, replaces old r = true → rank old ≤ rank r

variable {rank replaces}

/-- A run of offers keeps one of the greatest rows among the offered and the
stored ones. -/
theorem keep_spec (h : Follows rank replaces) (rs : List R) (start : Option R) (best : R)
    (hbest : rs.foldl (keep replaces) start = some best) :
    best ∈ start.toList ++ rs ∧ ∀ x ∈ start.toList ++ rs, rank x ≤ rank best := by
  induction rs generalizing start with
  | nil =>
      obtain rfl : start = some best := hbest
      simp
  | cons r rest ih =>
      rw [List.foldl_cons] at hbest
      obtain ⟨hmem, hmax⟩ := ih _ hbest
      cases start with
      | none => exact ⟨hmem, hmax⟩
      | some old =>
          simp only [keep] at hmem hmax
          by_cases hr : replaces old r = true
          · simp only [hr, if_true, Option.toList_some, List.singleton_append] at hmem hmax ⊢
            refine ⟨List.mem_cons_of_mem old hmem, ?_⟩
            have hle : rank old ≤ rank best :=
              le_trans (h.noSmaller old r hr) (hmax r List.mem_cons_self)
            exact List.forall_mem_cons.mpr ⟨hle, hmax⟩
          · simp only [hr, Bool.false_eq_true, if_false, Option.toList_some,
              List.singleton_append] at hmem hmax ⊢
            have hle : rank r ≤ rank best := by
              have hro : rank r ≤ rank old := not_lt.mp fun hlt => hr (h.greater old r hlt)
              exact le_trans hro (hmax old List.mem_cons_self)
            have hrest := List.forall_mem_cons.mp hmax
            refine ⟨?_, List.forall_mem_cons.mpr
              ⟨hrest.1, List.forall_mem_cons.mpr ⟨hle, hrest.2⟩⟩⟩
            rcases List.mem_cons.mp hmem with rfl | hmem
            · exact List.mem_cons_self
            · exact List.mem_cons_of_mem _ (List.mem_cons_of_mem _ hmem)

theorem keep_isSome (rs : List R) (start : Option R) :
    (rs.foldl (keep replaces) start).isSome = (start.isSome || !rs.isEmpty) := by
  induction rs generalizing start with
  | nil => simp
  | cons r rest ih =>
      rw [List.foldl_cons, ih]
      cases start with
      | none => simp [keep]
      | some old => by_cases hr : replaces old r = true <;> simp [keep, hr]

/-- An offer above the stored row gets in, or another one that is not below it. -/
theorem keep_offered (h : Follows rank replaces) {rs : List R} {start : Option R} {x : R}
    (hx : x ∈ rs) (hstored : ∀ old ∈ start, rank old < rank x) :
    ∃ best ∈ rs, rs.foldl (keep replaces) start = some best ∧ rank x ≤ rank best := by
  have hsome : (rs.foldl (keep replaces) start).isSome = true := by
    rw [keep_isSome]
    cases rs with
    | nil => cases hx
    | cons r rest => simp
  obtain ⟨best, hbest⟩ := Option.isSome_iff_exists.mp hsome
  obtain ⟨hmem, hmax⟩ := keep_spec h rs start best hbest
  have hle := hmax x (List.mem_append_right _ hx)
  rcases List.mem_append.mp hmem with hold | hnew
  · exact absurd hle (hstored best (Option.mem_toList.mp hold)).not_ge
  · exact ⟨best, hnew, hbest, hle⟩

/-- The rank that is kept is the greatest rank of a candidate. -/
theorem map_rank_keep (h : Follows rank replaces) (rs : List R) (start : Option R) :
    (rs.foldl (keep replaces) start).map rank = ((start.toList ++ rs).map rank).max? := by
  cases hbest : rs.foldl (keep replaces) start with
  | none =>
      have hnone : (rs.foldl (keep replaces) start).isSome = _ := keep_isSome rs start
      rw [hbest] at hnone
      cases start with
      | some old => simp at hnone
      | none =>
          obtain rfl : rs = [] := by simpa using hnone.symm
          rfl
  | some best =>
      obtain ⟨hmem, hmax⟩ := keep_spec h rs start best hbest
      have : Std.LawfulOrderMax L := .of_max_le_iff (fun _ _ _ => max_le_iff) max_choice
      rw [Option.map_some, eq_comm, List.max?_eq_some_iff]
      refine ⟨List.mem_map_of_mem hmem, ?_⟩
      intro b hb
      obtain ⟨x, hx, rfl⟩ := List.mem_map.mp hb
      exact hmax x hx

section Strict

variable (hstrict : ∀ old r, replaces old r = true ↔ rank old < rank r)

include hstrict

/-- Offers that are not above the stored row leave it. -/
theorem keep_stored {rs : List R} {start : Option R}
    (h : ∀ x ∈ rs, ∃ old ∈ start, rank x ≤ rank old) : rs.foldl (keep replaces) start = start := by
  induction rs with
  | nil => rfl
  | cons r rest ih =>
      obtain ⟨hr, hrest⟩ := List.forall_mem_cons.mp h
      obtain ⟨old, rfl, hle⟩ := hr
      have hno : replaces old r ≠ true := mt (hstrict old r).mp hle.not_gt
      rw [List.foldl_cons, keep, if_neg hno]
      exact ih hrest

theorem follows_of_strict : Follows rank replaces :=
  ⟨fun old r => (hstrict old r).mpr, fun old r h => ((hstrict old r).mp h).le⟩

/-- The last offer is kept if it is above all that was offered before and stored. -/
theorem keep_last {rs : List R} {start : Option R} {b : R}
    (h : ∀ x ∈ start.toList ++ rs, rank x < rank b) :
    (rs ++ [b]).foldl (keep replaces) start = some b := by
  rw [List.foldl_append, List.foldl_cons, List.foldl_nil]
  cases hkept : rs.foldl (keep replaces) start with
  | none => rfl
  | some best =>
      have hmem := (keep_spec (follows_of_strict hstrict) rs start best hkept).1
      rw [keep, if_pos ((hstrict best b).mpr (h best hmem))]

/-- The last offer is not kept if it is not above one of those before it. -/
theorem keep_not_last {rs : List R} {start : Option R} {b x : R} (hx : x ∈ start.toList ++ rs)
    (h : rank b ≤ rank x) :
    ∃ best ∈ start.toList ++ rs, (rs ++ [b]).foldl (keep replaces) start = some best ∧
      rank x ≤ rank best := by
  rw [List.foldl_append, List.foldl_cons, List.foldl_nil]
  cases hkept : rs.foldl (keep replaces) start with
  | none =>
      have hnone : (rs.foldl (keep replaces) start).isSome = _ := keep_isSome rs start
      rw [hkept] at hnone
      cases start <;> simp_all
  | some best =>
      obtain ⟨hmem, hmax⟩ := keep_spec (follows_of_strict hstrict) rs start best hkept
      refine ⟨best, hmem, ?_, hmax x hx⟩
      rw [keep, if_neg (mt (hstrict best b).mp (h.trans (hmax x hx)).not_gt)]

end Strict

/-- Two runs that offer the same views in some order end with rows of one rank,
and with one view when no two of the candidates have the same rank. -/
theorem keep_converges {D : Type} (view : R → D) (rankOf : D → L)
    (h : Follows (fun r => rankOf (view r)) replaces) {rs₁ rs₂ : List R}
    (hperm : (rs₁.map view).Perm (rs₂.map view)) (start : Option R) :
    (rs₁.foldl (keep replaces) start).map (fun r => rankOf (view r)) =
        (rs₂.foldl (keep replaces) start).map (fun r => rankOf (view r)) ∧
      (((start.toList ++ rs₁).map fun r => rankOf (view r)).Nodup →
        (rs₁.foldl (keep replaces) start).map view =
          (rs₂.foldl (keep replaces) start).map view) := by
  have hviews : ((start.toList ++ rs₁).map view).Perm ((start.toList ++ rs₂).map view) := by
    simp only [List.map_append]
    exact List.Perm.append_left _ hperm
  have hsome : (rs₁.foldl (keep replaces) start).isSome =
      (rs₂.foldl (keep replaces) start).isSome := by
    have hempty : rs₁.isEmpty = rs₂.isEmpty := by
      have hlen : rs₁.length = rs₂.length := by simpa using hperm.length_eq
      rw [Bool.eq_iff_iff, List.isEmpty_iff_length_eq_zero, List.isEmpty_iff_length_eq_zero, hlen]
    rw [keep_isSome, keep_isSome, hempty]
  cases h₁ : rs₁.foldl (keep replaces) start with
  | none =>
      rw [h₁] at hsome
      have h₂ : rs₂.foldl (keep replaces) start = none := by
        rw [← Option.not_isSome_iff_eq_none, ← hsome]
        simp
      rw [h₂]
      exact ⟨rfl, fun _ => rfl⟩
  | some b₁ =>
      rw [h₁] at hsome
      obtain ⟨b₂, h₂⟩ := Option.isSome_iff_exists.mp hsome.symm
      rw [h₂]
      obtain ⟨hm₁, hle₁⟩ := keep_spec h rs₁ start b₁ h₁
      obtain ⟨hm₂, hle₂⟩ := keep_spec h rs₂ start b₂ h₂
      obtain ⟨x₁, hx₁, hv₁⟩ := List.mem_map.mp (hviews.mem_iff.mp (List.mem_map_of_mem hm₁))
      obtain ⟨x₂, hx₂, hv₂⟩ := List.mem_map.mp (hviews.mem_iff.mpr (List.mem_map_of_mem hm₂))
      have hrank : rankOf (view b₁) = rankOf (view b₂) := by
        apply le_antisymm
        · rw [← hv₁]
          exact hle₂ x₁ hx₁
        · rw [← hv₂]
          exact hle₁ x₂ hx₂
      refine ⟨congrArg some hrank, ?_⟩
      intro hnodup
      have hb : b₁ = x₂ := by
        apply List.inj_on_of_nodup_map hnodup hm₁ hx₂
        rw [hrank, ← hv₂]
      rw [Option.map_some, Option.map_some, hb, hv₂]

end Rank

section Maps

variable {A K V : Type} [DecidableEq K]

/-- What a map holds that is filled by a loop of assignments was assigned. -/
theorem foldl_update_eq_some (key : A → K) (value : A → V) {l : List A} {start : K → Option V}
    {k : K} {v : V}
    (h : l.foldl (fun m a => Function.update m (key a) (some (value a))) start k = some v) :
    (∃ a ∈ l, key a = k ∧ value a = v) ∨ start k = some v := by
  induction l generalizing start with
  | nil => exact Or.inr h
  | cons a rest ih =>
      obtain ⟨b, hb, hkey, hvalue⟩ | h := ih h
      · exact Or.inl ⟨b, List.mem_cons_of_mem a hb, hkey, hvalue⟩
      · simp only [Function.update_apply] at h
        split at h
        · next hk => exact Or.inl ⟨a, List.mem_cons_self, hk.symm, Option.some.inj h⟩
        · exact Or.inr h

/-- What was assigned to a key is held, or was replaced under the same key. -/
theorem foldl_update_of_mem (key : A → K) (value : A → V) {l : List A} (start : K → Option V)
    {a : A} (ha : a ∈ l) :
    ∃ b ∈ l, key b = key a ∧
      l.foldl (fun m a => Function.update m (key a) (some (value a))) start (key a) =
        some (value b) := by
  induction l using List.reverseRecOn with
  | nil => cases ha
  | append_singleton rest last ih =>
      rw [List.foldl_append, List.foldl_cons, List.foldl_nil, Function.update_apply]
      split
      · next hkey =>
          exact ⟨last, List.mem_append_right _ (List.mem_singleton_self last), hkey.symm, rfl⟩
      · next hkey =>
          obtain hmem | hlast := List.mem_append.mp ha
          · obtain ⟨b, hb, hsame, hvalue⟩ := ih hmem
            exact ⟨b, List.mem_append_left _ hb, hsame, hvalue⟩
          · rw [List.mem_singleton] at hlast
            exact absurd (congrArg key hlast) hkey

end Maps

end NodeScope.Lib.Table
