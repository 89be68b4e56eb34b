import Mathlib.Data.Int.ConditionallyCompleteOrder
import Mathlib.Algebra.Order.Floor.Defs
import Mathlib.Data.List.Dedup
import Mathlib.Data.List.Sort
import Mathlib.Data.Rat.Floor
import NodeScope.Lib.FloatParse
import NodeScope.Lib.Table

/-!
# Aggregates of SQL

The first section has the aggregate functions of PostgreSQL over `double precision`; over no row
they are null. After the left join comes `group by`: `grouped` has one row for each value of the
grouping expression, and `refresh` writes those rows over the stored ones. `find_refreshAll` says
what a table holds after it was refreshed from a selection, and `Summarizes.refreshAll` when a
table that summarized one list summarizes another one then.

## Implementation notes

The rows of a table are aggregated in the order of the list. A sum that leaves the range of the
type, which PostgreSQL answers with an error, is an infinity here.
-/

namespace NodeScope.Lib.Aggregate

section Values

/-- Integers in the order of the doubles that are not NaN; the two zeros are one. -/
def rank (x : Float64) : Int :=
  if x.negative then -((x.bits.toNat % 2 ^ 63 : Nat) : Int) else (x.bits.toNat % 2 ^ 63 : Nat)

/-- The order of `double precision`, in which NaN is above all others. -/
def lt (x y : Float64) : Bool := !x.isNaN && (y.isNaN || rank x < rank y)

def smaller (x y : Float64) : Float64 := if lt x y then x else y

def larger (x y : Float64) : Float64 := if lt y x then x else y

def minimum : List Float64 → Option Float64
  | [] => none
  | x :: rest => some (rest.foldl smaller x)

def maximum : List Float64 → Option Float64
  | [] => none
  | x :: rest => some (rest.foldl larger x)

def average (values : List Float64) : Option Float64 :=
  if values.isEmpty then none
  else some ((values.foldl Float64.add (Float64.ofNat 0)).div (Float64.ofNat values.length))

/-- The order of `lt` as one of a linear order. -/
def level (x : Float64) : WithTop Int := if x.isNaN then ⊤ else (rank x : WithTop Int)

theorem lt_iff {x y : Float64} : lt x y = true ↔ level x < level y := by
  cases hx : x.isNaN <;> cases hy : y.isNaN <;> simp [lt, level, hx, hy]

theorem lt_eq_false_iff {x y : Float64} : lt x y = false ↔ level y ≤ level x := by
  rw [← not_lt, ← lt_iff, Bool.not_eq_true]

theorem level_larger (x y : Float64) : level (larger x y) = max (level x) (level y) := by
  rw [larger]
  split
  · next h => exact (max_eq_left (lt_iff.mp h).le).symm
  · next h => exact (max_eq_right (not_lt.mp (mt lt_iff.mpr h))).symm

/-- The maximum is one of the values and none of them is above it. -/
theorem maximum_spec {values : List Float64} {x : Float64} (h : maximum values = some x) :
    x ∈ values ∧ ∀ y ∈ values, lt x y = false := by
  cases values with
  | nil => cases h
  | cons a rest =>
      obtain rfl := Option.some.inj h
      clear h
      induction rest using List.reverseRecOn with
      | nil => simp [lt_eq_false_iff]
      | append_singleton rest b ih =>
          rw [List.foldl_append, List.foldl_cons, List.foldl_nil]
          constructor
          · rw [larger]
            split
            · exact List.mem_cons.mpr ((List.mem_cons.mp ih.1).imp_right
                (List.mem_append_left [b]))
            · simp
          · intro y hy
            rw [lt_eq_false_iff, level_larger]
            rw [← List.cons_append, List.mem_append, List.mem_singleton] at hy
            rcases hy with hy | rfl
            · exact (lt_eq_false_iff.mp (ih.2 y hy)).trans (le_max_left _ _)
            · exact le_max_right _ _

theorem maximum_eq_none {values : List Float64} : maximum values = none ↔ values = [] := by
  cases values <;> simp [maximum]

/-- `percentile_cont`, which interpolates between the two values around the position. -/
def percentileCont (fraction : Float64) (values : List Float64) : Option Float64 :=
  let sorted := values.insertionSort fun x y => lt y x = false
  let position := fraction.mul (Float64.ofNat (values.length - 1))
  let first := ⌊position.toRat⌋.toNat
  let second := ⌈position.toRat⌉.toNat
  if first = second then sorted[first]?
  else
    sorted[first]?.bind fun low => sorted[second]?.map fun high =>
      low.add ((position.sub (Float64.ofNat first)).mul (high.sub low))

/-- The first entry of `array_agg (… order by time desc)`. -/
def latest {A : Type} (time : A → Int) : List A → Option A
  | [] => none
  | a :: rest => some (rest.foldl (fun best b => if time best < time b then b else best) a)

end Values

section Joins

variable {A B : Type}

/-- `left join … on`. -/
def leftJoin (on : A → B → Bool) (l : List A) (r : List B) : List (A × Option B) :=
  l.flatMap fun a =>
    match r.filter (on a) with
    | [] => [(a, none)]
    | b :: rest => (b :: rest).map fun b => (a, some b)

theorem mem_leftJoin_some {on : A → B → Bool} {l : List A} {r : List B} {a : A} {b : B} :
    (a, some b) ∈ leftJoin on l r ↔ a ∈ l ∧ b ∈ r ∧ on a b = true := by
  rw [leftJoin, List.mem_flatMap]
  constructor
  · rintro ⟨a', ha', h⟩
    cases hfilter : r.filter (on a') with
    | nil => simp [hfilter] at h
    | cons x rest =>
        rw [hfilter] at h
        obtain ⟨b', hb', heq⟩ := List.mem_map.mp h
        simp only [Prod.mk.injEq, Option.some.injEq] at heq
        obtain ⟨rfl, rfl⟩ := heq
        rw [← hfilter, List.mem_filter] at hb'
        exact ⟨ha', hb'⟩
  · rintro ⟨ha, hb⟩
    refine ⟨a, ha, ?_⟩
    have hmem : b ∈ r.filter (on a) := List.mem_filter.mpr hb
    cases hfilter : r.filter (on a) with
    | nil => simp [hfilter] at hmem
    | cons x rest =>
        rw [hfilter] at hmem
        exact List.mem_map_of_mem hmem

theorem mem_of_mem_leftJoin {on : A → B → Bool} {l : List A} {r : List B} {p : A × Option B}
    (h : p ∈ leftJoin on l r) : p.1 ∈ l := by
  rw [leftJoin, List.mem_flatMap] at h
  obtain ⟨a, ha, h⟩ := h
  split at h
  · rwa [List.mem_singleton.mp h]
  · obtain ⟨b, -, rfl⟩ := List.mem_map.mp h
    exact ha

/-- Every row of the left side is in the join. -/
theorem exists_mem_leftJoin (on : A → B → Bool) {l : List A} (r : List B) {a : A} (ha : a ∈ l) :
    ∃ p ∈ leftJoin on l r, p.1 = a := by
  simp only [leftJoin, List.mem_flatMap]
  cases hfilter : r.filter (on a) with
  | nil => exact ⟨(a, none), ⟨a, ha, by simp [hfilter]⟩, rfl⟩
  | cons b rest => exact ⟨(a, some b), ⟨a, ha, by simp [hfilter]⟩, rfl⟩

@[simp] theorem leftJoin_nil (on : A → B → Bool) (r : List B) : leftJoin on [] r = [] := rfl

theorem leftJoin_cons (on : A → B → Bool) (a : A) (l : List A) (r : List B) :
    leftJoin on (a :: l) r = leftJoin on [a] r ++ leftJoin on l r := by
  simp only [leftJoin, List.flatMap_cons, List.flatMap_nil, List.append_nil]

/-- A condition on the left side can be checked before the join. -/
theorem filter_leftJoin (on : A → B → Bool) (q : A → Bool) (l : List A) (r : List B) :
    (leftJoin on l r).filter (fun p => q p.1) = leftJoin on (l.filter q) r := by
  have hrow (a : A) : (leftJoin on [a] r).filter (fun p => q p.1) =
      if q a then leftJoin on [a] r else [] := by
    split
    · next hq =>
        apply List.filter_eq_self.mpr
        intro p hp
        rw [List.mem_singleton.mp (mem_of_mem_leftJoin hp)]
        exact hq
    · next hq =>
        apply List.filter_eq_nil_iff.mpr
        intro p hp
        rw [List.mem_singleton.mp (mem_of_mem_leftJoin hp)]
        exact hq
  induction l with
  | nil => rfl
  | cons a rest ih =>
      rw [leftJoin_cons, List.filter_append, ih, hrow, List.filter_cons]
      split
      · exact (leftJoin_cons on a _ r).symm
      · rfl

/-- The rows of the right side that a row of the left side is joined with. -/
theorem filterMap_leftJoin_singleton (on : A → B → Bool) (a : A) (r : List B) :
    (leftJoin on [a] r).filterMap Prod.snd = r.filter (on a) := by
  rw [leftJoin, List.flatMap_singleton]
  cases r.filter (on a) with
  | nil => rfl
  | cons b rest => simp [List.filterMap_map]

/-- A row that is joined with one row at most stays one row. -/
theorem leftJoin_singleton_of_length (on : A → B → Bool) (a : A) {r : List B}
    (h : (r.filter (on a)).length ≤ 1) :
    leftJoin on [a] r = [(a, (r.filter (on a)).head?)] := by
  rw [leftJoin, List.flatMap_singleton]
  cases hfilter : r.filter (on a) with
  | nil => rfl
  | cons b rest =>
      rw [hfilter, List.length_cons] at h
      obtain rfl : rest = [] := List.length_eq_zero_iff.mp (by omega)
      rfl

end Joins

section Groups

variable {A K R : Type} [DecidableEq K]

/-- The rows of a group. -/
def members (group : A → K) (k : K) (l : List A) : List A :=
  l.filter fun a => decide (group a = k)

@[simp] theorem members_append (group : A → K) (k : K) (l l' : List A) :
    members group k (l ++ l') = members group k l ++ members group k l' :=
  List.filter_append l l'

theorem members_eq_nil {group : A → K} {k : K} {l : List A} :
    members group k l = [] ↔ ∀ a ∈ l, group a ≠ k := by
  simp [members, List.filter_eq_nil_iff]

/-- Two selections of one list that agree on a group have the same rows of it. -/
theorem members_filter_congr {group : A → K} {k : K} {l : List A} {p q : A → Bool}
    (h : ∀ a ∈ l, group a = k → p a = q a) :
    members group k (l.filter p) = members group k (l.filter q) := by
  simp only [members, List.filter_filter]
  apply List.filter_congr
  intro a ha
  by_cases hk : group a = k
  · simp [hk, h a ha hk]
  · simp [hk]

theorem members_filter_and (group : A → K) (k : K) (p q : A → Bool) (l : List A) :
    members group k (l.filter fun a => p a && q a) =
      (members group k (l.filter p)).filter q := by
  simp only [members, List.filter_filter]
  apply List.filter_congr
  intro a _
  cases p a <;> cases q a <;> simp

def grouped (group : A → K) (summarize : K → List A → R) (l : List A) : List R :=
  (l.map group).dedup.map fun k => summarize k (members group k l)

theorem mem_grouped {group : A → K} {summarize : K → List A → R} {l : List A} {r : R} :
    r ∈ grouped group summarize l ↔
      ∃ a ∈ l, summarize (group a) (members group (group a) l) = r := by
  simp [grouped]

/-- Where a coarser value determines the group, the rows with that value are one. -/
theorem filter_grouped_coarse {C : Type} [DecidableEq C] (group : A → K)
    (summarize : K → List A → R) (coarse : K → C) (column : R → C)
    (hcolumn : ∀ k l, column (summarize k l) = coarse k) {l : List A} {k : K}
    (hall : ∀ a ∈ l, coarse (group a) = coarse k → group a = k) (hmem : ∃ a ∈ l, group a = k) :
    (grouped group summarize l).filter (fun r => decide (column r = coarse k)) =
      [summarize k (l.filter fun a => decide (coarse (group a) = coarse k))] := by
  have hkeys : (l.map group).dedup.filter (fun k' => decide (coarse k' = coarse k)) = [k] := by
    have hnodup := ((l.map group).nodup_dedup).filter fun k' => decide (coarse k' = coarse k)
    have heq : ∀ k' ∈ (l.map group).dedup.filter (fun k' => decide (coarse k' = coarse k)),
        k' = k := by
      intro k' hk'
      rw [List.mem_filter, List.mem_dedup, List.mem_map, decide_eq_true_eq] at hk'
      obtain ⟨⟨a, ha, rfl⟩, hcoarse⟩ := hk'
      exact hall a ha hcoarse
    obtain ⟨a, ha, hgroup⟩ := hmem
    have hk : k ∈ (l.map group).dedup.filter (fun k' => decide (coarse k' = coarse k)) := by
      rw [List.mem_filter, List.mem_dedup]
      exact ⟨hgroup ▸ List.mem_map_of_mem ha, decide_eq_true rfl⟩
    rw [List.eq_replicate_of_mem heq] at hnodup hk ⊢
    have hlength := List.nodup_replicate.mp hnodup
    have hne := List.length_pos_of_mem hk
    rw [List.length_replicate] at hne
    rw [show List.length _ = 1 from le_antisymm hlength hne]
    rfl
  rw [grouped, List.filter_map]
  simp only [Function.comp_def, hcolumn]
  rw [hkeys, List.map_singleton, members]
  congr 2
  apply List.filter_congr
  intro a ha
  by_cases hk : group a = k
  · simp [hk]
  · simp [hk, mt (hall a ha) hk]

variable {summarize : K → List A → R} {key : R → K} (hkey : ∀ k l, key (summarize k l) = k)

include hkey in
theorem filter_grouped (group : A → K) (k : K) (l : List A) :
    (grouped group summarize l).filter (fun r => decide (key r = k)) =
      if members group k l = [] then [] else [summarize k (members group k l)] := by
  have hfilter : (l.map group).dedup.filter (fun k' => decide (k' = k)) =
      List.replicate ((l.map group).dedup.count k) k := by
    exact List.filter_eq k
  have hmem : k ∈ l.map group ↔ ¬ members group k l = [] := by
    rw [members_eq_nil]
    simp
  simp only [grouped, List.filter_map, Function.comp_def, hkey]
  rw [hfilter, List.count_dedup]
  by_cases hk : members group k l = []
  · rw [if_neg (by rw [hmem]; exact not_not_intro hk), if_pos hk]
    rfl
  · rw [if_pos (hmem.mpr hk), if_neg hk]
    rfl

variable (key summarize) in
/-- `insert … select … group by … on conflict (key) do update`. -/
def refresh (group : A → K) (l : List A) (rows : List R) : List R :=
  (grouped group summarize l).foldl (Table.upsert key fun _ _ => true) rows

include hkey in
theorem find_refresh (group : A → K) (l : List A) (rows : List R) (k : K) :
    Table.find key k (refresh summarize key group l rows) =
      if members group k l = [] then Table.find key k rows
      else some (summarize k (members group k l)) := by
  rw [refresh, Table.find_foldl_upsert, filter_grouped hkey]
  by_cases hk : members group k l = []
  · simp [hk]
  · rw [if_neg hk, if_neg hk]
    cases Table.find key k rows <;> rfl

variable {I : Type} (group : I → A → K) {index : K → I} (hindex : ∀ i a, index (group i a) = i)

variable (summarize key) in
/-- A refresh for each of several ways to group, whose keys are apart, with a selection of rows for
each. -/
def refreshEach (is : List I) (l : I → List A) (rows : List R) : List R :=
  is.foldl (fun rows i => refresh summarize key (group i) (l i) rows) rows

variable (summarize key) in
/-- A refresh for each of several ways to group, whose keys are apart. -/
def refreshAll (is : List I) (l : List A) (rows : List R) : List R :=
  is.foldl (fun rows i => refresh summarize key (group i) l rows) rows

theorem nodup_refreshEach (is : List I) (l : I → List A) {rows : List R}
    (h : (rows.map key).Nodup) :
    ((refreshEach summarize key group is l rows).map key).Nodup := by
  induction is generalizing rows with
  | nil => exact h
  | cons i rest ih => exact ih (Table.nodup_foldl_upsert _ _ h)

theorem nodup_refreshAll (is : List I) (l : List A) {rows : List R}
    (h : (rows.map key).Nodup) :
    ((refreshAll summarize key group is l rows).map key).Nodup :=
  nodup_refreshEach group is (fun _ => l) h

include hindex in
theorem members_eq_nil_of_index {i : I} {k : K} (h : i ≠ index k) (l : List A) :
    members (group i) k l = [] := by
  rw [members_eq_nil]
  rintro a - rfl
  exact h (hindex i a).symm

include hkey hindex in
theorem find_refreshEach [DecidableEq I] (is : List I) (l : I → List A) (rows : List R) (k : K) :
    Table.find key k (refreshEach summarize key group is l rows) =
      if index k ∈ is ∧ members (group (index k)) k (l (index k)) ≠ [] then
        some (summarize k (members (group (index k)) k (l (index k))))
      else Table.find key k rows := by
  induction is generalizing rows with
  | nil => simp [refreshEach]
  | cons i rest ih =>
      rw [refreshEach, List.foldl_cons, ← refreshEach, ih, find_refresh hkey]
      by_cases hrest : index k ∈ rest ∧ members (group (index k)) k (l (index k)) ≠ []
      · rw [if_pos hrest, if_pos ⟨List.mem_cons_of_mem i hrest.1, hrest.2⟩]
      · rw [if_neg hrest]
        by_cases hi : i = index k
        · subst hi
          by_cases hnil : members (group (index k)) k (l (index k)) = []
          · simp [hnil]
          · simp [hnil]
        · rw [if_pos (members_eq_nil_of_index group hindex hi (l i)), if_neg]
          rintro ⟨hmem, hne⟩
          rcases List.mem_cons.mp hmem with heq | hmem
          · exact hi heq.symm
          · exact hrest ⟨hmem, hne⟩

include hkey hindex in
theorem find_refreshAll [DecidableEq I] (is : List I) (l : List A) (rows : List R) (k : K) :
    Table.find key k (refreshAll summarize key group is l rows) =
      if index k ∈ is ∧ members (group (index k)) k l ≠ [] then
        some (summarize k (members (group (index k)) k l))
      else Table.find key k rows :=
  find_refreshEach hkey group hindex is (fun _ => l) rows k

variable (summarize key index) in
/-- Every stored row is the summary of its group in the list. -/
def Summarizes (rows : List R) (l : List A) : Prop :=
  ∀ k row, Table.find key k rows = some row → row = summarize k (members (group (index k)) k l)

include hkey hindex in
/-- A table refreshed from a selection summarizes a list if the selection has all rows of the
groups it touches, and the groups it does not touch are as they were summarized. -/
theorem Summarizes.refreshAll [DecidableEq I] {is : List I} (his : ∀ i, i ∈ is)
    {rows : List R} {before selection after : List A}
    (h : Summarizes summarize key group index rows before)
    (htouched : ∀ k, members (group (index k)) k selection ≠ [] →
      members (group (index k)) k selection = members (group (index k)) k after)
    (huntouched : ∀ k row, Table.find key k rows = some row →
      members (group (index k)) k selection = [] →
      members (group (index k)) k before = members (group (index k)) k after) :
    Summarizes summarize key group index
      (Aggregate.refreshAll summarize key group is selection rows) after := by
  intro k row hrow
  rw [find_refreshAll hkey group hindex] at hrow
  by_cases hk : members (group (index k)) k selection = []
  · rw [if_neg (by simp [hk])] at hrow
    rw [h k row hrow, huntouched k row hrow hk]
  · rw [if_pos ⟨his (index k), hk⟩, Option.some.injEq] at hrow
    rw [← hrow, htouched k hk]

end Groups

end NodeScope.Lib.Aggregate
