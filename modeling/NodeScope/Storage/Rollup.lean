import NodeScope.Lib.Aggregate
import NodeScope.Lib.Machine
import NodeScope.Storage.Schema

/-!
# Rollups

`rollup_recent_samples` summarizes the samples of the last three hours by series and bucket, for
three sizes of buckets, and writes each summary over the stored one. The window does not begin with
a bucket, so that an execution can replace the summary of a whole bucket by that of its later part;
and it passes over a sample that arrives more than three hours late. `rollups_exact_iff` says that
nothing else keeps a stored summary from being exact.

## Implementation notes

The table `metric_samples` is kept in two parts: the samples that were there when the function
was last executed and those that have arrived since. Where several samples of a group have the
latest time, the one stored first is the last value. An execution that the database aborts leaves
no trace and is not an execution here.
-/

namespace NodeScope.Storage

open Domain Lib Lib.Aggregate Lib.Time

section Model

/-- The values that `resolution_seconds` may have. -/
inductive Resolution where
  | oneMinute
  | fiveMinutes
  | tenMinutes
deriving DecidableEq

namespace Resolution

def seconds : Resolution → Int
  | oneMinute => 60
  | fiveMinutes => 300
  | tenMinutes => 600

/-- How long a rollup is kept after its bucket has begun. -/
def retention : Resolution → Int
  | oneMinute => sqlSeconds (2 * 86400)
  | fiveMinutes => sqlSeconds (7 * 86400)
  | tenMinutes => sqlSeconds (30 * 86400)

/-- The order of the loop. -/
def all : List Resolution := [oneMinute, fiveMinutes, tenMinutes]

theorem mem_all (r : Resolution) : r ∈ all := by
  cases r <;> decide

theorem seconds_bounds (r : Resolution) : 0 < r.seconds ∧ r.seconds ≤ 600 := by
  cases r <;> decide

end Resolution

/-- The primary key of `metric_rollups`. -/
structure RollupKey where
  resolution : Resolution
  bucketStartedAt : Int
  hostId : Uuid
  deviceId : String
  metricName : String
deriving DecidableEq

/-- The column `p95_sketch`, which is never written, is left out. -/
structure RollupRow extends RollupKey where
  sampleCount : Nat
  minimumValue : Option Float64
  maximumValue : Option Float64
  averageValue : Option Float64
  lastValue : Option Float64
  p95Value : Option Float64
  source : String
  semantics : String
  expiresAt : Int
deriving DecidableEq

/-- `date_bin`, which rounds down on both sides of the origin. -/
def dateBin (stride t origin : Int) : Int := origin + (t - origin) / stride * stride

/-- The timestamp `2000-01-01 00:00:00+00`. -/
def bucketOrigin : Int := sqlSeconds 946684800

/-- The columns a sample is grouped by. -/
def rollupKey (r : Resolution) (sample : SampleRow) : RollupKey where
  resolution := r
  bucketStartedAt := dateBin (sqlSeconds r.seconds) sample.observedAt bucketOrigin
  hostId := sample.hostId
  deviceId := sample.deviceId
  metricName := sample.metricName

def RollupKey.bucketEndsAt (k : RollupKey) : Int :=
  k.bucketStartedAt + sqlSeconds k.resolution.seconds

def rolledUpQuality : MetricQuality → Bool
  | .fresh | .stale | .estimated => true
  | _ => false

def usable (sample : SampleRow) : Bool :=
  sample.numericValue.isSome && rolledUpQuality sample.quality

def windowStart (now : Int) : Int := now - sqlSeconds (3 * 3600)

def recent (now : Int) (sample : SampleRow) : Bool :=
  windowStart now ≤ sample.observedAt && sample.observedAt ≤ now

def summarize (k : RollupKey) (group : List SampleRow) : RollupRow :=
  let values := group.filterMap SampleRow.numericValue
  let last := latest SampleRow.observedAt group
  { k with
    sampleCount := group.length
    minimumValue := minimum values
    maximumValue := maximum values
    averageValue := average values
    lastValue := last.bind SampleRow.numericValue
    p95Value := percentileCont (Float64.ofRat (95 / 100)) values
    source := (last.map SampleRow.source).getD ""
    semantics := (last.map SampleRow.semantics).getD ""
    expiresAt := k.bucketStartedAt + k.resolution.retention }

/-- The samples that an execution reads. -/
def selected (now : Int) (samples : List SampleRow) : List SampleRow :=
  samples.filter fun sample => usable sample && recent now sample

/-- The stored rollups after an execution and the number of rows it has written. -/
def rollupRecentSamples (now : Int) (samples : List SampleRow) (rollups : List RollupRow) :
    List RollupRow × Nat :=
  (refreshAll summarize RollupRow.toRollupKey rollupKey Resolution.all (selected now samples)
      rollups,
    (Resolution.all.map fun r =>
      (grouped (rollupKey r) summarize (selected now samples)).length).sum)

/-- The row of the job in `maintenance_status`. -/
structure MaintenanceStatus where
  lastStartedAt : Option Int
  lastSuccessAt : Option Int
  lastRowCount : Nat
deriving DecidableEq

structure RollupState where
  settled : List SampleRow
  pending : List SampleRow
  rollups : List RollupRow
  status : MaintenanceStatus
deriving DecidableEq

def RollupState.metricSamples (s : RollupState) : List SampleRow := s.settled ++ s.pending

def RollupState.initial : RollupState := ⟨[], [], [], ⟨none, none, 0⟩⟩

inductive RollupEvent where
  | arrive (sample : SampleRow)
  | execute (now : Int)

/-- A sample is accepted, or the function is executed, at no earlier time than before. -/
def rollupStep (s : RollupState) : RollupEvent → Option RollupState
  | .arrive sample => some { s with pending := s.pending ++ [sample] }
  | .execute now =>
      if s.status.lastSuccessAt.all fun last => last ≤ now then
        let result := rollupRecentSamples now s.metricSamples s.rollups
        some ⟨s.metricSamples, [], result.1, ⟨some now, some now, result.2⟩⟩
      else none

end Model

section Statements

/-- The row has the aggregates of all samples of its series in its bucket. -/
def RollupRow.Exact (samples : List SampleRow) (row : RollupRow) : Prop :=
  let group := members (rollupKey row.resolution) row.toRollupKey (samples.filter usable)
  let values := group.filterMap SampleRow.numericValue
  row.sampleCount = group.length ∧ row.minimumValue = minimum values ∧
    row.maximumValue = maximum values ∧ row.averageValue = average values ∧
    row.lastValue = (latest SampleRow.observedAt group).bind SampleRow.numericValue

instance (samples : List SampleRow) (row : RollupRow) : Decidable (row.Exact samples) :=
  inferInstanceAs (Decidable (_ ∧ _ ∧ _ ∧ _ ∧ _))

/-- After an execution the rollups of the buckets that have ended are exact. -/
def ExactAfter (s : RollupState) : RollupEvent → Prop
  | .arrive _ => True
  | .execute now =>
      ∀ s' ∈ rollupStep s (.execute now), ∀ row ∈ s'.rollups,
        row.bucketEndsAt ≤ now → row.Exact s'.metricSamples

instance (s : RollupState) : ∀ e, Decidable (ExactAfter s e)
  | .arrive _ => .isTrue trivial
  | .execute now =>
      inferInstanceAs (Decidable (∀ s' ∈ rollupStep s (.execute now), ∀ row ∈ s'.rollups,
        row.bucketEndsAt ≤ now → row.Exact s'.metricSamples))

/-- The last execution, if there was one, was not before the time. -/
def RollupState.reached (s : RollupState) (t : Int) : Bool :=
  s.status.lastSuccessAt.any fun last => t ≤ last

/-- The samples that no execution has been able to read: those that arrived after the last one or
whose time is after it. -/
def RollupState.unseen (s : RollupState) : List SampleRow :=
  (s.settled.filter fun sample => usable sample && !s.reached sample.observedAt) ++
    s.pending.filter usable

/-- The window of an execution cuts no bucket that has samples on both sides, and no unseen sample
before the window belongs to a stored rollup. -/
def WholeBuckets (s : RollupState) : RollupEvent → Prop
  | .arrive _ => True
  | .execute now =>
      (∀ r ∈ Resolution.all, ∀ old ∈ s.metricSamples, ∀ sample ∈ s.metricSamples,
        usable old → usable sample → old.observedAt < windowStart now → recent now sample →
          rollupKey r old ≠ rollupKey r sample) ∧
      (∀ r ∈ Resolution.all, ∀ old ∈ s.unseen, old.observedAt < windowStart now →
        ∀ row ∈ s.rollups, row.toRollupKey ≠ rollupKey r old)

instance (s : RollupState) : ∀ e, Decidable (WholeBuckets s e)
  | .arrive _ => .isTrue trivial
  | .execute _ => inferInstanceAs (Decidable (_ ∧ _))

end Statements

section Buckets

theorem sqlSeconds_pos {n : Int} (h : 0 < n) : 0 < sqlSeconds n := by
  rw [sqlSeconds]
  omega

/-- A time is in the bucket that `date_bin` gives for it. -/
theorem dateBin_bounds {stride : Int} (h : 0 < stride) (t origin : Int) :
    dateBin stride t origin ≤ t ∧ t < dateBin stride t origin + stride := by
  have hlow := Int.ediv_mul_le (t - origin) (by omega : stride ≠ 0)
  have hhigh := Int.lt_ediv_add_one_mul_self (t - origin) h
  rw [add_mul, one_mul] at hhigh
  rw [dateBin]
  omega

theorem rollupKey_bounds (r : Resolution) (sample : SampleRow) :
    (rollupKey r sample).bucketStartedAt ≤ sample.observedAt ∧
      sample.observedAt < (rollupKey r sample).bucketEndsAt :=
  dateBin_bounds (sqlSeconds_pos r.seconds_bounds.1) sample.observedAt bucketOrigin

/-- A bucket with a sample before the window has ended. -/
theorem bucketEndsAt_le {r : Resolution} {old : SampleRow} {now : Int}
    (h : old.observedAt < windowStart now) : (rollupKey r old).bucketEndsAt ≤ now := by
  have hstart := (rollupKey_bounds r old).1
  have hseconds := r.seconds_bounds.2
  have hend : (rollupKey r old).bucketEndsAt =
      (rollupKey r old).bucketStartedAt + sqlSeconds r.seconds := rfl
  rw [windowStart] at h
  rw [hend]
  simp only [sqlSeconds] at h ⊢
  omega

end Buckets

section Invariant

/-- The samples that the last execution was able to read, or an earlier one. -/
def RollupState.seen (s : RollupState) : List SampleRow :=
  s.settled.filter fun sample => usable sample && s.reached sample.observedAt

/-- Every rollup summarizes the samples seen of its series in its bucket. -/
structure RollupState.Summarized (s : RollupState) : Prop where
  keys : (s.rollups.map RollupRow.toRollupKey).Nodup
  rows : Summarizes summarize RollupRow.toRollupKey rollupKey RollupKey.resolution s.rollups s.seen

theorem initial_summarized : RollupState.initial.Summarized :=
  ⟨List.nodup_nil, fun _ _ h => by cases h⟩

theorem toRollupKey_summarize (k : RollupKey) (group : List SampleRow) :
    (summarize k group).toRollupKey = k := rfl

theorem resolution_rollupKey (r : Resolution) (sample : SampleRow) :
    (rollupKey r sample).resolution = r := rfl

/-- What an execution does. -/
theorem execute_cases {s s' : RollupState} {now : Int}
    (h : rollupStep s (.execute now) = some s') :
    (∀ t, s.reached t = true → t ≤ now) ∧ s'.metricSamples = s.metricSamples ∧
      s'.seen = s.metricSamples.filter (fun sample => usable sample && sample.observedAt ≤ now) ∧
      s'.rollups = refreshAll summarize RollupRow.toRollupKey rollupKey Resolution.all
        (selected now s.metricSamples) s.rollups := by
  rw [rollupStep] at h
  split at h
  · next hnow =>
      obtain rfl := Option.some.inj h
      refine ⟨?_, by simp [RollupState.metricSamples], rfl, rfl⟩
      intro t ht
      obtain ⟨last, hlast, hle⟩ := Option.any_eq_true _ _ |>.mp ht
      rw [hlast] at hnow
      simp only [Option.all_some, decide_eq_true_eq] at hnow hle
      exact hle.trans hnow
  · cases h

/-- A group without selected samples has none up to the time that is not before the window. -/
theorem old_of_unselected {s : RollupState} {now : Int} {k : RollupKey}
    (hnil : members (rollupKey k.resolution) k (selected now s.metricSamples) = [])
    {sample : SampleRow} (hsample : sample ∈ s.metricSamples) (husable : usable sample = true)
    (hkey : rollupKey k.resolution sample = k) (hnow : sample.observedAt ≤ now) :
    sample.observedAt < windowStart now := by
  by_contra hnot
  refine members_eq_nil.mp hnil sample ?_ hkey
  rw [selected, List.mem_filter]
  simp [hsample, husable, recent, hnow, not_lt.mp hnot]

/-- What is selected of an uncut bucket is all that is there up to the time. -/
theorem members_selected {s : RollupState} {now : Int} (huncut : WholeBuckets s (.execute now))
    {k : RollupKey}
    (hne : members (rollupKey k.resolution) k (selected now s.metricSamples) ≠ []) :
    members (rollupKey k.resolution) k (selected now s.metricSamples) =
      members (rollupKey k.resolution) k
        (s.metricSamples.filter fun sample => usable sample && sample.observedAt ≤ now) := by
  obtain ⟨x, hx⟩ := List.exists_mem_of_ne_nil _ hne
  obtain ⟨hselected, hkey⟩ := List.mem_filter.mp hx
  obtain ⟨hmem, hchosen⟩ := List.mem_filter.mp hselected
  simp only [Bool.and_eq_true, decide_eq_true_eq] at hkey hchosen
  apply members_filter_congr
  intro a ha hka
  by_cases husable : usable a = true
  · have hstart : windowStart now ≤ a.observedAt := by
      by_contra hnot
      exact huncut.1 k.resolution (Resolution.mem_all _) a ha x hmem husable hchosen.1
        (not_le.mp hnot) hchosen.2 (hka.trans hkey.symm)
    simp [recent, hstart]
  · simp [husable]

/-- What was seen of a bucket outside the window is all that is there up to the time. -/
theorem members_seen {s : RollupState} {now : Int} (hpassed : WholeBuckets s (.execute now))
    (hreached : ∀ t, s.reached t = true → t ≤ now) {k : RollupKey} {row : RollupRow}
    (hrow : row ∈ s.rollups) (hkey : row.toRollupKey = k)
    (hnil : members (rollupKey k.resolution) k (selected now s.metricSamples) = []) :
    members (rollupKey k.resolution) k s.seen =
      members (rollupKey k.resolution) k
        (s.metricSamples.filter fun sample => usable sample && sample.observedAt ≤ now) := by
  have hunseen {a : SampleRow} (ha : a ∈ s.unseen) (hmem : a ∈ s.metricSamples)
      (husable : usable a = true) (hka : rollupKey k.resolution a = k) :
      ¬ a.observedAt ≤ now := by
    intro hnow
    exact hpassed.2 k.resolution (Resolution.mem_all _) a ha
      (old_of_unselected hnil hmem husable hka hnow) row hrow (hkey.trans hka.symm)
  have hpending : members (rollupKey k.resolution) k
      (s.pending.filter fun sample => usable sample && sample.observedAt ≤ now) = [] := by
    rw [members_eq_nil]
    intro a ha hka
    rw [List.mem_filter, Bool.and_eq_true, decide_eq_true_eq] at ha
    obtain ⟨hmem, husable, hnow⟩ := ha
    exact hunseen (List.mem_append_right _ (List.mem_filter.mpr ⟨hmem, husable⟩))
      (List.mem_append_right _ hmem) husable hka hnow
  rw [RollupState.metricSamples, List.filter_append, members_append, hpending, List.append_nil]
  apply members_filter_congr
  intro a ha hka
  by_cases husable : usable a = true
  · rw [husable, Bool.true_and, Bool.true_and]
    cases hlast : s.reached a.observedAt with
    | true => exact (decide_eq_true (hreached _ hlast)).symm
    | false =>
        have hlate := hunseen (List.mem_append_left _ (List.mem_filter.mpr
          ⟨ha, by simp [husable, hlast]⟩)) (List.mem_append_left _ ha) husable hka
        exact (decide_eq_false hlate).symm
  · simp [husable]

/-- An execution that cuts no bucket and passes over no sample of a rollup keeps the invariant. -/
theorem summarized_step (s : RollupState) (e : RollupEvent) (s' : RollupState)
    (hstep : rollupStep s e = some s') (hwhole : WholeBuckets s e) (h : s.Summarized) :
    s'.Summarized := by
  cases e with
  | arrive sample =>
      obtain rfl := Option.some.inj hstep
      exact ⟨h.keys, h.rows⟩
  | execute now =>
      obtain ⟨hreached, -, hseen, hrollups⟩ := execute_cases hstep
      constructor
      · rw [hrollups]
        exact nodup_refreshAll rollupKey _ _ h.keys
      · rw [hrollups, hseen]
        refine h.rows.refreshAll toRollupKey_summarize rollupKey resolution_rollupKey
          Resolution.mem_all ?_ ?_
        · exact fun k hne => members_selected hwhole hne
        · intro k row hfind hnil
          obtain ⟨hrow, hkey⟩ := Table.mem_of_find hfind
          exact members_seen hwhole hreached hrow hkey hnil

end Invariant

section Exactness

variable {s s' : RollupState} {now : Int}
variable (hstep : rollupStep s (.execute now) = some s') (hexact : ExactAfter s (.execute now))

/-- In a bucket that has ended no sample is after the time. -/
theorem members_ended {k : RollupKey} (hended : k.bucketEndsAt ≤ now) (samples : List SampleRow) :
    members (rollupKey k.resolution) k
        (samples.filter fun sample => usable sample && sample.observedAt ≤ now) =
      members (rollupKey k.resolution) k (samples.filter usable) := by
  apply members_filter_congr
  intro a _ hka
  have hbefore := (rollupKey_bounds k.resolution a).2
  rw [hka] at hbefore
  simp [(hbefore.trans_le hended).le]

/-- A summary of all samples seen is exact once the bucket has ended. -/
theorem exact_of_summarized (h : s'.Summarized) (hmetric : s'.metricSamples = s.metricSamples)
    (hseen : s'.seen =
      s.metricSamples.filter fun sample => usable sample && sample.observedAt ≤ now)
    {row : RollupRow} (hrow : row ∈ s'.rollups) (hended : row.bucketEndsAt ≤ now) :
    row.Exact s'.metricSamples := by
  have hfind := (Table.find_eq_some_iff h.keys).mpr ⟨hrow, rfl⟩
  have heq := h.rows _ _ hfind
  rw [hseen, members_ended hended, ← hmetric] at heq
  rw [RollupRow.Exact]
  exact ⟨congrArg RollupRow.sampleCount heq, congrArg RollupRow.minimumValue heq,
    congrArg RollupRow.maximumValue heq, congrArg RollupRow.averageValue heq,
    congrArg RollupRow.lastValue heq⟩

/-- The samples of a group are those seen and those not. -/
theorem length_members_usable (s : RollupState) (k : RollupKey) :
    (members (rollupKey k.resolution) k (s.metricSamples.filter usable)).length =
      (members (rollupKey k.resolution) k s.seen).length +
        (members (rollupKey k.resolution) k s.unseen).length := by
  have hsettled := List.length_eq_length_filter_add
    (fun sample : SampleRow => s.reached sample.observedAt)
    (l := members (rollupKey k.resolution) k (s.settled.filter usable))
  rw [← members_filter_and, ← members_filter_and] at hsettled
  rw [RollupState.metricSamples, List.filter_append, members_append, List.length_append, hsettled,
    RollupState.unseen, members_append, List.length_append, RollupState.seen, add_assoc]

include hstep in
/-- The rows an execution leaves for a key. -/
theorem find_execute (k : RollupKey) :
    Table.find RollupRow.toRollupKey k s'.rollups =
      if members (rollupKey k.resolution) k (selected now s.metricSamples) = [] then
        Table.find RollupRow.toRollupKey k s.rollups
      else
        some (summarize k
          (members (rollupKey k.resolution) k (selected now s.metricSamples))) := by
  obtain ⟨-, -, -, hrollups⟩ := execute_cases hstep
  rw [hrollups, find_refreshAll toRollupKey_summarize rollupKey resolution_rollupKey]
  by_cases hnil : members (rollupKey k.resolution) k (selected now s.metricSamples) = []
  · simp [hnil]
  · simp [hnil, Resolution.mem_all]

include hstep hexact in
/-- The count of an ended bucket is that of all its samples. -/
theorem sampleCount_of_exact {k : RollupKey} {row : RollupRow}
    (hfind : Table.find RollupRow.toRollupKey k s'.rollups = some row)
    (hended : k.bucketEndsAt ≤ now) :
    row.sampleCount =
      (members (rollupKey k.resolution) k (s.metricSamples.filter usable)).length := by
  obtain ⟨-, hmetric, -, -⟩ := execute_cases hstep
  obtain ⟨hrow, rfl⟩ := Table.mem_of_find hfind
  have hcount := (hexact s' hstep row hrow hended).1
  rwa [hmetric] at hcount

include hstep hexact

/-- A bucket that the window cuts would be counted without its older part. -/
theorem uncut_of_exact {r : Resolution} {old sample : SampleRow} (hold : old ∈ s.metricSamples)
    (hsample : sample ∈ s.metricSamples) (husable : usable old = true)
    (husable' : usable sample = true) (hbefore : old.observedAt < windowStart now)
    (hrecent : recent now sample = true) : rollupKey r old ≠ rollupKey r sample := by
  intro hkey
  have hselected : sample ∈ selected now s.metricSamples :=
    List.mem_filter.mpr ⟨hsample, by rw [husable', hrecent]; rfl⟩
  have hne : members (rollupKey r) (rollupKey r old) (selected now s.metricSamples) ≠ [] :=
    fun hnil => members_eq_nil.mp hnil sample hselected hkey.symm
  have hfind := find_execute hstep (rollupKey r old)
  rw [resolution_rollupKey, if_neg hne] at hfind
  have hcount := sampleCount_of_exact hstep hexact hfind (bucketEndsAt_le hbefore)
  have hall : ∀ a ∈ members (rollupKey r) (rollupKey r old) (s.metricSamples.filter usable),
      recent now a = true := by
    rw [← List.length_filter_eq_length_iff, ← members_filter_and]
    exact hcount
  have hwindow := hall old (List.mem_filter.mpr
    ⟨List.mem_filter.mpr ⟨hold, husable⟩, decide_eq_true rfl⟩)
  simp only [recent, Bool.and_eq_true, decide_eq_true_eq] at hwindow
  exact absurd hwindow.1 (not_le.mpr hbefore)

/-- A sample that was passed over would be missing from the count of its rollup. -/
theorem passed_of_exact (h : s.Summarized) {r : Resolution} {old : SampleRow}
    (hold : old ∈ s.unseen) (hbefore : old.observedAt < windowStart now) {row : RollupRow}
    (hrow : row ∈ s.rollups) : row.toRollupKey ≠ rollupKey r old := by
  intro hkey
  have hmem : old ∈ s.metricSamples ∧ usable old = true := by
    rcases List.mem_append.mp hold with hsettled | hpending
    · obtain ⟨hsettled, husable⟩ := List.mem_filter.mp hsettled
      rw [Bool.and_eq_true] at husable
      exact ⟨List.mem_append_left _ hsettled, husable.1⟩
    · obtain ⟨hpending, husable⟩ := List.mem_filter.mp hpending
      exact ⟨List.mem_append_right _ hpending, husable⟩
  by_cases hnil : members (rollupKey r) (rollupKey r old) (selected now s.metricSamples) = []
  · have hbound := (Table.find_eq_some_iff h.keys).mpr ⟨hrow, hkey⟩
    have hfind := find_execute hstep (rollupKey r old)
    rw [resolution_rollupKey, if_pos hnil, hbound] at hfind
    have hcount := sampleCount_of_exact hstep hexact hfind (bucketEndsAt_le hbefore)
    rw [h.rows _ _ hbound, length_members_usable] at hcount
    have hnone : members (rollupKey r) (rollupKey r old) s.unseen = [] := by
      apply List.eq_nil_of_length_eq_zero
      exact Nat.left_eq_add.mp hcount
    exact members_eq_nil.mp hnone old hold rfl
  · obtain ⟨x, hx⟩ := List.exists_mem_of_ne_nil _ hnil
    obtain ⟨hselected, hsame⟩ := List.mem_filter.mp hx
    obtain ⟨hsample, hchosen⟩ := List.mem_filter.mp hselected
    rw [Bool.and_eq_true] at hchosen
    exact uncut_of_exact hstep hexact hmem.1 hsample hmem.2 hchosen.1 hbefore hchosen.2
      (decide_eq_true_eq.mp hsame).symm

omit hstep hexact

/-- From a state whose rollups are in order, an execution leaves exact rollups exactly if it cuts
no bucket and passes over no sample of a rollup. -/
theorem wholeBuckets_iff_exactAfter (s : RollupState) (e : RollupEvent) (s' : RollupState)
    (hstep : rollupStep s e = some s') (h : s.Summarized) : WholeBuckets s e ↔ ExactAfter s e := by
  cases e with
  | arrive sample => exact Iff.rfl
  | execute now =>
      constructor
      · intro hwhole s'' hs'' row hrow hended
        obtain ⟨-, hmetric, hseen, -⟩ := execute_cases hs''
        exact exact_of_summarized (summarized_step s _ s'' hs'' hwhole h) hmetric hseen hrow hended
      · intro hexact
        constructor
        · intro r _ old hold sample hsample husable husable' hbefore hrecent
          exact uncut_of_exact hstep hexact hold hsample husable husable' hbefore hrecent
        · intro r _ old hold hbefore row hrow
          exact passed_of_exact hstep hexact h hold hbefore hrow

end Exactness

/-- In every run the rollups are exact after each execution exactly if no execution cuts a bucket
or passes over a sample of a rollup. -/
theorem rollups_exact_iff (events : List RollupEvent) (s : RollupState)
    (hrun : Machine.run rollupStep RollupState.initial events = some s) :
    Machine.Along rollupStep ExactAfter RollupState.initial events ↔
      Machine.Along rollupStep WholeBuckets RollupState.initial events :=
  (Machine.along_iff summarized_step wholeBuckets_iff_exactAfter hrun initial_summarized).symm

/-- A sample of one series, some seconds after the origin of the buckets. -/
def sampleAt (second : Int) (batchKey : String) : SampleRow where
  batchKey := batchKey
  hostId := Uuid.ofByte 0
  deviceId := "cpu-aggregate"
  metricName := "cpu.utilization"
  observedAt := bucketOrigin + sqlSeconds second
  numericValue := some (Float64.ofNat 1)
  quality := .fresh
  source := "procfs"
  semantics := "aggregate host CPU utilization"
  expiresAt := bucketOrigin + sqlSeconds (second + 2 * 86400)

/-- Two samples of one minute and an execution at its end, then a later execution. -/
def minuteRun (later : Int) : List RollupEvent :=
  [.arrive (sampleAt 10 "batch-one"), .arrive (sampleAt 50 "batch-two"),
    .execute (bucketOrigin + sqlSeconds 60), .execute (bucketOrigin + sqlSeconds later)]

theorem minuteRun_exact :
    Machine.Along rollupStep ExactAfter RollupState.initial (minuteRun (3 * 3600 + 60)) := by
  have henabled : (Machine.run rollupStep RollupState.initial
      (minuteRun (3 * 3600 + 60))).isSome = true := by decide
  obtain ⟨s, hrun⟩ := Option.isSome_iff_exists.mp henabled
  exact (rollups_exact_iff _ s hrun).mpr (by decide)

/-- Three hours later the window begins in the middle of the minute, and the second execution
counts one of the two samples. -/
theorem minuteRun_cut :
    (Machine.run rollupStep RollupState.initial (minuteRun (3 * 3600 + 30))).isSome = true ∧
      ¬ Machine.Along rollupStep ExactAfter RollupState.initial (minuteRun (3 * 3600 + 30)) := by
  decide +kernel

end NodeScope.Storage
