import Mathlib.Algebra.Order.Floor.Ring
import Mathlib.Data.Int.ConditionallyCompleteOrder
import Mathlib.Data.Rat.Floor
import Mathlib.Tactic.FieldSimp
import Mathlib.Tactic.Linarith
import Mathlib.Tactic.Positivity
import Mathlib.Tactic.Ring
import NodeScope.Lib.Wrapping

/-!
# The estimate of the storage that retention needs

`EstimateRetention` computes with doubles and converts to `int64`. The doubles are rationals here,
and a conversion keeps the lowest 64 bits, as the integer operations do.
-/

namespace NodeScope.Storage

open Lib Lib.Wrapping

section Source

/-- A `time.Duration`: nanoseconds. -/
abbrev Duration := Int64

def minute : Duration := 60000000000
def hour : Duration := 3600000000000

/-- `Duration.Hours` and `Duration.Minutes`: the full units, and the rest as a part of one. -/
def Duration.inUnits (unit d : Duration) : ℚ :=
  (d / unit).toInt + (d % unit).toInt / unit.toInt

def Duration.hours (d : Duration) : ℚ := Duration.inUnits hour d
def Duration.minutes (d : Duration) : ℚ := Duration.inUnits minute d

/-- The conversion of a number to `int64`. -/
def toInt64 (x : ℚ) : Int64 := Int64.ofInt (x.num.tdiv x.den)

structure ProbeObservation where
  hostID : String
  observedDuration : Duration
  batchCount : Int64
  compressedByteCount : Int64
  metricValueCount : Int64
deriving DecidableEq

structure RetentionPlan where
  rawRetention : Duration
  oneMinuteRetention : Duration
  fiveMinuteRetention : Duration
  tenMinuteRetention : Duration
deriving DecidableEq

def defaultRetentionPlan : RetentionPlan where
  rawRetention := 48 * hour
  oneMinuteRetention := 48 * hour
  fiveMinuteRetention := 7 * 24 * hour
  tenMinuteRetention := 30 * 24 * hour

structure Estimate where
  averageCompressedBatchBytes : ℚ
  batchesPerDay : ℚ
  rawRetentionBytes : Int64
  oneMinuteRollupBuckets : Int64
  fiveMinuteRollupBuckets : Int64
  tenMinuteRollupBuckets : Int64
  projectedTotalBytes : Int64
deriving DecidableEq

/-- The estimate of an observation and a plan that passed the checks. -/
def projection (observation : ProbeObservation) (plan : RetentionPlan) : Estimate :=
  let averageBatchBytes : ℚ :=
    observation.compressedByteCount.toInt / observation.batchCount.toInt
  let batchesPerDay : ℚ :=
    (24 * hour).toInt / observation.observedDuration.toInt * observation.batchCount.toInt
  let rawBytes :=
    toInt64 ⌈averageBatchBytes * batchesPerDay * Duration.hours plan.rawRetention / 24⌉
  let seriesCount : ℚ :=
    max 1 ⌈(observation.metricValueCount.toInt : ℚ) / observation.batchCount.toInt⌉
  let bucketBytes := toInt64 ⌈seriesCount * (160 + 96) * (5 / 4)⌉
  let oneMinute := toInt64 (Duration.minutes plan.oneMinuteRetention)
  let fiveMinute := toInt64 (Duration.minutes plan.fiveMinuteRetention / 5)
  let tenMinute := toInt64 (Duration.minutes plan.tenMinuteRetention / 10)
  let rollupBytes := bucketBytes * (oneMinute + fiveMinute + tenMinute)
  { averageCompressedBatchBytes := averageBatchBytes
    batchesPerDay := batchesPerDay
    rawRetentionBytes := rawBytes
    oneMinuteRollupBuckets := oneMinute
    fiveMinuteRollupBuckets := fiveMinute
    tenMinuteRollupBuckets := tenMinute
    projectedTotalBytes := rawBytes + rollupBytes }

def estimateRetention (observation : ProbeObservation) (plan : RetentionPlan) :
    Except String Estimate :=
  if observation.hostID = "" then .error "host ID is required"
  else if observation.observedDuration ≤ 0 ∨ observation.batchCount ≤ 0 ∨
      observation.compressedByteCount ≤ 0 then
    .error "observed duration, batch count, and compressed bytes must be positive"
  else if plan.rawRetention ≤ 0 ∨ plan.oneMinuteRetention ≤ 0 ∨ plan.fiveMinuteRetention ≤ 0 ∨
      plan.tenMinuteRetention ≤ 0 then
    .error "all retention durations must be positive"
  else .ok (projection observation plan)

end Source

section Budget

/-- The bytes that the raw batches of the retention need at the observed rate. -/
def rawNeed (observation : ProbeObservation) (plan : RetentionPlan) : Int :=
  ⌈(observation.compressedByteCount.toInt * plan.rawRetention.toInt : ℚ) /
    observation.observedDuration.toInt⌉

/-- The full windows of some nanoseconds in a retention. -/
def windows (retention : Duration) (nanoseconds : Nat) : Int := retention.toInt / nanoseconds

/-- The buckets of the three rollups. -/
def bucketCount (plan : RetentionPlan) : Int :=
  windows plan.oneMinuteRetention 60000000000 + windows plan.fiveMinuteRetention 300000000000 +
    windows plan.tenMinuteRetention 600000000000

/-- The bytes of a bucket of every observed series: 160 and 96, and a quarter more. -/
def bucketNeed (observation : ProbeObservation) : Int :=
  320 * max 1 ⌈(observation.metricValueCount.toInt : ℚ) / observation.batchCount.toInt⌉

def rollupBudget (observation : ProbeObservation) (plan : RetentionPlan) : Int :=
  bucketNeed observation * bucketCount plan

/-- An estimate with nothing negative, whose total covers the raw batches and the rollups. -/
structure Estimate.Sound (budget : Int) (e : Estimate) : Prop where
  raw : 0 ≤ e.rawRetentionBytes
  oneMinute : 0 ≤ e.oneMinuteRollupBuckets
  fiveMinute : 0 ≤ e.fiveMinuteRollupBuckets
  tenMinute : 0 ≤ e.tenMinuteRollupBuckets
  covers_raw : e.rawRetentionBytes ≤ e.projectedTotalBytes
  covers_rollups : budget ≤ e.projectedTotalBytes.toInt

/-- No number of the first estimate is more than that of the second. -/
structure Estimate.AtMost (e f : Estimate) : Prop where
  average : e.averageCompressedBatchBytes ≤ f.averageCompressedBatchBytes
  batches : e.batchesPerDay ≤ f.batchesPerDay
  raw : e.rawRetentionBytes ≤ f.rawRetentionBytes
  oneMinute : e.oneMinuteRollupBuckets ≤ f.oneMinuteRollupBuckets
  fiveMinute : e.fiveMinuteRollupBuckets ≤ f.fiveMinuteRollupBuckets
  tenMinute : e.tenMinuteRollupBuckets ≤ f.tenMinuteRollupBuckets
  total : e.projectedTotalBytes ≤ f.projectedTotalBytes

end Budget

section Conversions

theorem toInt64_intCast (n : Int) : toInt64 (n : ℚ) = Int64.ofInt n := by
  rw [toInt64, Rat.num_intCast, Rat.den_intCast, Nat.cast_one, Int.tdiv_one]

/-- A number that is not negative is rounded down. -/
theorem toInt64_of_nonneg {x : ℚ} (h : 0 ≤ x) : toInt64 x = Int64.ofInt ⌊x⌋ := by
  rw [toInt64, Int.tdiv_eq_ediv_of_nonneg (Rat.num_nonneg.mpr h), Rat.floor_def']

theorem inUnits_eq {unit : Duration} (hzero : unit.toInt ≠ 0) (hone : unit ≠ -1) (d : Duration) :
    Duration.inUnits unit d = d.toInt / unit.toInt := by
  have hunit : (unit.toInt : ℚ) ≠ 0 := by exact_mod_cast hzero
  have hparts : (d.toInt.tdiv unit.toInt : ℚ) * unit.toInt + d.toInt.tmod unit.toInt = d.toInt := by
    exact_mod_cast Int.tdiv_mul_add_tmod d.toInt unit.toInt
  rw [Duration.inUnits, Int64.toInt_div_of_ne_right _ _ hone, Int64.toInt_mod, ← hparts]
  field_simp

theorem hours_eq (d : Duration) : Duration.hours d = d.toInt / 3600000000000 := by
  have hunit : hour.toInt = 3600000000000 := by decide
  rw [Duration.hours, inUnits_eq (by decide) (by decide), hunit]
  norm_num

theorem minutes_eq (d : Duration) : Duration.minutes d = d.toInt / 60000000000 := by
  have hunit : minute.toInt = 60000000000 := by decide
  rw [Duration.minutes, inUnits_eq (by decide) (by decide), hunit]
  norm_num

theorem toInt64_windows {retention : Duration} (h : 0 < retention) (nanoseconds : Nat) :
    toInt64 (retention.toInt / nanoseconds) = Int64.ofInt (windows retention nanoseconds) := by
  have hpositive : 0 < retention.toInt := Int64.lt_iff_toInt_lt.mp h
  rw [toInt64_of_nonneg, Rat.floor_intCast_div_natCast, windows]
  exact div_nonneg (by exact_mod_cast hpositive.le) (Nat.cast_nonneg _)

theorem windows_nonneg {retention : Duration} (h : 0 < retention) (nanoseconds : Nat) :
    0 ≤ windows retention nanoseconds :=
  Int.ediv_nonneg (Int64.lt_iff_toInt_lt.mp h).le (Int.natCast_nonneg _)

theorem windows_lt {retention : Duration} (h : 0 < retention) (nanoseconds : Nat) :
    windows retention nanoseconds < 2 ^ 63 :=
  lt_of_le_of_lt (Int.ediv_le_self _ (Int64.lt_iff_toInt_lt.mp h).le) (Int64.toInt_lt retention)

end Conversions

section Accepted

variable {observation : ProbeObservation} {plan : RetentionPlan}

/-- What `EstimateRetention` checks. -/
structure Accepted (observation : ProbeObservation) (plan : RetentionPlan) : Prop where
  hostID : observation.hostID ≠ ""
  observedDuration : 0 < observation.observedDuration
  batchCount : 0 < observation.batchCount
  compressedByteCount : 0 < observation.compressedByteCount
  rawRetention : 0 < plan.rawRetention
  oneMinuteRetention : 0 < plan.oneMinuteRetention
  fiveMinuteRetention : 0 < plan.fiveMinuteRetention
  tenMinuteRetention : 0 < plan.tenMinuteRetention

theorem estimateRetention_eq_ok_iff {e : Estimate} :
    estimateRetention observation plan = .ok e ↔
      Accepted observation plan ∧ projection observation plan = e := by
  rw [estimateRetention]
  split
  · next hhost => simpa using fun h : Accepted observation plan => absurd hhost h.hostID
  · next hhost =>
      split
      · next hcounts =>
          simp only [reduceCtorEq, false_iff, not_and]
          rintro ⟨-, hduration, hbatches, hbytes, -⟩
          simp only [← Int64.not_lt] at hcounts
          tauto
      · next hcounts =>
          split
          · next hplan =>
              simp only [reduceCtorEq, false_iff, not_and]
              rintro ⟨-, -, -, -, hraw, hone, hfive, hten⟩
              simp only [← Int64.not_lt] at hplan
              tauto
          · next hplan =>
              simp only [not_or, Int64.not_le] at hcounts hplan
              simp only [Except.ok.injEq]
              exact ⟨fun heq => ⟨⟨hhost, hcounts.1, hcounts.2.1, hcounts.2.2, hplan.1, hplan.2.1,
                hplan.2.2.1, hplan.2.2.2⟩, heq⟩, fun h => h.2⟩

theorem rawNeed_nonneg (h : Accepted observation plan) : 0 ≤ rawNeed observation plan := by
  have hbytes := Int64.lt_iff_toInt_lt.mp h.compressedByteCount
  have hraw := Int64.lt_iff_toInt_lt.mp h.rawRetention
  have hduration := Int64.lt_iff_toInt_lt.mp h.observedDuration
  rw [Int64.toInt_zero] at hbytes hraw hduration
  apply Int.ceil_nonneg
  positivity

theorem rollupBudget_nonneg (h : Accepted observation plan) :
    0 ≤ rollupBudget observation plan := by
  have hone := windows_nonneg h.oneMinuteRetention 60000000000
  have hfive := windows_nonneg h.fiveMinuteRetention 300000000000
  have hten := windows_nonneg h.tenMinuteRetention 600000000000
  rw [rollupBudget, bucketCount, bucketNeed]
  positivity

/-- The integers of an estimate are the needs in 64 bits. -/
structure Estimate.Wraps (observation : ProbeObservation) (plan : RetentionPlan) (e : Estimate) :
    Prop where
  raw : e.rawRetentionBytes = Int64.ofInt (rawNeed observation plan)
  oneMinute : e.oneMinuteRollupBuckets = Int64.ofInt (windows plan.oneMinuteRetention 60000000000)
  fiveMinute :
    e.fiveMinuteRollupBuckets = Int64.ofInt (windows plan.fiveMinuteRetention 300000000000)
  tenMinute : e.tenMinuteRollupBuckets = Int64.ofInt (windows plan.tenMinuteRetention 600000000000)
  total : e.projectedTotalBytes =
    Int64.ofInt (rawNeed observation plan + rollupBudget observation plan)

theorem rawBytes_eq (h : Accepted observation plan) :
    ((observation.compressedByteCount.toInt : ℚ) / observation.batchCount.toInt) *
        ((24 * hour).toInt / observation.observedDuration.toInt * observation.batchCount.toInt) *
        Duration.hours plan.rawRetention / 24 =
      observation.compressedByteCount.toInt * plan.rawRetention.toInt /
        observation.observedDuration.toInt := by
  have hbatches := Int64.lt_iff_toInt_lt.mp h.batchCount
  have hduration := Int64.lt_iff_toInt_lt.mp h.observedDuration
  rw [Int64.toInt_zero] at hbatches hduration
  have hb : (observation.batchCount.toInt : ℚ) ≠ 0 := by exact_mod_cast hbatches.ne'
  have ho : (observation.observedDuration.toInt : ℚ) ≠ 0 := by exact_mod_cast hduration.ne'
  have hday : (24 * hour).toInt = 86400000000000 := by decide
  rw [hours_eq, hday]
  field_simp
  push_cast
  ring

theorem bucketBytes_eq (observation : ProbeObservation) :
    toInt64 ⌈max 1 (⌈(observation.metricValueCount.toInt : ℚ) / observation.batchCount.toInt⌉ : ℚ) *
        (160 + 96) * (5 / 4)⌉ =
      Int64.ofInt (bucketNeed observation) := by
  have hexact :
      max 1 (⌈(observation.metricValueCount.toInt : ℚ) / observation.batchCount.toInt⌉ : ℚ) *
          (160 + 96) * (5 / 4) =
        (bucketNeed observation : ℚ) := by
    rw [bucketNeed]
    push_cast
    ring
  rw [hexact, Int.ceil_intCast, toInt64_intCast]

theorem projection_wraps (h : Accepted observation plan) :
    (projection observation plan).Wraps observation plan := by
  have hone := toInt64_windows h.oneMinuteRetention 60000000000
  have hfive := toInt64_windows h.fiveMinuteRetention 300000000000
  have hten := toInt64_windows h.tenMinuteRetention 600000000000
  have hone' : toInt64 (Duration.minutes plan.oneMinuteRetention) =
      Int64.ofInt (windows plan.oneMinuteRetention 60000000000) := by
    rw [← hone, minutes_eq]
    norm_num
  have hfive' : toInt64 (Duration.minutes plan.fiveMinuteRetention / 5) =
      Int64.ofInt (windows plan.fiveMinuteRetention 300000000000) := by
    rw [← hfive, minutes_eq, div_div]
    norm_num
  have hten' : toInt64 (Duration.minutes plan.tenMinuteRetention / 10) =
      Int64.ofInt (windows plan.tenMinuteRetention 600000000000) := by
    rw [← hten, minutes_eq, div_div]
    norm_num
  have hraw : (projection observation plan).rawRetentionBytes =
      Int64.ofInt (rawNeed observation plan) := by
    simp only [projection]
    rw [rawBytes_eq h, toInt64_intCast, rawNeed]
  refine ⟨hraw, hone', hfive', hten', ?_⟩
  have htotal : (projection observation plan).projectedTotalBytes =
      (projection observation plan).rawRetentionBytes + Int64.ofInt (bucketNeed observation) *
        (Int64.ofInt (windows plan.oneMinuteRetention 60000000000) +
          Int64.ofInt (windows plan.fiveMinuteRetention 300000000000) +
          Int64.ofInt (windows plan.tenMinuteRetention 600000000000)) := by
    rw [← bucketBytes_eq, ← hone', ← hfive', ← hten']
    rfl
  rw [htotal, hraw, rollupBudget, bucketCount]
  simp only [Int64.ofInt_add, Int64.ofInt_mul]

end Accepted

section Overflow

variable {observation : ProbeObservation} {plan : RetentionPlan}

/-- An estimate is sound exactly if what is left of the raw need, with the budget of the rollups, fits
in an `int64`. -/
theorem sound_iff_of_wraps {e : Estimate} (h : Accepted observation plan)
    (hwraps : e.Wraps observation plan) :
    e.Sound (rollupBudget observation plan) ↔
      shown (rawNeed observation plan) + rollupBudget observation plan < 2 ^ 63 := by
  have hbucket {buckets retention : Int64} {nanoseconds : Nat} (hpositive : 0 < retention)
      (hbuckets : buckets = Int64.ofInt (windows retention nanoseconds)) : 0 ≤ buckets := by
    have hnonneg := windows_nonneg hpositive nanoseconds
    rw [hbuckets, Int64.le_iff_toInt_le, toInt_ofInt,
      signed_of_lt hnonneg (windows_lt hpositive nanoseconds)]
    exact hnonneg
  have hcovers := signed_covers_iff (n := rawNeed observation plan) (rollupBudget_nonneg h)
  rw [← toInt_ofInt, ← toInt_ofInt, ← hwraps.raw, ← hwraps.total] at hcovers
  rw [← hcovers]
  constructor
  · intro hsound
    exact ⟨Int64.le_iff_toInt_le.mp hsound.raw, Int64.le_iff_toInt_le.mp hsound.covers_raw,
      hsound.covers_rollups⟩
  · rintro ⟨hraw, hcoversRaw, hcoversRollups⟩
    exact ⟨Int64.le_iff_toInt_le.mpr hraw, hbucket h.oneMinuteRetention hwraps.oneMinute,
      hbucket h.fiveMinuteRetention hwraps.fiveMinute,
      hbucket h.tenMinuteRetention hwraps.tenMinute, Int64.le_iff_toInt_le.mpr hcoversRaw,
      hcoversRollups⟩

/-- The observation with another count of bytes. -/
def ProbeObservation.withBytes (observation : ProbeObservation) (bytes : Int64) :
    ProbeObservation :=
  { observation with compressedByteCount := bytes }

theorem Accepted.withBytes (h : Accepted observation plan) {bytes : Int64} (hbytes : 0 < bytes) :
    Accepted (observation.withBytes bytes) plan :=
  { h with compressedByteCount := hbytes }

/-- The raw need of a count of bytes. -/
def needOf (observation : ProbeObservation) (plan : RetentionPlan) (bytes : Nat) : Int :=
  ⌈(bytes * plan.rawRetention.toInt : ℚ) / observation.observedDuration.toInt⌉

theorem rawNeed_withBytes {bytes : Int64} (hbytes : 0 ≤ bytes) :
    rawNeed (observation.withBytes bytes) plan = needOf observation plan bytes.toInt.toNat := by
  have hcast : ((bytes.toInt.toNat : Nat) : ℚ) = bytes.toInt := by
    exact_mod_cast Int.toNat_of_nonneg (Int64.le_iff_toInt_le.mp hbytes)
  rw [rawNeed, needOf, hcast]
  rfl

/-- A byte more needs more by less than half a turn of an `int64`. -/
theorem needOf_succ (h : Accepted observation plan) (bytes : Nat) :
    needOf observation plan bytes ≤ needOf observation plan (bytes + 1) ∧
      needOf observation plan (bytes + 1) ≤ needOf observation plan bytes + 2 ^ 63 := by
  have hraw := Int64.lt_iff_toInt_lt.mp h.rawRetention
  have hduration := Int64.lt_iff_toInt_lt.mp h.observedDuration
  rw [Int64.toInt_zero] at hraw hduration
  have hretention : (0 : ℚ) ≤ plan.rawRetention.toInt := by exact_mod_cast hraw.le
  have hobserved : (1 : ℚ) ≤ observation.observedDuration.toInt := by exact_mod_cast hduration
  have hlarge : (plan.rawRetention.toInt : ℚ) ≤ 2 ^ 63 := by
    exact_mod_cast (Int64.toInt_lt plan.rawRetention).le
  have hsplit : ((bytes + 1 : Nat) * plan.rawRetention.toInt : ℚ) /
        observation.observedDuration.toInt =
      (bytes * plan.rawRetention.toInt : ℚ) / observation.observedDuration.toInt +
        plan.rawRetention.toInt / observation.observedDuration.toInt := by
    push_cast
    ring
  have hnonneg : (0 : ℚ) ≤ plan.rawRetention.toInt / observation.observedDuration.toInt :=
    div_nonneg hretention (zero_le_one.trans hobserved)
  have hbounded : (plan.rawRetention.toInt : ℚ) / observation.observedDuration.toInt ≤ 2 ^ 63 :=
    (div_le_self hretention hobserved).trans hlarge
  rw [needOf, needOf, hsplit]
  constructor
  · apply Int.ceil_le_ceil
    exact le_add_of_nonneg_right hnonneg
  · rw [Int.ceil_le]
    push_cast
    exact add_le_add (Int.le_ceil _) hbounded

theorem needOf_mono (h : Accepted observation plan) : Monotone (needOf observation plan) :=
  monotone_nat_of_le_succ fun bytes => (needOf_succ h bytes).1

/-- Every estimate is sound for the counts of bytes up to that of the observation, and none is more
than that of a larger count. -/
def NoOverflow (observation : ProbeObservation) (plan : RetentionPlan) : Prop :=
  ∀ fewer more : Int64, fewer ≤ more → more ≤ observation.compressedByteCount →
    ∀ e f, estimateRetention (observation.withBytes fewer) plan = .ok e →
      estimateRetention (observation.withBytes more) plan = .ok f →
        e.Sound (rollupBudget observation plan) ∧ f.Sound (rollupBudget observation plan) ∧
          e.AtMost f

theorem estimateRetention_withBytes (h : Accepted observation plan) {bytes : Int64}
    (hbytes : 0 < bytes) :
    estimateRetention (observation.withBytes bytes) plan =
      .ok (projection (observation.withBytes bytes) plan) :=
  estimateRetention_eq_ok_iff.mpr ⟨h.withBytes hbytes, rfl⟩

theorem signed_needOf_nonneg (h : Accepted observation plan) (hno : NoOverflow observation plan)
    {bytes : Nat} (hle : (bytes : Int) ≤ observation.compressedByteCount.toInt) :
    0 ≤ signed (needOf observation plan bytes) := by
  cases bytes with
  | zero => simp [needOf, signed]
  | succ bytes =>
      have hlt := Int64.toInt_lt observation.compressedByteCount
      have htoInt : (Int64.ofInt ((bytes + 1 : Nat) : Int)).toInt = ((bytes + 1 : Nat) : Int) :=
        Int64.toInt_ofInt_of_le (by omega) (by omega)
      have hpositive : 0 < Int64.ofInt ((bytes + 1 : Nat) : Int) := by
        rw [Int64.lt_iff_toInt_lt, htoInt, Int64.toInt_zero]
        omega
      have hcount : Int64.ofInt ((bytes + 1 : Nat) : Int) ≤ observation.compressedByteCount := by
        rw [Int64.le_iff_toInt_le, htoInt]
        exact hle
      have hestimate := estimateRetention_withBytes h hpositive
      have hsound := (hno _ _ (Int64.le_refl _) hcount _ _ hestimate hestimate).1
      have hraw := Int64.le_iff_toInt_le.mp hsound.raw
      rw [(projection_wraps (h.withBytes hpositive)).raw, toInt_ofInt,
        rawNeed_withBytes (Int64.le_of_lt hpositive), htoInt, Int.toNat_natCast] at hraw
      exact hraw

theorem rawNeed_eq_needOf (h : Accepted observation plan) :
    rawNeed observation plan =
      needOf observation plan observation.compressedByteCount.toInt.toNat :=
  @rawNeed_withBytes observation plan _ (Int64.le_of_lt h.compressedByteCount)

theorem rawNeed_lt_of_noOverflow (h : Accepted observation plan)
    (hno : NoOverflow observation plan) : rawNeed observation plan < 2 ^ 63 := by
  have hpositive := Int64.lt_iff_toInt_lt.mp h.compressedByteCount
  rw [Int64.toInt_zero] at hpositive
  have hneeds := lt_of_signed_nonneg (needOf observation plan)
    observation.compressedByteCount.toInt.toNat (by simp [needOf])
    (fun bytes _ => needOf_succ h bytes)
    (fun bytes hbytes => signed_needOf_nonneg h hno (by omega))
  rw [rawNeed_eq_needOf h]
  exact hneeds.2

/-- A smaller count needs no more. -/
theorem rawNeed_withBytes_le (h : Accepted observation plan) {fewer more : Int64}
    (hfewer : 0 < fewer) (hle : fewer ≤ more) :
    rawNeed (observation.withBytes fewer) plan ≤ rawNeed (observation.withBytes more) plan := by
  have hpositive := Int64.le_of_lt hfewer
  rw [rawNeed_withBytes hpositive, rawNeed_withBytes (Int64.le_trans hpositive hle)]
  apply needOf_mono h
  exact Int.toNat_le_toNat (Int64.le_iff_toInt_le.mp hle)

theorem projection_atMost (h : Accepted observation plan) {fewer more : Int64}
    (hfewer : 0 < fewer) (hle : fewer ≤ more)
    (hlt : rawNeed (observation.withBytes more) plan + rollupBudget observation plan < 2 ^ 63) :
    (projection (observation.withBytes fewer) plan).AtMost
      (projection (observation.withBytes more) plan) := by
  have hmore := Int64.lt_of_lt_of_le hfewer hle
  have hneed := rawNeed_withBytes_le h hfewer hle
  have hnonneg := rawNeed_nonneg (h.withBytes hfewer)
  have hbudget : 0 ≤ rollupBudget observation plan := rollupBudget_nonneg h
  have hfewerWraps := projection_wraps (h.withBytes hfewer)
  have hmoreWraps := projection_wraps (h.withBytes hmore)
  have hrollups (bytes : Int64) :
      rollupBudget (observation.withBytes bytes) plan = rollupBudget observation plan := rfl
  refine ⟨?_, le_refl _, ?_, Int64.le_refl _, Int64.le_refl _, Int64.le_refl _, ?_⟩
  · have hbatches := Int64.lt_iff_toInt_lt.mp h.batchCount
    rw [Int64.toInt_zero] at hbatches
    have hbytes : (fewer.toInt : ℚ) ≤ more.toInt := by
      exact_mod_cast Int64.le_iff_toInt_le.mp hle
    exact div_le_div_of_nonneg_right hbytes (by exact_mod_cast hbatches.le)
  · rw [hfewerWraps.raw, hmoreWraps.raw, Int64.le_iff_toInt_le, toInt_ofInt, toInt_ofInt,
      signed_of_lt hnonneg (by omega), signed_of_lt (hnonneg.trans hneed) (by omega)]
    exact hneed
  · rw [hfewerWraps.total, hmoreWraps.total, Int64.le_iff_toInt_le, toInt_ofInt, toInt_ofInt,
      hrollups, hrollups, signed_of_lt (by omega) (by omega), signed_of_lt (by omega) (by omega)]
    omega

theorem noOverflow_of_lt (h : Accepted observation plan)
    (hlt : rawNeed observation plan + rollupBudget observation plan < 2 ^ 63) :
    NoOverflow observation plan := by
  intro fewer more hle hcount e f he hf
  obtain ⟨hfewer, rfl⟩ := estimateRetention_eq_ok_iff.mp he
  obtain ⟨hmore, rfl⟩ := estimateRetention_eq_ok_iff.mp hf
  have hmoreLt :
      rawNeed (observation.withBytes more) plan + rollupBudget observation plan < 2 ^ 63 :=
    lt_of_le_of_lt (add_le_add_left (rawNeed_withBytes_le h hmore.compressedByteCount hcount) _) hlt
  have hsound {bytes : Int64} (hbytes : 0 < bytes) (hbytesLe : bytes ≤ more) :
      (projection (observation.withBytes bytes) plan).Sound (rollupBudget observation plan) := by
    have haccepted := h.withBytes hbytes
    have hneed := rawNeed_withBytes_le h hbytes hbytesLe
    have hbudget := rollupBudget_nonneg h
    apply (sound_iff_of_wraps haccepted (projection_wraps haccepted)).mpr
    rw [shown_of_lt (rawNeed_nonneg haccepted) (by omega)]
    exact lt_of_le_of_lt (add_le_add_left hneed _) hmoreLt
  exact ⟨hsound hfewer.compressedByteCount hle,
    hsound hmore.compressedByteCount (Int64.le_refl _),
    projection_atMost h hfewer.compressedByteCount hle hmoreLt⟩

/-- An accepted observation has a sound estimate exactly if what 64 bits keep of its raw need leaves
room for the rollups, and so have all smaller counts of bytes, with estimates that rise, exactly if
the whole raw need does. -/
theorem estimate_sound_iff {e : Estimate} (h : estimateRetention observation plan = .ok e) :
    (e.Sound (rollupBudget observation plan) ↔
        shown (rawNeed observation plan) + rollupBudget observation plan < 2 ^ 63) ∧
      (NoOverflow observation plan ↔
        rawNeed observation plan + rollupBudget observation plan < 2 ^ 63) := by
  obtain ⟨haccepted, rfl⟩ := estimateRetention_eq_ok_iff.mp h
  have hsound := sound_iff_of_wraps haccepted (projection_wraps haccepted)
  refine ⟨hsound, ?_, noOverflow_of_lt haccepted⟩
  intro hno
  have hat := hsound.mp (hno _ _ (Int64.le_refl _) (Int64.le_refl _) _ _ h h).1
  rwa [shown_of_lt (rawNeed_nonneg haccepted) (rawNeed_lt_of_noOverflow haccepted hno)] at hat

def threeDays : ProbeObservation := ⟨"framework", 72 * hour, 1000, 4000000, 50000⟩

theorem threeDays_sound :
    (projection threeDays defaultRetentionPlan).Sound
        (rollupBudget threeDays defaultRetentionPlan) ∧
      NoOverflow threeDays defaultRetentionPlan := by
  have haccepted : estimateRetention threeDays defaultRetentionPlan =
      .ok (projection threeDays defaultRetentionPlan) := by decide +kernel
  constructor
  · exact (estimate_sound_iff haccepted).1.mpr (by decide +kernel)
  · exact (estimate_sound_iff haccepted).2.mpr (by decide +kernel)

def hundredTerabytes : ProbeObservation := ⟨"framework", 1000000000, 1, 100000000000000, 1⟩

/-- A hundred terabytes in a second need 17 280 000 for two days, which an `int64` cannot hold: the
estimate is negative. -/
theorem hundredTerabytes_negative :
    ∃ e, estimateRetention hundredTerabytes defaultRetentionPlan = .ok e ∧
      e.rawRetentionBytes < 0 ∧ e.projectedTotalBytes < 0 ∧
        ¬ e.Sound (rollupBudget hundredTerabytes defaultRetentionPlan) := by
  refine ⟨projection hundredTerabytes defaultRetentionPlan, by decide +kernel, by decide +kernel,
    by decide +kernel, ?_⟩
  intro hsound
  exact absurd hsound.raw (by decide +kernel)

end Overflow

end NodeScope.Storage
