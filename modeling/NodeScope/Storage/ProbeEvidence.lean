import NodeScope.Lib.FloatOrder
import NodeScope.Lib.Numeric
import NodeScope.Telemetry.Freshness

/-!
# Evidence of the storage probe

`storage_probe_evidence` compares the number of batches received from a host with the number of
collection intervals begun between the first and the last receipt, and `assessEvidence` refuses a
percentage above 100. The expected number is a floor, so that receipts that come closer together
than the interval, by jitter or because a backlog is sent, outnumber it.
`completeness_in_range_iff` says from which number of receipts on.

## Implementation notes

The sizes of relations and indexes are inputs. The percentiles of the compressed bytes, which no
check reads, are left out. The query is read with one row for each slug and with the single row of
the settings.
-/

namespace NodeScope.Storage

open Lib Lib.Time Telemetry

structure RelationSizes where
  telemetryRelationBytes : Int
  telemetryIndexBytes : Int
  rawSampleRelationBytes : Int
  rawSampleIndexBytes : Int
deriving DecidableEq

structure ProbeRow where
  hostSlug : String
  firstReceivedAt : Option Int
  lastReceivedAt : Option Int
  receivedBatchCount : Int
  expectedBatchCount : Int
  completenessPercent : Numeric
  maxGapSeconds : Numeric
  totalCompressedBytes : Int
  metricCardinality : Int
  sizes : RelationSizes
deriving DecidableEq

inductive ProbeError where
  | divisionByZero
deriving DecidableEq

/-- The batches of the host from an instant on. -/
def probeBatches (db : Db) (host : HostRow) (since : Int) : List BatchRow :=
  db.telemetryBatches.filter fun b => b.hostId == host.id && since ≤ b.receivedAt

/-- The receipt times of the host from an instant on. -/
def receiptTimes (db : Db) (host : HostRow) (since : Int) : List Int :=
  (probeBatches db host since).map BatchRow.receivedAt

/-- `extract(epoch from …)` of a difference of timestamps. -/
def epoch (difference : Int) : Numeric := ⟨difference, 6⟩

/-- The differences to the row before, in the order of the receipts. -/
def receiptGaps (times : List Int) : List Int :=
  let sorted := times.insertionSort (· ≤ ·)
  List.zipWith (fun earlier later => later - earlier) sorted sorted.tail

def divided (x y : Numeric) : Except ProbeError Numeric :=
  Check.orFail (x.div y) .divisionByZero

/-- The intervals begun in a span, at least one. -/
def expectedBatchCount (span interval : Int) : Except ProbeError Int := do
  let quotient ← divided (epoch span) (.ofInt interval)
  .ok (max 1 (quotient.floor + 1))

def completenessPercent (received expected : Int) : Except ProbeError Numeric := do
  let quotient ← divided (.ofInt received) (.ofInt expected)
  .ok ((quotient.mul (.ofInt 100)).round 2)

def configuredInterval (settings : CollectionSettings) (host : HostRow) : Int :=
  match settings.overrides.find? fun o => o.hostId == host.id with
  | some override => override.intervalSeconds
  | none => settings.globalIntervalSeconds

def metricCardinality (db : Db) (host : HostRow) (since : Int) : Int :=
  let samples := db.metricSamples.filter fun s => s.hostId == host.id && since ≤ s.observedAt
  (samples.map fun s => s.deviceId ++ "\u001f" ++ s.metricName).dedup.length

/-- The row of the query for a host. -/
def probeRow (sizes : RelationSizes) (settings : CollectionSettings) (db : Db) (since : Int)
    (host : HostRow) : Except ProbeError ProbeRow := do
  let times := receiptTimes db host since
  let (expected, percent) ←
    match times.min?, times.max? with
    | some first, some last => do
        let expected ← expectedBatchCount (last - first) (configuredInterval settings host)
        let percent ← completenessPercent times.length expected
        .ok (expected, percent)
    | _, _ => .ok (0, .ofInt 0)
  .ok {
    hostSlug := host.slug
    firstReceivedAt := times.min?
    lastReceivedAt := times.max?
    receivedBatchCount := times.length
    expectedBatchCount := expected
    completenessPercent := percent
    maxGapSeconds := ((receiptGaps times).max?.map epoch).getD (.ofInt 0)
    totalCompressedBytes := ((probeBatches db host since).map BatchRow.compressedBytes).sum
    metricCardinality := metricCardinality db host since
    sizes := sizes }

def storageProbeEvidence (sizes : RelationSizes) (settings : CollectionSettings) (db : Db)
    (slug : String) (since : Int) : Except ProbeError (Option ProbeRow) :=
  match Table.find HostRow.slug slug db.hosts with
  | none => .ok none
  | some host => (probeRow sizes settings db since host).map some

structure Evidence where
  hostSlug : String
  firstReceivedAt : Option Int
  lastReceivedAt : Option Int
  receivedBatchCount : Int
  expectedBatchCount : Int
  completenessPercent : Float64
  maxGapSeconds : Float64
  totalCompressedBytes : Int
  metricCardinality : Int
  sizes : RelationSizes
deriving DecidableEq

/-- `Scan`, which takes a `numeric` to the nearest double. -/
def ProbeRow.scan (row : ProbeRow) : Evidence where
  hostSlug := row.hostSlug
  firstReceivedAt := row.firstReceivedAt.map ofTimestamp
  lastReceivedAt := row.lastReceivedAt.map ofTimestamp
  receivedBatchCount := row.receivedBatchCount
  expectedBatchCount := row.expectedBatchCount
  completenessPercent := .ofRat row.completenessPercent.toRat
  maxGapSeconds := .ofRat row.maxGapSeconds.toRat
  totalCompressedBytes := row.totalCompressedBytes
  metricCardinality := row.metricCardinality
  sizes := row.sizes

structure EvidenceAssessment where
  complete : Bool
  reasons : List String
deriving DecidableEq

def invalidPercent (percent : Float64) : Bool :=
  percent.isNaN || percent.isInf || Float64.less percent (.ofNat 0) ||
    Float64.less (.ofNat 100) percent

def intervalSupported (intervalSeconds : Int) : Bool :=
  1 ≤ intervalSeconds && intervalSeconds ≤ 60

/-- The reason that the longest gap gives. -/
def gapReasons (gap : Float64) (intervalSeconds : Int) : List String :=
  if gap.isNaN || gap.isInf || Float64.less gap (.ofNat 0) then ["invalid_max_gap_seconds"]
  else if intervalSupported intervalSeconds &&
      Float64.less (.ofInt (intervalSeconds * 3)) gap then
    ["receipt_gap_exceeds_three_collection_intervals"]
  else []

def RelationSizes.negative (sizes : RelationSizes) : Bool :=
  sizes.telemetryRelationBytes < 0 || sizes.telemetryIndexBytes < 0 ||
    sizes.rawSampleRelationBytes < 0 || sizes.rawSampleIndexBytes < 0

def reasonIf (c : Bool) (reason : String) : List String := if c then [reason] else []

def assessEvidence (value : Evidence) (intervalSeconds : Int) : EvidenceAssessment :=
  let reasons :=
    reasonIf (!intervalSupported intervalSeconds)
        "collection_interval_seconds_must_be_between_1_and_60" ++
      reasonIf (value.firstReceivedAt.isNone || value.lastReceivedAt.isNone)
        "missing_server_receipt_timestamps" ++
      reasonIf (value.receivedBatchCount < 1) "no_received_batches" ++
      reasonIf (value.expectedBatchCount < 1) "no_expected_batch_count" ++
      reasonIf (invalidPercent value.completenessPercent) "invalid_completeness_percent" ++
      gapReasons value.maxGapSeconds intervalSeconds ++
      reasonIf (value.metricCardinality < 1) "no_metric_cardinality" ++
      reasonIf (value.totalCompressedBytes < 0 || value.sizes.negative)
        "negative_storage_size_evidence"
  ⟨reasons.isEmpty, reasons⟩

/-- Consecutive receipts are never more than three intervals apart. -/
def Healthy (interval : Int) (times : List Int) : Prop :=
  ∀ gap ∈ receiptGaps times, gap ≤ sqlSeconds (3 * interval)

instance (interval : Int) (times : List Int) : Decidable (Healthy interval times) :=
  inferInstanceAs (Decidable (∀ gap ∈ receiptGaps times, gap ≤ sqlSeconds (3 * interval)))

/-- The percentage is between 0 and 100, and no assessment calls it invalid. -/
structure InRange (row : ProbeRow) : Prop where
  nonneg : 0 ≤ row.completenessPercent.toRat
  le_hundred : row.completenessPercent.toRat ≤ 100
  assessed : ∀ intervalSeconds,
    "invalid_completeness_percent" ∉ (assessEvidence row.scan intervalSeconds).reasons

section Percentage

/-- The number of intervals begun in a span, where the quotient has the digits of a `numeric`. -/
def intervalsBegun (span interval : Int) : Int :=
  let scale := Numeric.selectDivScale (epoch span) (.ofInt interval)
  ⌊(Numeric.rounded (span / 10 ^ 6 / interval) scale).toRat⌋ + 1

/-- The receipts outnumber the intervals by half a hundredth of a percent or more, less half a
unit of the last digit of the quotient. -/
def Crowded (received expected : Int) : Prop :=
  100005 / 10 ^ 5 - 1 / (2 * 10 ^ Numeric.selectDivScale (.ofInt received) (.ofInt expected)) ≤
    (received : ℚ) / expected

variable {received expected : Int}

theorem completenessPercent_eq (hreceived : 0 < received) (hexpected : 0 < expected) :
    ∃ percent, completenessPercent received expected = .ok percent ∧ percent.scale = 2 ∧
      0 ≤ percent.units ∧ (percent.units ≤ 10000 ↔ ¬ Crowded received expected) := by
  set scale := Numeric.selectDivScale (.ofInt received) (.ofInt expected) with hscale
  set ratio : ℚ := (received : ℚ) / expected with hratio
  have hpos : 0 < ratio := div_pos (Int.cast_pos.mpr hreceived) (Int.cast_pos.mpr hexpected)
  set quotient := Numeric.rounded ratio scale with hquotient
  have hnonneg : 0 ≤ quotient.toRat := Numeric.rounded_nonneg hpos.le scale
  refine ⟨(quotient.mul (.ofInt 100)).round 2, ?_, rfl, ?_, ?_⟩
  · rw [completenessPercent, divided, Numeric.div, if_neg (by exact hexpected.ne'),
      Numeric.toRat_ofInt, Numeric.toRat_ofInt]
    rfl
  · refine Numeric.roundHalfAway_nonneg ?_
    rw [Numeric.toRat_mul, Numeric.toRat_ofInt]
    positivity
  · -- Both roundings are moved to the ratio.
    have hround : ((quotient.mul (.ofInt 100)).round 2).units ≤ 10000 ↔
        quotient.toRat < 100005 / 10 ^ 5 := by
      rw [← Int.lt_add_one_iff, Numeric.round, Numeric.rounded, Numeric.toRat_mul,
        Numeric.toRat_ofInt, Numeric.roundHalfAway_lt (by positivity)]
      push_cast
      constructor <;> intro h <;> linarith
    rw [hround, Crowded, not_le, ← hscale, ← hratio]
    by_cases hdigits : scale < 5
    · have hlarge : 10000 < ratio := by
        have := Numeric.lt_div_of_selectDivScale (x := .ofInt received) (y := .ofInt expected)
          (by rw [Numeric.toRat_ofInt]; exact_mod_cast hreceived)
          (by rw [Numeric.toRat_ofInt]; exact_mod_cast hexpected) hdigits
        rwa [Numeric.toRat_ofInt, Numeric.toRat_ofInt] at this
      have hdigit : (0 : ℚ) < 1 / (2 * 10 ^ scale) := by positivity
      refine iff_of_false (fun hlt => ?_) (fun hlt => by linarith)
      have htwo : quotient.toRat < ((2 * 10 ^ scale : Int) : ℚ) / 10 ^ scale := by
        push_cast
        rw [mul_div_cancel_right₀ _ (by positivity)]
        linarith
      rw [hquotient, Numeric.rounded_lt hpos.le, sub_div, div_div] at htwo
      push_cast at htwo
      rw [mul_div_cancel_right₀ _ (by positivity)] at htwo
      linarith
    · obtain ⟨more, hmore⟩ := Nat.exists_eq_add_of_le (not_lt.mp hdigits)
      have hunit : (100005 : ℚ) / 10 ^ 5 = ((100005 * 10 ^ more : Int) : ℚ) / 10 ^ scale := by
        rw [hmore, pow_add]
        push_cast
        field_simp
      rw [hunit, hquotient, Numeric.rounded_lt hpos.le, sub_div, div_div]

/-- Up to twenty thousand intervals one receipt more than these is too many. -/
theorem crowded_iff (hreceived : 0 < received) (hexpected : 0 < expected)
    (hfew : expected ≤ 20000) : Crowded received expected ↔ expected < received := by
  have hexpected' : (0 : ℚ) < expected := Int.cast_pos.mpr hexpected
  have hfew' : (expected : ℚ) ≤ 20000 := by exact_mod_cast hfew
  rw [Crowded]
  constructor
  · intro hcrowded
    by_contra hle
    have hratio : (received : ℚ) / expected ≤ 1 := by
      rw [div_le_one hexpected']
      exact_mod_cast not_lt.mp hle
    have hdigits : 5 ≤ Numeric.selectDivScale (.ofInt received) (.ofInt expected) := by
      by_contra hless
      have := Numeric.lt_div_of_selectDivScale (x := .ofInt received) (y := .ofInt expected)
        (by rw [Numeric.toRat_ofInt]; exact_mod_cast hreceived)
        (by rw [Numeric.toRat_ofInt]; exact hexpected') (not_le.mp hless)
      rw [Numeric.toRat_ofInt, Numeric.toRat_ofInt] at this
      linarith
    have hunit : 1 / (2 * (10 : ℚ) ^ Numeric.selectDivScale (.ofInt received) (.ofInt expected)) ≤
        1 / (2 * 10 ^ 5) :=
      one_div_le_one_div_of_le (by norm_num)
        (mul_le_mul_of_nonneg_left (pow_le_pow_right₀ (by norm_num) hdigits) (by norm_num))
    linarith
  · intro hlt
    have hone : (expected : ℚ) + 1 ≤ received := by exact_mod_cast hlt
    have hunit : (0 : ℚ) <
        1 / (2 * 10 ^ Numeric.selectDivScale (.ofInt received) (.ofInt expected)) := by positivity
    have hratio : (100005 : ℚ) / 10 ^ 5 ≤ received / expected := by
      rw [le_div_iff₀ hexpected']
      linarith
    linarith

theorem magnitude_hundred :
    Float64.magnitude ((100 : Nat) : ℚ) = Float64.magnitudeBits 100 1 := by
  simpa using Float64.magnitude_div 100 one_pos

/-- The double nearest to the next percentage above 100 is above 100. -/
theorem magnitude_hundred_lt :
    Float64.magnitude ((100 : Nat) : ℚ) < Float64.magnitude (10001 / 100) := by
  have hnext : Float64.magnitude (10001 / 100) = Float64.magnitudeBits 10001 100 := by
    rw [← Float64.magnitude_div 10001 (d := 100) (by decide), Nat.cast_ofNat, Nat.cast_ofNat]
  rw [magnitude_hundred, hnext]
  decide

theorem invalidPercent_ofRat {q : ℚ} (hq : 0 ≤ q) :
    invalidPercent (.ofRat q) =
      (decide (Float64.magnitude q = Float64.infinityBits) ||
        decide (Float64.magnitude ((100 : Nat) : ℚ) < Float64.magnitude q)) := by
  have hzero : Float64.magnitude ((0 : Nat) : ℚ) = 0 := rfl
  rw [invalidPercent, Float64.ofNat, Float64.ofNat, Float64.isNaN_ofRat hq, Float64.isInf_ofRat hq,
    Float64.less_ofRat hq (Nat.cast_nonneg 0), Float64.less_ofRat (Nat.cast_nonneg 100) hq, hzero]
  simp

theorem invalidPercent_of_le {q : ℚ} (hq : 0 ≤ q) (hle : q ≤ 100) :
    invalidPercent (.ofRat q) = false := by
  have hmagnitude : Float64.magnitude q ≤ Float64.magnitude ((100 : Nat) : ℚ) :=
    Float64.magnitude_mono hq (by exact_mod_cast hle)
  have hfinite := (hmagnitude.trans_lt magnitude_hundred_lt).trans_le (Float64.magnitude_le _)
  rw [invalidPercent_ofRat hq, decide_eq_false hfinite.ne, decide_eq_false hmagnitude.not_gt]
  rfl

theorem invalidPercent_of_ge {q : ℚ} (hge : 10001 / 100 ≤ q) :
    invalidPercent (.ofRat q) = true := by
  have hq : 0 ≤ q := le_trans (by norm_num) hge
  have hmagnitude := magnitude_hundred_lt.trans_le (Float64.magnitude_mono (by norm_num) hge)
  rw [invalidPercent_ofRat hq, decide_eq_true hmagnitude, Bool.or_true]

theorem mem_reasonIf {c : Bool} {reason r : String} : r ∈ reasonIf c reason ↔ c = true ∧ r = reason := by
  cases c <;> simp [reasonIf]

theorem invalid_mem_reasons (value : Evidence) (intervalSeconds : Int) :
    "invalid_completeness_percent" ∈ (assessEvidence value intervalSeconds).reasons ↔
      invalidPercent value.completenessPercent = true := by
  have hgap : "invalid_completeness_percent" ∉ gapReasons value.maxGapSeconds intervalSeconds := by
    rw [gapReasons]
    split_ifs <;> decide
  simp [assessEvidence, mem_reasonIf, hgap]

theorem inRange_of_le {row : ProbeRow} (hnonneg : 0 ≤ row.completenessPercent.toRat)
    (hle : row.completenessPercent.toRat ≤ 100) : InRange row := by
  refine ⟨hnonneg, hle, fun intervalSeconds => ?_⟩
  rw [invalid_mem_reasons, ProbeRow.scan, invalidPercent_of_le hnonneg hle]
  exact Bool.false_ne_true

/-- A percentage of two digits that is out of range is refused. -/
theorem inRange_iff {row : ProbeRow} (hscale : row.completenessPercent.scale = 2)
    (hnonneg : 0 ≤ row.completenessPercent.units) (intervalSeconds : Int) :
    (InRange row ↔ row.completenessPercent.units ≤ 10000) ∧
      ("invalid_completeness_percent" ∉ (assessEvidence row.scan intervalSeconds).reasons ↔
        row.completenessPercent.units ≤ 10000) := by
  have hrat : row.completenessPercent.toRat = row.completenessPercent.units / 100 := by
    rw [Numeric.toRat, hscale]
    norm_num
  have hnonneg' : 0 ≤ row.completenessPercent.toRat := by
    rw [hrat]
    positivity
  by_cases hle : row.completenessPercent.units ≤ 10000
  · have hrange : InRange row := by
      refine inRange_of_le hnonneg' ?_
      rw [hrat, div_le_iff₀ (by norm_num)]
      exact_mod_cast hle
    exact ⟨iff_of_true hrange hle, iff_of_true (hrange.assessed intervalSeconds) hle⟩
  · have hinvalid : invalidPercent row.scan.completenessPercent = true := by
      refine invalidPercent_of_ge ?_
      rw [hrat]
      gcongr
      exact_mod_cast not_le.mp hle
    rw [← invalid_mem_reasons _ intervalSeconds] at hinvalid
    exact ⟨iff_of_false (fun h => h.assessed intervalSeconds hinvalid) hle,
      iff_of_false (not_not.mpr hinvalid) hle⟩

end Percentage

section Intervals

variable {span interval : Int}

theorem roundedSpan_nonneg (hspan : 0 ≤ span) (hinterval : 0 < interval) (scale : Nat) :
    0 ≤ ⌊(Numeric.rounded (span / 10 ^ 6 / interval) scale).toRat⌋ := by
  have hspan' : (0 : ℚ) ≤ span := Int.cast_nonneg hspan
  have hinterval' : (0 : ℚ) < interval := Int.cast_pos.mpr hinterval
  exact Int.floor_nonneg.mpr (Numeric.rounded_nonneg (by positivity) scale)

theorem expectedBatchCount_eq (hspan : 0 ≤ span) (hinterval : 0 < interval) :
    expectedBatchCount span interval = .ok (intervalsBegun span interval) := by
  have hfloor := roundedSpan_nonneg hspan hinterval
    (Numeric.selectDivScale (epoch span) (.ofInt interval))
  rw [expectedBatchCount, divided, Numeric.div, if_neg (by exact hinterval.ne'),
    Numeric.toRat_ofInt, intervalsBegun]
  change Except.ok (max 1 (⌊(Numeric.rounded (span / 10 ^ 6 / interval) _).toRat⌋ + 1)) = _
  rw [max_eq_right (by omega)]

theorem intervalsBegun_pos (hspan : 0 ≤ span) (hinterval : 0 < interval) :
    0 < intervalsBegun span interval :=
  Int.lt_add_one_iff.mpr (roundedSpan_nonneg hspan hinterval _)

/-- The quotient of a span of less than 10 ^ 12 seconds has eight digits after the point. -/
theorem eight_le_selectDivScale (hspan : span < sqlSeconds (10 ^ 12)) (hnonneg : 0 ≤ span)
    (hinterval : 1 ≤ interval) :
    8 ≤ Numeric.selectDivScale (epoch span) (.ofInt interval) := by
  have hsmall : (epoch span).weight ≤ 2 := by
    have hlt : |(epoch span).toRat| < ((10000 : Nat) : ℚ) ^ (3 : Int) := by
      have hspan' : (span : ℚ) < 10 ^ 12 * 1000000 := by exact_mod_cast hspan
      rw [abs_of_nonneg (div_nonneg (Int.cast_nonneg hnonneg) (by positivity)), epoch,
        Numeric.toRat, div_lt_iff₀ (by positivity)]
      norm_num at hspan' ⊢
      exact hspan'
    rw [Numeric.weight]
    obtain hzero | hpos := (abs_nonneg (epoch span).toRat).eq_or_lt
    · rw [← hzero, Int.log_zero_right]
      decide
    · have := (Int.lt_zpow_iff_log_lt (by decide) hpos).mp hlt
      omega
  have hwhole : 0 ≤ (Numeric.ofInt interval).weight := by
    have hone : (1 : ℚ) ≤ |(Numeric.ofInt interval).toRat| := by
      rw [Numeric.toRat_ofInt]
      exact_mod_cast hinterval.trans (le_abs_self interval)
    rw [Numeric.weight, ← Int.zpow_le_iff_le_log (by decide) (by linarith)]
    simpa using hone
  simp only [Numeric.selectDivScale]
  split_ifs <;> omega

/-- The number of intervals of a span that is not thousands of years long. -/
theorem intervalsBegun_of_lt (hspan : span < sqlSeconds (10 ^ 12)) (hnonneg : 0 ≤ span)
    (hinterval : 1 ≤ interval ∧ interval ≤ 60) :
    intervalsBegun span interval = span / sqlSeconds interval + 1 := by
  have hdigits := eight_le_selectDivScale hspan hnonneg hinterval.1
  set scale := Numeric.selectDivScale (epoch span) (.ofInt interval) with hscale
  have hpos : 0 < sqlSeconds interval := by
    rw [sqlSeconds]
    omega
  have hpos' : (0 : ℚ) < sqlSeconds interval := Int.cast_pos.mpr hpos
  have hquotient : (span : ℚ) / 10 ^ 6 / interval = span / sqlSeconds interval := by
    rw [div_div, sqlSeconds]
    push_cast
    rw [mul_comm]
    norm_num
  have hnonneg' : (0 : ℚ) ≤ span / sqlSeconds interval :=
    div_nonneg (Int.cast_nonneg hnonneg) hpos'.le
  set whole := span / sqlSeconds interval with hwhole
  have hbelow : (whole : ℚ) ≤ span / sqlSeconds interval := by
    rw [le_div_iff₀ hpos']
    exact_mod_cast Int.ediv_mul_le span hpos.ne'
  -- The quotient stays below the next whole number by a unit of its denominator.
  have habove : (span : ℚ) / sqlSeconds interval ≤ whole + 1 - 1 / sqlSeconds interval := by
    have hlt : span + 1 ≤ (whole + 1) * sqlSeconds interval := by
      have hstep := Int.lt_ediv_add_one_mul_self span hpos
      rw [← hwhole] at hstep
      omega
    rw [div_le_iff₀ hpos', sub_mul, one_div_mul_cancel hpos'.ne']
    have : ((span : ℚ) + 1) ≤ (whole + 1) * sqlSeconds interval := by exact_mod_cast hlt
    linarith
  have hunit : (1 : ℚ) / (2 * 10 ^ scale) < 1 / sqlSeconds interval := by
    refine one_div_lt_one_div_of_lt hpos' ?_
    have hsixty : (sqlSeconds interval : ℚ) ≤ 60000000 := by
      rw [sqlSeconds]
      exact_mod_cast (by omega : interval * 1000000 ≤ 60000000)
    have hpow : (10 : ℚ) ^ 8 ≤ 10 ^ scale := pow_le_pow_right₀ (by norm_num) hdigits
    linarith
  have hcast (k : Int) : (k : ℚ) = ((k * 10 ^ scale : Int) : ℚ) / 10 ^ scale := by
    push_cast
    rw [mul_div_cancel_right₀ _ (by positivity)]
  rw [intervalsBegun, hquotient, add_left_inj, Int.floor_eq_iff]
  constructor
  · rw [← not_lt, hcast whole, Numeric.rounded_lt hnonneg', sub_div, ← hcast, div_div, not_lt]
    have : (0 : ℚ) < 1 / (2 * 10 ^ scale) := by positivity
    linarith
  · have hnext : (whole : ℚ) + 1 = ((whole + 1 : Int) : ℚ) := by push_cast; rfl
    rw [hnext, hcast (whole + 1), Numeric.rounded_lt hnonneg', sub_div, ← hcast, div_div]
    push_cast
    linarith

end Intervals

/-- The receipts outnumber the intervals between the first and the last of them. -/
def Overfull (interval : Int) (times : List Int) : Prop :=
  ∃ first last, times.min? = some first ∧ times.max? = some last ∧
    Crowded times.length (intervalsBegun (last - first) interval)

/-- With up to twenty thousand intervals it is enough to count. -/
theorem overfull_iff {interval : Int} {times : List Int} {first last : Int}
    (hinterval : 1 ≤ interval ∧ interval ≤ 60) (hfirst : times.min? = some first)
    (hlast : times.max? = some last) (hle : first ≤ last)
    (hfew : (last - first) / sqlSeconds interval + 1 ≤ 20000) :
    Overfull interval times ↔ (last - first) / sqlSeconds interval + 1 < times.length := by
  have hpos : 0 < sqlSeconds interval := by
    rw [sqlSeconds]
    omega
  have hspan : last - first < sqlSeconds (10 ^ 12) := by
    have hlt := Int.lt_ediv_add_one_mul_self (last - first) hpos
    have hmul : ((last - first) / sqlSeconds interval + 1) * sqlSeconds interval ≤
        20000 * sqlSeconds interval := Int.mul_le_mul_of_nonneg_right hfew hpos.le
    simp only [sqlSeconds] at hlt hmul ⊢
    omega
  have hnonneg : 0 ≤ last - first := by omega
  have hbegun := intervalsBegun_of_lt hspan hnonneg hinterval
  have hlength : 0 < (times.length : Int) := by
    cases times with
    | nil => cases hfirst
    | cons time rest => simp
  have hcrowded := crowded_iff hlength (intervalsBegun_pos hnonneg (by omega : 0 < interval))
    (by rwa [hbegun])
  rw [hbegun] at hcrowded
  rw [← hcrowded]
  constructor
  · rintro ⟨first', last', hfirst', hlast', h⟩
    rw [hfirst] at hfirst'
    rw [hlast] at hlast'
    cases hfirst'
    cases hlast'
    rwa [hbegun] at h
  · intro h
    exact ⟨first, last, hfirst, hlast, by rwa [hbegun]⟩

theorem exists_bounds {times : List Int} (h : times ≠ []) :
    ∃ first last, times.min? = some first ∧ times.max? = some last ∧ first ≤ last := by
  cases hfirst : times.min? with
  | none => exact absurd (List.min?_eq_none_iff.mp hfirst) h
  | some first =>
      cases hlast : times.max? with
      | none => exact absurd (List.max?_eq_none_iff.mp hlast) h
      | some last =>
          refine ⟨first, last, rfl, rfl, ?_⟩
          exact (List.max?_eq_some_iff.mp hlast).2 first (List.min?_eq_some_iff.mp hfirst).1

theorem exists_inRange_iff (sizes : RelationSizes) {settings : CollectionSettings} {db : Db}
    (since : Int) {host : HostRow} (hinterval : 0 < configuredInterval settings host) :
    (∃ row, probeRow sizes settings db since host = .ok row ∧ InRange row) ↔
      ¬ Overfull (configuredInterval settings host) (receiptTimes db host since) := by
  rw [probeRow]
  cases htimes : receiptTimes db host since with
  | nil =>
      refine iff_of_true ⟨_, rfl, inRange_of_le ?_ ?_⟩ ?_
      · exact (Numeric.toRat_ofInt 0).ge
      · exact (Numeric.toRat_ofInt 0).trans_le (by norm_num)
      · rintro ⟨first, last, hfirst, -⟩
        cases hfirst
  | cons time rest =>
      obtain ⟨first, last, hfirst, hlast, hle⟩ := exists_bounds (List.cons_ne_nil time rest)
      have hspan : 0 ≤ last - first := by omega
      have hreceived : 0 < ((time :: rest).length : Int) := by simp
      obtain ⟨percent, hpercent, hscale, hnonneg, hunits⟩ :=
        completenessPercent_eq hreceived (intervalsBegun_pos hspan hinterval)
      rw [hfirst, hlast]
      simp only [expectedBatchCount_eq hspan hinterval, hpercent, Check.ok_bind, Except.ok.injEq,
        exists_eq_left']
      rw [(inRange_iff hscale hnonneg 1).1, hunits]
      refine not_congr ⟨fun h => ⟨first, last, hfirst, hlast, h⟩, ?_⟩
      rintro ⟨first', last', hfirst', hlast', h⟩
      rw [hfirst] at hfirst'
      rw [hlast] at hlast'
      cases hfirst'
      cases hlast'
      exact h

theorem storageProbeEvidence_eq_some {sizes : RelationSizes} {settings : CollectionSettings}
    {db : Db} {slug : String} {since : Int} {host : HostRow} {row : ProbeRow}
    (hhost : Table.find HostRow.slug slug db.hosts = some host) :
    storageProbeEvidence sizes settings db slug since = .ok (some row) ↔
      probeRow sizes settings db since host = .ok row := by
  rw [storageProbeEvidence, hhost]
  cases hrow : probeRow sizes settings db since host with
  | error e => simp [hrow, Except.map]
  | ok found => simp [hrow, Except.map]

/-- The percentage is in the accepted range exactly if the receipts do not outnumber the intervals
they fall into. -/
theorem completeness_in_range_iff (sizes : RelationSizes) {settings : CollectionSettings} {db : Db}
    {slug : String} (since : Int) {host : HostRow}
    (hhost : Table.find HostRow.slug slug db.hosts = some host)
    (hinterval : 1 ≤ configuredInterval settings host ∧ configuredInterval settings host ≤ 60) :
    (∃ row, storageProbeEvidence sizes settings db slug since = .ok (some row) ∧ InRange row) ↔
      ¬ Overfull (configuredInterval settings host) (receiptTimes db host since) := by
  simp only [storageProbeEvidence_eq_some hhost]
  exact exists_inRange_iff sizes since hinterval.1

def probedHost : HostRow := ⟨Uuid.ofByte 1, "node", "Node", "linux", none⟩

def probedBatch (receivedAt : Int) : BatchRow where
  idempotencyKey := "a:b:" ++ toString receivedAt
  agentId := "a"
  hostId := probedHost.id
  bootId := "b"
  sequence := receivedAt.toNat
  observedAt := receivedAt
  receivedAt := receivedAt
  expiresAt := receivedAt + sqlSeconds 172800
  compressedBytes := 100
  metricValueCount := 0
  payload := .draft "a" "h" "b" 1 (ofTimestamp receivedAt) [] []

/-- Tables with a host and receipts at some tenths of seconds. -/
def probedDb (tenths : List Int) : Db :=
  { Db.empty with
    hosts := [probedHost]
    telemetryBatches := tenths.map fun t => probedBatch (t * 100000) }

def everyFiveSeconds : CollectionSettings := ⟨5, []⟩

def noSizes : RelationSizes := ⟨0, 0, 0, 0⟩

/-- Three receipts that are 5 seconds apart. -/
theorem regular_in_range :
    ∃ row, storageProbeEvidence noSizes everyFiveSeconds (probedDb [0, 50, 100]) "node" 0 =
      .ok (some row) ∧ InRange row := by
  have hhost : Table.find HostRow.slug "node" (probedDb [0, 50, 100]).hosts = some probedHost := rfl
  refine (completeness_in_range_iff noSizes 0 hhost (by decide)).mpr ?_
  rw [overfull_iff (by decide) rfl rfl (by decide) (by decide)]
  decide

/-- Three receipts that are 4.9 seconds apart make 150 percent of the two intervals that they
begin. -/
theorem jitter_out_of_range :
    Table.find HostRow.slug "node" (probedDb [0, 49, 98]).hosts = some probedHost ∧
      configuredInterval everyFiveSeconds probedHost = 5 ∧
      Healthy 5 (receiptTimes (probedDb [0, 49, 98]) probedHost 0) ∧
      ¬ ∃ row, storageProbeEvidence noSizes everyFiveSeconds (probedDb [0, 49, 98]) "node" 0 =
        .ok (some row) ∧ InRange row := by
  have hhost : Table.find HostRow.slug "node" (probedDb [0, 49, 98]).hosts = some probedHost := rfl
  refine ⟨hhost, rfl, by decide, ?_⟩
  simp only [storageProbeEvidence_eq_some hhost]
  rw [exists_inRange_iff noSizes 0 (by decide), not_not,
    overfull_iff (by decide) rfl rfl (by decide) (by decide)]
  decide

end NodeScope.Storage
