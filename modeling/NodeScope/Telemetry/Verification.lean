import NodeScope.Lib.Wrapping
import NodeScope.Telemetry.HostStatus

/-!
# The verifier's assessment

The verifier reads the status of one host and gives its verdict with the reasons against it. A host
that it finds fresh has had an envelope accepted within the window it was given; after an accepted
envelope of a host with steady clocks, nothing but the window and stale rows decides; and with twice
the interval in force for a window the verdict is that of the fleet status, which ignores stale rows.

## Implementation notes

The counts of the database fit the integers they are scanned into. The window is a product of 64
bits, as the program computes it.
-/

namespace NodeScope.Telemetry

open Domain Storage Lib Lib.Time

section Model

/-- The verifier's `status`. -/
structure VerifierStatus where
  hostSlug : String
  latestReceipt : Option Int
  currentMetricCount : Int
  unavailableMetricCount : Int
  staleMetricCount : Int
  clockOffsetSeconds : Option Float64
  clockOffsetQuality : Option String
  clockOffsetSource : Option String
  clockObservedAt : Option Int
  clockReceivedAt : Option Int
deriving DecidableEq

/-- A row as it is scanned. -/
def VerifierStatus.scan (row : HostIngestionStatus) : VerifierStatus where
  hostSlug := row.hostSlug
  latestReceipt := row.latestReceipt.map ofTimestamp
  currentMetricCount := row.currentMetricCount
  unavailableMetricCount := row.unavailableMetricCount
  staleMetricCount := row.staleMetricCount
  clockOffsetSeconds := row.clockOffsetSeconds
  clockOffsetQuality := row.clockOffsetQuality
  clockOffsetSource := row.clockOffsetSource
  clockObservedAt := row.clockObservedAt.map ofTimestamp
  clockReceivedAt := row.clockReceivedAt.map ofTimestamp

structure VerificationAssessment where
  fresh : Bool
  reasons : List String
deriving DecidableEq

/-- `time.Duration(maxReceiptAgeSeconds) * time.Second`. -/
def receiptWindow (maxReceiptAgeSeconds : Int) : Int :=
  Wrapping.signed (seconds maxReceiptAgeSeconds)

def receiptReason (latestReceipt : Option Int) (now maxReceiptAgeSeconds : Int) : Option String :=
  match latestReceipt with
  | none => some "missing_server_receipt"
  | some received =>
      if 0 < maxReceiptAgeSeconds && receiptWindow maxReceiptAgeSeconds < Time.sub now received then
        some "server_receipt_exceeds_freshness_window"
      else none

def assessStatus (value : VerifierStatus) (now maxReceiptAgeSeconds : Int) :
    VerificationAssessment :=
  let reasons :=
    (if maxReceiptAgeSeconds < 1 then ["max_receipt_age_seconds_must_be_positive"] else []) ++
      (receiptReason value.latestReceipt now maxReceiptAgeSeconds).toList ++
      (if value.currentMetricCount < 1 then ["no_current_metric_state"] else []) ++
      (if 0 < value.staleMetricCount then ["stale_metric_state_present"] else [])
  { fresh := reasons.length == 0, reasons := reasons }

/-- The assessment of the first row of the query, if there is one. -/
def verify (db : Db) (slug : String) (now maxReceiptAgeSeconds : Int) :
    Option VerificationAssessment :=
  (hostIngestionStatus db slug).head?.map fun row =>
    assessStatus (.scan row) now maxReceiptAgeSeconds

end Model

section Statements

/-- The last receipt is within the window. -/
def Within (now maxReceiptAgeSeconds received : Int) : Prop :=
  1 ≤ maxReceiptAgeSeconds ∧ now - ofTimestamp received ≤ receiptWindow maxReceiptAgeSeconds

instance (now maxReceiptAgeSeconds received : Int) :
    Decidable (Within now maxReceiptAgeSeconds received) :=
  inferInstanceAs (Decidable (_ ∧ _))

/-- No row of the host is stale. -/
def NoneStale (db : Db) (hostId : Uuid) : Prop :=
  ∀ row ∈ db.metricLatest, row.hostId = hostId → row.quality ≠ .stale

instance (db : Db) (hostId : Uuid) : Decidable (NoneStale db hostId) :=
  inferInstanceAs (Decidable (∀ _ ∈ _, _))

end Statements

section Verdict

variable {db : Db} {host : HostRow} {now maxAge : Int}

/-- A window is a multiple of 512 nanoseconds, and so is not the longest duration. -/
theorem receiptWindow_bounds (maxAge : Int) :
    -2 ^ 63 ≤ receiptWindow maxAge ∧ receiptWindow maxAge + 1 < 2 ^ 63 := by
  rw [receiptWindow, Wrapping.signed, seconds, nanosPerSecond]
  omega

theorem receiptReason_eq_none {received : Int} (hpositive : 1 ≤ maxAge) :
    receiptReason (some received) now maxAge = none ↔ now - received ≤ receiptWindow maxAge := by
  obtain ⟨hlow, hhigh⟩ := receiptWindow_bounds maxAge
  have hcut := Time.le_sub_iff (t := now) (u := received) (d := receiptWindow maxAge + 1)
    (by omega) hhigh
  rw [receiptReason]
  split
  · next hlate =>
      simp only [Bool.and_eq_true, decide_eq_true_eq] at hlate
      simp only [reduceCtorEq, false_iff]
      omega
  · next hearly =>
      simp only [Bool.and_eq_true, decide_eq_true_eq, not_and, not_lt] at hearly
      have hwithin := hearly (by omega)
      simp only [true_iff]
      omega

theorem assessStatus_fresh (value : VerifierStatus) :
    (assessStatus value now maxAge).fresh = true ↔
      1 ≤ maxAge ∧ (∃ received, value.latestReceipt = some received ∧
        now - received ≤ receiptWindow maxAge) ∧
      1 ≤ value.currentMetricCount ∧ value.staleMetricCount ≤ 0 := by
  have hguard (p : Prop) [Decidable p] (reason : String) :
      (if p then [reason] else []) = [] ↔ ¬ p := by
    split <;> simp_all
  simp only [assessStatus, beq_iff_eq, List.length_eq_zero_iff, List.append_eq_nil_iff, hguard,
    Option.toList_eq_nil_iff, not_lt, and_assoc]
  refine and_congr_right fun hpositive => and_congr_left' ?_
  cases hreceipt : value.latestReceipt with
  | none => simp [receiptReason]
  | some received =>
      rw [receiptReason_eq_none hpositive]
      simp

/-- The status of a host counts its latest rows. -/
theorem hostStatus_rows (db : Db) (host : HostRow) :
    (hostStatus host.slug (Aggregate.leftJoin onHost [host] db.metricLatest)).latestReceipt =
        ((rowsOfHost db host).map LatestRow.receivedAt).max? ∧
      (hostStatus host.slug
          (Aggregate.leftJoin onHost [host] db.metricLatest)).currentMetricCount =
        (rowsOfHost db host).length ∧
      (hostStatus host.slug (Aggregate.leftJoin onHost [host] db.metricLatest)).staleMetricCount =
        ((rowsOfHost db host).filter fun m => m.quality == .stale).length := by
  simp only [hostStatus, Aggregate.filterMap_leftJoin_singleton, rowsOfHost, and_self]

theorem mem_rowsOfHost {row : LatestRow} :
    row ∈ rowsOfHost db host ↔ row ∈ db.metricLatest ∧ row.hostId = host.id := by
  rw [rowsOfHost, List.mem_filter, onHost, decide_eq_true_eq]

theorem staleCount_eq_zero :
    ((rowsOfHost db host).filter fun m => m.quality == .stale).length = 0 ↔
      NoneStale db host.id := by
  rw [List.length_eq_zero_iff, List.filter_eq_nil_iff, NoneStale]
  constructor
  · intro h row hrow hid hstale
    exact h row (mem_rowsOfHost.mpr ⟨hrow, hid⟩) (beq_iff_eq.mpr hstale)
  · intro h row hrow hstale
    obtain ⟨hmem, hid⟩ := mem_rowsOfHost.mp hrow
    exact h row hmem hid (beq_iff_eq.mp hstale)

/-- The verdict about a host, by its rows. -/
theorem verify_host (now maxAge : Int) (hslugs : (db.hosts.map HostRow.slug).Nodup) (hhost : host ∈ db.hosts) :
    ∃ a, verify db host.slug now maxAge = some a ∧
      (a.fresh = true ↔ (∃ received,
        ((rowsOfHost db host).map LatestRow.receivedAt).max? = some received ∧
          Within now maxAge received) ∧ NoneStale db host.id) := by
  obtain ⟨hreceipt, hcurrent, hstale⟩ := hostStatus_rows db host
  rw [verify, hostIngestionStatus_host hslugs hhost, List.head?_cons, Option.map_some]
  refine ⟨_, rfl, ?_⟩
  rw [assessStatus_fresh]
  simp only [VerifierStatus.scan, hreceipt, hcurrent, hstale, Option.map_eq_some_iff]
  constructor
  · rintro ⟨hpositive, ⟨-, ⟨received, hmax, rfl⟩, hwithin⟩, -, hnone⟩
    exact ⟨⟨received, hmax, hpositive, hwithin⟩, staleCount_eq_zero.mp (by omega)⟩
  · rintro ⟨⟨received, hmax, hpositive, hwithin⟩, hnone⟩
    refine ⟨hpositive, ⟨_, ⟨received, hmax, rfl⟩, hwithin⟩, ?_, ?_⟩
    · have hmem := List.max?_mem hmax
      obtain ⟨row, hrow, -⟩ := List.mem_map.mp hmem
      have hlength := List.length_pos_of_mem hrow
      omega
    · rw [staleCount_eq_zero.mpr hnone]
      exact le_rfl

end Verdict

/-- Every row that the verifier counts was written with a receipt. -/
theorem received_of_row {s : ClockRun} (h : s.Sourced) {row : LatestRow}
    (hrow : row ∈ s.db.metricLatest) :
    ∃ r ∈ s.receipts, callHost r = some row.hostId ∧ r.dbNow = row.receivedAt := by
  obtain ⟨r, hr, hhost, hsource⟩ := h.latest row hrow
  obtain ⟨x, -, heq⟩ := List.mem_map.mp hsource
  refine ⟨r, hr, hhost, ?_⟩
  rw [← heq]
  rfl

/-- After an envelope of a host with steady clocks its receipt time is the greatest of its rows. -/
theorem greatest_of_steady {s s' : ClockRun} {c : Call} {host : HostRow} (hledger : s.Ledger)
    (hsourced : s.Sourced) (hstep : clockStep s (.receive c) = some s')
    (hslugs : (s'.db.hosts.map HostRow.slug).Nodup) (hhost : host ∈ s'.db.hosts)
    (hcall : callHost c = some host.id) (hids : (s'.db.hosts.map HostRow.id).Nodup)
    (hsteady : Steady host.id s'.receipts) :
    ((rowsOfHost s'.db host).map LatestRow.receivedAt).max? = some c.dbNow := by
  have hkeys : StatusKeys ⟨5, []⟩ s'.db := ⟨hslugs, List.nodup_nil⟩
  obtain ⟨found, hfound, hid, ⟨status, hstatus, hslug⟩, hreport⟩ :=
    reportsReceipt_of_steady hledger hsourced hstep hslugs hcall hsteady 0 ⟨5, []⟩
  obtain rfl := List.inj_on_of_nodup_map hids hfound hhost hid
  have hreceipt := hreport status hstatus hslug
  have hone : status ∈ (fleetIngestionStatus 0 ⟨5, []⟩ s'.db).filter fun s =>
      decide (s.hostSlug = found.slug) := List.mem_filter.mpr ⟨hstatus, decide_eq_true hslug⟩
  rw [fleetIngestionStatus_host 0 hkeys hhost, List.mem_singleton] at hone
  have hshared := congrArg SharedStatus.latestReceipt
    (shared_status s'.db ⟨5, []⟩ found 0 (hostKey ⟨5, []⟩ found) (overrideOf ⟨5, []⟩ found))
  rw [← hone] at hshared
  rw [← (hostStatus_rows s'.db found).1]
  exact hshared.trans hreceipt

/-- The verdict follows the receipts. In every run a host that is found fresh has had an envelope
accepted whose receipt is within the window. Right after an accepted envelope of a host with steady
clocks, the verdict is that the window has not passed since its receipt and no row is stale. -/
theorem verdict_follows_receipts (events : List ClockEvent) (s : ClockRun)
    (hrun : Machine.run clockStep ClockRun.initial events = some s) (now maxAge : Int) :
    (∀ host ∈ s.db.hosts, (s.db.hosts.map HostRow.slug).Nodup → ∀ a,
        verify s.db host.slug now maxAge = some a → a.fresh = true →
          ∃ r ∈ s.receipts, callHost r = some host.id ∧ Within now maxAge r.dbNow) ∧
      ∀ c s', clockStep s (.receive c) = some s' → ∀ host ∈ s'.db.hosts,
        (s'.db.hosts.map HostRow.slug).Nodup → (s'.db.hosts.map HostRow.id).Nodup →
        callHost c = some host.id → Steady host.id s'.receipts →
          ∃ a, verify s'.db host.slug now maxAge = some a ∧
            (a.fresh = true ↔ Within now maxAge c.dbNow ∧ NoneStale s'.db host.id) := by
  have hledger := Machine.invariant_run ledger_step hrun initial_owned.ledger
  have hsourced := Machine.invariant_run sourced_step hrun initial_sourced
  constructor
  · intro host hhost hslugs a ha hfresh
    obtain ⟨a', ha', hiff⟩ := verify_host now maxAge hslugs hhost
    obtain rfl := Option.some.inj (ha.symm.trans ha')
    obtain ⟨⟨received, hmax, hwithin⟩, -⟩ := hiff.mp hfresh
    obtain ⟨row, hrow, rfl⟩ := List.mem_map.mp (List.max?_mem hmax)
    obtain ⟨hmem, hid⟩ := mem_rowsOfHost.mp hrow
    obtain ⟨r, hr, hcall, hreceived⟩ := received_of_row hsourced hmem
    exact ⟨r, hr, hid ▸ hcall, hreceived ▸ hwithin⟩
  · intro c s' hstep host hhost hslugs hids hcall hsteady
    obtain ⟨a, ha, hiff⟩ := verify_host now maxAge hslugs hhost
    refine ⟨a, ha, hiff.trans ?_⟩
    rw [greatest_of_steady hledger hsourced hstep hslugs hhost hcall hids hsteady]
    simp

theorem freshnessState_eq_fresh {now interval : Int} {received : Option Int} :
    freshnessState now interval received = .fresh ↔
      ∃ t, received = some t ∧ now - t ≤ sqlSeconds (interval * 2) := by
  cases received with
  | none => simp [freshnessState]
  | some t =>
      have hwithin : (∃ t', some t = some t' ∧ now - t' ≤ sqlSeconds (interval * 2)) ↔
          ¬ sqlSeconds (interval * 2) < now - t := by
        rw [not_lt]
        constructor
        · rintro ⟨t', ht, hle⟩
          exact Option.some.inj ht ▸ hle
        · intro hle
          exact ⟨t, rfl, hle⟩
      rw [hwithin, freshnessState]
      split <;> simp_all

/-- The window of twice an interval, in the two units of time. -/
theorem within_doubled {now interval received : Int} (hlow : 1 ≤ interval) (hhigh : interval ≤ 60) :
    Within (ofTimestamp now) (2 * interval) received ↔
      now - received ≤ sqlSeconds (interval * 2) := by
  have hwindow : receiptWindow (2 * interval) = seconds (2 * interval) := by
    apply Wrapping.signed_of_lt <;> simp only [seconds, nanosPerSecond] <;> omega
  rw [Within, hwindow, seconds, nanosPerSecond, sqlSeconds, ofTimestamp, ofTimestamp]
  omega

/-- The verifier agrees with the fleet status. Asked at the database's time, and with twice the
interval in force for a window, it finds a host fresh exactly if the fleet status does and counts no
stale row of it. -/
theorem verifier_agrees_with_fleet (db : Db) (settings : CollectionSettings)
    (h : StatusKeys settings db) (host : HostRow) (hhost : host ∈ db.hosts) (now : Int) :
    ∃ status, ((fleetIngestionStatus now settings db).filter fun s =>
        decide (s.hostSlug = host.slug)) = [status] ∧
      (1 ≤ status.effectiveIntervalSeconds → status.effectiveIntervalSeconds ≤ 60 →
        ∃ a, verify db host.slug (ofTimestamp now) (2 * status.effectiveIntervalSeconds) = some a ∧
          (a.fresh = true ↔
            status.freshnessState = .fresh ∧ status.staleMetricCount = 0)) := by
  refine ⟨_, fleetIngestionStatus_host now h hhost, ?_⟩
  have hshared := shared_status db settings host now (hostKey settings host)
    (overrideOf settings host)
  have hreceipt := (congrArg SharedStatus.latestReceipt hshared).symm.trans
    (hostStatus_rows db host).1
  have hstale := (congrArg SharedStatus.staleMetricCount hshared).symm.trans
    (hostStatus_rows db host).2.2
  generalize hstatus : fleetStatus now settings (hostKey settings host) _ = status at *
  have hstate : status.freshnessState = freshnessState now status.effectiveIntervalSeconds
      status.latestReceipt := by
    rw [← hstatus]
    rfl
  intro hlow hhigh
  obtain ⟨a, ha, hiff⟩ := verify_host (ofTimestamp now) (2 * status.effectiveIntervalSeconds)
    h.slugs hhost
  refine ⟨a, ha, hiff.trans ?_⟩
  change status.latestReceipt = _ at hreceipt
  change status.staleMetricCount = _ at hstale
  rw [hstate, hreceipt, hstale, staleCount_eq_zero, freshnessState_eq_fresh]
  simp only [within_doubled hlow hhigh]

/-- The host of the first submission, asked about five seconds after its receipt. -/
theorem submission_verified :
    ∃ a, verify (serve oneHostDb (submission (some true))).2 "alpha"
        (ofTimestamp (submission (some true)).dbNow + seconds 5) 15 = some a ∧
      (a.fresh = true ↔ NoneStale (serve oneHostDb (submission (some true))).2 (Uuid.ofByte 1)) := by
  have hrun : Machine.run clockStep ClockRun.initial [enrollOneHost] = some ⟨oneHostDb, []⟩ := rfl
  have hverdict (now : Int) :=
    (verdict_follows_receipts [enrollOneHost] ⟨oneHostDb, []⟩ hrun now 15).2
  have hwindow (received : Int) : Within (ofTimestamp received + seconds 5) 15 received := by
    rw [Within, receiptWindow, seconds, seconds, nanosPerSecond, Wrapping.signed]
    omega
  have hfirst (c : Call) (hi : inserted (serve oneHostDb c).1 = true)
      (hcall : callHost c = some (Uuid.ofByte 1)) (hsteady : Steady (Uuid.ofByte 1) [c]) :
      ∃ a, verify (serve oneHostDb c).2 "alpha" (ofTimestamp c.dbNow + seconds 5) 15 = some a ∧
        (a.fresh = true ↔ NoneStale (serve oneHostDb c).2 (Uuid.ofByte 1)) := by
    have hhosts : (serve oneHostDb c).2.hosts = oneHostDb.hosts := serve_hosts _ _
    obtain ⟨a, ha, hiff⟩ := hverdict (ofTimestamp c.dbNow + seconds 5) c _
      (clockStep_receive hi []) ⟨Uuid.ofByte 1, "alpha", "Alpha", "linux", none⟩
      (hhosts ▸ List.mem_singleton_self _) (hhosts ▸ List.nodup_singleton _)
      (hhosts ▸ List.nodup_singleton _) hcall hsteady
    exact ⟨a, ha, hiff.trans (and_iff_right (hwindow c.dbNow))⟩
  exact hfirst (submission (some true)) (submission_inserted (some true)) (Uuid.parse_toText _)
    submission_steady

/-- A first envelope without stale samples leaves no stale row. -/
theorem oneHost_noneStale {c : Call} (hi : inserted (serve oneHostDb c).1 = true)
    (hsamples : ∀ x ∈ c.envelope.samples ++ [clockOffsetSample c.envelope.observedAt c.now],
      x.metric.quality ≠ .stale) (hostId : Uuid) : NoneStale (serve oneHostDb c).2 hostId := by
  have hrun : Machine.run clockStep ClockRun.initial [enrollOneHost] = some ⟨oneHostDb, []⟩ := rfl
  have hsourced := sourced_receive (clockStep_receive hi [])
    (Machine.invariant_run sourced_step hrun initial_sourced)
  intro row hrow _
  obtain ⟨r, hr, -, hsource⟩ := hsourced.latest row hrow
  obtain rfl := List.mem_singleton.mp hr
  obtain ⟨x, hx, heq⟩ := List.mem_map.mp hsource
  rw [← heq]
  exact hsamples x hx

/-- A submission that is on the way for fifty seconds. -/
theorem prompt_inserted : inserted (serve oneHostDb (processorCall .fresh 1 50)).1 = true := by
  have hchecked : checkSubmission (processorCall .fresh 1 50) = .ok () := by decide +kernel
  have hsubmitted := processorCall_submitted oneHostDb_reachable.consistent rfl hchecked rfl
  have hstorable :=
    processorCall_storable .fresh (by decide) 1 (by decide) 50 (by decide) (by decide)
  exact (serve_of_storable hsubmitted hstorable).1

theorem prompt_steady : Steady (Uuid.ofByte 1) [processorCall .fresh 1 50] where
  unused r hr _ x hx := by
    obtain rfl := List.mem_singleton.mp hr
    have hall : ∀ x ∈ (processorCall .fresh 1 50).envelope.samples, x.deviceID ≠ "agent-clock" := by
      decide
    exact hall x hx
  clocks := List.Pairwise.sublist List.filter_sublist (List.pairwise_singleton _ _)

/-- Five seconds after the receipt, with twice the interval of five seconds for a window, the
verifier and the fleet status both find the host fresh. -/
theorem oneHost_verified :
    ∃ status, ((fleetIngestionStatus ((processorCall .fresh 1 50).dbNow + sqlSeconds 5) ⟨5, []⟩
          (serve oneHostDb (processorCall .fresh 1 50)).2).filter fun s =>
        decide (s.hostSlug = "alpha")) = [status] ∧
      status.freshnessState = .fresh ∧ status.staleMetricCount = 0 ∧
      ∃ a, verify (serve oneHostDb (processorCall .fresh 1 50)).2 "alpha"
          (ofTimestamp ((processorCall .fresh 1 50).dbNow + sqlSeconds 5)) (2 * 5) = some a ∧
        a.fresh = true := by
  have hfirst (c : Call)
      (hreports : ReportsReceipt (serve oneHostDb c).2 (Uuid.ofByte 1) c.dbNow)
      (hnone : NoneStale (serve oneHostDb c).2 (Uuid.ofByte 1)) :
      ∃ status, ((fleetIngestionStatus (c.dbNow + sqlSeconds 5) ⟨5, []⟩
            (serve oneHostDb c).2).filter fun s => decide (s.hostSlug = "alpha")) = [status] ∧
        status.freshnessState = .fresh ∧ status.staleMetricCount = 0 ∧
        ∃ a, verify (serve oneHostDb c).2 "alpha" (ofTimestamp (c.dbNow + sqlSeconds 5)) (2 * 5) =
            some a ∧ a.fresh = true := by
    have hhosts : (serve oneHostDb c).2.hosts = oneHostDb.hosts := serve_hosts _ _
    have hkeys : StatusKeys ⟨5, []⟩ (serve oneHostDb c).2 :=
      ⟨hhosts ▸ List.nodup_singleton _, List.nodup_nil⟩
    obtain ⟨host, hhost, hid, hslug⟩ : ∃ host ∈ (serve oneHostDb c).2.hosts,
        host.id = Uuid.ofByte 1 ∧ host.slug = "alpha" :=
      ⟨⟨Uuid.ofByte 1, "alpha", "Alpha", "linux", none⟩, hhosts ▸ List.mem_singleton_self _, rfl, rfl⟩
    obtain ⟨status, hstatus, hverdict⟩ :=
      verifier_agrees_with_fleet _ _ hkeys host hhost (c.dbNow + sqlSeconds 5)
    have hone := fleetIngestionStatus_host (c.dbNow + sqlSeconds 5) hkeys hhost
    have heq := List.singleton_inj.mp (hstatus.symm.trans hone)
    have hinterval : status.effectiveIntervalSeconds = 5 := by
      rw [heq]
      rfl
    have hreceipt : status.latestReceipt = some c.dbNow :=
      oneHost_latestReceipt hreports (hslug ▸ hstatus)
    have hfresh : status.freshnessState = .fresh := by
      have hstate : status.freshnessState =
          freshnessState (c.dbNow + sqlSeconds 5) status.effectiveIntervalSeconds
            status.latestReceipt := by
        rw [heq]
        rfl
      rw [hstate, freshnessState_eq_fresh, hinterval]
      refine ⟨c.dbNow, hreceipt, ?_⟩
      simp only [sqlSeconds]
      omega
    have hstale : status.staleMetricCount = 0 := by
      have hshared := congrArg SharedStatus.staleMetricCount (shared_status (serve oneHostDb c).2
        ⟨5, []⟩ host (c.dbNow + sqlSeconds 5) (hostKey ⟨5, []⟩ host) (overrideOf ⟨5, []⟩ host))
      rw [heq]
      exact hshared.symm.trans
        ((hostStatus_rows _ host).2.2.trans (staleCount_eq_zero.mpr (hid ▸ hnone)))
    obtain ⟨hlow, hhigh⟩ : 1 ≤ status.effectiveIntervalSeconds ∧
        status.effectiveIntervalSeconds ≤ 60 := by
      rw [hinterval]
      decide
    obtain ⟨a, ha, hagree⟩ := hverdict hlow hhigh
    rw [hinterval, hslug] at ha
    rw [hslug] at hstatus
    exact ⟨status, hstatus, hfresh, hstale, a, ha, hagree.mpr ⟨hfresh, hstale⟩⟩
  refine hfirst (processorCall .fresh 1 50) (oneHost_reports prompt_inserted
    (Uuid.parse_toText _) prompt_steady) (oneHost_noneStale prompt_inserted ?_ _)
  decide +kernel

end NodeScope.Telemetry
