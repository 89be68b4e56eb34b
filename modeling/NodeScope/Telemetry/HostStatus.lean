import NodeScope.Telemetry.Freshness

/-!
# The status of one host

`host_ingestion_status` is what the verifier reads, `fleet_ingestion_status` what the consoles and
the control plane read. The second groups by more columns and joins the overrides, yet both count
the same rows of a host: they agree on every column that they share.
-/

namespace NodeScope.Telemetry

open Domain Storage Lib

section Model

structure HostIngestionStatus where
  hostSlug : String
  latestReceipt : Option Int
  currentMetricCount : Nat
  unavailableMetricCount : Nat
  staleMetricCount : Nat
  clockOffsetSeconds : Option Float64
  clockOffsetQuality : Option String
  clockOffsetSource : Option String
  clockObservedAt : Option Int
  clockReceivedAt : Option Int
deriving DecidableEq

abbrev HostJoin : Type := HostRow × Option LatestRow

def onHost (h : HostRow) (m : LatestRow) : Bool := decide (m.hostId = h.id)

def hostStatus (slug : String) (group : List HostJoin) : HostIngestionStatus :=
  let metrics := group.filterMap Prod.snd
  let clocks := metrics.filter fun m => decide ((m.deviceId, m.metricName) = clockKey)
  { hostSlug := slug
    latestReceipt := (metrics.map LatestRow.receivedAt).max?
    currentMetricCount := metrics.length
    unavailableMetricCount := (metrics.filter fun m => m.quality == .unavailable).length
    staleMetricCount := (metrics.filter fun m => m.quality == .stale).length
    clockOffsetSeconds := Aggregate.maximum (clocks.filterMap LatestRow.numericValue)
    clockOffsetQuality := greatestText (clocks.map fun m => m.quality.text)
    clockOffsetSource := greatestText (clocks.map LatestRow.source)
    clockObservedAt := (clocks.map LatestRow.observedAt).max?
    clockReceivedAt := (clocks.map LatestRow.receivedAt).max? }

/-- `host_ingestion_status (slug)`. -/
def hostIngestionStatus (db : Db) (slug : String) : List HostIngestionStatus :=
  Aggregate.grouped (fun j => j.1.slug) hostStatus
    ((Aggregate.leftJoin onHost db.hosts db.metricLatest).filter fun j => decide (j.1.slug = slug))

end Model

section Statements

/-- The columns of both functions. -/
structure SharedStatus where
  hostSlug : String
  latestReceipt : Option Int
  currentMetricCount : Nat
  unavailableMetricCount : Nat
  staleMetricCount : Nat
  clockOffsetSeconds : Option Float64
  clockOffsetQuality : Option String
deriving DecidableEq

def HostIngestionStatus.shared (s : HostIngestionStatus) : SharedStatus where
  hostSlug := s.hostSlug
  latestReceipt := s.latestReceipt
  currentMetricCount := s.currentMetricCount
  unavailableMetricCount := s.unavailableMetricCount
  staleMetricCount := s.staleMetricCount
  clockOffsetSeconds := s.clockOffsetSeconds
  clockOffsetQuality := s.clockOffsetQuality

def FleetStatus.shared (s : FleetStatus) : SharedStatus where
  hostSlug := s.hostSlug
  latestReceipt := s.latestReceipt
  currentMetricCount := s.currentMetricCount
  unavailableMetricCount := s.unavailableMetricCount
  staleMetricCount := s.staleMetricCount
  clockOffsetSeconds := s.clockOffsetSeconds
  clockOffsetQuality := s.clockOffsetQuality

/-- The keys of the tables that the functions join by. -/
structure StatusKeys (settings : CollectionSettings) (db : Db) : Prop where
  slugs : (db.hosts.map HostRow.slug).Nodup
  overrides : (settings.overrides.map OverrideRow.hostId).Nodup

end Statements

section Rows

variable {db : Db} {settings : CollectionSettings} {host : HostRow}

/-- The latest rows of a host. -/
def rowsOfHost (db : Db) (host : HostRow) : List LatestRow := db.metricLatest.filter (onHost host)

def overrideOf (settings : CollectionSettings) (host : HostRow) : Option OverrideRow :=
  Table.find OverrideRow.hostId host.id settings.overrides

theorem filter_slug (h : (db.hosts.map HostRow.slug).Nodup) (hhost : host ∈ db.hosts) :
    (db.hosts.filter fun x => decide (x.slug = host.slug)) = [host] :=
  Table.filter_key_eq h hhost

/-- The one row of the verifier's status. -/
theorem hostIngestionStatus_host (h : (db.hosts.map HostRow.slug).Nodup) (hhost : host ∈ db.hosts) :
    hostIngestionStatus db host.slug =
      [hostStatus host.slug (Aggregate.leftJoin onHost [host] db.metricLatest)] := by
  have hjoin : ((Aggregate.leftJoin onHost db.hosts db.metricLatest).filter fun j =>
      decide (j.1.slug = host.slug)) = Aggregate.leftJoin onHost [host] db.metricLatest := by
    rw [Aggregate.filter_leftJoin onHost (fun x => decide (x.slug = host.slug)),
      filter_slug h hhost]
  have hself : ∀ j ∈ Aggregate.leftJoin onHost [host] db.metricLatest, j.1.slug = host.slug := by
    intro j hj
    rw [List.mem_singleton.mp (Aggregate.mem_of_mem_leftJoin hj)]
  obtain ⟨j, hj, hfst⟩ := Aggregate.exists_mem_leftJoin onHost db.metricLatest
    (List.mem_singleton_self host)
  have hone := Aggregate.filter_grouped_coarse (fun j : HostJoin => j.1.slug) hostStatus
    (fun _ => ()) (fun _ => ()) (fun _ _ => rfl) (fun a ha _ => hself a ha) ⟨j, hj, congrArg HostRow.slug hfst⟩
  rw [hostIngestionStatus, hjoin]
  simpa using hone

/-- A slug that no host has. -/
theorem hostIngestionStatus_unknown {slug : String} (h : ∀ host ∈ db.hosts, host.slug ≠ slug) :
    hostIngestionStatus db slug = [] := by
  have hempty : ((Aggregate.leftJoin onHost db.hosts db.metricLatest).filter fun j =>
      decide (j.1.slug = slug)) = [] := by
    rw [List.filter_eq_nil_iff]
    intro j hj hslug
    exact h j.1 (Aggregate.mem_of_mem_leftJoin hj) (decide_eq_true_eq.mp hslug)
  rw [hostIngestionStatus, hempty]
  rfl

/-- The key of a host's group in the status of the fleet. -/
def hostKey (settings : CollectionSettings) (host : HostRow) : FleetKey :=
  fleetKey ((host, overrideOf settings host), none)

/-- The rows of the fleet's join that have a host's slug. -/
theorem filter_fleetJoin (h : StatusKeys settings db) (hhost : host ∈ db.hosts) :
    ((fleetJoin settings db).filter fun j => decide (j.1.1.slug = host.slug)) =
      Aggregate.leftJoin (fun h m => decide (m.hostId = h.1.id))
        [(host, overrideOf settings host)] db.metricLatest := by
  have hoverride : Aggregate.leftJoin (fun h o => decide (o.hostId = HostRow.id h)) [host]
      settings.overrides = [(host, overrideOf settings host)] := by
    rw [Aggregate.leftJoin_singleton_of_length, List.head?_filter]
    · rfl
    cases hfound : settings.overrides.filter fun o => decide (o.hostId = host.id) with
    | nil => exact Nat.zero_le 1
    | cons o rest =>
        have ho : o ∈ settings.overrides ∧ o.hostId = host.id := by
          have hmem : o ∈ settings.overrides.filter fun o => decide (o.hostId = host.id) := by
            rw [hfound]
            exact List.mem_cons_self
          rwa [List.mem_filter, decide_eq_true_eq] at hmem
        rw [← hfound, ← ho.2, Table.filter_key_eq h.overrides ho.1]
        exact le_rfl
  have hmetrics := Aggregate.filter_leftJoin
    (fun (p : HostRow × Option OverrideRow) (m : LatestRow) => decide (m.hostId = p.1.id))
    (fun p => decide (p.1.slug = host.slug))
    (Aggregate.leftJoin (fun h o => decide (o.hostId = HostRow.id h)) db.hosts settings.overrides)
    db.metricLatest
  have hhosts := Aggregate.filter_leftJoin
    (fun (x : HostRow) (o : OverrideRow) => decide (o.hostId = x.id))
    (fun x => decide (x.slug = host.slug)) db.hosts settings.overrides
  rw [fleetJoin]
  refine hmetrics.trans ?_
  rw [hhosts, filter_slug h.slugs hhost, hoverride]

/-- The one row of a host in the status of the fleet. -/
theorem fleetIngestionStatus_host (now : Int) (h : StatusKeys settings db)
    (hhost : host ∈ db.hosts) :
    (fleetIngestionStatus now settings db).filter (fun s => decide (s.hostSlug = host.slug)) =
      [fleetStatus now settings (hostKey settings host)
        (Aggregate.leftJoin (fun h m => decide (m.hostId = h.1.id))
          [(host, overrideOf settings host)] db.metricLatest)] := by
  have hjoin := filter_fleetJoin h hhost
  have hkey : ∀ j ∈ fleetJoin settings db, (fleetKey j).hostSlug = host.slug →
      fleetKey j = hostKey settings host := by
    intro j hj hslug
    have hmem : j ∈ (fleetJoin settings db).filter fun j => decide (j.1.1.slug = host.slug) :=
      List.mem_filter.mpr ⟨hj, decide_eq_true hslug⟩
    rw [hjoin] at hmem
    rw [fleetKey, List.mem_singleton.mp (Aggregate.mem_of_mem_leftJoin hmem)]
    rfl
  have hexists : ∃ j ∈ fleetJoin settings db, fleetKey j = hostKey settings host := by
    obtain ⟨j, hj, hfst⟩ := Aggregate.exists_mem_leftJoin
      (fun (h : HostRow × Option OverrideRow) (m : LatestRow) => decide (m.hostId = h.1.id))
      db.metricLatest (List.mem_singleton_self (host, overrideOf settings host))
    rw [← hjoin] at hj
    obtain ⟨hmem, hslug⟩ := List.mem_filter.mp hj
    exact ⟨j, hmem, hkey j hmem (decide_eq_true_eq.mp hslug)⟩
  have hone := Aggregate.filter_grouped_coarse fleetKey (fleetStatus now settings)
    FleetKey.hostSlug FleetStatus.hostSlug (fun _ _ => rfl) hkey hexists
  have hsorted := (List.perm_insertionSort (fun a b : FleetStatus => ¬ b.displayName < a.displayName)
    (Aggregate.grouped fleetKey (fleetStatus now settings) (fleetJoin settings db))).filter
      fun s => decide (s.hostSlug = host.slug)
  rw [← fleetIngestionStatus] at hsorted
  rw [← List.perm_singleton, ← hjoin]
  exact hsorted.trans (List.Perm.of_eq hone)

theorem receivedTimes_eq (group : List FleetJoin) :
    receivedTimes group = (group.filterMap Prod.snd).map LatestRow.receivedAt := by
  rw [receivedTimes, List.map_filterMap]

/-- Both functions count the rows of the host. -/
theorem shared_status (db : Db) (settings : CollectionSettings) (host : HostRow) (now : Int)
    (k : FleetKey) (o : Option OverrideRow) :
    (hostStatus k.hostSlug (Aggregate.leftJoin onHost [host] db.metricLatest)).shared =
      (fleetStatus now settings k (Aggregate.leftJoin (fun h m => decide (m.hostId = h.1.id))
        [(host, o)] db.metricLatest)).shared := by
  have hrows : (Aggregate.leftJoin onHost [host] db.metricLatest).filterMap Prod.snd =
      (Aggregate.leftJoin (fun (h : HostRow × Option OverrideRow) (m : LatestRow) =>
        decide (m.hostId = h.1.id)) [(host, o)] db.metricLatest).filterMap Prod.snd := by
    rw [Aggregate.filterMap_leftJoin_singleton, Aggregate.filterMap_leftJoin_singleton]
    rfl
  simp only [HostIngestionStatus.shared, FleetStatus.shared, hostStatus, fleetStatus,
    receivedTimes_eq, hrows]

theorem fleetIngestionStatus_slug {now : Int} {s : FleetStatus}
    (hs : s ∈ fleetIngestionStatus now settings db) : ∃ host ∈ db.hosts, host.slug = s.hostSlug := by
  rw [fleetIngestionStatus, List.mem_insertionSort, Aggregate.mem_grouped] at hs
  obtain ⟨j, hj, rfl⟩ := hs
  exact ⟨j.1.1, Aggregate.mem_of_mem_leftJoin (Aggregate.mem_of_mem_leftJoin hj), rfl⟩

end Rows

/-- The verifier and the consoles are told the same about a host. Where slugs name one host and a
host has one override at most, both functions have one row for a known slug, and none for any other,
and the two rows agree in every column of both, whatever the interval and the time. -/
theorem host_and_fleet_agree (db : Db) (settings : CollectionSettings)
    (h : StatusKeys settings db) (now : Int) (slug : String) :
    ((∃ host ∈ db.hosts, host.slug = slug) → ∃ row status,
        hostIngestionStatus db slug = [row] ∧
        ((fleetIngestionStatus now settings db).filter fun s => decide (s.hostSlug = slug)) =
          [status] ∧
        row.hostSlug = slug ∧ row.shared = status.shared) ∧
      ((∀ host ∈ db.hosts, host.slug ≠ slug) → hostIngestionStatus db slug = [] ∧
        ((fleetIngestionStatus now settings db).filter fun s => decide (s.hostSlug = slug)) =
          []) := by
  constructor
  · rintro ⟨host, hhost, rfl⟩
    exact ⟨_, _, hostIngestionStatus_host h.slugs hhost, fleetIngestionStatus_host now h hhost, rfl,
      shared_status db settings host now (hostKey settings host) (overrideOf settings host)⟩
  · intro hunknown
    refine ⟨hostIngestionStatus_unknown hunknown, ?_⟩
    rw [List.filter_eq_nil_iff]
    intro s hs hslug
    obtain ⟨host, hhost, heq⟩ := fleetIngestionStatus_slug hs
    exact hunknown host hhost (heq.trans (decide_eq_true_eq.mp hslug))

/-- The status of a host reports its first envelope, if its clocks are steady. -/
theorem oneHost_reports {c : Call} (hi : inserted (serve oneHostDb c).1 = true)
    (hcall : callHost c = some (Uuid.ofByte 1)) (hsteady : Steady (Uuid.ofByte 1) [c]) :
    ReportsReceipt (serve oneHostDb c).2 (Uuid.ofByte 1) c.dbNow := by
  have hrun : Machine.run clockStep ClockRun.initial [enrollOneHost] = some ⟨oneHostDb, []⟩ := rfl
  have hhosts : (serve oneHostDb c).2.hosts = oneHostDb.hosts := serve_hosts _ _
  exact reportsReceipt_of_steady (Machine.invariant_run ledger_step hrun initial_owned.ledger)
    (Machine.invariant_run sourced_step hrun initial_sourced) (clockStep_receive hi [])
    (hhosts ▸ List.nodup_singleton _) hcall hsteady

/-- The one row of that host in the status of the fleet has the receipt. -/
theorem oneHost_latestReceipt {c : Call} {now received : Int} {settings : CollectionSettings}
    {status : FleetStatus}
    (hreports : ReportsReceipt (serve oneHostDb c).2 (Uuid.ofByte 1) received)
    (hstatus : ((fleetIngestionStatus now settings (serve oneHostDb c).2).filter fun s =>
      decide (s.hostSlug = "alpha")) = [status]) : status.latestReceipt = some received := by
  obtain ⟨host, hhost, -, -, hreceipt⟩ := hreports now settings
  rw [serve_hosts] at hhost
  obtain rfl := List.mem_singleton.mp hhost
  have hlisted := List.mem_filter.mp (hstatus.symm ▸ List.mem_singleton_self status)
  exact hreceipt status hlisted.1 (decide_eq_true_eq.mp hlisted.2)

/-- A host with an override, after its first envelope: both rows have its receipt. -/
theorem oneHost_agree : ∃ row status,
    hostIngestionStatus (serve oneHostDb (submission (some true))).2 "alpha" = [row] ∧
    ((fleetIngestionStatus 0 ⟨5, [⟨Uuid.ofByte 1, 10⟩]⟩
        (serve oneHostDb (submission (some true))).2).filter fun s =>
      decide (s.hostSlug = "alpha")) = [status] ∧
    row.shared = status.shared ∧
    status.latestReceipt = some (submission (some true)).dbNow := by
  have hfirst (c : Call) (hreports : ReportsReceipt (serve oneHostDb c).2 (Uuid.ofByte 1) c.dbNow) :
      ∃ row status, hostIngestionStatus (serve oneHostDb c).2 "alpha" = [row] ∧
        ((fleetIngestionStatus 0 ⟨5, [⟨Uuid.ofByte 1, 10⟩]⟩ (serve oneHostDb c).2).filter fun s =>
          decide (s.hostSlug = "alpha")) = [status] ∧
        row.shared = status.shared ∧ status.latestReceipt = some c.dbNow := by
    have hhosts : (serve oneHostDb c).2.hosts = oneHostDb.hosts := serve_hosts _ _
    have hkeys : StatusKeys ⟨5, [⟨Uuid.ofByte 1, 10⟩]⟩ (serve oneHostDb c).2 :=
      ⟨hhosts ▸ List.nodup_singleton _, List.nodup_singleton _⟩
    have hknown : ∃ host ∈ (serve oneHostDb c).2.hosts, host.slug = "alpha" :=
      ⟨⟨Uuid.ofByte 1, "alpha", "Alpha", "linux", none⟩, hhosts ▸ List.mem_singleton_self _, rfl⟩
    obtain ⟨row, status, hrow, hstatus, -, hshared⟩ :=
      (host_and_fleet_agree _ _ hkeys 0 "alpha").1 hknown
    exact ⟨row, status, hrow, hstatus, hshared, oneHost_latestReceipt hreports hstatus⟩
  exact hfirst (submission (some true)) (oneHost_reports (submission_inserted (some true))
    (Uuid.parse_toText _) submission_steady)

end NodeScope.Telemetry
