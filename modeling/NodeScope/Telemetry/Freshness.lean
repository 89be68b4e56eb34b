import Mathlib.Data.List.Sort
import NodeScope.Lib.Aggregate
import NodeScope.Telemetry.ClockEvidence

/-!
# Freshness of a host

An agent's clock may be wrong, and the rows of the latest state are replaced in the order of their
observation times. Two things keep such an agent from hiding its host. No stored time is more than
a minute after the clock of a replica that accepted it, so that a sample dated later always gets
in; and the server's own row, which is dated by the replica, is replaced by every receipt whose
clock is later, so that the receipt time `fleet_ingestion_status` reports is the last one.

## Implementation notes

`collection_settings` is the value of its single row. Texts are compared by code points where the
query orders them or takes their maximum.
-/

namespace NodeScope.Telemetry

open Domain Storage Lib Lib.Check Lib.Time

section Model

structure OverrideRow where
  hostId : Uuid
  intervalSeconds : Int
deriving DecidableEq

structure CollectionSettings where
  globalIntervalSeconds : Int
  overrides : List OverrideRow
deriving DecidableEq

inductive FreshnessState where
  | unavailable
  | stale
  | fresh
deriving DecidableEq

/-- The columns of the `group by` clause that differ between rows. -/
structure FleetKey where
  hostSlug : String
  displayName : String
  platform : String
  overrideSeconds : Option Int
deriving DecidableEq

structure FleetStatus where
  hostSlug : String
  displayName : String
  platform : String
  effectiveIntervalSeconds : Int
  freshnessState : FreshnessState
  latestReceipt : Option Int
  currentMetricCount : Nat
  unavailableMetricCount : Nat
  staleMetricCount : Nat
  clockOffsetSeconds : Option Float64
  clockOffsetQuality : Option String
deriving DecidableEq

/-- A row of the `from` clause: a host with its override and one of its latest rows. -/
abbrev FleetJoin : Type := (HostRow × Option OverrideRow) × Option LatestRow

def fleetJoin (settings : CollectionSettings) (db : Db) : List FleetJoin :=
  Aggregate.leftJoin (fun h m => decide (m.hostId = h.1.id))
    (Aggregate.leftJoin (fun h o => decide (o.hostId = h.id)) db.hosts settings.overrides)
    db.metricLatest

def fleetKey (j : FleetJoin) : FleetKey where
  hostSlug := j.1.1.slug
  displayName := j.1.1.displayName
  platform := j.1.1.platform
  overrideSeconds := j.1.2.map OverrideRow.intervalSeconds

def receivedTimes (group : List FleetJoin) : List Int :=
  group.filterMap fun j => j.2.map LatestRow.receivedAt

def freshnessState (now interval : Int) : Option Int → FreshnessState
  | none => .unavailable
  | some received => if sqlSeconds (interval * 2) < now - received then .stale else .fresh

def greatestText : List String → Option String
  | [] => none
  | x :: rest => some (rest.foldl (fun best y => if best < y then y else best) x)

def fleetStatus (now : Int) (settings : CollectionSettings) (k : FleetKey)
    (group : List FleetJoin) : FleetStatus :=
  let metrics := group.filterMap Prod.snd
  let clocks := metrics.filter fun m => decide ((m.deviceId, m.metricName) = clockKey)
  let interval := k.overrideSeconds.getD settings.globalIntervalSeconds
  let received := (receivedTimes group).max?
  { hostSlug := k.hostSlug
    displayName := k.displayName
    platform := k.platform
    effectiveIntervalSeconds := interval
    freshnessState := freshnessState now interval received
    latestReceipt := received
    currentMetricCount := metrics.length
    unavailableMetricCount := (metrics.filter fun m => m.quality == .unavailable).length
    staleMetricCount := (metrics.filter fun m => m.quality == .stale).length
    clockOffsetSeconds := Aggregate.maximum (clocks.filterMap LatestRow.numericValue)
    clockOffsetQuality := greatestText (clocks.map fun m => m.quality.text) }

/-- `fleet_ingestion_status()` at a time of the database. -/
def fleetIngestionStatus (now : Int) (settings : CollectionSettings) (db : Db) :
    List FleetStatus :=
  (Aggregate.grouped fleetKey (fleetStatus now settings) (fleetJoin settings db)).insertionSort
    fun a b => ¬ b.displayName < a.displayName

end Model

section Statements

/-- The replica's clock at the receipts of a host is not after an instant. -/
def ClockBound (receipts : List Call) (hostId : Uuid) (last : Int) : Prop :=
  ∀ r ∈ receipts, callHost r = some hostId → r.now ≤ last

/-- No stored time of the host is after the instant. -/
structure DatedBefore (db : Db) (hostId : Uuid) (bound : Int) : Prop where
  latest : ∀ row ∈ db.metricLatest, row.hostId = hostId → ofTimestamp row.observedAt ≤ bound
  containers : ∀ row ∈ db.containerInventory, row.hostId = hostId →
    ofTimestamp row.observedAt ≤ bound

/-- The rows of the host under the keys of an accepted envelope are the envelope's own where its
dates, as they are stored, are after the instant. -/
structure ReplacedAfter (db : Db) (hostId : Uuid) (bound : Int) (c : Call) : Prop where
  latest : ∀ x ∈ c.envelope.samples, bound < ofTimestamp (toTimestamp x.metric.observedAt) →
    ∃ y ∈ c.envelope.samples ++ [clockOffsetSample c.envelope.observedAt c.now],
      y.deviceID = x.deviceID ∧ y.metric.name = x.metric.name ∧
        toTimestamp x.metric.observedAt ≤ toTimestamp y.metric.observedAt ∧
        latestAt db hostId x.deviceID x.metric.name = some (latestRow c.dbNow hostId y)
  containers : ∀ x ∈ c.envelope.containers, bound < c.envelope.observedAt →
    containerAt db hostId x.containerID =
      some (containerRow c.dbNow hostId x c.envelope.observedAt)

/-- The accepted envelopes of a host leave the device of the server's own sample alone, and the
clocks of the replica and of the database run forward from one to the next. -/
structure Steady (hostId : Uuid) (receipts : List Call) : Prop where
  unused : ∀ r ∈ receipts, callHost r = some hostId →
    ∀ x ∈ r.envelope.samples, x.deviceID ≠ "agent-clock"
  clocks : (receipts.filter fun r => decide (callHost r = some hostId)).Pairwise fun a b =>
    toTimestamp a.now < toTimestamp b.now ∧ a.dbNow ≤ b.dbNow

/-- The fleet status has the host, with the receipt time. -/
def ReportsReceipt (db : Db) (hostId : Uuid) (received : Int) : Prop :=
  ∀ now settings, ∃ host ∈ db.hosts, host.id = hostId ∧
    (∃ row ∈ fleetIngestionStatus now settings db, row.hostSlug = host.slug) ∧
    ∀ row ∈ fleetIngestionStatus now settings db,
      row.hostSlug = host.slug → row.latestReceipt = some received

end Statements

section Sources

/-- Every row of the latest state comes from a receipt, and every receipt was checked. -/
structure ClockRun.Sourced (s : ClockRun) : Prop where
  checked : ∀ r ∈ s.receipts, checkSubmission r = .ok ()
  latest : ∀ row ∈ s.db.metricLatest, ∃ r ∈ s.receipts,
    callHost r = some row.hostId ∧ row ∈ latestRows r row.hostId
  containers : ∀ row ∈ s.db.containerInventory, ∃ r ∈ s.receipts,
    callHost r = some row.hostId ∧ row ∈ containerRows r row.hostId

theorem hostId_of_mem_latestRows {c : Call} {hostId : Uuid} {row : LatestRow}
    (h : row ∈ latestRows c hostId) : row.hostId = hostId := by
  obtain ⟨s, -, rfl⟩ := List.mem_map.mp h
  rfl

theorem hostId_of_mem_containerRows {c : Call} {hostId : Uuid} {row : ContainerRow}
    (h : row ∈ containerRows c hostId) : row.hostId = hostId := by
  obtain ⟨x, -, rfl⟩ := List.mem_map.mp h
  rfl

theorem sourced_receive {s s' : ClockRun} {c : Call}
    (hstep : clockStep s (.receive c) = some s') (h : s.Sourced) : s'.Sourced := by
  obtain ⟨hi, rfl⟩ := receive_cases hstep
  obtain ⟨hno, -⟩ | ⟨-, hsub, -, hostId, raw, hhost, hdb⟩ := serve_cases s.db c
  · rw [hi] at hno
    cases hno
  · have hnew : c ∈ s.receipts ++ [c] := List.mem_append_right _ List.mem_cons_self
    constructor
    · intro r hr
      rcases List.mem_append.mp hr with hr | hr
      · exact h.checked r hr
      · rwa [List.mem_singleton.mp hr]
    · intro row hrow
      simp only [hdb, foldl_offer_metricLatest, proposals_latest] at hrow
      rcases Table.mem_foldl_upsert latestReplaces hrow with hrow | hrow
      · have hid := hostId_of_mem_latestRows hrow
        exact ⟨c, hnew, by rw [hid, hhost], by rwa [hid]⟩
      · obtain ⟨r, hr, hsource⟩ := h.latest row hrow
        exact ⟨r, List.mem_append_left _ hr, hsource⟩
    · intro row hrow
      simp only [hdb, foldl_offer_containerInventory, proposals_container] at hrow
      rcases Table.mem_foldl_upsert containerReplaces hrow with hrow | hrow
      · have hid := hostId_of_mem_containerRows hrow
        exact ⟨c, hnew, by rw [hid, hhost], by rwa [hid]⟩
      · obtain ⟨r, hr, hsource⟩ := h.containers row hrow
        exact ⟨r, List.mem_append_left _ hr, hsource⟩

theorem sourced_step (s : ClockRun) (e : ClockEvent) (s' : ClockRun)
    (hstep : clockStep s e = some s') (h : s.Sourced) : s'.Sourced := by
  cases e with
  | receive c => exact sourced_receive hstep h
  | refuse c =>
      rw [clockStep] at hstep
      split at hstep
      · cases hstep
      · next hi =>
          obtain rfl := Option.some.inj hstep
          obtain ⟨-, hdb⟩ | ⟨hyes, -⟩ := serve_cases s.db c
          · rw [hdb]
            exact ⟨h.checked, h.latest, h.containers⟩
          · exact absurd hyes hi
  | enroll hosts agents =>
      obtain rfl := Option.some.inj hstep
      exact ⟨h.checked, h.latest, h.containers⟩
  | prune dbNow =>
      obtain rfl := Option.some.inj hstep
      exact ⟨h.checked, h.latest, h.containers⟩

theorem initial_sourced : ClockRun.initial.Sourced := by
  constructor <;> simp [ClockRun.initial, Db.empty]

end Sources

section Bound

variable {s s' : ClockRun} {c : Call} {hostId : Uuid} {last : Int}

/-- What is offered under the name of a sample is not more than a minute after the clock. -/
theorem observedAt_of_checked (h : checkSubmission c = .ok ()) :
    c.envelope.observedAt ≤ c.now + maxFutureObservationSkew ∧
      ∀ x ∈ c.envelope.samples ++ [clockOffsetSample c.envelope.observedAt c.now],
        x.metric.observedAt ≤ c.now + maxFutureObservationSkew := by
  simp only [checkSubmission, unit_bind_eq_ok, mapError_eq_ok] at h
  obtain ⟨henvelope, hsamples⟩ := Envelope.validateReceiptTimes_eq_ok.mp h.2.2.2
  refine ⟨henvelope, ?_⟩
  intro x hx
  rcases List.mem_append.mp hx with hx | hx
  · exact hsamples x hx
  · obtain rfl := List.mem_singleton.mp hx
    have hserver : (clockOffsetSample c.envelope.observedAt c.now).metric.observedAt = c.now := rfl
    rw [hserver]
    simp only [maxFutureObservationSkew, seconds, nanosPerSecond]
    omega

theorem valid_of_checkSubmission (h : checkSubmission c = .ok ()) : c.envelope.Valid := by
  simp only [checkSubmission, unit_bind_eq_ok, mapError_eq_ok] at h
  exact Envelope.validate_eq_ok.mp h.2.2.1

theorem ofTimestamp_toTimestamp_le (t : Int) : ofTimestamp (toTimestamp t) ≤ t := by
  simp only [ofTimestamp, toTimestamp]
  omega

theorem ClockRun.Sourced.datedBefore (h : s.Sourced) (hlast : ClockBound s.receipts hostId last) :
    DatedBefore s.db hostId (last + maxFutureObservationSkew) := by
  constructor
  · intro row hrow hid
    obtain ⟨r, hr, hhost, hsource⟩ := h.latest row hrow
    rw [hid] at hhost hsource
    obtain ⟨x, hx, rfl⟩ := List.mem_map.mp hsource
    have hdate := (observedAt_of_checked (h.checked r hr)).2 x hx
    calc ofTimestamp (toTimestamp x.metric.observedAt)
        ≤ x.metric.observedAt := ofTimestamp_toTimestamp_le _
      _ ≤ r.now + maxFutureObservationSkew := hdate
      _ ≤ last + maxFutureObservationSkew := Int.add_le_add_right (hlast r hr hhost) _
  · intro row hrow hid
    obtain ⟨r, hr, hhost, hsource⟩ := h.containers row hrow
    rw [hid] at hhost hsource
    obtain ⟨x, -, rfl⟩ := List.mem_map.mp hsource
    have hdate := (observedAt_of_checked (h.checked r hr)).1
    calc ofTimestamp (toTimestamp r.envelope.observedAt)
        ≤ r.envelope.observedAt := ofTimestamp_toTimestamp_le _
      _ ≤ r.now + maxFutureObservationSkew := hdate
      _ ≤ last + maxFutureObservationSkew := Int.add_le_add_right (hlast r hr hhost) _

theorem le_toTimestamp_of_ofTimestamp_lt {t : Int} {row : Int} (h : ofTimestamp row < t) :
    row ≤ toTimestamp t := by
  simp only [ofTimestamp, toTimestamp] at h ⊢
  omega

/-- What a call offers under a key of its host. -/
theorem mem_offered {deviceId metricName : String} {row : LatestRow}
    (hhost : callHost c = some hostId)
    (h : row ∈ (offeredLatest c).filter fun r => decide (r.key = (hostId, deviceId, metricName))) :
    ∃ y ∈ c.envelope.samples ++ [clockOffsetSample c.envelope.observedAt c.now],
      y.deviceID = deviceId ∧ y.metric.name = metricName ∧ row = latestRow c.dbNow hostId y := by
  rw [offeredLatest, hhost, Option.toList_some, List.flatMap_singleton, List.mem_filter,
    decide_eq_true_eq] at h
  obtain ⟨hrow, hkey⟩ := h
  obtain ⟨y, hy, rfl⟩ := List.mem_map.mp hrow
  obtain ⟨-, hname⟩ := Prod.mk.inj hkey
  obtain ⟨hdevice, hmetric⟩ := Prod.mk.inj hname
  exact ⟨y, hy, hdevice, hmetric, rfl⟩

theorem sample_offered {x : Sample} (hhost : callHost c = some hostId)
    (hx : x ∈ c.envelope.samples) :
    latestRow c.dbNow hostId x ∈ (offeredLatest c).filter fun r =>
      decide (r.key = (hostId, x.deviceID, x.metric.name)) := by
  rw [offeredLatest, hhost, Option.toList_some, List.flatMap_singleton, List.mem_filter]
  refine ⟨List.mem_map_of_mem (List.mem_append_left _ hx), ?_⟩
  simp [LatestRow.key, latestRow]

/-- A sample dated after everything stored is in, or one of its envelope that is no older. -/
theorem latest_replaced {db : Db} {bound : Int} (hi : inserted (serve db c).1 = true)
    (hhost : callHost c = some hostId) (hdated : DatedBefore db hostId bound) {x : Sample}
    (hx : x ∈ c.envelope.samples)
    (hafter : bound < ofTimestamp (toTimestamp x.metric.observedAt)) :
    ∃ y ∈ c.envelope.samples ++ [clockOffsetSample c.envelope.observedAt c.now],
      y.deviceID = x.deviceID ∧ y.metric.name = x.metric.name ∧
        toTimestamp x.metric.observedAt ≤ toTimestamp y.metric.observedAt ∧
        latestAt (serve db c).2 hostId x.deviceID x.metric.name =
          some (latestRow c.dbNow hostId y) := by
  have hrun := latestAt_runCalls db [c] hostId x.deviceID x.metric.name
  rw [accepted, accepted, if_pos hi, List.flatMap_cons, List.flatMap_nil, List.append_nil] at hrun
  have hstored : ∀ old ∈ latestAt db hostId x.deviceID x.metric.name,
      latestRowRank old < latestRowRank (latestRow c.dbNow hostId x) := by
    intro old hold
    obtain ⟨hmem, hkey⟩ := Table.mem_of_find hold
    have hdate := (hdated.latest old hmem (Prod.mk.inj hkey).1).trans_lt hafter
    exact Prod.Lex.toLex_lt_toLex.mpr (Or.inl (ofTimestamp_lt_ofTimestamp.mp hdate))
  obtain ⟨best, hbest, hkept, hrank⟩ :=
    Table.keep_offered (Table.follows_of_strict latestReplaces_iff_lt) (sample_offered hhost hx)
      hstored
  obtain ⟨y, hy, hdevice, hmetric, rfl⟩ := mem_offered hhost hbest
  refine ⟨y, hy, hdevice, hmetric, ?_, hrun.trans hkept⟩
  rcases Prod.Lex.toLex_le_toLex.mp hrank with hlt | ⟨heq, -⟩
  · exact hlt.le
  · exact heq.le

/-- An envelope has at most one record of a container. -/
theorem offered_container (hvalid : c.envelope.Valid) (hhost : callHost c = some hostId)
    {x : ContainerInventory} (hx : x ∈ c.envelope.containers) :
    ((offeredContainers c).filter fun r => decide (r.key = (hostId, x.containerID))) =
      [containerRow c.dbNow hostId x c.envelope.observedAt] := by
  have hkey (y : ContainerInventory) :
      (containerRow c.dbNow hostId y c.envelope.observedAt).key = (hostId, x.containerID) ↔
        y.containerID = x.containerID := by
    simp [ContainerRow.key, containerRow]
  rw [offeredContainers, hhost, Option.toList_some, List.flatMap_singleton, containerRows,
    List.filter_map]
  simp only [Function.comp_def, hkey]
  rw [Table.filter_key_eq hvalid.containersDistinct hx]
  rfl

/-- A container of an envelope dated after everything stored gets its record. -/
theorem container_replaced {db : Db} {bound : Int} (hi : inserted (serve db c).1 = true)
    (hvalid : c.envelope.Valid) (hhost : callHost c = some hostId)
    (hdated : DatedBefore db hostId bound) {x : ContainerInventory}
    (hx : x ∈ c.envelope.containers) (hafter : bound < c.envelope.observedAt) :
    containerAt (serve db c).2 hostId x.containerID =
      some (containerRow c.dbNow hostId x c.envelope.observedAt) := by
  have hrun := containerAt_runCalls db [c] hostId x.containerID
  rw [accepted, accepted, if_pos hi, List.flatMap_cons, List.flatMap_nil, List.append_nil,
    offered_container hvalid hhost hx] at hrun
  refine hrun.trans ?_
  rw [List.foldl_cons, List.foldl_nil]
  cases hstored : containerAt db hostId x.containerID with
  | none => rfl
  | some old =>
      obtain ⟨hmem, hkey⟩ := Table.mem_of_find hstored
      have hdate := (hdated.containers old hmem (Prod.mk.inj hkey).1).trans_lt hafter
      have hreplaces : containerReplaces old
          (containerRow c.dbNow hostId x c.envelope.observedAt) = true :=
        decide_eq_true (le_toTimestamp_of_ofTimestamp_lt hdate)
      rw [Table.keep, if_pos hreplaces]

end Bound

section Report

variable {s s' : ClockRun} {c : Call} {hostId : Uuid}

theorem mem_receivedTimes {group : List FleetJoin} {t : Int} :
    t ∈ receivedTimes group ↔ ∃ h row, (h, some row) ∈ group ∧ row.receivedAt = t := by
  simp [receivedTimes]

/-- Where slugs are distinct, the group of a host has its own rows and no others. -/
theorem mem_receivedTimes_members {settings : CollectionSettings} {db : Db}
    (hslugs : (db.hosts.map HostRow.slug).Nodup) {host : HostRow} (hhost : host ∈ db.hosts)
    {j : FleetJoin} (hj : j ∈ fleetJoin settings db) (hslug : j.1.1.slug = host.slug) {t : Int} :
    t ∈ receivedTimes (Aggregate.members fleetKey (fleetKey j) (fleetJoin settings db)) ↔
      ∃ row ∈ db.metricLatest, row.hostId = host.id ∧ row.receivedAt = t := by
  have hunique : ∀ j' ∈ fleetJoin settings db, j'.1.1.slug = host.slug → j'.1.1 = host := by
    intro j' hj' hslug'
    have hmem : j'.1.1 ∈ db.hosts :=
      Aggregate.mem_of_mem_leftJoin (Aggregate.mem_of_mem_leftJoin hj')
    exact List.inj_on_of_nodup_map hslugs hmem hhost hslug'
  rw [mem_receivedTimes]
  constructor
  · rintro ⟨h, row, hmem, rfl⟩
    rw [Aggregate.members, List.mem_filter, decide_eq_true_eq] at hmem
    obtain ⟨hjoin, hkey⟩ := hmem
    obtain ⟨-, hrow, hon⟩ := Aggregate.mem_leftJoin_some.mp hjoin
    have hself := hunique (h, some row) hjoin ((congrArg FleetKey.hostSlug hkey).trans hslug)
    refine ⟨row, hrow, ?_, rfl⟩
    rw [← hself]
    exact decide_eq_true_eq.mp hon
  · rintro ⟨row, hrow, hid, rfl⟩
    have hself := hunique j hj hslug
    refine ⟨j.1, row, ?_, rfl⟩
    rw [Aggregate.members, List.mem_filter]
    refine ⟨Aggregate.mem_leftJoin_some.mpr
      ⟨Aggregate.mem_of_mem_leftJoin hj, hrow, ?_⟩, decide_eq_true rfl⟩
    rw [hself]
    exact decide_eq_true hid

/-- The status of a host reports the greatest of its receipt times. -/
theorem reportsReceipt {db : Db} (hslugs : (db.hosts.map HostRow.slug).Nodup) {host : HostRow}
    (hhost : host ∈ db.hosts) {t : Int}
    (hrow : ∃ row ∈ db.metricLatest, row.hostId = host.id ∧ row.receivedAt = t)
    (hmax : ∀ row ∈ db.metricLatest, row.hostId = host.id → row.receivedAt ≤ t) :
    ReportsReceipt db host.id t := by
  intro now settings
  refine ⟨host, hhost, rfl, ?_, ?_⟩
  · obtain ⟨h, hh, hfst⟩ := Aggregate.exists_mem_leftJoin
      (fun h o => decide (o.hostId = HostRow.id h)) settings.overrides hhost
    obtain ⟨j, hj, hjfst⟩ := Aggregate.exists_mem_leftJoin
      (fun (h : HostRow × Option OverrideRow) (m : LatestRow) => decide (m.hostId = h.1.id))
      db.metricLatest hh
    refine ⟨_, (List.mem_insertionSort _).mpr (Aggregate.mem_grouped.mpr ⟨j, hj, rfl⟩), ?_⟩
    change j.1.1.slug = host.slug
    rw [hjfst, hfst]
  · intro row hstatus hslug
    rw [fleetIngestionStatus, List.mem_insertionSort, Aggregate.mem_grouped] at hstatus
    obtain ⟨j, hj, rfl⟩ := hstatus
    change (receivedTimes _).max? = some t
    rw [List.max?_eq_some_iff]
    constructor
    · exact (mem_receivedTimes_members hslugs hhost hj hslug).mpr hrow
    · intro b hb
      obtain ⟨m, hm, hid, rfl⟩ := (mem_receivedTimes_members hslugs hhost hj hslug).mp hb
      exact hmax m hm hid

theorem serve_hosts (db : Db) (c : Call) : (serve db c).2.hosts = db.hosts := by
  obtain ⟨-, hdb⟩ | ⟨-, -, -, hostId, raw, -, hdb⟩ := serve_cases db c
  · rw [hdb]
  · rw [hdb, (foldl_offer_registry _ _).1]

/-- The first statement of an accepted envelope refers to its host. -/
theorem host_of_inserted {db : Db} (hi : inserted (serve db c).1 = true)
    (hhost : callHost c = some hostId) : ∃ host ∈ db.hosts, host.id = hostId := by
  rw [callHost_eq_some] at hhost
  rw [serve, persistEnvelope] at hi
  cases ht : transaction healthy { db with capacityStatus := c.capacity } c with
  | error e =>
      rw [ht] at hi
      cases hi
  | ok result =>
      obtain ⟨r, db'⟩ := result
      rw [ht] at hi
      obtain ⟨-, -, ⟨-, rfl, -⟩ | ⟨-, -, hrun, -⟩⟩ := transaction_ok ht
      · cases hi
      · simp only [writes, List.cons_append, runWrites, bind_eq_ok] at hrun
        obtain ⟨p, hfirst, -⟩ := hrun
        cases hraw : acceptRawBatches { db with capacityStatus := c.capacity } with
        | true =>
            rw [hraw] at hfirst
            obtain ⟨-, -, -, -, -, -, -, -, host, hcast, -, -, -, hknown, -⟩ :=
              insertRawBatch_eq_ok.mp hfirst
            obtain rfl := Except.ok.inj (hhost.symm.trans hcast)
            exact hknown
        | false =>
            rw [hraw] at hfirst
            obtain ⟨-, -, -, host, hcast, -, -, hknown, -⟩ := insertReceipt_eq_ok.mp hfirst
            obtain rfl := Except.ok.inj (hhost.symm.trans hcast)
            exact hknown

/-- Where no sample uses the server's device, a receipt offers the server's sample only. -/
theorem clockOffers_of_unused (h : ∀ x ∈ c.envelope.samples, x.deviceID ≠ "agent-clock") :
    clockOffers c = [.server c] := by
  have hnone : clockSamples c.envelope = [] := by
    rw [clockSamples, List.filter_eq_nil_iff]
    intro x hx hkey
    exact h x hx (Prod.mk.inj (decide_eq_true_eq.mp hkey)).1
  rw [clockOffers, hnone]
  rfl

/-- With steady clocks the last receipt of a host has written the row under the server's key. -/
theorem clockWriter_of_steady {receipts before : List Call} (hsteady : Steady hostId receipts)
    (hlast : receipts.filter (fun r => decide (callHost r = some hostId)) = before ++ [c]) :
    clockWriter hostId receipts = some (.server c) := by
  have hoffers : (before ++ [c]).flatMap clockOffers = (before ++ [c]).map .server := by
    rw [List.map_eq_flatMap]
    apply List.flatMap_congr
    intro r hr
    rw [← hlast, List.mem_filter, decide_eq_true_eq] at hr
    exact clockOffers_of_unused (hsteady.unused r hr.1 hr.2)
  have hclocks := hsteady.clocks
  rw [hlast, List.pairwise_append] at hclocks
  rw [clockWriter, hlast, hoffers, List.map_append]
  apply Table.keep_last (writer_strict hostId)
  intro w hw
  obtain ⟨r, hr, rfl⟩ := List.mem_map.mp hw
  exact Prod.Lex.toLex_lt_toLex.mpr (Or.inl (hclocks.2.2 r hr c List.mem_cons_self).1)

/-- After an accepted envelope of a host with steady clocks, its receipt time is the last. -/
theorem reportsReceipt_of_steady (hledger : s.Ledger) (hsourced : s.Sourced)
    (hstep : clockStep s (.receive c) = some s') (hslugs : (s'.db.hosts.map HostRow.slug).Nodup)
    (hhost : callHost c = some hostId) (hsteady : Steady hostId s'.receipts) :
    ReportsReceipt s'.db hostId c.dbNow := by
  have hledger' := ledger_step s _ s' hstep hledger hostId
  have hsourced' := sourced_receive hstep hsourced
  obtain ⟨hi, rfl⟩ := receive_cases hstep
  have hlast : (s.receipts ++ [c]).filter (fun r => decide (callHost r = some hostId)) =
      s.receipts.filter (fun r => decide (callHost r = some hostId)) ++ [c] := by
    simp [hhost]
  have hhosts : (serve s.db c).2.hosts = s.db.hosts := serve_hosts s.db c
  obtain ⟨host, hmem, rfl⟩ := host_of_inserted hi hhost
  apply reportsReceipt hslugs (hhosts ▸ hmem)
  · rw [clockWriter_of_steady hsteady hlast] at hledger'
    obtain ⟨hrow, hkey⟩ := Table.mem_of_find hledger'
    exact ⟨_, hrow, rfl, rfl⟩
  · intro row hrow hid
    obtain ⟨r, hr, hrhost, hsource⟩ := hsourced'.latest row hrow
    rw [hid] at hrhost hsource
    obtain ⟨x, -, rfl⟩ := List.mem_map.mp hsource
    have hclocks := hsteady.clocks
    rw [hlast, List.pairwise_append] at hclocks
    have hrmem : r ∈ (s.receipts ++ [c]).filter fun r => decide (callHost r = some host.id) :=
      List.mem_filter.mpr ⟨hr, decide_eq_true hrhost⟩
    rw [hlast] at hrmem
    rcases List.mem_append.mp hrmem with hbefore | hself
    · exact (hclocks.2.2 r hbefore c List.mem_cons_self).2
    · rw [List.mem_singleton.mp hself]
      exact le_rfl

end Report

/-- A wrong agent clock cannot freeze or hide a host. In every run no stored time of a host is more
than a minute after the clock of the replicas that accepted its envelopes, a later sample dated
after that replaces its row, and with steady clocks the fleet status reports the last receipt. -/
theorem agentClock_cannot_hide (events : List ClockEvent) (s : ClockRun)
    (hrun : Machine.run clockStep ClockRun.initial events = some s) (hostId : Uuid) :
    (∀ last, ClockBound s.receipts hostId last →
        DatedBefore s.db hostId (last + maxFutureObservationSkew) ∧
          ∀ c s', clockStep s (.receive c) = some s' → callHost c = some hostId →
            ReplacedAfter s'.db hostId (last + maxFutureObservationSkew) c) ∧
      ∀ c s', clockStep s (.receive c) = some s' → callHost c = some hostId →
        (s'.db.hosts.map HostRow.slug).Nodup → Steady hostId s'.receipts →
          ReportsReceipt s'.db hostId c.dbNow := by
  have hledger := Machine.invariant_run ledger_step hrun initial_owned.ledger
  have hsourced := Machine.invariant_run sourced_step hrun initial_sourced
  constructor
  · intro last hlast
    have hdated := hsourced.datedBefore hlast
    refine ⟨hdated, ?_⟩
    intro c s' hstep hhost
    have hchecked := (sourced_receive hstep hsourced).checked c
    obtain ⟨hi, rfl⟩ := receive_cases hstep
    constructor
    · intro x hx hafter
      exact latest_replaced hi hhost hdated hx hafter
    · intro x hx hafter
      exact container_replaced hi (valid_of_checkSubmission (hchecked (by simp))) hhost hdated hx
        hafter
  · intro c s' hstep hhost hslugs hsteady
    exact reportsReceipt_of_steady hledger hsourced hstep hslugs hhost hsteady

theorem submission_steady : Steady (Uuid.ofByte 1) [submission (some true)] where
  unused r hr _ x hx := by
    obtain rfl := List.mem_singleton.mp hr
    have hall : ∀ x ∈ (submission (some true)).envelope.samples, x.deviceID ≠ "agent-clock" := by
      decide
    exact hall x hx
  clocks := List.Pairwise.sublist List.filter_sublist (List.pairwise_singleton _ _)

/-- The first submission of a host, whose sample is dated ten seconds after the epoch. -/
theorem submission_reported :
    ReplacedAfter (serve oneHostDb (submission (some true))).2 (Uuid.ofByte 1) 0
        (submission (some true)) ∧
      ReportsReceipt (serve oneHostDb (submission (some true))).2 (Uuid.ofByte 1)
        (submission (some true)).dbNow := by
  have hrun : Machine.run clockStep ClockRun.initial [enrollOneHost] = some ⟨oneHostDb, []⟩ := rfl
  obtain ⟨hbound, hreport⟩ :=
    agentClock_cannot_hide [enrollOneHost] ⟨oneHostDb, []⟩ hrun (Uuid.ofByte 1)
  have hfirst (c : Call) (hi : inserted (serve oneHostDb c).1 = true)
      (hhost : callHost c = some (Uuid.ofByte 1)) (hsteady : Steady (Uuid.ofByte 1) [c]) :
      ReplacedAfter (serve oneHostDb c).2 (Uuid.ofByte 1) 0 c ∧
        ReportsReceipt (serve oneHostDb c).2 (Uuid.ofByte 1) c.dbNow := by
    have hstep := clockStep_receive hi []
    have hslugs : ((serve oneHostDb c).2.hosts.map HostRow.slug).Nodup := by
      rw [serve_hosts]
      exact List.nodup_singleton _
    exact ⟨(hbound (-maxFutureObservationSkew) (fun r hr => by cases hr)).2 c _ hstep hhost,
      hreport c _ hstep hhost hslugs hsteady⟩
  exact hfirst (submission (some true)) (submission_inserted (some true)) (Uuid.parse_toText _)
    submission_steady

end NodeScope.Telemetry
