import NodeScope.Backup.Snapshot

/-!
# What a dump contains

`dumpArguments` names the tables whose rows a default backup leaves out. One of the two names is
that of no table the migrations create, so that the rows of both raw telemetry tables are dumped.
`defaultDump_eq_iff` says what two databases that differ in raw telemetry and receipts only have to
agree on for their default dumps to be the same.

## Implementation notes

`pg_dump` writes the rows of the tables of the schemas it is asked for, without those it is told to
leave out. The rows of a table are of any type.
-/

namespace NodeScope.Backup

section Model

/-- The tables that the migrations create. -/
inductive SchemaTable where
  | userRoles
  | hosts
  | hostCapabilities
  | agents
  | collectionSettings
  | hostCollectionOverrides
  | storageBaselines
  | runtimeCandidates
  | auditEvents
  | operations
  | schemaMigrations
  | maintenanceLeases
  | telemetryBatches
  | metricLatest
  | metricRollups
  | storageProbeSummaries
  | metricSamples
  | metricHighWater
  | maintenanceStatus
  | capacityStatus
  | ingestReceipts
  | containerInventory
  | inferenceUsageEvents
  | alertRules
  | alerts
deriving DecidableEq

namespace SchemaTable

def name : SchemaTable → String
  | userRoles => "user_roles"
  | hosts => "hosts"
  | hostCapabilities => "host_capabilities"
  | agents => "agents"
  | collectionSettings => "collection_settings"
  | hostCollectionOverrides => "host_collection_overrides"
  | storageBaselines => "storage_baselines"
  | runtimeCandidates => "runtime_candidates"
  | auditEvents => "audit_events"
  | operations => "operations"
  | schemaMigrations => "schema_migrations"
  | maintenanceLeases => "maintenance_leases"
  | telemetryBatches => "telemetry_batches"
  | metricLatest => "metric_latest"
  | metricRollups => "metric_rollups"
  | storageProbeSummaries => "storage_probe_summaries"
  | metricSamples => "metric_samples"
  | metricHighWater => "metric_high_water"
  | maintenanceStatus => "maintenance_status"
  | capacityStatus => "capacity_status"
  | ingestReceipts => "ingest_receipts"
  | containerInventory => "container_inventory"
  | inferenceUsageEvents => "inference_usage_events"
  | alertRules => "alert_rules"
  | alerts => "alerts"

/-- The raw telemetry and the receipts. -/
def raw : SchemaTable → Bool
  | telemetryBatches | metricSamples | ingestReceipts => true
  | _ => false

end SchemaTable

def schemaName : String := "nodescope"

def dumpArguments (mode : String) : List String :=
  if mode == modeFull then ["--schema=nodescope"]
  else
    ["--schema=nodescope",
      "--exclude-table-data=nodescope.raw_metric_samples",
      "--exclude-table-data=nodescope.ingest_receipts"]

/-- The arguments ask for the rows of the table. -/
def dumpsRows (arguments : List String) (t : SchemaTable) : Bool :=
  arguments.contains ("--schema=" ++ schemaName) &&
    !arguments.contains ("--exclude-table-data=" ++ schemaName ++ "." ++ t.name)

/-- The rows that are dumped, by table. -/
def pgDump {Row : SchemaTable → Type} (arguments : List String)
    (db : (t : SchemaTable) → List (Row t)) (t : SchemaTable) : Option (List (Row t)) :=
  if dumpsRows arguments t then some (db t) else none

end Model

/-- The arguments of the default mode leave out the receipts and nothing else. -/
theorem dumpsRows_default (t : SchemaTable) :
    dumpsRows (dumpArguments modeDefault) t = decide (t ≠ .ingestReceipts) := by
  cases t <;> decide

theorem dumpsRows_full (t : SchemaTable) : dumpsRows (dumpArguments modeFull) t = true := by
  cases t <;> decide

section DefaultMode

variable {Row : SchemaTable → Type} {db db' : (t : SchemaTable) → List (Row t)}

theorem pgDump_default (t : SchemaTable) (ht : t ≠ .ingestReceipts) :
    pgDump (dumpArguments modeDefault) db t = some (db t) := by
  rw [pgDump, dumpsRows_default, if_pos (decide_eq_true ht)]

/-- The default dumps of two databases that differ in raw telemetry and receipts only are the same
exactly if the batches and the samples are. -/
theorem defaultDump_eq_iff (h : ∀ t, t.raw = false → db t = db' t) :
    pgDump (dumpArguments modeDefault) db = pgDump (dumpArguments modeDefault) db' ↔
      db .telemetryBatches = db' .telemetryBatches ∧ db .metricSamples = db' .metricSamples := by
  constructor
  · intro hdump
    have hrows (t : SchemaTable) (ht : t ≠ .ingestReceipts) : db t = db' t := by
      have hsame := congrFun hdump t
      rw [pgDump_default t ht, pgDump_default t ht] at hsame
      exact Option.some.inj hsame
    exact ⟨hrows _ (by decide), hrows _ (by decide)⟩
  · rintro ⟨hbatches, hsamples⟩
    funext t
    by_cases ht : t = .ingestReceipts
    · subst ht
      rw [pgDump, pgDump, dumpsRows_default]
      rfl
    · rw [pgDump_default t ht, pgDump_default t ht]
      cases hraw : t.raw with
      | false => rw [h t hraw]
      | true =>
          cases t with
          | telemetryBatches => rw [hbatches]
          | metricSamples => rw [hsamples]
          | ingestReceipts => exact absurd rfl ht
          | _ => cases hraw

end DefaultMode

/-- A database with one row in each of the tables that a predicate selects, and none
elsewhere. -/
def rowsIn (selected : SchemaTable → Bool) (t : SchemaTable) : List Unit :=
  if selected t then [()] else []

theorem defaultDump_receipts :
    pgDump (dumpArguments modeDefault) (rowsIn fun t => t == .ingestReceipts) =
      pgDump (dumpArguments modeDefault) (rowsIn fun _ => false) :=
  (defaultDump_eq_iff (by intro t; cases t <;> decide)).mpr ⟨rfl, rfl⟩

/-- A raw batch is in the default dump. -/
theorem defaultDump_batch :
    (∀ t, t.raw = false →
        rowsIn (fun t => t == .telemetryBatches) t = rowsIn (fun _ => false) t) ∧
      pgDump (dumpArguments modeDefault) (rowsIn fun t => t == .telemetryBatches) ≠
        pgDump (dumpArguments modeDefault) (rowsIn fun _ => false) := by
  refine ⟨by intro t; cases t <;> decide, ?_⟩
  intro hdump
  have hbatches := congrFun hdump .telemetryBatches
  rw [pgDump_default _ (by decide), pgDump_default _ (by decide)] at hbatches
  exact absurd hbatches (by decide)

end NodeScope.Backup
