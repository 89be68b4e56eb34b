import NodeScope.Lib.Privileges

/-!
# The privileges of the migrations

The statements of the migrations on roles, tables, functions and privileges, in their order, and
the memberships that the first migration and the bootstrap scripts grant. The migrations create
their objects as `nodescope_owner`.

## Implementation notes

The schema has no sequences. The runtime's use of the enumeration types and the statements on other
privileges than those of commands are left out.
-/

namespace NodeScope.Access

open Lib.Privileges

/-- The roles and logins of the database. -/
inductive Role where
  | owner
  | runtime
  | migrator
  | enroller
  | verifier
  | storageAuditor
  | runtimeLogin
  | migrateLogin
  | verifierLogin
  | storageAuditorLogin
  | anon
  | authenticated
  | serviceRole
  | postgres
  | other (name : String)
deriving DecidableEq

/-- The tables of the schema `nodescope`; a later migration may add others. -/
inductive Table where
  | userRoles
  | hosts
  | hostCapabilities
  | agents
  | collectionSettings
  | hostCollectionOverrides
  | storageBaselines
  | runtimeCandidates
  | auditEvents
  | operations
  | schemaMigrations
  | maintenanceLeases
  | telemetryBatches
  | metricLatest
  | metricRollups
  | storageProbeSummaries
  | metricSamples
  | metricHighWater
  | maintenanceStatus
  | capacityStatus
  | ingestReceipts
  | containerInventory
  | inferenceUsageEvents
  | alertRules
  | alerts
  | other (name : String)
deriving DecidableEq

/-- The functions of the schema `nodescope`; a later migration may add others. -/
inductive Function where
  | touchUpdatedAt
  | createOperationWithAudit
  | rollupRecentSamples
  | refreshHighWaterMarks
  | pruneExpiredTelemetry
  | enrollOrRotateAgent
  | hostIngestionStatus
  | storageProbeEvidence
  | fleetIngestionStatus
  | mcpSetCollectionInterval
  | mcpAcknowledgeAlert
  | mcpRefreshStorageBaseline
  | acquireMaintenanceLease
  | leaseIsCurrent
  | other (name : String)
deriving DecidableEq

abbrev Statement := Ddl Role Table Function

abbrev Schema := Catalog Role Table Function

def toRoles (rs : List Role) : List (Grantee Role) := rs.map .role

/-- `public` and the generic roles of the shared project. -/
def generic : List (Grantee Role) := .everyone :: toRoles [.anon, .authenticated, .serviceRole]

/-- `select, insert, update, delete`. -/
def dml : List Command := [.select, .insert, .update, .delete]

/-- `enable row level security`, and a policy of the runtime for all commands and rows. -/
def runtimeAccess (ts : List Table) : List Statement :=
  ts.map .enableRowSecurity ++ ts.map fun t => .createPolicy t (toRoles [.runtime])

/-- A table of a later migration, with the policy and the grant of the runtime. -/
def runtimeTables (ts : List Table) : List Statement :=
  ts.map .createTable ++ runtimeAccess ts ++
    [.grantTables (.named ts) dml (toRoles [.runtime])]

/-- The tables of `0001`. -/
def foundationTables : List Table :=
  [.userRoles, .hosts, .hostCapabilities, .agents, .collectionSettings, .hostCollectionOverrides,
    .storageBaselines, .runtimeCandidates, .auditEvents, .operations]

/-- `0001_nodescope_foundation.sql`. -/
def nodescopeFoundation : List Statement :=
  [.revokeUsage generic, .grantUsage (toRoles [.runtime, .migrator])] ++
    foundationTables.map .createTable ++ [.createFunction .touchUpdatedAt] ++
    runtimeAccess foundationTables ++
    [.revokeTables .all generic,
      .grantTables .all dml (toRoles [.runtime]),
      .revokeDefaultTables generic,
      .defaultTables dml (toRoles [.runtime]),
      .defaultFunctions (toRoles [.runtime])]

/-- `0002_transactional_operations.sql`. -/
def transactionalOperations : List Statement :=
  [.createFunction .createOperationWithAudit,
    .revokeFunctions (.named [.createOperationWithAudit]) generic,
    .grantFunctions (.named [.createOperationWithAudit]) (toRoles [.runtime])]

/-- `0003_schema_migration_history.sql`. -/
def schemaMigrationHistory : List Statement := [.createTable .schemaMigrations]

/-- `0004_maintenance_leases.sql`. -/
def maintenanceLeases : List Statement := runtimeTables [.maintenanceLeases]

/-- `0005_protect_migration_history.sql`. -/
def protectMigrationHistory : List Statement :=
  [.enableRowSecurity .schemaMigrations,
    .revokeTables (.named [.schemaMigrations]) (toRoles [.runtime])]

/-- `0006_telemetry_storage.sql`. -/
def telemetryStorage : List Statement :=
  runtimeTables [.telemetryBatches, .metricLatest, .metricRollups, .storageProbeSummaries]

/-- `0007_metric_quality_alignment.sql`, which changes a constraint only. -/
def metricQualityAlignment : List Statement := []

/-- `0008_raw_metric_samples.sql`. -/
def rawMetricSamples : List Statement := runtimeTables [.metricSamples]

/-- `0009_maintenance_functions.sql`. -/
def maintenanceFunctions : List Statement :=
  runtimeTables [.metricHighWater, .maintenanceStatus] ++
    [.createFunction .rollupRecentSamples,
      .createFunction .refreshHighWaterMarks,
      .createFunction .pruneExpiredTelemetry,
      .revokeFunctions (.named [.rollupRecentSamples]) generic,
      .revokeFunctions (.named [.refreshHighWaterMarks]) generic,
      .revokeFunctions (.named [.pruneExpiredTelemetry]) generic,
      .grantFunctions
        (.named [.rollupRecentSamples, .refreshHighWaterMarks, .pruneExpiredTelemetry])
        (toRoles [.runtime])]

/-- `0010_fix_maintenance_function_variables.sql`, which keeps the privileges. -/
def fixMaintenanceFunctionVariables : List Statement :=
  [.createFunction .rollupRecentSamples, .createFunction .refreshHighWaterMarks]

/-- `0011_capacity_status.sql`. -/
def capacityStatus : List Statement := runtimeTables [.capacityStatus]

/-- `0012_ingest_receipts.sql`. -/
def ingestReceipts : List Statement := runtimeTables [.ingestReceipts]

/-- `0013_container_inventory.sql`. -/
def containerInventory : List Statement := runtimeTables [.containerInventory]

/-- A function that one role is to execute. -/
def functionFor (f : Function) (r : Role) : List Statement :=
  [.createFunction f, .revokeFunctions (.named [f]) [.everyone],
    .grantFunctions (.named [f]) (toRoles [r])]

/-- `0014_least_privilege_agent_operations.sql`. -/
def leastPrivilegeAgentOperations : List Statement :=
  .grantUsage (toRoles [.enroller, .verifier, .storageAuditor]) ::
    (functionFor .enrollOrRotateAgent .enroller ++
      functionFor .hostIngestionStatus .verifier ++
      functionFor .storageProbeEvidence .storageAuditor)

/-- `0015_terminal_fleet_status.sql`. -/
def terminalFleetStatus : List Statement := functionFor .fleetIngestionStatus .verifier

/-- `0016_inference_usage_events.sql`. -/
def inferenceUsageEvents : List Statement :=
  [.createTable .inferenceUsageEvents,
    .enableRowSecurity .inferenceUsageEvents,
    .revokeTables (.named [.inferenceUsageEvents]) (.everyone :: toRoles [.runtime]),
    .grantTables (.named [.inferenceUsageEvents]) [.insert] (toRoles [.runtime])]

def mcpFunctions : List Function :=
  [.mcpSetCollectionInterval, .mcpAcknowledgeAlert, .mcpRefreshStorageBaseline]

/-- `0017_mcp_control_plane.sql`. -/
def mcpControlPlane : List Statement :=
  runtimeTables [.alertRules, .alerts] ++ mcpFunctions.map .createFunction ++
    [.revokeFunctions (.named mcpFunctions) [.everyone],
      .grantFunctions (.named mcpFunctions) (toRoles [.runtime])]

def leaseFunctions : List Function := [.acquireMaintenanceLease, .leaseIsCurrent]

/-- `0018_fenced_backup_leases.sql`. -/
def fencedBackupLeases : List Statement :=
  leaseFunctions.map .createFunction ++
    [.revokeFunctions (.named leaseFunctions) [.everyone],
      .grantFunctions (.named leaseFunctions) (toRoles [.runtime])]

def auditors : List (Grantee Role) := toRoles [.verifier, .storageAuditor]

/-- `0019_operational_auditor_privilege_boundary.sql`. -/
def operationalAuditorPrivilegeBoundary : List Statement :=
  [.revokeTables .all auditors,
    .revokeFunctions .all auditors,
    .grantUsage auditors,
    .grantFunctions (.named [.hostIngestionStatus]) (toRoles [.verifier]),
    .grantFunctions (.named [.fleetIngestionStatus]) (toRoles [.verifier]),
    .grantFunctions (.named [.storageProbeEvidence]) (toRoles [.storageAuditor]),
    .revokeDefaultTables auditors,
    .revokeDefaultFunctions auditors]

/-- The schema as the first migration creates it. -/
def created : Schema := ⟨.owner, [], [], [], [], []⟩

def migrations : List (List Statement) :=
  [nodescopeFoundation, transactionalOperations, schemaMigrationHistory, maintenanceLeases,
    protectMigrationHistory, telemetryStorage, metricQualityAlignment, rawMetricSamples,
    maintenanceFunctions, fixMaintenanceFunctionVariables, capacityStatus, ingestReceipts,
    containerInventory, leastPrivilegeAgentOperations, terminalFleetStatus, inferenceUsageEvents,
    mcpControlPlane, fencedBackupLeases, operationalAuditorPrivilegeBoundary]

def migrated : Schema := created.execAll migrations.flatten

/-- What the first migration, `create_login_roles.sql` and `create_operational_login_roles.sql`
grant to roles. -/
def roles : Roles Role where
  memberships := [(.postgres, .owner), (.postgres, .migrator), (.runtimeLogin, .runtime),
    (.migrateLogin, .migrator), (.migrateLogin, .owner), (.verifierLogin, .verifier),
    (.storageAuditorLogin, .storageAuditor)]
  inherits r :=
    match r with
    | .owner | .runtime | .migrator | .enroller | .verifier | .storageAuditor => false
    | .runtimeLogin | .migrateLogin => false
    | _ => true
  bypassesRowSecurity r :=
    match r with
    | .serviceRole | .postgres => true
    | _ => false

section Entries

/-- The tables of the migrations, in the order in which they are created. -/
def tables : List Table :=
  foundationTables ++ [.schemaMigrations, .maintenanceLeases, .telemetryBatches, .metricLatest,
    .metricRollups, .storageProbeSummaries, .metricSamples, .metricHighWater, .maintenanceStatus,
    .capacityStatus, .ingestReceipts, .containerInventory, .inferenceUsageEvents, .alertRules,
    .alerts]

def tableEntry (t : Table) : TableEntry Role Table where
  name := t
  owner := .owner
  grants :=
    match t with
    | .schemaMigrations => []
    | .inferenceUsageEvents => [(.role .runtime, .insert)]
    | _ => grants dml (toRoles [.runtime])
  rowSecurity := true
  policies :=
    match t with
    | .schemaMigrations | .inferenceUsageEvents => []
    | _ => toRoles [.runtime]

/-- What the migrations make of the tables. -/
theorem migrated_tables : migrated.tables = tables.map tableEntry := by decide +kernel

/-- The functions of the migrations, each with the role besides the runtime that it is for. -/
def functions : List (Function × List (Grantee Role)) :=
  [(.touchUpdatedAt, [.everyone]),
    (.createOperationWithAudit, [.role .runtime]),
    (.rollupRecentSamples, [.role .runtime]),
    (.refreshHighWaterMarks, [.role .runtime]),
    (.pruneExpiredTelemetry, [.role .runtime]),
    (.enrollOrRotateAgent, [.role .runtime, .role .enroller]),
    (.hostIngestionStatus, [.role .runtime, .role .verifier]),
    (.storageProbeEvidence, [.role .runtime, .role .storageAuditor]),
    (.fleetIngestionStatus, [.role .runtime, .role .verifier]),
    (.mcpSetCollectionInterval, [.role .runtime]),
    (.mcpAcknowledgeAlert, [.role .runtime]),
    (.mcpRefreshStorageBaseline, [.role .runtime]),
    (.acquireMaintenanceLease, [.role .runtime]),
    (.leaseIsCurrent, [.role .runtime])]

theorem migrated_functions :
    migrated.functions = functions.map fun f => ⟨f.1, .owner, f.2⟩ := by decide +kernel

theorem migrated_usage :
    migrated.usage = toRoles [.runtime, .migrator, .enroller, .verifier, .storageAuditor] := by
  decide +kernel

theorem migrated_defaults : migrated.tableDefaults = grants dml (toRoles [.runtime]) ∧
    migrated.functionDefaults = toRoles [.runtime] := by decide +kernel

end Entries

end NodeScope.Access
