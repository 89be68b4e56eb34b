import NodeScope.Access.Boundary
import NodeScope.Control.ControlPlane
import NodeScope.Credentials.Enrollment
import NodeScope.Storage.HighWater
import NodeScope.Telemetry.Retention

/-!
# What the functions leave as it is

The effects of the functions are held against the functions themselves: a table that a call changes
is one that the function's effects touch. Each group of functions has its own part of the database,
and of two states of a part it is said which tables they have in common. The lease functions are not
here: their part is the table of leases alone.
-/

namespace NodeScope.Access

open Storage Telemetry Control Lib Lib.Check Lib.Privileges

section Parts

/-- Both states have the table. -/
def keepsDb (before after : Db) : Table → Prop
  | .hosts => after.hosts = before.hosts
  | .agents => after.agents = before.agents
  | .telemetryBatches => after.telemetryBatches = before.telemetryBatches
  | .metricSamples => after.metricSamples = before.metricSamples
  | .metricLatest => after.metricLatest = before.metricLatest
  | .ingestReceipts => after.ingestReceipts = before.ingestReceipts
  | .containerInventory => after.containerInventory = before.containerInventory
  | .capacityStatus => after.capacityStatus = before.capacityStatus
  | .auditEvents => after.auditEvents = before.auditEvents
  | _ => True

def keepsRetained (before after : RetainedState) : Table → Prop
  | .metricRollups => after.rollups = before.rollups
  | .storageProbeSummaries => after.probeSummaries = before.probeSummaries
  | .maintenanceStatus => after.retention = before.retention
  | t => keepsDb before.db after.db t

def keepsRollups (before after : RollupState) : Table → Prop
  | .metricSamples => after.metricSamples = before.metricSamples
  | .metricRollups => after.rollups = before.rollups
  | .maintenanceStatus => after.status = before.status
  | _ => True

def keepsHighWater (before after : HighWaterState) : Table → Prop
  | .metricSamples => after.metricSamples = before.metricSamples
  | .metricHighWater => after.marks = before.marks
  | .maintenanceStatus => after.status = before.status
  | _ => True

def keepsOperations (before after : OperationsDb) : Table → Prop
  | .hosts => after.hosts = before.hosts
  | .auditEvents => after.auditEvents = before.auditEvents
  | .operations => after.operations = before.operations
  | _ => True

def keepsControl (before after : ControlTables) : Table → Prop
  | .collectionSettings =>
      after.settings.globalIntervalSeconds = before.settings.globalIntervalSeconds
  | .hostCollectionOverrides => after.settings.overrides = before.settings.overrides
  | .alerts => after.alerts = before.alerts
  | t => keepsOperations before.operations after.operations t

/-- What a call of the function does not keep, its effects touch. -/
def Frames (later : String → List (Table × Command)) (f : Function) (keeps : Table → Prop) : Prop :=
  ∀ t, ¬ keeps t → ∃ write ∈ (effects later).writes f, (effects later).Touches write t

end Parts

section Frames

variable {later : String → List (Table × Command)} {f : Function} {keeps : Table → Prop} {t : Table}

theorem touches_insert (h : (t, Command.insert) ∈ (effects later).writes f) :
    ∃ write ∈ (effects later).writes f, (effects later).Touches write t :=
  ⟨(t, .insert), h, rfl⟩

theorem touches_update (h : (t, Command.update) ∈ (effects later).writes f) :
    ∃ write ∈ (effects later).writes f, (effects later).Touches write t :=
  ⟨(t, .update), h, rfl⟩

theorem touches_delete (h : (t, Command.delete) ∈ (effects later).writes f) :
    ∃ write ∈ (effects later).writes f, (effects later).Touches write t :=
  ⟨(t, .delete), h, Relation.ReflTransGen.refl⟩

theorem enrollOrRotateAgent_frames {db db' : Db} {r : Credentials.EnrollCall}
    {result : Credentials.EnrollResult}
    (h : Credentials.enrollOrRotateAgent db r = .ok (result, db')) :
    Frames later .enrollOrRotateAgent (keepsDb db db') := by
  simp only [Credentials.enrollOrRotateAgent, unit_bind_eq_ok] at h
  obtain ⟨-, -, -, -, -, -, h⟩ := h
  obtain ⟨⟨hostId, hosts⟩, -, h⟩ := bind_eq_ok.mp h
  obtain ⟨⟨agent, agents⟩, -, h⟩ := bind_eq_ok.mp h
  obtain ⟨-, rfl⟩ := Prod.mk.inj (Except.ok.inj h)
  intro t ht
  cases t with
  | hosts => exact touches_insert (by simp [effects])
  | agents => exact touches_insert (by simp [effects])
  | auditEvents => exact touches_insert (by simp [effects])
  | _ => first | exact absurd rfl ht | exact absurd trivial ht

theorem pruneExpiredTelemetry_frames (now : Int) (s : RetainedState) :
    Frames later .pruneExpiredTelemetry (keepsRetained s (pruneExpiredTelemetry now s)) := by
  intro t ht
  cases t with
  | telemetryBatches => exact touches_delete (by simp [effects])
  | metricSamples =>
      -- The samples go with their batches.
      exact ⟨(.telemetryBatches, .delete), by simp [effects],
        Relation.ReflTransGen.single (by simp [effects])⟩
  | metricRollups => exact touches_delete (by simp [effects])
  | storageProbeSummaries => exact touches_delete (by simp [effects])
  | maintenanceStatus => exact touches_update (by simp [effects])
  | _ => first | exact absurd rfl ht | exact absurd trivial ht

theorem rollupRecentSamples_frames {now : Int} {s s' : RollupState}
    (h : rollupStep s (.execute now) = some s') :
    Frames later .rollupRecentSamples (keepsRollups s s') := by
  rw [rollupStep] at h
  split at h
  · obtain rfl := Option.some.inj h
    intro t ht
    cases t with
    | metricSamples => exact absurd (List.append_nil _) ht
    | metricRollups => exact touches_insert (by simp [effects])
    | maintenanceStatus => exact touches_update (by simp [effects])
    | _ => exact absurd trivial ht
  · cases h

theorem refreshHighWaterMarks_frames {now : Int} {s s' : HighWaterState}
    (h : highWaterStep s (.execute now) = some s') :
    Frames later .refreshHighWaterMarks (keepsHighWater s s') := by
  obtain rfl := Option.some.inj h
  intro t ht
  cases t with
  | metricHighWater => exact touches_insert (by simp [effects])
  | maintenanceStatus => exact touches_update (by simp [effects])
  | _ => first | exact absurd rfl ht | exact absurd trivial ht

theorem insertAuditEvent_keeps {db db' : OperationsDb} {id : Uuid} {call : OperationCall}
    (h : insertAuditEvent db id call = .ok db') :
    db'.hosts = db.hosts ∧ db'.operations = db.operations := by
  obtain ⟨outcome, -, h⟩ := bind_eq_ok.mp h
  obtain ⟨actorId, -, h⟩ := bind_eq_ok.mp h
  obtain ⟨targetType, -, h⟩ := bind_eq_ok.mp h
  simp only [unit_bind_eq_ok] at h
  obtain ⟨-, -, h⟩ := h
  obtain rfl := Except.ok.inj h
  exact ⟨rfl, rfl⟩

theorem insertOperation_keeps {db db' : OperationsDb} {ids : FreshIds} {call : OperationCall}
    (h : insertOperation db ids call = .ok db') : db'.hosts = db.hosts := by
  obtain ⟨state, -, h⟩ := bind_eq_ok.mp h
  simp only [unit_bind_eq_ok] at h
  obtain ⟨-, -, -, -, -, h⟩ := h
  obtain rfl := Except.ok.inj h
  rfl

theorem createOperationWithAudit_keeps {db db' : OperationsDb} {ids created : FreshIds}
    {call : OperationCall} (h : createOperationWithAudit db ids call = .ok (created, db')) :
    db'.hosts = db.hosts := by
  simp only [createOperationWithAudit, unit_bind_eq_ok] at h
  obtain ⟨-, -, -, h⟩ := h
  obtain ⟨audited, haudited, h⟩ := bind_eq_ok.mp h
  obtain ⟨after, hafter, h⟩ := bind_eq_ok.mp h
  obtain ⟨-, rfl⟩ := Prod.mk.inj (Except.ok.inj h)
  exact (insertOperation_keeps hafter).trans (insertAuditEvent_keeps haudited).1

/-- The two functions that insert an event and an operation. -/
theorem frames_of_hosts {db db' : OperationsDb}
    (hf : f = .createOperationWithAudit ∨ f = .mcpRefreshStorageBaseline)
    (h : db'.hosts = db.hosts) : Frames later f (keepsOperations db db') := by
  intro t ht
  cases t with
  | hosts => exact absurd h ht
  | auditEvents => exact touches_insert (by obtain rfl | rfl := hf <;> simp [effects])
  | operations => exact touches_insert (by obtain rfl | rfl := hf <;> simp [effects])
  | _ => exact absurd trivial ht

theorem createOperationWithAudit_frames {db db' : OperationsDb} {ids created : FreshIds}
    {call : OperationCall} (h : createOperationWithAudit db ids call = .ok (created, db')) :
    Frames later .createOperationWithAudit (keepsOperations db db') :=
  frames_of_hosts (Or.inl rfl) (createOperationWithAudit_keeps h)

theorem mcpRefreshStorageBaseline_frames {db db' : OperationsDb} {ids : FreshIds}
    {actorId hostSlug : String} {operation : Uuid}
    (h : mcpRefreshStorageBaseline db ids actorId hostSlug = .ok (operation, db')) :
    Frames later .mcpRefreshStorageBaseline (keepsOperations db db') := by
  obtain ⟨host, -, h⟩ := bind_eq_ok.mp h
  obtain ⟨⟨created, after⟩, hcreated, h⟩ := bind_eq_ok.mp h
  obtain ⟨-, rfl⟩ := Prod.mk.inj (Except.ok.inj h)
  exact frames_of_hosts (Or.inr rfl) (createOperationWithAudit_keeps hcreated)

theorem mcpSetCollectionInterval_frames {t t' : ControlTables} {id : Uuid} {actorId : String}
    {hostSlug : Option String} {intervalSeconds : Int}
    (h : t.mcpSetCollectionInterval id actorId hostSlug intervalSeconds = .ok t') :
    Frames later .mcpSetCollectionInterval (keepsControl t t') := by
  simp only [ControlTables.mcpSetCollectionInterval, unit_bind_eq_ok] at h
  obtain ⟨-, h⟩ := h
  obtain ⟨hostId, -, h⟩ := bind_eq_ok.mp h
  obtain ⟨-, -, rfl⟩ := insertEvent_eq_ok h
  intro table ht
  cases table with
  | collectionSettings => exact touches_update (by simp [effects])
  | hostCollectionOverrides => exact touches_insert (by simp [effects])
  | auditEvents => exact touches_insert (by simp [effects])
  | _ =>
      cases hostId <;> first | exact absurd rfl ht | exact absurd trivial ht

theorem mcpAcknowledgeAlert_frames {t t' : ControlTables} {m : Moment}
    {actorId alertId note : String} (h : t.mcpAcknowledgeAlert m actorId alertId note = .ok t') :
    Frames later .mcpAcknowledgeAlert (keepsControl t t') := by
  simp only [ControlTables.mcpAcknowledgeAlert, unit_bind_eq_ok] at h
  obtain ⟨-, -, h⟩ := h
  obtain ⟨-, -, rfl⟩ := insertEvent_eq_ok h
  intro table ht
  cases table with
  | alerts => exact touches_update (by simp [effects])
  | auditEvents => exact touches_insert (by simp [effects])
  | _ => first | exact absurd rfl ht | exact absurd trivial ht

/-- A call of one of the functions that succeeds, with the tables that it keeps. -/
inductive Called : Function → (Table → Prop) → Prop where
  | enrollOrRotateAgent {db db' : Db} {r : Credentials.EnrollCall}
      {result : Credentials.EnrollResult}
      (h : Credentials.enrollOrRotateAgent db r = .ok (result, db')) :
      Called .enrollOrRotateAgent (keepsDb db db')
  | pruneExpiredTelemetry (now : Int) (s : RetainedState) :
      Called .pruneExpiredTelemetry (keepsRetained s (pruneExpiredTelemetry now s))
  | rollupRecentSamples {now : Int} {s s' : RollupState}
      (h : rollupStep s (.execute now) = some s') : Called .rollupRecentSamples (keepsRollups s s')
  | refreshHighWaterMarks {now : Int} {s s' : HighWaterState}
      (h : highWaterStep s (.execute now) = some s') :
      Called .refreshHighWaterMarks (keepsHighWater s s')
  | createOperationWithAudit {db db' : OperationsDb} {ids created : FreshIds} {call : OperationCall}
      (h : createOperationWithAudit db ids call = .ok (created, db')) :
      Called .createOperationWithAudit (keepsOperations db db')
  | mcpRefreshStorageBaseline {db db' : OperationsDb} {ids : FreshIds} {actorId hostSlug : String}
      {operation : Uuid}
      (h : mcpRefreshStorageBaseline db ids actorId hostSlug = .ok (operation, db')) :
      Called .mcpRefreshStorageBaseline (keepsOperations db db')
  | mcpSetCollectionInterval {t t' : ControlTables} {id : Uuid} {actorId : String}
      {hostSlug : Option String} {intervalSeconds : Int}
      (h : t.mcpSetCollectionInterval id actorId hostSlug intervalSeconds = .ok t') :
      Called .mcpSetCollectionInterval (keepsControl t t')
  | mcpAcknowledgeAlert {t t' : ControlTables} {m : Moment} {actorId alertId note : String}
      (h : t.mcpAcknowledgeAlert m actorId alertId note = .ok t') :
      Called .mcpAcknowledgeAlert (keepsControl t t')

/-- The effects of the functions are what the functions do: a call changes only tables that they
touch. -/
theorem Called.frames (h : Called f keeps) (later : String → List (Table × Command)) :
    Frames later f keeps := by
  cases h with
  | enrollOrRotateAgent h => exact enrollOrRotateAgent_frames h
  | pruneExpiredTelemetry now s => exact pruneExpiredTelemetry_frames now s
  | rollupRecentSamples h => exact rollupRecentSamples_frames h
  | refreshHighWaterMarks h => exact refreshHighWaterMarks_frames h
  | createOperationWithAudit h => exact createOperationWithAudit_frames h
  | mcpRefreshStorageBaseline h => exact mcpRefreshStorageBaseline_frames h
  | mcpSetCollectionInterval h => exact mcpSetCollectionInterval_frames h
  | mcpAcknowledgeAlert h => exact mcpAcknowledgeAlert_frames h

/-- What a call changes is a table of the runtime, whoever may execute the function. -/
theorem Called.owned (h : Called f keeps) (ht : ¬ keeps t) : Owned t := by
  have hlisted : ∃ access, (f, access) ∈ functions := by
    cases h <;> simp [functions]
  obtain ⟨access, hlisted⟩ := hlisted
  obtain ⟨write, hwrite, htouch⟩ := h.frames (fun _ => []) t ht
  have howned := (writes_owned (within_effects _) hlisted hwrite).1
  obtain rfl | ht := touches_owned htouch
  · exact howned
  · exact ht

/-- What a call of the enroller's function changes is a table that the enroller may change. -/
theorem Called.enrolled (h : Called .enrollOrRotateAgent keeps) (ht : ¬ keeps t) :
    Enrolled (effects later) t := by
  obtain ⟨write, hwrite, htouch⟩ := h.frames later t ht
  have hcommand : write.2 ≠ .delete := by
    simp only [effects, List.mem_cons, List.not_mem_nil, or_false] at hwrite
    obtain rfl | rfl | rfl | rfl | rfl := hwrite <;> decide
  obtain rfl := touches_eq htouch hcommand
  exact ⟨write.2, touches_ne_select htouch, hwrite⟩

end Frames

end NodeScope.Access
