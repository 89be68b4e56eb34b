import NodeScope.Lib.Table
import NodeScope.Lib.Uuid
import NodeScope.Telemetry.Envelope

/-!
# The database tables

The rows of the `nodescope` schema that ingestion and enrollment read and write,
with the column types, checks, keys and references the migrations leave on
them. A check is listed under the name the database gives it. A timestamp column
holds microseconds, and the columns no modelled statement reads or sets are left
out.

## Implementation notes

The surrogate key of `telemetry_batches` is a random `uuid` that only relates
samples to their batch. The idempotency key, which is unique in that table,
stands for it. The `payload` column is the JSON form of the envelope, for which
the envelope itself stands. The checks are those of the declared constraints;
physical limits of the database, such as the size of an index entry, are not
part of the schema.
-/

namespace NodeScope.Storage

open Domain Telemetry Lib Lib.Check Lib.Text Lib.Time

/-- How the database answers a statement that does not succeed. -/
inductive PgError where
  | connection
  | nulByte
  | invalidUuid (text : String)
  | outOfRange (column : String)
  | notNull (column : String)
  | check (constraint : String)
  | unique (constraint : String)
  | foreignKey (constraint : String)
deriving DecidableEq

structure HostRow where
  id : Uuid
  slug : String
  displayName : String
  platform : String
  address : Option String
deriving DecidableEq

structure AgentRow where
  id : Uuid
  hostId : Uuid
  displayName : String
  credentialDigest : List UInt8
  credentialHint : String
  credentialRotatedAt : Int
  credentialExpiresAt : Option Int
  rotationVersion : Int
  revokedAt : Option Int
deriving DecidableEq

structure BatchRow where
  idempotencyKey : String
  agentId : String
  hostId : Uuid
  bootId : String
  sequence : Nat
  observedAt : Int
  receivedAt : Int
  expiresAt : Int
  compressedBytes : Nat
  metricValueCount : Nat
  payload : Envelope
deriving DecidableEq

structure SampleRow where
  batchKey : String
  hostId : Uuid
  deviceId : String
  metricName : String
  observedAt : Int
  numericValue : Option Float64
  quality : MetricQuality
  source : String
  semantics : String
  expiresAt : Int
deriving DecidableEq

structure LatestRow where
  hostId : Uuid
  deviceId : String
  metricName : String
  observedAt : Int
  receivedAt : Int
  numericValue : Option Float64
  textValue : Option String
  quality : MetricQuality
  source : String
  semantics : String
deriving DecidableEq

structure ReceiptRow where
  idempotencyKey : String
  agentId : String
  hostId : Uuid
  receivedAt : Int
  expiresAt : Int
  rawRetained : Bool
deriving DecidableEq

structure ContainerRow where
  hostId : Uuid
  containerId : String
  name : String
  image : String
  state : String
  health : String
  selectedForAlerting : Bool
  observedAt : Int
  updatedAt : Int
deriving DecidableEq

inductive ActorType where
  | user
  | client
  | agent
  | system
deriving DecidableEq

inductive OperationState where
  | pending
  | acknowledged
  | completed
  | failed
  | denied
deriving DecidableEq

/-- A member of the `metadata` object of an audit event. -/
inductive JsonScalar where
  | text (value : String)
  | number (value : Int)
deriving DecidableEq

structure AuditRow where
  actorType : ActorType
  actorId : String
  action : String
  targetType : String
  targetId : Option String
  outcome : OperationState
  metadata : List (String × JsonScalar)
deriving DecidableEq

/-- The primary key of `metric_samples`. -/
def SampleRow.key (r : SampleRow) : String × String × String :=
  (r.batchKey, r.deviceId, r.metricName)

/-- The primary key of `metric_latest`. -/
def LatestRow.key (r : LatestRow) : Uuid × String × String :=
  (r.hostId, r.deviceId, r.metricName)

/-- The primary key of `container_inventory`. -/
def ContainerRow.key (r : ContainerRow) : Uuid × String :=
  (r.hostId, r.containerId)

/-- The row without the database's receipt time. -/
def LatestRow.unstamped (r : LatestRow) : LatestRow := { r with receivedAt := 0 }

/-- The row without the database's update time. -/
def ContainerRow.unstamped (r : ContainerRow) : ContainerRow := { r with updatedAt := 0 }

/-- The tables. The singleton row of `capacity_status` is the value of its column
`accept_raw_batches`, when there is such a row. -/
structure Db where
  hosts : List HostRow
  agents : List AgentRow
  telemetryBatches : List BatchRow
  metricSamples : List SampleRow
  metricLatest : List LatestRow
  ingestReceipts : List ReceiptRow
  containerInventory : List ContainerRow
  capacityStatus : Option Bool
  auditEvents : List AuditRow
deriving DecidableEq

def Db.empty : Db := ⟨[], [], [], [], [], [], [], none, []⟩

/-- One row written by a statement. The first three are insertions; the other two
replace the row with the same key when there is one. -/
inductive Put where
  | batch (row : BatchRow)
  | sample (row : SampleRow)
  | receipt (row : ReceiptRow)
  | latest (row : LatestRow)
  | container (row : ContainerRow)
deriving DecidableEq

def Db.put (db : Db) : Put → Db
  | .batch row => { db with telemetryBatches := db.telemetryBatches ++ [row] }
  | .sample row => { db with metricSamples := db.metricSamples ++ [row] }
  | .receipt row => { db with ingestReceipts := db.ingestReceipts ++ [row] }
  | .latest row => { db with metricLatest := Table.put LatestRow.key row db.metricLatest }
  | .container row =>
      { db with containerInventory := Table.put ContainerRow.key row db.containerInventory }

def Db.puts (db : Db) (ps : List Put) : Db := ps.foldl Db.put db

/-- The parts of the database that a written row never changes. -/
@[simp] theorem Db.put_hosts (db : Db) (p : Put) : (db.put p).hosts = db.hosts := by
  cases p <;> rfl

@[simp] theorem Db.put_agents (db : Db) (p : Put) : (db.put p).agents = db.agents := by
  cases p <;> rfl

@[simp] theorem Db.put_capacityStatus (db : Db) (p : Put) :
    (db.put p).capacityStatus = db.capacityStatus := by
  cases p <;> rfl

/-- `length(trim(column)) > 0`. -/
def filled (s : String) : Bool := 0 < sqlLength (sqlTrim s)

/-- The check on both idempotency key columns. -/
def keyLengthBounded (s : String) : Bool :=
  8 ≤ sqlLength (sqlTrim s) && sqlLength (sqlTrim s) ≤ 256

/-- The qualities both sample tables accept after the alignment migration. -/
def storedQuality (q : MetricQuality) : Bool :=
  q == .fresh || q == .stale || q == .unavailable || q == .unsupported || q == .estimated

def BatchRow.checks (r : BatchRow) : List (String × Bool) :=
  [("telemetry_batches_agent_id_check", filled r.agentId),
    ("telemetry_batches_boot_id_check", filled r.bootId),
    ("telemetry_batches_check", r.receivedAt < r.expiresAt),
    ("telemetry_batches_compressed_bytes_check", 0 < r.compressedBytes),
    ("telemetry_batches_idempotency_key_check", keyLengthBounded r.idempotencyKey),
    ("telemetry_batches_metric_value_count_check",
      1 ≤ r.metricValueCount && r.metricValueCount ≤ 4096),
    ("telemetry_batches_sequence_check", 0 ≤ r.sequence)]

def SampleRow.checks (r : SampleRow) : List (String × Bool) :=
  [("metric_samples_check",
      r.numericValue.isSome || r.quality == .unavailable || r.quality == .unsupported),
    ("metric_samples_check1", r.observedAt < r.expiresAt),
    ("metric_samples_device_id_check", filled r.deviceId),
    ("metric_samples_metric_name_check", filled r.metricName),
    ("metric_samples_quality_check", storedQuality r.quality),
    ("metric_samples_semantics_check", filled r.semantics),
    ("metric_samples_source_check", filled r.source)]

/-- The text `invalid`, which the table's last check still lists, is no quality of
the program. -/
def LatestRow.checks (r : LatestRow) : List (String × Bool) :=
  [("metric_latest_check", r.numericValue.isSome || r.textValue.isSome ||
      r.quality == .unavailable || r.quality == .unsupported ||
      r.quality == .unknown "invalid" (by decide)),
    ("metric_latest_device_id_check", filled r.deviceId),
    ("metric_latest_metric_name_check", filled r.metricName),
    ("metric_latest_quality_check", storedQuality r.quality),
    ("metric_latest_semantics_check", filled r.semantics),
    ("metric_latest_source_check", filled r.source)]

def ReceiptRow.checks (r : ReceiptRow) : List (String × Bool) :=
  [("ingest_receipts_agent_id_check", filled r.agentId),
    ("ingest_receipts_check", r.receivedAt < r.expiresAt),
    ("ingest_receipts_idempotency_key_check", keyLengthBounded r.idempotencyKey)]

def ContainerRow.checks (r : ContainerRow) : List (String × Bool) :=
  [("container_inventory_container_id_check", filled r.containerId),
    ("container_inventory_health_check", filled r.health),
    ("container_inventory_image_check", filled r.image),
    ("container_inventory_name_check", filled r.name),
    ("container_inventory_state_check", filled r.state)]

def checkAll (checks : List (String × Bool)) : Except PgError Unit :=
  forAll (fun c => failIf (!c.2) (.check c.1)) checks

@[simp] theorem checkAll_eq_ok {checks : List (String × Bool)} {u : Unit} :
    checkAll checks = .ok u ↔ ∀ c ∈ checks, c.2 = true := by
  simp [checkAll]

def hasNul (s : String) : Bool := s.toList.contains '\x00'

/-- The database takes no text with a NUL character. -/
def checkTexts (texts : List String) : Except PgError Unit :=
  forAll (fun s => failIf (hasNul s) .nulByte) texts

@[simp] theorem checkTexts_eq_ok {texts : List String} {u : Unit} :
    checkTexts texts = .ok u ↔ ∀ s ∈ texts, hasNul s = false := by
  simp [checkTexts]

/-- Timestamps outside the range of their type are refused. -/
def checkTimes (times : List (String × Int)) : Except PgError Unit :=
  forAll (fun t => failIf (!storable t.2) (.outOfRange t.1)) times

@[simp] theorem checkTimes_eq_ok {times : List (String × Int)} {u : Unit} :
    checkTimes times = .ok u ↔ ∀ t ∈ times, storable t.2 = true := by
  simp [checkTimes]

/-- A parameter cast with `::uuid`. -/
def castUuid (text : String) : Except PgError Uuid :=
  match Uuid.parse text with
  | some id => .ok id
  | none => .error (.invalidUuid text)

theorem castUuid_toText (u : Uuid) : castUuid u.toText = .ok u := by
  rw [castUuid, Uuid.parse_toText]

theorem castUuid_bind_eq_ok {β : Type} {text : String} {f : Uuid → Except PgError β} {b : β} :
    (castUuid text >>= f) = .ok b ↔ ∃ id, castUuid text = .ok id ∧ f id = .ok b :=
  bind_eq_ok

/-- A reference to `hosts(id)`. -/
def checkHost (db : Db) (constraint : String) (hostId : Uuid) : Except PgError Unit :=
  failIf (!db.hosts.any fun h => h.id == hostId) (.foreignKey constraint)

@[simp] theorem checkHost_eq_ok {db : Db} {constraint : String} {hostId : Uuid} {u : Unit} :
    checkHost db constraint hostId = .ok u ↔ ∃ h ∈ db.hosts, h.id = hostId := by
  simp [checkHost]

end NodeScope.Storage
