import NodeScope.Lib.Sha256
import NodeScope.Storage.Schema

/-!
# The telemetry store

`authenticateAgent` looks a credential up, and `persistEnvelope` writes an envelope
in one transaction: it takes the lock on the idempotency key, looks for the key in
the raw and in the compact table, reads the capacity state, and then runs a fixed
sequence of writes. The sequence is data (`Write`), so that a transaction running
next to others can be stopped between any two of its statements; `Write.exec` is
the meaning of one statement in the database the transaction sees.

## Implementation notes

`fails` says at which points the connection to the database is lost. With
`healthy` it never is, and the errors that remain are the database's answers to
the rows themselves. A commit that fails is taken not to have happened here; the
protocol over many transactions separates the commit from its acknowledgement.
-/

namespace NodeScope.Telemetry

open Domain Storage Lib Lib.Check Lib.Text Lib.Time

structure AgentIdentity where
  agentID : String
  hostID : String
deriving DecidableEq

structure PersistResult where
  inserted : Bool
  rawRetained : Bool
deriving DecidableEq

/-- A point at which the store talks to the database. -/
inductive StorePoint where
  | lookup
  | begin
  | lock
  | idempotency
  | capacity
  | write (index : Nat)
  | commit
deriving DecidableEq

def healthy : StorePoint → Bool := fun _ => false

inductive AuthError where
  | tokenRequired
  | unknownOrRevoked
  | lookup (cause : PgError)
deriving DecidableEq

/-- The errors of `PersistEnvelope`. -/
inductive PersistError where
  | identityIncomplete
  | identityMismatch
  | invalid (error : EnvelopeError)
  | begin (cause : PgError)
  | lock (cause : PgError)
  | idempotency (cause : PgError)
  | capacity (cause : PgError)
  | encodePayload
  | insertBatch (cause : PgError)
  | insertReceipt (cause : PgError)
  | insertSample (metricName : String) (cause : PgError)
  | upsertContainer (cause : PgError)
  | upsertLatest (metricName : String) (cause : PgError)
  | commit (cause : PgError)
deriving DecidableEq

/-- The row an accepted bearer token belongs to. The expiry column is not part of
the condition. -/
def credentialRow (db : Db) (bearerToken : List UInt8) : Option AgentRow :=
  db.agents.find? fun a =>
    a.credentialDigest == (Sha256.sha256 bearerToken).toList && a.revokedAt.isNone

def authenticateAgent (fails : StorePoint → Bool) (db : Db) (bearerToken : List UInt8) :
    Except AuthError AgentIdentity := do
  failIf (bearerToken == []) .tokenRequired
  failIf (fails .lookup) (.lookup .connection)
  match credentialRow db bearerToken with
  | some row => .ok ⟨row.id.toText, row.hostId.toText⟩
  | none => .error .unknownOrRevoked

/-- Raw batches and receipts expire two days after their receipt. -/
def rawRetention : Int := seconds (48 * 3600)

/-- `rawRetentionAllowed`: the capacity record must exist and grant raw retention. -/
def rawRetentionAllowed (statusPresent acceptRaw : Bool) : Bool :=
  statusPresent && acceptRaw

def acceptRawBatches (db : Db) : Bool :=
  match db.capacityStatus with
  | none => rawRetentionAllowed false false
  | some acceptRaw => rawRetentionAllowed true acceptRaw

def latestQualityRank : MetricQuality → Nat
  | .fresh => 6
  | .stale => 5
  | .experimental => 4
  | .estimated => 3
  | .unavailable => 2
  | .unsupported => 1
  | .unknown _ _ => 0

def shouldReplaceLatest (existingAt : Int) (existingQuality incomingQuality : MetricQuality)
    (incomingAt : Int) : Bool :=
  if existingAt < incomingAt then true
  else if incomingAt < existingAt then false
  else latestQualityRank existingQuality < latestQualityRank incomingQuality

/-- The `case` expression of the upsert statement. -/
def sqlQualityRank : MetricQuality → Nat
  | .fresh => 6
  | .stale => 5
  | .experimental => 4
  | .estimated => 3
  | .unavailable => 2
  | .unsupported => 1
  | .unknown _ _ => 0

/-- The `where` clause of the upsert into `metric_latest`. -/
def latestReplaces (stored excluded : LatestRow) : Bool :=
  stored.observedAt < excluded.observedAt ||
    (excluded.observedAt == stored.observedAt &&
      decide (sqlQualityRank stored.quality < sqlQualityRank excluded.quality))

/-- The `where` clause of the upsert into `container_inventory`. -/
def containerReplaces (stored excluded : ContainerRow) : Bool :=
  stored.observedAt ≤ excluded.observedAt

/-- The server's own sample about the agent's clock. -/
def clockOffsetSample (observedAt receivedAt : Int) : Sample :=
  let offset := Float64.durationSeconds (Float64.durationBetween receivedAt observedAt)
  { deviceID := "agent-clock"
    metric := {
      name := "agent.clock_offset_seconds"
      unit := "seconds"
      value := some offset
      quality := if offset.toRat < -60 ∨ 60 < offset.toRat then .stale else .fresh
      source := "nodescope-server"
      semantics := "server receipt time minus agent observation time; stale when " ++
        "absolute offset exceeds 60 seconds"
      observedAt := receivedAt } }

/-- The texts that reach the `payload` column. -/
def Envelope.texts (e : Envelope) : List String :=
  [e.codec, e.agentID, e.hostID, e.bootID, e.checksumSHA256] ++
    e.samples.flatMap (fun s =>
      [s.deviceID, s.metric.name, s.metric.unit, s.metric.source, s.metric.semantics]) ++
    e.containers.flatMap (fun c => [c.containerID, c.name, c.image, c.state, c.health])

/-- `json.Marshal` refuses infinities, NaN and years with more than four digits. -/
def Envelope.jsonEncodable (e : Envelope) : Bool :=
  Time.jsonEncodable e.observedAt &&
    e.samples.all fun s =>
      Time.jsonEncodable s.metric.observedAt &&
        match s.metric.value with
        | none => true
        | some v => v.isFinite

section Statements

variable (lost : Bool) (db : Db) (dbNow : Int) (identity : AgentIdentity)

def batchRow (hostId : Uuid) (e : Envelope) (expiresAt : Int) : BatchRow where
  idempotencyKey := e.idempotencyKey
  agentId := identity.agentID
  hostId := hostId
  bootId := e.bootID
  sequence := e.sequence.toNat
  observedAt := toTimestamp e.observedAt
  receivedAt := dbNow
  expiresAt := toTimestamp expiresAt
  compressedBytes := e.compressedBytes.toNat
  metricValueCount := e.metricValueCount.toNat
  payload := e

def insertRawBatch (e : Envelope) (expiresAt : Int) : Except PersistError (Option Put) := do
  failIf (!e.jsonEncodable) .encodePayload
  Except.mapError .insertBatch do
    failIf lost .connection
    checkTexts ([e.idempotencyKey, identity.agentID, identity.hostID, e.bootID] ++ e.texts)
    failIf (2 ^ 63 ≤ e.sequence.toNat) (.outOfRange "sequence")
    failIf (2 ^ 31 ≤ e.compressedBytes.toNat) (.outOfRange "compressed_bytes")
    failIf (2 ^ 31 ≤ e.metricValueCount.toNat) (.outOfRange "metric_value_count")
    checkTimes [("observed_at", toTimestamp e.observedAt), ("expires_at", toTimestamp expiresAt)]
    let hostId ← castUuid identity.hostID
    let row := batchRow dbNow identity hostId e expiresAt
    checkAll row.checks
    failIf (db.telemetryBatches.any fun r => r.idempotencyKey == row.idempotencyKey)
      (.unique "telemetry_batches_idempotency_key_key")
    failIf (db.telemetryBatches.any fun r => r.agentId == row.agentId &&
      r.bootId == row.bootId && r.sequence == row.sequence)
      (.unique "telemetry_batches_agent_id_boot_id_sequence_key")
    checkHost db "telemetry_batches_host_id_fkey" hostId
    .ok (some (.batch row))

def receiptRow (hostId : Uuid) (e : Envelope) (expiresAt : Int) : ReceiptRow where
  idempotencyKey := e.idempotencyKey
  agentId := identity.agentID
  hostId := hostId
  receivedAt := dbNow
  expiresAt := toTimestamp expiresAt
  rawRetained := false

/-- The insertion of a compact receipt, which the source writes in place. -/
def insertReceipt (e : Envelope) (expiresAt : Int) : Except PersistError (Option Put) :=
  Except.mapError .insertReceipt do
    failIf lost .connection
    checkTexts [e.idempotencyKey, identity.agentID, identity.hostID]
    checkTimes [("expires_at", toTimestamp expiresAt)]
    let hostId ← castUuid identity.hostID
    let row := receiptRow dbNow identity hostId e expiresAt
    checkAll row.checks
    failIf (db.ingestReceipts.any fun r => r.idempotencyKey == row.idempotencyKey)
      (.unique "ingest_receipts_pkey")
    checkHost db "ingest_receipts_host_id_fkey" hostId
    .ok (some (.receipt row))

def sampleRow (batchKey : String) (hostId : Uuid) (s : Sample) (expiresAt : Int) : SampleRow where
  batchKey := batchKey
  hostId := hostId
  deviceId := s.deviceID
  metricName := s.metric.name
  observedAt := toTimestamp s.metric.observedAt
  numericValue := s.metric.value
  quality := s.metric.quality
  source := s.metric.source
  semantics := s.metric.semantics
  expiresAt := toTimestamp expiresAt

/-- The batch is found by a subquery, which gives null when there is none. -/
def insertRawSample (e : Envelope) (s : Sample) (expiresAt : Int) :
    Except PersistError (Option Put) :=
  Except.mapError (.insertSample s.metric.name) do
    failIf lost .connection
    checkTexts [e.idempotencyKey, identity.hostID, s.deviceID, s.metric.name, s.metric.source,
      s.metric.semantics]
    checkTimes [("observed_at", toTimestamp s.metric.observedAt),
      ("expires_at", toTimestamp expiresAt)]
    let hostId ← castUuid identity.hostID
    failIf (!db.telemetryBatches.any fun r => r.idempotencyKey == e.idempotencyKey)
      (.notNull "batch_id")
    let row := sampleRow e.idempotencyKey hostId s expiresAt
    checkAll row.checks
    failIf (db.metricSamples.any fun r => r.key == row.key) (.unique "metric_samples_pkey")
    checkHost db "metric_samples_host_id_fkey" hostId
    .ok (some (.sample row))

def containerRow (hostId : Uuid) (c : ContainerInventory) (observedAt : Int) : ContainerRow where
  hostId := hostId
  containerId := c.containerID
  name := c.name
  image := c.image
  state := c.state
  health := c.health
  selectedForAlerting := c.selectedForAlerting
  observedAt := toTimestamp observedAt
  updatedAt := dbNow

/-- The checks hold for the proposed row before a conflict is looked for. -/
def upsertContainer (c : ContainerInventory) (observedAt : Int) :
    Except PersistError (Option Put) :=
  Except.mapError .upsertContainer do
    failIf lost .connection
    checkTexts [identity.hostID, c.containerID, c.name, c.image, c.state, c.health]
    checkTimes [("observed_at", toTimestamp observedAt)]
    let hostId ← castUuid identity.hostID
    let row := containerRow dbNow hostId c observedAt
    checkAll row.checks
    match Table.find ContainerRow.key row.key db.containerInventory with
    | none => do
        checkHost db "container_inventory_host_id_fkey" hostId
        .ok (some (.container row))
    | some stored => .ok (if containerReplaces stored row then some (.container row) else none)

def latestRow (hostId : Uuid) (s : Sample) : LatestRow where
  hostId := hostId
  deviceId := s.deviceID
  metricName := s.metric.name
  observedAt := toTimestamp s.metric.observedAt
  receivedAt := dbNow
  numericValue := s.metric.value
  textValue := none
  quality := s.metric.quality
  source := s.metric.source
  semantics := s.metric.semantics

def upsertLatest (s : Sample) : Except PersistError (Option Put) :=
  Except.mapError (.upsertLatest s.metric.name) do
    failIf lost .connection
    checkTexts [identity.hostID, s.deviceID, s.metric.name, s.metric.source, s.metric.semantics]
    checkTimes [("observed_at", toTimestamp s.metric.observedAt)]
    let hostId ← castUuid identity.hostID
    let row := latestRow dbNow hostId s
    checkAll row.checks
    match Table.find LatestRow.key row.key db.metricLatest with
    | none => do
        checkHost db "metric_latest_host_id_fkey" hostId
        .ok (some (.latest row))
    | some stored => .ok (if latestReplaces stored row then some (.latest row) else none)

end Statements

/-- A call of `PersistEnvelope`, with the store's clock, the database's clock at the
start of the transaction and the capacity state it meets. -/
structure Call where
  identity : AgentIdentity
  envelope : Envelope
  now : Int
  dbNow : Int
  capacity : Option Bool
deriving DecidableEq

/-- The statements that write, in the order of the transaction. -/
inductive Write where
  | rawBatch
  | receipt
  | rawSample (sample : Sample)
  | latest (sample : Sample)
  | container (container : ContainerInventory)
deriving DecidableEq

def Write.exec (lost : Bool) (db : Db) (c : Call) : Write → Except PersistError (Option Put)
  | .rawBatch => insertRawBatch lost db c.dbNow c.identity c.envelope (c.now + rawRetention)
  | .receipt => insertReceipt lost db c.dbNow c.identity c.envelope (c.now + rawRetention)
  | .rawSample s => insertRawSample lost db c.identity c.envelope s (c.now + rawRetention)
  | .latest s => upsertLatest lost db c.dbNow c.identity s
  | .container x => upsertContainer lost db c.dbNow c.identity x c.envelope.observedAt

/-- The writes of the loop over the samples. -/
def sampleWrites (rawRetained : Bool) (s : Sample) : List Write :=
  if rawRetained then [.rawSample s, .latest s] else [.latest s]

def writes (c : Call) (rawRetained : Bool) : List Write :=
  (if rawRetained then .rawBatch else .receipt) ::
    c.envelope.samples.flatMap (sampleWrites rawRetained) ++
    c.envelope.containers.map .container ++
    [.latest (clockOffsetSample c.envelope.observedAt c.now)]

/-- What `PersistEnvelope` checks before it opens a transaction. -/
def checkSubmission (c : Call) : Except PersistError Unit := do
  failIf (c.identity.agentID == "" || c.identity.hostID == "") .identityIncomplete
  failIf (c.envelope.agentID != c.identity.agentID || c.envelope.hostID != c.identity.hostID)
    .identityMismatch
  c.envelope.validate.mapError .invalid
  (c.envelope.validateReceiptTimes c.now).mapError .invalid

def lockKey (fails : StorePoint → Bool) (key : String) : Except PersistError Unit := do
  failIf (fails .lock) (.lock .connection)
  failIf (hasNul key) (.lock .nulByte)

def keyReceived (db : Db) (key : String) : Bool :=
  (db.telemetryBatches.any fun r => r.idempotencyKey == key) ||
    db.ingestReceipts.any fun r => r.idempotencyKey == key

/-- Run the writes from statement number `i` on. -/
def runWrites (fails : StorePoint → Bool) (c : Call) :
    Nat → List Write → Db → Except PersistError Db
  | _, [], db => .ok db
  | i, w :: rest, db => do
      let p ← w.exec (fails (.write i)) db c
      runWrites fails c (i + 1) rest (db.puts p.toList)

/-- The transaction, with the database it leaves when it is not rolled back. -/
def transaction (fails : StorePoint → Bool) (db : Db) (c : Call) :
    Except PersistError (PersistResult × Db) := do
  checkSubmission c
  failIf (fails .begin) (.begin .connection)
  lockKey fails c.envelope.idempotencyKey
  failIf (fails .idempotency) (.idempotency .connection)
  if keyReceived db c.envelope.idempotencyKey then
    .ok (⟨false, false⟩, db)
  else do
    failIf (fails .capacity) (.capacity .connection)
    let rawRetained := acceptRawBatches db
    let db' ← runWrites fails c 0 (writes c rawRetained) db
    failIf (fails .commit) (.commit .connection)
    .ok (⟨true, rawRetained⟩, db')

def persistEnvelope (fails : StorePoint → Bool) (db : Db) (c : Call) :
    Except PersistError PersistResult × Db :=
  match transaction fails db c with
  | .ok (result, db') => (.ok result, db')
  | .error e => (.error e, db)

/-- A call that meets its capacity state. -/
def serve (db : Db) (c : Call) : Except PersistError PersistResult × Db :=
  persistEnvelope healthy { db with capacityStatus := c.capacity } c

/-- The database after a run of calls, one after the other. -/
def runCalls (db : Db) (cs : List Call) : Db :=
  cs.foldl (fun db c => (serve db c).2) db

end NodeScope.Telemetry
