import NodeScope.Storage.Rollup
import NodeScope.Telemetry.LatestState

/-!
# Retention

Ingestion writes an expiry into batches, samples and compact receipts, and the rollups into their
rows. `prune_expired_telemetry` deletes the expired batches, with them their samples, and the
expired rollups. It has no statement for the receipts: `retention_enforced_iff` says that in a
reachable state it enforces the expiry of all four tables exactly if no receipt has expired.

## Implementation notes

A state joins the tables of ingestion with those that the maintenance functions write. An
execution is one transaction, at whose time all its statements run.
-/

namespace NodeScope.Telemetry

open Domain Storage Lib Lib.Check Lib.Time

section Model

/-- The column of `storage_probe_summaries` that retention reads. -/
structure ProbeSummaryRow where
  createdAt : Int
deriving DecidableEq

structure RetainedState where
  db : Db
  rollups : List RollupRow
  probeSummaries : List ProbeSummaryRow
  retention : MaintenanceStatus
deriving DecidableEq

def probeRetention : Int := sqlSeconds (30 * 86400)

/-- The state after an execution, with the number of rows deleted by its three statements. -/
def pruneExpiredTelemetry (now : Int) (s : RetainedState) : RetainedState :=
  let expiredBatches := s.db.telemetryBatches.filter fun b => b.expiresAt ≤ now
  let expiredRollups := s.rollups.filter fun r => r.expiresAt ≤ now
  let oldSummaries := s.probeSummaries.filter fun p => p.createdAt < now - probeRetention
  { db := pruneExpired s.db now
    rollups := s.rollups.filter fun r => !(r.expiresAt ≤ now)
    probeSummaries := s.probeSummaries.filter fun p => !(p.createdAt < now - probeRetention)
    retention := ⟨some now, some now,
      expiredBatches.length + expiredRollups.length + oldSummaries.length⟩ }

/-- The states that ingestion in either capacity mode, rollups and retention can reach. -/
inductive RetainedReachable : RetainedState → Prop where
  | start {hosts : List HostRow} {agents : List AgentRow} (h : AgentsReferHosts hosts agents) :
      RetainedReachable
        ⟨{ Db.empty with hosts := hosts, agents := agents }, [], [], ⟨none, none, 0⟩⟩
  | enroll {s : RetainedState} {hosts : List HostRow} {agents : List AgentRow}
      (hs : RetainedReachable s) (h : AgentsReferHosts hosts agents) :
      RetainedReachable { s with db := { s.db with hosts := hosts, agents := agents } }
  | serve {s : RetainedState} (hs : RetainedReachable s) (c : Call) :
      RetainedReachable { s with db := (serve s.db c).2 }
  | rollup {s : RetainedState} (hs : RetainedReachable s) (now : Int) :
      RetainedReachable
        { s with rollups := (rollupRecentSamples now s.db.metricSamples s.rollups).1 }
  | probe {s : RetainedState} (hs : RetainedReachable s) (row : ProbeSummaryRow) :
      RetainedReachable { s with probeSummaries := s.probeSummaries ++ [row] }
  | prune {s : RetainedState} (hs : RetainedReachable s) (now : Int) :
      RetainedReachable (pruneExpiredTelemetry now s)

/-- Exactly the rows that expire later are left. -/
def ExpiryEnforced {R : Type} (expiresAt : R → Int) (now : Int) (before after : List R) : Prop :=
  ∀ row, row ∈ after ↔ row ∈ before ∧ now < expiresAt row

/-- What an execution does to the tables that declare an expiry. -/
structure RetentionEnforced (now : Int) (s s' : RetainedState) : Prop where
  batches : ExpiryEnforced BatchRow.expiresAt now s.db.telemetryBatches s'.db.telemetryBatches
  samples : ExpiryEnforced SampleRow.expiresAt now s.db.metricSamples s'.db.metricSamples
  rollups : ExpiryEnforced RollupRow.expiresAt now s.rollups s'.rollups
  receipts : ExpiryEnforced ReceiptRow.expiresAt now s.db.ingestReceipts s'.db.ingestReceipts

end Model

section SharedExpiry

/-- Every sample expires with the batch it belongs to. -/
def SharedExpiry (db : Db) : Prop :=
  ∀ s ∈ db.metricSamples, ∀ b ∈ db.telemetryBatches,
    b.idempotencyKey = s.batchKey → b.expiresAt = s.expiresAt

/-- The rows of one submission get one expiry, and their key is new. -/
theorem SharedExpiry.offer {db : Db} (h : SharedExpiry db) (hcons : Consistent db) {c : Call}
    {hostId : Uuid} {rawRetained : Bool}
    (hnew : keyReceived db c.envelope.idempotencyKey = false) :
    SharedExpiry ((proposals c hostId rawRetained).foldl Telemetry.offer db) := by
  intro s hs b hb hkey
  rw [foldl_offer_metricSamples, proposals_sample, List.mem_append] at hs
  rw [foldl_offer_telemetryBatches, proposals_batch, List.mem_append] at hb
  have hfresh : ∀ r ∈ db.telemetryBatches, r.idempotencyKey ≠ c.envelope.idempotencyKey := by
    simp only [keyReceived, Bool.or_eq_false_iff, List.any_eq_false, beq_iff_eq] at hnew
    exact hnew.1
  cases rawRetained with
  | false =>
      simp only [Bool.false_eq_true, if_false, List.not_mem_nil, or_false] at hs hb
      exact h s hs b hb hkey
  | true =>
      simp only [if_true, List.mem_singleton] at hs hb
      rcases hs with hs | hs <;> rcases hb with hb | rfl
      · exact h s hs b hb hkey
      · obtain ⟨r, hr, hrkey⟩ := hcons.sampleBatches s hs
        exact absurd (hrkey.trans hkey.symm) (hfresh r hr)
      · obtain ⟨x, -, rfl⟩ := List.mem_map.mp hs
        exact absurd hkey (hfresh b hb)
      · obtain ⟨x, -, rfl⟩ := List.mem_map.mp hs
        rfl

theorem SharedExpiry.serve {db : Db} (h : SharedExpiry db) (hcons : Consistent db) (c : Call) :
    SharedExpiry (Telemetry.serve db c).2 := by
  have hcapacity : Consistent { db with capacityStatus := c.capacity } :=
    ⟨hcons.agentHosts, hcons.batchKeys, hcons.sampleBatches⟩
  obtain ⟨-, hdb⟩ | ⟨-, -, hnew, hostId, raw, -, hdb⟩ := serve_cases db c
  · rw [hdb]
    exact h
  · rw [hdb]
    have hstart : SharedExpiry { db with capacityStatus := c.capacity } := h
    exact hstart.offer hcapacity hnew

theorem SharedExpiry.prune {db : Db} (h : SharedExpiry db) (now : Int) :
    SharedExpiry (pruneExpired db now) := by
  intro s hs b hb hkey
  exact h s (List.mem_of_mem_filter hs) b (List.mem_of_mem_filter hb) hkey

theorem Reachable.sharedExpiry {db : Db} (h : Reachable db) : SharedExpiry db := by
  induction h with
  | start _ => simp [SharedExpiry, Db.empty]
  | enroll _ _ ih => exact ih
  | serve hdb c ih => exact ih.serve hdb.consistent c
  | prune _ now ih => exact ih.prune now

end SharedExpiry

section Receipts

/-- Only an accepted submission that meets the compact mode leaves a receipt, with the expiry of
the store's clock. -/
theorem serve_ingestReceipts (db : Db) (c : Call) :
    (serve db c).2.ingestReceipts = db.ingestReceipts ++
      if inserted (serve db c).1 && !acceptRawBatches { db with capacityStatus := c.capacity } then
        (callHost c).toList.map fun hostId =>
          receiptRow c.dbNow c.identity hostId c.envelope (c.now + rawRetention)
      else [] := by
  rw [serve, persistEnvelope]
  cases ht : transaction healthy { db with capacityStatus := c.capacity } c with
  | error e => simp [inserted]
  | ok result =>
      obtain ⟨r, db'⟩ := result
      obtain ⟨-, -, ⟨-, rfl, rfl⟩ | ⟨-, rfl, -, hostId, hcast, rfl⟩⟩ := transaction_ok ht
      · simp [inserted]
      · rw [foldl_offer_ingestReceipts, proposals_receipt, callHost_eq_some.mpr hcast]
        cases acceptRawBatches { db with capacityStatus := c.capacity } <;> simp [inserted]

theorem serve_ingestReceipts_raw {db : Db} {c : Call}
    (hraw : acceptRawBatches { db with capacityStatus := c.capacity } = true) :
    (serve db c).2.ingestReceipts = db.ingestReceipts := by
  rw [serve_ingestReceipts, hraw]
  simp

theorem serve_ingestReceipts_compact {db : Db} {c : Call} {hostId : Uuid}
    (hinserted : inserted (serve db c).1 = true)
    (hcompact : acceptRawBatches { db with capacityStatus := c.capacity } = false)
    (hhost : callHost c = some hostId) :
    receiptRow c.dbNow c.identity hostId c.envelope (c.now + rawRetention) ∈
      (serve db c).2.ingestReceipts := by
  rw [serve_ingestReceipts, hinserted, hcompact, hhost]
  simp

end Receipts

section Enforcement

variable {s : RetainedState}

/-- The maintenance functions leave a database that the server can reach. -/
theorem RetainedReachable.reachable (h : RetainedReachable s) : Reachable s.db := by
  induction h with
  | start hrefer => exact .start hrefer
  | enroll _ hrefer ih => exact .enroll ih hrefer
  | serve _ c ih => exact .serve ih c
  | rollup _ _ ih => exact ih
  | probe _ _ ih => exact ih
  | prune _ now ih => exact .prune ih now

theorem expiryEnforced_filter {R : Type} {expiresAt : R → Int} {now : Int} {rows : List R} :
    ExpiryEnforced expiresAt now rows (rows.filter fun r => decide (now < expiresAt r)) := by
  intro row
  rw [List.mem_filter, decide_eq_true_eq]

/-- A sample is left exactly if its own expiry is later. -/
theorem samples_enforced {db : Db} (h : Reachable db) (now : Int) :
    ExpiryEnforced SampleRow.expiresAt now db.metricSamples
      (pruneExpired db now).metricSamples := by
  intro row
  simp only [pruneExpired, List.mem_filter, List.any_eq_true, decide_eq_true_eq]
  refine and_congr_right fun hrow => ?_
  constructor
  · rintro ⟨b, hb, hkey, hlive⟩
    rwa [← h.sharedExpiry row hrow b hb hkey]
  · intro hlive
    obtain ⟨b, hb, hkey⟩ := h.consistent.sampleBatches row hrow
    exact ⟨b, hb, hkey, by rwa [h.sharedExpiry row hrow b hb hkey]⟩

/-- In a reachable state retention is enforced on every table exactly if no stored receipt has
expired. -/
theorem retention_enforced_iff (h : RetainedReachable s) (now : Int) :
    RetentionEnforced now s (pruneExpiredTelemetry now s) ↔
      ∀ r ∈ s.db.ingestReceipts, now < r.expiresAt := by
  constructor
  · intro henforced r hr
    exact ((henforced.receipts r).mp hr).2
  · intro hlive
    constructor
    · exact expiryEnforced_filter
    · exact samples_enforced h.reachable now
    · intro row
      simp [pruneExpiredTelemetry]
    · intro row
      exact ⟨fun hrow => ⟨hrow, hlive row hrow⟩, And.left⟩

end Enforcement

/-- A database that no maintenance function has run on. -/
def ingested (db : Db) : RetainedState := ⟨db, [], [], ⟨none, none, 0⟩⟩

theorem db_ingested (db : Db) : (ingested db).db = db := rfl

theorem submission_reachable (capacity : Option Bool) :
    RetainedReachable (ingested (serve oneHostDb (submission capacity)).2) := by
  have hstart : RetainedReachable (ingested oneHostDb) := .start (by simp [AgentsReferHosts])
  exact .serve hstart (submission capacity)

theorem rawSubmission_enforced :
    RetentionEnforced (sqlSeconds 500000)
      (ingested (serve oneHostDb (submission (some true))).2)
      (pruneExpiredTelemetry (sqlSeconds 500000)
        (ingested (serve oneHostDb (submission (some true))).2)) := by
  apply (retention_enforced_iff (submission_reachable (some true)) (sqlSeconds 500000)).mpr
  have hraw : acceptRawBatches
      { oneHostDb with capacityStatus := (submission (some true)).capacity } = true := rfl
  rw [db_ingested, serve_ingestReceipts_raw hraw]
  intro r hr
  cases hr

theorem not_enforced_of_expired {db : Db} {r : ReceiptRow} (hr : r ∈ db.ingestReceipts)
    {now : Int} (hle : r.expiresAt ≤ now) :
    ¬ RetentionEnforced now (ingested db) (pruneExpiredTelemetry now (ingested db)) :=
  fun henforced => absurd ((henforced.receipts r).mp hr).2 (not_lt.mpr hle)

/-- Days after a compact receipt has expired it is still there. -/
theorem compactReceipt_left :
    RetainedReachable (ingested (serve oneHostDb (submission (some false))).2) ∧
      ¬ RetentionEnforced (sqlSeconds 500000)
        (ingested (serve oneHostDb (submission (some false))).2)
        (pruneExpiredTelemetry (sqlSeconds 500000)
          (ingested (serve oneHostDb (submission (some false))).2)) := by
  have hhost : callHost (submission (some false)) = some (Uuid.ofByte 1) := Uuid.parse_toText _
  have hcompact : acceptRawBatches
      { oneHostDb with capacityStatus := (submission (some false)).capacity } = false := rfl
  have hreceipt :=
    serve_ingestReceipts_compact (submission_inserted (some false)) hcompact hhost
  exact ⟨submission_reachable (some false), not_enforced_of_expired hreceipt (by decide)⟩

end NodeScope.Telemetry
