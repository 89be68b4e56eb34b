import NodeScope.Telemetry.PostgresStore

/-!
# What a store transaction writes

Every write statement proposes one row. An insertion adds it, and an upsert offers
it to the row that is stored under its key. `Write.exec_eq_ok` says when the
database takes a statement, and `transaction_inserted` that a transaction which
inserted its envelope has offered its rows one after the other and done nothing
else.
-/

namespace NodeScope.Telemetry

open Domain Storage Lib Lib.Check Lib.Text Lib.Time

/-- The row a statement proposes for a host. -/
def Write.proposal (c : Call) (hostId : Uuid) : Write → Put
  | .rawBatch => .batch (batchRow c.dbNow c.identity hostId c.envelope (c.now + rawRetention))
  | .receipt => .receipt (receiptRow c.dbNow c.identity hostId c.envelope (c.now + rawRetention))
  | .rawSample s =>
      .sample (sampleRow c.envelope.idempotencyKey hostId s (c.now + rawRetention))
  | .latest s => .latest (latestRow c.dbNow hostId s)
  | .container x => .container (containerRow c.dbNow hostId x c.envelope.observedAt)

/-- The conflict clause of a proposed row permits it. -/
def admits (db : Db) : Put → Bool
  | .latest row => Table.admits LatestRow.key latestReplaces db.metricLatest row
  | .container row => Table.admits ContainerRow.key containerReplaces db.containerInventory row
  | _ => true

/-- A proposed row reaches its table, if its conflict clause permits it. -/
def offer (db : Db) : Put → Db
  | .batch row => db.put (.batch row)
  | .sample row => db.put (.sample row)
  | .receipt row => db.put (.receipt row)
  | .latest row =>
      { db with metricLatest := Table.upsert LatestRow.key latestReplaces db.metricLatest row }
  | .container row =>
      { db with containerInventory :=
          Table.upsert ContainerRow.key containerReplaces db.containerInventory row }

theorem puts_admitted (db : Db) (p : Put) :
    db.puts (if admits db p then some p else none).toList = offer db p := by
  cases p with
  | batch row => rfl
  | sample row => rfl
  | receipt row => rfl
  | latest row =>
      by_cases h : Table.admits LatestRow.key latestReplaces db.metricLatest row = true
      · simp [admits, offer, Table.upsert, h, Db.puts, Db.put]
      · simp [admits, offer, Table.upsert, h, Db.puts]
  | container row =>
      by_cases h : Table.admits ContainerRow.key containerReplaces db.containerInventory row = true
      · simp [admits, offer, Table.upsert, h, Db.puts, Db.put]
      · simp [admits, offer, Table.upsert, h, Db.puts]

section Statements

variable {lost : Bool} {db : Db} {dbNow : Int} {identity : AgentIdentity} {p : Option Put}

theorem insertRawBatch_eq_ok {e : Envelope} {expiresAt : Int} :
    insertRawBatch lost db dbNow identity e expiresAt = .ok p ↔
      e.jsonEncodable = true ∧ lost = false ∧
      (∀ t ∈ [e.idempotencyKey, identity.agentID, identity.hostID, e.bootID] ++ e.texts,
        hasNul t = false) ∧
      e.sequence.toNat < 2 ^ 63 ∧ e.compressedBytes.toNat < 2 ^ 31 ∧
      e.metricValueCount.toNat < 2 ^ 31 ∧ storable (toTimestamp e.observedAt) = true ∧
      storable (toTimestamp expiresAt) = true ∧
      ∃ hostId, castUuid identity.hostID = .ok hostId ∧
        (∀ k ∈ (batchRow dbNow identity hostId e expiresAt).checks, k.2 = true) ∧
        (∀ r ∈ db.telemetryBatches, r.idempotencyKey ≠ e.idempotencyKey) ∧
        (∀ r ∈ db.telemetryBatches, ¬(r.agentId = identity.agentID ∧ r.bootId = e.bootID ∧
          r.sequence = e.sequence.toNat)) ∧
        (∃ h ∈ db.hosts, h.id = hostId) ∧
        p = some (.batch (batchRow dbNow identity hostId e expiresAt)) := by
  simp only [insertRawBatch, unit_bind_eq_ok, mapError_eq_ok, castUuid_bind_eq_ok, failIf_eq_ok,
    checkTexts_eq_ok, checkTimes_eq_ok, checkAll_eq_ok, checkHost_eq_ok,
    decide_eq_false_iff_not, not_le, Except.ok.injEq, List.any_eq_false]
  simp only [List.forall_mem_cons, batchRow, Bool.not_eq_false', beq_iff_eq, Bool.and_eq_true,
    and_assoc, List.not_mem_nil, false_implies, implies_true, true_and, eq_comm (b := p)]

theorem insertReceipt_eq_ok {e : Envelope} {expiresAt : Int} :
    insertReceipt lost db dbNow identity e expiresAt = .ok p ↔
      lost = false ∧
      (∀ t ∈ [e.idempotencyKey, identity.agentID, identity.hostID], hasNul t = false) ∧
      storable (toTimestamp expiresAt) = true ∧
      ∃ hostId, castUuid identity.hostID = .ok hostId ∧
        (∀ k ∈ (receiptRow dbNow identity hostId e expiresAt).checks, k.2 = true) ∧
        (∀ r ∈ db.ingestReceipts, r.idempotencyKey ≠ e.idempotencyKey) ∧
        (∃ h ∈ db.hosts, h.id = hostId) ∧
        p = some (.receipt (receiptRow dbNow identity hostId e expiresAt)) := by
  simp only [insertReceipt, unit_bind_eq_ok, mapError_eq_ok, castUuid_bind_eq_ok, failIf_eq_ok,
    checkTexts_eq_ok, checkTimes_eq_ok, checkAll_eq_ok, checkHost_eq_ok, Except.ok.injEq,
    List.any_eq_false]
  simp only [List.forall_mem_cons, receiptRow, beq_iff_eq, and_assoc, List.not_mem_nil,
    false_implies, implies_true, true_and, eq_comm (b := p)]

theorem insertRawSample_eq_ok {e : Envelope} {s : Sample} {expiresAt : Int} :
    insertRawSample lost db identity e s expiresAt = .ok p ↔
      lost = false ∧
      (∀ t ∈ [e.idempotencyKey, identity.hostID, s.deviceID, s.metric.name, s.metric.source,
        s.metric.semantics], hasNul t = false) ∧
      storable (toTimestamp s.metric.observedAt) = true ∧
      storable (toTimestamp expiresAt) = true ∧
      ∃ hostId, castUuid identity.hostID = .ok hostId ∧
        (∃ r ∈ db.telemetryBatches, r.idempotencyKey = e.idempotencyKey) ∧
        (∀ k ∈ (sampleRow e.idempotencyKey hostId s expiresAt).checks, k.2 = true) ∧
        (∀ r ∈ db.metricSamples, r.key ≠ (e.idempotencyKey, s.deviceID, s.metric.name)) ∧
        (∃ h ∈ db.hosts, h.id = hostId) ∧
        p = some (.sample (sampleRow e.idempotencyKey hostId s expiresAt)) := by
  simp only [insertRawSample, unit_bind_eq_ok, mapError_eq_ok, castUuid_bind_eq_ok, failIf_eq_ok,
    checkTexts_eq_ok, checkTimes_eq_ok, checkAll_eq_ok, checkHost_eq_ok, Except.ok.injEq,
    List.any_eq_false, Bool.not_eq_false', List.any_eq_true]
  simp only [List.forall_mem_cons, sampleRow, SampleRow.key, beq_iff_eq, and_assoc,
    List.not_mem_nil, false_implies, implies_true, true_and, eq_comm (b := p)]

theorem upsertLatest_eq_ok {s : Sample} :
    upsertLatest lost db dbNow identity s = .ok p ↔
      lost = false ∧
      (∀ t ∈ [identity.hostID, s.deviceID, s.metric.name, s.metric.source, s.metric.semantics],
        hasNul t = false) ∧
      storable (toTimestamp s.metric.observedAt) = true ∧
      ∃ hostId, castUuid identity.hostID = .ok hostId ∧
        (∀ k ∈ (latestRow dbNow hostId s).checks, k.2 = true) ∧
        (Table.find LatestRow.key (hostId, s.deviceID, s.metric.name) db.metricLatest = none →
          ∃ h ∈ db.hosts, h.id = hostId) ∧
        p = (if admits db (.latest (latestRow dbNow hostId s)) then
          some (.latest (latestRow dbNow hostId s)) else none) := by
  simp only [upsertLatest, unit_bind_eq_ok, mapError_eq_ok, castUuid_bind_eq_ok, failIf_eq_ok,
    checkTexts_eq_ok, checkTimes_eq_ok, checkAll_eq_ok, List.forall_mem_cons, List.not_mem_nil,
    false_implies, implies_true, and_true]
  refine and_congr_right fun _ => and_congr_right fun _ => and_congr_right fun _ =>
    exists_congr fun hostId => and_congr_right fun _ => and_congr_right fun _ => ?_
  have hkey : (latestRow dbNow hostId s).key = (hostId, s.deviceID, s.metric.name) := rfl
  simp only [admits, Table.admits, hkey]
  cases Table.find LatestRow.key (hostId, s.deviceID, s.metric.name) db.metricLatest with
  | none => simp [eq_comm (b := p)]
  | some stored => simp [eq_comm (b := p)]

theorem upsertContainer_eq_ok {x : ContainerInventory} {observedAt : Int} :
    upsertContainer lost db dbNow identity x observedAt = .ok p ↔
      lost = false ∧
      (∀ t ∈ [identity.hostID, x.containerID, x.name, x.image, x.state, x.health],
        hasNul t = false) ∧
      storable (toTimestamp observedAt) = true ∧
      ∃ hostId, castUuid identity.hostID = .ok hostId ∧
        (∀ k ∈ (containerRow dbNow hostId x observedAt).checks, k.2 = true) ∧
        (Table.find ContainerRow.key (hostId, x.containerID) db.containerInventory = none →
          ∃ h ∈ db.hosts, h.id = hostId) ∧
        p = (if admits db (.container (containerRow dbNow hostId x observedAt)) then
          some (.container (containerRow dbNow hostId x observedAt)) else none) := by
  simp only [upsertContainer, unit_bind_eq_ok, mapError_eq_ok, castUuid_bind_eq_ok, failIf_eq_ok,
    checkTexts_eq_ok, checkTimes_eq_ok, checkAll_eq_ok, List.forall_mem_cons, List.not_mem_nil,
    false_implies, implies_true, and_true]
  refine and_congr_right fun _ => and_congr_right fun _ => and_congr_right fun _ =>
    exists_congr fun hostId => and_congr_right fun _ => and_congr_right fun _ => ?_
  have hkey : (containerRow dbNow hostId x observedAt).key = (hostId, x.containerID) := rfl
  simp only [admits, Table.admits, hkey]
  cases Table.find ContainerRow.key (hostId, x.containerID) db.containerInventory with
  | none => simp [eq_comm (b := p)]
  | some stored => simp [eq_comm (b := p)]

end Statements

/-- A statement the database takes offers its row for the host of the identity. -/
theorem Write.exec_ok {lost : Bool} {db : Db} {c : Call} {w : Write} {p : Option Put}
    (h : w.exec lost db c = .ok p) :
    ∃ hostId, castUuid c.identity.hostID = .ok hostId ∧
      p = if admits db (w.proposal c hostId) then some (w.proposal c hostId) else none := by
  cases w with
  | rawBatch =>
      obtain ⟨-, -, -, -, -, -, -, -, hostId, hcast, -, -, -, -, hp⟩ := insertRawBatch_eq_ok.mp h
      exact ⟨hostId, hcast, hp⟩
  | receipt =>
      obtain ⟨-, -, -, hostId, hcast, -, -, -, hp⟩ := insertReceipt_eq_ok.mp h
      exact ⟨hostId, hcast, hp⟩
  | rawSample s =>
      obtain ⟨-, -, -, -, hostId, hcast, -, -, -, -, hp⟩ := insertRawSample_eq_ok.mp h
      exact ⟨hostId, hcast, hp⟩
  | latest s =>
      obtain ⟨-, -, -, hostId, hcast, -, -, hp⟩ := upsertLatest_eq_ok.mp h
      exact ⟨hostId, hcast, hp⟩
  | container x =>
      obtain ⟨-, -, -, hostId, hcast, -, -, hp⟩ := upsertContainer_eq_ok.mp h
      exact ⟨hostId, hcast, hp⟩

theorem Write.exec_not_lost {lost : Bool} {db : Db} {c : Call} {w : Write} {p : Option Put}
    (h : w.exec lost db c = .ok p) : lost = false := by
  cases w with
  | rawBatch => exact (insertRawBatch_eq_ok.mp h).2.1
  | receipt => exact (insertReceipt_eq_ok.mp h).1
  | rawSample s => exact (insertRawSample_eq_ok.mp h).1
  | latest s => exact (upsertLatest_eq_ok.mp h).1
  | container x => exact (upsertContainer_eq_ok.mp h).1

theorem exec_offer {lost : Bool} {db : Db} {c : Call} {w : Write} {p : Option Put}
    {hostId : Uuid} (hcast : castUuid c.identity.hostID = .ok hostId)
    (h : w.exec lost db c = .ok p) : db.puts p.toList = offer db (w.proposal c hostId) := by
  obtain ⟨hostId', hcast', rfl⟩ := w.exec_ok h
  rw [hcast, Except.ok.injEq] at hcast'
  rw [← hcast', puts_admitted]

/-- Statements that are all taken offer their rows in order. -/
theorem runWrites_ok {fails : StorePoint → Bool} {c : Call} {hostId : Uuid}
    (hcast : castUuid c.identity.hostID = .ok hostId) {ws : List Write} {i : Nat} {db db' : Db}
    (h : runWrites fails c i ws db = .ok db') :
    db' = (ws.map (Write.proposal c hostId)).foldl offer db := by
  induction ws generalizing i db with
  | nil =>
      rw [runWrites, Except.ok.injEq] at h
      exact h.symm
  | cons w rest ih =>
      rw [runWrites, bind_eq_ok] at h
      obtain ⟨p, hp, h⟩ := h
      rw [exec_offer hcast hp] at h
      exact ih h

/-- The rows of a submission, in the order in which they are offered. -/
def proposals (c : Call) (hostId : Uuid) (rawRetained : Bool) : List Put :=
  (writes c rawRetained).map (Write.proposal c hostId)

/-- A transaction that succeeds either finds its key and changes nothing, or
offers every row of the submission. -/
theorem transaction_ok {fails : StorePoint → Bool} {db db' : Db} {c : Call} {r : PersistResult}
    (h : transaction fails db c = .ok (r, db')) :
    checkSubmission c = .ok () ∧ hasNul c.envelope.idempotencyKey = false ∧
      ((keyReceived db c.envelope.idempotencyKey = true ∧ r = ⟨false, false⟩ ∧ db' = db) ∨
        (keyReceived db c.envelope.idempotencyKey = false ∧ r = ⟨true, acceptRawBatches db⟩ ∧
          runWrites fails c 0 (writes c (acceptRawBatches db)) db = .ok db' ∧
          ∃ hostId, castUuid c.identity.hostID = .ok hostId ∧
            db' = (proposals c hostId (acceptRawBatches db)).foldl offer db)) := by
  simp only [transaction, lockKey, unit_bind_eq_ok, failIf_eq_ok] at h
  obtain ⟨hsub, -, ⟨-, hnul⟩, -, h⟩ := h
  refine ⟨hsub, hnul, ?_⟩
  cases hk : keyReceived db c.envelope.idempotencyKey with
  | true =>
      simp only [hk, if_true, Except.ok.injEq, Prod.mk.injEq] at h
      exact Or.inl ⟨rfl, h.1.symm, h.2.symm⟩
  | false =>
      simp only [hk, Bool.false_eq_true, if_false, unit_bind_eq_ok] at h
      obtain ⟨-, h⟩ := h
      rw [bind_eq_ok] at h
      obtain ⟨db₁, hrun, h⟩ := h
      simp only [unit_bind_eq_ok, Except.ok.injEq, Prod.mk.injEq] at h
      obtain ⟨-, h⟩ := h
      obtain ⟨rfl, rfl⟩ := h
      refine Or.inr ⟨rfl, rfl, hrun, ?_⟩
      have hfirst := hrun
      simp only [writes, List.cons_append, runWrites, bind_eq_ok] at hfirst
      obtain ⟨p, hp, -⟩ := hfirst
      obtain ⟨hostId, hcast, -⟩ := Write.exec_ok hp
      exact ⟨hostId, hcast, runWrites_ok hcast hrun⟩

/-! ## The effect on each table -/

def batchOf : Put → Option BatchRow
  | .batch row => some row
  | _ => none

def sampleOf : Put → Option SampleRow
  | .sample row => some row
  | _ => none

def receiptOf : Put → Option ReceiptRow
  | .receipt row => some row
  | _ => none

def latestOf : Put → Option LatestRow
  | .latest row => some row
  | _ => none

def containerOf : Put → Option ContainerRow
  | .container row => some row
  | _ => none

section Tables

variable (ps : List Put) (db : Db)

theorem foldl_offer_registry :
    (ps.foldl offer db).hosts = db.hosts ∧ (ps.foldl offer db).agents = db.agents ∧
      (ps.foldl offer db).capacityStatus = db.capacityStatus ∧
      (ps.foldl offer db).auditEvents = db.auditEvents := by
  induction ps generalizing db with
  | nil => exact ⟨rfl, rfl, rfl, rfl⟩
  | cons p rest ih => cases p <;> exact ih _

theorem foldl_offer_telemetryBatches :
    (ps.foldl offer db).telemetryBatches = db.telemetryBatches ++ ps.filterMap batchOf := by
  induction ps generalizing db with
  | nil => simp
  | cons p rest ih => cases p <;> simp [List.filterMap_cons, ih, offer, batchOf, Db.put]

theorem foldl_offer_metricSamples :
    (ps.foldl offer db).metricSamples = db.metricSamples ++ ps.filterMap sampleOf := by
  induction ps generalizing db with
  | nil => simp
  | cons p rest ih => cases p <;> simp [List.filterMap_cons, ih, offer, sampleOf, Db.put]

theorem foldl_offer_ingestReceipts :
    (ps.foldl offer db).ingestReceipts = db.ingestReceipts ++ ps.filterMap receiptOf := by
  induction ps generalizing db with
  | nil => simp
  | cons p rest ih => cases p <;> simp [List.filterMap_cons, ih, offer, receiptOf, Db.put]

theorem foldl_offer_metricLatest :
    (ps.foldl offer db).metricLatest =
      (ps.filterMap latestOf).foldl (Table.upsert LatestRow.key latestReplaces)
        db.metricLatest := by
  induction ps generalizing db with
  | nil => rfl
  | cons p rest ih => cases p <;> simp [List.filterMap_cons, ih, offer, latestOf, Db.put]

theorem foldl_offer_containerInventory :
    (ps.foldl offer db).containerInventory =
      (ps.filterMap containerOf).foldl (Table.upsert ContainerRow.key containerReplaces)
        db.containerInventory := by
  induction ps generalizing db with
  | nil => rfl
  | cons p rest ih => cases p <;> simp [List.filterMap_cons, ih, offer, containerOf, Db.put]

end Tables

/-- The rows a call offers to `metric_latest`, the server's own row last. -/
def latestRows (c : Call) (hostId : Uuid) : List LatestRow :=
  (c.envelope.samples ++ [clockOffsetSample c.envelope.observedAt c.now]).map
    (latestRow c.dbNow hostId)

def containerRows (c : Call) (hostId : Uuid) : List ContainerRow :=
  c.envelope.containers.map fun x => containerRow c.dbNow hostId x c.envelope.observedAt

/-- The rows of one kind among the proposals come from the three parts of the
sequence: its first statement, the loop over the samples and the loop over the
containers, with the server's own sample at the end. -/
theorem proposals_filterMap {R : Type} (f : Put → Option R) (c : Call) (hostId : Uuid)
    (rawRetained : Bool) :
    (proposals c hostId rawRetained).filterMap f =
      (f ((if rawRetained then Write.rawBatch else .receipt).proposal c hostId)).toList ++
        c.envelope.samples.flatMap (fun s =>
          ((sampleWrites rawRetained s).map (Write.proposal c hostId)).filterMap f) ++
        c.envelope.containers.filterMap (fun x =>
          f (.container (containerRow c.dbNow hostId x c.envelope.observedAt))) ++
        (f (.latest (latestRow c.dbNow hostId
          (clockOffsetSample c.envelope.observedAt c.now)))).toList := by
  have hcons (p : Put) (ps : List Put) : (p :: ps).filterMap f = (f p).toList ++ ps.filterMap f := by
    rw [List.filterMap_cons]
    cases f p <;> rfl
  simp only [proposals, writes, List.map_cons, List.cons_append, hcons, List.map_append,
    List.map_flatMap, List.filterMap_append, List.filterMap_flatMap, List.map_map,
    Function.comp_def, List.filterMap_map, Write.proposal, List.map_nil, List.filterMap_nil,
    List.append_nil, List.append_assoc]

theorem proposals_batch (c : Call) (hostId : Uuid) (rawRetained : Bool) :
    (proposals c hostId rawRetained).filterMap batchOf =
      if rawRetained then
        [batchRow c.dbNow c.identity hostId c.envelope (c.now + rawRetention)] else [] := by
  rw [proposals_filterMap]
  cases rawRetained <;> simp [Write.proposal, batchOf, sampleWrites]

theorem proposals_receipt (c : Call) (hostId : Uuid) (rawRetained : Bool) :
    (proposals c hostId rawRetained).filterMap receiptOf =
      if rawRetained then []
      else [receiptRow c.dbNow c.identity hostId c.envelope (c.now + rawRetention)] := by
  rw [proposals_filterMap]
  cases rawRetained <;> simp [Write.proposal, receiptOf, sampleWrites]

theorem proposals_sample (c : Call) (hostId : Uuid) (rawRetained : Bool) :
    (proposals c hostId rawRetained).filterMap sampleOf =
      if rawRetained then c.envelope.samples.map fun s =>
        sampleRow c.envelope.idempotencyKey hostId s (c.now + rawRetention) else [] := by
  rw [proposals_filterMap]
  cases rawRetained <;>
    simp [Write.proposal, sampleOf, sampleWrites, List.map_eq_flatMap, List.filterMap_cons]

theorem proposals_latest (c : Call) (hostId : Uuid) (rawRetained : Bool) :
    (proposals c hostId rawRetained).filterMap latestOf = latestRows c hostId := by
  rw [proposals_filterMap, latestRows, List.map_append, List.map_eq_flatMap]
  cases rawRetained <;> simp [Write.proposal, latestOf, sampleWrites, List.filterMap_cons]

theorem proposals_container (c : Call) (hostId : Uuid) (rawRetained : Bool) :
    (proposals c hostId rawRetained).filterMap containerOf = containerRows c hostId := by
  rw [proposals_filterMap]
  cases rawRetained <;> simp [Write.proposal, containerOf, sampleWrites, containerRows]

/-- The call stored its envelope. -/
def inserted (result : Except PersistError PersistResult) : Bool :=
  match result with
  | .ok r => r.inserted
  | .error _ => false

/-- The calls of a run that store their envelopes. -/
def accepted : Db → List Call → List Call
  | _, [] => []
  | db, c :: rest =>
      if inserted (serve db c).1 then c :: accepted (serve db c).2 rest
      else accepted (serve db c).2 rest

/-- The host the rows of a call belong to. -/
def callHost (c : Call) : Option Uuid := Uuid.parse c.identity.hostID

theorem callHost_eq_some {c : Call} {hostId : Uuid} :
    callHost c = some hostId ↔ castUuid c.identity.hostID = .ok hostId := by
  rw [callHost, castUuid]
  cases Uuid.parse c.identity.hostID <;> simp

/-- A served call either leaves the database as it is or offers its rows. -/
theorem serve_cases (db : Db) (c : Call) :
    (inserted (serve db c).1 = false ∧
      (serve db c).2 = { db with capacityStatus := c.capacity }) ∨
    (inserted (serve db c).1 = true ∧ checkSubmission c = .ok () ∧
      keyReceived db c.envelope.idempotencyKey = false ∧
      ∃ hostId rawRetained, callHost c = some hostId ∧
        (serve db c).2 = (proposals c hostId rawRetained).foldl offer
          { db with capacityStatus := c.capacity }) := by
  rw [serve, persistEnvelope]
  cases ht : transaction healthy { db with capacityStatus := c.capacity } c with
  | error e => exact Or.inl ⟨rfl, rfl⟩
  | ok result =>
      obtain ⟨r, db'⟩ := result
      obtain ⟨hsub, -, ⟨-, rfl, hdb⟩ | ⟨hkey, rfl, -, hostId, hcast, hdb⟩⟩ := transaction_ok ht
      · exact Or.inl ⟨rfl, hdb⟩
      · exact Or.inr ⟨rfl, hsub, hkey, hostId, _, callHost_eq_some.mpr hcast, hdb⟩

/-- A run acts on a part of the database through its accepted calls, when an
accepted call acts on that part by itself. -/
theorem runCalls_project {T : Type} (part : Db → T) {step : T → Call → T}
    (hcapacity : ∀ db capacity, part { db with capacityStatus := capacity } = part db)
    (hstep : ∀ db c hostId rawRetained, callHost c = some hostId →
      part ((proposals c hostId rawRetained).foldl offer db) = step (part db) c)
    (db : Db) (cs : List Call) :
    part (runCalls db cs) = (accepted db cs).foldl step (part db) := by
  induction cs generalizing db with
  | nil => rfl
  | cons c rest ih =>
      have hrun : runCalls db (c :: rest) = runCalls (serve db c).2 rest := rfl
      rw [hrun, ih]
      obtain ⟨hi, hdb⟩ | ⟨hi, -, -, hostId, raw, hhost, hdb⟩ := serve_cases db c
      · rw [accepted, hi, hdb, hcapacity]
        rfl
      · rw [accepted, hi, hdb, hstep _ _ _ _ hhost, hcapacity]
        rfl

end NodeScope.Telemetry
