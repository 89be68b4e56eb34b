import NodeScope.Telemetry.StoreEffect

/-!
# Databases the server can reach

A reachable database starts with hosts and agents only, and then sees any number of
submissions, enrollments and deletions of expired batches. `Consistent` collects what
holds of every such database: agents refer to hosts, the key of a batch is the join
of its own columns, and every raw sample belongs to a stored batch.
-/

namespace NodeScope.Telemetry

open Domain Storage Lib Lib.Check Lib.Time

/-- The deletion of expired batches in `prune_expired_telemetry`. The samples of a
deleted batch go with it; compact receipts are not pruned. -/
def pruneExpired (db : Db) (dbNow : Int) : Db :=
  { db with
    telemetryBatches := db.telemetryBatches.filter fun b => decide (dbNow < b.expiresAt)
    metricSamples := db.metricSamples.filter fun s => db.telemetryBatches.any fun b =>
      decide (b.idempotencyKey = s.batchKey ∧ dbNow < b.expiresAt) }

/-- The reference of `agents` to `hosts`. -/
def AgentsReferHosts (hosts : List HostRow) (agents : List AgentRow) : Prop :=
  ∀ a ∈ agents, ∃ h ∈ hosts, h.id = a.hostId

/-- The databases the server can reach. An enrollment may change the registry in any
way that keeps its reference. -/
inductive Reachable : Db → Prop where
  | start {hosts : List HostRow} {agents : List AgentRow} (h : AgentsReferHosts hosts agents) :
      Reachable { Db.empty with hosts := hosts, agents := agents }
  | enroll {db : Db} {hosts : List HostRow} {agents : List AgentRow} (hdb : Reachable db)
      (h : AgentsReferHosts hosts agents) :
      Reachable { db with hosts := hosts, agents := agents }
  | serve {db : Db} (hdb : Reachable db) (c : Call) : Reachable (serve db c).2
  | prune {db : Db} (hdb : Reachable db) (dbNow : Int) : Reachable (pruneExpired db dbNow)

structure Consistent (db : Db) : Prop where
  agentHosts : AgentsReferHosts db.hosts db.agents
  batchKeys : ∀ b ∈ db.telemetryBatches,
    b.idempotencyKey = String.intercalate ":" [b.agentId, b.bootId, Nat.repr b.sequence]
  sampleBatches : ∀ s ∈ db.metricSamples, ∃ b ∈ db.telemetryBatches,
    b.idempotencyKey = s.batchKey

/-- An accepted submission was made for the agent of its identity. -/
theorem agentID_of_checkSubmission {c : Call} (h : checkSubmission c = .ok ()) :
    c.envelope.agentID = c.identity.agentID ∧ c.envelope.hostID = c.identity.hostID := by
  simp only [checkSubmission, unit_bind_eq_ok, failIf_eq_ok, Bool.or_eq_false_iff,
    bne_eq_false_iff_eq] at h
  exact h.2.1

theorem Consistent.offer {db : Db} (h : Consistent db) {c : Call} {hostId : Uuid}
    {rawRetained : Bool} (hsub : checkSubmission c = .ok ()) :
    Consistent ((proposals c hostId rawRetained).foldl Telemetry.offer db) := by
  obtain ⟨hhosts, hagents, -, -⟩ := foldl_offer_registry (proposals c hostId rawRetained) db
  constructor
  · rw [hhosts, hagents]
    exact h.agentHosts
  · intro b hb
    rw [foldl_offer_telemetryBatches, proposals_batch, List.mem_append] at hb
    rcases hb with hb | hb
    · exact h.batchKeys b hb
    · cases rawRetained with
      | false => simp at hb
      | true =>
          obtain rfl := List.mem_singleton.mp hb
          simp only [batchRow, Envelope.idempotencyKey, idempotencyKeyOf,
            (agentID_of_checkSubmission hsub).1]
  · intro s hs
    rw [foldl_offer_metricSamples, proposals_sample, List.mem_append] at hs
    rw [foldl_offer_telemetryBatches, proposals_batch]
    rcases hs with hs | hs
    · obtain ⟨b, hb, hk⟩ := h.sampleBatches s hs
      exact ⟨b, List.mem_append_left _ hb, hk⟩
    · cases rawRetained with
      | false => simp at hs
      | true =>
          obtain ⟨x, -, rfl⟩ := List.mem_map.mp hs
          exact ⟨_, List.mem_append_right _ List.mem_cons_self, rfl⟩

theorem Consistent.serve {db : Db} (h : Consistent db) (c : Call) :
    Consistent (Telemetry.serve db c).2 := by
  have hcapacity : Consistent { db with capacityStatus := c.capacity } :=
    ⟨h.agentHosts, h.batchKeys, h.sampleBatches⟩
  obtain ⟨-, hdb⟩ | ⟨-, hsub, -, hostId, raw, -, hdb⟩ := serve_cases db c
  · rw [hdb]
    exact hcapacity
  · rw [hdb]
    exact hcapacity.offer hsub

theorem Consistent.prune {db : Db} (h : Consistent db) (dbNow : Int) :
    Consistent (pruneExpired db dbNow) := by
  constructor
  · exact h.agentHosts
  · intro b hb
    exact h.batchKeys b (List.mem_of_mem_filter hb)
  · intro s hs
    simp only [pruneExpired, List.mem_filter, List.any_eq_true, decide_eq_true_eq] at hs
    obtain ⟨-, b, hb, hk, hlive⟩ := hs
    exact ⟨b, by simp [pruneExpired, hb, hlive], hk⟩

theorem Reachable.consistent {db : Db} (h : Reachable db) : Consistent db := by
  induction h with
  | start hrefer => exact ⟨hrefer, by simp [Db.empty], by simp [Db.empty]⟩
  | enroll _ hrefer ih => exact ⟨hrefer, ih.batchKeys, ih.sampleBatches⟩
  | serve _ c ih => exact ih.serve c
  | prune _ dbNow ih => exact ih.prune dbNow

end NodeScope.Telemetry
