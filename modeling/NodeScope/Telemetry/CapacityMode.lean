import NodeScope.Telemetry.Storable

/-!
# The capacity mode and the live state

`accept_raw_batches` decides whether a submission is kept as a raw batch with its samples
or as a compact receipt. Two runs of the same submissions under different schedules of that
value are compared step by step: as long as no call fails they tell the agents the same,
and differ only in what they keep of the raw telemetry.
-/

namespace NodeScope.Telemetry

open Domain Storage Lib Lib.Check Lib.Time

/-- The answers of a run of calls. -/
def answers : Db → List Call → List (Except PersistError PersistResult)
  | _, [] => []
  | db, c :: rest => (serve db c).1 :: answers (serve db c).2 rest

/-- The same envelope from the same agent, received at the same time. The database's clock
and the capacity state may differ. -/
structure SameSubmission (c₁ c₂ : Call) : Prop where
  identity : c₁.identity = c₂.identity
  envelope : c₁.envelope = c₂.envelope
  now : c₁.now = c₂.now

/-- Two databases that agree on everything but the raw telemetry, the times at which the
database wrote its rows, and which table holds a key. -/
structure LiveAgree (db₁ db₂ : Db) : Prop where
  hosts : db₁.hosts = db₂.hosts
  agents : db₁.agents = db₂.agents
  auditEvents : db₁.auditEvents = db₂.auditEvents
  metricLatest : db₁.metricLatest.map LatestRow.unstamped =
    db₂.metricLatest.map LatestRow.unstamped
  containerInventory : db₁.containerInventory.map ContainerRow.unstamped =
    db₂.containerInventory.map ContainerRow.unstamped
  keys : ∀ key, keyReceived db₁ key = keyReceived db₂ key

theorem LiveAgree.refl (db : Db) : LiveAgree db db := ⟨rfl, rfl, rfl, rfl, rfl, fun _ => rfl⟩

theorem LiveAgree.withCapacity {db₁ db₂ : Db} (h : LiveAgree db₁ db₂) (mode₁ mode₂ : Option Bool) :
    LiveAgree { db₁ with capacityStatus := mode₁ } { db₂ with capacityStatus := mode₂ } :=
  ⟨h.hosts, h.agents, h.auditEvents, h.metricLatest, h.containerInventory, h.keys⟩

theorem SameSubmission.latestRows {c₁ c₂ : Call} (h : SameSubmission c₁ c₂) (hostId : Uuid) :
    (latestRows c₁ hostId).map LatestRow.unstamped =
      (latestRows c₂ hostId).map LatestRow.unstamped := by
  simp [Telemetry.latestRows, h.envelope, h.now, Function.comp_def, latestRow,
    LatestRow.unstamped]

theorem SameSubmission.containerRows {c₁ c₂ : Call} (h : SameSubmission c₁ c₂) (hostId : Uuid) :
    (containerRows c₁ hostId).map ContainerRow.unstamped =
      (containerRows c₂ hostId).map ContainerRow.unstamped := by
  simp [Telemetry.containerRows, h.envelope, Function.comp_def, containerRow,
    ContainerRow.unstamped]

/-- The guards of the two upserts do not read the time of the write. -/
theorem unstamped_upsertLatest (rs rows : List LatestRow) :
    (rs.foldl (Table.upsert LatestRow.key latestReplaces) rows).map LatestRow.unstamped =
      (rs.map LatestRow.unstamped).foldl (Table.upsert LatestRow.key latestReplaces)
        (rows.map LatestRow.unstamped) :=
  Table.map_foldl_upsert (f := LatestRow.unstamped) latestReplaces (fun _ => rfl)
    (fun _ _ => rfl) rs rows

theorem unstamped_upsertContainer (rs rows : List ContainerRow) :
    (rs.foldl (Table.upsert ContainerRow.key containerReplaces) rows).map ContainerRow.unstamped =
      (rs.map ContainerRow.unstamped).foldl (Table.upsert ContainerRow.key containerReplaces)
        (rows.map ContainerRow.unstamped) :=
  Table.map_foldl_upsert (f := ContainerRow.unstamped) containerReplaces (fun _ => rfl)
    (fun _ _ => rfl) rs rows

/-- Both modes offer the same rows to the live tables. -/
theorem LiveAgree.offer {db₁ db₂ : Db} (h : LiveAgree db₁ db₂) {c₁ c₂ : Call}
    (hsame : SameSubmission c₁ c₂) (hostId : Uuid) (raw₁ raw₂ : Bool) :
    LiveAgree ((proposals c₁ hostId raw₁).foldl Telemetry.offer db₁)
      ((proposals c₂ hostId raw₂).foldl Telemetry.offer db₂) := by
  obtain ⟨hhosts₁, hagents₁, -, haudit₁⟩ := foldl_offer_registry (proposals c₁ hostId raw₁) db₁
  obtain ⟨hhosts₂, hagents₂, -, haudit₂⟩ := foldl_offer_registry (proposals c₂ hostId raw₂) db₂
  constructor
  · rw [hhosts₁, hhosts₂, h.hosts]
  · rw [hagents₁, hagents₂, h.agents]
  · rw [haudit₁, haudit₂, h.auditEvents]
  · rw [foldl_offer_metricLatest, foldl_offer_metricLatest, proposals_latest, proposals_latest,
      unstamped_upsertLatest, unstamped_upsertLatest, hsame.latestRows, h.metricLatest]
  · rw [foldl_offer_containerInventory, foldl_offer_containerInventory, proposals_container,
      proposals_container, unstamped_upsertContainer, unstamped_upsertContainer,
      hsame.containerRows, h.containerInventory]
  · intro key
    rw [keyReceived_foldl_offer, keyReceived_foldl_offer, h.keys, hsame.envelope]

/-- A call without an error found its key, or offered its rows. -/
theorem serve_ok {db : Db} {c : Call} (h : (serve db c).1.isOk = true) :
    (keyReceived db c.envelope.idempotencyKey = true ∧ inserted (serve db c).1 = false ∧
      (serve db c).2 = { db with capacityStatus := c.capacity }) ∨
    (keyReceived db c.envelope.idempotencyKey = false ∧ inserted (serve db c).1 = true ∧
      ∃ hostId raw, callHost c = some hostId ∧
        (serve db c).2 = (proposals c hostId raw).foldl offer
          { db with capacityStatus := c.capacity }) := by
  rw [serve, persistEnvelope] at h ⊢
  cases ht : transaction healthy { db with capacityStatus := c.capacity } c with
  | error e =>
      rw [ht] at h
      exact absurd h (by simp [Except.isOk, Except.toBool])
  | ok result =>
      obtain ⟨r, db'⟩ := result
      obtain ⟨-, -, ⟨hkey, rfl, hdb⟩ | ⟨hkey, rfl, -, hostId, hcast, hdb⟩⟩ := transaction_ok ht
      · exact Or.inl ⟨hkey, rfl, hdb⟩
      · exact Or.inr ⟨hkey, rfl, hostId, _, callHost_eq_some.mpr hcast, hdb⟩

/-- One call, under any two capacity states that both take it. -/
theorem LiveAgree.serve {db₁ db₂ : Db} (h : LiveAgree db₁ db₂) {c₁ c₂ : Call}
    (hsame : SameSubmission c₁ c₂) (hok₁ : (serve db₁ c₁).1.isOk = true)
    (hok₂ : (Telemetry.serve db₂ c₂).1.isOk = true) :
    inserted (Telemetry.serve db₁ c₁).1 = inserted (Telemetry.serve db₂ c₂).1 ∧
      LiveAgree (Telemetry.serve db₁ c₁).2 (Telemetry.serve db₂ c₂).2 := by
  have hkeys : keyReceived db₁ c₁.envelope.idempotencyKey =
      keyReceived db₂ c₂.envelope.idempotencyKey := by
    rw [h.keys, hsame.envelope]
  rcases serve_ok hok₁ with ⟨hk₁, hi₁, hdb₁⟩ | ⟨hk₁, hi₁, hostId₁, raw₁, hhost₁, hdb₁⟩
  · rcases serve_ok hok₂ with ⟨-, hi₂, hdb₂⟩ | ⟨hk₂, -⟩
    · rw [hi₁, hi₂, hdb₁, hdb₂]
      exact ⟨rfl, h.withCapacity c₁.capacity c₂.capacity⟩
    · rw [hkeys, hk₂] at hk₁
      cases hk₁
  · rcases serve_ok hok₂ with ⟨hk₂, -⟩ | ⟨-, hi₂, hostId₂, raw₂, hhost₂, hdb₂⟩
    · rw [hkeys, hk₂] at hk₁
      cases hk₁
    · have hhosts : some hostId₁ = some hostId₂ := by
        rw [← hhost₁, ← hhost₂, callHost, callHost, hsame.identity]
      obtain rfl := Option.some.inj hhosts
      rw [hi₁, hi₂, hdb₁, hdb₂]
      exact ⟨rfl, (h.withCapacity c₁.capacity c₂.capacity).offer hsame hostId₁ raw₁ raw₂⟩

/-- The same submissions under two schedules of the capacity state leave databases that
agree on the live state and the known keys, and get the same `Inserted` flags. -/
theorem LiveAgree.runCalls {db₁ db₂ : Db} (h : LiveAgree db₁ db₂) {cs₁ cs₂ : List Call}
    (hsame : List.Forall₂ SameSubmission cs₁ cs₂)
    (hok₁ : ∀ r ∈ answers db₁ cs₁, r.isOk = true) (hok₂ : ∀ r ∈ answers db₂ cs₂, r.isOk = true) :
    (answers db₁ cs₁).map inserted = (answers db₂ cs₂).map inserted ∧
      LiveAgree (Telemetry.runCalls db₁ cs₁) (Telemetry.runCalls db₂ cs₂) := by
  induction hsame generalizing db₁ db₂ with
  | nil => exact ⟨rfl, h⟩
  | @cons c₁ c₂ rest₁ rest₂ hc _ ih =>
      rw [answers, List.forall_mem_cons] at hok₁ hok₂
      obtain ⟨hflag, hnext⟩ := h.serve hc hok₁.1 hok₂.1
      obtain ⟨hflags, hfinal⟩ := ih hnext hok₁.2 hok₂.2
      refine ⟨?_, hfinal⟩
      rw [answers, answers, List.map_cons, List.map_cons, hflag, hflags]

/-- The capacity mode does not influence the live state. -/
theorem capacity_mode_does_not_interfere (db : Db) (cs₁ cs₂ : List Call)
    (hsame : List.Forall₂ SameSubmission cs₁ cs₂)
    (hok₁ : ∀ r ∈ answers db cs₁, r.isOk = true) (hok₂ : ∀ r ∈ answers db cs₂, r.isOk = true) :
    (runCalls db cs₁).metricLatest.map LatestRow.unstamped =
      (runCalls db cs₂).metricLatest.map LatestRow.unstamped ∧
    (runCalls db cs₁).containerInventory.map ContainerRow.unstamped =
      (runCalls db cs₂).containerInventory.map ContainerRow.unstamped ∧
    (answers db cs₁).map inserted = (answers db cs₂).map inserted ∧
    (∀ key, keyReceived (runCalls db cs₁) key = keyReceived (runCalls db cs₂) key) ∧
    (runCalls db cs₁).hosts = (runCalls db cs₂).hosts ∧
    (runCalls db cs₁).agents = (runCalls db cs₂).agents ∧
    (runCalls db cs₁).auditEvents = (runCalls db cs₂).auditEvents := by
  obtain ⟨hflags, hagree⟩ := (LiveAgree.refl db).runCalls hsame hok₁ hok₂
  exact ⟨hagree.metricLatest, hagree.containerInventory, hflags, hagree.keys, hagree.hosts,
    hagree.agents, hagree.auditEvents⟩

/-- A reading and its repetition, each under a capacity state of its own. -/
def underModes (mode₁ mode₂ : Option Bool) : List Call :=
  [{ processorCall .fresh 1 10 with capacity := mode₁ },
    { processorCall .fresh 1 10 with capacity := mode₂ }]

/-- A submission whose key is known is answered with success. -/
theorem serve_received {db : Db} {c : Call} (hchecked : checkSubmission c = .ok ())
    (hnul : hasNul c.envelope.idempotencyKey = false)
    (hkey : keyReceived db c.envelope.idempotencyKey = true) :
    (serve db c).1 = .ok ⟨false, false⟩ := by
  have hknown : keyReceived { db with capacityStatus := c.capacity } c.envelope.idempotencyKey =
      true := hkey
  simp [serve, persistEnvelope, transaction, hchecked, healthy, lockKey, failIf, hnul, hknown]

theorem isOk_of_inserted {result : Except PersistError PersistResult}
    (h : inserted result = true) : result.isOk = true := by
  cases result with
  | ok r => rfl
  | error e => cases h

/-- Both calls succeed, whatever the states: the second one finds the key of the first. -/
theorem underModes_answered (mode₁ mode₂ : Option Bool) :
    ∀ r ∈ answers oneHostDb (underModes mode₁ mode₂), r.isOk = true := by
  have hsubmitted :=
    processorCall_submitted oneHostDb_reachable.consistent rfl processorCall_checked rfl
  have hinserted := submission_inserted mode₁
  have hkey : keyReceived (serve oneHostDb (submission mode₁)).2
      (processorCall .fresh 1 10).envelope.idempotencyKey = true := by
    obtain ⟨-, hno, -⟩ | ⟨-, -, hostId, raw, -, hdb⟩ := serve_ok (isOk_of_inserted hinserted)
    · rw [hinserted] at hno
      cases hno
    · have hself : (submission mode₁).envelope.idempotencyKey =
          (processorCall .fresh 1 10).envelope.idempotencyKey := rfl
      rw [hdb, keyReceived_foldl_offer, hself, beq_self_eq_true, Bool.or_true]
  have hrepeated : (serve (serve oneHostDb (submission mode₁)).2 (submission mode₂)).1 = _ :=
    serve_received processorCall_checked hsubmitted.keyNoNul hkey
  have hcalls : underModes mode₁ mode₂ = [submission mode₁, submission mode₂] := rfl
  rw [hcalls, answers, answers, List.forall_mem_cons, hrepeated]
  refine ⟨isOk_of_inserted hinserted, ?_⟩
  intro r hr
  obtain rfl := List.mem_singleton.mp hr
  rfl

theorem underModes_agree :
    (answers oneHostDb (underModes none (some true))).map inserted =
      (answers oneHostDb (underModes (some true) (some false))).map inserted ∧
    keyReceived (runCalls oneHostDb (underModes none (some true))) =
      keyReceived (runCalls oneHostDb (underModes (some true) (some false))) := by
  have hagree := capacity_mode_does_not_interfere oneHostDb (underModes none (some true))
    (underModes (some true) (some false))
    (.cons ⟨rfl, rfl, rfl⟩ (.cons ⟨rfl, rfl, rfl⟩ .nil)) (underModes_answered _ _)
    (underModes_answered _ _)
  exact ⟨hagree.2.2.1, funext hagree.2.2.2.1⟩

end NodeScope.Telemetry
