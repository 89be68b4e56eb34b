import NodeScope.Telemetry.Storable

/-!
# Agents do not interfere

The de-duplication key joins fields an agent chooses with colons and without
escaping. The agent's own identifier comes first and has no colon, so the key still
determines all three parts. `othersView` removes from a database the rows one agent
can have written. A call of that agent leaves the view as it is, a call of any other
agent sees nothing but the view, and the two-run statement follows by purging the
agent's calls from both runs.
-/

namespace NodeScope.Telemetry

open Domain Storage Lib Lib.Check Lib.Text Lib.Time

/-- Keys of agents collide only when agent, boot and sequence agree, whatever the
boot identifier holds. -/
theorem idempotencyKeyOf_inj {u v : Uuid} {b b' : String} {s s' : UInt64} :
    idempotencyKeyOf u.toText b s = idempotencyKeyOf v.toText b' s' ↔
      u = v ∧ b = b' ∧ s = s' := by
  rw [idempotencyKeyOf_eq_iff u.colon_notMem_toText v.colon_notMem_toText]
  exact and_congr_left' ⟨Uuid.toText_inj, congrArg Uuid.toText⟩

/-- The identity the store gives to a credential of the agent. -/
def identityOf (a : AgentRow) : AgentIdentity := ⟨a.id.toText, a.hostId.toText⟩

/-- The key starts with the agent's identifier. -/
def ownKey (a : AgentRow) (key : String) : Bool :=
  (a.id.toText.toList ++ [':']).isPrefixOf key.toList

/-- The database without the rows an agent can have written. -/
def othersView (a : AgentRow) (db : Db) : Db :=
  { db with
    telemetryBatches := db.telemetryBatches.filter fun r =>
      !(ownKey a r.idempotencyKey && r.agentId == a.id.toText && r.hostId == a.hostId)
    metricSamples := db.metricSamples.filter fun r =>
      !(ownKey a r.batchKey && r.hostId == a.hostId)
    metricLatest := db.metricLatest.filter fun r => r.hostId != a.hostId
    ingestReceipts := db.ingestReceipts.filter fun r =>
      !(ownKey a r.idempotencyKey && r.agentId == a.id.toText && r.hostId == a.hostId)
    containerInventory := db.containerInventory.filter fun r => r.hostId != a.hostId }

theorem ownKey_self (a : AgentRow) (b : String) (s : UInt64) :
    ownKey a (idempotencyKeyOf a.id.toText b s) = true := by
  rw [ownKey, toList_idempotencyKeyOf, List.isPrefixOf_iff_prefix]
  exact ⟨b.toList ++ ':' :: (Nat.repr s.toNat).toList, by simp⟩

theorem ownKey_other {a x : AgentRow} (h : x.id ≠ a.id) (b : String) (s : UInt64) :
    ownKey a (idempotencyKeyOf x.id.toText b s) = false := by
  rw [Bool.eq_false_iff, ne_eq, ownKey, toList_idempotencyKeyOf, List.isPrefixOf_iff_prefix]
  rintro ⟨rest, hrest⟩
  rw [List.append_assoc, List.singleton_append] at hrest
  have hlen : a.id.toText.toList.length = x.id.toText.toList.length := by
    rw [Uuid.toText_length, Uuid.toText_length]
  obtain ⟨htext, -⟩ := List.append_inj hrest hlen
  exact h (Uuid.toText_inj (String.toList_inj.mp htext)).symm

/-- Rows that satisfy a test are found in a part of the table that holds them. -/
theorem any_filter_of_imp {R : Type} {p q : R → Bool} (h : ∀ r, p r = true → q r = true)
    (l : List R) : (l.filter q).any p = l.any p := by
  rw [List.any_filter]
  congr 1
  funext r
  cases hp : p r with
  | true => simp [h r hp]
  | false => simp

section Others

variable {a x : AgentRow} {c : Call}

/-- A call under the identity of another agent, of another host. -/
structure ByOther (a x : AgentRow) (c : Call) : Prop where
  identity : c.identity = identityOf x
  agent : x.id ≠ a.id
  host : x.hostId ≠ a.hostId
  declared : c.envelope.agentID = x.id.toText

theorem ByOther.notOwnKey (h : ByOther a x c) : ownKey a c.envelope.idempotencyKey = false := by
  rw [Envelope.idempotencyKey, h.declared]
  exact ownKey_other h.agent _ _

theorem ByOther.castHost (h : ByOther a x c) : castUuid c.identity.hostID = .ok x.hostId := by
  rw [h.identity]
  exact castUuid_toText x.hostId

theorem ByOther.agentText_ne (h : ByOther a x c) : c.identity.agentID ≠ a.id.toText := by
  rw [h.identity]
  exact fun e => h.agent (Uuid.toText_inj e)

/-- The other agent's key is looked up among the rows of the view. -/
theorem ByOther.batchKey_any (h : ByOther a x c) (db : Db) :
    ((othersView a db).telemetryBatches.any fun r =>
        r.idempotencyKey == c.envelope.idempotencyKey) =
      db.telemetryBatches.any fun r => r.idempotencyKey == c.envelope.idempotencyKey := by
  apply any_filter_of_imp
  intro r hr
  rw [beq_iff_eq.mp hr, h.notOwnKey]
  rfl

theorem ByOther.receiptKey_any (h : ByOther a x c) (db : Db) :
    ((othersView a db).ingestReceipts.any fun r =>
        r.idempotencyKey == c.envelope.idempotencyKey) =
      db.ingestReceipts.any fun r => r.idempotencyKey == c.envelope.idempotencyKey := by
  apply any_filter_of_imp
  intro r hr
  rw [beq_iff_eq.mp hr, h.notOwnKey]
  rfl

theorem ByOther.parts_any (h : ByOther a x c) (db : Db) :
    ((othersView a db).telemetryBatches.any fun r => r.agentId == c.identity.agentID &&
        r.bootId == c.envelope.bootID && r.sequence == c.envelope.sequence.toNat) =
      db.telemetryBatches.any fun r => r.agentId == c.identity.agentID &&
        r.bootId == c.envelope.bootID && r.sequence == c.envelope.sequence.toNat := by
  apply any_filter_of_imp
  intro r hr
  simp only [Bool.and_eq_true, beq_iff_eq] at hr
  simp [hr.1.1, h.agentText_ne]

theorem ByOther.sampleKey_any (h : ByOther a x c) (db : Db) (hostId : Uuid) (s : Sample)
    (expiresAt : Int) :
    ((othersView a db).metricSamples.any fun r =>
        r.key == (sampleRow c.envelope.idempotencyKey hostId s expiresAt).key) =
      db.metricSamples.any fun r =>
        r.key == (sampleRow c.envelope.idempotencyKey hostId s expiresAt).key := by
  apply any_filter_of_imp
  intro r hr
  have hkey : r.batchKey = c.envelope.idempotencyKey := (Prod.mk.inj (beq_iff_eq.mp hr)).1
  rw [hkey, h.notOwnKey]
  rfl

theorem ByOther.find_latest (h : ByOther a x c) (db : Db) (s : Sample) :
    Table.find LatestRow.key (latestRow c.dbNow x.hostId s).key (othersView a db).metricLatest =
      Table.find LatestRow.key (latestRow c.dbNow x.hostId s).key db.metricLatest := by
  apply Table.find_filter
  · intro r r' hk
    rw [(Prod.mk.inj hk).1]
  · simpa [latestRow] using h.host

theorem ByOther.find_container (h : ByOther a x c) (db : Db) (y : ContainerInventory) :
    Table.find ContainerRow.key (containerRow c.dbNow x.hostId y c.envelope.observedAt).key
        (othersView a db).containerInventory =
      Table.find ContainerRow.key (containerRow c.dbNow x.hostId y c.envelope.observedAt).key
        db.containerInventory := by
  apply Table.find_filter
  · intro r r' hk
    rw [(Prod.mk.inj hk).1]
  · simpa [containerRow] using h.host

/-- A statement of another agent sees only the view. -/
theorem ByOther.exec_view (h : ByOther a x c) (lost : Bool) (db : Db) (w : Write) :
    w.exec lost (othersView a db) c = w.exec lost db c := by
  have hhosts : (othersView a db).hosts = db.hosts := rfl
  cases w with
  | rawBatch =>
      simp only [Write.exec, insertRawBatch, batchRow, h.batchKey_any, h.parts_any, checkHost,
        hhosts]
  | receipt =>
      simp only [Write.exec, insertReceipt, receiptRow, h.receiptKey_any, checkHost, hhosts]
  | rawSample s =>
      simp only [Write.exec, insertRawSample, h.batchKey_any, h.sampleKey_any, checkHost, hhosts]
  | latest s =>
      simp only [Write.exec, upsertLatest, h.castHost, ok_bind, h.find_latest, checkHost, hhosts]
  | container y =>
      simp only [Write.exec, upsertContainer, h.castHost, ok_bind, h.find_container, checkHost,
        hhosts]

/-- The rows of another agent are outside the part that the view removes. -/
theorem ByOther.put_view (h : ByOther a x c) (db : Db) (w : Write) :
    othersView a (db.put (w.proposal c x.hostId)) =
      (othersView a db).put (w.proposal c x.hostId) := by
  cases w with
  | rawBatch =>
      simp [Write.proposal, Db.put, othersView, batchRow, h.notOwnKey]
  | receipt =>
      simp [Write.proposal, Db.put, othersView, receiptRow, h.notOwnKey]
  | rawSample s =>
      simp [Write.proposal, Db.put, othersView, sampleRow, h.notOwnKey]
  | latest s =>
      have hp := Table.filter_put LatestRow.key (fun r => r.hostId != a.hostId)
        (latestRow c.dbNow x.hostId s) db.metricLatest (fun r hk => by rw [(Prod.mk.inj hk).1])
      rw [if_pos (by simpa [latestRow] using h.host)] at hp
      simp only [Write.proposal, Db.put, othersView, hp]
  | container y =>
      have hp := Table.filter_put ContainerRow.key (fun r => r.hostId != a.hostId)
        (containerRow c.dbNow x.hostId y c.envelope.observedAt) db.containerInventory
        (fun r hk => by rw [(Prod.mk.inj hk).1])
      rw [if_pos (by simpa [containerRow] using h.host)] at hp
      simp only [Write.proposal, Db.put, othersView, hp]

theorem ByOther.puts_view (h : ByOther a x c) {lost : Bool} {db : Db} {w : Write}
    {p : Option Put} (hp : w.exec lost db c = .ok p) :
    othersView a (db.puts p.toList) = (othersView a db).puts p.toList := by
  obtain ⟨hostId, hcast, rfl⟩ := w.exec_ok hp
  rw [h.castHost, Except.ok.injEq] at hcast
  subst hcast
  split
  · exact h.put_view db w
  · rfl

/-- The writes of another agent run in the view as they run in the database. -/
theorem ByOther.runWrites_view (h : ByOther a x c) (fails : StorePoint → Bool) (i : Nat)
    (ws : List Write) (db : Db) :
    runWrites fails c i ws (othersView a db) =
      (runWrites fails c i ws db).map (othersView a) := by
  induction ws generalizing i db with
  | nil => rfl
  | cons w rest ih =>
      rw [runWrites, runWrites, h.exec_view]
      cases hp : w.exec (fails (.write i)) db c with
      | error e => rfl
      | ok p =>
          rw [ok_bind, ok_bind, ← h.puts_view hp]
          exact ih (i + 1) _

theorem ByOther.keyReceived_view (h : ByOther a x c) (db : Db) :
    keyReceived (othersView a db) c.envelope.idempotencyKey =
      keyReceived db c.envelope.idempotencyKey := by
  rw [keyReceived, h.batchKey_any, h.receiptKey_any, keyReceived]

theorem ByOther.transaction_view (h : ByOther a x c) (fails : StorePoint → Bool) (db : Db) :
    transaction fails (othersView a db) c =
      (transaction fails db c).map fun result => (result.1, othersView a result.2) := by
  have hmode : acceptRawBatches (othersView a db) = acceptRawBatches db := rfl
  simp only [transaction, h.keyReceived_view, hmode, h.runWrites_view, map_bind, bind_map]
  cases keyReceived db c.envelope.idempotencyKey with
  | true => rfl
  | false =>
      simp only [Bool.false_eq_true, if_false, map_bind]
      rfl

/-- The envelope another agent gets stored declares its identity. -/
theorem byOther_of_checked (hidentity : c.identity = identityOf x) (hagent : x.id ≠ a.id)
    (hhost : x.hostId ≠ a.hostId) (hchecked : checkSubmission c = .ok ()) : ByOther a x c := by
  refine ⟨hidentity, hagent, hhost, ?_⟩
  rw [(agentID_of_checkSubmission hchecked).1, hidentity]
  rfl

/-- A call of another agent has the same outcome in the view. -/
theorem persistEnvelope_view (hidentity : c.identity = identityOf x) (hagent : x.id ≠ a.id)
    (hhost : x.hostId ≠ a.hostId) (fails : StorePoint → Bool) (db : Db) :
    persistEnvelope fails (othersView a db) c =
      ((persistEnvelope fails db c).1, othersView a (persistEnvelope fails db c).2) := by
  cases hchecked : checkSubmission c with
  | error e =>
      simp only [persistEnvelope, transaction, hchecked, error_bind]
  | ok u =>
      have h := byOther_of_checked hidentity hagent hhost hchecked
      rw [persistEnvelope, h.transaction_view, persistEnvelope]
      cases transaction fails db c <;> rfl

end Others

/-- Offers inside a class of keys leave the rows outside it alone. -/
theorem filter_foldl_upsert {R K : Type} [DecidableEq K] {key : R → K}
    {replaces : R → R → Bool} {p : R → Bool} (hp : ∀ r r', key r = key r' → p r = p r')
    {rs : List R} (hrs : ∀ r ∈ rs, p r = false) (rows : List R) :
    (rs.foldl (Table.upsert key replaces) rows).filter p = rows.filter p := by
  induction rs generalizing rows with
  | nil => rfl
  | cons r rest ih =>
      obtain ⟨hr, hrest⟩ := List.forall_mem_cons.mp hrs
      rw [List.foldl_cons, ih hrest, Table.filter_upsert replaces p r rows hp, hr]
      rfl

/-- A call of the agent itself leaves the view of the others as it is. -/
theorem serve_own_view {a : AgentRow} {c : Call} (hidentity : c.identity = identityOf a)
    (db : Db) :
    othersView a (serve db c).2 = othersView a { db with capacityStatus := c.capacity } := by
  obtain ⟨-, hdb⟩ | ⟨-, hchecked, -, hostId, raw, hhost, hdb⟩ := serve_cases db c
  · rw [hdb]
  · have hhostId : a.hostId = hostId := by
      rw [callHost, hidentity] at hhost
      exact Option.some.inj ((Uuid.parse_toText a.hostId).symm.trans hhost)
    have hagent : c.identity.agentID = a.id.toText := by
      rw [hidentity]
      rfl
    have hkey : ownKey a c.envelope.idempotencyKey = true := by
      rw [Envelope.idempotencyKey, (agentID_of_checkSubmission hchecked).1, hagent]
      exact ownKey_self a _ _
    obtain ⟨hhosts, hagents, hcapacity, haudit⟩ := foldl_offer_registry (proposals c hostId raw)
      { db with capacityStatus := c.capacity }
    rw [hdb]
    simp only [othersView, Db.mk.injEq]
    refine ⟨hhosts, hagents, ?_, ?_, ?_, ?_, ?_, hcapacity, haudit⟩
    · rw [foldl_offer_telemetryBatches, proposals_batch]
      cases raw <;> simp [batchRow, hkey, hagent, hhostId]
    · rw [foldl_offer_metricSamples, proposals_sample]
      cases raw <;> simp [sampleRow, hkey, hhostId, List.filter_map, Function.comp_def]
    · rw [foldl_offer_metricLatest, proposals_latest]
      apply filter_foldl_upsert
      · intro r r' hk
        rw [(Prod.mk.inj hk).1]
      · intro r hr
        obtain ⟨s, -, rfl⟩ := List.mem_map.mp hr
        simp [latestRow, hhostId]
    · rw [foldl_offer_ingestReceipts, proposals_receipt]
      cases raw <;> simp [receiptRow, hkey, hagent, hhostId]
    · rw [foldl_offer_containerInventory, proposals_container]
      apply filter_foldl_upsert
      · intro r r' hk
        rw [(Prod.mk.inj hk).1]
      · intro r hr
        obtain ⟨y, -, rfl⟩ := List.mem_map.mp hr
        simp [containerRow, hhostId]

/-- Two databases differ only in the rows the agent can have written. -/
def Agree (a : AgentRow) (db db' : Db) : Prop :=
  ∀ capacity, othersView a { db with capacityStatus := capacity } =
    othersView a { db' with capacityStatus := capacity }

theorem serve_own_agree {a : AgentRow} {c : Call} (hidentity : c.identity = identityOf a)
    {db db' : Db} (h : Agree a db db') : Agree a (serve db c).2 db' := by
  intro capacity
  have hview := serve_own_view hidentity db
  have hset (d : Db) : othersView a { d with capacityStatus := capacity } =
      { othersView a d with capacityStatus := capacity } := rfl
  rw [hset, hview, ← hset, h capacity]

/-- A call of another agent has the same result in both databases, and they go on
to agree. -/
theorem serve_other_agree {a x : AgentRow} {c : Call} (hidentity : c.identity = identityOf x)
    (hagent : x.id ≠ a.id) (hhost : x.hostId ≠ a.hostId) {db db' : Db} (h : Agree a db db') :
    (serve db c).1 = (serve db' c).1 ∧ Agree a (serve db c).2 (serve db' c).2 := by
  have hview (d : Db) := persistEnvelope_view hidentity hagent hhost healthy
    { d with capacityStatus := c.capacity }
  have heq := hview db
  rw [h c.capacity, hview db', Prod.mk.injEq] at heq
  refine ⟨heq.1.symm, ?_⟩
  intro capacity
  have hset (d : Db) : othersView a { d with capacityStatus := capacity } =
      { othersView a d with capacityStatus := capacity } := rfl
  rw [hset, hset, serve, serve, heq.2]

/-- The calls of a run with their results. -/
def outcomes : Db → List Call → List (Call × Except PersistError PersistResult)
  | _, [] => []
  | db, c :: rest => (c, (serve db c).1) :: outcomes (serve db c).2 rest

/-- The call was not made under the identity of the agent. -/
def notBy (a : AgentRow) (c : Call) : Bool := c.identity != identityOf a

/-- The agents whose credentials the store accepts have identifiers and hosts of
their own, as the keys of the table demand. -/
structure UniqueAgents (agents : List AgentRow) : Prop where
  ids : (agents.map AgentRow.id).Nodup
  hosts : (agents.map AgentRow.hostId).Nodup

/-- The identity of the call was given to one of the agents. -/
def Authenticated (agents : List AgentRow) (c : Call) : Prop :=
  ∃ x ∈ agents, c.identity = identityOf x

/-- Purging the calls of an agent from a run changes neither the outcomes of the
other calls nor the rows of the others. -/
theorem purge {agents : List AgentRow} (hunique : UniqueAgents agents) {a : AgentRow}
    (ha : a ∈ agents) {cs : List Call} (hcs : ∀ c ∈ cs, Authenticated agents c) {db db' : Db}
    (h : Agree a db db') :
    (outcomes db cs).filter (fun o => notBy a o.1) = outcomes db' (cs.filter (notBy a)) ∧
      Agree a (runCalls db cs) (runCalls db' (cs.filter (notBy a))) := by
  induction cs generalizing db db' with
  | nil => exact ⟨rfl, h⟩
  | cons c rest ih =>
      obtain ⟨⟨x, hx, hidentity⟩, hrest⟩ := List.forall_mem_cons.mp hcs
      have hrun : runCalls db (c :: rest) = runCalls (serve db c).2 rest := rfl
      by_cases hxa : x = a
      · subst hxa
        have hby : notBy x c = false := by simp [notBy, hidentity]
        obtain ⟨hout, hagree⟩ := ih hrest (serve_own_agree hidentity h)
        simp only [outcomes, List.filter_cons, hby, Bool.false_eq_true, if_false, hrun]
        exact ⟨hout, hagree⟩
      · have hagent : x.id ≠ a.id := fun e => hxa (List.inj_on_of_nodup_map hunique.ids hx ha e)
        have hhost : x.hostId ≠ a.hostId :=
          fun e => hxa (List.inj_on_of_nodup_map hunique.hosts hx ha e)
        have hby : notBy a c = true := by
          simp only [notBy, hidentity, bne_iff_ne, ne_eq, identityOf, AgentIdentity.mk.injEq,
            not_and]
          exact fun e => absurd (Uuid.toText_inj e) hagent
        obtain ⟨hresult, hnext⟩ := serve_other_agree hidentity hagent hhost h
        obtain ⟨hout, hagree⟩ := ih hrest hnext
        simp only [outcomes, List.filter_cons, hby, if_true, hresult, hout, hrun]
        exact ⟨trivial, hagree⟩

/-- The rows of a host. -/
structure HostRows where
  telemetryBatches : List BatchRow
  metricSamples : List SampleRow
  metricLatest : List LatestRow
  ingestReceipts : List ReceiptRow
  containerInventory : List ContainerRow
deriving DecidableEq

def rowsOf (db : Db) (hostId : Uuid) : HostRows where
  telemetryBatches := db.telemetryBatches.filter fun r => r.hostId == hostId
  metricSamples := db.metricSamples.filter fun r => r.hostId == hostId
  metricLatest := db.metricLatest.filter fun r => r.hostId == hostId
  ingestReceipts := db.ingestReceipts.filter fun r => r.hostId == hostId
  containerInventory := db.containerInventory.filter fun r => r.hostId == hostId

/-- The rows of another host are all in the view. -/
theorem rowsOf_othersView {a : AgentRow} {hostId : Uuid} (h : hostId ≠ a.hostId) (db : Db) :
    rowsOf (othersView a db) hostId = rowsOf db hostId := by
  have hfilter {R : Type} (host : R → Uuid) (q : R → Bool) (l : List R)
      (hq : ∀ r, host r = hostId → q r = true) :
      (l.filter q).filter (fun r => host r == hostId) = l.filter fun r => host r == hostId := by
    rw [List.filter_filter]
    congr 1
    funext r
    by_cases hr : host r = hostId
    · simp [hr, hq r hr]
    · simp [hr]
  simp only [rowsOf, othersView, HostRows.mk.injEq]
  refine ⟨?_, ?_, ?_, ?_, ?_⟩
  · exact hfilter BatchRow.hostId _ _ fun r hr => by simp [hr, h]
  · exact hfilter SampleRow.hostId _ _ fun r hr => by simp [hr, h]
  · exact hfilter LatestRow.hostId _ _ fun r hr => by simp [hr, h]
  · exact hfilter ReceiptRow.hostId _ _ fun r hr => by simp [hr, h]
  · exact hfilter ContainerRow.hostId _ _ fun r hr => by simp [hr, h]

theorem Agree.rowsOf {a : AgentRow} {db db' : Db} (h : Agree a db db') {hostId : Uuid}
    (hhost : hostId ≠ a.hostId) : Telemetry.rowsOf db hostId = Telemetry.rowsOf db' hostId := by
  have hview := h none
  have hrows (d : Db) : Telemetry.rowsOf d hostId =
      Telemetry.rowsOf (othersView a { d with capacityStatus := none }) hostId := by
    rw [rowsOf_othersView hhost]
    rfl
  rw [hrows db, hview, ← hrows db']

/-- No agent influences another. Two runs that differ only in the calls made under
the identity of one agent give every other call the same result and leave the same
rows for every other host. Keys never collide between agents, and for one agent
exactly when boot and sequence agree. -/
theorem agents_do_not_interfere {db : Db} (hunique : UniqueAgents db.agents) {a : AgentRow}
    (ha : a ∈ db.agents) {cs₁ cs₂ : List Call} (h₁ : ∀ c ∈ cs₁, Authenticated db.agents c)
    (h₂ : ∀ c ∈ cs₂, Authenticated db.agents c)
    (hsame : cs₁.filter (notBy a) = cs₂.filter (notBy a)) :
    (outcomes db cs₁).filter (fun o => notBy a o.1) =
        (outcomes db cs₂).filter (fun o => notBy a o.1) ∧
      (∀ hostId, hostId ≠ a.hostId →
        rowsOf (runCalls db cs₁) hostId = rowsOf (runCalls db cs₂) hostId) ∧
      ∀ (u v : Uuid) (b b' : String) (s s' : UInt64),
        idempotencyKeyOf u.toText b s = idempotencyKeyOf v.toText b' s' ↔
          u = v ∧ b = b' ∧ s = s' := by
  have hrefl : Agree a db db := fun _ => rfl
  obtain ⟨hout₁, hagree₁⟩ := purge hunique ha h₁ hrefl
  obtain ⟨hout₂, hagree₂⟩ := purge hunique ha h₂ hrefl
  refine ⟨?_, ?_, ?_⟩
  · rw [hout₁, hout₂, hsame]
  · intro hostId hhost
    rw [hagree₁.rowsOf hhost, hagree₂.rowsOf hhost, hsame]
  · intro u v b b' s s'
    exact idempotencyKeyOf_inj

/-- An agent whose identifier and host are made of one byte each. -/
def byteAgent (agent host : UInt8) : AgentRow :=
  ⟨Uuid.ofByte agent, Uuid.ofByte host, "agent", List.replicate 32 agent, "hint", 0, none, 1,
    none⟩

def twoHostDb : Db :=
  { Db.empty with
    hosts := [⟨Uuid.ofByte 1, "alpha", "Alpha", "linux", none⟩,
      ⟨Uuid.ofByte 3, "beta", "Beta", "linux", none⟩]
    agents := [byteAgent 2 1, byteAgent 4 3] }

/-- A submission of an agent with a boot identifier of its choice. -/
def bootCall (agent host : UInt8) (bootID : String) : Call where
  identity := identityOf (byteAgent agent host)
  envelope := .draft (Uuid.ofByte agent).toText (Uuid.ofByte host).toText bootID 1 (seconds 10)
    [⟨"d", ⟨"m", "u", some ⟨0⟩, .fresh, "s", "t", seconds 10⟩⟩] []
  now := seconds 100
  dbNow := sqlSeconds 100
  capacity := some true

theorem colon_boot_does_not_interfere :
    (outcomes twoHostDb [bootCall 2 1 "b:1", bootCall 4 3 "b"]).filter
        (fun o => notBy (byteAgent 2 1) o.1) =
      (outcomes twoHostDb [bootCall 4 3 "b"]).filter (fun o => notBy (byteAgent 2 1) o.1) ∧
      rowsOf (runCalls twoHostDb [bootCall 2 1 "b:1", bootCall 4 3 "b"]) (Uuid.ofByte 3) =
        rowsOf (runCalls twoHostDb [bootCall 4 3 "b"]) (Uuid.ofByte 3) := by
  have hunique : UniqueAgents twoHostDb.agents := ⟨by decide, by decide⟩
  have hfirst : Authenticated twoHostDb.agents (bootCall 2 1 "b:1") :=
    ⟨byteAgent 2 1, List.mem_cons_self, rfl⟩
  have hsecond : Authenticated twoHostDb.agents (bootCall 4 3 "b") :=
    ⟨byteAgent 4 3, List.mem_cons_of_mem _ List.mem_cons_self, rfl⟩
  have hown : notBy (byteAgent 2 1) (bootCall 2 1 "b:1") = false := by simp [notBy, bootCall]
  have h₁ : ∀ c ∈ [bootCall 2 1 "b:1", bootCall 4 3 "b"], Authenticated twoHostDb.agents c := by
    simp [hfirst, hsecond]
  have h₂ : ∀ c ∈ [bootCall 4 3 "b"], Authenticated twoHostDb.agents c := by simp [hsecond]
  have hsame : [bootCall 2 1 "b:1", bootCall 4 3 "b"].filter (notBy (byteAgent 2 1)) =
      [bootCall 4 3 "b"].filter (notBy (byteAgent 2 1)) := by
    simp [List.filter_cons, hown]
  obtain ⟨hout, hrows, -⟩ :=
    agents_do_not_interfere hunique List.mem_cons_self h₁ h₂ hsame
  exact ⟨hout, hrows (Uuid.ofByte 3) (by decide)⟩

end NodeScope.Telemetry
