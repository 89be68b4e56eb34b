import NodeScope.Telemetry.PostgresStore

/-!
# Enrollment and rotation of agent credentials

`enroll_or_rotate_agent` upserts the host under its slug, then the agent under its
host, and records an audit event, all in one statement of the caller. A call that
raises therefore leaves the tables as they were.

## Implementation notes

The function is read with the intended column resolution: `host_id` and
`rotation_version` are the columns, not the output parameters of the same names. The
identifiers `gen_random_uuid` would draw are inputs of the call, checked against the
primary keys. The address has already been parsed as `inet` and is kept as text.
Revocation has no function of its own; it is an update of `revoked_at`.
-/

namespace NodeScope.Credentials

open Storage Lib Lib.Check Lib.Text

structure EnrollCall where
  slug : String
  displayName : String
  platform : String
  address : Option String
  credentialDigest : List UInt8
  credentialHint : String
  credentialExpiresAt : Option Int
  now : Int
  sessionUser : String
  freshHostId : Uuid
  freshAgentId : Uuid

structure EnrollResult where
  hostId : Uuid
  agentId : Uuid
  rotationVersion : Int
deriving DecidableEq

/-- The exceptions of the function, and the errors of its statements. -/
inductive EnrollError where
  | invalidHostSlug
  | displayNameAndPlatformRequired
  | digestLength
  | hintLength
  | expiryNotInFuture
  | database (cause : PgError)
deriving DecidableEq

def slugStart (c : Char) : Bool := ('a' ≤ c && c ≤ 'z') || ('0' ≤ c && c ≤ '9')

/-- The pattern `^[a-z0-9][a-z0-9-]{0,62}$`. -/
def validSlug (slug : String) : Bool :=
  match slug.toList with
  | [] => false
  | c :: rest => slugStart c && rest.all (fun d => slugStart d || d == '-') && rest.length ≤ 62

/-- A comparison with null is not true. -/
def expired (expiresAt : Option Int) (now : Int) : Bool :=
  match expiresAt with
  | none => false
  | some e => e ≤ now

def upsertHost (hosts : List HostRow) (r : EnrollCall) : Except PgError (Uuid × List HostRow) :=
  match Table.find HostRow.slug r.slug hosts with
  | some h =>
      .ok (h.id, Table.put HostRow.slug
        { h with displayName := r.displayName, platform := r.platform, address := r.address } hosts)
  | none => do
      failIf (hosts.any fun h => h.id == r.freshHostId) (.unique "hosts_pkey")
      .ok (r.freshHostId, Table.put HostRow.slug
        ⟨r.freshHostId, r.slug, r.displayName, r.platform, r.address⟩ hosts)

/-- The row the function inserts for a host without an agent. -/
def newAgent (hostId : Uuid) (r : EnrollCall) : AgentRow where
  id := r.freshAgentId
  hostId := hostId
  displayName := r.displayName ++ " native agent"
  credentialDigest := r.credentialDigest
  credentialHint := r.credentialHint
  credentialRotatedAt := r.now
  credentialExpiresAt := r.credentialExpiresAt
  rotationVersion := 1
  revokedAt := none

/-- The update of the row a host already has. The display name stays. -/
def rotateAgent (a : AgentRow) (r : EnrollCall) : AgentRow :=
  { a with
    credentialDigest := r.credentialDigest
    credentialHint := r.credentialHint
    credentialRotatedAt := r.now
    credentialExpiresAt := r.credentialExpiresAt
    rotationVersion := a.rotationVersion + 1
    revokedAt := none }

def maxInteger : Int := 2147483647

def upsertAgent (agents : List AgentRow) (hostId : Uuid) (r : EnrollCall) :
    Except PgError (AgentRow × List AgentRow) := do
  failIf (sqlLength r.credentialHint < 4 || 32 < sqlLength r.credentialHint)
    (.check "agents_credential_hint_check")
  match Table.find AgentRow.hostId hostId agents with
  | some a => do
      failIf (maxInteger ≤ a.rotationVersion) (.outOfRange "rotation_version")
      failIf (agents.any fun x => x.hostId != hostId && x.credentialDigest == r.credentialDigest)
        (.unique "agents_credential_digest_key")
      .ok (rotateAgent a r, Table.put AgentRow.hostId (rotateAgent a r) agents)
  | none => do
      failIf (agents.any fun x => x.id == r.freshAgentId) (.unique "agents_pkey")
      failIf (agents.any fun x => x.credentialDigest == r.credentialDigest)
        (.unique "agents_credential_digest_key")
      .ok (newAgent hostId r, Table.put AgentRow.hostId (newAgent hostId r) agents)

def rotationEvent (r : EnrollCall) (hostId : Uuid) (a : AgentRow) : AuditRow where
  actorType := .system
  actorId := r.sessionUser
  action := "rotate_agent_credential"
  targetType := "agent"
  targetId := some a.id.toText
  outcome := .completed
  metadata := [("host_id", .text hostId.toText), ("rotation_version", .number a.rotationVersion),
    ("credential_hint", .text r.credentialHint)]

def enrollOrRotateAgent (db : Db) (r : EnrollCall) :
    Except EnrollError (EnrollResult × Db) := do
  (checkTexts [r.slug, r.displayName, r.platform, r.credentialHint]).mapError .database
  failIf (!validSlug r.slug) .invalidHostSlug
  failIf (!filled r.displayName || !filled r.platform) .displayNameAndPlatformRequired
  failIf (r.credentialDigest.length != 32) .digestLength
  failIf (sqlLength (sqlTrim r.credentialHint) < 4 || 32 < sqlLength (sqlTrim r.credentialHint))
    .hintLength
  failIf (expired r.credentialExpiresAt r.now) .expiryNotInFuture
  let (hostId, hosts) ← (upsertHost db.hosts r).mapError .database
  let (agent, agents) ← (upsertAgent db.agents hostId r).mapError .database
  .ok (⟨hostId, agent.id, agent.rotationVersion⟩,
    { db with
      hosts := hosts
      agents := agents
      auditEvents := db.auditEvents ++ [rotationEvent r hostId agent] })

/-- `revoked_at` of an agent is set. -/
def revokeAgent (db : Db) (agentId : Uuid) (now : Int) : Db :=
  { db with agents := db.agents.map fun a =>
      if a.id = agentId then { a with revokedAt := some now } else a }

/-- One change of the credentials. -/
inductive Step where
  | enroll (call : EnrollCall)
  | revoke (agentId : Uuid) (now : Int)

def Step.apply (db : Db) : Step → Db
  | .enroll r =>
      match enrollOrRotateAgent db r with
      | .ok (_, db') => db'
      | .error _ => db
  | .revoke agentId now => revokeAgent db agentId now

/-- The tables after a sequence of changes. -/
def runSteps (db : Db) (steps : List Step) : Db := steps.foldl Step.apply db

/-- What a successful call does: it keeps or adds the host of its slug, and keeps or
adds the agent of that host. -/
theorem enrollOrRotateAgent_ok {db db' : Db} {r : EnrollCall} {result : EnrollResult}
    (h : enrollOrRotateAgent db r = .ok (result, db')) :
    ∃ hosts agent agents, upsertHost db.hosts r = .ok (result.hostId, hosts) ∧
      upsertAgent db.agents result.hostId r = .ok (agent, agents) ∧ result.agentId = agent.id ∧
      result.rotationVersion = agent.rotationVersion ∧ db'.hosts = hosts ∧
      db'.agents = agents := by
  simp only [enrollOrRotateAgent, unit_bind_eq_ok] at h
  obtain ⟨-, -, -, -, -, -, h⟩ := h
  rw [bind_eq_ok] at h
  obtain ⟨⟨hostId, hosts⟩, hhost, h⟩ := h
  rw [bind_eq_ok] at h
  obtain ⟨⟨agent, agents⟩, hagent, h⟩ := h
  simp only [Except.ok.injEq, Prod.mk.injEq] at h
  obtain ⟨rfl, rfl⟩ := h
  exact ⟨hosts, agent, agents, mapError_eq_ok.mp hhost, mapError_eq_ok.mp hagent, rfl, rfl, rfl,
    rfl⟩

/-- Credentials are changed apart from the telemetry. -/
theorem Step.apply_telemetry (db : Db) (s : Step) :
    (s.apply db).telemetryBatches = db.telemetryBatches ∧
      (s.apply db).ingestReceipts = db.ingestReceipts := by
  cases s with
  | revoke agentId now => exact ⟨rfl, rfl⟩
  | enroll r =>
      cases h : enrollOrRotateAgent db r with
      | error e => simp [Step.apply, h]
      | ok result =>
          simp only [Step.apply, h]
          simp only [enrollOrRotateAgent, unit_bind_eq_ok] at h
          obtain ⟨-, -, -, -, -, -, h⟩ := h
          rw [bind_eq_ok] at h
          obtain ⟨_, -, h⟩ := h
          rw [bind_eq_ok] at h
          obtain ⟨_, -, h⟩ := h
          simp only [Except.ok.injEq] at h
          rw [← h]
          exact ⟨rfl, rfl⟩

theorem upsertHost_ok {hosts hosts' : List HostRow} {r : EnrollCall} {hostId : Uuid}
    (h : upsertHost hosts r = .ok (hostId, hosts')) :
    ∃ row, row.id = hostId ∧ row.slug = r.slug ∧ hosts' = Table.put HostRow.slug row hosts ∧
      ((∃ old, Table.find HostRow.slug r.slug hosts = some old ∧ old.id = hostId) ∨
        (Table.find HostRow.slug r.slug hosts = none ∧ hostId = r.freshHostId ∧
          ∀ x ∈ hosts, x.id ≠ hostId)) := by
  simp only [upsertHost] at h
  cases hf : Table.find HostRow.slug r.slug hosts with
  | some old =>
      rw [hf] at h
      simp only [Except.ok.injEq, Prod.mk.injEq] at h
      obtain ⟨rfl, rfl⟩ := h
      exact ⟨⟨old.id, old.slug, r.displayName, r.platform, r.address⟩, rfl,
        (Table.mem_of_find hf).2, rfl, Or.inl ⟨old, rfl, rfl⟩⟩
  | none =>
      rw [hf] at h
      simp only [unit_bind_eq_ok, failIf_eq_ok, List.any_eq_false, beq_iff_eq, Except.ok.injEq,
        Prod.mk.injEq] at h
      obtain ⟨hfresh, rfl, rfl⟩ := h
      exact ⟨_, rfl, rfl, rfl, Or.inr ⟨rfl, rfl, hfresh⟩⟩

theorem upsertAgent_ok {agents agents' : List AgentRow} {hostId : Uuid} {r : EnrollCall}
    {agent : AgentRow} (h : upsertAgent agents hostId r = .ok (agent, agents')) :
    agent.hostId = hostId ∧ agent.credentialDigest = r.credentialDigest ∧
      agent.credentialExpiresAt = r.credentialExpiresAt ∧ agent.revokedAt = none ∧
      agents' = Table.put AgentRow.hostId agent agents ∧
      (∀ x ∈ agents, x.hostId ≠ hostId → x.credentialDigest ≠ r.credentialDigest) ∧
      ((∃ old, Table.find AgentRow.hostId hostId agents = some old ∧ agent.id = old.id ∧
          agent.rotationVersion = old.rotationVersion + 1) ∨
        (Table.find AgentRow.hostId hostId agents = none ∧ agent.rotationVersion = 1 ∧
          ∀ x ∈ agents, x.id ≠ agent.id)) := by
  simp only [upsertAgent, unit_bind_eq_ok] at h
  obtain ⟨-, h⟩ := h
  cases hf : Table.find AgentRow.hostId hostId agents with
  | some old =>
      rw [hf] at h
      simp only [unit_bind_eq_ok, failIf_eq_ok, List.any_eq_false, Bool.and_eq_true, bne_iff_ne,
        beq_iff_eq, not_and, Except.ok.injEq, Prod.mk.injEq] at h
      obtain ⟨-, hdigest, rfl, rfl⟩ := h
      exact ⟨(Table.mem_of_find hf).2, rfl, rfl, rfl, rfl, hdigest,
        Or.inl ⟨old, rfl, rfl, rfl⟩⟩
  | none =>
      rw [hf] at h
      simp only [unit_bind_eq_ok, failIf_eq_ok, List.any_eq_false, beq_iff_eq, Except.ok.injEq,
        Prod.mk.injEq] at h
      obtain ⟨hid, hdigest, rfl, rfl⟩ := h
      exact ⟨rfl, rfl, rfl, rfl, rfl, fun x hx _ => hdigest x hx, Or.inr ⟨rfl, rfl, hid⟩⟩

end NodeScope.Credentials
