import NodeScope.Control.Principal
import NodeScope.Lib.Json
import NodeScope.Storage.Schema

/-!
# Audited operations

`RefreshStorageBaseline` of the control plane asks the database for an operation of a host.
`mcp_refresh_storage_baseline` looks the host up and calls `create_operation_with_audit`, which
inserts an audit event and then the operation that refers to it. The two inserts are one
transaction, so that a call that raises leaves both tables alone; but the first one gives its
event the outcome `intent`, which the type of that column does not have.

## Implementation notes

The identifiers that `gen_random_uuid` would draw are inputs. Columns with a default that no
modelled statement reads are left out. A literal of an enumeration is taken to its type before the
statement that holds it checks anything.
-/

namespace NodeScope.Control

open Storage Lib Lib.Check Lib.Text

structure ManagedHost where
  row : HostRow
  enabled : Bool

structure AuditEvent where
  id : Uuid
  actorType : ActorType
  actorId : String
  actorUserId : Option Uuid
  action : String
  targetType : String
  targetId : Option String
  outcome : OperationState
  metadata : Json.Value

structure OperationRow where
  id : Uuid
  auditEventId : Uuid
  hostId : Option Uuid
  action : String
  desiredState : Json.Value
  state : OperationState

structure OperationsDb where
  hosts : List ManagedHost
  auditEvents : List AuditEvent
  operations : List OperationRow

/-- The exceptions of the functions, and the errors of their statements. -/
inductive OperationError where
  | invalidEncoding
  | hostUnavailable
  | actorIdRequired
  | unsupportedAction (action : String)
  | targetTypeRequired
  | invalidEnum (type text : String)
  | database (cause : PgError)
deriving DecidableEq

/-- The values of the type `operation_state`. -/
def operationStateOf : String → Option OperationState
  | "pending" => some .pending
  | "acknowledged" => some .acknowledged
  | "completed" => some .completed
  | "failed" => some .failed
  | "denied" => some .denied
  | _ => none

def castOperationState (text : String) : Except OperationError OperationState :=
  orFail (operationStateOf text) (.invalidEnum "nodescope.operation_state" text)

/-- The actions of Release 1. -/
def operationActions : List String := ["set_collection_interval", "refresh_storage_baseline"]

/-- The parameters of `create_operation_with_audit`. -/
structure OperationCall where
  actorType : ActorType
  actorId : Option String
  actorUserId : Option Uuid
  action : String
  targetType : Option String
  targetId : Option String
  hostId : Option Uuid
  desiredState : Option Json.Value

/-- The identifiers of the two rows. -/
structure FreshIds where
  auditEvent : Uuid
  operation : Uuid
deriving DecidableEq

def OperationCall.desired (call : OperationCall) : Json.Value :=
  call.desiredState.getD (.object [])

def AuditEvent.checks (event : AuditEvent) : List (String × Bool) :=
  [("audit_events_action_check", filled event.action),
    ("audit_events_actor_id_check", filled event.actorId),
    ("audit_events_target_type_check", filled event.targetType)]

def insertAuditEvent (db : OperationsDb) (id : Uuid) (call : OperationCall) :
    Except OperationError OperationsDb := do
  let outcome ← castOperationState "intent"
  let actorId ← orFail call.actorId (.database (.notNull "actor_id"))
  let targetType ← orFail call.targetType (.database (.notNull "target_type"))
  let event : AuditEvent := ⟨id, call.actorType, actorId, call.actorUserId, call.action, targetType,
    call.targetId, outcome, .object [("desired_state", call.desired)]⟩
  (checkAll event.checks).mapError .database
  failIf (db.auditEvents.any fun e => e.id == id) (.database (.unique "audit_events_pkey"))
  pure { db with auditEvents := db.auditEvents ++ [event] }

def insertOperation (db : OperationsDb) (ids : FreshIds) (call : OperationCall) :
    Except OperationError OperationsDb := do
  let state ← castOperationState "pending"
  failIf (!operationActions.contains call.action) (.database (.check "operations_action_check"))
  failIf (db.operations.any fun o => o.id == ids.operation) (.database (.unique "operations_pkey"))
  failIf (db.operations.any fun o => o.auditEventId == ids.auditEvent)
    (.database (.unique "operations_audit_event_id_key"))
  failIf (!db.auditEvents.any fun e => e.id == ids.auditEvent)
    (.database (.foreignKey "operations_audit_event_id_fkey"))
  failIf (call.hostId.any fun id => !db.hosts.any fun host => host.row.id == id)
    (.database (.foreignKey "operations_host_id_fkey"))
  let operation : OperationRow :=
    ⟨ids.operation, ids.auditEvent, call.hostId, call.action, call.desired, state⟩
  pure { db with operations := db.operations ++ [operation] }

def createOperationWithAudit (db : OperationsDb) (ids : FreshIds) (call : OperationCall) :
    Except OperationError (FreshIds × OperationsDb) := do
  failIf (!filled (call.actorId.getD "")) .actorIdRequired
  failIf (!operationActions.contains call.action) (.unsupportedAction call.action)
  failIf (!filled (call.targetType.getD "")) .targetTypeRequired
  let audited ← insertAuditEvent db ids.auditEvent call
  let created ← insertOperation audited ids call
  pure (ids, created)

/-- The host that the function selects. -/
def enabledHost (db : OperationsDb) (slug : String) : Option ManagedHost :=
  db.hosts.find? fun host => host.row.slug == slug && host.enabled

def mcpRefreshStorageBaseline (db : OperationsDb) (ids : FreshIds) (actorId hostSlug : String) :
    Except OperationError (Uuid × OperationsDb) := do
  let host ← orFail (enabledHost db hostSlug) .hostUnavailable
  let (created, after) ← createOperationWithAudit db ids
    { actorType := .client
      actorId := some actorId
      actorUserId := none
      action := "refresh_storage_baseline"
      targetType := some "host"
      targetId := some hostSlug
      hostId := some host.row.id
      desiredState := some (.object [("acknowledged_diff", .bool true)]) }
  pure (created.operation, after)

/-- The statement of `PostgresService.RefreshStorageBaseline`: its parameters have to be texts of
the database. -/
def requestBaseline (db : OperationsDb) (ids : FreshIds) (principal : Principal)
    (hostID : List UInt8) : Except OperationError (Uuid × OperationsDb) := do
  let hostSlug ← orFail (ofUtf8 hostID) .invalidEncoding
  (checkTexts [principal.id, hostSlug]).mapError .database
  mcpRefreshStorageBaseline db ids principal.id hostSlug

/-- `PostgresService.RefreshStorageBaseline`: the error, and the tables after it. -/
def refreshStorageBaseline (db : OperationsDb) (ids : FreshIds) (principal : Principal)
    (hostID : List UInt8) : Except OperationError Unit × OperationsDb :=
  match requestBaseline db ids principal hostID with
  | .ok (_, after) => (.ok (), after)
  | .error e => (.error e, db)

section Statements

/-- The actor is not blank, and the host is there and enabled. -/
def Grantable (db : OperationsDb) (principal : Principal) (hostID : List UInt8) : Prop :=
  filled principal.id = true ∧ ∃ host ∈ db.hosts, host.enabled = true ∧ utf8 host.row.slug = hostID

/-- The tables have one more pending operation, which refers to one more event of that actor and
host. -/
def AddsOne (db after : OperationsDb) (principal : Principal) (hostID : List UInt8) : Prop :=
  ∃ event operation, after.auditEvents = db.auditEvents ++ [event] ∧
    after.operations = db.operations ++ [operation] ∧ operation.state = .pending ∧
    operation.auditEventId = event.id ∧ event.actorId = principal.id ∧
    (∃ slug, event.targetId = some slug ∧ utf8 slug = hostID) ∧
    ∃ host ∈ db.hosts, operation.hostId = some host.row.id ∧ utf8 host.row.slug = hostID

/-- A call that may be granted adds the operation with its event; any other fails and adds
nothing. -/
structure AuditedAtomically (db : OperationsDb) (ids : FreshIds) (principal : Principal)
    (hostID : List UInt8) : Prop where
  granted : Grantable db principal hostID →
    (refreshStorageBaseline db ids principal hostID).1 = .ok () ∧
      AddsOne db (refreshStorageBaseline db ids principal hostID).2 principal hostID
  refused : ¬ Grantable db principal hostID →
    (refreshStorageBaseline db ids principal hostID).1 ≠ .ok () ∧
      (refreshStorageBaseline db ids principal hostID).2 = db

end Statements

section Failure

variable {db : OperationsDb} {ids : FreshIds} {principal : Principal} {hostID : List UInt8}

/-- The outcome of the event is no value of its type. -/
theorem insertAuditEvent_fails (id : Uuid) (call : OperationCall) :
    insertAuditEvent db id call =
      .error (.invalidEnum "nodescope.operation_state" "intent") := rfl

theorem createOperationWithAudit_fails (call : OperationCall) :
    ∃ e, createOperationWithAudit db ids call = .error e := by
  cases h : createOperationWithAudit db ids call with
  | error e => exact ⟨e, rfl⟩
  | ok created =>
      simp only [createOperationWithAudit, unit_bind_eq_ok] at h
      obtain ⟨-, -, -, h⟩ := h
      rw [insertAuditEvent_fails] at h
      cases h

/-- No request is granted. -/
theorem requestBaseline_fails : ∃ e, requestBaseline db ids principal hostID = .error e := by
  cases h : requestBaseline db ids principal hostID with
  | error e => exact ⟨e, rfl⟩
  | ok result =>
      obtain ⟨slug, -, h⟩ := bind_eq_ok.mp h
      rw [unit_bind_eq_ok] at h
      obtain ⟨host, -, h⟩ := bind_eq_ok.mp h.2
      obtain ⟨created, hcreated, -⟩ := bind_eq_ok.mp h
      obtain ⟨e, hfails⟩ := createOperationWithAudit_fails _
      rw [hfails] at hcreated
      cases hcreated

/-- A request leaves the tables alone, and says that it failed. -/
theorem refreshStorageBaseline_fails :
    ∃ e, refreshStorageBaseline db ids principal hostID = (.error e, db) := by
  obtain ⟨e, hfails⟩ : ∃ e, requestBaseline db ids principal hostID = .error e :=
    requestBaseline_fails
  exact ⟨e, by rw [refreshStorageBaseline, hfails]⟩

/-- The requests that are answered as they should be are those that nothing could grant. -/
theorem audited_atomically_iff :
    AuditedAtomically db ids principal hostID ↔ ¬ Grantable db principal hostID := by
  obtain ⟨e, hfails⟩ : ∃ e, refreshStorageBaseline db ids principal hostID = (.error e, db) :=
    refreshStorageBaseline_fails
  constructor
  · intro hatomic hgrantable
    have hok := (hatomic.granted hgrantable).1
    rw [hfails] at hok
    cases hok
  · intro hnot
    refine ⟨fun hgrantable => absurd hgrantable hnot, fun _ => ?_⟩
    rw [hfails]
    exact ⟨nofun, rfl⟩

end Failure

section Witness

def asus : ManagedHost := ⟨⟨⟨List.Vector.replicate 16 7⟩, "asus", "ASUS", "linux", none⟩, true⟩

/-- Operator and host are known, and the request is refused. -/
theorem enabled_host_not_audited :
    Grantable ⟨[asus], [], []⟩ ⟨"operator-1", .operator⟩ (utf8 "asus") ∧
      ¬ AuditedAtomically ⟨[asus], [], []⟩
        ⟨⟨List.Vector.replicate 16 1⟩, ⟨List.Vector.replicate 16 2⟩⟩ ⟨"operator-1", .operator⟩
        (utf8 "asus") := by
  have hgrantable : Grantable ⟨[asus], [], []⟩ ⟨"operator-1", .operator⟩ (utf8 "asus") :=
    ⟨by decide, asus, List.mem_singleton_self asus, rfl, rfl⟩
  refine ⟨hgrantable, fun hatomic => ?_⟩
  have hok := (hatomic.granted hgrantable).1
  cases hok

end Witness

end NodeScope.Control
