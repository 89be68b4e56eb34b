import NodeScope.Lib.Check
import NodeScope.Lib.Float64
import NodeScope.Lib.Table
import NodeScope.Lib.Text

/-!
# The router of the console

The development state of the console and the six mutations of its router. A mutation first passes
the role of its caller, then its own checks, then changes the state and prepends an audit.

## Implementation notes

Inputs are structures with what their schemas demand, since a procedure runs on validated inputs
only; the texts of a schema with `trim` are trimmed already. Of the fleet's snapshot the mutations
use the hosts with their storage and the alerts with their hosts. The URL parser of the platform is
a parameter, and the random identifiers and the time are inputs of a call. A `Map` and a `Set` are
lists in the order of insertion.
-/

namespace NodeScope.Console

open Lib Lib.Check Lib.Text

/-- The codes of the errors that the router throws. -/
inductive TRPCCode where
  | unauthorized
  | forbidden
  | badRequest
  | notFound
deriving DecidableEq

/-- `TRPCError`. -/
structure TRPCError where
  code : TRPCCode
  message : String
deriving DecidableEq

inductive Comparison where
  | gt
  | lt
deriving DecidableEq

inductive Severity where
  | critical
  | warning
  | info
deriving DecidableEq

def Severity.text : Severity → String
  | .critical => "critical"
  | .warning => "warning"
  | .info => "info"

inductive Scope where
  | fleet
  | host
deriving DecidableEq

def Scope.text : Scope → String
  | .fleet => "fleet"
  | .host => "host"

/-- `AlertRule` of the router. -/
structure AlertRule where
  id : String
  metric : String
  operator : Comparison
  threshold : Float64
  durationSeconds : Int
  severity : Severity
  enabled : Bool
  scope : Scope
  hostId : Option String
deriving DecidableEq

/-- The outcomes of a `DevelopmentAudit`. -/
inductive AuditOutcome where
  | intent
  | acknowledged
  | completed
  | failed
  | denied
deriving DecidableEq

inductive MetadataValue where
  | null
  | text (s : String)
  | number (n : Int)
  | flag (b : Bool)
deriving DecidableEq

/-- The type of the actor is always `user`. -/
structure DevelopmentAudit where
  id : String
  actorId : String
  action : String
  targetType : String
  targetId : Option String
  outcome : AuditOutcome
  occurredAt : Int
  metadata : List (String × MetadataValue)
deriving DecidableEq

/-- The type of `developmentState`. -/
structure DevelopmentState where
  globalIntervalSeconds : Int
  hostOverrides : List (String × Int)
  acknowledgedAlerts : List String
  approvedRuntimeIds : List String
  audits : List DevelopmentAudit
  alertRules : List AlertRule
deriving DecidableEq

/-- `developmentState` as the router starts with it. -/
def developmentState : DevelopmentState where
  globalIntervalSeconds := 5
  hostOverrides := [("asus", 10)]
  acknowledgedAlerts := []
  approvedRuntimeIds := []
  audits := []
  alertRules := [
    ⟨"rule-asus-ttft", "inference.ttft_p95_ms", .gt, .ofRat 750, 300, .warning, true, .host,
      some "asus"⟩,
    ⟨"rule-storage", "storage.usage_percent", .gt, .ofRat 85, 600, .warning, true, .fleet, none⟩,
    ⟨"rule-temperature", "device.temperature_celsius", .gt, .ofRat 82, 120, .critical, true, .fleet,
      none⟩]

structure Host where
  id : String
  storage : List String
deriving DecidableEq

structure Alert where
  id : String
  hostId : String
deriving DecidableEq

/-- Of `FleetSnapshot` what the mutations look at. -/
structure FleetSnapshot where
  hosts : List Host
  alerts : List Alert
deriving DecidableEq

/-- `buildFleetSnapshot`, which has fixed hosts and alerts. -/
def buildFleetSnapshot : FleetSnapshot where
  hosts := [⟨"framework", ["root", "models", "docker"]⟩, ⟨"asus", ["root", "models", "backup"]⟩]
  alerts := [⟨"alert-backup-mount", "asus"⟩, ⟨"alert-vllm-ttft", "asus"⟩]

/-- What a call takes from the platform: its random identifiers and the time. -/
structure Fresh where
  auditId : String
  otherId : String
  now : Int
deriving DecidableEq

/-- `createAudit`, which prepends the audit that it returns. -/
def createAudit (fresh : Fresh) (actorId action targetType : String) (targetId : Option String)
    (metadata : List (String × MetadataValue)) (outcome : AuditOutcome)
    (state : DevelopmentState) : DevelopmentAudit × DevelopmentState :=
  let audit := ⟨fresh.auditId, actorId, action, targetType, targetId, outcome, fresh.now, metadata⟩
  (audit, { state with audits := audit :: state.audits })

/-- `requireHost`. -/
def requireHost (fleet : FleetSnapshot) (hostId : String) : Except TRPCError Host :=
  orFail (fleet.hosts.find? fun candidate => candidate.id == hostId)
    ⟨.notFound, "Unknown host " ++ hostId⟩

/-- The parts of a parsed URL that are looked at. -/
structure EndpointURL where
  protocol : String
  username : String
  password : String
  hostname : String
  pathname : String
  search : String
  hash : String
deriving DecidableEq

/-- The `transport` of an approved endpoint. -/
inductive Transport where
  | https
  | loopbackHttp
deriving DecidableEq

def Transport.text : Transport → String
  | .https => "https"
  | .loopbackHttp => "loopback_http"

/-- A path without the slash at its end. -/
def dropFinalSlash (path : String) : String :=
  if path.toList.getLast? = some '/' then String.ofList path.toList.dropLast else path

/-- `validateRuntimeApprovalEndpoint`. -/
def validateRuntimeApprovalEndpoint (newURL : String → Option EndpointURL) (rawEndpoint : String) :
    Except TRPCError Transport := do
  let endpoint ← orFail (newURL rawEndpoint)
    ⟨.badRequest, "Runtime endpoint must be a valid URL"⟩
  failIf (endpoint.username != "" || endpoint.password != "" || endpoint.search != "" ||
      endpoint.hash != "" || endpoint.hostname == "" ||
      !(["http:", "https:"].contains endpoint.protocol) ||
      !(["", "/v1"].contains (dropFinalSlash endpoint.pathname)))
    ⟨.badRequest,
      "Runtime endpoint must be a credential-free HTTP(S) base URL or /v1 endpoint"⟩
  if endpoint.protocol = "http:" then
    let hostname := endpoint.hostname.map Char.toLower
    failIf (hostname != "localhost" && hostname != "127.0.0.1" && hostname != "::1")
      ⟨.badRequest, "Runtime endpoint must use HTTPS unless it is loopback"⟩
    pure .loopbackHttp
  else pure .https

/-- The input of `alerts.rules.save`. -/
structure SaveInput extends AlertRule where
  idLength : 1 ≤ utf16Length id ∧ utf16Length id ≤ 100
  metricLength : 1 ≤ utf16Length metric ∧ utf16Length metric ≤ 120
  finite : threshold.isFinite = true
  duration : 1 ≤ durationSeconds ∧ durationSeconds ≤ 86400
  hostNamed : hostId ≠ some ""

/-- The input of `alerts.acknowledge`. -/
structure AcknowledgeInput where
  alertId : String
  note : Option String
  alertNamed : alertId ≠ ""
  noteLength : ∀ text, note = some text → utf16Length text ≤ 500

/-- The input of `configuration.setCollectionInterval`. -/
structure IntervalInput where
  hostId : Option String
  intervalSeconds : Int
  hostNamed : hostId ≠ some ""
  interval : 1 ≤ intervalSeconds ∧ intervalSeconds ≤ 60

/-- The input of `configuration.refreshStorageBaseline`. -/
structure BaselineInput where
  hostId : String
  acknowledgedDiff : Bool
  hostNamed : hostId ≠ ""

inductive RuntimeKind where
  | vllm
  | llamaCpp
  | lmstudio
  | agentzero
  | other
deriving DecidableEq

def RuntimeKind.text : RuntimeKind → String
  | .vllm => "vllm"
  | .llamaCpp => "llama.cpp"
  | .lmstudio => "lmstudio"
  | .agentzero => "agentzero"
  | .other => "other"

/-- The input of `runtimes.approve`. -/
structure ApproveInput where
  hostId : String
  endpoint : String
  runtimeKind : RuntimeKind
  hostNamed : hostId ≠ ""
  endpointLength : 1 ≤ utf16Length endpoint ∧ utf16Length endpoint ≤ 2048

/-- The input of `backups.initiate`. -/
structure InitiateInput where
  includeRawTelemetry : Bool

/-- The mutations of `nodeScopeRouter`, with their inputs. -/
inductive Mutation where
  | saveRule (input : SaveInput)
  | acknowledge (input : AcknowledgeInput)
  | setCollectionInterval (input : IntervalInput)
  | refreshStorageBaseline (input : BaselineInput)
  | approve (input : ApproveInput)
  | initiate (input : InitiateInput)

inductive MutationResult where
  | saved (rule : AlertRule) (auditEvent : DevelopmentAudit)
  | acknowledged (alertId : String) (auditEvent : DevelopmentAudit)
  | intervalSet (operationId : String) (auditEvent : DevelopmentAudit)
      (effectiveIntervalSeconds : Int)
  | baselineRefreshed (operationId : String) (auditEvent : DevelopmentAudit)
  | approved (candidateId : String) (auditEvent : DevelopmentAudit)
  | initiated (operationId : String) (auditEvent : DevelopmentAudit)
deriving DecidableEq

/-- What a mutation returns or throws, with the state it leaves. -/
abbrev Outcome := Except TRPCError MutationResult × DevelopmentState

/-- Whether an optional text is neither missing nor empty. -/
def truthy (text : Option String) : Bool := text.getD "" != ""

/-- Whether a rule and its host fit together. -/
def checkScope (fleet : FleetSnapshot) (rule : AlertRule) : Except TRPCError Unit := do
  failIf (rule.scope == .host && !truthy rule.hostId)
    ⟨.badRequest, "A host-scoped alert rule requires hostId"⟩
  failIf (rule.scope == .fleet && truthy rule.hostId)
    ⟨.badRequest, "A fleet-scoped alert rule cannot target a host"⟩
  if rule.scope = .host ∧ truthy rule.hostId then
    let _ ← requireHost fleet (rule.hostId.getD "")
    pure ()
  else pure ()

/-- The rules after one was saved: in its place, or before all others. -/
def putRule (rule : AlertRule) (rules : List AlertRule) : List AlertRule :=
  match rules.findIdx? fun candidate => candidate.id == rule.id with
  | some index => rules.set index rule
  | none => rule :: rules

/-- The mutation of `alerts.rules.save`. -/
def saveRule (fleet : FleetSnapshot) (actorId : String) (fresh : Fresh) (input : SaveInput)
    (state : DevelopmentState) : Outcome :=
  let rule := input.toAlertRule
  match checkScope fleet rule with
  | .error error => (.error error, state)
  | .ok _ =>
      let (audit, state) := createAudit fresh actorId "alert_rule.save" "alert_rule" (some rule.id)
        [("metric", .text rule.metric), ("severity", .text rule.severity.text),
          ("scope", .text rule.scope.text)] .completed
        { state with alertRules := putRule rule state.alertRules }
      (.ok (.saved rule audit), state)

/-- `Set.add`. -/
def setAdd (elements : List String) (element : String) : List String :=
  if element ∈ elements then elements else elements ++ [element]

/-- The mutation of `alerts.acknowledge`. -/
def acknowledge (fleet : FleetSnapshot) (actorId : String) (fresh : Fresh)
    (input : AcknowledgeInput) (state : DevelopmentState) : Outcome :=
  match fleet.alerts.find? fun candidate => candidate.id == input.alertId with
  | none => (.error ⟨.notFound, "Unknown alert " ++ input.alertId⟩, state)
  | some alert =>
      let (audit, state) := createAudit fresh actorId "alert.acknowledge" "alert" (some alert.id)
        [("note", match input.note with | some note => .text note | none => .null),
          ("hostId", .text alert.hostId)] .completed
        { state with acknowledgedAlerts := setAdd state.acknowledgedAlerts alert.id }
      (.ok (.acknowledged alert.id audit), state)

/-- `Map.set`. -/
def mapSet (entries : List (String × Int)) (key : String) (value : Int) : List (String × Int) :=
  Table.put Prod.fst (key, value) entries

/-- The mutation of `configuration.setCollectionInterval`. -/
def setCollectionInterval (fleet : FleetSnapshot) (actorId : String) (fresh : Fresh)
    (input : IntervalInput) (state : DevelopmentState) : Outcome :=
  let finish (targetType : String) (state : DevelopmentState) : Outcome :=
    let (audit, state) := createAudit fresh actorId "collection_interval.set" targetType
      input.hostId [("intervalSeconds", .number input.intervalSeconds)] .completed state
    (.ok (.intervalSet fresh.otherId audit input.intervalSeconds), state)
  if truthy input.hostId then
    match requireHost fleet (input.hostId.getD "") with
    | .error error => (.error error, state)
    | .ok _ => finish "host" { state with
        hostOverrides := mapSet state.hostOverrides (input.hostId.getD "") input.intervalSeconds }
  else finish "fleet" { state with globalIntervalSeconds := input.intervalSeconds }

/-- The mutation of `configuration.refreshStorageBaseline`. -/
def refreshStorageBaseline (fleet : FleetSnapshot) (actorId : String) (fresh : Fresh)
    (input : BaselineInput) (state : DevelopmentState) : Outcome :=
  match requireHost fleet input.hostId with
  | .error error => (.error error, state)
  | .ok host =>
      if input.acknowledgedDiff then
        let (audit, state) := createAudit fresh actorId "storage_baseline.refresh" "host"
          (some host.id) [("resourceCount", .number host.storage.length)] .completed state
        (.ok (.baselineRefreshed fresh.otherId audit), state)
      else
        (.error ⟨.badRequest, "Storage baseline diff acknowledgement is required"⟩, state)

/-- The mutation of `runtimes.approve`. -/
def approve (fleet : FleetSnapshot) (newURL : String → Option EndpointURL) (actorId : String)
    (fresh : Fresh) (input : ApproveInput) (state : DevelopmentState) : Outcome :=
  match requireHost fleet input.hostId with
  | .error error => (.error error, state)
  | .ok _ =>
      match validateRuntimeApprovalEndpoint newURL input.endpoint with
      | .error error => (.error error, state)
      | .ok transport =>
          let candidateId := "runtime:" ++ input.hostId ++ ":" ++ fresh.otherId
          let (audit, state) := createAudit fresh actorId "runtime.approve" "runtime_candidate"
            (some candidateId) [("runtimeKind", .text input.runtimeKind.text),
              ("transport", .text transport.text)] .completed
            { state with approvedRuntimeIds := setAdd state.approvedRuntimeIds candidateId }
          (.ok (.approved candidateId audit), state)

/-- The mutation of `backups.initiate`. -/
def initiate (actorId : String) (fresh : Fresh) (input : InitiateInput)
    (state : DevelopmentState) : Outcome :=
  let (audit, state) := createAudit fresh actorId "backup.initiate" "backup" none
    [("includeRawTelemetry", .flag input.includeRawTelemetry)] .intent state
  (.ok (.initiated fresh.otherId audit), state)

/-- `NodeScopeRole`. -/
inductive NodeScopeRole where
  | viewer
  | operator
  | administrator
deriving DecidableEq

def NodeScopeRole.text : NodeScopeRole → String
  | .viewer => "viewer"
  | .operator => "operator"
  | .administrator => "administrator"

/-- `roleRank`. -/
def roleRank : NodeScopeRole → Nat
  | .viewer => 1
  | .operator => 2
  | .administrator => 3

structure User where
  openId : String
  role : Option String
deriving DecidableEq

/-- `nodeScopeRoleForTemplateUser`. -/
def nodeScopeRoleForTemplateUser (role : Option String) : NodeScopeRole :=
  if role = some "admin" then .administrator else .viewer

/-- `requireNodeScopeRole`. -/
def requireNodeScopeRole (minimumRole : NodeScopeRole) (user : Option User) :
    Except TRPCError User := do
  let user ← orFail user ⟨.unauthorized, "Please login (10001)"⟩
  failIf (decide (roleRank (nodeScopeRoleForTemplateUser user.role) < roleRank minimumRole))
    ⟨.forbidden, "NodeScope " ++ minimumRole.text ++ " role is required"⟩
  pure user

/-- The role of the procedure that a mutation belongs to. -/
def Mutation.minimumRole : Mutation → NodeScopeRole
  | .approve _ | .initiate _ => .administrator
  | _ => .operator

/-- A mutation that someone asks for. -/
structure Call where
  user : Option User
  fresh : Fresh
  mutation : Mutation

def runMutation (fleet : FleetSnapshot) (newURL : String → Option EndpointURL) (actorId : String)
    (fresh : Fresh) (state : DevelopmentState) : Mutation → Outcome
  | .saveRule input => saveRule fleet actorId fresh input state
  | .acknowledge input => acknowledge fleet actorId fresh input state
  | .setCollectionInterval input => setCollectionInterval fleet actorId fresh input state
  | .refreshStorageBaseline input => refreshStorageBaseline fleet actorId fresh input state
  | .approve input => approve fleet newURL actorId fresh input state
  | .initiate input => initiate actorId fresh input state

/-- A call to the router. -/
def Call.run (fleet : FleetSnapshot) (newURL : String → Option EndpointURL) (call : Call)
    (state : DevelopmentState) : Outcome :=
  match requireNodeScopeRole call.mutation.minimumRole call.user with
  | .error error => (.error error, state)
  | .ok user => runMutation fleet newURL user.openId call.fresh state call.mutation

end NodeScope.Console
