import NodeScope.Control.Authorization
import NodeScope.Control.ControlPlane
import NodeScope.Lib.Journal

/-!
# The audit trail of the control plane

Requests reach the tables through the REST routes and the tools, from any number of clients, while
other transactions enroll hosts and write events of their own. The events that the control plane
adds are shown to account for everything that clients change: who was allowed to, what was asked
for, and in which order, so that the settings after any run are read off the trail alone.

## Implementation notes

A request is one transaction of the database, which answers every statement. What the methods that
read return is a parameter. Another transaction may add hosts and change what is known of one, but a
host keeps its id and its slug; its events have actions of their own.
-/

namespace NodeScope.Control

open Storage Lib Lib.Check Lib.Text Lib.Reader Lib.Json Lib.Journal Telemetry

variable {Host : Type}

section Model

/-- A request of a client, to either surface. -/
inductive ControlRequest where
  | rest (request : ApiRequest)
  | tool (request : ToolRequest) (call : ToolCall)

inductive ControlAnswer (Host : Type) where
  | rest (response : ApiResponse Host)
  /-- There is no output for a request that is unauthorized. -/
  | tool (output : Option (Except ToolError (ToolOutput Host)))
  | none

/-- The answer says that something was changed. -/
def ControlAnswer.done : ControlAnswer Host → Bool
  | .rest (.status _ _) => true
  | .tool (some (.ok (.action _ audited))) => audited
  | _ => false

/-- What a surface calls for a request, and its answer. -/
def respond (configuration : HTTPConfiguration) (service : Service Host) :
    ControlRequest → List ServiceCall × ControlAnswer Host
  | .rest request =>
      let (calls, response) := serveHTTP ⟨some service, some configuration.authenticator⟩ request
      (calls, .rest response)
  | .tool request call =>
      let results := newHTTPHandler ⟨service⟩ (some configuration.authenticator) (fun _ => [call])
        request
      (toolServiceCalls results, .tool (results.bind fun l => l.head?.map Prod.snd))

/-- A transaction of another component. -/
structure OtherTransaction where
  hosts : List ManagedHost
  events : List AuditEvent

/-- The actions whose events the control plane writes. -/
def trailActions : List String := ["set_collection_interval", "acknowledge_alert"]

/-- The transaction keeps the hosts that there are, and what it adds satisfies the constraints. -/
structure OtherTransaction.Permitted (t : ControlTables) (o : OtherTransaction) : Prop where
  kept : ∀ host ∈ t.operations.hosts, ∃ host' ∈ o.hosts,
    host'.row.id = host.row.id ∧ host'.row.slug = host.row.slug
  hostKeys : (o.hosts.map fun host => host.row.id).Nodup
  hostSlugs : (o.hosts.map fun host => host.row.slug).Nodup
  eventKeys : ((t.operations.auditEvents ++ o.events).map AuditEvent.id).Nodup
  actors : ∀ event ∈ o.events, filled event.actorId = true
  actions : ∀ event ∈ o.events, event.action ∉ trailActions

instance (t : ControlTables) (o : OtherTransaction) : Decidable (o.Permitted t) :=
  decidable_of_iff
    ((∀ host ∈ t.operations.hosts, ∃ host' ∈ o.hosts,
        host'.row.id = host.row.id ∧ host'.row.slug = host.row.slug) ∧
      (o.hosts.map fun host => host.row.id).Nodup ∧
      (o.hosts.map fun host => host.row.slug).Nodup ∧
      ((t.operations.auditEvents ++ o.events).map AuditEvent.id).Nodup ∧
      (∀ event ∈ o.events, filled event.actorId = true) ∧
      ∀ event ∈ o.events, event.action ∉ trailActions)
    ⟨fun ⟨a, b, c, d, e, f⟩ => ⟨a, b, c, d, e, f⟩, fun ⟨a, b, c, d, e, f⟩ => ⟨a, b, c, d, e, f⟩⟩

def OtherTransaction.apply (o : OtherTransaction) (t : ControlTables) : ControlTables :=
  ({ t with operations := { t.operations with hosts := o.hosts } }).addEvents o.events

inductive Input where
  | client (m : Moment) (request : ControlRequest)
  | other (transaction : OtherTransaction)

/-- The answer to an input, and the tables after it. -/
def ControlTables.step (configuration : HTTPConfiguration)
    (reads : ControlTables → Moment → Service Host) (t : ControlTables) :
    Input → ControlAnswer Host × ControlTables
  | .client m request =>
      let (calls, answer) := respond configuration (t.service m (reads t m)) request
      (answer, calls.foldl (fun t call => t.perform m call) t)
  | .other o => (.none, if o.Permitted t then o.apply t else t)

theorem ControlTables.Constrained.other {t : ControlTables} (h : t.Constrained)
    {o : OtherTransaction} (ho : o.Permitted t) : (o.apply t).Constrained where
  globalRange := h.globalRange
  overrideRange := h.overrideRange
  overrideKeys := h.overrideKeys
  overrideHosts := by
    intro row hrow
    obtain ⟨host, hhost, hid⟩ := h.overrideHosts row hrow
    obtain ⟨host', hhost', hsame, -⟩ := ho.kept host hhost
    exact ⟨host', hhost', hsame.trans hid⟩
  alertKeys := h.alertKeys
  notes := h.notes
  eventKeys := ho.eventKeys
  actors := by
    intro event hevent
    rcases List.mem_append.mp hevent with hold | hnew
    · exact h.actors event hold
    · exact ho.actors event hnew
  hostKeys := ho.hostKeys
  hostSlugs := ho.hostSlugs

variable (configuration : HTTPConfiguration) (reads : ControlTables → Moment → Service Host)

theorem ControlTables.Constrained.performAll {t : ControlTables} (h : t.Constrained) (m : Moment)
    (calls : List ServiceCall) : (calls.foldl (fun t call => t.perform m call) t).Constrained := by
  induction calls generalizing t with
  | nil => exact h
  | cons call rest ih => exact ih (h.perform call)

theorem ControlTables.Constrained.step {t : ControlTables} (h : t.Constrained) (input : Input) :
    (t.step configuration reads input).2.Constrained := by
  cases input with
  | client m request => exact h.performAll m _
  | other o =>
      rw [ControlTables.step]
      split
      · next ho => exact h.other ho
      · exact h

def ControlDb.step (db : ControlDb) (input : Input) : ControlAnswer Host × ControlDb :=
  ((db.tables.step configuration reads input).1,
    ⟨(db.tables.step configuration reads input).2,
      db.constrained.step configuration reads input⟩)

end Model

section Trail

/-- What the trail accounts for: the interval of the fleet, those of single hosts, and for each
alert its state and by whom it was acknowledged. -/
structure Audited where
  fleetSeconds : Int
  hostSeconds : Uuid → Option Int
  alert : String → Option (AlertState × Option String)

def ControlTables.audited (t : ControlTables) : Audited where
  fleetSeconds := t.settings.globalIntervalSeconds
  hostSeconds id := (Table.find OverrideRow.hostId id t.settings.overrides).map
    OverrideRow.intervalSeconds
  alert id := (Table.find AlertRow.id id t.alerts).map fun alert =>
    (alert.state, alert.acknowledgedBy)

/-- The interval in the metadata of an event. -/
def eventSeconds (event : AuditEvent) : Option Int :=
  match event.metadata with
  | .object members =>
      match lastNamed "interval_seconds" members with
      | some (.number literal) => int64 literal
      | _ => none
  | _ => none

/-- What an event says that was changed, where a slug names a host. -/
inductive Statement where
  | fleet (intervalSeconds : Int)
  | host (id : Uuid) (intervalSeconds : Int)
  | acknowledged (alertId actorId : String)
deriving DecidableEq

def AuditEvent.statement (hostIds : String → Option Uuid) (event : AuditEvent) :
    Option Statement :=
  if event.action = "set_collection_interval" then
    if event.targetType = "fleet" then (eventSeconds event).map .fleet
    else do
      let slug ← event.targetId
      let id ← hostIds slug
      let seconds ← eventSeconds event
      some (.host id seconds)
  else if event.action = "acknowledge_alert" then
    event.targetId.map fun alertId => .acknowledged alertId event.actorId
  else none

def Audited.apply (a : Audited) : Statement → Audited
  | .fleet seconds => { a with fleetSeconds := seconds }
  | .host id seconds => { a with hostSeconds := Function.update a.hostSeconds id (some seconds) }
  | .acknowledged alertId actorId =>
      { a with alert := Function.update a.alert alertId (some (.acknowledged, some actorId)) }

def Audited.replay (hostIds : String → Option Uuid) (a : Audited) (event : AuditEvent) : Audited :=
  match event.statement hostIds with
  | some s => a.apply s
  | none => a

/-- The trail of the control plane. -/
def trail (hostIds : String → Option Uuid) : Ledger ControlDb Audited AuditEvent where
  log db := db.tables.operations.auditEvents
  view db := db.tables.audited
  apply := Audited.replay hostIds

/-- The id of the host that has a slug. -/
def slugIds (hosts : List ManagedHost) (slug : String) : Option Uuid :=
  (hosts.find? fun host => host.row.slug == slug).map fun host => host.row.id

/-- The slugs of the hosts name them. -/
def Names (hostIds : String → Option Uuid) (hosts : List ManagedHost) : Prop :=
  ∀ host ∈ hosts, hostIds host.row.slug = some host.row.id

def Change.statement (actorId : String) : Change → Statement
  | .interval _ none seconds => .fleet seconds
  | .interval _ (some id) seconds => .host id seconds
  | .acknowledgement alertId _ => .acknowledged alertId actorId

end Trail

section Replay

variable {t t' : ControlTables} {m : Moment} {principal : Principal} {change : Change}
variable {hostIds : String → Option Uuid}

theorem names_slugIds {hosts : List ManagedHost}
    (h : (hosts.map fun host => host.row.slug).Nodup) : Names (slugIds hosts) hosts := by
  intro host hhost
  rw [slugIds]
  cases hfound : hosts.find? fun other => other.row.slug == host.row.slug with
  | none =>
      rw [List.find?_eq_none] at hfound
      exact absurd (beq_self_eq_true _) (hfound host hhost)
  | some other =>
      have hslug := List.find?_some hfound
      rw [beq_iff_eq] at hslug
      rw [List.inj_on_of_nodup_map h (List.mem_of_find?_eq_some hfound) hhost hslug]
      rfl

theorem eventSeconds_intervalEvent {id : Uuid} {actorId : String} {hostSlug : Option String}
    {hostId : Option Uuid} {seconds : Int} (h : InRange seconds) :
    eventSeconds (ControlTables.intervalEvent id actorId hostSlug hostId seconds) =
      some seconds := by
  obtain ⟨hlow, hhigh⟩ := h
  have hname : ("interval_seconds" == "interval_seconds") = true := by decide
  simp only [eventSeconds, ControlTables.intervalEvent, lastNamed, lastWhere, List.reverse_cons,
    List.reverse_nil, List.nil_append, List.find?_cons, hname]
  exact int64_intLiteral (by omega) (by omega)

theorem statement_fleet {event : AuditEvent} (haction : event.action = "set_collection_interval")
    (htype : event.targetType = "fleet") :
    event.statement hostIds = (eventSeconds event).map .fleet := by
  rw [AuditEvent.statement, if_pos haction, if_pos htype]

theorem statement_host {event : AuditEvent} {slug : String} {id : Uuid} {seconds : Int}
    (haction : event.action = "set_collection_interval") (htype : event.targetType ≠ "fleet")
    (htarget : event.targetId = some slug) (hid : hostIds slug = some id)
    (hseconds : eventSeconds event = some seconds) :
    event.statement hostIds = some (.host id seconds) := by
  rw [AuditEvent.statement, if_pos haction, if_neg htype, htarget, hseconds]
  change (hostIds slug).bind _ = _
  rw [hid]
  rfl

/-- An event says what was changed. -/
theorem statement_event (hfits : change.Fits t) (hnames : Names hostIds t.operations.hosts)
    (id : Uuid) (actorId : String) :
    (change.event id actorId).statement hostIds = some (change.statement actorId) := by
  cases change with
  | interval hostSlug hostId seconds =>
      obtain ⟨hrange, hhost⟩ := hfits
      cases hostId with
      | none =>
          rw [statement_fleet rfl rfl, Change.event, eventSeconds_intervalEvent hrange]
          rfl
      | some hostId =>
          obtain ⟨host, hmem, rfl, rfl⟩ := mem_of_intervalHost hhost
          have htype : "host" ≠ "fleet" := by decide
          exact statement_host rfl htype rfl (hnames host hmem) (eventSeconds_intervalEvent hrange)
  | acknowledgement alertId note => rfl

/-- The update of the alerts keeps their ids. -/
theorem keepsId {now : Int} {actorId alertId note : String} (alert : AlertRow) :
    (if ControlTables.isTarget alertId alert then
      ControlTables.acknowledgeRow now actorId note alert else alert).id = alert.id := by
  split <;> rfl

/-- What is stored by a change is what its event says. -/
theorem audited_effect (h : t.Constrained) (heffect : Effect t m principal change t') :
    t'.audited = t.audited.apply (change.statement principal.id) := by
  obtain ⟨hfits, -, -, rfl⟩ := heffect
  cases change with
  | interval hostSlug hostId seconds =>
      cases hostId with
      | none => rfl
      | some hostId =>
          have hhost : ∀ k, (Table.find OverrideRow.hostId k
                (Table.put OverrideRow.hostId ⟨hostId, seconds⟩ t.settings.overrides)).map
                  OverrideRow.intervalSeconds =
              Function.update t.audited.hostSeconds hostId (some seconds) k := by
            intro k
            rw [Table.find_put, Function.update_apply]
            by_cases hk : hostId = k
            · rw [if_pos hk, if_pos hk.symm]
              rfl
            · rw [if_neg hk, if_neg (Ne.symm hk)]
              rfl
          exact congrArg (fun f => { t.audited with hostSeconds := f }) (funext hhost)
  | acknowledgement alertId note =>
      obtain ⟨⟨target, hmem, htarget⟩, -⟩ := hfits
      have halert : ∀ k, (Table.find AlertRow.id k
            (t.acknowledgeRows m.now principal.id alertId note).alerts).map
              (fun alert => (alert.state, alert.acknowledgedBy)) =
          Function.update t.audited.alert alertId (some (.acknowledged, some principal.id)) k := by
        intro k
        rw [ControlTables.acknowledgeRows, Table.find_map keepsId, Function.update_apply]
        by_cases hk : k = alertId
        · subst hk
          have hkey : target.id = k := by
            rw [ControlTables.isTarget, Bool.and_eq_true, beq_iff_eq] at htarget
            exact htarget.1
          rw [(Table.find_eq_some_iff h.alertKeys).mpr ⟨hmem, hkey⟩, if_pos rfl, Option.map_some,
            if_pos htarget]
          rfl
        · rw [if_neg hk]
          cases hfound : Table.find AlertRow.id k t.alerts with
          | none => simp [ControlTables.audited, hfound]
          | some alert =>
              obtain ⟨-, hid⟩ := Table.mem_of_find hfound
              have hother : ¬ ControlTables.isTarget alertId alert = true := by
                simp [ControlTables.isTarget, hid, hk]
              rw [Option.map_some, if_neg hother]
              simp [ControlTables.audited, hfound]
      exact congrArg (fun f => { t.audited with alert := f }) (funext halert)

end Replay

section Answers

variable {service : Service Host} {principal : Principal}

/-- What a method that changes something returns for a call of it. -/
def Service.carries (service : Service Host) : ServiceCall → Bool
  | .acknowledgeAlert principal alertID note => service.acknowledgeAlert principal alertID note
  | .setCollectionInterval principal hostID seconds =>
      service.setCollectionInterval principal hostID seconds
  | .refreshStorageBaseline principal hostID acknowledgedDiff =>
      service.refreshStorageBaseline principal hostID acknowledgedDiff
  | _ => false

/-- Nothing is changed and the answer does not say so, or there is the one call that the answer
reports on. -/
def Reported (service : Service Host) (calls : List ServiceCall) (done : Bool) : Prop :=
  (done = false ∧ ∀ call ∈ calls, call.mutating = false) ∨
    ∃ call, calls = [call] ∧ call.mutating = true ∧ done = service.carries call

/-- A refusal, which calls nothing. -/
theorem reported_nil : Reported service [] false := Or.inl ⟨rfl, nofun⟩

theorem reported_read {call : ServiceCall} {done : Bool} (h : call.mutating = false)
    (hdone : done = false) : Reported service [call] done :=
  Or.inl ⟨hdone, fun _ hc => List.mem_singleton.mp hc ▸ h⟩

theorem reported_call {call : ServiceCall} {done : Bool} (h : call.mutating = true)
    (hdone : done = service.carries call) : Reported service [call] done :=
  Or.inr ⟨call, rfl, h, hdone⟩

/-- An answer to a call that was carried out or not. -/
theorem done_ite (carried : Bool) (code status : Nat) (word title : String) :
    (ControlAnswer.rest (if carried then (.status code word : ApiResponse Host)
      else .problem status title)).done = carried := by
  cases carried <;> rfl

variable (service principal)

/-- What a route calls, and what its answer reports. -/
def RouteReported (result : List ServiceCall × ApiResponse Host) : Prop :=
  Reported service result.1 (ControlAnswer.rest result.2).done

theorem fleet_reported : RouteReported service (fleet service principal) := by
  rw [fleet]
  split
  · apply reported_read rfl
    cases service.fleetStatus principal <;> rfl
  · exact reported_nil

theorem host_reported (hostID : List UInt8) :
    RouteReported service (host service principal hostID) := by
  rw [host]
  split
  · apply reported_read rfl
    cases service.hostStatus principal hostID <;> rfl
  · exact reported_nil

theorem setInterval_reported (body : Source) :
    RouteReported service (setInterval service principal body) := by
  rw [setInterval]
  split
  · split
    · exact reported_call rfl (done_ite _ _ _ _ _)
    · exact reported_nil
  · exact reported_nil

theorem acknowledgeAlert_reported (body : Source) (alertID : List UInt8) :
    RouteReported service (acknowledgeAlert service principal body alertID) := by
  rw [acknowledgeAlert]
  split
  · exact reported_call rfl (done_ite _ _ _ _ _)
  · exact reported_nil

theorem refreshBaseline_reported (body : Source) (hostID : List UInt8) :
    RouteReported service (refreshBaseline service principal body hostID) := by
  rw [refreshBaseline]
  split
  · split
    · exact reported_call rfl (done_ite _ _ _ _ _)
    · exact reported_nil
  · exact reported_nil

theorem route_reported (request : ApiRequest) :
    RouteReported service (route service principal request) := by
  simp only [route]
  split
  · exact fleet_reported service principal
  · split
    · exact host_reported service principal _
    · split
      · exact setInterval_reported service principal _
      · split
        · exact acknowledgeAlert_reported service principal _ _
        · split
          · exact refreshBaseline_reported service principal _ _
          · split <;> exact reported_nil

theorem serveHTTP_reported (configuration : HTTPConfiguration) (request : ApiRequest) :
    RouteReported service
      (serveHTTP ⟨some service, some configuration.authenticator⟩ request) := by
  simp only [serveHTTP]
  split
  · next principal _ => exact route_reported service principal request
  · next response hauthorize =>
      have hproblem : ∃ title, response = .problem 401 title := by
        rcases bind_eq_error.mp hauthorize with htoken | ⟨token, -, hprincipal⟩
        · exact ⟨_, (orFail_eq_error.mp htoken).2.symm⟩
        · exact ⟨_, (orFail_eq_error.mp hprincipal).2.symm⟩
      obtain ⟨title, rfl⟩ := hproblem
      exact reported_nil

/-- What a tool calls, and what its output reports. -/
def ToolReported (result : ToolResult Host) : Prop :=
  Reported service result.1 (ControlAnswer.tool (some result.2)).done

theorem actionOutput_done (status : String) (carried : Bool) :
    (ControlAnswer.tool (some (actionOutput status carried :
      Except ToolError (ToolOutput Host)))).done = carried := by
  cases carried <;> rfl

theorem callTool_reported (context : Option Principal) (toolCall : ToolCall) :
    ToolReported service (Server.callTool ⟨service⟩ context toolCall) := by
  cases toolCall with
  | fleetStatus =>
      rw [Server.callTool, Server.fleetStatus]
      split
      · exact reported_nil
      · next principal _ =>
          apply reported_read rfl
          cases service.fleetStatus principal <;> rfl
  | acknowledgeAlert alertID note =>
      rw [Server.callTool, Server.acknowledgeAlert]
      split
      · exact reported_nil
      · split
        · exact reported_nil
        · exact reported_call rfl (actionOutput_done _ _)
  | setCollectionInterval hostID intervalSeconds =>
      rw [Server.callTool, Server.setCollectionInterval]
      split
      · exact reported_nil
      · split
        · exact reported_nil
        · exact reported_call rfl (actionOutput_done _ _)
  | refreshStorageBaseline hostID acknowledgedDiff =>
      rw [Server.callTool, Server.refreshStorageBaseline]
      split
      · exact reported_nil
      · split
        · exact reported_nil
        · exact reported_call rfl (actionOutput_done _ _)

/-- An answer reports on the one change that its request asks for. -/
theorem respond_reported (configuration : HTTPConfiguration) (request : ControlRequest) :
    Reported service (respond configuration service request).1
      (respond configuration service request).2.done := by
  cases request with
  | rest request => exact serveHTTP_reported service configuration request
  | tool request call =>
      simp only [respond]
      cases hhandled : newHTTPHandler ⟨service⟩ (some configuration.authenticator)
          (fun _ => [call]) request with
      | none => exact reported_nil
      | some results =>
          obtain ⟨token, -, hrest⟩ := Option.bind_eq_some_iff.mp hhandled
          obtain ⟨principal, -, hresults⟩ := Option.bind_eq_some_iff.mp hrest
          obtain rfl := Option.some.inj hresults
          have htool := callTool_reported service (some principal) call
          simpa [toolServiceCalls, ToolReported] using htool

end Answers

section Requests

variable (configuration : HTTPConfiguration) (reads : ControlTables → Moment → Service Host)

/-- A service that returns errors only. -/
def silent : Service Host where
  fleetStatus _ := none
  hostStatus _ _ := none
  acknowledgeAlert _ _ _ := false
  setCollectionInterval _ _ _ := false
  refreshStorageBaseline _ _ _ := false

/-- The calls that a request leads to; what the service returns decides none of them. -/
def ControlRequest.calls (request : ControlRequest) : List ServiceCall :=
  (respond configuration (silent : Service Unit) request).1

def ControlRequest.header : ControlRequest → Proxy.Header
  | .rest request => request.header
  | .tool request _ => request.header

/-- The event of a change that a client with the right to make it has asked for. -/
structure Accounts (m : Moment) (request : ControlRequest) (event : AuditEvent) : Prop where
  key : event.id = m.ids.auditEvent
  asked : ∃ principal change, (∃ call, request.calls configuration = [call] ∧
      call.Asks principal change) ∧ event = change.event m.ids.auditEvent principal.id ∧
    (principal.role = .operator ∨ principal.role = .administrator) ∧
    ∃ token, Control.bearerToken request.header = some token ∧
      ConfiguredFor configuration token principal

/-- What the trail has of an input that was answered so. -/
def Recorded : Input × ControlAnswer Host → List AuditEvent → Prop
  | (.client m request, answer), entries =>
      if answer.done then ∃ event, entries = [event] ∧ Accounts configuration m request event
      else entries = []
  | (.other o, _), entries => entries = o.events ∨ entries = []

theorem route_calls {Host' : Type} (service : Service Host) (service' : Service Host')
    (principal : Principal) (request : ApiRequest) :
    (route service principal request).1 = (route service' principal request).1 := by
  simp only [route]
  split
  · rw [fleet, fleet]
    split <;> rfl
  · split
    · rw [host, host]
      split <;> rfl
    · split
      · rw [setInterval, setInterval]
        split
        · split <;> rfl
        · rfl
      · split
        · rw [acknowledgeAlert, acknowledgeAlert]
          split <;> rfl
        · split
          · rw [refreshBaseline, refreshBaseline]
            split
            · split <;> rfl
            · rfl
          · split <;> rfl

theorem callTool_calls {Host' : Type} (service : Service Host) (service' : Service Host')
    (context : Option Principal) (toolCall : ToolCall) :
    (Server.callTool ⟨service⟩ context toolCall).1 =
      (Server.callTool ⟨service'⟩ context toolCall).1 := by
  cases toolCall with
  | fleetStatus =>
      rw [Server.callTool, Server.callTool, Server.fleetStatus, Server.fleetStatus]
      split <;> rfl
  | acknowledgeAlert alertID note =>
      rw [Server.callTool, Server.callTool, Server.acknowledgeAlert, Server.acknowledgeAlert]
      split
      · rfl
      · split <;> rfl
  | setCollectionInterval hostID seconds =>
      rw [Server.callTool, Server.callTool, Server.setCollectionInterval,
        Server.setCollectionInterval]
      split
      · rfl
      · split <;> rfl
  | refreshStorageBaseline hostID acknowledgedDiff =>
      rw [Server.callTool, Server.callTool, Server.refreshStorageBaseline,
        Server.refreshStorageBaseline]
      split
      · rfl
      · split <;> rfl

theorem respond_calls (service : Service Host) (request : ControlRequest) :
    (respond configuration service request).1 = request.calls configuration := by
  cases request with
  | rest request =>
      simp only [ControlRequest.calls, respond, serveHTTP, authorize]
      cases bearerToken request.header with
      | none => rfl
      | some token =>
          cases hprincipal : configuration.authenticator token with
          | none => simp [orFail, hprincipal]
          | some principal =>
              simp only [orFail, ok_bind, hprincipal]
              exact route_calls service silent principal request
  | tool request call =>
      simp only [ControlRequest.calls, respond, newHTTPHandler]
      cases bearerToken request.header with
      | none => rfl
      | some token =>
          cases hprincipal : configuration.authenticator token with
          | none => simp [toolServiceCalls, hprincipal]
          | some principal =>
              have hcalls := callTool_calls service (silent : Service Unit) (some principal) call
              simpa [toolServiceCalls, hprincipal] using hcalls

/-- A change is asked for by a client that may make it. -/
theorem asks_authorized {request : ControlRequest} {call : ServiceCall} {principal : Principal}
    {change : Change} (hcall : call ∈ request.calls configuration)
    (hasks : call.Asks principal change) :
    (principal.role = .operator ∨ principal.role = .administrator) ∧
      ∃ token, Control.bearerToken request.header = some token ∧
        ConfiguredFor configuration token principal := by
  have hauthorized : ∃ token acknowledged, Control.bearerToken request.header = some token ∧
      call.Authorized configuration token acknowledged := by
    cases request with
    | rest request =>
        have hmem : call ∈ (serveHTTP ⟨some (silent : Service Unit),
            some configuration.authenticator⟩ request).1 := hcall
        obtain ⟨token, htoken, hrights⟩ := serveHTTP_authorized hmem
        exact ⟨token, _, htoken, hrights⟩
    | tool request toolCall =>
        obtain ⟨token, htoken, listed, -, hrights⟩ := newHTTPHandler_authorized hcall
        exact ⟨token, _, htoken, hrights⟩
  obtain ⟨token, acknowledged, htoken, hauthorized⟩ := hauthorized
  cases call with
  | acknowledgeAlert caller alertID note =>
      obtain ⟨rfl, -⟩ := hasks
      exact ⟨hauthorized.2, token, htoken, hauthorized.1⟩
  | setCollectionInterval caller hostID seconds =>
      obtain ⟨rfl, -⟩ := hasks
      exact ⟨hauthorized.2.1, token, htoken, hauthorized.1⟩
  | _ => exact hasks.elim

end Requests

section Runs

variable (configuration : HTTPConfiguration) (reads : ControlTables → Moment → Service Host)
variable {hostIds : String → Option Uuid}

theorem carries_service {t : ControlTables} {m : Moment} {reads : Service Host}
    {call : ServiceCall} (h : call.mutating = true) :
    (t.service m reads).carries call = (t.request m call).isOk := by
  cases call with
  | fleetStatus => cases h
  | hostStatus => cases h
  | _ => rfl

/-- Calls that read leave the tables alone. -/
theorem performAll_read {calls : List ServiceCall} (h : ∀ call ∈ calls, call.mutating = false)
    (t : ControlTables) (m : Moment) : calls.foldl (fun t call => t.perform m call) t = t := by
  induction calls with
  | nil => rfl
  | cons call rest ih =>
      obtain ⟨hcall, hrest⟩ := List.forall_mem_cons.mp h
      have hsame : t.perform m call = t := by
        cases call with
        | fleetStatus => rfl
        | hostStatus => rfl
        | _ => cases hcall
      rw [List.foldl_cons, hsame]
      exact ih hrest

/-- A request of a client changes nothing, or makes one change that it asks for; its answer says
which. -/
theorem client_step (t : ControlTables) (m : Moment) (request : ControlRequest) :
    ((t.step configuration reads (.client m request)).1.done = false ∧
        (t.step configuration reads (.client m request)).2 = t) ∨
      ((t.step configuration reads (.client m request)).1.done = true ∧
        ∃ call principal change, request.calls configuration = [call] ∧
          call.Asks principal change ∧
          Effect t m principal change (t.step configuration reads (.client m request)).2) := by
  have hreported := respond_reported (t.service m (reads t m)) configuration request
  have hcalls := respond_calls configuration (t.service m (reads t m)) request
  have hanswer : (t.step configuration reads (.client m request)).1 =
      (respond configuration (t.service m (reads t m)) request).2 := rfl
  have htables : (t.step configuration reads (.client m request)).2 =
      (request.calls configuration).foldl (fun t call => t.perform m call) t := by
    rw [← hcalls]
    rfl
  rw [hanswer, htables]
  rw [hcalls] at hreported
  rcases hreported with ⟨hdone, hread⟩ | ⟨call, honly, hmutating, hdone⟩
  · exact Or.inl ⟨hdone, performAll_read hread t m⟩
  · rw [carries_service hmutating] at hdone
    rw [hdone, honly, List.foldl_cons, List.foldl_nil, ControlTables.perform]
    cases hrequest : t.request m call with
    | error cause => exact Or.inl ⟨rfl, rfl⟩
    | ok after =>
        rcases request_eq_ok hrequest with ⟨hread, -⟩ | ⟨principal, change, -, hasks, heffect⟩
        · rw [hread] at hmutating
          cases hmutating
        · exact Or.inr ⟨rfl, call, principal, change, rfl, hasks, heffect⟩

/-- The events of other components say nothing about the settings. -/
theorem replay_others {events : List AuditEvent}
    (h : ∀ event ∈ events, event.action ∉ trailActions) (a : Audited) :
    events.foldl (Audited.replay hostIds) a = a := by
  induction events with
  | nil => rfl
  | cons event rest ih =>
      obtain ⟨hevent, hrest⟩ := List.forall_mem_cons.mp h
      simp only [trailActions, List.mem_cons, List.not_mem_nil, or_false, not_or] at hevent
      have hnone : event.statement hostIds = none := by
        rw [AuditEvent.statement, if_neg hevent.1, if_neg hevent.2]
      rw [List.foldl_cons, Audited.replay, hnone]
      exact ih hrest

/-- A step writes to the trail what it does to the settings. -/
theorem step_grows (db : ControlDb) (input : Input)
    (hnames : Names hostIds (db.step configuration reads input).2.tables.operations.hosts) :
    Names hostIds db.tables.operations.hosts ∧
      ∃ entries, Recorded configuration (input, (db.step configuration reads input).1) entries ∧
        (trail hostIds).Grows db entries (db.step configuration reads input).2 := by
  cases input with
  | client m request =>
      rcases client_step configuration reads db.tables m request with
        ⟨hdone, hsame⟩ | ⟨hdone, call, principal, change, hcall, hasks, heffect⟩
      · have hdb : (db.step configuration reads (.client m request)).2.tables = db.tables := hsame
        rw [hdb] at hnames
        refine ⟨hnames, [], ?_, Ledger.Grows.of_eq ?_ ?_⟩
        · exact (if_neg (by simp [ControlDb.step, hdone])).mpr rfl
        · exact congrArg (fun t => t.operations.auditEvents) hdb
        · exact congrArg ControlTables.audited hdb
      · have hoperations : (db.step configuration reads (.client m request)).2.tables.operations =
            (db.tables.addEvents [change.event m.ids.auditEvent principal.id]).operations := by
          exact (congrArg ControlTables.operations heffect.tables).trans
            (by simp [ControlTables.addEvents])
        rw [hoperations] at hnames
        have hbefore : Names hostIds db.tables.operations.hosts := hnames
        have hrights := asks_authorized configuration (by rw [hcall]; exact List.mem_cons_self)
          hasks
        refine ⟨hbefore, [change.event m.ids.auditEvent principal.id], ?_, ?_, ?_⟩
        · refine (if_pos hdone).mpr ⟨_, rfl, event_id _ _, ?_⟩
          exact ⟨principal, change, ⟨call, hcall, hasks⟩, rfl, hrights⟩
        · exact congrArg OperationsDb.auditEvents hoperations
        · refine (audited_effect db.constrained heffect).trans ?_
          change _ = Audited.replay hostIds db.tables.audited _
          rw [Audited.replay, statement_event heffect.fits hbefore]
  | other o =>
      by_cases hpermitted : o.Permitted db.tables
      · have hdb : (db.step configuration reads (.other o)).2.tables = o.apply db.tables :=
          if_pos hpermitted
        rw [hdb] at hnames
        refine ⟨?_, o.events, Or.inl rfl, ?_, ?_⟩
        · intro host hhost
          obtain ⟨host', hhost', hid, hslug⟩ := hpermitted.kept host hhost
          rw [← hslug, ← hid]
          exact hnames host' hhost'
        · exact congrArg (fun t => t.operations.auditEvents) hdb
        · refine (congrArg ControlTables.audited hdb).trans ?_
          exact (replay_others hpermitted.actions _).symm
      · have hdb : (db.step configuration reads (.other o)).2.tables = db.tables :=
          if_neg hpermitted
        rw [hdb] at hnames
        refine ⟨hnames, [], Or.inr rfl, Ledger.Grows.of_eq ?_ ?_⟩
        · exact congrArg (fun t => t.operations.auditEvents) hdb
        · exact congrArg ControlTables.audited hdb

/-- What the trail says of a run. -/
theorem run_grows (db : ControlDb) (inputs : List Input) {hostIds : String → Option Uuid}
    (hnames : Names hostIds (answers (ControlDb.step configuration reads) db
      inputs).2.tables.operations.hosts) :
    ∃ parts, List.Forall₂ (Recorded configuration)
        (inputs.zip (answers (ControlDb.step configuration reads) db inputs).1) parts ∧
      (trail hostIds).Grows db parts.flatten
        (answers (ControlDb.step configuration reads) db inputs).2 := by
  let P (db : ControlDb) : Prop := Names hostIds db.tables.operations.hosts
  have hstep (db : ControlDb) (input : Input) :
      P (db.step configuration reads input).2 → P db ∧ ∃ entries,
        Recorded configuration (input, (db.step configuration reads input).1) entries ∧
          (trail hostIds).Grows db entries (db.step configuration reads input).2 :=
    step_grows configuration reads db input
  exact Ledger.grows_answers hstep inputs hnames

end Runs

/-- The settings follow the audit trail. Whatever clients ask for through the routes and the tools,
and whatever other transactions run between them, the events added by the run are one for each
answer that reports a change, in their order, each with the client that was allowed to ask for that
change, besides those of the other transactions; and replaying them over the settings before the run
gives the settings after it. -/
theorem settings_follow_trail (configuration : HTTPConfiguration)
    (reads : ControlTables → Moment → Service Host) (db : ControlDb) (inputs : List Input) :
    ∃ parts, List.Forall₂ (Recorded configuration)
        (inputs.zip (answers (ControlDb.step configuration reads) db inputs).1) parts ∧
      (trail (slugIds (answers (ControlDb.step configuration reads) db
        inputs).2.tables.operations.hosts)).Grows db parts.flatten
        (answers (ControlDb.step configuration reads) db inputs).2 := by
  apply run_grows
  exact names_slugIds
    (answers (ControlDb.step configuration reads) db inputs).2.constrained.hostSlugs

section Acknowledgements

variable (configuration : HTTPConfiguration) (reads : ControlTables → Moment → Service Host)
variable {t t' : ControlTables} {m : Moment} {principal : Principal} {change : Change}
variable {alertId : String}

/-- The row of an alert. -/
def ControlTables.alertAt (t : ControlTables) (alertId : String) : Option AlertRow :=
  Table.find AlertRow.id alertId t.alerts

/-- An event says that the alert was acknowledged. -/
def acknowledges (alertId : String) (event : AuditEvent) : Bool :=
  event.action == "acknowledge_alert" && event.targetId == some alertId

/-- The alert is as it was and no event says that it was acknowledged; or it was active, and the one
event that says so has the actor that the row names. -/
def AcknowledgedBy (before after : Option AlertRow) (events : List AuditEvent) : Prop :=
  (events = [] ∧ after = before) ∨
    ∃ alert event now note, events = [event] ∧ before = some alert ∧ alert.state = .active ∧
      after = some (ControlTables.acknowledgeRow now event.actorId note alert)

theorem AcknowledgedBy.trans {before middle after : Option AlertRow} {events later : List AuditEvent}
    (h : AcknowledgedBy before middle events) (h' : AcknowledgedBy middle after later) :
    AcknowledgedBy before after (events ++ later) := by
  rcases h with ⟨rfl, rfl⟩ | ⟨alert, event, now, note, rfl, rfl, hactive, rfl⟩
  · exact h'
  · rcases h' with ⟨rfl, rfl⟩ | ⟨again, event', now', note', -, hagain, hstate, -⟩
    · exact Or.inr ⟨alert, event, now, note, rfl, rfl, hactive, rfl⟩
    · -- an alert that was acknowledged is not active
      obtain rfl := Option.some.inj hagain
      cases hstate

theorem alertAt_effect (h : t.Constrained) (heffect : Effect t m principal change t') :
    AcknowledgedBy (t.alertAt alertId) (t'.alertAt alertId)
      ([change.event m.ids.auditEvent principal.id].filter (acknowledges alertId)) := by
  obtain ⟨hfits, -, -, rfl⟩ := heffect
  cases change with
  | interval hostSlug hostId seconds =>
      refine Or.inl ⟨?_, ?_⟩
      · simp [acknowledges, Change.event, ControlTables.intervalEvent]
      · cases hostId <;> rfl
  | acknowledgement target note =>
      obtain ⟨⟨row, hmem, htarget⟩, -⟩ := hfits
      have hfind : ((ControlTables.acknowledgeRows t m.now principal.id target note).alertAt
          alertId) = (t.alertAt alertId).map fun alert =>
            if ControlTables.isTarget target alert then
              ControlTables.acknowledgeRow m.now principal.id note alert else alert :=
        Table.find_map keepsId _ _
      have hkeys := htarget
      rw [ControlTables.isTarget, Bool.and_eq_true, beq_iff_eq, beq_iff_eq] at hkeys
      by_cases hk : target = alertId
      · subst hk
        have hrow : t.alertAt target = some row :=
          (Table.find_eq_some_iff h.alertKeys).mpr ⟨hmem, hkeys.1⟩
        refine Or.inr ⟨row, ControlTables.acknowledgementEvent m.ids.auditEvent principal.id target,
          m.now, note, ?_, hrow, hkeys.2, ?_⟩
        · simp [acknowledges, Change.event, ControlTables.acknowledgementEvent]
        · refine hfind.trans ?_
          rw [hrow, Option.map_some, if_pos htarget]
          rfl
      · refine Or.inl ⟨?_, hfind.trans ?_⟩
        · simp [acknowledges, Change.event, ControlTables.acknowledgementEvent, hk]
        · cases hrow : t.alertAt alertId with
          | none => rfl
          | some alert =>
              obtain ⟨-, hid⟩ := Table.mem_of_find hrow
              have hother : ¬ ControlTables.isTarget target alert = true := by
                simp [ControlTables.isTarget, hid, Ne.symm hk]
              rw [Option.map_some, if_neg hother]

/-- The later tables have some more events, of which those about the alert say what became of it. -/
structure AlertGrows (alertId : String) (t : ControlTables) (events : List AuditEvent)
    (t' : ControlTables) : Prop where
  log : t'.operations.auditEvents = t.operations.auditEvents ++ events
  alert : AcknowledgedBy (t.alertAt alertId) (t'.alertAt alertId)
    (events.filter (acknowledges alertId))

theorem AlertGrows.refl (t : ControlTables) : AlertGrows alertId t [] t :=
  ⟨(List.append_nil _).symm, Or.inl ⟨rfl, rfl⟩⟩

theorem AlertGrows.trans {t₁ : ControlTables} {events later : List AuditEvent}
    (h : AlertGrows alertId t events t₁) (h' : AlertGrows alertId t₁ later t') :
    AlertGrows alertId t (events ++ later) t' where
  log := by rw [h'.log, h.log, List.append_assoc]
  alert := by
    rw [List.filter_append]
    exact h.alert.trans h'.alert

theorem alertGrows_effect (h : t.Constrained) (heffect : Effect t m principal change t') :
    AlertGrows alertId t [change.event m.ids.auditEvent principal.id] t' where
  log := by
    rw [heffect.tables]
    simp [ControlTables.addEvents]
  alert := alertAt_effect h heffect

theorem alertGrows_other {o : OtherTransaction} (ho : o.Permitted t) :
    AlertGrows alertId t o.events (o.apply t) where
  log := rfl
  alert := by
    refine Or.inl ⟨?_, rfl⟩
    rw [List.filter_eq_nil_iff]
    intro event hevent hacknowledges
    rw [acknowledges, Bool.and_eq_true, beq_iff_eq] at hacknowledges
    exact ho.actions event hevent (by simp [trailActions, hacknowledges.1])

theorem alertGrows_step (db : ControlDb) (input : Input) :
    ∃ events, AlertGrows alertId db.tables events
      (db.step configuration reads input).2.tables := by
  cases input with
  | client m request =>
      rcases client_step configuration reads db.tables m request with
        ⟨-, hsame⟩ | ⟨-, call, principal, change, -, -, heffect⟩
      · refine ⟨[], ?_⟩
        change AlertGrows alertId db.tables [] (db.tables.step configuration reads _).2
        rw [hsame]
        exact AlertGrows.refl _
      · exact ⟨_, alertGrows_effect db.constrained heffect⟩
  | other o =>
      change ∃ events, AlertGrows alertId db.tables events
        (if o.Permitted db.tables then o.apply db.tables else db.tables)
      split
      · next ho => exact ⟨o.events, alertGrows_other ho⟩
      · exact ⟨[], AlertGrows.refl _⟩

end Acknowledgements

/-- An alert is acknowledged once. In every run at most one event says that a given alert was
acknowledged: then the alert was active, and its row has the actor of that event and whatever note
came with it, however many requests there were. Otherwise the row is as it was. -/
theorem acknowledged_once (configuration : HTTPConfiguration)
    (reads : ControlTables → Moment → Service Host) (db : ControlDb) (inputs : List Input)
    (alertId : String) :
    ∃ events, AlertGrows alertId db.tables events
      (answers (ControlDb.step configuration reads) db inputs).2.tables := by
  let R (db : ControlDb) (events : List AuditEvent) (db' : ControlDb) : Prop :=
    AlertGrows alertId db.tables events db'.tables
  have hrefl (db : ControlDb) : R db [] db := AlertGrows.refl db.tables
  exact related_answers hrefl (fun _ _ _ _ _ => AlertGrows.trans)
    (alertGrows_step configuration reads) inputs

end NodeScope.Control
