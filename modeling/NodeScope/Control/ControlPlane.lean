import NodeScope.Control.Operations
import NodeScope.Control.Routes
import NodeScope.Control.Tools
import NodeScope.Lib.JsonWriter
import NodeScope.Telemetry.Freshness

/-!
# The functions of the control plane

The service of the control plane changes the database by one statement for each call, which selects
from a function of migration 0017. `mcp_set_collection_interval` writes the interval of the fleet or
of one host, `mcp_acknowledge_alert` takes an alert out of the active ones, and both insert an audit
event in the same transaction. A statement that raises leaves every table alone.

## Implementation notes

The identifiers that `gen_random_uuid` would draw and the time of the transaction are inputs. The
checks on the columns that hold an interval are those that the function makes itself. Columns with a
default that no modelled statement reads are left out.
-/

namespace NodeScope.Control

open Storage Lib Lib.Check Lib.Text Lib.Json Telemetry

inductive AlertState where
  | active
  | acknowledged
  | resolved
deriving DecidableEq

structure AlertRow where
  id : String
  state : AlertState
  acknowledgedAt : Option Int
  acknowledgedBy : Option String
  acknowledgementNote : Option String
deriving DecidableEq

/-- The tables that the functions read and write. -/
structure ControlTables where
  operations : OperationsDb
  settings : CollectionSettings
  alerts : List AlertRow

/-- The exceptions of the functions, and the errors of their statements. -/
inductive ControlError where
  | intervalOutOfRange
  | activeAlertNotFound
  | operation (cause : OperationError)
deriving DecidableEq

/-- What the database draws for a transaction. -/
structure Moment where
  now : Int
  ids : FreshIds
deriving DecidableEq

def InRange (intervalSeconds : Int) : Prop := 1 ≤ intervalSeconds ∧ intervalSeconds ≤ 60

instance (n : Int) : Decidable (InRange n) := inferInstanceAs (Decidable (_ ∧ _))

/-- The values of the type `integer`. -/
def FitsInteger (n : Int) : Prop := -2 ^ 31 ≤ n ∧ n < 2 ^ 31

instance (n : Int) : Decidable (FitsInteger n) := inferInstanceAs (Decidable (_ ∧ _))

/-- `nullif (note, '')`. -/
def nullIfEmpty (text : String) : Option String := if text = "" then none else some text

namespace ControlTables

def addEvents (t : ControlTables) (events : List AuditEvent) : ControlTables :=
  { t with operations :=
      { t.operations with auditEvents := t.operations.auditEvents ++ events } }

/-- The statement that both functions execute last. -/
def insertEvent (t : ControlTables) (event : AuditEvent) : Except ControlError ControlTables := do
  (checkAll event.checks).mapError fun cause => .operation (.database cause)
  failIf (t.operations.auditEvents.any fun e => e.id == event.id)
    (.operation (.database (.unique "audit_events_pkey")))
  pure (t.addEvents [event])

def setGlobal (t : ControlTables) (intervalSeconds : Int) : ControlTables :=
  { t with settings := { t.settings with globalIntervalSeconds := intervalSeconds } }

def setOverride (t : ControlTables) (hostId : Uuid) (intervalSeconds : Int) : ControlTables :=
  { t with settings := { t.settings with
      overrides := Table.put OverrideRow.hostId ⟨hostId, intervalSeconds⟩ t.settings.overrides } }

/-- The host of the call, unless it is for the fleet. -/
def intervalHost (t : ControlTables) (hostSlug : Option String) :
    Except ControlError (Option Uuid) :=
  match hostSlug with
  | none => .ok none
  | some slug =>
      if slug = "" then .ok none
      else (orFail (enabledHost t.operations slug) (.operation .hostUnavailable)).map
        fun host => some host.row.id

def storeInterval (t : ControlTables) (hostId : Option Uuid) (intervalSeconds : Int) :
    ControlTables :=
  match hostId with
  | none => t.setGlobal intervalSeconds
  | some id => t.setOverride id intervalSeconds

/-- The event of an interval that was set. -/
def intervalEvent (id : Uuid) (actorId : String) (hostSlug : Option String) (hostId : Option Uuid)
    (intervalSeconds : Int) : AuditEvent where
  id := id
  actorType := .client
  actorId := actorId
  actorUserId := none
  action := "set_collection_interval"
  targetType := if hostId.isNone then "fleet" else "host"
  targetId := some (hostSlug.getD "fleet")
  outcome := .completed
  metadata := .object [("interval_seconds", .number (intLiteral intervalSeconds))]

def mcpSetCollectionInterval (t : ControlTables) (id : Uuid) (actorId : String)
    (hostSlug : Option String) (intervalSeconds : Int) : Except ControlError ControlTables := do
  failIf (!decide (InRange intervalSeconds)) .intervalOutOfRange
  let hostId ← t.intervalHost hostSlug
  (t.storeInterval hostId intervalSeconds).insertEvent
    (intervalEvent id actorId hostSlug hostId intervalSeconds)

/-- The condition of the `update` statement. -/
def isTarget (alertId : String) (alert : AlertRow) : Bool :=
  alert.id == alertId && alert.state == .active

def acknowledgeRow (now : Int) (actorId note : String) (alert : AlertRow) : AlertRow :=
  { alert with
    state := .acknowledged
    acknowledgedAt := some now
    acknowledgedBy := some actorId
    acknowledgementNote := nullIfEmpty note }

def acknowledgeRows (t : ControlTables) (now : Int) (actorId alertId note : String) :
    ControlTables :=
  { t with alerts := t.alerts.map fun alert =>
      if isTarget alertId alert then acknowledgeRow now actorId note alert else alert }

def acknowledgementEvent (id : Uuid) (actorId alertId : String) : AuditEvent where
  id := id
  actorType := .client
  actorId := actorId
  actorUserId := none
  action := "acknowledge_alert"
  targetType := "alert"
  targetId := some alertId
  outcome := .completed
  metadata := .object []

def mcpAcknowledgeAlert (t : ControlTables) (m : Moment) (actorId alertId note : String) :
    Except ControlError ControlTables := do
  failIf (!t.alerts.any (isTarget alertId)) .activeAlertNotFound
  failIf (decide (500 < note.length))
    (.operation (.database (.check "alerts_acknowledgement_note_check")))
  (t.acknowledgeRows m.now actorId alertId note).insertEvent
    (acknowledgementEvent m.ids.auditEvent actorId alertId)

/-- The parameters of a statement have to be texts of the database. -/
def parameters (texts : List String) : Except ControlError Unit :=
  (checkTexts texts).mapError fun cause => .operation (.database cause)

def decodeText (text : List UInt8) : Except ControlError String :=
  orFail (ofUtf8 text) (.operation .invalidEncoding)

/-- The statement of `PostgresService.AcknowledgeAlert`. -/
def requestAcknowledgement (t : ControlTables) (m : Moment) (principal : Principal)
    (alertID note : List UInt8) : Except ControlError ControlTables := do
  let alertId ← decodeText alertID
  let text ← decodeText note
  parameters [principal.id, alertId, text]
  t.mcpAcknowledgeAlert m principal.id alertId text

/-- The statement of `PostgresService.SetCollectionInterval`. -/
def requestInterval (t : ControlTables) (m : Moment) (principal : Principal) (hostID : List UInt8)
    (seconds : Int) : Except ControlError ControlTables := do
  let hostSlug ← decodeText hostID
  parameters [principal.id, hostSlug]
  failIf (!decide (FitsInteger seconds)) (.operation (.database (.outOfRange "p_interval_seconds")))
  t.mcpSetCollectionInterval m.ids.auditEvent principal.id (some hostSlug) seconds

/-- The statement of `PostgresService.RefreshStorageBaseline`. -/
def requestRefresh (t : ControlTables) (m : Moment) (principal : Principal)
    (hostID : List UInt8) : Except ControlError ControlTables :=
  ((requestBaseline t.operations m.ids principal hostID).mapError .operation).map
    fun (_, operations) => { t with operations }

/-- The statement of a method of `PostgresService`; those that read leave the tables alone. -/
def request (t : ControlTables) (m : Moment) : ServiceCall → Except ControlError ControlTables
  | .fleetStatus _ => .ok t
  | .hostStatus _ _ => .ok t
  | .acknowledgeAlert principal alertID note => t.requestAcknowledgement m principal alertID note
  | .setCollectionInterval principal hostID seconds => t.requestInterval m principal hostID seconds
  | .refreshStorageBaseline principal hostID _ => t.requestRefresh m principal hostID

/-- The tables after a call: a statement that raises is undone. -/
def perform (t : ControlTables) (m : Moment) (call : ServiceCall) : ControlTables :=
  match t.request m call with
  | .ok after => after
  | .error _ => t

/-- The methods of `PostgresService` that change something, beside others that read. -/
def service {Host : Type} (t : ControlTables) (m : Moment) (reads : Service Host) :
    Service Host where
  fleetStatus := reads.fleetStatus
  hostStatus := reads.hostStatus
  acknowledgeAlert principal alertID note :=
    (t.request m (.acknowledgeAlert principal alertID note)).isOk
  setCollectionInterval principal hostID seconds :=
    (t.request m (.setCollectionInterval principal hostID seconds)).isOk
  refreshStorageBaseline principal hostID acknowledgedDiff :=
    (t.request m (.refreshStorageBaseline principal hostID acknowledgedDiff)).isOk

end ControlTables

/-- The constraints that the migrations declare on the tables. -/
structure ControlTables.Constrained (t : ControlTables) : Prop where
  globalRange : InRange t.settings.globalIntervalSeconds
  overrideRange : ∀ row ∈ t.settings.overrides, InRange row.intervalSeconds
  overrideKeys : (t.settings.overrides.map OverrideRow.hostId).Nodup
  overrideHosts : ∀ row ∈ t.settings.overrides, ∃ host ∈ t.operations.hosts,
    host.row.id = row.hostId
  alertKeys : (t.alerts.map AlertRow.id).Nodup
  notes : ∀ alert ∈ t.alerts, ∀ note ∈ alert.acknowledgementNote, note.length ≤ 500
  eventKeys : (t.operations.auditEvents.map AuditEvent.id).Nodup
  actors : ∀ event ∈ t.operations.auditEvents, filled event.actorId = true
  hostKeys : (t.operations.hosts.map fun host => host.row.id).Nodup
  hostSlugs : (t.operations.hosts.map fun host => host.row.slug).Nodup

/-- The tables in a state that the database admits. -/
structure ControlDb where
  tables : ControlTables
  constrained : tables.Constrained

/-- The tables as the migrations leave them: the interval of the fleet, and nothing else. -/
def ControlDb.initial : ControlDb where
  tables := ⟨⟨[], [], []⟩, ⟨5, []⟩, []⟩
  constrained :=
    { globalRange := by decide
      overrideRange := by simp
      overrideKeys := List.nodup_nil
      overrideHosts := by simp
      alertKeys := List.nodup_nil
      notes := by simp
      eventKeys := List.nodup_nil
      actors := by simp
      hostKeys := List.nodup_nil
      hostSlugs := List.nodup_nil }

section Changes

/-- A change that a statement makes, with the host that the slug of an interval names. -/
inductive Change where
  | interval (hostSlug : String) (hostId : Option Uuid) (intervalSeconds : Int)
  | acknowledgement (alertId note : String)
deriving DecidableEq

def Change.store (t : ControlTables) (now : Int) (actorId : String) : Change → ControlTables
  | .interval _ hostId intervalSeconds => t.storeInterval hostId intervalSeconds
  | .acknowledgement alertId note => t.acknowledgeRows now actorId alertId note

def Change.event (id : Uuid) (actorId : String) : Change → AuditEvent
  | .interval hostSlug hostId intervalSeconds =>
      ControlTables.intervalEvent id actorId (some hostSlug) hostId intervalSeconds
  | .acknowledgement alertId _ => ControlTables.acknowledgementEvent id actorId alertId

/-- The tables admit a change. -/
def Change.Fits (t : ControlTables) : Change → Prop
  | .interval hostSlug hostId intervalSeconds =>
      InRange intervalSeconds ∧ t.intervalHost (some hostSlug) = .ok hostId
  | .acknowledgement alertId note =>
      (∃ alert ∈ t.alerts, ControlTables.isTarget alertId alert = true) ∧ note.length ≤ 500

/-- The change that a call asks for, and for whom. -/
def ServiceCall.Asks (principal : Principal) (change : Change) : ServiceCall → Prop
  | .acknowledgeAlert caller alertID note => caller = principal ∧
      ∃ alertId text, ofUtf8 alertID = some alertId ∧ ofUtf8 note = some text ∧
        change = .acknowledgement alertId text
  | .setCollectionInterval caller hostID seconds => caller = principal ∧
      ∃ hostSlug hostId, ofUtf8 hostID = some hostSlug ∧
        change = .interval hostSlug hostId seconds
  | _ => False

/-- The change is made and its event is added to those before. -/
structure Effect (t : ControlTables) (m : Moment) (principal : Principal) (change : Change)
    (t' : ControlTables) : Prop where
  fits : change.Fits t
  actor : filled principal.id = true
  fresh : ∀ event ∈ t.operations.auditEvents, event.id ≠ m.ids.auditEvent
  tables : t' = (change.store t m.now principal.id).addEvents
    [change.event m.ids.auditEvent principal.id]

variable {t t' : ControlTables} {m : Moment} {principal : Principal} {change : Change}

theorem insertEvent_eq_ok {event : AuditEvent} (h : t.insertEvent event = .ok t') :
    filled event.actorId = true ∧
      (∀ e ∈ t.operations.auditEvents, e.id ≠ event.id) ∧ t' = t.addEvents [event] := by
  simp only [ControlTables.insertEvent, unit_bind_eq_ok, mapError_eq_ok, checkAll_eq_ok,
    failIf_eq_ok, List.any_eq_false, beq_iff_eq, AuditEvent.checks, List.forall_mem_cons] at h
  obtain ⟨⟨-, hactor, -⟩, hfresh, hpure⟩ := h
  exact ⟨hactor, hfresh, (Except.ok.inj hpure).symm⟩

theorem requestInterval_eq_ok {hostID : List UInt8} {seconds : Int}
    (h : t.requestInterval m principal hostID seconds = .ok t') :
    ∃ change, (ServiceCall.setCollectionInterval principal hostID seconds).Asks principal change ∧
      Effect t m principal change t' := by
  obtain ⟨hostSlug, hslug, h⟩ := bind_eq_ok.mp h
  simp only [unit_bind_eq_ok, ControlTables.mcpSetCollectionInterval, failIf_eq_ok,
    Bool.not_eq_false', decide_eq_true_eq] at h
  obtain ⟨-, -, hrange, h⟩ := h
  obtain ⟨hostId, hhost, h⟩ := bind_eq_ok.mp h
  obtain ⟨hactor, hfresh, rfl⟩ := insertEvent_eq_ok h
  refine ⟨.interval hostSlug hostId seconds, ?_, ⟨hrange, hhost⟩, hactor, ?_, rfl⟩
  · exact ⟨rfl, hostSlug, hostId, orFail_eq_ok.mp hslug, rfl⟩
  · cases hostId <;> exact hfresh

theorem requestAcknowledgement_eq_ok {alertID note : List UInt8}
    (h : t.requestAcknowledgement m principal alertID note = .ok t') :
    ∃ change, (ServiceCall.acknowledgeAlert principal alertID note).Asks principal change ∧
      Effect t m principal change t' := by
  obtain ⟨alertId, halert, h⟩ := bind_eq_ok.mp h
  obtain ⟨text, htext, h⟩ := bind_eq_ok.mp h
  simp only [unit_bind_eq_ok, ControlTables.mcpAcknowledgeAlert, failIf_eq_ok,
    Bool.not_eq_false', List.any_eq_true, decide_eq_false_iff_not, not_lt] at h
  obtain ⟨-, hfound, hnote, h⟩ := h
  obtain ⟨hactor, hfresh, rfl⟩ := insertEvent_eq_ok h
  refine ⟨.acknowledgement alertId text, ?_, ⟨hfound, hnote⟩, hactor, hfresh, rfl⟩
  exact ⟨rfl, alertId, text, orFail_eq_ok.mp halert, orFail_eq_ok.mp htext, rfl⟩

/-- A statement that succeeds reads only, or makes the one change that it was asked for. -/
theorem request_eq_ok {call : ServiceCall} (h : t.request m call = .ok t') :
    (call.mutating = false ∧ t' = t) ∨
      ∃ principal change, call.mutating = true ∧ call.Asks principal change ∧
        Effect t m principal change t' := by
  cases call with
  | fleetStatus => exact Or.inl ⟨rfl, (Except.ok.inj h).symm⟩
  | hostStatus => exact Or.inl ⟨rfl, (Except.ok.inj h).symm⟩
  | acknowledgeAlert principal alertID note =>
      obtain ⟨change, hasks, heffect⟩ := requestAcknowledgement_eq_ok h
      exact Or.inr ⟨principal, change, rfl, hasks, heffect⟩
  | setCollectionInterval principal hostID seconds =>
      obtain ⟨change, hasks, heffect⟩ := requestInterval_eq_ok h
      exact Or.inr ⟨principal, change, rfl, hasks, heffect⟩
  | refreshStorageBaseline principal hostID acknowledgedDiff =>
      obtain ⟨e, hfails⟩ : ∃ e, requestBaseline t.operations m.ids principal hostID = .error e :=
        requestBaseline_fails
      rw [ControlTables.request, ControlTables.requestRefresh, hfails] at h
      cases h

end Changes

section Constraints

variable {t t' : ControlTables} {m : Moment} {principal : Principal} {change : Change}

@[simp] theorem store_operations (now : Int) (actorId : String) :
    (change.store t now actorId).operations = t.operations := by
  cases change with
  | interval hostSlug hostId intervalSeconds => cases hostId <;> rfl
  | acknowledgement alertId note => rfl

@[simp] theorem event_actorId (id : Uuid) (actorId : String) :
    (change.event id actorId).actorId = actorId := by
  cases change <;> rfl

@[simp] theorem event_id (id : Uuid) (actorId : String) :
    (change.event id actorId).id = id := by
  cases change <;> rfl

/-- The host that an interval is set for is one of the table. -/
theorem mem_of_intervalHost {slug : String} {hostId : Uuid}
    (h : t.intervalHost (some slug) = .ok (some hostId)) :
    ∃ host ∈ t.operations.hosts, host.row.slug = slug ∧ host.row.id = hostId := by
  rw [ControlTables.intervalHost] at h
  split at h
  · cases h
  · cases hfound : enabledHost t.operations slug with
    | none =>
        rw [hfound] at h
        cases h
    | some host =>
        rw [hfound] at h
        obtain rfl := Option.some.inj (Except.ok.inj h)
        have hmatch := List.find?_some hfound
        rw [Bool.and_eq_true, beq_iff_eq] at hmatch
        exact ⟨host, List.mem_of_find?_eq_some hfound, hmatch.1, rfl⟩

/-- A change keeps the constraints. -/
theorem ControlTables.Constrained.effect (h : t.Constrained)
    (heffect : Effect t m principal change t') : t'.Constrained := by
  obtain ⟨hfits, hactor, hfresh, rfl⟩ := heffect
  have hevents : ((t.operations.auditEvents ++
      [change.event m.ids.auditEvent principal.id]).map AuditEvent.id).Nodup := by
    rw [List.map_append, List.map_singleton, event_id, ← List.concat_eq_append, List.nodup_concat]
    refine ⟨?_, h.eventKeys⟩
    rintro hmem
    obtain ⟨event, hevent, hid⟩ := List.mem_map.mp hmem
    exact hfresh event hevent hid
  have hactors : ∀ event ∈ t.operations.auditEvents ++
      [change.event m.ids.auditEvent principal.id], filled event.actorId = true := by
    intro event hevent
    rw [List.mem_append, List.mem_singleton] at hevent
    rcases hevent with hold | rfl
    · exact h.actors event hold
    · rw [event_actorId]
      exact hactor
  cases change with
  | interval hostSlug hostId intervalSeconds =>
      obtain ⟨hrange, hhost⟩ := hfits
      cases hostId with
      | none => exact { h with globalRange := hrange, eventKeys := hevents, actors := hactors }
      | some hostId =>
          refine { h with
            overrideRange := ?_, overrideKeys := Table.nodup_put _ h.overrideKeys,
            overrideHosts := ?_, eventKeys := hevents, actors := hactors }
          · intro row hrow
            rcases Table.mem_put hrow with rfl | hold
            · exact hrange
            · exact h.overrideRange row hold
          · intro row hrow
            rcases Table.mem_put hrow with rfl | hold
            · obtain ⟨host, hmem, -, hid⟩ := mem_of_intervalHost hhost
              exact ⟨host, hmem, hid⟩
            · exact h.overrideHosts row hold
  | acknowledgement alertId note =>
      refine { h with alertKeys := ?_, notes := ?_, eventKeys := hevents, actors := hactors }
      · have hids : (t.acknowledgeRows m.now principal.id alertId note).alerts.map AlertRow.id =
            t.alerts.map AlertRow.id := by
          rw [ControlTables.acknowledgeRows, List.map_map]
          apply List.map_congr_left
          intro alert _
          simp only [Function.comp_apply]
          split <;> rfl
        exact hids ▸ h.alertKeys
      · intro alert halert
        obtain ⟨old, hold, rfl⟩ := List.mem_map.mp halert
        split
        · intro text htext
          simp only [ControlTables.acknowledgeRow, nullIfEmpty, Option.mem_def] at htext
          split at htext
          · cases htext
          · obtain rfl := Option.some.inj htext
            exact hfits.2
        · exact h.notes old hold

/-- Every call leaves the tables in a state that the database admits. -/
theorem ControlTables.Constrained.perform (h : t.Constrained) (call : ServiceCall) :
    (t.perform m call).Constrained := by
  rw [ControlTables.perform]
  split
  · next after hok =>
      rcases request_eq_ok hok with ⟨-, rfl⟩ | ⟨principal, change, -, -, heffect⟩
      · exact h
      · exact h.effect heffect
  · exact h

end Constraints

end NodeScope.Control
