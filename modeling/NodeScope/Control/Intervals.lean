import NodeScope.Control.AuditTrail
import NodeScope.Telemetry.HostStatus

/-!
# The interval in force

A host collects at its own interval if it has one, and at that of the fleet otherwise. After any run
of the control plane the interval that the fleet status reports for a host is read off the audit
trail: the last one that was set for the host, or else the last one that was set for the fleet.
-/

namespace NodeScope.Control

open Storage Lib Lib.Journal Telemetry

variable {Host : Type}

section Replay

variable {hostIds : String → Option Uuid}

def Statement.forFleet : Statement → Option Int
  | .fleet seconds => some seconds
  | _ => none

def Statement.forHost (id : Uuid) : Statement → Option Int
  | .host id' seconds => if id' = id then some seconds else none
  | _ => none

/-- The last interval that the events say was set, of those a selection takes. -/
def lastInterval (hostIds : String → Option Uuid) (select : Statement → Option Int)
    (events : List AuditEvent) : Option Int :=
  (events.filterMap fun event => (event.statement hostIds).bind select).getLast?

theorem lastInterval_concat (select : Statement → Option Int) (events : List AuditEvent)
    (event : AuditEvent) :
    lastInterval hostIds select (events ++ [event]) =
      (((event.statement hostIds).bind select).or (lastInterval hostIds select events)) := by
  rw [lastInterval, List.filterMap_append]
  cases hselected : (event.statement hostIds).bind select with
  | none => simp [hselected, lastInterval]
  | some seconds => simp [hselected]

theorem fleetSeconds_replay (events : List AuditEvent) (a : Audited) :
    (events.foldl (Audited.replay hostIds) a).fleetSeconds =
      (lastInterval hostIds Statement.forFleet events).getD a.fleetSeconds := by
  induction events using List.reverseRecOn with
  | nil => rfl
  | append_singleton events event ih =>
      rw [List.foldl_append, List.foldl_cons, List.foldl_nil, lastInterval_concat, Audited.replay]
      cases event.statement hostIds with
      | none => exact ih
      | some s =>
          cases s with
          | fleet seconds => rfl
          | host id seconds => exact ih
          | acknowledged alertId actorId => exact ih

theorem hostSeconds_replay (events : List AuditEvent) (a : Audited) (id : Uuid) :
    (events.foldl (Audited.replay hostIds) a).hostSeconds id =
      (lastInterval hostIds (Statement.forHost id) events).or (a.hostSeconds id) := by
  induction events using List.reverseRecOn with
  | nil => rfl
  | append_singleton events event ih =>
      rw [List.foldl_append, List.foldl_cons, List.foldl_nil, lastInterval_concat, Audited.replay]
      cases event.statement hostIds with
      | none => exact ih
      | some s =>
          cases s with
          | fleet seconds => exact ih
          | acknowledged alertId actorId => exact ih
          | host id' seconds =>
              simp only [Audited.apply, Function.update_apply, Option.bind_some,
                Statement.forHost]
              by_cases hid : id' = id
              · rw [if_pos hid.symm, if_pos hid]
                rfl
              · rw [if_neg (Ne.symm hid), if_neg hid]
                exact ih

end Replay

section Status

/-- The database of the telemetry, which has the same hosts. -/
def withHosts (telemetry : Db) (t : ControlTables) : Db :=
  { telemetry with hosts := t.operations.hosts.map ManagedHost.row }

theorem ControlDb.statusKeys (db : ControlDb) (telemetry : Db) :
    StatusKeys db.tables.settings (withHosts telemetry db.tables) where
  slugs := by
    have hslugs := db.constrained.hostSlugs
    rw [withHosts, List.map_map]
    exact hslugs
  overrides := db.constrained.overrideKeys

/-- The interval of a host: its own, or that of the fleet. -/
def Audited.inForce (a : Audited) (id : Uuid) : Int := (a.hostSeconds id).getD a.fleetSeconds

/-- The fleet status has one row of a host, with the interval in force. -/
theorem reported_inForce (db : ControlDb) (telemetry : Db) (now : Int) {host : ManagedHost}
    (hhost : host ∈ db.tables.operations.hosts) :
    ∃ status, ((fleetIngestionStatus now db.tables.settings (withHosts telemetry db.tables)).filter
        fun s => decide (s.hostSlug = host.row.slug)) = [status] ∧
      status.effectiveIntervalSeconds = db.tables.audited.inForce host.row.id := by
  have hrow : host.row ∈ (withHosts telemetry db.tables).hosts := List.mem_map_of_mem hhost
  refine ⟨_, fleetIngestionStatus_host now (db.statusKeys telemetry) hrow, ?_⟩
  change ((overrideOf db.tables.settings host.row).map OverrideRow.intervalSeconds).getD _ = _
  rfl

theorem inForce_inRange (db : ControlDb) (id : Uuid) : InRange (db.tables.audited.inForce id) := by
  change InRange (((Table.find OverrideRow.hostId id db.tables.settings.overrides).map
    OverrideRow.intervalSeconds).getD db.tables.settings.globalIntervalSeconds)
  cases hfound : Table.find OverrideRow.hostId id db.tables.settings.overrides with
  | none => exact db.constrained.globalRange
  | some row => exact db.constrained.overrideRange row (Table.mem_of_find hfound).1

end Status

/-- The interval in force is the last one set. After any run of the control plane, whatever other
transactions ran between its requests, the fleet status has one row of each host, whose interval is
from 1 to 60 seconds: the last one that the events of the run say was set for the host, or the one
it had before; and for a host without one, the last that was set for the fleet, or the one before. -/
theorem interval_in_force (configuration : HTTPConfiguration)
    (reads : ControlTables → Moment → Service Host) (db : ControlDb) (inputs : List Input) :
    ∃ events, (answers (ControlDb.step configuration reads) db
          inputs).2.tables.operations.auditEvents =
        db.tables.operations.auditEvents ++ events ∧
      ∀ host ∈ (answers (ControlDb.step configuration reads) db inputs).2.tables.operations.hosts,
      ∀ telemetry now, ∃ status,
        ((fleetIngestionStatus now
            (answers (ControlDb.step configuration reads) db inputs).2.tables.settings
            (withHosts telemetry
              (answers (ControlDb.step configuration reads) db inputs).2.tables)).filter
          fun s => decide (s.hostSlug = host.row.slug)) = [status] ∧
        InRange status.effectiveIntervalSeconds ∧
        status.effectiveIntervalSeconds =
          ((lastInterval (slugIds (answers (ControlDb.step configuration reads) db
              inputs).2.tables.operations.hosts) (Statement.forHost host.row.id) events).or
            (db.tables.audited.hostSeconds host.row.id)).getD
          ((lastInterval (slugIds (answers (ControlDb.step configuration reads) db
              inputs).2.tables.operations.hosts) Statement.forFleet events).getD
            db.tables.audited.fleetSeconds) := by
  have hnames := names_slugIds
    (answers (ControlDb.step configuration reads) db inputs).2.constrained.hostSlugs
  obtain ⟨parts, -, hgrows⟩ := run_grows configuration reads db inputs hnames
  refine ⟨parts.flatten, hgrows.log, ?_⟩
  intro host hhost telemetry now
  obtain ⟨status, hone, hinterval⟩ := reported_inForce _ telemetry now hhost
  have hview : (answers (ControlDb.step configuration reads) db inputs).2.tables.audited =
      parts.flatten.foldl (Audited.replay _) db.tables.audited := hgrows.view
  refine ⟨status, hone, ?_, ?_⟩
  · rw [hinterval]
    exact inForce_inRange _ _
  · rw [hinterval, hview, Audited.inForce, hostSeconds_replay, fleetSeconds_replay]

end NodeScope.Control
