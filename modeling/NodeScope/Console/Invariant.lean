import NodeScope.Console.Router
import Mathlib.Logic.Function.Basic

/-!
# What the mutations of the console keep

The state is read as a function from targets to entries. A mutation that succeeds updates that
function at one target and prepends one audit that names the caller, the action and the target; a
mutation that throws leaves the state as it was.

## Implementation notes

The hosts are those of any fleet that has the host of the first override. A run is a fold over its
calls, each with its own caller, identifiers and time.
-/

namespace NodeScope.Console

open Lib Lib.Check Lib.Text

variable {fleet : FleetSnapshot} {newURL : String → Option EndpointURL}

def FleetSnapshot.Knows (fleet : FleetSnapshot) (hostId : String) : Prop :=
  ∃ host ∈ fleet.hosts, host.id = hostId

/-- What a mutation may change. -/
inductive Target where
  | alertRule (id : String)
  | alert (id : String)
  | host (id : String)
  | fleet
  | runtimeCandidate (id : String)
  | backup
deriving DecidableEq

def Target.type : Target → String
  | .alertRule _ => "alert_rule"
  | .alert _ => "alert"
  | .host _ => "host"
  | .fleet => "fleet"
  | .runtimeCandidate _ => "runtime_candidate"
  | .backup => "backup"

def Target.id : Target → Option String
  | .alertRule id | .alert id | .host id | .runtimeCandidate id => some id
  | .fleet | .backup => none

/-- What the state holds about a target. -/
inductive Entry where
  | rule (rule : Option AlertRule)
  | flag (set : Bool)
  | interval (seconds : Option Int)
  | nothing
deriving DecidableEq

def DevelopmentState.view (state : DevelopmentState) : Target → Entry
  | .alertRule id => .rule (Table.find AlertRule.id id state.alertRules)
  | .alert id => .flag (decide (id ∈ state.acknowledgedAlerts))
  | .host id => .interval ((Table.find Prod.fst id state.hostOverrides).map Prod.snd)
  | .fleet => .interval (some state.globalIntervalSeconds)
  | .runtimeCandidate id => .flag (decide (id ∈ state.approvedRuntimeIds))
  | .backup => .nothing

def Mutation.action : Mutation → String
  | .saveRule _ => "alert_rule.save"
  | .acknowledge _ => "alert.acknowledge"
  | .setCollectionInterval _ => "collection_interval.set"
  | .refreshStorageBaseline _ => "storage_baseline.refresh"
  | .approve _ => "runtime.approve"
  | .initiate _ => "backup.initiate"

def Mutation.target (fresh : Fresh) : Mutation → Target
  | .saveRule input => .alertRule input.id
  | .acknowledge input => .alert input.alertId
  | .setCollectionInterval input => input.hostId.elim .fleet .host
  | .refreshStorageBaseline input => .host input.hostId
  | .approve input => .runtimeCandidate ("runtime:" ++ input.hostId ++ ":" ++ fresh.otherId)
  | .initiate _ => .backup

/-- What a mutation puts at its target, unless it is recorded only. -/
def Mutation.written : Mutation → Option Entry
  | .saveRule input => some (.rule (some input.toAlertRule))
  | .acknowledge _ => some (.flag true)
  | .setCollectionInterval input => some (.interval (some input.intervalSeconds))
  | .approve _ => some (.flag true)
  | .refreshStorageBaseline _ | .initiate _ => none

/-- The view of the state that a mutation asks for. -/
def Mutation.apply (fresh : Fresh) (mutation : Mutation) (view : Target → Entry) :
    Target → Entry :=
  match mutation.written with
  | some entry => Function.update view (mutation.target fresh) entry
  | none => view

structure Coherent (fleet : FleetSnapshot) (state : DevelopmentState) : Prop where
  rulesDistinct : (state.alertRules.map AlertRule.id).Nodup
  fleetRule : ∀ rule ∈ state.alertRules, rule.scope = .fleet → rule.hostId = none
  hostRule : ∀ rule ∈ state.alertRules, rule.scope = .host →
    ∃ hostId, rule.hostId = some hostId ∧ fleet.Knows hostId
  globalInterval : 1 ≤ state.globalIntervalSeconds ∧ state.globalIntervalSeconds ≤ 60
  overrides : ∀ entry ∈ state.hostOverrides,
    fleet.Knows entry.1 ∧ 1 ≤ entry.2 ∧ entry.2 ≤ 60
  overridesDistinct : (state.hostOverrides.map Prod.fst).Nodup

/-- Whether an audit names a caller, an action and a target. -/
structure DevelopmentAudit.Names (audit : DevelopmentAudit) (actorId action : String)
    (target : Target) : Prop where
  actor : audit.actorId = actorId
  action : audit.action = action
  targetType : audit.targetType = target.type
  targetId : audit.targetId = target.id

/-- What a successful call does to the state. -/
structure Recorded (call : Call) (before after : DevelopmentState) : Prop where
  audited : ∃ user audit, call.user = some user ∧ after.audits = audit :: before.audits ∧
    audit.Names user.openId call.mutation.action (call.mutation.target call.fresh)
  viewed : after.view = call.mutation.apply call.fresh before.view

section Changes

/-- A change of the state before it is recorded. -/
structure Changes (fleet : FleetSnapshot) (fresh : Fresh) (mutation : Mutation)
    (before after : DevelopmentState) : Prop where
  audits : after.audits = before.audits
  viewed : after.view = mutation.apply fresh before.view
  coherent : Coherent fleet before → Coherent fleet after

theorem putRule_eq (rule : AlertRule) (rules : List AlertRule) :
    putRule rule rules =
      if ∃ candidate ∈ rules, candidate.id = rule.id then Table.put AlertRule.id rule rules
      else rule :: rules := by
  have hput : ∀ index, (rules.findIdx? fun candidate => candidate.id == rule.id) = some index →
      rules.set index rule = Table.put AlertRule.id rule rules := by
    induction rules with
    | nil => simp
    | cons candidate rest ih =>
        intro index hindex
        by_cases hid : candidate.id = rule.id
        · obtain rfl : 0 = index := by simpa [List.findIdx?_cons, hid] using hindex
          simp [Table.put, hid]
        · simp only [List.findIdx?_cons, hid, beq_iff_eq, if_false, Option.map_eq_some_iff]
            at hindex
          obtain ⟨index, hindex, rfl⟩ := hindex
          simp only [Table.put, hid, if_false, List.set_cons_succ, ih index hindex]
  cases hfind : rules.findIdx? fun candidate => candidate.id == rule.id with
  | some index =>
      have hsome : (rules.findIdx? fun candidate => candidate.id == rule.id).isSome =
          rules.any fun candidate => candidate.id == rule.id := List.findIdx?_isSome
      rw [hfind] at hsome
      have hmem : ∃ candidate ∈ rules, candidate.id = rule.id := by simpa using hsome.symm
      rw [if_pos hmem, ← hput index hfind]
      simp only [putRule, hfind]
  | none =>
      have hmem : ¬ ∃ candidate ∈ rules, candidate.id = rule.id := by
        simpa using List.findIdx?_eq_none_iff.1 hfind
      simp only [putRule, hfind, if_neg hmem]

theorem find_putRule (id : String) (rule : AlertRule) (rules : List AlertRule) :
    Table.find AlertRule.id id (putRule rule rules) =
      if rule.id = id then some rule else Table.find AlertRule.id id rules := by
  rw [putRule_eq]
  split
  · exact Table.find_put id rule rules
  · by_cases hid : rule.id = id <;> simp [Table.find, hid]

theorem mem_putRule {rule candidate : AlertRule} {rules : List AlertRule}
    (h : candidate ∈ putRule rule rules) : candidate = rule ∨ candidate ∈ rules := by
  rw [putRule_eq] at h
  split at h
  · exact Table.mem_put h
  · exact List.mem_cons.1 h

theorem nodup_putRule (rule : AlertRule) {rules : List AlertRule}
    (h : (rules.map AlertRule.id).Nodup) : ((putRule rule rules).map AlertRule.id).Nodup := by
  rw [putRule_eq]
  split
  · exact Table.nodup_put rule h
  · rename_i hnew
    rw [List.map_cons, List.nodup_cons]
    refine ⟨fun hmem => ?_, h⟩
    obtain ⟨candidate, hcandidate, hid⟩ := List.mem_map.1 hmem
    exact hnew ⟨candidate, hcandidate, hid⟩

/-- Putting a rule that was put changes nothing. -/
theorem putRule_putRule (rule : AlertRule) (rules : List AlertRule) :
    putRule rule (putRule rule rules) = putRule rule rules := by
  have hmem : ∃ candidate ∈ putRule rule rules, candidate.id = rule.id := by
    have hfind := find_putRule rule.id rule rules
    rw [if_pos rfl] at hfind
    exact ⟨rule, (Table.mem_of_find hfind).1, rfl⟩
  rw [putRule_eq rule (putRule rule rules), if_pos hmem, putRule_eq rule rules]
  split
  · exact Table.put_put rfl rules
  · simp [Table.put]

theorem mem_setAdd (id element : String) (elements : List String) :
    id ∈ setAdd elements element ↔ id = element ∨ id ∈ elements := by
  unfold setAdd
  split
  · rename_i hmem
    refine ⟨Or.inr, fun h => h.elim (fun hid => hid ▸ hmem) fun h => h⟩
  · rw [List.mem_append, List.mem_singleton, or_comm]

theorem knows_of_requireHost {hostId : String} {host : Host}
    (h : requireHost fleet hostId = .ok host) : host.id = hostId ∧ fleet.Knows hostId := by
  have hfind := orFail_eq_ok.1 h
  have hid : host.id = hostId := by simpa using List.find?_some hfind
  exact ⟨hid, host, List.mem_of_find?_eq_some hfind, hid⟩

theorem scope_of_checkScope {rule : AlertRule} {u : Unit} (h : checkScope fleet rule = .ok u)
    (hnamed : rule.hostId ≠ some "") :
    (rule.scope = .fleet → rule.hostId = none) ∧
      (rule.scope = .host → ∃ hostId, rule.hostId = some hostId ∧ fleet.Knows hostId) := by
  simp only [checkScope, unit_bind_eq_ok, failIf_eq_ok] at h
  obtain ⟨hhost, hfleet, hrequire⟩ := h
  cases hid : rule.hostId with
  | none =>
      refine ⟨fun _ => rfl, fun hscope => ?_⟩
      simp [hscope, hid, truthy] at hhost
  | some hostId =>
      have hne : hostId ≠ "" := by
        rintro rfl
        exact hnamed hid
      have htruthy : truthy rule.hostId = true := by simpa [truthy, hid] using hne
      refine ⟨fun hscope => ?_, fun hscope => ⟨hostId, rfl, ?_⟩⟩
      · simp [hscope, htruthy] at hfleet
      · rw [if_pos ⟨hscope, htruthy⟩, bind_eq_ok] at hrequire
        obtain ⟨host, hhost, -⟩ := hrequire
        have hknows := (knows_of_requireHost hhost).2
        rwa [hid, Option.getD_some] at hknows

variable {fresh : Fresh} {state : DevelopmentState}

theorem changes_saveRule {input : SaveInput} {u : Unit}
    (h : checkScope fleet input.toAlertRule = .ok u) :
    Changes fleet fresh (.saveRule input) state
      { state with alertRules := putRule input.toAlertRule state.alertRules } where
  audits := rfl
  viewed := by
    funext target
    cases target with
    | alertRule id =>
        simp only [DevelopmentState.view, Mutation.apply, Mutation.written, Mutation.target,
          Function.update_apply, Target.alertRule.injEq, find_putRule, eq_comm (a := id)]
        split <;> rfl
    | _ => rfl
  coherent hstate := by
    obtain ⟨hfleet, hhost⟩ := scope_of_checkScope h input.hostNamed
    refine { hstate with
      rulesDistinct := nodup_putRule _ hstate.rulesDistinct
      fleetRule := fun rule hrule => ?_
      hostRule := fun rule hrule => ?_ }
    · obtain rfl | hrule := mem_putRule hrule
      · exact hfleet
      · exact hstate.fleetRule rule hrule
    · obtain rfl | hrule := mem_putRule hrule
      · exact hhost
      · exact hstate.hostRule rule hrule

theorem changes_acknowledge (input : AcknowledgeInput) :
    Changes fleet fresh (.acknowledge input) state
      { state with acknowledgedAlerts := setAdd state.acknowledgedAlerts input.alertId } where
  audits := rfl
  viewed := by
    funext target
    cases target with
    | alert id =>
        simp only [DevelopmentState.view, Mutation.apply, Mutation.written, Mutation.target,
          Function.update_apply, Target.alert.injEq, mem_setAdd]
        split
        · rename_i hid
          simp [hid]
        · rename_i hid
          simp [hid]
    | _ => rfl
  coherent hstate := { hstate with }

theorem changes_approve (input : ApproveInput) :
    Changes fleet fresh (.approve input) state
      { state with
        approvedRuntimeIds := setAdd state.approvedRuntimeIds
          ("runtime:" ++ input.hostId ++ ":" ++ fresh.otherId) } where
  audits := rfl
  viewed := by
    funext target
    cases target with
    | runtimeCandidate id =>
        simp only [DevelopmentState.view, Mutation.apply, Mutation.written, Mutation.target,
          Function.update_apply, Target.runtimeCandidate.injEq, mem_setAdd]
        split
        · rename_i hid
          simp [hid]
        · rename_i hid
          simp [hid]
    | _ => rfl
  coherent hstate := { hstate with }

theorem changes_override {input : IntervalInput} {hostId : String}
    (hinput : input.hostId = some hostId) (hknows : fleet.Knows hostId) :
    Changes fleet fresh (.setCollectionInterval input) state
      { state with
        hostOverrides := mapSet state.hostOverrides hostId input.intervalSeconds } where
  audits := rfl
  viewed := by
    funext target
    cases target with
    | host id =>
        simp only [DevelopmentState.view, Mutation.apply, Mutation.written, Mutation.target, hinput,
          Option.elim_some, Function.update_apply, Target.host.injEq, mapSet, Table.find_put]
        split
        · rename_i hid
          simp [hid]
        · rename_i hid
          simp [Ne.symm hid]
    | _ => simp [DevelopmentState.view, Mutation.apply, Mutation.written, Mutation.target, hinput]
  coherent hstate := by
    refine { hstate with
      overrides := fun entry hentry => ?_
      overridesDistinct := Table.nodup_put _ hstate.overridesDistinct }
    obtain rfl | hentry := Table.mem_put hentry
    · exact ⟨hknows, input.interval⟩
    · exact hstate.overrides entry hentry

theorem changes_global {input : IntervalInput} (hinput : input.hostId = none) :
    Changes fleet fresh (.setCollectionInterval input) state
      { state with globalIntervalSeconds := input.intervalSeconds } where
  audits := rfl
  viewed := by
    funext target
    cases target <;>
      simp [DevelopmentState.view, Mutation.apply, Mutation.written, Mutation.target, hinput,
        Function.update_apply]
  coherent hstate := { hstate with globalInterval := input.interval }

/-- A mutation that is recorded only changes nothing. -/
theorem changes_none {mutation : Mutation} (h : mutation.written = none) :
    Changes fleet fresh mutation state state where
  audits := rfl
  viewed := by simp only [Mutation.apply, h]
  coherent := fun hstate => hstate

end Changes

section Runs

/-- An outcome that leaves the state to an error, or records what a mutation asked for. -/
def Settled (fleet : FleetSnapshot) (fresh : Fresh) (actorId : String) (mutation : Mutation)
    (state : DevelopmentState) (outcome : Outcome) : Prop :=
  (∃ error, outcome = (.error error, state)) ∨
    ∃ result audit changed,
      outcome = (.ok result, { changed with audits := audit :: changed.audits }) ∧
      audit.Names actorId mutation.action (mutation.target fresh) ∧
      Changes fleet fresh mutation state changed

variable {fresh : Fresh} {actorId : String} {state changed : DevelopmentState}
variable {mutation : Mutation} {outcome : Outcome}

theorem settled_error {error : TRPCError} (h : outcome = (.error error, state)) :
    Settled fleet fresh actorId mutation state outcome :=
  Or.inl ⟨error, h⟩

theorem settled_ok {result : MutationResult} {metadata : List (String × MetadataValue)}
    {auditOutcome : AuditOutcome} (hchanges : Changes fleet fresh mutation state changed)
    (h : outcome = (.ok result, (createAudit fresh actorId mutation.action
      (mutation.target fresh).type (mutation.target fresh).id metadata auditOutcome changed).2)) :
    Settled fleet fresh actorId mutation state outcome :=
  Or.inr ⟨result, _, changed, h, ⟨rfl, rfl, rfl, rfl⟩, hchanges⟩

theorem settled_setCollectionInterval (input : IntervalInput) :
    Settled fleet fresh actorId (.setCollectionInterval input) state
      (setCollectionInterval fleet actorId fresh input state) := by
  cases hinput : input.hostId with
  | none =>
      apply settled_ok (changes_global hinput)
      simp only [setCollectionInterval, Mutation.target, hinput]
      rfl
  | some hostId =>
      have hne : hostId ≠ "" := by
        rintro rfl
        exact input.hostNamed hinput
      have htruthy : truthy (some hostId) = true := by simpa [truthy] using hne
      cases hhost : requireHost fleet hostId with
      | error error =>
          apply settled_error
          simp only [setCollectionInterval, hinput, htruthy, if_true, Option.getD_some, hhost]
          rfl
      | ok host =>
          apply settled_ok (changes_override hinput (knows_of_requireHost hhost).2)
          simp only [setCollectionInterval, hinput, htruthy, if_true, Option.getD_some, hhost,
            Mutation.target]
          rfl

theorem settled_refreshStorageBaseline (input : BaselineInput) :
    Settled fleet fresh actorId (.refreshStorageBaseline input) state
      (refreshStorageBaseline fleet actorId fresh input state) := by
  cases hhost : requireHost fleet input.hostId with
  | error error =>
      apply settled_error
      simp only [refreshStorageBaseline, hhost]
      rfl
  | ok host =>
      have hid : host.id = input.hostId := (knows_of_requireHost hhost).1
      cases hdiff : input.acknowledgedDiff with
      | false =>
          apply settled_error
          simp only [refreshStorageBaseline, hhost, hdiff, Bool.false_eq_true, if_false]
          rfl
      | true =>
          apply settled_ok (changes_none rfl)
          simp only [refreshStorageBaseline, hhost, hdiff, if_true, hid]
          rfl

theorem settled_approve (input : ApproveInput) :
    Settled fleet fresh actorId (.approve input) state
      (approve fleet newURL actorId fresh input state) := by
  cases hhost : requireHost fleet input.hostId with
  | error error =>
      apply settled_error
      simp only [approve, hhost]
      rfl
  | ok host =>
      cases hendpoint : validateRuntimeApprovalEndpoint newURL input.endpoint with
      | error error =>
          apply settled_error
          simp only [approve, hhost, hendpoint]
          rfl
      | ok transport =>
          apply settled_ok (changes_approve input)
          simp only [approve, hhost, hendpoint]
          rfl

theorem settled_runMutation (fleet : FleetSnapshot) (newURL : String → Option EndpointURL)
    (actorId : String) (fresh : Fresh) (state : DevelopmentState) (mutation : Mutation) :
    Settled fleet fresh actorId mutation state
      (runMutation fleet newURL actorId fresh state mutation) := by
  cases mutation with
  | saveRule input =>
      cases hscope : checkScope fleet input.toAlertRule with
      | error error =>
          apply settled_error
          simp only [runMutation, saveRule, hscope]
          rfl
      | ok u =>
          apply settled_ok (changes_saveRule hscope)
          simp only [runMutation, saveRule, hscope]
          rfl
  | acknowledge input =>
      cases hfind : fleet.alerts.find? fun candidate => candidate.id == input.alertId with
      | none =>
          apply settled_error
          simp only [runMutation, acknowledge, hfind]
          rfl
      | some alert =>
          have hid : alert.id = input.alertId := by simpa using List.find?_some hfind
          apply settled_ok (changes_acknowledge input)
          simp only [runMutation, acknowledge, hfind, hid]
          rfl
  | setCollectionInterval input => exact settled_setCollectionInterval input
  | refreshStorageBaseline input => exact settled_refreshStorageBaseline input
  | approve input => exact settled_approve input
  | initiate input =>
      apply settled_ok (changes_none rfl)
      rfl

/-- Recording an audit changes neither the view of the state nor its coherence. -/
theorem recorded_of_changes {call : Call} {user : User} {audit : DevelopmentAudit}
    (huser : call.user = some user)
    (hnames : audit.Names user.openId call.mutation.action (call.mutation.target call.fresh))
    (hchanges : Changes fleet call.fresh call.mutation state changed) :
    Recorded call state { changed with audits := audit :: changed.audits } ∧
      (Coherent fleet state →
        Coherent fleet { changed with audits := audit :: changed.audits }) := by
  refine ⟨⟨⟨user, audit, huser, ?_, hnames⟩, ?_⟩, fun hstate => ?_⟩
  · rw [hchanges.audits]
  · rw [← hchanges.viewed]
    funext target
    cases target <;> rfl
  · exact { hchanges.coherent hstate with }

theorem user_of_requireNodeScopeRole {minimumRole : NodeScopeRole} {caller : Option User}
    {user : User} (h : requireNodeScopeRole minimumRole caller = .ok user) :
    caller = some user := by
  simp only [requireNodeScopeRole, orFail_bind_eq_ok, unit_bind_eq_ok] at h
  obtain ⟨found, hcaller, -, hfound⟩ := h
  obtain rfl : found = user := by simpa [pure, Except.pure] using hfound
  exact hcaller

/-- A call throws and leaves the state, or is recorded and keeps the state coherent. -/
theorem call_cases (newURL : String → Option EndpointURL) (call : Call)
    (state : DevelopmentState) :
    (∃ error, call.run fleet newURL state = (.error error, state)) ∨
      ∃ result after, call.run fleet newURL state = (.ok result, after) ∧
        Recorded call state after ∧ (Coherent fleet state → Coherent fleet after) := by
  cases hrole : requireNodeScopeRole call.mutation.minimumRole call.user with
  | error error => exact Or.inl ⟨error, by simp only [Call.run, hrole]⟩
  | ok user =>
      have hrun : call.run fleet newURL state =
          runMutation fleet newURL user.openId call.fresh state call.mutation := by
        simp only [Call.run, hrole]
      obtain ⟨error, herror⟩ | ⟨result, audit, changed, hok, hnames, hchanges⟩ :=
        settled_runMutation fleet newURL user.openId call.fresh state call.mutation
      · exact Or.inl ⟨error, hrun.trans herror⟩
      · exact Or.inr ⟨result, _, hrun.trans hok,
          recorded_of_changes (user_of_requireNodeScopeRole hrole) hnames hchanges⟩

/-- The state after calls that ran one after another. -/
def runCalls (fleet : FleetSnapshot) (newURL : String → Option EndpointURL) (calls : List Call)
    (state : DevelopmentState) : DevelopmentState :=
  calls.foldl (fun state call => (call.run fleet newURL state).2) state

theorem coherent_call (call : Call) (h : Coherent fleet state) :
    Coherent fleet (call.run fleet newURL state).2 := by
  obtain ⟨error, hrun⟩ | ⟨result, after, hrun, -, hkeeps⟩ := call_cases newURL call state
  · rw [hrun]
    exact h
  · rw [hrun]
    exact hkeeps h

theorem coherent_runCalls (calls : List Call) (h : Coherent fleet state) :
    Coherent fleet (runCalls fleet newURL calls state) := by
  induction calls generalizing state with
  | nil => exact h
  | cons call rest ih => exact ih (coherent_call call h)

theorem audits_runCalls (calls : List Call) (state : DevelopmentState) :
    state.audits <:+ (runCalls fleet newURL calls state).audits := by
  induction calls generalizing state with
  | nil => exact List.suffix_rfl
  | cons call rest ih =>
      have hstep : state.audits <:+ (call.run fleet newURL state).2.audits := by
        obtain ⟨error, hrun⟩ | ⟨result, after, hrun, hrecorded, -⟩ :=
            @call_cases fleet newURL call state
        · simp only [hrun, List.suffix_rfl]
        · obtain ⟨user, audit, -, haudits, -⟩ := hrecorded.audited
          rw [hrun, haudits]
          exact List.suffix_cons audit state.audits
      exact hstep.trans (ih (call.run fleet newURL state).2)

theorem coherent_developmentState (hasus : fleet.Knows "asus") :
    Coherent fleet developmentState where
  rulesDistinct := by simp [developmentState]
  fleetRule := by simp [developmentState]
  hostRule := by simpa [developmentState] using hasus
  globalInterval := by simp [developmentState]
  overrides := by simpa [developmentState] using hasus
  overridesDistinct := by simp [developmentState]

theorem alertRules_saveRule (fleet : FleetSnapshot) (newURL : String → Option EndpointURL)
    (state : DevelopmentState) {call : Call} {input : SaveInput}
    (hcall : call.mutation = .saveRule input) :
    (∃ error, call.run fleet newURL state = (.error error, state)) ∨
      (call.run fleet newURL state).2.alertRules = putRule input.toAlertRule state.alertRules := by
  simp only [Call.run, hcall, runMutation, saveRule]
  cases requireNodeScopeRole (Mutation.saveRule input).minimumRole call.user with
  | error error => exact Or.inl ⟨error, rfl⟩
  | ok user =>
      cases checkScope fleet input.toAlertRule with
      | error error => exact Or.inl ⟨error, rfl⟩
      | ok u => exact Or.inr rfl

/-- What holds in a state that a run reaches. -/
structure Invariant (fleet : FleetSnapshot) (newURL : String → Option EndpointURL)
    (state : DevelopmentState) : Prop where
  coherent : Coherent fleet state
  throws : ∀ (call : Call) (error : TRPCError),
    (call.run fleet newURL state).1 = .error error → (call.run fleet newURL state).2 = state
  succeeds : ∀ (call : Call) (result : MutationResult),
    (call.run fleet newURL state).1 = .ok result →
      Recorded call state (call.run fleet newURL state).2
  savedTwice : ∀ (once again : Call) (input : SaveInput) (result : MutationResult),
    once.mutation = .saveRule input → again.mutation = .saveRule input →
      (once.run fleet newURL state).1 = .ok result →
      (again.run fleet newURL (once.run fleet newURL state).2).2.alertRules =
        (once.run fleet newURL state).2.alertRules
  kept : ∀ later : List Call, state.audits <:+ (runCalls fleet newURL later state).audits

theorem savedTwice_eq {once again : Call} {input : SaveInput} {result : MutationResult}
    (honce : once.mutation = .saveRule input) (hagain : again.mutation = .saveRule input)
    (hok : (once.run fleet newURL state).1 = .ok result) :
    (again.run fleet newURL (once.run fleet newURL state).2).2.alertRules =
      (once.run fleet newURL state).2.alertRules := by
  have hsaved : (once.run fleet newURL state).2.alertRules =
      putRule input.toAlertRule state.alertRules := by
    obtain ⟨error, herror⟩ | hsaved := alertRules_saveRule fleet newURL state honce
    · rw [herror] at hok
      cases hok
    · exact hsaved
  obtain ⟨error, herror⟩ | hputs :=
    alertRules_saveRule fleet newURL (once.run fleet newURL state).2 hagain
  · rw [herror]
  · rw [hputs, hsaved, putRule_putRule]

theorem invariant_of_coherent (h : Coherent fleet state) : Invariant fleet newURL state where
  coherent := h
  throws call error herror := by
    obtain ⟨_, hrun⟩ | ⟨result, after, hrun, -⟩ := call_cases newURL call state
    · rw [hrun]
    · rw [hrun] at herror
      cases herror
  succeeds call result hok := by
    obtain ⟨error, hrun⟩ | ⟨_, after, hrun, hrecorded, -⟩ := call_cases newURL call state
    · rw [hrun] at hok
      cases hok
    · rw [hrun]
      exact hrecorded
  savedTwice _ _ _ _ := savedTwice_eq
  kept later := audits_runCalls later state

/-- Every run of mutations, by any callers and on any inputs, keeps the invariant. -/
theorem router_invariant (newURL : String → Option EndpointURL) (hasus : fleet.Knows "asus")
    (calls : List Call) : Invariant fleet newURL (runCalls fleet newURL calls developmentState) :=
  invariant_of_coherent (coherent_runCalls calls (coherent_developmentState hasus))

/-- An administrator sets an interval and approves a runtime of the first host. -/
theorem interval_then_approval_invariant :
    Invariant buildFleetSnapshot
      (fun _ => some ⟨"https:", "", "", "10.0.0.5", "/v1", "", ""⟩)
      (runCalls buildFleetSnapshot (fun _ => some ⟨"https:", "", "", "10.0.0.5", "/v1", "", ""⟩)
        [⟨some ⟨"ann", some "admin"⟩, ⟨"audit-1", "operation-1", 1⟩,
          .setCollectionInterval ⟨some "framework", 20, by decide, by decide⟩⟩,
         ⟨some ⟨"ann", some "admin"⟩, ⟨"audit-2", "candidate-1", 2⟩,
          .approve ⟨"framework", "https://10.0.0.5/v1", .vllm, by decide, by decide⟩⟩]
        developmentState) :=
  router_invariant _ ⟨⟨"asus", ["root", "models", "backup"]⟩, by decide, rfl⟩ _

end Runs

end NodeScope.Console
