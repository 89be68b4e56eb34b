import NodeScope.Access.Migrations

/-!
# What each role can do

The sessions of a database that the migrations have been applied to. For every login and every
table it is said whether the table can change in some run of sessions, and for the verifier and the
storage auditor what they can execute, also after later migrations that only create objects.

## Implementation notes

`effects` has what the statements of the functions write; `Writes` holds the modelled functions
against it. Some functions raise at every call as they stand: `enroll_or_rotate_agent` and
`acquire_maintenance_lease` for how they name a column, `create_operation_with_audit` for a text that
is no outcome. So the boundary is proved for all effects that stay within the statements, and what
the enroller can do is said by what its one function writes.
-/

namespace NodeScope.Access

open Lib.Privileges

/-- What the statements of the functions write, and what the foreign keys do to other tables when a row is deleted.
What a function of a later migration writes is arbitrary. -/
def effects (later : String → List (Table × Command)) : Effects Table Function where
  writes f :=
    match f with
    | .touchUpdatedAt => []
    | .createOperationWithAudit => [(.auditEvents, .insert), (.operations, .insert)]
    | .rollupRecentSamples =>
        [(.maintenanceStatus, .update), (.metricRollups, .insert), (.metricRollups, .update)]
    | .refreshHighWaterMarks =>
        [(.maintenanceStatus, .update), (.metricHighWater, .insert), (.metricHighWater, .update)]
    | .pruneExpiredTelemetry =>
        [(.maintenanceStatus, .update), (.telemetryBatches, .delete), (.metricRollups, .delete),
          (.storageProbeSummaries, .delete)]
    | .enrollOrRotateAgent =>
        [(.hosts, .insert), (.hosts, .update), (.agents, .insert), (.agents, .update),
          (.auditEvents, .insert)]
    | .hostIngestionStatus | .storageProbeEvidence | .fleetIngestionStatus => []
    | .mcpSetCollectionInterval =>
        [(.collectionSettings, .update), (.hostCollectionOverrides, .insert),
          (.hostCollectionOverrides, .update), (.auditEvents, .insert)]
    | .mcpAcknowledgeAlert => [(.alerts, .update), (.auditEvents, .insert)]
    | .mcpRefreshStorageBaseline => [(.auditEvents, .insert), (.operations, .insert)]
    | .acquireMaintenanceLease => [(.maintenanceLeases, .insert), (.maintenanceLeases, .update)]
    | .leaseIsCurrent => []
    | .other name => later name
  actions t :=
    match t with
    | .hosts =>
        [.hostCapabilities, .agents, .hostCollectionOverrides, .storageBaselines,
          .runtimeCandidates, .operations, .telemetryBatches, .metricLatest, .metricRollups,
          .storageProbeSummaries, .metricSamples, .metricHighWater, .ingestReceipts,
          .containerInventory, .alertRules, .alerts]
    | .telemetryBatches => [.metricSamples]
    | .alertRules => [.alerts]
    | _ => []

/-- What the functions do when they are called: they write within their statements, or less when they
raise. -/
structure Within (later : String → List (Table × Command)) (e : Effects Table Function) : Prop where
  writes : ∀ f, e.writes f ⊆ (effects later).writes f
  actions : e.actions = (effects later).actions

/-- The function of the enroller writes the table. -/
def Enrolled (e : Effects Table Function) (t : Table) : Prop :=
  ∃ command, command ≠ .select ∧ (t, command) ∈ e.writes .enrollOrRotateAgent

/-- The functions that raise at every call. -/
def raising : List Function :=
  [.enrollOrRotateAgent, .createOperationWithAudit, .mcpRefreshStorageBaseline,
    .acquireMaintenanceLease]

/-- The functions as they stand. -/
def effectsAsWritten (later : String → List (Table × Command)) : Effects Table Function :=
  { effects later with
    writes := fun f => if f ∈ raising then [] else (effects later).writes f }

/-- The logins that can act as the owner. -/
def owners : List Role := [.owner, .postgres, .migrateLogin]

/-- The logins whose sessions can change a table, the enroller if its function does. -/
def writers : Table → List Role
  | .schemaMigrations | .inferenceUsageEvents => owners
  | .hosts | .agents | .auditEvents => owners ++ [.runtime, .runtimeLogin, .enroller]
  | .other _ => []
  | _ => owners ++ [.runtime, .runtimeLogin]

section Roles

theorem memberships_flat (a b d : Role) (h : (a, b) ∈ roles.memberships) :
    (b, d) ∉ roles.memberships := by
  simp only [roles, List.mem_cons, Prod.mk.injEq, List.not_mem_nil, or_false] at h
  obtain ⟨-, rfl⟩ | ⟨-, rfl⟩ | ⟨-, rfl⟩ | ⟨-, rfl⟩ | ⟨-, rfl⟩ | ⟨-, rfl⟩ | ⟨-, rfl⟩ := h <;>
    simp [roles]

theorem mayBecome_iff {login r : Role} :
    MayBecome roles login r ↔ r = login ∨ (login, r) ∈ roles.memberships :=
  reflTransGen_flat memberships_flat

/-- Only these logins have the privileges of their groups without taking the role. -/
def inherited : List (Role × Role) :=
  [(.postgres, .owner), (.postgres, .migrator), (.verifierLogin, .verifier),
    (.storageAuditorLogin, .storageAuditor)]

theorem effective_iff {r e : Role} : Effective roles r e ↔ e = r ∨ (r, e) ∈ inherited := by
  have hflat (a b d : Role) (hab : roles.inherits a = true ∧ (a, b) ∈ roles.memberships) :
      ¬ (roles.inherits b = true ∧ (b, d) ∈ roles.memberships) :=
    fun hbd => memberships_flat a b d hab.2 hbd.2
  rw [Effective, reflTransGen_flat hflat]
  cases r <;> simp [roles, inherited]

theorem effective_owner_iff {r : Role} : Effective roles r .owner ↔ r = .owner ∨ r = .postgres := by
  rw [effective_iff]
  cases r <;> simp [inherited]

theorem effective_runtime_iff {r : Role} : Effective roles r .runtime ↔ r = .runtime := by
  rw [effective_iff]
  cases r <;> simp [inherited]

theorem effective_enroller_iff {r : Role} : Effective roles r .enroller ↔ r = .enroller := by
  rw [effective_iff]
  cases r <;> simp [inherited]

theorem held_toRoles {r : Role} {gs : List Role} :
    Held roles r (toRoles gs) ↔ ∃ g ∈ gs, Effective roles r g := by
  simp [Held, toRoles, and_comm]

end Roles

section Commands

variable {r : Role} {t : Table} {f : Function} {command : Command}

theorem owner_eq : migrated.owner = .owner := by decide +kernel

theorem grants_command (command : Command) :
    ((grants dml (toRoles [.runtime])).filter fun p => p.2 = command).map Prod.fst =
      toRoles [.runtime] := by
  cases command <;> decide

/-- The roles that can name the objects of the schema. -/
theorem mayUse_iff : MayUse roles migrated r ↔
    r ∈ [.owner, .postgres, .runtime, .migrator, .enroller, .verifier, .verifierLogin,
      .storageAuditor, .storageAuditorLogin] := by
  rw [MayUse, owner_eq, migrated_usage, held_toRoles]
  simp only [effective_iff]
  cases r <;> simp [inherited]

/-- A table of the migrations is what its entry says. -/
theorem mayCommand_entry : MayCommand roles migrated r t command ↔
    MayUse roles migrated r ∧ t ∈ tables ∧ (tableEntry t).Grants roles r command ∧
      (tableEntry t).Passes roles r := by
  rw [MayCommand, migrated_tables]
  refine and_congr_right fun _ => ?_
  constructor
  · rintro ⟨e, he, rfl, hgrants, hpasses⟩
    obtain ⟨u, hu, rfl⟩ := List.mem_map.mp he
    exact ⟨hu, hgrants, hpasses⟩
  · rintro ⟨ht, hgrants, hpasses⟩
    exact ⟨tableEntry t, List.mem_map_of_mem ht, rfl, hgrants, hpasses⟩

theorem entry_default (hmigrations : t ≠ .schemaMigrations) (husage : t ≠ .inferenceUsageEvents) :
    (tableEntry t).grants = grants dml (toRoles [.runtime]) ∧
      (tableEntry t).policies = toRoles [.runtime] := by
  cases t <;> first | exact ⟨rfl, rfl⟩ | contradiction

/-- Only the owner gets past row security where there is no policy. -/
theorem passes_iff (huse : MayUse roles migrated r) : (tableEntry t).Passes roles r ↔
    r = .owner ∨ r = .postgres ∨
      r = .runtime ∧ t ≠ .schemaMigrations ∧ t ≠ .inferenceUsageEvents := by
  have hbypass : roles.bypassesRowSecurity r = true → r = .postgres := by
    intro h
    have hr : r = .serviceRole ∨ r = .postgres := by
      cases r <;> simp_all [roles]
    obtain rfl | rfl := hr
    · simp [mayUse_iff] at huse
    · rfl
  have hsecured : ¬ (tableEntry t).rowSecurity = false := by simp [tableEntry]
  have howner : (tableEntry t).owner = .owner := rfl
  rw [TableEntry.Passes, howner, effective_owner_iff]
  by_cases h : t = .schemaMigrations ∨ t = .inferenceUsageEvents
  · have hpolicies : (tableEntry t).policies = [] := by
      obtain rfl | rfl := h <;> rfl
    have hheld : ¬ Held roles r ([] : List (Grantee Role)) := by simp [Held]
    rw [hpolicies]
    tauto
  · rw [not_or] at h
    rw [(entry_default h.1 h.2).2, held_toRoles]
    simp only [List.mem_singleton, exists_eq_left, effective_runtime_iff]
    tauto

theorem mayCommand_iff : MayCommand roles migrated r t command ↔ t ∈ tables ∧
    (r = .owner ∨ r = .postgres ∨
      r = .runtime ∧ t ≠ .schemaMigrations ∧ t ≠ .inferenceUsageEvents) := by
  rw [mayCommand_entry]
  constructor
  · rintro ⟨huse, ht, -, hpasses⟩
    exact ⟨ht, (passes_iff huse).mp hpasses⟩
  · rintro ⟨ht, hr⟩
    have huse : MayUse roles migrated r := by
      rw [mayUse_iff]
      obtain rfl | rfl | ⟨rfl, -⟩ := hr <;> decide
    refine ⟨huse, ht, ?_, (passes_iff huse).mpr hr⟩
    obtain howner | hpostgres | ⟨rfl, hmigrations, husage⟩ := hr
    · exact Or.inl (effective_owner_iff.mpr (Or.inl howner))
    · exact Or.inl (effective_owner_iff.mpr (Or.inr hpostgres))
    · right
      rw [(entry_default hmigrations husage).1]
      rw [grants_command, held_toRoles]
      exact ⟨.runtime, List.mem_singleton_self _, Relation.ReflTransGen.refl⟩

theorem mayExecute_iff : MayExecute roles migrated r f ↔
    ∃ entry ∈ functions, entry.1 = f ∧
      (r = .owner ∨ r = .postgres ∨ MayUse roles migrated r ∧ Held roles r entry.2) := by
  rw [MayExecute, migrated_functions]
  have howner {s : Role} (h : s = .owner ∨ s = .postgres) : MayUse roles migrated s := by
    rw [mayUse_iff]
    obtain rfl | rfl := h <;> decide
  constructor
  · rintro ⟨huse, e, he, rfl, haccess⟩
    obtain ⟨entry, hentry, rfl⟩ := List.mem_map.mp he
    refine ⟨entry, hentry, rfl, ?_⟩
    obtain heffective | hheld := haccess
    · obtain h | h := effective_owner_iff.mp heffective
      · exact Or.inl h
      · exact Or.inr (Or.inl h)
    · exact Or.inr (Or.inr ⟨huse, hheld⟩)
  · rintro ⟨entry, hentry, rfl, haccess⟩
    have hmem := List.mem_map_of_mem (f := fun f : Function × List (Grantee Role) =>
      (⟨f.1, .owner, f.2⟩ : FunctionEntry Role Function)) hentry
    obtain h | h | ⟨huse, hheld⟩ := haccess
    · exact ⟨howner (Or.inl h), _, hmem, rfl, Or.inl (effective_owner_iff.mpr (Or.inl h))⟩
    · exact ⟨howner (Or.inr h), _, hmem, rfl, Or.inl (effective_owner_iff.mpr (Or.inr h))⟩
    · exact ⟨huse, _, hmem, rfl, Or.inr hheld⟩

end Commands

section Writers

variable {later : String → List (Table × Command)} {e : Effects Table Function} {login r : Role}
  {t u : Table}

/-- The tables of the runtime. -/
def Owned (t : Table) : Prop := t ∈ tables ∧ t ≠ .schemaMigrations ∧ t ≠ .inferenceUsageEvents

instance : DecidablePred Owned := fun _ => inferInstanceAs (Decidable (_ ∧ _ ∧ _))

/-- The foreign keys do not reach the records of the migrations and of usage. -/
theorem actions_owned (h : u ∈ (effects later).actions t) : Owned u := by
  have hall : ∀ t ∈ [Table.hosts, .telemetryBatches, .alertRules],
      ∀ u ∈ (effects fun _ => []).actions t, Owned u := by decide
  have ht : t ∈ [Table.hosts, .telemetryBatches, .alertRules] := by
    cases t <;> simp_all [effects]
  exact hall t ht u h

theorem touches_owned {write : Table × Command} (h : (effects later).Touches write t) :
    t = write.1 ∨ Owned t := by
  obtain ⟨u, command⟩ := write
  cases command with
  | select => exact absurd h id
  | insert => exact Or.inl h
  | update => exact Or.inl h
  | delete =>
      obtain heq | ⟨v, -, hlast⟩ := Relation.ReflTransGen.cases_tail h
      · exact Or.inl heq
      · exact Or.inr (actions_owned hlast)

theorem touches_ne_select {write : Table × Command} (h : (effects later).Touches write t) :
    write.2 ≠ .select := by
  obtain ⟨u, command⟩ := write
  rintro rfl
  exact h

theorem touches_eq {write : Table × Command} (h : (effects later).Touches write t)
    (hcommand : write.2 ≠ .delete) : t = write.1 := by
  obtain ⟨u, command⟩ := write
  cases command with
  | select => exact absurd h id
  | delete => exact absurd rfl hcommand
  | _ => exact h

theorem within_effects (later : String → List (Table × Command)) : Within later (effects later) :=
  ⟨fun _ _ h => h, rfl⟩

theorem within_asWritten (later : String → List (Table × Command)) :
    Within later (effectsAsWritten later) where
  writes f write h := by
    rw [effectsAsWritten] at h
    dsimp only at h
    split at h
    · cases h
    · exact h
  actions := rfl

theorem touches_within (he : Within later e) {write : Table × Command} :
    e.Touches write t ↔ (effects later).Touches write t := by
  rw [Effects.Touches, Effects.Touches, he.actions]

/-- The functions of the migrations write what the runtime may write, and the one that others than
the runtime execute deletes nothing and writes the hosts with their credentials. -/
theorem writes_owned (he : Within later e) {entry : Function × List (Grantee Role)}
    (hentry : entry ∈ functions) {write : Table × Command} (hwrite : write ∈ e.writes entry.1) :
    Owned write.1 ∧ (entry.2 = toRoles [.runtime] ∨ entry.1 = .enrollOrRotateAgent ∧
      entry.2 = toRoles [.runtime, .enroller] ∧ write.2 ≠ .delete) := by
  have hall : ∀ entry ∈ functions, ∀ write ∈ (effects fun _ => []).writes entry.1,
      Owned write.1 ∧ (entry.2 = toRoles [.runtime] ∨ entry.1 = .enrollOrRotateAgent ∧
        entry.2 = toRoles [.runtime, .enroller] ∧ write.2 ≠ .delete) := by decide
  have hsame : (effects later).writes entry.1 = (effects fun _ => []).writes entry.1 := by
    have hnot : ∀ entry ∈ functions, ∀ name, entry.1 ≠ .other name := by simp [functions]
    cases hf : entry.1 with
    | other name => exact absurd hf (hnot entry hentry name)
    | _ => rfl
  exact hall entry hentry write (hsame ▸ he.writes entry.1 hwrite)

/-- The enroller's function writes the hosts, their agents and the audit events at most. -/
theorem Enrolled.tables (he : Within later e) (h : Enrolled e t) :
    t ∈ [Table.hosts, .agents, .auditEvents] := by
  obtain ⟨command, -, hwrite⟩ := h
  have hmem := he.writes _ hwrite
  simp only [effects, List.mem_cons, Prod.mk.injEq, List.not_mem_nil, or_false] at hmem
  obtain ⟨rfl, -⟩ | ⟨rfl, -⟩ | ⟨rfl, -⟩ | ⟨rfl, -⟩ | ⟨rfl, -⟩ := hmem <;> decide

theorem mayWrite_iff (he : Within later e) : MayWrite roles migrated e r t ↔
    t ∈ tables ∧ (r = .owner ∨ r = .postgres) ∨ Owned t ∧ r = .runtime ∨
      Enrolled e t ∧ r = .enroller := by
  constructor
  · rintro (⟨u, command, hmay, htouch⟩ | ⟨f, hmay, write, hwrite, htouch⟩)
    · obtain ⟨hu, hr⟩ := mayCommand_iff.mp hmay
      have ht := touches_owned ((touches_within he).mp htouch)
      obtain howner | hpostgres | ⟨hruntime, hne⟩ := hr
      · exact Or.inl ⟨ht.elim (fun h => h ▸ hu) And.left, Or.inl howner⟩
      · exact Or.inl ⟨ht.elim (fun h => h ▸ hu) And.left, Or.inr hpostgres⟩
      · exact Or.inr (Or.inl ⟨ht.elim (fun h => h ▸ ⟨hu, hne⟩) id, hruntime⟩)
    · obtain ⟨entry, hentry, rfl, hr⟩ := mayExecute_iff.mp hmay
      obtain ⟨howned, hshape⟩ := writes_owned he hentry hwrite
      have htouch := (touches_within he).mp htouch
      have ht : Owned t := (touches_owned htouch).elim (fun h => h ▸ howned) id
      obtain howner | hpostgres | ⟨-, hheld⟩ := hr
      · exact Or.inl ⟨ht.1, Or.inl howner⟩
      · exact Or.inl ⟨ht.1, Or.inr hpostgres⟩
      · obtain hruntime | ⟨hf, hboth, hcommand⟩ := hshape
        · rw [hruntime, held_toRoles] at hheld
          simp only [List.mem_singleton, exists_eq_left, effective_runtime_iff] at hheld
          exact Or.inr (Or.inl ⟨ht, hheld⟩)
        · rw [hboth, held_toRoles] at hheld
          simp only [List.mem_cons, List.not_mem_nil, or_false, exists_eq_or_imp, exists_eq_left,
            effective_runtime_iff, effective_enroller_iff] at hheld
          obtain hruntime | henroller := hheld
          · exact Or.inr (Or.inl ⟨ht, hruntime⟩)
          · obtain rfl := touches_eq htouch hcommand
            rw [hf] at hwrite
            exact Or.inr (Or.inr ⟨⟨write.2, touches_ne_select htouch, hwrite⟩, henroller⟩)
  · have hcommand (ht : t ∈ tables) (hr : r = .owner ∨ r = .postgres ∨
        r = .runtime ∧ t ≠ .schemaMigrations ∧ t ≠ .inferenceUsageEvents) :
        MayWrite roles migrated e r t :=
      Or.inl ⟨t, .insert, mayCommand_iff.mpr ⟨ht, hr⟩, rfl⟩
    rintro (⟨ht, howner | hpostgres⟩ | ⟨ht, hruntime⟩ | ⟨⟨command, hselect, hwrite⟩, rfl⟩)
    · exact hcommand ht (Or.inl howner)
    · exact hcommand ht (Or.inr (Or.inl hpostgres))
    · exact hcommand ht.1 (Or.inr (Or.inr ⟨hruntime, ht.2⟩))
    · have hmay : MayExecute roles migrated .enroller .enrollOrRotateAgent := by
        refine mayExecute_iff.mpr ⟨(.enrollOrRotateAgent, toRoles [.runtime, .enroller]),
          by decide, rfl, Or.inr (Or.inr ⟨mayUse_iff.mpr (by decide), ?_⟩)⟩
        exact held_toRoles.mpr ⟨.enroller, by decide, Relation.ReflTransGen.refl⟩
      refine Or.inr ⟨.enrollOrRotateAgent, hmay, (t, command), hwrite, ?_⟩
      cases command with
      | select => exact absurd rfl hselect
      | delete => exact Relation.ReflTransGen.refl
      | _ => rfl

theorem mem_writers {login : Role} : login ∈ writers t ↔
    t ∈ tables ∧ login ∈ owners ∨ Owned t ∧ (login = .runtime ∨ login = .runtimeLogin) ∨
      t ∈ [Table.hosts, .agents, .auditEvents] ∧ login = .enroller := by
  cases t <;> simp [writers, owners, Owned, tables, foundationTables, or_assoc]

/-- In the runs of any number of sessions a table can change exactly if one of them has logged in as
one of the table's writers, and as the enroller only if its function writes the table: nobody but the
owner changes the history of the migrations, and nobody but the owner can record usage. -/
theorem tables_change_iff {D : Type} [Nontrivial D] {later : String → List (Table × Command)}
    {e : Effects Table Function} (he : Within later e) (logins : Nat → Role) (data : Table → D)
    (t : Table) :
    (∃ s, Run roles migrated e logins ⟨logins, data⟩ s ∧ s.data t ≠ data t) ↔
      ∃ i, logins i ∈ writers t ∧ (logins i = .enroller → Enrolled e t) := by
  have henroller := fun h => Enrolled.tables (t := t) he h
  rw [changes_iff]
  refine exists_congr fun i => ?_
  simp only [mayBecome_iff, mayWrite_iff he, mem_writers]
  cases logins i with
  | enroller =>
      simp only [List.mem_cons, List.not_mem_nil, or_false] at henroller
      simpa [roles, owners] using henroller
  | _ => simp [roles, owners]

/-- Servers that log in as the runtime record no usage. The enroller enrolls a host if its function
can be called, and as the function stands it changes nothing. -/
theorem usage_unrecorded :
    (¬ ∃ s, Run roles migrated (effects fun _ => []) (fun _ => .runtimeLogin)
      ⟨fun _ => .runtimeLogin, fun _ => false⟩ s ∧ s.data .inferenceUsageEvents ≠ false) ∧
    (∃ s, Run roles migrated (effects fun _ => []) (fun _ => .enroller)
      ⟨fun _ => .enroller, fun _ => false⟩ s ∧ s.data .hosts ≠ false) ∧
    ¬ ∃ s, Run roles migrated (effectsAsWritten fun _ => []) (fun _ => .enroller)
      ⟨fun _ => .enroller, fun _ => false⟩ s ∧ s.data .hosts ≠ false := by
  refine ⟨fun h => ?_, ?_, fun h => ?_⟩
  · have hwriter := (tables_change_iff (within_effects _) (fun _ => .runtimeLogin) (fun _ => false)
      .inferenceUsageEvents).mp h
    simp [writers, owners] at hwriter
  · refine (tables_change_iff (within_effects _) (fun _ => .enroller) (fun _ => false) .hosts).mpr
      ⟨0, by decide, fun _ => ⟨.insert, by decide, by simp [effects]⟩⟩
  · obtain ⟨-, -, henrolled⟩ := (tables_change_iff (within_asWritten _) (fun _ => .enroller)
      (fun _ => false) .hosts).mp h
    obtain ⟨command, -, hwrite⟩ := henrolled rfl
    simp [effectsAsWritten, raising] at hwrite

end Writers

section Later

/-- The functions that the verifier and the storage auditor can execute after the migrations. -/
def permitted : Role → List Function
  | .verifierLogin => [.touchUpdatedAt, .hostIngestionStatus, .fleetIngestionStatus]
  | .storageAuditorLogin => [.touchUpdatedAt, .storageProbeEvidence]
  | _ => []

variable {later : List Statement} {login r : Role}

theorem function_names : migrated.functions.map FunctionEntry.name = functions.map Prod.fst := by
  rw [migrated_functions, List.map_map]
  rfl

/-- Only the runtime has privileges on the tables of later migrations. -/
theorem newTable_grants {t : Table} {command : Command}
    (h : (migrated.newTable t).Grants roles r command) :
    r = .owner ∨ r = .postgres ∨ r = .runtime := by
  rw [TableEntry.Grants, Catalog.newTable_owner, Catalog.newTable_grants, owner_eq,
    migrated_defaults.1, grants_command, held_toRoles, effective_owner_iff] at h
  simp only [List.mem_singleton, exists_eq_left, effective_runtime_iff] at h
  exact or_assoc.mp h

/-- The roles of a session of one of the two logins: the login and its group. -/
theorem auditor_cases (hlogin : login = .verifierLogin ∨ login = .storageAuditorLogin)
    (hr : MayBecome roles login r) :
    (login = .verifierLogin ∧ (r = .verifierLogin ∨ r = .verifier)) ∨
      (login = .storageAuditorLogin ∧ (r = .storageAuditorLogin ∨ r = .storageAuditor)) := by
  rw [mayBecome_iff] at hr
  obtain rfl | rfl := hlogin <;> simpa [roles] using hr

theorem mayUse_auditor (hlogin : login = .verifierLogin ∨ login = .storageAuditorLogin)
    (hr : MayBecome roles login r) : MayUse roles migrated r := by
  rw [mayUse_iff]
  obtain ⟨-, rfl | rfl⟩ | ⟨-, rfl | rfl⟩ := auditor_cases hlogin hr <;> decide

/-- A role has what everyone has, what it is granted and what its groups are granted. -/
theorem held_iff {l : List (Grantee Role)} : Held roles r l ↔
    .everyone ∈ l ∨ .role r ∈ l ∨ ∃ g, (r, g) ∈ inherited ∧ .role g ∈ l := by
  simp only [Held, effective_iff, or_and_right, exists_or, exists_eq_left]

theorem mayExecute_auditor (hlogin : login = .verifierLogin ∨ login = .storageAuditorLogin)
    (hr : MayBecome roles login r) (f : Function) :
    MayExecute roles migrated r f ↔ f ∈ permitted login := by
  have huse := mayUse_auditor hlogin hr
  rw [mayExecute_iff]
  simp only [huse, true_and, held_iff]
  obtain ⟨rfl, rfl | rfl⟩ | ⟨rfl, rfl | rfl⟩ := auditor_cases hlogin hr <;>
    simp [functions, inherited, permitted, eq_comm]

/-- Whatever roles they take, the verifier and the storage auditor reach no table, now or after
later migrations that create objects, and besides their functions they can execute every function
that such a migration creates: taking away default privileges does not take away what everyone
has. -/
theorem auditors_access (hlater : ∀ s ∈ later, s.Creates)
    (hlogin : login = .verifierLogin ∨ login = .storageAuditorLogin)
    (hr : MayBecome roles login r) :
    (∀ t command, ¬ MayCommand roles (migrated.execAll later) r t command) ∧
      ∀ f, MayExecute roles (migrated.execAll later) r f ↔ f ∈ permitted login ∨
        .createFunction f ∈ later ∧ f ∉ functions.map Prod.fst := by
  have huse := mayUse_auditor hlogin hr
  have hnot : ¬ (r = .owner ∨ r = .postgres ∨ r = .runtime) := by
    obtain ⟨-, rfl | rfl⟩ | ⟨-, rfl | rfl⟩ := auditor_cases hlogin hr <;> decide
  constructor
  · intro t command h
    obtain hold | ⟨-, -, -, hgrants⟩ := (mayCommand_execAll hlater).mp h
    · obtain ⟨-, howner | hpostgres | ⟨hruntime, -⟩⟩ := mayCommand_iff.mp hold
      · exact hnot (Or.inl howner)
      · exact hnot (Or.inr (Or.inl hpostgres))
      · exact hnot (Or.inr (Or.inr hruntime))
    · exact hnot (newTable_grants hgrants)
  · intro f
    rw [mayExecute_execAll hlater, function_names, mayExecute_auditor hlogin hr]
    refine or_congr_right (and_congr_right fun _ => ?_)
    exact ⟨And.left, fun h => ⟨h, huse⟩⟩

/-- A report that a later migration adds is the verifier's, whoever it was written for. -/
theorem added_report_executed :
    MayExecute roles (migrated.execAll [.createFunction (.other "cost_report")]) .verifier
      (.other "cost_report") := by
  have hlater : ∀ s ∈ [(.createFunction (.other "cost_report") : Statement)], s.Creates := by
    simp [Ddl.Creates]
  have hbecome : MayBecome roles .verifierLogin .verifier :=
    mayBecome_iff.mpr (Or.inr (by decide))
  refine ((auditors_access hlater (Or.inl rfl) hbecome).2 _).mpr (Or.inr ⟨?_, ?_⟩)
  · exact List.mem_singleton_self _
  · decide

end Later

end NodeScope.Access
