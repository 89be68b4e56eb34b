import NodeScope.Credentials.Enrollment

/-!
# Rotation of credentials over whole runs

The history of a run lists what was issued and what was revoked. `live` reads from
it alone which credential of a host is good, and `Tracks` says that the tables agree
with the history. Every step keeps `Tracks`, so that after any run the lookup of
`authenticateAgent` accepts exactly the tokens of the live credentials.
-/

namespace NodeScope.Credentials

open Storage Lib Lib.Check Telemetry

/-- A credential handed out by a call that succeeded. -/
structure Issue where
  slug : String
  digest : List UInt8
  expiresAt : Option Int
  hostId : Uuid
  agentId : Uuid
deriving DecidableEq

inductive Event where
  | issued (issue : Issue)
  | revoked (agentId : Uuid)
deriving DecidableEq

def Step.event (db : Db) : Step → Option Event
  | .enroll r =>
      match enrollOrRotateAgent db r with
      | .ok (result, _) =>
          some (.issued ⟨r.slug, r.credentialDigest, r.credentialExpiresAt, result.hostId,
            result.agentId⟩)
      | .error _ => none
  | .revoke agentId _ => some (.revoked agentId)

/-- The events of a run, the latest first. -/
def history (db : Db) : List Step → List Event
  | [] => []
  | s :: rest => history (s.apply db) rest ++ (s.event db).toList

def Event.issue : Event → Option Issue
  | .issued i => some i
  | .revoked _ => none

/-- What was issued for a slug, the latest first. -/
def issues (slug : String) (events : List Event) : List Issue :=
  (events.filterMap Event.issue).filter fun i => i.slug = slug

/-- The last credential of a slug, unless its agent was revoked since. -/
def live (slug : String) : List Event → Option Issue
  | [] => none
  | .issued i :: older => if i.slug = slug then some i else live slug older
  | .revoked agentId :: older => (live slug older).filter fun i => i.agentId ≠ agentId

theorem history_append (db : Db) (steps later : List Step) :
    history db (steps ++ later) = history (runSteps db steps) later ++ history db steps := by
  induction steps generalizing db with
  | nil => simp [history, runSteps]
  | cons s rest ih =>
      simp only [List.cons_append, history, ih, List.append_assoc]
      rfl

theorem issues_issued (slug : String) (i : Issue) (older : List Event) :
    issues slug (.issued i :: older) =
      if i.slug = slug then i :: issues slug older else issues slug older := by
  by_cases h : i.slug = slug <;> simp [issues, Event.issue, h]

theorem issues_revoked (slug : String) (agentId : Uuid) (older : List Event) :
    issues slug (.revoked agentId :: older) = issues slug older :=
  rfl

/-- The agent row of a host holds its last credential, counts all of them, and is
revoked when the history says so. -/
structure AgreesWith (events : List Event) (h : HostRow) (a : AgentRow) : Prop where
  hostId : a.hostId = h.id
  version : a.rotationVersion = (issues h.slug events).length
  last : (issues h.slug events).head? =
    some ⟨h.slug, a.credentialDigest, a.credentialExpiresAt, h.id, a.id⟩
  live : live h.slug events =
    if a.revokedAt.isNone then (issues h.slug events).head? else none
  identity : ∀ i ∈ issues h.slug events, i.hostId = h.id ∧ i.agentId = a.id

/-- The tables agree with the history: rows are told apart by every unique column,
every agent has a host, every host has the agent of its last credential, and every
slug of the history has its host. -/
structure Tracks (db : Db) (events : List Event) : Prop where
  slugs : (db.hosts.map HostRow.slug).Nodup
  hostIds : Set.InjOn HostRow.id {h | h ∈ db.hosts}
  agentHosts : (db.agents.map AgentRow.hostId).Nodup
  agentIds : Set.InjOn AgentRow.id {a | a ∈ db.agents}
  digests : Set.InjOn AgentRow.credentialDigest {a | a ∈ db.agents}
  owner : ∀ a ∈ db.agents, ∃ h ∈ db.hosts, h.id = a.hostId
  agent : ∀ h ∈ db.hosts, ∃ a ∈ db.agents, AgreesWith events h a
  host : ∀ slug, issues slug events ≠ [] → ∃ h ∈ db.hosts, h.slug = slug

theorem tracks_empty : Tracks Db.empty [] where
  slugs := List.nodup_nil
  hostIds := by simp [Db.empty]
  agentHosts := List.nodup_nil
  agentIds := by simp [Db.empty]
  digests := by simp [Db.empty]
  owner := by simp [Db.empty]
  agent := by simp [Db.empty]
  host := by simp [issues]

/-- Every agent row agrees with the history about its host. -/
theorem Tracks.agreesWith {db : Db} {events : List Event} (ht : Tracks db events) {a : AgentRow}
    (ha : a ∈ db.agents) : ∃ h ∈ db.hosts, AgreesWith events h a := by
  obtain ⟨h, hh, hid⟩ := ht.owner a ha
  obtain ⟨b, hb, hagrees⟩ := ht.agent h hh
  have hba : b = a := by
    apply List.inj_on_of_nodup_map ht.agentHosts hb ha
    rw [hagrees.hostId, hid]
  rw [hba] at hagrees
  exact ⟨h, hh, hagrees⟩

/-- The host an agent row refers to is the one it agrees about. -/
theorem Tracks.agreesWith_host {db : Db} {events : List Event} (ht : Tracks db events)
    {h : HostRow} {a : AgentRow} (hh : h ∈ db.hosts) (ha : a ∈ db.agents) (hhost : a.hostId = h.id) :
    AgreesWith events h a := by
  obtain ⟨h', hh', hagrees⟩ := ht.agreesWith ha
  rw [ht.hostIds hh hh' (hhost.symm.trans hagrees.hostId)]
  exact hagrees

/-- The rows a successful call writes: the host of the slug and the agent of that
host, with a version above the one it had and with identifiers no other row has. -/
structure Writes (db : Db) (r : EnrollCall) (result : EnrollResult) (host : HostRow)
    (agent : AgentRow) : Prop where
  hostId : host.id = result.hostId
  slug : host.slug = r.slug
  agentHost : agent.hostId = result.hostId
  agentId : agent.id = result.agentId
  digest : agent.credentialDigest = r.credentialDigest
  expiresAt : agent.credentialExpiresAt = r.credentialExpiresAt
  notRevoked : agent.revokedAt = none
  otherHosts : ∀ x ∈ db.hosts, x.slug ≠ r.slug → x.id ≠ result.hostId
  otherDigests : ∀ x ∈ db.agents, x.hostId ≠ result.hostId →
    x.credentialDigest ≠ agent.credentialDigest
  otherAgents : ∀ x ∈ db.agents, x.hostId ≠ result.hostId → x.id ≠ agent.id
  kept : (∃ h ∈ db.hosts, h.slug = r.slug ∧ h.id = result.hostId ∧
      ∃ a ∈ db.agents, a.hostId = result.hostId ∧ a.id = agent.id ∧
        agent.rotationVersion = a.rotationVersion + 1) ∨
    ((∀ x ∈ db.hosts, x.slug ≠ r.slug) ∧ agent.rotationVersion = 1)

theorem enrollOrRotateAgent_writes {db db' : Db} {events : List Event} {r : EnrollCall}
    {result : EnrollResult} (ht : Tracks db events)
    (h : enrollOrRotateAgent db r = .ok (result, db')) :
    ∃ host agent, Writes db r result host agent ∧
      db'.hosts = Table.put HostRow.slug host db.hosts ∧
      db'.agents = Table.put AgentRow.hostId agent db.agents := by
  obtain ⟨hosts, agent, agents, hhost, hagent, hid, -, hhosts, hagents⟩ :=
    enrollOrRotateAgent_ok h
  obtain ⟨host, hhostId, hslug, rfl, hcases⟩ := upsertHost_ok hhost
  obtain ⟨hah, hdigest, hexpires, hrevoked, rfl, hothers, hversion⟩ := upsertAgent_ok hagent
  refine ⟨host, agent, ?_, hhosts, hagents⟩
  have hotherHosts : ∀ x ∈ db.hosts, x.slug ≠ r.slug → x.id ≠ result.hostId := by
    intro x hx hne
    rcases hcases with ⟨old, hfind, hold⟩ | ⟨-, -, hfresh⟩
    · obtain ⟨hmem, hkey⟩ := Table.mem_of_find hfind
      intro hxid
      rw [ht.hostIds hx hmem (hxid.trans hold.symm)] at hne
      exact hne hkey
    · exact hfresh x hx
  have hotherAgents : ∀ x ∈ db.agents, x.hostId ≠ result.hostId → x.id ≠ agent.id := by
    intro x hx hne
    rcases hversion with ⟨old, hfind, hold, -⟩ | ⟨-, -, hfresh⟩
    · obtain ⟨hmem, hkey⟩ := Table.mem_of_find hfind
      intro hxid
      rw [ht.agentIds hx hmem (hxid.trans hold)] at hne
      exact hne hkey
    · exact hfresh x hx
  refine ⟨hhostId, hslug, hah, hid.symm, hdigest, hexpires, hrevoked, hotherHosts, ?_,
    hotherAgents, ?_⟩
  · intro x hx hne
    rw [hdigest]
    exact hothers x hx hne
  · rcases hcases with ⟨old, hfind, hold⟩ | ⟨hfind, -, hfresh⟩
    · obtain ⟨hmem, hkey⟩ := Table.mem_of_find hfind
      obtain ⟨a, ha, hagrees⟩ := ht.agent old hmem
      rcases hversion with ⟨olda, hfinda, holda, hnext⟩ | ⟨hnone, -, -⟩
      · obtain ⟨hmema, hkeya⟩ := Table.mem_of_find hfinda
        exact Or.inl ⟨old, hmem, hkey, hold, olda, hmema, hkeya, holda.symm, hnext⟩
      · exact absurd (hagrees.hostId.trans hold) (Table.find_eq_none.mp hnone a ha)
    · rcases hversion with ⟨olda, hfinda, -, -⟩ | ⟨-, hone, -⟩
      · obtain ⟨hmema, hkeya⟩ := Table.mem_of_find hfinda
        obtain ⟨x, hx, hxid⟩ := ht.owner olda hmema
        exact absurd (hxid.trans hkeya) (hfresh x hx)
      · exact Or.inr ⟨Table.find_eq_none.mp hfind, hone⟩

/-- An event of another slug leaves the agreement of a host as it is. -/
theorem AgreesWith.issued_other {events : List Event} {h : HostRow} {a : AgentRow} {i : Issue}
    (hagrees : AgreesWith events h a) (hne : i.slug ≠ h.slug) :
    AgreesWith (.issued i :: events) h a where
  hostId := hagrees.hostId
  version := by rw [issues_issued, if_neg hne, hagrees.version]
  last := by rw [issues_issued, if_neg hne, hagrees.last]
  live := by
    rw [issues_issued, if_neg hne, ← hagrees.live]
    simp only [Credentials.live, hne, if_false]
  identity := by
    rw [issues_issued, if_neg hne]
    exact hagrees.identity

theorem Writes.agreesWith {db : Db} {events : List Event} {r : EnrollCall}
    {result : EnrollResult} {host : HostRow} {agent : AgentRow} (ht : Tracks db events)
    (hw : Writes db r result host agent) :
    AgreesWith (.issued ⟨r.slug, r.credentialDigest, r.credentialExpiresAt, result.hostId,
      result.agentId⟩ :: events) host agent := by
  have hpast : agent.rotationVersion = (issues r.slug events).length + 1 ∧
      ∀ i ∈ issues r.slug events, i.hostId = host.id ∧ i.agentId = agent.id := by
    rcases hw.kept with ⟨h, hh, hslug, hid, a, ha, hahost, haid, hnext⟩ | ⟨hnone, hone⟩
    · have hagrees := ht.agreesWith_host hh ha (hahost.trans hid.symm)
      rw [← hslug, hnext, hagrees.version, hw.hostId, ← hid, ← haid]
      exact ⟨rfl, hagrees.identity⟩
    · have hnil : issues r.slug events = [] := by
        by_contra hne
        obtain ⟨h, hh, hslug⟩ := ht.host r.slug hne
        exact hnone h hh hslug
      rw [hnil, hone]
      simp
  have hissues : issues host.slug (.issued ⟨r.slug, r.credentialDigest, r.credentialExpiresAt,
      result.hostId, result.agentId⟩ :: events) = ⟨r.slug, r.credentialDigest,
      r.credentialExpiresAt, result.hostId, result.agentId⟩ :: issues r.slug events := by
    rw [issues_issued, if_pos hw.slug.symm, hw.slug]
  refine ⟨?_, ?_, ?_, ?_, ?_⟩
  · rw [hw.agentHost, hw.hostId]
  · rw [hissues, hpast.1, List.length_cons]
    rfl
  · rw [hissues, List.head?_cons, hw.slug, hw.digest, hw.expiresAt, hw.hostId, hw.agentId]
  · rw [hissues, hw.notRevoked]
    simp only [Credentials.live, hw.slug, if_true, Option.isNone_none, List.head?_cons]
  · rw [hissues]
    exact List.forall_mem_cons.mpr ⟨⟨hw.hostId.symm, hw.agentId.symm⟩, hpast.2⟩

/-- A call that succeeds keeps the tables in step with the history. -/
theorem tracks_enroll {db db' : Db} {events : List Event} {r : EnrollCall}
    {result : EnrollResult} (ht : Tracks db events)
    (h : enrollOrRotateAgent db r = .ok (result, db')) :
    Tracks db' (.issued ⟨r.slug, r.credentialDigest, r.credentialExpiresAt, result.hostId,
      result.agentId⟩ :: events) := by
  obtain ⟨host, agent, hw, hhosts, hagents⟩ := enrollOrRotateAgent_writes ht h
  have hmemHost : ∀ x, x ∈ db'.hosts ↔ x = host ∨ (x ∈ db.hosts ∧ x.slug ≠ host.slug) := by
    intro x
    rw [hhosts]
    exact Table.mem_put_iff host x ht.slugs
  have hmemAgent : ∀ x, x ∈ db'.agents ↔ x = agent ∨ (x ∈ db.agents ∧ x.hostId ≠ agent.hostId) := by
    intro x
    rw [hagents]
    exact Table.mem_put_iff agent x ht.agentHosts
  refine ⟨?_, ?_, ?_, ?_, ?_, ?_, ?_, ?_⟩
  · rw [hhosts]
    exact Table.nodup_put host ht.slugs
  · rw [hhosts]
    apply Table.injOn_put ht.slugs ht.hostIds
    intro x hx hne
    rw [hw.hostId]
    rw [hw.slug] at hne
    exact hw.otherHosts x hx hne
  · rw [hagents]
    exact Table.nodup_put agent ht.agentHosts
  · rw [hagents]
    apply Table.injOn_put ht.agentHosts ht.agentIds
    intro x hx hne
    rw [hw.agentHost] at hne
    exact hw.otherAgents x hx hne
  · rw [hagents]
    apply Table.injOn_put ht.agentHosts ht.digests
    intro x hx hne
    rw [hw.agentHost] at hne
    exact hw.otherDigests x hx hne
  · intro a ha
    rcases (hmemAgent a).mp ha with rfl | ⟨ha, hne⟩
    · exact ⟨host, (hmemHost host).mpr (Or.inl rfl), by rw [hw.hostId, hw.agentHost]⟩
    · obtain ⟨x, hx, hxid⟩ := ht.owner a ha
      by_cases hslug : x.slug = host.slug
      · refine ⟨host, (hmemHost host).mpr (Or.inl rfl), ?_⟩
        rcases hw.kept with ⟨old, hold, holdslug, holdid, -⟩ | ⟨hnone, -⟩
        · have hxold : x = old := by
            apply List.inj_on_of_nodup_map ht.slugs hx hold
            rw [hslug, hw.slug, holdslug]
          rw [hw.hostId, ← holdid, ← hxold, hxid]
        · exact absurd (hslug.trans hw.slug) (hnone x hx)
      · exact ⟨x, (hmemHost x).mpr (Or.inr ⟨hx, hslug⟩), hxid⟩
  · intro x hx
    rcases (hmemHost x).mp hx with rfl | ⟨hx, hne⟩
    · exact ⟨agent, (hmemAgent agent).mpr (Or.inl rfl), hw.agreesWith ht⟩
    · obtain ⟨a, ha, hagrees⟩ := ht.agent x hx
      rw [hw.slug] at hne
      have hother : a.hostId ≠ agent.hostId := by
        rw [hagrees.hostId, hw.agentHost]
        exact hw.otherHosts x hx hne
      exact ⟨a, (hmemAgent a).mpr (Or.inr ⟨ha, hother⟩), hagrees.issued_other (Ne.symm hne)⟩
  · intro slug hne
    by_cases hslug : host.slug = slug
    · exact ⟨host, (hmemHost host).mpr (Or.inl rfl), hslug⟩
    · rw [issues_issued, if_neg (by rwa [← hw.slug])] at hne
      obtain ⟨x, hx, hxslug⟩ := ht.host slug hne
      refine ⟨x, (hmemHost x).mpr (Or.inr ⟨hx, ?_⟩), hxslug⟩
      rw [hxslug]
      exact Ne.symm hslug

/-- The row of an agent after a revocation. -/
def revokeRow (agentId : Uuid) (now : Int) (a : AgentRow) : AgentRow :=
  if a.id = agentId then { a with revokedAt := some now } else a

theorem revokeRow_columns (agentId : Uuid) (now : Int) (a : AgentRow) :
    (revokeRow agentId now a).id = a.id ∧ (revokeRow agentId now a).hostId = a.hostId ∧
      (revokeRow agentId now a).credentialDigest = a.credentialDigest ∧
      (revokeRow agentId now a).credentialExpiresAt = a.credentialExpiresAt ∧
      (revokeRow agentId now a).rotationVersion = a.rotationVersion := by
  by_cases h : a.id = agentId <;> simp [revokeRow, h]

theorem AgreesWith.revoked {events : List Event} {h : HostRow} {a : AgentRow}
    (hagrees : AgreesWith events h a) (agentId : Uuid) (now : Int) :
    AgreesWith (.revoked agentId :: events) h (revokeRow agentId now a) := by
  obtain ⟨hid, hhost, hdigest, hexpires, hversion⟩ := revokeRow_columns agentId now a
  refine ⟨?_, ?_, ?_, ?_, ?_⟩
  · rw [hhost, hagrees.hostId]
  · rw [issues_revoked, hversion, hagrees.version]
  · rw [issues_revoked, hid, hdigest, hexpires, hagrees.last]
  · rw [issues_revoked, Credentials.live, hagrees.live, hagrees.last]
    by_cases hrow : a.id = agentId
    · by_cases hnone : a.revokedAt.isNone = true <;> simp [revokeRow, hrow, hnone]
    · by_cases hnone : a.revokedAt.isNone = true <;> simp [revokeRow, hrow, hnone]
  · rw [issues_revoked, hid]
    exact hagrees.identity

theorem tracks_revoke {db : Db} {events : List Event} (ht : Tracks db events) (agentId : Uuid)
    (now : Int) : Tracks (revokeAgent db agentId now) (.revoked agentId :: events) := by
  have hagents : (revokeAgent db agentId now).agents = db.agents.map (revokeRow agentId now) := rfl
  have hcolumn : ∀ {C : Type} {column : AgentRow → C},
      (∀ a, column (revokeRow agentId now a) = column a) →
      Set.InjOn column {a | a ∈ db.agents} →
      Set.InjOn column {a | a ∈ (revokeAgent db agentId now).agents} := by
    intro C column hkeep hinj x hx y hy hxy
    rw [hagents] at hx hy
    obtain ⟨a, ha, rfl⟩ := List.mem_map.mp hx
    obtain ⟨b, hb, rfl⟩ := List.mem_map.mp hy
    rw [hkeep, hkeep] at hxy
    rw [hinj ha hb hxy]
  refine ⟨ht.slugs, ht.hostIds, ?_, ?_, ?_, ?_, ?_, ?_⟩
  · have hsame : (AgentRow.hostId ∘ revokeRow agentId now) = AgentRow.hostId := by
      funext a
      exact (revokeRow_columns agentId now a).2.1
    rw [hagents, List.map_map, hsame]
    exact ht.agentHosts
  · exact hcolumn (fun a => (revokeRow_columns agentId now a).1) ht.agentIds
  · exact hcolumn (fun a => (revokeRow_columns agentId now a).2.2.1) ht.digests
  · intro x hx
    rw [hagents] at hx
    obtain ⟨a, ha, rfl⟩ := List.mem_map.mp hx
    rw [(revokeRow_columns agentId now a).2.1]
    exact ht.owner a ha
  · intro h hh
    obtain ⟨a, ha, hagrees⟩ := ht.agent h hh
    rw [hagents]
    exact ⟨_, List.mem_map_of_mem ha, hagrees.revoked agentId now⟩
  · intro slug hne
    rw [issues_revoked] at hne
    exact ht.host slug hne

theorem tracks_step {db : Db} {events : List Event} (ht : Tracks db events) (s : Step) :
    Tracks (s.apply db) ((s.event db).toList ++ events) := by
  cases s with
  | enroll r =>
      cases h : enrollOrRotateAgent db r with
      | error e =>
          simp only [Step.apply, Step.event, h]
          exact ht
      | ok result =>
          simp only [Step.apply, Step.event, h]
          exact tracks_enroll ht h
  | revoke agentId now => exact tracks_revoke ht agentId now

/-- After any run the tables agree with its history. -/
theorem tracks_run {db : Db} {events : List Event} (ht : Tracks db events) (steps : List Step) :
    Tracks (runSteps db steps) (history db steps ++ events) := by
  induction steps generalizing db events with
  | nil => exact ht
  | cons s rest ih =>
      have hrest := ih (tracks_step ht s)
      rw [history, List.append_assoc]
      exact hrest

theorem issues_append (slug : String) (newer older : List Event) :
    issues slug (newer ++ older) = issues slug newer ++ issues slug older := by
  simp [issues]

/-- Whatever was issued names the host and the agent that are in the tables. -/
theorem kept_identity {db : Db} {events : List Event} (ht : Tracks db events) {slug : String}
    {i : Issue} (hi : i ∈ issues slug events) :
    ∃ h ∈ db.hosts, h.slug = slug ∧ ∃ a ∈ db.agents, a.hostId = h.id ∧ h.id = i.hostId ∧
      a.id = i.agentId := by
  obtain ⟨h, hh, rfl⟩ := ht.host slug (List.ne_nil_of_mem hi)
  obtain ⟨a, ha, hagrees⟩ := ht.agent h hh
  obtain ⟨hhost, hagent⟩ := hagrees.identity i hi
  exact ⟨h, hh, rfl, a, ha, hagrees.hostId, hhost.symm, hagent.symm⟩

theorem credentialRow_eq_some {db : Db} {events : List Event} (ht : Tracks db events)
    {token : List UInt8} {a : AgentRow} :
    credentialRow db token = some a ↔
      a ∈ db.agents ∧ a.credentialDigest = (Sha256.sha256 token).toList ∧ a.revokedAt = none := by
  constructor
  · intro h
    have hcond := List.find?_some h
    simp only [Bool.and_eq_true, beq_iff_eq, Option.isNone_iff_eq_none] at hcond
    exact ⟨List.mem_of_find?_eq_some h, hcond⟩
  · rintro ⟨ha, hdigest, hrevoked⟩
    cases h : credentialRow db token with
    | none =>
        have hnone := List.find?_eq_none.mp h a ha
        simp [hdigest, hrevoked] at hnone
    | some b =>
        have hb := List.find?_some h
        simp only [Bool.and_eq_true, beq_iff_eq] at hb
        rw [ht.digests ha (List.mem_of_find?_eq_some h) (hdigest.trans hb.1.symm)]

theorem authenticateAgent_eq_ok {db : Db} {token : List UInt8} {identity : AgentIdentity} :
    authenticateAgent healthy db token = .ok identity ↔
      token ≠ [] ∧ ∃ a, credentialRow db token = some a ∧
        identity = ⟨a.id.toText, a.hostId.toText⟩ := by
  simp only [authenticateAgent, unit_bind_eq_ok, failIf_eq_ok, beq_eq_false_iff_ne, healthy,
    true_and]
  cases credentialRow db token with
  | none => simp
  | some a => simp [eq_comm]

/-- The lookup accepts a token exactly when its digest is the one of a live credential,
and answers with the identifiers of the host that has it. -/
theorem authenticateAgent_iff_live {db : Db} {events : List Event} (ht : Tracks db events)
    {token : List UInt8} {identity : AgentIdentity} :
    authenticateAgent healthy db token = .ok identity ↔
      token ≠ [] ∧ ∃ h ∈ db.hosts, ∃ a ∈ db.agents, a.hostId = h.id ∧
        (∃ i, live h.slug events = some i ∧ i.digest = (Sha256.sha256 token).toList) ∧
        identity = ⟨a.id.toText, h.id.toText⟩ := by
  rw [authenticateAgent_eq_ok]
  refine and_congr_right fun _ => ?_
  constructor
  · rintro ⟨a, hrow, rfl⟩
    obtain ⟨ha, hdigest, hrevoked⟩ := (credentialRow_eq_some ht).mp hrow
    obtain ⟨h, hh, hagrees⟩ := ht.agreesWith ha
    refine ⟨h, hh, a, ha, hagrees.hostId,
      ⟨⟨h.slug, a.credentialDigest, a.credentialExpiresAt, h.id, a.id⟩, ?_, hdigest⟩,
      by rw [hagrees.hostId]⟩
    rw [hagrees.live, hrevoked, Option.isNone_none, if_pos rfl, hagrees.last]
  · rintro ⟨h, hh, a, ha, hhost, ⟨i, hlive, hdigest⟩, rfl⟩
    have hagrees := ht.agreesWith_host hh ha hhost
    rw [hagrees.live, hagrees.last] at hlive
    obtain ⟨hrevoked, hi⟩ := (Option.ite_none_right_eq_some).mp hlive
    refine ⟨a, (credentialRow_eq_some ht).mpr ⟨ha, ?_, Option.isNone_iff_eq_none.mp hrevoked⟩,
      by rw [hhost]⟩
    rw [← hdigest, ← Option.some.inj hi]

theorem live_eq_some {slug : String} {events : List Event} {i : Issue}
    (h : live slug events = some i) : (issues slug events).head? = some i := by
  induction events with
  | nil => simp [live] at h
  | cons e older ih =>
      cases e with
      | issued j =>
          by_cases hj : j.slug = slug
          · rw [issues_issued, if_pos hj]
            simpa [live, hj] using h
          · rw [issues_issued, if_neg hj]
            exact ih (by simpa [live, hj] using h)
      | revoked agentId =>
          rw [issues_revoked]
          exact ih (Option.eq_some_of_filter_eq_some h)

def Step.digest : Step → Option (List UInt8)
  | .enroll r => some r.credentialDigest
  | .revoke _ _ => none

/-- The digests the calls of a run supply, whether they succeed or not. -/
def digests (steps : List Step) : List (List UInt8) := steps.filterMap Step.digest

/-- A credential with the digest was issued, and later another one for the same slug. -/
def Superseded (digest : List UInt8) (events : List Event) : Prop :=
  ∃ newer older i j, events = newer ++ .issued j :: older ∧ .issued i ∈ older ∧
    i.slug = j.slug ∧ i.digest = digest

theorem event_digest_sublist (db : Db) (s : Step) :
    (((s.event db).toList.filterMap Event.issue).map Issue.digest).Sublist s.digest.toList := by
  cases s with
  | enroll r =>
      cases h : enrollOrRotateAgent db r <;> simp [Step.event, Step.digest, h, Event.issue]
  | revoke agentId now => exact List.nil_sublist _

theorem history_digests_sublist (db : Db) (steps : List Step) :
    (((history db steps).filterMap Event.issue).map Issue.digest).Sublist
      (digests steps).reverse := by
  induction steps generalizing db with
  | nil => simp [history]
  | cons s rest ih =>
      have hdigests : (digests (s :: rest)).reverse = (digests rest).reverse ++ s.digest.toList := by
        cases h : s.digest <;> simp [digests, h]
      rw [history, hdigests, List.filterMap_append, List.map_append]
      exact (ih _).append (event_digest_sublist db s)

/-- A superseded digest is not the one of a live credential. -/
theorem live_not_superseded {events : List Event} {digest : List UInt8} {slug : String} {k : Issue}
    (hfresh : ((events.filterMap Event.issue).map Issue.digest).Nodup)
    (hsuper : Superseded digest events) (hlive : live slug events = some k) : k.digest ≠ digest := by
  obtain ⟨newer, older, i, j, rfl, hi, hslug, rfl⟩ := hsuper
  intro hdigest
  have hissued : (newer ++ .issued j :: older).filterMap Event.issue =
      (newer.filterMap Event.issue ++ [j]) ++ older.filterMap Event.issue := by
    simp [Event.issue]
  have hhead := live_eq_some hlive
  rw [hissued] at hfresh
  rw [issues, hissued] at hhead
  have hk := List.mem_of_head? hhead
  have holder : i ∈ older.filterMap Event.issue := List.mem_filterMap.mpr ⟨_, hi, rfl⟩
  have hki : k = i := by
    apply List.inj_on_of_nodup_map hfresh (List.mem_of_mem_filter hk)
      (List.mem_append_right _ holder) hdigest
  subst hki
  have hkslug : k.slug = slug := by simpa using List.of_mem_filter hk
  rw [List.filter_append, List.head?_append] at hhead
  have hj : ((newer.filterMap Event.issue ++ [j]).filter fun i => i.slug = slug) ≠ [] := by
    have hjslug : j.slug = slug := hslug.symm.trans hkslug
    simp [hjslug]
  rw [List.head?_eq_some_head hj, Option.some_or, Option.some.injEq] at hhead
  have hfirst : k ∈ newer.filterMap Event.issue ++ [j] := by
    rw [← hhead]
    exact List.mem_of_mem_filter (List.head_mem hj)
  rw [List.map_append] at hfresh
  exact (List.nodup_append.mp hfresh).2.2 k.digest (List.mem_map_of_mem hfirst) k.digest
    (List.mem_map_of_mem holder) rfl

/-- A call for the host `node` that hands out the given token. -/
def nodeCall (token : List UInt8) (expiresAt : Option Int) : EnrollCall where
  slug := "node"
  displayName := "Node"
  platform := "linux"
  address := none
  credentialDigest := (Sha256.sha256 token).toList
  credentialHint := "1234"
  credentialExpiresAt := expiresAt
  now := 0
  sessionUser := "enroller"
  freshHostId := Uuid.ofByte 1
  freshAgentId := Uuid.ofByte 2

/-- Rotation is linear in every state of every run from empty tables: a host has one
agent row, whose identifiers never change and whose version counts the calls that
succeeded; the tokens that authenticate are those of the live credentials; a superseded
token never does again; and a call that raises changes nothing. -/
theorem rotation_is_linear (steps later : List Step)
    (hfresh : (digests (steps ++ later)).Nodup) :
    let db := runSteps Db.empty steps
    let db' := runSteps Db.empty (steps ++ later)
    let events := history Db.empty steps
    (db.agents.map AgentRow.hostId).Nodup ∧
    (∀ h ∈ db.hosts, ∀ a ∈ db.agents, a.hostId = h.id →
      (∃ h' ∈ db'.hosts, h'.slug = h.slug) ∧ (∃ a' ∈ db'.agents, a'.hostId = h.id) ∧
      (∀ h' ∈ db'.hosts, h'.slug = h.slug → h'.id = h.id) ∧
      ∀ a' ∈ db'.agents, a'.hostId = h.id → a'.id = a.id) ∧
    (∀ slug, issues slug events ≠ [] → ∃ h ∈ db.hosts, h.slug = slug) ∧
    (∀ h ∈ db.hosts, ∃ a ∈ db.agents, a.hostId = h.id ∧
      a.rotationVersion = (issues h.slug events).length) ∧
    (∀ token identity, authenticateAgent healthy db token = .ok identity ↔
      token ≠ [] ∧ ∃ h ∈ db.hosts, ∃ a ∈ db.agents, a.hostId = h.id ∧
        (∃ i, live h.slug events = some i ∧ i.digest = (Sha256.sha256 token).toList) ∧
        identity = ⟨a.id.toText, h.id.toText⟩) ∧
    (∀ token, Superseded (Sha256.sha256 token).toList events →
      ∀ identity, authenticateAgent healthy db' token ≠ .ok identity) ∧
    ∀ r e, enrollOrRotateAgent db r = .error e → (Step.enroll r).apply db = db := by
  intro db db' events
  have ht : Tracks db events := by
    have hrun := tracks_run tracks_empty steps
    rwa [List.append_nil] at hrun
  have ht' : Tracks db' (history db later ++ events) := by
    have hrun := tracks_run tracks_empty (steps ++ later)
    rwa [List.append_nil, history_append] at hrun
  refine ⟨ht.agentHosts, ?_, ht.host, ?_, ?_, ?_, ?_⟩
  · intro h hh a ha hhost
    have hagrees := ht.agreesWith_host hh ha hhost
    obtain ⟨h', hh', hslug', a', ha', hhost', hid', haid'⟩ := kept_identity ht' (by
      rw [issues_append]
      exact List.mem_append_right _ (List.mem_of_head? hagrees.last))
    refine ⟨⟨h', hh', hslug'⟩, ⟨a', ha', hhost'.trans hid'⟩, ?_, ?_⟩
    · intro x hx hslug
      rw [List.inj_on_of_nodup_map ht'.slugs hx hh' (hslug.trans hslug'.symm), hid']
    · intro x hx hxhost
      rw [List.inj_on_of_nodup_map ht'.agentHosts hx ha'
        (hxhost.trans (hhost'.trans hid').symm), haid']
  · intro h hh
    obtain ⟨a, ha, hagrees⟩ := ht.agent h hh
    exact ⟨a, ha, hagrees.hostId, hagrees.version⟩
  · intro token identity
    exact authenticateAgent_iff_live ht
  · rintro token ⟨newer, older, i, j, hevents, hi, hslug, hdigest⟩ identity haccept
    obtain ⟨-, h, -, -, -, -, ⟨k, hlive, hk⟩, -⟩ := (authenticateAgent_iff_live ht').mp haccept
    have hsuper : Superseded (Sha256.sha256 token).toList (history db later ++ events) := by
      refine ⟨history db later ++ newer, older, i, j, ?_, hi, hslug, hdigest⟩
      rw [hevents, List.append_assoc]
    refine live_not_superseded ?_ hsuper hlive hk
    rw [← history_append]
    exact (history_digests_sublist Db.empty (steps ++ later)).nodup (List.nodup_reverse.mpr hfresh)
  · intro r e h
    simp only [Step.apply, h]

/-- Two calls for one host leave the first token without effect. -/
theorem rotated_token_rejected :
    (digests ([.enroll (nodeCall [1] none), .enroll (nodeCall [2] none)] ++ [])).Nodup ∧
      ∀ identity, authenticateAgent healthy
        (runSteps Db.empty ([.enroll (nodeCall [1] none), .enroll (nodeCall [2] none)] ++ []))
        [1] ≠ .ok identity := by
  have hfresh : (digests ([.enroll (nodeCall [1] none), .enroll (nodeCall [2] none)] ++
      [])).Nodup := by decide +kernel
  have hhistory : history Db.empty [.enroll (nodeCall [1] none), .enroll (nodeCall [2] none)] =
      [.issued ⟨"node", (Sha256.sha256 [2]).toList, none, Uuid.ofByte 1, Uuid.ofByte 2⟩,
        .issued ⟨"node", (Sha256.sha256 [1]).toList, none, Uuid.ofByte 1, Uuid.ofByte 2⟩] := by
    decide +kernel
  obtain ⟨-, -, -, -, -, hsuper, -⟩ := rotation_is_linear _ _ hfresh
  refine ⟨hfresh, hsuper [1] ?_⟩
  rw [hhistory]
  exact ⟨[], _, _, _, rfl, List.mem_singleton.mpr rfl, rfl, rfl⟩

end NodeScope.Credentials
