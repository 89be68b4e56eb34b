import NodeScope.Backup.Lease

/-!
# Safety of the maintenance leases

Any replicas acquire any leases in any order, each from an older reading of a clock that
never goes back. The token in a row never decreases and grows whenever the holder
changes, so a token that another replica has passed cannot come back.
-/

namespace NodeScope.Backup

open Storage Lib Lib.Time

/-- An acquisition that succeeded, with the row it found under the lease's name. -/
structure Grant where
  call : AcquireCall
  previous : Option LeaseRow
  lease : Lease
deriving DecidableEq

/-- The database clock, the leases, and the acquisitions so far in order. -/
structure Leases where
  clock : Int
  table : LeaseTable
  granted : List Grant

inductive LeaseStep where
  | tick (time : Int)
  | acquire (call : AcquireCall)

/-- The state after an acquisition that was tried. -/
def Leases.acquire (s : Leases) (c : AcquireCall) : Leases :=
  match acquireMaintenanceLease s.table c with
  | .error _ => s
  | .ok (table, lease) =>
      ⟨s.clock, table, s.granted ++ [⟨c, s.table.find c.leaseName, lease⟩]⟩

/-- Time passes, or a call that read the clock at some earlier time obtains the row and
runs to its end. A call of `lease_is_current` changes nothing: it is the value of
`leaseIsCurrent` in the state it is made in. -/
def Leases.step (s : Leases) : LeaseStep → Option Leases
  | .tick time => if s.clock ≤ time then some { s with clock := time } else none
  | .acquire c => if c.vNow ≤ s.clock then some (s.acquire c) else none

def Leases.run : Leases → List LeaseStep → Option Leases := Machine.run Leases.step

/-- The table and the history are as they were, or one acquisition was made. -/
def Leases.Moves (s s' : Leases) : Prop :=
  (s'.table = s.table ∧ s'.granted = s.granted) ∨
    ∃ c lease, Acquires s.table c s'.table lease ∧
      s'.granted = s.granted ++ [⟨c, s.table.find c.leaseName, lease⟩]

theorem Leases.acquire_of_eq_ok {s : Leases} {c : AcquireCall} {table : LeaseTable} {lease : Lease}
    (h : acquireMaintenanceLease s.table c = .ok (table, lease)) :
    s.acquire c = ⟨s.clock, table, s.granted ++ [⟨c, s.table.find c.leaseName, lease⟩]⟩ := by
  simp only [Leases.acquire, h]

theorem Leases.moves_acquire (s : Leases) (c : AcquireCall) : s.Moves (s.acquire c) := by
  cases hresult : acquireMaintenanceLease s.table c with
  | error e =>
      left
      simp only [Leases.acquire, hresult, and_self]
  | ok result =>
      right
      rw [Leases.acquire_of_eq_ok hresult]
      exact ⟨c, result.2, acquires_of_eq_ok hresult, rfl⟩

theorem Leases.moves_step {s s' : Leases} {a : LeaseStep} (h : s.step a = some s') :
    s.Moves s' := by
  cases a with
  | tick time =>
      simp only [Leases.step, Option.ite_none_right_eq_some, Option.some.injEq] at h
      obtain ⟨-, rfl⟩ := h
      exact Or.inl ⟨rfl, rfl⟩
  | acquire c =>
      simp only [Leases.step, Option.ite_none_right_eq_some, Option.some.injEq] at h
      obtain ⟨-, rfl⟩ := h
      exact s.moves_acquire c

/-- What an acquisition leaves under a name: its own row, or the row that was there. -/
theorem Acquires.find {table table' : LeaseTable} {c : AcquireCall} {lease : Lease}
    (h : Acquires table c table' lease) (leaseName : String) :
    (c.leaseName = leaseName ∧ ∃ row, table'.find leaseName = some row ∧
      row.holderReplicaId = c.replicaId ∧ row.fencingToken = lease.fencingToken) ∨
    (c.leaseName ≠ leaseName ∧ table'.find leaseName = table.find leaseName) := by
  obtain ⟨row, rfl, hname, hholder, htoken⟩ := h.row
  by_cases hc : c.leaseName = leaseName
  · refine Or.inl ⟨hc, row, ?_, hholder, htoken⟩
    rw [LeaseTable.find_put, if_pos (hname.trans hc)]
  · refine Or.inr ⟨hc, ?_⟩
    rw [LeaseTable.find_put, if_neg fun e => hc (hname.symm.trans e)]

/-- The token an acquisition returns is that of the row it found for the holder itself,
and the next one for another replica. -/
theorem Acquires.token_over {table table' : LeaseTable} {c : AcquireCall} {lease : Lease}
    (h : Acquires table c table' lease) {old : LeaseRow} (hold : table.find c.leaseName = some old) :
    (old.holderReplicaId = c.replicaId ∧ lease.fencingToken = old.fencingToken) ∨
      (old.holderReplicaId ≠ c.replicaId ∧ lease.fencingToken = old.fencingToken + 1) := by
  have htoken := h.token
  rw [hold, AcquireCall.token] at htoken
  by_cases hholder : old.holderReplicaId = c.replicaId
  · exact Or.inl ⟨hholder, by rw [htoken, if_pos hholder]⟩
  · exact Or.inr ⟨hholder, by rw [htoken, if_neg hholder]⟩

/-- A row under `leaseName` with at least this token. -/
def AtLeast (leaseName : String) (token : Int) (s : Leases) : Prop :=
  ∃ row, s.table.find leaseName = some row ∧ token ≤ row.fencingToken

theorem AtLeast.moves {leaseName : String} {token : Int} {s s' : Leases} (hmoves : s.Moves s')
    (h : AtLeast leaseName token s) : AtLeast leaseName token s' := by
  obtain ⟨old, hold, hle⟩ := h
  rcases hmoves with ⟨htable, -⟩ | ⟨c, lease, hacquires, -⟩
  · exact ⟨old, by rw [htable, hold], hle⟩
  · rcases hacquires.find leaseName with ⟨rfl, row, hrow, -, htoken⟩ | ⟨-, hsame⟩
    · refine ⟨row, hrow, ?_⟩
      rcases hacquires.token_over hold with ⟨-, hlease⟩ | ⟨-, hlease⟩ <;> omega
    · exact ⟨old, by rw [hsame, hold], hle⟩

/-- The tokens stored for a lease never decrease. -/
theorem atLeast_run {leaseName : String} {s s' : Leases} {steps : List LeaseStep}
    (hrun : s.run steps = some s') {row : LeaseRow} (hrow : s.table.find leaseName = some row) :
    AtLeast leaseName row.fencingToken s' :=
  Machine.invariant_run (fun _ _ _ hstep h => AtLeast.moves (Leases.moves_step hstep) h) hrun
    ⟨row, hrow, le_rfl⟩

/-- The row of a lease is at or past each token that was granted for it. It is still at
the token only when its holder has it from that grant, and no other replica came since. -/
def Fenced (s : Leases) : Prop :=
  ∀ (i : Nat) (g : Grant), s.granted[i]? = some g →
    ∃ row, s.table.find g.call.leaseName = some row ∧
      g.lease.fencingToken ≤ row.fencingToken ∧
      (row.fencingToken = g.lease.fencingToken → row.holderReplicaId = g.call.replicaId ∧
        ∀ (j : Nat) (g' : Grant), i < j → s.granted[j]? = some g' → g'.call.leaseName = g.call.leaseName →
          g'.call.replicaId = g.call.replicaId)

theorem Fenced.moves {s s' : Leases} (hmoves : s.Moves s') (h : Fenced s) : Fenced s' := by
  rcases hmoves with ⟨htable, hgranted⟩ | ⟨c, lease, hacquires, hgranted⟩
  · simpa only [Fenced, htable, hgranted] using h
  · intro i g hg
    rw [hgranted, Machine.getElem?_concat] at hg
    rcases hg with hg | ⟨hi, rfl⟩
    · obtain ⟨old, hold, hle, hcurrent⟩ := h i g hg
      rcases hacquires.find g.call.leaseName with ⟨hname, row, hrow, hholder, htoken⟩ | ⟨hname, hsame⟩
      · refine ⟨row, hrow, ?_⟩
        rcases hacquires.token_over (hname ▸ hold) with ⟨hown, hlease⟩ | ⟨-, hlease⟩
        · refine ⟨by omega, fun heq => ?_⟩
          obtain ⟨holder, hlater⟩ := hcurrent (by omega)
          refine ⟨hholder.trans (hown.symm.trans holder), ?_⟩
          intro j g' hij hg' hname'
          rw [hgranted, Machine.getElem?_concat] at hg'
          rcases hg' with hg' | ⟨-, rfl⟩
          · exact hlater j g' hij hg' hname'
          · exact hown.symm.trans holder
        · exact ⟨by omega, fun heq => absurd heq (by omega)⟩
      · refine ⟨old, hsame.trans hold, hle, fun heq => ?_⟩
        obtain ⟨holder, hlater⟩ := hcurrent heq
        refine ⟨holder, ?_⟩
        intro j g' hij hg' hname'
        rw [hgranted, Machine.getElem?_concat] at hg'
        rcases hg' with hg' | ⟨-, rfl⟩
        · exact hlater j g' hij hg' hname'
        · exact absurd hname' hname
    · rcases hacquires.find c.leaseName with ⟨-, row, hrow, hholder, htoken⟩ | ⟨hname, -⟩
      · refine ⟨row, hrow, htoken.ge, fun _ => ⟨hholder, ?_⟩⟩
        intro j g' hij hg' _
        rw [hgranted, List.getElem?_eq_none (by simp; omega)] at hg'
        exact absurd hg' (by simp)
      · exact absurd rfl hname

theorem fenced_init (clock : Int) (table : LeaseTable) : Fenced ⟨clock, table, []⟩ := by
  intro i g hg
  simp at hg

theorem fenced_run {clock : Int} {table : LeaseTable} {s : Leases} {steps : List LeaseStep}
    (hrun : Leases.run ⟨clock, table, []⟩ steps = some s) : Fenced s :=
  Machine.invariant_run (fun _ _ _ hstep h => Fenced.moves (Leases.moves_step hstep) h) hrun
    (fenced_init clock table)

/-- While a replica's token is current no other replica has acquired the lease since. -/
theorem Fenced.no_other_since {s : Leases} (h : Fenced s) {i : Nat} {g : Grant}
    (hg : s.granted[i]? = some g) {now : Int}
    (hcurrent : leaseIsCurrent s.table g.call.leaseName g.call.replicaId g.lease.fencingToken now =
      true) {j : Nat} {g' : Grant} (hij : i < j) (hg' : s.granted[j]? = some g')
    (hname : g'.call.leaseName = g.call.leaseName) : g'.call.replicaId = g.call.replicaId := by
  obtain ⟨row, hrow, -, htoken, -⟩ := leaseIsCurrent_find hcurrent
  obtain ⟨row', hrow', -, hfenced⟩ := h i g hg
  obtain rfl := Option.some.inj (hrow.symm.trans hrow')
  exact (hfenced htoken).2 j g' hij hg' hname

theorem Leases.Moves.granted {s s' : Leases} (hmoves : s.Moves s') :
    s.granted <+: s'.granted := by
  rcases hmoves with ⟨-, hgranted⟩ | ⟨c, lease, -, hgranted⟩
  · simp [hgranted]
  · rw [hgranted]
    exact List.prefix_append _ _

/-- An acquisition keeps its place in the history. -/
theorem getElem?_of_extended {before after : List Grant} (h : before <+: after) {i : Nat} {g : Grant}
    (hg : before[i]? = some g) : after[i]? = some g := by
  obtain ⟨hi, rfl⟩ := List.getElem?_eq_some_iff.mp hg
  exact List.prefix_iff_getElem?.mp h i hi

theorem granted_run {s s' : Leases} {steps : List LeaseStep} (hrun : s.run steps = some s') :
    s.granted <+: s'.granted :=
  Machine.invariant_run (I := fun t => s.granted <+: t.granted)
    (fun _ _ _ hstep h => h.trans (Leases.moves_step hstep).granted) hrun (List.prefix_refl _)

/-- In every state of every run: the stored tokens have not decreased; an acquisition over
another replica's row finds it expired before its reading of the clock; while a replica's
token is current no other replica has acquired since that token was granted; and after
another replica has, the token is never current again. -/
theorem maintenance_lease_safety (clock : Int) (table : LeaseTable) (before after : List LeaseStep)
    (s₁ s : Leases) (hbefore : Leases.run ⟨clock, table, []⟩ before = some s₁)
    (hafter : s₁.run after = some s) :
    (∀ leaseName row, s₁.table.find leaseName = some row →
      ∃ row', s.table.find leaseName = some row' ∧ row.fencingToken ≤ row'.fencingToken) ∧
    (∀ c result old, acquireMaintenanceLease s.table c = .ok result →
      s.table.find c.leaseName = some old → old.holderReplicaId ≠ c.replicaId →
      old.expiresAt < c.vNow) ∧
    (∀ (i j : Nat) (g g' : Grant) (now : Int), s.granted[i]? = some g → s.granted[j]? = some g' →
      i < j → g'.call.leaseName = g.call.leaseName →
      leaseIsCurrent s.table g.call.leaseName g.call.replicaId g.lease.fencingToken now = true →
      g'.call.replicaId = g.call.replicaId) ∧
    (∀ (i j : Nat) (g g' : Grant) (now : Int), s₁.granted[i]? = some g →
      s₁.granted[j]? = some g' → i < j → g'.call.leaseName = g.call.leaseName →
      g'.call.replicaId ≠ g.call.replicaId →
      leaseIsCurrent s.table g.call.leaseName g.call.replicaId g.lease.fencingToken now =
        false) := by
  have hfenced : Fenced s :=
    fenced_run (Machine.run_append_eq_some.mpr ⟨s₁, hbefore, hafter⟩)
  refine ⟨?_, ?_, ?_, ?_⟩
  · intro leaseName row hrow
    exact atLeast_run hafter hrow
  · intro c result old hresult hold hother
    exact ((acquires_of_eq_ok hresult).taken old hold).resolve_right hother
  · intro i j g g' now hg hg' hij hname hcurrent
    exact hfenced.no_other_since hg hcurrent hij hg' hname
  · intro i j g g' now hg hg' hij hname hother
    rw [← Bool.not_eq_true]
    intro hcurrent
    have hlater := granted_run hafter
    exact hother (hfenced.no_other_since (getElem?_of_extended hlater hg) hcurrent hij
      (getElem?_of_extended hlater hg') hname)

def firstCall : AcquireCall := ⟨"daily_backup", "framework", 1800, 0⟩

def secondCall : AcquireCall := ⟨"daily_backup", "asus", 1800, sqlSeconds 1900⟩

def thirdCall : AcquireCall := ⟨"daily_backup", "framework", 1800, sqlSeconds 4000⟩

/-- The replica whose lease lapsed acquires it again and gets a new token: the old one
stays void. -/
theorem lapsed_token_stays_void :
    ∃ s₁ s, Leases.run ⟨0, LeaseTable.empty, []⟩
        [.acquire firstCall, .tick (sqlSeconds 1900), .acquire secondCall] = some s₁ ∧
      s₁.run [.tick (sqlSeconds 4000), .acquire thirdCall] = some s ∧
      s.granted.map (fun g => g.lease.fencingToken) = [1, 2, 3] ∧
      ∀ now, leaseIsCurrent s.table "daily_backup" "framework" 1 now = false := by
  refine ⟨_, _, rfl, rfl, rfl, ?_⟩
  intro now
  exact (maintenance_lease_safety 0 LeaseTable.empty
    [.acquire firstCall, .tick (sqlSeconds 1900), .acquire secondCall]
    [.tick (sqlSeconds 4000), .acquire thirdCall] _ _ rfl rfl).2.2.2 0 1
    ⟨firstCall, none, ⟨1, sqlSeconds 1800⟩⟩ _ now rfl rfl (by decide) rfl (by decide)

end NodeScope.Backup
