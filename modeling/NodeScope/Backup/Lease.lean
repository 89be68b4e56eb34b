import NodeScope.Lib.Machine
import NodeScope.Storage.Schema

/-!
# Fenced maintenance leases

The table `maintenance_leases` and the two functions the backup command calls on
it. A call of `acquire_maintenance_lease` reads the database clock once, before it
holds the lock on the row. The machine below runs any acquisitions by any replicas
over a clock that never goes back, and keeps the acquisitions that succeeded.

## Implementation notes

The function's output parameters have the names of two columns. The model reads the
names in the statement as the columns, which is the reading the statement needs. The
statement holds the row lock until it commits, so an acquisition is one step; what the
call did before is its reading `vNow` of the clock, and the step may be taken at any
later time.
-/

namespace NodeScope.Backup

open Storage Lib Lib.Check Lib.Text Lib.Time

/-- A row of `maintenance_leases`. -/
structure LeaseRow where
  leaseName : String
  holderReplicaId : String
  fencingToken : Int
  acquiredAt : Int
  renewedAt : Int
  expiresAt : Int
deriving DecidableEq

def LeaseRow.checks (r : LeaseRow) : List (String × Bool) :=
  [("maintenance_leases_check", r.acquiredAt < r.expiresAt),
    ("maintenance_leases_holder_replica_id_check", filled r.holderReplicaId),
    ("maintenance_leases_lease_name_check", filled r.leaseName)]

/-- The rows, no two of them with one primary key. -/
structure LeaseTable where
  rows : List LeaseRow
  primaryKey : (rows.map LeaseRow.leaseName).Nodup

namespace LeaseTable

def empty : LeaseTable := ⟨[], List.nodup_nil⟩

def find (table : LeaseTable) (leaseName : String) : Option LeaseRow :=
  Table.find LeaseRow.leaseName leaseName table.rows

def put (table : LeaseTable) (row : LeaseRow) : LeaseTable :=
  ⟨Table.put LeaseRow.leaseName row table.rows, Table.nodup_put row table.primaryKey⟩

theorem find_empty (leaseName : String) : empty.find leaseName = none := rfl

@[simp] theorem find_put (table : LeaseTable) (row : LeaseRow) (leaseName : String) :
    (table.put row).find leaseName =
      if row.leaseName = leaseName then some row else table.find leaseName :=
  Table.find_put leaseName row table.rows

end LeaseTable

inductive LeaseError where
  | database (error : PgError)
  | raised (message : String)
deriving DecidableEq

/-- What an acquisition returns. -/
structure Lease where
  fencingToken : Int
  expiresAt : Int
deriving DecidableEq

/-- A call of `acquire_maintenance_lease` that has read the clock. -/
structure AcquireCall where
  leaseName : String
  replicaId : String
  ttlSeconds : Int
  vNow : Int
deriving DecidableEq

namespace AcquireCall

def expiresAt (c : AcquireCall) : Int := c.vNow + sqlSeconds c.ttlSeconds

/-- The row the statement proposes to insert. -/
def proposed (c : AcquireCall) : LeaseRow :=
  ⟨c.leaseName, c.replicaId, 1, c.vNow, c.vNow, c.expiresAt⟩

/-- The conflict clause may change the stored row. -/
def mayTake (c : AcquireCall) (lease : LeaseRow) : Bool :=
  lease.expiresAt < c.vNow || lease.holderReplicaId == c.replicaId

/-- The stored row after the conflict clause. -/
def updated (c : AcquireCall) (lease : LeaseRow) : LeaseRow where
  leaseName := lease.leaseName
  holderReplicaId := c.replicaId
  fencingToken :=
    if lease.holderReplicaId = c.replicaId then lease.fencingToken else lease.fencingToken + 1
  acquiredAt := lease.acquiredAt
  renewedAt := c.vNow
  expiresAt := c.expiresAt

end AcquireCall

/-- Write the row and return its token and expiry. -/
def storeLease (table : LeaseTable) (row : LeaseRow) : LeaseTable × Lease :=
  (table.put row, ⟨row.fencingToken, row.expiresAt⟩)

/-- `acquire_maintenance_lease`. The checks of the proposed row come before the search
for a conflicting one, and the changed row is checked again. -/
def acquireMaintenanceLease (table : LeaseTable) (c : AcquireCall) :
    Except LeaseError (LeaseTable × Lease) := do
  (checkTexts [c.leaseName, c.replicaId]).mapError .database
  failIf (c.ttlSeconds < 10 || 3600 < c.ttlSeconds) (.raised "lease TTL must be 10..3600 seconds")
  (checkTimes [("expires_at", c.expiresAt)]).mapError .database
  (checkAll c.proposed.checks).mapError .database
  match table.find c.leaseName with
  | none => .ok (storeLease table c.proposed)
  | some lease => do
      failIf (!c.mayTake lease)
        (.raised "maintenance lease is currently held by another replica")
      failIf (2 ^ 63 ≤ (c.updated lease).fencingToken) (.database (.outOfRange "fencing_token"))
      (checkAll (c.updated lease).checks).mapError .database
      .ok (storeLease table (c.updated lease))

/-- `lease_is_current`, at an instant of the database clock. -/
def leaseIsCurrent (table : LeaseTable) (leaseName replicaId : String) (fencingToken now : Int) :
    Bool :=
  table.rows.any fun r =>
    r.leaseName == leaseName && r.holderReplicaId == replicaId &&
      r.fencingToken == fencingToken && now ≤ r.expiresAt

/-- `PostgresLeaser.Acquire`, which calls the function with the whole seconds of a
duration given in nanoseconds. -/
def leaserAcquire (table : LeaseTable) (leaseName replicaId : String) (ttl vNow : Int) :
    Except LeaseError (LeaseTable × Lease) := do
  failIf (ttl < seconds 10 || seconds 3600 < ttl)
    (.raised "lease TTL must be from 10 seconds through one hour")
  acquireMaintenanceLease table ⟨leaseName, replicaId, ttl / nanosPerSecond, vNow⟩

/-- The token of an acquisition, given the row it found. -/
def AcquireCall.token (c : AcquireCall) : Option LeaseRow → Int
  | none => 1
  | some lease =>
      if lease.holderReplicaId = c.replicaId then lease.fencingToken else lease.fencingToken + 1

/-- All that a successful acquisition does: it writes the row of its lease, under its own
replica, over a row that was its own or had expired. -/
structure Acquires (table : LeaseTable) (c : AcquireCall) (table' : LeaseTable) (lease : Lease) :
    Prop where
  row : ∃ row, table' = table.put row ∧ row.leaseName = c.leaseName ∧
    row.holderReplicaId = c.replicaId ∧ row.fencingToken = lease.fencingToken
  token : lease.fencingToken = c.token (table.find c.leaseName)
  taken : ∀ old, table.find c.leaseName = some old →
    old.expiresAt < c.vNow ∨ old.holderReplicaId = c.replicaId

theorem acquires_of_eq_ok {table table' : LeaseTable} {c : AcquireCall} {lease : Lease}
    (h : acquireMaintenanceLease table c = .ok (table', lease)) :
    Acquires table c table' lease := by
  simp only [acquireMaintenanceLease, unit_bind_eq_ok] at h
  obtain ⟨-, -, -, -, h⟩ := h
  cases hfind : table.find c.leaseName with
  | none =>
      simp only [hfind, Except.ok.injEq, storeLease, Prod.mk.injEq] at h
      obtain ⟨rfl, rfl⟩ := h
      refine ⟨⟨c.proposed, rfl, rfl, rfl, rfl⟩, ?_, ?_⟩
      · rw [hfind]
        rfl
      · simp [hfind]
  | some old =>
      simp only [hfind, unit_bind_eq_ok, failIf_eq_ok, Bool.not_eq_false', Except.ok.injEq,
        storeLease, Prod.mk.injEq] at h
      obtain ⟨htake, -, -, rfl, rfl⟩ := h
      have hname : old.leaseName = c.leaseName := (Table.mem_of_find hfind).2
      refine ⟨⟨c.updated old, rfl, hname, rfl, rfl⟩, ?_, ?_⟩
      · rw [hfind]
        rfl
      · intro row hrow
        obtain rfl := Option.some.inj (hfind.symm.trans hrow)
        simpa [AcquireCall.mayTake] using htake

theorem leaseIsCurrent_find {table : LeaseTable} {leaseName replicaId : String} {token now : Int}
    (h : leaseIsCurrent table leaseName replicaId token now = true) :
    ∃ row, table.find leaseName = some row ∧ row.holderReplicaId = replicaId ∧
      row.fencingToken = token ∧ now ≤ row.expiresAt := by
  simp only [leaseIsCurrent, List.any_eq_true, Bool.and_eq_true, beq_iff_eq,
    decide_eq_true_eq] at h
  obtain ⟨row, hmem, ⟨⟨hname, hholder⟩, htoken⟩, hexpires⟩ := h
  refine ⟨row, ?_, hholder, htoken, hexpires⟩
  subst hname
  cases hfind : table.find row.leaseName with
  | none => exact absurd rfl (Table.find_eq_none.mp hfind row hmem)
  | some other =>
      obtain ⟨hother, hnames⟩ := Table.mem_of_find hfind
      rw [List.inj_on_of_nodup_map table.primaryKey hother hmem hnames]

end NodeScope.Backup
