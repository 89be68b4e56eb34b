import NodeScope.Backup.Snapshot

/-!
# One call of the backup runner

`Runner.Run` from its first check to its last deferred call, on the files it finds. Whatever
the run asks of its machine can fail (`Outside`), and so can the two deferred removals, whose
errors nobody sees. The functions follow the scopes of those removals. Where both removals
succeed, the call does what the steps of the state machine do when nothing comes between them
(`steps_eq_run`).

## Implementation notes

A directory has one entry under a name. The archive that `tarDirectory` leaves is any bytes,
also when it fails.
-/

namespace NodeScope.Backup

open Storage Lib Lib.Check Lib.Text Lib.Time

/-- What the outside does to a call of `Run`: the results of the lease client, the clock, which
operations fail, and what they leave behind. -/
structure Outside where
  configured : Bool
  acquire : Except LeaseError Lease
  mkdirAllFails : Bool
  now : Int
  mkdirFails : Bool
  stagedAt : Int
  dump : List UInt8
  dumpFails : Bool
  manifestFails : Bool
  firstCheck : Option Bool
  openFails : Bool
  archive : List UInt8
  archivedAt : Int
  archiveFails : Bool
  secondCheck : Option Bool
  renameFails : Bool
  pruneFails : Bool
  pruned : Nat
  archiveStays : Bool
  stagingStays : Bool

def Outside.held (x : Outside) (lease : Lease) : Held := ⟨lease, 0, x.now, 0⟩

namespace Files

/-- A directory has one entry under a name. -/
def Distinct (files : Files) : Prop := (files.map Entry.path).Nodup

/-- A removal that is deferred: its failure is not seen. -/
def removeDeferred (files : Files) (path : Path) (stays : Bool) : Files :=
  if stays then files else files.remove path

theorem remove_write (files : Files) (e : Entry) :
    (files.write e).remove e.path = files.remove e.path := by
  rw [remove, write, Table.filter_put Entry.path _ e files (fun n hn => by rw [hn])]
  simp [remove]

theorem dump_write (files : Files) (path : Path) (modTime : Int) (dump : Option (List UInt8))
    (manifest : Option Manifest) :
    (files.write ⟨path, modTime, .staging dump manifest⟩).dump path = dump := by
  rw [Files.dump, write, Table.find_put, if_pos rfl]

end Files

namespace Runner

variable (x : Outside) (r : Request) (h : Held)

/-- The partial archive that `tarDirectory` leaves. -/
def partialArchive : Entry := ⟨r.archivePartial h, x.archivedAt, .archive x.archive⟩

/-- `os.Rename`, `prune` and the return after it. -/
def publish (files : Files) : Files × Except RunError Path :=
  if x.renameFails then (files, .error .filesystem)
  else
    let files := files.rename (r.archivePartial h) (r.final h)
    let before := h.now - r.retentionDays * seconds 86400
    let files := prune files r.outputDirectory before ⟨x.pruneFails, x.archivedAt, [], x.pruned⟩
    (files, if x.pruneFails then .error .filesystem else .ok (r.final h))

/-- `tarDirectory` and what follows, up to the deferred removal of the partial archive. -/
def archive (files : Files) : Files × Except RunError Path :=
  if x.openFails || files.holds (r.archivePartial h) then (files, .error .filesystem)
  else
    let files := files.write (partialArchive x r h)
    if x.archiveFails then (files, .error .filesystem)
    else match x.secondCheck with
      | none => (files, .error .leaseCheck)
      | some false =>
          (files, .error (.leaseLost "backup lease was lost before final publication"))
      | some true => publish x r h files

/-- The dump, the manifest and what follows, up to the deferred removal of the staging
directory. -/
def stage (files : Files) : Files × Except RunError Path :=
  let files := files.write ⟨r.staging h, x.stagedAt, .staging none none⟩
  let dumped := files.write ⟨r.staging h, x.stagedAt, .staging (some x.dump) none⟩
  if x.dumpFails then (dumped, .error .dumpSchema)
  else if x.manifestFails then (dumped, .error .filesystem)
  else
    let described :=
      dumped.write ⟨r.staging h, x.stagedAt, .staging (some x.dump) (some (r.manifest h))⟩
    match x.firstCheck with
    | none => (described, .error .leaseCheck)
    | some false =>
        (described, .error (.leaseLost "backup lease was lost before publication"))
    | some true =>
        let result := archive x r h described
        (result.1.removeDeferred (r.archivePartial h) x.archiveStays, result.2)

def run (files : Files) : Files × Except RunError Path :=
  if x.configured then
    match r.validate with
    | .error e => (files, .error e)
    | .ok _ =>
        match x.acquire with
        | .error e => (files, .error (.acquireBackupLease e))
        | .ok lease =>
            let h := x.held lease
            if x.mkdirAllFails || x.mkdirFails || files.holds (r.staging h) then
              (files, .error .filesystem)
            else
              let result := stage x r h files
              (result.1.removeDeferred (r.staging h) x.stagingStays, result.2)
  else (files, .error (.invalid "backup leaser and dump executor are required"))

section Steps

/-- What the outside does to the step of a stage. -/
def env : Stage → Env
  | .leased => ⟨x.mkdirAllFails || x.mkdirFails, x.stagedAt, [], 0⟩
  | .staged => ⟨x.dumpFails, x.stagedAt, x.dump, 0⟩
  | .dumped => ⟨x.manifestFails, x.stagedAt, [], 0⟩
  | .described => ⟨x.firstCheck.isNone, x.stagedAt, [], 0⟩
  | .checked => ⟨x.openFails || x.archiveFails, x.archivedAt, x.archive, 0⟩
  | .archived => ⟨x.secondCheck.isNone, x.archivedAt, [], 0⟩
  | .cleared _ => ⟨x.renameFails, x.archivedAt, [], 0⟩
  | .renamed => ⟨x.pruneFails, x.archivedAt, [], x.pruned⟩

/-- The steps of a run, in the leases that it finds at each stage. -/
def steps (leases : Stage → Leases) (x : Outside) (r : Request) :
    Nat → Files × Phase → Files × Phase
  | 0, s => s
  | n + 1, (files, .holding h stage) =>
      steps leases x r n (advance (leases stage) files (env x stage) r h stage)
  | _ + 1, s => s

/-- The leases answer the check of a stage as the lease client reports it. -/
def Answers (leases : Leases) (r : Request) (h : Held) (check : Option Bool) : Prop :=
  ∀ current, check = some current →
    leaseIsCurrent leases.table "daily_backup" r.replicaId h.lease.fencingToken leases.clock =
      current

variable {x : Outside} {r : Request} {h : Held} {leases : Stage → Leases} {files : Files} {n : Nat}

theorem steps_ended (held : Option Held) (result : Except RunError Path) :
    steps leases x r n (files, .ended held result) = (files, .ended held result) := by
  cases n with
  | zero => rfl
  | succ n => rfl

theorem steps_publish (seen : Nat) :
    steps leases x r (n + 2) (files, .holding h (.cleared seen)) =
      (((publish x r h files).1.remove (r.archivePartial h)).remove (r.staging h),
        .ended (some h) (publish x r h files).2) := by
  rw [steps, advance, publish, env]
  cases x.renameFails with
  | true => exact steps_ended _ _
  | false => exact steps_ended _ _

/-- From the first check on the steps do what `archive` and the deferred removals do. -/
theorem steps_archive (hsecond : Answers (leases .archived) r h x.secondCheck) :
    ∃ held, steps leases x r (n + 4) (files, .holding h .checked) =
      (((archive x r h files).1.remove (r.archivePartial h)).remove (r.staging h),
        .ended held (archive x r h files).2) := by
  rw [steps, advance, archive, env]
  cases hopens : x.openFails || files.holds (r.archivePartial h) with
  | true =>
      have hfails : (x.openFails || x.archiveFails || files.holds (r.archivePartial h)) = true := by
        rw [Bool.or_right_comm, hopens, Bool.true_or]
      rw [if_pos hfails]
      exact ⟨some h, steps_ended _ _⟩
  | false =>
      rw [if_neg Bool.false_ne_true, Bool.or_right_comm, hopens, Bool.false_or]
      cases x.archiveFails with
      | true =>
          have hremoved := Files.remove_write files (partialArchive x r h)
          exact ⟨some h, (steps_ended _ _).trans
            (congrArg (fun fs => (Files.remove fs (r.staging h), _)) hremoved.symm)⟩
      | false =>
          cases hcheck : x.secondCheck with
          | none =>
              refine ⟨some h, ?_⟩
              rw [if_neg Bool.false_ne_true, steps, advance, env, hcheck]
              exact steps_ended _ _
          | some current =>
              rw [if_neg Bool.false_ne_true, steps, advance, env, hcheck, hsecond current hcheck]
              cases current with
              | false => exact ⟨some h, steps_ended _ _⟩
              | true => exact ⟨_, steps_publish _⟩

theorem steps_stage (hfirst : Answers (leases .described) r h x.firstCheck)
    (hsecond : Answers (leases .archived) r h x.secondCheck)
    (hcreates : (x.mkdirAllFails || x.mkdirFails || files.holds (r.staging h)) = false)
    (harchive : x.archiveStays = false) :
    ∃ held, steps leases x r (n + 8) (files, .holding h .leased) =
      ((stage x r h files).1.remove (r.staging h), .ended held (stage x r h files).2) := by
  rw [steps, advance, env, hcreates, if_neg Bool.false_ne_true, steps, advance, env, stage]
  cases x.dumpFails with
  | true =>
      refine ⟨some h, (steps_ended _ _).trans (congrArg (fun fs => (fs, _)) ?_)⟩
      exact (Files.remove_write _ ⟨r.staging h, x.stagedAt, .staging (some x.dump) none⟩).symm
  | false =>
      rw [if_neg Bool.false_ne_true, steps, advance, env]
      cases x.manifestFails with
      | true => exact ⟨some h, steps_ended _ _⟩
      | false =>
          rw [if_neg Bool.false_ne_true, Files.dump_write]
          cases hcheck : x.firstCheck with
          | none =>
              refine ⟨some h, ?_⟩
              rw [steps, advance, env, hcheck]
              exact steps_ended _ _
          | some current =>
              rw [steps, advance, env, hcheck, hfirst current hcheck]
              cases current with
              | false => exact ⟨some h, steps_ended _ _⟩
              | true =>
                  rw [harchive]
                  exact steps_archive (h := { h with passed := h.passed + 1 }) hsecond

/-- What a call does, the state machine does when nothing comes between its steps. -/
theorem steps_eq_run (hconfigured : x.configured = true) (hvalid : r.validate = .ok ())
    {lease : Lease} (hlease : x.acquire = .ok lease)
    (hfirst : Answers (leases .described) r (x.held lease) x.firstCheck)
    (hsecond : Answers (leases .archived) r (x.held lease) x.secondCheck)
    (harchive : x.archiveStays = false) (hstaging : x.stagingStays = false) :
    ∃ held, steps leases x r 8 (files, .holding (x.held lease) .leased) =
      ((run x r files).1, .ended held (run x r files).2) := by
  have hrun : run x r files =
      if x.mkdirAllFails || x.mkdirFails || files.holds (r.staging (x.held lease)) then
        (files, .error .filesystem)
      else ((stage x r (x.held lease) files).1.remove (r.staging (x.held lease)),
        (stage x r (x.held lease) files).2) := by
    rw [run, if_pos hconfigured, hvalid, hlease, hstaging]
    rfl
  rw [hrun]
  cases hcreates : x.mkdirAllFails || x.mkdirFails || files.holds (r.staging (x.held lease)) with
  | true =>
      refine ⟨some (x.held lease), ?_⟩
      rw [steps, advance, env, hcreates]
      exact steps_ended _ _
  | false =>
      exact steps_stage hfirst hsecond hcreates harchive

end Steps

end Runner

end NodeScope.Backup
