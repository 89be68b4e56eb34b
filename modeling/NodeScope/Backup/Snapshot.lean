import NodeScope.Backup.LeaseSafety

/-!
# The backup run

`Runner.Run` as a state machine: a run acquires the lease `daily_backup`, stages a dump
and a manifest, checks the lease, writes the archive, checks the lease again, renames the
archive to its final name and prunes old archives. Any number of runs on any replicas
share the leases and the files, and between any two steps the database clock may move,
other runs may step, and a process may stop.

## Implementation notes

An `Env` gives the outcome of what a step asks of the machine it runs on: whether the
operation fails, the host's time, the bytes that were written. A lease acquisition whose
reply is lost is an acquisition of the leases' own machine followed by a failing step of
the run. Histories are kept beside the state: a run knows the place of its acquisition
among all acquisitions, and a publication the places that bound it.
-/

namespace NodeScope.Backup

open Storage Lib Lib.Check Lib.Time

def modeDefault : String := "default"

def modeFull : String := "full"

structure Request where
  replicaId : String
  outputDirectory : String
  mode : String
  retentionDays : Int
deriving DecidableEq

structure Manifest where
  version : Nat
  createdAt : Int
  replicaId : String
  mode : String
  fencingToken : Int
  files : List String
deriving DecidableEq

/-- What an entry of an output directory is. -/
inductive Node where
  | staging (dump : Option (List UInt8)) (manifest : Option Manifest)
  | archive (contents : List UInt8)
deriving DecidableEq

structure Path where
  directory : String
  name : String
deriving DecidableEq

structure Entry where
  path : Path
  modTime : Int
  node : Node
deriving DecidableEq

abbrev Files := List Entry

namespace Files

def holds (files : Files) (path : Path) : Bool := (Table.find Entry.path path files).isSome

def write (files : Files) (entry : Entry) : Files := Table.put Entry.path entry files

/-- `os.Remove` and `os.RemoveAll`, of an entry that may be missing. -/
def remove (files : Files) (path : Path) : Files := files.filter fun e => decide (e.path ≠ path)

/-- `os.Rename`: the entry takes the place of one with the new name. -/
def rename (files : Files) (source target : Path) : Files :=
  match Table.find Entry.path source files with
  | none => files
  | some entry => write (remove files source) { entry with path := target }

/-- The dump in a staging directory. -/
def dump (files : Files) (path : Path) : Option (List UInt8) :=
  match Table.find Entry.path path files with
  | some ⟨_, _, .staging dump _⟩ => dump
  | _ => none

end Files

inductive RunError where
  | invalid (message : String)
  | acquireBackupLease (cause : LeaseError)
  | filesystem
  | dumpSchema
  | leaseCheck
  | leaseLost (message : String)
deriving DecidableEq

/-- The checks before the lease is acquired. -/
def Request.validate (r : Request) : Except RunError Unit := do
  failIf (r.replicaId == "" || r.outputDirectory == "")
    (.invalid "replica ID and output directory are required")
  failIf (r.mode != modeDefault && r.mode != modeFull)
    (.invalid "backup mode must be default or full")
  failIf (r.retentionDays < 1 || 365 < r.retentionDays) (.invalid "retention must be 1..365 days")

/-- The layout `20060102T150405Z`. -/
def stamp (t : Int) : String :=
  let second := t / nanosPerSecond
  let date := civil (second / 86400)
  let clock := (second % 86400).toNat
  paddedYear date.1 ++ padded 2 date.2.1 ++ padded 2 date.2.2 ++ "T" ++
    padded 2 (clock / 3600) ++ padded 2 (clock / 60 % 60) ++ padded 2 (clock % 60) ++ "Z"

/-- What a run holds once it has the lease: the lease, the place of its acquisition in
the history, the host's time, and how often it has found the lease current. -/
structure Held where
  lease : Lease
  obtained : Nat
  now : Int
  passed : Nat
deriving DecidableEq

/-- How far a run that holds the lease has come. In `cleared` the second check has passed;
it keeps how many acquisitions there had been. -/
inductive Stage where
  | leased
  | staged
  | dumped
  | described
  | checked
  | archived
  | cleared (seen : Nat)
  | renamed
deriving DecidableEq

inductive Phase where
  | acquiring (vNow : Int)
  | holding (held : Held) (stage : Stage)
  | ended (held : Option Held) (result : Except RunError Path)
  | stopped (held : Option Held)

structure Run where
  request : Request
  phase : Phase

def Phase.held : Phase → Option Held
  | .acquiring _ => none
  | .holding held _ => some held
  | .ended held _ => held
  | .stopped held => held

namespace Request

variable (r : Request) (h : Held)

def basename : String :=
  "nodescope-" ++ r.mode ++ "-" ++ stamp h.now ++ "-" ++ toString h.lease.fencingToken

def staging : Path := ⟨r.outputDirectory, "." ++ r.basename h ++ ".partial"⟩

def final : Path := ⟨r.outputDirectory, r.basename h ++ ".tar.gz"⟩

def archivePartial : Path := ⟨r.outputDirectory, r.basename h ++ ".tar.gz.partial"⟩

def manifest : Manifest :=
  ⟨1, h.now, r.replicaId, r.mode, h.lease.fencingToken, ["nodescope.dump", "manifest.json"]⟩

end Request

/-- What the outside decides about one step. -/
structure Env where
  fails : Bool
  hostTime : Int
  written : List UInt8
  removed : Nat

/-- The archives `prune` removes, in the order of their names. -/
def expiredArchives (files : Files) (directory : String) (before : Int) : List Path :=
  let stale := files.filter fun e =>
    decide (e.path.directory = directory) && "nodescope-".isPrefixOf e.path.name &&
      e.path.name.endsWith ".tar.gz" && decide (e.modTime < before)
  (stale.map Entry.path).mergeSort fun a b => decide (a.name ≤ b.name)

/-- `prune`, which stops at the first archive it cannot remove. -/
def prune (files : Files) (directory : String) (before : Int) (env : Env) : Files :=
  let expired := expiredArchives files directory before
  (if env.fails then expired.take env.removed else expired).foldl Files.remove files

/-- Return with an error. The deferred removals run first: that of the partial archive
when `archiving` has begun, and that of the staging directory. -/
def fail (files : Files) (r : Request) (h : Held) (archiving : Bool) (error : RunError) :
    Files × Phase :=
  let files := if archiving then files.remove (r.archivePartial h) else files
  (files.remove (r.staging h), .ended (some h) (.error error))

/-- One step of a run that holds the lease. -/
def advance (leases : Leases) (files : Files) (env : Env) (r : Request) (h : Held) :
    Stage → Files × Phase
  | .leased =>
      if env.fails || files.holds (r.staging h) then
        (files, .ended (some h) (.error .filesystem))
      else
        (files.write ⟨r.staging h, env.hostTime, .staging none none⟩, .holding h .staged)
  | .staged =>
      if env.fails then fail files r h false .dumpSchema
      else
        (files.write ⟨r.staging h, env.hostTime, .staging (some env.written) none⟩,
          .holding h .dumped)
  | .dumped =>
      if env.fails then fail files r h false .filesystem
      else
        (files.write
          ⟨r.staging h, env.hostTime, .staging (files.dump (r.staging h)) (some (r.manifest h))⟩,
          .holding h .described)
  | .described =>
      if env.fails then fail files r h false .leaseCheck
      else if leaseIsCurrent leases.table "daily_backup" r.replicaId h.lease.fencingToken
          leases.clock then
        (files, .holding { h with passed := h.passed + 1 } .checked)
      else fail files r h false (.leaseLost "backup lease was lost before publication")
  | .checked =>
      if env.fails || files.holds (r.archivePartial h) then
        fail files r h true .filesystem
      else
        (files.write ⟨r.archivePartial h, env.hostTime, .archive env.written⟩,
          .holding h .archived)
  | .archived =>
      if env.fails then fail files r h true .leaseCheck
      else if leaseIsCurrent leases.table "daily_backup" r.replicaId h.lease.fencingToken
          leases.clock then
        (files, .holding { h with passed := h.passed + 1 } (.cleared leases.granted.length))
      else fail files r h true (.leaseLost "backup lease was lost before final publication")
  | .cleared _ =>
      if env.fails then fail files r h true .filesystem
      else (files.rename (r.archivePartial h) (r.final h), .holding h .renamed)
  | .renamed =>
      let before := h.now - r.retentionDays * seconds 86400
      let pruned := prune files r.outputDirectory before env
      let result := if env.fails then .error .filesystem else .ok (r.final h)
      ((pruned.remove (r.archivePartial h)).remove (r.staging h), .ended (some h) result)

/-- An archive that got its final name: by which replica, where its acquisition stands in
the history, how many acquisitions its second check saw, and how many there were at the
rename. -/
structure Publication where
  replicaId : String
  obtained : Nat
  seen : Nat
  renamedAt : Nat
deriving DecidableEq

structure World where
  leases : Leases
  files : Files
  runs : List Run
  published : List Publication

inductive Action where
  | leases (step : LeaseStep)
  | start (request : Request)
  | acquire (index : Nat) (env : Env)
  | advance (index : Nat) (env : Env)
  | stop (index : Nat)

/-- `Acquire(ctx, "daily_backup", request.ReplicaID, 30*time.Minute)` and the reading of
the host's time after it. -/
def World.acquire (w : World) (index : Nat) (env : Env) (r : Request) (vNow : Int) : World :=
  match leaserAcquire w.leases.table "daily_backup" r.replicaId (seconds 1800) vNow with
  | .error e => { w with runs := w.runs.set index ⟨r, .ended none (.error (.acquireBackupLease e))⟩ }
  | .ok (table, lease) =>
      let grant : Grant :=
        ⟨⟨"daily_backup", r.replicaId, 1800, vNow⟩, w.leases.table.find "daily_backup", lease⟩
      let held : Held := ⟨lease, w.leases.granted.length, env.hostTime, 0⟩
      ⟨⟨w.leases.clock, table, w.leases.granted ++ [grant]⟩, w.files,
        w.runs.set index ⟨r, .holding held .leased⟩, w.published⟩

/-- The publication a step makes, if it makes one. -/
def publication (leases : Leases) (env : Env) (r : Request) (h : Held) : Stage → List Publication
  | .cleared seen =>
      if env.fails then [] else [⟨r.replicaId, h.obtained, seen, leases.granted.length⟩]
  | _ => []

def World.step (w : World) : Action → Option World
  | .leases a => (w.leases.step a).map fun leases => { w with leases := leases }
  | .start r =>
      let phase := match r.validate with
        | .error e => .ended none (.error e)
        | .ok _ => .acquiring w.leases.clock
      some { w with runs := w.runs ++ [⟨r, phase⟩] }
  | .acquire index env =>
      match w.runs[index]? with
      | some ⟨r, .acquiring vNow⟩ =>
          if env.fails then
            let ended : Run := ⟨r, .ended none (.error (.acquireBackupLease (.database .connection)))⟩
            some { w with runs := w.runs.set index ended }
          else some (w.acquire index env r vNow)
      | _ => none
  | .advance index env =>
      match w.runs[index]? with
      | some ⟨r, .holding h stage⟩ =>
          let next := advance w.leases w.files env r h stage
          some ⟨w.leases, next.1, w.runs.set index ⟨r, next.2⟩,
            w.published ++ publication w.leases env r h stage⟩
      | _ => none
  | .stop index =>
      match w.runs[index]? with
      | some ⟨r, .acquiring _⟩ => some { w with runs := w.runs.set index ⟨r, .stopped none⟩ }
      | some ⟨r, .holding h _⟩ => some { w with runs := w.runs.set index ⟨r, .stopped (some h)⟩ }
      | _ => none

def World.run : World → List Action → Option World := Machine.run World.step

/-- No acquisition and no run yet. -/
def World.init (clock : Int) : World := ⟨⟨clock, LeaseTable.empty, []⟩, [], [], []⟩

end NodeScope.Backup
