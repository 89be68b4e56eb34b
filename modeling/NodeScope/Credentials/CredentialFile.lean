import Mathlib.Logic.Function.Basic
import NodeScope.Credentials.Enrollment
import NodeScope.Telemetry.Wire

/-!
# The credential file of an enrollment

`Enroll` writes a new token to a file and has the database store the digest of the token; a
deferred call removes the file unless the answer of the database arrives. The file and the table
are changed without a common commit. `enroll_inStep_iff` says for which failures they stay in step
all the same: a file that was written is neither left behind by a failed `Sync`, nor removed after
a call that the database accepted and whose answer is lost.

## Implementation notes

A file system gives what a path holds. Directories are not modelled, so that `MkdirAll` either
fails or does nothing. The labels of the empty fields are kept all together, since Go reports any
one of them. `$4::inet` is a parameter that takes a text to the text of its address.
-/

namespace NodeScope.Credentials

open Storage Lib Lib.Check Lib.Text Telemetry

abbrev Files : Type := List UInt8 → Option (List UInt8)

/-- `os.Remove` with its error ignored. -/
def Files.remove (path : List UInt8) (files : Files) : Files := Function.update files path none

structure Request where
  slug : List UInt8
  displayName : List UInt8
  platform : List UInt8
  address : List UInt8
  credentialPath : List UInt8
  expiresAt : Int
deriving DecidableEq

/-- The errors of the call of the database. -/
inductive CallError where
  | connection
  | invalidEncoding
  | invalidAddress
  | raised (cause : EnrollError)
deriving DecidableEq

inductive EnrollFailure where
  | poolRequired
  | required (labels : List String)
  | expiryTooSoon
  | generateCredential
  | createDirectory
  | createOutput
  | writeCredential
  | syncCredential
  | enroll (cause : CallError)
deriving DecidableEq

def Request.labelled (request : Request) : List (String × List UInt8) :=
  [("host slug", request.slug), ("display name", request.displayName),
    ("platform", request.platform), ("host address", request.address),
    ("credential output", request.credentialPath)]

def Request.validate (request : Request) (now : Int) : Except EnrollFailure Unit := do
  let empty := request.labelled.filter fun field => blank field.2
  failIf (!empty.isEmpty) (.required (empty.map Prod.fst))
  failIf (Time.isZero request.expiresAt || request.expiresAt ≤ now + Time.seconds 60)
    .expiryTooSoon

structure NewCredential where
  credential : List UInt8
  hint : String
  digest : Sha256.Digest
deriving DecidableEq

/-- The random source gives 32 bytes, or fails. -/
def newCredential (random : Option (Vector UInt8 32)) : Except EnrollFailure NewCredential := do
  let bytes ← orFail random .generateCredential
  let credential := utf8 (hexEncode bytes.toList)
  let digest := Sha256.sha256 credential
  .ok ⟨credential, hexEncode (digest.toList.take 4), digest⟩

/-- The operations on the file that fail. A write that fails has taken some bytes. -/
structure FileFailures where
  mkdirAll : Bool
  openFile : Bool
  write : Option Nat
  sync : Bool
deriving DecidableEq

def credentialLine (credential : List UInt8) : List UInt8 := credential ++ utf8 "\n"

def writeCredentialFile (fails : FileFailures) (path credential : List UInt8) (files : Files) :
    Except EnrollFailure Unit × Files :=
  if fails.mkdirAll then (.error .createDirectory, files)
  else if fails.openFile || (files path).isSome then (.error .createOutput, files)
  else
    match fails.write with
    | some n =>
        let cut := (credentialLine credential).take n
        (.error .writeCredential, Files.remove path (Function.update files path (some cut)))
    | none =>
        let written := Function.update files path (some (credentialLine credential))
        if fails.sync then (.error .syncCredential, written) else (.ok (), written)

inductive CallFault where
  | none
  | beforeCommit
  | replyLost
deriving DecidableEq

/-- A session with the database: its tables, what a call draws from it, and what happens to the
call. -/
structure Session where
  db : Db
  now : Int
  sessionUser : String
  freshHostId : Uuid
  freshAgentId : Uuid
  inet : String → Option String
  fault : CallFault

/-- The parameters of the statement as the server reads them. -/
def Session.parameters (s : Session) (request : Request) (c : NewCredential) :
    Except CallError EnrollCall := do
  let slug ← orFail (ofUtf8 request.slug) .invalidEncoding
  let displayName ← orFail (ofUtf8 request.displayName) .invalidEncoding
  let platform ← orFail (ofUtf8 request.platform) .invalidEncoding
  let text ← orFail (ofUtf8 request.address) .invalidEncoding
  let address ← orFail (s.inet text) .invalidAddress
  .ok {
    slug := slug
    displayName := displayName
    platform := platform
    address := some address
    credentialDigest := c.digest.toList
    credentialHint := c.hint
    credentialExpiresAt := some (Time.toTimestamp request.expiresAt)
    now := s.now
    sessionUser := s.sessionUser
    freshHostId := s.freshHostId
    freshAgentId := s.freshAgentId }

/-- What the database does with the statement when it gets it. -/
def Session.execute (s : Session) (request : Request) (c : NewCredential) :
    Except CallError (EnrollResult × Db) := do
  let call ← s.parameters request c
  (enrollOrRotateAgent s.db call).mapError .raised

/-- The tables after the call, the digest it committed, and the answer that arrives. -/
structure Answer where
  db : Db
  committed : Option Sha256.Digest
  reply : Except CallError EnrollResult

/-- `QueryRow` and `Scan`. -/
def Session.queryRow (s : Session) (request : Request) (c : NewCredential) : Answer :=
  match s.fault with
  | .beforeCommit => ⟨s.db, none, .error .connection⟩
  | .none =>
      match s.execute request c with
      | .error e => ⟨s.db, none, .error e⟩
      | .ok (result, db) => ⟨db, some c.digest, .ok result⟩
  | .replyLost =>
      match s.execute request c with
      | .error _ => ⟨s.db, none, .error .connection⟩
      | .ok (_, db) => ⟨db, some c.digest, .error .connection⟩

structure Enrolled where
  hostId : String
  agentId : String
  rotationVersion : Int
  credentialPath : List UInt8
  credentialHint : String
  expiresAt : Int
deriving DecidableEq

/-- What a call of `Enroll` returns and leaves: the files, the tables and the digest that the
database committed. -/
structure Enrollment where
  result : Except EnrollFailure Enrolled
  files : Files
  db : Option Db
  committed : Option Sha256.Digest

/-- What `Enroll` finds on the workstation. -/
structure Workstation where
  now : Int
  random : Option (Vector UInt8 32)
  fails : FileFailures
  files : Files

/-- The part of `Enroll` before it touches the file. -/
def drawn (w : Workstation) (request : Request) : Except EnrollFailure NewCredential := do
  request.validate w.now
  newCredential w.random

/-- The part of `Enroll` after the file has been written. -/
def enrollWritten (s : Session) (files : Files) (request : Request) (c : NewCredential) :
    Enrollment :=
  let answer := s.queryRow request c
  match answer.reply with
  | .error cause =>
      ⟨.error (.enroll cause), files.remove request.credentialPath, some answer.db,
        answer.committed⟩
  | .ok row =>
      ⟨.ok ⟨row.hostId.toText, row.agentId.toText, row.rotationVersion, request.credentialPath,
        c.hint, request.expiresAt⟩, files, some answer.db, answer.committed⟩

def enroll (pool : Option Session) (w : Workstation) (request : Request) : Enrollment :=
  match pool with
  | none => ⟨.error .poolRequired, w.files, none, none⟩
  | some s =>
      match drawn w request with
      | .error e => ⟨.error e, w.files, some s.db, none⟩
      | .ok c =>
          match writeCredentialFile w.fails request.credentialPath c.credential w.files with
          | (.error e, files) => ⟨.error e, files, some s.db, none⟩
          | (.ok (), files) => enrollWritten s files request c

/-- The file at the path holds the token of the committed digest; where nothing was committed,
there is no file that was not there before. -/
structure InStep (path : List UInt8) (before : Files) (e : Enrollment) : Prop where
  held : ∀ digest, e.committed = some digest →
    ∃ token, e.files path = some (credentialLine token) ∧ Sha256.sha256 token = digest
  gone : e.committed = none → ∀ other, before other = none → e.files other = none

/-- The file of a call is created and takes the whole line. -/
def written (w : Workstation) (request : Request) : Bool :=
  !w.fails.mkdirAll && !w.fails.openFile && (w.files request.credentialPath).isNone &&
    w.fails.write.isNone

/-- The database accepts the call, and its answer is lost. -/
def acceptedUnheard (s : Session) (request : Request) (c : NewCredential) : Bool :=
  s.fault == .replyLost && (s.execute request c).isOk

/-- A call whose file is written and then either left behind or missing. -/
def parts (pool : Option Session) (w : Workstation) (request : Request) : Bool :=
  pool.any fun s =>
    match drawn w request with
    | .error _ => false
    | .ok c => written w request && (w.fails.sync || acceptedUnheard s request c)

section Steps

variable {s : Session} {w : Workstation} {request : Request} {c : NewCredential}

theorem newCredential_digest {random : Option (Vector UInt8 32)}
    (h : newCredential random = .ok c) : Sha256.sha256 c.credential = c.digest := by
  rw [newCredential, bind_eq_ok] at h
  obtain ⟨bytes, -, h⟩ := h
  cases h
  rfl

theorem drawn_digest (h : drawn w request = .ok c) : Sha256.sha256 c.credential = c.digest := by
  rw [drawn, unit_bind_eq_ok] at h
  exact newCredential_digest h.2

/-- The file system after the file was written. -/
def withFile (w : Workstation) (request : Request) (c : NewCredential) : Files :=
  Function.update w.files request.credentialPath (some (credentialLine c.credential))

/-- A file that is not written is not left either. -/
theorem writeCredentialFile_unwritten (h : written w request = false) :
    ∃ e, writeCredentialFile w.fails request.credentialPath c.credential w.files =
      (.error e, w.files) := by
  rw [written] at h
  rw [writeCredentialFile]
  cases hdirectory : w.fails.mkdirAll with
  | true => exact ⟨_, rfl⟩
  | false =>
      cases hopen : w.fails.openFile || (w.files request.credentialPath).isSome with
      | true => exact ⟨_, rfl⟩
      | false =>
          rw [Bool.or_eq_false_iff] at hopen
          have hnone : w.files request.credentialPath = none := by simpa using hopen.2
          cases hwrite : w.fails.write with
          | none => simp [hdirectory, hopen.1, hnone, hwrite] at h
          | some n =>
              refine ⟨.writeCredential, ?_⟩
              simp only [Bool.false_eq_true, if_false, Files.remove, Function.update_idem]
              rw [← hnone, Function.update_eq_self]

theorem writeCredentialFile_written (h : written w request = true) :
    writeCredentialFile w.fails request.credentialPath c.credential w.files =
      (if w.fails.sync then .error .syncCredential else .ok (), withFile w request c) := by
  simp only [written, Bool.and_eq_true, Bool.not_eq_true', Option.isNone_iff_eq_none] at h
  obtain ⟨⟨⟨hdirectory, hopen⟩, hnone⟩, hwrite⟩ := h
  simp only [writeCredentialFile, hdirectory, hopen, hnone, hwrite, Bool.false_eq_true, if_false,
    Option.isSome_none, Bool.or_false]
  cases w.fails.sync <;> rfl

theorem files_of_written (h : written w request = true) :
    w.files request.credentialPath = none := by
  simp only [written, Bool.and_eq_true, Option.isNone_iff_eq_none] at h
  exact h.1.2

/-- A call that leaves the files as they were and commits nothing is in step. -/
theorem inStep_unchanged {path : List UInt8} {before : Files} {e : Enrollment}
    (hfiles : e.files = before) (hcommitted : e.committed = none) : InStep path before e := by
  refine ⟨fun digest h => ?_, fun _ other hother => ?_⟩
  · rw [hcommitted] at h
    cases h
  · rw [hfiles, hother]

/-- The file is removed, so that it must not have been committed. -/
theorem remove_withFile (h : written w request = true) :
    (withFile w request c).remove request.credentialPath = w.files := by
  rw [withFile, Files.remove, Function.update_idem, ← files_of_written h, Function.update_eq_self]

theorem enrollWritten_inStep_iff (hwritten : written w request = true)
    (hdigest : Sha256.sha256 c.credential = c.digest) :
    InStep request.credentialPath w.files (enrollWritten s (withFile w request c) request c) ↔
      acceptedUnheard s request c = false := by
  have hheld : withFile w request c request.credentialPath =
      some (credentialLine c.credential) := Function.update_self ..
  rw [enrollWritten, Session.queryRow, acceptedUnheard]
  cases hfault : s.fault with
  | beforeCommit => exact iff_of_true (inStep_unchanged (remove_withFile hwritten) rfl) rfl
  | none =>
      cases hexecute : s.execute request c with
      | error e => exact iff_of_true (inStep_unchanged (remove_withFile hwritten) rfl) rfl
      | ok result =>
          refine iff_of_true ⟨fun digest h => ⟨c.credential, hheld, ?_⟩, fun h => ?_⟩ rfl
          · cases h
            exact hdigest
          · cases h
  | replyLost =>
      cases hexecute : s.execute request c with
      | error e => exact iff_of_true (inStep_unchanged (remove_withFile hwritten) rfl) rfl
      | ok result =>
          refine iff_of_false (fun hstep => ?_) (by simp [Except.isOk, Except.toBool])
          obtain ⟨token, hfile, -⟩ := hstep.held c.digest rfl
          simp [Files.remove] at hfile

/-- The `Sync` that fails leaves the file behind. -/
theorem not_inStep_of_unsynced (hdrawn : drawn w request = .ok c)
    (hwritten : written w request = true) (hsync : w.fails.sync = true) :
    ¬ InStep request.credentialPath w.files (enroll (some s) w request) := by
  intro hstep
  have hcall : enroll (some s) w request =
      ⟨.error .syncCredential, withFile w request c, some s.db, none⟩ := by
    have hfile := writeCredentialFile_written (c := c) hwritten
    simp only [hsync, if_true] at hfile
    simp only [enroll, hdrawn, hfile]
  rw [hcall] at hstep
  have hgone := hstep.gone rfl request.credentialPath (files_of_written hwritten)
  simp [withFile] at hgone

/-- The digest of a call that was committed is that of an agent that is not revoked, and a call
that was not committed leaves the tables alone. -/
theorem queryRow_spec (s : Session) (request : Request) (c : NewCredential) :
    match (s.queryRow request c).committed with
    | none => (s.queryRow request c).db = s.db
    | some digest => digest = c.digest ∧ ∃ a ∈ (s.queryRow request c).db.agents,
        a.credentialDigest = c.digest.toList ∧ a.revokedAt = none := by
  have hstored {result : EnrollResult} {db : Db} (h : s.execute request c = .ok (result, db)) :
      ∃ a ∈ db.agents, a.credentialDigest = c.digest.toList ∧ a.revokedAt = none := by
    rw [Session.execute, bind_eq_ok] at h
    obtain ⟨call, hcall, h⟩ := h
    simp only [Session.parameters, bind_eq_ok] at hcall
    obtain ⟨slug, -, displayName, -, platform, -, text, -, address, -, hcall⟩ := hcall
    obtain ⟨hosts, agent, agents, -, hagent, -, -, -, hagents⟩ :=
      enrollOrRotateAgent_ok (mapError_eq_ok.mp h)
    obtain ⟨-, hdigest, -, hrevoked, hput, -⟩ := upsertAgent_ok hagent
    cases hcall
    refine ⟨agent, ?_, hdigest, hrevoked⟩
    rw [hagents, hput]
    have hfind : Table.find AgentRow.hostId agent.hostId
        (Table.put AgentRow.hostId agent s.db.agents) = some agent := by
      rw [Table.find_put, if_pos rfl]
    exact (Table.mem_of_find hfind).1
  rw [Session.queryRow]
  cases s.fault with
  | beforeCommit => rfl
  | none =>
      cases hexecute : s.execute request c with
      | error e => rfl
      | ok result => exact ⟨rfl, hstored hexecute⟩
  | replyLost =>
      cases hexecute : s.execute request c with
      | error e => rfl
      | ok result => exact ⟨rfl, hstored hexecute⟩

end Steps

/-- The file and the stored digest stay in step, unless the file is written and then either its
`Sync` fails or the answer of the database that accepted the call is lost. -/
theorem enroll_inStep_iff (pool : Option Session) (w : Workstation) (request : Request) :
    InStep request.credentialPath w.files (enroll pool w request) ↔
      parts pool w request = false := by
  rw [parts]
  cases pool with
  | none => exact iff_of_true (inStep_unchanged rfl rfl) rfl
  | some s =>
      simp only [Option.any_some]
      cases hdrawn : drawn w request with
      | error e =>
          refine iff_of_true ?_ rfl
          simp only [enroll, hdrawn]
          exact inStep_unchanged rfl rfl
      | ok c =>
          cases hwritten : written w request with
          | false =>
              obtain ⟨e, hfile⟩ := writeCredentialFile_unwritten (c := c) hwritten
              refine iff_of_true ?_ rfl
              simp only [enroll, hdrawn, hfile]
              exact inStep_unchanged rfl rfl
          | true =>
              cases hsync : w.fails.sync with
              | true => exact iff_of_false (not_inStep_of_unsynced hdrawn hwritten hsync) (by simp)
              | false =>
                  have hfile := writeCredentialFile_written (c := c) hwritten
                  simp only [hsync, Bool.false_eq_true, if_false] at hfile
                  simpa only [enroll, hdrawn, hfile, Bool.true_and, Bool.false_or] using
                    enrollWritten_inStep_iff hwritten (drawn_digest hdrawn)

/-- A request on a workstation where only `Sync` fails. -/
def nodeRequest : Request :=
  ⟨utf8 "node", utf8 "Node", utf8 "linux", utf8 "10.0.0.1", utf8 "/root/token", Time.seconds 1000⟩

def unsynced : Workstation :=
  ⟨0, some (Vector.replicate 32 0), ⟨false, false, none, true⟩, fun _ => none⟩

def emptySession : Session :=
  ⟨Db.empty, 0, "enroller", Uuid.ofByte 1, Uuid.ofByte 2, some, .none⟩

theorem unsynced_not_inStep :
    ¬ InStep nodeRequest.credentialPath unsynced.files
      (enroll (some emptySession) unsynced nodeRequest) := by
  have hvalid : nodeRequest.validate unsynced.now = .ok () := by decide
  have hdrawn : drawn unsynced nodeRequest = newCredential unsynced.random := by
    rw [drawn, hvalid, ok_bind]
  exact not_inStep_of_unsynced hdrawn rfl rfl

end NodeScope.Credentials
