import NodeScope.Telemetry.PostgresStore
import NodeScope.Telemetry.Wire

/-!
# The ingestion endpoints of the server

`handleIngest` and `handleIngestPreflight` with the checks in the source's order, the
status of every answer and the titles of the problems.

## Implementation notes

A header is the bytes of its value, empty when it is absent. The decoder of the
development form of a submission, JSON, is a parameter: it is given the readable part
of the body and whether the body was cut at the limit.
-/

namespace NodeScope.App

open Storage Lib Lib.Check Lib.Text Telemetry

structure Config where
  replicaID : String
  allowJSONIngest : Bool

def buildVersion : String := "0.1.0-dev"

structure Server where
  config : Config
  ingestorConfigured : Bool
  codec : Codec
  decodeJSON : List UInt8 → Bool → Option Envelope

structure Request where
  contentType : List UInt8
  contentEncoding : List UInt8
  authorization : List UInt8
  body : List UInt8

/-- The clocks a request meets: the store's, the database's at the start of the
transaction, and the server's when it answers. -/
structure Clocks where
  store : Int
  database : Int
  reply : Int

inductive Response where
  | problem (status : Nat) (title : String)
  | receipt (inserted : Bool) (idempotencyKey : String) (observedAt : Int)
  | authenticated (identity : AgentIdentity) (replicaID version : String) (observedAt : Int)
deriving DecidableEq

def Response.status : Response → Nat
  | .problem status _ => status
  | .receipt inserted _ _ => if inserted then 202 else 200
  | .authenticated _ _ _ _ => 200

/-- Go's `strings.CutPrefix`. -/
def cutPrefix (s start : List UInt8) : Option (List UInt8) :=
  if start.isPrefixOf s then some (s.drop start.length) else none

/-- The token of the header `Authorization`, unless it is blank. -/
def bearerToken (r : Request) : Option (List UInt8) :=
  match cutPrefix r.authorization (utf8 "Bearer ") with
  | some token => if blank token then none else some token
  | none => none

def isJSON (r : Request) : Bool := (utf8 "application/json").isPrefixOf r.contentType

def isProtobuf (r : Request) : Bool :=
  (utf8 "application/x-protobuf").isPrefixOf r.contentType && equalFold r.contentEncoding "zstd"

/-- The envelope of a request body. At most `maxUncompressedBytes` of it are read. -/
def readEnvelope (server : Server) (r : Request) : Option Envelope :=
  if isProtobuf r then
    if maxUncompressedBytes < r.body.length then none
    else (decodeCompressedEnvelope server.codec r.body).toOption
  else
    server.decodeJSON (r.body.take maxUncompressedBytes) (maxUncompressedBytes < r.body.length)

/-- What a submission must have before the store is asked: the token and the envelope. -/
def readSubmission (server : Server) (r : Request) :
    Except Response (List UInt8 × Envelope) := do
  failIf (!server.ingestorConfigured) (.problem 503 "ingestion is not configured")
  failIf (!isProtobuf r && !(isJSON r && server.config.allowJSONIngest))
    (.problem 415 "ingestion requires application/x-protobuf with zstd content encoding")
  let token ← orFail (bearerToken r) (.problem 401 "agent credential is required")
  let envelope ← orFail (readEnvelope server r) (.problem 400 "invalid telemetry submission")
  .ok (token, envelope)

/-- The answer to the outcome of `PersistEnvelope`. -/
def answer (envelope : Envelope) (observedAt : Int) : Except PersistError PersistResult → Response
  | .ok receipt => .receipt receipt.inserted envelope.idempotencyKey observedAt
  | .error _ => .problem 400 "telemetry submission was rejected"

def handleIngest (server : Server) (fails : StorePoint → Bool) (db : Db) (clocks : Clocks)
    (r : Request) : Response × Db :=
  match readSubmission server r with
  | .error response => (response, db)
  | .ok (token, envelope) =>
      match authenticateAgent fails db token with
      | .error _ => (.problem 401 "agent credential is invalid", db)
      | .ok identity =>
          let (result, db') := persistEnvelope fails db
            ⟨identity, envelope, clocks.store, clocks.database, db.capacityStatus⟩
          (answer envelope clocks.reply result, db')

/-- The credential check of the preflight endpoint, which ends at the first problem. -/
def preflightIdentity (server : Server) (fails : StorePoint → Bool) (db : Db) (r : Request) :
    Except Response AgentIdentity := do
  failIf (!server.ingestorConfigured) (.problem 503 "ingestion is not configured")
  let token ← orFail (bearerToken r) (.problem 401 "agent credential is required")
  (authenticateAgent fails db token).mapError fun _ => .problem 401 "agent credential is invalid"

def handleIngestPreflight (server : Server) (fails : StorePoint → Bool) (db : Db)
    (clocks : Clocks) (r : Request) : Response :=
  match preflightIdentity server fails db r with
  | .error response => response
  | .ok identity => .authenticated identity server.config.replicaID buildVersion clocks.reply

/-- A submission that reaches the store has a token and an envelope. -/
theorem readSubmission_eq_ok {server : Server} {r : Request} {token : List UInt8}
    {envelope : Envelope} (h : readSubmission server r = .ok (token, envelope)) :
    bearerToken r = some token ∧ readEnvelope server r = some envelope := by
  simp only [readSubmission, unit_bind_eq_ok, orFail_bind_eq_ok, Except.ok.injEq,
    Prod.mk.injEq] at h
  obtain ⟨-, -, _, htoken, _, henvelope, rfl, rfl⟩ := h
  exact ⟨htoken, henvelope⟩

/-- Every refusal before the store is asked is an error status. -/
theorem readSubmission_error_status {server : Server} {r : Request} {response : Response}
    (h : readSubmission server r = .error response) : 400 ≤ response.status := by
  simp only [readSubmission, bind_eq_error, failIf_eq_error, orFail_eq_error] at h
  rcases h with ⟨-, rfl⟩ | ⟨-, -, ⟨-, rfl⟩ | ⟨-, -, ⟨-, rfl⟩ | ⟨_, -, ⟨-, rfl⟩ | ⟨_, -, h⟩⟩⟩⟩
  · decide
  · decide
  · decide
  · decide
  · exact absurd h (by simp)

theorem preflightIdentity_error_status {server : Server} {fails : StorePoint → Bool} {db : Db}
    {r : Request} {response : Response}
    (h : preflightIdentity server fails db r = .error response) : 400 ≤ response.status := by
  simp only [preflightIdentity, bind_eq_error, failIf_eq_error, orFail_eq_error,
    mapError_eq_error] at h
  rcases h with ⟨-, rfl⟩ | ⟨-, -, ⟨-, rfl⟩ | ⟨_, -, _, -, rfl⟩⟩
  · decide
  · decide
  · decide

/-- A preflight request succeeds exactly with a token that authenticates. -/
theorem handleIngestPreflight_success {server : Server} {fails : StorePoint → Bool} {db : Db}
    {clocks : Clocks} {r : Request} :
    (handleIngestPreflight server fails db clocks r).status = 200 ↔
      server.ingestorConfigured = true ∧ ∃ token, bearerToken r = some token ∧
        ∃ identity, authenticateAgent fails db token = .ok identity := by
  have hidentity : ∀ identity, preflightIdentity server fails db r = .ok identity ↔
      server.ingestorConfigured = true ∧ ∃ token, bearerToken r = some token ∧
        authenticateAgent fails db token = .ok identity := by
    intro identity
    simp only [preflightIdentity, unit_bind_eq_ok, failIf_eq_ok, Bool.not_eq_false',
      orFail_bind_eq_ok, mapError_eq_ok]
  rw [handleIngestPreflight]
  cases h : preflightIdentity server fails db r with
  | error response =>
      have herror := preflightIdentity_error_status h
      constructor
      · intro hstatus
        simp only at hstatus
        omega
      · rintro ⟨hconfigured, token, htoken, identity, hauth⟩
        rw [(hidentity identity).mpr ⟨hconfigured, token, htoken, hauth⟩] at h
        exact absurd h (by simp)
  | ok identity =>
      obtain ⟨hconfigured, token, htoken, hauth⟩ := (hidentity identity).mp h
      exact ⟨fun _ => ⟨hconfigured, token, htoken, identity, hauth⟩, fun _ => rfl⟩

/-- A submission that is taken was read, authenticated and persisted. -/
theorem handleIngest_success {server : Server} {fails : StorePoint → Bool} {db db' : Db}
    {clocks : Clocks} {r : Request} {response : Response}
    (h : handleIngest server fails db clocks r = (response, db'))
    (hstatus : response.status < 300) :
    ∃ token identity envelope receipt, readSubmission server r = .ok (token, envelope) ∧
      authenticateAgent fails db token = .ok identity ∧
      persistEnvelope fails db ⟨identity, envelope, clocks.store, clocks.database,
        db.capacityStatus⟩ = (.ok receipt, db') ∧
      response = .receipt receipt.inserted envelope.idempotencyKey clocks.reply := by
  rw [handleIngest] at h
  cases hread : readSubmission server r with
  | error problem =>
      rw [hread] at h
      obtain ⟨rfl, -⟩ := Prod.mk.inj h
      exact absurd (readSubmission_error_status hread) (by omega)
  | ok submission =>
      obtain ⟨token, envelope⟩ := submission
      rw [hread] at h
      cases hauth : authenticateAgent fails db token with
      | error e =>
          simp only [hauth] at h
          obtain ⟨rfl, -⟩ := Prod.mk.inj h
          exact absurd hstatus (by decide)
      | ok identity =>
          simp only [hauth] at h
          cases hpersist : persistEnvelope fails db ⟨identity, envelope, clocks.store,
              clocks.database, db.capacityStatus⟩ with
          | mk result after =>
              rw [hpersist] at h
              cases result with
              | error e =>
                  obtain ⟨rfl, -⟩ := Prod.mk.inj h
                  exact absurd hstatus (by simp [answer, Response.status])
              | ok receipt =>
                  obtain ⟨rfl, rfl⟩ := Prod.mk.inj h
                  exact ⟨token, identity, envelope, receipt, rfl, hauth, hpersist, rfl⟩

end NodeScope.App
