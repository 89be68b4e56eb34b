import NodeScope.Agent.Sender
import NodeScope.Telemetry.StoreEffect
import NodeScope.Telemetry.WireRoundTrip

/-!
# A store that fails behind the ingestion endpoint

The handler answers an error of the store with 401 or 400, whatever its cause, and the
agent gives up on both statuses. So a database that is unreachable at any point of a
valid submission makes the agent drop the envelope at the first endpoint it asks.
-/

namespace NodeScope.Ingest

open Storage Lib Lib.Check Lib.Text Telemetry App Agent

/-- The connection to the database is lost at one point. -/
def failsAt (p : StorePoint) : StorePoint → Bool := fun q => q == p

/-- The points at which a submission that passes its checks meets the database. -/
def storePoints (db : Db) (c : Call) : List StorePoint :=
  [.lookup, .begin, .lock, .idempotency] ++
    if keyReceived db c.envelope.idempotencyKey then []
    else [.capacity] ++
      (List.range (writes c (acceptRawBatches db)).length).map .write ++ [.commit]

/-- A write that is lost ends the loop, unless an earlier one has. -/
theorem runWrites_lost {fails : StorePoint → Bool} (c : Call) {j : Nat}
    (hlost : fails (.write j) = true) (ws : List Write) {i : Nat} (db : Db) (hi : i ≤ j)
    (hj : j < i + ws.length) : ∃ e, runWrites fails c i ws db = .error e := by
  induction ws generalizing i db with
  | nil => exact absurd hj (by simp; omega)
  | cons w rest ih =>
      rw [runWrites]
      cases hexec : w.exec (fails (.write i)) db c with
      | error e => exact ⟨e, rfl⟩
      | ok p =>
          by_cases hij : i = j
          · subst hij
            rw [hlost] at hexec
            exact absurd (Write.exec_not_lost hexec) (by simp)
          · rw [ok_bind]
            exact ih _ (by omega) (by simp only [List.length_cons] at hj; omega)

/-- Wherever the connection is lost in it, the transaction fails. -/
theorem transaction_failsAt {db : Db} {c : Call} {p : StorePoint} (hp : p ∈ storePoints db c)
    (hlookup : p ≠ .lookup) : ∃ e, transaction (failsAt p) db c = .error e := by
  cases h : transaction (failsAt p) db c with
  | error e => exact ⟨e, rfl⟩
  | ok result =>
      exfalso
      simp only [transaction, lockKey, unit_bind_eq_ok, failIf_eq_ok, failsAt,
        beq_eq_false_iff_ne] at h
      obtain ⟨-, hbegin, ⟨hlock, -⟩, hidempotency, h⟩ := h
      simp only [storePoints, List.mem_append, List.mem_cons, List.not_mem_nil, or_false, hlookup,
        hbegin.symm, hlock.symm, hidempotency.symm, false_or] at hp
      cases hk : keyReceived db c.envelope.idempotencyKey with
      | true => simp [hk] at hp
      | false =>
          simp only [hk, Bool.false_eq_true, if_false, unit_bind_eq_ok, failIf_eq_ok,
            beq_eq_false_iff_ne] at h
          obtain ⟨hcapacity, h⟩ := h
          rw [bind_eq_ok] at h
          obtain ⟨db', hrun, h⟩ := h
          simp only [unit_bind_eq_ok, failIf_eq_ok, beq_eq_false_iff_ne] at h
          simp only [hk, Bool.false_eq_true, if_false, List.mem_append, List.mem_singleton,
            hcapacity.symm, h.1.symm, false_or, or_false, List.mem_map, List.mem_range] at hp
          obtain ⟨j, hj, rfl⟩ := hp
          have hlost : failsAt (.write j) (.write j) = true := by simp [failsAt]
          obtain ⟨e, he⟩ := runWrites_lost c hlost (writes c (acceptRawBatches db)) db
            (Nat.zero_le j) (by omega)
          exact absurd (hrun.symm.trans he) (by simp)

/-- A valid envelope on its way from an agent with a valid credential: it was encoded,
it names the agent and the host of the credential, and its times are accepted. -/
structure ValidDelivery (server : Server) (db : Db) (clocks : Clocks) (sender : Sender)
    (e : Envelope) (payload : List UInt8) (row : AgentRow) : Prop where
  configured : server.ingestorConfigured = true
  codec : server.codec.Faithful
  encodes : encodeCompressedEnvelope server.codec e = .ok payload
  inRange : e.InUnixNanoRange
  credential : blank sender.credential = false
  known : credentialRow db sender.credential = some row
  agent : e.agentID = row.id.toText
  host : e.hostID = row.hostId.toText
  times : e.validateReceiptTimes clocks.store = .ok ()

/-- The call the handler makes for an envelope of the agent. -/
def agentCall (db : Db) (clocks : Clocks) (e : Envelope) (row : AgentRow) : Call :=
  ⟨⟨row.id.toText, row.hostId.toText⟩, e, clocks.store, clocks.database, db.capacityStatus⟩

section Delivery

variable {server : Server} {db : Db} {clocks : Clocks} {sender : Sender} {e : Envelope}
  {payload : List UInt8} {row : AgentRow}

/-- The server reads the envelope back, with the derived fields of the payload. -/
theorem ValidDelivery.readSubmission (h : ValidDelivery server db clocks sender e payload row) :
    ∃ m, App.readSubmission server (ingestRequest sender payload) =
      .ok (sender.credential, e.withDerived m) := by
  obtain ⟨hvalid, m, raw, -, hwire⟩ := encodeCompressedEnvelope_eq_ok h.encodes
  obtain ⟨-, hdecode⟩ := hwire.decode h.codec hvalid h.inRange
  have hlength : payload.length ≤ maxUncompressedBytes :=
    hwire.bound.trans (by decide)
  refine ⟨m, ?_⟩
  have hread : readEnvelope server (ingestRequest sender payload) = some (e.withDerived m) := by
    rw [readEnvelope, if_pos (isProtobuf_ingestRequest sender payload), ingestRequest,
      if_neg (not_lt.mpr hlength)]
    exact toOption_eq_some.mpr hdecode
  have htoken : bearerToken (ingestRequest sender payload) = some sender.credential := by
    rw [bearerToken_ingestRequest, h.credential]
    rfl
  simp only [App.readSubmission, h.configured, isProtobuf_ingestRequest, hread, htoken, orFail]
  rfl

theorem ValidDelivery.authenticateAgent (h : ValidDelivery server db clocks sender e payload row)
    {fails : StorePoint → Bool} (hlookup : fails .lookup = false) :
    Telemetry.authenticateAgent fails db sender.credential =
      .ok ⟨row.id.toText, row.hostId.toText⟩ := by
  have hne : sender.credential ≠ [] := by
    intro hnil
    have hblank := h.credential
    rw [hnil, show ([] : List UInt8) = utf8 "" by rfl, blank, ofUtf8_utf8] at hblank
    exact absurd hblank (by decide)
  simp [Telemetry.authenticateAgent, hne, hlookup, h.known, failIf]

/-- Whichever point of the store fails, the answer blames the submission. -/
theorem ValidDelivery.status_failsAt (h : ValidDelivery server db clocks sender e payload row)
    {p : StorePoint} (hp : p ∈ storePoints db (agentCall db clocks e row)) :
    (handleIngest server (failsAt p) db clocks (ingestRequest sender payload)).1.status =
      if p = .lookup then 401 else 400 := by
  obtain ⟨m, hread⟩ := h.readSubmission
  rw [handleIngest, hread]
  by_cases hlookup : p = .lookup
  · subst hlookup
    have hauth : ∃ error, Telemetry.authenticateAgent (failsAt .lookup) db sender.credential =
        .error error := by
      cases hnil : sender.credential == [] <;>
        simp [Telemetry.authenticateAgent, failsAt, failIf, hnil]
    obtain ⟨error, herror⟩ := hauth
    simp only [herror, Response.status, if_true]
  · have hfails : failsAt p .lookup = false := by simp [failsAt, Ne.symm hlookup]
    have hauth := h.authenticateAgent hfails
    obtain ⟨error, herror⟩ := transaction_failsAt
      (show p ∈ storePoints db (agentCall db clocks (e.withDerived m) row) from hp) hlookup
    simp only [hauth, persistEnvelope]
    rw [show transaction (failsAt p) db ⟨⟨row.id.toText, row.hostId.toText⟩, e.withDerived m,
      clocks.store, clocks.database, db.capacityStatus⟩ = .error error from herror]
    simp [answer, Response.status, hlookup]

variable (sender payload) in
/-- `Send` takes a status as transient: it goes on to the endpoints that are left, and
with none left its error can be retried. -/
def TakenAsTransient (code : Nat) : Prop :=
  ∀ circuits now endpoint rest failures, ∃ failures',
    (receive sender circuits now (.status code) (.asking payload endpoint rest failures)).1 =
      .choosing payload rest failures'

/-- A status the agent takes as permanent ends both loops at once. -/
theorem receive_permanent {code : Nat} (h : permanentStatus code = true) (circuits : Circuits)
    (now : Int) (endpoint : String) (rest failures : List String) :
    receive sender circuits now (.status code) (.asking payload endpoint rest failures) =
      (.returned (some ⟨"ingestion rejected", false, code⟩), circuits) := by
  have hsuccess : successStatus code = false := by
    simp only [permanentStatus, Bool.and_eq_true, decide_eq_true_eq] at h
    simp only [successStatus, Bool.and_eq_false_imp, decide_eq_true_eq, decide_eq_false_iff_not]
    omega
  simp [receive, hsuccess, h]

theorem not_takenAsTransient {code : Nat} (h : permanentStatus code = true) :
    ¬ TakenAsTransient sender payload code := by
  intro htransient
  obtain ⟨failures', hgoes⟩ := htransient Circuits.initial 0 "" [] []
  rw [receive_permanent h] at hgoes
  exact absurd hgoes (by simp)

/-- No failure of the store is taken as transient: at every point of a valid delivery
the answer is 401 or 400, `Send` returns without asking another endpoint, and
`sendWithRetry` drops the envelope, at whatever attempt it is. -/
theorem store_failure_is_permanent (h : ValidDelivery server db clocks sender e payload row)
    {p : StorePoint} (hp : p ∈ storePoints db (agentCall db clocks e row)) :
    let code := (handleIngest server (failsAt p) db clocks (ingestRequest sender payload)).1.status
    code = (if p = .lookup then 401 else 400) ∧
    ¬ TakenAsTransient sender payload code ∧
    (∀ circuits now endpoint rest failures,
      receive sender circuits now (.status code) (.asking payload endpoint rest failures) =
        (.returned (some ⟨"ingestion rejected", false, code⟩), circuits)) ∧
    ∀ policy attempt,
      settle policy (.sending attempt (.returned (some ⟨"ingestion rejected", false, code⟩))) =
        .finished (some (.delivery ⟨"ingestion rejected", false, code⟩)) := by
  intro code
  have hcode : code = if p = .lookup then 401 else 400 := h.status_failsAt hp
  have hpermanent : permanentStatus code = true := by
    rw [hcode]
    by_cases hlookup : p = .lookup <;> simp [hlookup, permanentStatus]
  refine ⟨hcode, not_takenAsTransient hpermanent, ?_, ?_⟩
  · intro circuits now endpoint rest failures
    exact receive_permanent hpermanent circuits now endpoint rest failures
  · intro policy attempt
    simp [settle, isRetryable]

end Delivery

/-- A replica, an enrolled agent and a reading it sends. -/
def replica : Server := ⟨⟨"replica-1", false⟩, true, Proto.storedCodec, fun _ _ => none⟩

def enrolledRow : AgentRow :=
  ⟨Uuid.ofByte 2, Uuid.ofByte 1, "Node native agent", (Sha256.sha256 (utf8 "secret")).toList,
    "1234", 0, none, 1, none⟩

def enrolledDb : Db :=
  { Db.empty with
    hosts := [⟨Uuid.ofByte 1, "node", "Node", "linux", none⟩]
    agents := [enrolledRow] }

def twoEndpoints : Sender := ⟨["https://one", "https://two"], utf8 "secret", 3, Time.seconds 30⟩

def reading : Envelope :=
  .draft (Uuid.ofByte 2).toText (Uuid.ofByte 1).toText "b" 1 (Time.seconds 10)
    [⟨"d", ⟨"m", "u", some ⟨0⟩, .fresh, "s", "t", Time.seconds 10⟩⟩] []

def readingClocks : Clocks := ⟨Time.seconds 100, Time.sqlSeconds 100, Time.seconds 100⟩

theorem reading_delivery :
    ∃ payload, ValidDelivery replica enrolledDb readingClocks twoEndpoints reading payload
      enrolledRow := by
  have hencodes : (encodeCompressedEnvelope Proto.storedCodec reading).toOption.isSome = true := by
    decide +kernel
  obtain ⟨payload, hpayload⟩ := Option.isSome_iff_exists.mp hencodes
  refine ⟨payload, rfl, Proto.storedCodec_faithful, toOption_eq_some.mp hpayload, ?_, ?_, ?_, rfl,
    rfl, by decide⟩
  · exact ⟨by decide, by decide⟩
  · rw [twoEndpoints, blank, ofUtf8_utf8]
    decide
  · decide +kernel

/-- A commit that loses its connection makes the agent drop the reading. -/
theorem reading_dropped_at_commit :
    ∃ payload, ValidDelivery replica enrolledDb readingClocks twoEndpoints reading payload
        enrolledRow ∧
      ¬ TakenAsTransient twoEndpoints payload
        (handleIngest replica (failsAt .commit) enrolledDb readingClocks
          (ingestRequest twoEndpoints payload)).1.status := by
  obtain ⟨payload, h⟩ := reading_delivery
  have hp : StorePoint.commit ∈ storePoints enrolledDb
      (agentCall enrolledDb readingClocks reading enrolledRow) := by
    have hkey : keyReceived enrolledDb reading.idempotencyKey = false := rfl
    simp [storePoints, agentCall, hkey]
  exact ⟨payload, h, (store_failure_is_permanent h hp).2.1⟩

/-- A credential lookup that loses its connection ends in 401, and the second endpoint
is never asked. -/
theorem reading_dropped_at_lookup :
    ∃ payload, ValidDelivery replica enrolledDb readingClocks twoEndpoints reading payload
        enrolledRow ∧
      (handleIngest replica (failsAt .lookup) enrolledDb readingClocks
        (ingestRequest twoEndpoints payload)).1.status = 401 ∧
      ¬ TakenAsTransient twoEndpoints payload
        (handleIngest replica (failsAt .lookup) enrolledDb readingClocks
          (ingestRequest twoEndpoints payload)).1.status := by
  obtain ⟨payload, h⟩ := reading_delivery
  have hstatus : (handleIngest replica (failsAt .lookup) enrolledDb readingClocks
      (ingestRequest twoEndpoints payload)).1.status = 401 :=
    h.status_failsAt (by simp [storePoints])
  refine ⟨payload, h, hstatus, ?_⟩
  rw [hstatus]
  exact not_takenAsTransient (by decide)

end NodeScope.Ingest
