import NodeScope.Agent.Sender
import NodeScope.Credentials.Enrollment
import NodeScope.Telemetry.StoreInvariant

/-!
# Two replicas, one database and an agent

The system in which envelopes are delivered. Any number of requests are served at the
same time by two replicas; each call of `PersistEnvelope` runs its transaction one
statement at a time on the committed database and its own writes, under the advisory
lock on its idempotency key. An agent runs `sendWithRetry` over its endpoints. A step
of the system is taken by one party, and a label says which one and what it met.

## Implementation notes

What the database knows of a transaction (`Stage`) is kept apart from what the caller
knows (`result`). A call whose connection is lost has returned an error while its
transaction may still be open, and a commit under way may take effect before or after
that, or not at all. The hash of the advisory lock is any function of the key. Rows
other transactions are writing are not waited for, which only allows more runs.
-/

namespace NodeScope.Ingest

open Storage Lib Lib.Check Telemetry App Agent

/-- Where the database is with the transaction of a call. -/
inductive Stage where
  | idle
  | begun
  | locked
  | unseen
  | writing (rawRetained : Bool) (own : List Put) (rest : List Write)
  | committing (rawRetained : Bool) (own : List Put)
  | committed (rawRetained : Bool)
  | rolledBack

/-- The transaction holds the lock on its key. -/
def Stage.holds : Stage → Bool
  | .locked => true
  | .unseen => true
  | .writing _ _ _ => true
  | .committing _ _ => true
  | _ => false

/-- The transaction has looked for its key, has not found it, and has not ended. -/
def Stage.pastCheck : Stage → Bool
  | .unseen => true
  | .writing _ _ _ => true
  | .committing _ _ => true
  | _ => false

/-- A call of `PersistEnvelope`, with its result once it has returned. -/
structure Session where
  call : Call
  stage : Stage
  result : Option (Except PersistError PersistResult)

def Session.key (s : Session) : String := s.call.envelope.idempotencyKey

def Session.returns (s : Session) (result : Except PersistError PersistResult) : Session :=
  { s with result := some result }

/-- The next statement is executed and its answer reaches the call. A lock that is
taken blocks, and so does a commit until the database has decided. -/
def Session.next (db : Db) (lockFree : Bool) (s : Session) : Option Session :=
  if s.result.isSome then none
  else match s.stage with
  | .idle =>
      match checkSubmission s.call with
      | .error e => some ({ s with stage := .rolledBack }.returns (.error e))
      | .ok () => some { s with stage := .begun }
  | .begun =>
      if hasNul s.key then some (s.returns (.error (.lock .nulByte)))
      else if lockFree then some { s with stage := .locked }
      else none
  | .locked =>
      if keyReceived db s.key then some (s.returns (.ok ⟨false, false⟩))
      else some { s with stage := .unseen }
  | .unseen =>
      let rawRetained := acceptRawBatches db
      some { s with stage := .writing rawRetained [] (writes s.call rawRetained) }
  | .writing rawRetained own [] => some { s with stage := .committing rawRetained own }
  | .writing rawRetained own (w :: rest) =>
      match w.exec false (db.puts own) s.call with
      | .error e => some (s.returns (.error e))
      | .ok p => some { s with stage := .writing rawRetained (own ++ p.toList) rest }
  | .committing _ _ => none
  | .committed rawRetained => some (s.returns (.ok ⟨true, rawRetained⟩))
  | .rolledBack => none

/-- The error of a call whose connection is lost at the point it has reached. -/
def Session.lostError (db : Db) (s : Session) : PersistError :=
  match s.stage with
  | .idle =>
      match checkSubmission s.call with
      | .error e => e
      | .ok () => .begin .connection
  | .begun => .lock .connection
  | .locked => .idempotency .connection
  | .unseen => .capacity .connection
  | .writing _ own (w :: _) =>
      match w.exec true (db.puts own) s.call with
      | .error e => e
      | .ok _ => .commit .connection
  | _ => .commit .connection

/-- The connection is lost, and the call returns an error. -/
def Session.lose (db : Db) (s : Session) : Option Session :=
  if s.result.isSome then none else some (s.returns (.error (s.lostError db)))

/-- The database ends the transaction: a commit under way takes effect or does not, and
the transaction of a call that has returned is rolled back. -/
def Session.finish (db : Db) (commit : Bool) (s : Session) : Option (Session × Db) :=
  match s.stage with
  | .committing rawRetained own =>
      if commit then some ({ s with stage := .committed rawRetained }, db.puts own)
      else some ({ s with stage := .rolledBack }, db)
  | .committed _ => none
  | _ =>
      if commit || s.result.isNone then none
      else some ({ s with stage := .rolledBack }, db)

/-- A request at a replica: what was read of it, the call made for it, and the answer. -/
structure Handler where
  server : Server
  request : Request
  submission : Option (List UInt8 × Envelope)
  session : Option Session
  response : Option Response

/-- A request arrives. One that cannot be read is answered at once. -/
def Handler.arrive (server : Server) (request : Request) : Handler :=
  match readSubmission server request with
  | .error response => ⟨server, request, none, none, some response⟩
  | .ok submission => ⟨server, request, some submission, none, none⟩

/-- The credential is looked up, and `PersistEnvelope` is called for its identity. -/
def Handler.authenticate (db : Db) (lost : Bool) (store database : Int) (h : Handler) :
    Option Handler :=
  match h.submission, h.session, h.response with
  | some (token, envelope), none, none =>
      match authenticateAgent (fun _ => lost) db token with
      | .error _ => some { h with response := some (.problem 401 "agent credential is invalid") }
      | .ok identity => some { h with
          session := some ⟨⟨identity, envelope, store, database, db.capacityStatus⟩, .idle, none⟩ }
  | _, _, _ => none

/-- The handler answers with the result of its call. -/
def Handler.answer (observedAt : Int) (h : Handler) : Option Handler :=
  match h.session, h.response with
  | some s, none =>
      match s.result with
      | some result =>
          some { h with response := some (App.answer s.call.envelope observedAt result) }
      | none => none
  | _, _ => none

/-- The handler after a step of its call. -/
def Handler.advance (h : Handler) (f : Session → Option Session) : Option Handler :=
  match h.session with
  | some s => (f s).map fun s' => { h with session := some s' }
  | none => none

/-- The agent: the state of its sender, the envelope it delivers, the handler its request
has reached, and what it has sent and seen acknowledged so far. -/
structure AgentState where
  circuits : Circuits
  delivery : Option (Envelope × Delivery)
  flight : Option Nat
  attempts : List (Envelope × Request)
  acknowledged : List Envelope
  delivered : List Envelope

/-- What does not change in a run. -/
structure System where
  codec : Codec
  config : Bool → Config
  decodeJSON : List UInt8 → Bool → Option Envelope
  route : String → Bool
  sender : Sender
  policy : RetryPolicy
  lockHash : String → Int

def System.replica (sys : System) (which : Bool) : Server :=
  ⟨sys.config which, true, sys.codec, sys.decodeJSON⟩

structure State where
  db : Db
  handlers : List Handler
  pruned : List String
  agent : AgentState

def Handler.lock (sys : System) (h : Handler) : Option Int :=
  match h.session with
  | some s => if s.stage.holds then some (sys.lockHash s.key) else none
  | none => none

/-- No other request holds the lock a call waits for. -/
def State.lockFree (sys : System) (s : State) (j : Nat) (key : String) : Bool :=
  (s.handlers.eraseIdx j).all fun h => h.lock sys != some (sys.lockHash key)

/-- Who takes a step, and what it meets. -/
inductive Label where
  | arrive (which : Bool) (request : Request)
  | authenticate (handler : Nat) (lost : Bool) (store database : Int)
  | next (handler : Nat)
  | lose (handler : Nat)
  | finish (handler : Nat) (commit : Bool)
  | answer (handler : Nat) (observedAt : Int)
  | capacity (status : Option Bool)
  | credentials (step : Credentials.Step)
  | prune (dbNow : Int)
  | collect (envelope : Envelope)
  | choose (now : Int)
  | deliver
  | reply (now : Int)
  | noReply (now : Int) (reply : Reply)
  | settle
  | wake (cancelled : Bool)
  | restart

/-- The keys of the batches a pruning deletes. -/
def prunedKeys (db : Db) (dbNow : Int) : List String :=
  (db.telemetryBatches.filter fun b => decide (b.expiresAt ≤ dbNow)).map BatchRow.idempotencyKey

def State.updateHandler (s : State) (j : Nat) (f : Handler → Option Handler) : Option State := do
  let h ← s.handlers[j]?
  let h' ← f h
  some { s with handlers := s.handlers.set j h' }

/-- The end of a transaction, which may change the database. -/
def State.finish (s : State) (j : Nat) (commit : Bool) : Option State := do
  let h ← s.handlers[j]?
  let session ← h.session
  let (session', db') ← session.finish s.db commit
  some { s with
    db := db'
    handlers := s.handlers.set j { h with session := some session' } }

/-- The agent takes the outcome of its request. A `Send` that returns without an error
is noted. -/
def AgentState.receive (sys : System) (now : Int) (reply : Reply) (a : AgentState) :
    Option AgentState :=
  match a.delivery with
  | some (e, .sending attempt (.asking payload endpoint rest failures)) =>
      let (send, circuits) :=
        Agent.receive sys.sender a.circuits now reply (.asking payload endpoint rest failures)
      some { a with
        circuits := circuits
        delivery := some (e, .sending attempt send)
        flight := none
        acknowledged := if send = .returned none then a.acknowledged ++ [e] else a.acknowledged }
  | _ => none

/-- The agent looks at its next endpoint. A request it makes is noted. -/
def AgentState.choose (sys : System) (now : Int) (a : AgentState) : Option AgentState :=
  match a.delivery with
  | some (e, .sending attempt (.choosing payload rest failures)) =>
      let send := Agent.choose a.circuits now (.choosing payload rest failures)
      some { a with
        delivery := some (e, .sending attempt send)
        attempts := match send with
          | .asking payload _ _ _ => a.attempts ++ [(e, ingestRequest sys.sender payload)]
          | _ => a.attempts }
  | _ => none

/-- `Send` has returned to `sendWithRetry`. A delivery that ends without an error is
noted. -/
def AgentState.settle (sys : System) (a : AgentState) : Option AgentState :=
  match a.delivery with
  | some (e, .sending attempt (.returned error)) =>
      let delivery := Agent.settle sys.policy (.sending attempt (.returned error))
      some { a with
        delivery := some (e, delivery)
        delivered := if delivery = .finished none then a.delivered ++ [e] else a.delivered }
  | _ => none

def AgentState.wake (sys : System) (cancelled : Bool) (a : AgentState) : Option AgentState :=
  match a.delivery with
  | some (e, .sleeping attempt lastErr) =>
      some { a with delivery := some (e,
        Agent.wake sys.codec sys.sender e cancelled (.sleeping attempt lastErr)) }
  | _ => none

/-- A new collection starts when the last delivery has ended. -/
def AgentState.collect (sys : System) (e : Envelope) (a : AgentState) : Option AgentState :=
  match a.delivery with
  | none => some { a with delivery := some (e, startDelivery sys.codec sys.sender e) }
  | some (_, .finished _) =>
      some { a with delivery := some (e, startDelivery sys.codec sys.sender e) }
  | _ => none

/-- The request of the agent reaches the replica of its endpoint. -/
def State.deliver (sys : System) (s : State) : Option State :=
  match s.agent.delivery, s.agent.flight with
  | some (_, .sending _ (.asking payload endpoint _ _)), none =>
      some { s with
        handlers := s.handlers ++
          [.arrive (sys.replica (sys.route endpoint)) (ingestRequest sys.sender payload)]
        agent := { s.agent with flight := some s.handlers.length } }
  | _, _ => none

/-- The answer of the handler that has the agent's request reaches the agent. -/
def State.reply (sys : System) (s : State) (now : Int) : Option State := do
  let j ← s.agent.flight
  let h ← s.handlers[j]?
  let response ← h.response
  let agent ← s.agent.receive sys now (.status response.status)
  some { s with agent := agent }

def step (sys : System) (s : State) : Label → Option State
  | .arrive which request =>
      some { s with handlers := s.handlers ++ [.arrive (sys.replica which) request] }
  | .authenticate j lost store database =>
      s.updateHandler j (Handler.authenticate s.db lost store database)
  | .next j => s.updateHandler j fun h => h.advance fun x =>
      x.next s.db (s.lockFree sys j x.key)
  | .lose j => s.updateHandler j fun h => h.advance (Session.lose s.db)
  | .finish j commit => s.finish j commit
  | .answer j observedAt => s.updateHandler j (Handler.answer observedAt)
  | .capacity status => some { s with db := { s.db with capacityStatus := status } }
  | .credentials change => some { s with db := change.apply s.db }
  | .prune dbNow => some { s with
      db := pruneExpired s.db dbNow
      pruned := s.pruned ++ prunedKeys s.db dbNow }
  | .collect e => (s.agent.collect sys e).map fun a => { s with agent := a }
  | .choose now => (s.agent.choose sys now).map fun a => { s with agent := a }
  | .deliver => s.deliver sys
  | .reply now => s.reply sys now
  | .noReply now reply =>
      if reply = .transport ∨ reply = .invalidRequest then
        (s.agent.receive sys now reply).map fun a => { s with agent := a }
      else none
  | .settle => (s.agent.settle sys).map fun a => { s with agent := a }
  | .wake cancelled => (s.agent.wake sys cancelled).map fun a => { s with agent := a }
  | .restart => some { s with agent := { s.agent with
      circuits := Circuits.initial
      delivery := none
      flight := none } }

def State.init (db : Db) : State :=
  ⟨db, [], [], ⟨Circuits.initial, none, none, [], [], []⟩⟩

/-- The state after a run, when every step of it can be taken. -/
def run (sys : System) : State → List Label → Option State
  | s, [] => some s
  | s, label :: rest => (step sys s label).bind fun s' => run sys s' rest

end NodeScope.Ingest
