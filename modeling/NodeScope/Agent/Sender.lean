import NodeScope.App.Server

/-!
# Delivery by the agent

`Send` tries its endpoints in order and skips one whose circuit is open;
`sendWithRetry` repeats `Send` while its error can be retried. Both are machines that
stop where the program waits: for the clock, for the outcome of a request, and for the
end of a pause. What the outside answers is an input of the step, so that a run of the
agent can be interleaved with the servers it talks to.

## Implementation notes

A circuit that was never recorded is one with no failures, so the map of circuits is a
function. The length of a pause does not matter to what is sent and is left out.
-/

namespace NodeScope.Agent

open Lib Lib.Check Lib.Text Telemetry App

structure DeliveryError where
  reason : String
  canRetry : Bool
  statusCode : Nat
deriving DecidableEq

/-- The errors of `sendWithRetry`: that of the last delivery, or a cancelled pause. -/
inductive AgentError where
  | delivery (error : DeliveryError)
  | cancelled
deriving DecidableEq

/-- Only a delivery error says that it can be retried. -/
def isRetryable : AgentError → Bool
  | .delivery error => error.canRetry
  | .cancelled => false

structure EndpointCircuit where
  failures : Nat
  openUntil : Option Int
deriving DecidableEq

abbrev Circuits := String → EndpointCircuit

def Circuits.initial : Circuits := fun _ => ⟨0, none⟩

structure Sender where
  endpoints : List String
  credential : List UInt8
  failureThreshold : Int
  cooldown : Int

def defaultCircuitFailureThreshold : Nat := 3

def defaultCircuitCooldown : Int := Time.seconds 30

def Sender.circuitThreshold (sender : Sender) : Nat :=
  if 0 < sender.failureThreshold then sender.failureThreshold.toNat
  else defaultCircuitFailureThreshold

def Sender.circuitCooldown (sender : Sender) : Int :=
  if 0 < sender.cooldown then sender.cooldown else defaultCircuitCooldown

def endpointAvailable (circuits : Circuits) (now : Int) (endpoint : String) : Bool :=
  match (circuits endpoint).openUntil with
  | none => true
  | some reopens => reopens ≤ now

def recordTransientFailure (sender : Sender) (circuits : Circuits) (now : Int)
    (endpoint : String) : Circuits :=
  let failures := (circuits endpoint).failures + 1
  Function.update circuits endpoint <|
    if sender.circuitThreshold ≤ failures then ⟨0, some (now + sender.circuitCooldown)⟩
    else ⟨failures, (circuits endpoint).openUntil⟩

def recordSuccess (circuits : Circuits) (endpoint : String) : Circuits :=
  Function.update circuits endpoint ⟨0, none⟩

/-- The request of every attempt. -/
def ingestRequest (sender : Sender) (payload : List UInt8) : Request where
  contentType := utf8 "application/x-protobuf"
  contentEncoding := utf8 "zstd"
  authorization := utf8 "Bearer " ++ sender.credential
  body := payload

/-- The outcome of one request: it could not be built, it got no answer, or it was
answered. -/
inductive Reply where
  | invalidRequest
  | transport
  | status (code : Nat)
deriving DecidableEq

/-- Where a run of `Send` is: about to look at the next endpoint, waiting for the
outcome of a request, or back at its caller. -/
inductive Sending where
  | choosing (payload : List UInt8) (rest failures : List String)
  | asking (payload : List UInt8) (endpoint : String) (rest failures : List String)
  | returned (error : Option DeliveryError)
deriving DecidableEq

def startSend (codec : Codec) (sender : Sender) (envelope : Envelope) : Sending :=
  match encodeCompressedEnvelope codec envelope with
  | .error _ => .returned (some ⟨"encode envelope", false, 0⟩)
  | .ok payload => .choosing payload sender.endpoints []

def unavailable (failures : List String) : DeliveryError :=
  ⟨"all endpoints unavailable: " ++ String.intercalate "; " failures, true, 0⟩

/-- The head of the loop. -/
def choose (circuits : Circuits) (now : Int) : Sending → Sending
  | .choosing _ [] failures => .returned (some (unavailable failures))
  | .choosing payload (endpoint :: rest) failures =>
      if endpointAvailable circuits now endpoint then .asking payload endpoint rest failures
      else .choosing payload rest (failures ++ [endpoint ++ ": circuit open"])
  | other => other

def successStatus (code : Nat) : Bool := 200 ≤ code && code < 300

def permanentStatus (code : Nat) : Bool := 400 ≤ code && code < 500 && code != 429

/-- The rest of the body of the loop. -/
def receive (sender : Sender) (circuits : Circuits) (now : Int) (reply : Reply) :
    Sending → Sending × Circuits
  | .asking payload endpoint rest failures =>
      match reply with
      | .invalidRequest => (.returned (some ⟨"create ingestion request", false, 0⟩), circuits)
      | .transport =>
          (.choosing payload rest (failures ++ [endpoint ++ ": transport failure"]),
            recordTransientFailure sender circuits now endpoint)
      | .status code =>
          if successStatus code then (.returned none, recordSuccess circuits endpoint)
          else if permanentStatus code then
            (.returned (some ⟨"ingestion rejected", false, code⟩), circuits)
          else
            (.choosing payload rest (failures ++ [endpoint ++ ": status " ++ Nat.repr code]),
              recordTransientFailure sender circuits now endpoint)
  | other => (other, circuits)

/-- The number of attempts, within the bounds `NewRunner` has checked. -/
structure RetryPolicy where
  maxAttempts : Nat
  bounds : 1 ≤ maxAttempts ∧ maxAttempts ≤ 10

def defaultRetryPolicy : RetryPolicy := ⟨3, by decide⟩

/-- Where a run of `sendWithRetry` is. -/
inductive Delivery where
  | sending (attempt : Nat) (send : Sending)
  | sleeping (attempt : Nat) (lastErr : DeliveryError)
  | finished (error : Option AgentError)
deriving DecidableEq

def startDelivery (codec : Codec) (sender : Sender) (envelope : Envelope) : Delivery :=
  .sending 0 (startSend codec sender envelope)

/-- `Send` has returned: end, or pause before the next attempt. -/
def settle (policy : RetryPolicy) : Delivery → Delivery
  | .sending _ (.returned none) => .finished none
  | .sending attempt (.returned (some error)) =>
      if !isRetryable (.delivery error) || attempt = policy.maxAttempts - 1 then
        .finished (some (.delivery error))
      else .sleeping attempt error
  | other => other

/-- The end of a pause. -/
def wake (codec : Codec) (sender : Sender) (envelope : Envelope) (cancelled : Bool) :
    Delivery → Delivery
  | .sleeping attempt _ =>
      if cancelled then .finished (some .cancelled)
      else .sending (attempt + 1) (startSend codec sender envelope)
  | other => other

theorem isProtobuf_ingestRequest (sender : Sender) (payload : List UInt8) :
    isProtobuf (ingestRequest sender payload) = true := by
  have hencoding : equalFold (utf8 "zstd") "zstd" = true := by
    rw [equalFold, ofUtf8_utf8]
    decide
  simp [isProtobuf, ingestRequest, hencoding]

theorem bearerToken_ingestRequest (sender : Sender) (payload : List UInt8) :
    bearerToken (ingestRequest sender payload) =
      if blank sender.credential then none else some sender.credential := by
  simp [bearerToken, ingestRequest, cutPrefix]

/-- What the server reads from a request of the agent. -/
theorem readSubmission_ingestRequest {server : Server} {sender : Sender} {payload : List UInt8}
    {token : List UInt8} {envelope : Envelope}
    (h : readSubmission server (ingestRequest sender payload) = .ok (token, envelope)) :
    token = sender.credential ∧ decodeCompressedEnvelope server.codec payload = .ok envelope := by
  obtain ⟨htoken, henvelope⟩ := readSubmission_eq_ok h
  rw [bearerToken_ingestRequest] at htoken
  rw [readEnvelope, if_pos (isProtobuf_ingestRequest sender payload)] at henvelope
  obtain ⟨-, htoken⟩ := Option.ite_none_left_eq_some.mp htoken
  obtain ⟨-, henvelope⟩ := Option.ite_none_left_eq_some.mp henvelope
  exact ⟨(Option.some.inj htoken).symm, toOption_eq_some.mp henvelope⟩

end NodeScope.Agent
