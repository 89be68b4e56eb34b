import NodeScope.Agent.Sender
import NodeScope.Lib.Machine

/-!
# The circuit breaker of the sender

`Send` and `Preflight` run the same loop over the endpoints and differ in how they read an
answer. The loop is written once, with the reading as a parameter, and each call as the loop
applied to its own reading; `sendLoop_eq_machine` says that for `Send` it is the machine of
the delivery. A run of calls is then described by its contacts: every contact was permitted
by the circuit it found, and the circuits are what the contacts left.

## Implementation notes

A `Turn` is what the outside gives one pass through the loop: the clock when the circuit is
looked at, the answer, and the clock when the outcome is recorded. The endpoints come from a
checked configuration, so a request to them can always be built.
-/

namespace NodeScope.Agent

open Lib Lib.Check Telemetry

/-- The object in the body of a preflight answer. -/
structure PreflightPayload where
  status : String
  agentId : String
  hostId : String
  replicaId : String
  version : String
deriving DecidableEq

structure PreflightResult where
  endpoint : String
  agentId : String
  hostId : String
  replicaId : String
  version : String
deriving DecidableEq

/-- What comes back from an endpoint: nothing, or a status and the object its body decodes
to, if it does. -/
inductive Answer where
  | transport
  | response (statusCode : Nat) (payload : Option PreflightPayload)
deriving DecidableEq

/-- How a call reads an answer. -/
inductive Verdict (α : Type) where
  | success (value : α)
  | rejected (error : DeliveryError)
  | transient (failure : String)

def judgeSend (endpoint : String) : Answer → Verdict Unit
  | .transport => .transient (endpoint ++ ": transport failure")
  | .response code _ =>
      if successStatus code then .success ()
      else if permanentStatus code then .rejected ⟨"ingestion rejected", false, code⟩
      else .transient (endpoint ++ ": status " ++ Nat.repr code)

/-- The object of an accepted preflight: the credential is authenticated and the identities
are there. -/
def PreflightPayload.authenticated (p : PreflightPayload) : Bool :=
  p.status == "authenticated" && p.agentId != "" && p.hostId != "" && p.replicaId != ""

def judgePreflight (endpoint : String) : Answer → Verdict PreflightResult
  | .transport => .transient (endpoint ++ ": transport failure")
  | .response code payload =>
      match payload.filter fun p => code == 200 && p.authenticated with
      | some p => .success ⟨endpoint, p.agentId, p.hostId, p.replicaId, p.version⟩
      | none =>
          if permanentStatus code then .rejected ⟨"preflight credential rejected", false, code⟩
          else .transient (endpoint ++ ": preflight status " ++ Nat.repr code)

def preflightUnavailable (failures : List String) : DeliveryError :=
  ⟨"all endpoints unavailable for preflight: " ++ String.intercalate "; " failures, true, 0⟩

structure Turn where
  checked : Int
  answer : Answer
  recorded : Int

inductive Outcome where
  | success
  | rejected
  | transient
deriving DecidableEq

/-- A request that was made, with the circuit of its endpoint before and after. -/
structure Contact where
  endpoint : String
  checked : Int
  answer : Answer
  outcome : Outcome
  recorded : Int
  before : EndpointCircuit
  after : EndpointCircuit
deriving DecidableEq

/-- What a call returns, the circuits it leaves, and the requests it made. -/
structure Called (α : Type) where
  result : Except DeliveryError α
  circuits : Circuits
  contacts : List Contact

def Turn.contact (turn : Turn) (endpoint : String) (outcome : Outcome)
    (circuits circuits' : Circuits) : Contact :=
  ⟨endpoint, turn.checked, turn.answer, outcome, turn.recorded, circuits endpoint,
    circuits' endpoint⟩

section Loop

variable {α : Type} (sender : Sender) (judge : String → Answer → Verdict α)
  (exhausted : List String → DeliveryError) (turns : Nat → Turn)

/-- The loop over the endpoints from the `i`-th on. -/
def tryEndpoints : Nat → Circuits → List String → List String → Called α
  | _, circuits, [], failures => ⟨.error (exhausted failures), circuits, []⟩
  | i, circuits, endpoint :: rest, failures =>
      if endpointAvailable circuits (turns i).checked endpoint then
        match judge endpoint (turns i).answer with
        | .success value =>
            let left := recordSuccess circuits endpoint
            ⟨.ok value, left, [(turns i).contact endpoint .success circuits left]⟩
        | .rejected error =>
            ⟨.error error, circuits, [(turns i).contact endpoint .rejected circuits circuits]⟩
        | .transient failure =>
            let left := recordTransientFailure sender circuits (turns i).recorded endpoint
            let next := tryEndpoints (i + 1) left rest (failures ++ [failure])
            ⟨next.result, next.circuits,
              (turns i).contact endpoint .transient circuits left :: next.contacts⟩
      else tryEndpoints (i + 1) circuits rest (failures ++ [endpoint ++ ": circuit open"])

end Loop

/-- `Send`. -/
def send (codec : Codec) (sender : Sender) (envelope : Envelope) (turns : Nat → Turn)
    (circuits : Circuits) : Called Unit :=
  match encodeCompressedEnvelope codec envelope with
  | .error _ => ⟨.error ⟨"encode envelope", false, 0⟩, circuits, []⟩
  | .ok _ => tryEndpoints sender judgeSend unavailable turns 0 circuits sender.endpoints []

/-- `Preflight`. -/
def preflight (sender : Sender) (turns : Nat → Turn) (circuits : Circuits) :
    Called PreflightResult :=
  tryEndpoints sender judgePreflight preflightUnavailable turns 0 circuits sender.endpoints []

def Answer.reply : Answer → Reply
  | .transport => .transport
  | .response code _ => .status code

/-- The delivery machine, given the turns of the endpoints from the `i`-th on. -/
def machine (sender : Sender) (turns : Nat → Turn) : Nat → Nat → Circuits → Sending →
    Sending × Circuits
  | _, 0, circuits, s => (s, circuits)
  | i, fuel + 1, circuits, s =>
      let next := receive sender circuits (turns i).recorded (turns i).answer.reply
        (choose circuits (turns i).checked s)
      machine sender turns (i + 1) fuel next.2 next.1

/-- Where the machine ends for the result of a call. -/
def Sending.ofResult : Except DeliveryError Unit → Sending
  | .ok _ => .returned none
  | .error error => .returned (some error)

theorem machine_returned (sender : Sender) (turns : Nat → Turn) (i fuel : Nat)
    (circuits : Circuits) (error : Option DeliveryError) :
    machine sender turns i fuel circuits (.returned error) = (.returned error, circuits) := by
  induction fuel generalizing i with
  | zero => rfl
  | succ fuel ih => exact ih (i + 1)

/-- The loop of `Send` is the delivery machine run with the same turns. -/
theorem sendLoop_eq_machine (sender : Sender) (turns : Nat → Turn) (payload : List UInt8)
    (i : Nat) (circuits : Circuits) (rest failures : List String) :
    machine sender turns i (rest.length + 1) circuits (.choosing payload rest failures) =
      let called := tryEndpoints sender judgeSend unavailable turns i circuits rest failures
      (Sending.ofResult called.result, called.circuits) := by
  induction rest generalizing i circuits failures with
  | nil => rfl
  | cons endpoint rest ih =>
      rw [List.length_cons, machine, tryEndpoints]
      by_cases havailable : endpointAvailable circuits (turns i).checked endpoint = true
      · rw [choose, if_pos havailable, if_pos havailable]
        cases hanswer : (turns i).answer with
        | transport =>
            simp only [Answer.reply, receive, judgeSend]
            exact ih (i + 1) _ _
        | response code p =>
            by_cases hsuccess : successStatus code = true
            · simp only [Answer.reply, receive, judgeSend, hsuccess, if_true]
              exact machine_returned sender turns (i + 1) _ _ none
            · by_cases hpermanent : permanentStatus code = true
              · simp only [Answer.reply, receive, judgeSend, hsuccess, hpermanent, if_true,
                  Bool.false_eq_true, if_false]
                exact machine_returned sender turns (i + 1) _ _ _
              · simp only [Answer.reply, receive, judgeSend, hsuccess, hpermanent,
                  Bool.false_eq_true, if_false]
                exact ih (i + 1) _ _
      · rw [choose, if_neg havailable, if_neg havailable]
        exact ih (i + 1) circuits _

end NodeScope.Agent
