import Mathlib.Logic.Function.Basic
import NodeScope.Telemetry.Envelope

/-!
# Admission in memory

`Service.Accept`, which keeps the keys it has accepted until they expire and one window of
a minute for every agent. The two maps are functions of their key. An int of the source
has 64 bits, and so has a `time.Duration`, a count of nanoseconds.

## Implementation notes

The mutex makes every call one step, so the model of a call is a function of the service.
The clock is read before the lock is taken; the reading is an argument of the call.
-/

namespace NodeScope.Ingest

open Lib.Check Lib.Text Lib.Time Telemetry

/-- `Outcome`. -/
inductive Outcome where
  | accepted
  | duplicate
  | throttled
deriving DecidableEq

/-- `Receipt`. -/
structure Receipt where
  outcome : Outcome
  idempotencyKey : String
  acceptedAt : Int
deriving DecidableEq

/-- `Policy`. -/
structure Policy where
  maxRequestsPerMinute : Int64
  burst : Int64
  deduplicationTTL : Int64
deriving DecidableEq

/-- `DefaultPolicy`. -/
def defaultPolicy : Policy := ⟨120, 20, 172800000000000⟩

inductive PolicyError where
  | maxRequestsPerMinute
  | burst
  | deduplicationTTL
deriving DecidableEq

/-- `Policy.Validate`. -/
def Policy.validate (policy : Policy) : Except PolicyError Unit := do
  failIf (policy.maxRequestsPerMinute < 1) .maxRequestsPerMinute
  failIf (policy.burst < 1) .burst
  failIf (policy.deduplicationTTL ≤ 0) .deduplicationTTL

theorem Policy.validate_eq_ok {policy : Policy} {u : Unit} :
    policy.validate = .ok u ↔ 1 ≤ policy.maxRequestsPerMinute.toInt ∧ 1 ≤ policy.burst.toInt ∧
      0 < policy.deduplicationTTL.toInt := by
  have hone : (1 : Int64).toInt = 1 := by decide
  have hzero : (0 : Int64).toInt = 0 := by decide
  simp [Policy.validate, Int64.le_iff_toInt_le, hone, hzero]

/-- `agentWindow`. -/
structure AgentWindow where
  startedAt : Int
  count : Int64
deriving DecidableEq

/-- `Service`, whose lock makes its calls one after the other. -/
structure Service where
  policy : Policy
  seen : String → Option Int
  rates : String → Option AgentWindow

/-- `NewService`, after the policy was checked. -/
def Service.empty (policy : Policy) : Service := ⟨policy, fun _ => none, fun _ => none⟩

/-- `NewService`. -/
def newService (policy : Policy) : Except PolicyError Service := do
  policy.validate
  .ok (.empty policy)

inductive AcceptError where
  | agentMismatch
  | invalid (error : EnvelopeError)
deriving DecidableEq

/-- The two checks that a call makes before it takes the lock. -/
def checkAccept (authenticatedAgentID : String) (envelope : Envelope) :
    Except AcceptError Unit := do
  failIf (envelope.agentID != authenticatedAgentID) .agentMismatch
  envelope.validate.mapError .invalid

/-- `int` addition of the two bounds. -/
def Policy.limit (policy : Policy) : Int64 := policy.maxRequestsPerMinute + policy.burst

namespace Service

/-- `prune`: a key goes when its expiry is not after the clock reading. -/
def prune (service : Service) (now : Int) : Service :=
  { service with seen := fun key => (service.seen key).filter fun expiresAt => now < expiresAt }

/-- The window that a call counts in: the stored one, or a new one when there is none or it
is over. An absent key reads as the zero value. -/
def windowAt (service : Service) (agentID : String) (now : Int) : AgentWindow :=
  let window := (service.rates agentID).getD ⟨zeroTime, 0⟩
  if isZero window.startedAt || seconds 60 ≤ sub now window.startedAt then ⟨now, 0⟩ else window

/-- `Service.Accept`. -/
def accept (service : Service) (now : Int) (authenticatedAgentID : String) (envelope : Envelope) :
    Except AcceptError Receipt × Service :=
  match checkAccept authenticatedAgentID envelope with
  | .error e => (.error e, service)
  | .ok () =>
      let key := envelope.idempotencyKey
      let service := service.prune now
      if (service.seen key).isSome then (.ok ⟨.duplicate, key, now⟩, service)
      else
        let window := service.windowAt authenticatedAgentID now
        if service.policy.limit ≤ window.count then
          (.ok ⟨.throttled, key, now⟩,
            { service with
              rates := Function.update service.rates authenticatedAgentID (some window) })
        else
          let window := { window with count := window.count + 1 }
          (.ok ⟨.accepted, key, now⟩,
            { service with
              rates := Function.update service.rates authenticatedAgentID (some window)
              seen := Function.update service.seen key
                (some (now + service.policy.deduplicationTTL.toInt)) })

@[simp] theorem policy_prune (service : Service) (now : Int) :
    (service.prune now).policy = service.policy := rfl

@[simp] theorem rates_prune (service : Service) (now : Int) :
    (service.prune now).rates = service.rates := rfl

@[simp] theorem windowAt_prune (service : Service) (agentID : String) (now t : Int) :
    (service.prune t).windowAt agentID now = service.windowAt agentID now := rfl

theorem seen_prune_eq_some {service : Service} {now expiresAt : Int} {key : String} :
    (service.prune now).seen key = some expiresAt ↔
      service.seen key = some expiresAt ∧ now < expiresAt := by
  simp [prune, Option.filter_eq_some_iff]

/-- What was pruned at one reading of the clock is pruned at every later one. -/
theorem seen_prune_prune {service : Service} {t now : Int} (h : t ≤ now) (key : String) :
    ((service.prune t).prune now).seen key = (service.prune now).seen key := by
  apply Option.ext
  intro expiresAt
  rw [seen_prune_eq_some, seen_prune_eq_some, seen_prune_eq_some]
  constructor
  · rintro ⟨⟨hseen, -⟩, hnow⟩
    exact ⟨hseen, hnow⟩
  · rintro ⟨hseen, hnow⟩
    exact ⟨⟨hseen, by omega⟩, hnow⟩

theorem seen_prune_prune_congr {s t : Service} {now later : Int} {key : String}
    (hseen : (t.prune now).seen key = (s.prune now).seen key) :
    ((t.prune now).prune later).seen key = ((s.prune now).prune later).seen key :=
  congrArg (Option.filter fun expiresAt => later < expiresAt) hseen

/-- Services that agree on a key at one reading of the clock do so at every later one. -/
theorem seen_prune_congr {s t : Service} {now later : Int} (h : now ≤ later) {key : String}
    (hseen : (t.prune now).seen key = (s.prune now).seen key) :
    (t.prune later).seen key = (s.prune later).seen key :=
  calc (t.prune later).seen key
      = ((t.prune now).prune later).seen key := (seen_prune_prune h key).symm
    _ = ((s.prune now).prune later).seen key := seen_prune_prune_congr hseen
    _ = (s.prune later).seen key := seen_prune_prune h key

/-- A stored window goes on until a minute has passed. -/
theorem windowAt_of_some {service : Service} {agentID : String} {now : Int} {window : AgentWindow}
    (hrate : service.rates agentID = some window) (hstart : window.startedAt ≠ zeroTime)
    (hnow : now < window.startedAt + seconds 60) : service.windowAt agentID now = window := by
  have hover : ¬ seconds 60 ≤ sub now window.startedAt := by
    rw [le_sub_iff (by decide) (by decide)]
    omega
  simp [windowAt, hrate, isZero, hstart, hover]

/-- A window that is over is replaced by one that starts with the call. -/
theorem windowAt_of_over {service : Service} {agentID : String} {now : Int}
    (hover : ∀ window, service.rates agentID = some window →
      window.startedAt + seconds 60 ≤ now) :
    service.windowAt agentID now = ⟨now, 0⟩ := by
  cases hrate : service.rates agentID with
  | none => simp [windowAt, hrate, isZero]
  | some window =>
      have hsub : seconds 60 ≤ sub now window.startedAt := by
        rw [le_sub_iff (by decide) (by decide)]
        have := hover window hrate
        omega
      simp [windowAt, hrate, hsub]

end Service

theorem checkAccept_eq_ok {agentID : String} {e : Envelope} {u : Unit} :
    checkAccept agentID e = .ok u ↔ e.agentID = agentID ∧ e.Valid := by
  simp only [checkAccept, unit_bind_eq_ok, failIf_eq_ok, bne_eq_false_iff_eq, mapError_eq_ok,
    Envelope.validate_eq_ok]

namespace Service

variable {service : Service} {now : Int} {agentID : String} {e : Envelope}

theorem accept_of_error {error : AcceptError} (hcheck : checkAccept agentID e = .error error) :
    service.accept now agentID e = (.error error, service) := by
  simp only [accept, hcheck]

theorem accept_of_seen (hcheck : checkAccept agentID e = .ok ())
    (hseen : ((service.prune now).seen e.idempotencyKey).isSome = true) :
    service.accept now agentID e =
      (.ok ⟨.duplicate, e.idempotencyKey, now⟩, service.prune now) := by
  simp only [accept, hcheck, hseen, if_true]

theorem accept_of_full (hcheck : checkAccept agentID e = .ok ())
    (hseen : (service.prune now).seen e.idempotencyKey = none)
    (hfull : service.policy.limit ≤ (service.windowAt agentID now).count) :
    service.accept now agentID e =
      (.ok ⟨.throttled, e.idempotencyKey, now⟩,
        { service.prune now with
          rates := Function.update service.rates agentID
            (some (service.windowAt agentID now)) }) := by
  simp [accept, hcheck, hseen, hfull]

theorem accept_of_room (hcheck : checkAccept agentID e = .ok ())
    (hseen : (service.prune now).seen e.idempotencyKey = none)
    (hroom : (service.windowAt agentID now).count < service.policy.limit) :
    service.accept now agentID e =
      (.ok ⟨.accepted, e.idempotencyKey, now⟩,
        { policy := service.policy
          seen := Function.update (service.prune now).seen e.idempotencyKey
            (some (now + service.policy.deduplicationTTL.toInt))
          rates := Function.update service.rates agentID
            (some ⟨(service.windowAt agentID now).startedAt,
              (service.windowAt agentID now).count + 1⟩) }) := by
  simp [accept, hcheck, hseen, Int64.not_le.mpr hroom]

/-- A call reads its own key and the window of its agent, and what it writes depends on
nothing else. -/
theorem accept_congr {s t : Service} (hpolicy : t.policy = s.policy)
    (hrate : t.rates agentID = s.rates agentID)
    (hseen : e.agentID = agentID →
      (t.prune now).seen e.idempotencyKey = (s.prune now).seen e.idempotencyKey) :
    (t.accept now agentID e).1 = (s.accept now agentID e).1 ∧
      (t.accept now agentID e).2.rates agentID = (s.accept now agentID e).2.rates agentID ∧
      ∀ key, (t.prune now).seen key = (s.prune now).seen key → ∀ later, now ≤ later →
        ((t.accept now agentID e).2.prune later).seen key =
          ((s.accept now agentID e).2.prune later).seen key := by
  have hwindow : t.windowAt agentID now = s.windowAt agentID now := by
    rw [windowAt, hrate, windowAt]
  cases hcheck : checkAccept agentID e with
  | error error =>
      rw [accept_of_error hcheck, accept_of_error hcheck]
      exact ⟨rfl, hrate, fun key hkey later hlater => seen_prune_congr hlater hkey⟩
  | ok u =>
      have hsame := hseen (checkAccept_eq_ok.mp hcheck).1
      cases hfound : (s.prune now).seen e.idempotencyKey with
      | some expiresAt =>
          have hs : ((s.prune now).seen e.idempotencyKey).isSome = true := by
            rw [hfound]
            rfl
          rw [accept_of_seen hcheck hs, accept_of_seen hcheck (hsame ▸ hs)]
          exact ⟨rfl, hrate, fun key hkey later hlater => seen_prune_prune_congr hkey⟩
      | none =>
          have ht : (t.prune now).seen e.idempotencyKey = none := hsame.trans hfound
          by_cases hfull : s.policy.limit ≤ (s.windowAt agentID now).count
          · rw [accept_of_full hcheck hfound hfull,
              accept_of_full hcheck ht (by rw [hpolicy, hwindow]; exact hfull), hwindow]
            refine ⟨rfl, by simp, fun key hkey later hlater => ?_⟩
            exact seen_prune_prune_congr hkey
          · have hroom := Int64.not_le.mp hfull
            rw [accept_of_room hcheck hfound hroom,
              accept_of_room hcheck ht (by rw [hpolicy, hwindow]; exact hroom), hwindow, hpolicy]
            refine ⟨rfl, by simp, fun key hkey later hlater => ?_⟩
            by_cases heq : key = e.idempotencyKey
            · simp [prune, heq]
            · have hkept : ((t.prune now).prune later).seen key =
                  ((s.prune now).prune later).seen key := seen_prune_prune_congr hkey
              simpa [prune, Function.update_of_ne heq] using hkept

end Service

/-- What a call can answer, and the service after it. -/
inductive Answers (service : Service) (now : Int) (agentID : String) (e : Envelope) :
    Except AcceptError Receipt → Service → Prop
  | failed (error : AcceptError) (hcheck : checkAccept agentID e = .error error) :
      Answers service now agentID e (.error error) service
  | duplicate (hcheck : checkAccept agentID e = .ok ())
      (hseen : ((service.prune now).seen e.idempotencyKey).isSome = true) :
      Answers service now agentID e (.ok ⟨.duplicate, e.idempotencyKey, now⟩) (service.prune now)
  | throttled (hcheck : checkAccept agentID e = .ok ())
      (hseen : (service.prune now).seen e.idempotencyKey = none)
      (hfull : service.policy.limit ≤ (service.windowAt agentID now).count) :
      Answers service now agentID e (.ok ⟨.throttled, e.idempotencyKey, now⟩)
        { service.prune now with
          rates := Function.update service.rates agentID (some (service.windowAt agentID now)) }
  | accepted (hcheck : checkAccept agentID e = .ok ())
      (hseen : (service.prune now).seen e.idempotencyKey = none)
      (hroom : (service.windowAt agentID now).count < service.policy.limit) :
      Answers service now agentID e (.ok ⟨.accepted, e.idempotencyKey, now⟩)
        { policy := service.policy
          seen := Function.update (service.prune now).seen e.idempotencyKey
            (some (now + service.policy.deduplicationTTL.toInt))
          rates := Function.update service.rates agentID
            (some ⟨(service.windowAt agentID now).startedAt,
              (service.windowAt agentID now).count + 1⟩) }

theorem accept_answers (service : Service) (now : Int) (agentID : String) (e : Envelope) :
    Answers service now agentID e (service.accept now agentID e).1
      (service.accept now agentID e).2 := by
  cases hcheck : checkAccept agentID e with
  | error error =>
      rw [Service.accept_of_error hcheck]
      exact .failed error hcheck
  | ok u =>
      cases hseen : (service.prune now).seen e.idempotencyKey with
      | some expiresAt =>
          have hsome : ((service.prune now).seen e.idempotencyKey).isSome = true := by
            rw [hseen]
            rfl
          rw [Service.accept_of_seen hcheck hsome]
          exact .duplicate hcheck hsome
      | none =>
          by_cases hfull : service.policy.limit ≤ (service.windowAt agentID now).count
          · rw [Service.accept_of_full hcheck hseen hfull]
            exact .throttled hcheck hseen hfull
          · have hroom := Int64.not_le.mp hfull
            rw [Service.accept_of_room hcheck hseen hroom]
            exact .accepted hcheck hseen hroom

namespace Answers

variable {service service' : Service} {now : Int} {agentID : String} {e : Envelope}
  {result : Except AcceptError Receipt}

theorem policy_eq (h : Answers service now agentID e result service') :
    service'.policy = service.policy := by
  cases h <;> rfl

/-- The window of another agent is not touched. -/
theorem rates_of_ne (h : Answers service now agentID e result service') {other : String}
    (hother : other ≠ agentID) : service'.rates other = service.rates other := by
  cases h with
  | failed error hcheck => rfl
  | duplicate hcheck hseen => rfl
  | throttled hcheck hseen hfull => exact Function.update_of_ne hother _ _
  | accepted hcheck hseen hroom => exact Function.update_of_ne hother _ _

/-- A key that a later call looks for, other than the key of this one, is found or not found as
without this call. -/
theorem seen_prune_of_ne (h : Answers service now agentID e result service') {t : Int}
    (ht : now ≤ t) {key : String} (hkey : e.agentID = agentID → key ≠ e.idempotencyKey) :
    (service'.prune t).seen key = (service.prune t).seen key := by
  cases h with
  | failed error hcheck => rfl
  | duplicate hcheck hseen => exact Service.seen_prune_prune ht key
  | throttled hcheck hseen hfull => exact Service.seen_prune_prune ht key
  | accepted hcheck hseen hroom =>
      have hne := hkey (checkAccept_eq_ok.mp hcheck).1
      refine Eq.trans ?_ (Service.seen_prune_prune ht key)
      simp only [Service.prune, Function.update_of_ne hne]

end Answers

end NodeScope.Ingest
