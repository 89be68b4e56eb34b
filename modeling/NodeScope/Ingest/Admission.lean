import NodeScope.Ingest.Service
import NodeScope.Lib.Machine

/-!
# Runs of calls to the admission service

Agents call `Accept` in the order in which they take the lock, and no call reads the clock
earlier than the one before it. The state keeps every call with its answer. What admission
promises about these histories (`Admits`) holds of a policy exactly when its two bounds can
be added, and the clock has left Go's zero time behind.

## Implementation notes

The zero time stands for "no window yet" in the source, so a clock that reads it opens a new
window with every call. A clock before the zero time may come to read it.
-/

namespace NodeScope.Ingest

open Lib Lib.Check Lib.Text Lib.Time Telemetry

/-- A call of `Accept` with its reading of the clock. -/
structure Offer where
  now : Int
  agentID : String
  envelope : Envelope
deriving DecidableEq

def Offer.key (o : Offer) : String := o.envelope.idempotencyKey

/-- A call that has returned. -/
structure Answered where
  offer : Offer
  result : Except AcceptError Receipt

/-- The key that a call reported as accepted. -/
def Answered.acceptedKey (a : Answered) : Option String :=
  match a.result with
  | .ok receipt => if receipt.outcome = .accepted then some receipt.idempotencyKey else none
  | .error _ => none

/-- The call is one of the agent and was accepted in the minute from a start. -/
def Answered.acceptedIn (agentID : String) (startedAt : Int) (a : Answered) : Bool :=
  a.offer.agentID == agentID && a.acceptedKey.isSome && startedAt ≤ a.offer.now &&
    a.offer.now < startedAt + seconds 60

theorem Answered.acceptedIn_eq_true {agentID : String} {startedAt : Int} {a : Answered} :
    a.acceptedIn agentID startedAt = true ↔ a.offer.agentID = agentID ∧ a.acceptedKey.isSome ∧
      startedAt ≤ a.offer.now ∧ a.offer.now < startedAt + seconds 60 := by
  simp [acceptedIn, and_assoc]

structure Admission where
  service : Service
  last : Int
  history : List Answered

namespace Admission

def init (policy : Policy) (start : Int) : Admission := ⟨.empty policy, start, []⟩

def answer (s : Admission) (o : Offer) : Except AcceptError Receipt × Service :=
  s.service.accept o.now o.agentID o.envelope

def step (s : Admission) (o : Offer) : Option Admission :=
  if s.last ≤ o.now ∧ ':' ∉ o.agentID.toList then
    some ⟨(s.answer o).2, o.now, s.history ++ [⟨o, (s.answer o).1⟩]⟩
  else none

theorem step_eq_some {s s' : Admission} {o : Offer} :
    s.step o = some s' ↔ (s.last ≤ o.now ∧ ':' ∉ o.agentID.toList) ∧
      s' = ⟨(s.answer o).2, o.now, s.history ++ [⟨o, (s.answer o).1⟩]⟩ := by
  rw [step, Option.ite_none_right_eq_some, Option.some.injEq, eq_comm (a := s')]

/-- The number of calls of an agent that were accepted in the minute from a start. -/
def acceptedIn (s : Admission) (agentID : String) (startedAt : Int) : Nat :=
  s.history.countP (Answered.acceptedIn agentID startedAt)

/-- Some calls lead to the state, the first of which reads the clock at the start or later. -/
def Reachable (policy : Policy) (start : Int) (s : Admission) : Prop :=
  ∃ offers, Machine.run step (init policy start) offers = some s

end Admission

/-- What the admission service promises. -/
structure Admits (policy : Policy) (start : Int) : Prop where
  /-- Two calls that report one key as accepted are a time to live apart. -/
  spaced : ∀ s, Admission.Reachable policy start s →
    s.history.Pairwise fun a b => ∀ key, a.acceptedKey = some key → b.acceptedKey = some key →
      a.offer.now + policy.deduplicationTTL.toInt ≤ b.offer.now
  /-- A repeat within the time to live is a duplicate and uses up no rate. -/
  repeated : ∀ s o s', Admission.Reachable policy start s → s.step o = some s' →
    checkAccept o.agentID o.envelope = .ok () →
    (∃ a ∈ s.history, a.acceptedKey = some o.key ∧
      o.now < a.offer.now + policy.deduplicationTTL.toInt) →
    (s.answer o).1 = .ok ⟨.duplicate, o.key, o.now⟩ ∧ s'.service.rates = s.service.rates
  /-- A call that is throttled or fails marks no key and counts nowhere. -/
  refused : ∀ s o s', Admission.Reachable policy start s → s.step o = some s' →
    ((s.answer o).1 = .ok ⟨.throttled, o.key, o.now⟩ ∨ ∃ e, (s.answer o).1 = .error e) →
    s'.service.rates = s.service.rates ∧ ∀ key expiresAt,
      s'.service.seen key = some expiresAt → s.service.seen key = some expiresAt
  /-- An envelope that was not accepted within the time to live is accepted when the window
  of its agent is over. -/
  fresh : ∀ s o s', Admission.Reachable policy start s → s.step o = some s' →
    checkAccept o.agentID o.envelope = .ok () →
    (∀ a ∈ s.history, a.acceptedKey = some o.key →
      a.offer.now + policy.deduplicationTTL.toInt ≤ o.now) →
    (∀ window, s.service.rates o.agentID = some window → window.startedAt + seconds 60 ≤ o.now) →
    (s.answer o).1 = .ok ⟨.accepted, o.key, o.now⟩
  /-- A throttled envelope is accepted when its agent offers it first after the window, with
  any calls of the other agents in between. -/
  retried : ∀ s o s₁ window between s₂ o' s', Admission.Reachable policy start s →
    s.step o = some s₁ → (s.answer o).1 = .ok ⟨.throttled, o.key, o.now⟩ →
    s₁.service.rates o.agentID = some window → Machine.run Admission.step s₁ between = some s₂ →
    (∀ m ∈ between, m.agentID = o.agentID → m.now < window.startedAt + seconds 60) →
    s₂.step o' = some s' → o'.agentID = o.agentID → o'.envelope = o.envelope →
    window.startedAt + seconds 60 ≤ o'.now → (s₂.answer o').1 = .ok ⟨.accepted, o'.key, o'.now⟩
  /-- The calls of an agent are answered as if it were the only one. -/
  isolated : ∀ offers s agentID, ':' ∉ agentID.toList →
    Machine.run Admission.step (.init policy start) offers = some s →
    ∃ s', Machine.run Admission.step (.init policy start)
        (offers.filter fun o => o.agentID == agentID) = some s' ∧
      s'.history = s.history.filter fun a => a.offer.agentID == agentID
  /-- No agent has more calls accepted in a window than the two bounds allow. -/
  bounded : ∀ s agentID window offers s', Admission.Reachable policy start s →
    s.service.rates agentID = some window → Machine.run Admission.step s offers = some s' →
    (s'.acceptedIn agentID window.startedAt : Int) ≤
      policy.maxRequestsPerMinute.toInt + policy.burst.toInt

/-- The keys of two agents without a colon in their ids differ. -/
theorem idempotencyKey_ne {e e' : Envelope} (h : ':' ∉ e.agentID.toList)
    (h' : ':' ∉ e'.agentID.toList) (hne : e.agentID ≠ e'.agentID) :
    e.idempotencyKey ≠ e'.idempotencyKey := by
  intro hkey
  rw [Envelope.idempotencyKey, Envelope.idempotencyKey, idempotencyKeyOf_eq_iff h h'] at hkey
  exact hne hkey.1

namespace Admission

/-- Two states that an agent cannot tell apart: they have the same calls of it, its window, and
what a later call of it finds among the keys. -/
structure SameFor (agentID : String) (s t : Admission) : Prop where
  policy : t.service.policy = s.service.policy
  last : t.last ≤ s.last
  history : t.history = s.history.filter fun a => a.offer.agentID == agentID
  rates : t.service.rates agentID = s.service.rates agentID
  seen : ∀ e : Envelope, e.agentID = agentID → ∀ now, s.last ≤ now →
    (t.service.prune now).seen e.idempotencyKey = (s.service.prune now).seen e.idempotencyKey

/-- A call of the agent is answered alike in both states. -/
theorem SameFor.visible {agentID : String} {s t s' : Admission} {o : Offer}
    (hstep : s.step o = some s') (hagent : o.agentID = agentID) (h : SameFor agentID s t) :
    ∃ t', t.step o = some t' ∧ SameFor agentID s' t' := by
  obtain ⟨⟨hlast, hcolon⟩, rfl⟩ := step_eq_some.mp hstep
  subst hagent
  obtain ⟨hresult, hrates, hseen⟩ :=
    Service.accept_congr h.policy h.rates fun he => h.seen o.envelope he o.now hlast
  refine ⟨_, step_eq_some.mpr ⟨⟨h.last.trans hlast, hcolon⟩, rfl⟩, ?_, le_rfl, ?_, hrates, ?_⟩
  · have hs := (accept_answers s.service o.now o.agentID o.envelope).policy_eq
    have ht := (accept_answers t.service o.now o.agentID o.envelope).policy_eq
    calc (t.answer o).2.policy
        = t.service.policy := ht
      _ = s.service.policy := h.policy
      _ = (s.answer o).2.policy := hs.symm
  · simp only [answer, hresult, h.history, List.filter_append, List.filter_cons, beq_self_eq_true,
      if_true, List.filter_nil]
  · intro e he now hnow
    exact hseen e.idempotencyKey (h.seen e he o.now hlast) now hnow

/-- A call of another agent changes nothing the agent can see. -/
theorem SameFor.hidden {agentID : String} (hcolon : ':' ∉ agentID.toList) {s t s' : Admission}
    {o : Offer} (hstep : s.step o = some s') (hagent : o.agentID ≠ agentID)
    (h : SameFor agentID s t) : SameFor agentID s' t := by
  obtain ⟨⟨hlast, hother⟩, rfl⟩ := step_eq_some.mp hstep
  have hanswers := accept_answers s.service o.now o.agentID o.envelope
  refine ⟨h.policy.trans hanswers.policy_eq.symm, h.last.trans hlast, ?_,
    h.rates.trans (hanswers.rates_of_ne hagent.symm).symm, ?_⟩
  · simp [h.history, List.filter_append, hagent]
  · intro e he now hnow
    have hkey : o.envelope.agentID = o.agentID →
        e.idempotencyKey ≠ o.envelope.idempotencyKey := by
      intro howner
      subst he
      exact idempotencyKey_ne hcolon (howner ▸ hother) (howner ▸ hagent.symm)
    calc (t.service.prune now).seen e.idempotencyKey
        = (s.service.prune now).seen e.idempotencyKey := h.seen e he now (hlast.trans hnow)
      _ = ((s.answer o).2.prune now).seen e.idempotencyKey :=
          (hanswers.seen_prune_of_ne hnow hkey).symm

theorem isolated {policy : Policy} {start : Int} {offers : List Offer} {s : Admission}
    {agentID : String} (hcolon : ':' ∉ agentID.toList)
    (hrun : Machine.run step (init policy start) offers = some s) :
    ∃ s', Machine.run step (init policy start) (offers.filter fun o => o.agentID == agentID) =
        some s' ∧ s'.history = s.history.filter fun a => a.offer.agentID == agentID := by
  have hinit : SameFor agentID (init policy start) (init policy start) :=
    ⟨rfl, le_rfl, rfl, rfl, fun _ _ _ _ => rfl⟩
  obtain ⟨s', hrun', hsame⟩ := Machine.run_filter
    (fun s t o s' hstep ho h => h.visible hstep (beq_iff_eq.mp ho))
    (fun s t o s' hstep ho h => h.hidden hcolon hstep (beq_eq_false_iff_ne.mp ho)) hrun hinit
  exact ⟨s', hrun', hsame.history⟩

end Admission

end NodeScope.Ingest
