import NodeScope.Agent.Circuit
import NodeScope.Telemetry.WireProtobuf

/-!
# Runs of the circuit breaker

Calls of `Send` and `Preflight` follow one another over a clock that never goes back. The
circuits are a function of the contacts made, and each call contacts exactly the endpoints
that their circuits and the order permit.
-/

namespace NodeScope.Agent

open Lib Lib.Check Telemetry

/-- The circuit lets a request through at this time. -/
def EndpointCircuit.admits (c : EndpointCircuit) (now : Int) : Bool :=
  match c.openUntil with
  | none => true
  | some reopens => reopens ≤ now

theorem endpointAvailable_eq (circuits : Circuits) (now : Int) (endpoint : String) :
    endpointAvailable circuits now endpoint = (circuits endpoint).admits now := rfl

/-- The contact moved the end of the circuit's pause. -/
def Contact.opens (c : Contact) : Bool :=
  c.after.openUntil.isSome && c.after.openUntil != c.before.openUntil

/-- The circuit a contact leaves, by its outcome. -/
def Contact.expected (sender : Sender) (c : Contact) : EndpointCircuit :=
  match c.outcome with
  | .success => ⟨0, none⟩
  | .rejected => c.before
  | .transient =>
      if sender.circuitThreshold ≤ c.before.failures + 1 then
        ⟨0, some (c.recorded + sender.circuitCooldown)⟩
      else ⟨c.before.failures + 1, c.before.openUntil⟩

structure Contact.Lawful (sender : Sender) (c : Contact) : Prop where
  admitted : c.before.admits c.checked = true
  ordered : c.checked ≤ c.recorded
  after : c.after = c.expected sender

/-- The circuits after a history of contacts, each of which found the circuit the ones
before it had left. -/
inductive Replays (sender : Sender) : List Contact → Circuits → Prop where
  | initial : Replays sender [] Circuits.initial
  | contact {history : List Contact} {circuits : Circuits} {c : Contact}
      (past : Replays sender history circuits) (before : c.before = circuits c.endpoint)
      (lawful : c.Lawful sender) :
      Replays sender (history ++ [c]) (Function.update circuits c.endpoint c.after)

theorem Sender.circuitThreshold_pos (sender : Sender) : 0 < sender.circuitThreshold := by
  rw [Sender.circuitThreshold]
  split_ifs
  · omega
  · decide

theorem Sender.circuitCooldown_pos (sender : Sender) : 0 < sender.circuitCooldown := by
  rw [Sender.circuitCooldown]
  split_ifs with h
  · exact h
  · decide

/-- A turn whose outcome is recorded is the next contact of the history. -/
theorem Replays.turn {sender : Sender} {history : List Contact} {circuits : Circuits}
    (hpast : Replays sender history circuits) (turn : Turn) (endpoint : String) (outcome : Outcome)
    (circuits' : Circuits)
    (hadmits : endpointAvailable circuits turn.checked endpoint = true)
    (hordered : turn.checked ≤ turn.recorded)
    (hcircuits : circuits' = Function.update circuits endpoint
      ((turn.contact endpoint outcome circuits circuits').expected sender)) :
    Replays sender (history ++ [turn.contact endpoint outcome circuits circuits']) circuits' := by
  have hafter : circuits' endpoint =
      (turn.contact endpoint outcome circuits circuits').expected sender := by
    conv_lhs => rw [hcircuits]
    exact Function.update_self ..
  have hcontact := Replays.contact (c := turn.contact endpoint outcome circuits circuits') hpast rfl
    ⟨hadmits, hordered, hafter⟩
  have hupdate : circuits' = Function.update circuits endpoint (circuits' endpoint) :=
    hcircuits.trans (congrArg _ hafter.symm)
  change Replays sender _ (Function.update circuits endpoint (circuits' endpoint)) at hcontact
  rwa [← hupdate] at hcontact

section Loop

variable {α : Type} {sender : Sender} {judge : String → Answer → Verdict α}
  {exhausted : List String → DeliveryError} {turns : Nat → Turn}

/-- The loop extends the history it starts from by its contacts. -/
theorem Replays.tryEndpoints {history : List Contact} {circuits : Circuits}
    (hpast : Replays sender history circuits) (i : Nat) (endpoints failures : List String)
    (htimes : ∀ j, i ≤ j → j < i + endpoints.length → (turns j).checked ≤ (turns j).recorded) :
    Replays sender
      (history ++ (tryEndpoints sender judge exhausted turns i circuits endpoints failures).contacts)
      (Agent.tryEndpoints sender judge exhausted turns i circuits endpoints failures).circuits := by
  induction endpoints generalizing i circuits failures history with
  | nil => simpa [Agent.tryEndpoints] using hpast
  | cons endpoint rest ih =>
      have hnow : (turns i).checked ≤ (turns i).recorded := htimes i le_rfl (by simp)
      have hlater : ∀ j, i + 1 ≤ j → j < i + 1 + rest.length →
          (turns j).checked ≤ (turns j).recorded := by
        intro j hfirst hlast
        refine htimes j (by omega) ?_
        rw [List.length_cons]
        omega
      rw [Agent.tryEndpoints]
      by_cases havailable : endpointAvailable circuits (turns i).checked endpoint = true
      · rw [if_pos havailable]
        cases judge endpoint (turns i).answer with
        | success value => exact hpast.turn (turns i) endpoint .success _ havailable hnow rfl
        | rejected error =>
            refine hpast.turn (turns i) endpoint .rejected _ havailable hnow ?_
            exact (Function.update_eq_self endpoint circuits).symm
        | transient failure =>
            have hnext := hpast.turn (turns i) endpoint .transient
              (recordTransientFailure sender circuits (turns i).recorded endpoint) havailable hnow rfl
            simpa using ih hnext (i + 1) (failures ++ [failure]) hlater
      · rw [if_neg havailable]
        exact ih hpast (i + 1) _ hlater

end Loop

/-- The transient failures of an endpoint since its last success or opening, after one more
contact. -/
def Contact.count (endpoint : String) (n : Nat) (c : Contact) : Nat :=
  if c.endpoint = endpoint then
    if c.outcome = .success || c.opens then 0
    else if c.outcome = .transient then n + 1
    else n
  else n

/-- The transient failures of an endpoint since its last success or opening. -/
def failuresSince (history : List Contact) (endpoint : String) : Nat :=
  history.foldl (Contact.count endpoint) 0

theorem failuresSince_concat (history : List Contact) (c : Contact) (endpoint : String) :
    failuresSince (history ++ [c]) endpoint = c.count endpoint (failuresSince history endpoint) := by
  simp [failuresSince]

/-- A contact that was let through opens the circuit exactly when it fails transiently and
completes the threshold. -/
theorem Contact.Lawful.opens_iff {sender : Sender} {c : Contact} (h : c.Lawful sender) :
    c.opens = true ↔ c.outcome = .transient ∧ sender.circuitThreshold ≤ c.before.failures + 1 := by
  rw [Contact.opens, h.after, Contact.expected]
  cases c.outcome with
  | success => simp
  | rejected => simp
  | transient =>
      by_cases hthreshold : sender.circuitThreshold ≤ c.before.failures + 1
      · have hmoved : some (c.recorded + sender.circuitCooldown) ≠ c.before.openUntil := by
          intro heq
          have hadmits := h.admitted
          simp only [EndpointCircuit.admits, ← heq, decide_eq_true_eq] at hadmits
          have hcooldown := sender.circuitCooldown_pos
          have hordered := h.ordered
          omega
        simp [hthreshold, hmoved]
      · simp [hthreshold]

/-- The counter of a circuit after a contact is the number of failures that count. -/
theorem Contact.Lawful.failures {sender : Sender} {c : Contact} (h : c.Lawful sender)
    (hbefore : c.before.failures < sender.circuitThreshold) :
    c.after.failures = c.count c.endpoint c.before.failures ∧
      c.after.failures < sender.circuitThreshold := by
  have hopens := h.opens_iff
  have hpos := sender.circuitThreshold_pos
  rw [Contact.count, if_pos rfl, h.after, Contact.expected]
  cases houtcome : c.outcome with
  | success => exact ⟨by simp, hpos⟩
  | rejected =>
      have hclosed : c.opens = false := by
        rw [← Bool.not_eq_true, hopens, houtcome]
        simp
      exact ⟨by simp [hclosed], hbefore⟩
  | transient =>
      by_cases hthreshold : sender.circuitThreshold ≤ c.before.failures + 1
      · have hopened : c.opens = true := hopens.mpr ⟨houtcome, hthreshold⟩
        simp [hthreshold, hopened, hpos]
      · have hclosed : c.opens = false := by
          rw [← Bool.not_eq_true, hopens]
          exact fun hboth => hthreshold hboth.2
        simp only [hthreshold, if_false, hclosed]
        exact ⟨by simp, by omega⟩

/-- After any history the counters are below the threshold and count the failures since the
last success or opening. -/
theorem Replays.failures {sender : Sender} {history : List Contact} {circuits : Circuits}
    (h : Replays sender history circuits) (endpoint : String) :
    (circuits endpoint).failures = failuresSince history endpoint ∧
      (circuits endpoint).failures < sender.circuitThreshold := by
  induction h with
  | initial => exact ⟨rfl, sender.circuitThreshold_pos⟩
  | @contact history circuits c past before lawful ih =>
      rw [failuresSince_concat]
      by_cases hsame : endpoint = c.endpoint
      · subst hsame
        rw [Function.update_self, ← ih.1, ← before]
        exact lawful.failures (by rw [before]; exact ih.2)
      · rw [Function.update_of_ne hsame, Contact.count, if_neg (Ne.symm hsame)]
        exact ih

/-- Each contact of a history was admitted, and opened its circuit exactly as the
threshold-th failure that counts. -/
theorem Replays.contacts {sender : Sender} {history : List Contact} {circuits : Circuits}
    (h : Replays sender history circuits) {i : Nat} {c : Contact} (hc : history[i]? = some c) :
    c.Lawful sender ∧
      (c.opens = true ↔ c.outcome = .transient ∧
        failuresSince (history.take i) c.endpoint + 1 = sender.circuitThreshold) := by
  induction h with
  | initial => simp at hc
  | @contact history circuits last past before lawful ih =>
      rcases Machine.getElem?_concat.mp hc with hold | ⟨rfl, rfl⟩
      · have hi := (List.getElem?_eq_some_iff.mp hold).1
        rw [List.take_append_of_le_length hi.le]
        exact ih hold
      · obtain ⟨hcount, hbelow⟩ := past.failures last.endpoint
        rw [List.take_left, lawful.opens_iff, before, hcount]
        refine ⟨lawful, and_congr_right fun _ => ?_⟩
        omega

/-- The answer is a status that rejects the request. -/
def Answer.permanent : Answer → Bool
  | .transport => false
  | .response code _ => permanentStatus code

/-- A delivery is accepted by any status from 200 to 299. -/
def Answer.accepted : Answer → Prop
  | .transport => False
  | .response code _ => 200 ≤ code ∧ code < 300

/-- A preflight is accepted by status 200 with an object that calls the credential
authenticated and names the agent, the host and the replica. -/
def Answer.authenticated : Answer → Prop
  | .transport => False
  | .response code payload => code = 200 ∧ ∃ p, payload = some p ∧ p.status = "authenticated" ∧
      p.agentId ≠ "" ∧ p.hostId ≠ "" ∧ p.replicaId ≠ ""

/-- The outcome that an answer has, by what counts as success: a status that rejects the
request is a rejection, and whatever is neither, no answer included, is a transient failure. -/
def Outcome.Reads (succeeds : Answer → Prop) (answer : Answer) : Outcome → Prop
  | .success => succeeds answer
  | .rejected => ¬ succeeds answer ∧ answer.permanent = true
  | .transient => ¬ succeeds answer ∧ answer.permanent = false

def Verdict.outcome {α : Type} : Verdict α → Outcome
  | .success _ => .success
  | .rejected _ => .rejected
  | .transient _ => .transient

/-- What the loop relies on in a reading of answers: each gets the outcome it has, and a
status that rejects the request is read as a rejection that cannot be retried. -/
structure Judges {α : Type} (judge : String → Answer → Verdict α) (succeeds : Answer → Prop) :
    Prop where
  reads : ∀ endpoint answer, (judge endpoint answer).outcome.Reads succeeds answer
  permanent : ∀ endpoint code payload, permanentStatus code = true →
    ∃ error, judge endpoint (.response code payload) = .rejected error
  rejected : ∀ endpoint answer error, judge endpoint answer = .rejected error →
    error.canRetry = false

theorem judgeSend_judges : Judges judgeSend Answer.accepted where
  reads endpoint answer := by
    cases answer with
    | transport => exact ⟨id, rfl⟩
    | response code payload =>
        have haccepted : (Answer.response code payload).accepted ↔ successStatus code = true := by
          simp [Answer.accepted, successStatus]
        rw [judgeSend]
        by_cases hsuccess : successStatus code = true
        · rw [if_pos hsuccess]
          exact haccepted.mpr hsuccess
        · rw [if_neg hsuccess]
          by_cases hpermanent : permanentStatus code = true
          · rw [if_pos hpermanent]
            exact ⟨mt haccepted.mp hsuccess, hpermanent⟩
          · rw [if_neg hpermanent]
            exact ⟨mt haccepted.mp hsuccess, Bool.eq_false_iff.mpr hpermanent⟩
  permanent endpoint code payload hcode := by
    have hfailed : successStatus code = false := by
      simp only [permanentStatus, successStatus, Bool.and_eq_true, decide_eq_true_eq] at hcode ⊢
      simp only [Bool.and_eq_false_iff, decide_eq_false_iff_not]
      omega
    refine ⟨⟨"ingestion rejected", false, code⟩, ?_⟩
    simp only [judgeSend, hfailed, hcode, if_true, Bool.false_eq_true, if_false]
  rejected endpoint answer error h := by
    cases answer with
    | transport => simp [judgeSend] at h
    | response code payload =>
        simp only [judgeSend] at h
        split_ifs at h
        obtain rfl := Verdict.rejected.inj h
        rfl

theorem PreflightPayload.authenticated_iff {p : PreflightPayload} : p.authenticated = true ↔
    p.status = "authenticated" ∧ p.agentId ≠ "" ∧ p.hostId ≠ "" ∧ p.replicaId ≠ "" := by
  simp [PreflightPayload.authenticated, and_assoc]

theorem judgePreflight_judges : Judges judgePreflight Answer.authenticated where
  reads endpoint answer := by
    cases answer with
    | transport => exact ⟨id, rfl⟩
    | response code payload =>
        have hauthenticated : (Answer.response code payload).authenticated ↔
            ∃ p, (payload.filter fun p => code == 200 && p.authenticated) = some p := by
          simp only [Answer.authenticated, Option.filter_eq_some_iff, Bool.and_eq_true, beq_iff_eq,
            PreflightPayload.authenticated_iff]
          constructor
          · rintro ⟨hcode, p, hp, h⟩
            exact ⟨p, hp, hcode, h⟩
          · rintro ⟨p, hp, hcode, h⟩
            exact ⟨hcode, p, hp, h⟩
        rw [judgePreflight]
        cases hfilter : payload.filter fun p => code == 200 && p.authenticated with
        | some p => exact hauthenticated.mpr ⟨p, hfilter⟩
        | none =>
            have hfailed : ¬ (Answer.response code payload).authenticated := by
              rw [hauthenticated, hfilter]
              simp
            by_cases hpermanent : permanentStatus code = true
            · simp only [hpermanent, if_true]
              exact ⟨hfailed, hpermanent⟩
            · simp only [hpermanent]
              exact ⟨hfailed, Bool.eq_false_iff.mpr hpermanent⟩
  permanent endpoint code payload hcode := by
    have hfailed : (code == 200) = false := by
      simp only [permanentStatus, Bool.and_eq_true, decide_eq_true_eq] at hcode
      simp only [beq_eq_false_iff_ne]
      omega
    have hnone : (payload.filter fun p => code == 200 && p.authenticated) = none := by
      simp [hfailed]
    refine ⟨⟨"preflight credential rejected", false, code⟩, ?_⟩
    simp only [judgePreflight, hnone, hcode, if_true]
  rejected endpoint answer error h := by
    cases answer with
    | transport => simp [judgePreflight] at h
    | response code payload =>
        simp only [judgePreflight] at h
        split at h
        · simp at h
        · split_ifs at h
          obtain rfl := Verdict.rejected.inj h
          rfl

section Call

variable {α : Type} {sender : Sender} {judge : String → Answer → Verdict α}
  {exhausted : List String → DeliveryError} {turns : Nat → Turn} {circuits : Circuits}
  {succeeds : Answer → Prop}

/-- What one call does with its two endpoints, by the circuits it finds. -/
structure Serves (preferred secondary : String) (turns : Nat → Turn) (circuits : Circuits)
    (called : Called α) : Prop where
  inOrder : (called.contacts.map Contact.endpoint).Sublist [preferred, secondary]
  preferredContacted : (∃ c ∈ called.contacts, c.endpoint = preferred) ↔
    (circuits preferred).admits (turns 0).checked = true
  secondaryContacted : (∃ c ∈ called.contacts, c.endpoint = secondary) ↔
    (circuits secondary).admits (turns 1).checked = true ∧
      ((circuits preferred).admits (turns 0).checked = false ∨
        ∃ c ∈ called.contacts, c.endpoint = preferred ∧ c.outcome = .transient)
  rejected : ∀ c ∈ called.contacts, c.answer.permanent = true →
    called.contacts.getLast? = some c ∧ called.circuits c.endpoint = circuits c.endpoint ∧
      ∃ error, called.result = .error error ∧ error.canRetry = false
  bothOpen : (circuits preferred).admits (turns 0).checked = false →
    (circuits secondary).admits (turns 1).checked = false →
    called.contacts = [] ∧ called.circuits = circuits ∧
      ∃ error, called.result = .error error ∧ error.canRetry = true

/-- How a call reads what it hears: each contact has the answer that its endpoint gave in its
turn and the outcome of that answer, and the call succeeds exactly if a contact does. -/
structure Hears (succeeds : Answer → Prop) (endpoints : List String) (turns : Nat → Turn)
    (called : Called α) : Prop where
  heard : ∀ c ∈ called.contacts, ∃ k, endpoints[k]? = some c.endpoint ∧
    c.checked = (turns k).checked ∧ c.answer = (turns k).answer ∧ c.recorded = (turns k).recorded
  reads : ∀ c ∈ called.contacts, c.outcome.Reads succeeds c.answer
  succeeded : (∃ value, called.result = .ok value) ↔ ∃ c ∈ called.contacts, c.outcome = .success

variable (sender exhausted turns circuits)

/-- The loop from the `i`-th endpoint on hears the turns from there on. -/
theorem tryEndpoints_hears (hjudge : Judges judge succeeds) (i : Nat)
    (endpoints failures : List String) :
    Hears succeeds endpoints (fun k => turns (i + k))
      (tryEndpoints sender judge exhausted turns i circuits endpoints failures) := by
  induction endpoints generalizing i circuits failures with
  | nil => exact ⟨by simp [tryEndpoints], by simp [tryEndpoints], by simp [tryEndpoints]⟩
  | cons endpoint rest ih =>
      have hlater {called : Called α} (h : Hears succeeds rest (fun k => turns (i + 1 + k)) called) :
          ∀ c ∈ called.contacts, ∃ k, (endpoint :: rest)[k]? = some c.endpoint ∧
            c.checked = (turns (i + k)).checked ∧ c.answer = (turns (i + k)).answer ∧
            c.recorded = (turns (i + k)).recorded := by
        intro c hc
        obtain ⟨k, hk, hturn⟩ := h.heard c hc
        refine ⟨k + 1, hk, ?_⟩
        rwa [← Nat.add_assoc, Nat.add_right_comm]
      have hreads := hjudge.reads endpoint (turns i).answer
      rw [tryEndpoints]
      by_cases havailable : endpointAvailable circuits (turns i).checked endpoint = true
      · rw [if_pos havailable]
        cases hverdict : judge endpoint (turns i).answer with
        | success value =>
            rw [hverdict] at hreads
            refine ⟨?_, ?_, ?_⟩
            · simpa [Turn.contact] using ⟨0, rfl, rfl, rfl, rfl⟩
            · exact List.forall_mem_singleton.mpr hreads
            · simp [Turn.contact]
        | rejected error =>
            rw [hverdict] at hreads
            refine ⟨?_, ?_, ?_⟩
            · simpa [Turn.contact] using ⟨0, rfl, rfl, rfl, rfl⟩
            · exact List.forall_mem_singleton.mpr hreads
            · simp [Turn.contact]
        | transient failure =>
            rw [hverdict] at hreads
            have hnext := ih (recordTransientFailure sender circuits (turns i).recorded endpoint)
              (i + 1) (failures ++ [failure])
            refine ⟨List.forall_mem_cons.mpr ⟨⟨0, rfl, rfl, rfl, rfl⟩, hlater hnext⟩,
              List.forall_mem_cons.mpr ⟨hreads, hnext.reads⟩, ?_⟩
            rw [hnext.succeeded]
            simp [Turn.contact]
      · rw [if_neg havailable]
        have hnext := ih circuits (i + 1) (failures ++ [endpoint ++ ": circuit open"])
        exact ⟨hlater hnext, hnext.reads, hnext.succeeded⟩

/-- All that one pass through the loop can do: skip the endpoint, end the call after a
contact, or go on after one that failed transiently. -/
theorem tryEndpoints_cons (hjudge : Judges judge succeeds) (i : Nat) (endpoint : String)
    (rest failures : List String) :
    let called := tryEndpoints sender judge exhausted turns i circuits (endpoint :: rest) failures
    ((circuits endpoint).admits (turns i).checked = false ∧ ∃ reasons,
      called = tryEndpoints sender judge exhausted turns (i + 1) circuits rest reasons) ∨
    ((circuits endpoint).admits (turns i).checked = true ∧ ∃ c, called.contacts = [c] ∧
      c.endpoint = endpoint ∧ c.outcome ≠ .transient ∧
      (c.answer.permanent = true → called.circuits = circuits ∧
        ∃ error, called.result = .error error ∧ error.canRetry = false)) ∨
    ((circuits endpoint).admits (turns i).checked = true ∧ ∃ c new reasons,
      let next := tryEndpoints sender judge exhausted turns (i + 1)
        (Function.update circuits endpoint new) rest reasons
      called = ⟨next.result, next.circuits, c :: next.contacts⟩ ∧ c.endpoint = endpoint ∧
      c.outcome = .transient ∧ c.answer.permanent = false) := by
  simp only [tryEndpoints]
  cases hadmits : (circuits endpoint).admits (turns i).checked with
  | false =>
      rw [endpointAvailable_eq, hadmits, if_neg (by simp)]
      exact Or.inl ⟨rfl, _, rfl⟩
  | true =>
      rw [endpointAvailable_eq, hadmits, if_pos rfl]
      right
      have hpermanent : (turns i).answer.permanent = true →
          ∃ error, judge endpoint (turns i).answer = .rejected error := by
        cases (turns i).answer with
        | transport => simp [Answer.permanent]
        | response code payload => exact hjudge.permanent endpoint code payload
      cases hverdict : judge endpoint (turns i).answer with
      | success value =>
          refine Or.inl ⟨rfl, _, rfl, rfl, by simp [Turn.contact], ?_⟩
          intro h
          obtain ⟨error, herror⟩ := hpermanent h
          exact absurd (hverdict.symm.trans herror) (by simp)
      | rejected error =>
          refine Or.inl ⟨rfl, _, rfl, rfl, by simp [Turn.contact], fun _ => ⟨rfl, error, rfl, ?_⟩⟩
          exact hjudge.rejected endpoint _ error hverdict
      | transient failure =>
          refine Or.inr ⟨rfl, _, _, failures ++ [failure], rfl, rfl, rfl, ?_⟩
          rw [← Bool.not_eq_true]
          intro h
          obtain ⟨error, herror⟩ := hpermanent h
          exact absurd (hverdict.symm.trans herror) (by simp)

/-- The loop at its last endpoint: nothing is contacted, or this endpoint is. -/
theorem tryEndpoints_last (hjudge : Judges judge succeeds) (i : Nat) (endpoint : String)
    (failures : List String) :
    let called := tryEndpoints sender judge exhausted turns i circuits [endpoint] failures
    ((circuits endpoint).admits (turns i).checked = false ∧ called.contacts = [] ∧
      called.circuits = circuits ∧ ∃ reasons, called.result = .error (exhausted reasons)) ∨
    ((circuits endpoint).admits (turns i).checked = true ∧ ∃ c, called.contacts = [c] ∧
      c.endpoint = endpoint ∧ (c.answer.permanent = true → called.circuits = circuits ∧
        ∃ error, called.result = .error error ∧ error.canRetry = false)) := by
  rcases tryEndpoints_cons sender exhausted turns circuits hjudge i endpoint [] failures with
    ⟨hclosed, reasons, hcalled⟩ | ⟨hadmits, c, hcontacts, hendpoint, -, hpermanent⟩ |
      ⟨hadmits, c, new, reasons, hcalled, hendpoint, -, hpermanent⟩
  · refine Or.inl ⟨hclosed, ?_⟩
    rw [hcalled]
    exact ⟨rfl, rfl, reasons, rfl⟩
  · exact Or.inr ⟨hadmits, c, hcontacts, hendpoint, hpermanent⟩
  · refine Or.inr ⟨hadmits, c, ?_, hendpoint, fun h => absurd h (by simp [hpermanent])⟩
    rw [hcalled]
    rfl

/-- The loop over two endpoints serves them as their circuits permit. -/
theorem tryEndpoints_serves (hjudge : Judges judge succeeds)
    (hexhausted : ∀ reasons, (exhausted reasons).canRetry = true) {preferred secondary : String}
    (hdistinct : preferred ≠ secondary) :
    Serves preferred secondary turns circuits
      (tryEndpoints sender judge exhausted turns 0 circuits [preferred, secondary] []) := by
  rcases tryEndpoints_cons sender exhausted turns circuits hjudge 0 preferred [secondary] [] with
    ⟨hclosed, reasons, hcalled⟩ | ⟨hadmits, c, hcontacts, rfl, houtcome, hpermanent⟩ |
      ⟨hadmits, c, new, reasons, hcalled, rfl, houtcome, hpermanent⟩
  · rw [hcalled]
    rcases tryEndpoints_last sender exhausted turns circuits hjudge 1 secondary reasons with
      ⟨hclosed', hcontacts, hcircuits, final, hresult⟩ | ⟨hadmits', c, hcontacts, rfl, hpermanent⟩
    · constructor
      · simp [hcontacts]
      · simp [hcontacts, hclosed]
      · simp [hcontacts, hclosed']
      · simp [hcontacts]
      · intro _ _
        exact ⟨hcontacts, hcircuits, _, hresult, hexhausted final⟩
    · constructor
      · simp [hcontacts]
      · simp [hcontacts, hclosed, hdistinct.symm]
      · simp [hcontacts, hclosed, hadmits']
      · intro d hd hreject
        rw [hcontacts] at hd ⊢
        obtain rfl := List.mem_singleton.mp hd
        obtain ⟨hcircuits, hresult⟩ := hpermanent hreject
        exact ⟨rfl, by rw [hcircuits], hresult⟩
      · intro _ hsecond
        exact absurd hadmits' (by simp [hsecond])
  · constructor
    · simp [hcontacts]
    · simp [hcontacts, hadmits]
    · simp [hcontacts, hadmits, hdistinct, houtcome]
    · intro d hd hreject
      rw [hcontacts] at hd ⊢
      obtain rfl := List.mem_singleton.mp hd
      obtain ⟨hcircuits, hresult⟩ := hpermanent hreject
      exact ⟨rfl, by rw [hcircuits], hresult⟩
    · intro hfirst
      exact absurd hadmits (by simp [hfirst])
  · rw [hcalled]
    have hsame : Function.update circuits c.endpoint new secondary = circuits secondary :=
      Function.update_of_ne hdistinct.symm new circuits
    rcases tryEndpoints_last sender exhausted turns (Function.update circuits c.endpoint new) hjudge
        1 secondary reasons with
      ⟨hclosed', hcontacts, -, -⟩ | ⟨hadmits', d, hcontacts, rfl, hpermanent'⟩
    · rw [hsame] at hclosed'
      constructor
      · simp [hcontacts]
      · simp [hcontacts, hadmits]
      · simp [hcontacts, hclosed', hdistinct]
      · intro d hd hreject
        rw [hcontacts] at hd
        obtain rfl := List.mem_singleton.mp hd
        exact absurd hreject (by simp [hpermanent])
      · intro hfirst
        exact absurd hadmits (by simp [hfirst])
    · rw [hsame] at hadmits'
      constructor
      · simp [hcontacts]
      · simp [hcontacts, hadmits]
      · simp [hcontacts, hadmits', houtcome]
      · intro e he hreject
        rw [hcontacts] at he ⊢
        rcases List.mem_cons.mp he with rfl | he
        · exact absurd hreject (by simp [hpermanent])
        · obtain rfl := List.mem_singleton.mp he
          obtain ⟨hcircuits, hresult⟩ := hpermanent' hreject
          exact ⟨rfl, by rw [hcircuits, hsame], hresult⟩
      · intro hfirst
        exact absurd hadmits (by simp [hfirst])

end Call

/-- A call, with what the outside gives it. -/
inductive SenderCall where
  | send (envelope : Envelope) (turns : Nat → Turn)
  | preflight (turns : Nat → Turn)

namespace SenderCall

def turns : SenderCall → Nat → Turn
  | .send _ turns => turns
  | .preflight turns => turns

/-- The call gets to its endpoints: it is a preflight or has an envelope that encodes. -/
def encodes (codec : Codec) : SenderCall → Bool
  | .send envelope _ => (encodeCompressedEnvelope codec envelope).toOption.isSome
  | .preflight _ => true

/-- The answers that the call takes for a success. -/
def Succeeds : SenderCall → Answer → Prop
  | .send _ _ => Answer.accepted
  | .preflight _ => Answer.authenticated

/-- The call, with the value it returns on success left out. -/
def perform (codec : Codec) (sender : Sender) (circuits : Circuits) : SenderCall → Called Unit
  | .send envelope turns => Agent.send codec sender envelope turns circuits
  | .preflight turns =>
      let called := Agent.preflight sender turns circuits
      ⟨called.result.map fun _ => (), called.circuits, called.contacts⟩

/-- The clock does not go back, within the call and since the last one. -/
def timely (clock : Int) (call : SenderCall) : Bool :=
  clock ≤ (call.turns 0).checked && (call.turns 0).checked ≤ (call.turns 0).recorded &&
    (call.turns 0).recorded ≤ (call.turns 1).checked &&
    (call.turns 1).checked ≤ (call.turns 1).recorded

end SenderCall

/-- A sender between two calls. -/
structure Breaker where
  clock : Int
  circuits : Circuits
  history : List Contact

def Breaker.step (codec : Codec) (sender : Sender) (s : Breaker) (call : SenderCall) :
    Option Breaker :=
  let called := call.perform codec sender s.circuits
  if call.timely s.clock then
    some ⟨(call.turns 1).recorded, called.circuits, s.history ++ called.contacts⟩
  else none

def Breaker.init (clock : Int) : Breaker := ⟨clock, Circuits.initial, []⟩

section Run

variable {codec : Codec} {sender : Sender} {preferred secondary : String}

theorem SenderCall.perform_serves (hendpoints : sender.endpoints = [preferred, secondary])
    (hdistinct : preferred ≠ secondary) {call : SenderCall} (hencodes : call.encodes codec = true)
    (circuits : Circuits) :
    Serves preferred secondary call.turns circuits (call.perform codec sender circuits) := by
  cases call with
  | send envelope turns =>
      obtain ⟨payload, hpayload⟩ := Option.isSome_iff_exists.mp hencodes
      have hserves := tryEndpoints_serves sender unavailable turns circuits judgeSend_judges
        (fun _ => rfl) hdistinct
      simp only [SenderCall.perform, Agent.send, toOption_eq_some.mp hpayload, hendpoints]
      exact hserves
  | preflight turns =>
      have hserves := tryEndpoints_serves sender preflightUnavailable turns circuits
        judgePreflight_judges (fun _ => rfl) hdistinct
      rw [← hendpoints] at hserves
      refine ⟨hserves.inOrder, hserves.preferredContacted, hserves.secondaryContacted, ?_, ?_⟩
      · intro c hc hpermanent
        obtain ⟨hlast, hcircuits, error, hresult, hretry⟩ := hserves.rejected c hc hpermanent
        refine ⟨hlast, hcircuits, error, ?_, hretry⟩
        simp only [SenderCall.perform, Agent.preflight, hresult]
        rfl
      · intro hfirst hsecond
        obtain ⟨hcontacts, hcircuits, error, hresult, hretry⟩ := hserves.bothOpen hfirst hsecond
        refine ⟨hcontacts, hcircuits, error, ?_, hretry⟩
        simp only [SenderCall.perform, Agent.preflight, hresult]
        rfl

theorem SenderCall.perform_hears {call : SenderCall} (hencodes : call.encodes codec = true)
    (circuits : Circuits) :
    Hears call.Succeeds sender.endpoints call.turns (call.perform codec sender circuits) := by
  cases call with
  | send envelope turns =>
      obtain ⟨payload, hpayload⟩ := Option.isSome_iff_exists.mp hencodes
      have hhears := tryEndpoints_hears sender unavailable turns circuits judgeSend_judges 0
        sender.endpoints []
      simp only [Nat.zero_add] at hhears
      simp only [SenderCall.perform, Agent.send, toOption_eq_some.mp hpayload]
      exact hhears
  | preflight turns =>
      have hhears := tryEndpoints_hears sender preflightUnavailable turns circuits
        judgePreflight_judges 0 sender.endpoints []
      simp only [Nat.zero_add] at hhears
      refine ⟨hhears.heard, hhears.reads, ?_⟩
      refine Iff.trans ?_ hhears.succeeded
      simp only [SenderCall.perform, Agent.preflight]
      cases (tryEndpoints sender judgePreflight preflightUnavailable turns 0 circuits
        sender.endpoints []).result <;> simp [Except.map]

/-- An envelope that does not encode ends the call before any endpoint. -/
theorem SenderCall.perform_unencodable (codec : Codec) (sender : Sender) {call : SenderCall}
    (hencodes : call.encodes codec = false) (circuits : Circuits) :
    call.perform codec sender circuits = ⟨.error ⟨"encode envelope", false, 0⟩, circuits, []⟩ := by
  cases call with
  | send envelope turns =>
      cases hresult : encodeCompressedEnvelope codec envelope with
      | error e => simp only [SenderCall.perform, Agent.send, hresult]
      | ok payload => simp [SenderCall.encodes, hresult, Except.toOption] at hencodes
  | preflight turns => simp [SenderCall.encodes] at hencodes

theorem Replays.perform {history : List Contact} {circuits : Circuits}
    (hpast : Replays sender history circuits)
    (hendpoints : sender.endpoints = [preferred, secondary]) {call : SenderCall} {clock : Int}
    (htimely : call.timely clock = true) :
    Replays sender (history ++ (call.perform codec sender circuits).contacts)
      (call.perform codec sender circuits).circuits := by
  simp only [SenderCall.timely, Bool.and_eq_true, decide_eq_true_eq] at htimely
  have htimes : ∀ j, 0 ≤ j → j < 0 + sender.endpoints.length →
      (call.turns j).checked ≤ (call.turns j).recorded := by
    intro j _ hj
    rw [hendpoints] at hj
    obtain rfl | rfl : j = 0 ∨ j = 1 := by
      simp only [List.length_cons, List.length_nil] at hj
      omega
    · exact htimely.1.1.2
    · exact htimely.2
  cases call with
  | send envelope turns =>
      cases hresult : encodeCompressedEnvelope codec envelope with
      | error e => simpa only [SenderCall.perform, Agent.send, hresult, List.append_nil] using hpast
      | ok payload =>
          simp only [SenderCall.perform, Agent.send, hresult]
          exact hpast.tryEndpoints 0 sender.endpoints [] htimes
  | preflight turns =>
      simp only [SenderCall.perform, Agent.preflight]
      exact hpast.tryEndpoints 0 sender.endpoints [] htimes

theorem Breaker.replays_run (hendpoints : sender.endpoints = [preferred, secondary]) {clock : Int}
    {calls : List SenderCall} {s : Breaker}
    (hrun : Machine.run (Breaker.step codec sender) (Breaker.init clock) calls = some s) :
    Replays sender s.history s.circuits := by
  refine Machine.invariant_run (I := fun s => Replays sender s.history s.circuits) ?_ hrun .initial
  intro s call s' hstep hpast
  simp only [Breaker.step, Option.ite_none_right_eq_some, Option.some.injEq] at hstep
  obtain ⟨htimely, rfl⟩ := hstep
  exact hpast.perform hendpoints htimely

/-- A run's history is made of its calls' contacts, in order, each with the outcome that its
call reads from the answer. -/
theorem Breaker.history_run {s s' : Breaker} {calls : List SenderCall}
    (hrun : Machine.run (Breaker.step codec sender) s calls = some s') :
    ∃ parts : List (List Contact), s'.history = s.history ++ parts.flatten ∧
      List.Forall₂ (fun (call : SenderCall) part =>
        ∀ c ∈ part, c.outcome.Reads call.Succeeds c.answer) calls parts := by
  induction calls generalizing s with
  | nil =>
      obtain rfl := Option.some.inj hrun
      exact ⟨[], by simp, List.Forall₂.nil⟩
  | cons call rest ih =>
      obtain ⟨next, hstep, hrest⟩ := Machine.run_cons_eq_some.mp hrun
      obtain ⟨parts, hparts, hreads⟩ := ih hrest
      simp only [Breaker.step, Option.ite_none_right_eq_some, Option.some.injEq] at hstep
      obtain ⟨-, rfl⟩ := hstep
      refine ⟨(call.perform codec sender s.circuits).contacts :: parts, ?_,
        List.Forall₂.cons ?_ hreads⟩
      · rw [hparts, List.flatten_cons, List.append_assoc]
      · cases hencodes : call.encodes codec with
        | true => exact (SenderCall.perform_hears hencodes s.circuits).reads
        | false => simp [SenderCall.perform_unencodable codec sender hencodes]

/-- The circuit of an endpoint is the one its last contact left. -/
theorem Replays.circuit {history : List Contact} {circuits : Circuits}
    (h : Replays sender history circuits) (endpoint : String) :
    circuits endpoint =
      ((history.filter fun c => decide (c.endpoint = endpoint)).getLast?.map Contact.after).getD
        ⟨0, none⟩ := by
  induction h with
  | initial => rfl
  | @contact history circuits c past before lawful ih =>
      by_cases hsame : c.endpoint = endpoint
      · subst hsame
        simp
      · rw [Function.update_of_ne (Ne.symm hsame), ih]
        simp [hsame]

/-- In every run of calls over two distinct endpoints: the counters stay below the threshold;
a circuit is what its endpoint's last contact left; every contact has the outcome that its
call's answer has, was admitted by its circuit, leaves it as the outcome says, and opens it,
for the cooldown, exactly when it is the threshold-th transient failure since the last success
or opening; and the next call contacts the endpoints as `Serves` says and reads their answers
as `Hears` says, unless its envelope does not encode, when it contacts nobody and changes
nothing. -/
theorem circuit_breaker_invariant (codec : Codec) (sender : Sender) (preferred secondary : String)
    (hendpoints : sender.endpoints = [preferred, secondary]) (hdistinct : preferred ≠ secondary)
    (clock : Int) (calls : List SenderCall) (s : Breaker)
    (hrun : Machine.run (Breaker.step codec sender) (Breaker.init clock) calls = some s) :
    (∀ endpoint, (s.circuits endpoint).failures < sender.circuitThreshold ∧
      s.circuits endpoint =
        ((s.history.filter fun c => decide (c.endpoint = endpoint)).getLast?.map
          Contact.after).getD ⟨0, none⟩) ∧
    (∀ (i : Nat) (c : Contact), s.history[i]? = some c →
      c.before.admits c.checked = true ∧ c.after = c.expected sender ∧
      (c.opens = true ↔ c.outcome = .transient ∧
        failuresSince (s.history.take i) c.endpoint + 1 = sender.circuitThreshold) ∧
      (c.opens = true → c.after = ⟨0, some (c.recorded + sender.circuitCooldown)⟩)) ∧
    (∃ parts : List (List Contact), s.history = parts.flatten ∧
      List.Forall₂ (fun (call : SenderCall) part =>
        ∀ c ∈ part, c.outcome.Reads call.Succeeds c.answer) calls parts) ∧
    (∀ call : SenderCall, call.encodes codec = true →
      Serves preferred secondary call.turns s.circuits (call.perform codec sender s.circuits) ∧
      Hears call.Succeeds [preferred, secondary] call.turns
        (call.perform codec sender s.circuits)) ∧
    (∀ call : SenderCall, call.encodes codec = false →
      call.perform codec sender s.circuits =
        ⟨.error ⟨"encode envelope", false, 0⟩, s.circuits, []⟩) := by
  have hreplays := Breaker.replays_run hendpoints hrun
  refine ⟨?_, ?_, ?_, ?_, ?_⟩
  · intro endpoint
    exact ⟨(hreplays.failures endpoint).2, hreplays.circuit endpoint⟩
  · intro i c hc
    obtain ⟨hlawful, hopens⟩ := hreplays.contacts hc
    refine ⟨hlawful.admitted, hlawful.after, hopens, ?_⟩
    intro hopen
    obtain ⟨houtcome, hthreshold⟩ := hlawful.opens_iff.mp hopen
    rw [hlawful.after, Contact.expected, houtcome]
    simp only [hthreshold, if_true]
  · exact Breaker.history_run hrun
  · intro call hencodes
    refine ⟨SenderCall.perform_serves hendpoints hdistinct hencodes s.circuits, ?_⟩
    rw [← hendpoints]
    exact SenderCall.perform_hears hencodes s.circuits
  · intro call hencodes
    exact SenderCall.perform_unencodable codec sender hencodes s.circuits

end Run

def twoReplicaSender : Sender :=
  ⟨["https://one", "https://two"], Text.utf8 "secret", 3, Time.seconds 30⟩

/-- No endpoint answers at this time. -/
def silent (now : Int) : Nat → Turn := fun _ => ⟨now, .transport, now⟩

/-- After three calls without an answer the fourth contacts nobody. -/
theorem silent_replicas_open_circuits :
    ∃ s, Machine.run (Breaker.step Proto.storedCodec twoReplicaSender) (Breaker.init 0)
        [.preflight (silent 1), .preflight (silent 2), .preflight (silent 3)] = some s ∧
      s.history.length = 6 ∧
      ((SenderCall.preflight (silent 4)).perform Proto.storedCodec twoReplicaSender
        s.circuits).contacts = [] := by
  refine ⟨_, rfl, rfl, ?_⟩
  have hinvariant := circuit_breaker_invariant Proto.storedCodec twoReplicaSender "https://one"
    "https://two" rfl (by decide) 0
    [.preflight (silent 1), .preflight (silent 2), .preflight (silent 3)] _ rfl
  exact ((hinvariant.2.2.2.1 (.preflight (silent 4)) rfl).1.bothOpen rfl rfl).1

/-- An envelope without identities. -/
def blankEnvelope : Envelope := .draft "" "" "" 0 0 [] []

/-- A delivery of it does not contact the preferred endpoint, whose circuit is not open. -/
theorem blank_envelope_contacts_nobody :
    (Circuits.initial "https://one").admits 1 = true ∧
      ((SenderCall.send blankEnvelope (silent 1)).perform Proto.storedCodec twoReplicaSender
        Circuits.initial).contacts = [] ∧
      ¬ Serves "https://one" "https://two" (silent 1) Circuits.initial
        ((SenderCall.send blankEnvelope (silent 1)).perform Proto.storedCodec twoReplicaSender
          Circuits.initial) := by
  have hencodes : (SenderCall.send blankEnvelope (silent 1)).encodes Proto.storedCodec = false := by
    decide +kernel
  rw [SenderCall.perform_unencodable Proto.storedCodec twoReplicaSender hencodes]
  refine ⟨rfl, rfl, ?_⟩
  intro hserves
  obtain ⟨c, hc, -⟩ := hserves.preferredContacted.mpr rfl
  exact absurd hc (by simp)

end NodeScope.Agent
