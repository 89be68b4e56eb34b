import NodeScope.Proxy.Metadata

/-!
# Relayed bodies and their outcomes

Three copy paths take the body of the deciding response to the client. All of them write the body
as it came, so only a status that makes `WriteHeader` panic keeps it back. The outcome of the event
is set before the body is read; streaming alone sets it anew when the read fails.
-/

namespace NodeScope.Proxy

open Lib Lib.Text Lib.Reader

section Written

variable (handler : Handler) (backends : Backends) (clock : Nat → Int) {request : Request}
variable {admitted : Admitted} {response : BackendResponse}

/-- What a response below 300 shows, by its status. -/
theorem visible_of_decided (hadmission : admission handler request = .ok admitted)
    (hdecided : (decision backends request admitted).2 = some response) :
    visible (serveHTTP handler backends clock request) =
      (visible (forwardEffects backends request admitted)).append
        (shownResponse handler clock admitted (decision backends request admitted).1 response) := by
  rw [visible_serveHTTP handler backends clock admitted hadmission]
  generalize decision backends request admitted = decided at *
  obtain ⟨slot, decidedResponse⟩ := decided
  obtain rfl : decidedResponse = some response := hdecided
  rfl

theorem written_of_decided (hadmission : admission handler request = .ok admitted)
    (hdecided : (decision backends request admitted).2 = some response) :
    written (serveHTTP handler backends clock request) =
      (shownResponse handler clock admitted (decision backends request admitted).1
        response).written := by
  have hvisible := visible_of_decided handler backends clock hadmission hdecided
  rw [visible_forwardEffects] at hvisible
  exact congrArg Visible.written hvisible

/-- The client gets the body of a response below 300 as it came, up to its end or to the failure of
the read, unless the handler panics at the status. -/
theorem relay_exact_iff (hadmission : admission handler request = .ok admitted)
    (hdecided : (decision backends request admitted).2 = some response)
    (hstatus : response.statusCode < 300) :
    written (serveHTTP handler backends clock request) = response.body.content ↔
      100 ≤ response.statusCode ∨ response.body.content = [] := by
  rw [written_of_decided handler backends clock hadmission hdecided, shownResponse]
  by_cases hlow : response.statusCode < 100
  · rw [if_pos hlow]
    constructor
    · exact fun hempty => Or.inr hempty.symm
    · rintro (hhigh | hempty)
      · exact absurd hlow (Nat.not_lt.mpr hhigh)
      · exact hempty.symm
  · rw [if_neg hlow, if_pos hstatus]
    exact iff_of_true rfl (Or.inl (Nat.not_lt.mp hlow))

end Written

/-- Backends that answer every request with one response. -/
def answers (status : Nat) (body : Source) : Backends := fun _ _ => some ⟨status, [], body⟩

theorem chunked_answer_relayed :
    written (serveHTTP ((oneRoute "http://one" "").handler true)
        (answers 200 ⟨[utf8 "do", [], utf8 "ne"], .failed⟩) (fun n => 1000000 * n) modelRequest) =
      utf8 "done" := by
  have hadmission : admission ((oneRoute "http://one" "").handler true) modelRequest =
      .ok (admittedModelRequest "http://one" "") := rfl
  have hdecided : (decision (answers 200 ⟨[utf8 "do", [], utf8 "ne"], .failed⟩) modelRequest
      (admittedModelRequest "http://one" "")).2 =
        some ⟨200, [], ⟨[utf8 "do", [], utf8 "ne"], .failed⟩⟩ := rfl
  exact (relay_exact_iff _ _ _ hadmission hdecided (by decide)).mpr (Or.inl (by decide))

/-- Nothing is written of a response whose status line reads `HTTP/1.1 099`. -/
theorem lowStatus_not_relayed :
    written (serveHTTP ((oneRoute "http://one" "").handler true)
        (answers 99 ⟨[utf8 "done"], .eof⟩) (fun n => 1000000 * n) modelRequest) ≠ utf8 "done" := by
  decide

section Outcome

/-- The response that decides a request; there is none for a request that was not admitted. -/
def decidingResponse (handler : Handler) (backends : Backends) (request : Request) :
    Option BackendResponse :=
  match admission handler request with
  | .ok admitted => (decision backends request admitted).2
  | .error _ => none

/-- An event says `completed` for a body that was read to the end of the file, and never for a
read that failed. -/
structure OutcomeExact (deciding : Option BackendResponse) (effects : List Effect) : Prop where
  completed : (∃ event ∈ usageEvents effects, event.outcome = .completed) ↔
    ∃ response, deciding = some response ∧ response.statusCode < 300 ∧ readBodies effects ≠ [] ∧
      response.body.ending = .eof
  failed : ∀ response, deciding = some response → readBodies effects ≠ [] →
    response.body.ending = .failed →
      ∃ event, usageEvents effects = [event] ∧ event.outcome ≠ .completed

theorem responseEvent_completed (admitted : Admitted) (slot : Slot) {status : Nat}
    (hstatus : status < 300) (occurredAt : Int) :
    (responseEvent admitted slot status occurredAt).outcome = .completed :=
  if_pos (by omega)

/-- The outcome of a relayed body is corrected by streaming only. -/
theorem relayedEvent_outcome (clock : Nat → Int) (admitted : Admitted) (slot : Slot)
    {response : BackendResponse} (hstatus : response.statusCode < 300) :
    (relayedEvent clock admitted slot response).outcome = .completed ↔
      (response.body.ending = .failed → admitted.metadata.stream = false) := by
  have hpreset := responseEvent_completed admitted slot hstatus (clock 1)
  cases hstream : admitted.metadata.stream with
  | true =>
      cases hending : response.body.ending with
      | eof => simp [relayedEvent, hstream, streamEvent, hending, hpreset]
      | failed => simp [relayedEvent, hstream, streamEvent, hending]
  | false =>
      refine iff_of_true ?_ fun _ => rfl
      simp only [relayedEvent, hstream, wholeEvent, Bool.false_eq_true, if_false]
      split
      · exact hpreset
      · exact hpreset

theorem refusedEvent_outcome (clock : Nat → Int) (admitted : Admitted) (slot : Slot)
    (status : Nat) : (refusedEvent clock admitted slot status).outcome ≠ .completed := by
  rw [refusedEvent]
  split <;> simp

variable (handler : Handler) (backends : Backends) (clock : Nat → Int) (request : Request)

theorem readBodies_serveHTTP {admitted : Admitted}
    (hadmission : admission handler request = .ok admitted) :
    readBodies (serveHTTP handler backends clock request) =
      (shown handler clock admitted (decision backends request admitted)).readBodies := by
  have hvisible := visible_serveHTTP handler backends clock admitted hadmission
  rw [visible_forwardEffects] at hvisible
  have hread := congrArg Visible.readBodies hvisible
  simp only [visible, Visible.append, List.nil_append] at hread
  exact hread

/-- A refused request shows neither an event nor a read. -/
theorem visible_refusal {refusal : Nat × String}
    (hadmission : admission handler request = .error refusal) :
    usageEvents (serveHTTP handler backends clock request) = [] ∧
      readBodies (serveHTTP handler backends clock request) = [] := by
  obtain ⟨status, title⟩ := refusal
  rw [serveHTTP, hadmission]
  have hproblem := visible_problem status title
  exact ⟨congrArg Visible.usageEvents hproblem, congrArg Visible.readBodies hproblem⟩

variable {handler clock}

/-- Where no body is read, it is enough that no event says `completed`. -/
theorem outcomeExact_of_unread {deciding : Option BackendResponse} {effects : List Effect}
    (hread : readBodies effects = [])
    (hevents : ∀ event ∈ usageEvents effects, event.outcome ≠ .completed) :
    OutcomeExact deciding effects := by
  refine ⟨?_, fun _ _ hne => absurd hread hne⟩
  constructor
  · rintro ⟨event, hmem, hcompleted⟩
    exact absurd hcompleted (hevents event hmem)
  · rintro ⟨_, _, _, hne, _⟩
    exact absurd hread hne

/-- Where a body is relayed, its event decides. -/
theorem outcomeExact_of_relayed {admitted : Admitted} {slot : Slot} {response : BackendResponse}
    {effects : List Effect} (hstatus : response.statusCode < 300)
    (hread : readBodies effects = [slot])
    (hevents : usageEvents effects = [relayedEvent clock admitted slot response]) :
    OutcomeExact (some response) effects ↔
      (response.body.ending = .failed → admitted.metadata.stream = true) := by
  have houtcome := relayedEvent_outcome clock admitted slot hstatus
  cases hending : response.body.ending with
  | eof =>
      have hcompleted : (relayedEvent clock admitted slot response).outcome = .completed :=
        houtcome.mpr fun hfailed => by simp [hending] at hfailed
      refine iff_of_true ⟨?_, ?_⟩ (by simp)
      · simp [hevents, hread, hcompleted, hstatus, hending]
      · rintro _ ⟨⟩ _ hfailed
        simp [hending] at hfailed
  | failed =>
      simp only [hending, true_implies] at houtcome
      constructor
      · intro hexact _
        obtain ⟨event, hevent, hne⟩ := hexact.failed response rfl (by simp [hread]) hending
        obtain rfl := List.singleton_inj.mp (hevents.symm.trans hevent)
        rw [← Bool.not_eq_false]
        exact fun hstream => hne (houtcome.mpr hstream)
      · intro hstream
        have hne : (relayedEvent clock admitted slot response).outcome ≠ .completed := by
          rw [ne_eq, houtcome, hstream rfl]
          simp
        refine ⟨?_, fun _ _ _ _ => ⟨_, hevents, hne⟩⟩
        simp [hevents, hread, hne, hending]

variable (handler clock) in
/-- An outcome is right exactly when every failing body is streamed. -/
theorem outcome_exact_iff :
    OutcomeExact (decidingResponse handler backends request)
        (serveHTTP handler backends clock request) ↔
      ∀ admitted, admission handler request = .ok admitted →
        ∀ response, (decision backends request admitted).2 = some response →
          100 ≤ response.statusCode → response.statusCode < 300 →
            response.body.ending = .failed → admitted.metadata.stream = true := by
  cases hadmission : admission handler request with
  | error refusal =>
      obtain ⟨hevents, hread⟩ := visible_refusal handler backends clock request hadmission
      exact iff_of_true (outcomeExact_of_unread hread (by simp [hevents])) (by simp)
  | ok admitted =>
      have hevents := (events_serveHTTP backends clock hadmission).1
      have hread := readBodies_serveHTTP handler backends clock request hadmission
      have hdeciding : decidingResponse handler backends request =
          (decision backends request admitted).2 := by
        rw [decidingResponse, hadmission]
      rw [hdeciding]
      simp only [Except.ok.injEq, forall_eq']
      generalize decision backends request admitted = decided at hevents hread
      obtain ⟨slot, _ | response⟩ := decided
      · refine iff_of_true (outcomeExact_of_unread hread ?_) (by simp)
        simp [hevents, shown, transportEvent]
      · simp only [Option.some.injEq, forall_eq']
        rw [shown, shownResponse] at hevents hread
        split at hevents
        · next hlow =>
            rw [if_pos hlow] at hread
            refine iff_of_true (outcomeExact_of_unread hread (by simp [hevents])) ?_
            exact fun hge => absurd hlow (Nat.not_lt.mpr hge)
        · next hlow =>
            rw [if_neg hlow] at hread
            split at hevents
            · next hstatus =>
                rw [if_pos hstatus] at hread
                rw [outcomeExact_of_relayed hstatus hread hevents]
                simp [hstatus, Nat.not_lt.mp hlow]
            · next hstatus =>
                rw [if_neg hstatus] at hread
                have hrefused := refusedEvent_outcome clock admitted slot response.statusCode
                refine iff_of_true (outcomeExact_of_unread hread (by simp [hevents, hrefused])) ?_
                exact fun _ hlt => absurd hlt hstatus

end Outcome

/-- A body of two chunks that breaks off is recorded as `completed`. -/
theorem truncated_body_completed :
    ¬ OutcomeExact (decidingResponse ((oneRoute "http://one" "").handler true)
        (answers 200 ⟨[utf8 "do", utf8 "ne"], .failed⟩) modelRequest)
      (serveHTTP ((oneRoute "http://one" "").handler true)
        (answers 200 ⟨[utf8 "do", utf8 "ne"], .failed⟩) (fun n => 1000000 * n) modelRequest) := by
  intro hexact
  have hresponse : decidingResponse ((oneRoute "http://one" "").handler true)
      (answers 200 ⟨[utf8 "do", utf8 "ne"], .failed⟩) modelRequest =
        some ⟨200, [], ⟨[utf8 "do", utf8 "ne"], .failed⟩⟩ := by
    decide
  obtain ⟨response, hdeciding, -, -, hending⟩ := hexact.completed.mp (by decide)
  obtain rfl := Option.some.inj (hresponse.symm.trans hdeciding)
  cases hending

end NodeScope.Proxy
