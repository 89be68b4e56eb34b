import NodeScope.Proxy.Handler

/-!
# Failover between the backends of a route

Which of the two backends decides a request is a rule on their two replies, `deciding`. The
handler follows it: it asks the primary first, the secondary only when the rule needs it, and
what it tells the client and the recorder is about the deciding response.
-/

namespace NodeScope.Proxy

open Lib Lib.Check Lib.Text Lib.Reader

section Projections

def Effect.contact? : Effect → Option (Slot × BackendRequest)
  | .contact slot request => some (slot, request)
  | _ => none

def Effect.usageEvent? : Effect → Option UsageEvent
  | .recordUsage event => some event
  | _ => none

def Effect.operationalEvent? : Effect → Option OperationalEvent
  | .observeProxy event => some event
  | _ => none

def Effect.header? : Effect → Option (Nat × Header)
  | .writeHeader status header => some (status, header)
  | _ => none

def Effect.read? : Effect → Option Slot
  | .readBody slot => some slot
  | _ => none

def Effect.bytes : Effect → List UInt8
  | .write bytes => bytes
  | _ => []

/-- The requests to the backends, in their order. -/
def contacts (effects : List Effect) : List (Slot × BackendRequest) :=
  effects.filterMap Effect.contact?

/-- The events handed to the recorder. -/
def usageEvents (effects : List Effect) : List UsageEvent := effects.filterMap Effect.usageEvent?

/-- The events handed to the observer. -/
def operationalEvents (effects : List Effect) : List OperationalEvent :=
  effects.filterMap Effect.operationalEvent?

/-- The statuses sent to the client, with their headers. -/
def headers (effects : List Effect) : List (Nat × Header) := effects.filterMap Effect.header?

/-- The backends whose response bodies are read. -/
def readBodies (effects : List Effect) : List Slot := effects.filterMap Effect.read?

/-- The bytes sent to the client. -/
def written (effects : List Effect) : List UInt8 := effects.flatMap Effect.bytes

/-- All that the effects show to the outside. -/
structure Visible where
  contacts : List (Slot × BackendRequest)
  usageEvents : List UsageEvent
  operationalEvents : List OperationalEvent
  headers : List (Nat × Header)
  readBodies : List Slot
  written : List UInt8

def visible (effects : List Effect) : Visible where
  contacts := contacts effects
  usageEvents := usageEvents effects
  operationalEvents := operationalEvents effects
  headers := headers effects
  readBodies := readBodies effects
  written := written effects

def Visible.append (a b : Visible) : Visible where
  contacts := a.contacts ++ b.contacts
  usageEvents := a.usageEvents ++ b.usageEvents
  operationalEvents := a.operationalEvents ++ b.operationalEvents
  headers := a.headers ++ b.headers
  readBodies := a.readBodies ++ b.readBodies
  written := a.written ++ b.written

theorem visible_append (a b : List Effect) :
    visible (a ++ b) = (visible a).append (visible b) := by
  simp [visible, Visible.append, contacts, usageEvents, operationalEvents, headers, readBodies,
    written]

/-- The observer is told of every event, if there is one. -/
def observed (handler : Handler) (event : UsageEvent) : List OperationalEvent :=
  if handler.observer then [operationalEvent event] else []

theorem visible_record (handler : Handler) (event : UsageEvent) :
    visible (record handler event) =
      ⟨[], [event], observed handler event, [], [], []⟩ := by
  rw [record, observed]
  cases handler.observer <;> rfl

theorem visible_write (chunks : List (List UInt8)) :
    visible (chunks.map .write) = ⟨[], [], [], [], [], chunks.flatten⟩ := by
  induction chunks with
  | nil => rfl
  | cons chunk rest ih =>
      rw [List.map_cons, List.flatten_cons, ← List.singleton_append, visible_append, ih]
      simp [visible, Visible.append, contacts, usageEvents, operationalEvents, headers, readBodies,
        written, Effect.contact?, Effect.usageEvent?, Effect.operationalEvent?, Effect.header?,
        Effect.read?, Effect.bytes]

def problemHeader : Header :=
  [("Content-Type", utf8 "application/problem+json; charset=utf-8"),
    ("Cache-Control", utf8 "no-store")]

theorem visible_problem (status : Nat) (title : String) :
    visible (writeProxyProblem status title) =
      ⟨[], [], [], [(status, problemHeader)], [], problemBody status title⟩ := by
  simp [visible, contacts, usageEvents, operationalEvents, headers, readBodies, written,
    writeProxyProblem, problemHeader, Effect.contact?, Effect.usageEvent?,
    Effect.operationalEvent?, Effect.header?, Effect.read?, Effect.bytes]

theorem visible_relay (status : Nat) (header : Header) (slot : Slot) :
    visible [.writeHeader status header, .readBody slot] =
      ⟨[], [], [], [(status, header)], [slot], []⟩ :=
  rfl

theorem visible_closeBody (slot : Slot) : visible [.closeBody slot] = ⟨[], [], [], [], [], []⟩ :=
  rfl

theorem mem_readBodies {slot : Slot} {effects : List Effect} :
    slot ∈ readBodies effects ↔ Effect.readBody slot ∈ effects := by
  rw [readBodies, List.mem_filterMap]
  constructor
  · rintro ⟨effect, hmem, heq⟩
    cases effect with
    | readBody s =>
        cases heq
        exact hmem
    | _ => cases heq
  · exact fun hmem => ⟨_, hmem, rfl⟩

/-- No body is read once it has been closed. -/
def NeverReadsClosed (effects : List Effect) : Prop :=
  effects.Pairwise fun earlier later => ∀ slot, earlier = .closeBody slot → later ≠ .readBody slot

theorem neverReadsClosed_append {a b : List Effect} (ha : NeverReadsClosed a)
    (hb : NeverReadsClosed b) (h : ∀ slot, .closeBody slot ∈ a → slot ∉ readBodies b) :
    NeverReadsClosed (a ++ b) := by
  refine List.pairwise_append.mpr ⟨ha, hb, ?_⟩
  rintro _ hclose _ hread slot rfl rfl
  exact h slot hclose (mem_readBodies.mpr hread)

theorem neverReadsClosed_of_readBodies {a : List Effect} (h : readBodies a = []) :
    NeverReadsClosed a := by
  refine List.Pairwise.imp_of_mem ?_ (List.pairwise_of_forall (fun _ _ => trivial))
  rintro _ _ _ hread _ slot _ rfl
  exact absurd (mem_readBodies.mpr hread) (by simp [h])

theorem neverReadsClosed_of_open {a : List Effect} (h : ∀ slot, .closeBody slot ∉ a) :
    NeverReadsClosed a := by
  refine List.Pairwise.imp_of_mem ?_ (List.pairwise_of_forall (fun _ _ => trivial))
  rintro _ _ hclose _ _ slot rfl
  exact absurd hclose (h slot)

end Projections

section Rule

/-- The request the backend in a slot would get; `none` when its URL is refused. -/
def ask (request : Request) (admitted : Admitted) (slot : Slot) : Option BackendRequest :=
  backendRequest request.header admitted.payload (admitted.route.url slot)

/-- The reply of a backend; `none` when the transport fails or its URL is refused. -/
def reply (backends : Backends) (request : Request) (admitted : Admitted) (slot : Slot) :
    Option BackendResponse :=
  (ask request admitted slot).bind (backends slot)

/-- Whether the reply of the primary calls for the secondary. -/
def primaryFailed : Option BackendResponse → Bool
  | none => true
  | some response => response.statusCode ∈ [502, 503, 504]

/-- Whether the secondary is asked: there is one, and the primary has failed. -/
def needsSecondary (route : BackendRoute) (primary : Option BackendResponse) : Bool :=
  route.hasSecondary && primaryFailed primary

/-- The rule of the failover: the secondary decides if it was needed and answered. -/
def deciding (needed : Bool) (primary secondary : Option BackendResponse) :
    Slot × Option BackendResponse :=
  if needed then
    match secondary, primary with
    | some response, _ => (.secondary, some response)
    | none, some response => (.primary, some response)
    | none, none => (.secondary, none)
  else (.primary, primary)

/-- The backend that decides a request, with its response. -/
def decision (backends : Backends) (request : Request) (admitted : Admitted) :
    Slot × Option BackendResponse :=
  deciding (needsSecondary admitted.route (reply backends request admitted .primary))
    (reply backends request admitted .primary) (reply backends request admitted .secondary)

end Rule

section Forward

variable (backends : Backends) (request : Request) (admitted : Admitted)

theorem forwardOnce_eq (slot : Slot) :
    forwardOnce backends request.header admitted.payload admitted.route slot =
      ((ask request admitted slot).toList.map (.contact slot),
        reply backends request admitted slot) := by
  rw [forwardOnce, reply, ask]
  cases backendRequest request.header admitted.payload (admitted.route.url slot) <;> rfl

theorem needsSecondary_some (route : BackendRoute) (response : BackendResponse) :
    (shouldFailOverStatus response.statusCode && route.hasSecondary) =
      needsSecondary route (some response) := by
  rw [Bool.and_comm, needsSecondary, primaryFailed, shouldFailOverStatus]
  congr 1
  rw [Bool.eq_iff_iff]
  simp [or_assoc]

theorem needsSecondary_none (route : BackendRoute) :
    needsSecondary route none = route.hasSecondary := by
  simp [needsSecondary, primaryFailed]

/-- `forward` follows the rule. -/
theorem forward_decides :
    ((forward backends request.header admitted.payload admitted.route).slot,
      (forward backends request.header admitted.payload admitted.route).response) =
        decision backends request admitted := by
  rw [forward, forwardOnce_eq, forwardOnce_eq, decision]
  cases hp : reply backends request admitted .primary with
  | none =>
      rw [needsSecondary_none]
      cases hsec : admitted.route.hasSecondary with
      | false => simp [deciding]
      | true => cases hs : reply backends request admitted .secondary <;> simp [deciding]
  | some response =>
      simp only [needsSecondary_some]
      cases hneeded : needsSecondary admitted.route (some response) with
      | false => simp [deciding]
      | true => cases hs : reply backends request admitted .secondary <;> simp [deciding]

/-- The requests to the backends, with the response that is given up closed in between. -/
def forwardEffects : List Effect :=
  (ask request admitted .primary).toList.map (.contact .primary) ++
    if needsSecondary admitted.route (reply backends request admitted .primary) then
      (reply backends request admitted .primary).toList.map (fun _ => .closeBody .primary) ++
        (ask request admitted .secondary).toList.map (.contact .secondary)
    else []

theorem forward_effects :
    (forward backends request.header admitted.payload admitted.route).effects =
      forwardEffects backends request admitted := by
  rw [forward, forwardOnce_eq, forwardOnce_eq, forwardEffects]
  cases hp : reply backends request admitted .primary with
  | none =>
      rw [needsSecondary_none]
      cases hsec : admitted.route.hasSecondary <;> simp
  | some response =>
      simp only [needsSecondary_some]
      cases hneeded : needsSecondary admitted.route (some response) with
      | false => simp
      | true => cases hs : reply backends request admitted .secondary <;> simp

end Forward

section Event

variable (clock : Nat → Int)

/-- The event of a streamed body: the clock is read once more if anything came. -/
def streamEvent (event : UsageEvent) (body : Source) : UsageEvent :=
  { event with
    ttftMilliseconds :=
      if body.content = [] then none else some (millisecondsSince (clock 0) (clock 2))
    outcome := if body.ending = .failed then .streamError else event.outcome
    durationMilliseconds :=
      millisecondsSince (clock 0) (clock (if body.content = [] then 2 else 3)) }

/-- Whether a body is read to its end within the bound. -/
def Complete (body : Source) : Prop :=
  body.ending = .eof ∧ body.content.length ≤ maxNonStreamingResponseBytes

instance (body : Source) : Decidable (Complete body) :=
  inferInstanceAs (Decidable (_ ∧ _))

/-- The event of a body that is not streamed. -/
def wholeEvent (event : UsageEvent) (body : Source) : UsageEvent :=
  if Complete body then
    { event with
      promptTokens := (extractUsage body.content).promptTokens
      outputTokens := (extractUsage body.content).completionTokens
      totalTokens := (extractUsage body.content).totalTokens
      ttftMilliseconds := some (millisecondsSince (clock 0) (clock 2))
      durationMilliseconds := millisecondsSince (clock 0) (clock 3) }
  else { event with durationMilliseconds := millisecondsSince (clock 0) (clock 2) }

/-- The event of a relayed response. -/
def relayedEvent (admitted : Admitted) (slot : Slot) (response : BackendResponse) : UsageEvent :=
  let event := responseEvent admitted slot response.statusCode (clock 1)
  if admitted.metadata.stream then streamEvent clock event response.body
  else wholeEvent clock event response.body

/-- The event of a response whose body is not read. -/
def refusedEvent (admitted : Admitted) (slot : Slot) (status : Nat) : UsageEvent :=
  { responseEvent admitted slot status (clock 1) with
    durationMilliseconds := millisecondsSince (clock 0) (clock 2)
    outcome := if isBackendRedirect status then .backendRedirect else .backendError }

/-- The part of an event that says what it is about. -/
structure Label where
  occurredAt : Int
  routeID : String
  model : String
  clientID : String
  backendID : String
  statusCode : Nat
  streaming : Bool

def UsageEvent.label (event : UsageEvent) : Label :=
  ⟨event.occurredAt, event.routeID, event.model, event.clientID, event.backendID,
    event.statusCode, event.streaming⟩

def label (admitted : Admitted) (slot : Slot) (status : Nat) : Label :=
  ⟨clock 1, admitted.route.id, admitted.metadata.model, admitted.clientID,
    admitted.route.backendID slot, status, admitted.metadata.stream⟩

/-- Reading the body does not change what the event is about. -/
theorem relayedEvent_label (admitted : Admitted) (slot : Slot) (response : BackendResponse) :
    (relayedEvent clock admitted slot response).label =
      label clock admitted slot response.statusCode := by
  simp only [relayedEvent, streamEvent, wholeEvent]
  split
  · rfl
  · split <;> rfl

theorem copyStreaming_written (started : Int) (reads : List (List UInt8)) (tick : Nat)
    (ttft : Option Int) :
    ∃ chunks : List (List UInt8), chunks.flatten = reads.flatten ∧
      (copyStreaming clock started reads tick ttft).1 = chunks.map .write := by
  induction reads generalizing tick ttft with
  | nil => exact ⟨[], rfl, rfl⟩
  | cons chunk rest ih =>
      simp only [copyStreaming]
      split
      · next hempty =>
          obtain ⟨chunks, hflat, heq⟩ := ih tick ttft
          refine ⟨chunks, ?_, heq⟩
          rw [hflat, List.flatten_cons, List.isEmpty_iff.mp hempty, List.nil_append]
      · cases ttft with
        | none =>
            obtain ⟨chunks, hflat, heq⟩ :=
              ih (tick + 1) (some (millisecondsSince started (clock tick)))
            exact ⟨chunk :: chunks, by simp [hflat], by simp [heq]⟩
        | some value =>
            obtain ⟨chunks, hflat, heq⟩ := ih tick (some value)
            exact ⟨chunk :: chunks, by simp [hflat], by simp [heq]⟩

/-- Once the first bytes have come, the clock is not read again. -/
theorem copyStreaming_clock_some (started : Int) (reads : List (List UInt8)) (tick : Nat)
    (value : Int) : (copyStreaming clock started reads tick (some value)).2 = (some value, tick) := by
  induction reads with
  | nil => rfl
  | cons chunk rest ih =>
      simp only [copyStreaming]
      split
      · exact ih
      · exact ih

theorem copyStreaming_clock (started : Int) (reads : List (List UInt8)) (tick : Nat) :
    (copyStreaming clock started reads tick none).2 =
      if reads.flatten = [] then (none, tick)
      else (some (millisecondsSince started (clock tick)), tick + 1) := by
  induction reads with
  | nil => rfl
  | cons chunk rest ih =>
      simp only [copyStreaming]
      split
      · next hempty => rw [ih, List.flatten_cons, List.isEmpty_iff.mp hempty, List.nil_append]
      · next hne =>
          rw [copyStreaming_clock_some, if_neg]
          intro hflat
          rw [List.flatten_cons, List.append_eq_nil_iff] at hflat
          exact hne (List.isEmpty_iff.mpr hflat.1)

theorem relayStream_eq (handler : Handler) (event : UsageEvent) (body : Source) :
    ∃ chunks : List (List UInt8), chunks.flatten = body.content ∧
      relayStream handler clock event body =
        chunks.map .write ++ record handler (streamEvent clock event body) := by
  obtain ⟨chunks, hflat, heq⟩ :=
    copyStreaming_written clock (clock 0) (body.reads streamBufferBytes) 2 none
  have hclock := copyStreaming_clock clock (clock 0) (body.reads streamBufferBytes) 2
  rw [Source.flatten_reads] at hflat hclock
  refine ⟨chunks, hflat, ?_⟩
  simp only [relayStream, heq, hclock, streamEvent]
  split <;> rfl

/-- Reading one byte beyond the bound tells whether the body is within it. -/
theorem readLimited_complete (body : Source) :
    ((body.readLimited (maxNonStreamingResponseBytes + 1)).2 = .eof ∧
      (body.readLimited (maxNonStreamingResponseBytes + 1)).1.length ≤
        maxNonStreamingResponseBytes) ↔ Complete body := by
  rw [Source.readLimited, Complete]
  split
  · next hlong =>
      simp only [List.length_take, true_and]
      omega
  · rfl

theorem readLimited_append (body : Source) (limit : Nat) :
    (body.readLimited limit).1 ++ body.content.drop (body.readLimited limit).1.length =
      body.content := by
  rw [Source.readLimited]
  split
  · next hlong => rw [List.length_take, min_eq_left hlong, List.take_append_drop]
  · simp [Source.readAll]

theorem readLimited_of_complete {body : Source} (h : Complete body) :
    (body.readLimited (maxNonStreamingResponseBytes + 1)).1 = body.content := by
  rw [Source.readLimited, if_neg (by have := h.2; omega), Source.readAll]

theorem relayWhole_eq (handler : Handler) (event : UsageEvent) (body : Source) :
    ∃ chunks : List (List UInt8), chunks.flatten = body.content ∧
      relayWhole handler clock event body =
        chunks.map .write ++ record handler (wholeEvent clock event body) := by
  simp only [relayWhole, readLimited_complete, wholeEvent]
  split
  · next hcomplete =>
      rw [readLimited_of_complete hcomplete]
      exact ⟨[body.content], by simp, rfl⟩
  · exact ⟨[_, _], by simpa using readLimited_append body _, rfl⟩

end Event

section Answer

variable (handler : Handler) (clock : Nat → Int) (admitted : Admitted) (slot : Slot)

def refusalTitle (status : Nat) : String :=
  if isBackendRedirect status then "approved backend route attempted an unsupported redirect"
  else "approved backend route returned an error"

/-- What is shown of a response: nothing if its status makes the handler panic, the response
itself below 300, and a problem from there on. -/
def shownResponse (response : BackendResponse) : Visible :=
  if response.statusCode < 100 then ⟨[], [], [], [], [], []⟩
  else if response.statusCode < 300 then
    let event := relayedEvent clock admitted slot response
    ⟨[], [event], observed handler event, [(response.statusCode, relayedHeader admitted response)],
      [slot], response.body.content⟩
  else
    let event := refusedEvent clock admitted slot response.statusCode
    ⟨[], [event], observed handler event, [(502, problemHeader)], [],
      problemBody 502 (refusalTitle response.statusCode)⟩

/-- What is shown after the deciding response is known. -/
def shown : Slot × Option BackendResponse → Visible
  | (slot, some response) => shownResponse handler clock admitted slot response
  | (slot, none) =>
      let event := transportEvent clock admitted slot
      ⟨[], [event], observed handler event, [(502, problemHeader)], [],
        problemBody 502 "approved backend route did not respond"⟩

variable {response : BackendResponse}

theorem isBackendRedirect_of_lt {status : Nat} (h : status < 300) :
    isBackendRedirect status = false := by
  simp [isBackendRedirect]
  omega

/-- A response below 300 is relayed: its status, its whole body, and one event. -/
theorem answer_relays (hlow : 100 ≤ response.statusCode) (hhigh : response.statusCode < 300) :
    ∃ chunks : List (List UInt8), chunks.flatten = response.body.content ∧
      answer handler clock admitted slot response =
        [.writeHeader response.statusCode (relayedHeader admitted response), .readBody slot] ++
          (chunks.map .write ++ record handler (relayedEvent clock admitted slot response)) := by
  have herror : ¬ 400 ≤ response.statusCode := by omega
  have hpanic : ¬ response.statusCode < 100 := by omega
  simp only [answer, isBackendRedirect_of_lt hhigh, herror, hpanic, decide_false, Bool.or_self,
    Bool.false_eq_true, if_false, relayedEvent]
  split
  · obtain ⟨chunks, hflat, heq⟩ := relayStream_eq clock handler
      (responseEvent admitted slot response.statusCode (clock 1)) response.body
    exact ⟨chunks, hflat, by rw [heq]⟩
  · obtain ⟨chunks, hflat, heq⟩ := relayWhole_eq clock handler
      (responseEvent admitted slot response.statusCode (clock 1)) response.body
    exact ⟨chunks, hflat, by rw [heq]⟩

/-- From 300 on the client gets a problem, and the body stays unread. -/
theorem answer_refuses (h : 300 ≤ response.statusCode) :
    answer handler clock admitted slot response =
      record handler (refusedEvent clock admitted slot response.statusCode) ++
        writeProxyProblem 502 (refusalTitle response.statusCode) := by
  simp only [answer, refusedEvent, refusalTitle]
  cases hredirect : isBackendRedirect response.statusCode with
  | true => simp
  | false =>
      have herror : 400 ≤ response.statusCode := by
        simp [isBackendRedirect] at hredirect
        omega
      simp [herror, responseEvent, Nat.not_lt.mpr herror]

theorem answer_panics (h : response.statusCode < 100) :
    answer handler clock admitted slot response = [] := by
  have herror : ¬ 400 ≤ response.statusCode := by omega
  simp [answer, isBackendRedirect_of_lt (by omega : response.statusCode < 300), herror, h]

theorem visible_answer (response : BackendResponse) :
    visible (answer handler clock admitted slot response) =
      shownResponse handler clock admitted slot response := by
  rw [shownResponse]
  split
  · next hlow =>
      rw [answer_panics handler clock admitted slot hlow]
      rfl
  · next hlow =>
      split
      · next hhigh =>
          obtain ⟨chunks, hflat, heq⟩ :=
            answer_relays handler clock admitted slot (Nat.not_lt.mp hlow) hhigh
          rw [heq, visible_append, visible_append, visible_write, visible_record, hflat,
            visible_relay]
          simp [Visible.append]
      · next hhigh =>
          rw [answer_refuses handler clock admitted slot (Nat.not_lt.mp hhigh), visible_append,
            visible_record, visible_problem]
          simp [Visible.append]

theorem mem_shownResponse_readBodies {s : Slot}
    (h : s ∈ (shownResponse handler clock admitted slot response).readBodies) :
    s = slot ∧ response.statusCode < 300 := by
  rw [shownResponse] at h
  split at h
  · cases h
  · split at h
    · next hhigh => exact ⟨List.mem_singleton.mp h, hhigh⟩
    · cases h

/-- What is asked of the backends is settled before the answer. -/
theorem shown_contacts (decided : Slot × Option BackendResponse) :
    (shown handler clock admitted decided).contacts = [] := by
  obtain ⟨slot, _ | response⟩ := decided
  · rfl
  · rw [shown, shownResponse]
    split
    · rfl
    · split <;> rfl

/-- No body is closed before the answer is complete. -/
theorem closeBody_notMem_answer (response : BackendResponse) (s : Slot) :
    .closeBody s ∉ answer handler clock admitted slot response := by
  have hrecord (event : UsageEvent) : .closeBody s ∉ record handler event := by
    rw [record]
    split <;> simp
  obtain hlow | hlow := Nat.lt_or_ge response.statusCode 100
  · simp [answer_panics handler clock admitted slot hlow]
  · obtain hhigh | hhigh := Nat.lt_or_ge response.statusCode 300
    · obtain ⟨chunks, -, heq⟩ := answer_relays handler clock admitted slot hlow hhigh
      simp [heq, hrecord]
    · simp [answer_refuses handler clock admitted slot hhigh, hrecord, writeProxyProblem]

end Answer

section Serve

variable (handler : Handler) (backends : Backends) (clock : Nat → Int) {request : Request}
variable {admitted : Admitted}

/-- The effects of a request that was admitted, by its deciding response. -/
theorem serveHTTP_eq (hadmission : admission handler request = .ok admitted) :
    serveHTTP handler backends clock request =
      forwardEffects backends request admitted ++
        match (decision backends request admitted).2 with
        | some response =>
            answer handler clock admitted (decision backends request admitted).1 response ++
              [.closeBody (decision backends request admitted).1]
        | none =>
            record handler (transportEvent clock admitted (decision backends request admitted).1) ++
              writeProxyProblem 502 "approved backend route did not respond" := by
  rw [serveHTTP, hadmission]
  cases hresponse : (forward backends request.header admitted.payload admitted.route).response with
  | none => simp [serveAdmitted, forward_effects, ← forward_decides, hresponse]
  | some response => simp [serveAdmitted, forward_effects, ← forward_decides, hresponse]

/-- A response that was given up does not decide below 300. -/
theorem decision_primary {response : BackendResponse}
    (h : decision backends request admitted = (.primary, some response))
    (hhigh : response.statusCode < 300) :
    needsSecondary admitted.route (reply backends request admitted .primary) = false := by
  by_contra hneeded
  rw [Bool.not_eq_false] at hneeded
  simp only [decision, deciding, hneeded, if_true] at h
  cases hp : reply backends request admitted .primary with
  | none =>
      cases hs : reply backends request admitted .secondary <;> simp [hp, hs] at h
  | some first =>
      cases hs : reply backends request admitted .secondary with
      | some second => simp [hp, hs] at h
      | none =>
          simp only [hp, hs, Prod.mk.injEq, true_and, Option.some.injEq] at h
          subst h
          simp [hp, needsSecondary, primaryFailed] at hneeded
          omega

/-- What the failover promises of one request: whom it contacts, that it keeps away from bodies
that are closed or not to be relayed, and what it records and answers. -/
structure FailoverExact (backends : Backends) (request : Request) (admitted : Admitted)
    (effects : List Effect) : Prop where
  contacted : contacts effects =
    (ask request admitted .primary).toList.map (Prod.mk .primary) ++
      if needsSecondary admitted.route (reply backends request admitted .primary) then
        (ask request admitted .secondary).toList.map (Prod.mk .secondary)
      else []
  payload : ∀ c ∈ contacts effects, c.2.payload = admitted.payload
  closed : NeverReadsClosed effects
  recorded : (∀ response, (decision backends request admitted).2 = some response →
      100 ≤ response.statusCode) →
    ∃ event, usageEvents effects = [event] ∧
      event.backendID = admitted.route.backendID (decision backends request admitted).1 ∧
      event.statusCode =
        ((decision backends request admitted).2.map BackendResponse.statusCode).getD 0
  refused : (∀ response, (decision backends request admitted).2 = some response →
      300 ≤ response.statusCode) →
    readBodies effects = [] ∧
      ∃ header title, headers effects = [(502, header)] ∧ written effects = problemBody 502 title
  relayed : ∀ response, (decision backends request admitted).2 = some response →
    100 ≤ response.statusCode → response.statusCode < 300 →
    readBodies effects = [(decision backends request admitted).1] ∧
      headers effects = [(response.statusCode, relayedHeader admitted response)] ∧
      written effects = response.body.content

theorem payload_of_ask {slot : Slot} {asked : BackendRequest}
    (h : ask request admitted slot = some asked) : asked.payload = admitted.payload := by
  rw [ask, backendRequest] at h
  obtain ⟨baseURL, -, h⟩ := Option.bind_eq_some_iff.mp h
  split at h
  · obtain ⟨_, -, h⟩ := Option.bind_eq_some_iff.mp h
    cases h
    rfl
  · cases h

variable (request admitted)

theorem contacts_forwardEffects :
    contacts (forwardEffects backends request admitted) =
      (ask request admitted .primary).toList.map (Prod.mk .primary) ++
        if needsSecondary admitted.route (reply backends request admitted .primary) then
          (ask request admitted .secondary).toList.map (Prod.mk .secondary)
        else [] := by
  rw [forwardEffects]
  cases ask request admitted .primary <;> cases ask request admitted .secondary <;>
    cases reply backends request admitted .primary <;> split <;> rfl

/-- Forwarding shows itself to the backends only. -/
theorem visible_forwardEffects :
    visible (forwardEffects backends request admitted) =
      ⟨contacts (forwardEffects backends request admitted), [], [], [], [], []⟩ := by
  rw [forwardEffects]
  cases ask request admitted .primary <;> cases ask request admitted .secondary <;>
    cases reply backends request admitted .primary <;> split <;> rfl

/-- Only the primary is closed before the end, and only for the secondary. -/
theorem closeBody_mem_forwardEffects {slot : Slot}
    (h : .closeBody slot ∈ forwardEffects backends request admitted) :
    slot = .primary ∧
      needsSecondary admitted.route (reply backends request admitted .primary) = true := by
  rw [forwardEffects] at h
  split at h
  · next hneeded =>
      refine ⟨?_, hneeded⟩
      simp at h
      exact h.2
  · simp at h

variable {request admitted}

variable (admitted) in
/-- The handler shows the requests of the forwarding and then what the deciding response
calls for. -/
theorem visible_serveHTTP (hadmission : admission handler request = .ok admitted) :
    visible (serveHTTP handler backends clock request) =
      (visible (forwardEffects backends request admitted)).append
        (shown handler clock admitted (decision backends request admitted)) := by
  rw [serveHTTP_eq handler backends clock hadmission, visible_append]
  refine congrArg (Visible.append _) ?_
  obtain ⟨slot, _ | response⟩ := decision backends request admitted
  · simp only [shown]
    rw [visible_append, visible_record, visible_problem]
    simp [Visible.append]
  · simp only [shown]
    rw [visible_append, visible_answer, visible_closeBody]
    simp [Visible.append]

theorem serveHTTP_neverReadsClosed (hadmission : admission handler request = .ok admitted) :
    NeverReadsClosed (serveHTTP handler backends clock request) := by
  have hquiet := congrArg Visible.readBodies (visible_forwardEffects backends request admitted)
  rw [serveHTTP_eq handler backends clock hadmission]
  cases hd : (decision backends request admitted).2 with
  | none =>
      apply neverReadsClosed_of_readBodies
      have htail := congrArg Visible.readBodies (visible_append
        (record handler (transportEvent clock admitted (decision backends request admitted).1))
        (writeProxyProblem 502 "approved backend route did not respond"))
      rw [visible_record, visible_problem] at htail
      rw [readBodies, List.filterMap_append]
      exact List.append_eq_nil_iff.mpr ⟨hquiet, htail⟩
  | some response =>
      have hanswer := congrArg Visible.readBodies
        (visible_answer handler clock admitted (decision backends request admitted).1 response)
      rw [← List.append_assoc]
      apply neverReadsClosed_append
      · apply neverReadsClosed_append (neverReadsClosed_of_readBodies hquiet)
          (neverReadsClosed_of_open (closeBody_notMem_answer handler clock admitted _ response))
        intro slot hclose hread
        obtain ⟨rfl, hneeded⟩ := closeBody_mem_forwardEffects backends request admitted hclose
        have hshown : .primary ∈ (shownResponse handler clock admitted
            (decision backends request admitted).1 response).readBodies := by
          rw [← hanswer]
          exact hread
        obtain ⟨hslot, hhigh⟩ := mem_shownResponse_readBodies handler clock admitted _ hshown
        have hfinal := decision_primary backends (Prod.ext hslot.symm hd) hhigh
        exact absurd (hneeded.symm.trans hfinal) (by simp)
      · exact neverReadsClosed_of_readBodies rfl
      · intro slot _
        simp [readBodies, Effect.read?]

/-- Failover between the backends is exact. -/
theorem failover_is_exact (hadmission : admission handler request = .ok admitted) :
    FailoverExact backends request admitted (serveHTTP handler backends clock request) := by
  have hvisible := visible_serveHTTP handler backends clock admitted hadmission
  rw [visible_forwardEffects] at hvisible
  have hcontacts : contacts (serveHTTP handler backends clock request) =
      contacts (forwardEffects backends request admitted) := by
    refine (congrArg Visible.contacts hvisible).trans ?_
    simp only [Visible.append, shown_contacts, List.append_nil]
  have husage := congrArg Visible.usageEvents hvisible
  have hheaders := congrArg Visible.headers hvisible
  have hread := congrArg Visible.readBodies hvisible
  have hwritten := congrArg Visible.written hvisible
  simp only [Visible.append, List.nil_append] at husage hheaders hread hwritten
  refine ⟨hcontacts.trans (contacts_forwardEffects backends request admitted), ?_,
    serveHTTP_neverReadsClosed handler backends clock hadmission, ?_, ?_, ?_⟩
  · intro c hc
    rw [hcontacts, contacts_forwardEffects, List.mem_append, List.mem_map] at hc
    obtain ⟨asked, hasked, rfl⟩ | hc := hc
    · exact payload_of_ask (Option.mem_toList.mp hasked)
    · split at hc
      · obtain ⟨asked, hasked, rfl⟩ := List.mem_map.mp hc
        exact payload_of_ask (Option.mem_toList.mp hasked)
      · cases hc
  · intro hstatus
    generalize decision backends request admitted = decided at *
    obtain ⟨slot, _ | response⟩ := decided
    · exact ⟨_, husage, rfl, rfl⟩
    · rw [shown, shownResponse, if_neg (Nat.not_lt.mpr (hstatus response rfl))] at husage
      split at husage
      · have hlabel := relayedEvent_label clock admitted slot response
        exact ⟨_, husage, congrArg Label.backendID hlabel, congrArg Label.statusCode hlabel⟩
      · exact ⟨_, husage, rfl, rfl⟩
  · intro hstatus
    generalize decision backends request admitted = decided at *
    obtain ⟨slot, _ | response⟩ := decided
    · exact ⟨hread, _, _, hheaders, hwritten⟩
    · have hhigh : ¬ response.statusCode < 300 := Nat.not_lt.mpr (hstatus response rfl)
      have hlow : ¬ response.statusCode < 100 := by omega
      rw [shown, shownResponse, if_neg hlow, if_neg hhigh] at hread hheaders hwritten
      exact ⟨hread, _, _, hheaders, hwritten⟩
  · intro response hd hlow hhigh
    generalize decision backends request admitted = decided at *
    obtain ⟨slot, decidedResponse⟩ := decided
    subst hd
    rw [shown, shownResponse, if_neg (Nat.not_lt.mpr hlow), if_pos hhigh] at hread hheaders hwritten
    exact ⟨hread, hheaders, hwritten⟩

end Serve

/-- A proxy with one client and one route. -/
def oneRoute (primaryURL secondaryURL : String) : FileConfiguration where
  routes := [⟨"route-b", "fallback-model", primaryURL, secondaryURL, true⟩]
  clients := [⟨"cli", "token"⟩]

/-- A request for the model of the route. -/
def modelRequest : Request where
  method := "POST"
  header := [("Authorization", utf8 "Bearer token")]
  body := ⟨[utf8 "\x7b\"model\":\"fallback-model\"\x7d"], .eof⟩

/-- The primary is overloaded, the secondary answers. -/
def overloadedPrimary : Backends
  | .primary, _ => some ⟨503, [], ⟨[utf8 "busy"], .eof⟩⟩
  | .secondary, _ => some ⟨200, [], ⟨[utf8 "do", utf8 "ne"], .eof⟩⟩

def admittedModelRequest (primaryURL secondaryURL : String) : Admitted where
  clientID := "cli"
  payload := utf8 "\x7b\"model\":\"fallback-model\"\x7d"
  metadata := ⟨"fallback-model", false⟩
  route := ⟨"route-b", "fallback-model", primaryURL, secondaryURL, true⟩

theorem overloadedPrimary_failover :
    admission ((oneRoute "http://one" "http://two").handler true) modelRequest =
        .ok (admittedModelRequest "http://one" "http://two") ∧
      FailoverExact overloadedPrimary modelRequest (admittedModelRequest "http://one" "http://two")
        (serveHTTP ((oneRoute "http://one" "http://two").handler true) overloadedPrimary
          (fun n => 1000000 * n) modelRequest) :=
  ⟨by rfl, failover_is_exact _ _ _ (by rfl)⟩

/-- A URL with a fragment is accepted at the start and refused for every request, and then the
primary is not contacted at all. -/
theorem fragment_keeps_primary_uncontacted :
    (oneRoute "http://one/#a" "http://two").check = .ok () ∧
      admission ((oneRoute "http://one/#a" "http://two").handler true) modelRequest =
        .ok (admittedModelRequest "http://one/#a" "http://two") ∧
      ((contacts (serveHTTP ((oneRoute "http://one/#a" "http://two").handler true) overloadedPrimary
        (fun n => 1000000 * n) modelRequest)).map Prod.fst).count .primary ≠ 1 := by
  refine ⟨by rfl, by rfl, ?_⟩
  decide +kernel

end NodeScope.Proxy
