import NodeScope.Lib.Table
import NodeScope.Proxy.Failover

/-!
# The proxy hands on metadata only

Two requests that differ in their content, to backends that differ in theirs, are told apart
by no event as long as the outer behaviour is the same. What an event says in words comes from
the configuration.
-/

namespace NodeScope.Proxy

open Lib Lib.Check Lib.Text Lib.Reader

/-- What the handler may learn from a response. -/
structure AlikeResponse (a b : BackendResponse) : Prop where
  statusCode : a.statusCode = b.statusCode
  empty : a.body.content = [] ↔ b.body.content = []
  bounded : a.body.content.length ≤ maxNonStreamingResponseBytes ↔
    b.body.content.length ≤ maxNonStreamingResponseBytes
  ending : a.body.ending = b.body.ending
  usage : extractUsage a.body.content = extractUsage b.body.content

def outcomeWords : List String :=
  ["completed", "backend_error", "transport_error", "backend_redirect", "stream_error"]

/-- The words of an event come from one configured route, one configured client and the
outcomes. -/
structure Configured (configuration : FileConfiguration)
    (routeID model clientID backendID outcome : String) : Prop where
  route : ∃ route ∈ configuration.routes, routeID = route.id ∧ model = route.model ∧
    (backendID = route.id ++ ":primary" ∨ backendID = route.id ++ ":secondary")
  client : ∃ client ∈ configuration.clients, clientID = client.id
  outcome : outcome ∈ outcomeWords

theorem Outcome.word_mem (outcome : Outcome) : outcome.word ∈ outcomeWords := by
  cases outcome <;> decide

section Admit

variable {handler : Handler} {request : Request} {admitted : Admitted}

/-- The checks that an admitted request has passed. -/
theorem admission_eq_ok (h : admission handler request = .ok admitted) :
    ∃ registry authenticator token, handler.registry = some registry ∧
      handler.authenticator = some authenticator ∧ clientToken request = some token ∧
      authenticator token = some admitted.clientID ∧
      readMetadata admitted.payload = some admitted.metadata ∧
      registry admitted.metadata.model = some admitted.route := by
  simp only [admission, unit_bind_eq_ok, orFail_bind_eq_ok] at h
  obtain ⟨-, registry, hregistry, authenticator, hauthenticator, -, token, htoken, clientID,
    hclient, payload, -, metadata, hmetadata, route, hroute, h⟩ := h
  obtain rfl := Except.ok.inj h
  exact ⟨registry, authenticator, token, hregistry, hauthenticator, htoken, hclient, hmetadata,
    hroute⟩

variable {configuration : FileConfiguration} {observer : Bool}

/-- What is admitted under a configuration has a route and a client of it. -/
theorem admitted_configured (h : admission (configuration.handler observer) request = .ok admitted) :
    admitted.route ∈ configuration.routes ∧ admitted.metadata.model = admitted.route.model ∧
      ∃ client ∈ configuration.clients, admitted.clientID = client.id := by
  obtain ⟨registry, authenticator, token, hregistry, hauthenticator, -, hclient, -, hroute⟩ :=
    admission_eq_ok h
  obtain rfl := Option.some.inj hregistry
  obtain rfl := Option.some.inj hauthenticator
  obtain ⟨hroute, -⟩ := Option.filter_eq_some_iff.mp hroute
  obtain ⟨hclient, -⟩ := Option.filter_eq_some_iff.mp hclient
  obtain ⟨route, hmem, hmodel, hr⟩ | hnone :=
    Table.foldl_update_eq_some BackendRoute.model id hroute
  · obtain ⟨client, hc, -, hid⟩ | hnone :=
      Table.foldl_update_eq_some (fun c => utf8 (ClientCredential.token c)) ClientCredential.id
        hclient
    · obtain rfl : route = admitted.route := hr
      exact ⟨hmem, hmodel.symm, client, hc, hid.symm⟩
    · cases hnone
  · cases hnone

/-- Two requests with the same token, model and flag are admitted alike, but for their payload. -/
theorem admitted_alike {request₁ request₂ : Request} {a₁ a₂ : Admitted}
    (h₁ : admission handler request₁ = .ok a₁) (h₂ : admission handler request₂ = .ok a₂)
    (htoken : clientToken request₁ = clientToken request₂) (hmetadata : a₁.metadata = a₂.metadata) :
    a₂ = { a₁ with payload := a₂.payload } := by
  obtain ⟨registry₁, authenticator₁, token₁, hr₁, ha₁, ht₁, hc₁, -, hroute₁⟩ := admission_eq_ok h₁
  obtain ⟨registry₂, authenticator₂, token₂, hr₂, ha₂, ht₂, hc₂, -, hroute₂⟩ := admission_eq_ok h₂
  obtain rfl := Option.some.inj (hr₁.symm.trans hr₂)
  obtain rfl := Option.some.inj (ha₁.symm.trans ha₂)
  obtain rfl := Option.some.inj (ht₁.symm.trans (htoken.trans ht₂))
  have hclient := Option.some.inj (hc₁.symm.trans hc₂)
  rw [hmetadata] at hroute₁
  have hroute := Option.some.inj (hroute₁.symm.trans hroute₂)
  obtain ⟨clientID, payload, metadata, route⟩ := a₁
  obtain ⟨clientID₂, payload₂, metadata₂, route₂⟩ := a₂
  simp only at hclient hmetadata hroute
  rw [hclient, hmetadata, hroute]

end Admit

section Alike

variable (clock : Nat → Int) (admitted : Admitted) (slot : Slot) {a b : BackendResponse}

theorem AlikeResponse.complete (h : AlikeResponse a b) : Complete a.body ↔ Complete b.body := by
  rw [Complete, Complete, h.ending, h.bounded]

/-- The event of a relayed response depends on no more than that. -/
theorem AlikeResponse.relayedEvent (h : AlikeResponse a b) (payload : List UInt8) :
    relayedEvent clock admitted slot a =
      Proxy.relayedEvent clock { admitted with payload } slot b := by
  simp only [Proxy.relayedEvent, streamEvent, wholeEvent, h.statusCode, h.empty, h.ending,
    h.complete, h.usage]
  rfl

theorem shown_events_alike (handler : Handler) {d₁ d₂ : Slot × Option BackendResponse}
    (hslot : d₁.1 = d₂.1) (h : Option.Rel AlikeResponse d₁.2 d₂.2) (payload : List UInt8) :
    (shown handler clock admitted d₁).usageEvents =
        (shown handler clock { admitted with payload } d₂).usageEvents ∧
      (shown handler clock admitted d₁).operationalEvents =
        (shown handler clock { admitted with payload } d₂).operationalEvents := by
  obtain ⟨slot, r₁⟩ := d₁
  obtain ⟨slot₂, r₂⟩ := d₂
  obtain rfl : slot = slot₂ := hslot
  cases h with
  | none => exact ⟨rfl, rfl⟩
  | some h =>
      simp only [shown, shownResponse, h.statusCode, h.relayedEvent clock admitted slot payload]
      split
      · exact ⟨rfl, rfl⟩
      · split <;> exact ⟨rfl, rfl⟩

/-- The rule of the failover sees no more of the replies. -/
theorem deciding_alike (route : BackendRoute) {p₁ p₂ s₁ s₂ : Option BackendResponse}
    (hp : Option.Rel AlikeResponse p₁ p₂) (hs : Option.Rel AlikeResponse s₁ s₂) :
    (deciding (needsSecondary route p₁) p₁ s₁).1 = (deciding (needsSecondary route p₂) p₂ s₂).1 ∧
      Option.Rel AlikeResponse (deciding (needsSecondary route p₁) p₁ s₁).2
        (deciding (needsSecondary route p₂) p₂ s₂).2 := by
  have hneeds : needsSecondary route p₁ = needsSecondary route p₂ := by
    cases hp with
    | none => rfl
    | some h => rw [needsSecondary, needsSecondary, primaryFailed, primaryFailed, h.statusCode]
  rw [hneeds]
  cases needsSecondary route p₂ with
  | false => exact ⟨rfl, hp⟩
  | true =>
      cases hs with
      | some h => exact ⟨rfl, Option.Rel.some h⟩
      | none =>
          cases hp with
          | none => exact ⟨rfl, Option.Rel.none⟩
          | some h => exact ⟨rfl, Option.Rel.some h⟩

theorem decision_alike {backends₁ backends₂ : Backends} {request₁ request₂ : Request}
    {a₁ a₂ : Admitted} (hroute : a₁.route = a₂.route)
    (halike : ∀ slot, Option.Rel AlikeResponse (reply backends₁ request₁ a₁ slot)
      (reply backends₂ request₂ a₂ slot)) :
    (decision backends₁ request₁ a₁).1 = (decision backends₂ request₂ a₂).1 ∧
      Option.Rel AlikeResponse (decision backends₁ request₁ a₁).2
        (decision backends₂ request₂ a₂).2 := by
  rw [decision, decision, hroute]
  exact deciding_alike a₂.route (halike .primary) (halike .secondary)

end Alike

section Events

variable {handler : Handler} (backends : Backends) (clock : Nat → Int) {request : Request}
variable {admitted : Admitted}

theorem events_serveHTTP (hadmission : admission handler request = .ok admitted) :
    usageEvents (serveHTTP handler backends clock request) =
        (shown handler clock admitted (decision backends request admitted)).usageEvents ∧
      operationalEvents (serveHTTP handler backends clock request) =
        (shown handler clock admitted (decision backends request admitted)).operationalEvents := by
  have hvisible := visible_serveHTTP handler backends clock admitted hadmission
  rw [visible_forwardEffects] at hvisible
  have husage := congrArg Visible.usageEvents hvisible
  have hoperational := congrArg Visible.operationalEvents hvisible
  simp only [visible, Visible.append, List.nil_append] at husage hoperational
  exact ⟨husage, hoperational⟩

variable {clock}

/-- Every event is about the admitted request. -/
theorem shown_label {decided : Slot × Option BackendResponse} {event : UsageEvent}
    (h : event ∈ (shown handler clock admitted decided).usageEvents) :
    ∃ slot status, event.label = label clock admitted slot status := by
  obtain ⟨slot, _ | response⟩ := decided
  · simp only [shown, List.mem_singleton] at h
    subst h
    exact ⟨slot, 0, rfl⟩
  · rw [shown, shownResponse] at h
    split at h
    · cases h
    · split at h
      · rw [List.mem_singleton] at h
        subst h
        exact ⟨slot, _, relayedEvent_label clock admitted slot response⟩
      · rw [List.mem_singleton] at h
        subst h
        exact ⟨slot, _, rfl⟩

/-- The observer sees what the recorder sees. -/
theorem mem_shown_operationalEvents {decided : Slot × Option BackendResponse}
    {event : OperationalEvent}
    (h : event ∈ (shown handler clock admitted decided).operationalEvents) :
    ∃ usage ∈ (shown handler clock admitted decided).usageEvents, event = operationalEvent usage := by
  have hobserved {usage : UsageEvent} (h : event ∈ observed handler usage) :
      event = operationalEvent usage := by
    rw [observed] at h
    split at h
    · exact List.mem_singleton.mp h
    · cases h
  obtain ⟨slot, _ | response⟩ := decided
  · simp only [shown] at h ⊢
    exact ⟨_, List.mem_singleton_self _, hobserved h⟩
  · rw [shown, shownResponse] at h ⊢
    split at h
    · cases h
    · next hlow =>
        rw [if_neg hlow]
        split at h
        · next hhigh =>
            rw [if_pos hhigh]
            exact ⟨_, List.mem_singleton_self _, hobserved h⟩
        · next hhigh =>
            rw [if_neg hhigh]
            exact ⟨_, List.mem_singleton_self _, hobserved h⟩

end Events

section Content

variable (configuration : FileConfiguration) (observer : Bool) (clock : Nat → Int)

theorem usageEvent_configured (backends : Backends) {request : Request} {admitted : Admitted}
    (hadmission : admission (configuration.handler observer) request = .ok admitted) {event : UsageEvent}
    (h : event ∈ usageEvents (serveHTTP (configuration.handler observer) backends clock request)) :
    Configured configuration event.routeID event.model event.clientID event.backendID
      event.outcome.word := by
  obtain ⟨hroute, hmodel, hclient⟩ := admitted_configured hadmission
  rw [(events_serveHTTP backends clock hadmission).1] at h
  obtain ⟨slot, status, hlabel⟩ := shown_label h
  refine ⟨⟨admitted.route, hroute, congrArg Label.routeID hlabel,
    (congrArg Label.model hlabel).trans hmodel, ?_⟩, ?_, event.outcome.word_mem⟩
  · have hbackend : event.backendID = admitted.route.backendID slot :=
      congrArg Label.backendID hlabel
    cases slot with
    | primary => exact Or.inl hbackend
    | secondary => exact Or.inr hbackend
  · obtain ⟨client, hmem, hid⟩ := hclient
    exact ⟨client, hmem, (congrArg Label.clientID hlabel).trans hid⟩

/-- No inference content reaches the recorder or the observer. -/
theorem events_carry_no_content (backends₁ backends₂ : Backends) (request₁ request₂ : Request)
    (a₁ a₂ : Admitted) (h₁ : admission (configuration.handler observer) request₁ = .ok a₁)
    (h₂ : admission (configuration.handler observer) request₂ = .ok a₂)
    (htoken : clientToken request₁ = clientToken request₂) (hmetadata : a₁.metadata = a₂.metadata)
    (halike : ∀ slot, Option.Rel AlikeResponse (reply backends₁ request₁ a₁ slot)
      (reply backends₂ request₂ a₂ slot)) :
    usageEvents (serveHTTP (configuration.handler observer) backends₁ clock request₁) =
        usageEvents (serveHTTP (configuration.handler observer) backends₂ clock request₂) ∧
      operationalEvents (serveHTTP (configuration.handler observer) backends₁ clock request₁) =
        operationalEvents (serveHTTP (configuration.handler observer) backends₂ clock request₂) ∧
      (∀ event ∈ usageEvents (serveHTTP (configuration.handler observer) backends₁ clock request₁),
        Configured configuration event.routeID event.model event.clientID event.backendID
          event.outcome.word) ∧
      ∀ event ∈
          operationalEvents (serveHTTP (configuration.handler observer) backends₁ clock request₁),
        Configured configuration event.routeID event.model event.clientID event.backendID
          event.outcome.word := by
  obtain ⟨husage₁, hoperational₁⟩ := events_serveHTTP backends₁ clock h₁
  obtain ⟨husage₂, hoperational₂⟩ := events_serveHTTP backends₂ clock h₂
  have hsame := admitted_alike h₁ h₂ htoken hmetadata
  have hroute : a₁.route = a₂.route := by rw [hsame]
  obtain ⟨hslot, hresponse⟩ := decision_alike hroute halike
  obtain ⟨husage, hoperational⟩ := shown_events_alike clock a₁ (configuration.handler observer)
    hslot hresponse a₂.payload
  rw [← hsame] at husage hoperational
  have hconfigured : ∀ event ∈
      usageEvents (serveHTTP (configuration.handler observer) backends₁ clock request₁),
      Configured configuration event.routeID event.model event.clientID event.backendID
        event.outcome.word := fun event hevent =>
    usageEvent_configured configuration observer clock backends₁ h₁ hevent
  refine ⟨by rw [husage₁, husage₂, husage], by rw [hoperational₁, hoperational₂, hoperational],
    hconfigured, ?_⟩
  intro event hevent
  rw [hoperational₁] at hevent
  obtain ⟨usage, hmem, rfl⟩ := mem_shown_operationalEvents hevent
  rw [← husage₁] at hmem
  exact hconfigured usage hmem

end Content

def promptBytes (prompt : String) : List UInt8 :=
  utf8 ("\x7b\"model\":\"fallback-model\",\"prompt\":\"" ++ prompt ++ "\"\x7d")

def promptRequest (prompt : String) : Request :=
  { modelRequest with body := ⟨[promptBytes prompt], .eof⟩ }

/-- Backends that answer with a text. -/
def answering (text : String) : Backends := fun _ _ => some ⟨200, [], ⟨[utf8 text], .eof⟩⟩

theorem prompts_leave_no_trace :
    usageEvents (serveHTTP ((oneRoute "http://one" "http://two").handler true) (answering "spring")
        (fun n => 1000000 * n) (promptRequest "ode")) =
      usageEvents (serveHTTP ((oneRoute "http://one" "http://two").handler true) (answering "leaf")
        (fun n => 1000000 * n) (promptRequest "sonnet")) := by
  have halike : AlikeResponse ⟨200, [], ⟨[utf8 "spring"], .eof⟩⟩ ⟨200, [], ⟨[utf8 "leaf"], .eof⟩⟩ :=
    ⟨rfl, by decide, by decide, rfl, by rfl⟩
  refine (events_carry_no_content (oneRoute "http://one" "http://two") true _ (answering "spring")
    (answering "leaf") (promptRequest "ode") (promptRequest "sonnet")
    { admittedModelRequest "http://one" "http://two" with payload := promptBytes "ode" }
    { admittedModelRequest "http://one" "http://two" with payload := promptBytes "sonnet" }
    (by rfl) (by rfl) (by rfl) (by rfl) ?_).1
  intro slot
  cases slot with
  | primary => exact Option.Rel.some halike
  | secondary => exact Option.Rel.some halike

end NodeScope.Proxy
