import Mathlib.Algebra.Order.Floor.Ring
import Mathlib.Data.Int.ConditionallyCompleteOrder
import NodeScope.Proxy.Metadata

/-!
# The table of usage events

The constraints of `inference_usage_events` against the events of the handler. The table knows
three outcomes and wants a status of HTTP; the handler has two outcomes more, has no status when
no backend answered, and takes the counters as the backend gives them.
-/

namespace NodeScope.Proxy

open Lib Lib.Check Lib.Text Lib.Reader

/-- The outcomes of the table. -/
def storedOutcomes : List String := ["completed", "backend_error", "transport_error"]

/-- A check on a column that may be null. -/
def nonNegative : Option Int → Bool
  | some n => 0 ≤ n
  | none => true

/-- The constraints of `inference_usage_events`. -/
def checkUsageEvent (event : UsageEvent) : Bool :=
  sqlLength event.routeID ≤ 120 && sqlLength event.model ≤ 240 && sqlLength event.clientID ≤ 120 &&
    sqlLength event.backendID ≤ 2048 && (100 ≤ event.statusCode && event.statusCode ≤ 599) &&
    nonNegative event.ttftMilliseconds && 0 ≤ event.durationMilliseconds &&
    nonNegative event.promptTokens && nonNegative event.outputTokens &&
    nonNegative event.totalTokens && storedOutcomes.contains event.outcome.word

def Usage.nonNegative (usage : Usage) : Bool :=
  Proxy.nonNegative usage.promptTokens && Proxy.nonNegative usage.completionTokens &&
    Proxy.nonNegative usage.totalTokens

/-- The responses that are recorded in a way the table takes, or not recorded at all. -/
def Recordable (stream : Bool) (response : BackendResponse) : Prop :=
  response.statusCode < 100 ∨ (400 ≤ response.statusCode ∧ response.statusCode ≤ 599) ∨
    (response.statusCode < 300 ∧
      if stream then response.body.ending = .eof
      else Complete response.body → (extractUsage response.body.content).nonNegative = true)

section Columns

/-- The columns whose lengths the configuration decides. -/
structure Label.Fits (l : Label) : Prop where
  routeID : sqlLength l.routeID ≤ 120
  model : sqlLength l.model ≤ 240
  clientID : sqlLength l.clientID ≤ 120
  backendID : sqlLength l.backendID ≤ 2048

/-- The configured words respect the lengths of the columns. -/
structure FileConfiguration.Fits (configuration : FileConfiguration) : Prop where
  route : ∀ route ∈ configuration.routes, sqlLength route.id ≤ 120 ∧ sqlLength route.model ≤ 240
  client : ∀ client ∈ configuration.clients, sqlLength client.id ≤ 120

theorem sqlLength_backendID (route : BackendRoute) (slot : Slot) :
    sqlLength (route.backendID slot) ≤ sqlLength route.id + 10 := by
  cases slot <;> simp [BackendRoute.backendID, sqlLength]

theorem label_fits {configuration : FileConfiguration} (hfits : configuration.Fits)
    {observer : Bool} {request : Request} {admitted : Admitted}
    (hadmission : admission (configuration.handler observer) request = .ok admitted) (clock : Nat → Int)
    (slot : Slot) (status : Nat) : (label clock admitted slot status).Fits := by
  obtain ⟨hroute, hmodel, client, hclient, hid⟩ := admitted_configured hadmission
  obtain ⟨hrouteID, hmodelLength⟩ := hfits.route _ hroute
  refine ⟨hrouteID, ?_, ?_, ?_⟩
  · rw [label, hmodel]
    exact hmodelLength
  · rw [label, hid]
    exact hfits.client client hclient
  · have hbackend := sqlLength_backendID admitted.route slot
    simp only [label]
    omega

end Columns

theorem millisecondsSince_nonneg {started now : Int} (h : started ≤ now) :
    0 ≤ millisecondsSince started now := by
  rw [millisecondsSince, Float64.durationBetween]
  apply Int.tdiv_nonneg
  · omega
  · decide

/-- An event that fits and whose times are in order passes by its status, counters and outcome. -/
theorem checkUsageEvent_iff (event : UsageEvent) (hfits : event.label.Fits)
    (httft : nonNegative event.ttftMilliseconds = true) (hduration : 0 ≤ event.durationMilliseconds) :
    checkUsageEvent event = true ↔
      (100 ≤ event.statusCode ∧ event.statusCode ≤ 599) ∧
        (nonNegative event.promptTokens = true ∧ nonNegative event.outputTokens = true ∧
          nonNegative event.totalTokens = true) ∧ event.outcome.word ∈ storedOutcomes := by
  have hrouteID : sqlLength event.routeID ≤ 120 := hfits.routeID
  have hmodel : sqlLength event.model ≤ 240 := hfits.model
  have hclientID : sqlLength event.clientID ≤ 120 := hfits.clientID
  have hbackendID : sqlLength event.backendID ≤ 2048 := hfits.backendID
  simp [checkUsageEvent, hrouteID, hmodel, hclientID, hbackendID, httft, hduration, and_assoc]

section Paths

variable {clock : Nat → Int} (hclock : Monotone clock) (admitted : Admitted) (slot : Slot)
variable (hfits : ∀ status, (label clock admitted slot status).Fits)
include hclock hfits

/-- An event without a status is refused. -/
theorem transportEvent_refused : checkUsageEvent (transportEvent clock admitted slot) = false := by
  have hiff := checkUsageEvent_iff (transportEvent clock admitted slot) (hfits 0) rfl
    (millisecondsSince_nonneg (hclock (Nat.zero_le _)))
  rw [← Bool.not_eq_true, hiff]
  simp [transportEvent, responseEvent]

/-- Among the responses that are not relayed, the table takes the errors of HTTP. -/
theorem refusedEvent_checked_iff (status : Nat) (h : 300 ≤ status) :
    checkUsageEvent (refusedEvent clock admitted slot status) = true ↔
      400 ≤ status ∧ status ≤ 599 := by
  rw [checkUsageEvent_iff (refusedEvent clock admitted slot status) (hfits status) rfl
    (millisecondsSince_nonneg (hclock (Nat.zero_le _)))]
  simp only [refusedEvent, responseEvent, nonNegative, true_and]
  obtain herror | herror := Nat.lt_or_ge status 400
  · have hredirect : isBackendRedirect status = true := by simp [isBackendRedirect, h, herror]
    simp [hredirect, Outcome.word, storedOutcomes]
    omega
  · have hredirect : isBackendRedirect status = false := by simp [isBackendRedirect, herror]
    simp [hredirect, Outcome.word, storedOutcomes]
    omega

theorem streamEvent_checked_iff (status : Nat) (hlow : 100 ≤ status) (hhigh : status < 300)
    (body : Source) :
    checkUsageEvent (streamEvent clock (responseEvent admitted slot status (clock 1)) body) = true ↔
      body.ending = .eof := by
  rw [checkUsageEvent_iff]
  · have hword : status < 400 := by omega
    simp only [streamEvent, responseEvent, nonNegative, hword, if_true, true_and]
    cases body.ending with
    | eof =>
        simp [Outcome.word, storedOutcomes]
        omega
    | failed => simp [Outcome.word, storedOutcomes]
  · exact hfits status
  · simp only [streamEvent]
    split
    · rfl
    · exact decide_eq_true (millisecondsSince_nonneg (hclock (Nat.zero_le _)))
  · exact millisecondsSince_nonneg (hclock (Nat.zero_le _))

theorem wholeEvent_checked_iff (status : Nat) (hlow : 100 ≤ status) (hhigh : status < 300)
    (body : Source) :
    checkUsageEvent (wholeEvent clock (responseEvent admitted slot status (clock 1)) body) = true ↔
      (Complete body → (extractUsage body.content).nonNegative = true) := by
  have hword : status < 400 := by omega
  rw [wholeEvent]
  split
  · next hcomplete =>
      rw [checkUsageEvent_iff]
      · simp [responseEvent, Usage.nonNegative, hcomplete, hword, Outcome.word, storedOutcomes,
          and_assoc, hlow]
        omega
      · exact hfits status
      · exact decide_eq_true (millisecondsSince_nonneg (hclock (Nat.zero_le _)))
      · exact millisecondsSince_nonneg (hclock (Nat.zero_le _))
  · next hcomplete =>
      rw [checkUsageEvent_iff]
      · simp [responseEvent, nonNegative, hcomplete, hword, Outcome.word, storedOutcomes, hlow]
        omega
      · exact hfits status
      · rfl
      · exact millisecondsSince_nonneg (hclock (Nat.zero_le _))

/-- What is recorded of a response passes the checks exactly if the response is recordable. -/
theorem shownResponse_checked_iff (handler : Handler) (response : BackendResponse) :
    (∀ event ∈ (shownResponse handler clock admitted slot response).usageEvents,
      checkUsageEvent event = true) ↔ Recordable admitted.metadata.stream response := by
  rw [shownResponse, Recordable]
  split
  · next hlow => simp [hlow]
  · next hlow =>
      split
      · next hhigh =>
          have herror : ¬ 400 ≤ response.statusCode := by omega
          simp only [List.forall_mem_singleton, hlow, herror, hhigh, false_and, false_or, true_and,
            relayedEvent]
          split
          · exact streamEvent_checked_iff hclock admitted slot hfits _ (by omega) hhigh _
          · exact wholeEvent_checked_iff hclock admitted slot hfits _ (by omega) hhigh _
      · next hhigh =>
          simp only [List.forall_mem_singleton, hlow, hhigh, false_and, false_or, or_false]
          exact refusedEvent_checked_iff hclock admitted slot hfits _ (by omega)

end Paths

theorem usageEvents_of_refused {handler : Handler} {backends : Backends} {clock : Nat → Int}
    {request : Request} {refusal : Nat × String} (h : admission handler request = .error refusal) :
    usageEvents (serveHTTP handler backends clock request) = [] := by
  rw [serveHTTP, h]
  exact congrArg Visible.usageEvents (visible_problem refusal.1 refusal.2)

/-- The events of a request pass the checks of the table exactly if the request is refused by the
proxy itself or decided by a recordable response. -/
theorem usage_checked_iff (configuration : FileConfiguration) (hfits : configuration.Fits)
    (observer : Bool) (backends : Backends) (clock : Nat → Int) (hclock : Monotone clock)
    (request : Request) :
    (∀ event ∈ usageEvents (serveHTTP (configuration.handler observer) backends clock request),
      checkUsageEvent event = true) ↔
    ∀ admitted, admission (configuration.handler observer) request = .ok admitted →
      ∃ response, (decision backends request admitted).2 = some response ∧
        Recordable admitted.metadata.stream response := by
  cases hadmission : admission (configuration.handler observer) request with
  | error refusal => simp [usageEvents_of_refused hadmission]
  | ok admitted =>
      have hlabel := fun slot => label_fits hfits hadmission clock slot
      rw [(events_serveHTTP backends clock hadmission).1]
      simp only [Except.ok.injEq, forall_eq']
      obtain ⟨slot, _ | response⟩ := decision backends request admitted
      · have hrefused := transportEvent_refused hclock admitted slot (hlabel slot)
        simp [shown, hrefused]
      · simp only [shown, Option.some.injEq, exists_eq_left']
        exact shownResponse_checked_iff hclock admitted slot (hlabel slot) _ response

/-- Backends that answer with a status and a text. -/
def answeringWith (status : Nat) (text : String) : Backends :=
  fun _ _ => some ⟨status, [], ⟨[utf8 text], .eof⟩⟩

theorem oneRoute_fits : (oneRoute "http://one" "http://two").Fits :=
  ⟨by decide, by decide⟩

theorem millionfold_monotone : Monotone fun n : Nat => (1000000 * n : Int) := by
  intro m n h
  simp only
  omega

theorem plain_answer_checked :
    (usageEvents (serveHTTP ((oneRoute "http://one" "http://two").handler true)
      (answeringWith 200 "") (fun n => 1000000 * n) modelRequest)).all checkUsageEvent = true := by
  rw [List.all_eq_true]
  refine (usage_checked_iff (oneRoute "http://one" "http://two") oneRoute_fits true
    (answeringWith 200 "") _ millionfold_monotone modelRequest).mpr ?_
  intro admitted hadmission
  obtain rfl : admittedModelRequest "http://one" "http://two" = admitted := Except.ok.inj hadmission
  exact ⟨⟨200, [], ⟨[utf8 ""], .eof⟩⟩, rfl, Or.inr (Or.inr ⟨by decide, fun _ => rfl⟩)⟩

/-- When no backend answers, the table refuses the event of the request. -/
theorem silent_backends_refused :
    (oneRoute "http://one" "http://two").check = .ok () ∧
      (oneRoute "http://one" "http://two").Fits ∧
      ¬ ∀ event ∈ usageEvents (serveHTTP ((oneRoute "http://one" "http://two").handler true)
        (fun _ _ => none) (fun n => 1000000 * n) modelRequest), checkUsageEvent event = true :=
  ⟨by rfl, oneRoute_fits, by decide +kernel⟩

end NodeScope.Proxy
