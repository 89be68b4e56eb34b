import NodeScope.Lib.GzipStored
import NodeScope.Proxy.Relay

/-!
# Bodies and the codings they are read with

A client that lists codings gets its list forwarded, and then `net/http` leaves the body as the
backend has encoded it. Of the backend's header only the type is relayed, so the name of the coding
is lost, and the usage is looked for in the encoded bytes.

## Implementation notes

The codings themselves are a parameter: what a body means under the values of `Content-Encoding`,
and the reader of `compress/gzip`, which delivers what a gzip body means.
-/

namespace NodeScope.Proxy

open Lib Lib.Check Lib.Text Lib.Reader

/-- The codings of HTTP. A body for which none is named means itself. -/
structure Codings where
  content : List (List UInt8) → List UInt8 → Option (List UInt8)
  gunzip : Source → Source
  plain : ∀ body, content [] body = some body
  gunzip_content : ∀ coding body decoded, equalFold coding "gzip" = true →
    content [coding] body.content = some decoded → (gunzip body).content = decoded

/-- What a body means under a header. -/
def Codings.meaning (codings : Codings) (header : Header) (body : List UInt8) :
    Option (List UInt8) :=
  codings.content (Header.values header "Content-Encoding") body

/-- `net/http` asks for gzip on its own where the request names no coding, and then decodes what
comes back as gzip. -/
def transparent (asked : BackendRequest) (origin : BackendResponse) : Bool :=
  (Header.get asked.header "Accept-Encoding").isEmpty &&
    equalFold (Header.get origin.header "Content-Encoding") "gzip"

/-- The response as `client.Do` returns it. -/
def handOver (codings : Codings) (asked : BackendRequest) (origin : BackendResponse) :
    BackendResponse :=
  if transparent asked origin then
    { origin with
      header := origin.header.filter fun line =>
        line.1 != "Content-Encoding" && line.1 != "Content-Length"
      body := codings.gunzip origin.body }
  else origin

/-- The backends as the handler sees them, behind its HTTP client. -/
def transport (codings : Codings) (origins : Backends) : Backends := fun slot asked =>
  (origins slot asked).map (handOver codings asked)

/-- The client reads what the backend meant, and so does the search for the usage. -/
structure StaysDecodable (codings : Codings) (admitted : Admitted) (origin handed : BackendResponse)
    (effects : List Effect) : Prop where
  relayed : ∀ line ∈ headers effects,
    codings.meaning line.2 (written effects) =
      codings.meaning origin.header origin.body.content
  usage : admitted.metadata.stream = false → Complete handed.body →
    ∀ content, codings.meaning origin.header origin.body.content = some content →
      ∀ event ∈ usageEvents effects,
        event.promptTokens = (extractUsage content).promptTokens ∧
          event.outputTokens = (extractUsage content).completionTokens ∧
          event.totalTokens = (extractUsage content).totalTokens

section HandOver

variable (codings : Codings) {asked : BackendRequest} {origin : BackendResponse}

theorem handOver_of_untransparent (h : transparent asked origin = false) :
    handOver codings asked origin = origin := by
  rw [handOver, h]
  rfl

/-- What is decoded on the way means the same. -/
theorem handOver_content (h : transparent asked origin = true)
    (hsingle : (Header.values origin.header "Content-Encoding").length ≤ 1) {content : List UInt8}
    (hcontent : codings.meaning origin.header origin.body.content = some content) :
    (handOver codings asked origin).body.content = content := by
  obtain ⟨-, hgzip⟩ := Bool.and_eq_true_iff.mp h
  rw [Codings.meaning] at hcontent
  rw [Header.get] at hgzip
  rw [handOver, if_pos h]
  cases hvalues : Header.values origin.header "Content-Encoding" with
  | nil =>
      rw [hvalues] at hgzip
      exact absurd hgzip (by decide)
  | cons coding rest =>
      rw [hvalues] at hgzip hsingle hcontent
      obtain rfl : rest = [] := by simpa using hsingle
      exact codings.gunzip_content coding origin.body content hgzip hcontent

theorem relayedHeader_meaning (admitted : Admitted) (response : BackendResponse)
    (body : List UInt8) : codings.meaning (relayedHeader admitted response) body = some body := by
  have hvalues : Header.values (relayedHeader admitted response) "Content-Encoding" = [] := by
    simp [Header.values, relayedHeader]
  rw [Codings.meaning, hvalues, codings.plain]

end HandOver

section Serve

variable (handler : Handler) (backends : Backends) (clock : Nat → Int) {request : Request}
variable {admitted : Admitted} {slot : Slot} {response : BackendResponse}

/-- The deciding response is the reply of its backend. -/
theorem reply_of_decision (h : decision backends request admitted = (slot, some response)) :
    reply backends request admitted slot = some response := by
  rw [decision] at h
  cases hneeded : needsSecondary admitted.route (reply backends request admitted .primary) with
  | false =>
      rw [hneeded] at h
      obtain ⟨rfl, hsome⟩ := Prod.mk.inj h
      exact hsome
  | true =>
      rw [hneeded] at h
      cases hsecondary : reply backends request admitted .secondary with
      | some fallback =>
          rw [hsecondary] at h
          obtain ⟨rfl, hsome⟩ := Prod.mk.inj h
          rw [hsecondary, hsome]
      | none =>
          rw [hsecondary] at h
          cases hprimary : reply backends request admitted .primary with
          | some first =>
              rw [hprimary] at h
              obtain ⟨rfl, hsome⟩ := Prod.mk.inj h
              rw [hprimary, hsome]
          | none =>
              rw [hprimary] at h
              cases (Prod.mk.inj h).2

/-- The header sent for a response below 300. -/
theorem headers_of_decided (hadmission : admission handler request = .ok admitted)
    (hdecided : (decision backends request admitted).2 = some response)
    (hlow : 100 ≤ response.statusCode) (hhigh : response.statusCode < 300) :
    headers (serveHTTP handler backends clock request) =
      [(response.statusCode, relayedHeader admitted response)] :=
  ((failover_is_exact handler backends clock hadmission).relayed response hdecided hlow hhigh).2.1

/-- The tokens of an event are those of the whole body, where it was read to its end. -/
theorem relayedEvent_usage (hstream : admitted.metadata.stream = false)
    (hcomplete : Complete response.body) :
    (relayedEvent clock admitted slot response).promptTokens =
        (extractUsage response.body.content).promptTokens ∧
      (relayedEvent clock admitted slot response).outputTokens =
        (extractUsage response.body.content).completionTokens ∧
      (relayedEvent clock admitted slot response).totalTokens =
        (extractUsage response.body.content).totalTokens := by
  simp only [relayedEvent, hstream, Bool.false_eq_true, if_false, wholeEvent, if_pos hcomplete,
    and_self]

theorem usageEvents_of_decided (hadmission : admission handler request = .ok admitted)
    (hdecided : decision backends request admitted = (slot, some response))
    (hlow : 100 ≤ response.statusCode) (hhigh : response.statusCode < 300) :
    usageEvents (serveHTTP handler backends clock request) =
      [relayedEvent clock admitted slot response] := by
  rw [(events_serveHTTP backends clock hadmission).1, hdecided, shown, shownResponse,
    if_neg (Nat.not_lt.mpr hlow), if_pos hhigh]

end Serve

section Decodable

variable (codings : Codings) (handler : Handler) (origins : Backends) (clock : Nat → Int)
variable {request : Request} {admitted : Admitted} {slot : Slot} {response : BackendResponse}

/-- The deciding response was sent by a backend and handed over by the client. -/
theorem handOver_of_decision
    (h : decision (transport codings origins) request admitted = (slot, some response)) :
    ∃ asked origin, ask request admitted slot = some asked ∧ origins slot asked = some origin ∧
      response = handOver codings asked origin := by
  obtain ⟨asked, hasked, hreply⟩ := Option.bind_eq_some_iff.mp (reply_of_decision _ h)
  obtain ⟨origin, horigin, hresponse⟩ := Option.map_eq_some_iff.mp hreply
  exact ⟨asked, origin, hasked, horigin, hresponse.symm⟩

/-- A relayed body stays decodable exactly when it was decoded on the way or means itself. -/
theorem staysDecodable_iff (hadmission : admission handler request = .ok admitted)
    (hdecided : decision (transport codings origins) request admitted = (slot, some response))
    (hlow : 100 ≤ response.statusCode) (hhigh : response.statusCode < 300) :
    ∃ asked origin, ask request admitted slot = some asked ∧ origins slot asked = some origin ∧
      ∀ content, (Header.values origin.header "Content-Encoding").length ≤ 1 →
        codings.meaning origin.header origin.body.content = some content →
          (StaysDecodable codings admitted origin response
              (serveHTTP handler (transport codings origins) clock request) ↔
            transparent asked origin = true ∨
              codings.meaning origin.header origin.body.content = some origin.body.content) := by
  obtain ⟨asked, origin, hasked, horigin, hresponse⟩ := handOver_of_decision codings origins hdecided
  refine ⟨asked, origin, hasked, horigin, fun content hsingle hcontent => ?_⟩
  have hsecond : (decision (transport codings origins) request admitted).2 = some response := by
    rw [hdecided]
  have hheaders := headers_of_decided handler _ clock hadmission hsecond hlow hhigh
  have hwritten :=
    (relay_exact_iff handler _ clock hadmission hsecond hhigh).mpr (Or.inl hlow)
  have hevents := usageEvents_of_decided handler _ clock hadmission hdecided hlow hhigh
  constructor
  · intro hdecodable
    cases htransparent : transparent asked origin with
    | true => exact Or.inl rfl
    | false =>
        have hsame := handOver_of_untransparent codings htransparent
        have hrelayed := hdecodable.relayed _ (hheaders ▸ List.mem_singleton_self _)
        rw [hwritten, relayedHeader_meaning, hresponse, hsame] at hrelayed
        exact Or.inr hrelayed.symm
  · intro hmeans
    have hbody : response.body.content = content := by
      rw [hresponse]
      cases htransparent : transparent asked origin with
      | true => exact handOver_content codings htransparent hsingle hcontent
      | false =>
          have hself := hmeans.resolve_left (by simp [htransparent])
          rw [handOver_of_untransparent codings htransparent]
          exact Option.some.inj (hself.symm.trans hcontent)
    refine ⟨?_, ?_⟩
    · intro line hline
      rw [hheaders, List.mem_singleton] at hline
      rw [hline, relayedHeader_meaning, hwritten, hbody, hcontent]
    · intro hstream hcomplete found hfound event hevent
      rw [hevents, List.mem_singleton] at hevent
      obtain rfl := Option.some.inj (hcontent.symm.trans hfound)
      rw [hevent, ← hbody]
      exact relayedEvent_usage clock hstream hcomplete

end Decodable

/-- Stored gzip members and no other coding. -/
def storedContent : List (List UInt8) → List UInt8 → Option (List UInt8)
  | [], body => some body
  | [coding], body => if equalFold coding "gzip" then GzipStored.decode body else none
  | _, _ => none

def storedGzip : Codings where
  content := storedContent
  gunzip body :=
    match GzipStored.decode body.content with
    | some decoded => ⟨[decoded], body.ending⟩
    | none => ⟨[], .failed⟩
  plain _ := rfl
  gunzip_content coding body decoded hgzip hcontent := by
    rw [storedContent, if_pos hgzip] at hcontent
    rw [hcontent]
    exact List.append_nil decoded

def gzippedAnswer : BackendResponse where
  statusCode := 200
  header := [("Content-Type", utf8 "application/json"), ("Content-Encoding", utf8 "gzip")]
  body := ⟨GzipStored.member none [utf8 "done"], .eof⟩

def gzipping : Backends := fun _ _ => some gzippedAnswer

/-- What the backend is sent for a request that lists no codings. -/
def askedPlain : BackendRequest where
  url := utf8 "http://one/v1/chat/completions"
  header := [("Content-Type", utf8 "application/json")]
  payload := utf8 "\x7b\"model\":\"fallback-model\"\x7d"

theorem gzippedAnswer_staysDecodable :
    StaysDecodable storedGzip (admittedModelRequest "http://one" "") gzippedAnswer
      (handOver storedGzip askedPlain gzippedAnswer)
      (serveHTTP ((oneRoute "http://one" "").handler true) (transport storedGzip gzipping)
        (fun n => 1000000 * n) modelRequest) := by
  have hadmission : admission ((oneRoute "http://one" "").handler true) modelRequest =
      .ok (admittedModelRequest "http://one" "") := rfl
  have hasked : ask modelRequest (admittedModelRequest "http://one" "") .primary =
      some askedPlain := by decide +kernel
  have hdecided : decision (transport storedGzip gzipping) modelRequest
      (admittedModelRequest "http://one" "") =
        (.primary, some (handOver storedGzip askedPlain gzippedAnswer)) := by
    decide +kernel
  obtain ⟨asked, origin, hsame, horigin, hiff⟩ := staysDecodable_iff storedGzip
    ((oneRoute "http://one" "").handler true) gzipping (fun n => 1000000 * n) hadmission hdecided
    (by decide) (by decide)
  obtain rfl := Option.some.inj (hasked.symm.trans hsame)
  obtain rfl : gzippedAnswer = origin := Option.some.inj horigin
  exact (hiff (utf8 "done") (by decide) (by decide +kernel)).mpr (Or.inl (by decide +kernel))

/-- A client that lists gzip itself gets gzip without its name. -/
def codingRequest : Request :=
  { modelRequest with header := ("Accept-Encoding", utf8 "gzip") :: modelRequest.header }

theorem listedGzip_not_decodable :
    ¬ StaysDecodable storedGzip (admittedModelRequest "http://one" "") gzippedAnswer gzippedAnswer
      (serveHTTP ((oneRoute "http://one" "").handler true) (transport storedGzip gzipping)
        (fun n => 1000000 * n) codingRequest) := by
  intro hdecodable
  have hlost : ∃ line ∈ headers (serveHTTP ((oneRoute "http://one" "").handler true)
      (transport storedGzip gzipping) (fun n => 1000000 * n) codingRequest),
      storedGzip.meaning line.2 (written (serveHTTP ((oneRoute "http://one" "").handler true)
        (transport storedGzip gzipping) (fun n => 1000000 * n) codingRequest)) ≠
          storedGzip.meaning gzippedAnswer.header gzippedAnswer.body.content := by
    decide +kernel
  obtain ⟨line, hline, hne⟩ := hlost
  exact hne (hdecodable.relayed line hline)

end NodeScope.Proxy
