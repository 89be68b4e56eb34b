import NodeScope.Lib.Check
import NodeScope.Lib.Float64
import NodeScope.Lib.Json
import NodeScope.Lib.Reader
import NodeScope.Lib.Url

/-!
# The inference proxy

`ServeHTTP` as the list of what it does to the outside: the requests to the backends, what
it reads and closes of their responses, what it writes to the client and which events it
hands on. The checks before a request is forwarded are `admission`.

## Implementation notes

The backends are a function of the request they get and of whether they are asked as the
primary or the secondary: `forward` asks each at most once. `clock` gives the successive
readings of the handler's clock. A status below 100 makes `WriteHeader` panic; the deferred
calls then still close the response, and nothing more is done.
-/

namespace NodeScope.Proxy

open Lib Lib.Check Lib.Text Lib.Reader

def maxInferenceRequestBytes : Nat := 8 <<< 20

def maxNonStreamingResponseBytes : Nat := 32 <<< 20

/-- The buffer of `copyStreaming`. -/
def streamBufferBytes : Nat := 32 * 1024

/-- The lines of a header in their order, with names in canonical form. -/
abbrev Header := List (String × List UInt8)

def Header.values (h : Header) (key : String) : List (List UInt8) :=
  (h.filter fun line => line.1 == key).map Prod.snd

def Header.get (h : Header) (key : String) : List UInt8 := (Header.values h key).headD []

structure BackendRoute where
  id : String
  model : String
  primaryURL : String
  secondaryURL : String
  enabled : Bool
deriving DecidableEq

structure ClientCredential where
  id : String
  token : String
deriving DecidableEq

structure FileConfiguration where
  routes : List BackendRoute
  clients : List ClientCredential
deriving DecidableEq

inductive ConfigurationError where
  | noRoute
  | incompleteRoute
  | primaryURL (routeID : String)
  | secondaryURL (routeID : String)
  | noClient
  | incompleteClient
deriving DecidableEq

/-- The part of a URL check that `validateBackendURL` and `forwardOnce` share. -/
def credentialFree (u : Url.URL) : Bool :=
  !u.host.isEmpty && (u.scheme == utf8 "http" || u.scheme == utf8 "https") && !u.hasUser &&
    u.rawQuery.isEmpty && u.fragment.isEmpty

def validateBackendURL (value : String) : Bool :=
  match Url.parseRequestURI (utf8 value) with
  | some endpoint => credentialFree endpoint
  | none => false

def checkRoute (route : BackendRoute) : Except ConfigurationError Unit := do
  failIf (route.id == "" || route.model == "" || route.primaryURL == "" || !route.enabled)
    .incompleteRoute
  failIf (!validateBackendURL route.primaryURL) (.primaryURL route.id)
  failIf (route.secondaryURL != "" && !validateBackendURL route.secondaryURL)
    (.secondaryURL route.id)

/-- The checks of `LoadFileConfiguration` on the contents of the file. -/
def FileConfiguration.check (configuration : FileConfiguration) :
    Except ConfigurationError Unit := do
  failIf configuration.routes.isEmpty .noRoute
  forAll checkRoute configuration.routes
  failIf configuration.clients.isEmpty .noClient
  forAll (fun client => failIf (client.id == "" || client.token == "") .incompleteClient)
    configuration.clients

/-- `NewMemoryRegistry`: a later route replaces an earlier one of its model. -/
def newMemoryRegistry (routes : List BackendRoute) : String → Option BackendRoute :=
  routes.foldl (fun registry route => Function.update registry route.model (some route))
    fun _ => none

/-- `MemoryRegistry.Resolve`. -/
def resolve (registry : String → Option BackendRoute) (model : String) : Option BackendRoute :=
  (registry model).filter BackendRoute.enabled

/-- The map of `FileConfiguration.Authenticator`, from tokens to clients. -/
def clientTokens (clients : List ClientCredential) : List UInt8 → Option String :=
  clients.foldl (fun tokens client => Function.update tokens (utf8 client.token) (some client.id))
    fun _ => none

/-- `StaticClientAuthenticator.AuthenticateClient`. -/
def authenticateClient (tokens : List UInt8 → Option String) (token : List UInt8) : Option String :=
  (tokens token).filter fun clientID => trimSpace clientID != ""

/-- A registry, an authenticator and a recorder may be missing; the observer is optional. -/
structure Handler where
  registry : Option (String → Option BackendRoute)
  authenticator : Option (List UInt8 → Option String)
  recorder : Bool
  observer : Bool

def FileConfiguration.handler (configuration : FileConfiguration) (observer : Bool) : Handler where
  registry := some (resolve (newMemoryRegistry configuration.routes))
  authenticator := some (authenticateClient (clientTokens configuration.clients))
  recorder := true
  observer := observer

structure Request where
  method : String
  header : Header
  body : Source

/-- What the handler decodes of a request. -/
structure Metadata where
  model : String
  stream : Bool
deriving DecidableEq

def Metadata.setMember (metadata : Metadata) (member : String × Json.Value) : Option Metadata :=
  if Json.nameMatches "model" member.1 then
    match member.2 with
    | .string model => some { metadata with model }
    | .null => some metadata
    | _ => none
  else if Json.nameMatches "stream" member.1 then
    match member.2 with
    | .bool stream => some { metadata with stream }
    | .null => some metadata
    | _ => none
  else some metadata

def Metadata.decode : Json.Value → Option Metadata
  | .object members => members.foldlM Metadata.setMember ⟨"", false⟩
  | .null => some ⟨"", false⟩
  | _ => none

/-- The three counters of a response. -/
structure Usage where
  promptTokens : Option Int
  completionTokens : Option Int
  totalTokens : Option Int
deriving DecidableEq

def Usage.absent : Usage := ⟨none, none, none⟩

/-- A pointer to an `int64`. -/
def decodeCounter : Json.Value → Option (Option Int)
  | .number literal => (Json.int64 literal).map some
  | .null => some none
  | _ => none

def Usage.setMember (usage : Usage) (member : String × Json.Value) : Option Usage :=
  if Json.nameMatches "prompt_tokens" member.1 then
    (decodeCounter member.2).map fun promptTokens => { usage with promptTokens }
  else if Json.nameMatches "completion_tokens" member.1 then
    (decodeCounter member.2).map fun completionTokens => { usage with completionTokens }
  else if Json.nameMatches "total_tokens" member.1 then
    (decodeCounter member.2).map fun totalTokens => { usage with totalTokens }
  else some usage

/-- The member `usage` of a response is decoded into the counters that stand so far. -/
def Usage.setUsage (usage : Usage) (member : String × Json.Value) : Option Usage :=
  if Json.nameMatches "usage" member.1 then
    match member.2 with
    | .object members => members.foldlM Usage.setMember usage
    | .null => some usage
    | _ => none
  else some usage

def Usage.decode : Json.Value → Option Usage
  | .object members => members.foldlM Usage.setUsage Usage.absent
  | .null => some Usage.absent
  | _ => none

def extractUsage (payload : List UInt8) : Usage :=
  ((Json.parse payload).bind Usage.decode).getD Usage.absent

inductive Outcome where
  | completed
  | backendError
  | transportError
  | backendRedirect
  | streamError
deriving DecidableEq

def Outcome.word : Outcome → String
  | .completed => "completed"
  | .backendError => "backend_error"
  | .transportError => "transport_error"
  | .backendRedirect => "backend_redirect"
  | .streamError => "stream_error"

structure UsageEvent where
  occurredAt : Int
  routeID : String
  model : String
  clientID : String
  backendID : String
  statusCode : Nat
  streaming : Bool
  ttftMilliseconds : Option Int
  durationMilliseconds : Int
  promptTokens : Option Int
  outputTokens : Option Int
  totalTokens : Option Int
  outcome : Outcome
deriving DecidableEq

structure OperationalEvent where
  occurredAt : Int
  routeID : String
  model : String
  clientID : String
  backendID : String
  statusCode : Nat
  streaming : Bool
  ttftMilliseconds : Option Int
  durationMilliseconds : Int
  promptTokens : Option Int
  outputTokens : Option Int
  totalTokens : Option Int
  outcome : Outcome
deriving DecidableEq

def operationalEvent (event : UsageEvent) : OperationalEvent where
  occurredAt := event.occurredAt
  routeID := event.routeID
  model := event.model
  clientID := event.clientID
  backendID := event.backendID
  statusCode := event.statusCode
  streaming := event.streaming
  ttftMilliseconds := event.ttftMilliseconds
  durationMilliseconds := event.durationMilliseconds
  promptTokens := event.promptTokens
  outputTokens := event.outputTokens
  totalTokens := event.totalTokens
  outcome := event.outcome

/-- The two backends of a route. -/
inductive Slot where
  | primary
  | secondary
deriving DecidableEq

def BackendRoute.url (route : BackendRoute) : Slot → String
  | .primary => route.primaryURL
  | .secondary => route.secondaryURL

def BackendRoute.backendID (route : BackendRoute) : Slot → String
  | .primary => route.id ++ ":primary"
  | .secondary => route.id ++ ":secondary"

/-- A blank URL is none. -/
def BackendRoute.hasSecondary (route : BackendRoute) : Bool := trimSpace route.secondaryURL != ""

structure BackendRequest where
  url : List UInt8
  header : Header
  payload : List UInt8
deriving DecidableEq

structure BackendResponse where
  statusCode : Nat
  header : Header
  body : Source
deriving DecidableEq

/-- What `client.Do` returns, where `none` is an error of the transport. -/
abbrev Backends := Slot → BackendRequest → Option BackendResponse

inductive Effect where
  | contact (slot : Slot) (request : BackendRequest)
  | readBody (slot : Slot)
  | closeBody (slot : Slot)
  | writeHeader (status : Nat) (header : Header)
  | write (bytes : List UInt8)
  | recordUsage (event : UsageEvent)
  | observeProxy (event : OperationalEvent)
deriving DecidableEq

/-- `Duration.Milliseconds` of the time since `started`. -/
def millisecondsSince (started now : Int) : Int :=
  (Float64.durationBetween now started).tdiv 1000000

def quoted (s : String) : String := "\"" ++ s ++ "\""

/-- The body of a problem, with its members in the order of their names. -/
def problemBody (status : Nat) (title : String) : List UInt8 :=
  utf8 ("\x7b" ++ quoted "status" ++ ":" ++ Nat.repr status ++ "," ++ quoted "title" ++ ":" ++
    quoted title ++ "," ++ quoted "type" ++ ":" ++
    quoted "https://nodescope.dev/problems/inference-proxy" ++ "\x7d\n")

def writeProxyProblem (status : Nat) (title : String) : List Effect :=
  [.writeHeader status
    [("Content-Type", utf8 "application/problem+json; charset=utf-8"),
      ("Cache-Control", utf8 "no-store")],
    .write (problemBody status title)]

def appendedPath (path : List UInt8) : List UInt8 :=
  let base := path.rdropWhile (· == 0x2f)
  if (utf8 "/v1").isSuffixOf base then base ++ utf8 "/chat/completions"
  else base ++ utf8 "/v1/chat/completions"

/-- The request of `forwardOnce`, unless the URL of the backend is refused. -/
def backendRequest (original : Header) (payload : List UInt8) (base : String) :
    Option BackendRequest := do
  let baseURL ← Url.parse (utf8 base)
  if credentialFree baseURL then
    let target := Url.URL.hierarchical { baseURL with path := appendedPath baseURL.path }
    let _ ← Url.parse target
    some {
      url := target
      header := (["Accept", "Accept-Encoding", "User-Agent"].flatMap fun key =>
        (Header.values original key).map fun value => (key, value)) ++
          [("Content-Type", utf8 "application/json")]
      payload := payload }
  else none

def forwardOnce (backends : Backends) (original : Header) (payload : List UInt8)
    (route : BackendRoute) (slot : Slot) : List Effect × Option BackendResponse :=
  match backendRequest original payload (route.url slot) with
  | some request => ([.contact slot request], backends slot request)
  | none => ([], none)

def shouldFailOverStatus (status : Nat) : Bool := status == 502 || status == 503 || status == 504

def isBackendRedirect (status : Nat) : Bool := 300 ≤ status && status < 400

/-- The backend that `forward` names, with its response. -/
structure Forwarded where
  effects : List Effect
  slot : Slot
  response : Option BackendResponse

def forward (backends : Backends) (original : Header) (payload : List UInt8)
    (route : BackendRoute) : Forwarded :=
  let (asked, primary) := forwardOnce backends original payload route .primary
  match primary with
  | some response =>
      if shouldFailOverStatus response.statusCode && route.hasSecondary then
        let (askedNext, secondary) := forwardOnce backends original payload route .secondary
        match secondary with
        | some fallback => ⟨asked ++ [.closeBody .primary] ++ askedNext, .secondary, some fallback⟩
        | none => ⟨asked ++ [.closeBody .primary] ++ askedNext, .primary, some response⟩
      else ⟨asked, .primary, some response⟩
  | none =>
      if route.hasSecondary then
        let (askedNext, secondary) := forwardOnce backends original payload route .secondary
        ⟨asked ++ askedNext, .secondary, secondary⟩
      else ⟨asked, .primary, none⟩

/-- A request that passed the checks before it is forwarded. -/
structure Admitted where
  clientID : String
  payload : List UInt8
  metadata : Metadata
  route : BackendRoute
deriving DecidableEq

/-- The token of the header `Authorization`. -/
def clientToken (request : Request) : Option (List UInt8) :=
  let value := Header.get request.header "Authorization"
  if (utf8 "Bearer ").isPrefixOf value then
    let token := trimSpaceBytes (value.drop (utf8 "Bearer ").length)
    if token.isEmpty then none else some token
  else none

/-- The model of a request, which may not be blank, and its flag. -/
def readMetadata (payload : List UInt8) : Option Metadata :=
  ((Json.parse payload).bind Metadata.decode).filter fun metadata => trimSpace metadata.model != ""

/-- The checks of `ServeHTTP` up to the route, with the status and the title of each refusal. -/
def admission (handler : Handler) (request : Request) : Except (Nat × String) Admitted := do
  failIf (request.method != "POST") (405, "only POST is supported")
  let unconfigured := (503, "inference proxy is not configured")
  let registry ← orFail handler.registry unconfigured
  let authenticator ← orFail handler.authenticator unconfigured
  failIf (!handler.recorder) unconfigured
  let token ← orFail (clientToken request) (401, "client credential is required")
  let clientID ← orFail (authenticator token) (401, "client credential is invalid")
  let payload ← orFail (request.body.readMax maxInferenceRequestBytes)
    (413, "inference request exceeds the configured size limit")
  let metadata ← orFail (readMetadata payload) (400, "OpenAI request must include a model")
  let route ← orFail (registry metadata.model) (404, "approved backend route is unavailable")
  pure ⟨clientID, payload, metadata, route⟩

def record (handler : Handler) (event : UsageEvent) : List Effect :=
  .recordUsage event :: if handler.observer then [.observeProxy (operationalEvent event)] else []

/-- The loop of `copyStreaming` over the reads of a body: what it writes, the time of the
first bytes, and how often the clock was read. -/
def copyStreaming (clock : Nat → Int) (started : Int) :
    List (List UInt8) → Nat → Option Int → List Effect × Option Int × Nat
  | [], tick, ttft => ([], ttft, tick)
  | chunk :: rest, tick, ttft =>
      if chunk.isEmpty then copyStreaming clock started rest tick ttft
      else
        let (ttft, tick) :=
          match ttft with
          | some value => (some value, tick)
          | none => (some (millisecondsSince started (clock tick)), tick + 1)
        let (written, ttft, tick) := copyStreaming clock started rest tick ttft
        (.write chunk :: written, ttft, tick)

/-- The event of a response before its body is read. -/
def responseEvent (admitted : Admitted) (slot : Slot) (status : Nat) (occurredAt : Int) :
    UsageEvent where
  occurredAt := occurredAt
  routeID := admitted.route.id
  model := admitted.metadata.model
  clientID := admitted.clientID
  backendID := admitted.route.backendID slot
  statusCode := status
  streaming := admitted.metadata.stream
  ttftMilliseconds := none
  durationMilliseconds := 0
  promptTokens := none
  outputTokens := none
  totalTokens := none
  outcome := if status < 400 then .completed else .backendError

/-- The header of a relayed response: of the backend's only the type. -/
def relayedHeader (admitted : Admitted) (response : BackendResponse) : Header :=
  ((Header.values response.header "Content-Type").map fun value => ("Content-Type", value)) ++
    [("Cache-Control", utf8 "no-store"), ("X-NodeScope-Route", utf8 admitted.route.id)]

def relayStream (handler : Handler) (clock : Nat → Int) (event : UsageEvent) (body : Source) :
    List Effect :=
  let (written, ttft, tick) := copyStreaming clock (clock 0) (body.reads streamBufferBytes) 2 none
  written ++ record handler { event with
    ttftMilliseconds := ttft
    outcome := if body.ending = .failed then .streamError else event.outcome
    durationMilliseconds := millisecondsSince (clock 0) (clock tick) }

def relayWhole (handler : Handler) (clock : Nat → Int) (event : UsageEvent) (body : Source) :
    List Effect :=
  let (responseBytes, ending) := body.readLimited (maxNonStreamingResponseBytes + 1)
  if ending = .eof ∧ responseBytes.length ≤ maxNonStreamingResponseBytes then
    let usage := extractUsage responseBytes
    .write responseBytes :: record handler { event with
      promptTokens := usage.promptTokens
      outputTokens := usage.completionTokens
      totalTokens := usage.totalTokens
      ttftMilliseconds := some (millisecondsSince (clock 0) (clock 2))
      durationMilliseconds := millisecondsSince (clock 0) (clock 3) }
  else
    [.write responseBytes, .write (body.content.drop responseBytes.length)] ++
      record handler { event with
        durationMilliseconds := millisecondsSince (clock 0) (clock 2) }

/-- The part of `ServeHTTP` after a response has come. -/
def answer (handler : Handler) (clock : Nat → Int) (admitted : Admitted) (slot : Slot)
    (response : BackendResponse) : List Effect :=
  let status := response.statusCode
  let event := responseEvent admitted slot status (clock 1)
  if isBackendRedirect status || 400 ≤ status then
    let event := { event with durationMilliseconds := millisecondsSince (clock 0) (clock 2) }
    if isBackendRedirect status then
      record handler { event with outcome := .backendRedirect } ++
        writeProxyProblem 502 "approved backend route attempted an unsupported redirect"
    else record handler event ++ writeProxyProblem 502 "approved backend route returned an error"
  else if status < 100 then []
  else
    [.writeHeader status (relayedHeader admitted response), .readBody slot] ++
      if admitted.metadata.stream then relayStream handler clock event response.body
      else relayWhole handler clock event response.body

/-- The event of a request that no backend answered. -/
def transportEvent (clock : Nat → Int) (admitted : Admitted) (slot : Slot) : UsageEvent :=
  { responseEvent admitted slot 0 (clock 1) with
    durationMilliseconds := millisecondsSince (clock 0) (clock 2)
    outcome := .transportError }

/-- The part of `ServeHTTP` after the checks. -/
def serveAdmitted (handler : Handler) (backends : Backends) (clock : Nat → Int) (original : Header)
    (admitted : Admitted) : List Effect :=
  let forwarded := forward backends original admitted.payload admitted.route
  forwarded.effects ++
    match forwarded.response with
    | some response =>
        answer handler clock admitted forwarded.slot response ++ [.closeBody forwarded.slot]
    | none =>
        record handler (transportEvent clock admitted forwarded.slot) ++
          writeProxyProblem 502 "approved backend route did not respond"

def serveHTTP (handler : Handler) (backends : Backends) (clock : Nat → Int) (request : Request) :
    List Effect :=
  match admission handler request with
  | .ok admitted => serveAdmitted handler backends clock request.header admitted
  | .error (status, title) => writeProxyProblem status title

end NodeScope.Proxy
