import NodeScope.Control.Principal
import NodeScope.Proxy.Handler

/-!
# The REST surface of the control plane

`Handler.ServeHTTP` with its routes in the source's order. Each route checks the role of the
principal before it reads its input, and calls the service at most once.

## Implementation notes

The handler gives the calls of the service that it makes and its answer. What the service returns
decides the answer only. Paths and ids taken from them are bytes, since a Go string need not be
UTF-8. `Decoder.Decode` needs no end of the body after an object; where the first value is no
object, every route does the same as for one without the member it asks for, or refuses it.
-/

namespace NodeScope.Control

open Lib Lib.Check Lib.Text Lib.Reader Lib.Json Proxy

/-- A call of one of the methods of the service. -/
inductive ServiceCall where
  | fleetStatus (principal : Principal)
  | hostStatus (principal : Principal) (hostID : List UInt8)
  | acknowledgeAlert (principal : Principal) (alertID note : List UInt8)
  | setCollectionInterval (principal : Principal) (hostID : List UInt8) (intervalSeconds : Int)
  | refreshStorageBaseline (principal : Principal) (hostID : List UInt8) (acknowledgedDiff : Bool)
deriving DecidableEq

/-- What the methods return, where `none` and `false` are errors. -/
structure Service (Host : Type) where
  fleetStatus : Principal → Option (List Host)
  hostStatus : Principal → List UInt8 → Option Host
  acknowledgeAlert : Principal → List UInt8 → List UInt8 → Bool
  setCollectionInterval : Principal → List UInt8 → Int → Bool
  refreshStorageBaseline : Principal → List UInt8 → Bool → Bool

structure ApiRequest where
  method : String
  path : List UInt8
  header : Header
  body : Source

inductive ApiResponse (Host : Type) where
  | problem (status : Nat) (title : String)
  | hosts (hosts : List Host)
  | host (host : Host)
  | status (code : Nat) (word : String)
deriving DecidableEq

/-- `Handler` of the control API. -/
structure Handler (Host : Type) where
  service : Option (Service Host)
  authenticator : Option (List UInt8 → Option Principal)

/-- Go's `strings.TrimPrefix`. -/
def trimPrefix (s start : List UInt8) : List UInt8 :=
  if start.isPrefixOf s then s.drop start.length else s

/-- Go's `strings.TrimSuffix`. -/
def trimSuffix (s ending : List UInt8) : List UInt8 :=
  if ending.isSuffixOf s then s.take (s.length - ending.length) else s

/-- The trimmed token of the header `Authorization`, unless it is blank. -/
def bearerToken (header : Header) : Option (List UInt8) :=
  let value := Header.get header "Authorization"
  if (utf8 "Bearer ").isPrefixOf value then
    let token := trimSpaceBytes (value.drop (utf8 "Bearer ").length)
    if token.isEmpty then none else some token
  else none

variable {Host : Type}

/-- `Handler.authorize`. -/
def authorize (authenticator : List UInt8 → Option Principal) (request : ApiRequest) :
    Except (ApiResponse Host) Principal := do
  let token ← orFail (bearerToken request.header) (.problem 401 "client credential is required")
  orFail (authenticator token) (.problem 401 "client credential is invalid")

/-- The input of a route, of which at most `limit` bytes are read. -/
def readInput (limit : Nat) (body : Source) : Option Value := parseFirst (body.content.take limit)

/-- The body that `setInterval` decodes. -/
structure IntervalInput where
  hostID : String
  intervalSeconds : Int
deriving DecidableEq

def IntervalInput.setMember (input : IntervalInput) (member : String × Value) :
    Option IntervalInput :=
  if nameMatches "hostid" member.1 then
    match member.2 with
    | .string hostID => some { input with hostID }
    | .null => some input
    | _ => none
  else if nameMatches "intervalseconds" member.1 then
    match member.2 with
    | .number literal => (int64 literal).map fun intervalSeconds => { input with intervalSeconds }
    | .null => some input
    | _ => none
  else some input

def IntervalInput.decode : Value → Option IntervalInput
  | .object members => members.foldlM IntervalInput.setMember ⟨"", 0⟩
  | .null => some ⟨"", 0⟩
  | _ => none

/-- A note that is no text is left out, since the error of the decoder is not looked at. -/
def setNote (note : String) (member : String × Value) : String :=
  if nameMatches "note" member.1 then
    match member.2 with
    | .string text => text
    | _ => note
  else note

def decodeNote : Option Value → String
  | some (.object members) => members.foldl setNote ""
  | _ => ""

def setAcknowledgedDiff (acknowledgedDiff : Bool) (member : String × Value) : Option Bool :=
  if nameMatches "acknowledgeddiff" member.1 then
    match member.2 with
    | .bool b => some b
    | .null => some acknowledgedDiff
    | _ => none
  else some acknowledgedDiff

def decodeAcknowledgedDiff : Value → Option Bool
  | .object members => members.foldlM setAcknowledgedDiff false
  | .null => some false
  | _ => none

/-- `Handler.fleet`. -/
def fleet (service : Service Host) (principal : Principal) :
    List ServiceCall × ApiResponse Host :=
  if principal.role.allows .viewer then
    ([.fleetStatus principal],
      match service.fleetStatus principal with
      | some hosts => .hosts hosts
      | none => .problem 503 "fleet status is unavailable")
  else ([], .problem 403 "viewer role is required")

/-- `Handler.host`. -/
def host (service : Service Host) (principal : Principal) (hostID : List UInt8) :
    List ServiceCall × ApiResponse Host :=
  if principal.role.allows .viewer then
    ([.hostStatus principal hostID],
      match service.hostStatus principal hostID with
      | some found => .host found
      | none => .problem 404 "host was not found")
  else ([], .problem 403 "viewer role is required")

/-- The interval of a request, if it is one of those allowed. -/
def readInterval (body : Source) : Option IntervalInput :=
  ((readInput (16 <<< 10) body).bind IntervalInput.decode).filter fun input =>
    1 ≤ input.intervalSeconds && input.intervalSeconds ≤ 60

/-- `Handler.setInterval`. -/
def setInterval (service : Service Host) (principal : Principal) (body : Source) :
    List ServiceCall × ApiResponse Host :=
  if principal.role.allows .operator then
    match readInterval body with
    | some input =>
        ([.setCollectionInterval principal (utf8 input.hostID) input.intervalSeconds],
          if service.setCollectionInterval principal (utf8 input.hostID) input.intervalSeconds then
            .status 202 "accepted"
          else .problem 400 "collection interval change was rejected")
    | none => ([], .problem 400 "intervalSeconds must be from 1 to 60")
  else ([], .problem 403 "operator role is required")

/-- `Handler.acknowledgeAlert`. -/
def acknowledgeAlert (service : Service Host) (principal : Principal) (body : Source)
    (alertID : List UInt8) : List ServiceCall × ApiResponse Host :=
  if principal.role.allows .operator then
    let note := utf8 (decodeNote (readInput (8 <<< 10) body))
    ([.acknowledgeAlert principal alertID note],
      if service.acknowledgeAlert principal alertID note then .status 200 "acknowledged"
      else .problem 400 "alert acknowledgement was rejected")
  else ([], .problem 403 "operator role is required")

/-- `Handler.refreshBaseline`. -/
def refreshBaseline (service : Service Host) (principal : Principal) (body : Source)
    (hostID : List UInt8) : List ServiceCall × ApiResponse Host :=
  if principal.role.allows .operator then
    if (readInput (8 <<< 10) body).bind decodeAcknowledgedDiff = some true then
      ([.refreshStorageBaseline principal hostID true],
        if service.refreshStorageBaseline principal hostID true then .status 202 "accepted"
        else .problem 400 "storage baseline refresh was rejected")
    else ([], .problem 400 "acknowledgedDiff=true is required")
  else ([], .problem 403 "operator role is required")

/-- The routes of `ServeHTTP`. -/
def route (service : Service Host) (principal : Principal) (request : ApiRequest) :
    List ServiceCall × ApiResponse Host :=
  let path := trimPrefix request.path (utf8 "/api/v1")
  if request.method = "GET" ∧ path = utf8 "/fleet" then fleet service principal
  else if request.method = "GET" ∧ utf8 "/hosts/" <+: path then
    host service principal (trimPrefix path (utf8 "/hosts/"))
  else if request.method = "PUT" ∧ path = utf8 "/configuration/collection-interval" then
    setInterval service principal request.body
  else if request.method = "POST" ∧ utf8 "/alerts/" <+: path ∧ utf8 "/acknowledge" <:+ path then
    acknowledgeAlert service principal request.body
      (trimSuffix (trimPrefix path (utf8 "/alerts/")) (utf8 "/acknowledge"))
  else if request.method = "POST" ∧ utf8 "/storage-baselines/" <+: path ∧
      utf8 "/refresh" <:+ path then
    refreshBaseline service principal request.body
      (trimSuffix (trimPrefix path (utf8 "/storage-baselines/")) (utf8 "/refresh"))
  else if request.method = "GET" ∧ path = utf8 "/audit" then
    ([], .problem 501 "audit query endpoint requires the persisted audit reader")
  else ([], .problem 404 "control API endpoint was not found")

/-- `Handler.ServeHTTP`. -/
def serveHTTP (handler : Handler Host) (request : ApiRequest) :
    List ServiceCall × ApiResponse Host :=
  match handler.service, handler.authenticator with
  | some service, some authenticator =>
      match authorize authenticator request with
      | .ok principal => route service principal request
      | .error response => ([], response)
  | _, _ => ([], .problem 503 "control API is not configured")

end NodeScope.Control
