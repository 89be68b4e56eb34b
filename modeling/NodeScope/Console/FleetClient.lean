import NodeScope.Control.FleetJson

/-!
# The fleet as a console loads it

A console reads the fleet from the database or from the control API. Both ways end in the same
type, which the consoles render.

## Implementation notes

The connection, the credential and the certificate of a client are not modelled: the database
answers with its rows and the control API with a response. A time in JSON is taken as the text it
stands for, which has no escapes where Go wrote it.
-/

namespace NodeScope.Console

open Lib Lib.Json Lib.Time Telemetry Control

def maxResponseBytes : Nat := 1 <<< 20

/-- `HostStatus`. -/
structure HostStatus where
  hostSlug : String
  displayName : String
  platform : String
  effectiveIntervalSeconds : Int
  freshnessState : String
  latestReceipt : Option Int
  currentMetricCount : Int
  unavailableMetricCount : Int
  staleMetricCount : Int
  clockOffsetSeconds : Option Float64
  clockOffsetQuality : Option String
deriving DecidableEq

/-- `remoteFleetHost`. -/
structure RemoteFleetHost where
  id : String
  name : String
  platform : String
  freshness : String
  latestServerReceipt : Option Int
  metricCount : Int
  unavailableMetricCount : Int
  staleMetricCount : Int
deriving DecidableEq

/-- The errors of `loadHTTPS` for a response. -/
inductive LoadError where
  | tooLarge
  | refused (status : Nat)
  | decode
deriving DecidableEq

def LoadError.message : LoadError → String
  | .tooLarge => "remote fleet status exceeds the maximum response size"
  | .refused status => "fetch remote fleet status: control API returned " ++ toString status
  | .decode => "decode remote fleet status"

namespace RemoteFleetHost

def zero : RemoteFleetHost := ⟨"", "", "", "", none, 0, 0, 0⟩

/-- The fields that `FleetHost` has beside these are dropped, and so is the interval. -/
def status (host : RemoteFleetHost) : HostStatus where
  hostSlug := host.id
  displayName := host.name
  platform := host.platform
  effectiveIntervalSeconds := 0
  freshnessState := host.freshness
  latestReceipt := host.latestServerReceipt
  currentMetricCount := host.metricCount
  unavailableMetricCount := host.unavailableMetricCount
  staleMetricCount := host.staleMetricCount
  clockOffsetSeconds := none
  clockOffsetQuality := none

def text (old : String) : Value → Option String
  | .string s => some s
  | .null => some old
  | _ => none

def count (old : Int) : Value → Option Int
  | .number literal => int64 literal
  | .null => some old
  | _ => none

def time : Value → Option (Option Int)
  | .string s => (parseRFC3339 s.toList).map some
  | .null => some none
  | _ => none

/-- What a member of an object does to a host. -/
def setMember (host : RemoteFleetHost) (member : String × Value) : Option RemoteFleetHost :=
  if nameMatches "id" member.1 then
    (text host.id member.2).map fun id => { host with id }
  else if nameMatches "name" member.1 then
    (text host.name member.2).map fun name => { host with name }
  else if nameMatches "platform" member.1 then
    (text host.platform member.2).map fun platform => { host with platform }
  else if nameMatches "freshness" member.1 then
    (text host.freshness member.2).map fun freshness => { host with freshness }
  else if nameMatches "latest_server_receipt" member.1 then
    (time member.2).map fun latestServerReceipt => { host with latestServerReceipt }
  else if nameMatches "metric_count" member.1 then
    (count host.metricCount member.2).map fun metricCount => { host with metricCount }
  else if nameMatches "unavailable_metric_count" member.1 then
    (count host.unavailableMetricCount member.2).map fun unavailableMetricCount =>
      { host with unavailableMetricCount }
  else if nameMatches "stale_metric_count" member.1 then
    (count host.staleMetricCount member.2).map fun staleMetricCount =>
      { host with staleMetricCount }
  else some host

def decode (host : RemoteFleetHost) : Value → Option RemoteFleetHost
  | .object members => members.foldlM setMember host
  | .null => some host
  | _ => none

/-- An array is decoded into the elements that are there already. -/
def decodeAll : List RemoteFleetHost → List Value → Option (List RemoteFleetHost)
  | _, [] => some []
  | old, value :: values => do
      let host ← decode (old.headD zero) value
      let hosts ← decodeAll old.tail values
      pure (host :: hosts)

end RemoteFleetHost

/-- The field of the payload. -/
def setHosts (hosts : List RemoteFleetHost) (member : String × Value) :
    Option (List RemoteFleetHost) :=
  if nameMatches "hosts" member.1 then
    match member.2 with
    | .array elements => RemoteFleetHost.decodeAll hosts elements
    | .null => some []
    | _ => none
  else some hosts

def decodePayload : Value → Option (List RemoteFleetHost)
  | .object members => members.foldlM setHosts []
  | .null => some []
  | _ => none

/-- `loadHTTPS`, from the response on. -/
def loadHTTPS (response : HttpResponse) : Except LoadError (List HostStatus) :=
  if maxResponseBytes < response.body.length then .error .tooLarge
  else if response.status ≠ 200 then .error (.refused response.status)
  else
    match (parse response.body).bind decodePayload with
    | some hosts => .ok (hosts.map RemoteFleetHost.status)
    | none => .error .decode

/-- A row as it is scanned. -/
def HostStatus.scan (row : FleetStatus) : HostStatus where
  hostSlug := row.hostSlug
  displayName := row.displayName
  platform := row.platform
  effectiveIntervalSeconds := row.effectiveIntervalSeconds
  freshnessState := freshnessText row.freshnessState
  latestReceipt := row.latestReceipt.map ofTimestamp
  currentMetricCount := row.currentMetricCount
  unavailableMetricCount := row.unavailableMetricCount
  staleMetricCount := row.staleMetricCount
  clockOffsetSeconds := row.clockOffsetSeconds
  clockOffsetQuality := row.clockOffsetQuality

/-- `loadDatabase`, whose rows are scanned as they come. -/
def loadDatabase (state : FleetState) : List HostStatus := state.rows.map HostStatus.scan

end NodeScope.Console
