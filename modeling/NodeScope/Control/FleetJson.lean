import NodeScope.Control.Api
import NodeScope.Lib.JsonWriter
import NodeScope.Lib.TimeParse
import NodeScope.Telemetry.Freshness

/-!
# What the control plane publishes about its hosts

`PostgresService.FleetStatus` reads the fleet from `fleet_ingestion_status()`, and `writeJSON`
writes what a route answers.

## Implementation notes

A timestamp is read into the zone of the replica, which is given by its offset in seconds at each
instant. The text of a number that is not whole is a parameter; an infinity and a NaN have none.
`writeJSON` sends the status before it encodes the body, so that the body is empty where encoding
fails. The keys of a map are written in order.
-/

namespace NodeScope.Control

open Lib Lib.Json Lib.Time Telemetry

/-- The columns of type `bigint` hold their values. -/
def FitsBigint (row : FleetStatus) : Prop :=
  row.currentMetricCount < 2 ^ 63 ∧ row.unavailableMetricCount < 2 ^ 63 ∧
    row.staleMetricCount < 2 ^ 63

instance (row : FleetStatus) : Decidable (FitsBigint row) := inferInstanceAs (Decidable (_ ∧ _))

/-- What `fleet_ingestion_status()` returns to a client. -/
structure FleetState where
  rows : List FleetStatus
  fits : ∀ row ∈ rows, FitsBigint row

/-- The query, which fails where a count is out of the range of its type. -/
def queryFleet (now : Int) (settings : CollectionSettings) (db : Storage.Db) : Option FleetState :=
  if h : ∀ row ∈ fleetIngestionStatus now settings db, FitsBigint row then
    some ⟨fleetIngestionStatus now settings db, h⟩
  else none

/-- The column `freshness_state`. -/
def freshnessText : FreshnessState → String
  | .unavailable => "unavailable"
  | .stale => "stale"
  | .fresh => "fresh"

structure FleetHost where
  id : String
  name : String
  platform : String
  freshness : String
  latestServerReceipt : Option Int
  metricCount : Int
  unavailableMetricCount : Int
  staleMetricCount : Int
  clockOffsetSeconds : Option Float64
  clockOffsetQuality : Option String
deriving DecidableEq

/-- A row as it is scanned. -/
def FleetHost.scan (row : FleetStatus) : FleetHost where
  id := row.hostSlug
  name := row.displayName
  platform := row.platform
  freshness := freshnessText row.freshnessState
  latestServerReceipt := row.latestReceipt.map ofTimestamp
  metricCount := row.currentMetricCount
  unavailableMetricCount := row.unavailableMetricCount
  staleMetricCount := row.staleMetricCount
  clockOffsetSeconds := row.clockOffsetSeconds
  clockOffsetQuality := row.clockOffsetQuality

/-- `PostgresService`, whose other methods are left to another service. -/
def postgresService (state : FleetState) (others : Service FleetHost) : Service FleetHost :=
  { others with fleetStatus := fun _ => some (state.rows.map FleetHost.scan) }

/-- What a replica writes times and numbers with. -/
structure Encoding where
  /-- The offset of the local zone at an instant, in seconds. -/
  zone : Int → Int
  number : Float64 → Option Bytes

namespace Encoding

variable (e : Encoding)

def time (t : Int) : Option Bytes :=
  if zoneEncodable (e.zone t) t then some (writeString (formatZone (e.zone t) t)) else none

/-- A field with the option `omitempty`. -/
def optional {α : Type} (name : String) (encode : α → Option Bytes) :
    Option α → Option (List (String × Bytes))
  | none => some []
  | some a => (encode a).map fun text => [(name, text)]

/-- The fields of a host in the order of its type. -/
def hostMembers (host : FleetHost) : Option (List (String × Bytes)) := do
  let receipt ← optional "latest_server_receipt" e.time host.latestServerReceipt
  let offset ← optional "clock_offset_seconds" e.number host.clockOffsetSeconds
  let quality ← optional "clock_offset_quality" (fun s => some (writeString s))
    host.clockOffsetQuality
  pure ([("id", writeString host.id), ("name", writeString host.name),
      ("platform", writeString host.platform), ("freshness", writeString host.freshness)] ++
    receipt ++
    [("metric_count", writeInt host.metricCount),
      ("unavailable_metric_count", writeInt host.unavailableMetricCount),
      ("stale_metric_count", writeInt host.staleMetricCount)] ++
    offset ++ quality)

def host (host : FleetHost) : Option Bytes := (e.hostMembers host).map writeObject

/-- The value a route answers with. -/
def answer : ApiResponse FleetHost → Option Bytes
  | .problem status title =>
      some (writeObject [("status", writeInt status), ("title", writeString title),
        ("type", writeString "https://nodescope.dev/problems/control-api")])
  | .hosts hosts =>
      (hosts.mapM e.host).map fun hosts => writeObject [("hosts", writeArray hosts)]
  | .host host => e.host host
  | .status _ word => some (writeObject [("status", writeString word)])

end Encoding

structure HttpResponse where
  status : Nat
  body : Bytes
deriving DecidableEq

def ApiResponse.code : ApiResponse FleetHost → Nat
  | .problem number _ => number
  | .hosts _ => 200
  | .host _ => 200
  | .status number _ => number

/-- `writeJSON` and `writeProblem`: an encoder ends a value with a new line. -/
def writeJSON (e : Encoding) (response : ApiResponse FleetHost) : HttpResponse where
  status := response.code
  body := match e.answer response with
    | some text => text ++ [0x0a]
    | none => []

end NodeScope.Control
