import NodeScope.Control.Api

/-!
# The tools of the control plane

The tools that `Server.New` registers, and `NewHTTPHandler`, which puts the principal of the bearer
token into the context before the protocol handler runs.

## Implementation notes

The protocol handler is a parameter: the tools it calls for a request, each with its decoded input.
It passes the context of the request to them, as `NewHTTPHandler` relies on.
-/

namespace NodeScope.Control

open Lib Lib.Check Lib.Text Lib.Reader Proxy

/-- A call of a tool with its input. -/
inductive ToolCall where
  | fleetStatus
  | acknowledgeAlert (alertID note : String)
  | setCollectionInterval (hostID : String) (intervalSeconds : Int)
  | refreshStorageBaseline (hostID : String) (acknowledgedDiff : Bool)
deriving DecidableEq

inductive ToolError where
  | principalRequired
  | roleRequired (minimum : Role)
  | alertIDRequired
  | intervalOutOfRange
  | baselineNotAcknowledged
  | service
deriving DecidableEq

inductive ToolOutput (Host : Type) where
  | fleetStatus (hosts : List Host)
  | action (status : String) (audited : Bool)
deriving DecidableEq

/-- The principal of a context, which must have an id. -/
def principalFrom (context : Option Principal) : Except ToolError Principal :=
  orFail (context.filter fun principal => principal.id != "") .principalRequired

def requireRole (context : Option Principal) (minimum : Role) : Except ToolError Principal := do
  let principal ← principalFrom context
  failIf (!principal.role.allows minimum) (.roleRequired minimum)
  pure principal

structure Server (Host : Type) where
  service : Service Host

variable {Host : Type}

/-- What a tool has called, with its output. -/
abbrev ToolResult (Host : Type) := List ServiceCall × Except ToolError (ToolOutput Host)

/-- The output of an action that the service has carried out or refused. -/
def actionOutput (status : String) (done : Bool) : Except ToolError (ToolOutput Host) :=
  if done then .ok (.action status true) else .error .service

def Server.fleetStatus (server : Server Host) (context : Option Principal) : ToolResult Host :=
  match requireRole context .viewer with
  | .error error => ([], .error error)
  | .ok principal =>
      ([.fleetStatus principal],
        (orFail (server.service.fleetStatus principal) .service).map .fleetStatus)

def Server.acknowledgeAlert (server : Server Host) (context : Option Principal)
    (alertID note : String) : ToolResult Host :=
  match requireRole context .operator with
  | .error error => ([], .error error)
  | .ok principal =>
      if alertID = "" then ([], .error .alertIDRequired)
      else
        ([.acknowledgeAlert principal (utf8 alertID) (utf8 note)],
          actionOutput "acknowledged"
            (server.service.acknowledgeAlert principal (utf8 alertID) (utf8 note)))

def Server.setCollectionInterval (server : Server Host) (context : Option Principal)
    (hostID : String) (intervalSeconds : Int) : ToolResult Host :=
  match requireRole context .operator with
  | .error error => ([], .error error)
  | .ok principal =>
      if intervalSeconds < 1 ∨ 60 < intervalSeconds then ([], .error .intervalOutOfRange)
      else
        ([.setCollectionInterval principal (utf8 hostID) intervalSeconds],
          actionOutput "collection_interval_updated"
            (server.service.setCollectionInterval principal (utf8 hostID) intervalSeconds))

def Server.refreshStorageBaseline (server : Server Host) (context : Option Principal)
    (hostID : String) (acknowledgedDiff : Bool) : ToolResult Host :=
  match requireRole context .operator with
  | .error error => ([], .error error)
  | .ok principal =>
      if hostID = "" ∨ acknowledgedDiff = false then ([], .error .baselineNotAcknowledged)
      else
        ([.refreshStorageBaseline principal (utf8 hostID) acknowledgedDiff],
          actionOutput "storage_baseline_refreshed"
            (server.service.refreshStorageBaseline principal (utf8 hostID) acknowledgedDiff))

/-- The tools that `Server.New` registers. -/
def Server.callTool (server : Server Host) (context : Option Principal) :
    ToolCall → ToolResult Host
  | .fleetStatus => server.fleetStatus context
  | .acknowledgeAlert alertID note => server.acknowledgeAlert context alertID note
  | .setCollectionInterval hostID intervalSeconds =>
      server.setCollectionInterval context hostID intervalSeconds
  | .refreshStorageBaseline hostID acknowledgedDiff =>
      server.refreshStorageBaseline context hostID acknowledgedDiff

structure ToolRequest where
  header : Header
  body : Source

/-- `NewHTTPHandler`: the results of the tools called for a request, or none for one that is
unauthorized. -/
def newHTTPHandler (server : Server Host) (authenticator : Option (List UInt8 → Option Principal))
    (toolCalls : ToolRequest → List ToolCall) (request : ToolRequest) :
    Option (List (ToolResult Host)) := do
  let authenticator ← authenticator
  let token ← bearerToken request.header
  let principal ← authenticator token
  some ((toolCalls request).map (server.callTool (some principal)))

/-- The calls of the service that a request leads to. -/
def toolServiceCalls (results : Option (List (ToolResult Host))) : List ServiceCall :=
  (results.getD []).flatMap Prod.fst

end NodeScope.Control
