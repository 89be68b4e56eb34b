import NodeScope.Access.Boundary
import NodeScope.Access.Writes
import NodeScope.Agent.AgentDeliverable
import NodeScope.Agent.CanonicalEndpoint
import NodeScope.Agent.Circuit
import NodeScope.Agent.CircuitBreaker
import NodeScope.Agent.Collectors
import NodeScope.Agent.Configuration
import NodeScope.Agent.CpuUtilization
import NodeScope.Agent.Deliverable
import NodeScope.Agent.InventoryBody
import NodeScope.Agent.LinuxAgent
import NodeScope.Agent.ProcessMemory
import NodeScope.Agent.RemoteReplicas
import NodeScope.Agent.RuntimeEndpoints
import NodeScope.Agent.Sender
import NodeScope.Agent.SequenceStore
import NodeScope.Agent.SequenceUnique
import NodeScope.App.Configuration
import NodeScope.App.ReplicaAgreement
import NodeScope.App.Server
import NodeScope.Backup.Archive
import NodeScope.Backup.Dump
import NodeScope.Backup.FencingToken
import NodeScope.Backup.Lease
import NodeScope.Backup.LeaseSafety
import NodeScope.Backup.Outcome
import NodeScope.Backup.Publication
import NodeScope.Backup.Runner
import NodeScope.Backup.Snapshot
import NodeScope.Console.FleetAgreement
import NodeScope.Console.FleetClient
import NodeScope.Console.Invariant
import NodeScope.Console.Router
import NodeScope.Console.RuntimeApproval
import NodeScope.Console.SshRelay
import NodeScope.Control.Api
import NodeScope.Control.AuditTrail
import NodeScope.Control.Authorization
import NodeScope.Control.ControlPlane
import NodeScope.Control.FleetJson
import NodeScope.Control.Intervals
import NodeScope.Control.Operations
import NodeScope.Control.Principal
import NodeScope.Control.Routes
import NodeScope.Control.Tools
import NodeScope.Credentials.CredentialFile
import NodeScope.Credentials.Enrollment
import NodeScope.Credentials.Expiry
import NodeScope.Credentials.Rotation
import NodeScope.Domain.Metric
import NodeScope.Evidence.Reports
import NodeScope.Ingest.Admission
import NodeScope.Ingest.AdmissionInvariant
import NodeScope.Ingest.AtMostOnce
import NodeScope.Ingest.CollectionStored
import NodeScope.Ingest.ExperimentalReadings
import NodeScope.Ingest.Protocol
import NodeScope.Ingest.Service
import NodeScope.Ingest.Session
import NodeScope.Ingest.StoreFailure
import NodeScope.Lib.Aggregate
import NodeScope.Lib.ByteText
import NodeScope.Lib.Check
import NodeScope.Lib.Decimal
import NodeScope.Lib.Distinct
import NodeScope.Lib.Float64
import NodeScope.Lib.FloatArith
import NodeScope.Lib.FloatOrder
import NodeScope.Lib.FloatParse
import NodeScope.Lib.GzipStored
import NodeScope.Lib.HostPort
import NodeScope.Lib.IpAddress
import NodeScope.Lib.Journal
import NodeScope.Lib.Json
import NodeScope.Lib.JsonWriter
import NodeScope.Lib.Machine
import NodeScope.Lib.Numeric
import NodeScope.Lib.Path
import NodeScope.Lib.Protobuf
import NodeScope.Lib.Publish
import NodeScope.Lib.Reader
import NodeScope.Lib.Runes
import NodeScope.Lib.Sha256
import NodeScope.Lib.Sink
import NodeScope.Lib.Table
import NodeScope.Lib.Text
import NodeScope.Lib.Time
import NodeScope.Lib.TimeParse
import NodeScope.Lib.TimeText
import NodeScope.Lib.Url
import NodeScope.Lib.Ustar
import NodeScope.Lib.Uuid
import NodeScope.Lib.Whatwg
import NodeScope.Lib.Wrapping
import NodeScope.Lib.ZstdFrame
import NodeScope.Proxy.BackendURL
import NodeScope.Proxy.Configuration
import NodeScope.Proxy.ContentCoding
import NodeScope.Proxy.Failover
import NodeScope.Proxy.Handler
import NodeScope.Proxy.Metadata
import NodeScope.Proxy.Relay
import NodeScope.Proxy.RequestReading
import NodeScope.Proxy.UsageTable
import NodeScope.Storage.Estimate
import NodeScope.Storage.Governor
import NodeScope.Storage.HighWater
import NodeScope.Storage.ProbeEvidence
import NodeScope.Storage.Rollup
import NodeScope.Storage.Schema
import NodeScope.Telemetry.CapacityMode
import NodeScope.Telemetry.ClockEvidence
import NodeScope.Telemetry.Convergence
import NodeScope.Telemetry.Duplicates
import NodeScope.Telemetry.Envelope
import NodeScope.Telemetry.Freshness
import NodeScope.Telemetry.HostStatus
import NodeScope.Telemetry.Isolation
import NodeScope.Telemetry.LatestState
import NodeScope.Telemetry.PostgresStore
import NodeScope.Telemetry.Retention
import NodeScope.Telemetry.Storable
import NodeScope.Telemetry.StoreEffect
import NodeScope.Telemetry.StoreInvariant
import NodeScope.Telemetry.Wire
import NodeScope.Telemetry.WireProtobuf
import NodeScope.Telemetry.WireRoundTrip
import NodeScope.Update.Activate
import NodeScope.Update.History
import NodeScope.Update.Release
import NodeScope.Update.Staging
