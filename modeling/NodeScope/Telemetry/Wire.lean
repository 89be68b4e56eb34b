import NodeScope.Telemetry.Envelope
import NodeScope.Lib.Sha256

/-!
# The compressed wire form of an envelope

`encodeCompressedEnvelope` and `decodeCompressedEnvelope` with the two field
maps between the logical envelope and the protobuf message. The payload embeds
its own two lengths and a checksum of itself without the checksum, so the
encoder computes them by iteration and compares at the end.

## Implementation notes

The protobuf runtime and the zstd library are the parameters of a `Codec`.
`Codec.Faithful` states what their documentation promises. Lists stand for
slices, so a nil and an empty slice are one value, as they are on the wire.
-/

namespace NodeScope.Telemetry

open Domain Lib Lib.Check Lib.Text Lib.Time Lib.Sha256

abbrev Bytes := List UInt8

/-- The protobuf enum of qualities. It is open: a number without a name is kept. -/
inductive WireQuality where
  | unspecified
  | fresh
  | stale
  | unavailable
  | unsupported
  | estimated
  | experimental
  | unlisted (number : Int32) (h : number < 0 ∨ 6 < number)
deriving DecidableEq

/-- The oneof `scalar_value`. -/
inductive ScalarValue where
  | numberValue (value : Float64)
  | booleanValue (value : Bool)
  | textValue (value : String)
deriving DecidableEq

structure WireSample where
  deviceId : String
  metricName : String
  unit : String
  quality : WireQuality
  source : String
  semantics : String
  observedUnixNano : Int64
  scalarValue : Option ScalarValue
deriving DecidableEq

structure WireContainer where
  containerId : String
  name : String
  image : String
  state : String
  health : String
  selectedForAlerting : Bool
deriving DecidableEq

/-- The protobuf message `nodescope.telemetry.v1.Envelope`. -/
structure WireEnvelope where
  schemaVersion : UInt32
  codec : String
  agentId : String
  hostId : String
  bootId : String
  sequence : UInt64
  observedUnixNano : Int64
  monotonicElapsedNano : UInt64
  sampleCount : UInt32
  metricValueCount : UInt32
  uncompressedBytes : UInt32
  compressedBytes : UInt32
  checksumSha256 : Bytes
  samples : List WireSample
  containers : List WireContainer
deriving DecidableEq

/-- The message in which every field has its default, which proto3 encodes as
no bytes at all. -/
def WireEnvelope.empty : WireEnvelope where
  schemaVersion := 0
  codec := ""
  agentId := ""
  hostId := ""
  bootId := ""
  sequence := 0
  observedUnixNano := 0
  monotonicElapsedNano := 0
  sampleCount := 0
  metricValueCount := 0
  uncompressedBytes := 0
  compressedBytes := 0
  checksumSha256 := []
  samples := []
  containers := []

/-- The libraries behind the wire form. -/
structure Codec where
  marshal : WireEnvelope → Option Bytes
  unmarshal : Bytes → Option WireEnvelope
  encodeAll : Bytes → Bytes
  decodeAll : Bytes → Option Bytes

/-- The documented behaviour of the libraries. The decoder is created with a
memory bound of twice the permitted payload, so it inverts the encoder up to
that length. -/
structure Codec.Faithful (c : Codec) : Prop where
  unmarshal_marshal : ∀ m b, c.marshal m = some b → c.unmarshal b = some m
  unmarshal_nil : c.unmarshal [] = some WireEnvelope.empty
  decodeAll_encodeAll : ∀ b, b.length ≤ 2 * maxUncompressedBytes →
    c.decodeAll (c.encodeAll b) = some b
  decodeAll_nil : c.decodeAll [] = some []

inductive WireError where
  | compressedBounds
  | zstd
  | uncompressedBounds
  | unmarshal
  | declaredSizes
  | checksumLength
  | checksumMismatch
  | marshal
  | exceedsBounds
  | notConverged
  | unsupportedQuality
  | unsupportedScalar (metricName : String)
  | invalid (error : EnvelopeError)
deriving DecidableEq

/-- The quality table of `envelopeToProto`. -/
def qualityToProto : MetricQuality → Option WireQuality
  | .fresh => some .fresh
  | .stale => some .stale
  | .unavailable => some .unavailable
  | .unsupported => some .unsupported
  | .estimated => some .estimated
  | .experimental => some .experimental
  | .unknown _ _ => none

/-- The quality table of `envelopeFromProto`. -/
def qualityFromProto : WireQuality → Option MetricQuality
  | .fresh => some .fresh
  | .stale => some .stale
  | .unavailable => some .unavailable
  | .unsupported => some .unsupported
  | .estimated => some .estimated
  | .experimental => some .experimental
  | .unspecified => none
  | .unlisted _ _ => none

/-- `Time.UnixNano`, which wraps outside the range of `int64`. -/
def unixNano (t : Int) : Int64 := Int64.ofInt t

def sampleToProto (s : Sample) : Except WireError WireSample :=
  match qualityToProto s.metric.quality with
  | none => .error .unsupportedQuality
  | some quality => .ok {
      deviceId := s.deviceID
      metricName := s.metric.name
      unit := s.metric.unit
      quality := quality
      source := s.metric.source
      semantics := s.metric.semantics
      observedUnixNano := unixNano s.metric.observedAt
      scalarValue := s.metric.value.map ScalarValue.numberValue }

def sampleFromProto (s : WireSample) : Except WireError Sample :=
  match qualityFromProto s.quality with
  | none => .error .unsupportedQuality
  | some quality => do
      let value ← match s.scalarValue with
        | some (.numberValue v) => Except.ok (some v)
        | none => .ok none
        | some _ => .error (.unsupportedScalar s.metricName)
      .ok {
        deviceID := s.deviceId
        metric := {
          name := s.metricName
          unit := s.unit
          value := value
          quality := quality
          source := s.source
          semantics := s.semantics
          observedAt := s.observedUnixNano.toInt } }

def containerToProto (c : ContainerInventory) : WireContainer where
  containerId := c.containerID
  name := c.name
  image := c.image
  state := c.state
  health := c.health
  selectedForAlerting := c.selectedForAlerting

def containerFromProto (c : WireContainer) : ContainerInventory where
  containerID := c.containerId
  name := c.name
  image := c.image
  state := c.state
  health := c.health
  selectedForAlerting := c.selectedForAlerting

/-- The declared sizes and the checksum of the message start empty; the
encoder fills them in. -/
def envelopeToProto (e : Envelope) : Except WireError WireEnvelope := do
  let samples ← e.samples.mapM sampleToProto
  .ok {
    schemaVersion := e.schemaVersion
    codec := e.codec
    agentId := e.agentID
    hostId := e.hostID
    bootId := e.bootID
    sequence := e.sequence
    observedUnixNano := unixNano e.observedAt
    monotonicElapsedNano := e.monotonicElapsedNano
    sampleCount := e.sampleCount
    metricValueCount := e.metricValueCount
    uncompressedBytes := 0
    compressedBytes := 0
    checksumSha256 := []
    samples := samples
    containers := e.containers.map containerToProto }

/-- The lower case hexadecimal digits of a byte, high half first. -/
def hexByte (b : UInt8) : List Char :=
  [Nat.digitChar (b.toNat / 16), Nat.digitChar (b.toNat % 16)]

/-- `hex.EncodeToString`. -/
def hexEncode (b : Bytes) : String := String.ofList (b.flatMap hexByte)

def envelopeFromProto (m : WireEnvelope) : Except WireError Envelope := do
  let samples ← m.samples.mapM sampleFromProto
  let envelope : Envelope := {
    schemaVersion := m.schemaVersion
    codec := m.codec
    agentID := m.agentId
    hostID := m.hostId
    bootID := m.bootId
    sequence := m.sequence
    observedAt := m.observedUnixNano.toInt
    monotonicElapsedNano := m.monotonicElapsedNano
    sampleCount := m.sampleCount
    metricValueCount := m.metricValueCount
    uncompressedBytes := m.uncompressedBytes
    compressedBytes := m.compressedBytes
    checksumSHA256 := hexEncode m.checksumSha256
    samples := samples
    containers := m.containers.map containerFromProto }
  envelope.validate.mapError .invalid
  .ok envelope

section Codec

variable (c : Codec)

def marshal (m : WireEnvelope) : Except WireError Bytes :=
  match c.marshal m with
  | some b => .ok b
  | none => .error .marshal

/-- The digest of the message without its checksum. -/
def canonicalDigest (m : WireEnvelope) : Except WireError Digest := do
  let canonical ← marshal c { m with checksumSha256 := [] }
  .ok (sha256 canonical)

/-- Put the checksum of the rest of the message into it. -/
def withChecksum (m : WireEnvelope) : Except WireError WireEnvelope := do
  let digest ← canonicalDigest c m
  .ok { m with checksumSha256 := digest.toList }

/-- One attempt of the encoder: checksum the message, encode it, and record the two
lengths that came out for the next attempt. -/
def attempt (m : WireEnvelope) : Except WireError WireEnvelope := do
  let summed ← withChecksum c m
  let raw ← marshal c summed
  .ok { summed with
    uncompressedBytes := UInt32.ofNat raw.length
    compressedBytes := UInt32.ofNat (c.encodeAll raw).length }

def attempts : Nat → WireEnvelope → Except WireError WireEnvelope
  | 0, m => .ok m
  | n + 1, m => do
      let next ← attempt c m
      attempts n next

def encodeCompressedEnvelope (e : Envelope) : Except WireError Bytes := do
  e.validate.mapError .invalid
  let message ← envelopeToProto e
  let message ← attempts c 6 message
  let message ← withChecksum c message
  let raw ← marshal c message
  let compressed := c.encodeAll raw
  failIf (maxUncompressedBytes < raw.length || maxCompressedBytes < compressed.length)
    .exceedsBounds
  failIf (message.uncompressedBytes.toNat != raw.length ||
    message.compressedBytes.toNat != compressed.length) .notConverged
  .ok compressed

def verifyWireChecksum (m : WireEnvelope) : Except WireError Unit := do
  failIf (m.checksumSha256.length != 32) .checksumLength
  let digest ← canonicalDigest c m
  failIf (m.checksumSha256 != digest.toList) .checksumMismatch

def decompress (compressed : Bytes) : Except WireError Bytes :=
  match c.decodeAll compressed with
  | some b => .ok b
  | none => .error .zstd

def unmarshal (raw : Bytes) : Except WireError WireEnvelope :=
  match c.unmarshal raw with
  | some m => .ok m
  | none => .error .unmarshal

def decodeCompressedEnvelope (compressed : Bytes) : Except WireError Envelope := do
  failIf (compressed.length == 0 || maxCompressedBytes < compressed.length) .compressedBounds
  let decompressed ← decompress c compressed
  failIf (decompressed.length == 0 || maxUncompressedBytes < decompressed.length)
    .uncompressedBounds
  let message ← unmarshal c decompressed
  failIf (message.compressedBytes.toNat != compressed.length ||
    message.uncompressedBytes.toNat != decompressed.length) .declaredSizes
  verifyWireChecksum c message
  envelopeFromProto message

end Codec

end NodeScope.Telemetry
