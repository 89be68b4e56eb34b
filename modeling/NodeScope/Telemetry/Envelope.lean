import NodeScope.Domain.Metric

/-!
# Telemetry envelopes

The logical form of an agent submission and the two validators that run on it
before anything is stored: `Envelope.validate`, which looks at the envelope
alone, and `Envelope.validateReceiptTimes`, which compares its times with the
server's clock.

## Implementation notes

Where the source ranges over a map of labels it reports whichever blank field
the iteration meets first; the model keeps the source's listing order. Whether
an error is reported does not depend on that order.
-/

namespace NodeScope.Telemetry

open Domain Lib.Check Lib.Text Lib.Time

def currentSchemaVersion : UInt32 := 1
def codecProtoZstd : String := "protobuf+zstd"
def maxCompressedBytes : Nat := 1 <<< 20
def maxUncompressedBytes : Nat := 8 <<< 20
def maxMetricValues : Nat := 10000
def maxContainerInventory : Nat := 2000
def maxFutureObservationSkew : Int := seconds 60

/-- One measured value with the device it came from. -/
structure Sample where
  deviceID : String
  metric : MetricValue
deriving DecidableEq

structure ContainerInventory where
  containerID : String
  name : String
  image : String
  state : String
  health : String
  selectedForAlerting : Bool
deriving DecidableEq

structure Envelope where
  schemaVersion : UInt32
  codec : String
  agentID : String
  hostID : String
  bootID : String
  sequence : UInt64
  observedAt : Int
  monotonicElapsedNano : UInt64
  sampleCount : UInt32
  metricValueCount : UInt32
  uncompressedBytes : UInt32
  compressedBytes : UInt32
  checksumSHA256 : String
  samples : List Sample
  containers : List ContainerInventory
deriving DecidableEq

/-- The unescaped colon join of agent, boot and sequence. -/
def idempotencyKeyOf (agentID bootID : String) (sequence : UInt64) : String :=
  String.intercalate ":" [agentID, bootID, Nat.repr sequence.toNat]

def Envelope.idempotencyKey (e : Envelope) : String :=
  idempotencyKeyOf e.agentID e.bootID e.sequence

/-- Keys of agents without a colon in their ids collide only when agent, boot and sequence
agree, whatever the boot identifier holds. -/
theorem idempotencyKeyOf_eq_iff {a a' b b' : String} {n n' : UInt64} (ha : ':' ∉ a.toList)
    (ha' : ':' ∉ a'.toList) :
    idempotencyKeyOf a b n = idempotencyKeyOf a' b' n' ↔ a = a' ∧ b = b' ∧ n = n' := by
  have hcolon : String.singleton ':' = ":" := rfl
  rw [idempotencyKeyOf, idempotencyKeyOf, ← hcolon,
    intercalate_three_inj ha ha' (notMem_repr (by decide) _) (notMem_repr (by decide) _)]
  constructor
  · rintro ⟨ha, hb, hn⟩
    exact ⟨ha, hb, UInt64.toNat_inj.mp (Nat.repr_inj.mp hn)⟩
  · rintro ⟨rfl, rfl, rfl⟩
    exact ⟨rfl, rfl, rfl⟩

/-- The text under which `Validate` looks for a repeated sample. -/
def Sample.key (s : Sample) : String :=
  String.intercalate ":" [s.deviceID, s.metric.name, formatRFC3339Nano s.metric.observedAt]

/-- The labelled identity fields of an envelope. -/
inductive IdentityField where
  | agentID
  | hostID
  | bootID
deriving DecidableEq

/-- The labelled required fields of a container record. -/
inductive ContainerField where
  | containerID
  | name
  | image
  | state
deriving DecidableEq

/-- The errors of `Envelope.Validate` and `Envelope.ValidateReceiptTimes`. -/
inductive EnvelopeError where
  | unsupportedSchemaVersion (version : UInt32)
  | unsupportedCodec (codec : String)
  | required (field : IdentityField)
  | sequenceZero
  | observedAtRequired
  | compressedSize
  | uncompressedSize
  | metricValueCount
  | declaredCounts
  | checksumLength
  | checksumHexadecimal
  | tooManyContainers
  | containerRequires (index : Nat) (field : ContainerField)
  | duplicateContainer (containerID : String)
  | deviceIDRequired (index : Nat)
  | invalidSample (index : Nat) (error : MetricError)
  | duplicateSample (key : String)
  | observedTooFarAhead
  | sampleTooFarAhead (index : Nat)
deriving DecidableEq

/-- A digit accepted by `hex.DecodeString`. -/
def isHexDigit (c : Char) : Bool :=
  c.isDigit || ('a' ≤ c && c ≤ 'f') || ('A' ≤ c && c ≤ 'F')

/-- `hex.DecodeString` succeeds. -/
def isHexString (s : String) : Bool :=
  s.toList.length % 2 == 0 && s.toList.all isHexDigit

def validateContainer (index : Nat) (c : ContainerInventory) : Except EnvelopeError Unit :=
  forAll (fun field => failIf (trimSpace field.2 == "") (.containerRequires index field.1))
    [(.containerID, c.containerID), (.name, c.name), (.image, c.image), (.state, c.state)]

def validateSample (index : Nat) (s : Sample) : Except EnvelopeError Unit := do
  failIf (trimSpace s.deviceID == "") (.deviceIDRequired index)
  s.metric.validate.mapError (.invalidSample index)

def Envelope.validate (e : Envelope) : Except EnvelopeError Unit := do
  failIf (e.schemaVersion != currentSchemaVersion) (.unsupportedSchemaVersion e.schemaVersion)
  failIf (e.codec != codecProtoZstd) (.unsupportedCodec e.codec)
  forAll (fun field => failIf (trimSpace field.2 == "") (.required field.1))
    [(.agentID, e.agentID), (.hostID, e.hostID), (.bootID, e.bootID)]
  failIf (e.sequence == 0) .sequenceZero
  failIf (isZero e.observedAt) .observedAtRequired
  failIf (e.compressedBytes == 0 || maxCompressedBytes < e.compressedBytes.toNat)
    .compressedSize
  failIf (e.uncompressedBytes == 0 || maxUncompressedBytes < e.uncompressedBytes.toNat)
    .uncompressedSize
  failIf (e.metricValueCount == 0 || maxMetricValues < e.metricValueCount.toNat)
    .metricValueCount
  failIf (e.sampleCount.toNat != e.samples.length || e.metricValueCount.toNat != e.samples.length)
    .declaredCounts
  failIf (byteLength e.checksumSHA256 != 64) .checksumLength
  failIf (!isHexString e.checksumSHA256) .checksumHexadecimal
  failIf (maxContainerInventory < e.containers.length) .tooManyContainers
  forAllDistinct validateContainer ContainerInventory.containerID .duplicateContainer
    0 [] e.containers
  forAllDistinct validateSample Sample.key .duplicateSample 0 [] e.samples

def sampleTimesBelow (upperBound : Int) : Nat → List Sample → Except EnvelopeError Unit
  | _, [] => .ok ()
  | index, s :: rest => do
      failIf (upperBound < s.metric.observedAt) (.sampleTooFarAhead index)
      sampleTimesBelow upperBound (index + 1) rest

/-- Observations may be ahead of the receipt by the permitted skew only. -/
def Envelope.validateReceiptTimes (e : Envelope) (receivedAt : Int) :
    Except EnvelopeError Unit := do
  failIf (receivedAt + maxFutureObservationSkew < e.observedAt) .observedTooFarAhead
  sampleTimesBelow (receivedAt + maxFutureObservationSkew) 0 e.samples

theorem sampleTimesBelow_eq_ok {upperBound : Int} (l : List Sample) (i : Nat) {u : Unit} :
    sampleTimesBelow upperBound i l = .ok u ↔
      ∀ s ∈ l, s.metric.observedAt ≤ upperBound := by
  induction l generalizing i with
  | nil => simp [sampleTimesBelow]
  | cons s rest ih => simp [sampleTimesBelow, ih]

theorem Envelope.validateReceiptTimes_eq_ok {e : Envelope} {receivedAt : Int} {u : Unit} :
    e.validateReceiptTimes receivedAt = .ok u ↔
      e.observedAt ≤ receivedAt + maxFutureObservationSkew ∧
      ∀ s ∈ e.samples, s.metric.observedAt ≤ receivedAt + maxFutureObservationSkew := by
  simp [Envelope.validateReceiptTimes, sampleTimesBelow_eq_ok]

/-- The fields a container record must fill. Its health text is not among them. -/
structure ContainerInventory.Complete (c : ContainerInventory) : Prop where
  containerID : trimSpace c.containerID ≠ ""
  name : trimSpace c.name ≠ ""
  image : trimSpace c.image ≠ ""
  state : trimSpace c.state ≠ ""

theorem validateContainer_eq_ok (i : Nat) (c : ContainerInventory) (u : Unit) :
    validateContainer i c = .ok u ↔ c.Complete := by
  simp only [validateContainer, forAll_eq_ok, List.forall_mem_cons, failIf_eq_ok]
  constructor
  · rintro ⟨h₁, h₂, h₃, h₄, -⟩
    exact ⟨by simpa using h₁, by simpa using h₂, by simpa using h₃, by simpa using h₄⟩
  · rintro ⟨h₁, h₂, h₃, h₄⟩
    exact ⟨by simpa using h₁, by simpa using h₂, by simpa using h₃, by simpa using h₄,
      by simp⟩

/-- What `Validate` asks of one sample. -/
structure Sample.Valid (s : Sample) : Prop where
  deviceID : trimSpace s.deviceID ≠ ""
  metric : s.metric.validate = .ok ()

theorem validateSample_eq_ok (i : Nat) (s : Sample) (u : Unit) :
    validateSample i s = .ok u ↔ s.Valid := by
  simp only [validateSample, unit_bind_eq_ok, mapError_eq_ok]
  constructor
  · rintro ⟨h₁, h₂⟩
    exact ⟨by simpa using h₁, h₂⟩
  · rintro ⟨h₁, h₂⟩
    exact ⟨by simpa using h₁, h₂⟩

/-- Everything `Envelope.Validate` establishes about an accepted envelope. -/
structure Envelope.Valid (e : Envelope) : Prop where
  schemaVersion : e.schemaVersion = currentSchemaVersion
  codec : e.codec = codecProtoZstd
  agentID : trimSpace e.agentID ≠ ""
  hostID : trimSpace e.hostID ≠ ""
  bootID : trimSpace e.bootID ≠ ""
  sequence : e.sequence ≠ 0
  observedAt : isZero e.observedAt = false
  compressedBytes : e.compressedBytes ≠ 0 ∧ e.compressedBytes.toNat ≤ maxCompressedBytes
  uncompressedBytes : e.uncompressedBytes ≠ 0 ∧ e.uncompressedBytes.toNat ≤ maxUncompressedBytes
  metricValueCount : e.metricValueCount ≠ 0 ∧ e.metricValueCount.toNat ≤ maxMetricValues
  sampleCount : e.sampleCount.toNat = e.samples.length
  sampleValues : e.metricValueCount.toNat = e.samples.length
  checksumLength : byteLength e.checksumSHA256 = 64
  checksumHex : isHexString e.checksumSHA256 = true
  containerCount : e.containers.length ≤ maxContainerInventory
  containers : ∀ c ∈ e.containers, c.Complete
  containersDistinct : (e.containers.map ContainerInventory.containerID).Nodup
  samples : ∀ s ∈ e.samples, s.Valid
  samplesDistinct : (e.samples.map Sample.key).Nodup

theorem Envelope.validate_eq_ok {e : Envelope} {u : Unit} :
    e.validate = .ok u ↔ e.Valid := by
  simp only [Envelope.validate, unit_bind_eq_ok, forAll_eq_ok,
    List.forall_mem_cons, failIf_eq_ok, forAllDistinct_eq_ok validateContainer_eq_ok,
    forAllDistinct_eq_ok validateSample_eq_ok]
  constructor
  · rintro ⟨h₁, h₂, ⟨ha, hh, hb, -⟩, h₃, h₄, h₅, h₆, h₇, h₈, h₉, h₁₀, h₁₁,
      ⟨h₁₂, -, h₁₃⟩, h₁₄, -, h₁₅⟩
    simp only [Bool.or_eq_false_iff, bne_eq_false_iff_eq, beq_eq_false_iff_ne, ne_eq,
      decide_eq_false_iff_not, not_lt, Bool.not_eq_false'] at *
    exact ⟨h₁, h₂, ha, hh, hb, h₃, h₄, h₅, h₆, h₇, h₈.1, h₈.2, h₉, h₁₀, h₁₁,
      h₁₂, h₁₃, h₁₄, h₁₅⟩
  · intro h
    simp only [Bool.or_eq_false_iff, bne_eq_false_iff_eq, beq_eq_false_iff_ne, ne_eq,
      decide_eq_false_iff_not, not_lt, Bool.not_eq_false']
    exact ⟨h.schemaVersion, h.codec, ⟨h.agentID, h.hostID, h.bootID, by simp⟩,
      h.sequence, h.observedAt, h.compressedBytes, h.uncompressedBytes,
      h.metricValueCount, ⟨h.sampleCount, h.sampleValues⟩, h.checksumLength,
      h.checksumHex, h.containerCount, ⟨h.containers, by simp, h.containersDistinct⟩,
      h.samples, by simp, h.samplesDistinct⟩

/-- An envelope as the agent fills it in before it is encoded: the counts are
those of its samples, the sizes are placeholders and so is the checksum. -/
def Envelope.draft (agentID hostID bootID : String) (sequence : UInt64) (observedAt : Int)
    (samples : List Sample) (containers : List ContainerInventory) : Envelope where
  schemaVersion := currentSchemaVersion
  codec := codecProtoZstd
  agentID := agentID
  hostID := hostID
  bootID := bootID
  sequence := sequence
  observedAt := observedAt
  monotonicElapsedNano := 0
  sampleCount := UInt32.ofNat samples.length
  metricValueCount := UInt32.ofNat samples.length
  uncompressedBytes := 1
  compressedBytes := 1
  checksumSHA256 := "0000000000000000000000000000000000000000000000000000000000000000"
  samples := samples
  containers := containers

end NodeScope.Telemetry
