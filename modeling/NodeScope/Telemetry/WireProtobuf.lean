import NodeScope.Lib.ZstdFrame
import NodeScope.Telemetry.Wire

/-!
# The telemetry messages in protobuf

The field numbers and types of `telemetry/v1/envelope.proto`, as the runtime
writes and reads them: a scalar field with its default value is omitted, the
members of the oneof are written even when they are zero, and a repeated field
is written once for each element. Reading takes the last occurrence of a scalar
field, its default when there is none, and every occurrence of a repeated one;
fields with an unexpected number or type are skipped.
-/

namespace NodeScope.Telemetry.Proto

open Domain Lib Lib.Protobuf Lib.Text

/-- A scalar field, omitted at its default. -/
def scalar (number n : Nat) : List Field :=
  if n = 0 then [] else [⟨number, .varint n⟩]

/-- A length-delimited field, omitted when it is empty. -/
def text (number : Nat) (b : List UInt8) : List Field :=
  if b = [] then [] else [⟨number, .bytes b⟩]

/-- The occurrences of a numeric field. -/
def scalars (number : Nat) (fs : List Field) : List Nat :=
  fs.filterMap fun f =>
    match f.value with
    | .varint n => if f.number = number then some n else none
    | _ => none

/-- The occurrences of a length-delimited field. -/
def texts (number : Nat) (fs : List Field) : List (List UInt8) :=
  fs.filterMap fun f =>
    match f.value with
    | .bytes b => if f.number = number then some b else none
    | _ => none

def scalarField (number : Nat) (fs : List Field) : Nat := (scalars number fs).getLastD 0

def bytesField (number : Nat) (fs : List Field) : List UInt8 := (texts number fs).getLastD []

def stringField (number : Nat) (fs : List Field) : Option String :=
  ofUtf8 (bytesField number fs)

section Occurrences

variable (number k : Nat) (fs gs : List Field)

@[simp] theorem scalars_append :
    scalars number (fs ++ gs) = scalars number fs ++ scalars number gs := by
  simp [scalars]

@[simp] theorem texts_append :
    texts number (fs ++ gs) = texts number fs ++ texts number gs := by
  simp [texts]

@[simp] theorem scalars_scalar (n : Nat) :
    scalars number (scalar k n) = if k = number ∧ n ≠ 0 then [n] else [] := by
  by_cases hn : n = 0
  · simp [scalar, scalars, hn]
  · by_cases hk : k = number <;> simp [scalar, scalars, hn, hk]

@[simp] theorem texts_text (b : List UInt8) :
    texts number (text k b) = if k = number ∧ b ≠ [] then [b] else [] := by
  by_cases hb : b = []
  · simp [text, texts, hb]
  · by_cases hk : k = number <;> simp [text, texts, hb, hk]

@[simp] theorem scalars_text (b : List UInt8) : scalars number (text k b) = [] := by
  by_cases hb : b = [] <;> simp [text, scalars, hb]

@[simp] theorem texts_scalar (n : Nat) : texts number (scalar k n) = [] := by
  by_cases hn : n = 0 <;> simp [scalar, texts, hn]

/-- An omitted default reads as the default, so an optional occurrence reads as
the value that was written. -/
@[simp] theorem getLast_occurrence {α : Type} [DecidableEq α] (x d : α) :
    (if x = d then [] else [x]).getLast?.getD d = x := by
  by_cases h : x = d <;> simp [h]

end Occurrences

/-- One length-delimited field for each element of a repeated field. -/
def repeated {α : Type} (number : Nat) (write : α → List UInt8) (l : List α) : List Field :=
  l.map fun a => ⟨number, .bytes (write a)⟩

@[simp] theorem scalars_repeated {α : Type} (number k : Nat) (write : α → List UInt8)
    (l : List α) : scalars number (repeated k write l) = [] := by
  simp [scalars, repeated]

@[simp] theorem texts_repeated {α : Type} (number k : Nat) (write : α → List UInt8)
    (l : List α) :
    texts number (repeated k write l) = if k = number then l.map write else [] := by
  by_cases hk : k = number
  · simp [texts, repeated, hk]
  · simp [texts, repeated, hk]

def qualityNumber : WireQuality → Int32
  | .unspecified => 0
  | .fresh => 1
  | .stale => 2
  | .unavailable => 3
  | .unsupported => 4
  | .estimated => 5
  | .experimental => 6
  | .unlisted number _ => number

def qualityOfNumber (n : Int32) : WireQuality :=
  if h : n < 0 ∨ 6 < n then .unlisted n h
  else if n = 1 then .fresh
  else if n = 2 then .stale
  else if n = 3 then .unavailable
  else if n = 4 then .unsupported
  else if n = 5 then .estimated
  else if n = 6 then .experimental
  else .unspecified

theorem qualityOfNumber_number (q : WireQuality) : qualityOfNumber (qualityNumber q) = q := by
  cases q with
  | unlisted n h => simp [qualityOfNumber, qualityNumber, h]
  | _ => rfl

/-- An enum value is written as a sign-extended 64-bit number. -/
def enumVarint (n : Int32) : Nat := n.toInt64.toUInt64.toNat

def enumOfVarint (n : Nat) : Int32 := (UInt64.ofNat n).toInt64.toInt32

theorem enumOfVarint_enumVarint (n : Int32) : enumOfVarint (enumVarint n) = n := by
  simp [enumOfVarint, enumVarint]

def int64Varint (n : Int64) : Nat := n.toUInt64.toNat

def int64OfVarint (n : Nat) : Int64 := (UInt64.ofNat n).toInt64

theorem int64OfVarint_int64Varint (n : Int64) : int64OfVarint (int64Varint n) = n := by
  simp [int64OfVarint, int64Varint]

/-- The member of the oneof, written whether or not it is a default. -/
def oneofFields : Option ScalarValue → List Field
  | none => []
  | some (.numberValue v) => [⟨8, .fixed64 v.bits.toNat⟩]
  | some (.booleanValue v) => [⟨9, .varint v.toNat⟩]
  | some (.textValue v) => [⟨10, .bytes (utf8 v)⟩]

/-- A member of the oneof. The inner option is a failure to read its text. -/
def oneofMember (f : Field) : Option (Option ScalarValue) :=
  match f.number, f.value with
  | 8, .fixed64 n => some (some (.numberValue ⟨UInt64.ofNat n⟩))
  | 9, .varint n => some (some (.booleanValue (n != 0)))
  | 10, .bytes b => some ((ofUtf8 b).map .textValue)
  | _, _ => none

/-- The last member of the oneof that occurs. -/
def oneofField (fs : List Field) : Option (Option ScalarValue) :=
  match (fs.filterMap oneofMember).getLast? with
  | none => some none
  | some none => none
  | some (some v) => some (some v)

theorem oneofMember_text {k : Nat} (hk : k ≠ 10) (b : List UInt8) :
    (text k b).filterMap oneofMember = [] := by
  by_cases hb : b = []
  · simp [text, hb]
  · simp only [text, hb, if_false, List.filterMap_cons, List.filterMap_nil, oneofMember]
    split <;> simp_all

theorem oneofMember_scalar {k : Nat} (hk : k ≠ 9) (n : Nat) :
    (scalar k n).filterMap oneofMember = [] := by
  by_cases hn : n = 0
  · simp [scalar, hn]
  · simp only [scalar, hn, if_false, List.filterMap_cons, List.filterMap_nil, oneofMember]
    split <;> simp_all

theorem oneofField_oneofFields (v : Option ScalarValue) :
    oneofField (oneofFields v) = some v := by
  cases v with
  | none => rfl
  | some v =>
      cases v with
      | numberValue x => simp [oneofFields, oneofField, oneofMember]
      | booleanValue x => cases x <;> rfl
      | textValue x => simp [oneofFields, oneofField, oneofMember, ofUtf8_utf8]

def sampleFields (s : WireSample) : List Field :=
  text 1 (utf8 s.deviceId) ++ text 2 (utf8 s.metricName) ++ text 3 (utf8 s.unit) ++
    scalar 4 (enumVarint (qualityNumber s.quality)) ++ text 5 (utf8 s.source) ++
    text 6 (utf8 s.semantics) ++ scalar 7 (int64Varint s.observedUnixNano) ++
    oneofFields s.scalarValue

def sampleOfFields (fs : List Field) : Option WireSample := do
  let deviceId ← stringField 1 fs
  let metricName ← stringField 2 fs
  let unit ← stringField 3 fs
  let source ← stringField 5 fs
  let semantics ← stringField 6 fs
  let scalarValue ← oneofField fs
  some {
    deviceId := deviceId
    metricName := metricName
    unit := unit
    quality := qualityOfNumber (enumOfVarint (scalarField 4 fs))
    source := source
    semantics := semantics
    observedUnixNano := int64OfVarint (scalarField 7 fs)
    scalarValue := scalarValue }

theorem texts_oneofFields {number : Nat} (h : number < 8) (v : Option ScalarValue) :
    texts number (oneofFields v) = [] := by
  rcases v with _ | _ | _ | _ <;> simp [oneofFields, texts]
  omega

theorem scalars_oneofFields {number : Nat} (h : number < 8) (v : Option ScalarValue) :
    scalars number (oneofFields v) = [] := by
  rcases v with _ | _ | _ | _ <;> simp [oneofFields, scalars]
  omega

theorem oneofField_sampleFields (s : WireSample) :
    oneofField (sampleFields s) = some s.scalarValue := by
  rw [← oneofField_oneofFields s.scalarValue]
  simp [sampleFields, oneofField, oneofMember_text, oneofMember_scalar]

/-- Reading the fields of a sample gives the sample back. -/
theorem sampleOfFields_sampleFields (s : WireSample) :
    sampleOfFields (sampleFields s) = some s := by
  have hstring (n : Nat) (t : String) (h : bytesField n (sampleFields s) = utf8 t) :
      stringField n (sampleFields s) = some t := by
    rw [stringField, h, ofUtf8_utf8]
  have h₁ : stringField 1 (sampleFields s) = some s.deviceId :=
    hstring 1 _ (by simp [bytesField, sampleFields, texts_oneofFields])
  have h₂ : stringField 2 (sampleFields s) = some s.metricName :=
    hstring 2 _ (by simp [bytesField, sampleFields, texts_oneofFields])
  have h₃ : stringField 3 (sampleFields s) = some s.unit :=
    hstring 3 _ (by simp [bytesField, sampleFields, texts_oneofFields])
  have h₄ : scalarField 4 (sampleFields s) = enumVarint (qualityNumber s.quality) := by
    simp [scalarField, sampleFields, scalars_oneofFields]
  have h₅ : stringField 5 (sampleFields s) = some s.source :=
    hstring 5 _ (by simp [bytesField, sampleFields, texts_oneofFields])
  have h₆ : stringField 6 (sampleFields s) = some s.semantics :=
    hstring 6 _ (by simp [bytesField, sampleFields, texts_oneofFields])
  have h₇ : scalarField 7 (sampleFields s) = int64Varint s.observedUnixNano := by
    simp [scalarField, sampleFields, scalars_oneofFields]
  simp [sampleOfFields, h₁, h₂, h₃, h₄, h₅, h₆, h₇, oneofField_sampleFields,
    enumOfVarint_enumVarint, qualityOfNumber_number, int64OfVarint_int64Varint]

def containerFields (c : WireContainer) : List Field :=
  text 1 (utf8 c.containerId) ++ text 2 (utf8 c.name) ++ text 3 (utf8 c.image) ++
    text 4 (utf8 c.state) ++ text 5 (utf8 c.health) ++ scalar 6 c.selectedForAlerting.toNat

def containerOfFields (fs : List Field) : Option WireContainer := do
  let containerId ← stringField 1 fs
  let name ← stringField 2 fs
  let image ← stringField 3 fs
  let state ← stringField 4 fs
  let health ← stringField 5 fs
  some {
    containerId := containerId
    name := name
    image := image
    state := state
    health := health
    selectedForAlerting := scalarField 6 fs != 0 }

theorem containerOfFields_containerFields (c : WireContainer) :
    containerOfFields (containerFields c) = some c := by
  have hflag : (scalarField 6 (containerFields c) != 0) = c.selectedForAlerting := by
    cases hf : c.selectedForAlerting <;> simp [scalarField, containerFields, hf]
  simp only [containerOfFields, hflag]
  simp [stringField, bytesField, containerFields, ofUtf8_utf8]

def messageBytes (fs : List Field) : List UInt8 := writeFields fs

def messageFields (b : List UInt8) : Option (List Field) := readFields b.length b

def envelopeFields (m : WireEnvelope) : List Field :=
  scalar 1 m.schemaVersion.toNat ++ text 2 (utf8 m.codec) ++ text 3 (utf8 m.agentId) ++
    text 4 (utf8 m.hostId) ++ text 5 (utf8 m.bootId) ++ scalar 6 m.sequence.toNat ++
    scalar 7 (int64Varint m.observedUnixNano) ++ scalar 8 m.monotonicElapsedNano.toNat ++
    scalar 9 m.sampleCount.toNat ++ scalar 10 m.metricValueCount.toNat ++
    scalar 11 m.uncompressedBytes.toNat ++ scalar 12 m.compressedBytes.toNat ++
    text 13 m.checksumSha256 ++
    repeated 14 (fun s => messageBytes (sampleFields s)) m.samples ++
    repeated 15 (fun c => messageBytes (containerFields c)) m.containers

def envelopeOfFields (fs : List Field) : Option WireEnvelope := do
  let codec ← stringField 2 fs
  let agentId ← stringField 3 fs
  let hostId ← stringField 4 fs
  let bootId ← stringField 5 fs
  let samples ← (texts 14 fs).mapM fun b => (messageFields b).bind sampleOfFields
  let containers ← (texts 15 fs).mapM fun b => (messageFields b).bind containerOfFields
  some {
    schemaVersion := UInt32.ofNat (scalarField 1 fs)
    codec := codec
    agentId := agentId
    hostId := hostId
    bootId := bootId
    sequence := UInt64.ofNat (scalarField 6 fs)
    observedUnixNano := int64OfVarint (scalarField 7 fs)
    monotonicElapsedNano := UInt64.ofNat (scalarField 8 fs)
    sampleCount := UInt32.ofNat (scalarField 9 fs)
    metricValueCount := UInt32.ofNat (scalarField 10 fs)
    uncompressedBytes := UInt32.ofNat (scalarField 11 fs)
    compressedBytes := UInt32.ofNat (scalarField 12 fs)
    checksumSha256 := bytesField 13 fs
    samples := samples
    containers := containers }

/-- The fields of a message and of its parts fit the wire format. -/
structure Representable (m : WireEnvelope) : Prop where
  envelope : ∀ f ∈ envelopeFields m, f.Fits
  samples : ∀ s ∈ m.samples, ∀ f ∈ sampleFields s, f.Fits
  containers : ∀ c ∈ m.containers, ∀ f ∈ containerFields c, f.Fits

theorem messageFields_messageBytes {fs : List Field} (h : ∀ f ∈ fs, f.Fits) :
    messageFields (messageBytes fs) = some fs :=
  readFields_writeFields fs h _ le_rfl

/-- Reading each written part of a repeated field gives the parts back. -/
theorem mapM_messages {α : Type} {fields : α → List Field} {read : List Field → Option α}
    (hread : ∀ a, read (fields a) = some a) {l : List α}
    (h : ∀ a ∈ l, ∀ f ∈ fields a, f.Fits) :
    (l.map fun a => messageBytes (fields a)).mapM
      (fun b => (messageFields b).bind read) = some l := by
  induction l with
  | nil => rfl
  | cons a rest ih =>
      have ha := messageFields_messageBytes (h a (by simp))
      have hr := ih (fun x hx => h x (by simp [hx]))
      simp [List.mapM_cons, ha, hread, hr]

theorem texts_samples (m : WireEnvelope) :
    texts 14 (envelopeFields m) = m.samples.map fun s => messageBytes (sampleFields s) := by
  simp [envelopeFields]

theorem texts_containers (m : WireEnvelope) :
    texts 15 (envelopeFields m) =
      m.containers.map fun c => messageBytes (containerFields c) := by
  simp [envelopeFields]

/-- Reading the fields of an envelope gives the envelope back. -/
theorem envelopeOfFields_envelopeFields {m : WireEnvelope} (h : Representable m) :
    envelopeOfFields (envelopeFields m) = some m := by
  have hs := mapM_messages sampleOfFields_sampleFields h.samples
  have hc := mapM_messages containerOfFields_containerFields h.containers
  rw [← texts_samples] at hs
  rw [← texts_containers] at hc
  simp only [envelopeOfFields, hs, hc]
  simp [stringField, bytesField, scalarField, envelopeFields, ofUtf8_utf8,
    int64OfVarint_int64Varint]

instance : DecidablePred Representable := fun m =>
  decidable_of_iff
    ((∀ f ∈ envelopeFields m, f.Fits) ∧ (∀ s ∈ m.samples, ∀ f ∈ sampleFields s, f.Fits) ∧
      ∀ c ∈ m.containers, ∀ f ∈ containerFields c, f.Fits)
    ⟨fun h => ⟨h.1, h.2.1, h.2.2⟩, fun h => ⟨h.envelope, h.samples, h.containers⟩⟩

/-- The runtime refuses a message too large for the format. -/
def marshalEnvelope (m : WireEnvelope) : Option (List UInt8) :=
  if Representable m then some (messageBytes (envelopeFields m)) else none

def unmarshalEnvelope (b : List UInt8) : Option WireEnvelope :=
  (messageFields b).bind envelopeOfFields

theorem unmarshalEnvelope_marshalEnvelope {m : WireEnvelope} {b : List UInt8}
    (h : marshalEnvelope m = some b) : unmarshalEnvelope b = some m := by
  by_cases hm : Representable m
  · rw [marshalEnvelope, if_pos hm] at h
    obtain rfl := Option.some.inj h
    rw [unmarshalEnvelope, messageFields_messageBytes hm.envelope, Option.bind_some]
    exact envelopeOfFields_envelopeFields hm
  · rw [marshalEnvelope, if_neg hm] at h
    exact absurd h (by simp)

/-- The protobuf runtime together with a compressor that stores its input. -/
def storedCodec : Codec where
  marshal := marshalEnvelope
  unmarshal := unmarshalEnvelope
  encodeAll := ZstdFrame.encodeAll
  decodeAll := ZstdFrame.decodeAll

theorem unmarshalEnvelope_nil : unmarshalEnvelope [] = some WireEnvelope.empty := by
  decide +kernel

theorem storedCodec_faithful : storedCodec.Faithful := by
  constructor
  · intro m b h
    simp only [storedCodec] at h ⊢
    exact unmarshalEnvelope_marshalEnvelope h
  · simp only [storedCodec]
    exact unmarshalEnvelope_nil
  · intro b h
    have hbound : b.length < 2 ^ 32 := lt_of_le_of_lt h (by decide)
    exact ZstdFrame.decodeAll_encodeAll hbound
  · rfl

end NodeScope.Telemetry.Proto
