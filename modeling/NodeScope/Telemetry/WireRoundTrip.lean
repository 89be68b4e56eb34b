import NodeScope.Telemetry.WireProtobuf

/-!
# Decoding inverts encoding

The three derived fields of a message (its two declared lengths and its
checksum) are the only ones the encoder's iteration touches. Everything else is
the image of the envelope under the field maps, which the decoder's field maps
undo. The decoder's own validation succeeds again because the derived fields
pass the bounds the encoder compared them with.
-/

namespace NodeScope.Telemetry

open Domain Lib Lib.Check Lib.Text Lib.Time Lib.Sha256

/-- The instant has an exact `UnixNano`. -/
def InUnixNanoRange (t : Int) : Prop :=
  -9223372036854775808 ≤ t ∧ t ≤ 9223372036854775807

instance (t : Int) : Decidable (InUnixNanoRange t) :=
  inferInstanceAs (Decidable (_ ∧ _))

/-- Every instant of the envelope has an exact `UnixNano`. -/
structure Envelope.InUnixNanoRange (e : Envelope) : Prop where
  observedAt : Telemetry.InUnixNanoRange e.observedAt
  samples : ∀ s ∈ e.samples, Telemetry.InUnixNanoRange s.metric.observedAt

theorem toInt_unixNano {t : Int} (h : InUnixNanoRange t) : (unixNano t).toInt = t := by
  rw [unixNano, Int64.toInt_ofInt]
  obtain ⟨h₁, h₂⟩ := h
  have hsize : (Int64.size : Int) = 18446744073709551616 := by decide
  apply Int.bmod_eq_of_le <;> omega

theorem qualityFromProto_of_toProto {q : MetricQuality} {w : WireQuality}
    (h : qualityToProto q = some w) : qualityFromProto w = some q := by
  cases q <;> simp_all [qualityToProto] <;> subst h <;> rfl

theorem sampleFromProto_of_toProto {s : Sample} {w : WireSample}
    (ht : InUnixNanoRange s.metric.observedAt) (h : sampleToProto s = .ok w) :
    sampleFromProto w = .ok s := by
  obtain ⟨deviceID, name, unit, value, quality, source, semantics, observedAt⟩ := s
  cases hq : qualityToProto quality with
  | none => simp [sampleToProto, hq] at h
  | some q =>
      simp only [sampleToProto, hq, Except.ok.injEq] at h
      subst h
      simp only [sampleFromProto, qualityFromProto_of_toProto hq, toInt_unixNano ht]
      cases value with
      | none => rfl
      | some v => rfl

/-- The message without the fields the encoder computes. -/
def WireEnvelope.body (m : WireEnvelope) : WireEnvelope :=
  { m with uncompressedBytes := 0, compressedBytes := 0, checksumSha256 := [] }

/-- The message without its checksum. -/
def WireEnvelope.unsummed (m : WireEnvelope) : WireEnvelope := { m with checksumSha256 := [] }

theorem envelopeToProto_body {e : Envelope} {m : WireEnvelope}
    (h : envelopeToProto e = .ok m) : m.body = m := by
  simp only [envelopeToProto, bind_eq_ok] at h
  obtain ⟨ws, _, h⟩ := h
  simp only [Except.ok.injEq] at h
  subst h
  rfl

section Codec

variable {c : Codec}

theorem withChecksum_eq_ok {m m' : WireEnvelope} (h : withChecksum c m = .ok m') :
    ∃ canonical, c.marshal { m with checksumSha256 := [] } = some canonical ∧
      m' = { m with checksumSha256 := (sha256 canonical).toList } := by
  simp only [withChecksum, canonicalDigest, marshal, bind_eq_ok] at h
  obtain ⟨digest, ⟨canonical, hm, hd⟩, h⟩ := h
  refine ⟨canonical, ?_, ?_⟩
  · split at hm <;> simp_all
  · simp only [Except.ok.injEq] at hd h
    rw [← h, ← hd]

theorem attempt_body {m m' : WireEnvelope} (h : attempt c m = .ok m') : m'.body = m.body := by
  simp only [attempt, bind_eq_ok] at h
  obtain ⟨summed, hs, raw, _, h⟩ := h
  obtain ⟨canonical, _, rfl⟩ := withChecksum_eq_ok hs
  simp only [Except.ok.injEq] at h
  subst h
  rfl

theorem attempts_body (n : Nat) {m m' : WireEnvelope} (h : attempts c n m = .ok m') :
    m'.body = m.body := by
  induction n generalizing m with
  | zero =>
      simp only [attempts, Except.ok.injEq] at h
      rw [h]
  | succ n ih =>
      simp only [attempts, bind_eq_ok] at h
      obtain ⟨next, hn, h⟩ := h
      rw [ih h, attempt_body hn]

/-- What a successful encoding has produced: a message with the envelope's
body whose checksum and declared lengths are those of its own encoding. -/
structure WireForm (c : Codec) (e : Envelope) (m : WireEnvelope) (raw b : Bytes) : Prop where
  body : envelopeToProto e = .ok m.body
  checksum : ∃ canonical, c.marshal { m with checksumSha256 := [] } = some canonical ∧
    m.checksumSha256 = (sha256 canonical).toList
  marshal : c.marshal m = some raw
  compressed : c.encodeAll raw = b
  rawBound : raw.length ≤ maxUncompressedBytes
  bound : b.length ≤ maxCompressedBytes
  rawLength : m.uncompressedBytes.toNat = raw.length
  length : m.compressedBytes.toNat = b.length

theorem encodeCompressedEnvelope_eq_ok {e : Envelope} {b : Bytes}
    (h : encodeCompressedEnvelope c e = .ok b) :
    e.Valid ∧ ∃ m raw, (∃ m₀ m', envelopeToProto e = .ok m₀ ∧ attempts c 6 m₀ = .ok m' ∧
      m'.unsummed = m.unsummed) ∧ WireForm c e m raw b := by
  simp only [encodeCompressedEnvelope, bind_eq_ok, mapError_eq_ok, failIf_eq_ok] at h
  obtain ⟨_, hv, m₀, hm₀, m₁, hm₁, m, hm, raw, hraw, _, hbounds, _, hlen, h⟩ := h
  simp only [Except.ok.injEq] at h
  subst h
  obtain ⟨canonical, hcan, rfl⟩ := withChecksum_eq_ok hm
  have hbody : m₁.body = m₀ := by rw [attempts_body 6 hm₁, envelopeToProto_body hm₀]
  have hmarshal : c.marshal { m₁ with checksumSha256 := (sha256 canonical).toList } =
      some raw := by
    unfold marshal at hraw
    split at hraw <;> simp_all
  simp only [Bool.or_eq_false_iff, decide_eq_false_iff_not, not_lt, bne_eq_false_iff_eq]
    at hbounds hlen
  refine ⟨Envelope.validate_eq_ok.mp hv,
    { m₁ with checksumSha256 := (sha256 canonical).toList }, raw, ⟨m₀, m₁, hm₀, hm₁, rfl⟩, ?_⟩
  exact {
    body := by rw [hm₀, ← hbody]; rfl
    checksum := ⟨canonical, hcan, rfl⟩
    marshal := hmarshal
    compressed := rfl
    rawBound := hbounds.1
    bound := hbounds.2
    rawLength := hlen.1
    length := hlen.2 }

/-- The envelope a wire form decodes to: the submitted one with the three
derived fields read from the message. -/
def Envelope.withDerived (e : Envelope) (m : WireEnvelope) : Envelope :=
  { e with
    uncompressedBytes := m.uncompressedBytes
    compressedBytes := m.compressedBytes
    checksumSHA256 := hexEncode m.checksumSha256 }

theorem envelopeToProto_withDerived (e : Envelope) (m : WireEnvelope) :
    envelopeToProto (e.withDerived m) = envelopeToProto e := rfl

theorem length_hexEncode (b : Bytes) : (hexEncode b).toList.length = 2 * b.length := by
  rw [hexEncode, String.toList_ofList]
  induction b with
  | nil => rfl
  | cons x rest ih =>
      rw [List.flatMap_cons, List.length_append, ih]
      simp only [hexByte, List.length_cons, List.length_nil]
      omega

theorem isHexDigit_digitChar : ∀ n < 16, isHexDigit (Nat.digitChar n) = true ∧
    (Nat.digitChar n).utf8Size = 1 := by
  decide

theorem hexByte_digits (b : UInt8) :
    ∀ ch ∈ hexByte b, isHexDigit ch = true ∧ ch.utf8Size = 1 := by
  have hb : b.toNat < 256 := b.toNat_lt
  simp only [hexByte, List.mem_cons, List.not_mem_nil, or_false, forall_eq_or_imp, forall_eq]
  exact ⟨isHexDigit_digitChar _ (by omega), isHexDigit_digitChar _ (by omega)⟩

theorem hexEncode_digits (b : Bytes) :
    ∀ ch ∈ (hexEncode b).toList, isHexDigit ch = true ∧ ch.utf8Size = 1 := by
  intro ch hch
  rw [hexEncode, String.toList_ofList, List.mem_flatMap] at hch
  obtain ⟨x, _, hx⟩ := hch
  exact hexByte_digits x ch hx

theorem isHexString_hexEncode (b : Bytes) : isHexString (hexEncode b) = true := by
  rw [isHexString, length_hexEncode, Bool.and_eq_true, List.all_eq_true]
  exact ⟨by simp, fun ch hch => (hexEncode_digits b ch hch).1⟩

theorem byteLength_hexEncode (b : Bytes) : byteLength (hexEncode b) = 2 * b.length := by
  have hone : (hexEncode b).toList.map Char.utf8Size =
      List.replicate (hexEncode b).toList.length 1 := by
    rw [List.eq_replicate_iff]
    refine ⟨by simp, fun n hn => ?_⟩
    obtain ⟨ch, hch, rfl⟩ := List.mem_map.mp hn
    exact (hexEncode_digits b ch hch).2
  rw [byteLength, hone, List.sum_replicate, length_hexEncode]
  simp

/-- The decoded envelope passes the validator again. -/
theorem withDerived_valid {e : Envelope} {m : WireEnvelope} (hv : e.Valid)
    (hlen : m.checksumSha256.length = 32)
    (hraw : m.uncompressedBytes.toNat ≠ 0 ∧ m.uncompressedBytes.toNat ≤ maxUncompressedBytes)
    (hcomp : m.compressedBytes.toNat ≠ 0 ∧ m.compressedBytes.toNat ≤ maxCompressedBytes) :
    (e.withDerived m).Valid := by
  have hne {n : UInt32} (h : n.toNat ≠ 0) : n ≠ 0 := by
    rintro rfl
    exact h rfl
  exact { hv with
    compressedBytes := ⟨hne hcomp.1, hcomp.2⟩
    uncompressedBytes := ⟨hne hraw.1, hraw.2⟩
    checksumLength := by
      change byteLength (hexEncode m.checksumSha256) = 64
      rw [byteLength_hexEncode, hlen]
    checksumHex := isHexString_hexEncode _ }

/-- The decoder's field maps undo the encoder's. -/
theorem envelopeFromProto_of_body {e : Envelope} {m : WireEnvelope}
    (ht : e.InUnixNanoRange) (hb : envelopeToProto e = .ok m.body)
    (hv : (e.withDerived m).Valid) :
    envelopeFromProto m = .ok (e.withDerived m) := by
  simp only [envelopeToProto, bind_eq_ok] at hb
  obtain ⟨ws, hws, hb⟩ := hb
  simp only [WireEnvelope.body, Except.ok.injEq, WireEnvelope.mk.injEq] at hb
  obtain ⟨h₁, h₂, h₃, h₄, h₅, h₆, h₇, h₈, h₉, h₁₀, -, -, -, rfl, hcs⟩ := hb
  have hsamples : m.samples.mapM sampleFromProto = .ok e.samples :=
    mapM_inverse (fun s hs w hw => sampleFromProto_of_toProto (ht.samples s hs) hw) hws
  have hcontainers : m.containers.map containerFromProto = e.containers := by
    rw [← hcs, List.map_map]
    exact List.map_id _
  have hobs : m.observedUnixNano.toInt = e.observedAt := by
    rw [← h₇, toInt_unixNano ht.observedAt]
  simp only [envelopeFromProto, hsamples, ok_bind, hcontainers, hobs,
    ← h₁, ← h₂, ← h₃, ← h₄, ← h₅, ← h₆, ← h₈, ← h₉, ← h₁₀]
  change (do
    (e.withDerived m).validate.mapError WireError.invalid
    Except.ok (e.withDerived m)) = _
  rw [Envelope.validate_eq_ok (u := ()) |>.mpr hv]
  rfl

/-- A wire form of a valid envelope has a nonempty raw and compressed payload,
because the schema version is not the default of its field. -/
theorem WireForm.nonempty (hc : c.Faithful) {e : Envelope} (hv : e.Valid)
    {m : WireEnvelope} {raw b : Bytes} (h : WireForm c e m raw b) : raw ≠ [] ∧ b ≠ [] := by
  have hraw : raw ≠ [] := by
    rintro rfl
    have hm : some m = some WireEnvelope.empty := by
      rw [← hc.unmarshal_marshal m [] h.marshal, hc.unmarshal_nil]
    have hbody := h.body
    rw [Option.some.inj hm] at hbody
    simp only [envelopeToProto, bind_eq_ok] at hbody
    obtain ⟨ws, _, hbody⟩ := hbody
    simp only [WireEnvelope.body, WireEnvelope.empty, Except.ok.injEq,
      WireEnvelope.mk.injEq] at hbody
    have hs := hv.schemaVersion
    rw [hbody.1] at hs
    exact absurd hs (by decide)
  refine ⟨hraw, ?_⟩
  rintro rfl
  have hd := hc.decodeAll_encodeAll raw (h.rawBound.trans (by omega))
  rw [h.compressed, hc.decodeAll_nil, Option.some.injEq] at hd
  exact hraw hd.symm

/-- Decoding a wire form gives the envelope back, with the derived fields. -/
theorem WireForm.decode (hc : c.Faithful) {e : Envelope} (hv : e.Valid)
    (ht : e.InUnixNanoRange) {m : WireEnvelope} {raw b : Bytes} (h : WireForm c e m raw b) :
    (e.withDerived m).Valid ∧ decodeCompressedEnvelope c b = .ok (e.withDerived m) := by
  obtain ⟨hraw, hb⟩ := h.nonempty hc hv
  have hrl : raw.length ≠ 0 := by simpa using hraw
  have hbl : b.length ≠ 0 := by simpa using hb
  obtain ⟨canonical, hcan, hsum⟩ := h.checksum
  have hdec : c.decodeAll b = some raw := by
    rw [← h.compressed]
    exact hc.decodeAll_encodeAll raw (h.rawBound.trans (by omega))
  have hlen : m.checksumSha256.length = 32 := by rw [hsum, List.Vector.toList_length]
  have hvalid : (e.withDerived m).Valid := withDerived_valid hv hlen
    ⟨by rw [h.rawLength]; exact hrl, by rw [h.rawLength]; exact h.rawBound⟩
    ⟨by rw [h.length]; exact hbl, by rw [h.length]; exact h.bound⟩
  have hverify : verifyWireChecksum c m = .ok () := by
    simp [verifyWireChecksum, canonicalDigest, Telemetry.marshal, hcan, hsum, failIf]
  refine ⟨hvalid, ?_⟩
  have h₁ : (b.length == 0 || decide (maxCompressedBytes < b.length)) = false := by
    simp [hb, h.bound]
  have h₂ : (raw.length == 0 || decide (maxUncompressedBytes < raw.length)) = false := by
    simp [hraw, h.rawBound]
  have h₃ : (m.compressedBytes.toNat != b.length || m.uncompressedBytes.toNat != raw.length) =
      false := by
    simp [h.length, h.rawLength]
  simp only [decodeCompressedEnvelope, h₁, failIf_false, ok_bind, decompress, hdec, h₂,
    unmarshal, hc.unmarshal_marshal m raw h.marshal, h₃, hverify]
  exact envelopeFromProto_of_body ht h.body hvalid

/-- Whatever a payload decodes to has the key of the envelope it was made from. -/
theorem idempotencyKey_of_decode (hc : c.Faithful) {e d : Envelope} {b : Bytes}
    (henc : encodeCompressedEnvelope c e = .ok b) (hdec : decodeCompressedEnvelope c b = .ok d) :
    d.idempotencyKey = e.idempotencyKey := by
  obtain ⟨-, m, raw, -, hw⟩ := encodeCompressedEnvelope_eq_ok henc
  have hraw : c.decodeAll b = some raw := by
    rw [← hw.compressed]
    exact hc.decodeAll_encodeAll raw (hw.rawBound.trans (by omega))
  have hm : c.unmarshal raw = some m := hc.unmarshal_marshal m raw hw.marshal
  simp only [decodeCompressedEnvelope, decompress, hraw, unmarshal, hm, ok_bind,
    unit_bind_eq_ok] at hdec
  obtain ⟨-, -, -, -, hfrom⟩ := hdec
  simp only [envelopeFromProto, bind_eq_ok] at hfrom
  obtain ⟨samples, -, -, -, hd⟩ := hfrom
  have hbody := hw.body
  simp only [envelopeToProto, bind_eq_ok] at hbody
  obtain ⟨wires, -, hbody⟩ := hbody
  simp only [WireEnvelope.body, Except.ok.injEq, WireEnvelope.mk.injEq] at hbody
  obtain ⟨-, -, hagent, -, hboot, hsequence, -⟩ := hbody
  rw [← Except.ok.inj hd]
  simp only [Envelope.idempotencyKey, hagent, hboot, hsequence]

/-- Whether an envelope can be encoded, and to what, depends only on its
validity and on the fields that reach the message. -/
theorem encodeCompressedEnvelope_congr {e e' : Envelope} (hv : e.Valid) (hv' : e'.Valid)
    (h : envelopeToProto e = envelopeToProto e') :
    encodeCompressedEnvelope c e = encodeCompressedEnvelope c e' := by
  have hok {e : Envelope} (hv : e.Valid) : e.validate = .ok () := Envelope.validate_eq_ok.mpr hv
  simp only [encodeCompressedEnvelope, hok hv, hok hv', h]

/-- The wire format round trip. Whatever the encoder returns decodes to the
same envelope up to the three derived fields, which describe the payload
itself, and encoding the result gives the same bytes again. -/
theorem decode_encode_compressedEnvelope (hc : c.Faithful) {e : Envelope}
    (ht : e.InUnixNanoRange) {b : Bytes} (h : encodeCompressedEnvelope c e = .ok b) :
    ∃ m raw canonical d,
      decodeCompressedEnvelope c b = .ok d ∧
      d = { e with
        compressedBytes := d.compressedBytes
        uncompressedBytes := d.uncompressedBytes
        checksumSHA256 := d.checksumSHA256 } ∧
      envelopeToProto e = .ok m.body ∧ c.marshal m = some raw ∧ c.encodeAll raw = b ∧
      d.compressedBytes.toNat = b.length ∧ d.uncompressedBytes.toNat = raw.length ∧
      c.marshal { m with checksumSha256 := [] } = some canonical ∧
      m.checksumSha256 = (sha256 canonical).toList ∧
      d.checksumSHA256 = hexEncode m.checksumSha256 ∧
      encodeCompressedEnvelope c d = .ok b := by
  obtain ⟨hv, m, raw, -, hw⟩ := encodeCompressedEnvelope_eq_ok h
  obtain ⟨canonical, hcan, hsum⟩ := hw.checksum
  obtain ⟨hvalid, hdec⟩ := hw.decode hc hv ht
  refine ⟨m, raw, canonical, e.withDerived m, hdec, rfl, hw.body, hw.marshal, hw.compressed,
    hw.length, hw.rawLength, hcan, hsum, rfl, ?_⟩
  rw [← h]
  exact encodeCompressedEnvelope_congr hvalid hv (envelopeToProto_withDerived e m)

end Codec

/-- A reading, a reading that could not be taken and a container. -/
def roundTripEnvelope : Envelope :=
  .draft "a" "h" "b" 1 (seconds 1)
    [⟨"cpu-0", ⟨"cpu.utilization", "percent", some ⟨0x4045000000000000⟩, .experimental, "agent",
        "load", seconds 1⟩⟩,
      ⟨"gpu-0", ⟨"gpu.utilization", "", none, .unavailable, "agent", "load", seconds 1⟩⟩]
    [⟨"c", "web", "nginx", "running", "", true⟩]

theorem roundTripEnvelope_inRange : roundTripEnvelope.InUnixNanoRange where
  observedAt := by decide
  samples := by decide

theorem roundTripEnvelope_encodes :
    (encodeCompressedEnvelope Proto.storedCodec roundTripEnvelope).toOption.isSome = true := by
  decide +kernel

theorem decode_encode_roundTripEnvelope :
    ∃ b d, encodeCompressedEnvelope Proto.storedCodec roundTripEnvelope = .ok b ∧
      decodeCompressedEnvelope Proto.storedCodec b = .ok d ∧
      d.samples = roundTripEnvelope.samples ∧ d.compressedBytes.toNat = b.length ∧
      encodeCompressedEnvelope Proto.storedCodec d = .ok b := by
  have hsome := roundTripEnvelope_encodes
  cases hb : encodeCompressedEnvelope Proto.storedCodec roundTripEnvelope with
  | error e =>
      rw [hb] at hsome
      exact absurd hsome (by simp [Except.toOption])
  | ok b =>
      obtain ⟨m, raw, canonical, d, hdec, hd, -, -, -, hlen, -, -, -, -, henc⟩ :=
        decode_encode_compressedEnvelope Proto.storedCodec_faithful roundTripEnvelope_inRange hb
      refine ⟨b, d, rfl, hdec, ?_, hlen, henc⟩
      rw [hd]

end NodeScope.Telemetry
