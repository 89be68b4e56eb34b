import NodeScope.Telemetry.WireRoundTrip

/-!
# When the encoder returns a wire form

An attempt keeps the body of a message and replaces its declared lengths and its checksum. The
wire forms of an envelope are the fixed points of an attempt within the bounds, and the encoder
returns the one at which its attempts have arrived, or an error.

## Implementation notes

The compressor is a parameter. That it is lossless is not needed for the characterization: the
encoder never decompresses. The compressor of the counterexample pads its input to a length that
alternates with the length which the input declares.
-/

namespace NodeScope.Telemetry

open Domain Lib Lib.Check Lib.Sha256

section Attempts

variable {c : Codec} {e : Envelope}

theorem unsummed_eq_of_body {m m' : WireEnvelope} (hbody : m.body = m'.body)
    (hraw : m.uncompressedBytes = m'.uncompressedBytes)
    (hlength : m.compressedBytes = m'.compressedBytes) : m.unsummed = m'.unsummed := by
  calc m.unsummed = { m.body with
        uncompressedBytes := m.uncompressedBytes
        compressedBytes := m.compressedBytes } := rfl
    _ = { m'.body with
        uncompressedBytes := m'.uncompressedBytes
        compressedBytes := m'.compressedBytes } := by rw [hbody, hraw, hlength]
    _ = m'.unsummed := rfl

/-- The checksum of a message does not depend on the one that it holds. -/
theorem withChecksum_unsummed (m : WireEnvelope) : withChecksum c m.unsummed = withChecksum c m :=
  rfl

theorem withChecksum_congr {m m' : WireEnvelope} (h : m.unsummed = m'.unsummed) :
    withChecksum c m = withChecksum c m' := by
  rw [← withChecksum_unsummed m, h, withChecksum_unsummed]

theorem attempt_congr {m m' : WireEnvelope} (h : m.unsummed = m'.unsummed) :
    attempt c m = attempt c m' := by
  simp only [attempt, withChecksum_congr h]

theorem attempts_add (n k : Nat) (m : WireEnvelope) :
    attempts c (n + k) m = attempts c n m >>= attempts c k := by
  induction n generalizing m with
  | zero => rw [Nat.zero_add, attempts, ok_bind]
  | succ n ih =>
      rw [Nat.succ_add, attempts, attempts]
      cases attempt c m with
      | error error => rfl
      | ok next => exact ih next

theorem marshal_eq_ok {m : WireEnvelope} {b : Bytes} :
    marshal c m = .ok b ↔ c.marshal m = some b := by
  unfold marshal
  cases c.marshal m <;> simp

theorem WireForm.withChecksum_eq {m : WireEnvelope} {raw b : Bytes} (h : WireForm c e m raw b) :
    withChecksum c m = .ok m := by
  obtain ⟨canonical, hcanonical, hsum⟩ := h.checksum
  rw [withChecksum, canonicalDigest, marshal_eq_ok.2 hcanonical, ok_bind, ok_bind, ← hsum]

/-- What an attempt on the message of an envelope would declare, given what it declares. -/
def lengthsAfter (c : Codec) (e : Envelope) (uncompressed compressed : UInt32) :
    Option (Nat × Nat) := do
  let message ← (envelopeToProto e).toOption
  let summed ← (withChecksum c { message with
    uncompressedBytes := uncompressed, compressedBytes := compressed }).toOption
  let raw ← c.marshal summed
  pure (raw.length, (c.encodeAll raw).length)

/-- The lengths that a message declares after some rounds: none at first, and after each round
those of the message that declared the ones before. -/
def declaredAfter (c : Codec) (e : Envelope) : Nat → Option (UInt32 × UInt32)
  | 0 => some (0, 0)
  | n + 1 => do
      let (uncompressed, compressed) ← declaredAfter c e n
      let (rawLength, compressedLength) ← lengthsAfter c e uncompressed compressed
      pure (UInt32.ofNat rawLength, UInt32.ofNat compressedLength)

/-- After some rounds the declared lengths are those of a message. -/
def ArrivesAt (c : Codec) (e : Envelope) (n : Nat) (m : WireEnvelope) : Prop :=
  declaredAfter c e n = some (m.uncompressedBytes, m.compressedBytes)

/-- The lengths that a message declares. -/
def WireEnvelope.declared (m : WireEnvelope) : UInt32 × UInt32 :=
  (m.uncompressedBytes, m.compressedBytes)

theorem attempt_declared {m₀ m : WireEnvelope} (hm₀ : envelopeToProto e = .ok m₀)
    (hbody : m.body = m₀) :
    (attempt c m).toOption.map WireEnvelope.declared =
      (lengthsAfter c e m.uncompressedBytes m.compressedBytes).map fun lengths =>
        (UInt32.ofNat lengths.1, UInt32.ofNat lengths.2) := by
  have hsummed : withChecksum c { m₀ with
      uncompressedBytes := m.uncompressedBytes, compressedBytes := m.compressedBytes } =
        withChecksum c m := by
    rw [← hbody]
    exact withChecksum_congr rfl
  rw [lengthsAfter, hm₀, attempt]
  simp only [Except.toOption, Option.bind_eq_bind, Option.bind_some, hsummed]
  cases withChecksum c m with
  | error error => rfl
  | ok summed =>
      simp only [ok_bind, marshal, Option.bind_some]
      cases c.marshal summed with
      | none => rfl
      | some raw => rfl

theorem attempts_succ (n : Nat) (m : WireEnvelope) :
    attempts c (n + 1) m = attempts c n m >>= attempt c := by
  rw [attempts_add]
  cases attempts c n m with
  | error error => rfl
  | ok next =>
      rw [ok_bind, ok_bind, attempts]
      cases attempt c next <;> rfl

/-- The attempts of the encoder run through the rounds, by induction on their number. -/
theorem attempts_declared {m₀ : WireEnvelope} (hm₀ : envelopeToProto e = .ok m₀) (n : Nat) :
    (attempts c n m₀).toOption.map WireEnvelope.declared = declaredAfter c e n := by
  induction n with
  | zero =>
      rw [← envelopeToProto_body hm₀]
      rfl
  | succ n ih =>
      rw [attempts_succ, declaredAfter, ← ih]
      cases hattempts : attempts c n m₀ with
      | error error => rfl
      | ok m =>
          have hbody : m.body = m₀ := (attempts_body n hattempts).trans (envelopeToProto_body hm₀)
          rw [ok_bind, attempt_declared hm₀ hbody]
          cases hlengths : lengthsAfter c e m.uncompressedBytes m.compressedBytes with
          | none => simp [Except.toOption, WireEnvelope.declared, hlengths]
          | some lengths => simp [Except.toOption, WireEnvelope.declared, hlengths]

theorem exists_wireForm {uncompressed compressed : UInt32}
    (h : lengthsAfter c e uncompressed compressed = some (uncompressed.toNat, compressed.toNat))
    (hraw : uncompressed.toNat ≤ maxUncompressedBytes)
    (hlength : compressed.toNat ≤ maxCompressedBytes) : ∃ m raw b, WireForm c e m raw b := by
  simp only [lengthsAfter, Option.bind_eq_bind, Option.bind_eq_some_iff, toOption_eq_some,
    Option.pure_def, Option.some.injEq, Prod.mk.injEq] at h
  obtain ⟨message, hmessage, summed, hsummed, raw, hmarshal, hrawLength, hcompressedLength⟩ := h
  obtain ⟨canonical, hcanonical, rfl⟩ := withChecksum_eq_ok hsummed
  have hbody : envelopeToProto e = .ok message.body := by
    rw [hmessage, envelopeToProto_body hmessage]
  exact ⟨{ message with
      uncompressedBytes := uncompressed
      compressedBytes := compressed
      checksumSha256 := (sha256 canonical).toList }, raw, c.encodeAll raw, {
    body := hbody
    checksum := ⟨canonical, hcanonical, rfl⟩
    marshal := hmarshal
    compressed := rfl
    rawBound := hrawLength ▸ hraw
    bound := hcompressedLength ▸ hlength
    rawLength := hrawLength.symm
    length := hcompressedLength.symm }⟩

/-- A wire form is a fixed point of an attempt. -/
theorem WireForm.attempt_eq {m : WireEnvelope} {raw b : Bytes} (h : WireForm c e m raw b) :
    attempt c m = .ok m := by
  have hraw : UInt32.ofNat raw.length = m.uncompressedBytes := by
    rw [← h.rawLength, UInt32.ofNat_toNat]
  have hlength : UInt32.ofNat b.length = m.compressedBytes := by
    rw [← h.length, UInt32.ofNat_toNat]
  rw [attempt, h.withChecksum_eq, ok_bind, marshal_eq_ok.2 h.marshal, ok_bind, h.compressed,
    hraw, hlength]

/-- Attempts stay at a wire form. -/
theorem WireForm.attempts_eq {m m' : WireEnvelope} {raw b : Bytes} (h : WireForm c e m raw b)
    (hm : m'.unsummed = m.unsummed) (k : Nat) :
    ∃ m'', attempts c k m' = .ok m'' ∧ m''.unsummed = m.unsummed := by
  induction k generalizing m' with
  | zero => exact ⟨m', rfl, hm⟩
  | succ k ih =>
      obtain ⟨m'', hattempts, hm''⟩ := ih rfl
      refine ⟨m'', ?_, hm''⟩
      rw [attempts, attempt_congr hm, h.attempt_eq, ok_bind, hattempts]

/-- Where the attempts have arrived at a wire form, the encoder returns it. -/
theorem WireForm.encode {m : WireEnvelope} {raw b : Bytes} (h : WireForm c e m raw b)
    (hv : e.Valid) {n : Nat} (hn : n ≤ 6) (hm : ArrivesAt c e n m) :
    encodeCompressedEnvelope c e = .ok b := by
  have hm₀ := h.body
  obtain ⟨m', hm', hdeclared⟩ := Option.map_eq_some_iff.mp ((attempts_declared hm₀ n).trans hm)
  rw [toOption_eq_some] at hm'
  obtain ⟨hraw, hlength⟩ := Prod.mk.inj hdeclared
  have hbody : m'.body = m.body := by
    rw [attempts_body n hm', envelopeToProto_body hm₀]
  obtain ⟨m'', hattempts, hm''⟩ := h.attempts_eq (unsummed_eq_of_body hbody hraw hlength) (6 - n)
  have hsix : attempts c 6 m.body = .ok m'' := by
    rw [← Nat.add_sub_cancel' hn, attempts_add, hm', ok_bind, hattempts]
  have hbounds : (decide (maxUncompressedBytes < raw.length) ||
      decide (maxCompressedBytes < b.length)) = false := by
    simp [h.rawBound, h.bound]
  have hlengths : (m.uncompressedBytes.toNat != raw.length ||
      m.compressedBytes.toNat != b.length) = false := by
    simp [h.rawLength, h.length]
  have hvalid : e.validate = .ok () := Envelope.validate_eq_ok.2 hv
  simp only [encodeCompressedEnvelope, hvalid, Except.mapError, hm₀, hsix,
    withChecksum_congr hm'', h.withChecksum_eq, marshal_eq_ok.2 h.marshal, h.compressed, hbounds,
    hlengths, failIf_false, ok_bind]

theorem marshal_eq_error {m : WireEnvelope} {error : WireError}
    (h : marshal c m = .error error) : error = .marshal := by
  unfold marshal at h
  cases hm : c.marshal m with
  | some b => simp [hm] at h
  | none =>
      rw [hm] at h
      exact (Except.error.inj h).symm

theorem withChecksum_eq_error {m : WireEnvelope} {error : WireError}
    (h : withChecksum c m = .error error) : error = .marshal := by
  simp only [withChecksum, canonicalDigest, bind_eq_error, reduceCtorEq, and_false, exists_false,
    or_false] at h
  exact marshal_eq_error h

theorem attempt_eq_error {m : WireEnvelope} {error : WireError}
    (h : attempt c m = .error error) : error = .marshal := by
  simp only [attempt, bind_eq_error, reduceCtorEq, and_false, exists_false, or_false] at h
  obtain hsum | ⟨summed, -, hraw⟩ := h
  · exact withChecksum_eq_error hsum
  · exact marshal_eq_error hraw

theorem attempts_eq_error {n : Nat} {m : WireEnvelope} {error : WireError}
    (h : attempts c n m = .error error) : error = .marshal := by
  induction n generalizing m with
  | zero => cases h
  | succ n ih =>
      rw [attempts, bind_eq_error] at h
      obtain hattempt | ⟨next, -, hrest⟩ := h
      · exact attempt_eq_error hattempt
      · exact ih hrest

/-- What the encoder may answer for an envelope that has a message. -/
theorem encodeCompressedEnvelope_eq_error {m₀ : WireEnvelope} {error : WireError} (hv : e.Valid)
    (hm₀ : envelopeToProto e = .ok m₀) (h : encodeCompressedEnvelope c e = .error error) :
    error = .marshal ∨ error = .exceedsBounds ∨ error = .notConverged := by
  have hvalid : e.validate = .ok () := Envelope.validate_eq_ok.2 hv
  simp only [encodeCompressedEnvelope, hvalid, Except.mapError, hm₀, ok_bind, bind_eq_error,
    failIf_eq_error, reduceCtorEq, and_false, exists_false, or_false] at h
  obtain hattempts | ⟨m', -, hsum | ⟨m, -, hraw | ⟨raw, -, hlast⟩⟩⟩ := h
  · exact Or.inl (attempts_eq_error hattempts)
  · exact Or.inl (withChecksum_eq_error hsum)
  · exact Or.inl (marshal_eq_error hraw)
  · obtain ⟨-, hbounds⟩ | ⟨-, -, -, hlengths⟩ := hlast
    · exact Or.inr (Or.inl hbounds.symm)
    · exact Or.inr (Or.inr hlengths.symm)

/-- The encoder returns a wire form exactly where at most six rounds from no lengths arrive at one,
and otherwise an error even if there is another one. -/
theorem encode_exact_iff (c : Codec) (hv : e.Valid) :
    (∀ b, encodeCompressedEnvelope c e = .ok b ↔
      ∃ n ≤ 6, ∃ m raw, ArrivesAt c e n m ∧ WireForm c e m raw b) ∧
    ∀ m raw b error, WireForm c e m raw b → encodeCompressedEnvelope c e = .error error →
      error = .marshal ∨ error = .exceedsBounds ∨ error = .notConverged := by
  refine ⟨fun b => ⟨fun h => ?_, ?_⟩, fun m raw b error hform => ?_⟩
  · obtain ⟨-, m, raw, ⟨m₀, m', hm₀, hm', hlast⟩, hform⟩ := encodeCompressedEnvelope_eq_ok h
    have harrives : ArrivesAt c e 6 m := by
      have hdeclared : m'.unsummed.declared = m.unsummed.declared :=
        congrArg WireEnvelope.declared hlast
      rw [ArrivesAt, ← attempts_declared hm₀, hm']
      exact congrArg some hdeclared
    exact ⟨6, le_rfl, m, raw, harrives, hform⟩
  · rintro ⟨n, hn, m, raw, harrives, hform⟩
    exact hform.encode hv hn harrives
  · exact encodeCompressedEnvelope_eq_error hv hform.body

end Attempts

/-- The reading, the missing reading and the container reach their wire form. -/
theorem roundTripEnvelope_converges :
    ∃ b, ∃ n ≤ 6, ∃ m raw, ArrivesAt Proto.storedCodec roundTripEnvelope n m ∧
      WireForm Proto.storedCodec roundTripEnvelope m raw b := by
  have hsome := roundTripEnvelope_encodes
  cases hb : encodeCompressedEnvelope Proto.storedCodec roundTripEnvelope with
  | error error =>
      rw [hb] at hsome
      cases hsome
  | ok b =>
      have hvalid := (encodeCompressedEnvelope_eq_ok hb).1
      exact ⟨b, ((encode_exact_iff Proto.storedCodec hvalid).1 b).1 hb⟩

/-- The length that the compressor below gives its output. -/
def paddedLength (raw : Bytes) : Nat :=
  match (Proto.unmarshalEnvelope raw).map fun message => message.compressedBytes.toNat with
  | some 2000 => 2000
  | some 1000 => 1001
  | _ => 1000

/-- A compressor that writes zeros, a one and its input. -/
def alternatingCodec : Codec where
  marshal := Proto.marshalEnvelope
  unmarshal := Proto.unmarshalEnvelope
  encodeAll raw := List.replicate (paddedLength raw - (raw.length + 1)) 0 ++ 1 :: raw
  decodeAll b := if b = [] then some [] else (b.dropWhile fun x => x == 0).tail?

theorem dropWhile_padding (n : Nat) (raw : Bytes) :
    ((List.replicate n 0 ++ 1 :: raw).dropWhile fun x => x == 0) = 1 :: raw := by
  induction n with
  | zero => simp
  | succ n ih =>
      rw [List.replicate_succ, List.cons_append, List.dropWhile_cons_of_pos (by simp), ih]

theorem alternatingCodec_faithful : alternatingCodec.Faithful := by
  constructor
  · intro m b h
    simp only [alternatingCodec] at h ⊢
    exact Proto.unmarshalEnvelope_marshalEnvelope h
  · simp only [alternatingCodec]
    exact Proto.unmarshalEnvelope_nil
  · intro raw _
    simp only [alternatingCodec, dropWhile_padding, List.tail?_cons, List.append_eq_nil_iff,
      reduceCtorEq, and_false, if_false]
  · rfl

/-- The attempts alternate between two lengths, and never try the one that declares itself. -/
theorem alternatingCodec_not_converged :
    alternatingCodec.Faithful ∧ roundTripEnvelope.Valid ∧
      (∃ m raw b, WireForm alternatingCodec roundTripEnvelope m raw b) ∧
      encodeCompressedEnvelope alternatingCodec roundTripEnvelope = .error .notConverged := by
  refine ⟨alternatingCodec_faithful, ?_, ?_, ?_⟩
  · exact (Envelope.validate_eq_ok (u := ())).1 (by decide +kernel)
  · have hlengths :
        lengthsAfter alternatingCodec roundTripEnvelope 218 2000 = some (218, 2000) := by
      decide +kernel
    exact exists_wireForm hlengths (by decide) (by decide)
  · decide +kernel

end NodeScope.Telemetry
