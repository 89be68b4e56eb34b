import NodeScope.Agent.AgentDeliverable
import NodeScope.Ingest.ExperimentalReadings
import NodeScope.Telemetry.Storable

/-!
# Which collections are stored

A collection that passes the checks of the program has one time and no slot twice, so that of the
conditions under which the schema takes a submission those on its samples are left over as
conditions on the host: no experimental hardware, a health for every container, and not too many
readings.
-/

namespace NodeScope.Ingest

open Domain Storage Lib Lib.Text Lib.Distinct Lib.Time Telemetry Agent

section Stored

variable {settings : AgentSettings} {s : LinuxSurroundings} {bootID : String} {sequence : UInt64}
  {observedAt : Int} {elapsed : UInt64} {e : Envelope}

/-- What the schema asks of a collection beyond the checks of the program. -/
structure StorableCollection (s : LinuxSurroundings) (c : Call) : Prop where
  hardware : experimentalHardware s = false
  health : ∀ x ∈ c.envelope.containers, ∃ ch ∈ x.health.toList, ch ≠ ' '
  keyLength : sqlLength c.envelope.bootID + sqlLength (Nat.repr c.envelope.sequence.toNat) ≤ 218
  sequence : c.envelope.sequence.toNat < 2 ^ 63
  sampleCount : c.envelope.samples.length ≤ 4096
  clocks : c.dbNow < toTimestamp (c.now + rawRetention)
  observedYear : Time.jsonEncodable c.envelope.observedAt = true
  expiry : storable (toTimestamp (c.now + rawRetention)) = true

theorem observedAt_of_collectOnce
    (h : collectOnce (settings.identity bootID sequence) observedAt elapsed
      (linuxCollectors settings s observedAt) = some e) : e.observedAt = observedAt := by
  simp only [collectOnce] at h
  split at h
  · cases h
  · rw [← Option.some.inj h]
    rfl

theorem storable_collection_iff
    (hcollect : collectOnce (settings.identity bootID sequence) observedAt elapsed
      (linuxCollectors settings s observedAt) = some e) {c : Call} {m : WireEnvelope}
    (henvelope : c.envelope = e.withDerived m) (hvalid : c.envelope.Valid) :
    Storable c ↔ StorableCollection s c := by
  have hsamples : c.envelope.samples = agentSamples s observedAt settings := by
    have hcollected : e.samples = agentSamples s observedAt settings :=
      samples_of_collectOnce hcollect
    rw [henvelope, ← hcollected]
    rfl
  have htime : c.envelope.observedAt = observedAt := by
    have hcollected := observedAt_of_collectOnce hcollect
    rw [henvelope, ← hcollected]
    rfl
  have hmade : ∀ sample ∈ c.envelope.samples, Made observedAt sample := by
    have hzero : isZero observedAt = false := by
      rw [← htime]
      exact hvalid.observedAt
    rw [hsamples]
    exact made_agentSamples s settings hzero
  have hdistinct : (c.envelope.samples.map slot).Nodup :=
    (nodup_keys_iff hmade).mp hvalid.samplesDistinct
  have hqualities : (∀ sample ∈ c.envelope.samples, sample.metric.quality ≠ .experimental) ↔
      experimentalHardware s = false := by
    rw [← Bool.not_eq_true, ← collection_experimental_iff settings s, ← agentSamples, ← hsamples,
      not_exists]
    exact forall_congr' fun _ => not_and.symm
  constructor
  · intro h
    exact ⟨hqualities.mp h.qualities, h.health, h.keyLength, h.sequence, h.sampleCount, h.clocks,
      h.observedYear, h.expiry⟩
  · intro h
    refine ⟨hqualities.mpr h.hardware, h.health, h.keyLength, h.sequence, h.sampleCount, hdistinct,
      h.clocks, h.observedYear, ?_, h.expiry⟩
    intro sample hsample
    rw [(hmade sample hsample).time, ← htime]
    exact h.observedYear

/-- A new collection of an enrolled agent that passes the checks of the program is stored in both
capacity modes exactly if there is no experimental hardware, every container has a health, and its
size, its key and the clocks are within what the schema takes. -/
theorem collection_stored_iff
    (hcollect : collectOnce (settings.identity bootID sequence) observedAt elapsed
      (linuxCollectors settings s observedAt) = some e) {db : Db} (hdb : Reachable db) {a : AgentRow}
    (hagent : a ∈ db.agents) {c : Call} (hidentity : c.identity = identityOf a) {m : WireEnvelope}
    (henvelope : c.envelope = e.withDerived m) (hchecked : checkSubmission c = .ok ())
    (hunseen : keyReceived db c.envelope.idempotencyKey = false) (hnul : NoNul c.envelope)
    (hfinite : FiniteValues c.envelope) :
    (∀ raw, (persistEnvelope healthy { db with capacityStatus := some raw } c).1 =
      .ok ⟨true, raw⟩) ↔ StorableCollection s c := by
  have hconsistent := hdb.consistent
  have hsubmitted : Submitted db c a.id a.hostId :=
    ⟨hconsistent, by rw [hidentity]; rfl, by rw [hidentity]; rfl,
      hconsistent.agentHosts a hagent, hchecked, hunseen, hnul, hfinite⟩
  have hmode (raw : Bool) : acceptRawBatches { db with capacityStatus := some raw } = raw := by
    cases raw <;> rfl
  have hruns (raw : Bool) : (persistEnvelope healthy { db with capacityStatus := some raw } c).1 =
      .ok ⟨true, raw⟩ ↔ Runs c (writes c raw) { db with capacityStatus := some raw } := by
    have hiff := persistEnvelope_inserted_iff (hsubmitted.withCapacity (some raw))
    rwa [hmode] at hiff
  rw [← storable_collection_iff hcollect henvelope hsubmitted.valid]
  constructor
  · intro h
    exact (runs_raw_iff (hsubmitted.withCapacity (some true))).mp ((hruns true).mp (h true))
  · intro h raw
    rw [hruns]
    cases raw with
    | false => exact runs_compact (hsubmitted.withCapacity (some false)) h
    | true => exact (runs_raw_iff (hsubmitted.withCapacity (some true))).mpr h

/-- What a host without an NPU collects, read by the server at a hundred seconds. -/
def bareCall : Call where
  identity := identityOf enrolledRow
  envelope := (bareEnvelope .absent).withDerived
    { WireEnvelope.empty with
      uncompressedBytes := 1
      compressedBytes := 1
      checksumSha256 := List.replicate 32 0 }
  now := readingClocks.store
  dbNow := readingClocks.database
  capacity := none

theorem bareCall_finite : FiniteValues bareCall.envelope := by
  have hall : ∀ sample ∈ bareCall.envelope.samples,
      sample.metric.value.all Float64.isFinite = true := by decide +kernel
  intro sample hsample v hv
  have hvalue := hall sample hsample
  rwa [hv, Option.all_some] at hvalue

theorem bareCall_storable : StorableCollection (bareHost .absent) bareCall where
  hardware := by simp [experimentalHardware, bareHost, cards]
  health := by decide +kernel
  keyLength := by decide +kernel
  sequence := by decide +kernel
  sampleCount := by decide +kernel
  clocks := by decide +kernel
  observedYear := by decide +kernel
  expiry := by decide +kernel

theorem bareCall_checked : checkSubmission bareCall = .ok () := by
  have hvalid : bareCall.envelope.Valid :=
    withDerived_valid (bareEnvelope_valid .absent) rfl (by decide) (by decide)
  have hreceived : bareCall.envelope.validateReceiptTimes bareCall.now = .ok () := by
    decide +kernel
  have hcomplete : (bareCall.identity.agentID == "" || bareCall.identity.hostID == "") = false := by
    decide +kernel
  have hidentity : (bareCall.envelope.agentID != bareCall.identity.agentID ||
      bareCall.envelope.hostID != bareCall.identity.hostID) = false := by
    decide +kernel
  have hchecked : bareCall.envelope.validate = .ok () := Envelope.validate_eq_ok.mpr hvalid
  rw [checkSubmission, hcomplete, hidentity, hchecked, hreceived]
  rfl

/-- A NUL character is a zero byte. -/
theorem hasNul_of_utf8 {text : String} (h : (utf8 text).contains 0 = false) :
    hasNul text = false := by
  rw [hasNul, ← Bool.not_eq_true, List.contains_iff_mem]
  intro hmem
  have hzero : 0 ∈ text.toList.flatMap String.utf8EncodeChar :=
    List.mem_flatMap.mpr ⟨'\x00', hmem, by decide⟩
  rw [← Decimal.utf8_ofList, String.ofList_toList, ← List.contains_iff_mem, h] at hzero
  cases hzero

theorem bareCall_noNul : NoNul bareCall.envelope := by
  have hbytes : ∀ text ∈ bareCall.envelope.texts, (utf8 text).contains 0 = false := by
    decide +kernel
  exact fun text htext => hasNul_of_utf8 (hbytes text htext)

theorem bareCall_stored :
    (persistEnvelope healthy { enrolledDb with capacityStatus := some false } bareCall).1 =
        .ok ⟨true, false⟩ ∧
      (persistEnvelope healthy { enrolledDb with capacityStatus := some true } bareCall).1 =
        .ok ⟨true, true⟩ := by
  have hreachable : Reachable enrolledDb := Reachable.start (by simp [AgentsReferHosts, enrolledRow])
  have hstored := (collection_stored_iff (bareEnvelope_collected .absent) hreachable
    (a := enrolledRow) (by simp [enrolledDb]) (c := bareCall) rfl rfl bareCall_checked
    (by decide +kernel) bareCall_noNul bareCall_finite).mpr bareCall_storable
  exact ⟨hstored false, hstored true⟩

end Stored

end NodeScope.Ingest
