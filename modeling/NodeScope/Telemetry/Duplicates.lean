import NodeScope.Lib.TimeText
import NodeScope.Telemetry.Envelope

/-!
# Repeated samples

`Envelope.Validate` looks for a repeated sample under a text that joins device, metric and instant
with colons. The instant can be told from the text, but device and metric cannot: a colon may
belong to either of them.
-/

namespace NodeScope.Telemetry

open Domain Lib Lib.Check Lib.Text Lib.Time

/-- What makes two samples the same. -/
def Sample.label (s : Sample) : String × String × Int :=
  (s.deviceID, s.metric.name, s.metric.observedAt)

/-- Two samples of the envelope are the same. -/
def Envelope.Repeated (e : Envelope) : Prop := ¬ (e.samples.map Sample.label).Nodup

/-- Everything but the repetition of samples is as it has to be. -/
structure Envelope.OtherwiseValid (e : Envelope) : Prop where
  schemaVersion : e.schemaVersion = currentSchemaVersion
  codec : e.codec = codecProtoZstd
  agentID : trimSpace e.agentID ≠ ""
  hostID : trimSpace e.hostID ≠ ""
  bootID : trimSpace e.bootID ≠ ""
  sequence : e.sequence ≠ 0
  observedAt : isZero e.observedAt = false
  compressedBytes : e.compressedBytes ≠ 0 ∧ e.compressedBytes.toNat ≤ maxCompressedBytes
  uncompressedBytes : e.uncompressedBytes ≠ 0 ∧ e.uncompressedBytes.toNat ≤ maxUncompressedBytes
  metricValueCount : e.metricValueCount ≠ 0 ∧ e.metricValueCount.toNat ≤ maxMetricValues
  sampleCount : e.sampleCount.toNat = e.samples.length
  sampleValues : e.metricValueCount.toNat = e.samples.length
  checksumLength : byteLength e.checksumSHA256 = 64
  checksumHex : isHexString e.checksumSHA256 = true
  containerCount : e.containers.length ≤ maxContainerInventory
  containers : ∀ c ∈ e.containers, c.Complete
  containersDistinct : (e.containers.map ContainerInventory.containerID).Nodup
  samples : ∀ s ∈ e.samples, s.Valid

/-- A duplicate is reported exactly where there is one. -/
def Envelope.DetectsExactly (e : Envelope) : Prop :=
  (∃ key, e.validate = .error (.duplicateSample key)) ↔ e.Repeated

/-- The device of one sample goes on with a colon and with what the metric of the other one starts
with. -/
def Shifted (a b : Sample) : Prop :=
  ∃ middle, a.deviceID = b.deviceID ++ ":" ++ middle ∧ b.metric.name = middle ++ ":" ++ a.metric.name

/-- Two different samples of one instant have the same text. -/
def Colliding (a b : Sample) : Prop :=
  a.metric.observedAt = b.metric.observedAt ∧ (Shifted a b ∨ Shifted b a)

section Keys

/-- Two joins with a colon agree only by agreeing in their parts or by shifting the colon. -/
theorem join_eq_iff {a b c d : List Char} :
    a ++ ':' :: b = c ++ ':' :: d ↔
      (a = c ∧ b = d) ∨ (∃ m, a = c ++ ':' :: m ∧ d = m ++ ':' :: b) ∨
        ∃ m, c = a ++ ':' :: m ∧ b = m ++ ':' :: d := by
  constructor
  · intro h
    obtain ⟨m, hc, hm⟩ | ⟨m, ha, hm⟩ := List.append_eq_append_iff.mp h
    · cases m with
      | nil =>
          rw [List.append_nil] at hc
          exact Or.inl ⟨hc.symm, (List.cons.inj hm).2⟩
      | cons x m =>
          obtain ⟨rfl, hb⟩ := List.cons.inj hm
          exact Or.inr (Or.inr ⟨m, hc, hb⟩)
    · cases m with
      | nil =>
          rw [List.append_nil] at ha
          exact Or.inl ⟨ha, (List.cons.inj hm).2.symm⟩
      | cons x m =>
          obtain ⟨rfl, hd⟩ := List.cons.inj hm
          exact Or.inr (Or.inl ⟨m, ha, hd⟩)
  · rintro (⟨rfl, rfl⟩ | ⟨m, rfl, rfl⟩ | ⟨m, rfl, rfl⟩)
    · rfl
    · simp
    · simp

theorem shifted_iff {a b : Sample} :
    Shifted a b ↔ ∃ m, a.deviceID.toList = b.deviceID.toList ++ ':' :: m ∧
      b.metric.name.toList = m ++ ':' :: a.metric.name.toList := by
  constructor
  · rintro ⟨middle, hdevice, hname⟩
    refine ⟨middle.toList, ?_, ?_⟩
    · rw [hdevice]
      simp
    · rw [hname]
      simp
  · rintro ⟨m, hdevice, hname⟩
    refine ⟨String.ofList m, ?_, ?_⟩
    · rw [← String.toList_inj, hdevice]
      simp
    · rw [← String.toList_inj, hname]
      simp

theorem toList_key (s : Sample) :
    s.key.toList = (s.deviceID.toList ++ ':' :: s.metric.name.toList) ++
      ':' :: (formatRFC3339Nano s.metric.observedAt).toList := by
  rw [Sample.key, String.toList_intercalate]
  simp

/-- Two samples with one text are the same or collide. -/
theorem key_eq_iff {a b : Sample} : a.key = b.key ↔ a.label = b.label ∨ Colliding a b := by
  rw [← String.toList_inj, toList_key, toList_key, append_format_inj, join_eq_iff, Colliding,
    shifted_iff, shifted_iff, Sample.label, Sample.label]
  simp only [Prod.mk.injEq, String.toList_inj]
  constructor
  · rintro ⟨⟨hdevice, hname⟩ | hshift, hinstant⟩
    · exact Or.inl ⟨hdevice, hname, hinstant⟩
    · exact Or.inr ⟨hinstant, hshift⟩
  · rintro (⟨hdevice, hname, hinstant⟩ | ⟨hinstant, hshift⟩)
    · exact ⟨Or.inl ⟨hdevice, hname⟩, hinstant⟩
    · exact ⟨Or.inr hshift, hinstant⟩

end Keys

section Validate

variable {e : Envelope}

/-- With the samples kept apart by their texts, nothing is left to object to. -/
theorem Envelope.OtherwiseValid.validate_eq_ok (h : e.OtherwiseValid) :
    e.validate = .ok () ↔ (e.samples.map Sample.key).Nodup := by
  rw [Envelope.validate_eq_ok]
  constructor
  · exact Envelope.Valid.samplesDistinct
  · intro hdistinct
    exact ⟨h.schemaVersion, h.codec, h.agentID, h.hostID, h.bootID, h.sequence, h.observedAt,
      h.compressedBytes, h.uncompressedBytes, h.metricValueCount, h.sampleCount, h.sampleValues,
      h.checksumLength, h.checksumHex, h.containerCount, h.containers, h.containersDistinct,
      h.samples, hdistinct⟩

/-- All other checks are passed before the samples are looked at. -/
theorem Envelope.OtherwiseValid.validate_eq (h : e.OtherwiseValid) :
    e.validate = forAllDistinct validateSample Sample.key .duplicateSample 0 [] e.samples := by
  have hidentity : forAll (fun field : IdentityField × String =>
      failIf (trimSpace field.2 == "") (.required field.1))
        [(.agentID, e.agentID), (.hostID, e.hostID), (.bootID, e.bootID)] =
          (.ok () : Except EnvelopeError Unit) := by
    simp [h.agentID, h.hostID, h.bootID]
  have hcontainers : forAllDistinct validateContainer ContainerInventory.containerID
      .duplicateContainer 0 [] e.containers = .ok () :=
    (forAllDistinct_eq_ok validateContainer_eq_ok _ _ _).mpr
      ⟨h.containers, by simp, h.containersDistinct⟩
  have hbounded {n : UInt32} {bound : Nat} (hn : n ≠ 0 ∧ n.toNat ≤ bound) :
      (n == 0 || decide (bound < n.toNat)) = false := by
    simp [hn.1, hn.2]
  have hsequence : (e.sequence == 0) = false := beq_eq_false_iff_ne.mpr h.sequence
  have hcount : decide (maxContainerInventory < e.containers.length) = false :=
    decide_eq_false (Nat.not_lt.mpr h.containerCount)
  rw [Envelope.validate, hidentity, hcontainers, hbounded h.compressedBytes,
    hbounded h.uncompressedBytes, hbounded h.metricValueCount, hsequence, hcount]
  simp [h.schemaVersion, h.codec, h.observedAt, h.sampleCount, h.sampleValues, h.checksumLength,
    h.checksumHex, failIf_false]

/-- What is left to report is a repeated text. -/
theorem Envelope.OtherwiseValid.error (h : e.OtherwiseValid) {error : EnvelopeError}
    (herror : e.validate = .error error) : ∃ key, error = .duplicateSample key := by
  rw [h.validate_eq] at herror
  exact forAllDistinct_eq_error
    (fun i s hs => (validateSample_eq_ok i s ()).mpr (h.samples s hs)) herror

theorem Envelope.OtherwiseValid.reports_iff (h : e.OtherwiseValid) :
    (∃ key, e.validate = .error (.duplicateSample key)) ↔ ¬ (e.samples.map Sample.key).Nodup := by
  rw [← h.validate_eq_ok]
  constructor
  · rintro ⟨key, hkey⟩ hok
    rw [hok] at hkey
    cases hkey
  · intro hne
    cases hvalidate : e.validate with
    | ok u => exact absurd hvalidate hne
    | error error =>
        obtain ⟨key, rfl⟩ := h.error hvalidate
        exact ⟨key, rfl⟩

/-- Duplicates are detected exactly when there are some, or no two samples collide. -/
theorem detectsExactly_iff (h : e.OtherwiseValid) :
    e.DetectsExactly ↔ e.Repeated ∨ e.samples.Pairwise fun a b => ¬ Colliding a b := by
  have hkeys : (e.samples.map Sample.key).Nodup ↔
      (e.samples.map Sample.label).Nodup ∧ e.samples.Pairwise fun a b => ¬ Colliding a b := by
    rw [List.Nodup, List.Nodup, List.pairwise_map, List.pairwise_map, ← List.pairwise_and_iff]
    simp only [ne_eq, key_eq_iff, not_or]
  rw [Envelope.DetectsExactly, h.reports_iff, hkeys, Envelope.Repeated]
  tauto

end Validate

/-- A reading that is not available, of 2026-07-22T12:10:00Z. -/
def reading (deviceID name : String) : Sample where
  deviceID := deviceID
  metric := ⟨name, "celsius", none, .unavailable, "nvidia-smi", "gauge", 1784722200000000000⟩

def twoReadings (a b : Sample) : Envelope :=
  Envelope.draft "agent" "host" "boot" 1 1784722200000000000 [a, b] []

theorem reading_valid {deviceID name : String} (hdevice : trimSpace deviceID ≠ "")
    (hname : trimSpace name ≠ "") : (reading deviceID name).Valid := by
  have hsource : trimSpace "nvidia-smi" ≠ "" := by decide
  have hsemantics : trimSpace "gauge" ≠ "" := by decide
  exact ⟨hdevice, MetricValue.validate_eq_ok.mpr
    ⟨hname, rfl, hsource, hsemantics, rfl, fun _ => rfl, fun h => absurd h Bool.false_ne_true⟩⟩

theorem twoReadings_otherwiseValid {a b : Sample} (ha : a.Valid) (hb : b.Valid) :
    (twoReadings a b).OtherwiseValid where
  schemaVersion := rfl
  codec := rfl
  agentID := (by decide : trimSpace "agent" ≠ "")
  hostID := (by decide : trimSpace "host" ≠ "")
  bootID := (by decide : trimSpace "boot" ≠ "")
  sequence := (by decide : (1 : UInt64) ≠ 0)
  observedAt := rfl
  compressedBytes := ⟨(by decide : (1 : UInt32) ≠ 0), Nat.le_of_ble_eq_true rfl⟩
  uncompressedBytes := ⟨(by decide : (1 : UInt32) ≠ 0), Nat.le_of_ble_eq_true rfl⟩
  metricValueCount := ⟨(by decide : (2 : UInt32) ≠ 0), Nat.le_of_ble_eq_true rfl⟩
  sampleCount := rfl
  sampleValues := rfl
  checksumLength := by
    simp only [twoReadings, Envelope.draft]
    decide
  checksumHex := by
    simp only [twoReadings, Envelope.draft]
    decide
  containerCount := Nat.zero_le _
  containers := by simp [twoReadings, Envelope.draft]
  containersDistinct := List.nodup_nil
  samples := by simp [twoReadings, Envelope.draft, ha, hb]

theorem twoDevices_detectedExactly :
    (twoReadings (reading "gpu:0" "temp") (reading "gpu:1" "temp")).DetectsExactly := by
  have hvalid : (twoReadings (reading "gpu:0" "temp") (reading "gpu:1" "temp")).OtherwiseValid :=
    twoReadings_otherwiseValid (reading_valid (by decide) (by decide))
      (reading_valid (by decide) (by decide))
  have hsame {middle : String} (h : "temp" = middle ++ ":" ++ "temp") : False := by
    have hlength := congrArg String.length h
    simp at hlength
  refine (detectsExactly_iff hvalid).mpr (Or.inr (List.pairwise_pair.mpr ?_))
  rintro ⟨-, ⟨_, -, hname⟩ | ⟨_, -, hname⟩⟩
  · exact hsame hname
  · exact hsame hname

/-- A colon that belongs to the device of one sample and to the metric of the other. -/
theorem shiftedColon_not_detectedExactly :
    (twoReadings (reading "gpu:0" "temp") (reading "gpu" "0:temp")).OtherwiseValid ∧
      ¬ (twoReadings (reading "gpu:0" "temp") (reading "gpu" "0:temp")).DetectsExactly := by
  refine ⟨twoReadings_otherwiseValid (reading_valid (by decide) (by decide))
    (reading_valid (by decide) (by decide)), fun hexact => ?_⟩
  have hreported : (twoReadings (reading "gpu:0" "temp") (reading "gpu" "0:temp")).validate =
      .error (.duplicateSample "gpu:0:temp:2026-07-22T12:10:00Z") := by
    decide +kernel
  exact hexact.mp ⟨_, hreported⟩ (by decide)

end NodeScope.Telemetry
