import NodeScope.Agent.AgentDeliverable
import NodeScope.Ingest.StoreFailure
import NodeScope.Telemetry.Isolation
import NodeScope.Telemetry.Verification

/-!
# Experimental readings and the store

The agent reports an AMD card and an accessible NPU with the quality `experimental`, which
`Validate` knows and the tables do not. A transaction that meets such a reading is rolled back as a
whole, and the answer makes the agent drop the envelope. So nothing that such a host collects is
ever stored.
-/

namespace NodeScope.Ingest

open Domain Storage Lib Lib.Check Lib.Text Telemetry App Agent

section Hardware

variable {observedAt : Int}

/-- The hardware whose readings are experimental. -/
def experimentalHardware (s : LinuxSurroundings) : Bool :=
  (cards s.drm).any (fun card => readTrimmed (s.drm.device card) "vendor" == some "0x1002") ||
    s.xrtSmi == .examined

/-- A reading of any other hardware. -/
def Ordinary (s : Sample) : Prop := s.metric.quality ≠ .experimental

section Readings

variable {deviceID name unit source semantics : String}

theorem ordinary_numericSample {value : Float64} :
    Ordinary (numericSample deviceID name unit value source semantics observedAt) := by
  simp [Ordinary, numericSample]

theorem ordinary_unavailableSample :
    Ordinary (unavailableSample deviceID name unit source semantics observedAt) := by
  simp [Ordinary, unavailableSample]

theorem ordinary_unavailableAlone :
    ∀ s ∈ [unavailableSample deviceID name unit source semantics observedAt], Ordinary s :=
  List.forall_mem_singleton.mpr ordinary_unavailableSample

end Readings

theorem ordinary_collectCPU {state : CpuState} {stat : Option String} {samples : List Sample}
    (h : (collectCPU state stat observedAt).1 = some samples) : ∀ s ∈ samples, Ordinary s := by
  rw [collectCPU] at h
  split at h
  · cases h
  · simp only at h
    split at h
    · cases h
      exact ordinary_unavailableAlone
    · split at h
      · cases h
        exact ordinary_unavailableAlone
      · cases h
        exact List.forall_mem_singleton.mpr (ordinary_numericSample)

theorem ordinary_collectMemory {meminfo : Option String} {samples : List Sample}
    (h : collectMemory meminfo observedAt = some samples) : ∀ s ∈ samples, Ordinary s := by
  obtain ⟨lines, -, rfl⟩ := Option.map_eq_some_iff.mp h
  intro s hs
  obtain ⟨definition, -, rfl⟩ := List.mem_map.mp hs
  rw [memorySample]
  split
  · exact ordinary_numericSample
  · exact ordinary_unavailableSample

theorem ordinary_collectTemperatures (zones : List (String × Option String)) :
    ∀ s ∈ collectTemperatures zones observedAt, Ordinary s := by
  simp only [collectTemperatures]
  split
  · exact ordinary_unavailableAlone
  · split
    · exact ordinary_unavailableAlone
    · intro s hs
      obtain ⟨zone, -, hzone⟩ := List.mem_filterMap.mp hs
      simp only [zoneSample, Option.bind_eq_some_iff, Option.map_eq_some_iff] at hzone
      obtain ⟨contents, -, value, -, rfl⟩ := hzone
      exact ordinary_numericSample

theorem ordinary_collectMountCapacity (mounts : Option String) (statfs : String → Option Statfs) :
    ∀ s ∈ collectMountCapacity mounts statfs observedAt, Ordinary s := by
  cases mounts with
  | none => exact ordinary_unavailableAlone
  | some contents =>
      intro s hs
      obtain ⟨path, -, hs⟩ := List.mem_flatMap.mp hs
      rw [mountSamples] at hs
      split at hs
      · cases hs
      · simp only [List.mem_cons, List.not_mem_nil, or_false] at hs
        obtain rfl | rfl := hs
        · exact ordinary_numericSample
        · exact ordinary_numericSample

theorem ordinary_hostReading (s : Surroundings) :
    ∀ sample ∈ (hostReading s observedAt).samples observedAt, Ordinary sample := by
  rw [Collected.samples, hostReading]
  cases hhost : (collectLinuxHost s.cpu s.files observedAt).1 with
  | none => exact ordinary_unavailableAlone
  | some samples =>
      simp only [collectLinuxHost, Option.bind_eq_some_iff, Option.map_eq_some_iff] at hhost
      obtain ⟨cpu, hcpu, memory, hmemory, rfl⟩ := hhost
      simp only [Option.map_some, List.forall_mem_append]
      exact ⟨⟨⟨ordinary_collectCPU hcpu, ordinary_collectMemory hmemory⟩,
        ordinary_collectTemperatures _⟩, ordinary_collectMountCapacity _ _⟩

theorem ordinary_reportedSample {deviceID name unit raw semantics missing : String}
    {convert : Float64 → Float64} :
    Ordinary (reportedSample deviceID name unit raw convert semantics missing observedAt) := by
  rw [reportedSample]
  split
  · exact ordinary_numericSample
  · exact ordinary_unavailableSample

theorem ordinary_processMemory (output : Option String) (deviceID : String) :
    ∀ s ∈ processMemory output deviceID observedAt, Ordinary s := by
  cases output with
  | none => exact ordinary_unavailableAlone
  | some output =>
      simp only [processMemory]
      split
      · exact ordinary_unavailableAlone
      · intro s hs
        obtain ⟨process, -, rfl⟩ := List.mem_map.mp hs
        exact ordinary_numericSample

theorem ordinary_collectGpus (apps : Nat → Option String) (call : Nat) (lines : List String) :
    ∀ s ∈ collectGpus apps observedAt call lines, Ordinary s := by
  induction lines generalizing call with
  | nil => simp [collectGpus]
  | cons line rest ih =>
      rw [collectGpus]
      cases gpuLine line with
      | none => exact ih call
      | some gpu =>
          simp only [List.forall_mem_append, gpuSamples, List.forall_mem_cons]
          exact ⟨⟨⟨ordinary_numericSample, ordinary_reportedSample,
            ordinary_reportedSample, ordinary_reportedSample, ordinary_reportedSample,
            by simp⟩, ordinary_processMemory _ _⟩, ih (call + 1)⟩

theorem ordinary_collectNvidia (outputs : NvidiaOutputs) :
    ∀ s ∈ collectNvidia outputs observedAt, Ordinary s := by
  simp only [collectNvidia]
  split
  · exact ordinary_unavailableAlone
  · split
    · exact ordinary_unavailableAlone
    · split
      · exact ordinary_unavailableAlone
      · exact ordinary_collectGpus _ _ _

theorem ordinary_containerSamples (c : ContainerInventory) :
    ∀ s ∈ containerSamples observedAt c, Ordinary s := by
  rw [containerSamples, List.forall_mem_cons]
  refine ⟨ordinary_numericSample, ?_⟩
  split
  · exact ordinary_unavailableAlone
  · simp

theorem ordinary_inventoryReading (s : Surroundings) :
    ∀ sample ∈ (inventoryReading s observedAt).samples observedAt, Ordinary sample := by
  rw [Collected.samples, inventoryReading]
  cases hinventory : collectContainerInventory s.alerted s.inventory observedAt with
  | none => exact ordinary_unavailableAlone
  | some result =>
      cases hanswer : s.inventory with
      | invalidRequest =>
          rw [hanswer] at hinventory
          cases hinventory
      | unreachable =>
          rw [hanswer] at hinventory
          cases hinventory
          exact ordinary_unavailableAlone
      | refused =>
          rw [hanswer] at hinventory
          cases hinventory
          exact ordinary_unavailableAlone
      | body containers =>
          rw [hanswer] at hinventory
          cases containers with
          | none => cases hinventory
          | some containers =>
              simp only [collectContainerInventory] at hinventory
              split at hinventory
              · cases hinventory
              · obtain ⟨inventory, -, rfl⟩ := Option.map_eq_some_iff.mp hinventory
                refine List.forall_mem_cons.mpr ⟨ordinary_numericSample, fun sample hsample => ?_⟩
                obtain ⟨c, -, hc⟩ := List.mem_flatMap.mp hsample
                exact ordinary_containerSamples c sample hc

theorem ordinary_collectSelectedProcesses {processNames : List String} {table : Option ProcTable}
    {samples : List Sample}
    (h : collectSelectedProcesses processNames table observedAt = some samples) :
    ∀ s ∈ samples, Ordinary s := by
  rw [collectSelectedProcesses] at h
  split at h
  · obtain rfl := Option.some.inj h
    exact ordinary_unavailableAlone
  · obtain ⟨entries, -, rfl⟩ := Option.map_eq_some_iff.mp h
    intro s hs
    obtain ⟨name, -, rfl⟩ := List.mem_map.mp hs
    split
    · exact ordinary_numericSample
    · exact ordinary_numericSample

theorem ordinary_collectRuntimeProcesses (isPrint : Char → Bool) (processNames : List String)
    (table : Option ProcTable) :
    ∀ s ∈ collectRuntimeProcesses isPrint processNames table observedAt, Ordinary s := by
  simp only [collectRuntimeProcesses]
  split
  · exact ordinary_unavailableAlone
  · cases table with
    | none => exact ordinary_unavailableAlone
    | some entries =>
        intro s hs
        obtain ⟨name, -, rfl⟩ := List.mem_map.mp hs
        split
        · exact ordinary_numericSample
        · exact ordinary_numericSample

theorem ordinary_collectRuntimeEndpoints (endpoints : List RuntimeEndpoint)
    (answers : RuntimeEndpoint → RuntimeAnswer) :
    ∀ s ∈ collectRuntimeEndpoints endpoints answers observedAt, Ordinary s := by
  rw [collectRuntimeEndpoints]
  split
  · exact ordinary_unavailableAlone
  · intro s hs
    obtain ⟨endpoint, -, rfl⟩ := List.mem_map.mp hs
    rw [runtimeSample]
    split
    · exact ordinary_unavailableSample
    · exact ordinary_unavailableSample
    · split
      · exact ordinary_numericSample
      · exact ordinary_unavailableSample

/-- The DRM collector reports something experimental exactly for an AMD card. -/
theorem drm_experimental_iff (files : DrmFiles) :
    (∃ s ∈ collectDrm files observedAt, s.metric.quality = .experimental) ↔
      ∃ card ∈ cards files, readTrimmed (files.device card) "vendor" = some "0x1002" := by
  constructor
  · rintro ⟨s, hs, hquality⟩
    rw [collectDrm] at hs
    split at hs
    · exact absurd hquality (ordinary_unavailableAlone s hs)
    · obtain ⟨card, hcard, hs⟩ := List.mem_flatMap.mp hs
      rw [cardSamples] at hs
      split at hs
      · next hvendor => exact ⟨card, hcard, eq_of_beq hvendor⟩
      · cases hs
  · rintro ⟨card, hcard, hvendor⟩
    have hpresent : ∃ s ∈ cardSamples files observedAt card, s.metric.quality = .experimental := by
      rw [cardSamples, if_pos (beq_iff_eq.mpr hvendor)]
      exact ⟨_, List.mem_append_left _ List.mem_cons_self, rfl⟩
    obtain ⟨s, hs, hquality⟩ := hpresent
    have hmem : s ∈ (cards files).flatMap (cardSamples files observedAt) :=
      List.mem_flatMap.mpr ⟨card, hcard, hs⟩
    refine ⟨s, ?_, hquality⟩
    rw [collectDrm, if_neg]
    · exact hmem
    · intro hempty
      rw [List.isEmpty_iff.mp hempty] at hmem
      cases hmem

theorem xdna_experimental_iff (xrtSmi : XrtSmi) :
    (∃ s ∈ collectXdna xrtSmi observedAt, s.metric.quality = .experimental) ↔
      xrtSmi = .examined := by
  cases xrtSmi with
  | absent => simp [collectXdna, npuUnavailable, unavailableSample]
  | unreadable => simp [collectXdna, npuUnavailable, unavailableSample]
  | examined => simp [collectXdna, experimentalNumericSample]

/-- A collection has an experimental reading exactly on such hardware. -/
theorem collection_experimental_iff (settings : AgentSettings) (s : LinuxSurroundings) :
    (∃ sample ∈ (linuxCollectors settings s observedAt).flatMap (Collected.samples observedAt),
        sample.metric.quality = .experimental) ↔ experimentalHardware s = true := by
  have hselected : ∀ sample ∈ Collected.samples observedAt ⟨"selected_processes",
      (collectSelectedProcesses settings.selectedProcesses s.selectedTable observedAt).map
        fun samples => (samples, [])⟩, Ordinary sample := by
    rw [Collected.samples]
    cases h : collectSelectedProcesses settings.selectedProcesses s.selectedTable observedAt with
    | none => exact ordinary_unavailableAlone
    | some samples => exact ordinary_collectSelectedProcesses h
  have hhardware : experimentalHardware s = true ↔
      (∃ sample ∈ collectDrm s.drm observedAt, sample.metric.quality = .experimental) ∨
        ∃ sample ∈ collectXdna s.xrtSmi observedAt, sample.metric.quality = .experimental := by
    rw [drm_experimental_iff, xdna_experimental_iff, experimentalHardware, Bool.or_eq_true,
      List.any_eq_true, beq_iff_eq]
    simp only [beq_iff_eq]
  rw [hhardware]
  constructor
  · rintro ⟨sample, hsample, hquality⟩
    have hother {samples : List Sample} (h : ∀ sample ∈ samples, Ordinary sample)
        (hmem : sample ∈ samples) : False := h sample hmem hquality
    rw [linuxCollectors, List.flatMap_append, List.mem_append] at hsample
    obtain hsample | hsample := hsample
    · simp only [List.flatMap_cons, List.flatMap_nil, List.mem_append, List.not_mem_nil,
        or_false] at hsample
      obtain hm | hm | hm | hm | hm | hm | hm := hsample
      · exact (hother (ordinary_hostReading _) hm).elim
      · exact Or.inl ⟨sample, hm, hquality⟩
      · exact (hother (ordinary_collectNvidia _) hm).elim
      · exact Or.inr ⟨sample, hm, hquality⟩
      · exact (hother hselected hm).elim
      · exact (hother (ordinary_collectRuntimeProcesses _ _ _) hm).elim
      · exact (hother (ordinary_collectRuntimeEndpoints _ _) hm).elim
    · split at hsample
      · rw [List.flatMap_singleton] at hsample
        exact (hother (ordinary_inventoryReading _) hsample).elim
      · cases hsample
  · have hfirst (reading : Collected) (h : reading ∈ linuxCollectors settings s observedAt) :
        (∃ sample ∈ reading.samples observedAt, sample.metric.quality = .experimental) →
          ∃ sample ∈ (linuxCollectors settings s observedAt).flatMap (Collected.samples observedAt),
            sample.metric.quality = .experimental := by
      rintro ⟨sample, hsample, hquality⟩
      exact ⟨sample, List.mem_flatMap.mpr ⟨reading, h, hsample⟩, hquality⟩
    rintro (hdrm | hxdna)
    · exact hfirst ⟨"linux_drm", some (collectDrm s.drm observedAt, [])⟩
        (List.mem_append_left _ (by simp)) hdrm
    · exact hfirst ⟨"amd_xdna", some (collectXdna s.xrtSmi observedAt, [])⟩
        (List.mem_append_left _ (by simp)) hxdna

end Hardware

section Store

variable {fails : StorePoint → Bool} {c : Call} {db db' : Db}

/-- Statements that are all taken were each taken at some state. -/
theorem exec_of_runWrites {ws : List Write} {i : Nat} (h : runWrites fails c i ws db = .ok db') :
    ∀ w ∈ ws, ∃ lost before p, w.exec lost before c = .ok p := by
  induction ws generalizing i db with
  | nil => simp
  | cons w rest ih =>
      rw [runWrites, bind_eq_ok] at h
      obtain ⟨p, hp, hrest⟩ := h
      exact List.forall_mem_cons.mpr ⟨⟨_, _, p, hp⟩, ih hrest⟩

/-- The constraint on the quality knows five of the six. -/
theorem ordinary_of_exec {lost : Bool} {s : Sample} {p : Option Put}
    (h : (Write.latest s).exec lost db c = .ok p) : Ordinary s := by
  obtain ⟨-, -, -, hostId, -, hchecks, -⟩ := upsertLatest_eq_ok.mp h
  have hquality : storedQuality s.metric.quality = true :=
    hchecks ("metric_latest_quality_check", storedQuality s.metric.quality)
      (by simp [LatestRow.checks, latestRow])
  intro hexperimental
  rw [hexperimental] at hquality
  exact absurd hquality (by decide)

theorem latest_mem_writes {s : Sample} (h : s ∈ c.envelope.samples) (rawRetained : Bool) :
    Write.latest s ∈ writes c rawRetained := by
  have hmem : Write.latest s ∈ c.envelope.samples.flatMap (sampleWrites rawRetained) :=
    List.mem_flatMap.mpr ⟨s, h, by cases rawRetained <;> simp [sampleWrites]⟩
  rw [writes, List.cons_append, List.cons_append]
  exact List.mem_cons_of_mem _ (List.mem_append_left _ (List.mem_append_left _ hmem))

variable (fails db) in
/-- A new submission with an experimental reading fails, whatever the capacity mode. -/
theorem transaction_experimental {s : Sample} (hs : s ∈ c.envelope.samples)
    (hquality : s.metric.quality = .experimental)
    (hunseen : keyReceived db c.envelope.idempotencyKey = false) :
    ∃ e, transaction fails db c = .error e := by
  cases h : transaction fails db c with
  | error e => exact ⟨e, rfl⟩
  | ok result =>
      obtain ⟨r, after⟩ := result
      obtain ⟨-, -, ⟨hseen, -, -⟩ | ⟨-, -, hrun, -⟩⟩ := transaction_ok h
      · rw [hunseen] at hseen
        cases hseen
      · obtain ⟨lost, before, p, hexec⟩ :=
          exec_of_runWrites hrun _ (latest_mem_writes hs (acceptRawBatches db))
        exact absurd hquality (ordinary_of_exec hexec)

end Store

section Delivery

variable {settings : AgentSettings} {s : LinuxSurroundings} {identity : Identity} {observedAt : Int}
  {elapsed : UInt64} {e : Envelope}

theorem samples_of_collectOnce
    (h : collectOnce identity observedAt elapsed (linuxCollectors settings s observedAt) = some e) :
    e.samples = (linuxCollectors settings s observedAt).flatMap (Collected.samples observedAt) := by
  simp only [collectOnce] at h
  split at h
  · cases h
  · rw [← Option.some.inj h]
    rfl

/-- What an agent collects on such hardware is refused by every replica, in every capacity mode, and
dropped by the agent at the first endpoint it asks. -/
theorem experimental_collection_dropped {server : Server} {db : Db} {clocks : Clocks}
    {sender : Sender} {payload : List UInt8} {row : AgentRow}
    (hcollect : collectOnce identity observedAt elapsed (linuxCollectors settings s observedAt) =
      some e) (hhardware : experimentalHardware s = true)
    (h : ValidDelivery server db clocks sender e payload row)
    (hunseen : keyReceived db e.idempotencyKey = false) :
    handleIngest server healthy db clocks (ingestRequest sender payload) =
        (.problem 400 "telemetry submission was rejected", db) ∧
      (∀ circuits now endpoint rest failures,
        receive sender circuits now (.status 400) (.asking payload endpoint rest failures) =
          (.returned (some ⟨"ingestion rejected", false, 400⟩), circuits)) ∧
      ∀ policy attempt,
        settle policy (.sending attempt (.returned (some ⟨"ingestion rejected", false, 400⟩))) =
          .finished (some (.delivery ⟨"ingestion rejected", false, 400⟩)) := by
  refine ⟨?_, ?_, ?_⟩
  · obtain ⟨m, hread⟩ := h.readSubmission
    have hauth : authenticateAgent healthy db sender.credential =
        .ok ⟨row.id.toText, row.hostId.toText⟩ := h.authenticateAgent rfl
    obtain ⟨sample, hsample, hquality⟩ := (collection_experimental_iff settings s).mpr hhardware
    rw [← samples_of_collectOnce hcollect] at hsample
    obtain ⟨error, herror⟩ := transaction_experimental healthy db
      (c := ⟨⟨row.id.toText, row.hostId.toText⟩, e.withDerived m, clocks.store, clocks.database,
        db.capacityStatus⟩) hsample hquality hunseen
    rw [handleIngest, hread]
    simp only [hauth, persistEnvelope, herror, answer]
  · intro circuits now endpoint rest failures
    exact receive_permanent (by decide) circuits now endpoint rest failures
  · intro policy attempt
    simp [settle, isRetryable]

/-- An agent of the enrolled host without anything to watch. -/
def enrolledSettings : AgentSettings where
  agentID := enrolledRow.id.toText
  hostID := enrolledRow.hostId.toText
  selectedProcesses := []
  inferenceRuntimeProcesses := []
  inferenceRuntimeEndpoints := []
  alertedContainers := []
  containerInventoryEnabled := false

/-- A host that shows nothing but, possibly, an NPU. -/
def bareHost (xrtSmi : XrtSmi) : LinuxSurroundings where
  cpu := ⟨0, 0, false⟩
  files := ⟨none, none, none, [], List.nodup_nil, fun _ => none⟩
  drm := ⟨[], List.nodup_nil, fun _ _ => none⟩
  nvidia := ⟨false, none, fun _ => none⟩
  xrtSmi := xrtSmi
  selectedTable := none
  runtimeTable := none
  isPrint := fun _ => true
  runtimes := fun _ => .unanswered
  inventory := .unreachable

theorem bareHost_experimental : experimentalHardware (bareHost .examined) = true := by
  simp [experimentalHardware, bareHost]

def bareEnvelope (xrtSmi : XrtSmi) : Envelope :=
  collectedEnvelope (enrolledSettings.identity "b" 1) (Time.seconds 10) 0
    ((linuxCollectors enrolledSettings (bareHost xrtSmi) (Time.seconds 10)).flatMap
      (Collected.samples (Time.seconds 10))) []

theorem bareEnvelope_collected (xrtSmi : XrtSmi) :
    collectOnce (enrolledSettings.identity "b" 1) (Time.seconds 10) 0
      (linuxCollectors enrolledSettings (bareHost xrtSmi) (Time.seconds 10)) =
        some (bareEnvelope xrtSmi) := by
  cases xrtSmi <;> rfl

theorem enrolledSettings_accepted : enrolledSettings.Accepted where
  agentID := by decide +kernel
  hostID := by decide +kernel
  selectedProcesses := List.nodup_nil
  inferenceRuntimeProcesses := List.nodup_nil
  inferenceRuntimeEndpoints := List.nodup_nil

theorem bareEnvelope_valid (xrtSmi : XrtSmi) : (bareEnvelope xrtSmi).Valid := by
  have ht : Time.isZero (Time.seconds 10) = false := by decide
  have hidentity : (enrolledSettings.identity "b" 1).Valid :=
    ⟨enrolledSettings_accepted.agentID, enrolledSettings_accepted.hostID, by decide +kernel,
      by decide⟩
  have hcount : (agentSamples (bareHost xrtSmi) (Time.seconds 10) enrolledSettings).length ≤
      maxMetricValues := by
    cases xrtSmi <;> decide +kernel
  have hmade := made_agentSamples (bareHost xrtSmi) enrolledSettings ht
  have hdistinct := (nodup_agentSamples_iff (bareHost xrtSmi) (Time.seconds 10)
    enrolledSettings_accepted).mpr ⟨List.nodup_nil, List.nodup_nil⟩
  apply Envelope.validate_eq_ok.mp
  exact (collectedEnvelope_valid_iff hidentity ht 0 (agentSamples_ne_nil (bareHost xrtSmi) _ _)
    hcount hmade (by simp) (by simp) (by simp)).mpr ((nodup_keys_iff hmade).mpr hdistinct)

theorem npu_collection_dropped :
    ∃ payload, handleIngest replica healthy enrolledDb readingClocks
        (ingestRequest twoEndpoints payload) =
      (.problem 400 "telemetry submission was rejected", enrolledDb) := by
  have hencodes : (encodeCompressedEnvelope Proto.storedCodec
      (bareEnvelope .examined)).toOption.isSome = true := by
    have hchecked : (bareEnvelope .examined).validate = .ok () :=
      Envelope.validate_eq_ok.mpr (bareEnvelope_valid _)
    rw [encodeCompressedEnvelope, hchecked]
    decide +kernel
  obtain ⟨payload, hpayload⟩ := Option.isSome_iff_exists.mp hencodes
  have hdelivery : ValidDelivery replica enrolledDb readingClocks twoEndpoints
      (bareEnvelope .examined) payload enrolledRow := by
    refine ⟨rfl, Proto.storedCodec_faithful, toOption_eq_some.mp hpayload, ?_, ?_, ?_, rfl, rfl, ?_⟩
    · exact ⟨by decide +kernel, by decide +kernel⟩
    · rw [twoEndpoints, blank, ofUtf8_utf8]
      decide
    · decide +kernel
    · decide +kernel
  exact ⟨payload, (experimental_collection_dropped (bareEnvelope_collected .examined)
    bareHost_experimental hdelivery rfl).1⟩

end Delivery

section Runs

/-- The envelope of a collection on such hardware, as a server reads it. -/
def FromExperimental (e : Envelope) : Prop :=
  ∃ settings s identity observedAt elapsed collected m, experimentalHardware s = true ∧
    collectOnce identity observedAt elapsed (linuxCollectors settings s observedAt) =
      some collected ∧ e = collected.withDerived m

/-- What the database holds of a host. -/
structure HostRows where
  batches : List BatchRow
  samples : List SampleRow
  receipts : List ReceiptRow
  latest : List LatestRow
  containers : List ContainerRow

def hostRows (hostId : Uuid) (db : Db) : HostRows where
  batches := db.telemetryBatches.filter fun r => r.hostId == hostId
  samples := db.metricSamples.filter fun r => r.hostId == hostId
  receipts := db.ingestReceipts.filter fun r => r.hostId == hostId
  latest := db.metricLatest.filter fun r => r.hostId == hostId
  containers := db.containerInventory.filter fun r => r.hostId == hostId

variable {hostId : Uuid} {db : Db}

/-- The rows of a call for another host leave those of this one as they are. -/
theorem hostRows_foldl_offer {c : Call} {other : Uuid} (hne : other ≠ hostId) (raw : Bool) :
    hostRows hostId ((proposals c other raw).foldl offer db) = hostRows hostId db := by
  have hfalse : (other == hostId) = false := beq_eq_false_iff_ne.mpr hne
  simp only [hostRows, HostRows.mk.injEq]
  refine ⟨?_, ?_, ?_, ?_, ?_⟩
  · rw [foldl_offer_telemetryBatches, proposals_batch]
    cases raw <;> simp [batchRow, hfalse]
  · rw [foldl_offer_metricSamples, proposals_sample]
    cases raw <;> simp [sampleRow, hfalse, List.filter_map, Function.comp_def]
  · rw [foldl_offer_ingestReceipts, proposals_receipt]
    cases raw <;> simp [receiptRow, hfalse]
  · rw [foldl_offer_metricLatest, proposals_latest]
    apply filter_foldl_upsert
    · intro r r' hk
      rw [(Prod.mk.inj hk).1]
    · intro r hr
      obtain ⟨s, -, rfl⟩ := List.mem_map.mp hr
      exact hfalse
  · rw [foldl_offer_containerInventory, proposals_container]
    apply filter_foldl_upsert
    · intro r r' hk
      rw [(Prod.mk.inj hk).1]
    · intro r hr
      obtain ⟨x, -, rfl⟩ := List.mem_map.mp hr
      exact hfalse

theorem not_inserted_of_experimental {c : Call} (h : FromExperimental c.envelope) :
    inserted (serve db c).1 = false := by
  obtain ⟨settings, s, identity, observedAt, elapsed, collected, m, hhardware, hcollect, henvelope⟩ :=
    h
  obtain ⟨sample, hsample, hquality⟩ := (collection_experimental_iff settings s).mpr hhardware
  rw [← samples_of_collectOnce hcollect] at hsample
  have hmem : sample ∈ c.envelope.samples := by rwa [henvelope]
  obtain ⟨hno, -⟩ | ⟨-, -, hkey, -⟩ := serve_cases db c
  · exact hno
  · obtain ⟨error, herror⟩ := transaction_experimental healthy
      { db with capacityStatus := c.capacity } hmem hquality hkey
    rw [serve, persistEnvelope, herror]
    rfl

variable (db) in
theorem serve_hostRows {c : Call} (h : callHost c = some hostId → FromExperimental c.envelope) :
    hostRows hostId (serve db c).2 = hostRows hostId db ∧ (serve db c).2.hosts = db.hosts := by
  obtain ⟨-, hdb⟩ | ⟨hinserted, -, -, other, raw, hhost, hdb⟩ := serve_cases db c
  · rw [hdb]
    exact ⟨rfl, rfl⟩
  · have hne : other ≠ hostId := by
      rintro rfl
      rw [not_inserted_of_experimental (h hhost)] at hinserted
      cases hinserted
    rw [hdb]
    exact ⟨hostRows_foldl_offer hne raw, (foldl_offer_registry _ _).1⟩

theorem runCalls_hostRows (calls : List Call) (db : Db)
    (h : ∀ c ∈ calls, callHost c = some hostId → FromExperimental c.envelope) :
    hostRows hostId (runCalls db calls) = hostRows hostId db ∧
      (runCalls db calls).hosts = db.hosts := by
  induction calls generalizing db with
  | nil => exact ⟨rfl, rfl⟩
  | cons c rest ih =>
      obtain ⟨hc, hrest⟩ := List.forall_mem_cons.mp h
      obtain ⟨hrows, hhosts⟩ := serve_hostRows db hc
      obtain ⟨hrows', hhosts'⟩ := ih (serve db c).2 hrest
      exact ⟨hrows'.trans hrows, hhosts'.trans hhosts⟩

/-- The verifier reads nothing of a host but its own latest rows. -/
theorem verify_congr {db db' : Db} {host : HostRow} (hslugs : (db.hosts.map HostRow.slug).Nodup)
    (hhost : host ∈ db.hosts) (hhosts : db'.hosts = db.hosts)
    (hrows : hostRows host.id db' = hostRows host.id db) (now maxAge : Int) :
    verify db' host.slug now maxAge = verify db host.slug now maxAge := by
  have hlatest : db'.metricLatest.filter (onHost host) = db.metricLatest.filter (onHost host) :=
    (HostRows.mk.inj hrows).2.2.2.1
  have hjoin : Aggregate.leftJoin onHost [host] db'.metricLatest =
      Aggregate.leftJoin onHost [host] db.metricLatest := by
    rw [Aggregate.leftJoin, Aggregate.leftJoin, List.flatMap_singleton, List.flatMap_singleton,
      hlatest]
  rw [verify, verify, hostIngestionStatus_host hslugs hhost,
    hostIngestionStatus_host (hhosts ▸ hslugs) (hhosts ▸ hhost), hjoin]

/-- As long as a host has such hardware, no run of ingestion stores anything of it, in whatever
capacity mode, and the verifier finds it as it found it before. -/
theorem experimental_host_stays_silent (calls : List Call) (db : Db) (host : HostRow)
    (hslugs : (db.hosts.map HostRow.slug).Nodup) (hhost : host ∈ db.hosts)
    (h : ∀ c ∈ calls, callHost c = some host.id → FromExperimental c.envelope) :
    hostRows host.id (runCalls db calls) = hostRows host.id db ∧
      ∀ now maxAge, verify (runCalls db calls) host.slug now maxAge =
        verify db host.slug now maxAge := by
  obtain ⟨hrows, hhosts⟩ := runCalls_hostRows calls db h
  exact ⟨hrows, verify_congr hslugs hhost hhosts hrows⟩

/-- The readings of the NPU never reach the store. -/
theorem npu_host_stays_silent :
    ∃ c : Call, callHost c = some enrolledRow.hostId ∧
      hostRows enrolledRow.hostId (runCalls enrolledDb [c, c]) =
        hostRows enrolledRow.hostId enrolledDb := by
  let c : Call := ⟨⟨enrolledRow.id.toText, enrolledRow.hostId.toText⟩,
    (bareEnvelope .examined).withDerived .empty,
    readingClocks.store, readingClocks.database, some true⟩
  have hc : FromExperimental c.envelope :=
    ⟨_, bareHost .examined, _, _, _, _, _, bareHost_experimental, bareEnvelope_collected .examined,
      rfl⟩
  have hsilent := experimental_host_stays_silent [c, c] enrolledDb
    ⟨Uuid.ofByte 1, "node", "Node", "linux", none⟩ (by decide) (by simp [enrolledDb])
    (by simp only [List.forall_mem_cons]; exact ⟨fun _ => hc, fun _ => hc, by simp⟩)
  exact ⟨c, Uuid.parse_toText _, hsilent.1⟩

end Runs

end NodeScope.Ingest
