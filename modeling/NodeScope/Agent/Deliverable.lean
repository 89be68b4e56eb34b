import NodeScope.Agent.Collectors
import NodeScope.Lib.Distinct
import NodeScope.Telemetry.WireRoundTrip

/-!
# When a collection can be delivered

An envelope is refused as a whole when two of its samples have the same device, metric and time.
The samples of one collection have the same time, and their metrics have no colon in their names,
so that the question is whether a pair of device and metric occurs twice. It does not within the
host and the inventory, nor between two collectors; it does among the readings of `nvidia-smi`
when an index is reported twice, or a process is listed twice.
-/

namespace NodeScope.Agent

open Domain Lib Lib.Text Lib.Distinct Lib.Time Telemetry

/-- The device and the metric of a sample. -/
def slot (s : Sample) : String × String := (s.deviceID, s.metric.name)

section Made

/-- What the code writes itself into a sample is not blank, and its metric has no colon. -/
def wellWorded (name source semantics : String) : Bool :=
  trimSpace name != "" && !name.toList.contains ':' && trimSpace source != "" &&
    trimSpace semantics != ""

theorem wellWorded_append {name source start : String}
    (h : wellWorded name source start = true) (rest : String) :
    wellWorded name source (start ++ rest) = true := by
  simp only [wellWorded, Bool.and_eq_true, bne_iff_ne] at h ⊢
  exact ⟨h.1, trimSpace_append_ne h.2 rest⟩

/-- Literal words are checked at their first characters and at the name of the metric. -/
theorem wellWorded_ofList {n s t : Char} {name source semantics : List Char}
    (h : (isSpace n || isSpace s || isSpace t || (n :: name).contains ':') = false) :
    wellWorded (String.ofList (n :: name)) (String.ofList (s :: source))
      (String.ofList (t :: semantics)) = true := by
  simp only [Bool.or_eq_false_iff] at h
  obtain ⟨⟨⟨hn, hs⟩, ht⟩, hcolon⟩ := h
  simp only [wellWorded, Bool.and_eq_true, bne_iff_ne, String.toList_ofList, hcolon, Bool.not_false]
  exact ⟨⟨⟨trimSpace_ofList_cons_ne hn name, trivial⟩, trimSpace_ofList_cons_ne hs source⟩,
    trimSpace_ofList_cons_ne ht semantics⟩

/-- A sample that `Validate` takes, of a given time. -/
structure Made (observedAt : Int) (s : Sample) : Prop where
  valid : s.Valid
  time : s.metric.observedAt = observedAt
  name : ':' ∉ s.metric.name.toList

variable {observedAt : Int} (ht : isZero observedAt = false) {deviceID name unit : String}
variable {source semantics : String} (hdevice : trimSpace deviceID ≠ "")
variable (hwords : wellWorded name source semantics = true)
include ht hdevice hwords

theorem made_numericSample (value : Float64) :
    Made observedAt (numericSample deviceID name unit value source semantics observedAt) := by
  simp only [wellWorded, Bool.and_eq_true, bne_iff_ne, Bool.not_eq_true', List.contains_eq_mem,
    decide_eq_false_iff_not] at hwords
  obtain ⟨⟨⟨hname, hcolon⟩, hsource⟩, hsemantics⟩ := hwords
  refine ⟨⟨hdevice, MetricValue.validate_eq_ok.mpr ?_⟩, rfl, hcolon⟩
  exact ⟨hname, rfl, hsource, hsemantics, ht, by simp [numericSample, MetricQuality.withoutValue],
    fun _ => rfl⟩

theorem made_unavailableSample :
    Made observedAt (unavailableSample deviceID name unit source semantics observedAt) := by
  simp only [wellWorded, Bool.and_eq_true, bne_iff_ne, Bool.not_eq_true', List.contains_eq_mem,
    decide_eq_false_iff_not] at hwords
  obtain ⟨⟨⟨hname, hcolon⟩, hsource⟩, hsemantics⟩ := hwords
  refine ⟨⟨hdevice, MetricValue.validate_eq_ok.mpr ?_⟩, rfl, hcolon⟩
  exact ⟨hname, rfl, hsource, hsemantics, ht, fun _ => rfl,
    by simp [unavailableSample, MetricQuality.withValue]⟩

theorem made_unavailableAlone :
    ∀ s ∈ [unavailableSample deviceID name unit source semantics observedAt], Made observedAt s :=
  List.forall_mem_singleton.mpr (made_unavailableSample ht hdevice hwords)

end Made

/-- Within one collection the text of `Validate` tells samples apart as their slots do. -/
theorem nodup_keys_iff {observedAt : Int} {samples : List Sample}
    (h : ∀ s ∈ samples, Made observedAt s) :
    (samples.map Sample.key).Nodup ↔ (samples.map slot).Nodup := by
  apply nodup_map_congr
  intro s hs s' hs'
  have hcolon : ":" = String.singleton ':' := rfl
  rw [Sample.key, Sample.key, (h s hs).time, (h s' hs').time, hcolon,
    intercalate_three_inj_left (h s hs).name (h s' hs').name, slot, slot, Prod.mk.injEq]

section LinuxHost

variable {observedAt : Int}

theorem slots_collectCPU {state : CpuState} {stat : Option String} {samples : List Sample}
    (h : (collectCPU state stat observedAt).1 = some samples) :
    samples.map slot = [("cpu-aggregate", "cpu.utilization")] := by
  rw [collectCPU] at h
  split at h
  · cases h
  · simp only at h
    split at h
    · cases h
      rfl
    · split at h <;> cases h <;> rfl

theorem slots_collectMemory {meminfo : Option String} {samples : List Sample}
    (h : collectMemory meminfo observedAt = some samples) :
    samples.map slot = labels ["memory-host"] (memoryDefinitions.map MemoryDefinition.name) := by
  rw [collectMemory, Option.map_eq_some_iff] at h
  obtain ⟨lines, -, rfl⟩ := h
  have hslot (definition : MemoryDefinition) :
      slot (memorySample (meminfoValues lines) observedAt definition) =
        ("memory-host", definition.name) := by
    rw [memorySample]
    split <;> rfl
  simp [labels, Function.comp_def, hslot]

theorem slot_zoneSample {zone : String × Option String} {s : Sample}
    (h : zoneSample observedAt zone = some s) :
    slot s = ("thermal_zone" ++ zone.1, "temperature.celsius") := by
  rw [zoneSample, Option.bind_eq_some_iff] at h
  obtain ⟨contents, -, h⟩ := h
  obtain ⟨_, -, rfl⟩ := Option.map_eq_some_iff.mp h
  rfl

theorem slots_collectTemperatures (observedAt : Int) (zones : List (String × Option String)) :
    (collectTemperatures zones observedAt).map slot = [("thermal-host", "temperature.celsius")] ∨
      ((collectTemperatures zones observedAt).map slot).Sublist
        (labels (zones.map fun zone => "thermal_zone" ++ zone.1) ["temperature.celsius"]) := by
  simp only [collectTemperatures]
  split
  · exact Or.inl rfl
  · split
    · exact Or.inl rfl
    · refine Or.inr ?_
      rw [List.filterMap_eq_flatMap_toList, labels, List.flatMap_map]
      apply map_flatMap_sublist
      intro zone
      cases hzone : zoneSample observedAt zone with
      | none => simp
      | some s => simp [slot_zoneSample hzone]

/-- The loop over the mount table keeps the paths apart. -/
theorem nodup_mountedPaths (lines seen : List String) :
    (mountedPaths lines seen).Nodup ∧ ∀ path ∈ mountedPaths lines seen, path ∉ seen := by
  induction lines generalizing seen with
  | nil => exact ⟨List.nodup_nil, by simp [mountedPaths]⟩
  | cons line rest ih =>
      rw [mountedPaths]
      split
      · next path filesystem _ _ =>
          split
          · exact ih seen
          · next hnew =>
              obtain ⟨hnodup, hseen⟩ := ih (path :: seen)
              have hpath : path ∉ seen := by
                intro hmem
                exact hnew (by simp [hmem])
              refine ⟨List.nodup_cons.mpr ⟨fun hmem => hseen path hmem List.mem_cons_self, hnodup⟩,
                ?_⟩
              intro p hp
              obtain rfl | hp := List.mem_cons.mp hp
              · exact hpath
              · exact fun hmem => hseen p hp (List.mem_cons_of_mem path hmem)
      · exact ih seen

def storageMetrics : List String := ["storage.available_bytes", "storage.total_bytes"]

/-- The paths whose capacity is asked for. -/
def capacityPaths (contents : String) : List String :=
  (mountedPaths (splitAt '\n' contents) []).mergeSort fun a b => decide (a ≤ b)

theorem slots_collectMountCapacity (observedAt : Int) (mounts : Option String)
    (statfs : String → Option Statfs) :
    (collectMountCapacity mounts statfs observedAt).map slot =
        [("storage-host", "storage.available_bytes")] ∨
      ∃ contents, ((collectMountCapacity mounts statfs observedAt).map slot).Sublist
        (labels ((capacityPaths contents).map fun path => "mount:" ++ path) storageMetrics) := by
  cases mounts with
  | none => exact Or.inl rfl
  | some contents =>
      refine Or.inr ⟨contents, ?_⟩
      rw [collectMountCapacity, labels, List.flatMap_map]
      apply map_flatMap_sublist
      intro path
      rw [mountSamples]
      cases statfs path with
      | none => simp
      | some stat => exact List.Sublist.refl _

theorem append_injective (start : String) : Function.Injective fun s : String => start ++ s := by
  intro s s' h
  have hl := congrArg String.toList h
  simp only [String.toList_append] at hl
  exact String.toList_inj.mp (List.append_cancel_left hl)

/-- The first character of a device tells the families of devices apart. -/
def initial (p : String × String) : Option Char := p.1.toList.head?

theorem temperatures_slots (observedAt : Int) (files : HostFiles) :
    ((collectTemperatures files.thermalZones observedAt).map slot).Nodup ∧
      ∀ p ∈ (collectTemperatures files.thermalZones observedAt).map slot,
        initial p = some 't' ∧ p.2 ∈ ["temperature.celsius"] := by
  obtain heq | hsub := slots_collectTemperatures observedAt files.thermalZones
  · rw [heq]
    exact ⟨List.nodup_singleton _, by simp [initial]⟩
  · constructor
    · refine List.Nodup.sublist hsub ((nodup_labels_iff (by simp) (List.nodup_singleton _)).mpr ?_)
      have hmap := files.zonesDistinct.map (append_injective "thermal_zone")
      rwa [List.map_map] at hmap
    · intro p hp
      obtain ⟨hdevice, hname⟩ := mem_labels.mp (hsub.subset hp)
      obtain ⟨zone, -, hzone⟩ := List.mem_map.mp hdevice
      exact ⟨by simp [initial, ← hzone], hname⟩

theorem mountCapacity_slots (observedAt : Int) (mounts : Option String)
    (statfs : String → Option Statfs) :
    ((collectMountCapacity mounts statfs observedAt).map slot).Nodup ∧
      ∀ p ∈ (collectMountCapacity mounts statfs observedAt).map slot,
        initial p ∈ [some 'm', some 's'] ∧ p.2 ∈ storageMetrics := by
  obtain heq | ⟨contents, hsub⟩ := slots_collectMountCapacity observedAt mounts statfs
  · rw [heq]
    exact ⟨List.nodup_singleton _, by simp [initial, storageMetrics]⟩
  · constructor
    · refine List.Nodup.sublist hsub
        ((nodup_labels_iff (by simp [storageMetrics]) (by decide)).mpr ?_)
      refine List.Nodup.map (append_injective "mount:") ?_
      exact (List.mergeSort_perm _ _).nodup_iff.mpr (nodup_mountedPaths _ _).1
    · intro p hp
      obtain ⟨hdevice, hname⟩ := mem_labels.mp (hsub.subset hp)
      obtain ⟨path, -, hpath⟩ := List.mem_map.mp hdevice
      exact ⟨by simp [initial, ← hpath], hname⟩

def memoryMetrics : List String := memoryDefinitions.map MemoryDefinition.name

def hostMetrics : List String :=
  "cpu.utilization" :: memoryMetrics ++ ["temperature.celsius"] ++ storageMetrics

/-- The host's readings do not repeat a slot, and keep to the host's devices and metrics. -/
theorem linuxHost_slots {state : CpuState} {files : HostFiles} {samples : List Sample}
    (h : (collectLinuxHost state files observedAt).1 = some samples) :
    (samples.map slot).Nodup ∧ ∀ p ∈ samples.map slot,
      initial p ∈ [some 'c', some 'm', some 't', some 's'] ∧ p.2 ∈ hostMetrics := by
  simp only [collectLinuxHost, Option.bind_eq_some_iff, Option.map_eq_some_iff] at h
  obtain ⟨cpu, hcpu, memory, hmemory, rfl⟩ := h
  obtain ⟨htemperatures, htemperature⟩ := temperatures_slots observedAt files
  obtain ⟨hmounts, hmount⟩ := mountCapacity_slots observedAt files.mounts files.statfs
  simp only [List.map_append, slots_collectCPU hcpu, slots_collectMemory hmemory]
  have hfixed : ([("cpu-aggregate", "cpu.utilization")] ++
      labels ["memory-host"] (memoryDefinitions.map MemoryDefinition.name)).Nodup := by decide
  have hfixedSlot : ∀ p ∈ [("cpu-aggregate", "cpu.utilization")] ++
      labels ["memory-host"] (memoryDefinitions.map MemoryDefinition.name),
      initial p ∈ [some 'c', some 'm'] ∧ p.2 ∈ "cpu.utilization" :: memoryMetrics := by decide
  have hapart : ∀ n ∈ "cpu.utilization" :: memoryMetrics, n ∉ ["temperature.celsius"] := by decide
  have hapart' : ∀ n ∈ "cpu.utilization" :: (memoryMetrics ++ ["temperature.celsius"]),
      n ∉ storageMetrics := by decide
  constructor
  · refine (nodup_append_iff_of_view Prod.snd ?_).mpr
      ⟨(nodup_append_iff_of_view Prod.snd ?_).mpr ⟨hfixed, htemperatures⟩, hmounts⟩
    · intro p hp q hq heq
      refine hapart' p.2 ?_ (heq ▸ (hmount q hq).2)
      obtain hp | hp := List.mem_append.mp hp
      · exact List.mem_append_left _ (hfixedSlot p hp).2
      · exact List.mem_append_right ("cpu.utilization" :: memoryMetrics) (htemperature p hp).2
    · intro p hp q hq heq
      exact hapart p.2 (hfixedSlot p hp).2 (heq ▸ (htemperature q hq).2)
  · intro p hp
    obtain hp | hp := List.mem_append.mp hp
    · obtain hp | hp := List.mem_append.mp hp
      · obtain ⟨hinitial, hname⟩ := hfixedSlot p hp
        refine ⟨?_, List.mem_append_left _ (List.mem_append_left _ hname)⟩
        simp only [List.mem_cons, List.not_mem_nil, or_false] at hinitial ⊢
        tauto
      · obtain ⟨hinitial, hname⟩ := htemperature p hp
        rw [hinitial, List.mem_singleton.mp hname]
        exact ⟨by simp, by decide⟩
    · obtain ⟨hinitial, hname⟩ := hmount p hp
      refine ⟨?_, List.mem_append_right ("cpu.utilization" :: (memoryMetrics ++
        ["temperature.celsius"])) hname⟩
      simp only [List.mem_cons, List.not_mem_nil, or_false] at hinitial ⊢
      tauto

end LinuxHost

section Nvidia

variable {observedAt : Int}

/-- The processes in a list of them, as it was printed. -/
def reportedPids (output : Option String) : List String :=
  match output with
  | some output => (reportedProcesses output).map Prod.fst
  | none => []

/-- The GPUs of a report by their indices, each with the processes listed for it. -/
def gpuReports (apps : Nat → Option String) : Nat → List String → List (String × List String)
  | _, [] => []
  | call, line :: rest =>
      match gpuLine line with
      | some gpu => (gpu.index, reportedPids (apps call)) :: gpuReports apps (call + 1) rest
      | none => gpuReports apps call rest

def reportedGpus (outputs : NvidiaOutputs) : List (String × List String) :=
  if outputs.installed then
    match outputs.gpus with
    | some output => gpuReports outputs.apps 0 (splitAt '\n' (trimSpace output))
    | none => []
  else []

/-- A process is named after its GPU, and a GPU without processes stands for itself. -/
def processNames (report : String × List String) : List String :=
  if report.2 = [] then [report.1] else report.2.map fun pid => report.1 ++ ":pid-" ++ pid

/-- No GPU and no process is named twice. -/
structure NvidiaOutputs.Distinct (outputs : NvidiaOutputs) : Prop where
  gpus : ((reportedGpus outputs).map Prod.fst).Nodup
  processes : ((reportedGpus outputs).flatMap processNames).Nodup

def gpuMetrics : List String :=
  ["gpu.availability", "gpu.utilization", "temperature.celsius", "gpu.dedicated_vram.total_bytes",
    "gpu.dedicated_vram.used_bytes"]

theorem slot_reportedSample (deviceID name unit raw : String) (convert : Float64 → Float64)
    (semantics missing : String) :
    slot (reportedSample deviceID name unit raw convert semantics missing observedAt) =
      (deviceID, name) := by
  rw [reportedSample]
  split <;> rfl

theorem slots_gpuSamples (gpu : GpuLine) (deviceID : String) :
    (gpuSamples gpu deviceID observedAt).map slot = gpuMetrics.map (Prod.mk deviceID) := by
  simp only [gpuSamples, List.map_cons, List.map_nil, slot_reportedSample]
  rfl

theorem slots_processMemory (output : Option String) (index : String) :
    (processMemory output ("nvidia-gpu-" ++ index) observedAt).map slot =
      (processNames (index, reportedPids output)).map fun name =>
        ("nvidia-gpu-" ++ name, perProcessMetric) := by
  cases output with
  | none => simp [processMemory, reportedPids, processNames, slot, unavailableSample]
  | some output =>
      simp only [processMemory, reportedPids, processNames, List.isEmpty_iff, List.map_eq_nil_iff]
      split
      · simp [slot, unavailableSample]
      · simp [slot, numericSample, String.append_assoc]

/-- The slots of one GPU: its own metrics, and its processes. -/
def reportSlots (report : String × List String) : List (String × String) :=
  gpuMetrics.map (Prod.mk ("nvidia-gpu-" ++ report.1)) ++
    (processNames report).map fun name => ("nvidia-gpu-" ++ name, perProcessMetric)

theorem slots_collectGpus (observedAt : Int) (apps : Nat → Option String) (call : Nat)
    (lines : List String) :
    (collectGpus apps observedAt call lines).map slot =
      (gpuReports apps call lines).flatMap reportSlots := by
  induction lines generalizing call with
  | nil => rfl
  | cons line rest ih =>
      rw [collectGpus, gpuReports]
      cases gpuLine line with
      | some gpu =>
          simp only [List.map_append, slots_gpuSamples, slots_processMemory, ih, List.flatMap_cons,
            reportSlots, List.append_assoc]
      | none => exact ih call

/-- Among the readings of the GPUs a slot is repeated exactly by repeating a name. -/
theorem nodup_reportSlots_iff (reports : List (String × List String)) :
    (reports.flatMap reportSlots).Nodup ↔
      (reports.map Prod.fst).Nodup ∧ (reports.flatMap processNames).Nodup := by
  have hperm := List.flatMap_append_perm reports
    (fun report => gpuMetrics.map (Prod.mk ("nvidia-gpu-" ++ report.1)))
    (fun report => (processNames report).map fun name => ("nvidia-gpu-" ++ name, perProcessMetric))
  have hown : reports.flatMap (fun report => gpuMetrics.map (Prod.mk ("nvidia-gpu-" ++ report.1))) =
      labels ((reports.map Prod.fst).map fun index => "nvidia-gpu-" ++ index) gpuMetrics := by
    rw [labels, List.map_map, List.flatMap_map]
    rfl
  have hprocesses : reports.flatMap (fun report => (processNames report).map fun name =>
        ("nvidia-gpu-" ++ name, perProcessMetric)) =
      (reports.flatMap processNames).map fun name => ("nvidia-gpu-" ++ name, perProcessMetric) := by
    rw [List.map_flatMap]
  have hinjective : Function.Injective fun name : String =>
      ("nvidia-gpu-" ++ name, perProcessMetric) := fun a b h =>
    append_injective "nvidia-gpu-" (Prod.mk.inj h).1
  have hparts :
      (labels ((reports.map Prod.fst).map fun index => "nvidia-gpu-" ++ index) gpuMetrics ++
        (reports.flatMap processNames).map fun name =>
          ("nvidia-gpu-" ++ name, perProcessMetric)).Nodup ↔
      (labels ((reports.map Prod.fst).map fun index => "nvidia-gpu-" ++ index) gpuMetrics).Nodup ∧
        ((reports.flatMap processNames).map fun name =>
          ("nvidia-gpu-" ++ name, perProcessMetric)).Nodup := by
    apply nodup_append_iff_of_view Prod.snd
    intro p hp q hq heq
    obtain ⟨-, hmetric⟩ := mem_labels.mp hp
    obtain ⟨name, -, rfl⟩ := List.mem_map.mp hq
    have hother : perProcessMetric ∉ gpuMetrics := by decide
    rw [heq] at hmetric
    exact hother hmetric
  refine hperm.nodup_iff.symm.trans ?_
  rw [hown, hprocesses, hparts, nodup_labels_iff (by simp [gpuMetrics]) (by decide),
    List.nodup_map_iff (append_injective "nvidia-gpu-"), List.nodup_map_iff hinjective]

/-- The readings of `nvidia-smi` do not repeat a slot exactly if they do not repeat a name. -/
theorem nodup_collectNvidia_iff (outputs : NvidiaOutputs) :
    ((collectNvidia outputs observedAt).map slot).Nodup ↔ outputs.Distinct := by
  have hdistinct : outputs.Distinct ↔ ((reportedGpus outputs).flatMap reportSlots).Nodup := by
    rw [nodup_reportSlots_iff]
    exact ⟨fun h => ⟨h.gpus, h.processes⟩, fun h => ⟨h.1, h.2⟩⟩
  rw [hdistinct, collectNvidia, reportedGpus]
  cases outputs.installed with
  | false => simp
  | true =>
      cases outputs.gpus with
      | none => simp
      | some output =>
          simp only [Bool.not_true, Bool.false_eq_true, if_false, if_true, List.isEmpty_iff]
          rw [← slots_collectGpus observedAt outputs.apps 0]
          split
          · next hnone => simp [hnone]
          · rfl

theorem initial_collectNvidia (observedAt : Int) (outputs : NvidiaOutputs) :
    ∀ p ∈ (collectNvidia outputs observedAt).map slot, initial p ∈ [some 'g', some 'n'] := by
  have hunavailable (semantics : String) : ∀ p ∈ [unavailableSample "gpu-nvidia" "gpu.availability"
      "state" "nvidia-smi" semantics observedAt].map slot, initial p ∈ [some 'g', some 'n'] := by
    simp [slot, unavailableSample, initial]
  simp only [collectNvidia]
  split
  · exact hunavailable _
  · split
    · exact hunavailable _
    · split
      · exact hunavailable _
      · intro p hp
        rw [slots_collectGpus, List.mem_flatMap] at hp
        obtain ⟨report, -, hp⟩ := hp
        rw [reportSlots, List.mem_append, List.mem_map, List.mem_map] at hp
        obtain ⟨_, -, rfl⟩ | ⟨_, -, rfl⟩ := hp <;> simp [initial]

end Nvidia

section Inventory

variable {observedAt : Int}

def containerMetrics : List String := ["container.running", "container.health"]

def inventoryMetrics : List String := "container.inventory.available" :: containerMetrics

/-- The records that the collector passes on are complete and have different ids. -/
theorem acceptContainers_eq_some {alerted : List String} {containers : List InventoryProxyContainer}
    {seen : List String} {inventory : List ContainerInventory}
    (h : acceptContainers alerted containers seen = some inventory) :
    inventory.length = containers.length ∧ (∀ c ∈ inventory, c.Complete) ∧
      (inventory.map ContainerInventory.containerID).Nodup ∧
      ∀ c ∈ inventory, c.containerID ∉ seen := by
  obtain ⟨hvalid, hdistinct, rfl⟩ := acceptContainers_eq_some_iff.mp h
  refine ⟨List.length_map _, ?_, ?_, ?_⟩
  · intro accepted haccepted
    obtain ⟨c, hc, rfl⟩ := List.mem_map.mp haccepted
    have hfields := (hvalid c hc).1
    simp only [InventoryProxyContainer.validate, inventoryFieldValid, Bool.and_eq_true,
      Bool.false_or, bne_iff_ne] at hfields
    obtain ⟨⟨⟨⟨⟨⟨hid, -⟩, -⟩, ⟨⟨hname, -⟩, -⟩⟩, ⟨⟨himage, -⟩, -⟩⟩, ⟨⟨hstate, -⟩, -⟩⟩, -⟩ := hfields
    exact ⟨hid, hname, himage, hstate⟩
  · rw [List.map_map]
    exact hdistinct
  · intro accepted haccepted
    obtain ⟨c, hc, rfl⟩ := List.mem_map.mp haccepted
    exact (hvalid c hc).2

theorem slots_containerSamples (observedAt : Int) (inventory : List ContainerInventory) :
    ((inventory.flatMap (containerSamples observedAt)).map slot).Sublist
      (labels ((inventory.map ContainerInventory.containerID).map fun id => "container:" ++ id)
        containerMetrics) := by
  rw [labels, List.map_map, List.flatMap_map]
  apply map_flatMap_sublist
  intro c
  refine List.Sublist.cons_cons _ ?_
  split
  · exact List.Sublist.refl _
  · exact List.nil_sublist _

/-- The readings and the records of the inventory. -/
theorem inventory_slots {alerted : List String} {answer : InventoryAnswer} {samples : List Sample}
    {containers : List ContainerInventory}
    (h : collectContainerInventory alerted answer observedAt = some (samples, containers)) :
    (samples.map slot).Nodup ∧
      (∀ p ∈ samples.map slot, initial p = some 'c' ∧ p.2 ∈ inventoryMetrics) ∧
      containers.length ≤ maxProxyContainers ∧ (∀ c ∈ containers, c.Complete) ∧
      (containers.map ContainerInventory.containerID).Nodup := by
  have hunavailable {semantics : String} (heq : ([unavailableSample "containers"
        "container.inventory.available" "state" "inventory-proxy" semantics observedAt], []) =
      (samples, containers)) : (samples.map slot).Nodup ∧
      (∀ p ∈ samples.map slot, initial p = some 'c' ∧ p.2 ∈ inventoryMetrics) ∧
      containers.length ≤ maxProxyContainers ∧ (∀ c ∈ containers, c.Complete) ∧
      (containers.map ContainerInventory.containerID).Nodup := by
    obtain ⟨rfl, rfl⟩ := Prod.mk.inj heq
    exact ⟨List.nodup_singleton _, by simp [slot, unavailableSample, initial, inventoryMetrics],
      by simp, by simp, List.nodup_nil⟩
  simp only [collectContainerInventory] at h
  split at h
  · cases h
  · exact hunavailable (Option.some.inj h)
  · exact hunavailable (Option.some.inj h)
  · cases h
  · next records =>
      split at h
      · cases h
      · next hlimit =>
          obtain ⟨inventory, haccept, heq⟩ := Option.map_eq_some_iff.mp h
          obtain ⟨rfl, rfl⟩ := Prod.mk.inj heq
          obtain ⟨hlength, hcomplete, hnodup, -⟩ := acceptContainers_eq_some haccept
          have hsub := slots_containerSamples observedAt inventory
          have hslot : ∀ p ∈ (inventory.flatMap (containerSamples observedAt)).map slot,
              initial p = some 'c' ∧ p.2 ∈ containerMetrics := by
            intro p hp
            obtain ⟨hdevice, hname⟩ := mem_labels.mp (hsub.subset hp)
            obtain ⟨id, -, hid⟩ := List.mem_map.mp hdevice
            exact ⟨by simp [initial, ← hid], hname⟩
          refine ⟨?_, ?_, by omega, hcomplete, hnodup⟩
          · rw [List.map_cons, List.nodup_cons]
            constructor
            · intro hmem
              exact absurd (hslot _ hmem).2 (by simp [slot, numericSample, containerMetrics])
            · refine List.Nodup.sublist hsub
                ((nodup_labels_iff (by simp [containerMetrics]) (by decide)).mpr ?_)
              exact hnodup.map (append_injective "container:")
          · rw [List.map_cons, List.forall_mem_cons]
            exact ⟨⟨by simp [initial, slot, numericSample], List.mem_cons_self⟩, fun p hp =>
              ⟨(hslot p hp).1, List.mem_cons_of_mem _ (hslot p hp).2⟩⟩

end Inventory

section Wording

variable {observedAt : Int} (ht : isZero observedAt = false)
include ht

theorem made_collectCPU {state : CpuState} {stat : Option String} {samples : List Sample}
    (h : (collectCPU state stat observedAt).1 = some samples) :
    ∀ s ∈ samples, Made observedAt s := by
  rw [collectCPU] at h
  split at h
  · cases h
  · simp only at h
    split at h
    · obtain rfl := Option.some.inj h
      exact made_unavailableAlone ht (trimSpace_ofList_cons_ne (by decide) _)
        (wellWorded_ofList (by decide))
    · split at h
      · obtain rfl := Option.some.inj h
        exact made_unavailableAlone ht (trimSpace_ofList_cons_ne (by decide) _)
          (wellWorded_ofList (by decide))
      · obtain rfl := Option.some.inj h
        exact List.forall_mem_singleton.mpr
          (made_numericSample ht (trimSpace_ofList_cons_ne (by decide) _)
            (wellWorded_ofList (by decide)) _)

theorem made_collectMemory {meminfo : Option String} {samples : List Sample}
    (h : collectMemory meminfo observedAt = some samples) : ∀ s ∈ samples, Made observedAt s := by
  have hwords : ∀ definition ∈ memoryDefinitions,
      wellWorded definition.name "procfs" definition.semantics = true := by
    simp only [memoryDefinitions, List.forall_mem_cons]
    exact ⟨wellWorded_ofList (by decide), wellWorded_ofList (by decide),
      wellWorded_ofList (by decide), wellWorded_ofList (by decide), by simp⟩
  obtain ⟨lines, -, rfl⟩ := Option.map_eq_some_iff.mp h
  rintro _ hmem
  obtain ⟨definition, hdefinition, rfl⟩ := List.mem_map.mp hmem
  rw [memorySample]
  split
  · exact made_numericSample ht (trimSpace_ofList_cons_ne (by decide) _)
      (hwords definition hdefinition) _
  · exact made_unavailableSample ht (trimSpace_ofList_cons_ne (by decide) _)
      (hwords definition hdefinition)

theorem made_collectTemperatures (zones : List (String × Option String)) :
    ∀ s ∈ collectTemperatures zones observedAt, Made observedAt s := by
  simp only [collectTemperatures]
  split
  · exact made_unavailableAlone ht (trimSpace_ofList_cons_ne (by decide) _)
      (wellWorded_ofList (by decide))
  · split
    · exact made_unavailableAlone ht (trimSpace_ofList_cons_ne (by decide) _)
        (wellWorded_ofList (by decide))
    · intro s hs
      obtain ⟨zone, -, hzone⟩ := List.mem_filterMap.mp hs
      obtain ⟨contents, -, hzone⟩ := Option.bind_eq_some_iff.mp hzone
      obtain ⟨_, -, rfl⟩ := Option.map_eq_some_iff.mp hzone
      exact made_numericSample ht (trimSpace_append_ne (trimSpace_ofList_cons_ne (by decide) _) _)
        (wellWorded_ofList (by decide)) _

theorem made_collectMountCapacity (mounts : Option String) (statfs : String → Option Statfs) :
    ∀ s ∈ collectMountCapacity mounts statfs observedAt, Made observedAt s := by
  cases mounts with
  | none =>
      exact made_unavailableAlone ht (trimSpace_ofList_cons_ne (by decide) _)
        (wellWorded_ofList (by decide))
  | some contents =>
      intro s hs
      obtain ⟨path, -, hs⟩ := List.mem_flatMap.mp hs
      rw [mountSamples] at hs
      split at hs
      · cases hs
      · simp only [List.mem_cons, List.not_mem_nil, or_false] at hs
        have hdevice : trimSpace ("mount:" ++ path) ≠ "" :=
          trimSpace_append_ne (trimSpace_ofList_cons_ne (by decide) _) path
        obtain rfl | rfl := hs
        · exact made_numericSample ht hdevice
            (wellWorded_append (wellWorded_ofList (by decide)) path) _
        · exact made_numericSample ht hdevice
            (wellWorded_append (wellWorded_ofList (by decide)) path) _

theorem made_reportedSample {deviceID name unit raw semantics missing : String}
    {convert : Float64 → Float64} (hdevice : trimSpace deviceID ≠ "")
    (hwords : wellWorded name "nvidia-smi" semantics = true)
    (hmissing : wellWorded name "nvidia-smi" missing = true) :
    Made observedAt
      (reportedSample deviceID name unit raw convert semantics missing observedAt) := by
  rw [reportedSample]
  split
  · exact made_numericSample ht hdevice hwords _
  · exact made_unavailableSample ht hdevice hmissing

theorem made_gpuSamples (gpu : GpuLine) {deviceID : String} (hdevice : trimSpace deviceID ≠ "") :
    ∀ s ∈ gpuSamples gpu deviceID observedAt, Made observedAt s := by
  simp only [gpuSamples, List.forall_mem_cons]
  exact ⟨made_numericSample ht hdevice (wellWorded_ofList (by decide)) _,
    made_reportedSample ht hdevice (wellWorded_ofList (by decide)) (wellWorded_ofList (by decide)),
    made_reportedSample ht hdevice (wellWorded_ofList (by decide)) (wellWorded_ofList (by decide)),
    made_reportedSample ht hdevice (wellWorded_ofList (by decide)) (wellWorded_ofList (by decide)),
    made_reportedSample ht hdevice (wellWorded_ofList (by decide)) (wellWorded_ofList (by decide)),
      by simp⟩

theorem made_processMemory (output : Option String) {deviceID : String}
    (hdevice : trimSpace deviceID ≠ "") :
    ∀ s ∈ processMemory output deviceID observedAt, Made observedAt s := by
  cases output with
  | none => exact made_unavailableAlone ht hdevice (wellWorded_ofList (by decide))
  | some output =>
      simp only [processMemory]
      split
      · exact made_unavailableAlone ht hdevice (wellWorded_ofList (by decide))
      · intro s hs
        obtain ⟨process, -, rfl⟩ := List.mem_map.mp hs
        refine made_numericSample ht ?_ (wellWorded_ofList (by decide)) _
        rw [String.append_assoc]
        exact trimSpace_append_ne hdevice _

theorem made_collectGpus (apps : Nat → Option String) (call : Nat) (lines : List String) :
    ∀ s ∈ collectGpus apps observedAt call lines, Made observedAt s := by
  induction lines generalizing call with
  | nil => simp [collectGpus]
  | cons line rest ih =>
      rw [collectGpus]
      cases gpuLine line with
      | none => exact ih call
      | some gpu =>
          have hdevice : trimSpace ("nvidia-gpu-" ++ gpu.index) ≠ "" :=
            trimSpace_append_ne (trimSpace_ofList_cons_ne (by decide) _) _
          intro s hs
          simp only [List.mem_append] at hs
          obtain (hs | hs) | hs := hs
          · exact made_gpuSamples ht gpu hdevice s hs
          · exact made_processMemory ht _ hdevice s hs
          · exact ih (call + 1) s hs

theorem made_collectNvidia (outputs : NvidiaOutputs) :
    ∀ s ∈ collectNvidia outputs observedAt, Made observedAt s := by
  simp only [collectNvidia]
  split
  · exact made_unavailableAlone ht (trimSpace_ofList_cons_ne (by decide) _)
      (wellWorded_ofList (by decide))
  · split
    · exact made_unavailableAlone ht (trimSpace_ofList_cons_ne (by decide) _)
        (wellWorded_ofList (by decide))
    · split
      · exact made_unavailableAlone ht (trimSpace_ofList_cons_ne (by decide) _)
          (wellWorded_ofList (by decide))
      · exact made_collectGpus ht outputs.apps 0 _

theorem made_containerSamples (c : ContainerInventory) :
    ∀ s ∈ containerSamples observedAt c, Made observedAt s := by
  have hdevice : trimSpace ("container:" ++ c.containerID) ≠ "" :=
    trimSpace_append_ne (trimSpace_ofList_cons_ne (by decide) _) _
  rw [containerSamples, List.forall_mem_cons]
  refine ⟨made_numericSample ht hdevice
    (wellWorded_append (wellWorded_ofList (by decide)) c.name) _, ?_⟩
  split
  · exact made_unavailableAlone ht hdevice (wellWorded_ofList (by decide))
  · simp

theorem made_collectContainerInventory {alerted : List String} {answer : InventoryAnswer}
    {samples : List Sample} {containers : List ContainerInventory}
    (h : collectContainerInventory alerted answer observedAt = some (samples, containers)) :
    ∀ s ∈ samples, Made observedAt s := by
  have hunavailable {semantics : String}
      (hwords : wellWorded "container.inventory.available" "inventory-proxy" semantics = true)
      (heq : ([unavailableSample "containers" "container.inventory.available" "state"
        "inventory-proxy" semantics observedAt], []) = (samples, containers)) :
      ∀ s ∈ samples, Made observedAt s := by
    obtain ⟨rfl, -⟩ := Prod.mk.inj heq
    exact made_unavailableAlone ht (trimSpace_ofList_cons_ne (by decide) _) hwords
  simp only [collectContainerInventory] at h
  split at h
  · cases h
  · exact hunavailable (wellWorded_ofList (by decide)) (Option.some.inj h)
  · exact hunavailable (wellWorded_ofList (by decide)) (Option.some.inj h)
  · cases h
  · split at h
    · cases h
    · obtain ⟨inventory, -, heq⟩ := Option.map_eq_some_iff.mp h
      obtain ⟨rfl, -⟩ := Prod.mk.inj heq
      rw [List.forall_mem_cons]
      refine ⟨made_numericSample ht (trimSpace_ofList_cons_ne (by decide) _)
        (wellWorded_ofList (by decide)) _, ?_⟩
      intro s hs
      obtain ⟨c, -, hs⟩ := List.mem_flatMap.mp hs
      exact made_containerSamples ht c s hs

theorem made_collectorUnavailable (name : String) :
    Made observedAt (collectorUnavailable name observedAt) :=
  made_unavailableSample ht (trimSpace_append_ne (trimSpace_ofList_cons_ne (by decide) _) _)
    (wellWorded_ofList (by decide))

/-- Every sample of a collection passes the checks on a single sample. -/
theorem made_collectors (s : Surroundings) :
    ∀ sample ∈ (collectors s observedAt).flatMap (Collected.samples observedAt),
      Made observedAt sample := by
  intro sample hsample
  simp only [collectors, List.flatMap_cons, List.flatMap_nil, List.append_nil,
    List.mem_append] at hsample
  obtain hsample | hsample | hsample := hsample
  · rw [Collected.samples] at hsample
    cases hhost : (collectLinuxHost s.cpu s.files observedAt).1 with
    | none =>
        simp only [hhost, Option.map_none, List.mem_singleton] at hsample
        rw [hsample]
        exact made_collectorUnavailable ht "linux_host"
    | some samples =>
        simp only [hhost, Option.map_some] at hsample
        simp only [collectLinuxHost, Option.bind_eq_some_iff, Option.map_eq_some_iff] at hhost
        obtain ⟨cpu, hcpu, memory, hmemory, rfl⟩ := hhost
        simp only [List.mem_append] at hsample
        obtain ((hsample | hsample) | hsample) | hsample := hsample
        · exact made_collectCPU ht hcpu sample hsample
        · exact made_collectMemory ht hmemory sample hsample
        · exact made_collectTemperatures ht _ sample hsample
        · exact made_collectMountCapacity ht _ _ sample hsample
  · exact made_collectNvidia ht s.nvidia sample hsample
  · rw [Collected.samples] at hsample
    cases hinventory : collectContainerInventory s.alerted s.inventory observedAt with
    | none =>
        simp only [hinventory, List.mem_singleton] at hsample
        rw [hsample]
        exact made_collectorUnavailable ht "container_inventory_proxy"
    | some result =>
        simp only [hinventory] at hsample
        exact made_collectContainerInventory ht hinventory sample hsample

end Wording

section Collection

variable (s : Surroundings) (observedAt : Int)

/-- The samples of one collection. -/
def gathered : List Sample := (collectors s observedAt).flatMap (Collected.samples observedAt)

def hostReading : Collected :=
  ⟨"linux_host", (collectLinuxHost s.cpu s.files observedAt).1.map fun samples => (samples, [])⟩

def inventoryReading : Collected :=
  ⟨"container_inventory_proxy", collectContainerInventory s.alerted s.inventory observedAt⟩

theorem gathered_eq :
    gathered s observedAt = (hostReading s observedAt).samples observedAt ++
      (collectNvidia s.nvidia observedAt ++
        (inventoryReading s observedAt).samples observedAt) := by
  simp only [gathered, collectors, List.flatMap_cons, List.flatMap_nil, List.append_nil]
  rfl

theorem hostReading_slots :
    (((hostReading s observedAt).samples observedAt).map slot).Nodup ∧
      ∀ p ∈ ((hostReading s observedAt).samples observedAt).map slot,
        initial p ∈ [some 'c', some 'm', some 't', some 's'] ∧
          (p.2 ∈ hostMetrics ∨ p = ("collector:linux_host", "collector.availability")) := by
  simp only [Collected.samples, hostReading]
  cases hhost : (collectLinuxHost s.cpu s.files observedAt).1 with
  | none =>
      refine ⟨List.nodup_singleton _, List.forall_mem_singleton.mpr ⟨?_, Or.inr ?_⟩⟩
      · simp [initial, slot, collectorUnavailable, unavailableSample]
      · simp [slot, collectorUnavailable, unavailableSample]
  | some samples =>
      obtain ⟨hnodup, hslot⟩ := linuxHost_slots hhost
      exact ⟨hnodup, fun p hp => ⟨(hslot p hp).1, Or.inl (hslot p hp).2⟩⟩

theorem inventoryReading_slots :
    (((inventoryReading s observedAt).samples observedAt).map slot).Nodup ∧
      ∀ p ∈ ((inventoryReading s observedAt).samples observedAt).map slot,
        initial p = some 'c' ∧ (p.2 ∈ inventoryMetrics ∨
          p = ("collector:container_inventory_proxy", "collector.availability")) := by
  simp only [Collected.samples, inventoryReading]
  cases hinventory : collectContainerInventory s.alerted s.inventory observedAt with
  | none =>
      refine ⟨List.nodup_singleton _, List.forall_mem_singleton.mpr ⟨?_, Or.inr ?_⟩⟩
      · simp [initial, slot, collectorUnavailable, unavailableSample]
      · simp [slot, collectorUnavailable, unavailableSample]
  | some result =>
      obtain ⟨hnodup, hslot, -⟩ := inventory_slots hinventory
      exact ⟨hnodup, fun p hp => ⟨(hslot p hp).1, Or.inl (hslot p hp).2⟩⟩

/-- Different collectors never name the same slot. -/
theorem nodup_gathered_iff :
    ((gathered s observedAt).map slot).Nodup ↔ s.nvidia.Distinct := by
  obtain ⟨hhost, hhostSlot⟩ := hostReading_slots s observedAt
  obtain ⟨hinventory, hinventorySlot⟩ := inventoryReading_slots s observedAt
  have hgpu := initial_collectNvidia observedAt s.nvidia
  have hnames : ∀ n ∈ hostMetrics, n ∉ inventoryMetrics := by decide
  have hunavailable : "collector.availability" ∉ hostMetrics ∧
      "collector.availability" ∉ inventoryMetrics := by decide
  rw [gathered_eq, List.map_append, List.map_append, nodup_append_iff,
    nodup_append_iff_of_view initial,
    nodup_collectNvidia_iff]
  · exact ⟨fun h => h.2.1, fun h => ⟨hhost, h, hinventory⟩⟩
  · intro p hp q hq heq
    have hp := hgpu p hp
    rw [heq, (hinventorySlot q hq).1] at hp
    exact absurd hp (by decide)
  · intro p hp hq
    obtain ⟨hinitial, hname⟩ := hhostSlot p hp
    obtain hq | hq := List.mem_append.mp hq
    · have hq := hgpu p hq
      simp only [List.mem_cons, List.not_mem_nil, or_false] at hinitial hq
      obtain h | h | h | h := hinitial <;> simp [h] at hq
    · obtain ⟨-, hname'⟩ := hinventorySlot p hq
      obtain hname | hname := hname
      · obtain hname' | hname' := hname'
        · exact hnames p.2 hname hname'
        · rw [hname'] at hname
          exact hunavailable.1 hname
      · obtain hname' | hname' := hname'
        · rw [hname] at hname'
          exact hunavailable.2 hname'
        · rw [hname] at hname'
          exact absurd hname' (by decide)

end Collection

/-- The configured identities and the pair of the sequence store. -/
structure Identity.Valid (identity : Identity) : Prop where
  agentID : trimSpace identity.agentID ≠ ""
  hostID : trimSpace identity.hostID ≠ ""
  bootID : trimSpace identity.bootID ≠ ""
  sequence : identity.sequence ≠ 0

/-- The containers of a collection are those of the inventory, which has checked them. -/
theorem collectors_containers (s : Surroundings) (observedAt : Int) :
    ((collectors s observedAt).flatMap Collected.containers).length ≤ maxContainerInventory ∧
      (∀ c ∈ (collectors s observedAt).flatMap Collected.containers, c.Complete) ∧
      (((collectors s observedAt).flatMap Collected.containers).map
        ContainerInventory.containerID).Nodup := by
  have heq : (collectors s observedAt).flatMap Collected.containers =
      (inventoryReading s observedAt).containers := by
    simp only [collectors, List.flatMap_cons, List.flatMap_nil, List.append_nil,
      Collected.containers,
      inventoryReading]
    cases (collectLinuxHost s.cpu s.files observedAt).1 <;> rfl
  rw [heq, Collected.containers, inventoryReading]
  cases hinventory : collectContainerInventory s.alerted s.inventory observedAt with
  | none => exact ⟨by simp, by simp, List.nodup_nil⟩
  | some result =>
      obtain ⟨-, -, hlength, hcomplete, hnodup⟩ := inventory_slots hinventory
      have hbound : maxProxyContainers ≤ maxContainerInventory := by decide
      exact ⟨hlength.trans hbound, hcomplete, hnodup⟩

theorem collectNvidia_ne_nil (outputs : NvidiaOutputs) (observedAt : Int) :
    collectNvidia outputs observedAt ≠ [] := by
  simp only [collectNvidia]
  split
  · simp
  · split
    · simp
    · split
      · simp
      · next hne => exact fun hnil => hne (List.isEmpty_iff.mpr hnil)

theorem gathered_ne_nil (s : Surroundings) (observedAt : Int) : gathered s observedAt ≠ [] := by
  rw [gathered_eq]
  simp [collectNvidia_ne_nil]

/-- The fields that do not depend on the readings are in order. -/
theorem collectedEnvelope_valid_iff {identity : Identity} (hidentity : identity.Valid)
    {observedAt : Int} (ht : isZero observedAt = false) (elapsed : UInt64) {samples : List Sample}
    (hne : samples ≠ []) (hcount : samples.length ≤ maxMetricValues)
    (hmade : ∀ sample ∈ samples, Made observedAt sample) {containers : List ContainerInventory}
    (hlength : containers.length ≤ maxContainerInventory) (hcomplete : ∀ c ∈ containers, c.Complete)
    (hcontainers : (containers.map ContainerInventory.containerID).Nodup) :
    (collectedEnvelope identity observedAt elapsed samples containers).validate = .ok () ↔
      (samples.map Sample.key).Nodup := by
  have hpositive : 0 < samples.length := List.length_pos_iff.mpr hne
  have hlimit : maxMetricValues < 2 ^ 32 := by decide
  have hsize : (UInt32.ofNat samples.length).toNat = samples.length := by
    rw [UInt32.toNat_ofNat', Nat.mod_eq_of_lt (by omega)]
  have hnonzero : UInt32.ofNat samples.length ≠ 0 := by
    intro hzero
    rw [hzero] at hsize
    exact absurd hsize (by simp; omega)
  rw [Envelope.validate_eq_ok]
  constructor
  · exact fun h => h.samplesDistinct
  · intro hkeys
    exact {
      schemaVersion := rfl
      codec := rfl
      agentID := hidentity.agentID
      hostID := hidentity.hostID
      bootID := hidentity.bootID
      sequence := hidentity.sequence
      observedAt := ht
      compressedBytes :=
        ⟨by simp [collectedEnvelope], by simp [collectedEnvelope, maxCompressedBytes]⟩
      uncompressedBytes :=
        ⟨by simp [collectedEnvelope], by simp [collectedEnvelope, maxUncompressedBytes]⟩
      metricValueCount := ⟨hnonzero, hsize.le.trans hcount⟩
      sampleCount := hsize
      sampleValues := hsize
      checksumLength := by
        simp only [collectedEnvelope]
        rw [byteLength_hexEncode, List.Vector.toList_length]
      checksumHex := isHexString_hexEncode _
      containerCount := hlength
      containers := hcomplete
      containersDistinct := hcontainers
      samples := fun sample hsample => (hmade sample hsample).valid
      samplesDistinct := hkeys }

theorem collectOnce_collectors (identity : Identity) (observedAt : Int) (elapsed : UInt64)
    (s : Surroundings) :
    collectOnce identity observedAt elapsed (collectors s observedAt) =
      some (collectedEnvelope identity observedAt elapsed (gathered s observedAt)
        ((collectors s observedAt).flatMap Collected.containers)) := by
  rw [collectOnce, if_neg (by simpa [gathered] using gathered_ne_nil s observedAt)]
  rfl

/-- The envelope of a collection passes `Validate` exactly if `nvidia-smi` names no GPU and no
process twice. -/
theorem collection_deliverable_iff (identity : Identity) (hidentity : identity.Valid)
    (observedAt : Int) (ht : isZero observedAt = false) (elapsed : UInt64) (s : Surroundings)
    (hcount : (gathered s observedAt).length ≤ maxMetricValues) :
    ∃ envelope, collectOnce identity observedAt elapsed (collectors s observedAt) = some envelope ∧
      (envelope.validate = .ok () ↔ s.nvidia.Distinct) := by
  have hmade : ∀ sample ∈ gathered s observedAt, Made observedAt sample := made_collectors ht s
  obtain ⟨hlength, hcomplete, hcontainers⟩ := collectors_containers s observedAt
  have hne := gathered_ne_nil s observedAt
  refine ⟨_, collectOnce_collectors identity observedAt elapsed s, ?_⟩
  rw [collectedEnvelope_valid_iff hidentity ht elapsed hne hcount hmade hlength hcomplete hcontainers,
    nodup_keys_iff hmade, nodup_gathered_iff]

/-- A host whose files are readable but say nothing, with two GPUs of different indices and a
given list of processes. -/
def twoGpus (apps : String) : Surroundings where
  cpu := ⟨0, 0, false⟩
  files := ⟨some "cpu 1 2 3 4", some "", some "", [], List.nodup_nil, fun _ => none⟩
  nvidia := ⟨true, some "0, A, 5, 40, 16, 8\n1, A, N/A, 41, 16, 2", fun _ => some apps⟩
  alerted := []
  inventory := .unreachable

def oneIdentity : Identity := ⟨"agent-one", "host-one", "boot", 1⟩

theorem oneIdentity_valid : oneIdentity.Valid :=
  ⟨trimSpace_ofList_cons_ne (by decide) _, trimSpace_ofList_cons_ne (by decide) _,
    trimSpace_ofList_cons_ne (by decide) _, by decide⟩

theorem processes_apart_deliverable :
    ∃ envelope, collectOnce oneIdentity 0 0 (collectors (twoGpus "7, 100\n9, 50") 0) =
      some envelope ∧ envelope.validate = .ok () := by
  obtain ⟨envelope, honce, hiff⟩ := collection_deliverable_iff oneIdentity oneIdentity_valid 0
    (by decide) 0 (twoGpus "7, 100\n9, 50") (by decide +kernel)
  exact ⟨envelope, honce, hiff.mpr ⟨by decide, by decide⟩⟩

/-- A process that uses both GPUs is listed once for each, and no reading is delivered. -/
theorem process_on_two_gpus_undeliverable :
    (collectOnce oneIdentity 0 0 (collectors (twoGpus "7, 100\n7, 50") 0)).map
      (fun envelope => envelope.validate.isOk) = some false := by
  have hmade : ∀ sample ∈ gathered (twoGpus "7, 100\n7, 50") 0, Made 0 sample :=
    made_collectors (by decide) (twoGpus "7, 100\n7, 50")
  have hrepeated : ¬ ((gathered (twoGpus "7, 100\n7, 50") 0).map Sample.key).Nodup := by
    rw [nodup_keys_iff hmade, nodup_gathered_iff]
    exact fun hdistinct => absurd hdistinct.processes (by decide)
  rw [collectOnce_collectors, Option.map_some]
  cases hvalidate : (collectedEnvelope oneIdentity 0 0 (gathered (twoGpus "7, 100\n7, 50") 0)
      ((collectors (twoGpus "7, 100\n7, 50") 0).flatMap Collected.containers)).validate with
  | error e => rfl
  | ok _ => exact absurd (Envelope.validate_eq_ok.mp hvalidate).samplesDistinct hrepeated

end NodeScope.Agent
