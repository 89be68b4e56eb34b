import NodeScope.Agent.LinuxAgent
import NodeScope.Agent.RuntimeEndpoints

/-!
# When the agent can deliver

Every collector of the agent names devices and metrics of its own, and a configuration that was
accepted names no process and no runtime twice. So what `main` puts together is refused by
`Validate` only for what `nvidia-smi` reports twice, or for its size.
-/

namespace NodeScope.Agent

open Domain Lib Lib.Text Lib.Distinct Lib.Time Telemetry

section Area

/-- The collector that may name a slot, by its place in the order of `main`. -/
def area (p : String × String) : Nat :=
  if p.2 = "collector.availability" then
    if p.1 = "collector:linux_host" then 0
    else if p.1 = "collector:selected_processes" then 4
    else 7
  else if p.2 ∈ ["npu.availability", "npu.utilization"] then 3
  else if p.2 = "process.selected.running" then 4
  else if p.2 = "inference.runtime.running" then 5
  else if p.2 = "inference.runtime.api_available" then 6
  else if p.2 ∈ inventoryMetrics then 7
  else if initial p = some 'n' ∨ p.1 = "gpu-nvidia" then 2
  else if p.2 ∈ hostMetrics then 0
  else 1

/-- The metrics whose devices decide the area. -/
def sharedMetrics : List String := hostMetrics ++ perProcessMetric :: gpuMetrics

/-- The area of a slot with such a metric. -/
theorem area_of_mem {p : String × String} (h : p.2 ∈ sharedMetrics) :
    area p = if initial p = some 'n' ∨ p.1 = "gpu-nvidia" then 2
      else if p.2 ∈ hostMetrics then 0 else 1 := by
  have hother : ∀ name ∈ sharedMetrics, name ≠ "collector.availability" ∧
      name ∉ ["npu.availability", "npu.utilization"] ∧ name ≠ "process.selected.running" ∧
      name ≠ "inference.runtime.running" ∧ name ≠ "inference.runtime.api_available" ∧
      name ∉ inventoryMetrics := by decide
  obtain ⟨hcollector, hnpu, hselected, hrunning, hapi, hinventory⟩ := hother p.2 h
  rw [area, if_neg hcollector, if_neg hnpu, if_neg hselected, if_neg hrunning, if_neg hapi,
    if_neg hinventory]

end Area

section Slots

variable (observedAt : Int)

theorem area_hostReading (s : Surroundings) :
    ∀ p ∈ ((hostReading s observedAt).samples observedAt).map slot, area p = 0 := by
  intro p hp
  obtain ⟨hinitial, hname | rfl⟩ := (hostReading_slots s observedAt).2 p hp
  · have hdevice : ¬(initial p = some 'n' ∨ p.1 = "gpu-nvidia") := by
      rintro (hn | hgpu)
      · rw [hn] at hinitial
        exact absurd hinitial (by decide)
      · rw [initial, hgpu] at hinitial
        exact absurd hinitial (by decide)
    rw [area_of_mem (List.mem_append_left _ hname), if_neg hdevice, if_pos hname]
  · rfl

theorem area_inventoryReading (s : Surroundings) :
    ∀ p ∈ ((inventoryReading s observedAt).samples observedAt).map slot, area p = 7 := by
  intro p hp
  obtain ⟨-, hname | rfl⟩ := (inventoryReading_slots s observedAt).2 p hp
  · have hother : ∀ name ∈ inventoryMetrics, name ≠ "collector.availability" ∧
        name ∉ ["npu.availability", "npu.utilization"] ∧ name ≠ "process.selected.running" ∧
        name ≠ "inference.runtime.running" ∧ name ≠ "inference.runtime.api_available" := by decide
    obtain ⟨hcollector, hnpu, hselected, hrunning, hapi⟩ := hother p.2 hname
    rw [area, if_neg hcollector, if_neg hnpu, if_neg hselected, if_neg hrunning, if_neg hapi,
      if_pos hname]
  · rfl

theorem area_collectNvidia (outputs : NvidiaOutputs) :
    ∀ p ∈ (collectNvidia outputs observedAt).map slot, area p = 2 := by
  have hunavailable (semantics : String) : ∀ p ∈ [unavailableSample "gpu-nvidia" "gpu.availability"
      "state" "nvidia-smi" semantics observedAt].map slot, area p = 2 := by
    have harea : area ("gpu-nvidia", "gpu.availability") = 2 := by decide
    exact List.forall_mem_singleton.mpr harea
  simp only [collectNvidia]
  split
  · exact hunavailable _
  · split
    · exact hunavailable _
    · split
      · exact hunavailable _
      · intro p hp
        rw [slots_collectGpus, List.mem_flatMap] at hp
        obtain ⟨report, -, hp⟩ := hp
        rw [reportSlots, List.mem_append, List.mem_map, List.mem_map] at hp
        obtain ⟨name, hname, rfl⟩ | ⟨name, -, rfl⟩ := hp
        · rw [area_of_mem (List.mem_append_right _ (List.mem_cons_of_mem _ hname)), if_pos]
          simp [initial]
        · rw [area_of_mem (List.mem_append_right _ List.mem_cons_self), if_pos]
          simp [initial]

end Slots

section Drm

variable (observedAt : Int) (files : DrmFiles)

def drmMetrics : List String :=
  ["gpu.availability", "gpu.utilization", "gpu.dedicated_vram.total_bytes",
    "gpu.dedicated_vram.used_bytes", perProcessMetric]

theorem slot_drmSample (deviceID name unit : String) (value : Option Float64)
    (reported missing : String) :
    slot (drmSample deviceID name unit value reported missing observedAt) = (deviceID, name) := by
  cases value <;> rfl

theorem slots_cardSamples (card : String) :
    ((cardSamples files observedAt card).map slot).Sublist (drmMetrics.map (Prod.mk card)) := by
  rw [cardSamples]
  split
  · rw [collectAMDDRM, List.map_append]
    simp only [List.map_cons, List.map_nil, slot_drmSample]
    split
    · exact List.Sublist.refl _
    · exact List.sublist_append_left _ [(card, perProcessMetric)]
  · exact List.nil_sublist _

theorem isCard_of_mem {card : String} (h : card ∈ cards files) : card.toList.head? = some 'c' := by
  have hcard := (List.mem_filter.mp (List.mem_mergeSort.mp h)).2
  rw [isCard] at hcard
  split at hcard
  · next heq => rw [heq]; rfl
  · cases hcard

/-- The cards repeat no slot, and keep to their own. -/
theorem drm_slots :
    ((collectDrm files observedAt).map slot).Nodup ∧
      ∀ p ∈ (collectDrm files observedAt).map slot, area p = 1 := by
  rw [collectDrm]
  split
  · have harea : area ("gpu-host", "gpu.availability") = 1 := by decide
    exact ⟨List.nodup_singleton _, List.forall_mem_singleton.mpr harea⟩
  · have hsub := map_flatMap_sublist (slots_cardSamples observedAt files)
      (cards files)
    have hcards : (cards files).Nodup :=
      (List.mergeSort_perm _ _).nodup_iff.mpr (files.namesDistinct.filter _)
    constructor
    · exact List.Nodup.sublist hsub ((nodup_labels_iff (by decide) (by decide)).mpr hcards)
    · intro p hp
      obtain ⟨hdevice, hname⟩ := mem_labels.mp (hsub.subset hp)
      have hinitial : initial p = some 'c' := isCard_of_mem files hdevice
      have hshared : ∀ name ∈ drmMetrics, name ∈ sharedMetrics ∧ name ∉ hostMetrics := by decide
      obtain ⟨hmem, hhost⟩ := hshared p.2 hname
      rw [area_of_mem hmem, if_neg, if_neg hhost]
      rintro (hn | hgpu)
      · rw [hinitial] at hn
        exact absurd hn (by decide)
      · rw [initial, hgpu] at hinitial
        exact absurd hinitial (by decide)

end Drm

section Others

variable (observedAt : Int)

theorem xdna_slots (xrtSmi : XrtSmi) :
    ((collectXdna xrtSmi observedAt).map slot).Nodup ∧
      ∀ p ∈ (collectXdna xrtSmi observedAt).map slot, area p = 3 := by
  have hslots : (collectXdna xrtSmi observedAt).map slot =
      [("npu-0", "npu.availability"), ("npu-0", "npu.utilization")] := by
    cases xrtSmi <;> rfl
  rw [hslots]
  decide

/-- Devices that are named after distinct texts, all with one metric. -/
theorem named_slots (start : String) {name : String} {n : Nat} {texts : List String}
    (harea : ∀ device, area (device, name) = n) (h : texts.Nodup) :
    (texts.map fun text => (start ++ text, name)).Nodup ∧
      ∀ p ∈ texts.map fun text => (start ++ text, name), area p = n := by
  constructor
  · exact h.map fun a b heq => append_injective start (Prod.mk.inj heq).1
  · intro p hp
    obtain ⟨text, -, rfl⟩ := List.mem_map.mp hp
    exact harea _

theorem area_selected (device : String) : area (device, "process.selected.running") = 4 := by
  simp [area]

theorem area_running (device : String) : area (device, "inference.runtime.running") = 5 := by
  simp [area]

theorem area_api (device : String) : area (device, "inference.runtime.api_available") = 6 := by
  simp [area]

theorem selected_slots {processNames : List String} (hnames : processNames.Nodup)
    {table : Option ProcTable} {samples : List Sample}
    (h : collectSelectedProcesses processNames table observedAt = some samples) :
    (samples.map slot).Nodup ∧ ∀ p ∈ samples.map slot, area p = 4 := by
  rw [collectSelectedProcesses] at h
  split at h
  · obtain rfl := Option.some.inj h
    exact ⟨List.nodup_singleton _, List.forall_mem_singleton.mpr (area_selected _)⟩
  · obtain ⟨entries, -, rfl⟩ := Option.map_eq_some_iff.mp h
    have hslots : slot ∘ (fun name =>
        if (commNames entries).contains name then
          numericSample ("process:" ++ name) "process.selected.running" "state" (Float64.ofNat 1)
            "procfs" "selected process is running" observedAt
        else
          numericSample ("process:" ++ name) "process.selected.running" "state" (Float64.ofNat 0)
            "procfs" "selected process is not running" observedAt) =
        fun name => ("process:" ++ name, "process.selected.running") := by
      funext name
      rw [Function.comp_apply]
      split <;> rfl
    rw [List.map_map, hslots]
    exact named_slots "process:" area_selected hnames

theorem selectedReading_slots {processNames : List String} (hnames : processNames.Nodup)
    (table : Option ProcTable) :
    let reading : Collected := ⟨"selected_processes",
      (collectSelectedProcesses processNames table observedAt).map fun samples => (samples, [])⟩
    ((reading.samples observedAt).map slot).Nodup ∧
      ∀ p ∈ (reading.samples observedAt).map slot, area p = 4 := by
  intro reading
  simp only [reading, Collected.samples]
  cases h : collectSelectedProcesses processNames table observedAt with
  | none =>
      have harea : area ("collector:selected_processes", "collector.availability") = 4 := by decide
      exact ⟨List.nodup_singleton _, List.forall_mem_singleton.mpr harea⟩
  | some samples => exact selected_slots observedAt hnames h

theorem runtimeProcesses_slots (isPrint : Char → Bool) {processNames : List String}
    (hnames : processNames.Nodup) (table : Option ProcTable) :
    ((collectRuntimeProcesses isPrint processNames table observedAt).map slot).Nodup ∧
      ∀ p ∈ (collectRuntimeProcesses isPrint processNames table observedAt).map slot,
        area p = 5 := by
  simp only [collectRuntimeProcesses]
  split
  · exact ⟨List.nodup_singleton _, List.forall_mem_singleton.mpr (area_running _)⟩
  · cases table with
    | none => exact ⟨List.nodup_singleton _, List.forall_mem_singleton.mpr (area_running _)⟩
    | some entries =>
        have hslot (name : String) : slot (
            if (commNames entries).contains name then
              numericSample ("runtime:" ++ name) "inference.runtime.running" "state"
                (Float64.ofNat 1) "procfs-comm" ("configured inference runtime process " ++
                  quoteText isPrint name ++ " is running") observedAt
            else
              numericSample ("runtime:" ++ name) "inference.runtime.running" "state"
                (Float64.ofNat 0) "procfs-comm" ("configured inference runtime process " ++
                  quoteText isPrint name ++ " is not running") observedAt) =
            ("runtime:" ++ name, "inference.runtime.running") := by
          split <;> rfl
        simp only [List.map_map, Function.comp_def, hslot]
        exact named_slots "runtime:" area_running ((List.mergeSort_perm _ _).nodup_iff.mpr hnames)

theorem runtimeEndpoints_slots {endpoints : List RuntimeEndpoint}
    (hids : (endpoints.map RuntimeEndpoint.id).Nodup) (answers : RuntimeEndpoint → RuntimeAnswer) :
    ((collectRuntimeEndpoints endpoints answers observedAt).map slot).Nodup ∧
      ∀ p ∈ (collectRuntimeEndpoints endpoints answers observedAt).map slot, area p = 6 := by
  rw [collectRuntimeEndpoints]
  split
  · exact ⟨List.nodup_singleton _, List.forall_mem_singleton.mpr (area_api _)⟩
  · have hslot (endpoint : RuntimeEndpoint) : slot (runtimeSample answers observedAt endpoint) =
        ("runtime-api:" ++ endpoint.id, "inference.runtime.api_available") := by
      rw [runtimeSample]
      split
      · rfl
      · rfl
      · split <;> rfl
    have hperm := (List.mergeSort_perm endpoints fun a b => decide (a.id ≤ b.id)).map
      RuntimeEndpoint.id
    have hnamed := named_slots "runtime-api:" area_api (hperm.nodup_iff.mpr hids)
    rw [List.map_map] at hnamed
    rw [List.map_map, funext (f := slot ∘ runtimeSample answers observedAt) hslot]
    exact hnamed

end Others

section Wording

variable {observedAt : Int} (ht : isZero observedAt = false)
include ht

theorem made_experimentalNumericSample {deviceID name unit source semantics : String}
    (hdevice : trimSpace deviceID ≠ "") (hwords : wellWorded name source semantics = true)
    (value : Float64) : Made observedAt
      (experimentalNumericSample deviceID name unit value source semantics observedAt) := by
  have hmade : Made observedAt
      (numericSample deviceID name unit value source semantics observedAt) :=
    made_numericSample ht hdevice hwords value
  obtain ⟨hname, -, hsource, hsemantics, -, -, -⟩ :=
    MetricValue.validate_eq_ok.mp hmade.valid.2
  refine ⟨⟨hdevice, MetricValue.validate_eq_ok.mpr ?_⟩, rfl, hmade.name⟩
  exact ⟨hname, rfl, hsource, hsemantics, ht,
    by simp [experimentalNumericSample, MetricQuality.withoutValue], fun _ => rfl⟩

theorem made_drmSample {deviceID name unit : String} (hdevice : trimSpace deviceID ≠ "")
    (hwords : wellWorded name "sysfs-experimental" drmQualification = true) (value : Option Float64)
    (reported missing : String) :
    Made observedAt (drmSample deviceID name unit value reported missing observedAt) := by
  cases value with
  | none => exact made_unavailableSample ht hdevice (wellWorded_append hwords missing)
  | some v => exact made_experimentalNumericSample ht hdevice (wellWorded_append hwords reported) v

theorem made_collectDrm (files : DrmFiles) :
    ∀ s ∈ collectDrm files observedAt, Made observedAt s := by
  rw [collectDrm]
  split
  · exact made_unavailableAlone ht (trimSpace_ofList_cons_ne (by decide) _)
      (wellWorded_ofList (by decide))
  · intro s hs
    obtain ⟨card, hcard, hs⟩ := List.mem_flatMap.mp hs
    have hdevice : trimSpace card ≠ "" := by
      obtain ⟨rest, hrest⟩ := List.head?_eq_some_iff.mp (isCard_of_mem files hcard)
      rw [← String.ofList_toList (s := card), hrest]
      exact trimSpace_ofList_cons_ne (by decide) rest
    have hwords : ∀ name ∈ drmMetrics,
        wellWorded name "sysfs-experimental" drmQualification = true := by decide +kernel
    rw [cardSamples] at hs
    split at hs
    · rw [collectAMDDRM, List.mem_append] at hs
      obtain hs | hs := hs
      · simp only [List.mem_cons, List.not_mem_nil, or_false] at hs
        obtain rfl | rfl | rfl | rfl := hs
        · exact made_experimentalNumericSample ht hdevice
            (wellWorded_append (hwords _ (by decide)) _) _
        · exact made_drmSample ht hdevice (hwords _ (by decide)) ..
        · exact made_drmSample ht hdevice (hwords _ (by decide)) ..
        · exact made_drmSample ht hdevice (hwords _ (by decide)) ..
      · split at hs
        · rw [List.mem_singleton.mp hs]
          exact made_unavailableSample ht hdevice (wellWorded_append (hwords _ (by decide)) _)
        · cases hs
    · cases hs

theorem made_collectXdna (xrtSmi : XrtSmi) :
    ∀ s ∈ collectXdna xrtSmi observedAt, Made observedAt s := by
  have hdevice : trimSpace "npu-0" ≠ "" := trimSpace_ofList_cons_ne (by decide) _
  have hwords : ∀ name ∈ ["npu.availability", "npu.utilization"],
      wellWorded name "xrt-smi-experimental" xdnaQualification = true := by decide +kernel
  have hunavailable (name unit missing : String) (h : name ∈ ["npu.availability", "npu.utilization"]) :
      Made observedAt (npuUnavailable name unit missing observedAt) :=
    made_unavailableSample ht hdevice (wellWorded_append (hwords name h) missing)
  cases xrtSmi with
  | absent =>
      simp only [collectXdna, List.forall_mem_cons]
      exact ⟨hunavailable _ _ _ (by decide), hunavailable _ _ _ (by decide), by simp⟩
  | unreadable =>
      simp only [collectXdna, List.forall_mem_cons]
      exact ⟨hunavailable _ _ _ (by decide), hunavailable _ _ _ (by decide), by simp⟩
  | examined =>
      simp only [collectXdna, List.forall_mem_cons]
      exact ⟨made_experimentalNumericSample ht hdevice
        (wellWorded_append (hwords _ (by decide)) _) _, hunavailable _ _ _ (by decide), by simp⟩

theorem made_collectSelectedProcesses {processNames : List String} {table : Option ProcTable}
    {samples : List Sample}
    (h : collectSelectedProcesses processNames table observedAt = some samples) :
    ∀ s ∈ samples, Made observedAt s := by
  rw [collectSelectedProcesses] at h
  split at h
  · obtain rfl := Option.some.inj h
    exact made_unavailableAlone ht (trimSpace_ofList_cons_ne (by decide) _)
      (wellWorded_ofList (by decide))
  · obtain ⟨entries, -, rfl⟩ := Option.map_eq_some_iff.mp h
    intro s hs
    obtain ⟨name, -, rfl⟩ := List.mem_map.mp hs
    have hdevice : trimSpace ("process:" ++ name) ≠ "" :=
      trimSpace_append_ne (trimSpace_ofList_cons_ne (by decide) _) name
    split
    · exact made_numericSample ht hdevice (wellWorded_ofList (by decide)) _
    · exact made_numericSample ht hdevice (wellWorded_ofList (by decide)) _

theorem made_collectRuntimeProcesses (isPrint : Char → Bool) (processNames : List String)
    (table : Option ProcTable) :
    ∀ s ∈ collectRuntimeProcesses isPrint processNames table observedAt, Made observedAt s := by
  simp only [collectRuntimeProcesses]
  split
  · exact made_unavailableAlone ht (trimSpace_ofList_cons_ne (by decide) _)
      (wellWorded_ofList (by decide))
  · cases table with
    | none =>
        exact made_unavailableAlone ht (trimSpace_ofList_cons_ne (by decide) _)
          (wellWorded_ofList (by decide))
    | some entries =>
        intro s hs
        obtain ⟨name, -, rfl⟩ := List.mem_map.mp hs
        have hdevice : trimSpace ("runtime:" ++ name) ≠ "" :=
          trimSpace_append_ne (trimSpace_ofList_cons_ne (by decide) _) name
        have hstart : wellWorded "inference.runtime.running" "procfs-comm"
            ("configured inference runtime process " ++ quoteText isPrint name) = true :=
          wellWorded_append (wellWorded_ofList (by decide)) _
        split
        · exact made_numericSample ht hdevice (wellWorded_append hstart _) _
        · exact made_numericSample ht hdevice (wellWorded_append hstart _) _

theorem made_collectRuntimeEndpoints (endpoints : List RuntimeEndpoint)
    (answers : RuntimeEndpoint → RuntimeAnswer) :
    ∀ s ∈ collectRuntimeEndpoints endpoints answers observedAt, Made observedAt s := by
  rw [collectRuntimeEndpoints]
  split
  · exact made_unavailableAlone ht (trimSpace_ofList_cons_ne (by decide) _)
      (wellWorded_ofList (by decide))
  · intro s hs
    obtain ⟨endpoint, -, rfl⟩ := List.mem_map.mp hs
    have hdevice : trimSpace ("runtime-api:" ++ endpoint.id) ≠ "" :=
      trimSpace_append_ne (trimSpace_ofList_cons_ne (by decide) _) endpoint.id
    have hwords : wellWorded "inference.runtime.api_available" "openai-compatible-v1-models"
        ("configured " ++ endpoint.kind ++
          " endpoint responded to metadata-only availability check") = true :=
      wellWorded_append (wellWorded_append (wellWorded_ofList (by decide)) _) _
    rw [runtimeSample]
    split
    · exact made_unavailableSample ht hdevice (wellWorded_ofList (by decide))
    · exact made_unavailableSample ht hdevice (wellWorded_ofList (by decide))
    · split
      · exact made_numericSample ht hdevice hwords _
      · exact made_unavailableSample ht hdevice (wellWorded_ofList (by decide))

end Wording

section Collection

/-- What an accepted configuration promises of its settings. -/
structure AgentSettings.Accepted (settings : AgentSettings) : Prop where
  agentID : trimSpace settings.agentID ≠ ""
  hostID : trimSpace settings.hostID ≠ ""
  selectedProcesses : settings.selectedProcesses.Nodup
  inferenceRuntimeProcesses : settings.inferenceRuntimeProcesses.Nodup
  inferenceRuntimeEndpoints : (settings.inferenceRuntimeEndpoints.map RuntimeEndpoint.id).Nodup

variable {settings : AgentSettings} (s : LinuxSurroundings) (observedAt : Int)

/-- The samples of one collection of the agent. -/
def agentSamples (settings : AgentSettings) : List Sample :=
  (linuxCollectors settings s observedAt).flatMap (Collected.samples observedAt)

/-- The slots of the collectors. -/
def agentSlots (settings : AgentSettings) : List (List (String × String)) :=
  (linuxCollectors settings s observedAt).map fun c => (c.samples observedAt).map slot

theorem slots_agentSamples :
    (agentSamples s observedAt settings).map slot = (agentSlots s observedAt settings).flatten := by
  rw [agentSamples, agentSlots, List.map_flatMap, List.flatMap_def]

/-- Only the readings of `nvidia-smi` can repeat a slot. -/
theorem nodup_agentSamples_iff (h : settings.Accepted) :
    ((agentSamples s observedAt settings).map slot).Nodup ↔ s.nvidia.Distinct := by
  obtain ⟨hdrm, hdrmArea⟩ := drm_slots observedAt s.drm
  obtain ⟨hxdna, hxdnaArea⟩ := xdna_slots observedAt s.xrtSmi
  obtain ⟨hselected, hselectedArea⟩ :=
    selectedReading_slots observedAt h.selectedProcesses s.selectedTable
  obtain ⟨hrunning, hrunningArea⟩ := runtimeProcesses_slots observedAt s.isPrint
    h.inferenceRuntimeProcesses s.runtimeTable
  obtain ⟨hapi, hapiArea⟩ :=
    runtimeEndpoints_slots observedAt h.inferenceRuntimeEndpoints s.runtimes
  have hhost := area_hostReading observedAt (s.shown settings)
  have hinventory := area_inventoryReading observedAt (s.shown settings)
  have hnvidia := area_collectNvidia observedAt s.nvidia
  have hplaced : Placed area 0 (agentSlots s observedAt settings) := by
    rw [agentSlots, linuxCollectors]
    cases settings.containerInventoryEnabled with
    | false => exact ⟨hhost, hdrmArea, hnvidia, hxdnaArea, hselectedArea, hrunningArea, hapiArea,
        trivial⟩
    | true => exact ⟨hhost, hdrmArea, hnvidia, hxdnaArea, hselectedArea, hrunningArea, hapiArea,
        hinventory, trivial⟩
  have hhostNodup := (hostReading_slots (s.shown settings) observedAt).1
  have hinventoryNodup := (inventoryReading_slots (s.shown settings) observedAt).1
  rw [slots_agentSamples, hplaced.nodup_flatten_iff, ← nodup_collectNvidia_iff, agentSlots,
    linuxCollectors, List.forall_mem_map, List.forall_mem_append]
  simp only [List.forall_mem_cons]
  constructor
  · exact fun hall => hall.1.2.2.1
  · intro hnvidiaNodup
    refine ⟨⟨hhostNodup, hdrm, hnvidiaNodup, hxdna, hselected, hrunning, hapi, by simp⟩, ?_⟩
    split
    · exact List.forall_mem_singleton.mpr hinventoryNodup
    · simp

/-- Every sample of the agent passes the checks on a single sample. -/
theorem made_agentSamples (settings : AgentSettings) {observedAt : Int}
    (ht : isZero observedAt = false) :
    ∀ sample ∈ agentSamples s observedAt settings, Made observedAt sample := by
  have hthree := made_collectors ht (s.shown settings)
  simp only [collectors, List.flatMap_cons, List.flatMap_nil, List.append_nil,
    List.forall_mem_append] at hthree
  obtain ⟨hhost, hnvidia, hinventory⟩ := hthree
  have hselected : ∀ sample ∈ Collected.samples observedAt ⟨"selected_processes",
      (collectSelectedProcesses settings.selectedProcesses s.selectedTable observedAt).map
        fun samples => (samples, [])⟩, Made observedAt sample := by
    rw [Collected.samples]
    cases h : collectSelectedProcesses settings.selectedProcesses s.selectedTable observedAt with
    | none => exact List.forall_mem_singleton.mpr (made_collectorUnavailable ht _)
    | some samples => exact made_collectSelectedProcesses ht h
  rw [agentSamples, linuxCollectors, List.flatMap_append, List.forall_mem_append]
  simp only [List.flatMap_cons, List.flatMap_nil, List.forall_mem_append]
  refine ⟨⟨hhost, made_collectDrm ht s.drm, hnvidia, made_collectXdna ht s.xrtSmi, hselected,
    made_collectRuntimeProcesses ht s.isPrint _ s.runtimeTable,
    made_collectRuntimeEndpoints ht _ s.runtimes, by simp⟩, ?_⟩
  split
  · rw [List.flatMap_singleton]
    exact hinventory
  · simp

theorem agentSamples_ne_nil (settings : AgentSettings) : agentSamples s observedAt settings ≠ [] := by
  intro hnil
  have hnvidia : ∀ sample ∈ collectNvidia s.nvidia observedAt,
      sample ∈ agentSamples s observedAt settings := by
    intro sample hsample
    refine List.mem_flatMap.mpr ⟨⟨"nvidia_smi", some (collectNvidia s.nvidia observedAt, [])⟩, ?_,
      hsample⟩
    exact List.mem_append_left _
      (List.mem_cons_of_mem _ (List.mem_cons_of_mem _ List.mem_cons_self))
  obtain ⟨sample, hsample⟩ :=
    List.exists_mem_of_ne_nil _ (collectNvidia_ne_nil s.nvidia observedAt)
  have hmem := hnvidia sample hsample
  rw [hnil] at hmem
  cases hmem

/-- The containers of a collection are those of the inventory, if it is enabled. -/
theorem linuxCollectors_containers (settings : AgentSettings) :
    (linuxCollectors settings s observedAt).flatMap Collected.containers =
      if settings.containerInventoryEnabled then
        (collectors (s.shown settings) observedAt).flatMap Collected.containers
      else [] := by
  have hhost : (hostReading (s.shown settings) observedAt).containers = [] := by
    rw [Collected.containers, hostReading]
    cases (collectLinuxHost (s.shown settings).cpu (s.shown settings).files observedAt).1 <;> rfl
  have hselected : Collected.containers ⟨"selected_processes",
      (collectSelectedProcesses settings.selectedProcesses s.selectedTable observedAt).map
        fun samples => (samples, [])⟩ = [] := by
    rw [Collected.containers]
    cases collectSelectedProcesses settings.selectedProcesses s.selectedTable observedAt <;> rfl
  have hcollectors : (collectors (s.shown settings) observedAt).flatMap Collected.containers =
      (inventoryReading (s.shown settings) observedAt).containers := by
    calc (collectors (s.shown settings) observedAt).flatMap Collected.containers
        = (hostReading (s.shown settings) observedAt).containers ++
            ([] ++ ((inventoryReading (s.shown settings) observedAt).containers ++ [])) := rfl
      _ = (inventoryReading (s.shown settings) observedAt).containers := by
          rw [hhost, List.nil_append, List.nil_append, List.append_nil]
  rw [linuxCollectors, List.flatMap_append, hcollectors]
  simp only [List.flatMap_cons, List.flatMap_nil, hhost, hselected]
  simp only [Collected.containers, List.nil_append]
  split <;> simp [Collected.containers]

theorem containers_valid (settings : AgentSettings) :
    ((linuxCollectors settings s observedAt).flatMap Collected.containers).length ≤
        maxContainerInventory ∧
      (∀ c ∈ (linuxCollectors settings s observedAt).flatMap Collected.containers, c.Complete) ∧
      (((linuxCollectors settings s observedAt).flatMap Collected.containers).map
        ContainerInventory.containerID).Nodup := by
  rw [linuxCollectors_containers]
  split
  · exact collectors_containers (s.shown settings) observedAt
  · simp

theorem collectOnce_linuxCollectors (identity : Identity) (elapsed : UInt64)
    (settings : AgentSettings) :
    collectOnce identity observedAt elapsed (linuxCollectors settings s observedAt) =
      some (collectedEnvelope identity observedAt elapsed (agentSamples s observedAt settings)
        ((linuxCollectors settings s observedAt).flatMap Collected.containers)) := by
  have hne := agentSamples_ne_nil s observedAt settings
  rw [collectOnce, if_neg (by simpa [agentSamples] using hne)]
  rfl

/-- An envelope with more samples than `Validate` allows is refused, whatever its count says. -/
theorem length_of_valid {identity : Identity} {elapsed : UInt64} {samples : List Sample}
    {containers : List ContainerInventory}
    (h : (collectedEnvelope identity observedAt elapsed samples containers).validate = .ok ()) :
    samples.length ≤ maxMetricValues := by
  have hvalid := Envelope.validate_eq_ok.mp h
  calc samples.length = (UInt32.ofNat samples.length).toNat := hvalid.sampleValues.symm
    _ ≤ maxMetricValues := hvalid.metricValueCount.2

end Collection

section Configured

open NodeScope.Agent.Configuration Lib.Check Lib.Runes Lib.Url

variable {table : CaseTable} {files : CredentialFiles} {getenv : Decimal.Environment}
  {config : Config} {settings : AgentSettings}

theorem utf8_of_ofUtf8 {b : List UInt8} {text : String} (h : ofUtf8 b = some text) :
    utf8 text = b := by
  rw [ofUtf8, String.fromUTF8?] at h
  split at h
  · obtain rfl := Option.some.inj h
    rfl
  · cases h

theorem map_of_mapM {A B : Type} {f : A → Option B} {g : B → A} {l : List A} {l' : List B}
    (hinv : ∀ a b, f a = some b → g b = a) (h : l.mapM f = some l') : l'.map g = l := by
  induction l generalizing l' with
  | nil =>
      obtain rfl : [] = l' := by simpa using h
      rfl
  | cons a rest ih =>
      simp only [List.mapM_cons, Option.bind_eq_bind, Option.bind_eq_some_iff, Option.pure_def,
        Option.some.injEq] at h
      obtain ⟨b, hb, bs, hbs, rfl⟩ := h
      rw [List.map_cons, hinv a b hb, ih hbs]

/-- The names of a list are trimmed, not empty and new. -/
theorem nodup_splitCSV (raw : List UInt8) : (splitCSV raw).Nodup := by
  have hfold (candidates values : List (List UInt8)) (h : values.Nodup) :
      (candidates.foldl (fun values candidate =>
        let candidate := trimSpaceBytes candidate
        if candidate.isEmpty || values.contains candidate then values
        else values ++ [candidate]) values).Nodup := by
    induction candidates generalizing values with
    | nil => exact h
    | cons candidate rest ih =>
        rw [List.foldl_cons]
        apply ih
        simp only
        split
        · exact h
        · next hnew =>
            simp only [Bool.or_eq_true, List.isEmpty_iff, List.contains_iff_mem, not_or] at hnew
            exact List.nodup_append.mpr ⟨h, List.nodup_singleton _, fun a ha b hb heq =>
              hnew.2 (List.mem_singleton.mp hb ▸ heq ▸ ha)⟩
  exact hfold _ [] List.nodup_nil

/-- What `LoadConfig` has checked of the settings that the collectors and the runner read. -/
theorem settings_of_loadConfig (h : loadConfig table files getenv = .ok config) :
    validNodeIdentity config.agentID = true ∧ validNodeIdentity config.hostID = true ∧
      config.selectedProcesses.Nodup ∧ config.inferenceRuntimeProcesses.Nodup := by
  simp only [loadConfig, bind_eq_ok] at h
  obtain ⟨-, -, endpoints, -, -, -, required, -, -, -, _, hidentities, developmentMode, -,
    credential, -, replicas, -, interval, -, enabled, -, -, -, heq⟩ := h
  obtain rfl := Except.ok.inj heq
  simp only [checkIdentities, forAll_eq_ok, List.forall_mem_cons, unit_bind_eq_ok, failIf_eq_ok,
    Bool.not_eq_false'] at hidentities
  exact ⟨hidentities.1.2, hidentities.2.1.2, nodup_splitCSV _, nodup_splitCSV _⟩

theorem nodup_ids_of_loadConfig (h : loadConfig table files getenv = .ok config) :
    (config.inferenceRuntimeEndpoints.map InferenceRuntimeEndpoint.id).Nodup := by
  have hparse := runtimes_of_loadConfig h
  by_cases hraw : trimSpaceBytes (getenv "NODESCOPE_INFERENCE_RUNTIME_ENDPOINTS") = []
  · rw [parseInferenceRuntimeEndpoints, if_pos (by simpa using hraw)] at hparse
    rw [← Except.ok.inj hparse]
    exact List.nodup_nil
  · have hids := ((parseInferenceRuntimeEndpoints_eq_ok hraw).mp hparse).2.ids
    have hsmall : config.inferenceRuntimeEndpoints.map smallID =
        (config.inferenceRuntimeEndpoints.map InferenceRuntimeEndpoint.id).map
          (List.map Url.lower) := by
      rw [List.map_map]
      rfl
    rw [hsmall] at hids
    exact hids.of_map

/-- An identity has no byte that white space is made of. -/
theorem not_blank_of_validNodeIdentity {value : List UInt8} {text : String}
    (h : validNodeIdentity value = true) (htext : ofUtf8 value = some text) :
    trimSpace text ≠ "" := by
  have hbyte : ∀ b : UInt8, (isSmall b || isDigit b || b == 0x2e || b == 0x2d) = true →
      b < 0x80 ∧ isSpace (Json.toChar b) = false := forall_byte (by decide +kernel)
  have hclass : ∀ b ∈ value, (isSmall b || isDigit b || b == 0x2e || b == 0x2d) = true := by
    rw [validNodeIdentity] at h
    split at h
    · cases h
    · split at h
      · cases h
      · exact List.all_eq_true.mp h
  have hwritten : text = String.ofList (value.map Json.toChar) := by
    rw [← utf8_inj, utf8_of_ofUtf8 htext, Decimal.utf8_ofList, List.flatMap_map]
    have heach : ∀ b ∈ value, String.utf8EncodeChar (Json.toChar b) = [b] := by
      intro b hb
      have hsmall : (Json.toChar b).toNat < 0x80 := by
        rw [toNat_toChar]
        exact UInt8.lt_iff_toNat_lt.mp (hbyte b (hclass b hb)).1
      rw [encode_ascii hsmall, toNat_toChar, UInt8.ofNat_toNat]
    rw [List.flatMap_congr heach, List.flatMap_singleton']
  cases value with
  | nil =>
      rw [validNodeIdentity] at h
      exact absurd h (by decide)
  | cons b rest =>
      rw [hwritten, List.map_cons]
      exact trimSpace_ofList_cons_ne (hbyte b (hclass b List.mem_cons_self)).2 _

def endpointBytes (endpoint : RuntimeEndpoint) : InferenceRuntimeEndpoint where
  id := utf8 endpoint.id
  kind := utf8 endpoint.kind
  baseURL := utf8 endpoint.baseURL

theorem endpointBytes_of_text {endpoint : InferenceRuntimeEndpoint} {text : RuntimeEndpoint}
    (h : endpointText endpoint = some text) : endpointBytes text = endpoint := by
  simp only [endpointText, Option.bind_eq_bind, Option.bind_eq_some_iff, Option.pure_def,
    Option.some.injEq] at h
  obtain ⟨id, hid, kind, hkind, baseURL, hbase, rfl⟩ := h
  rw [endpointBytes, utf8_of_ofUtf8 hid, utf8_of_ofUtf8 hkind, utf8_of_ofUtf8 hbase]

theorem accepted_of_loadConfig (h : loadConfig table files getenv = .ok config)
    (hsettings : settingsOf config = some settings) : settings.Accepted := by
  obtain ⟨hagent, hhost, hselected, hrunning⟩ := settings_of_loadConfig h
  have hids := nodup_ids_of_loadConfig h
  simp only [settingsOf, Option.bind_eq_bind, Option.bind_eq_some_iff, Option.pure_def,
    Option.some.injEq] at hsettings
  obtain ⟨agentID, hagentID, hostID, hhostID, selected, hselectedTexts, running, hrunningTexts,
    endpoints, hendpoints, alerted, -, rfl⟩ := hsettings
  have hbytes : endpoints.map endpointBytes = config.inferenceRuntimeEndpoints :=
    map_of_mapM (fun _ _ => endpointBytes_of_text) hendpoints
  refine ⟨not_blank_of_validNodeIdentity hagent hagentID,
    not_blank_of_validNodeIdentity hhost hhostID, ?_, ?_, ?_⟩
  · rw [← map_of_mapM (fun _ _ => utf8_of_ofUtf8) hselectedTexts] at hselected
    exact hselected.of_map
  · rw [← map_of_mapM (fun _ _ => utf8_of_ofUtf8) hrunningTexts] at hrunning
    exact hrunning.of_map
  · rw [← hbytes, List.map_map] at hids
    have hcompose : InferenceRuntimeEndpoint.id ∘ endpointBytes = utf8 ∘ RuntimeEndpoint.id := rfl
    rw [hcompose, ← List.map_map] at hids
    exact hids.of_map

/-- Whatever the host, its tools and its runtimes show, an agent with an accepted configuration
collects an envelope, and `Validate` takes it exactly if `nvidia-smi` names no GPU and no process
twice and there are not too many samples. -/
theorem agent_collection_deliverable_iff (hload : loadConfig table files getenv = .ok config)
    (hsettings : settingsOf config = some settings) {bootID : String}
    (hboot : trimSpace bootID ≠ "") {sequence : UInt64} (hsequence : sequence ≠ 0)
    (observedAt : Int) (ht : isZero observedAt = false) (elapsed : UInt64) (s : LinuxSurroundings) :
    ∃ envelope, collectOnce (settings.identity bootID sequence) observedAt elapsed
        (linuxCollectors settings s observedAt) = some envelope ∧
      (envelope.validate = .ok () ↔
        s.nvidia.Distinct ∧ envelope.samples.length ≤ maxMetricValues) := by
  have haccepted := accepted_of_loadConfig hload hsettings
  have hidentity : (settings.identity bootID sequence).Valid :=
    ⟨haccepted.agentID, haccepted.hostID, hboot, hsequence⟩
  have hmade := made_agentSamples s settings ht
  obtain ⟨hlength, hcomplete, hcontainers⟩ := containers_valid s observedAt settings
  have hne := agentSamples_ne_nil s observedAt settings
  refine ⟨_, collectOnce_linuxCollectors s observedAt _ elapsed settings, ?_⟩
  have hvalid (hcount : (agentSamples s observedAt settings).length ≤ maxMetricValues) :=
    collectedEnvelope_valid_iff hidentity ht elapsed hne hcount hmade hlength hcomplete hcontainers
  have hdistinct := (nodup_keys_iff hmade).trans (nodup_agentSamples_iff s observedAt haccepted)
  constructor
  · intro h
    have hcount := length_of_valid observedAt h
    exact ⟨hdistinct.mp ((hvalid hcount).mp h), hcount⟩
  · rintro ⟨hnvidia, hcount⟩
    exact (hvalid hcount).mpr (hdistinct.mpr hnvidia)

/-- An agent that watches two processes and one runtime. -/
def watchingEnvironment : Decimal.Environment := fun key =>
  if key == "NODESCOPE_AGENT_ID" then utf8 "agent"
  else if key == "NODESCOPE_HOST_ID" then utf8 "host"
  else if key == "NODESCOPE_AGENT_CREDENTIAL_FILE" then utf8 "/credential"
  else if key == "NODESCOPE_PRIMARY_ENDPOINT" then utf8 "https://a"
  else if key == "NODESCOPE_SECONDARY_ENDPOINT" then utf8 "https://b"
  else if key == "NODESCOPE_SELECTED_PROCESS_NAMES" then utf8 "sshd,nginx,sshd"
  else if key == "NODESCOPE_INFERENCE_RUNTIME_ENDPOINTS" then utf8 "gpu|vllm|https://c"
  else []

def watchingFiles : CredentialFiles where
  lstat := fun _ => .ok ⟨true, 0o600⟩
  readFile := fun _ => .ok (utf8 "secret")

def watchingConfig : Config where
  agentID := utf8 "agent"
  hostID := utf8 "host"
  credential := utf8 "secret"
  credentialFile := utf8 "/credential"
  preferredEndpoint := utf8 "https://a"
  secondaryEndpoint := utf8 "https://b"
  collectionInterval := 5 * second
  stateDirectory := utf8 "/var/lib/nodescope-agent"
  caCertificatePath := []
  clientCertificatePath := []
  clientPrivateKeyPath := []
  requireClientMTLS := false
  selectedProcesses := [utf8 "sshd", utf8 "nginx"]
  inferenceRuntimeProcesses := []
  inferenceRuntimeEndpoints := [⟨utf8 "gpu", utf8 "vllm", utf8 "https://c"⟩]
  alertedContainers := []
  containerInventoryEnabled := false
  containerInventoryProxyURL := []

def watchingSettings : AgentSettings where
  agentID := "agent"
  hostID := "host"
  selectedProcesses := ["sshd", "nginx"]
  inferenceRuntimeProcesses := []
  inferenceRuntimeEndpoints := [⟨"gpu", "vllm", "https://c"⟩]
  alertedContainers := []
  containerInventoryEnabled := false

/-- A host without accelerators, on which one of the processes runs. -/
def quietHost : LinuxSurroundings where
  cpu := ⟨0, 0, false⟩
  files := ⟨some "cpu 1 2 3 4", some "", some "", [], List.nodup_nil, fun _ => none⟩
  drm := ⟨["card0", "version"], by decide, fun _ _ => none⟩
  nvidia := ⟨false, none, fun _ => none⟩
  xrtSmi := .absent
  selectedTable := some [("1", some "systemd\n"), ("self", some "nginx\n"), ("42", some "sshd\n")]
  runtimeTable := none
  isPrint := fun _ => true
  runtimes := fun _ => .status 200
  inventory := .unreachable

theorem quietHost_deliverable :
    ∃ envelope, collectOnce (watchingSettings.identity "boot" 1) 0 0
        (linuxCollectors watchingSettings quietHost 0) = some envelope ∧
      envelope.validate = .ok () := by
  have hload : loadConfig asciiTable watchingFiles watchingEnvironment = .ok watchingConfig := by
    decide +kernel
  have hsettings : settingsOf watchingConfig = some watchingSettings := by
    simp [settingsOf, watchingConfig, watchingSettings, endpointText, ofUtf8_utf8]
  obtain ⟨envelope, honce, hiff⟩ := agent_collection_deliverable_iff hload hsettings
    (trimSpace_ofList_cons_ne (by decide) _ : trimSpace "boot" ≠ "") (by decide : (1 : UInt64) ≠ 0) 0
    (by decide) 0 quietHost
  have heq := Option.some.inj (honce.symm.trans (collectOnce_linuxCollectors quietHost 0 _ 0 _))
  refine ⟨envelope, honce, hiff.mpr ⟨⟨by decide, by decide⟩, ?_⟩⟩
  rw [heq]
  decide +kernel

end Configured

end NodeScope.Agent
