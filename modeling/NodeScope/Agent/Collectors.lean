import NodeScope.Lib.FloatParse
import NodeScope.Telemetry.Wire

/-!
# The collectors of the Linux agent

What `CollectOnce` makes of the files under `/proc` and `/sys`, the reports of `nvidia-smi`
and the answer of the container inventory proxy: one envelope with the readings of all
collectors. A collector that fails is replaced by one sample that says so.

## Implementation notes

The outside is a value: the contents of the files, the outputs of the commands and the
decoded inventory. The paths of the thermal zones are those of a directory, and so they
differ. `processMemory` runs its command for every GPU, and `apps` gives the outputs in
turn. Texts are sequences of characters, as in the envelope.
-/

namespace NodeScope.Agent

open Domain Lib Lib.Text Telemetry

def numericSample (deviceID name unit : String) (value : Float64) (source semantics : String)
    (observedAt : Int) : Sample :=
  ⟨deviceID, ⟨name, unit, some value, .fresh, source, semantics, observedAt⟩⟩

def unavailableSample (deviceID name unit source semantics : String) (observedAt : Int) : Sample :=
  ⟨deviceID, ⟨name, unit, none, .unavailable, source, semantics, observedAt⟩⟩

section LinuxHost

structure CpuState where
  lastTotal : UInt64
  lastIdle : UInt64
  hasCPU : Bool
deriving DecidableEq

structure Statfs where
  bavail : UInt64
  blocks : UInt64
  bsize : Int
deriving DecidableEq

/-- What the Linux host shows. A file that cannot be read is `none`; of a thermal zone the
name is what follows `thermal_zone`. -/
structure HostFiles where
  stat : Option String
  meminfo : Option String
  mounts : Option String
  thermalZones : List (String × Option String)
  zonesDistinct : (thermalZones.map Prod.fst).Nodup
  statfs : String → Option Statfs

/-- Go's `strconv.ParseUint` in base 10. -/
def parseUint (s : String) : Option UInt64 :=
  if !s.toList.isEmpty && s.toList.all Char.isDigit then
    let n := s.toList.foldl (fun n c => 10 * n + (c.toNat - 48)) 0
    if n < 2 ^ 64 then some (UInt64.ofNat n) else none
  else none

/-- The counters of the first line of `/proc/stat`. -/
def cpuCounters (contents : String) : Option (List UInt64) :=
  match fields (String.ofList (contents.toList.takeWhile (· != '\n'))) with
  | label :: counters =>
      if label == "cpu" && 4 ≤ counters.length then counters.mapM parseUint else none
  | [] => none

def cpuUtilization (idleDelta totalDelta : UInt64) : Float64 :=
  Float64.mul (Float64.sub (Float64.ofNat 1)
    (Float64.div (Float64.ofNat idleDelta.toNat) (Float64.ofNat totalDelta.toNat)))
    (Float64.ofNat 100)

/-- One reading of the aggregate counters, which are compared with those of the last one. -/
def collectCPU (state : CpuState) (stat : Option String) (observedAt : Int) :
    Option (List Sample) × CpuState :=
  match stat.bind cpuCounters with
  | none => (none, state)
  | some values =>
      let total := values.foldl (· + ·) 0
      let idle := values.getD 3 0 + values.getD 4 0
      let unavailable := fun semantics =>
        [unavailableSample "cpu-aggregate" "cpu.utilization" "percent" "procfs" semantics observedAt]
      if !state.hasCPU then
        (some (unavailable "aggregate host CPU utilization requires two observations"),
          ⟨total, idle, true⟩)
      else
        let totalDelta := total - state.lastTotal
        let idleDelta := idle - state.lastIdle
        if totalDelta == 0 || totalDelta < idleDelta then
          (some (unavailable "aggregate host CPU utilization delta unavailable"),
            ⟨total, idle, true⟩)
        else
          (some [numericSample "cpu-aggregate" "cpu.utilization" "percent"
            (cpuUtilization idleDelta totalDelta) "procfs" "aggregate host CPU utilization"
            observedAt], ⟨total, idle, true⟩)

/-- The longest line that a `bufio.Scanner` takes, and one more. -/
def maxScanTokenSize : Nat := 64 * 1024

/-- The lines of a text, unless one of them is too long. -/
def scanLines (contents : String) : Option (List String) :=
  let lines := splitAt '\n' contents
  if lines.all fun line => byteLength line < maxScanTokenSize then some lines else none

def trimSuffix (s : String) (suffix : Char) : String :=
  if s.toList.getLast? == some suffix then String.ofList s.toList.dropLast else s

/-- The entry of one line of `/proc/meminfo`. -/
def meminfoEntry (line : String) : Option (String × Float64) :=
  match fields line with
  | name :: value :: _ =>
      (Float64.parseFloat value).map fun v =>
        (trimSuffix name ':', Float64.mul v (Float64.ofNat 1024))
  | _ => none

def meminfoValues (lines : List String) : String → Option Float64 :=
  (lines.filterMap meminfoEntry).foldl (fun values entry =>
    Function.update values entry.1 (some entry.2)) fun _ => none

structure MemoryDefinition where
  name : String
  semantics : String
  field : String

def memoryDefinitions : List MemoryDefinition :=
  [⟨"memory.total_bytes", "OS-reported total system memory", "MemTotal"⟩,
    ⟨"memory.available_bytes", "OS MemAvailable; UMA panel source value", "MemAvailable"⟩,
    ⟨"memory.swap_free_bytes", "OS SwapFree; UMA panel source value", "SwapFree"⟩,
    ⟨"memory.hugepages_free_bytes", "OS huge-page free capacity; UMA panel source value",
      "HugePages_Free"⟩]

/-- Huge pages are counted; their size turns them into bytes. -/
def memoryValue (values : String → Option Float64) (field : String) (value : Float64) : Float64 :=
  let pageSize := (values "Hugepagesize").getD (Float64.ofNat 0)
  if field == "HugePages_Free" && pageSize.positive then
    Float64.mul (Float64.div value (Float64.ofNat 1024)) pageSize
  else value

def memorySample (values : String → Option Float64) (observedAt : Int)
    (definition : MemoryDefinition) : Sample :=
  match values definition.field with
  | some value =>
      numericSample "memory-host" definition.name "bytes" (memoryValue values definition.field value)
        "procfs" definition.semantics observedAt
  | none =>
      unavailableSample "memory-host" definition.name "bytes" "procfs" definition.semantics observedAt

def collectMemory (meminfo : Option String) (observedAt : Int) : Option (List Sample) :=
  (meminfo.bind scanLines).map fun lines =>
    memoryDefinitions.map (memorySample (meminfoValues lines) observedAt)

def zoneSample (observedAt : Int) (zone : String × Option String) : Option Sample :=
  zone.2.bind fun contents =>
    (Float64.parseFloat (trimSpace contents)).map fun milliCelsius =>
      numericSample ("thermal_zone" ++ zone.1) "temperature.celsius" "celsius"
        (Float64.div milliCelsius (Float64.ofNat 1000)) "sysfs" "Linux thermal zone temperature"
        observedAt

def collectTemperatures (zones : List (String × Option String)) (observedAt : Int) : List Sample :=
  let unavailable := fun semantics =>
    [unavailableSample "thermal-host" "temperature.celsius" "celsius" "sysfs" semantics observedAt]
  if zones.isEmpty then unavailable "no readable Linux thermal zone"
  else
    let samples := zones.filterMap (zoneSample observedAt)
    if samples.isEmpty then unavailable "thermal zone values could not be parsed" else samples

def excludedTypes : List String :=
  ["proc", "sysfs", "tmpfs", "devtmpfs", "cgroup", "cgroup2", "overlay", "squashfs"]

/-- The mounted paths in the order of the table, each at its first line. -/
def mountedPaths : List String → List String → List String
  | [], _ => []
  | line :: rest, seen =>
      match fields line with
      | _ :: path :: filesystem :: _ =>
          if excludedTypes.contains filesystem || seen.contains path then mountedPaths rest seen
          else path :: mountedPaths rest (path :: seen)
      | _ => mountedPaths rest seen

def mountSamples (statfs : String → Option Statfs) (observedAt : Int) (path : String) :
    List Sample :=
  match statfs path with
  | none => []
  | some stat =>
      let bytes := fun blocks : UInt64 =>
        Float64.mul (Float64.ofNat blocks.toNat) (Float64.ofInt stat.bsize)
      [numericSample ("mount:" ++ path) "storage.available_bytes" "bytes" (bytes stat.bavail) "statfs"
          ("filesystem available space for " ++ path) observedAt,
        numericSample ("mount:" ++ path) "storage.total_bytes" "bytes" (bytes stat.blocks) "statfs"
          ("filesystem total space for " ++ path) observedAt]

def collectMountCapacity (mounts : Option String) (statfs : String → Option Statfs)
    (observedAt : Int) : List Sample :=
  match mounts with
  | none =>
      [unavailableSample "storage-host" "storage.available_bytes" "bytes" "procfs"
        "mount table unavailable" observedAt]
  | some contents =>
      ((mountedPaths (splitAt '\n' contents) []).mergeSort fun a b => decide (a ≤ b)).flatMap
        (mountSamples statfs observedAt)

/-- `LinuxHostCollector.Collect`. -/
def collectLinuxHost (state : CpuState) (files : HostFiles) (observedAt : Int) :
    Option (List Sample) × CpuState :=
  let (cpu, state) := collectCPU state files.stat observedAt
  let samples := cpu.bind fun cpuSamples =>
    (collectMemory files.meminfo observedAt).map fun memorySamples =>
      cpuSamples ++ memorySamples ++ collectTemperatures files.thermalZones observedAt ++
        collectMountCapacity files.mounts files.statfs observedAt
  (samples, state)

end LinuxHost

section Nvidia

/-- What `nvidia-smi` prints, if it is there: its report of the GPUs, and its lists of
processes in the order in which they are asked for. -/
structure NvidiaOutputs where
  installed : Bool
  gpus : Option String
  apps : Nat → Option String

def splitCSVLine (line : String) : List String := (splitAt ',' line).map trimSpace

def parseReportedFloat (raw : String) : Option Float64 :=
  if raw == "" || foldEqual "n/a" raw || foldEqual "[not supported]" raw then none
  else Float64.parseFloat raw

def mebibytes (value : Float64) : Float64 :=
  Float64.mul (Float64.mul value (Float64.ofNat 1024)) (Float64.ofNat 1024)

/-- A value of the report, or that it was not reported. -/
def reportedSample (deviceID name unit raw : String) (convert : Float64 → Float64)
    (semantics missing : String) (observedAt : Int) : Sample :=
  match parseReportedFloat raw with
  | some value => numericSample deviceID name unit (convert value) "nvidia-smi" semantics observedAt
  | none => unavailableSample deviceID name unit "nvidia-smi" missing observedAt

/-- The processes with a readable amount of memory in a list of them. -/
def reportedProcesses (output : String) : List (String × Float64) :=
  (splitAt '\n' (trimSpace output)).filterMap fun line =>
    match splitCSVLine line with
    | [pid, memory] => (parseReportedFloat memory).map fun memoryMiB => (pid, memoryMiB)
    | _ => none

def perProcessMetric : String := "gpu.uma.per_process_memory_bytes"

def processMemory (output : Option String) (deviceID : String) (observedAt : Int) : List Sample :=
  let unavailable := fun semantics =>
    [unavailableSample deviceID perProcessMetric "bytes" "nvidia-smi" semantics observedAt]
  match output with
  | none => unavailable "per-process GPU memory was not reported"
  | some output =>
      let processes := reportedProcesses output
      if processes.isEmpty then unavailable "no per-process GPU memory value was reported"
      else
        processes.map fun process =>
          numericSample (deviceID ++ ":pid-" ++ process.1) perProcessMetric "bytes"
            (mebibytes process.2) "nvidia-smi"
            "nvidia-smi per-process GPU memory; UMA/FB semantics are vendor-reported" observedAt

/-- The fields of a line of the report that are used. -/
structure GpuLine where
  index : String
  utilization : String
  temperature : String
  totalMemory : String
  usedMemory : String

/-- A line with fewer than six fields is skipped. -/
def gpuLine (line : String) : Option GpuLine :=
  match splitCSVLine line with
  | index :: _ :: utilization :: temperature :: totalMemory :: usedMemory :: _ =>
      some ⟨index, utilization, temperature, totalMemory, usedMemory⟩
  | _ => none

/-- The samples of one line of the report, without those of its processes. -/
def gpuSamples (gpu : GpuLine) (deviceID : String) (observedAt : Int) : List Sample :=
  [numericSample deviceID "gpu.availability" "state" (Float64.ofNat 1) "nvidia-smi"
      "NVIDIA GPU is reported by nvidia-smi" observedAt,
    reportedSample deviceID "gpu.utilization" "percent" gpu.utilization id
      "NVIDIA-reported GPU utilization" "NVIDIA GPU utilization was not reported" observedAt,
    reportedSample deviceID "temperature.celsius" "celsius" gpu.temperature id
      "NVIDIA-reported GPU temperature" "NVIDIA GPU temperature was not reported" observedAt,
    reportedSample deviceID "gpu.dedicated_vram.total_bytes" "bytes" gpu.totalMemory mebibytes
      "nvidia-smi reported framebuffer memory; not inferred from host memory"
      "framebuffer memory is unavailable on this platform; no VRAM value is synthesized" observedAt,
    reportedSample deviceID "gpu.dedicated_vram.used_bytes" "bytes" gpu.usedMemory mebibytes
      "nvidia-smi reported framebuffer memory use; not inferred"
      "framebuffer memory use is unavailable on this platform; no VRAM value is synthesized"
      observedAt]

/-- The loop over the lines of the report; `call` counts the lists of processes asked for. -/
def collectGpus (apps : Nat → Option String) (observedAt : Int) : Nat → List String → List Sample
  | _, [] => []
  | call, line :: rest =>
      match gpuLine line with
      | some gpu =>
          let deviceID := "nvidia-gpu-" ++ gpu.index
          gpuSamples gpu deviceID observedAt ++ processMemory (apps call) deviceID observedAt ++
            collectGpus apps observedAt (call + 1) rest
      | none => collectGpus apps observedAt call rest

/-- `NvidiaCollector.Collect`, which never fails. -/
def collectNvidia (outputs : NvidiaOutputs) (observedAt : Int) : List Sample :=
  let unavailable := fun semantics =>
    [unavailableSample "gpu-nvidia" "gpu.availability" "state" "nvidia-smi" semantics observedAt]
  if !outputs.installed then
    unavailable "nvidia-smi is unavailable; no NVIDIA GPU reading is inferred"
  else
    match outputs.gpus with
    | none => unavailable "nvidia-smi did not return a readable GPU report"
    | some output =>
        let samples := collectGpus outputs.apps observedAt 0 (splitAt '\n' (trimSpace output))
        if samples.isEmpty then unavailable "nvidia-smi returned no GPU inventory" else samples

end Nvidia

section Inventory

def maxProxyContainers : Nat := 1024

structure InventoryProxyContainer where
  containerID : String
  name : String
  image : String
  state : String
  health : String
deriving DecidableEq

/-- A field is not blank, unless it may be, and it is short and has no null character. -/
def inventoryFieldValid (value : String) (maximum : Nat) (optional : Bool) : Bool :=
  (optional || trimSpace value != "") && byteLength value ≤ maximum && !value.toList.contains '\x00'

def InventoryProxyContainer.validate (c : InventoryProxyContainer) : Bool :=
  inventoryFieldValid c.containerID 128 false && inventoryFieldValid c.name 256 false &&
    inventoryFieldValid c.image 512 false && inventoryFieldValid c.state 64 false &&
    inventoryFieldValid c.health 64 true

/-- What the inventory proxy answers: the request cannot be made, gets no answer, gets another
status than 200, or a body, whose decoding may fail. -/
inductive InventoryAnswer where
  | invalidRequest
  | unreachable
  | refused
  | body (containers : Option (List InventoryProxyContainer))

/-- The loop over the records: an invalid or repeated one ends it. -/
def acceptContainers (alerted : List String) :
    List InventoryProxyContainer → List String → Option (List ContainerInventory)
  | [], _ => some []
  | c :: rest, seen =>
      if c.validate && !seen.contains c.containerID then
        (acceptContainers alerted rest (c.containerID :: seen)).map fun inventory =>
          ⟨c.containerID, c.name, c.image, c.state, c.health,
            alerted.contains c.containerID || alerted.contains c.name⟩ :: inventory
      else none

/-- The record of a container in the inventory. -/
def inventoryOf (alerted : List String) (c : InventoryProxyContainer) : ContainerInventory :=
  ⟨c.containerID, c.name, c.image, c.state, c.health,
    alerted.contains c.containerID || alerted.contains c.name⟩

/-- The loop accepts valid records with new and distinct IDs. -/
theorem acceptContainers_eq_some_iff {alerted : List String}
    {containers : List InventoryProxyContainer} {seen : List String}
    {inventory : List ContainerInventory} :
    acceptContainers alerted containers seen = some inventory ↔
      (∀ c ∈ containers, c.validate = true ∧ c.containerID ∉ seen) ∧
        (containers.map InventoryProxyContainer.containerID).Nodup ∧
        inventory = containers.map (inventoryOf alerted) := by
  induction containers generalizing seen inventory with
  | nil =>
      rw [acceptContainers, Option.some.injEq, eq_comm]
      simp
  | cons c rest ih =>
      rw [acceptContainers, List.forall_mem_cons, List.map_cons, List.nodup_cons, List.map_cons]
      by_cases hc : c.validate = true ∧ c.containerID ∉ seen
      · rw [if_pos (by simpa using hc), Option.map_eq_some_iff]
        constructor
        · rintro ⟨more, hmore, rfl⟩
          obtain ⟨hvalid, hdistinct, rfl⟩ := ih.mp hmore
          refine ⟨⟨hc, fun d hd => ⟨(hvalid d hd).1, fun hmem =>
            (hvalid d hd).2 (List.mem_cons_of_mem _ hmem)⟩⟩, ⟨?_, hdistinct⟩, rfl⟩
          intro hmem
          obtain ⟨d, hd, hid⟩ := List.mem_map.mp hmem
          exact (hvalid d hd).2 (hid ▸ List.mem_cons_self)
        · rintro ⟨⟨-, hvalid⟩, ⟨hnew, hdistinct⟩, rfl⟩
          refine ⟨_, ih.mpr ⟨fun d hd => ⟨(hvalid d hd).1, ?_⟩, hdistinct, rfl⟩, rfl⟩
          rw [List.mem_cons, not_or]
          exact ⟨fun hid => hnew (List.mem_map.mpr ⟨d, hd, hid⟩), (hvalid d hd).2⟩
      · rw [if_neg (by simpa using hc)]
        simp only [reduceCtorEq, false_iff]
        rintro ⟨⟨hfirst, -⟩, -⟩
        exact hc hfirst

def containerSamples (observedAt : Int) (c : ContainerInventory) : List Sample :=
  numericSample ("container:" ++ c.containerID) "container.running" "state"
      (Float64.ofNat (if c.state == "running" then 1 else 0)) "inventory-proxy"
      ("proxy-reported container state for " ++ c.name) observedAt ::
    if c.health == "" || c.health == "unreported" then
      [unavailableSample ("container:" ++ c.containerID) "container.health" "state" "inventory-proxy"
        "proxy did not report a container health check" observedAt]
    else []

/-- `InventoryProxyCollector.CollectContainerInventory`. -/
def collectContainerInventory (alerted : List String) (answer : InventoryAnswer)
    (observedAt : Int) : Option (List Sample × List ContainerInventory) :=
  let unavailable := fun semantics =>
    some ([unavailableSample "containers" "container.inventory.available" "state" "inventory-proxy"
      semantics observedAt], [])
  match answer with
  | .invalidRequest => none
  | .unreachable => unavailable "approved inventory proxy is unavailable"
  | .refused => unavailable "approved inventory proxy did not return an inventory"
  | .body none => none
  | .body (some containers) =>
      if maxProxyContainers < containers.length then none
      else
        (acceptContainers alerted containers []).map fun inventory =>
          (numericSample "containers" "container.inventory.available" "state" (Float64.ofNat 1)
            "inventory-proxy" "approved fixed-schema inventory proxy is available" observedAt ::
              inventory.flatMap (containerSamples observedAt), inventory)

end Inventory

section Runner

/-- What one collector gave to a run of `CollectOnce`; `none` is an error. -/
structure Collected where
  name : String
  result : Option (List Sample × List ContainerInventory)

def collectorUnavailable (name : String) (observedAt : Int) : Sample :=
  unavailableSample ("collector:" ++ name) "collector.availability" "state" "nodescope-agent"
    "collector did not provide a reading" observedAt

def Collected.samples (observedAt : Int) (c : Collected) : List Sample :=
  match c.result with
  | some (samples, _) => samples
  | none => [collectorUnavailable c.name observedAt]

def Collected.containers (c : Collected) : List ContainerInventory :=
  match c.result with
  | some (_, containers) => containers
  | none => []

/-- The identity of the agent and what the sequence store returned. -/
structure Identity where
  agentID : String
  hostID : String
  bootID : String
  sequence : UInt64

def collectedEnvelope (identity : Identity) (observedAt : Int) (elapsed : UInt64)
    (samples : List Sample) (containers : List ContainerInventory) : Envelope where
  schemaVersion := currentSchemaVersion
  codec := codecProtoZstd
  agentID := identity.agentID
  hostID := identity.hostID
  bootID := identity.bootID
  sequence := identity.sequence
  observedAt := observedAt
  monotonicElapsedNano := elapsed
  sampleCount := UInt32.ofNat samples.length
  metricValueCount := UInt32.ofNat samples.length
  uncompressedBytes := 1
  compressedBytes := 1
  checksumSHA256 := hexEncode (Sha256.sha256
    (utf8 (idempotencyKeyOf identity.agentID identity.bootID identity.sequence))).toList
  samples := samples
  containers := containers

/-- The envelope of `CollectOnce`, unless there is no sample at all. -/
def collectOnce (identity : Identity) (observedAt : Int) (elapsed : UInt64)
    (collectors : List Collected) : Option Envelope :=
  let samples := collectors.flatMap (Collected.samples observedAt)
  if samples.isEmpty then none
  else
    some (collectedEnvelope identity observedAt elapsed samples
      (collectors.flatMap Collected.containers))

/-- What the outside shows to the three collectors. -/
structure Surroundings where
  cpu : CpuState
  files : HostFiles
  nvidia : NvidiaOutputs
  alerted : List String
  inventory : InventoryAnswer

/-- The host, NVIDIA and inventory collectors in the order of the agent. -/
def collectors (s : Surroundings) (observedAt : Int) : List Collected :=
  [⟨"linux_host", (collectLinuxHost s.cpu s.files observedAt).1.map fun samples => (samples, [])⟩,
    ⟨"nvidia_smi", some (collectNvidia s.nvidia observedAt, [])⟩,
    ⟨"container_inventory_proxy", collectContainerInventory s.alerted s.inventory observedAt⟩]

end Runner

end NodeScope.Agent
