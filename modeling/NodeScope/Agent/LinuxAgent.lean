import NodeScope.Agent.Configuration
import NodeScope.Agent.Deliverable
import NodeScope.Agent.Sender

/-!
# The whole Linux agent

The other collectors of the agent, and all of them in the order in which `main` gives them to the
runner: the cards of the kernel's DRM, the NPU, the processes and the inference runtimes that the
configuration names.

## Implementation notes

The outside is a value, as it is for the other collectors. A directory is the list of its names,
which differ. The settings are the texts of a configuration; where one of them is not UTF-8, the
envelope cannot be encoded, and `settingsOf` gives nothing. Go's table of the characters that can be
printed is an argument.
-/

namespace NodeScope.Agent

open Domain Lib Lib.Text Telemetry

def experimentalNumericSample (deviceID name unit : String) (value : Float64)
    (source semantics : String) (observedAt : Int) : Sample :=
  ⟨deviceID, ⟨name, unit, some value, .experimental, source, semantics, observedAt⟩⟩

section Drm

/-- What `/sys/class/drm` shows: its names, and the files below the `device` of each. -/
structure DrmFiles where
  names : List String
  namesDistinct : names.Nodup
  device : String → String → Option String

/-- The pattern `card[0-9]*`. -/
def isCard (name : String) : Bool :=
  match name.toList with
  | 'c' :: 'a' :: 'r' :: 'd' :: digit :: _ => digit.isDigit
  | _ => false

/-- `filepath.Glob` gives the paths that match in their order. -/
def cards (files : DrmFiles) : List String :=
  (files.names.filter isCard).mergeSort fun a b => decide (a ≤ b)

def readTrimmed (device : String → Option String) (file : String) : Option String :=
  (device file).map trimSpace

def readFloat (device : String → Option String) (file : String) : Option Float64 :=
  (readTrimmed device file).bind Float64.parseFloat

def drmQualification : String :=
  "experimental Fedora AMD DRM telemetry; not qualified until NodeScope publishes an exact Fedora, kernel, firmware, ROCm, and AMD SMI matrix"

/-- A value that was read, as an experimental one, or that it is unavailable. -/
def drmSample (deviceID name unit : String) (value : Option Float64) (reported missing : String)
    (observedAt : Int) : Sample :=
  match value with
  | some value =>
      experimentalNumericSample deviceID name unit value "sysfs-experimental"
        (drmQualification ++ reported) observedAt
  | none =>
      unavailableSample deviceID name unit "sysfs-experimental" (drmQualification ++ missing)
        observedAt

def collectAMDDRM (deviceID : String) (device : String → Option String) (observedAt : Int) :
    List Sample :=
  let vramTotal := readFloat device "mem_info_vram_total"
  let vramUsed := readFloat device "mem_info_vram_used"
  [experimentalNumericSample deviceID "gpu.availability" "state" (Float64.ofNat 1)
      "sysfs-experimental" (drmQualification ++ "; AMD DRM device is present") observedAt,
    drmSample deviceID "gpu.utilization" "percent" (readFloat device "gpu_busy_percent")
      "; AMD DRM gpu_busy_percent" "; AMD DRM gpu_busy_percent is unavailable" observedAt,
    drmSample deviceID "gpu.dedicated_vram.total_bytes" "bytes" vramTotal
      "; kernel-reported dedicated VRAM; not UMA"
      "; dedicated VRAM is not exposed by this DRM device; no value is inferred from system RAM"
      observedAt,
    drmSample deviceID "gpu.dedicated_vram.used_bytes" "bytes" vramUsed
      "; kernel-reported dedicated VRAM use; not UMA"
      "; dedicated VRAM use is not exposed by this DRM device; no value is inferred" observedAt] ++
    if vramTotal.isNone && vramUsed.isNone then
      [unavailableSample deviceID perProcessMetric "bytes" "sysfs-experimental"
        (drmQualification ++ "; per-process UMA GPU memory requires a supported runtime collector")
        observedAt]
    else []

/-- The samples of one card: those of AMD are read. -/
def cardSamples (files : DrmFiles) (observedAt : Int) (card : String) : List Sample :=
  if readTrimmed (files.device card) "vendor" == some "0x1002" then
    collectAMDDRM card (files.device card) observedAt
  else []

/-- `LinuxDRMCollector.Collect`. The pattern is well formed, so that it never fails. -/
def collectDrm (files : DrmFiles) (observedAt : Int) : List Sample :=
  let samples := (cards files).flatMap (cardSamples files observedAt)
  if samples.isEmpty then
    [unavailableSample "gpu-host" "gpu.availability" "state" "sysfs"
      "no supported AMD DRM telemetry device discovered" observedAt]
  else samples

end Drm

section Xdna

/-- What comes of `xrt-smi`: it is not there, its examination fails, or it ends well. -/
inductive XrtSmi where
  | absent
  | unreadable
  | examined
deriving DecidableEq

def xdnaQualification : String :=
  "experimental Fedora AMD XDNA telemetry; not qualified until NodeScope publishes an exact Fedora, kernel, firmware, ROCm, XRT, and XDNA matrix"

/-- A state or a value of the NPU that is unavailable. -/
def npuUnavailable (name unit missing : String) (observedAt : Int) : Sample :=
  unavailableSample "npu-0" name unit "xrt-smi-experimental" (xdnaQualification ++ missing) observedAt

/-- `XDNACollector.Collect`, which never fails. -/
def collectXdna (xrtSmi : XrtSmi) (observedAt : Int) : List Sample :=
  match xrtSmi with
  | .absent =>
      [npuUnavailable "npu.availability" "state" "; xrt-smi is not installed or not on PATH" observedAt,
        npuUnavailable "npu.utilization" "percent"
          "; NPU utilization is unavailable without a supported structured collector" observedAt]
  | .unreadable =>
      [npuUnavailable "npu.availability" "state"
          "; xrt-smi did not complete a readable NPU examination" observedAt,
        npuUnavailable "npu.utilization" "percent"
          "; NPU utilization is unavailable without a supported structured collector" observedAt]
  | .examined =>
      [experimentalNumericSample "npu-0" "npu.availability" "state" (Float64.ofNat 1)
          "xrt-smi-experimental"
          (xdnaQualification ++ "; xrt-smi reports an accessible AMD XDNA NPU") observedAt,
        npuUnavailable "npu.utilization" "percent"
          "; NPU utilization is unavailable until a structured xrt-smi metric contract is configured"
          observedAt]

end Xdna

section Processes

/-- The names in `/proc`, each with its file `comm` where there is a readable one. -/
abbrev ProcTable := List (String × Option String)

/-- The names of the running processes: the entries of other kinds have no number. -/
def commNames (entries : ProcTable) : List String :=
  entries.filterMap fun entry => if (parseUint entry.1).isSome then entry.2.map trimSpace else none

/-- `SelectedProcessCollector.Collect`, which reads no table where no name is configured. -/
def collectSelectedProcesses (processNames : List String) (table : Option ProcTable)
    (observedAt : Int) : Option (List Sample) :=
  if processNames.isEmpty then
    some [unavailableSample "process-selection" "process.selected.running" "state" "procfs"
      "no selected process names are configured" observedAt]
  else
    table.map fun entries =>
      processNames.map fun name =>
        if (commNames entries).contains name then
          numericSample ("process:" ++ name) "process.selected.running" "state" (Float64.ofNat 1)
            "procfs" "selected process is running" observedAt
        else
          numericSample ("process:" ++ name) "process.selected.running" "state" (Float64.ofNat 0)
            "procfs" "selected process is not running" observedAt

/-- A number in hexadecimal digits, of a width. -/
def hexDigits (width n : Nat) : List Char := List.leftpad width '0' (Nat.toDigits 16 n)

/-- One character as `strconv.Quote` writes it. -/
def quoteChar (isPrint : Char → Bool) (c : Char) : List Char :=
  if c == '"' || c == '\\' then ['\\', c]
  else if isPrint c then [c]
  else
    match c.toNat with
    | 7 => ['\\', 'a']
    | 8 => ['\\', 'b']
    | 12 => ['\\', 'f']
    | 10 => ['\\', 'n']
    | 13 => ['\\', 'r']
    | 9 => ['\\', 't']
    | 11 => ['\\', 'v']
    | n =>
        if n < 32 || n == 127 then '\\' :: 'x' :: hexDigits 2 n
        else if n < 0x10000 then '\\' :: 'u' :: hexDigits 4 n
        else '\\' :: 'U' :: hexDigits 8 n

/-- The verb `%q` of a text. -/
def quoteText (isPrint : Char → Bool) (s : String) : String :=
  String.ofList ('"' :: s.toList.flatMap (quoteChar isPrint) ++ ['"'])

/-- `InferenceRuntimeProcessCollector.Collect`, which never fails. -/
def collectRuntimeProcesses (isPrint : Char → Bool) (processNames : List String)
    (table : Option ProcTable) (observedAt : Int) : List Sample :=
  let unavailable := fun semantics =>
    [unavailableSample "runtime-discovery" "inference.runtime.running" "state" "procfs-comm" semantics
      observedAt]
  if processNames.isEmpty then unavailable "no inference runtime process names are configured"
  else
    match table with
    | none => unavailable "runtime process table is unavailable"
    | some entries =>
        (processNames.mergeSort fun a b => decide (a ≤ b)).map fun name =>
          let start := "configured inference runtime process " ++ quoteText isPrint name
          if (commNames entries).contains name then
            numericSample ("runtime:" ++ name) "inference.runtime.running" "state" (Float64.ofNat 1)
              "procfs-comm" (start ++ " is running") observedAt
          else
            numericSample ("runtime:" ++ name) "inference.runtime.running" "state" (Float64.ofNat 0)
              "procfs-comm" (start ++ " is not running") observedAt

end Processes

section Runtimes

/-- An inference runtime as texts. -/
structure RuntimeEndpoint where
  id : String
  kind : String
  baseURL : String
deriving DecidableEq

/-- What comes of asking a runtime: no request can be made, no response arrives, or one with a
status. -/
inductive RuntimeAnswer where
  | unrequestable
  | unanswered
  | status (code : Nat)
deriving DecidableEq

def runtimeEndpointUnavailability (deviceID semantics : String) (observedAt : Int) : Sample :=
  unavailableSample deviceID "inference.runtime.api_available" "state" "openai-compatible-v1-models"
    semantics observedAt

def runtimeEndpointUnavailable (endpoint : RuntimeEndpoint) (semantics : String) (observedAt : Int) :
    Sample :=
  runtimeEndpointUnavailability ("runtime-api:" ++ endpoint.id) semantics observedAt

def runtimeSample (answers : RuntimeEndpoint → RuntimeAnswer) (observedAt : Int)
    (endpoint : RuntimeEndpoint) : Sample :=
  match answers endpoint with
  | .unrequestable =>
      runtimeEndpointUnavailable endpoint "configured endpoint URL could not be requested" observedAt
  | .unanswered =>
      runtimeEndpointUnavailable endpoint "configured endpoint did not respond" observedAt
  | .status code =>
      if successStatus code then
        numericSample ("runtime-api:" ++ endpoint.id) "inference.runtime.api_available" "state"
          (Float64.ofNat 1) "openai-compatible-v1-models"
          ("configured " ++ endpoint.kind ++ " endpoint responded to metadata-only availability check")
          observedAt
      else
        runtimeEndpointUnavailable endpoint "configured endpoint returned a non-success status"
          observedAt

/-- `InferenceRuntimeEndpointCollector.Collect`, which never fails. -/
def collectRuntimeEndpoints (endpoints : List RuntimeEndpoint)
    (answers : RuntimeEndpoint → RuntimeAnswer) (observedAt : Int) : List Sample :=
  if endpoints.isEmpty then
    [runtimeEndpointUnavailability "runtime-endpoint-discovery"
      "no inference runtime endpoints are configured" observedAt]
  else
    (endpoints.mergeSort fun a b => decide (a.id ≤ b.id)).map (runtimeSample answers observedAt)

end Runtimes

section Agent

/-- The texts of a configuration that the collectors and the runner read. -/
structure AgentSettings where
  agentID : String
  hostID : String
  selectedProcesses : List String
  inferenceRuntimeProcesses : List String
  inferenceRuntimeEndpoints : List RuntimeEndpoint
  alertedContainers : List String
  containerInventoryEnabled : Bool
deriving DecidableEq

def endpointText (endpoint : Configuration.InferenceRuntimeEndpoint) : Option RuntimeEndpoint := do
  return ⟨← ofUtf8 endpoint.id, ← ofUtf8 endpoint.kind, ← ofUtf8 endpoint.baseURL⟩

/-- The settings of a configuration whose texts are UTF-8. -/
def settingsOf (config : Configuration.Config) : Option AgentSettings := do
  return {
    agentID := ← ofUtf8 config.agentID
    hostID := ← ofUtf8 config.hostID
    selectedProcesses := ← config.selectedProcesses.mapM ofUtf8
    inferenceRuntimeProcesses := ← config.inferenceRuntimeProcesses.mapM ofUtf8
    inferenceRuntimeEndpoints := ← config.inferenceRuntimeEndpoints.mapM endpointText
    alertedContainers := ← config.alertedContainers.mapM ofUtf8
    containerInventoryEnabled := config.containerInventoryEnabled }

/-- The identity of an envelope: the configured names, and what the sequence store returned. -/
def AgentSettings.identity (settings : AgentSettings) (bootID : String) (sequence : UInt64) :
    Identity where
  agentID := settings.agentID
  hostID := settings.hostID
  bootID := bootID
  sequence := sequence

/-- What the outside shows to all the collectors in one collection. Two of them read `/proc`, one
after the other. -/
structure LinuxSurroundings where
  cpu : CpuState
  files : HostFiles
  drm : DrmFiles
  nvidia : NvidiaOutputs
  xrtSmi : XrtSmi
  selectedTable : Option ProcTable
  runtimeTable : Option ProcTable
  isPrint : Char → Bool
  runtimes : RuntimeEndpoint → RuntimeAnswer
  inventory : InventoryAnswer

def LinuxSurroundings.shown (s : LinuxSurroundings) (settings : AgentSettings) : Surroundings where
  cpu := s.cpu
  files := s.files
  nvidia := s.nvidia
  alerted := settings.alertedContainers
  inventory := s.inventory

/-- The collectors of the agent in the order of `main`. -/
def linuxCollectors (settings : AgentSettings) (s : LinuxSurroundings) (observedAt : Int) :
    List Collected :=
  [hostReading (s.shown settings) observedAt,
    ⟨"linux_drm", some (collectDrm s.drm observedAt, [])⟩,
    ⟨"nvidia_smi", some (collectNvidia s.nvidia observedAt, [])⟩,
    ⟨"amd_xdna", some (collectXdna s.xrtSmi observedAt, [])⟩,
    ⟨"selected_processes",
      (collectSelectedProcesses settings.selectedProcesses s.selectedTable observedAt).map
        fun samples => (samples, [])⟩,
    ⟨"inference_runtime_processes", some (collectRuntimeProcesses s.isPrint
      settings.inferenceRuntimeProcesses s.runtimeTable observedAt, [])⟩,
    ⟨"inference_runtime_endpoints", some (collectRuntimeEndpoints
      settings.inferenceRuntimeEndpoints s.runtimes observedAt, [])⟩] ++
    if settings.containerInventoryEnabled then [inventoryReading (s.shown settings) observedAt]
    else []

end Agent

end NodeScope.Agent
