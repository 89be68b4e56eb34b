import NodeScope.Lib.Decimal
import NodeScope.Lib.HostPort
import NodeScope.Lib.IpAddress

/-!
# The configuration of an agent

`LoadConfig` of the agent with the checks in the source's order: the replicas it reports to, the
inference runtimes it polls, its credential and its certificates.

## Implementation notes

Go goes through a map of labels in no fixed order; here the labels are checked in the order in
which they are written, so that only the choice between two errors is fixed. The system is not
Windows.
-/

namespace NodeScope.Agent.Configuration

open Lib Lib.Check Lib.Text Lib.Decimal Lib.IpAddress Lib.Url

open Lib.Runes hiding Bytes

structure InferenceRuntimeEndpoint where
  id : Bytes
  kind : Bytes
  baseURL : Bytes
deriving DecidableEq

structure Config where
  agentID : Bytes
  hostID : Bytes
  credential : Bytes
  credentialFile : Bytes
  preferredEndpoint : Bytes
  secondaryEndpoint : Bytes
  collectionInterval : Int
  stateDirectory : Bytes
  caCertificatePath : Bytes
  clientCertificatePath : Bytes
  clientPrivateKeyPath : Bytes
  requireClientMTLS : Bool
  selectedProcesses : List Bytes
  inferenceRuntimeProcesses : List Bytes
  inferenceRuntimeEndpoints : List InferenceRuntimeEndpoint
  alertedContainers : List Bytes
  containerInventoryEnabled : Bool
  containerInventoryProxyURL : Bytes
deriving DecidableEq

/-- What `Lstat` tells about a file. -/
structure FileInfo where
  regular : Bool
  permissions : Nat

/-- The files that a credential is read from, with the texts of the system's errors. -/
structure CredentialFiles where
  lstat : Bytes → Except Bytes FileInfo
  readFile : Bytes → Except Bytes Bytes

def second : Int := 1000000000

def forbiddenDatabaseConfiguration : List String :=
  ["NODESCOPE_AGENT_DATABASE_URL", "NODESCOPE_AGENT_DB_PASSWORD",
    "NODESCOPE_AGENT_SUPABASE_DB_URL"]

def isAbs (path : Bytes) : Bool := path.head? == some 0x2f

def splitCSV (raw : Bytes) : List Bytes :=
  (raw.splitOn 0x2c).foldl (fun values candidate =>
    let candidate := trimSpaceBytes candidate
    if candidate.isEmpty || values.contains candidate then values else values ++ [candidate]) []

def hasDoubleDot (value : Bytes) : Bool := (value.zip value.tail).contains (0x2e, 0x2e)

def isSmall (b : UInt8) : Bool := 0x61 ≤ b && b ≤ 0x7a

def validNodeIdentity (value : Bytes) : Bool :=
  if value.length == 0 || 64 < value.length then false
  else if value.head? == some 0x2e || value.head? == some 0x2d || value.getLast? == some 0x2e ||
      value.getLast? == some 0x2d || hasDoubleDot value then
    false
  else value.all fun b => isSmall b || isDigit b || b == 0x2e || b == 0x2d

def validRuntimeEndpointID (value : Bytes) : Bool :=
  if value.isEmpty || 64 < value.length then false
  else if value.head? == some 0x2e || value.getLast? == some 0x2e || hasDoubleDot value then false
  else value.all fun b => isLetter b || isDigit b || b == 0x2e || b == 0x5f || b == 0x2d

def validateEndpointPort (label : Bytes) (parsed : URL) : Except Bytes Unit :=
  let rawPort := parsed.port
  if rawPort.isEmpty then .ok ()
  else if 1 < rawPort.length && rawPort.head? == some 0x30 then
    .error (label ++ utf8 " must use a canonical decimal port without leading zeros")
  else
    match atoi rawPort with
    | none => .error (label ++ utf8 " must use a port from 1 through 65535")
    | some port =>
        if 65535 < port then .error (label ++ utf8 " must use a port from 1 through 65535")
        else if port == 0 then .error (label ++ utf8 " must not use port zero")
        else .ok ()

/-- Whether a host is the text of an address of a kind. -/
def hostIs (kind : Bytes → Bool) (host : Bytes) : Bool := (parseIP host).any kind

def parseReplicaEndpoint (label value : Bytes) : Except Bytes URL := do
  let parsed ← orFail (parse value) (label ++ utf8 " must be an absolute https URL")
  failIf (parsed.scheme != utf8 "https" || parsed.host.isEmpty)
    (label ++ utf8 " must be an absolute https URL")
  failIf (parsed.hasUser || !parsed.rawQuery.isEmpty || !parsed.fragment.isEmpty)
    (label ++ utf8 " must not contain credentials, query parameters, or fragments")
  failIf (hostIs isUnspecified parsed.hostname)
    (label ++ utf8 " must not use an unspecified wildcard address")
  failIf (hostIs isLinkLocalUnicast parsed.hostname)
    (label ++ utf8 " must not use a link-local address")
  failIf (hostIs isMulticast parsed.hostname) (label ++ utf8 " must not use a multicast address")
  validateEndpointPort label parsed
  .ok parsed

/-- The port as a number writes it, where it is one. -/
def writtenPort (port : Bytes) : Bytes :=
  match atoi port with
  | some portNumber => itoa portNumber.toNat
  | none => port

def canonicalReplicaEndpoint (table : CaseTable) (parsed : URL) : Bytes :=
  let path := trimRight 0x2f parsed.escapedPath
  let hostname := trimRight 0x2e (toLower table parsed.hostname)
  let port := if parsed.port.isEmpty then utf8 "443" else parsed.port
  toLower table parsed.scheme ++ utf8 "://" ++ joinHostPort hostname (writtenPort port) ++ path

def isLoopbackRuntimeHost (table : CaseTable) (host : Bytes) : Bool :=
  let normalizedHost := trimRight 0x2e (trimSpaceBytes host)
  [utf8 "localhost", utf8 "localhost.localdomain", utf8 "ip6-localhost",
      utf8 "ip6-loopback"].contains (toLower table normalizedHost) ||
    hostIs isLoopback normalizedHost

def canonicalInferenceRuntimeEndpoint (table : CaseTable) (parsed : URL) : Bytes :=
  let port :=
    if parsed.port.isEmpty then
      if parsed.scheme == utf8 "http" then utf8 "80" else utf8 "443"
    else writtenPort parsed.port
  let hostname := trimRight 0x2e (toLower table parsed.hostname)
  toLower table parsed.scheme ++ utf8 "://" ++ joinHostPort hostname port

/-- How the errors name a runtime. -/
def runtimeLabel (id : Bytes) : Bytes := utf8 "inference runtime endpoint \"" ++ id ++ utf8 "\""

/-- The checks of a runtime's URL. -/
def parseRuntimeURL (table : CaseTable) (id baseURL : Bytes) : Except Bytes URL := do
  let label := runtimeLabel id
  let parsed ← orFail (parse baseURL) (label ++ utf8 " must be a credential-free HTTP(S) base URL")
  failIf (parsed.host.isEmpty || parsed.hasUser || !parsed.rawQuery.isEmpty ||
      !parsed.fragment.isEmpty || (!parsed.path.isEmpty && parsed.path != utf8 "/") ||
      (parsed.scheme != utf8 "http" && parsed.scheme != utf8 "https"))
    (label ++ utf8 " must be a credential-free HTTP(S) base URL")
  failIf (hostIs isUnspecified parsed.hostname)
    (label ++ utf8 " must not use an unspecified wildcard address")
  validateEndpointPort label parsed
  failIf (parsed.scheme == utf8 "http" && !isLoopbackRuntimeHost table parsed.hostname)
    (label ++ utf8 " must use HTTPS unless its host is loopback")
  .ok parsed

/-- The runtimes that were read so far. -/
structure Runtimes where
  seen : List Bytes
  seenDestinations : List Bytes
  endpoints : List InferenceRuntimeEndpoint

def trimSlash (value : Bytes) : Bytes :=
  if value.getLast? == some 0x2f then value.dropLast else value

/-- One round of `parseInferenceRuntimeEndpoints`. -/
def addRuntime (table : CaseTable) (runtimes : Runtimes) (candidate : Bytes) :
    Except Bytes Runtimes := do
  match (trimSpaceBytes candidate).splitOn 0x7c with
  | [id, kind, base] =>
      let endpoint : InferenceRuntimeEndpoint :=
        ⟨trimSpaceBytes id, trimSpaceBytes kind, trimSlash (trimSpaceBytes base)⟩
      let canonicalID := toLower table endpoint.id
      failIf (!validRuntimeEndpointID endpoint.id || runtimes.seen.contains canonicalID)
        (utf8 "inference runtime endpoint IDs must be unique and use letters, numbers, dot, " ++
          utf8 "underscore, or hyphen")
      failIf (!([utf8 "vllm", utf8 "llama_cpp", utf8 "lm_studio"].contains endpoint.kind))
        (runtimeLabel endpoint.id ++ utf8 " must use kind vllm, llama_cpp, or lm_studio")
      let parsed ← parseRuntimeURL table endpoint.id endpoint.baseURL
      let canonicalDestination := canonicalInferenceRuntimeEndpoint table parsed
      failIf (runtimes.seenDestinations.contains canonicalDestination)
        (runtimeLabel endpoint.id ++ utf8 " duplicates an existing runtime destination")
      .ok ⟨canonicalID :: runtimes.seen, canonicalDestination :: runtimes.seenDestinations,
        runtimes.endpoints ++ [endpoint]⟩
  | _ => .error (utf8 "NODESCOPE_INFERENCE_RUNTIME_ENDPOINTS entries must use id|kind|base-url")

def parseInferenceRuntimeEndpoints (table : CaseTable) (raw : Bytes) :
    Except Bytes (List InferenceRuntimeEndpoint) :=
  if (trimSpaceBytes raw).isEmpty then .ok []
  else ((raw.splitOn 0x3b).foldlM (addRuntime table) ⟨[], [], []⟩).map Runtimes.endpoints

def loadCredential (files : CredentialFiles) (path : Bytes) (getenv : Environment)
    (developmentMode : Bool) : Except Bytes Bytes := do
  let legacyEnvironmentCredential ← boolSetting getenv "NODESCOPE_ALLOW_LEGACY_ENV_CREDENTIAL"
  failIf (legacyEnvironmentCredential && !developmentMode)
    (utf8 "NODESCOPE_ALLOW_LEGACY_ENV_CREDENTIAL=true requires NODESCOPE_DEVELOPMENT_MODE=true")
  if !path.isEmpty then
    failIf (!isAbs path) (utf8 "NODESCOPE_AGENT_CREDENTIAL_FILE must be an absolute path")
    let info ← (files.lstat path).mapError (utf8 "lstat NodeScope agent credential file: " ++ ·)
    failIf (!info.regular)
      (utf8 "NodeScope agent credential file must be a direct regular file")
    failIf (info.permissions &&& 0o077 != 0)
      (utf8 "NodeScope agent credential file must not be group- or world-accessible")
    let contents ←
      (files.readFile path).mapError (utf8 "read NodeScope agent credential file: " ++ ·)
    failIf (trimSpaceBytes contents).isEmpty (utf8 "NodeScope agent credential file is empty")
    .ok (trimSpaceBytes contents)
  else if legacyEnvironmentCredential && developmentMode &&
      !(setting getenv "NODESCOPE_AGENT_CREDENTIAL").isEmpty then
    .ok (setting getenv "NODESCOPE_AGENT_CREDENTIAL")
  else
    .error (utf8 "NODESCOPE_AGENT_CREDENTIAL_FILE is required; environment credentials require " ++
      utf8 "NODESCOPE_ALLOW_LEGACY_ENV_CREDENTIAL=true and NODESCOPE_DEVELOPMENT_MODE=true")

/-- The settings that `LoadConfig` reads before it checks any of them. -/
def readSettings (getenv : Environment) : Config where
  agentID := setting getenv "NODESCOPE_AGENT_ID"
  hostID := setting getenv "NODESCOPE_HOST_ID"
  credential := []
  credentialFile := setting getenv "NODESCOPE_AGENT_CREDENTIAL_FILE"
  preferredEndpoint := setting getenv "NODESCOPE_PRIMARY_ENDPOINT"
  secondaryEndpoint := setting getenv "NODESCOPE_SECONDARY_ENDPOINT"
  collectionInterval := 0
  stateDirectory :=
    settingOr getenv "NODESCOPE_AGENT_STATE_DIRECTORY" "/var/lib/nodescope-agent"
  caCertificatePath := setting getenv "NODESCOPE_CA_CERT_PATH"
  clientCertificatePath := setting getenv "NODESCOPE_TLS_CLIENT_CERT_PATH"
  clientPrivateKeyPath := setting getenv "NODESCOPE_TLS_CLIENT_KEY_PATH"
  requireClientMTLS := false
  selectedProcesses := splitCSV (getenv "NODESCOPE_SELECTED_PROCESS_NAMES")
  inferenceRuntimeProcesses := splitCSV (getenv "NODESCOPE_INFERENCE_RUNTIME_PROCESS_NAMES")
  inferenceRuntimeEndpoints := []
  alertedContainers := splitCSV (getenv "NODESCOPE_ALERT_CONTAINER_IDS_OR_NAMES")
  containerInventoryEnabled := false
  containerInventoryProxyURL := setting getenv "NODESCOPE_CONTAINER_INVENTORY_PROXY_URL"

/-- The checks of the directory and the certificates, in `LoadConfig`. -/
def checkPaths (config : Config) : Except Bytes Unit := do
  failIf (!isAbs config.stateDirectory)
    (utf8 "NODESCOPE_AGENT_STATE_DIRECTORY must be an absolute path")
  forAll (fun (label, path) => failIf (!path.isEmpty && !isAbs path)
      (utf8 (label ++ " must be an absolute path")))
    [("NODESCOPE_CA_CERT_PATH", config.caCertificatePath),
      ("NODESCOPE_TLS_CLIENT_CERT_PATH", config.clientCertificatePath),
      ("NODESCOPE_TLS_CLIENT_KEY_PATH", config.clientPrivateKeyPath)]
  failIf (config.clientCertificatePath.isEmpty != config.clientPrivateKeyPath.isEmpty)
    (utf8 "NODESCOPE_TLS_CLIENT_CERT_PATH and NODESCOPE_TLS_CLIENT_KEY_PATH must be set together")

/-- The certificates that mutual TLS needs, in `LoadConfig`. -/
def checkMutualTLS (config : Config) : Except Bytes Unit := do
  failIf (config.requireClientMTLS && config.caCertificatePath.isEmpty)
    (utf8 "NODESCOPE_CA_CERT_PATH is required when NODESCOPE_REQUIRE_CLIENT_MTLS=true")
  failIf (config.requireClientMTLS && config.clientCertificatePath.isEmpty)
    (utf8 "NODESCOPE_TLS_CLIENT_CERT_PATH and NODESCOPE_TLS_CLIENT_KEY_PATH are required when " ++
      utf8 "NODESCOPE_REQUIRE_CLIENT_MTLS=true")

/-- The checks of the two identities, in `LoadConfig`. -/
def checkIdentities (config : Config) : Except Bytes Unit :=
  forAll (fun (label, value) => do
      failIf value.isEmpty (utf8 (label ++ " is required"))
      failIf (!validNodeIdentity value)
        (utf8 (label ++ " must use 1-64 lowercase letters, numbers, dots, or hyphens; it must " ++
          "start and end with a letter or number and must not contain consecutive dots")))
    [("NODESCOPE_AGENT_ID", config.agentID), ("NODESCOPE_HOST_ID", config.hostID)]

/-- The two replicas, as `LoadConfig` accepts them. -/
def loadReplicaEndpoints (table : CaseTable) (getenv : Environment) (developmentMode : Bool)
    (config : Config) : Except Bytes (URL × URL) := do
  let allowLoopbackReplicaEndpoints ←
    boolSetting getenv "NODESCOPE_ALLOW_LOOPBACK_REPLICA_ENDPOINTS"
  failIf (allowLoopbackReplicaEndpoints && !developmentMode)
    (utf8 "NODESCOPE_ALLOW_LOOPBACK_REPLICA_ENDPOINTS=true requires " ++
      utf8 "NODESCOPE_DEVELOPMENT_MODE=true")
  let primary ← parseReplicaEndpoint (utf8 "NODESCOPE_PRIMARY_ENDPOINT") config.preferredEndpoint
  let secondary ←
    parseReplicaEndpoint (utf8 "NODESCOPE_SECONDARY_ENDPOINT") config.secondaryEndpoint
  failIf (canonicalReplicaEndpoint table primary == canonicalReplicaEndpoint table secondary)
    (utf8 "NODESCOPE_PRIMARY_ENDPOINT and NODESCOPE_SECONDARY_ENDPOINT must identify distinct " ++
      utf8 "replicas")
  forAll (fun (label, endpoint) =>
      failIf (isLoopbackRuntimeHost table (URL.hostname endpoint) && !allowLoopbackReplicaEndpoints)
        (utf8 (label ++ " must not use a loopback host unless " ++
          "NODESCOPE_ALLOW_LOOPBACK_REPLICA_ENDPOINTS=true and NODESCOPE_DEVELOPMENT_MODE=true")))
    [("NODESCOPE_PRIMARY_ENDPOINT", primary), ("NODESCOPE_SECONDARY_ENDPOINT", secondary)]
  .ok (primary, secondary)

/-- The seconds between two collections, in `LoadConfig`. -/
def loadInterval (getenv : Environment) : Except Bytes Int :=
  let raw := setting getenv "NODESCOPE_COLLECTION_INTERVAL_SECONDS"
  if raw.isEmpty then .ok 5
  else if 1 < raw.length && raw.head? == some 0x30 then
    .error (utf8 "NODESCOPE_COLLECTION_INTERVAL_SECONDS must use a canonical decimal value from 1 " ++
      utf8 "to 60")
  else
    match atoi raw with
    | some parsed =>
        if parsed < 1 || 60 < parsed then
          .error (utf8 "NODESCOPE_COLLECTION_INTERVAL_SECONDS must be an integer from 1 to 60")
        else .ok parsed
    | none =>
        .error (utf8 "NODESCOPE_COLLECTION_INTERVAL_SECONDS must be an integer from 1 to 60")

/-- The checks of the container inventory, in `LoadConfig`. -/
def checkInventory (config : Config) : Except Bytes Unit := do
  let label := utf8 "NODESCOPE_CONTAINER_INVENTORY_PROXY_URL"
  if !config.containerInventoryProxyURL.isEmpty then
    let parsed ← orFail (parse config.containerInventoryProxyURL)
      (label ++ utf8 " must be an absolute credential-free https URL without query parameters or " ++
        utf8 "fragments")
    failIf (parsed.scheme != utf8 "https" || parsed.host.isEmpty || parsed.hasUser ||
        !parsed.rawQuery.isEmpty || !parsed.fragment.isEmpty)
      (label ++ utf8 " must be an absolute credential-free https URL without query parameters or " ++
        utf8 "fragments")
    failIf (hostIs isUnspecified parsed.hostname)
      (label ++ utf8 " must not use an unspecified wildcard address")
    validateEndpointPort label parsed
  failIf (config.containerInventoryEnabled && config.containerInventoryProxyURL.isEmpty)
    (label ++ utf8 " is required when NODESCOPE_DOCKER_INVENTORY_ENABLED=true")
  failIf (config.containerInventoryEnabled && config.caCertificatePath.isEmpty)
    (utf8 "NODESCOPE_CA_CERT_PATH is required when NODESCOPE_DOCKER_INVENTORY_ENABLED=true")
  failIf (config.containerInventoryEnabled && config.clientCertificatePath.isEmpty)
    (utf8 "NODESCOPE_TLS_CLIENT_CERT_PATH and NODESCOPE_TLS_CLIENT_KEY_PATH are required when " ++
      utf8 "NODESCOPE_DOCKER_INVENTORY_ENABLED=true")

def loadConfig (table : CaseTable) (files : CredentialFiles) (getenv : Environment) :
    Except Bytes Config := do
  forAll (fun key => failIf (!(setting getenv key).isEmpty)
      (utf8 (key ++ " must not be configured; agents use authenticated HTTPS ingestion and never " ++
        "connect directly to PostgreSQL")))
    forbiddenDatabaseConfiguration
  let endpoints ←
    parseInferenceRuntimeEndpoints table (getenv "NODESCOPE_INFERENCE_RUNTIME_ENDPOINTS")
  let config := { readSettings getenv with inferenceRuntimeEndpoints := endpoints }
  checkPaths config
  let required ← boolSetting getenv "NODESCOPE_REQUIRE_CLIENT_MTLS"
  let config := { config with requireClientMTLS := required }
  checkMutualTLS config
  checkIdentities config
  let developmentMode ← boolSetting getenv "NODESCOPE_DEVELOPMENT_MODE"
  let credential ← loadCredential files config.credentialFile getenv developmentMode
  let _ ← loadReplicaEndpoints table getenv developmentMode config
  let intervalSeconds ← loadInterval getenv
  let enabled ← boolSetting getenv "NODESCOPE_DOCKER_INVENTORY_ENABLED"
  let config := { config with
    credential, collectionInterval := intervalSeconds * second, containerInventoryEnabled := enabled }
  checkInventory config
  .ok config

section Accepted

variable {table : CaseTable} {files : CredentialFiles} {getenv : Environment} {config : Config}
  {label value : Bytes} {u primary secondary : URL} {developmentMode : Bool}

/-- The port of an accepted endpoint: none, or a number without a leading zero. -/
theorem validateEndpointPort_eq_ok :
    validateEndpointPort label u = .ok () ↔
      u.port = [] ∨ Canonical u.port ∧ 1 ≤ decimal u.port ∧ decimal u.port ≤ 65535 := by
  rw [validateEndpointPort]
  by_cases hempty : u.port = []
  · simp [hempty]
  · have hdigits := port_digits u
    rw [if_neg (by simpa using hempty), atoi_digits hempty hdigits]
    by_cases hzero : (1 < u.port.length && u.port.head? == some 0x30) = true
    · have hnot : ¬ Canonical u.port := by
        simp only [Bool.and_eq_true, decide_eq_true_eq, beq_iff_eq] at hzero
        exact fun h => h.2.2 hzero.1 hzero.2
      rw [if_pos hzero]
      simp [hempty, hnot]
    · have hcanonical : Canonical u.port := by
        simp only [Bool.and_eq_true, decide_eq_true_eq, beq_iff_eq, not_and] at hzero
        exact ⟨hempty, hdigits, hzero⟩
      rw [if_neg hzero]
      by_cases hbig : 2 ^ 63 ≤ decimal u.port
      · rw [if_pos hbig]
        simp only [reduceCtorEq, hempty, false_or, false_iff, not_and, Nat.not_le]
        omega
      · rw [if_neg hbig]
        simp only [hempty, hcanonical, false_or, true_and]
        split
        · simp only [reduceCtorEq, false_iff, not_and, Nat.not_le]
          omega
        split
        · rename_i hport
          simp only [beq_iff_eq] at hport
          simp only [reduceCtorEq, false_iff, not_and, Nat.not_le]
          omega
        · rename_i hport
          simp only [beq_iff_eq] at hport
          simp only [true_iff]
          omega

/-- What an accepted replica endpoint fulfils. -/
structure AcceptedReplica (value : Bytes) (u : URL) : Prop where
  parsed : parse value = some u
  scheme : u.scheme = utf8 "https"
  host : u.host ≠ []
  user : u.hasUser = false
  query : u.rawQuery = []
  fragment : u.fragment = []
  unspecified : hostIs isUnspecified u.hostname = false
  linkLocal : hostIs isLinkLocalUnicast u.hostname = false
  multicast : hostIs isMulticast u.hostname = false
  port : u.port = [] ∨ Canonical u.port ∧ 1 ≤ decimal u.port ∧ decimal u.port ≤ 65535

theorem parseReplicaEndpoint_eq_ok :
    parseReplicaEndpoint label value = .ok u ↔ AcceptedReplica value u := by
  rw [parseReplicaEndpoint]
  simp only [orFail_bind_eq_ok, unit_bind_eq_ok, failIf_eq_ok]
  constructor
  · rintro ⟨parsed, hparse, hscheme, huser, hunspecified, hlink, hmulticast, hport, heq⟩
    obtain rfl := Except.ok.inj heq
    simp only [Bool.or_eq_false_iff, bne_eq_false_iff_eq, List.isEmpty_eq_false_iff] at hscheme
    simp only [Bool.or_eq_false_iff, Bool.not_eq_false', List.isEmpty_iff] at huser
    exact ⟨hparse, hscheme.1, hscheme.2, huser.1.1, huser.1.2, huser.2, hunspecified, hlink,
      hmulticast, validateEndpointPort_eq_ok.mp hport⟩
  · rintro ⟨hparse, hscheme, hhost, huser, hquery, hfragment, hunspecified, hlink, hmulticast,
      hport⟩
    refine ⟨u, hparse, ?_, ?_, hunspecified, hlink, hmulticast,
      validateEndpointPort_eq_ok.mpr hport, rfl⟩
    · simp [hscheme, hhost]
    · simp [huser, hquery, hfragment]

theorem loadReplicaEndpoints_eq_ok :
    loadReplicaEndpoints table getenv developmentMode config = .ok (primary, secondary) ↔
      ∃ allow, boolSetting getenv "NODESCOPE_ALLOW_LOOPBACK_REPLICA_ENDPOINTS" = .ok allow ∧
        (allow = true → developmentMode = true) ∧
        AcceptedReplica config.preferredEndpoint primary ∧
        AcceptedReplica config.secondaryEndpoint secondary ∧
        canonicalReplicaEndpoint table primary ≠ canonicalReplicaEndpoint table secondary ∧
        (allow = false → ∀ u ∈ [primary, secondary],
          isLoopbackRuntimeHost table u.hostname = false) := by
  simp only [loadReplicaEndpoints, bind_eq_ok, failIf_eq_ok, forAll_eq_ok,
    parseReplicaEndpoint_eq_ok]
  constructor
  · rintro ⟨allow, hallow, -, hmode, p, hp, s, hs, -, hdistinct, -, hloopback, heq⟩
    obtain ⟨rfl, rfl⟩ := Prod.mk.inj (Except.ok.inj heq)
    refine ⟨allow, hallow, ?_, hp, hs, by simpa using hdistinct, ?_⟩
    · rintro rfl
      simpa using hmode
    · rintro rfl
      simpa using hloopback
  · rintro ⟨allow, hallow, hmode, hp, hs, hdistinct, hloopback⟩
    refine ⟨allow, hallow, (), ?_, primary, hp, secondary, hs, (), by simpa using hdistinct, (),
      ?_, rfl⟩
    · cases allow with
      | false => rfl
      | true => simp [hmode rfl]
    · cases allow with
      | false => simpa using hloopback rfl
      | true => simp

/-- The configuration of an agent names two replicas that were accepted. -/
theorem replicas_of_loadConfig (h : loadConfig table files getenv = .ok config) :
    ∃ developmentMode primary secondary,
      loadReplicaEndpoints table getenv developmentMode config = .ok (primary, secondary) := by
  simp only [loadConfig, bind_eq_ok] at h
  obtain ⟨-, -, endpoints, -, -, -, required, -, -, -, -, -, developmentMode, -, credential, -,
    ⟨primary, secondary⟩, hreplicas, interval, -, enabled, -, -, -, heq⟩ := h
  obtain rfl := Except.ok.inj heq
  exact ⟨developmentMode, primary, secondary, hreplicas⟩

theorem runtimes_of_loadConfig (h : loadConfig table files getenv = .ok config) :
    parseInferenceRuntimeEndpoints table (getenv "NODESCOPE_INFERENCE_RUNTIME_ENDPOINTS") =
      .ok config.inferenceRuntimeEndpoints := by
  simp only [loadConfig, bind_eq_ok] at h
  obtain ⟨-, -, endpoints, hendpoints, -, -, required, -, -, -, -, -, developmentMode, -,
    credential, -, replicas, -, interval, -, enabled, -, -, -, heq⟩ := h
  obtain rfl := Except.ok.inj heq
  exact hendpoints

end Accepted

end NodeScope.Agent.Configuration
