import NodeScope.Lib.Decimal
import NodeScope.Lib.HostPort

/-!
# The configuration of the server

`LoadConfig` of the server, which reads the two replica endpoints that the agents read, and decides
in its own way whether they are two replicas.

## Implementation notes

The URL of the runtime database is put together from its parts as `URL.String` writes it, and then
checked as if it had been set.
-/

namespace NodeScope.App.Configuration

open Lib Lib.Check Lib.Text Lib.Decimal Lib.Url

open Lib.Runes hiding Bytes

def replicaPreferred : Bytes := utf8 "preferred"

def replicaSecondary : Bytes := utf8 "secondary"

structure Config where
  replicaID : Bytes
  replicaRole : Bytes
  listenAddress : Bytes
  supabaseURL : Bytes
  runtimeDatabaseURL : Bytes
  allowJSONIngest : Bool
  primaryEndpoint : Bytes
  secondaryEndpoint : Bytes
  certificatePath : Bytes
  privateKeyPath : Bytes
  agentClientCAPath : Bytes
  requireAgentMTLS : Bool
  proxyConfigPath : Bytes
  mcpConfigPath : Bytes
  apiConfigPath : Bytes
  readyTimeout : Int
deriving DecidableEq

def second : Int := 1000000000

def canonicalReplicaEndpoint (table : CaseTable) (name raw : Bytes) : Except Bytes Bytes := do
  failIf raw.isEmpty (name ++ utf8 " is required")
  let parsed ← orFail (parseRequestURI raw)
    (name ++ utf8 " must be a credential-free HTTPS replica base URL")
  failIf (parsed.scheme != utf8 "https" || parsed.host.isEmpty || parsed.hasUser ||
      !parsed.rawQuery.isEmpty || !parsed.fragment.isEmpty ||
      (!parsed.path.isEmpty && parsed.path != utf8 "/"))
    (name ++ utf8 " must be a credential-free HTTPS replica base URL")
  let host := toLower table parsed.hostname
  failIf host.isEmpty (name ++ utf8 " must be a credential-free HTTPS replica base URL")
  .ok (utf8 "https://" ++
    joinHostPort host (if parsed.port.isEmpty then utf8 "443" else parsed.port))

/-- The settings that `LoadConfig` reads before it checks any of them. -/
def readSettings (getenv : Environment) : Config where
  replicaID := setting getenv "NODESCOPE_REPLICA_ID"
  replicaRole := setting getenv "NODESCOPE_REPLICA_ROLE"
  listenAddress := settingOr getenv "NODESCOPE_LISTEN_ADDRESS" ":8080"
  supabaseURL := setting getenv "NODESCOPE_SUPABASE_URL"
  runtimeDatabaseURL := setting getenv "NODESCOPE_RUNTIME_DATABASE_URL"
  allowJSONIngest := equalFold (setting getenv "NODESCOPE_ALLOW_JSON_INGEST") "true"
  primaryEndpoint := setting getenv "NODESCOPE_PRIMARY_ENDPOINT"
  secondaryEndpoint := setting getenv "NODESCOPE_SECONDARY_ENDPOINT"
  certificatePath := setting getenv "NODESCOPE_TLS_CERT_PATH"
  privateKeyPath := setting getenv "NODESCOPE_TLS_KEY_PATH"
  agentClientCAPath := setting getenv "NODESCOPE_AGENT_CLIENT_CA_CERT_PATH"
  requireAgentMTLS := equalFold (setting getenv "NODESCOPE_REQUIRE_AGENT_MTLS") "true"
  proxyConfigPath := setting getenv "NODESCOPE_PROXY_CONFIG_PATH"
  mcpConfigPath := setting getenv "NODESCOPE_MCP_CONFIG_PATH"
  apiConfigPath := setting getenv "NODESCOPE_API_CONFIG_PATH"
  readyTimeout := 5 * second

/-- The two replicas of `LoadConfig`, which must differ. -/
def loadReplicaEndpoints (table : CaseTable) (config : Config) : Except Bytes Unit := do
  let primaryEndpoint ←
    canonicalReplicaEndpoint table (utf8 "NODESCOPE_PRIMARY_ENDPOINT") config.primaryEndpoint
  let secondaryEndpoint ←
    canonicalReplicaEndpoint table (utf8 "NODESCOPE_SECONDARY_ENDPOINT") config.secondaryEndpoint
  failIf (primaryEndpoint == secondaryEndpoint)
    (utf8 "NODESCOPE_PRIMARY_ENDPOINT and NODESCOPE_SECONDARY_ENDPOINT must identify different " ++
      utf8 "replicas")

/-- Go's `escape` of a user or a password. -/
def escapeUser (s : Bytes) : Bytes :=
  s.flatMap fun c =>
    if isLetter c || isDigit c || (utf8 "-_.~$&+,;=").contains c then [c]
    else [0x25, upperHex (c / 16), upperHex (c % 16)]

def buildRuntimeDatabaseURL (getenv : Environment) : Except Bytes Bytes := do
  let host := setting getenv "NODESCOPE_RUNTIME_DB_HOST"
  let password := getenv "NODESCOPE_RUNTIME_DB_PASSWORD"
  failIf (host.isEmpty || password.isEmpty)
    (utf8 "NODESCOPE_RUNTIME_DB_HOST and NODESCOPE_RUNTIME_DB_PASSWORD are required together")
  let port := settingOr getenv "NODESCOPE_RUNTIME_DB_PORT" "5432"
  failIf (atoi port).isNone (utf8 "NODESCOPE_RUNTIME_DB_PORT must be numeric")
  let user := settingOr getenv "NODESCOPE_RUNTIME_DB_USER" "nodescope_runtime_login"
  let databaseName := settingOr getenv "NODESCOPE_RUNTIME_DB_NAME" "postgres"
  .ok (utf8 "postgresql://" ++ escapeUser user ++ utf8 ":" ++ escapeUser password ++ utf8 "@" ++
    escape .host (joinHostPort host port) ++ escape .path (utf8 "/" ++ databaseName) ++
    utf8 "?sslmode=require")

/-- The runtime database's URL, set or put together, in `LoadConfig`. -/
def loadRuntimeDatabaseURL (getenv : Environment) (config : Config) : Except Bytes Bytes :=
  if config.runtimeDatabaseURL.isEmpty && !(setting getenv "NODESCOPE_RUNTIME_DB_HOST").isEmpty then
    buildRuntimeDatabaseURL getenv
  else .ok config.runtimeDatabaseURL

/-- The check of Supabase's URL, in `LoadConfig`. -/
def checkSupabase (config : Config) : Except Bytes Unit :=
  let supabase := parseRequestURI config.supabaseURL
  failIf (!config.supabaseURL.isEmpty &&
      !supabase.any fun parsed => parsed.scheme == utf8 "https" && !parsed.host.isEmpty)
    (utf8 "NODESCOPE_SUPABASE_URL must be an absolute https URL when configured")

/-- The check of the runtime database's URL, in `LoadConfig`. -/
def checkRuntimeDatabase (config : Config) : Except Bytes Unit :=
  let database := parse config.runtimeDatabaseURL
  failIf (!config.runtimeDatabaseURL.isEmpty &&
      !database.any fun parsed =>
        (parsed.scheme == utf8 "postgres" || parsed.scheme == utf8 "postgresql") &&
          !parsed.host.isEmpty && parsed.hasUser)
    (utf8 "NODESCOPE_RUNTIME_DATABASE_URL must be a PostgreSQL URL with credentials when " ++
      utf8 "configured")

/-- The checks of the certificates, in `LoadConfig`. -/
def checkCertificates (config : Config) : Except Bytes Unit := do
  failIf (config.certificatePath.isEmpty != config.privateKeyPath.isEmpty)
    (utf8 "NODESCOPE_TLS_CERT_PATH and NODESCOPE_TLS_KEY_PATH must be set together")
  failIf (config.requireAgentMTLS &&
      (config.certificatePath.isEmpty || config.agentClientCAPath.isEmpty))
    (utf8 "NODESCOPE_REQUIRE_AGENT_MTLS requires server TLS certificate/key and " ++
      utf8 "NODESCOPE_AGENT_CLIENT_CA_CERT_PATH")

def loadConfig (table : CaseTable) (getenv : Environment) : Except Bytes Config := do
  let config := readSettings getenv
  failIf config.replicaID.isEmpty (utf8 "NODESCOPE_REPLICA_ID is required")
  failIf (config.replicaRole != replicaPreferred && config.replicaRole != replicaSecondary)
    (utf8 "NODESCOPE_REPLICA_ROLE must be preferred or secondary")
  loadReplicaEndpoints table config
  checkSupabase config
  let runtimeURL ← loadRuntimeDatabaseURL getenv config
  let config := { config with runtimeDatabaseURL := runtimeURL }
  checkRuntimeDatabase config
  checkCertificates config
  .ok config

end NodeScope.App.Configuration
