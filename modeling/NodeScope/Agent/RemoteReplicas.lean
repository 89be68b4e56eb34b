import NodeScope.Agent.Configuration

/-!
# Which replicas an agent talks to

An agent without the setting for loopback replicas is to report to other machines only. Its checks
look at the host as it is written, and at the host without dots for loopback; a zone is never
taken away, and an empty host passes them all.
-/

namespace NodeScope.Agent.Configuration

open Lib Lib.Check Lib.Text Lib.Decimal Lib.IpAddress Lib.Url

open Lib.Runes hiding Bytes

/-- A host without the zone of an IPv6 address. -/
def removeZone (host : Bytes) : Bytes :=
  match cutAt percent host with
  | (address, some _) => if address.contains colon then address else host
  | (_, none) => host

/-- A host without dots at its end and without a zone. -/
def plainHost (host : Bytes) : Bytes := trimRight dot (removeZone host)

def loopbackNames : List Bytes :=
  [utf8 "localhost", utf8 "localhost.localdomain", utf8 "ip6-localhost", utf8 "ip6-loopback"]

/-- A destination on another machine. -/
structure Remote (table : CaseTable) (u : URL) : Prop where
  host : u.hostname ≠ []
  name : toLower table (plainHost u.hostname) ∉ loopbackNames
  loopback : hostIs isLoopback (plainHost u.hostname) = false
  unspecified : hostIs isUnspecified (plainHost u.hostname) = false
  linkLocal : hostIs isLinkLocalUnicast (plainHost u.hostname) = false
  multicast : hostIs isMulticast (plainHost u.hostname) = false
  port : u.port = [] ∨ ∃ n : Nat, u.port = itoa n ∧ 1 ≤ n ∧ n ≤ 65535

/-- How the hosts are written that the checks see through: there is a host, no unspecified,
link-local or multicast address stands before dots, and no address that is not to be used before
a zone. -/
structure PlainlyWritten (u : URL) : Prop where
  host : u.hostname ≠ []
  dotted : u.hostname.getLast? = some dot → ∀ ip, parseIP (trimRight dot u.hostname) = some ip →
    isUnspecified ip = false ∧ isLinkLocalUnicast ip = false ∧ isMulticast ip = false
  zoned : ∀ address zone, u.hostname = address ++ percent :: zone → colon ∈ address →
    ∀ ip, parseIP (trimRight dot address) = some ip → isLoopback ip = false ∧
      isUnspecified ip = false ∧ isLinkLocalUnicast ip = false ∧ isMulticast ip = false

section Hosts

variable {table : CaseTable} {host : Bytes} {ip : Bytes} {kind : Bytes → Bool}

theorem hostIs_eq_true : hostIs kind host = true ↔ ∃ ip, parseIP host = some ip ∧ kind ip = true := by
  rw [hostIs, Option.any_eq_true]

theorem hostIs_eq_false :
    hostIs kind host = false ↔ ∀ ip, parseIP host = some ip → kind ip = false := by
  rw [← Bool.not_eq_true, hostIs_eq_true]
  simp

theorem printed_of_addressByte {b : UInt8} (h : addressByte b = true) : printed b = true := by
  simp only [addressByte, isHexDigit, Url.hexValue, Url.isDigit, dot, colon, Bool.or_eq_true,
    beq_iff_eq, Bool.and_eq_true, decide_eq_true_eq, UInt8.le_iff_toNat_le,
    UInt8.reduceToNat] at h
  simp only [printed, Bool.and_eq_true, decide_eq_true_eq, UInt8.le_iff_toNat_le,
    UInt8.lt_iff_toNat_lt, UInt8.reduceToNat]
  obtain (h | rfl) | rfl := h
  · split_ifs at h
    · omega
    · omega
    · omega
    · cases h
  · decide
  · decide

theorem loopbackNames_bytes :
    ∀ name ∈ loopbackNames, (∀ b ∈ name, printed b = true) ∧ colon ∉ name ∧ percent ∉ name := by
  decide +kernel

/-- White space around a host is no part of it where the host without dots has a meaning. -/
theorem trimSpaceBytes_host (h : ∀ b ∈ toLower table (trimRight dot host), printed b = true) :
    trimSpaceBytes host = host := by
  apply @trimSpaceBytes_of_toLower table
  have hdot : dot < 0x41 := by decide
  rw [toLower_trimRight hdot host]
  intro b hb
  obtain hb | hb := List.mem_append.mp hb
  · exact h b hb
  · rw [List.eq_of_mem_replicate hb]
    decide

theorem name_of_isLoopback (h : isLoopbackRuntimeHost table host = false) :
    toLower table (trimRight dot host) ∉ loopbackNames := by
  intro hname
  have hspace := trimSpaceBytes_host (loopbackNames_bytes _ hname).1
  rw [isLoopbackRuntimeHost, hspace, Bool.or_eq_false_iff] at h
  have hnot := h.1
  rw [← Bool.not_eq_true, List.contains_iff_mem] at hnot
  exact hnot hname

/-- Dots after an address do not hide that it is a loopback address. -/
theorem loopback_of_isLoopback (h : isLoopbackRuntimeHost table host = false) :
    hostIs isLoopback (trimRight dot host) = false := by
  rw [hostIs_eq_false]
  intro ip hip
  have hprinted : ∀ b ∈ host, printed b = true := by
    intro b hb
    rw [← trimRight_append_trailing dot host] at hb
    obtain hb | hb := List.mem_append.mp hb
    · exact printed_of_addressByte (parseIP_bytes hip b hb)
    · rw [List.eq_of_mem_replicate hb]
      decide
  rw [isLoopbackRuntimeHost, trimSpaceBytes_of_printed hprinted, Bool.or_eq_false_iff] at h
  exact hostIs_eq_false.mp h.2 ip hip

theorem mem_trimRight {b : UInt8} (hb : b ∈ host) (hne : b ≠ dot) : b ∈ trimRight dot host := by
  rw [← trimRight_append_trailing dot host] at hb
  obtain hb | hb := List.mem_append.mp hb
  · exact hb
  · exact absurd (List.eq_of_mem_replicate hb) hne

/-- A host with a sign that no address holds is none of a kind. -/
theorem hostIs_of_percent (h : percent ∈ host) : hostIs kind host = false := by
  rw [hostIs_eq_false]
  intro ip hip
  have hbyte := parseIP_bytes hip percent h
  cases hbyte

theorem not_loopbackName {b : UInt8} (hb : b = colon ∨ b = percent) (hmem : b ∈ host) :
    toLower table host ∉ loopbackNames := by
  intro hname
  obtain ⟨-, hcolon, hpercent⟩ := loopbackNames_bytes _ hname
  obtain rfl | rfl := hb
  · exact hcolon (mem_toLower_of_mem (by decide) hmem)
  · exact hpercent (mem_toLower_of_mem (by decide) hmem)

/-- The three forms of a host: without a zone, an address with a zone, and a name with the sign
of a zone. -/
theorem plainHost_cases (host : Bytes) :
    (percent ∉ host ∧ plainHost host = trimRight dot host) ∨
      (∃ address zone, host = address ++ percent :: zone ∧ colon ∈ address ∧
        plainHost host = trimRight dot address) ∨
      percent ∈ host ∧ plainHost host = trimRight dot host := by
  obtain ⟨hmem, hcut⟩ | ⟨address, zone, hhost, -, hcut⟩ := cutAt_cases percent host
  · exact Or.inl ⟨hmem, by rw [plainHost, removeZone, hcut]⟩
  · by_cases hcolon : colon ∈ address
    · refine Or.inr (Or.inl ⟨address, zone, hhost, hcolon, ?_⟩)
      rw [plainHost, removeZone, hcut]
      simp [hcolon]
    · refine Or.inr (Or.inr ⟨by simp [hhost], ?_⟩)
      rw [plainHost, removeZone, hcut]
      simp [hcolon]

theorem plainHost_zoned {address : Bytes} (zone : Bytes) (hpercent : percent ∉ address)
    (hcolon : colon ∈ address) :
    plainHost (address ++ percent :: zone) = trimRight dot address := by
  rw [plainHost, removeZone, cutAt_append hpercent]
  simp [hcolon]

end Hosts

section Endpoints

variable {table : CaseTable} {files : CredentialFiles} {getenv : Environment} {config : Config}
  {value : Bytes} {u : URL}

theorem port_of_accepted (h : AcceptedReplica value u) :
    u.port = [] ∨ ∃ n : Nat, u.port = itoa n ∧ 1 ≤ n ∧ n ≤ 65535 := by
  obtain hempty | ⟨hcanonical, hlow, hhigh⟩ := h.port
  · exact Or.inl hempty
  · exact Or.inr ⟨_, (itoa_decimal hcanonical).1.symm, hlow, hhigh⟩

/-- An accepted endpoint is on another machine exactly if its host is written so that the checks
see through it. -/
theorem remote_iff (h : AcceptedReplica value u)
    (hloopback : isLoopbackRuntimeHost table u.hostname = false) :
    Remote table u ↔ PlainlyWritten u := by
  constructor
  · intro hremote
    refine ⟨hremote.host, fun hdot ip hip => ?_, fun address zone hhost hcolon ip hip => ?_⟩
    · have hplain : plainHost u.hostname = trimRight dot u.hostname := by
        obtain ⟨-, hplain⟩ | ⟨address, zone, hhost, -⟩ | ⟨-, hplain⟩ := plainHost_cases u.hostname
        · exact hplain
        · have hmem : percent ∈ trimRight dot u.hostname :=
            mem_trimRight (by simp [hhost]) (by decide)
          cases parseIP_bytes hip percent hmem
        · exact hplain
      rw [← hplain] at hip
      exact ⟨hostIs_eq_false.mp hremote.unspecified ip hip,
        hostIs_eq_false.mp hremote.linkLocal ip hip, hostIs_eq_false.mp hremote.multicast ip hip⟩
    · have hpercent : percent ∉ address := by
        intro hmem
        cases parseIP_bytes hip percent (mem_trimRight hmem (by decide))
      have hplain : plainHost u.hostname = trimRight dot address := by
        rw [hhost]
        exact plainHost_zoned zone hpercent hcolon
      rw [← hplain] at hip
      exact ⟨hostIs_eq_false.mp hremote.loopback ip hip,
        hostIs_eq_false.mp hremote.unspecified ip hip,
        hostIs_eq_false.mp hremote.linkLocal ip hip, hostIs_eq_false.mp hremote.multicast ip hip⟩
  · intro hwritten
    obtain ⟨-, hplain⟩ | ⟨address, zone, hhost, hcolon, hplain⟩ | ⟨hpercent, hplain⟩ :=
      plainHost_cases u.hostname
    · -- Without a zone, only the dots can hide what the host is.
      have hkinds : ∀ ip, parseIP (trimRight dot u.hostname) = some ip →
          isUnspecified ip = false ∧ isLinkLocalUnicast ip = false ∧ isMulticast ip = false := by
        intro ip hip
        by_cases hdot : u.hostname.getLast? = some dot
        · exact hwritten.dotted hdot ip hip
        · rw [trimRight_eq_self hdot] at hip
          exact ⟨hostIs_eq_false.mp h.unspecified ip hip, hostIs_eq_false.mp h.linkLocal ip hip,
            hostIs_eq_false.mp h.multicast ip hip⟩
      refine ⟨hwritten.host, ?_, ?_, ?_, ?_, ?_, port_of_accepted h⟩ <;> rw [hplain]
      · exact name_of_isLoopback hloopback
      · exact loopback_of_isLoopback hloopback
      · exact hostIs_eq_false.mpr fun ip hip => (hkinds ip hip).1
      · exact hostIs_eq_false.mpr fun ip hip => (hkinds ip hip).2.1
      · exact hostIs_eq_false.mpr fun ip hip => (hkinds ip hip).2.2
    · -- The zone is cut off an address.
      have hkinds := hwritten.zoned address zone hhost hcolon
      have hmem : colon ∈ trimRight dot address := mem_trimRight hcolon (by decide)
      refine ⟨hwritten.host, ?_, ?_, ?_, ?_, ?_, port_of_accepted h⟩ <;> rw [hplain]
      · exact not_loopbackName (Or.inl rfl) hmem
      · exact hostIs_eq_false.mpr fun ip hip => (hkinds ip hip).1
      · exact hostIs_eq_false.mpr fun ip hip => (hkinds ip hip).2.1
      · exact hostIs_eq_false.mpr fun ip hip => (hkinds ip hip).2.2.1
      · exact hostIs_eq_false.mpr fun ip hip => (hkinds ip hip).2.2.2
    · -- A name with the sign of a zone is no address.
      have hmem : percent ∈ trimRight dot u.hostname := mem_trimRight hpercent (by decide)
      refine ⟨hwritten.host, ?_, ?_, ?_, ?_, ?_, port_of_accepted h⟩ <;> rw [hplain]
      · exact not_loopbackName (Or.inr rfl) hmem
      · exact hostIs_of_percent hmem
      · exact hostIs_of_percent hmem
      · exact hostIs_of_percent hmem
      · exact hostIs_of_percent hmem

/-- The endpoints of a configuration, as the agent reads them. -/
def replicaURLs (config : Config) : List URL :=
  [config.preferredEndpoint, config.secondaryEndpoint].filterMap parse

/-- The replicas of an agent that is not to talk to itself are on other machines exactly if their
hosts are written so that the checks see through them. -/
theorem replicas_remote_iff (h : loadConfig table files getenv = .ok config)
    (hallow : boolSetting getenv "NODESCOPE_ALLOW_LOOPBACK_REPLICA_ENDPOINTS" = .ok false) :
    (∀ u ∈ replicaURLs config, Remote table u) ↔ ∀ u ∈ replicaURLs config, PlainlyWritten u := by
  obtain ⟨developmentMode, primary, secondary, hreplicas⟩ := replicas_of_loadConfig h
  obtain ⟨allow, hallowed, -, hprimary, hsecondary, -, hloopback⟩ :=
    loadReplicaEndpoints_eq_ok.mp hreplicas
  obtain rfl : allow = false := Except.ok.inj (hallowed.symm.trans hallow)
  have hnot := hloopback rfl
  have hurls : replicaURLs config = [primary, secondary] := by
    simp [replicaURLs, hprimary.parsed, hsecondary.parsed]
  rw [hurls]
  simp only [List.forall_mem_cons, List.not_mem_nil, false_implies, implies_true, and_true] at hnot ⊢
  rw [remote_iff hprimary hnot.1, remote_iff hsecondary hnot.2]

/-- An agent with its two replicas, and a credential file that it can read. -/
def sampleEnvironment (primary secondary : String) : Environment := fun key =>
  if key == "NODESCOPE_AGENT_ID" then utf8 "agent"
  else if key == "NODESCOPE_HOST_ID" then utf8 "host"
  else if key == "NODESCOPE_AGENT_CREDENTIAL_FILE" then utf8 "/credential"
  else if key == "NODESCOPE_PRIMARY_ENDPOINT" then utf8 primary
  else if key == "NODESCOPE_SECONDARY_ENDPOINT" then utf8 secondary
  else []

def sampleFiles : CredentialFiles where
  lstat := fun _ => .ok ⟨true, 0o600⟩
  readFile := fun _ => .ok (utf8 "secret")

def sampleConfig (primary secondary : String) : Config :=
  { readSettings (sampleEnvironment primary secondary) with
    credential := utf8 "secret", collectionInterval := 5 * second }

theorem sample_replicas_remote_iff :
    (∀ u ∈ replicaURLs (sampleConfig "https://a" "https://b"), Remote asciiTable u) ↔
      ∀ u ∈ replicaURLs (sampleConfig "https://a" "https://b"), PlainlyWritten u :=
  @replicas_remote_iff asciiTable sampleFiles (sampleEnvironment "https://a" "https://b") _
    (by decide) (by decide)

/-- An unspecified address passes as a replica when a dot follows it. -/
theorem dotted_wildcard_accepted :
    loadConfig asciiTable sampleFiles (sampleEnvironment "https://0.0.0.0." "https://b") =
        .ok (sampleConfig "https://0.0.0.0." "https://b") ∧
      boolSetting (sampleEnvironment "https://0.0.0.0." "https://b")
        "NODESCOPE_ALLOW_LOOPBACK_REPLICA_ENDPOINTS" = .ok false ∧
      ¬ ∀ u ∈ replicaURLs (sampleConfig "https://0.0.0.0." "https://b"), Remote asciiTable u := by
  refine ⟨by decide, by decide, fun hremote => ?_⟩
  have hmem : { URL.empty with scheme := utf8 "https", host := utf8 "0.0.0.0." } ∈
      replicaURLs (sampleConfig "https://0.0.0.0." "https://b") := by decide
  have hunspecified := (hremote _ hmem).unspecified
  revert hunspecified
  decide

end Endpoints

end NodeScope.Agent.Configuration
