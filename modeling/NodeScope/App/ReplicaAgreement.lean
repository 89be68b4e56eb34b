import NodeScope.Agent.CanonicalEndpoint
import NodeScope.App.Configuration

/-!
# Whether server and agent see two replicas

Both read the same two endpoints and reject one replica that is named twice. For a root path they
read the same URL; the agent compares the hosts without the dots at their ends, the server with
them.
-/

namespace NodeScope.App.Configuration

open Lib Lib.Check Lib.Text Lib.Decimal Lib.Url

open Lib.Runes hiding Bytes

open Agent.Configuration (AcceptedReplica effectivePort literalURL lowerHost parseReplicaEndpoint
  parseReplicaEndpoint_eq_ok canonicalReplicaEndpoint_eq_iff)

section Reading

variable {raw authority path : Bytes} {v : URL}

/-- A root path is written without the sign of a fragment. -/
theorem hash_not_mem_path (h : Authority v authority path) (hroot : v.path = [] ∨ v.path = utf8 "/") :
    0x23 ∉ path := by
  have hread := unescapes_of_unescape h.unescaped
  have hslash : utf8 "/" = [0x2f] := by decide
  rw [hslash] at hroot
  obtain rfl | ⟨rest, rfl⟩ := h.start
  · simp
  · obtain hpath | hpath := hroot
    · rw [hpath] at hread
      cases hread
    · rw [hpath] at hread
      cases hread with
      | literal hc hallowed tail =>
          rw [tail.eq_nil_iff.mp rfl]
          decide

/-- The server reads the URL that the agent reads. -/
theorem parse_eq_parseRequestURI (h : parseRequestURI raw = some v) (hscheme : v.scheme ≠ [])
    (hhost : v.host ≠ []) (huser : v.hasUser = false) (hquery : v.rawQuery = [])
    (hroot : v.path = [] ∨ v.path = utf8 "/") : parse raw = some v := by
  obtain ⟨scheme, authority, path, mark, hform, hauthority⟩ :=
    authority_of_parseRest h hscheme hhost hquery
  have hread := hauthority.read
  rw [huser] at hread
  have hhash : 0x23 ∉ raw := by
    have hauthorityBytes : 0x23 ∉ authority :=
      not_mem_of_parseHost (by decide) (by decide) (by decide) (by decide)
        (parseAuthority_eq_host.mp hread).2
    have hschemeBytes : 0x23 ∉ scheme := fun hmem =>
      (schemeByte_facts (hform.schemeBytes _ hmem)).2 rfl
    have hpathBytes := hash_not_mem_path hauthority hroot
    have hmark : 0x23 ∉ mark := by
      obtain rfl | rfl := hform.marks <;> decide
    rw [hform.split]
    simp [hauthorityBytes, hschemeBytes, hpathBytes, hmark]
  rw [parse_of_not_mem hhash, parseRest_hierarchical hform, ← parseRest_hierarchical hform true]
  exact h

end Reading

section Agreement

variable {table : CaseTable} {config : Config} {getenv : Environment}
  {name label raw text name' label' raw' text' : Bytes} {u v : URL}

/-- The text that the server compares, for an endpoint that the agent accepts as well. -/
theorem canonicalReplicaEndpoint_eq (hserver : canonicalReplicaEndpoint table name raw = .ok text)
    (hagent : AcceptedReplica raw u) :
    text = utf8 "https://" ++
        joinHostPort (toLower table u.hostname) (itoa (effectivePort u)) ∧
      (u.path = [] ∨ u.path = utf8 "/") := by
  simp only [canonicalReplicaEndpoint, bind_eq_ok, failIf_eq_ok, orFail_eq_ok] at hserver
  obtain ⟨-, -, v, hparse, -, hform, -, -, heq⟩ := hserver
  obtain rfl := Except.ok.inj heq
  simp only [Bool.or_eq_false_iff, List.isEmpty_eq_false_iff, Bool.not_eq_false',
    List.isEmpty_iff, Bool.and_eq_false_iff, bne_eq_false_iff_eq] at hform
  obtain ⟨⟨⟨⟨⟨hscheme, hhost⟩, huser⟩, hquery⟩, -⟩, hpath⟩ := hform
  have hne : v.scheme ≠ [] := by
    rw [hscheme]
    decide
  have hread := parse_eq_parseRequestURI hparse hne hhost huser hquery hpath
  obtain rfl := Option.some.inj (hagent.parsed.symm.trans hread)
  refine ⟨?_, hpath⟩
  have hport : (if u.port.isEmpty then utf8 "443" else u.port) = itoa (effectivePort u) := by
    rw [effectivePort]
    by_cases hempty : u.port = []
    · have hhttp : (utf8 "https" == utf8 "http") = false := by decide
      rw [hempty, hscheme, hhttp]
      decide
    · have hsome : u.port.isEmpty = false := by simpa using hempty
      obtain hnone | ⟨hcanonical, -⟩ := hagent.port
      · exact absurd hnone hempty
      · rw [hsome]
        exact (itoa_decimal hcanonical).1.symm
  rw [hport]

/-- A host in small letters, with the dots at its end. -/
theorem toLower_hostname (table : CaseTable) (u : URL) :
    toLower table u.hostname = lowerHost table u ++ List.replicate (trailing 0x2e u.hostname) 0x2e :=
  toLower_trimRight (by decide) u.hostname

theorem toLower_hostname_inj :
    toLower table u.hostname = toLower table v.hostname ↔
      lowerHost table u = lowerHost table v ∧
        trailing 0x2e u.hostname = trailing 0x2e v.hostname := by
  have htrim : ∀ w : URL, trimRight 0x2e (toLower table w.hostname) = lowerHost table w :=
    fun w => trimRight_toLower (by decide) w.hostname
  constructor
  · intro h
    have hlower : lowerHost table u = lowerHost table v := by rw [← htrim u, ← htrim v, h]
    refine ⟨hlower, ?_⟩
    rw [toLower_hostname, toLower_hostname, hlower, List.append_cancel_left_eq] at h
    simpa using congrArg List.length h
  · rintro ⟨hlower, hdots⟩
    rw [toLower_hostname, toLower_hostname, hlower, hdots]

/-- Where the agent finds one host up to case and dots, the dots are the same. -/
def DottedAlike (table : CaseTable) (u v : URL) : Prop :=
  effectivePort u = effectivePort v → lowerHost table u = lowerHost table v →
    trailing 0x2e u.hostname = trailing 0x2e v.hostname

theorem loadReplicaEndpoints_eq_ok :
    loadReplicaEndpoints table config = .ok () ↔
      ∃ text text',
        canonicalReplicaEndpoint table (utf8 "NODESCOPE_PRIMARY_ENDPOINT") config.primaryEndpoint =
          .ok text ∧
        canonicalReplicaEndpoint table (utf8 "NODESCOPE_SECONDARY_ENDPOINT")
          config.secondaryEndpoint = .ok text' ∧ text ≠ text' := by
  simp only [loadReplicaEndpoints, bind_eq_ok, failIf_eq_ok, beq_eq_false_iff_ne, exists_and_left]

/-- When the texts of server and agent agree on a pair of endpoints. -/
theorem texts_agree_iff (hs : canonicalReplicaEndpoint table name raw = .ok text)
    (hs' : canonicalReplicaEndpoint table name' raw' = .ok text') (hu : AcceptedReplica raw u)
    (hv : AcceptedReplica raw' v) :
    (text ≠ text' ↔ Agent.Configuration.canonicalReplicaEndpoint table u ≠
      Agent.Configuration.canonicalReplicaEndpoint table v) ↔ DottedAlike table u v := by
  obtain ⟨rfl, hroot⟩ := canonicalReplicaEndpoint_eq hs hu
  obtain ⟨rfl, hroot'⟩ := canonicalReplicaEndpoint_eq hs' hv
  have hscheme : u.scheme = v.scheme := hu.scheme.trans hv.scheme.symm
  rw [not_iff_not, List.append_cancel_left_eq,
    joinHostPort_inj (Agent.Configuration.colon_not_mem_itoa _)
      (Agent.Configuration.colon_not_mem_itoa _), itoa_inj, toLower_hostname_inj,
    canonicalReplicaEndpoint_eq_iff hu hv, hu.accepted.writtenPath_of_root hroot,
    hv.accepted.writtenPath_of_root hroot']
  simp only [hscheme, true_and, and_true, DottedAlike]
  constructor
  · intro h hport hhost
    exact (h.mpr ⟨hport, hhost⟩).1.2
  · intro h
    constructor
    · rintro ⟨⟨hhost, -⟩, hport⟩
      exact ⟨hport, hhost⟩
    · rintro ⟨hport, hhost⟩
      exact ⟨⟨hhost, h hport hhost⟩, hport⟩

/-- Server and agent agree on whether two endpoints are two replicas exactly where they do not
differ in dots alone; so the agents of a server that starts accept its replicas. -/
theorem replicas_agree_iff (table : CaseTable) :
    (∀ config text text' label label' u v,
      canonicalReplicaEndpoint table (utf8 "NODESCOPE_PRIMARY_ENDPOINT") config.primaryEndpoint =
        .ok text →
      canonicalReplicaEndpoint table (utf8 "NODESCOPE_SECONDARY_ENDPOINT")
        config.secondaryEndpoint = .ok text' →
      parseReplicaEndpoint label config.primaryEndpoint = .ok u →
      parseReplicaEndpoint label' config.secondaryEndpoint = .ok v →
        ((loadReplicaEndpoints table config = .ok () ↔
          Agent.Configuration.canonicalReplicaEndpoint table u ≠
            Agent.Configuration.canonicalReplicaEndpoint table v) ↔ DottedAlike table u v)) ∧
    ∀ getenv config label label' u v, loadConfig table getenv = .ok config →
      parseReplicaEndpoint label config.primaryEndpoint = .ok u →
      parseReplicaEndpoint label' config.secondaryEndpoint = .ok v →
        (Agent.Configuration.canonicalReplicaEndpoint table u ≠
          Agent.Configuration.canonicalReplicaEndpoint table v ↔ DottedAlike table u v) := by
  constructor
  · intro config text text' label label' u v hs hs' hu hv
    have hserver : loadReplicaEndpoints table config = .ok () ↔ text ≠ text' := by
      rw [loadReplicaEndpoints_eq_ok]
      simp [hs, hs']
    rw [hserver]
    exact texts_agree_iff hs hs' (parseReplicaEndpoint_eq_ok.mp hu)
      (parseReplicaEndpoint_eq_ok.mp hv)
  · intro getenv config label label' u v hconfig hu hv
    simp only [loadConfig, bind_eq_ok, failIf_eq_ok] at hconfig
    obtain ⟨-, -, -, -, _, hreplicas, -, -, runtimeURL, -, -, -, -, -, heq⟩ := hconfig
    obtain rfl := Except.ok.inj heq
    obtain ⟨text, text', hs, hs', hne⟩ := loadReplicaEndpoints_eq_ok.mp hreplicas
    rw [← texts_agree_iff hs hs' (parseReplicaEndpoint_eq_ok.mp hu)
      (parseReplicaEndpoint_eq_ok.mp hv)]
    simp [hne]

def samplePair (primary secondary : String) : Config :=
  { readSettings fun _ => [] with
    primaryEndpoint := utf8 primary, secondaryEndpoint := utf8 secondary }

theorem sample_replicas_agree :
    (loadReplicaEndpoints asciiTable (samplePair "https://a" "https://b:8443") = .ok () ↔
      Agent.Configuration.canonicalReplicaEndpoint asciiTable (literalURL "a") ≠
        Agent.Configuration.canonicalReplicaEndpoint asciiTable (literalURL "b:8443")) ↔
    DottedAlike asciiTable (literalURL "a") (literalURL "b:8443") :=
  (replicas_agree_iff asciiTable).1 (samplePair "https://a" "https://b:8443")
    (utf8 "https://a:443") (utf8 "https://b:8443") [] [] _ _ (by decide) (by decide) (by decide)
    (by decide)

/-- A server starts with a replica named twice, once with a dot, which every agent rejects. -/
theorem dotted_replica_disagrees :
    ¬ ∀ config text text' label label' u v,
      canonicalReplicaEndpoint asciiTable (utf8 "NODESCOPE_PRIMARY_ENDPOINT")
        config.primaryEndpoint = .ok text →
      canonicalReplicaEndpoint asciiTable (utf8 "NODESCOPE_SECONDARY_ENDPOINT")
        config.secondaryEndpoint = .ok text' →
      parseReplicaEndpoint label config.primaryEndpoint = .ok u →
      parseReplicaEndpoint label' config.secondaryEndpoint = .ok v →
        (loadReplicaEndpoints asciiTable config = .ok () ↔
          Agent.Configuration.canonicalReplicaEndpoint asciiTable u ≠
            Agent.Configuration.canonicalReplicaEndpoint asciiTable v) := by
  intro h
  have hagree := h (samplePair "https://a." "https://a") (utf8 "https://a.:443")
    (utf8 "https://a:443") [] [] (literalURL "a.") (literalURL "a") (by decide) (by decide)
    (by decide) (by decide)
  have hdifferent := hagree.mp (by decide)
  exact hdifferent (by decide)

end Agreement

end NodeScope.App.Configuration
