import NodeScope.Agent.RemoteReplicas

/-!
# When two endpoints are written to one text

The canonical text of an endpoint is its scheme, its host in small letters without dots at the
end, its port as a number and its path as it is escaped. What two endpoints must agree in to be one
destination is said without the text: one IP address or one name up to case, and one path.

## Implementation notes

`canonical_eq_iff` takes the text apart for replicas and runtimes alike; `law_iff` says once where
equality of the parts and sameness of the destination come apart.
-/

namespace NodeScope.Agent.Configuration

open Lib Lib.Check Lib.Text Lib.Decimal Lib.IpAddress Lib.Url

open Lib.Runes hiding Bytes

/-- Two spellings of one IP address, in one zone if it has any. -/
def SameAddress (host host' : Bytes) : Prop :=
  ∃ address, parseAddr host = some address ∧ parseAddr host' = some address

/-- One name up to case and dots at the end. -/
def SameName (table : CaseTable) (host host' : Bytes) : Prop :=
  fold table (trimRight dot host) = fold table (trimRight dot host')

/-- Texts that `net.ParseIP` reads alike are one address. -/
theorem sameAddress_of_parseIP {host host' ip : Bytes} (h : parseIP host = some ip)
    (h' : parseIP host' = some ip) : SameAddress host host' :=
  ⟨(ip, []), parseIP_eq_some_iff.mp h, parseIP_eq_some_iff.mp h'⟩

def SameHost (table : CaseTable) (u v : URL) : Prop :=
  SameAddress u.hostname v.hostname ∨ SameName table u.hostname v.hostname

/-- One path up to slashes at the end. -/
def SamePath (u v : URL) : Prop := trimRight 0x2f u.path = trimRight 0x2f v.path

/-- The port that is dialled. -/
def effectivePort (u : URL) : Nat :=
  if u.port.isEmpty then if u.scheme == utf8 "http" then 80 else 443 else decimal u.port

structure SameDestination (table : CaseTable) (u v : URL) : Prop where
  scheme : u.scheme = v.scheme
  port : effectivePort u = effectivePort v
  host : SameHost table u v
  path : SamePath u v

/-- The host in small letters and without dots at its end. -/
def lowerHost (table : CaseTable) (u : URL) : Bytes := toLower table (trimRight dot u.hostname)

/-- The path as it is escaped, without slashes at its end. -/
def writtenPath (u : URL) : Bytes := trimRight 0x2f u.escapedPath

/-- Two names, up to case and dots at the end, that differ in bytes only which encode no character,
or in such a byte where the other has the replacement character. -/
def StrayApart (table : CaseTable) (host host' : Bytes) : Prop :=
  fold table (trimRight dot host) ≠ fold table (trimRight dot host') ∧
    (fold table (trimRight dot host)).map Rune.shown =
      (fold table (trimRight dot host')).map Rune.shown

/-- How hosts and paths are written that the canonical text does not misjudge: one address is
spelled alike, one path is escaped alike, and with one path no two names differ in bytes only that
encode no character. -/
structure WrittenAlike (table : CaseTable) (u v : URL) : Prop where
  address : SameAddress u.hostname v.hostname → SamePath u v → lowerHost table u = lowerHost table v
  path : SameHost table u v → SamePath u v → writtenPath u = writtenPath v
  stray : writtenPath u = writtenPath v → ¬ StrayApart table u.hostname v.hostname

/-- What two endpoints agree in before their hosts and paths matter, and how these are written
then. -/
def Judged (table : CaseTable) (u v : URL) : Prop :=
  u.scheme = v.scheme → effectivePort u = effectivePort v → WrittenAlike table u v

section Texts

variable {table : CaseTable} {u v : URL} {a b p q : Bytes}

/-- One name is written alike in small letters. -/
theorem lowerHost_of_sameName (h : SameName table u.hostname v.hostname) :
    lowerHost table u = lowerHost table v := by
  rw [lowerHost, lowerHost, toLower_eq, toLower_eq]
  exact congrArg (List.flatMap Rune.written) h

/-- Hosts are written alike if their names show the same characters. -/
theorem lowerHost_eq_iff : lowerHost table u = lowerHost table v ↔
    (fold table (trimRight dot u.hostname)).map Rune.shown =
      (fold table (trimRight dot v.hostname)).map Rune.shown := by
  have hwritten (l : List Rune) :
      l.flatMap Rune.written = utf8 (String.ofList (l.map Rune.shown)) := by
    rw [utf8_ofList, List.flatMap_map]
    congr 1
    funext r
    cases r <;> rfl
  rw [lowerHost, lowerHost, toLower_eq, toLower_eq, hwritten, hwritten, utf8_inj]
  exact String.ofList_inj

theorem fold_of_ascii (h : ∀ b ∈ a, b < 0x80) :
    fold table a = (a.map fun b => table.toLower (Json.toChar b)).map Rune.char := by
  rw [fold, runes_ascii h, List.map_map, List.map_map]
  rfl

/-- What an address shows tells how it is spelled: only its zone can have stray bytes. -/
theorem fold_append_inj {rest : Bytes} (ha : ∀ x ∈ a, x < 0x80) (hb : ∀ x ∈ b, x < 0x80)
    (hrest : Boundary rest)
    (h : (fold table (a ++ rest)).map Rune.shown = (fold table (b ++ rest)).map Rune.shown) :
    fold table (a ++ rest) = fold table (b ++ rest) := by
  have hshown (l : List Char) : (l.map Rune.char).map Rune.shown = l := by
    rw [List.map_map]
    exact List.map_id l
  rw [fold_append hrest, fold_append hrest, List.map_append, List.map_append,
    List.append_cancel_right_eq, fold_of_ascii ha, fold_of_ascii hb, hshown, hshown] at h
  rw [fold_append hrest, fold_append hrest, fold_of_ascii ha, fold_of_ascii hb, h]

/-- A zone keeps its percent sign when dots are taken from the end, and so does what is before. -/
theorem trimRight_zone {zone : Bytes} (hzone : zone ≠ []) :
    Boundary (trimRight dot (zoneText zone)) ∧
      ∀ text, trimRight dot (text ++ zoneText zone) = text ++ trimRight dot (zoneText zone) := by
  rw [zoneText, if_neg hzone]
  have hprefix : trimRight dot (percent :: zone) <+: percent :: zone := List.rdropWhile_prefix _ _
  have hne : trimRight dot (percent :: zone) ≠ [] := by
    intro hnil
    have hdot := List.rdropWhile_eq_nil_iff.mp hnil percent List.mem_cons_self
    revert hdot
    decide
  constructor
  · obtain ⟨c, front, htrim⟩ := List.exists_cons_of_ne_nil hne
    rw [htrim] at hprefix ⊢
    obtain ⟨rfl, -⟩ := List.cons_prefix_cons.mp hprefix
    exact boundary_cons (by decide)
  · intro text
    have hlast : (text ++ trimRight dot (percent :: zone)).getLast? ≠ some dot := by
      rw [List.getLast?_append_of_ne_nil _ hne]
      exact getLast?_trimRight dot _
    conv_lhs => rw [← trimRight_append_trailing dot (percent :: zone), ← List.append_assoc]
    exact trimRight_replicate hlast _

/-- Two spellings of one address do not differ in stray bytes. -/
theorem SameAddress.not_strayApart {host host' : Bytes} (h : SameAddress host host') :
    ¬ StrayApart table host host' := by
  rintro ⟨hne, hshown⟩
  obtain ⟨⟨ip, zone⟩, hhost, hhost'⟩ := h
  obtain ⟨text, rfl, htext⟩ := parseAddr_bytes hhost
  obtain ⟨text', rfl, htext'⟩ := parseAddr_bytes hhost'
  have hascii {s : Bytes} (h : ∀ b ∈ s, addressByte b = true) : ∀ b ∈ s, b < 0x80 := by
    intro b hb
    have hprinted := printed_of_addressByte (h b hb)
    simp only [printed, Bool.and_eq_true, decide_eq_true_eq] at hprinted
    exact UInt8.lt_trans hprinted.2 (by decide)
  apply hne
  by_cases hzone : zone = []
  · have hnone : zoneText zone = [] := by rw [zoneText, if_pos hzone]
    rw [hnone, List.append_nil, List.append_nil] at hshown ⊢
    have htrim {s : Bytes} (h : ∀ b ∈ s, addressByte b = true) : ∀ b ∈ trimRight dot s, b < 0x80 :=
      fun b hb => hascii h b (trimRight_subset dot s hb)
    rw [← List.append_nil (trimRight dot text), ← List.append_nil (trimRight dot text')] at hshown ⊢
    exact fold_append_inj (htrim htext) (htrim htext') (by simp [Boundary]) hshown
  · obtain ⟨hboundary, htrim⟩ := trimRight_zone hzone
    rw [htrim, htrim] at hshown ⊢
    exact fold_append_inj (hascii htext) (hascii htext') hboundary hshown

/-- Where the parts of a text are the parts of a destination. -/
theorem law_iff {same : Prop} (hsame : same ↔ u.scheme = v.scheme ∧
      effectivePort u = effectivePort v ∧ lowerHost table u = lowerHost table v ∧
      writtenPath u = writtenPath v) :
    (same ↔ SameDestination table u v) ↔ Judged table u v := by
  constructor
  · intro hlaw hscheme hport
    have hdestination : SameHost table u v → SamePath u v →
        lowerHost table u = lowerHost table v ∧ writtenPath u = writtenPath v :=
      fun hhost hpath => (hsame.mp (hlaw.mpr ⟨hscheme, hport, hhost, hpath⟩)).2.2
    refine ⟨fun haddress hpath => ?_, fun hhost hpath => ?_, fun hpath hstray => ?_⟩
    · exact (hdestination (Or.inl haddress) hpath).1
    · exact (hdestination hhost hpath).2
    · have hhost := lowerHost_eq_iff.mpr hstray.2
      obtain haddress | hname := (hlaw.mp (hsame.mpr ⟨hscheme, hport, hhost, hpath⟩)).host
      · exact haddress.not_strayApart hstray
      · exact hstray.1 hname
  · intro hwritten
    constructor
    · intro h
      obtain ⟨hscheme, hport, hhost, hpath⟩ := hsame.mp h
      have halike := hwritten hscheme hport
      have hname : SameName table u.hostname v.hostname :=
        not_not.mp fun hne => halike.stray hpath ⟨hne, lowerHost_eq_iff.mp hhost⟩
      exact ⟨hscheme, hport, Or.inr hname, trimRight_path hpath⟩
    · rintro ⟨hscheme, hport, hhost, hpath⟩
      have halike := hwritten hscheme hport
      refine hsame.mpr ⟨hscheme, hport, ?_, halike.path hhost hpath⟩
      obtain haddress | hname := hhost
      · exact halike.address haddress hpath
      · exact lowerHost_of_sameName hname

/-- A text with a slash after it is told apart from what follows. -/
theorem append_path_inj (ha : 0x2f ∉ a) (hb : 0x2f ∉ b)
    (hp : p = [] ∨ ∃ rest, p = 0x2f :: rest) (hq : q = [] ∨ ∃ rest, q = 0x2f :: rest) :
    a ++ p = b ++ q ↔ a = b ∧ p = q := by
  constructor
  · intro h
    have hspan := congrArg (fun s => s.span (· != 0x2f)) h
    simp only [span_authority ha hp, span_authority hb hq] at hspan
    exact Prod.mk.inj hspan
  · rintro ⟨rfl, rfl⟩
    rfl

end Texts

section Parts

variable {table : CaseTable} {u v : URL} {value value' authority path : Bytes}

/-- What the canonical texts need of a URL. -/
structure Accepted (u : URL) : Prop where
  slash : 0x2f ∉ u.host
  start : u.escapedPath = [] ∨ ∃ rest, u.escapedPath = 0x2f :: rest
  port : u.port = [] ∨ Canonical u.port ∧ 1 ≤ decimal u.port ∧ decimal u.port ≤ 65535

theorem accepted_of_parse (hparse : parse value = some u) (hscheme : u.scheme ≠ [])
    (hhost : u.host ≠ []) (hquery : u.rawQuery = [])
    (hport : u.port = [] ∨ Canonical u.port ∧ 1 ≤ decimal u.port ∧ decimal u.port ≤ 65535) :
    Accepted u := by
  obtain ⟨authority, path, h⟩ := authority_of_parse hparse hscheme hhost hquery
  exact ⟨h.slash_not_mem, h.escapedPath_start, hport⟩

theorem Accepted.writtenPort (h : Accepted u) (hport : u.port ≠ []) :
    writtenPort u.port = itoa (decimal u.port) := by
  obtain hempty | ⟨⟨-, hdigits, -⟩, -, hhigh⟩ := h.port
  · exact absurd hempty hport
  · rw [Configuration.writtenPort, atoi_digits hport hdigits, if_neg (by omega)]
    rfl

theorem Accepted.slash_not_mem_join (h : Accepted u) (n : Nat) :
    0x2f ∉ joinHostPort (lowerHost table u) (itoa n) := by
  have hslash : (0x2f : UInt8) < 0x41 := by decide
  apply not_mem_joinHostPort _ _ (by decide) (by decide) (by decide)
  · intro hmem
    have hhost := trimRight_subset _ _ (sign_mem_toLower hslash hmem)
    exact h.slash (hostname_subset u hhost)
  · intro hmem
    have hdigit := isDigit_of_mem_itoa hmem
    revert hdigit
    decide

theorem Accepted.writtenPath_start (h : Accepted u) :
    writtenPath u = [] ∨ ∃ rest, writtenPath u = 0x2f :: rest := by
  rw [writtenPath]
  have hprefix : trimRight 0x2f u.escapedPath <+: u.escapedPath := List.rdropWhile_prefix _ _
  obtain hnil | ⟨rest, hrest⟩ := h.start
  · rw [hnil] at hprefix ⊢
    exact Or.inl (List.prefix_nil.mp hprefix)
  · rw [hrest] at hprefix ⊢
    cases htrim : trimRight 0x2f (0x2f :: rest) with
    | nil => exact Or.inl rfl
    | cons c front =>
        rw [htrim] at hprefix
        obtain ⟨rfl, -⟩ := List.cons_prefix_cons.mp hprefix
        exact Or.inr ⟨front, rfl⟩

/-- A root path is written with a slash only. -/
theorem Accepted.writtenPath_of_root (h : Accepted u) (hroot : u.path = [] ∨ u.path = utf8 "/") :
    writtenPath u = [] := by
  have hread := unescapes_of_unescape (unescape_escapedPath u)
  obtain hpath | hpath := hroot
  · rw [hpath] at hread
    rw [writtenPath, hread.eq_nil_iff.mp rfl]
    rfl
  · have hslash : utf8 "/" = [0x2f] := by decide
    rw [hpath, hslash] at hread
    obtain hnil | ⟨rest, hrest⟩ := h.start
    · rw [hnil] at hread
      cases hread
    · rw [hrest] at hread
      cases hread with
      | literal hc hallowed tail =>
          rw [writtenPath, hrest, tail.eq_nil_iff.mp rfl]
          decide

theorem colon_not_mem_itoa (n : Nat) : 0x3a ∉ itoa n := by
  intro hmem
  have hdigit := isDigit_of_mem_itoa hmem
  revert hdigit
  decide

/-- Two texts of a host, a port and a path. -/
theorem join_eq_iff (hu : Accepted u) (hv : Accepted v) (n m : Nat) :
    joinHostPort (lowerHost table u) (itoa n) ++ writtenPath u =
        joinHostPort (lowerHost table v) (itoa m) ++ writtenPath v ↔
      n = m ∧ lowerHost table u = lowerHost table v ∧ writtenPath u = writtenPath v := by
  rw [append_path_inj (hu.slash_not_mem_join n) (hv.slash_not_mem_join m) hu.writtenPath_start
    hv.writtenPath_start, joinHostPort_inj (colon_not_mem_itoa n) (colon_not_mem_itoa m), itoa_inj]
  constructor
  · rintro ⟨⟨hhost, hport⟩, hpath⟩
    exact ⟨hport, hhost, hpath⟩
  · rintro ⟨hport, hhost, hpath⟩
    exact ⟨⟨hhost, hport⟩, hpath⟩

end Parts

section Replicas

variable {table : CaseTable} {u v : URL} {value value' : Bytes}

theorem AcceptedReplica.accepted (h : AcceptedReplica value u) : Accepted u := by
  refine accepted_of_parse h.parsed ?_ h.host h.query h.port
  rw [h.scheme]
  decide

theorem toLower_https (table : CaseTable) : toLower table (utf8 "https") = utf8 "https" :=
  (toLower_ascii (by decide +kernel)).trans (by decide)

theorem toLower_http (table : CaseTable) : toLower table (utf8 "http") = utf8 "http" :=
  (toLower_ascii (by decide +kernel)).trans (by decide)

theorem lowerHost_eq (table : CaseTable) (u : URL) :
    trimRight 0x2e (toLower table u.hostname) = lowerHost table u :=
  trimRight_toLower (by decide) u.hostname

/-- The parts of a replica's text. -/
theorem canonicalReplicaEndpoint_eq (h : AcceptedReplica value u) :
    canonicalReplicaEndpoint table u =
      utf8 "https" ++ utf8 "://" ++
        (joinHostPort (lowerHost table u) (itoa (effectivePort u)) ++ writtenPath u) := by
  have hport : writtenPort (if u.port.isEmpty then utf8 "443" else u.port) =
      itoa (effectivePort u) := by
    rw [effectivePort]
    by_cases hempty : u.port = []
    · have hhttp : (utf8 "https" == utf8 "http") = false := by decide
      rw [hempty, h.scheme, hhttp]
      decide
    · have hne : u.port.isEmpty = false := by simpa using hempty
      rw [hne]
      exact h.accepted.writtenPort hempty
  rw [canonicalReplicaEndpoint, hport, h.scheme, toLower_https, lowerHost_eq]
  simp only [List.append_assoc, writtenPath]

theorem canonicalReplicaEndpoint_eq_iff (hu : AcceptedReplica value u)
    (hv : AcceptedReplica value' v) :
    canonicalReplicaEndpoint table u = canonicalReplicaEndpoint table v ↔
      u.scheme = v.scheme ∧ effectivePort u = effectivePort v ∧
        lowerHost table u = lowerHost table v ∧ writtenPath u = writtenPath v := by
  have hscheme : u.scheme = v.scheme := hu.scheme.trans hv.scheme.symm
  rw [canonicalReplicaEndpoint_eq hu, canonicalReplicaEndpoint_eq hv, List.append_cancel_left_eq,
    join_eq_iff hu.accepted hv.accepted]
  simp only [hscheme, true_and]

end Replicas

section Runtimes

variable {table : CaseTable} {u v : URL} {id baseURL id' baseURL' : Bytes}

/-- What an accepted runtime URL fulfils. -/
structure AcceptedRuntime (table : CaseTable) (baseURL : Bytes) (u : URL) : Prop where
  parsed : parse baseURL = some u
  host : u.host ≠ []
  user : u.hasUser = false
  query : u.rawQuery = []
  fragment : u.fragment = []
  path : u.path = [] ∨ u.path = utf8 "/"
  scheme : u.scheme = utf8 "http" ∨ u.scheme = utf8 "https"
  unspecified : hostIs isUnspecified u.hostname = false
  port : u.port = [] ∨ Canonical u.port ∧ 1 ≤ decimal u.port ∧ decimal u.port ≤ 65535
  loopback : u.scheme = utf8 "http" → isLoopbackRuntimeHost table u.hostname = true

theorem acceptedRuntime_of_ok (h : parseRuntimeURL table id baseURL = .ok u) :
    AcceptedRuntime table baseURL u := by
  simp only [parseRuntimeURL, orFail_bind_eq_ok, unit_bind_eq_ok, failIf_eq_ok] at h
  obtain ⟨parsed, hparse, hform, hunspecified, hport, hloopback, heq⟩ := h
  obtain rfl := Except.ok.inj heq
  simp only [Bool.or_eq_false_iff, List.isEmpty_eq_false_iff, Bool.not_eq_false',
    List.isEmpty_iff, Bool.and_eq_false_iff, bne_eq_false_iff_eq] at hform
  obtain ⟨⟨⟨⟨⟨hhost, huser⟩, hquery⟩, hfragment⟩, hpath⟩, hscheme⟩ := hform
  refine ⟨hparse, hhost, huser, hquery, hfragment, hpath, hscheme, hunspecified,
    validateEndpointPort_eq_ok.mp hport, fun hhttp => ?_⟩
  simpa [hhttp] using hloopback

theorem AcceptedRuntime.accepted (h : AcceptedRuntime table baseURL u) : Accepted u := by
  refine accepted_of_parse h.parsed ?_ h.host h.query h.port
  obtain hscheme | hscheme := h.scheme <;> rw [hscheme] <;> decide

/-- The parts of a runtime's text. -/
theorem canonicalInferenceRuntimeEndpoint_eq (h : AcceptedRuntime table baseURL u) :
    canonicalInferenceRuntimeEndpoint table u =
      u.scheme ++ (utf8 "://" ++
        (joinHostPort (lowerHost table u) (itoa (effectivePort u)) ++ writtenPath u)) := by
  have hscheme : toLower table u.scheme = u.scheme := by
    obtain hscheme | hscheme := h.scheme <;> rw [hscheme]
    · exact toLower_http table
    · exact toLower_https table
  have hport : (if u.port.isEmpty then
        if u.scheme == utf8 "http" then utf8 "80" else utf8 "443"
      else writtenPort u.port) = itoa (effectivePort u) := by
    rw [effectivePort]
    by_cases hempty : u.port = []
    · rw [hempty]
      obtain hscheme | hscheme := h.scheme <;> rw [hscheme] <;> decide
    · have hne : u.port.isEmpty = false := by simpa using hempty
      rw [hne]
      exact h.accepted.writtenPort hempty
  rw [canonicalInferenceRuntimeEndpoint, hport, hscheme, lowerHost_eq, h.accepted.writtenPath_of_root h.path,
    List.append_nil, List.append_assoc]

/-- The two schemes are told apart by what follows `http`. -/
theorem scheme_append_inj {scheme scheme' rest rest' : Bytes}
    (hscheme : scheme = utf8 "http" ∨ scheme = utf8 "https")
    (hscheme' : scheme' = utf8 "http" ∨ scheme' = utf8 "https") :
    scheme ++ (utf8 "://" ++ rest) = scheme' ++ (utf8 "://" ++ rest') ↔
      scheme = scheme' ∧ rest = rest' := by
  have hhttp : utf8 "http" = [0x68, 0x74, 0x74, 0x70] := by decide
  have hhttps : utf8 "https" = [0x68, 0x74, 0x74, 0x70, 0x73] := by decide
  have hcolon : utf8 "://" = [0x3a, 0x2f, 0x2f] := by decide
  rw [hhttp, hhttps] at hscheme hscheme'
  rw [hcolon]
  obtain rfl | rfl := hscheme <;> obtain rfl | rfl := hscheme' <;> simp

theorem canonicalInferenceRuntimeEndpoint_eq_iff (hu : AcceptedRuntime table baseURL u)
    (hv : AcceptedRuntime table baseURL' v) :
    canonicalInferenceRuntimeEndpoint table u = canonicalInferenceRuntimeEndpoint table v ↔
      u.scheme = v.scheme ∧ effectivePort u = effectivePort v ∧
        lowerHost table u = lowerHost table v ∧ writtenPath u = writtenPath v := by
  rw [canonicalInferenceRuntimeEndpoint_eq hu, canonicalInferenceRuntimeEndpoint_eq hv,
    scheme_append_inj hu.scheme hv.scheme, join_eq_iff hu.accepted hv.accepted]

end Runtimes

section Polling

variable {table : CaseTable} {runtimes runtimes' : Runtimes} {candidate raw : Bytes}

/-- The URLs that an agent polls. -/
def runtimeURLs (endpoints : List InferenceRuntimeEndpoint) : List URL :=
  endpoints.filterMap fun endpoint => parse endpoint.baseURL

/-- What holds between two rounds: every endpoint was accepted, and the destinations seen are
their canonical texts, each once. -/
structure Distinct (table : CaseTable) (runtimes : Runtimes) : Prop where
  accepted : ∀ endpoint ∈ runtimes.endpoints, ∃ u, AcceptedRuntime table endpoint.baseURL u
  destinations : runtimes.seenDestinations =
    ((runtimeURLs runtimes.endpoints).map (canonicalInferenceRuntimeEndpoint table)).reverse
  nodup : runtimes.seenDestinations.Nodup

theorem distinct_addRuntime (h : addRuntime table runtimes candidate = .ok runtimes')
    (hdistinct : Distinct table runtimes) : Distinct table runtimes' := by
  rw [addRuntime] at h
  split at h
  · rename_i id kind base hparts
    simp only [failIf_eq_ok, bind_eq_ok] at h
    obtain ⟨-, -, -, -, parsed, hparsed, -, hnew, heq⟩ := h
    obtain rfl := Except.ok.inj heq
    have haccepted := acceptedRuntime_of_ok hparsed
    refine ⟨?_, ?_, ?_⟩
    · intro endpoint hmem
      obtain hmem | hmem := List.mem_append.mp hmem
      · exact hdistinct.accepted endpoint hmem
      · obtain rfl := List.mem_singleton.mp hmem
        exact ⟨parsed, haccepted⟩
    · simp [runtimeURLs, List.filterMap_append, haccepted.parsed, hdistinct.destinations]
    · refine List.nodup_cons.mpr ⟨?_, hdistinct.nodup⟩
      simpa using hnew
  · cases h

theorem distinct_foldlM {candidates : List Bytes}
    (h : candidates.foldlM (addRuntime table) runtimes = .ok runtimes')
    (hdistinct : Distinct table runtimes) : Distinct table runtimes' := by
  induction candidates generalizing runtimes with
  | nil =>
      obtain rfl := Except.ok.inj h
      exact hdistinct
  | cons candidate rest ih =>
      rw [List.foldlM_cons, bind_eq_ok] at h
      obtain ⟨next, hnext, hrest⟩ := h
      exact ih hrest (distinct_addRuntime hnext hdistinct)

/-- The runtimes of an agent were all accepted, and no two have one canonical text. -/
theorem distinct_of_parse {endpoints : List InferenceRuntimeEndpoint}
    (h : parseInferenceRuntimeEndpoints table raw = .ok endpoints) :
    (∀ endpoint ∈ endpoints, ∃ u, AcceptedRuntime table endpoint.baseURL u) ∧
      ((runtimeURLs endpoints).map (canonicalInferenceRuntimeEndpoint table)).Nodup := by
  rw [parseInferenceRuntimeEndpoints] at h
  split at h
  · obtain rfl := Except.ok.inj h
    exact ⟨by simp, by simp [runtimeURLs]⟩
  · cases hfold : (raw.splitOn 0x3b).foldlM (addRuntime table) ⟨[], [], []⟩ with
    | error e =>
        rw [hfold] at h
        cases h
    | ok runtimes =>
        rw [hfold] at h
        obtain rfl := Except.ok.inj h
        have hstart : Distinct table ⟨[], [], []⟩ := ⟨by simp, by simp [runtimeURLs], by simp⟩
        have hdistinct := distinct_foldlM hfold hstart
        have hnodup := hdistinct.nodup
        rw [hdistinct.destinations, (List.reverse_perm _).nodup_iff] at hnodup
        exact ⟨hdistinct.accepted, hnodup⟩

end Polling

section Laws

variable {table : CaseTable}

/-- Two distinct texts belong to two destinations exactly if they are written so that the text
does not misjudge them. -/
theorem distinct_iff {u v : URL} {same condition : Prop}
    (hlaw : (same ↔ SameDestination table u v) ↔ condition) (hne : ¬ same) :
    ¬ SameDestination table u v ↔ condition := by
  rw [← hlaw]
  simp [hne]

theorem pairwise_distinct_iff {urls : List URL} {text : URL → Bytes} {condition : URL → URL → Prop}
    (hlaw : ∀ u ∈ urls, ∀ v ∈ urls,
      (text u = text v ↔ SameDestination table u v) ↔ condition u v)
    (hnodup : (urls.map text).Nodup) :
    urls.Pairwise (fun u v => ¬ SameDestination table u v) ↔ urls.Pairwise condition := by
  have hpairs : urls.Pairwise fun u v => text u ≠ text v := List.pairwise_map.mp hnodup
  rw [List.pairwise_iff_forall_sublist, List.pairwise_iff_forall_sublist]
  rw [List.pairwise_iff_forall_sublist] at hpairs
  constructor
  · intro h u v hsub
    have hu := hsub.subset List.mem_cons_self
    have hv := hsub.subset (List.mem_cons_of_mem u List.mem_cons_self)
    exact (distinct_iff (hlaw u hu v hv) (hpairs hsub)).mp (h hsub)
  · intro h u v hsub
    have hu := hsub.subset List.mem_cons_self
    have hv := hsub.subset (List.mem_cons_of_mem u List.mem_cons_self)
    exact (distinct_iff (hlaw u hu v hv) (hpairs hsub)).mpr (h hsub)

/-- The canonical texts tell destinations apart exactly where two endpoints are written so that
they are not misjudged; so do the agent's replicas and runtimes differ. -/
theorem canonical_law_iff (table : CaseTable) :
    (∀ label label' value value' u v, parseReplicaEndpoint label value = .ok u →
      parseReplicaEndpoint label' value' = .ok v →
        ((canonicalReplicaEndpoint table u = canonicalReplicaEndpoint table v ↔
          SameDestination table u v) ↔ Judged table u v)) ∧
    (∀ id id' base base' u v, parseRuntimeURL table id base = .ok u →
      parseRuntimeURL table id' base' = .ok v →
        ((canonicalInferenceRuntimeEndpoint table u = canonicalInferenceRuntimeEndpoint table v ↔
          SameDestination table u v) ↔ Judged table u v)) ∧
    ∀ files getenv config, loadConfig table files getenv = .ok config →
      ((replicaURLs config).Pairwise (fun u v => ¬ SameDestination table u v) ↔
        (replicaURLs config).Pairwise (Judged table)) ∧
      ((runtimeURLs config.inferenceRuntimeEndpoints).Pairwise
          (fun u v => ¬ SameDestination table u v) ↔
        (runtimeURLs config.inferenceRuntimeEndpoints).Pairwise (Judged table)) := by
  refine ⟨fun label label' value value' u v hu hv => ?_, fun id id' base base' u v hu hv => ?_,
    fun files getenv config hconfig => ⟨?_, ?_⟩⟩
  · exact law_iff (canonicalReplicaEndpoint_eq_iff (parseReplicaEndpoint_eq_ok.mp hu)
      (parseReplicaEndpoint_eq_ok.mp hv))
  · exact law_iff (canonicalInferenceRuntimeEndpoint_eq_iff (acceptedRuntime_of_ok hu)
      (acceptedRuntime_of_ok hv))
  · obtain ⟨developmentMode, primary, secondary, hreplicas⟩ := replicas_of_loadConfig hconfig
    obtain ⟨-, -, -, hprimary, hsecondary, hdistinct, -⟩ := loadReplicaEndpoints_eq_ok.mp hreplicas
    have hurls : replicaURLs config = [primary, secondary] := by
      simp [replicaURLs, hprimary.parsed, hsecondary.parsed]
    rw [hurls]
    simp only [List.pairwise_cons, List.mem_singleton, forall_eq, List.not_mem_nil, false_implies,
      implies_true, List.Pairwise.nil, and_true]
    exact distinct_iff (law_iff (canonicalReplicaEndpoint_eq_iff hprimary hsecondary)) hdistinct
  · obtain ⟨haccepted, hnodup⟩ := distinct_of_parse (runtimes_of_loadConfig hconfig)
    have hurl : ∀ u ∈ runtimeURLs config.inferenceRuntimeEndpoints,
        ∃ base, AcceptedRuntime table base u := by
      intro u hu
      obtain ⟨endpoint, hmem, hparse⟩ := List.mem_filterMap.mp hu
      obtain ⟨v, hv⟩ := haccepted endpoint hmem
      obtain rfl := Option.some.inj (hv.parsed.symm.trans hparse)
      exact ⟨endpoint.baseURL, hv⟩
    refine pairwise_distinct_iff (fun u hu v hv => ?_) hnodup
    obtain ⟨base, hu⟩ := hurl u hu
    obtain ⟨base', hv⟩ := hurl v hv
    exact law_iff (canonicalInferenceRuntimeEndpoint_eq_iff hu hv)

def literalURL (host : String) : URL :=
  { URL.empty with scheme := utf8 "https", host := utf8 host }

theorem case_law_iff :
    (canonicalReplicaEndpoint asciiTable (literalURL "A.example.") =
        canonicalReplicaEndpoint asciiTable (literalURL "a.example") ↔
      SameDestination asciiTable (literalURL "A.example.") (literalURL "a.example")) ↔
    Judged asciiTable (literalURL "A.example.") (literalURL "a.example") :=
  (canonical_law_iff asciiTable).1 [] [] (utf8 "https://A.example.") (utf8 "https://a.example") _ _
    (by decide) (by decide)

/-- Two spellings of one IPv6 address are taken for two replicas. -/
theorem compressed_address_not_identified :
    ¬ ∀ label label' value value' u v, parseReplicaEndpoint label value = .ok u →
      parseReplicaEndpoint label' value' = .ok v →
        (canonicalReplicaEndpoint asciiTable u = canonicalReplicaEndpoint asciiTable v ↔
          SameDestination asciiTable u v) := by
  intro h
  have hlaw := h [] [] (utf8 "https://[2001:db8::1]") (utf8 "https://[2001:db8:0::1]")
    (literalURL "[2001:db8::1]") (literalURL "[2001:db8:0::1]") (by decide) (by decide)
  have hsame : SameDestination asciiTable (literalURL "[2001:db8::1]")
      (literalURL "[2001:db8:0::1]") := by
    refine ⟨by decide, by decide, Or.inl ?_, rfl⟩
    have haddress : parseIP (utf8 "2001:db8::1") =
        some [0x20, 0x01, 0x0d, 0xb8, 0, 0, 0, 0, 0, 0, 0, 0, 0, 0, 0, 1] := by decide
    exact sameAddress_of_parseIP haddress (by decide)
  have htext := hlaw.mpr hsame
  revert htext
  decide

end Laws

end NodeScope.Agent.Configuration
