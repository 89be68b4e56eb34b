import Mathlib.Data.List.Forall2
import Mathlib.Data.List.Nodup
import NodeScope.Agent.CanonicalEndpoint

/-!
# Which lists of runtime endpoints are accepted

`parseInferenceRuntimeEndpoints` splits a list three times, trims what it finds and keeps two sets
of what it has seen. Which lists it accepts is said here without them: every entry reads as an
endpoint, every endpoint is well formed, and no two share an ID or a destination.
-/

namespace NodeScope.Agent.Configuration

open Lib Lib.Check Lib.Text Lib.Decimal Lib.IpAddress Lib.Url

open Lib.Runes hiding Bytes

section Grammar

variable {table : CaseTable} {id value baseURL : Bytes} {u : URL}

/-- The grammar of the ID of a runtime. -/
structure GrammaticalID (id : Bytes) : Prop where
  length : 1 ≤ id.length ∧ id.length ≤ 64
  bytes : ∀ b ∈ id, (isLetter b || isDigit b || b == 0x2e || b == 0x5f || b == 0x2d) = true
  first : id.head? ≠ some 0x2e
  last : id.getLast? ≠ some 0x2e
  double : ¬ [0x2e, 0x2e] <:+: id

theorem hasDoubleDot_iff (value : Bytes) : hasDoubleDot value = true ↔ [0x2e, 0x2e] <:+: value := by
  induction value with
  | nil => simp [hasDoubleDot]
  | cons b rest ih =>
      cases rest with
      | nil => simp [hasDoubleDot, List.infix_cons_iff]
      | cons c rest =>
          rw [List.infix_cons_iff, ← ih]
          simp only [hasDoubleDot, List.tail_cons, List.zip_cons_cons, List.contains_cons,
            Bool.or_eq_true, beq_iff_eq, Prod.mk.injEq, List.cons_prefix_cons, List.nil_prefix,
            and_true]

theorem validRuntimeEndpointID_iff (id : Bytes) :
    validRuntimeEndpointID id = true ↔ GrammaticalID id := by
  rw [validRuntimeEndpointID]
  by_cases hlength : (id.isEmpty || decide (64 < id.length)) = true
  · rw [if_pos hlength]
    simp only [Bool.false_eq_true, false_iff]
    intro h
    have hbounds := h.length
    simp only [Bool.or_eq_true, List.isEmpty_iff, decide_eq_true_eq] at hlength
    obtain rfl | hlong := hlength
    · simp at hbounds
    · omega
  · rw [if_neg hlength]
    simp only [Bool.or_eq_true, List.isEmpty_iff, decide_eq_true_eq, not_or, Nat.not_lt] at hlength
    have hpos := List.length_pos_iff.mpr hlength.1
    by_cases hdots : (id.head? == some 0x2e || id.getLast? == some 0x2e || hasDoubleDot id) = true
    · rw [if_pos hdots]
      simp only [Bool.false_eq_true, false_iff]
      intro h
      simp only [Bool.or_eq_true, beq_iff_eq, hasDoubleDot_iff] at hdots
      obtain (hfirst | hlast) | hdouble := hdots
      · exact h.first hfirst
      · exact h.last hlast
      · exact h.double hdouble
    · rw [if_neg hdots]
      simp only [Bool.or_eq_true, beq_iff_eq, hasDoubleDot_iff, not_or] at hdots
      rw [List.all_eq_true]
      exact ⟨fun h => ⟨⟨hpos, hlength.2⟩, h, hdots.1.1, hdots.1.2, hdots.2⟩, fun h => h.bytes⟩

/-- The bytes of an ID are printed ASCII and separate nothing. -/
theorem idByte_facts {b : UInt8}
    (h : (isLetter b || isDigit b || b == 0x2e || b == 0x5f || b == 0x2d) = true) :
    printed b = true ∧ b < 0x80 ∧ b ≠ 0x3b ∧ b ≠ 0x7c := by
  have hbyte : ∀ b, (isLetter b || isDigit b || b == 0x2e || b == 0x5f || b == 0x2d) = true →
      printed b = true ∧ b < 0x80 ∧ b ≠ 0x3b ∧ b ≠ 0x7c := forall_byte (by decide +kernel)
  exact hbyte b h

theorem GrammaticalID.toLower (h : GrammaticalID id) : toLower table id = id.map Url.lower :=
  toLower_ascii fun b hb => (idByte_facts (h.bytes b hb)).2.1

theorem parseRuntimeURL_eq_ok :
    parseRuntimeURL table id baseURL = .ok u ↔ AcceptedRuntime table baseURL u := by
  refine ⟨acceptedRuntime_of_ok, fun h => ?_⟩
  simp only [parseRuntimeURL, orFail_bind_eq_ok, unit_bind_eq_ok, failIf_eq_ok]
  refine ⟨u, h.parsed, ?_, h.unspecified, validateEndpointPort_eq_ok.mpr h.port, ?_, rfl⟩
  · have hpath : (!u.path.isEmpty && u.path != utf8 "/") = false := by
      obtain hpath | hpath := h.path <;> simp [hpath]
    have hscheme : (u.scheme != utf8 "http" && u.scheme != utf8 "https") = false := by
      obtain hscheme | hscheme := h.scheme <;> simp [hscheme]
    simp [h.host, h.user, h.query, h.fragment, hpath, hscheme]
  · by_cases hhttp : u.scheme = utf8 "http"
    · simp [h.loopback hhttp]
    · simp [hhttp]

end Grammar

section Rounds

variable {table : CaseTable} {runtimes runtimes' : Runtimes} {candidate : Bytes}
  {endpoint : InferenceRuntimeEndpoint} {endpoints : List InferenceRuntimeEndpoint}

/-- An entry of the list and the endpoint that it is read as. -/
def Reads (candidate : Bytes) (endpoint : InferenceRuntimeEndpoint) : Prop :=
  ∃ id kind base, (trimSpaceBytes candidate).splitOn 0x7c = [id, kind, base] ∧
    endpoint = ⟨trimSpaceBytes id, trimSpaceBytes kind, trimSlash (trimSpaceBytes base)⟩

/-- The ID without the case of its letters. -/
def smallID (endpoint : InferenceRuntimeEndpoint) : Bytes := endpoint.id.map Url.lower

/-- The canonical destinations of endpoints. -/
def destinations (table : CaseTable) (endpoints : List InferenceRuntimeEndpoint) : List Bytes :=
  (runtimeURLs endpoints).map (canonicalInferenceRuntimeEndpoint table)

def runtimeKinds : List Bytes := [utf8 "vllm", utf8 "llama_cpp", utf8 "lm_studio"]

structure WellFormedEndpoint (table : CaseTable) (endpoint : InferenceRuntimeEndpoint) : Prop where
  id : GrammaticalID endpoint.id
  kind : endpoint.kind ∈ runtimeKinds
  url : ∃ u, AcceptedRuntime table endpoint.baseURL u

/-- Endpoints that are well formed, and distinct by their IDs and by their destinations. -/
structure WellFormed (table : CaseTable) (endpoints : List InferenceRuntimeEndpoint) : Prop where
  each : ∀ endpoint ∈ endpoints, WellFormedEndpoint table endpoint
  ids : (endpoints.map smallID).Nodup
  destinations : (destinations table endpoints).Nodup

/-- The runtimes read so far with more of them. -/
def Runtimes.extend (table : CaseTable) (runtimes : Runtimes)
    (added : List InferenceRuntimeEndpoint) : Runtimes where
  seen := (added.map smallID).reverse ++ runtimes.seen
  seenDestinations := (destinations table added).reverse ++ runtimes.seenDestinations
  endpoints := runtimes.endpoints ++ added

theorem destinations_append (table : CaseTable) (endpoints more : List InferenceRuntimeEndpoint) :
    destinations table (endpoints ++ more) = destinations table endpoints ++ destinations table more := by
  simp [destinations, runtimeURLs, List.filterMap_append]

theorem Runtimes.extend_nil (table : CaseTable) (runtimes : Runtimes) :
    runtimes.extend table [] = runtimes := by
  simp [Runtimes.extend, Configuration.destinations, runtimeURLs]

theorem Runtimes.extend_extend (table : CaseTable) (runtimes : Runtimes)
    (endpoint : InferenceRuntimeEndpoint) (added : List InferenceRuntimeEndpoint) :
    (runtimes.extend table [endpoint]).extend table added =
      runtimes.extend table (endpoint :: added) := by
  have hsplit := destinations_append table [endpoint] added
  rw [List.singleton_append] at hsplit
  simp [Runtimes.extend, hsplit]

theorem destinations_singleton {u : URL} (h : AcceptedRuntime table endpoint.baseURL u) :
    destinations table [endpoint] = [canonicalInferenceRuntimeEndpoint table u] := by
  simp [destinations, runtimeURLs, h.parsed]

/-- What one round accepts, and what it keeps of it. -/
theorem addRuntime_eq_ok :
    addRuntime table runtimes candidate = .ok runtimes' ↔
      ∃ endpoint, Reads candidate endpoint ∧ WellFormedEndpoint table endpoint ∧
        smallID endpoint ∉ runtimes.seen ∧
        (∀ d ∈ destinations table [endpoint], d ∉ runtimes.seenDestinations) ∧
        runtimes' = runtimes.extend table [endpoint] := by
  have hkinds (kind : Bytes) :
      (!([utf8 "vllm", utf8 "llama_cpp", utf8 "lm_studio"].contains kind)) = false ↔
        kind ∈ runtimeKinds := by
    rw [Bool.not_eq_false', List.contains_iff_mem]
    rfl
  rw [addRuntime]
  constructor
  · intro h
    split at h
    · rename_i id kind base hparts
      simp only [bind_eq_ok, failIf_eq_ok, parseRuntimeURL_eq_ok, hkinds] at h
      obtain ⟨-, hid, -, hkind, parsed, hparsed, -, hnew, heq⟩ := h
      obtain rfl := Except.ok.inj heq
      simp only [Bool.or_eq_false_iff, Bool.not_eq_false'] at hid
      have hgrammar := (validRuntimeEndpointID_iff _).mp hid.1
      have hone := @destinations_singleton table
        ⟨trimSpaceBytes id, trimSpaceBytes kind, trimSlash (trimSpaceBytes base)⟩ _ hparsed
      refine ⟨_, ⟨id, kind, base, hparts, rfl⟩, ⟨hgrammar, hkind, parsed, hparsed⟩, ?_, ?_, ?_⟩
      · have hseen := hid.2
        rw [hgrammar.toLower] at hseen
        simpa [smallID] using hseen
      · rw [hone]
        simpa using hnew
      · simp [Runtimes.extend, hone, hgrammar.toLower, smallID]
    · cases h
  · rintro ⟨endpoint, ⟨id, kind, base, hparts, rfl⟩, ⟨hid, hkind, u, hurl⟩, hseen, hnew, rfl⟩
    have hone := destinations_singleton hurl
    rw [hone] at hnew
    rw [hparts]
    simp only [bind_eq_ok, failIf_eq_ok, parseRuntimeURL_eq_ok, hkinds]
    refine ⟨(), ?_, (), hkind, u, hurl, (), ?_, ?_⟩
    · rw [(validRuntimeEndpointID_iff _).mpr hid, hid.toLower]
      simpa [smallID] using hseen
    · simpa using hnew
    · simp [Runtimes.extend, hone, hid.toLower, smallID]

/-- What all rounds accept, by induction on the entries: the sets hold the IDs and the destinations of
the endpoints, each once. -/
theorem foldlM_addRuntime_eq_ok {candidates : List Bytes} (hseen : runtimes.seen.Nodup)
    (hdestinations : runtimes.seenDestinations.Nodup) :
    candidates.foldlM (addRuntime table) runtimes = .ok runtimes' ↔
      ∃ added, List.Forall₂ Reads candidates added ∧
        (∀ endpoint ∈ added, WellFormedEndpoint table endpoint) ∧
        runtimes' = runtimes.extend table added ∧ runtimes'.seen.Nodup ∧
        runtimes'.seenDestinations.Nodup := by
  induction candidates generalizing runtimes with
  | nil =>
      rw [List.foldlM_nil]
      constructor
      · intro h
        obtain rfl := Except.ok.inj h
        exact ⟨[], List.Forall₂.nil, by simp, (runtimes.extend_nil table).symm, hseen,
          hdestinations⟩
      · rintro ⟨added, hreads, -, rfl, -⟩
        obtain rfl := List.forall₂_nil_left_iff.mp hreads
        rw [runtimes.extend_nil]
        rfl
  | cons candidate rest ih =>
      rw [List.foldlM_cons, bind_eq_ok]
      constructor
      · rintro ⟨next, hnext, hrest⟩
        obtain ⟨endpoint, hreads, hwell, hid, hnew, rfl⟩ := addRuntime_eq_ok.mp hnext
        have hnextSeen : (runtimes.extend table [endpoint]).seen.Nodup :=
          List.nodup_cons.mpr ⟨hid, hseen⟩
        have hnextDestinations : (runtimes.extend table [endpoint]).seenDestinations.Nodup := by
          obtain ⟨u, hu⟩ := hwell.url
          have hone := destinations_singleton hu
          rw [hone] at hnew
          simp only [Runtimes.extend, hone]
          exact List.nodup_cons.mpr ⟨hnew _ List.mem_cons_self, hdestinations⟩
        obtain ⟨added, hreadsRest, hwellRest, rfl, hseen', hdestinations'⟩ :=
          (ih hnextSeen hnextDestinations).mp hrest
        exact ⟨endpoint :: added, List.Forall₂.cons hreads hreadsRest,
          List.forall_mem_cons.mpr ⟨hwell, hwellRest⟩, runtimes.extend_extend table endpoint added,
          hseen', hdestinations'⟩
      · rintro ⟨added, hreads, hwell, rfl, hseen', hdestinations'⟩
        obtain ⟨endpoint, added, hfirst, hreadsRest, rfl⟩ := List.forall₂_cons_left_iff.mp hreads
        obtain ⟨hwellFirst, hwellRest⟩ := List.forall_mem_cons.mp hwell
        rw [← Runtimes.extend_extend] at hseen' hdestinations'
        have hnextSeen := hseen'.sublist (List.sublist_append_right _ _)
        have hnextDestinations := hdestinations'.sublist (List.sublist_append_right _ _)
        refine ⟨runtimes.extend table [endpoint], addRuntime_eq_ok.mpr ⟨endpoint, hfirst,
          hwellFirst, (List.nodup_cons.mp hnextSeen).1, ?_, rfl⟩,
          (ih hnextSeen hnextDestinations).mpr ⟨added, hreadsRest, hwellRest,
            (runtimes.extend_extend table endpoint added).symm, ?_, ?_⟩⟩
        · intro d hd hmem
          exact (List.nodup_append.mp hnextDestinations).2.2 d (List.mem_reverse.mpr hd) d hmem rfl
        · rw [← Runtimes.extend_extend]
          exact hseen'
        · rw [← Runtimes.extend_extend]
          exact hdestinations'

/-- A list that is not blank is accepted with the endpoints that its entries read as, if these are
well formed. -/
theorem parseInferenceRuntimeEndpoints_eq_ok {raw : Bytes} (hraw : trimSpaceBytes raw ≠ []) :
    parseInferenceRuntimeEndpoints table raw = .ok endpoints ↔
      List.Forall₂ Reads (raw.splitOn 0x3b) endpoints ∧ WellFormed table endpoints := by
  have hextend (added : List InferenceRuntimeEndpoint) :
      (Runtimes.extend table ⟨[], [], []⟩ added) =
        ⟨(added.map smallID).reverse, (destinations table added).reverse, added⟩ := by
    simp [Runtimes.extend]
  have hfold (runtimes' : Runtimes) := @foldlM_addRuntime_eq_ok table ⟨[], [], []⟩ runtimes'
    (raw.splitOn 0x3b) List.nodup_nil List.nodup_nil
  rw [parseInferenceRuntimeEndpoints, if_neg (by simpa using hraw)]
  constructor
  · intro h
    cases hrounds : (raw.splitOn 0x3b).foldlM (addRuntime table) ⟨[], [], []⟩ with
    | error e =>
        rw [hrounds] at h
        cases h
    | ok runtimes =>
        rw [hrounds] at h
        obtain rfl := Except.ok.inj h
        obtain ⟨added, hreads, hwell, rfl, hseen, hdestinations⟩ := (hfold runtimes).mp hrounds
        rw [hextend] at hseen hdestinations ⊢
        exact ⟨hreads, hwell, List.nodup_reverse.mp hseen, List.nodup_reverse.mp hdestinations⟩
  · rintro ⟨hreads, hwell⟩
    have hok := (hfold (Runtimes.extend table ⟨[], [], []⟩ endpoints)).mpr
      ⟨endpoints, hreads, hwell.each, rfl, by
        rw [hextend]
        exact List.nodup_reverse.mpr hwell.ids, by
        rw [hextend]
        exact List.nodup_reverse.mpr hwell.destinations⟩
    rw [hok, hextend]
    rfl

end Rounds

section FinalSlash

variable {table : CaseTable} {baseURL rest : Bytes} {u : URL}

/-- The text of an accepted URL, and how its parts are read. -/
structure BaseText (text : Bytes) (u : URL) (scheme authority path mark : Bytes) : Prop where
  form : Hierarchical text scheme authority path mark
  read : Authority u authority path
  scheme : u.scheme = scheme.map Url.lower

/-- A URL that ends with a slash has no fragment, not even an empty one. -/
theorem AcceptedRuntime.baseText (h : AcceptedRuntime table (rest ++ [0x2f]) u) :
    0x23 ∉ rest ∧ ∃ scheme authority path mark,
      BaseText (rest ++ [0x2f]) u scheme authority path mark := by
  have hhash : 0x23 ∉ rest ++ [0x2f] := by
    obtain ⟨hmem, -⟩ | ⟨before, after, hsplit, hbefore, hcut⟩ := cutAt_cases 0x23 (rest ++ [0x2f])
    · exact hmem
    · have hafter : after ≠ [] := by
        rintro rfl
        have hlast := congrArg List.getLast? hsplit
        simp at hlast
      exact absurd h.fragment (fragment_ne_nil hafter hcut h.parsed)
  have hparsed := h.parsed
  rw [parse_of_not_mem hhash] at hparsed
  have hscheme : u.scheme ≠ [] := by
    obtain hscheme | hscheme := h.scheme <;> rw [hscheme] <;> decide
  obtain ⟨scheme, authority, path, mark, hform, hread⟩ :=
    authority_of_parseRest hparsed hscheme h.host h.query
  refine ⟨fun hmem => hhash (List.mem_append_left _ hmem), scheme, authority, path, mark, hform,
    hread, ?_⟩
  rw [parseRest_hierarchical hform, Option.bind_eq_some_iff] at hparsed
  obtain ⟨⟨hasUser, host⟩, -, hpath⟩ := hparsed
  obtain ⟨p, -, rfl⟩ := setPath_eq_some hpath
  rfl

/-- The slash at the end of such a URL is its path. -/
theorem AcceptedRuntime.rest_eq (h : AcceptedRuntime table (rest ++ [0x2f]) u)
    {scheme authority path mark : Bytes}
    (htext : BaseText (rest ++ [0x2f]) u scheme authority path mark) :
    path = [0x2f] ∧ mark = [] ∧ rest = scheme ++ 0x3a :: 0x2f :: 0x2f :: authority := by
  obtain hmark | hmark := htext.form.marks
  · obtain hpath | ⟨tail, hpath⟩ := htext.form.start
    · have hsplit := htext.form.split
      rw [hpath, hmark, List.append_nil] at hsplit
      cases hauthority : authority with
      | nil =>
          have hread := htext.read.read
          rw [hauthority, show parseAuthority [] = some (false, []) by decide] at hread
          exact absurd (Prod.mk.inj (Option.some.inj hread)).2.symm h.host
      | cons b more =>
          have hlast := congrArg List.getLast? hsplit
          rw [List.append_nil, List.getLast?_append, List.getLast?_append] at hlast
          have hmem : 0x2f ∈ authority := by
            apply List.mem_of_getLast?
            rw [hauthority] at hlast ⊢
            simpa [List.getLast?_cons] using hlast.symm
          exact absurd hmem htext.form.authorityBytes.1
    · have hread := unescapes_of_unescape htext.read.unescaped
      rw [hpath] at hread
      have htail : tail = [] := by
        have hslash : utf8 "/" = [0x2f] := by decide
        obtain hempty | hroot := h.path
        · rw [hempty] at hread
          cases hread
        · rw [hroot, hslash] at hread
          cases hread with
          | literal hc hallowed htail => exact htail.eq_nil_iff.mp rfl
      have hsplit := htext.form.split
      rw [hpath, hmark, htail, List.append_nil, ← List.cons_append, ← List.cons_append,
        ← List.cons_append, ← List.append_assoc] at hsplit
      rw [hpath, htail]
      exact ⟨rfl, hmark, (List.append_inj' hsplit rfl).1⟩
  · have hlast := congrArg List.getLast? htext.form.split
    rw [hmark, ← List.append_assoc authority] at hlast
    simp [List.getLast?_append, List.getLast?_cons] at hlast

/-- Without its slash an accepted URL is accepted too, and has the same destination. -/
theorem AcceptedRuntime.trimSlash (h : AcceptedRuntime table baseURL u) :
    ∃ v, AcceptedRuntime table (trimSlash baseURL) v ∧
      canonicalInferenceRuntimeEndpoint table v = canonicalInferenceRuntimeEndpoint table u := by
  rw [Configuration.trimSlash]
  split
  · next hlast =>
      obtain ⟨rest, rfl⟩ : ∃ rest, baseURL = rest ++ [0x2f] :=
        List.getLast?_eq_some_iff.mp (by simpa using hlast)
      obtain ⟨hhash, scheme, authority, path, mark, htext⟩ := h.baseText
      obtain ⟨rfl, rfl, hrest⟩ := h.rest_eq htext
      rw [List.dropLast_concat]
      have hform : Hierarchical rest scheme authority [] [] := {
        split := by rw [hrest, List.append_nil, List.append_nil]
        printable := fun b hb => htext.form.printable b (List.mem_append_left _ hb)
        letter := htext.form.letter
        schemeBytes := htext.form.schemeBytes
        authorityBytes := htext.form.authorityBytes
        start := Or.inl rfl
        pathBytes := List.not_mem_nil
        marks := Or.inl rfl }
      have hparsed : parse rest = some { URL.empty with
          scheme := u.scheme, hasUser := u.hasUser, host := u.host } := by
        rw [parse_of_not_mem hhash, parseRest_hierarchical hform, htext.read.read, htext.scheme]
        rfl
      exact ⟨_, ⟨hparsed, h.host, h.user, rfl, rfl, Or.inl rfl, h.scheme, h.unspecified, h.port,
        h.loopback⟩, rfl⟩
  · exact ⟨u, h, rfl⟩

end FinalSlash

section Writing

variable {table : CaseTable} {entry : InferenceRuntimeEndpoint}
  {entries : List InferenceRuntimeEndpoint} {baseURL : Bytes} {u : URL}

def writtenEntry (entry : InferenceRuntimeEndpoint) : Bytes :=
  entry.id ++ 0x7c :: (entry.kind ++ 0x7c :: entry.baseURL)

/-- The list as it is written, with `;` between its entries. -/
def writtenList (entries : List InferenceRuntimeEndpoint) : Bytes :=
  [0x3b].intercalate (entries.map writtenEntry)

/-- The entry without white space around its URL. -/
def trimmedEntry (entry : InferenceRuntimeEndpoint) : InferenceRuntimeEndpoint :=
  { entry with baseURL := trimSpaceBytes entry.baseURL }

/-- The endpoint that is kept of an entry. -/
def storedEndpoint (entry : InferenceRuntimeEndpoint) : InferenceRuntimeEndpoint :=
  { entry with baseURL := trimSlash (trimSpaceBytes entry.baseURL) }

theorem AcceptedRuntime.solid (h : AcceptedRuntime table (trimSpaceBytes baseURL) u) :
    Solid (trimSpaceBytes baseURL) := by
  have hscheme : u.scheme ≠ [] := by
    obtain hscheme | hscheme := h.scheme <;> rw [hscheme] <;> decide
  obtain ⟨first, rest, hfirst, hletter⟩ := letter_of_parse h.parsed hscheme h.host h.query
  have hprinted : printed first = true := (idByte_facts (by simp [hletter])).1
  exact ⟨⟨first, rest, hfirst, hprinted⟩, trimSpaceBytes_tail baseURL⟩

theorem runtimeKinds_facts : ∀ kind ∈ runtimeKinds,
    (∀ b ∈ kind, printed b = true) ∧ 0x3b ∉ kind ∧ 0x7c ∉ kind := by
  decide +kernel

theorem GrammaticalID.not_mem {id : Bytes} (h : GrammaticalID id) : 0x3b ∉ id ∧ 0x7c ∉ id :=
  ⟨fun hmem => (idByte_facts (h.bytes _ hmem)).2.2.1 rfl,
    fun hmem => (idByte_facts (h.bytes _ hmem)).2.2.2 rfl⟩

theorem GrammaticalID.exists_cons {id : Bytes} (h : GrammaticalID id) :
    ∃ first rest, id = first :: rest ∧ printed first = true := by
  obtain ⟨first, rest, rfl⟩ := List.exists_cons_of_length_pos h.length.1
  exact ⟨first, rest, rfl, (idByte_facts (h.bytes first List.mem_cons_self)).1⟩

/-- A written entry reads as its endpoint, whatever white space is around its URL. -/
theorem reads_writtenEntry (h : WellFormedEndpoint table (trimmedEntry entry))
    (hfree : 0x7c ∉ entry.baseURL) : Reads (writtenEntry entry) (storedEndpoint entry) := by
  obtain ⟨u, hurl⟩ := h.url
  have hid : GrammaticalID entry.id := h.id
  obtain ⟨hkindBytes, -, hkindFree⟩ := runtimeKinds_facts entry.kind h.kind
  have hsolid : Solid (trimSpaceBytes entry.baseURL) := hurl.solid
  obtain ⟨before, after, hbefore, hafter, hsplit⟩ := exists_surrounded entry.baseURL
  obtain ⟨first, rest, hfirst, hprinted⟩ := hid.exists_cons
  let front := entry.id ++ 0x7c :: (entry.kind ++ 0x7c :: before.flatten)
  have hwritten :
      writtenEntry entry = front ++ trimSpaceBytes entry.baseURL ++ after.flatten := by
    rw [writtenEntry]
    conv_lhs => rw [hsplit]
    simp only [front, List.append_assoc, List.cons_append]
  have hstart : ∀ e ∈ spaces, ¬ e <+: writtenEntry entry := by
    rw [writtenEntry, hfirst]
    exact not_prefix_of_printed hprinted _
  have htrim : trimSpaceBytes (writtenEntry entry) = front ++ trimSpaceBytes entry.baseURL := by
    rw [hwritten] at hstart ⊢
    exact trimSpaceBytes_append_flatten hstart (hsolid.append front) hafter
  have hbase : 0x7c ∉ before.flatten ++ trimSpaceBytes entry.baseURL := by
    rw [hsplit, ← List.append_assoc] at hfree
    exact fun hmem => hfree (List.mem_append_left _ hmem)
  refine ⟨entry.id, entry.kind, before.flatten ++ trimSpaceBytes entry.baseURL, ?_, ?_⟩
  · rw [htrim]
    simp only [front, List.append_assoc, List.cons_append]
    rw [List.splitOn_append_cons_self_of_not_mem hid.not_mem.2,
      List.splitOn_append_cons_self_of_not_mem hkindFree, List.splitOn_eq_singleton hbase]
  · have hurlTrim := @Solid.trimSpaceBytes_surrounded _ before [] hsolid hbefore (by simp)
    rw [List.flatten_nil, List.append_nil] at hurlTrim
    rw [trimSpaceBytes_of_printed fun b hb => (idByte_facts (hid.bytes b hb)).1,
      trimSpaceBytes_of_printed hkindBytes, hurlTrim]
    rfl

theorem splitOn_writtenList (hne : entries ≠ [])
    (hwell : ∀ entry ∈ entries, WellFormedEndpoint table (trimmedEntry entry))
    (hfree : ∀ entry ∈ entries, 0x3b ∉ entry.baseURL) :
    (writtenList entries).splitOn 0x3b = entries.map writtenEntry := by
  rw [writtenList, List.splitOn_intercalate]
  · intro text htext
    obtain ⟨entry, hentry, rfl⟩ := List.mem_map.mp htext
    have hid : GrammaticalID entry.id := (hwell entry hentry).id
    have hkind := (runtimeKinds_facts entry.kind (hwell entry hentry).kind).2.1
    simp [writtenEntry, hid.not_mem.1, hkind, hfree entry hentry]
  · simpa using hne

theorem writtenList_not_blank (hne : entries ≠ [])
    (hwell : ∀ entry ∈ entries, WellFormedEndpoint table (trimmedEntry entry)) :
    trimSpaceBytes (writtenList entries) ≠ [] := by
  obtain ⟨entry, rest, rfl⟩ := List.exists_cons_of_ne_nil hne
  have hid : GrammaticalID entry.id := (hwell entry List.mem_cons_self).id
  obtain ⟨first, more, hfirst, hprinted⟩ := hid.exists_cons
  obtain ⟨tail, htail⟩ : ∃ tail, writtenList (entry :: rest) = first :: tail := by
    cases rest with
    | nil => simp [writtenList, writtenEntry, hfirst]
    | cons next rest => simp [writtenList, writtenEntry, hfirst, List.intercalate_cons_cons]
  rw [htail]
  exact trimSpaceBytes_ne_nil hprinted tail

/-- Without the slashes at their ends the URLs have the same destinations. -/
theorem destinations_stored
    (hwell : ∀ entry ∈ entries, WellFormedEndpoint table (trimmedEntry entry)) :
    destinations table (entries.map storedEndpoint) =
      destinations table (entries.map trimmedEntry) := by
  induction entries with
  | nil => rfl
  | cons entry rest ih =>
      obtain ⟨hfirst, hrest⟩ := List.forall_mem_cons.mp hwell
      obtain ⟨u, hu⟩ := hfirst.url
      obtain ⟨v, hv, hsame⟩ := hu.trimSlash
      have hstored : destinations table [storedEndpoint entry] =
          destinations table [trimmedEntry entry] := by
        rw [destinations_singleton hu, ← hsame]
        exact destinations_singleton hv
      rw [List.map_cons, List.map_cons, ← List.singleton_append, destinations_append, hstored,
        ih hrest, ← destinations_append, List.singleton_append]

theorem wellFormed_stored (h : WellFormed table (entries.map trimmedEntry)) :
    WellFormed table (entries.map storedEndpoint) := by
  have hwell : ∀ entry ∈ entries, WellFormedEndpoint table (trimmedEntry entry) :=
    List.forall_mem_map.mp h.each
  refine ⟨?_, ?_, ?_⟩
  · intro endpoint hendpoint
    obtain ⟨entry, hentry, rfl⟩ := List.mem_map.mp hendpoint
    obtain ⟨hid, hkind, u, hu⟩ := hwell entry hentry
    obtain ⟨v, hv, -⟩ := hu.trimSlash
    exact ⟨hid, hkind, v, hv⟩
  · have hids := h.ids
    rw [List.map_map] at hids ⊢
    exact hids
  · rw [destinations_stored hwell]
    exact h.destinations

/-- A list that is not blank is accepted with one endpoint for each of its entries, in their order,
exactly if these endpoints are well formed and distinct; and entries that are so without the white
space around their URLs are accepted with their IDs and kinds. -/
theorem runtime_endpoints_iff (table : CaseTable) :
    (∀ raw endpoints, trimSpaceBytes raw ≠ [] →
      (parseInferenceRuntimeEndpoints table raw = .ok endpoints ↔
        List.Forall₂ Reads (raw.splitOn 0x3b) endpoints ∧ WellFormed table endpoints)) ∧
    ∀ entries : List InferenceRuntimeEndpoint, entries ≠ [] →
      (∀ entry ∈ entries, 0x3b ∉ entry.baseURL ∧ 0x7c ∉ entry.baseURL) →
        WellFormed table (entries.map trimmedEntry) →
          parseInferenceRuntimeEndpoints table (writtenList entries) =
            .ok (entries.map storedEndpoint) := by
  refine ⟨fun raw endpoints hraw => parseInferenceRuntimeEndpoints_eq_ok hraw, ?_⟩
  intro entries hne hfree hwell
  have heach : ∀ entry ∈ entries, WellFormedEndpoint table (trimmedEntry entry) :=
    List.forall_mem_map.mp hwell.each
  apply (parseInferenceRuntimeEndpoints_eq_ok (writtenList_not_blank hne heach)).mpr
  rw [splitOn_writtenList hne heach fun entry hentry => (hfree entry hentry).1]
  refine ⟨?_, wellFormed_stored hwell⟩
  rw [List.forall₂_map_left_iff, List.forall₂_map_right_iff, List.forall₂_same]
  exact fun entry hentry => reads_writtenEntry (heach entry hentry) (hfree entry hentry).2

end Writing

section Examples

theorem exists_acceptedRuntime {table : CaseTable} {id baseURL : Bytes}
    (h : (parseRuntimeURL table id baseURL).toOption.isSome = true) :
    ∃ u, AcceptedRuntime table baseURL u := by
  obtain ⟨u, hu⟩ := Option.isSome_iff_exists.mp h
  exact ⟨u, acceptedRuntime_of_ok (toOption_eq_some.mp hu)⟩

def twoRuntimes : List InferenceRuntimeEndpoint :=
  [⟨utf8 "a", utf8 "vllm", utf8 "https://models.example/"⟩,
    ⟨utf8 "b.2", utf8 "lm_studio", utf8 "http://127.0.0.1:1234"⟩]

theorem twoRuntimes_accepted :
    parseInferenceRuntimeEndpoints asciiTable (writtenList twoRuntimes) =
      .ok (twoRuntimes.map storedEndpoint) := by
  apply (runtime_endpoints_iff asciiTable).2 twoRuntimes (by decide) (by decide +kernel)
  refine ⟨?_, by decide +kernel, by decide +kernel⟩
  intro endpoint hendpoint
  simp only [twoRuntimes, List.map_cons, List.map_nil, List.mem_cons, List.not_mem_nil,
    or_false] at hendpoint
  obtain rfl | rfl := hendpoint
  · exact ⟨(validRuntimeEndpointID_iff _).mp (by decide +kernel), by decide +kernel,
      @exists_acceptedRuntime _ [] _ (by decide +kernel)⟩
  · exact ⟨(validRuntimeEndpointID_iff _).mp (by decide +kernel), by decide +kernel,
      @exists_acceptedRuntime _ [] _ (by decide +kernel)⟩

/-- The host is a no-break space. -/
def spaceHost : InferenceRuntimeEndpoint := ⟨utf8 "a", utf8 "vllm", utf8 "https://\u00a0"⟩

/-- The entry is well formed as it stands, but trimming it takes its host away. -/
theorem spaceHost_rejected :
    WellFormed asciiTable [spaceHost] ∧ 0x3b ∉ spaceHost.baseURL ∧ 0x7c ∉ spaceHost.baseURL ∧
      ∀ endpoints,
        parseInferenceRuntimeEndpoints asciiTable (writtenList [spaceHost]) ≠ .ok endpoints := by
  refine ⟨⟨?_, by decide +kernel, by decide +kernel⟩, by decide +kernel, by decide +kernel, ?_⟩
  · intro endpoint hendpoint
    obtain rfl := List.mem_singleton.mp hendpoint
    exact ⟨(validRuntimeEndpointID_iff _).mp (by decide +kernel), by decide +kernel,
      @exists_acceptedRuntime _ [] _ (by decide +kernel)⟩
  · intro endpoints hok
    have hfailed : (parseInferenceRuntimeEndpoints asciiTable (writtenList [spaceHost])).toOption =
        none := by decide +kernel
    rw [hok] at hfailed
    cases hfailed

end Examples

end NodeScope.Agent.Configuration
