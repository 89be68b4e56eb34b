import NodeScope.Proxy.Handler
import Mathlib.Data.List.DropRight

/-!
# The two checks of a backend URL

The configuration is checked with `url.ParseRequestURI`, a request with `url.Parse`. Both accept
the base URLs of one form, but the first reads a `#` as part of the path, and the second ends the
URL there. What a request is sent to is written from the base URL and read once more.

## Implementation notes

Forwarding is what `forwardOnce` does itself: it ends with the request that is handed to the client.
-/

namespace NodeScope.Proxy

open Lib Lib.Text Lib.Url

/-- The checks at the start of `forwardOnce`. -/
def requestAccepts (base : String) : Bool :=
  match Url.parse (utf8 base) with
  | some baseURL => credentialFree baseURL
  | none => false

/-- The path of a base URL without the slashes at its end and without a final version. -/
def configuredPath (path : List UInt8) : List UInt8 :=
  let base := path.rdropWhile (· == 0x2f)
  if (utf8 "/v1").isSuffixOf base then base.take (base.length - 3) else base

/-- An absolute HTTP URL without a user, with an empty query at most. -/
structure BaseURL (raw scheme authority path mark : List UInt8) : Prop
    extends Hierarchical raw scheme authority path mark where
  http : scheme.map lower = utf8 "http" ∨ scheme.map lower = utf8 "https"
  user : 0x40 ∉ authority
  host : ∃ host, parseHost authority = some host ∧ host ≠ []
  escapes : ∃ text, Unescapes .path path text

/-- A base URL that may end in an empty fragment. -/
structure RequestURL (value raw hash scheme authority path mark : List UInt8) : Prop
    extends BaseURL raw scheme authority path mark where
  whole : value = raw ++ hash
  ending : hash = [] ∨ hash = [0x23]
  unhashed : 0x23 ∉ path

section Acceptance

variable {raw scheme authority path mark host text : List UInt8} {via : Bool}

/-- How a base URL is read by both parsers. -/
def readURL (scheme mark host path text : List UInt8) : URL :=
  { URL.empty with
    scheme := scheme.map lower
    forceQuery := !mark.isEmpty
    host := host
    path := text
    rawPath := if escape .path text == path then [] else path }

theorem BaseURL.parseRest (h : BaseURL raw scheme authority path mark)
    (hhost : parseHost authority = some host) (htext : Unescapes .path path text) (via : Bool) :
    parseRest raw via = some (readURL scheme mark host path text) := by
  rw [parseRest_hierarchical h.toHierarchical via, parseAuthority_eq_host.2 ⟨h.user, hhost⟩]
  simp only [Option.bind_some, URL.setPath, unescape_of_unescapes htext, Option.map_some, readURL,
    URL.empty]

theorem credentialFree_readURL (hhttp : scheme.map lower = utf8 "http" ∨
    scheme.map lower = utf8 "https") (hhost : host ≠ []) :
    credentialFree (readURL scheme mark host path text) = true := by
  have hscheme : (scheme.map lower == utf8 "http" || scheme.map lower == utf8 "https") = true := by
    simpa using hhttp
  have hempty : host.isEmpty = false := by simpa using hhost
  simp only [credentialFree, readURL, URL.empty, hscheme, hempty, List.isEmpty_nil, Bool.not_false,
    Bool.and_self]

/-- What is read as the URL of a backend has the form of a base URL. -/
theorem baseURL_of_parseRest {u : URL} (h : parseRest raw via = some u)
    (hfree : credentialFree u = true) :
    ∃ scheme authority path mark, BaseURL raw scheme authority path mark := by
  simp only [credentialFree, Bool.and_eq_true, Bool.or_eq_true, beq_iff_eq, Bool.not_eq_true',
    List.isEmpty_iff, List.isEmpty_eq_false_iff] at hfree
  obtain ⟨⟨⟨⟨hhost, hhttp⟩, huser⟩, hquery⟩, -⟩ := hfree
  have hscheme : u.scheme ≠ [] := by
    have hbytes : utf8 "http" ≠ [] ∧ utf8 "https" ≠ [] := by decide
    obtain hhttp | hhttp := hhttp
    · rw [hhttp]
      exact hbytes.1
    · rw [hhttp]
      exact hbytes.2
  obtain ⟨scheme, authority, path, mark, hform⟩ := hierarchical_of_parseRest h hscheme hhost hquery
  rw [parseRest_hierarchical hform, Option.bind_eq_some_iff] at h
  obtain ⟨⟨hasUser, host⟩, hauthority, hpath⟩ := h
  obtain ⟨text, htext, rfl⟩ := setPath_eq_some hpath
  obtain rfl : hasUser = false := huser
  obtain ⟨hat, hread⟩ := parseAuthority_eq_host.1 hauthority
  exact ⟨scheme, authority, path, mark,
    ⟨hform, hhttp, hat, ⟨host, hread, hhost⟩, ⟨text, unescapes_of_unescape htext⟩⟩⟩

theorem BaseURL.hash_mem_iff (h : BaseURL raw scheme authority path mark) :
    0x23 ∈ raw ↔ 0x23 ∈ path := by
  obtain ⟨host, hhost, -⟩ := h.host
  have hauthority : 0x23 ∉ authority :=
    not_mem_of_parseHost (by decide) (by decide +kernel) (by decide) (by decide) hhost
  have hscheme : 0x23 ∉ scheme := fun hmem => (schemeByte_facts (h.schemeBytes _ hmem)).2 rfl
  have hmark : 0x23 ∉ mark := by
    obtain rfl | rfl := h.marks <;> decide
  rw [h.split]
  simp [hauthority, hscheme, hmark]

theorem validateBackendURL_iff {value : String} :
    validateBackendURL value = true ↔
      ∃ scheme authority path mark, BaseURL (utf8 value) scheme authority path mark := by
  rw [validateBackendURL, parseRequestURI]
  constructor
  · intro h
    split at h
    · rename_i u hparse
      exact baseURL_of_parseRest hparse h
    · cases h
  · rintro ⟨scheme, authority, path, mark, h⟩
    obtain ⟨host, hhost, hne⟩ := h.host
    obtain ⟨text, htext⟩ := h.escapes
    rw [h.parseRest hhost htext]
    exact credentialFree_readURL h.http hne

theorem RequestURL.parse {value hash : List UInt8}
    (h : RequestURL value raw hash scheme authority path mark)
    (hhost : parseHost authority = some host) (htext : Unescapes .path path text) :
    Url.parse value = some (readURL scheme mark host path text) := by
  have hraw : 0x23 ∉ raw := fun hmem => h.unhashed (h.hash_mem_iff.1 hmem)
  rw [h.whole]
  obtain rfl | rfl := h.ending
  · rw [List.append_nil, parse_of_not_mem hraw, h.parseRest hhost htext]
  · rw [parse_empty_fragment hraw, h.parseRest hhost htext]

theorem requestAccepts_iff {value : String} :
    requestAccepts value = true ↔
      ∃ raw hash scheme authority path mark,
        RequestURL (utf8 value) raw hash scheme authority path mark := by
  rw [requestAccepts]
  constructor
  · intro h
    split at h
    · rename_i u hparse
      obtain ⟨hmem, -⟩ | ⟨before, after, hsplit, hbefore, hcut⟩ := cutAt_cases 0x23 (utf8 value)
      · rw [parse_of_not_mem hmem] at hparse
        obtain ⟨scheme, authority, path, mark, hbase⟩ := baseURL_of_parseRest hparse h
        exact ⟨_, [], scheme, authority, path, mark, hbase, (List.append_nil _).symm, Or.inl rfl,
          fun hpath => hmem (hbase.hash_mem_iff.2 hpath)⟩
      · have hafter : after = [] := by
          by_contra hne
          have hfragment := fragment_ne_nil hne hcut hparse
          simp only [credentialFree, Bool.and_eq_true, List.isEmpty_iff] at h
          exact hfragment h.2
        subst hafter
        rw [hsplit, parse_empty_fragment hbefore] at hparse
        obtain ⟨scheme, authority, path, mark, hbase⟩ := baseURL_of_parseRest hparse h
        exact ⟨before, [0x23], scheme, authority, path, mark, hbase, hsplit, Or.inr rfl,
          fun hpath => hbefore (hbase.hash_mem_iff.2 hpath)⟩
    · cases h
  · rintro ⟨raw, hash, scheme, authority, path, mark, h⟩
    obtain ⟨host, hhost, hne⟩ := h.host
    obtain ⟨text, htext⟩ := h.escapes
    rw [h.parse hhost htext]
    exact credentialFree_readURL h.http hne

end Acceptance

/-- A base URL with a `#` in its path and something after it. -/
def HashInPath (value : List UInt8) : Prop :=
  ∃ scheme authority before after mark,
    BaseURL value scheme authority (before ++ 0x23 :: after) mark ∧ after ++ mark ≠ []

/-- A base URL and a `#`, with no path or with a query sign before it. -/
def HashAtEnd (value : List UInt8) : Prop :=
  ∃ raw scheme authority path mark,
    RequestURL value raw [0x23] scheme authority path mark ∧ (path = [] ∨ mark = [0x3f])

section Agreement

variable {value : String} {raw scheme authority path mark : List UInt8}

theorem requestAccepts_of_hashInPath (h : HashInPath (utf8 value)) :
    requestAccepts value = false := by
  rw [← Bool.not_eq_true, requestAccepts_iff]
  rintro ⟨raw, hash, _, _, _, _, hrequest⟩
  have hraw : 0x23 ∉ raw := fun hmem => hrequest.unhashed (hrequest.hash_mem_iff.1 hmem)
  obtain ⟨scheme, authority, before, after, mark, hbase, hne⟩ := h
  obtain ⟨tail, last, htail⟩ := (List.eq_nil_or_concat (after ++ mark)).resolve_left hne
  have hsplit : raw ++ hash =
      (scheme ++ 0x3a :: 0x2f :: 0x2f :: (authority ++ before) ++ 0x23 :: tail) ++ [last] := by
    rw [← hrequest.whole, hbase.split]
    simpa using htail
  obtain rfl | rfl := hrequest.ending
  · rw [List.append_nil] at hsplit
    exact hraw (hsplit ▸ by simp)
  · have hleft := List.append_inj_left' hsplit rfl
    exact hraw (hleft ▸ by simp)

/-- Where a base URL has a query sign and slashes. -/
theorem BaseURL.mark_of_mem (h : BaseURL raw scheme authority path mark) (hmem : 0x3f ∈ raw) :
    mark = [0x3f] := by
  have hscheme : 0x3f ∉ scheme := by
    intro hmem
    have hbyte := h.schemeBytes _ hmem
    have hnot : schemeByte 0x3f = false := by decide
    rw [hnot] at hbyte
    cases hbyte
  obtain rfl | hmark := h.marks
  · rw [h.split] at hmem
    simp [hscheme, h.authorityBytes.2, h.pathBytes] at hmem
  · exact hmark

theorem BaseURL.count_slash (h : BaseURL raw scheme authority path mark) :
    raw.count 0x2f = path.count 0x2f + 2 := by
  have hscheme : 0x2f ∉ scheme := by
    intro hmem
    have hbyte := h.schemeBytes _ hmem
    have hnot : schemeByte 0x2f = false := by decide
    rw [hnot] at hbyte
    cases hbyte
  have hmark : 0x2f ∉ mark := by
    obtain rfl | rfl := h.marks <;> decide
  have hcolon : (0x3a == (0x2f : UInt8)) = false := by decide
  rw [h.split]
  simp only [List.count_append, List.count_cons, List.count_eq_zero.2 hscheme,
    List.count_eq_zero.2 h.authorityBytes.1, List.count_eq_zero.2 hmark, hcolon,
    beq_self_eq_true, if_true, Bool.false_eq_true, if_false]
  omega

theorem validateBackendURL_of_hashAtEnd (h : HashAtEnd (utf8 value)) :
    validateBackendURL value = false := by
  rw [← Bool.not_eq_true, validateBackendURL_iff]
  rintro ⟨scheme', authority', path', mark', hbase⟩
  obtain ⟨raw, scheme, authority, path, mark, hrequest, hkind⟩ := h
  obtain rfl | rfl := hkind
  · have hcount := hbase.count_slash
    rw [hrequest.whole, List.count_append, hrequest.count_slash] at hcount
    have hpath : 0x23 ∈ path' := hbase.hash_mem_iff.1 (hrequest.whole ▸ by simp)
    obtain rfl | ⟨rest, rfl⟩ := hbase.start
    · cases hpath
    · rw [List.count_cons_self] at hcount
      have hhash : List.count (0x2f : UInt8) [0x23] = 0 := by decide
      rw [hhash, List.count_nil] at hcount
      omega
  · have hmark := hbase.mark_of_mem (by rw [hrequest.whole, hrequest.split]; simp)
    have hsplit : raw ++ [0x23] =
        (scheme' ++ 0x3a :: 0x2f :: 0x2f :: (authority' ++ path')) ++ [0x3f] := by
      rw [← hrequest.whole, hbase.split, hmark]
      simp
    exact absurd (List.append_inj_right' hsplit rfl) (by decide)

theorem BaseURL.unhash {before : List UInt8}
    (h : BaseURL (raw ++ [0x23]) scheme authority (before ++ [0x23]) []) :
    BaseURL raw scheme authority before [] := by
  have hraw : raw = scheme ++ 0x3a :: 0x2f :: 0x2f :: (authority ++ (before ++ [])) := by
    have hsplit : raw ++ [0x23] =
        (scheme ++ 0x3a :: 0x2f :: 0x2f :: (authority ++ before)) ++ [0x23] := by
      rw [h.split]
      simp
    rw [List.append_inj_left' hsplit rfl, List.append_nil]
  obtain ⟨text, htext⟩ := h.escapes
  obtain ⟨first, second, -, hfirst, -⟩ := htext.split (by decide) (by decide)
  exact {
    split := hraw
    printable := fun b hb => h.printable b (List.mem_append_left _ hb)
    letter := h.letter
    schemeBytes := h.schemeBytes
    authorityBytes := h.authorityBytes
    start := by
      obtain hnil | ⟨rest, hrest⟩ := h.start
      · simp at hnil
      · cases before with
        | nil => exact Or.inl rfl
        | cons b before => exact Or.inr ⟨before, by rw [(List.cons.inj hrest).1]⟩
    pathBytes := fun hmem => h.pathBytes (List.mem_append_left _ hmem)
    marks := Or.inl rfl
    http := h.http
    user := h.user
    host := h.host
    escapes := ⟨first, hfirst⟩ }

theorem BaseURL.hash (h : BaseURL raw scheme authority path []) (hpath : path ≠ []) :
    BaseURL (raw ++ [0x23]) scheme authority (path ++ [0x23]) [] := by
  obtain ⟨text, htext⟩ := h.escapes
  have hhash : Unescapes .path [0x23] [0x23] :=
    Unescapes.literal (by decide) (by decide) Unescapes.nil
  exact {
    split := by rw [h.split]; simp
    printable := fun b hb => by
      obtain hb | hb := List.mem_append.1 hb
      · exact h.printable b hb
      · obtain rfl := List.mem_singleton.1 hb
        rfl
    letter := h.letter
    schemeBytes := h.schemeBytes
    authorityBytes := h.authorityBytes
    start := by
      obtain hnil | ⟨rest, hrest⟩ := h.start
      · exact absurd hnil hpath
      · exact Or.inr ⟨rest ++ [0x23], by rw [hrest]; rfl⟩
    pathBytes := by simpa using h.pathBytes
    marks := Or.inl rfl
    http := h.http
    user := h.user
    host := h.host
    escapes := ⟨text ++ [0x23], htext.append hhash⟩ }

/-- The two checks agree but for the two places of a `#`. -/
theorem validateBackendURL_eq_iff :
    validateBackendURL value = requestAccepts value ↔
      ¬ HashInPath (utf8 value) ∧ ¬ HashAtEnd (utf8 value) := by
  constructor
  · intro hagree
    refine ⟨fun hin => ?_, fun hend => ?_⟩
    · have hrejected := requestAccepts_of_hashInPath hin
      obtain ⟨scheme, authority, before, after, mark, hbase, -⟩ := hin
      rw [← hagree, validateBackendURL_iff.2 ⟨_, _, _, _, hbase⟩] at hrejected
      cases hrejected
    · have hrejected := validateBackendURL_of_hashAtEnd hend
      obtain ⟨raw, scheme, authority, path, mark, hrequest, -⟩ := hend
      rw [hagree, requestAccepts_iff.2 ⟨_, _, _, _, _, _, hrequest⟩] at hrejected
      cases hrejected
  · rintro ⟨hin, hend⟩
    rw [Bool.eq_iff_iff, validateBackendURL_iff, requestAccepts_iff]
    constructor
    · rintro ⟨scheme, authority, path, mark, hbase⟩
      by_cases hmem : 0x23 ∈ path
      · obtain ⟨before, after, rfl, hbefore⟩ := List.eq_append_cons_of_mem hmem
        obtain ⟨rfl, rfl⟩ : after = [] ∧ mark = [] := by
          by_contra hne
          exact hin ⟨scheme, authority, before, after, mark, hbase, by simpa using hne⟩
        have hwhole : utf8 value =
            (scheme ++ 0x3a :: 0x2f :: 0x2f :: (authority ++ before)) ++ [0x23] := by
          rw [hbase.split]
          simp
        have hunhashed := hbase
        rw [hwhole] at hunhashed
        exact ⟨_, [0x23], scheme, authority, before, [], hunhashed.unhash, hwhole, Or.inr rfl,
          hbefore⟩
      · exact ⟨_, [], scheme, authority, path, mark, hbase, (List.append_nil _).symm, Or.inl rfl,
          hmem⟩
    · rintro ⟨raw, hash, scheme, authority, path, mark, hrequest⟩
      obtain rfl | rfl := hrequest.ending
      · refine ⟨scheme, authority, path, mark, ?_⟩
        rw [hrequest.whole, List.append_nil]
        exact hrequest.toBaseURL
      · obtain ⟨hpath, hmark⟩ : path ≠ [] ∧ mark ≠ [0x3f] := by
          refine ⟨fun hpath => ?_, fun hmark => ?_⟩
          · exact hend ⟨raw, scheme, authority, path, mark, hrequest, Or.inl hpath⟩
          · exact hend ⟨raw, scheme, authority, path, mark, hrequest, Or.inr hmark⟩
        obtain rfl := hrequest.marks.resolve_right hmark
        rw [hrequest.whole]
        exact ⟨scheme, authority, _, [], hrequest.toBaseURL.hash hpath⟩

end Agreement

section Paths

variable {p : List UInt8}

theorem appendedPath_eq (p : List UInt8) :
    appendedPath p = configuredPath p ++ utf8 "/v1/chat/completions" := by
  have hparts : utf8 "/v1/chat/completions" = utf8 "/v1" ++ utf8 "/chat/completions" := by
    decide
  rw [appendedPath, configuredPath]
  split
  · rename_i hversion
    obtain ⟨base, hbase⟩ := List.isSuffixOf_iff_suffix.1 hversion
    have hlength : (utf8 "/v1").length = 3 := by decide
    rw [← hbase, List.length_append, hlength, Nat.add_sub_cancel, List.take_left', hparts,
      List.append_assoc]
    rfl
  · rfl

theorem configuredPath_start (h : p = [] ∨ ∃ rest, p = 0x2f :: rest) :
    configuredPath p = [] ∨ ∃ rest, configuredPath p = 0x2f :: rest := by
  have hleft : configuredPath p <+: p := by
    rw [configuredPath]
    split
    · exact (List.take_prefix _ _).trans (List.rdropWhile_prefix _ _)
    · exact List.rdropWhile_prefix _ _
  cases hpath : configuredPath p with
  | nil => exact Or.inl rfl
  | cons b rest =>
      rw [hpath] at hleft
      obtain ⟨tail, htail⟩ := hleft
      obtain rfl | ⟨rest', rfl⟩ := h
      · cases htail
      · exact Or.inr ⟨rest, by rw [(List.cons.inj htail).1]⟩

theorem appendedPath_start (h : p = [] ∨ ∃ rest, p = 0x2f :: rest) :
    ∃ rest, appendedPath p = 0x2f :: rest := by
  have hslash : ∃ rest, utf8 "/v1/chat/completions" = 0x2f :: rest := by
    exact ⟨(utf8 "/v1/chat/completions").tail, by decide⟩
  obtain ⟨tail, htail⟩ := hslash
  rw [appendedPath_eq, htail]
  obtain hnil | ⟨rest, hrest⟩ := configuredPath_start h
  · exact ⟨tail, by rw [hnil]; rfl⟩
  · exact ⟨rest ++ 0x2f :: tail, by rw [hrest]; rfl⟩

theorem appendedPath_ne (p : List UInt8) : appendedPath p ≠ p := by
  have hletter : ∃ front, appendedPath p = p.rdropWhile (· == 0x2f) ++ front ++ [0x73] := by
    rw [appendedPath]
    split
    · refine ⟨(utf8 "/chat/completions").dropLast, ?_⟩
      rw [List.append_assoc]
      exact congrArg _ (by decide)
    · refine ⟨(utf8 "/v1/chat/completions").dropLast, ?_⟩
      rw [List.append_assoc]
      exact congrArg _ (by decide)
  intro heq
  obtain ⟨front, hfront⟩ := hletter
  rw [heq] at hfront
  have hself : p.rdropWhile (· == 0x2f) = p := by
    rw [hfront]
    exact List.rdropWhile_concat_neg _ _ _ (by decide)
  have hlength := congrArg List.length hfront
  rw [hself, List.length_append, List.length_append, List.length_singleton] at hlength
  omega

end Paths

/-- A base URL, up to an empty fragment, with a byte outside ASCII in the zone of its host. -/
def ForeignBase (value : List UInt8) : Prop :=
  ∃ raw hash scheme authority path mark,
    RequestURL value raw hash scheme authority path mark ∧ ForeignZone authority

/-- The URL of the chat completions at a base URL is asked for. -/
def ForwardsTo (value : String) : Prop :=
  ∀ (original : Header) (payload : List UInt8),
    ∃ request configured target, backendRequest original payload value = some request ∧
      Url.parse (utf8 value) = some configured ∧ Url.parse request.url = some target ∧
      target.scheme = configured.scheme ∧ target.host = configured.host ∧
      target.path = configuredPath configured.path ++ utf8 "/v1/chat/completions"

section Forwarding

variable {value : String} {raw hash scheme authority path mark host text : List UInt8}

theorem text_start (htext : Unescapes .path path text)
    (h : path = [] ∨ ∃ rest, path = 0x2f :: rest) :
    text = [] ∨ ∃ rest, text = 0x2f :: rest := by
  obtain rfl | ⟨rest, rfl⟩ := h
  · exact Or.inl (htext.eq_nil_iff.2 rfl)
  · cases htext with
    | @literal c s t hc hallowed tail => exact Or.inr ⟨t, rfl⟩

theorem http_scheme (h : scheme.map lower = utf8 "http" ∨ scheme.map lower = utf8 "https") :
    (∃ first rest, scheme.map lower = first :: rest ∧ isLetter first = true) ∧
      (∀ b ∈ scheme.map lower, schemeByte b = true) ∧
      (scheme.map lower).map lower = scheme.map lower := by
  have hhttp : utf8 "http" = [0x68, 0x74, 0x74, 0x70] := by decide
  have hhttps : utf8 "https" = [0x68, 0x74, 0x74, 0x70, 0x73] := by decide
  obtain h | h := h
  · rw [h, hhttp]
    exact ⟨⟨0x68, _, rfl, rfl⟩, List.all_eq_true.1 rfl, rfl⟩
  · rw [h, hhttps]
    exact ⟨⟨0x68, _, rfl, rfl⟩, List.all_eq_true.1 rfl, rfl⟩

/-- The path that is appended to is written anew, whatever escapes the base URL had. -/
theorem escapedPath_appended (hstart : path = [] ∨ ∃ rest, path = 0x2f :: rest)
    (htext : Unescapes .path path text) :
    URL.escapedPath { readURL scheme mark host path text with path := appendedPath text } =
      escape .path (appendedPath text) := by
  obtain ⟨rest, hrest⟩ := appendedPath_start (text_start htext hstart)
  have hstar : (appendedPath text == utf8 "*") = false := by
    have hbytes : utf8 "*" = [0x2a] := by decide
    rw [hrest, hbytes, beq_eq_false_iff_ne]
    intro heq
    exact absurd (List.cons.inj heq).1 (by decide)
  have hread : (unescape .path path == some (appendedPath text)) = false := by
    rw [unescape_of_unescapes htext, beq_eq_false_iff_ne]
    intro heq
    exact appendedPath_ne text (Option.some.inj heq).symm
  by_cases hplain : (escape .path text == path) = true
  · simp only [URL.escapedPath, readURL, hplain, if_true, List.isEmpty_nil, Bool.not_true,
      Bool.false_and, Bool.false_eq_true, if_false, hstar]
  · simp only [URL.escapedPath, readURL, if_neg hplain, hread, Bool.and_false,
      Bool.false_eq_true, if_false, hstar]

/-- The target of a request is read from its written host and its path. -/
theorem parse_target (mark host : List UInt8)
    (hhttp : scheme.map lower = utf8 "http" ∨ scheme.map lower = utf8 "https")
    (hstart : path = [] ∨ ∃ rest, path = 0x2f :: rest) (htext : Unescapes .path path text) :
    Url.parse (URL.hierarchical { readURL scheme mark host path text with
      path := appendedPath text }) =
      (parseHost (escape .host host)).map fun host =>
        { URL.empty with
          scheme := scheme.map lower, forceQuery := !mark.isEmpty, host
          path := appendedPath text } := by
  obtain ⟨hletter, hbytes, hlower⟩ := http_scheme hhttp
  have hpath : ∃ rest, appendedPath text = 0x2f :: rest :=
    appendedPath_start (text_start htext hstart)
  have hat : 0x40 ∉ escape .host host :=
    not_mem_escape (by decide) (by decide) (by decide) host
  rw [parse_written hletter hbytes hpath (escapedPath_appended hstart htext) rfl]
  cases hhost : parseHost (escape .host host) with
  | none =>
      have hnone : parseAuthority (escape .host host) = none := by
        rw [parseAuthority, cutAtLast_of_not_mem hat, hhost]
        rfl
      simp only [readURL, hnone, Option.map_none]
  | some host' =>
      simp only [readURL, parseAuthority_eq_host.2 ⟨hat, hhost⟩, Option.map_some, hlower]
      rfl

theorem backendRequest_eq (h : RequestURL (utf8 value) raw hash scheme authority path mark)
    (hhost : parseHost authority = some host) (hne : host ≠ []) (htext : Unescapes .path path text)
    (original : Header) (payload : List UInt8) :
    backendRequest original payload value =
      (Url.parse (URL.hierarchical { readURL scheme mark host path text with
        path := appendedPath text })).map fun _ =>
          { url := URL.hierarchical { readURL scheme mark host path text with
              path := appendedPath text }
            header := (["Accept", "Accept-Encoding", "User-Agent"].flatMap fun key =>
              (Header.values original key).map fun value => (key, value)) ++
                [("Content-Type", utf8 "application/json")]
            payload := payload } := by
  rw [backendRequest, h.parse hhost htext]
  simp only [Option.bind_eq_bind, Option.bind_some, credentialFree_readURL h.http hne, if_true]
  exact Option.map_eq_bind.symm

/-- A base URL that is accepted for a request can be asked for unless its zone prevents it. -/
theorem forwardsTo_iff (h : RequestURL (utf8 value) raw hash scheme authority path mark) :
    ForwardsTo value ↔ ¬ ForeignZone authority := by
  obtain ⟨host, hhost, hne⟩ := h.host
  obtain ⟨text, htext⟩ := h.escapes
  have htarget := parse_target mark host h.http h.start htext
  constructor
  · intro hforwards hzone
    obtain ⟨request, configured, target, hrequest, -⟩ := hforwards [] []
    rw [parseHost_escape_foreign hhost hzone, Option.map_none] at htarget
    rw [backendRequest_eq h hhost hne htext, htarget] at hrequest
    cases hrequest
  · intro hzone original payload
    rw [parseHost_escape hhost hzone, Option.map_some] at htarget
    have hrequest := backendRequest_eq h hhost hne htext original payload
    rw [htarget, Option.map_some] at hrequest
    refine ⟨_, _, _, hrequest, h.parse hhost htext, htarget, rfl, rfl, ?_⟩
    simp only [readURL, appendedPath_eq]

end Forwarding

/-- What the two checks of a backend URL are for: they agree, and a URL that is configured can be
forwarded to. -/
structure ChecksAgree (value : String) : Prop where
  agree : validateBackendURL value = requestAccepts value
  forwards : validateBackendURL value = true → ForwardsTo value

/-- The checks agree, and accepted URLs are forwarded to, exactly at the URLs that are of none of
three kinds. -/
theorem checksAgree_iff (value : String) :
    ChecksAgree value ↔
      ¬ HashInPath (utf8 value) ∧ ¬ HashAtEnd (utf8 value) ∧ ¬ ForeignBase (utf8 value) := by
  constructor
  · rintro ⟨hagree, hforwards⟩
    obtain ⟨hin, hend⟩ := validateBackendURL_eq_iff.1 hagree
    refine ⟨hin, hend, ?_⟩
    rintro ⟨raw, hash, scheme, authority, path, mark, hrequest, hzone⟩
    have haccepts : requestAccepts value = true :=
      requestAccepts_iff.2 ⟨raw, hash, scheme, authority, path, mark, hrequest⟩
    exact (forwardsTo_iff hrequest).1 (hforwards (hagree.trans haccepts)) hzone
  · rintro ⟨hin, hend, hforeign⟩
    have hagree := validateBackendURL_eq_iff.2 ⟨hin, hend⟩
    refine ⟨hagree, fun hvalid => ?_⟩
    obtain ⟨raw, hash, scheme, authority, path, mark, hrequest⟩ :=
      requestAccepts_iff.1 (hagree.symm.trans hvalid)
    exact (forwardsTo_iff hrequest).2 fun hzone =>
      hforeign ⟨raw, hash, scheme, authority, path, mark, hrequest, hzone⟩

/-- The configuration accepts a fragment that no request can be sent with. -/
theorem fragment_not_checksAgree :
    validateBackendURL "http://backend/#a" = true ∧ requestAccepts "http://backend/#a" = false ∧
      ¬ ChecksAgree "http://backend/#a" := by
  have hvalid : validateBackendURL "http://backend/#a" = true := by decide +kernel
  have haccepts : requestAccepts "http://backend/#a" = false := by decide +kernel
  refine ⟨hvalid, haccepts, fun h => ?_⟩
  have hagree := h.agree
  rw [hvalid, haccepts] at hagree
  cases hagree

end NodeScope.Proxy
