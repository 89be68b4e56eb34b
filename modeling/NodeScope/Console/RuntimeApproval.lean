import NodeScope.Console.Router
import NodeScope.Lib.Whatwg

/-!
# Which runtime endpoints are approved

`validateRuntimeApprovalEndpoint` compares texts of a URL object with the three names of the loopback
host. What it should approve is said here of the record that the text parses to; the parser itself
is a parameter.
-/

namespace NodeScope.Console

open Lib Lib.Check Lib.Text Lib.Whatwg

section Texts

variable {newURL : String → Option EndpointURL} {rawEndpoint path root : String}
  {transport : Transport}

theorem dropFinalSlash_eq_iff (hroot : root.toList.getLast? ≠ some '/') :
    dropFinalSlash path = root ↔ path = root ∨ path = root ++ "/" := by
  have hslash : "/".toList = ['/'] := by decide
  rw [dropFinalSlash]
  split
  · next hlast =>
      obtain ⟨front, hfront⟩ := List.getLast?_eq_some_iff.mp hlast
      rw [hfront, List.dropLast_concat]
      constructor
      · rintro rfl
        right
        rw [← String.toList_inj, String.toList_append, String.toList_ofList, hslash, hfront]
      · rintro (rfl | rfl)
        · exact absurd hlast hroot
        · rw [String.toList_append, hslash] at hfront
          rw [← (List.append_inj' hfront rfl).1, String.ofList_toList]
  · next hlast =>
      constructor
      · exact Or.inl
      · rintro (rfl | rfl)
        · rfl
        · exact absurd (by rw [String.toList_append, hslash, List.getLast?_concat]) hlast

/-- The paths whose base is empty or `/v1`. -/
theorem basePath_iff (path : String) :
    (!(["", "/v1"].contains (dropFinalSlash path))) = false ↔
      path = "" ∨ path ∈ ["/", "/v1", "/v1/"] := by
  have hempty := @dropFinalSlash_eq_iff path "" (by decide)
  have hversion := @dropFinalSlash_eq_iff path "/v1" (by decide)
  rw [Bool.not_eq_false', List.contains_iff_mem, List.mem_cons, List.mem_singleton, hempty, hversion]
  simp only [List.mem_cons, List.not_mem_nil, or_false]
  constructor
  · rintro ((h | h) | (h | h))
    · exact Or.inl h
    · exact Or.inr (Or.inl h)
    · exact Or.inr (Or.inr (Or.inl h))
    · exact Or.inr (Or.inr (Or.inr h))
  · rintro (h | h | h | h)
    · exact Or.inl (Or.inl h)
    · exact Or.inl (Or.inr h)
    · exact Or.inr (Or.inl h)
    · exact Or.inr (Or.inr h)

/-- The hosts that the texts of the source name. -/
def NamesLoopback (hostname : String) : Prop :=
  hostname.map Char.toLower ∈ ["localhost", "127.0.0.1", "::1"]

/-- What a URL object must show to be approved. -/
theorem validateRuntimeApprovalEndpoint_eq_ok :
    validateRuntimeApprovalEndpoint newURL rawEndpoint = .ok transport ↔
      ∃ endpoint, newURL rawEndpoint = some endpoint ∧ endpoint.username = "" ∧
        endpoint.password = "" ∧ endpoint.search = "" ∧ endpoint.hash = "" ∧
        endpoint.hostname ≠ "" ∧
        (endpoint.pathname = "" ∨ endpoint.pathname ∈ ["/", "/v1", "/v1/"]) ∧
        (endpoint.protocol = "http:" ∧ NamesLoopback endpoint.hostname ∧
            transport = .loopbackHttp ∨
          endpoint.protocol = "https:" ∧ transport = .https) := by
  have hprotocol : "https:" ≠ "http:" := by decide
  rw [validateRuntimeApprovalEndpoint, orFail_bind_eq_ok]
  constructor
  · rintro ⟨endpoint, hparsed, h⟩
    rw [unit_bind_eq_ok, failIf_eq_ok] at h
    obtain ⟨hparts, hhost⟩ := h
    rw [Bool.or_eq_false_iff, basePath_iff] at hparts
    obtain ⟨hparts, hpath⟩ := hparts
    simp only [Bool.or_eq_false_iff, bne_eq_false_iff_eq, beq_eq_false_iff_ne, Bool.not_eq_false',
      List.contains_iff_mem, List.mem_cons, List.not_mem_nil, or_false] at hparts
    obtain ⟨⟨⟨⟨⟨huser, hpassword⟩, hsearch⟩, hhash⟩, hhostname⟩, hscheme⟩ := hparts
    refine ⟨endpoint, hparsed, huser, hpassword, hsearch, hhash, hhostname, hpath, ?_⟩
    split at hhost
    · next hhttp =>
        dsimp only at hhost
        rw [unit_bind_eq_ok, failIf_eq_ok] at hhost
        obtain ⟨hloopback, htransport⟩ := hhost
        refine Or.inl ⟨hhttp, ?_, (Except.ok.inj htransport).symm⟩
        simp only [Bool.and_eq_false_iff, bne_eq_false_iff_eq] at hloopback
        simp only [NamesLoopback, List.mem_cons, List.not_mem_nil, or_false]
        tauto
    · next hhttps =>
        exact Or.inr ⟨hscheme.resolve_left hhttps, (Except.ok.inj hhost).symm⟩
  · rintro ⟨endpoint, hparsed, huser, hpassword, hsearch, hhash, hhostname, hpath, hend⟩
    refine ⟨endpoint, hparsed, ?_⟩
    have hscheme : (!(["http:", "https:"].contains endpoint.protocol)) = false := by
      obtain ⟨hhttp, -⟩ | ⟨hhttps, -⟩ := hend
      · rw [hhttp]
        decide
      · rw [hhttps]
        decide
    rw [unit_bind_eq_ok, failIf_eq_ok]
    constructor
    · rw [Bool.or_eq_false_iff, basePath_iff]
      refine ⟨?_, hpath⟩
      rw [hscheme]
      simp [huser, hpassword, hsearch, hhash, hhostname]
    · obtain ⟨hhttp, hloopback, rfl⟩ | ⟨hhttps, rfl⟩ := hend
      · rw [if_pos hhttp]
        dsimp only
        rw [unit_bind_eq_ok, failIf_eq_ok]
        refine ⟨?_, rfl⟩
        simp only [NamesLoopback, List.mem_cons, List.not_mem_nil, or_false] at hloopback
        obtain h | h | h := hloopback <;> simp [h]
      · rw [if_neg (by rw [hhttps]; exact hprotocol)]
        rfl

end Texts

section Records

variable {u : URLRecord} {transport : Transport} {h : Whatwg.Host}

/-- The texts that a URL object shows. -/
def shown (u : URLRecord) : EndpointURL where
  protocol := u.protocol
  username := u.username
  password := u.password
  hostname := u.hostname
  pathname := u.pathname
  search := u.search
  hash := u.hash

/-- `localhost`, `127.0.0.1` and `::1`. -/
def IsLoopback : Whatwg.Host → Prop
  | .domain name => name.text = "localhost"
  | .ipv4 a b c d => [a, b, c, d] = [127, 0, 0, 1]
  | .ipv6 pieces => pieces = loopback6
  | _ => False

/-- An IPv4 address is written like the loopback address if it is that address. -/
theorem lower_ipv4_eq_iff {a b c d : UInt8} :
    (Whatwg.Host.ipv4 a b c d).serialize.map Char.toLower = "127.0.0.1" ↔
      [a, b, c, d] = [127, 0, 0, 1] := by
  have hsplit : "127.0.0.1".toList.splitOn '.' =
      [(Nat.repr 127).toList, (Nat.repr 0).toList, (Nat.repr 0).toList, (Nat.repr 1).toList] := by
    decide +kernel
  constructor
  · intro h
    have hlabels := splitOn_lower_ipv4 a b c d
    rw [h, hsplit] at hlabels
    simp only [List.map_cons, List.map_nil, List.cons.injEq, and_true] at hlabels
    obtain ⟨ha, hb, hc, hd⟩ := hlabels
    rw [(repr_eq_iff (by decide)).mp ha.symm, (repr_eq_iff (by decide)).mp hb.symm,
      (repr_eq_iff (by decide)).mp hc.symm, (repr_eq_iff (by decide)).mp hd.symm]
    decide
  · intro haddress
    simp only [List.cons.injEq, and_true] at haddress
    obtain ⟨rfl, rfl, rfl, rfl⟩ := haddress
    decide +kernel

/-- The names of the source are those of the loopback host, but for its IPv6 address: this one has
brackets around it. -/
theorem namesLoopback_iff (hspecial : h.special = true) :
    NamesLoopback h.serialize ↔ IsLoopback h ∧ h ≠ .ipv6 loopback6 := by
  simp only [NamesLoopback, List.mem_cons, List.not_mem_nil, or_false]
  cases h with
  | domain name =>
      rw [Host.serialize, lower_domain, IsLoopback]
      constructor
      · rintro (hlocal | hdecimal | hcolons)
        · exact ⟨hlocal, by simp⟩
        · have hnamed := name.named
          rw [hdecimal] at hnamed
          exact absurd hnamed (by decide +kernel)
        · have hcolon := name.colon
          rw [hcolons] at hcolon
          exact absurd hcolon (by decide)
      · exact fun hlocal => Or.inl hlocal.1
  | ipv4 a b c d =>
      have hother {name : String} (hfour : (name.toList.splitOn '.').length ≠ 4) :
          (Whatwg.Host.ipv4 a b c d).serialize.map Char.toLower ≠ name := by
        rintro rfl
        exact hfour (by rw [splitOn_lower_ipv4]; rfl)
      rw [IsLoopback, lower_ipv4_eq_iff]
      constructor
      · rintro (hlocal | haddress | hcolons)
        · exact absurd hlocal (hother (by decide))
        · exact ⟨haddress, by simp⟩
        · exact absurd hcolons (hother (by decide))
      · exact fun haddress => Or.inr (Or.inl haddress.1)
  | ipv6 pieces =>
      have hhead := head_lower_ipv6 pieces
      rw [IsLoopback]
      constructor
      · rintro (hname | hname | hname) <;> rw [hname] at hhead <;> cases hhead
      · rintro ⟨rfl, hne⟩
        exact absurd rfl hne
  | nonspecial text => cases hspecial
  | empty => cases hspecial

/-- A URL that may be approved, where `Absent` says what it is to have no query or fragment. -/
structure Safe (Absent : Option String → Prop) (u : URLRecord) (transport : Transport) : Prop where
  credentials : u.username = "" ∧ u.password = ""
  query : Absent u.query
  fragment : Absent u.fragment
  path : u.pathname ∈ ["/", "/v1", "/v1/"]
  transport : u.scheme = "https" ∧ transport = .https ∨
    u.scheme = "http" ∧ (∃ h, u.host = some h ∧ IsLoopback h) ∧ transport = .loopbackHttp

/-- A part that is missing or has no text. -/
def Missing (part : Option String) : Prop := part = none ∨ part = some ""

theorem pathname_ne_empty (hweb : isWeb u.scheme = true) : u.pathname ≠ "" := by
  obtain ⟨first, rest, hpath⟩ := u.webPath hweb
  intro hempty
  have hlist := congrArg String.toList hempty
  simp only [URLRecord.pathname, hpath, String.toList_ofList, List.flatMap_cons] at hlist
  cases hlist

theorem isWeb_of_scheme {scheme : String} (h : scheme = "https" ∨ scheme = "http") :
    isWeb scheme = true := by
  obtain rfl | rfl := h
  · decide
  · decide

/-- A URL with TLS does not name the loopback host without TLS. -/
theorem not_http_of_https {u : URLRecord} {P : Prop} (h : u.scheme = "https") :
    ¬ (u.scheme = "http" ∧ P) := by
  rintro ⟨hplain, -⟩
  rw [h] at hplain
  exact absurd hplain (by decide)

/-- What is approved: a safe URL, unless it names the loopback host by its IPv6 address. -/
theorem approved_iff {newURL : String → Option URLRecord} {rawEndpoint : String} :
    validateRuntimeApprovalEndpoint (fun raw => (newURL raw).map shown) rawEndpoint =
        .ok transport ↔
      ∃ u, newURL rawEndpoint = some u ∧ Safe Missing u transport ∧
        ¬ (u.scheme = "http" ∧ u.host = some (.ipv6 loopback6)) := by
  have hhttp (u : URLRecord) : u.protocol = "http:" ↔ u.scheme = "http" := u.protocol_eq_iff "http"
  have hhttps (u : URLRecord) : u.protocol = "https:" ↔ u.scheme = "https" :=
    u.protocol_eq_iff "https"
  have hsearch (u : URLRecord) : u.search = "" ↔ Missing u.query := marked_eq_empty_iff (by decide)
  have hhash (u : URLRecord) : u.hash = "" ↔ Missing u.fragment := marked_eq_empty_iff (by decide)
  rw [validateRuntimeApprovalEndpoint_eq_ok]
  constructor
  · rintro ⟨endpoint, hparsed, huser, hpassword, hquery, hfragment, -, hpath, hend⟩
    obtain ⟨u, hu, rfl⟩ := Option.map_eq_some_iff.mp hparsed
    simp only [shown, hhttp, hhttps, hsearch, hhash] at huser hpassword hquery hfragment hpath hend
    have hweb : isWeb u.scheme = true := isWeb_of_scheme (hend.symm.imp And.left And.left)
    have hpath := hpath.resolve_left (pathname_ne_empty hweb)
    obtain ⟨hscheme, hloopback, rfl⟩ | ⟨hscheme, rfl⟩ := hend
    · obtain ⟨h, hhost, hspecial⟩ := u.webHost hweb
      rw [URLRecord.hostname, hhost, Option.map_some, Option.getD_some,
        namesLoopback_iff hspecial] at hloopback
      refine ⟨u, hu, ⟨⟨huser, hpassword⟩, hquery, hfragment, hpath,
        Or.inr ⟨hscheme, ⟨h, hhost, hloopback.1⟩, rfl⟩⟩, ?_⟩
      rintro ⟨-, hsix⟩
      exact hloopback.2 (Option.some.inj (hhost.symm.trans hsix))
    · exact ⟨u, hu, ⟨⟨huser, hpassword⟩, hquery, hfragment, hpath, Or.inl ⟨hscheme, rfl⟩⟩,
        not_http_of_https hscheme⟩
  · rintro ⟨u, hu, ⟨⟨huser, hpassword⟩, hquery, hfragment, hpath, hend⟩, hsix⟩
    have hweb : isWeb u.scheme = true := isWeb_of_scheme (hend.imp And.left And.left)
    obtain ⟨h, hhost, hspecial⟩ := u.webHost hweb
    have hhostname : u.hostname = h.serialize := by
      rw [URLRecord.hostname, hhost, Option.map_some, Option.getD_some]
    refine ⟨shown u, by rw [hu, Option.map_some], huser, hpassword, (hsearch u).mpr hquery,
      (hhash u).mpr hfragment, ?_, Or.inr hpath, ?_⟩
    · rw [shown, hhostname]
      exact serialize_ne_empty hspecial
    · simp only [shown, hhttp, hhttps]
      obtain ⟨hscheme, htransport⟩ | ⟨hscheme, ⟨h', hhost', hloopback⟩, htransport⟩ := hend
      · exact Or.inr ⟨hscheme, htransport⟩
      · obtain rfl : h' = h := Option.some.inj (hhost'.symm.trans hhost)
        refine Or.inl ⟨hscheme, ?_, htransport⟩
        rw [hhostname, namesLoopback_iff hspecial]
        refine ⟨hloopback, ?_⟩
        rintro rfl
        exact hsix ⟨hscheme, hhost⟩

/-- A URL without credentials and with an approved path, whose query and fragment have no text. -/
structure Plain (u : URLRecord) : Prop where
  credentials : u.username = "" ∧ u.password = ""
  query : Missing u.query
  fragment : Missing u.fragment
  path : u.pathname ∈ ["/", "/v1", "/v1/"]

/-- The IPv6 address of the loopback host without TLS. -/
def BracketedLoopback (u : URLRecord) : Prop :=
  u.scheme = "http" ∧ u.host = some (.ipv6 loopback6)

/-- A URL with TLS, or on the loopback host under one of its other names. -/
def Named (u : URLRecord) : Prop :=
  u.scheme = "https" ∨
    u.scheme = "http" ∧ ∃ h, u.host = some h ∧ IsLoopback h ∧ h ≠ .ipv6 loopback6

/-- A mark of a query or a fragment with nothing after it. -/
def EmptyMark (u : URLRecord) : Prop := u.query = some "" ∨ u.fragment = some ""

theorem Safe.plain (h : Safe Missing u transport) : Plain u :=
  ⟨h.credentials, h.query, h.fragment, h.path⟩

theorem Plain.safe_bracketed (h : Plain u) (hsix : BracketedLoopback u) :
    Safe Missing u .loopbackHttp :=
  ⟨h.credentials, h.query, h.fragment, h.path,
    Or.inr ⟨hsix.1, ⟨_, hsix.2, rfl⟩, rfl⟩⟩

theorem Safe.named (h : Safe Missing u transport) (hsix : ¬ BracketedLoopback u) : Named u := by
  obtain ⟨hscheme, -⟩ | ⟨hscheme, ⟨host, hhost, hloopback⟩, -⟩ := h.transport
  · exact Or.inl hscheme
  · refine Or.inr ⟨hscheme, host, hhost, hloopback, ?_⟩
    rintro rfl
    exact hsix ⟨hscheme, hhost⟩

theorem Plain.safe_named (h : Plain u) (hnamed : Named u) :
    ∃ transport, Safe Missing u transport ∧ ¬ BracketedLoopback u := by
  obtain hscheme | ⟨hscheme, host, hhost, hloopback, hne⟩ := hnamed
  · exact ⟨.https, ⟨h.credentials, h.query, h.fragment, h.path, Or.inl ⟨hscheme, rfl⟩⟩,
      not_http_of_https hscheme⟩
  · refine ⟨.loopbackHttp, ⟨h.credentials, h.query, h.fragment, h.path,
      Or.inr ⟨hscheme, ⟨host, hhost, hloopback⟩, rfl⟩⟩, ?_⟩
    rintro ⟨-, hsix⟩
    exact hne (Option.some.inj (hhost.symm.trans hsix))

theorem safe_none_iff :
    Safe (· = none) u transport ↔ Safe Missing u transport ∧ ¬ EmptyMark u := by
  constructor
  · intro h
    refine ⟨⟨h.credentials, Or.inl h.query, Or.inl h.fragment, h.path, h.transport⟩, ?_⟩
    rintro (hquery | hfragment)
    · rw [h.query] at hquery
      cases hquery
    · rw [h.fragment] at hfragment
      cases hfragment
  · rintro ⟨h, hmark⟩
    rw [EmptyMark, not_or] at hmark
    exact ⟨h.credentials, h.query.resolve_right hmark.1, h.fragment.resolve_right hmark.2, h.path,
      h.transport⟩

/-- What is approved is what is safe, where a query or fragment without text is none, unless the URL
is plain and names the loopback host by its IPv6 address without TLS. Where a mark alone is a query
or fragment, a plain URL with such a mark must not be named otherwise. -/
theorem approval_exact_iff (newURL : String → Option URLRecord) (rawEndpoint : String) :
    ((∀ transport, validateRuntimeApprovalEndpoint (fun raw => (newURL raw).map shown) rawEndpoint =
          .ok transport ↔ ∃ u, newURL rawEndpoint = some u ∧ Safe Missing u transport) ↔
      ∀ u, newURL rawEndpoint = some u → ¬ (Plain u ∧ BracketedLoopback u)) ∧
    ((∀ transport, validateRuntimeApprovalEndpoint (fun raw => (newURL raw).map shown) rawEndpoint =
          .ok transport ↔ ∃ u, newURL rawEndpoint = some u ∧ Safe (· = none) u transport) ↔
      ∀ u, newURL rawEndpoint = some u →
        ¬ (Plain u ∧ ¬ EmptyMark u ∧ BracketedLoopback u) ∧
        ¬ (Plain u ∧ EmptyMark u ∧ Named u)) := by
  simp only [approved_iff]
  cases newURL rawEndpoint with
  | none => simp
  | some u =>
      simp only [Option.some.injEq, exists_eq_left', forall_eq', safe_none_iff]
      constructor
      · constructor
        · rintro hexact ⟨hplain, hsix⟩
          exact ((hexact _).mpr (hplain.safe_bracketed hsix)).2 hsix
        · intro hcondition transport
          exact ⟨fun h => h.1, fun h => ⟨h, fun hsix => hcondition ⟨h.plain, hsix⟩⟩⟩
      · constructor
        · intro hexact
          constructor
          · rintro ⟨hplain, hmark, hsix⟩
            exact ((hexact _).mpr ⟨hplain.safe_bracketed hsix, hmark⟩).2 hsix
          · rintro ⟨hplain, hmark, hnamed⟩
            obtain ⟨transport, hsafe⟩ := hplain.safe_named hnamed
            exact ((hexact transport).mp hsafe).2 hmark
        · rintro ⟨hbracketed, hmarked⟩ transport
          constructor
          · rintro ⟨h, hsix⟩
            exact ⟨h, fun hmark => hmarked ⟨h.plain, hmark, h.named hsix⟩⟩
          · rintro ⟨h, hmark⟩
            exact ⟨h, fun hsix => hbracketed ⟨h.plain, hmark, hsix⟩⟩

/-- The record of `http://[::1]:8000/v1`. -/
def loopbackEndpoint : URLRecord where
  scheme := "http"
  username := ""
  password := ""
  host := some (.ipv6 loopback6)
  path := .segments ["v1"]
  query := none
  fragment := none
  webHost := fun _ => ⟨_, rfl, rfl⟩
  webPath := fun _ => ⟨_, _, rfl⟩

/-- The loopback host is turned away under its IPv6 address. -/
theorem loopbackEndpoint_rejected :
    Safe (· = none) loopbackEndpoint .loopbackHttp ∧
      validateRuntimeApprovalEndpoint
        (fun raw => (if raw = "http://[::1]:8000/v1" then some loopbackEndpoint else none).map shown)
        "http://[::1]:8000/v1" =
      .error ⟨.badRequest, "Runtime endpoint must use HTTPS unless it is loopback"⟩ := by
  refine ⟨⟨⟨rfl, rfl⟩, rfl, rfl, by decide +kernel, Or.inr ⟨rfl, ⟨_, rfl, rfl⟩, rfl⟩⟩, ?_⟩
  decide +kernel

end Records

end NodeScope.Console
