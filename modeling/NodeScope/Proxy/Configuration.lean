import NodeScope.Proxy.Metadata

/-!
# The configuration of the proxy as it is served

The routes and the clients of a file become two maps, keyed by model and by token. The check of
the file looks at one entry at a time, so an entry that shares its key with another one, or whose
token has space around it, is served only if the others agree with it.
-/

namespace NodeScope.Proxy

open Lib Lib.Check Lib.Text Lib.Reader

/-- The client that `ServeHTTP` takes a request to come from. -/
def authenticated (configuration : FileConfiguration) (request : Request) : Option String :=
  (clientToken request).bind (authenticateClient (clientTokens configuration.clients))

/-- Every listed route is resolved and can be asked for, and every listed client is known by its
token. -/
structure ServedAsWritten (configuration : FileConfiguration) : Prop where
  resolves : ∀ route ∈ configuration.routes,
    resolve (newMemoryRegistry configuration.routes) route.model = some route
  authenticates : ∀ client ∈ configuration.clients, ∀ request,
    Header.get request.header "Authorization" = utf8 ("Bearer " ++ client.token) →
      authenticated configuration request = some client.id
  reachable : ∀ route ∈ configuration.routes, ∃ payload metadata,
    readMetadata payload = some metadata ∧
      resolve (newMemoryRegistry configuration.routes) metadata.model = some route

/-- No two routes compete for a model, no two clients for a token once it is trimmed, and none has
a blank name. -/
structure Unambiguous (configuration : FileConfiguration) : Prop where
  models : ∀ a ∈ configuration.routes, ∀ b ∈ configuration.routes, a.model = b.model → a = b
  askable : ∀ route ∈ configuration.routes, trimSpace route.model ≠ ""
  named : ∀ client ∈ configuration.clients, trimSpace client.id ≠ ""
  trimmed : ∀ a ∈ configuration.clients, ∃ b ∈ configuration.clients,
    utf8 b.token = trimSpaceBytes (utf8 a.token)
  tokens : ∀ a ∈ configuration.clients, ∀ b ∈ configuration.clients,
    utf8 b.token = trimSpaceBytes (utf8 a.token) → b.id = a.id

section Routes

variable {configuration : FileConfiguration}

/-- What the check of the file says of its routes and clients. -/
theorem check_eq_ok (h : configuration.check = .ok ()) :
    (∀ route ∈ configuration.routes, route.enabled = true) ∧
      ∀ client ∈ configuration.clients, client.token ≠ "" := by
  simp only [FileConfiguration.check, unit_bind_eq_ok, forAll_eq_ok, failIf_eq_ok] at h
  obtain ⟨-, hroutes, -, hclients⟩ := h
  constructor
  · intro route hmem
    have hroute := hroutes route hmem
    simp only [checkRoute, unit_bind_eq_ok, failIf_eq_ok] at hroute
    have henabled := hroute.1
    simp only [Bool.or_eq_false_iff, Bool.not_eq_false'] at henabled
    exact henabled.2
  · intro client hmem hempty
    have hclient := hclients client hmem
    simp [hempty] at hclient

/-- A model is resolved to a route that lists it. -/
theorem resolve_eq_some {model : String} {route : BackendRoute}
    (h : resolve (newMemoryRegistry configuration.routes) model = some route) :
    route ∈ configuration.routes ∧ route.model = model := by
  obtain ⟨hroute, -⟩ := Option.filter_eq_some_iff.mp h
  obtain ⟨found, hmem, hmodel, rfl⟩ | hnone :=
    Table.foldl_update_eq_some BackendRoute.model id hroute
  · exact ⟨hmem, hmodel⟩
  · cases hnone

theorem resolve_of_mem (hcheck : configuration.check = .ok ()) {route : BackendRoute}
    (hmem : route ∈ configuration.routes) :
    ∃ found ∈ configuration.routes, found.model = route.model ∧
      resolve (newMemoryRegistry configuration.routes) route.model = some found := by
  obtain ⟨found, hfound, hmodel, hvalue⟩ :=
    Table.foldl_update_of_mem BackendRoute.model id (fun _ => none) hmem
  refine ⟨found, hfound, hmodel, ?_⟩
  exact Option.filter_eq_some_iff.mpr ⟨hvalue, (check_eq_ok hcheck).1 found hfound⟩

/-- Every route is resolved exactly when no two of them compete. -/
theorem resolves_iff (hcheck : configuration.check = .ok ()) :
    (∀ route ∈ configuration.routes,
        resolve (newMemoryRegistry configuration.routes) route.model = some route) ↔
      ∀ a ∈ configuration.routes, ∀ b ∈ configuration.routes, a.model = b.model → a = b := by
  constructor
  · intro hresolves a ha b hb hmodel
    have hfound := hresolves a ha
    rw [hmodel, hresolves b hb] at hfound
    exact (Option.some.inj hfound).symm
  · intro hmodels route hmem
    obtain ⟨found, hfound, hmodel, hresolve⟩ := resolve_of_mem hcheck hmem
    rwa [hmodels found hfound route hmem hmodel] at hresolve

/-- A model that is not blank can be asked for. -/
theorem readMetadata_singleMember {model : String} (h : trimSpace model ≠ "") :
    readMetadata (Json.singleMember "model" model) = some ⟨model, false⟩ := by
  rw [readMetadata, Json.parse_singleMember]
  have hname : Json.nameMatches "model" "model" = true := by decide
  simp [Metadata.decode, Metadata.setMember, hname, h]

theorem model_of_readMetadata {payload : List UInt8} {metadata : Metadata}
    (h : readMetadata payload = some metadata) : trimSpace metadata.model ≠ "" := by
  obtain ⟨-, hmodel⟩ := Option.filter_eq_some_iff.mp h
  simpa using hmodel

end Routes

section Clients

variable {configuration : FileConfiguration} {request : Request} {client : ClientCredential}

theorem clientToken_of_header
    (h : Header.get request.header "Authorization" = utf8 ("Bearer " ++ client.token)) :
    clientToken request =
      if (trimSpaceBytes (utf8 client.token)).isEmpty then none
      else some (trimSpaceBytes (utf8 client.token)) := by
  rw [clientToken, h, utf8_append]
  simp

/-- The client of a trimmed token, which is the last one listed with it. -/
theorem authenticated_eq_some {id : String}
    (hheader : Header.get request.header "Authorization" = utf8 ("Bearer " ++ client.token)) :
    authenticated configuration request = some id ↔
      trimSpaceBytes (utf8 client.token) ≠ [] ∧
        clientTokens configuration.clients (trimSpaceBytes (utf8 client.token)) = some id ∧
          trimSpace id ≠ "" := by
  rw [authenticated, clientToken_of_header hheader]
  by_cases hempty : trimSpaceBytes (utf8 client.token) = []
  · simp [hempty]
  · simp [hempty, authenticateClient, Option.filter_eq_some_iff]

/-- A request with the token of a client and nothing else. -/
def tokenRequest (client : ClientCredential) : Request where
  method := "POST"
  header := [("Authorization", utf8 ("Bearer " ++ client.token))]
  body := ⟨[], .eof⟩

theorem header_tokenRequest (client : ClientCredential) :
    Header.get (tokenRequest client).header "Authorization" =
      utf8 ("Bearer " ++ client.token) :=
  rfl

/-- The clients are known by their tokens exactly when trimming confuses none of them. -/
theorem authenticates_iff (hcheck : configuration.check = .ok ()) :
    (∀ client ∈ configuration.clients, ∀ request,
        Header.get request.header "Authorization" = utf8 ("Bearer " ++ client.token) →
          authenticated configuration request = some client.id) ↔
      (∀ client ∈ configuration.clients, trimSpace client.id ≠ "") ∧
        (∀ a ∈ configuration.clients, ∃ b ∈ configuration.clients,
          utf8 b.token = trimSpaceBytes (utf8 a.token)) ∧
        ∀ a ∈ configuration.clients, ∀ b ∈ configuration.clients,
          utf8 b.token = trimSpaceBytes (utf8 a.token) → b.id = a.id := by
  constructor
  · intro hauthenticates
    have hlookup (client : ClientCredential) (hmem : client ∈ configuration.clients) :=
      (authenticated_eq_some (header_tokenRequest client)).mp
        (hauthenticates client hmem _ (header_tokenRequest client))
    refine ⟨fun client hmem => (hlookup client hmem).2.2, ?_, ?_⟩
    · intro a ha
      obtain ⟨b, hb, htoken, -⟩ | hnone := Table.foldl_update_eq_some
        (fun c => utf8 (ClientCredential.token c)) ClientCredential.id (hlookup a ha).2.1
      · exact ⟨b, hb, htoken⟩
      · cases hnone
    · intro a ha b hb htoken
      have hsame : trimSpaceBytes (utf8 b.token) = trimSpaceBytes (utf8 a.token) := by
        rw [htoken, trimSpaceBytes_idem]
      have hid := (hlookup b hb).2.1
      rw [hsame, (hlookup a ha).2.1] at hid
      exact (Option.some.inj hid).symm
  · rintro ⟨hnamed, htrimmed, htokens⟩ client hmem request hheader
    obtain ⟨b, hb, htoken⟩ := htrimmed client hmem
    obtain ⟨last, hlast, hkey, hvalue⟩ := Table.foldl_update_of_mem
      (fun c => utf8 (ClientCredential.token c)) ClientCredential.id (fun _ => none) hb
    rw [htoken] at hkey hvalue
    rw [htokens client hmem last hlast hkey] at hvalue
    refine (authenticated_eq_some hheader).mpr ⟨?_, hvalue, hnamed client hmem⟩
    rw [← htoken, ne_eq, ← utf8_empty, utf8_inj]
    exact (check_eq_ok hcheck).2 b hb

end Clients

/-- An accepted configuration is served as written exactly when it is unambiguous. -/
theorem servedAsWritten_iff (configuration : FileConfiguration)
    (hcheck : configuration.check = .ok ()) :
    ServedAsWritten configuration ↔ Unambiguous configuration := by
  constructor
  · rintro ⟨hresolves, hauthenticates, hreachable⟩
    obtain ⟨hnamed, htrimmed, htokens⟩ := (authenticates_iff hcheck).mp hauthenticates
    refine ⟨(resolves_iff hcheck).mp hresolves, ?_, hnamed, htrimmed, htokens⟩
    intro route hmem
    obtain ⟨payload, metadata, hread, hresolve⟩ := hreachable route hmem
    rw [(resolve_eq_some hresolve).2]
    exact model_of_readMetadata hread
  · rintro ⟨hmodels, haskable, hnamed, htrimmed, htokens⟩
    have hresolves := (resolves_iff hcheck).mpr hmodels
    refine ⟨hresolves, (authenticates_iff hcheck).mpr ⟨hnamed, htrimmed, htokens⟩, ?_⟩
    intro route hmem
    exact ⟨_, _, readMetadata_singleMember (haskable route hmem), hresolves route hmem⟩

/-- Two models on one backend, and two clients, one of which has space around its token. -/
def sharedBackend (secondToken : String) : FileConfiguration where
  routes := [⟨"small", "qwen-small", "http://one", "", true⟩,
    ⟨"large", "qwen-large", "http://one", "", true⟩]
  clients := [⟨"cli", "alpha"⟩, ⟨"batch", secondToken⟩]

theorem sharedBackend_served : ServedAsWritten (sharedBackend "beta") := by
  refine (servedAsWritten_iff (sharedBackend "beta") (by rfl)).mpr ⟨?_, ?_, ?_, ?_, ?_⟩
  all_goals decide

/-- A token of another client with a space before it is accepted and never served. -/
theorem paddedToken_not_served :
    (sharedBackend " alpha").check = .ok () ∧ ¬ ServedAsWritten (sharedBackend " alpha") := by
  refine ⟨by rfl, fun hserved => ?_⟩
  have hid := hserved.authenticates ⟨"batch", " alpha"⟩ (by decide)
    (tokenRequest ⟨"batch", " alpha"⟩) rfl
  revert hid
  decide

end NodeScope.Proxy
