import NodeScope.Control.Tools

/-!
# Who may do what through the control plane

Both surfaces keep one table of rights, `ServiceCall.Authorized`. Each route and each tool is shown
to keep it on its own, and the two handlers inherit it for every request.
-/

namespace NodeScope.Control

open Lib Lib.Check Lib.Text Lib.Reader Lib.Json Proxy

/-- The rights of a principal: to read, for every configured one; to change something, for operators
and administrators only; and what a change must say. -/
def ServiceCall.Authorized (configuration : HTTPConfiguration) (token : List UInt8)
    (acknowledged : Prop) : ServiceCall → Prop
  | .fleetStatus principal => ConfiguredFor configuration token principal
  | .hostStatus principal _ => ConfiguredFor configuration token principal
  | .acknowledgeAlert principal _ _ =>
      ConfiguredFor configuration token principal ∧
        (principal.role = .operator ∨ principal.role = .administrator)
  | .setCollectionInterval principal _ intervalSeconds =>
      ConfiguredFor configuration token principal ∧
        (principal.role = .operator ∨ principal.role = .administrator) ∧
        1 ≤ intervalSeconds ∧ intervalSeconds ≤ 60
  | .refreshStorageBaseline principal _ acknowledgedDiff =>
      ConfiguredFor configuration token principal ∧
        (principal.role = .operator ∨ principal.role = .administrator) ∧
        acknowledgedDiff = true ∧ acknowledged

/-- The body is an object whose member says so, in any spelling of its name. -/
def BodyAcknowledges (body : Source) : Prop :=
  ∃ members, readInput (8 <<< 10) body = some (.object members) ∧
    lastSet "acknowledgeddiff" members = some (.bool true)

variable {Host : Type}

section Routes

variable {configuration : HTTPConfiguration} {token : List UInt8} {principal : Principal}
variable {service : Service Host} {body : Source} {call : ServiceCall}

/-- The flag is on only if the last member that sets it says so. -/
theorem lastSet_of_acknowledgedDiff {members : List (String × Value)}
    (h : members.foldlM setAcknowledgedDiff false = some true) :
    lastSet "acknowledgeddiff" members = some (.bool true) := by
  induction members using List.reverseRecOn with
  | nil => cases h
  | append_singleton members member ih =>
      obtain ⟨before, hbefore, hnext⟩ := foldlM_concat_eq_some.mp h
      obtain ⟨name, value⟩ := member
      rw [lastSet, lastWhere_concat]
      rw [setAcknowledgedDiff] at hnext
      split at hnext
      · next hname =>
          cases value with
          | bool b =>
              obtain rfl := Option.some.inj hnext
              simp [hname, Value.isNull]
          | null =>
              obtain rfl := Option.some.inj hnext
              simpa [Value.isNull, lastSet] using ih hbefore
          | _ => cases hnext
      · next hname =>
          obtain rfl := Option.some.inj hnext
          simpa [hname, lastSet] using ih hbefore

theorem bodyAcknowledges_of_decode
    (h : (readInput (8 <<< 10) body).bind decodeAcknowledgedDiff = some true) :
    BodyAcknowledges body := by
  obtain ⟨value, hread, hvalue⟩ := Option.bind_eq_some_iff.mp h
  cases value with
  | object members => exact ⟨members, hread, lastSet_of_acknowledgedDiff hvalue⟩
  | null => cases hvalue
  | _ => cases hvalue

theorem fleet_authorized (hconfigured : ConfiguredFor configuration token principal)
    (hcall : call ∈ (fleet service principal).1) :
    call.Authorized configuration token (BodyAcknowledges body) := by
  rw [fleet] at hcall
  split at hcall
  · obtain rfl := List.mem_singleton.mp hcall
    exact hconfigured
  · cases hcall

theorem host_authorized (hconfigured : ConfiguredFor configuration token principal)
    {hostID : List UInt8} (hcall : call ∈ (host service principal hostID).1) :
    call.Authorized configuration token (BodyAcknowledges body) := by
  rw [host] at hcall
  split at hcall
  · obtain rfl := List.mem_singleton.mp hcall
    exact hconfigured
  · cases hcall

theorem setInterval_authorized (hconfigured : ConfiguredFor configuration token principal)
    (hcall : call ∈ (setInterval service principal body).1) :
    call.Authorized configuration token (BodyAcknowledges body) := by
  rw [setInterval] at hcall
  split at hcall
  · next hrole =>
      split at hcall
      · next input hinput =>
          obtain rfl := List.mem_singleton.mp hcall
          obtain ⟨-, hrange⟩ := Option.filter_eq_some_iff.mp hinput
          simp only [Bool.and_eq_true, decide_eq_true_eq] at hrange
          exact ⟨hconfigured, Role.allows_operator.mp hrole, hrange⟩
      · cases hcall
  · cases hcall

theorem acknowledgeAlert_authorized (hconfigured : ConfiguredFor configuration token principal)
    {alertID : List UInt8} (hcall : call ∈ (acknowledgeAlert service principal body alertID).1) :
    call.Authorized configuration token (BodyAcknowledges body) := by
  rw [acknowledgeAlert] at hcall
  split at hcall
  · next hrole =>
      obtain rfl := List.mem_singleton.mp hcall
      exact ⟨hconfigured, Role.allows_operator.mp hrole⟩
  · cases hcall

theorem refreshBaseline_authorized (hconfigured : ConfiguredFor configuration token principal)
    {hostID : List UInt8} (hcall : call ∈ (refreshBaseline service principal body hostID).1) :
    call.Authorized configuration token (BodyAcknowledges body) := by
  rw [refreshBaseline] at hcall
  split at hcall
  · next hrole =>
      split at hcall
      · next hinput =>
          obtain rfl := List.mem_singleton.mp hcall
          exact ⟨hconfigured, Role.allows_operator.mp hrole, rfl,
            bodyAcknowledges_of_decode hinput⟩
      · cases hcall
  · cases hcall

theorem route_authorized (hconfigured : ConfiguredFor configuration token principal)
    {request : ApiRequest} (hcall : call ∈ (route service principal request).1) :
    call.Authorized configuration token (BodyAcknowledges request.body) := by
  simp only [route] at hcall
  split at hcall
  · exact fleet_authorized hconfigured hcall
  · split at hcall
    · exact host_authorized hconfigured hcall
    · split at hcall
      · exact setInterval_authorized hconfigured hcall
      · split at hcall
        · exact acknowledgeAlert_authorized hconfigured hcall
        · split at hcall
          · exact refreshBaseline_authorized hconfigured hcall
          · split at hcall
            · cases hcall
            · cases hcall

/-- No request to the REST handler goes beyond the rights of its token. -/
theorem serveHTTP_authorized {service : Option (Service Host)} {request : ApiRequest}
    (hcall : call ∈
      (serveHTTP ⟨service, some configuration.authenticator⟩ request).1) :
    ∃ token, bearerToken request.header = some token ∧
      call.Authorized configuration token (BodyAcknowledges request.body) := by
  cases service with
  | none => cases hcall
  | some service =>
      simp only [serveHTTP] at hcall
      split at hcall
      · next principal hauthorize =>
          obtain ⟨token, htoken, hprincipal⟩ := orFail_bind_eq_ok.mp hauthorize
          have hfound := orFail_eq_ok.mp hprincipal
          exact ⟨token, htoken,
            route_authorized (configuredFor_of_authenticator hfound) hcall⟩
      · cases hcall

end Routes

section Tools

variable {configuration : HTTPConfiguration} {token : List UInt8} {context : Option Principal}
variable {principal : Principal} {server : Server Host}

theorem requireRole_eq_ok {minimum : Role} (h : requireRole context minimum = .ok principal) :
    context = some principal ∧ principal.role.allows minimum = true := by
  obtain ⟨found, hfound, hrole⟩ := bind_eq_ok.mp h
  obtain ⟨hallowed, hpure⟩ := unit_bind_eq_ok.mp hrole
  obtain rfl := Except.ok.inj hpure
  obtain ⟨hcontext, -⟩ := Option.filter_eq_some_iff.mp (orFail_eq_ok.mp hfound)
  exact ⟨hcontext, by simpa using hallowed⟩

/-- The input of a tool says so. -/
def ToolCall.Acknowledges : ToolCall → Prop
  | .refreshStorageBaseline _ acknowledgedDiff => acknowledgedDiff = true
  | _ => False

/-- A tool keeps to the rights of the principal in its context. -/
theorem callTool_authorized {toolCall : ToolCall} {call : ServiceCall}
    (hconfigured : ∀ principal, context = some principal →
      ConfiguredFor configuration token principal)
    (hcall : call ∈ (server.callTool context toolCall).1) :
    call.Authorized configuration token toolCall.Acknowledges := by
  cases toolCall with
  | fleetStatus =>
      rw [Server.callTool, Server.fleetStatus] at hcall
      split at hcall
      · cases hcall
      · next principal hrole =>
          obtain rfl := List.mem_singleton.mp hcall
          exact hconfigured principal (requireRole_eq_ok hrole).1
  | acknowledgeAlert alertID note =>
      rw [Server.callTool, Server.acknowledgeAlert] at hcall
      split at hcall
      · cases hcall
      · next principal hrole =>
          obtain ⟨hcontext, hallowed⟩ := requireRole_eq_ok hrole
          split at hcall
          · cases hcall
          · obtain rfl := List.mem_singleton.mp hcall
            exact ⟨hconfigured principal hcontext, Role.allows_operator.mp hallowed⟩
  | setCollectionInterval hostID intervalSeconds =>
      rw [Server.callTool, Server.setCollectionInterval] at hcall
      split at hcall
      · cases hcall
      · next principal hrole =>
          obtain ⟨hcontext, hallowed⟩ := requireRole_eq_ok hrole
          split at hcall
          · cases hcall
          · next hrange =>
              obtain rfl := List.mem_singleton.mp hcall
              have hbounds : 1 ≤ intervalSeconds ∧ intervalSeconds ≤ 60 := by omega
              exact ⟨hconfigured principal hcontext, Role.allows_operator.mp hallowed, hbounds⟩
  | refreshStorageBaseline hostID acknowledgedDiff =>
      rw [Server.callTool, Server.refreshStorageBaseline] at hcall
      split at hcall
      · cases hcall
      · next principal hrole =>
          obtain ⟨hcontext, hallowed⟩ := requireRole_eq_ok hrole
          split at hcall
          · cases hcall
          · next hinput =>
              obtain rfl := List.mem_singleton.mp hcall
              have hacknowledged : acknowledgedDiff = true := by
                rw [← Bool.not_eq_false]
                exact fun hfalse => hinput (Or.inr hfalse)
              exact ⟨hconfigured principal hcontext, Role.allows_operator.mp hallowed,
                hacknowledged, hacknowledged⟩

/-- No tool call behind `NewHTTPHandler` goes beyond the rights of its token. -/
theorem newHTTPHandler_authorized {toolCalls : ToolRequest → List ToolCall} {request : ToolRequest}
    {call : ServiceCall}
    (hcall : call ∈ toolServiceCalls
      (newHTTPHandler server (some configuration.authenticator) toolCalls request)) :
    ∃ token, bearerToken request.header = some token ∧
      ∃ toolCall ∈ toolCalls request, call.Authorized configuration token toolCall.Acknowledges := by
  obtain ⟨result, hresult, hmem⟩ := List.mem_flatMap.mp hcall
  cases hhandled :
      newHTTPHandler server (some configuration.authenticator) toolCalls request with
  | none =>
      rw [hhandled] at hresult
      cases hresult
  | some results =>
      rw [hhandled] at hresult
      obtain ⟨token, htoken, hrest⟩ := Option.bind_eq_some_iff.mp hhandled
      obtain ⟨principal, hprincipal, hresults⟩ := Option.bind_eq_some_iff.mp hrest
      obtain rfl := Option.some.inj hresults
      obtain ⟨toolCall, htoolCall, rfl⟩ := List.mem_map.mp hresult
      refine ⟨token, htoken, toolCall, htoolCall, callTool_authorized ?_ hmem⟩
      rintro found hfound
      obtain rfl := Option.some.inj hfound
      exact configuredFor_of_authenticator hprincipal

end Tools

/-- Authorization is complete on both surfaces. -/
structure AuthorizationComplete (configuration : HTTPConfiguration)
    (service : Option (Service Host)) (server : Server Host)
    (toolCalls : ToolRequest → List ToolCall) : Prop where
  rest : ∀ request, ∀ call ∈ (serveHTTP ⟨service, some configuration.authenticator⟩ request).1,
    ∃ token, bearerToken request.header = some token ∧
      call.Authorized configuration token (BodyAcknowledges request.body)
  tools : ∀ request, ∀ call ∈ toolServiceCalls
      (newHTTPHandler server (some configuration.authenticator) toolCalls request),
    ∃ token, bearerToken request.header = some token ∧
      ∃ toolCall ∈ toolCalls request, call.Authorized configuration token toolCall.Acknowledges
  ids : (configuration.clients.map HTTPClientCredential.id).Nodup
  tokens : (configuration.clients.map HTTPClientCredential.token).Nodup
  unique : ∀ token p q, ConfiguredFor configuration token p →
    ConfiguredFor configuration token q → p = q

/-- Whatever configuration the loader accepts, both surfaces keep the table of rights. -/
theorem control_plane_authorized (listed configuration : HTTPConfiguration)
    (hload : listed.load = .ok configuration) (service : Option (Service Host))
    (server : Server Host) (toolCalls : ToolRequest → List ToolCall) :
    AuthorizationComplete configuration service server toolCalls where
  rest _ _ hcall := serveHTTP_authorized hcall
  tools _ _ hcall := newHTTPHandler_authorized hcall
  ids := (accepted_of_load hload).ids
  tokens := (accepted_of_load hload).tokens
  unique _ _ _ hp hq := hp.unique (accepted_of_load hload) hq

/-- A viewer and an operator, as the file lists them. -/
def twoClients : HTTPConfiguration where
  clients := [⟨"viewer", "viewer-token", .viewer⟩, ⟨" operator ", " operator-token", .operator⟩]

def twoClientsLoaded : HTTPConfiguration where
  clients := [⟨"viewer", "viewer-token", .viewer⟩, ⟨"operator", "operator-token", .operator⟩]

/-- A service that accepts everything and knows no host. -/
def willing : Service Unit where
  fleetStatus _ := some []
  hostStatus _ _ := none
  acknowledgeAlert _ _ _ := true
  setCollectionInterval _ _ _ := true
  refreshStorageBaseline _ _ _ := true

theorem twoClients_authorized :
    AuthorizationComplete twoClientsLoaded (some willing) ⟨willing⟩
      (fun _ => [.setCollectionInterval "framework" 10]) :=
  control_plane_authorized twoClients twoClientsLoaded (by decide) _ _ _

end NodeScope.Control
