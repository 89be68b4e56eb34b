import NodeScope.Lib.Check
import NodeScope.Lib.Table
import NodeScope.Lib.Text

/-!
# Roles, principals and the clients of the control plane

The REST surface and the tools share one loader of client credentials and one ranking of roles. The
loader trims what it keeps and refuses a second client with the same id or token, so that a token
names one principal.

## Implementation notes

The decoded file is the input of `HTTPConfiguration.load`. A role is a text of the program with
three named values; any other text is kept, because the loader is what rejects it.
-/

namespace NodeScope.Control

open Lib Lib.Check Lib.Text

/-- The texts of the three roles. -/
def roleNames : List String := ["viewer", "operator", "administrator"]

inductive Role where
  | viewer
  | operator
  | administrator
  | unknown (text : String) (h : text ∉ roleNames)
deriving DecidableEq

def Role.valid : Role → Bool
  | .unknown _ _ => false
  | _ => true

def Role.rank : Role → Nat
  | .viewer => 1
  | .operator => 2
  | .administrator => 3
  | .unknown _ _ => 0

def Role.allows (role minimum : Role) : Bool :=
  role.valid && minimum.valid && minimum.rank ≤ role.rank

/-- The roles that may change something. -/
theorem Role.allows_operator {role : Role} :
    role.allows .operator = true ↔ role = .operator ∨ role = .administrator := by
  cases role <;> simp [Role.allows, Role.valid, Role.rank]

structure Principal where
  id : String
  role : Role
deriving DecidableEq

structure HTTPClientCredential where
  id : String
  token : String
  role : Role
deriving DecidableEq

structure HTTPConfiguration where
  clients : List HTTPClientCredential
deriving DecidableEq

inductive ConfigurationError where
  | noClient
  | incompleteClient
  | duplicateID (id : String)
  | duplicateToken
deriving DecidableEq

def HTTPClientCredential.trimmed (client : HTTPClientCredential) : HTTPClientCredential :=
  { client with id := trimSpace client.id, token := trimSpace client.token }

/-- The loop over the clients, with the ids and the tokens seen so far. -/
def loadClients : List String → List String → List HTTPClientCredential →
    Except ConfigurationError (List HTTPClientCredential)
  | _, _, [] => .ok []
  | ids, tokens, listed :: rest => do
      let client := listed.trimmed
      failIf (client.id == "" || client.token == "" ||
        (client.role != .viewer && client.role != .operator && client.role != .administrator))
        .incompleteClient
      failIf (decide (client.id ∈ ids)) (.duplicateID client.id)
      failIf (decide (client.token ∈ tokens)) .duplicateToken
      let clients ← loadClients (client.id :: ids) (client.token :: tokens) rest
      pure (client :: clients)

/-- The checks of `LoadHTTPConfiguration` on the contents of the file. -/
def HTTPConfiguration.load (configuration : HTTPConfiguration) :
    Except ConfigurationError HTTPConfiguration := do
  failIf configuration.clients.isEmpty .noClient
  let clients ← loadClients [] [] configuration.clients
  pure ⟨clients⟩

/-- The map of `HTTPConfiguration.Authenticator`, from tokens to principals. -/
def tokenPrincipals (clients : List HTTPClientCredential) : List UInt8 → Option Principal :=
  clients.foldl
    (fun tokens client =>
      Function.update tokens (utf8 client.token) (some ⟨client.id, client.role⟩))
    fun _ => none

/-- `StaticTokenAuthenticator.Authenticate`. -/
def authenticate (tokens : List UInt8 → Option Principal) (token : List UInt8) :
    Option Principal :=
  (tokens token).filter fun principal => principal.id != ""

def HTTPConfiguration.authenticator (configuration : HTTPConfiguration) :
    List UInt8 → Option Principal :=
  authenticate (tokenPrincipals configuration.clients)

/-- What the loader establishes of the clients it keeps. -/
structure Accepted (clients : List HTTPClientCredential) : Prop where
  named : ∀ client ∈ clients, client.id ≠ "" ∧ client.token ≠ ""
  roles : ∀ client ∈ clients, client.role.valid = true
  ids : (clients.map HTTPClientCredential.id).Nodup
  tokens : (clients.map HTTPClientCredential.token).Nodup

/-- One pass of the loop keeps what is accepted apart from what was seen. -/
theorem loadClients_eq_ok {ids tokens : List String} {listed clients : List HTTPClientCredential}
    (h : loadClients ids tokens listed = .ok clients) :
    Accepted clients ∧ (∀ client ∈ clients, client.id ∉ ids) ∧
      ∀ client ∈ clients, client.token ∉ tokens := by
  induction listed generalizing ids tokens clients with
  | nil =>
      obtain rfl := Except.ok.inj h
      exact ⟨⟨by simp, by simp, List.nodup_nil, List.nodup_nil⟩, by simp, by simp⟩
  | cons first rest ih =>
      simp only [loadClients, unit_bind_eq_ok, failIf_eq_ok, decide_eq_false_iff_not] at h
      obtain ⟨hcomplete, hid, htoken, h⟩ := h
      obtain ⟨loaded, hloaded, hpure⟩ := bind_eq_ok.mp h
      obtain rfl : first.trimmed :: loaded = clients := Except.ok.inj hpure
      obtain ⟨haccepted, hids, htokens⟩ := ih hloaded
      simp only [Bool.or_eq_false_iff, beq_eq_false_iff_ne, ne_eq] at hcomplete
      obtain ⟨⟨hidText, htokenText⟩, hrole⟩ := hcomplete
      have hvalid : first.trimmed.role.valid = true := by
        cases hr : first.trimmed.role with
        | unknown text hunknown =>
            rw [hr] at hrole
            simp at hrole
        | _ => rfl
      refine ⟨⟨?_, ?_, ?_, ?_⟩, ?_, ?_⟩
      · exact List.forall_mem_cons.mpr ⟨⟨hidText, htokenText⟩, haccepted.named⟩
      · exact List.forall_mem_cons.mpr ⟨hvalid, haccepted.roles⟩
      · refine List.nodup_cons.mpr ⟨fun hmem => ?_, haccepted.ids⟩
        obtain ⟨client, hclient, hsame⟩ := List.mem_map.mp hmem
        exact hids client hclient (hsame ▸ List.mem_cons_self)
      · refine List.nodup_cons.mpr ⟨fun hmem => ?_, haccepted.tokens⟩
        obtain ⟨client, hclient, hsame⟩ := List.mem_map.mp hmem
        exact htokens client hclient (hsame ▸ List.mem_cons_self)
      · refine List.forall_mem_cons.mpr ⟨hid, fun client hclient hmem => ?_⟩
        exact hids client hclient (List.mem_cons_of_mem _ hmem)
      · refine List.forall_mem_cons.mpr ⟨htoken, fun client hclient hmem => ?_⟩
        exact htokens client hclient (List.mem_cons_of_mem _ hmem)

theorem accepted_of_load {listed configuration : HTTPConfiguration}
    (h : listed.load = .ok configuration) : Accepted configuration.clients := by
  simp only [HTTPConfiguration.load, unit_bind_eq_ok] at h
  obtain ⟨clients, hclients, hpure⟩ := bind_eq_ok.mp h.2
  obtain rfl := Except.ok.inj hpure
  exact (loadClients_eq_ok hclients).1

/-- The principal that the configuration lists for exactly that token. -/
def ConfiguredFor (configuration : HTTPConfiguration) (token : List UInt8)
    (principal : Principal) : Prop :=
  ∃ client ∈ configuration.clients, utf8 client.token = token ∧
    principal = ⟨client.id, client.role⟩

theorem configuredFor_of_authenticator {configuration : HTTPConfiguration} {token : List UInt8}
    {principal : Principal} (h : configuration.authenticator token = some principal) :
    ConfiguredFor configuration token principal := by
  obtain ⟨hfound, -⟩ := Option.filter_eq_some_iff.mp h
  obtain ⟨client, hmem, htoken, hvalue⟩ | hnone := Table.foldl_update_eq_some
    (fun client => utf8 (HTTPClientCredential.token client))
    (fun client => (⟨client.id, client.role⟩ : Principal)) hfound
  · exact ⟨client, hmem, htoken, hvalue.symm⟩
  · cases hnone

/-- A token names one principal. -/
theorem ConfiguredFor.unique {configuration : HTTPConfiguration}
    (haccepted : Accepted configuration.clients) {token : List UInt8} {p q : Principal}
    (hp : ConfiguredFor configuration token p) (hq : ConfiguredFor configuration token q) :
    p = q := by
  obtain ⟨a, ha, htoken, rfl⟩ := hp
  obtain ⟨b, hb, hsame, rfl⟩ := hq
  have hab : a.token = b.token := utf8_inj.mp (htoken.trans hsame.symm)
  rw [List.inj_on_of_nodup_map haccepted.tokens ha hb hab]

end NodeScope.Control
