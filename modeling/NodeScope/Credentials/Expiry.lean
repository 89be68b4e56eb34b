import NodeScope.App.Server
import NodeScope.Credentials.Rotation

/-!
# The lifetime of a credential

Enrollment records when a credential expires and refuses an expiry that is not in the
future. The lookup behind both endpoints reads no clock and not that column. The
lifetime is therefore kept exactly for the tokens that are not presented after the
expiry of a live credential, and for those only.
-/

namespace NodeScope.Credentials

open Storage Lib Lib.Text Telemetry App

/-- A token at the time `t` is accepted, by the lookup and by both endpoints, only
while the row it matches is neither revoked nor past its expiry. -/
structure LifetimeEnforced (db : Db) (token : List UInt8) (t : Int) : Prop where
  lookup : ∀ identity a, authenticateAgent healthy db token = .ok identity →
    credentialRow db token = some a → a.revokedAt = none ∧ expired a.credentialExpiresAt t = false
  preflight : ∀ server clocks r a, bearerToken r = some token → clocks.database = t →
    (handleIngestPreflight server healthy db clocks r).status = 200 →
    credentialRow db token = some a → expired a.credentialExpiresAt t = false
  ingest : ∀ server clocks r a, bearerToken r = some token → clocks.database = t →
    (handleIngest server healthy db clocks r).1.status < 300 →
    credentialRow db token = some a → expired a.credentialExpiresAt t = false

/-- Both endpoints rest on the lookup, so its behaviour decides. -/
theorem lifetimeEnforced_of_lookup {db : Db} {token : List UInt8} {t : Int}
    (h : ∀ identity a, authenticateAgent healthy db token = .ok identity →
      credentialRow db token = some a →
      a.revokedAt = none ∧ expired a.credentialExpiresAt t = false) :
    LifetimeEnforced db token t where
  lookup := h
  preflight := by
    intro server clocks r a htoken _ hstatus hrow
    obtain ⟨-, token', htoken', identity, hauth⟩ := handleIngestPreflight_success.mp hstatus
    obtain rfl : token' = token := Option.some.inj (htoken'.symm.trans htoken)
    exact (h identity a hauth hrow).2
  ingest := by
    intro server clocks r a htoken _ hstatus hrow
    obtain ⟨token', identity, envelope, -, hread, hauth, -⟩ := handleIngest_success rfl hstatus
    obtain rfl : token' = token :=
      Option.some.inj ((readSubmission_eq_ok hread).1.symm.trans htoken)
    exact (h identity a hauth hrow).2

/-- The row a token matches holds the live credential of its host. -/
theorem live_of_credentialRow {db : Db} {events : List Event} (ht : Tracks db events)
    {token : List UInt8} {a : AgentRow} (hrow : credentialRow db token = some a) :
    ∃ h i, live h events = some i ∧ i.digest = (Sha256.sha256 token).toList ∧
      i.expiresAt = a.credentialExpiresAt := by
  obtain ⟨ha, hdigest, hrevoked⟩ := (credentialRow_eq_some ht).mp hrow
  obtain ⟨h, -, hagrees⟩ := ht.agreesWith ha
  refine ⟨h.slug, ⟨h.slug, a.credentialDigest, a.credentialExpiresAt, h.id, a.id⟩, ?_, hdigest,
    rfl⟩
  rw [hagrees.live, hrevoked, Option.isNone_none, if_pos rfl, hagrees.last]

/-- The converse: a live credential is in the row its token matches. -/
theorem credentialRow_of_live {db : Db} {events : List Event} (ht : Tracks db events)
    {token : List UInt8} {slug : String} {i : Issue} (hlive : live slug events = some i)
    (hdigest : i.digest = (Sha256.sha256 token).toList) :
    ∃ a, credentialRow db token = some a ∧ a.credentialExpiresAt = i.expiresAt := by
  have hissues : i ∈ issues slug events := List.mem_of_head? (live_eq_some hlive)
  obtain ⟨h, hh, rfl⟩ := ht.host slug (List.ne_nil_of_mem hissues)
  obtain ⟨a, ha, hagrees⟩ := ht.agent h hh
  rw [hagrees.live, hagrees.last] at hlive
  obtain ⟨hrevoked, hi⟩ := Option.ite_none_right_eq_some.mp hlive
  obtain rfl := Option.some.inj hi
  exact ⟨a, (credentialRow_eq_some ht).mpr ⟨ha, hdigest, Option.isNone_iff_eq_none.mp hrevoked⟩, rfl⟩

/-- After any run of enrollments and revocations the lifetime is enforced for a token
exactly when no live credential with its digest was issued with an expiry that has
passed. -/
theorem lifetimeEnforced_iff (steps : List Step) (token : List UInt8) (t : Int) :
    LifetimeEnforced (runSteps Db.empty steps) token t ↔
      token = [] ∨ ∀ slug i, live slug (history Db.empty steps) = some i →
        i.digest = (Sha256.sha256 token).toList → expired i.expiresAt t = false := by
  have ht : Tracks (runSteps Db.empty steps) (history Db.empty steps) := by
    have hrun := tracks_run tracks_empty steps
    rwa [List.append_nil] at hrun
  constructor
  · intro h
    by_cases htoken : token = []
    · exact Or.inl htoken
    · refine Or.inr ?_
      intro slug i hlive hdigest
      obtain ⟨a, hrow, hexpires⟩ := credentialRow_of_live ht hlive hdigest
      rw [← hexpires]
      exact (h.lookup _ a (authenticateAgent_eq_ok.mpr ⟨htoken, a, hrow, rfl⟩) hrow).2
  · intro h
    apply lifetimeEnforced_of_lookup
    intro identity a hauth hrow
    obtain ⟨htoken, -⟩ := authenticateAgent_eq_ok.mp hauth
    obtain ⟨slug, i, hlive, hdigest, hexpires⟩ := live_of_credentialRow ht hrow
    refine ⟨((credentialRow_eq_some ht).mp hrow).2.2, ?_⟩
    rw [← hexpires]
    exact (h.resolve_left htoken) slug i hlive hdigest

/-- A token issued at time 0 with the expiry 10. -/
def expiringSteps : List Step := [.enroll (nodeCall (utf8 "secret") (some 10))]

def preflightRequest : App.Request := ⟨[], [], utf8 "Bearer secret", []⟩

/-- At time 20 the preflight endpoint still answers that the token is authenticated. -/
theorem expired_token_authenticates :
    (∀ server clocks, server.ingestorConfigured = true → clocks.database = 20 →
      (handleIngestPreflight server healthy (runSteps Db.empty expiringSteps) clocks
        preflightRequest).status = 200) ∧
    ¬ LifetimeEnforced (runSteps Db.empty expiringSteps) (utf8 "secret") 20 := by
  have hhistory : history Db.empty expiringSteps =
      [.issued ⟨"node", (Sha256.sha256 (utf8 "secret")).toList, some 10, Uuid.ofByte 1,
        Uuid.ofByte 2⟩] := by
    decide +kernel
  have ht : Tracks (runSteps Db.empty expiringSteps) (history Db.empty expiringSteps) := by
    have hrun := tracks_run tracks_empty expiringSteps
    rwa [List.append_nil] at hrun
  have hlive : live "node" (history Db.empty expiringSteps) =
      some ⟨"node", (Sha256.sha256 (utf8 "secret")).toList, some 10, Uuid.ofByte 1,
        Uuid.ofByte 2⟩ := by
    rw [hhistory]
    rfl
  have htoken : utf8 "secret" ≠ [] := by decide
  have hbearer : bearerToken preflightRequest = some (utf8 "secret") := by
    have hcut : cutPrefix (utf8 "Bearer secret") (utf8 "Bearer ") = some (utf8 "secret") := by
      decide
    have hblank : blank (utf8 "secret") = false := by
      rw [blank, ofUtf8_utf8]
      decide
    rw [bearerToken, preflightRequest, hcut]
    simp [hblank]
  obtain ⟨a, hrow, hexpires⟩ := credentialRow_of_live ht hlive rfl
  have hauth := authenticateAgent_eq_ok.mpr ⟨htoken, a, hrow, rfl⟩
  constructor
  · intro server clocks hconfigured _
    exact handleIngestPreflight_success.mpr ⟨hconfigured, _, hbearer, _, hauth⟩
  · intro h
    have hlater := (h.lookup _ a hauth hrow).2
    rw [hexpires] at hlater
    exact absurd hlater (by decide)

end NodeScope.Credentials
