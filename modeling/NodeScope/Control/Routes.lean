import NodeScope.Control.Api

/-!
# The paths that carry an id

Two routes of the control plane take an id from the middle of a path. The handler recognises them
by how a path begins and how it ends, after one leading `/api/v1`, which need not be there; then it
trims both. A path is shown to be taken as the grammar of the surface says unless it is one of
the misroutes: without the version, with an id that is empty or has a slash, or with one slash that
both the beginning and the end of the route claim.
-/

namespace NodeScope.Control

open Lib Lib.Check Lib.Text Lib.Reader Lib.Json Proxy

variable {Host : Type}

/-- A route with an id between two fixed parts, of which the first ends with a slash and the second
begins with one. -/
structure IdRoute where
  lead : List UInt8
  word : List UInt8
  plain : 0x2f ∉ word

def IdRoute.start (r : IdRoute) : List UInt8 := r.lead ++ [0x2f]

def IdRoute.ending (r : IdRoute) : List UInt8 := 0x2f :: r.word

def alertRoute : IdRoute := ⟨utf8 "/alerts", utf8 "acknowledge", by decide⟩

def baselineRoute : IdRoute := ⟨utf8 "/storage-baselines", utf8 "refresh", by decide⟩

def version : List UInt8 := utf8 "/api/v1"

section Statements

/-- An id is not empty and has no slash. -/
def ValidId (x : List UInt8) : Prop := x ≠ [] ∧ 0x2f ∉ x

/-- The path of a route with an id, as the grammar has it. -/
def IdRoute.Names (r : IdRoute) (path x : List UInt8) : Prop :=
  path = version ++ (r.start ++ (x ++ r.ending)) ∧ ValidId x

/-- The diff is acknowledged in the body. -/
def Acknowledged (request : ApiRequest) : Prop :=
  (readInput (8 <<< 10) request.body).bind decodeAcknowledgedDiff = some true

/-- Whether a call changes something. -/
def ServiceCall.mutating : ServiceCall → Bool
  | .acknowledgeAlert _ _ _ => true
  | .setCollectionInterval _ _ _ => true
  | .refreshStorageBaseline _ _ _ => true
  | _ => false

/-- The two routes are taken by the paths of the grammar, and every other path is not found. -/
structure RoutedExactly (handler : Handler Host) (request : ApiRequest) : Prop where
  alerts : ∀ x, (∃ principal note,
      ServiceCall.acknowledgeAlert principal x note ∈ (serveHTTP handler request).1) ↔
    alertRoute.Names request.path x
  baselines : Acknowledged request → ∀ x, (∃ principal,
      ServiceCall.refreshStorageBaseline principal x true ∈ (serveHTTP handler request).1) ↔
    baselineRoute.Names request.path x
  others : (∀ x, ¬ alertRoute.Names request.path x) → (∀ x, ¬ baselineRoute.Names request.path x) →
    (∃ title, (serveHTTP handler request).2 = .problem 404 title) ∧
      ∀ call ∈ (serveHTTP handler request).1, call.mutating = false

/-- A path of the route without the version, with an id that is none, or with the two parts of the
route sharing their slash. -/
def IdRoute.Misroutes (r : IdRoute) (path : List UInt8) : Prop :=
  path = r.start ++ r.word ∨ path = version ++ (r.start ++ r.word) ∨
    (∃ x, path = r.start ++ (x ++ r.ending)) ∨
    ∃ x, path = version ++ (r.start ++ (x ++ r.ending)) ∧ ¬ ValidId x

def Misrouted (path : List UInt8) : Prop :=
  alertRoute.Misroutes path ∨ baselineRoute.Misroutes path

end Statements

section Trimming

variable {s t x path : List UInt8} {r : IdRoute}

theorem trimPrefix_append (s t : List UInt8) : trimPrefix (s ++ t) s = t := by
  rw [trimPrefix, if_pos (by simp), List.drop_left]

theorem trimPrefix_of_not (h : ¬ t <+: s) : trimPrefix s t = s := by
  rw [trimPrefix, if_neg (by simpa using h)]

theorem trimSuffix_append (s t : List UInt8) : trimSuffix (s ++ t) t = s := by
  rw [trimSuffix, if_pos (by simp), List.length_append, Nat.add_sub_cancel, List.take_left]

/-- A text that begins and ends as a route does has an id between the two, or one slash in both. -/
theorem IdRoute.matches_iff (r : IdRoute) (s : List UInt8) :
    (r.start <+: s ∧ r.ending <:+ s) ↔
      s = r.start ++ r.word ∨ ∃ x, s = r.start ++ (x ++ r.ending) := by
  constructor
  · rintro ⟨⟨a, rfl⟩, b, hb⟩
    obtain ⟨c, hstart, hending⟩ | ⟨x, rfl, rfl⟩ := List.append_eq_append_iff.1 hb
    · cases c with
      | nil =>
          refine Or.inr ⟨[], ?_⟩
          rw [List.nil_append] at hending
          rw [hending, List.nil_append]
      | cons d c =>
          obtain ⟨rfl, hword⟩ := List.cons.inj hending
          cases c using List.reverseRecOn with
          | nil => exact Or.inl (congrArg (r.start ++ ·) hword.symm)
          | append_singleton c last =>
              -- the first part ends with a slash, and only the first byte of the second is one
              have hslash : last = 0x2f := by
                have hfirst : r.start.getLast? = some 0x2f := List.getLast?_concat
                have hsecond : (b ++ (0x2f :: c ++ [last])).getLast? = some last := by
                  rw [← List.append_assoc, List.getLast?_concat]
                rw [hstart] at hfirst
                exact Option.some.inj (hsecond.symm.trans hfirst)
              exact absurd (by simp [hword, hslash]) r.plain
    · exact Or.inr ⟨x, rfl⟩
  · rintro (rfl | ⟨x, rfl⟩)
    · refine ⟨List.prefix_append _ _, r.lead, ?_⟩
      simp [IdRoute.start, IdRoute.ending]
    · refine ⟨List.prefix_append _ _, r.start ++ x, ?_⟩
      rw [List.append_assoc]

/-- The id that the handler takes from a path. -/
def IdRoute.id (r : IdRoute) (path : List UInt8) : List UInt8 :=
  trimSuffix (trimPrefix path r.start) r.ending

theorem IdRoute.id_append (r : IdRoute) (x : List UInt8) :
    r.id (r.start ++ (x ++ r.ending)) = x := by
  rw [IdRoute.id, trimPrefix_append, trimSuffix_append]

/-- The routes begin with different letters, and neither begins as the version does. -/
theorem starts_apart (s t : List UInt8) :
    alertRoute.start ++ s ≠ baselineRoute.start ++ t ∧
      (¬ version <+: alertRoute.start ++ s) ∧ ¬ version <+: baselineRoute.start ++ t := by
  have hversion : version = [0x2f, 0x61, 0x70, 0x69, 0x2f, 0x76, 0x31] := by decide
  have halert : alertRoute.start = [0x2f, 0x61, 0x6c, 0x65, 0x72, 0x74, 0x73, 0x2f] := by decide
  have hbaseline : ∃ rest, baselineRoute.start = 0x2f :: 0x73 :: rest :=
    ⟨baselineRoute.start.drop 2, by decide⟩
  obtain ⟨rest, hbaseline⟩ := hbaseline
  rw [hversion, halert, hbaseline]
  simp [List.cons_prefix_cons]

/-- The path without the version, which need not be there. -/
theorem trimmed_cases (path : List UInt8) :
    path = version ++ trimPrefix path version ∨
      (¬ version <+: path) ∧ path = trimPrefix path version := by
  by_cases hversion : version <+: path
  · obtain ⟨rest, rfl⟩ := hversion
    exact Or.inl (by rw [trimPrefix_append])
  · exact Or.inr ⟨hversion, (trimPrefix_of_not hversion).symm⟩

/-- A text begins and ends as the route does. -/
def IdRoute.Matches (r : IdRoute) (s : List UInt8) : Prop := r.start <+: s ∧ r.ending <:+ s

theorem IdRoute.Names.trimmed (h : r.Names path x) :
    trimPrefix path version = r.start ++ (x ++ r.ending) := by
  rw [h.1, trimPrefix_append]

theorem IdRoute.Names.matches (h : r.Names path x) : r.Matches (trimPrefix path version) :=
  (r.matches_iff _).mpr (Or.inr ⟨x, h.trimmed⟩)

theorem IdRoute.Names.id_eq (h : r.Names path x) : r.id (trimPrefix path version) = x := by
  rw [h.trimmed, r.id_append]

/-- The misroutes are the paths that the handler takes and the grammar does not have. -/
theorem IdRoute.misroutes_iff (hapart : ∀ s, ¬ version <+: r.start ++ s) :
    r.Misroutes path ↔
      r.Matches (trimPrefix path version) ∧ ∀ x, ¬ r.Names path x := by
  rw [IdRoute.Matches, r.matches_iff]
  constructor
  · rintro (rfl | rfl | ⟨x, rfl⟩ | ⟨x, rfl, hinvalid⟩)
    · refine ⟨Or.inl (trimPrefix_of_not (hapart _)), fun x hnames => hapart r.word ?_⟩
      exact ⟨_, hnames.1.symm⟩
    · refine ⟨Or.inl (trimPrefix_append _ _), fun x hnames => ?_⟩
      have hlength := congrArg List.length (List.append_cancel_left hnames.1)
      simp [IdRoute.ending] at hlength
      omega
    · refine ⟨Or.inr ⟨x, trimPrefix_of_not (hapart _)⟩, fun y hnames => hapart (x ++ r.ending) ?_⟩
      exact ⟨_, hnames.1.symm⟩
    · refine ⟨Or.inr ⟨x, trimPrefix_append _ _⟩, fun y hnames => hinvalid ?_⟩
      have hsame := hnames.id_eq
      rw [trimPrefix_append, r.id_append] at hsame
      rw [hsame]
      exact hnames.2
  · rintro ⟨hmatches, hnot⟩
    obtain hversion | ⟨-, hplain⟩ := trimmed_cases path
    · obtain hshared | ⟨x, hx⟩ := hmatches
      · exact Or.inr (Or.inl (by rw [hshared] at hversion; exact hversion))
      · rw [hx] at hversion
        exact Or.inr (Or.inr (Or.inr ⟨x, hversion, fun hvalid => hnot x ⟨hversion, hvalid⟩⟩))
    · rw [← hplain] at hmatches
      obtain hshared | hx := hmatches
      · exact Or.inl hshared
      · exact Or.inr (Or.inr (Or.inl hx))

/-- No text is taken by both routes. -/
theorem not_matches_both : ¬ (alertRoute.Matches s ∧ baselineRoute.Matches s) := by
  rintro ⟨⟨⟨t, ht⟩, -⟩, ⟨u, hu⟩, -⟩
  exact (starts_apart t u).1 (ht.trans hu.symm)

end Trimming

section Routing

variable {handler : Handler Host} {service : Service Host} {request : ApiRequest}
variable {authenticator : List UInt8 → Option Principal} {principal : Principal}

theorem acknowledgeAlert_operator (hrole : principal.role.allows .operator = true) (body : Source)
    (x : List UInt8) :
    ∃ note response, acknowledgeAlert service principal body x =
      ([.acknowledgeAlert principal x note], response) := by
  rw [acknowledgeAlert, if_pos hrole]
  exact ⟨_, _, rfl⟩

/-- The route of a baseline answers, and calls the service for an acknowledged diff only. -/
theorem refreshBaseline_operator (hrole : principal.role.allows .operator = true)
    (request : ApiRequest) (x : List UInt8) :
    ∃ calls response, refreshBaseline service principal request.body x = (calls, response) ∧
      (∀ title, response ≠ .problem 404 title) ∧
      (∀ call ∈ calls, call = .refreshStorageBaseline principal x true) ∧
      (Acknowledged request → calls = [.refreshStorageBaseline principal x true]) := by
  rw [refreshBaseline, if_pos hrole]
  split
  · refine ⟨_, _, rfl, ?_, ?_, fun _ => rfl⟩
    · intro title
      split <;> simp
    · simp
  · next hnot =>
      exact ⟨_, _, rfl, by simp, by simp, fun hack => absurd hack hnot⟩

/-- What a `POST` request does: the path without the version decides. -/
theorem route_post (hmethod : request.method = "POST") (rest : List UInt8)
    (hrest : trimPrefix request.path version = rest) :
    route service principal request =
      if alertRoute.start <+: rest ∧ alertRoute.ending <:+ rest then
        acknowledgeAlert service principal request.body (alertRoute.id rest)
      else if baselineRoute.start <+: rest ∧ baselineRoute.ending <:+ rest then
        refreshBaseline service principal request.body (baselineRoute.id rest)
      else ([], .problem 404 "control API endpoint was not found") := by
  have halert : alertRoute.start = utf8 "/alerts/" ∧ alertRoute.ending = utf8 "/acknowledge" := by
    decide
  have hbaseline : baselineRoute.start = utf8 "/storage-baselines/" ∧
      baselineRoute.ending = utf8 "/refresh" := by
    decide
  rw [version] at hrest
  simp only [route, hmethod, hrest, IdRoute.id, halert, hbaseline]
  simp

/-- The three things a `POST` request of an operator can meet. -/
theorem serveHTTP_post (hservice : handler.service = some service)
    (hauthenticator : handler.authenticator = some authenticator)
    (hprincipal : (authorize authenticator request : Except (ApiResponse Host) Principal) =
      .ok principal)
    (hrole : principal.role.allows .operator = true) (hmethod : request.method = "POST") :
    (alertRoute.Matches (trimPrefix request.path version) ∧
        ∃ note response, serveHTTP handler request =
          ([.acknowledgeAlert principal (alertRoute.id (trimPrefix request.path version)) note],
            response)) ∨
      (baselineRoute.Matches (trimPrefix request.path version) ∧
        ∃ calls response, serveHTTP handler request = (calls, response) ∧
          (∀ title, response ≠ .problem 404 title) ∧
          (∀ call ∈ calls, call = .refreshStorageBaseline principal
            (baselineRoute.id (trimPrefix request.path version)) true) ∧
          (Acknowledged request → calls = [.refreshStorageBaseline principal
            (baselineRoute.id (trimPrefix request.path version)) true])) ∨
      (¬ alertRoute.Matches (trimPrefix request.path version) ∧
        ¬ baselineRoute.Matches (trimPrefix request.path version) ∧
        ∃ title, serveHTTP handler request = ([], .problem 404 title)) := by
  have hserve : serveHTTP handler request = route service principal request := by
    simp only [serveHTTP, hservice, hauthenticator, hprincipal]
  rw [hserve, route_post hmethod _ rfl]
  by_cases halert : alertRoute.start <+: trimPrefix request.path version ∧
      alertRoute.ending <:+ trimPrefix request.path version
  · refine Or.inl ⟨halert, ?_⟩
    rw [if_pos halert]
    exact acknowledgeAlert_operator hrole _ _
  · by_cases hbaseline : baselineRoute.start <+: trimPrefix request.path version ∧
        baselineRoute.ending <:+ trimPrefix request.path version
    · refine Or.inr (Or.inl ⟨hbaseline, ?_⟩)
      rw [if_neg halert, if_pos hbaseline]
      exact refreshBaseline_operator hrole _ _
    · refine Or.inr (Or.inr ⟨halert, hbaseline, "control API endpoint was not found", ?_⟩)
      rw [if_neg halert, if_neg hbaseline]

theorem not_misrouted (h : ¬ Misrouted request.path) :
    (alertRoute.Matches (trimPrefix request.path version) →
      ∃ x, alertRoute.Names request.path x) ∧
    (baselineRoute.Matches (trimPrefix request.path version) →
      ∃ x, baselineRoute.Names request.path x) := by
  obtain ⟨halert, hbaseline⟩ := not_or.mp h
  rw [IdRoute.misroutes_iff fun s => (starts_apart s []).2.1] at halert
  rw [IdRoute.misroutes_iff fun s => (starts_apart [] s).2.2] at hbaseline
  constructor
  · intro hmatches
    simpa [hmatches] using halert
  · intro hmatches
    simpa [hmatches] using hbaseline

/-- The surface has the grammar that it should have at every path but the misroutes. -/
theorem routed_exactly_iff (hservice : handler.service = some service)
    (hauthenticator : handler.authenticator = some authenticator)
    (hprincipal : (authorize authenticator request : Except (ApiResponse Host) Principal) =
      .ok principal)
    (hrole : principal.role.allows .operator = true) (hmethod : request.method = "POST") :
    RoutedExactly handler request ↔ ¬ Misrouted request.path := by
  have hcases := serveHTTP_post hservice hauthenticator hprincipal hrole hmethod
  constructor
  · rintro hexact (hmisrouted | hmisrouted)
    · obtain ⟨hmatches, hnone⟩ :=
        (IdRoute.misroutes_iff fun s => (starts_apart s []).2.1).mp hmisrouted
      obtain ⟨-, note, response, hserve⟩ | ⟨hother, -⟩ | ⟨hno, -⟩ := hcases
      · obtain ⟨-, hquiet⟩ := hexact.others hnone fun x hnames =>
          not_matches_both ⟨hmatches, hnames.matches⟩
        rw [hserve] at hquiet
        cases hquiet _ List.mem_cons_self
      · exact not_matches_both ⟨hmatches, hother⟩
      · exact hno hmatches
    · obtain ⟨hmatches, hnone⟩ :=
        (IdRoute.misroutes_iff fun s => (starts_apart [] s).2.2).mp hmisrouted
      obtain ⟨hother, -⟩ | ⟨-, calls, response, hserve, hfound, -⟩ | ⟨-, hno, -⟩ := hcases
      · exact not_matches_both ⟨hother, hmatches⟩
      · obtain ⟨⟨title, hmissing⟩, -⟩ := hexact.others
          (fun x hnames => not_matches_both ⟨hnames.matches, hmatches⟩) hnone
        rw [hserve] at hmissing
        exact hfound title hmissing
      · exact hno hmatches
  · intro hnot
    obtain ⟨hnamedAlert, hnamedBaseline⟩ := not_misrouted hnot
    obtain ⟨hmatches, note, response, hserve⟩ |
      ⟨hmatches, calls, response, hserve, -, hcalls, hack⟩ | ⟨halert, hbaseline, title, hserve⟩ :=
        hcases
    · obtain ⟨x, hx⟩ := hnamedAlert hmatches
      rw [hx.id_eq] at hserve
      refine ⟨fun y => ?_, fun _ y => ?_, fun hnone => absurd hx (hnone x)⟩
      · rw [hserve]
        constructor
        · rintro ⟨p, n, hmem⟩
          obtain ⟨-, rfl, -⟩ : p = principal ∧ y = x ∧ n = note := by simpa using hmem
          exact hx
        · intro hy
          exact ⟨principal, note, by rw [← hy.id_eq, hx.id_eq]; exact List.mem_cons_self⟩
      · rw [hserve]
        constructor
        · rintro ⟨p, hmem⟩
          simp at hmem
        · intro hy
          exact absurd ⟨hmatches, hy.matches⟩ not_matches_both
    · obtain ⟨x, hx⟩ := hnamedBaseline hmatches
      rw [hx.id_eq] at hcalls hack
      refine ⟨fun y => ?_, fun hdiff y => ?_, fun _ hnone => absurd hx (hnone x)⟩
      · rw [hserve]
        constructor
        · rintro ⟨p, n, hmem⟩
          cases hcalls _ hmem
        · intro hy
          exact absurd ⟨hy.matches, hmatches⟩ not_matches_both
      · rw [hserve, hack hdiff]
        constructor
        · rintro ⟨p, hmem⟩
          obtain ⟨-, rfl⟩ : p = principal ∧ y = x := by simpa using hmem
          exact hx
        · intro hy
          exact ⟨principal, by rw [← hy.id_eq, hx.id_eq]; exact List.mem_cons_self⟩
    · refine ⟨fun y => ?_, fun _ y => ?_, fun _ _ => ?_⟩
      · rw [hserve]
        exact ⟨fun hmem => by simp at hmem, fun hy => absurd hy.matches halert⟩
      · rw [hserve]
        exact ⟨fun hmem => by simp at hmem, fun hy => absurd hy.matches hbaseline⟩
      · rw [hserve]
        exact ⟨⟨title, rfl⟩, by simp⟩

end Routing

section Witness

/-- A service that accepts every call, for one operator. -/
def operatorHandler : Handler Unit where
  service := some ⟨fun _ => some [], fun _ _ => none, fun _ _ _ => true, fun _ _ _ => true,
    fun _ _ _ => true⟩
  authenticator := some fun _ => some ⟨"operator-1", .operator⟩

def postRequest (path : String) : ApiRequest :=
  ⟨"POST", utf8 path, [("Authorization", utf8 "Bearer token")], ⟨[], .eof⟩⟩

theorem named_alert_routed_exactly :
    RoutedExactly operatorHandler (postRequest "/api/v1/alerts/disk-full/acknowledge") := by
  refine (routed_exactly_iff rfl rfl rfl rfl rfl).mpr ?_
  rintro (hmisrouted | hmisrouted)
  · obtain ⟨-, hnone⟩ := (IdRoute.misroutes_iff fun s => (starts_apart s []).2.1).mp hmisrouted
    exact hnone (utf8 "disk-full") ⟨by decide, by decide, by decide⟩
  · obtain ⟨hmatches, -⟩ := (IdRoute.misroutes_iff fun s => (starts_apart [] s).2.2).mp hmisrouted
    exact absurd hmatches.1 (by decide)

/-- The path has no id, and the alert `acknowledge` is acknowledged. -/
theorem shared_slash_not_routed_exactly :
    ¬ RoutedExactly operatorHandler (postRequest "/api/v1/alerts/acknowledge") := by
  intro hexact
  have hcall : ServiceCall.acknowledgeAlert ⟨"operator-1", .operator⟩ (utf8 "acknowledge") [] ∈
      (serveHTTP operatorHandler (postRequest "/api/v1/alerts/acknowledge")).1 := by
    decide
  have hnames := (hexact.alerts (utf8 "acknowledge")).mp ⟨_, _, hcall⟩
  exact absurd hnames.1 (by decide)

end Witness

end NodeScope.Control
