import NodeScope.Ingest.Session
import NodeScope.Ingest.StoreFailure
import NodeScope.Lib.Machine

/-!
# An envelope is stored at most once, and an acknowledged one is stored

`Inv` holds in every state of every run of the system: a key has at most one row, no
two transactions hold one lock, every call is sound, at most one transaction of a key
took effect, and whatever the agent saw acknowledged is stored. A key whose row was
pruned is free again and is left out.
-/

namespace NodeScope.Ingest

open Storage Lib Lib.Check Telemetry App Agent

/-- The key is in the database, or was until it was pruned. -/
def Stored (db : Db) (pruned : List String) (k : String) : Prop := k ∈ pruned ∨ 1 ≤ rows db k

/-- What holds of a request: its submission is what was read from it, its call is sound
and made for that submission, and a success was the result of the call. -/
structure Handler.Sound (db : Db) (pruned : List String) (h : Handler) : Prop where
  read : ∀ submission, h.submission = some submission →
    readSubmission h.server h.request = .ok submission
  session : ∀ s, h.session = some s → Ingest.Sound db pruned s
  envelope : ∀ s, h.session = some s → ∃ token, h.submission = some (token, s.call.envelope)
  success : ∀ response, h.response = some response → response.status < 300 →
    ∃ s r, h.session = some s ∧ s.result = some (.ok r)

/-- The key of a transaction that took effect. -/
def Handler.committedKey (h : Handler) : Option String :=
  match h.session with
  | some s =>
      match s.stage with
      | .committed _ => some s.key
      | _ => none
  | none => none

theorem Handler.committedKey_eq_some {h : Handler} {k : String} :
    h.committedKey = some k ↔
      ∃ s raw, h.session = some s ∧ s.stage = .committed raw ∧ s.key = k := by
  cases hs : h.session with
  | none => simp [Handler.committedKey, hs]
  | some s => cases hstage : s.stage <;> simp [Handler.committedKey, hs, hstage]

/-- What holds of a run of `Send`: it carries the encoding of its envelope, and an
acknowledged envelope was noted. -/
def SendSound (sys : System) (acknowledged : List Envelope) (e : Envelope) : Sending → Prop
  | .choosing payload _ _ => encodeCompressedEnvelope sys.codec e = .ok payload
  | .asking payload _ _ _ => encodeCompressedEnvelope sys.codec e = .ok payload
  | .returned none => e ∈ acknowledged
  | .returned (some _) => True

structure AgentState.Sound (sys : System) (handlers : List Handler) (db : Db)
    (pruned : List String) (a : AgentState) : Prop where
  sending : ∀ e attempt send, a.delivery = some (e, .sending attempt send) →
    SendSound sys a.acknowledged e send
  flight : ∀ j, a.flight = some j → ∃ e attempt payload endpoint rest failures h,
    a.delivery = some (e, .sending attempt (.asking payload endpoint rest failures)) ∧
      handlers[j]? = some h ∧ h.request = ingestRequest sys.sender payload ∧
      h.server.codec = sys.codec
  attempts : ∀ e request, (e, request) ∈ a.attempts → ∃ payload,
    encodeCompressedEnvelope sys.codec e = .ok payload ∧ request = ingestRequest sys.sender payload
  acknowledged : ∀ e ∈ a.acknowledged, Stored db pruned e.idempotencyKey
  delivered : ∀ e ∈ a.delivered, e ∈ a.acknowledged

structure Inv (sys : System) (s : State) : Prop where
  unique : ∀ k, rows s.db k ≤ 1
  handlers : ∀ (j : Nat) h, s.handlers[j]? = some h → h.Sound s.db s.pruned
  exclusive : ∀ (i j : Nat) g h x, i ≠ j → s.handlers[i]? = some g → s.handlers[j]? = some h →
    g.lock sys = some x → h.lock sys ≠ some x
  single : ∀ (i j : Nat) g h k, s.handlers[i]? = some g → s.handlers[j]? = some h →
    g.committedKey = some k → h.committedKey = some k → k ∉ s.pruned → i = j
  agent : s.agent.Sound sys s.handlers s.db s.pruned

theorem inv_init (sys : System) {db : Db} (hdb : ∀ k, rows db k ≤ 1) : Inv sys (.init db) where
  unique := hdb
  handlers := by simp [State.init]
  exclusive := by simp [State.init]
  single := by simp [State.init]
  agent := ⟨by simp [State.init], by simp [State.init], by simp [State.init],
    by simp [State.init], by simp [State.init]⟩

section Database

variable {sys : System} {s : State}

/-- The database changes and rows only disappear, as far as they are noted as pruned. -/
theorem Inv.changeDb (h : Inv sys s) {db' : Db} {pruned' : List String}
    (hrows : ∀ k, rows db' k ≤ rows s.db k) (hpruned : ∀ k ∈ s.pruned, k ∈ pruned')
    (hstored : ∀ k, Stored s.db s.pruned k → Stored db' pruned' k) :
    Inv sys { s with db := db', pruned := pruned' } where
  unique := fun k => le_trans (hrows k) (h.unique k)
  handlers := by
    intro j g hg
    have hsound := h.handlers j g hg
    refine ⟨hsound.read, ?_, hsound.envelope, hsound.success⟩
    intro x hx
    refine (hsound.session x hx).mono ?_ (hstored x.key)
    intro _ hzero
    exact Nat.le_zero.mp (hzero ▸ hrows x.key)
  exclusive := h.exclusive
  single := by
    intro i j g g' k hi hj hg hg' hk
    exact h.single i j g g' k hi hj hg hg' fun hmem => hk (hpruned k hmem)
  agent := by
    refine ⟨h.agent.sending, h.agent.flight, h.agent.attempts, ?_, h.agent.delivered⟩
    intro e he
    exact hstored _ (h.agent.acknowledged e he)

theorem rows_congr {db db' : Db} (hbatches : db'.telemetryBatches = db.telemetryBatches)
    (hreceipts : db'.ingestReceipts = db.ingestReceipts) (k : String) :
    rows db' k = rows db k := by
  rw [rows, rows, hbatches, hreceipts]

/-- A change of the other tables does not matter. -/
theorem Inv.changeOther (h : Inv sys s) {db' : Db}
    (hbatches : db'.telemetryBatches = s.db.telemetryBatches)
    (hreceipts : db'.ingestReceipts = s.db.ingestReceipts) : Inv sys { s with db := db' } := by
  have hrows := rows_congr hbatches hreceipts
  refine h.changeDb (fun k => (hrows k).le) (fun k hk => hk) ?_
  intro k hk
  rwa [Stored, hrows]

theorem rows_prune_le (db : Db) (dbNow : Int) (k : String) :
    rows (pruneExpired db dbNow) k ≤ rows db k := by
  have hle : ((db.telemetryBatches.filter fun b => decide (dbNow < b.expiresAt)).countP
      fun r => r.idempotencyKey == k) ≤ db.telemetryBatches.countP fun r => r.idempotencyKey == k :=
    (List.filter_sublist (l := db.telemetryBatches)).countP_le
  simp only [rows, pruneExpired]
  omega

theorem rows_prune_eq {db : Db} {dbNow : Int} {k : String} (hk : k ∉ prunedKeys db dbNow) :
    rows (pruneExpired db dbNow) k = rows db k := by
  have heq : ((db.telemetryBatches.filter fun b => decide (dbNow < b.expiresAt)).countP
      fun r => r.idempotencyKey == k) = db.telemetryBatches.countP fun r => r.idempotencyKey == k := by
    rw [List.countP_filter]
    apply List.countP_congr
    intro b hb
    simp only [Bool.and_eq_true, decide_eq_true_eq, and_iff_left_iff_imp, beq_iff_eq]
    intro hbk
    by_contra hexpired
    apply hk
    rw [prunedKeys, ← hbk]
    exact List.mem_map_of_mem (List.mem_filter.mpr ⟨hb, by simpa using hexpired⟩)
  simp only [rows, pruneExpired, heq]

theorem Inv.prune (h : Inv sys s) (dbNow : Int) :
    Inv sys { s with
      db := pruneExpired s.db dbNow
      pruned := s.pruned ++ prunedKeys s.db dbNow } := by
  refine h.changeDb (rows_prune_le s.db dbNow) (fun k hk => List.mem_append_left _ hk) ?_
  rintro k (hk | hk)
  · exact Or.inl (List.mem_append_left _ hk)
  · by_cases hp : k ∈ prunedKeys s.db dbNow
    · exact Or.inl (List.mem_append_right _ hp)
    · refine Or.inr ?_
      rwa [rows_prune_eq hp]

end Database

section Requests

variable {sys : System} {s : State} {j : Nat} {h h' : Handler}

/-- The agent is not concerned by a step of a request, as long as rows stay. -/
theorem AgentState.Sound.set {handlers : List Handler} {db db' : Db} {pruned : List String}
    {a : AgentState} (ha : a.Sound sys handlers db pruned) (hj : handlers[j]? = some h)
    (hserver : h'.server = h.server) (hrequest : h'.request = h.request)
    (hstored : ∀ k, Stored db pruned k → Stored db' pruned k) :
    a.Sound sys (handlers.set j h') db' pruned := by
  refine ⟨ha.sending, ?_, ha.attempts, fun e he => hstored _ (ha.acknowledged e he), ha.delivered⟩
  intro i hi
  obtain ⟨e, attempt, payload, endpoint, rest, failures, g, hdelivery, hg, hgreq, hgcodec⟩ :=
    ha.flight i hi
  by_cases hij : i = j
  · subst hij
    obtain rfl : h = g := Option.some.inj (hj.symm.trans hg)
    have hlt : i < handlers.length := (List.getElem?_eq_some_iff.mp hj).1
    exact ⟨e, attempt, payload, endpoint, rest, failures, h', hdelivery,
      List.getElem?_set_self hlt, hrequest.trans hgreq, by rw [hserver, hgcodec]⟩
  · exact ⟨e, attempt, payload, endpoint, rest, failures, g, hdelivery,
      (List.getElem?_set_ne (Ne.symm hij)).trans hg, hgreq, hgcodec⟩

/-- A request takes a step that leaves the database alone: it stays sound, takes no lock
another request holds, and nothing takes effect. -/
theorem Inv.updateHandler (hinv : Inv sys s) (hj : s.handlers[j]? = some h)
    (hsound : h'.Sound s.db s.pruned) (hserver : h'.server = h.server)
    (hrequest : h'.request = h.request)
    (hlock : ∀ x, h'.lock sys = some x → h.lock sys = some x ∨
      ∀ (i : Nat) g, i ≠ j → s.handlers[i]? = some g → g.lock sys ≠ some x)
    (hcommitted : ∀ k, h'.committedKey = some k → h.committedKey = some k) :
    Inv sys { s with handlers := s.handlers.set j h' } := by
  have hlocked : ∀ x, h'.lock sys = some x → ∀ (i : Nat) g, i ≠ j → s.handlers[i]? = some g →
      g.lock sys ≠ some x := by
    intro x hx i g hij hg
    rcases hlock x hx with hold | hfree
    · intro hgx
      exact hinv.exclusive i j g h x hij hg hj hgx hold
    · exact hfree i g hij hg
  refine ⟨hinv.unique, ?_, ?_, ?_, ?_⟩
  · intro i g hg
    rcases Machine.getElem?_set_cases hg with ⟨-, rfl⟩ | ⟨-, hg⟩
    · exact hsound
    · exact hinv.handlers i g hg
  · intro i i' g g' x hne hg hg' hx hx'
    rcases Machine.getElem?_set_cases hg with ⟨rfl, rfl⟩ | ⟨hij, hold⟩
    · rcases Machine.getElem?_set_cases hg' with ⟨rfl, -⟩ | ⟨hij', hold'⟩
      · exact hne rfl
      · exact hlocked x hx i' g' hij' hold' hx'
    · rcases Machine.getElem?_set_cases hg' with ⟨rfl, rfl⟩ | ⟨-, hold'⟩
      · exact hlocked x hx' i g hij hold hx
      · exact hinv.exclusive i i' g g' x hne hold hold' hx hx'
  · intro i i' g g' k hg hg' hk hk' hpruned
    rcases Machine.getElem?_set_cases hg with ⟨rfl, rfl⟩ | ⟨-, hold⟩
    · rcases Machine.getElem?_set_cases hg' with ⟨rfl, -⟩ | ⟨-, hold'⟩
      · rfl
      · exact hinv.single i i' h g' k hj hold' (hcommitted k hk) hk' hpruned
    · rcases Machine.getElem?_set_cases hg' with ⟨rfl, rfl⟩ | ⟨-, hold'⟩
      · exact hinv.single i i' g h k hold hj hk (hcommitted k hk') hpruned
      · exact hinv.single i i' g g' k hold hold' hk hk' hpruned
  · exact hinv.agent.set hj hserver hrequest fun k hk => hk

/-- A new request changes nothing for the others. -/
theorem Inv.append (hinv : Inv sys s) (server : Server) (request : Request) :
    Inv sys { s with handlers := s.handlers ++ [.arrive server request] } := by
  have hnew : (Handler.arrive server request).Sound s.db s.pruned ∧
      (Handler.arrive server request).session = none := by
    cases hread : readSubmission server request with
    | error response =>
        simp only [Handler.arrive, hread]
        refine ⟨⟨by simp, by simp, by simp, ?_⟩, trivial⟩
        rintro r hr hstatus
        obtain rfl : response = r := Option.some.inj hr
        exact absurd (readSubmission_error_status hread) (by omega)
    | ok submission =>
        simp only [Handler.arrive, hread]
        refine ⟨⟨?_, by simp, by simp, by simp⟩, trivial⟩
        rintro submission' hsubmission
        rw [← Option.some.inj hsubmission]
        exact hread
  have hlock : (Handler.arrive server request).lock sys = none := by
    rw [Handler.lock, hnew.2]
  have hcommitted : (Handler.arrive server request).committedKey = none := by
    rw [Handler.committedKey, hnew.2]
  have hget : ∀ (i : Nat) g, (s.handlers ++ [Handler.arrive server request])[i]? = some g →
      s.handlers[i]? = some g ∨ (g = .arrive server request) := by
    intro i g hg
    rcases Nat.lt_or_ge i s.handlers.length with hlt | hge
    · rw [List.getElem?_append_left hlt] at hg
      exact Or.inl hg
    · rw [List.getElem?_append_right hge] at hg
      exact Or.inr (List.mem_singleton.mp (List.mem_of_getElem? hg))
  refine ⟨hinv.unique, ?_, ?_, ?_, ?_⟩
  · intro i g hg
    rcases hget i g hg with hg | rfl
    · exact hinv.handlers i g hg
    · exact hnew.1
  · intro i i' g g' x hne hg hg' hx hx'
    rcases hget i g hg with hg | rfl
    · rcases hget i' g' hg' with hg' | rfl
      · exact hinv.exclusive i i' g g' x hne hg hg' hx hx'
      · exact absurd (hlock.symm.trans hx') (by simp)
    · exact absurd (hlock.symm.trans hx) (by simp)
  · intro i i' g g' k hg hg' hk hk' hpruned
    rcases hget i g hg with hg | rfl
    · rcases hget i' g' hg' with hg' | rfl
      · exact hinv.single i i' g g' k hg hg' hk hk' hpruned
      · exact absurd (hcommitted.symm.trans hk') (by simp)
    · exact absurd (hcommitted.symm.trans hk) (by simp)
  · refine ⟨hinv.agent.sending, ?_, hinv.agent.attempts, hinv.agent.acknowledged,
      hinv.agent.delivered⟩
    intro i hi
    obtain ⟨e, attempt, payload, endpoint, rest, failures, g, hdelivery, hg, hrest⟩ :=
      hinv.agent.flight i hi
    have hlt : i < s.handlers.length := (List.getElem?_eq_some_iff.mp hg).1
    exact ⟨e, attempt, payload, endpoint, rest, failures, g, hdelivery,
      (List.getElem?_append_left hlt).trans hg, hrest⟩

theorem State.updateHandler_eq_some {f : Handler → Option Handler} {s' : State}
    (hstep : s.updateHandler j f = some s') :
    ∃ h h', s.handlers[j]? = some h ∧ f h = some h' ∧
      s' = { s with handlers := s.handlers.set j h' } := by
  simp only [State.updateHandler, Option.bind_eq_bind, Option.bind_eq_some_iff,
    Option.some.injEq] at hstep
  obtain ⟨h, hj, h', hf, rfl⟩ := hstep
  exact ⟨h, h', hj, hf, rfl⟩

/-- The call of a request takes a step that keeps it sound. -/
theorem Inv.advance (hinv : Inv sys s) {x x' : Session} (hj : s.handlers[j]? = some h)
    (hx : h.session = some x) (hsound : Ingest.Sound s.db s.pruned x') (hcall : x'.call = x.call)
    (hresult : ∀ r, x.result = some r → x'.result = some r)
    (hholds : x'.stage.holds = true → x.stage.holds = true ∨ s.lockFree sys j x.key = true)
    (hcommitted : ∀ raw, x'.stage = .committed raw → x.stage = .committed raw) :
    Inv sys { s with handlers := s.handlers.set j { h with session := some x' } } := by
  have hold := hinv.handlers j h hj
  have hkey : x'.key = x.key := by rw [Session.key, Session.key, hcall]
  refine hinv.updateHandler hj ⟨hold.read, ?_, ?_, ?_⟩ rfl rfl ?_ ?_
  · intro y hy
    rw [← Option.some.inj hy]
    exact hsound
  · intro y hy
    rw [← Option.some.inj hy, hcall]
    exact hold.envelope x hx
  · intro response hresponse hstatus
    obtain ⟨y, r, hy, hr⟩ := hold.success response hresponse hstatus
    obtain rfl : x = y := Option.some.inj (hx.symm.trans hy)
    exact ⟨x', r, rfl, hresult _ hr⟩
  · intro lock hlock
    simp only [Handler.lock] at hlock
    obtain ⟨hstage, hlock⟩ := Option.ite_none_right_eq_some.mp hlock
    rcases hholds hstage with hheld | hfree
    · left
      rw [Handler.lock, hx]
      simp only [hheld, if_true]
      rw [← hlock, hkey]
    · right
      intro i g hij hg
      rw [State.lockFree, List.all_eq_true] at hfree
      have hne := hfree g (List.mem_eraseIdx_iff_getElem?.mpr ⟨i, hij, hg⟩)
      rw [← hlock, hkey]
      simpa using hne
  · intro k hk
    simp only [Handler.committedKey] at hk ⊢
    rw [hx]
    cases hstage : x'.stage with
    | committed raw =>
        rw [hstage] at hk
        simp only [hcommitted raw hstage]
        rwa [← hkey]
    | _ => simp [hstage] at hk

theorem Inv.next (hinv : Inv sys s) {s' : State} (hstep : step sys s (.next j) = some s') :
    Inv sys s' := by
  obtain ⟨h, h', hj, hadvance, rfl⟩ := State.updateHandler_eq_some hstep
  cases hx : h.session with
  | none => simp [Handler.advance, hx] at hadvance
  | some x =>
      simp only [Handler.advance, hx, Option.map_eq_some_iff] at hadvance
      obtain ⟨x', hnext, rfl⟩ := hadvance
      obtain ⟨hsound, hcall, hholds⟩ := ((hinv.handlers j h hj).session x hx).next hnext
      refine hinv.advance hj hx hsound hcall ?_ hholds ?_
      · intro r hr
        rw [(Session.next_cases hnext).1] at hr
        exact absurd hr (by simp)
      · intro raw hstage
        obtain ⟨-, ⟨t, hmove, rfl⟩ | ⟨e, rfl⟩ | ⟨e, -, rfl⟩ | ⟨-, -, rfl⟩ | ⟨_, -, rfl⟩⟩ :=
          Session.next_cases hnext
        · exact absurd hstage (hmove.ne_committed raw)
        · exact hstage
        · exact absurd hstage (by simp [Session.returns])
        · exact hstage
        · exact hstage

theorem Inv.lose (hinv : Inv sys s) {s' : State} (hstep : step sys s (.lose j) = some s') :
    Inv sys s' := by
  obtain ⟨h, h', hj, hadvance, rfl⟩ := State.updateHandler_eq_some hstep
  cases hx : h.session with
  | none => simp [Handler.advance, hx] at hadvance
  | some x =>
      simp only [Handler.advance, hx, Option.map_eq_some_iff] at hadvance
      obtain ⟨x', hlose, rfl⟩ := hadvance
      obtain ⟨hsound, hcall, hstage⟩ := ((hinv.handlers j h hj).session x hx).lose hlose
      refine hinv.advance hj hx hsound hcall ?_ ?_ ?_
      · intro r hr
        simp [Session.lose, hr] at hlose
      · intro hholds
        rw [hstage] at hholds
        exact Or.inl hholds
      · intro raw hraw
        rwa [hstage] at hraw

theorem Inv.authenticate (hinv : Inv sys s) {s' : State} {lost : Bool} {store database : Int}
    (hstep : step sys s (.authenticate j lost store database) = some s') : Inv sys s' := by
  obtain ⟨h, h', hj, hauth, rfl⟩ := State.updateHandler_eq_some hstep
  have hold := hinv.handlers j h hj
  obtain ⟨server, request, submission, session, response⟩ := h
  cases submission with
  | none => simp [Handler.authenticate] at hauth
  | some submission =>
    cases session with
    | some x => simp [Handler.authenticate] at hauth
    | none =>
      cases response with
      | some r => simp [Handler.authenticate] at hauth
      | none =>
        obtain ⟨token, envelope⟩ := submission
        simp only [Handler.authenticate] at hauth
        cases ha : authenticateAgent (fun _ => lost) s.db token with
        | error e =>
            simp only [ha, Option.some.injEq] at hauth
            subst hauth
            refine hinv.updateHandler hj ⟨hold.read, by simp, by simp, ?_⟩ rfl rfl ?_ ?_
            · intro r hr hstatus
              rw [← Option.some.inj hr] at hstatus
              exact absurd hstatus (by simp [Response.status])
            · simp [Handler.lock]
            · simp [Handler.committedKey]
        | ok identity =>
            simp only [ha, Option.some.injEq] at hauth
            subst hauth
            refine hinv.updateHandler hj ⟨hold.read, ?_, ?_, by simp⟩ rfl rfl ?_ ?_
            · rintro y hy
              rw [← Option.some.inj hy]
              exact ⟨by simp [Stage.pastCheck], trivial, by simp, by simp, by simp⟩
            · rintro y hy
              rw [← Option.some.inj hy]
              exact ⟨token, rfl⟩
            · simp [Handler.lock, Stage.holds]
            · simp [Handler.committedKey]

theorem Inv.answer (hinv : Inv sys s) {s' : State} {observedAt : Int}
    (hstep : step sys s (.answer j observedAt) = some s') : Inv sys s' := by
  obtain ⟨h, h', hj, hanswer, rfl⟩ := State.updateHandler_eq_some hstep
  have hold := hinv.handlers j h hj
  obtain ⟨server, request, submission, session, response⟩ := h
  cases session with
  | none => simp [Handler.answer] at hanswer
  | some x =>
    cases response with
    | some r => simp [Handler.answer] at hanswer
    | none =>
      cases hresult : x.result with
      | none => simp [Handler.answer, hresult] at hanswer
      | some result =>
        simp only [Handler.answer, hresult, Option.some.injEq] at hanswer
        subst hanswer
        refine hinv.updateHandler hj ⟨hold.read, hold.session, hold.envelope, ?_⟩ rfl rfl ?_ ?_
        · intro r hr hstatus
          rw [← Option.some.inj hr] at hstatus
          cases result with
          | error e => exact absurd hstatus (by simp [App.answer, Response.status])
          | ok persisted => exact ⟨x, persisted, rfl, hresult⟩
        · exact fun lock hlock => Or.inl hlock
        · exact fun k hk => hk

/-- A commit takes effect: the key of its transaction was absent and is now there once.
No other call can have missed it, since the lock was held. -/
theorem Inv.commit (hinv : Inv sys s) {x : Session} {raw : Bool} {own : List Put}
    (hj : s.handlers[j]? = some h) (hx : h.session = some x)
    (hstage : x.stage = .committing raw own) :
    Inv sys { s with
      db := s.db.puts own
      handlers := s.handlers.set j { h with session := some { x with stage := .committed raw } } } := by
  have hold := hinv.handlers j h hj
  have hsound := hold.session x hx
  have habsent : rows s.db x.key = 0 := hsound.fresh (by rw [hstage]; rfl)
  have hrows : ∀ k, rows (s.db.puts own) k = rows s.db k + if k = x.key then 1 else 0 :=
    hsound.rows_commit hstage
  have hlock : h.lock sys = some (sys.lockHash x.key) := by
    rw [Handler.lock, hx]
    simp [hstage, Stage.holds]
  have hstored : ∀ k, Stored s.db s.pruned k → Stored (s.db.puts own) s.pruned k := by
    rintro k (hk | hk)
    · exact Or.inl hk
    · refine Or.inr ?_
      rw [hrows]
      omega
  have hothers : ∀ (i : Nat) g y, i ≠ j → s.handlers[i]? = some g → g.session = some y →
      y.stage.pastCheck = true → y.key ≠ x.key := by
    intro i g y hij hg hy hpast hkey
    have hglock : g.lock sys = some (sys.lockHash x.key) := by
      have hholds : y.stage.holds = true := y.stage.holds_of_pastCheck hpast
      rw [Handler.lock, hy]
      simp [hholds, hkey]
    exact hinv.exclusive i j g h _ hij hg hj hglock hlock
  have halone : ∀ (i : Nat) g, s.handlers[i]? = some g → g.committedKey = some x.key →
      x.key ∉ s.pruned → False := by
    intro i g hg hcommitted hpruned
    obtain ⟨y, raw', hy, hystage, hykey⟩ := Handler.committedKey_eq_some.mp hcommitted
    rcases ((hinv.handlers i g hg).session y hy).stored raw' hystage with hmem | hrow
    · rw [hykey] at hmem
      exact hpruned hmem
    · rw [hykey, habsent] at hrow
      exact absurd hrow (by omega)
  refine ⟨?_, ?_, ?_, ?_, hinv.agent.set hj rfl rfl hstored⟩
  · intro k
    have hk := hinv.unique k
    simp only [hrows]
    by_cases hkx : k = x.key
    · rw [if_pos hkx, hkx, habsent]
    · rw [if_neg hkx]
      exact hk
  · intro i g hg
    rcases Machine.getElem?_set_cases hg with ⟨rfl, rfl⟩ | ⟨hij, hgold⟩
    · refine ⟨hold.read, ?_, ?_, ?_⟩
      · intro y hy
        rw [← Option.some.inj hy]
        exact hsound.commit hstage
      · intro y hy
        rw [← Option.some.inj hy]
        exact hold.envelope x hx
      · intro response hresponse hstatus
        obtain ⟨y, r, hy, hr⟩ := hold.success response hresponse hstatus
        obtain rfl : x = y := Option.some.inj (hx.symm.trans hy)
        exact ⟨_, r, rfl, hr⟩
    · have hgsound := hinv.handlers i g hgold
      refine ⟨hgsound.read, ?_, hgsound.envelope, hgsound.success⟩
      intro y hy
      refine (hgsound.session y hy).mono ?_ (hstored y.key)
      intro hpast hzero
      rw [hrows, hzero, if_neg (hothers i g y hij hgold hy hpast)]
  · intro i i' g g' lock hne hg hg' hl hl'
    rcases Machine.getElem?_set_cases hg with ⟨rfl, rfl⟩ | ⟨-, hgold⟩
    · simp [Handler.lock, Stage.holds] at hl
    · rcases Machine.getElem?_set_cases hg' with ⟨rfl, rfl⟩ | ⟨-, hgold'⟩
      · simp [Handler.lock, Stage.holds] at hl'
      · exact hinv.exclusive i i' g g' lock hne hgold hgold' hl hl'
  · intro i i' g g' k hg hg' hk hk' hpruned
    rcases Machine.getElem?_set_cases hg with ⟨rfl, rfl⟩ | ⟨-, hgold⟩
    · rcases Machine.getElem?_set_cases hg' with ⟨rfl, -⟩ | ⟨-, hgold'⟩
      · rfl
      · obtain rfl : x.key = k := Option.some.inj hk
        exact (halone i' g' hgold' hk' hpruned).elim
    · rcases Machine.getElem?_set_cases hg' with ⟨rfl, rfl⟩ | ⟨-, hgold'⟩
      · obtain rfl : x.key = k := Option.some.inj hk'
        exact (halone i g hgold hk hpruned).elim
      · exact hinv.single i i' g g' k hgold hgold' hk hk' hpruned

theorem State.finish_eq_some {commit : Bool} {s' : State} (hstep : s.finish j commit = some s') :
    ∃ h x x' db', s.handlers[j]? = some h ∧ h.session = some x ∧
      x.finish s.db commit = some (x', db') ∧
      s' = { s with
        db := db'
        handlers := s.handlers.set j { h with session := some x' } } := by
  simp only [State.finish, Option.bind_eq_bind, Option.bind_eq_some_iff, Option.some.injEq] at hstep
  obtain ⟨h, hj, x, hx, ⟨x', db'⟩, hfinish, rfl⟩ := hstep
  exact ⟨h, x, x', db', hj, hx, hfinish, rfl⟩

theorem Inv.finish (hinv : Inv sys s) {s' : State} {commit : Bool}
    (hstep : step sys s (.finish j commit) = some s') : Inv sys s' := by
  obtain ⟨h, x, x', db', hj, hx, hfinish, rfl⟩ := State.finish_eq_some hstep
  rcases Session.finish_cases hfinish with ⟨rfl, rfl, hstage⟩ | ⟨raw, own, hstage, rfl, rfl⟩
  · have hsound := ((hinv.handlers j h hj).session x hx).rollBack hstage
    exact hinv.advance hj hx hsound rfl (fun r hr => hr) (by simp [Stage.holds]) (by simp)
  · exact hinv.commit hj hx hstage

end Requests

section Agent

variable {sys : System} {s : State} {a' : AgentState}

/-- A success the agent gets for its request is the result of a call for the key of its
envelope, so the key is stored. -/
theorem Handler.Sound.stored (hcodec : sys.codec.Faithful) {db : Db} {pruned : List String}
    {h : Handler} (hsound : h.Sound db pruned) {response : Response}
    (hresponse : h.response = some response) (hstatus : response.status < 300) {e : Envelope}
    {payload : List UInt8} (hrequest : h.request = ingestRequest sys.sender payload)
    (hserver : h.server.codec = sys.codec)
    (hencode : encodeCompressedEnvelope sys.codec e = .ok payload) :
    Stored db pruned e.idempotencyKey := by
  obtain ⟨x, ⟨inserted, raw⟩, hx, hresult⟩ := hsound.success response hresponse hstatus
  obtain ⟨token, hsubmission⟩ := hsound.envelope x hx
  have hread := hsound.read _ hsubmission
  rw [hrequest] at hread
  obtain ⟨-, hdecode⟩ := readSubmission_ingestRequest hread
  rw [hserver] at hdecode
  have hkey : x.key = e.idempotencyKey := idempotencyKey_of_decode hcodec hencode hdecode
  have hcall := hsound.session x hx
  rw [← hkey]
  cases inserted with
  | true => exact hcall.stored raw (hcall.inserted raw hresult)
  | false => exact (hcall.found raw hresult).2

theorem startSend_sound (acknowledged : List Envelope) (e : Envelope) :
    SendSound sys acknowledged e (startSend sys.codec sys.sender e) := by
  rw [startSend]
  cases h : encodeCompressedEnvelope sys.codec e with
  | error error => trivial
  | ok payload => exact h

theorem choose_sound {e : Envelope} {payload : List UInt8}
    (h : encodeCompressedEnvelope sys.codec e = .ok payload) (acknowledged : List Envelope)
    (circuits : Circuits) (now : Int) (rest failures : List String) :
    SendSound sys acknowledged e (Agent.choose circuits now (.choosing payload rest failures)) := by
  cases rest with
  | nil => trivial
  | cons endpoint rest =>
      cases ha : endpointAvailable circuits now endpoint with
      | true =>
          simp only [Agent.choose, ha, if_true]
          exact h
      | false =>
          simp only [Agent.choose, ha, Bool.false_eq_true, if_false]
          exact h

theorem settle_ne_sending (policy : RetryPolicy) (attempt : Nat) (error : Option DeliveryError)
    (attempt' : Nat) (send : Sending) :
    Agent.settle policy (.sending attempt (.returned error)) ≠ .sending attempt' send := by
  cases error with
  | none => simp [Agent.settle]
  | some error =>
      simp only [Agent.settle]
      split <;> simp

/-- A delivery ends without an error only after a `Send` that did. -/
theorem settle_eq_finished_none {policy : RetryPolicy} {attempt : Nat}
    {error : Option DeliveryError}
    (h : Agent.settle policy (.sending attempt (.returned error)) = .finished none) :
    error = none := by
  cases error with
  | none => rfl
  | some error =>
      simp only [Agent.settle] at h
      split at h <;> exact absurd h (by simp)

/-- The agent moves to another place of its loops without a request in flight. -/
theorem Inv.moveAgent (hinv : Inv sys s) (hflight : a'.flight = none)
    (hsending : ∀ e attempt send, a'.delivery = some (e, .sending attempt send) →
      SendSound sys s.agent.acknowledged e send)
    (hattempts : ∀ e request, (e, request) ∈ a'.attempts → (e, request) ∈ s.agent.attempts ∨
      ∃ payload, encodeCompressedEnvelope sys.codec e = .ok payload ∧
        request = ingestRequest sys.sender payload)
    (hacknowledged : a'.acknowledged = s.agent.acknowledged)
    (hdelivered : ∀ e ∈ a'.delivered, e ∈ s.agent.delivered ∨ e ∈ s.agent.acknowledged) :
    Inv sys { s with agent := a' } := by
  refine ⟨hinv.unique, hinv.handlers, hinv.exclusive, hinv.single, ?_⟩
  refine ⟨?_, by simp [hflight], ?_, ?_, ?_⟩
  · rw [hacknowledged]
    exact hsending
  · intro e request hmem
    rcases hattempts e request hmem with hmem | hnew
    · exact hinv.agent.attempts e request hmem
    · exact hnew
  · rw [hacknowledged]
    exact hinv.agent.acknowledged
  · intro e he
    rw [hacknowledged]
    exact (hdelivered e he).elim (hinv.agent.delivered e) id

/-- A request is in flight only while the agent waits for its outcome. -/
theorem AgentState.Sound.flight_eq_none {handlers : List Handler} {db : Db} {pruned : List String}
    {a : AgentState} (ha : a.Sound sys handlers db pruned)
    (hdelivery : ∀ e attempt payload endpoint rest failures,
      a.delivery ≠ some (e, .sending attempt (.asking payload endpoint rest failures))) :
    a.flight = none := by
  cases hflight : a.flight with
  | none => rfl
  | some j =>
      obtain ⟨e, attempt, payload, endpoint, rest, failures, -, h, -⟩ := ha.flight j hflight
      exact absurd h (hdelivery e attempt payload endpoint rest failures)

/-- What the outcome of a request does to the agent: a success is noted, and anything
else sends it back to its loop or to its caller with an error. -/
theorem AgentState.receive_cases {a : AgentState} {now : Int} {reply : Reply}
    (h : a.receive sys now reply = some a') :
    ∃ e attempt payload endpoint rest failures,
      a.delivery = some (e, .sending attempt (.asking payload endpoint rest failures)) ∧
      a'.flight = none ∧ a'.attempts = a.attempts ∧ a'.delivered = a.delivered ∧
      ((∃ code, reply = .status code ∧ successStatus code = true ∧
          a'.delivery = some (e, .sending attempt (.returned none)) ∧
          a'.acknowledged = a.acknowledged ++ [e]) ∨
        (a'.acknowledged = a.acknowledged ∧
          ((∃ failures', a'.delivery = some (e, .sending attempt (.choosing payload rest failures'))) ∨
            ∃ error, a'.delivery = some (e, .sending attempt (.returned (some error)))))) := by
  obtain ⟨circuits, delivery, flight, attempts, acknowledged, delivered⟩ := a
  match delivery, h with
  | some (e, .sending attempt (.asking payload endpoint rest failures)), h =>
    refine ⟨e, attempt, payload, endpoint, rest, failures, rfl, ?_⟩
    simp only [AgentState.receive, Option.some.injEq] at h
    subst h
    refine ⟨rfl, rfl, rfl, ?_⟩
    cases reply with
    | invalidRequest => exact Or.inr ⟨by simp [Agent.receive], Or.inr ⟨_, rfl⟩⟩
    | transport => exact Or.inr ⟨by simp [Agent.receive], Or.inl ⟨_, rfl⟩⟩
    | status code =>
        cases hs : successStatus code with
        | true => exact Or.inl ⟨code, rfl, hs, by simp [Agent.receive, hs], by simp [Agent.receive, hs]⟩
        | false =>
            right
            cases hp : permanentStatus code with
            | true =>
                exact ⟨by simp [Agent.receive, hs, hp],
                  Or.inr ⟨⟨"ingestion rejected", false, code⟩, by simp [Agent.receive, hs, hp]⟩⟩
            | false =>
                exact ⟨by simp [Agent.receive, hs, hp],
                  Or.inl ⟨failures ++ [endpoint ++ ": status " ++ Nat.repr code],
                    by simp [Agent.receive, hs, hp]⟩⟩

/-- The outcome of a request. The success of a reply comes from a handler, so that the
envelope it acknowledges is stored. -/
theorem Inv.receive (hinv : Inv sys s) {now : Int} {reply : Reply}
    (hreceive : s.agent.receive sys now reply = some a')
    (hstored : ∀ code e attempt payload endpoint rest failures,
      reply = .status code → successStatus code = true →
      s.agent.delivery = some (e, .sending attempt (.asking payload endpoint rest failures)) →
      Stored s.db s.pruned e.idempotencyKey) : Inv sys { s with agent := a' } := by
  obtain ⟨e, attempt, payload, endpoint, rest, failures, hdelivery, hflight, hattempts, hdelivered,
    hcases⟩ := AgentState.receive_cases hreceive
  have hencode := hinv.agent.sending e attempt _ hdelivery
  rcases hcases with ⟨code, hcode, hsuccess, hnext, hack⟩ | ⟨hack, hnext⟩
  · have hkey := hstored code e attempt payload endpoint rest failures hcode hsuccess hdelivery
    refine ⟨hinv.unique, hinv.handlers, hinv.exclusive, hinv.single, ?_⟩
    refine ⟨?_, by simp [hflight], ?_, ?_, ?_⟩
    · intro e' attempt' send h
      simp only [hnext, Option.some.injEq, Prod.mk.injEq, Delivery.sending.injEq] at h
      obtain ⟨rfl, rfl, rfl⟩ := h
      rw [hack]
      exact List.mem_append_right _ List.mem_cons_self
    · rw [hattempts]
      exact hinv.agent.attempts
    · intro e' he'
      rw [hack, List.mem_append, List.mem_singleton] at he'
      rcases he' with he' | rfl
      · exact hinv.agent.acknowledged e' he'
      · exact hkey
    · intro e' he'
      rw [hdelivered] at he'
      rw [hack]
      exact List.mem_append_left _ (hinv.agent.delivered e' he')
  · refine hinv.moveAgent hflight ?_ ?_ hack ?_
    · intro e' attempt' send h
      rcases hnext with ⟨failures', hnext⟩ | ⟨error, hnext⟩
      · simp only [hnext, Option.some.injEq, Prod.mk.injEq, Delivery.sending.injEq] at h
        obtain ⟨rfl, rfl, rfl⟩ := h
        exact hencode
      · simp only [hnext, Option.some.injEq, Prod.mk.injEq, Delivery.sending.injEq] at h
        obtain ⟨rfl, rfl, rfl⟩ := h
        trivial
    · rw [hattempts]
      exact fun e' request h => Or.inl h
    · rw [hdelivered]
      exact fun e' h => Or.inl h

theorem Inv.reply (hcodec : sys.codec.Faithful) (hinv : Inv sys s) {s' : State} {now : Int}
    (hstep : step sys s (.reply now) = some s') : Inv sys s' := by
  simp only [step, State.reply, Option.bind_eq_bind, Option.bind_eq_some_iff,
    Option.some.injEq] at hstep
  obtain ⟨j, hflight, h, hj, response, hresponse, a', hreceive, rfl⟩ := hstep
  refine hinv.receive hreceive ?_
  intro code e attempt payload endpoint rest failures hcode hsuccess hdelivery
  obtain ⟨e', attempt', payload', _, _, _, g, hdelivery', hg, hrequest, hserver⟩ :=
    hinv.agent.flight j hflight
  obtain rfl : h = g := Option.some.inj (hj.symm.trans hg)
  simp only [hdelivery, Option.some.injEq, Prod.mk.injEq, Delivery.sending.injEq,
    Sending.asking.injEq] at hdelivery'
  obtain ⟨rfl, -, rfl, -⟩ := hdelivery'
  have hstatus : response.status < 300 := by
    rw [← Reply.status.inj hcode] at hsuccess
    simp only [successStatus, Bool.and_eq_true, decide_eq_true_eq] at hsuccess
    exact hsuccess.2
  exact (hinv.handlers j h hj).stored hcodec hresponse hstatus hrequest hserver
    (hinv.agent.sending e attempt _ hdelivery)

theorem Inv.noReply (hinv : Inv sys s) {s' : State} {now : Int} {reply : Reply}
    (hstep : step sys s (.noReply now reply) = some s') : Inv sys s' := by
  simp only [step] at hstep
  obtain ⟨hreply, hstep⟩ := Option.ite_none_right_eq_some.mp hstep
  obtain ⟨a', hreceive, rfl⟩ := Option.map_eq_some_iff.mp hstep
  refine hinv.receive hreceive ?_
  intro code e attempt payload endpoint rest failures hcode
  rcases hreply with rfl | rfl <;> exact absurd hcode (by simp)

theorem Inv.deliver (hinv : Inv sys s) {s' : State} (hstep : step sys s .deliver = some s') :
    Inv sys s' := by
  simp only [step, State.deliver] at hstep
  split at hstep
  · rename_i e attempt payload endpoint rest failures hdelivery hflight
    obtain rfl := Option.some.inj hstep
    have happend := hinv.append (sys.replica (sys.route endpoint)) (ingestRequest sys.sender payload)
    refine ⟨happend.unique, happend.handlers, happend.exclusive, happend.single, ?_⟩
    refine ⟨happend.agent.sending, ?_, happend.agent.attempts, happend.agent.acknowledged,
      happend.agent.delivered⟩
    intro j hj
    obtain rfl : s.handlers.length = j := Option.some.inj hj
    refine ⟨e, attempt, payload, endpoint, rest, failures, _, hdelivery,
      List.getElem?_concat_length, ?_, ?_⟩
    · rw [Handler.arrive]
      cases readSubmission (sys.replica (sys.route endpoint)) (ingestRequest sys.sender payload) <;>
        rfl
    · rw [Handler.arrive]
      cases readSubmission (sys.replica (sys.route endpoint)) (ingestRequest sys.sender payload) <;>
        rfl
  · exact absurd hstep (by simp)

theorem Inv.choose (hinv : Inv sys s) {s' : State} {now : Int}
    (hstep : step sys s (.choose now) = some s') : Inv sys s' := by
  obtain ⟨a', hchoose, rfl⟩ := Option.map_eq_some_iff.mp hstep
  simp only [AgentState.choose] at hchoose
  split at hchoose
  · rename_i e attempt payload rest failures hdelivery
    obtain rfl := Option.some.inj hchoose
    have hflight : s.agent.flight = none := hinv.agent.flight_eq_none (by simp [hdelivery])
    have hencode : encodeCompressedEnvelope sys.codec e = .ok payload :=
      hinv.agent.sending e attempt _ hdelivery
    refine hinv.moveAgent hflight ?_ ?_ rfl fun e' he' => Or.inl he'
    · intro e' attempt' send h
      simp only [Option.some.injEq, Prod.mk.injEq, Delivery.sending.injEq] at h
      obtain ⟨rfl, rfl, rfl⟩ := h
      exact choose_sound hencode s.agent.acknowledged s.agent.circuits now rest failures
    · intro e' request hmem
      simp only at hmem
      split at hmem
      · rename_i payload' _ _ _ hsend
        rcases List.mem_append.mp hmem with hmem | hmem
        · exact Or.inl hmem
        · simp only [List.mem_singleton, Prod.mk.injEq] at hmem
          obtain ⟨rfl, rfl⟩ := hmem
          have hsound :=
            choose_sound hencode s.agent.acknowledged s.agent.circuits now rest failures
          rw [hsend] at hsound
          exact Or.inr ⟨payload', hsound, rfl⟩
      · exact Or.inl hmem
  · exact absurd hchoose (by simp)

theorem Inv.settle (hinv : Inv sys s) {s' : State} (hstep : step sys s .settle = some s') :
    Inv sys s' := by
  obtain ⟨a', hsettle, rfl⟩ := Option.map_eq_some_iff.mp hstep
  simp only [AgentState.settle] at hsettle
  split at hsettle
  · rename_i e attempt error hdelivery
    obtain rfl := Option.some.inj hsettle
    have hflight : s.agent.flight = none := hinv.agent.flight_eq_none (by simp [hdelivery])
    have hreturned := hinv.agent.sending e attempt _ hdelivery
    refine hinv.moveAgent hflight ?_ (fun e' request h => Or.inl h) rfl ?_
    · intro e' attempt' send h
      simp only [Option.some.injEq, Prod.mk.injEq] at h
      exact absurd h.2 (settle_ne_sending sys.policy attempt error attempt' send)
    · intro e' he'
      simp only at he'
      split at he'
      · rename_i hfinished
        rcases List.mem_append.mp he' with he' | he'
        · exact Or.inl he'
        · obtain rfl := List.mem_singleton.mp he'
          obtain rfl := settle_eq_finished_none hfinished
          exact Or.inr hreturned
      · exact Or.inl he'
  · exact absurd hsettle (by simp)

theorem Inv.wake (hinv : Inv sys s) {s' : State} {cancelled : Bool}
    (hstep : step sys s (.wake cancelled) = some s') : Inv sys s' := by
  obtain ⟨a', hwake, rfl⟩ := Option.map_eq_some_iff.mp hstep
  simp only [AgentState.wake] at hwake
  split at hwake
  · rename_i e attempt lastErr hdelivery
    obtain rfl := Option.some.inj hwake
    have hflight : s.agent.flight = none := hinv.agent.flight_eq_none (by simp [hdelivery])
    refine hinv.moveAgent hflight ?_ (fun e' request h => Or.inl h) rfl fun e' he' => Or.inl he'
    intro e' attempt' send h
    cases cancelled with
    | true => simp [Agent.wake] at h
    | false =>
        simp only [Agent.wake, Bool.false_eq_true, if_false, Option.some.injEq, Prod.mk.injEq,
          Delivery.sending.injEq] at h
        obtain ⟨rfl, -, rfl⟩ := h
        exact startSend_sound s.agent.acknowledged e
  · exact absurd hwake (by simp)

theorem Inv.collect (hinv : Inv sys s) {s' : State} {e : Envelope}
    (hstep : step sys s (.collect e) = some s') : Inv sys s' := by
  obtain ⟨a', hcollect, rfl⟩ := Option.map_eq_some_iff.mp hstep
  have hstart : ∀ e' attempt send, (some (e, startDelivery sys.codec sys.sender e) :
      Option (Envelope × Delivery)) = some (e', .sending attempt send) →
      SendSound sys s.agent.acknowledged e' send := by
    intro e' attempt send h
    simp only [startDelivery, Option.some.injEq, Prod.mk.injEq, Delivery.sending.injEq] at h
    obtain ⟨rfl, -, rfl⟩ := h
    exact startSend_sound s.agent.acknowledged e
  simp only [AgentState.collect] at hcollect
  split at hcollect
  · rename_i hdelivery
    obtain rfl := Option.some.inj hcollect
    have hflight : s.agent.flight = none := hinv.agent.flight_eq_none (by simp [hdelivery])
    exact hinv.moveAgent hflight hstart (fun e' request h => Or.inl h) rfl fun e' h => Or.inl h
  · rename_i hdelivery
    obtain rfl := Option.some.inj hcollect
    have hflight : s.agent.flight = none := hinv.agent.flight_eq_none (by simp [hdelivery])
    exact hinv.moveAgent hflight hstart (fun e' request h => Or.inl h) rfl fun e' h => Or.inl h
  · exact absurd hcollect (by simp)

end Agent

/-- Every step of the system keeps the invariant. -/
theorem Inv.step {sys : System} (hcodec : sys.codec.Faithful) {s s' : State} (hinv : Inv sys s)
    {label : Label} (hstep : Ingest.step sys s label = some s') : Inv sys s' := by
  cases label with
  | arrive which request =>
      obtain rfl := Option.some.inj hstep
      exact hinv.append (sys.replica which) request
  | authenticate j lost store database => exact hinv.authenticate hstep
  | next j => exact hinv.next hstep
  | lose j => exact hinv.lose hstep
  | finish j commit => exact hinv.finish hstep
  | answer j observedAt => exact hinv.answer hstep
  | capacity status =>
      obtain rfl := Option.some.inj hstep
      exact hinv.changeOther rfl rfl
  | credentials change =>
      obtain rfl := Option.some.inj hstep
      obtain ⟨hbatches, hreceipts⟩ := change.apply_telemetry s.db
      exact hinv.changeOther hbatches hreceipts
  | prune dbNow =>
      obtain rfl := Option.some.inj hstep
      exact hinv.prune dbNow
  | collect e => exact hinv.collect hstep
  | choose now => exact hinv.choose hstep
  | deliver => exact hinv.deliver hstep
  | reply now => exact hinv.reply hcodec hstep
  | noReply now reply => exact hinv.noReply hstep
  | settle => exact hinv.settle hstep
  | wake cancelled => exact hinv.wake hstep
  | restart =>
      obtain rfl := Option.some.inj hstep
      exact hinv.moveAgent rfl (by simp) (fun e request h => Or.inl h) rfl fun e h => Or.inl h

/-- The runs of the system are those of its step function as a machine. -/
theorem run_eq_machine (sys : System) (s : State) (labels : List Label) :
    run sys s labels = Machine.run (step sys) s labels := by
  induction labels generalizing s with
  | nil => rfl
  | cons label rest ih => simp only [run, Machine.run, ih]

theorem Inv.run {sys : System} (hcodec : sys.codec.Faithful) {s s' : State} (hinv : Inv sys s)
    {labels : List Label} (hrun : Ingest.run sys s labels = some s') : Inv sys s' := by
  rw [run_eq_machine] at hrun
  exact Machine.invariant_run (fun _ _ _ hstep h => h.step hcodec hstep) hrun hinv

/-- The call made for a request. -/
def State.session (s : State) (j : Nat) : Option Session := s.handlers[j]?.bind Handler.session

/-- The request a step belongs to. -/
def Label.handler : Label → Option Nat
  | .authenticate j _ _ _ => some j
  | .next j => some j
  | .lose j => some j
  | .finish j _ => some j
  | .answer j _ => some j
  | _ => none

/-- The transaction of a request took effect. -/
def State.tookEffect (s : State) (j : Nat) : Prop :=
  ∃ x raw, s.session j = some x ∧ x.stage = .committed raw

theorem session_set {s : State} {j : Nat} {h : Handler} (hj : s.handlers[j]? = some h) (i : Nat)
    (h' : Handler) :
    (s.handlers.set j h')[i]?.bind Handler.session =
      if i = j then h'.session else s.session i := by
  by_cases hij : i = j
  · subst hij
    have hlt : i < s.handlers.length := (List.getElem?_eq_some_iff.mp hj).1
    rw [List.getElem?_set_self hlt, if_pos rfl]
    rfl
  · rw [List.getElem?_set_ne (Ne.symm hij), if_neg hij]
    rfl

/-- A step that belongs to no request at most brings a new one. -/
theorem handlers_of_step {sys : System} {s s' : State} {label : Label}
    (hstep : step sys s label = some s') (hlabel : label.handler = none) :
    ∃ arrived, s'.handlers = s.handlers ++ arrived := by
  cases label with
  | arrive which request =>
      obtain rfl := Option.some.inj hstep
      exact ⟨[_], rfl⟩
  | deliver =>
      simp only [step, State.deliver] at hstep
      split at hstep
      · obtain rfl := Option.some.inj hstep
        exact ⟨[_], rfl⟩
      · cases hstep
  | reply now =>
      simp only [step, State.reply, Option.bind_eq_bind, Option.bind_eq_some_iff,
        Option.some.injEq] at hstep
      obtain ⟨_, -, _, -, _, -, a', -, rfl⟩ := hstep
      exact ⟨[], (List.append_nil _).symm⟩
  | noReply now reply =>
      obtain ⟨-, hstep⟩ := Option.ite_none_right_eq_some.mp hstep
      obtain ⟨a', -, rfl⟩ := Option.map_eq_some_iff.mp hstep
      exact ⟨[], (List.append_nil _).symm⟩
  | capacity _ | credentials _ | prune _ | restart =>
      obtain rfl := Option.some.inj hstep
      exact ⟨[], (List.append_nil _).symm⟩
  | collect _ | choose _ | settle | wake _ =>
      obtain ⟨a', -, rfl⟩ := Option.map_eq_some_iff.mp hstep
      exact ⟨[], (List.append_nil _).symm⟩
  | authenticate _ _ _ _ | next _ | lose _ | finish _ _ | answer _ _ => cases hlabel

theorem tookEffect_append {s s' : State} {i : Nat} {arrived : List Handler}
    (hhandlers : s'.handlers = s.handlers ++ arrived) (heffect : s.tookEffect i) :
    s'.tookEffect i := by
  obtain ⟨x, raw, hx, hstage⟩ := heffect
  obtain ⟨h, hh, hsession⟩ := Option.bind_eq_some_iff.mp hx
  have hlt : i < s.handlers.length := (List.getElem?_eq_some_iff.mp hh).1
  refine ⟨x, raw, ?_, hstage⟩
  rw [State.session, hhandlers, List.getElem?_append_left hlt]
  exact hx

/-- A step of one request is not seen by the calls of the others, and a transaction that
took effect stays so. -/
theorem tookEffect_updateHandler {s s' : State} {i j : Nat} {f : Handler → Option Handler}
    (hstep : s.updateHandler j f = some s')
    (hkept : ∀ h h' x raw, f h = some h' → h.session = some x → x.stage = .committed raw →
      ∃ x', h'.session = some x' ∧ x'.stage = .committed raw)
    (heffect : s.tookEffect i) : s'.tookEffect i := by
  obtain ⟨h, h', hj, hf, rfl⟩ := State.updateHandler_eq_some hstep
  obtain ⟨x, raw, hx, hstage⟩ := heffect
  have hset := session_set hj i h'
  by_cases hij : i = j
  · subst hij
    rw [if_pos rfl] at hset
    rw [State.session, hj] at hx
    obtain ⟨x', hx', hstage'⟩ := hkept h h' x raw hf hx hstage
    exact ⟨x', raw, hset.trans hx', hstage'⟩
  · rw [if_neg hij] at hset
    exact ⟨x, raw, hset.trans hx, hstage⟩

theorem Handler.authenticate_session {db : Db} {lost : Bool} {store database : Int}
    {h h' : Handler} (hf : h.authenticate db lost store database = some h') : h.session = none := by
  simp only [Handler.authenticate] at hf
  split at hf
  · assumption
  · exact absurd hf (by simp)

theorem Handler.answer_session {observedAt : Int} {h h' : Handler}
    (hf : h.answer observedAt = some h') : h'.session = h.session := by
  simp only [Handler.answer] at hf
  split at hf
  · split at hf
    · rw [← Option.some.inj hf]
    · exact absurd hf (by simp)
  · exact absurd hf (by simp)

theorem Session.next_committed {db : Db} {lockFree : Bool} {x x' : Session} {raw : Bool}
    (h : x.next db lockFree = some x') (hstage : x.stage = .committed raw) :
    x'.stage = .committed raw := by
  obtain ⟨-, ⟨t, hmove, -⟩ | ⟨e, rfl⟩ | ⟨e, hidle, -⟩ | ⟨-, -, rfl⟩ | ⟨_, -, rfl⟩⟩ :=
    Session.next_cases h
  · rw [hstage] at hmove
    cases hmove
  · exact hstage
  · exact absurd (hstage.symm.trans hidle) (by simp)
  · exact hstage
  · exact hstage

theorem tookEffect_step {sys : System} {s s' : State} {label : Label} {i : Nat}
    (hstep : step sys s label = some s') (heffect : s.tookEffect i) : s'.tookEffect i := by
  cases label with
  | authenticate j lost store database =>
      refine tookEffect_updateHandler hstep ?_ heffect
      intro h h' y raw' hf hy hystage
      rw [Handler.authenticate_session hf] at hy
      cases hy
  | next j =>
      refine tookEffect_updateHandler hstep ?_ heffect
      intro h h' y raw' hf hy hystage
      simp only [Handler.advance, hy, Option.map_eq_some_iff] at hf
      obtain ⟨y', hnext, rfl⟩ := hf
      exact ⟨y', rfl, Session.next_committed hnext hystage⟩
  | lose j =>
      refine tookEffect_updateHandler hstep ?_ heffect
      intro h h' y raw' hf hy hystage
      simp only [Handler.advance, hy, Option.map_eq_some_iff] at hf
      obtain ⟨y', hlose, rfl⟩ := hf
      obtain ⟨-, hlose⟩ := Option.ite_none_left_eq_some.mp hlose
      exact ⟨y', rfl, by rw [← Option.some.inj hlose]; exact hystage⟩
  | finish j commit =>
      obtain ⟨x, raw, hx, hstage⟩ := heffect
      obtain ⟨h, y, y', db', hj, hy, hfinish, rfl⟩ := State.finish_eq_some hstep
      have hset := session_set hj i { h with session := some y' }
      by_cases hij : i = j
      · subst hij
        rw [State.session, hj] at hx
        obtain rfl : y = x := Option.some.inj (hy.symm.trans hx)
        rcases Session.finish_cases hfinish with ⟨-, -, hnot⟩ | ⟨_, _, hcommitting, -⟩
        · exact absurd hstage (hnot raw)
        · rw [hcommitting] at hstage
          cases hstage
      · rw [if_neg hij] at hset
        exact ⟨x, raw, hset.trans hx, hstage⟩
  | answer j observedAt =>
      refine tookEffect_updateHandler hstep ?_ heffect
      intro h h' y raw' hf hy hystage
      exact ⟨y, (Handler.answer_session hf).trans hy, hystage⟩
  | _ =>
      obtain ⟨arrived, hhandlers⟩ := handlers_of_step hstep rfl
      exact tookEffect_append hhandlers heffect

theorem tookEffect_run {sys : System} {s s' : State} {labels : List Label} {i : Nat}
    (hrun : run sys s labels = some s') (heffect : s.tookEffect i) : s'.tookEffect i := by
  rw [run_eq_machine] at hrun
  exact Machine.invariant_run (fun _ _ _ hstep h => tookEffect_step hstep h) hrun heffect

/-- A step of a request changes the database only by making its commit take effect. -/
theorem db_of_step {sys : System} {s s' : State} {label : Label} {j : Nat}
    (hstep : step sys s label = some s') (hlabel : label.handler = some j) :
    s'.db = s.db ∨ s'.tookEffect j := by
  have hupdate : ∀ {f : Handler → Option Handler}, s.updateHandler j f = some s' → s'.db = s.db := by
    intro f hf
    obtain ⟨_, _, -, -, rfl⟩ := State.updateHandler_eq_some hf
    rfl
  cases label with
  | authenticate i lost store database =>
      obtain rfl : i = j := Option.some.inj hlabel
      exact Or.inl (hupdate hstep)
  | next i =>
      obtain rfl : i = j := Option.some.inj hlabel
      exact Or.inl (hupdate hstep)
  | lose i =>
      obtain rfl : i = j := Option.some.inj hlabel
      exact Or.inl (hupdate hstep)
  | answer i observedAt =>
      obtain rfl : i = j := Option.some.inj hlabel
      exact Or.inl (hupdate hstep)
  | finish i commit =>
      obtain rfl : i = j := Option.some.inj hlabel
      obtain ⟨h, x, x', db', hj, hx, hfinish, rfl⟩ := State.finish_eq_some hstep
      rcases Session.finish_cases hfinish with ⟨-, rfl, -⟩ | ⟨raw, own, -, rfl, -⟩
      · exact Or.inl rfl
      · refine Or.inr ⟨_, raw, (session_set hj i _).trans (if_pos rfl), rfl⟩
  | _ => exact absurd hlabel (by simp [Label.handler])

theorem run_append {sys : System} {s s₁ s' : State} {before after : List Label}
    (hrun : run sys s (before ++ after) = some s') (hbefore : run sys s before = some s₁) :
    run sys s₁ after = some s' := by
  rw [run_eq_machine] at hrun hbefore ⊢
  obtain ⟨s₂, hbefore', hafter⟩ := Machine.run_append_eq_some.mp hrun
  obtain rfl : s₁ = s₂ := Option.some.inj (hbefore.symm.trans hbefore')
  exact hafter

/-- Ingestion is at most once and loses no acknowledgement, in every state of every run
from a database that holds every key at most once. A key that was pruned is left out. -/
theorem ingestion_at_most_once (sys : System) (hcodec : sys.codec.Faithful) {db : Db}
    (hdb : ∀ k, rows db k ≤ 1) {labels : List Label} {s : State}
    (hrun : run sys (.init db) labels = some s) :
    (∀ k, k ∉ s.pruned → rows s.db k ≤ 1 ∧
      ∀ i j x y raw raw', s.session i = some x → s.session j = some y → x.key = k → y.key = k →
        x.result = some (.ok ⟨true, raw⟩) → y.result = some (.ok ⟨true, raw'⟩) → i = j) ∧
    (∀ j x, s.session j = some x →
      (∃ raw, x.result = some (.ok ⟨false, raw⟩)) ∨
        ((∃ e, x.result = some (.error e)) ∧ ∀ raw, x.stage ≠ .committed raw) →
      ∀ before label after s₁ s₂, labels = before ++ label :: after →
        run sys (.init db) before = some s₁ → step sys s₁ label = some s₂ →
        label.handler = some j → s₂.db = s₁.db) ∧
    (∀ e, e ∈ s.agent.acknowledged ∨ e ∈ s.agent.delivered → e.idempotencyKey ∉ s.pruned →
      rows s.db e.idempotencyKey = 1) ∧
    ∀ e request request', (e, request) ∈ s.agent.attempts → (e, request') ∈ s.agent.attempts →
      request = request' ∧ ∀ d, decodeCompressedEnvelope sys.codec request.body = .ok d →
        d.idempotencyKey = e.idempotencyKey := by
  have hinv : Inv sys s := (inv_init sys hdb).run hcodec hrun
  have hcall : ∀ j x, s.session j = some x →
      ∃ h, s.handlers[j]? = some h ∧ h.session = some x ∧ Sound s.db s.pruned x := by
    intro j x hx
    obtain ⟨h, hj, hsession⟩ := Option.bind_eq_some_iff.mp hx
    exact ⟨h, hj, hsession, (hinv.handlers j h hj).session x hsession⟩
  refine ⟨?_, ?_, ?_, ?_⟩
  · intro k hk
    refine ⟨hinv.unique k, ?_⟩
    intro i j x y raw raw' hx hy hxk hyk hxresult hyresult
    obtain ⟨g, hi, hg, hxsound⟩ := hcall i x hx
    obtain ⟨h, hj, hh, hysound⟩ := hcall j y hy
    have hgkey : g.committedKey = some k :=
      Handler.committedKey_eq_some.mpr ⟨x, raw, hg, hxsound.inserted raw hxresult, hxk⟩
    have hhkey : h.committedKey = some k :=
      Handler.committedKey_eq_some.mpr ⟨y, raw', hh, hysound.inserted raw' hyresult, hyk⟩
    exact hinv.single i j g h k hi hj hgkey hhkey hk
  · intro j x hx hreturned before label after s₁ s₂ hlabels hbefore hstep hhandler
    have hnot : ∀ raw, x.stage ≠ .committed raw := by
      rcases hreturned with ⟨raw, hresult⟩ | ⟨-, hnot⟩
      · obtain ⟨-, -, -, hsound⟩ := hcall j x hx
        rcases (hsound.found raw hresult).1 with hstage | hstage
        · simp [hstage]
        · simp [hstage]
      · exact hnot
    rcases db_of_step hstep hhandler with hdb | heffect
    · exact hdb
    · rw [hlabels] at hrun
      obtain ⟨s₃, hstep', hafter⟩ := Option.bind_eq_some_iff.mp (run_append hrun hbefore)
      obtain rfl : s₂ = s₃ := Option.some.inj (hstep.symm.trans hstep')
      obtain ⟨y, raw, hy, hstage⟩ := tookEffect_run hafter heffect
      obtain rfl : x = y := Option.some.inj (hx.symm.trans hy)
      exact absurd hstage (hnot raw)
  · intro e he hpruned
    have hack : e ∈ s.agent.acknowledged := he.elim id (hinv.agent.delivered e)
    rcases hinv.agent.acknowledged e hack with hmem | hrow
    · exact absurd hmem hpruned
    · exact le_antisymm (hinv.unique _) hrow
  · intro e request request' hrequest hrequest'
    obtain ⟨payload, hencode, rfl⟩ := hinv.agent.attempts e request hrequest
    obtain ⟨payload', hencode', rfl⟩ := hinv.agent.attempts e request' hrequest'
    obtain rfl : payload = payload' := Except.ok.inj (hencode.symm.trans hencode')
    exact ⟨rfl, fun d hdecode => idempotencyKey_of_decode hcodec hencode hdecode⟩

def twoReplicas : System where
  codec := Proto.storedCodec
  config := fun which => ⟨if which then "replica-2" else "replica-1", false⟩
  decodeJSON := fun _ _ => none
  route := fun endpoint => endpoint == "https://two"
  sender := twoEndpoints
  policy := defaultRetryPolicy
  lockHash := fun key => key.length

/-- The first replica stores the reading and its reply is lost; the second one finds the
key and says so. -/
def lostReply : List Label :=
  [.collect reading, .choose 0, .deliver,
    .authenticate 0 false (Time.seconds 100) (Time.sqlSeconds 100)] ++
    List.replicate 8 (.next 0) ++
    [.finish 0 true, .noReply 0 .transport, .choose 0, .deliver,
      .authenticate 1 false (Time.seconds 101) (Time.sqlSeconds 101), .next 1, .next 1, .next 1,
      .answer 1 0, .reply 0, .settle]

theorem lostReply_stored_once :
    ∃ s, run twoReplicas (.init enrolledDb) lostReply = some s ∧ s.agent.delivered = [reading] ∧
      rows s.db reading.idempotencyKey = 1 := by
  have heval : (run twoReplicas (.init enrolledDb) lostReply).map
      (fun s => (s.agent.delivered, s.pruned)) = some ([reading], []) := by
    decide +kernel
  obtain ⟨s, hrun, hs⟩ := Option.map_eq_some_iff.mp heval
  obtain ⟨hdelivered, hpruned⟩ := Prod.mk.inj hs
  have hempty : ∀ k, rows enrolledDb k ≤ 1 := fun k => Nat.zero_le 1
  obtain ⟨-, -, hstored, -⟩ :=
    ingestion_at_most_once twoReplicas Proto.storedCodec_faithful hempty hrun
  refine ⟨s, hrun, hdelivered, hstored reading ?_ ?_⟩
  · rw [hdelivered]
    exact Or.inr List.mem_cons_self
  · simp [hpruned]

end NodeScope.Ingest
