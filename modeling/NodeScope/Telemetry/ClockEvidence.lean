import NodeScope.Lib.Machine
import NodeScope.Telemetry.LatestState
import NodeScope.Telemetry.StoreInvariant

/-!
# Who writes the clock offset

With every accepted envelope the server writes its own sample about the agent's clock. It does so
with the upsert that writes the agent's samples, and no check keeps an agent from using the same
device and metric, with a time up to a minute ahead. `clockWriter` follows which of the offered
samples is stored under that key; `serverOwned_iff` says that in a run it is always the server's
exactly if each accepted envelope has no sample under the key that is above the stored row and not
below the server's, and a later clock is later in the order of the upsert too.

## Implementation notes

The events say whether a submission is accepted, so that a run of submissions is one list of
events. Between them the registry changes and batches are pruned. The receipts are the accepted
calls, which no table keeps.
-/

namespace NodeScope.Telemetry

open Domain Storage Lib Lib.Check Lib.Time

section Model

/-- What has written a row under the server's key. -/
inductive ClockWriter where
  | sample (c : Call) (s : Sample)
  | server (c : Call)
deriving DecidableEq

def ClockWriter.row (hostId : Uuid) : ClockWriter → LatestRow
  | .sample c s => latestRow c.dbNow hostId s
  | .server c => latestRow c.dbNow hostId (clockOffsetSample c.envelope.observedAt c.now)

/-- The samples of an envelope under the server's key. -/
def clockSamples (e : Envelope) : List Sample :=
  e.samples.filter fun s => decide ((s.deviceID, s.metric.name) = clockKey)

/-- What an accepted call offers under the key, the server's sample last. -/
def clockOffers (c : Call) : List ClockWriter :=
  (clockSamples c.envelope).map (.sample c) ++ [.server c]

/-- What is stored under the key after some receipts. -/
def clockWriter (hostId : Uuid) (receipts : List Call) : Option ClockWriter :=
  ((receipts.filter fun c => decide (callHost c = some hostId)).flatMap clockOffers).foldl
    (Table.keep fun x y => latestReplaces (x.row hostId) (y.row hostId)) none

def clockRow (db : Db) (hostId : Uuid) : Option LatestRow :=
  latestAt db hostId clockKey.1 clockKey.2

structure ClockRun where
  db : Db
  receipts : List Call
deriving DecidableEq

def ClockRun.initial : ClockRun := ⟨Db.empty, []⟩

inductive ClockEvent where
  | receive (c : Call)
  | refuse (c : Call)
  | enroll (hosts : List HostRow) (agents : List AgentRow)
  | prune (dbNow : Int)

def clockStep (s : ClockRun) : ClockEvent → Option ClockRun
  | .receive c =>
      if inserted (serve s.db c).1 then some ⟨(serve s.db c).2, s.receipts ++ [c]⟩ else none
  | .refuse c =>
      if inserted (serve s.db c).1 then none else some ⟨(serve s.db c).2, s.receipts⟩
  | .enroll hosts agents => some { s with db := { s.db with hosts := hosts, agents := agents } }
  | .prune dbNow => some { s with db := pruneExpired s.db dbNow }

end Model

section Statements

/-- The row of the host is the server's own, written with the receipt. -/
def ClockRun.Describes (s : ClockRun) (hostId : Uuid) (c : Call) : Prop :=
  c ∈ s.receipts ∧ callHost c = some hostId ∧
    clockWriter hostId s.receipts = some (.server c) ∧
    clockRow s.db hostId =
      some (latestRow c.dbNow hostId (clockOffsetSample c.envelope.observedAt c.now))

/-- The replica's clock is later than at all earlier receipts of the host. -/
def ClockRun.Later (s : ClockRun) (hostId : Uuid) (c : Call) : Prop :=
  ∀ r ∈ s.receipts, callHost r = some hostId → r.now < c.now

/-- After a step the row of every host, if there is one, is the server's own, and after an accepted
envelope with a later clock it is that of the envelope's receipt. -/
def ServerOwned (s : ClockRun) (e : ClockEvent) : Prop :=
  ∀ s' ∈ clockStep s e,
    (∀ hostId, clockRow s'.db hostId = none ∨ ∃ c, s'.Describes hostId c) ∧
      ∀ c, e = .receive c → ∀ hostId ∈ callHost c, s.Later hostId c → s'.Describes hostId c

def sampleRank (s : Sample) : Int ×ₗ Nat :=
  latestRank (toTimestamp s.metric.observedAt) s.metric.quality

/-- The rank of the server's sample about a call. -/
def clockRank (c : Call) : Int ×ₗ Nat :=
  sampleRank (clockOffsetSample c.envelope.observedAt c.now)

/-- A sample under the server's key is not above the stored row, or below the server's own sample;
and with a later clock the stored row is below it too. -/
def ClockReserved (s : ClockRun) : ClockEvent → Prop
  | .receive c => ∀ hostId ∈ callHost c,
      (∀ x ∈ clockSamples c.envelope,
        (∃ row ∈ clockRow s.db hostId, sampleRank x ≤ latestRowRank row) ∨
          sampleRank x < clockRank c) ∧
      (s.Later hostId c → ∀ row ∈ clockRow s.db hostId, latestRowRank row < clockRank c)
  | .refuse _ | .enroll _ _ | .prune _ => True

end Statements

section Ledger

/-- The guard of the upsert is the strict order of ranks. -/
theorem latestReplaces_iff_lt (stored excluded : LatestRow) :
    latestReplaces stored excluded = true ↔ latestRowRank stored < latestRowRank excluded := by
  rw [latestRowRank, latestRowRank, latestRank, latestRank, Prod.Lex.toLex_lt_toLex]
  simp only [latestReplaces, sqlQualityRank_eq, Bool.or_eq_true, Bool.and_eq_true,
    decide_eq_true_eq, beq_iff_eq, eq_comm (a := excluded.observedAt)]

theorem clockWriter_concat (hostId : Uuid) (receipts : List Call) (c : Call) :
    clockWriter hostId (receipts ++ [c]) =
      if callHost c = some hostId then
        (clockOffers c).foldl
          (Table.keep fun x y => latestReplaces (x.row hostId) (y.row hostId))
          (clockWriter hostId receipts)
      else clockWriter hostId receipts := by
  rw [clockWriter, List.filter_append, List.flatMap_append, List.foldl_append, ← clockWriter]
  by_cases hhost : callHost c = some hostId
  · simp [hhost]
  · simp [hhost]

/-- The rows a call offers under the key. -/
theorem offeredLatest_clock (c : Call) (hostId : Uuid) :
    (offeredLatest c).filter (fun r => decide (r.key = (hostId, clockKey.1, clockKey.2))) =
      if callHost c = some hostId then (clockOffers c).map (ClockWriter.row hostId) else [] := by
  cases hc : callHost c with
  | none => simp [offeredLatest, hc]
  | some host =>
      by_cases hh : host = hostId
      · subst hh
        have hserver : (latestRow c.dbNow host
            (clockOffsetSample c.envelope.observedAt c.now)).key =
              (host, clockKey.1, clockKey.2) := rfl
        have hkey (s : Sample) : (latestRow c.dbNow host s).key =
            (host, clockKey.1, clockKey.2) ↔ (s.deviceID, s.metric.name) = clockKey := by
          simp [LatestRow.key, latestRow, clockKey]
        simp only [offeredLatest, hc, Option.toList_some, List.flatMap_singleton, latestRows,
          List.map_append, List.filter_append, List.filter_map, Function.comp_def, hkey,
          clockOffers, clockSamples, List.map_map]
        simp [clockOffsetSample, clockKey, ClockWriter.row]
      · have hne : ∀ r ∈ latestRows c host, ¬r.key = (hostId, clockKey.1, clockKey.2) := by
          simp only [latestRows, List.mem_map]
          rintro r ⟨s, -, rfl⟩ hk
          exact hh (Prod.mk.inj hk).1
        simp only [offeredLatest, hc]
        simpa [hh] using hne

theorem clockRow_serve (db : Db) (c : Call) (hostId : Uuid) :
    clockRow (serve db c).2 hostId =
      if inserted (serve db c).1 = true ∧ callHost c = some hostId then
        ((clockOffers c).map (ClockWriter.row hostId)).foldl (Table.keep latestReplaces)
          (clockRow db hostId)
      else clockRow db hostId := by
  have hrun := latestAt_runCalls db [c] hostId clockKey.1 clockKey.2
  rw [accepted, accepted] at hrun
  rw [clockRow, clockRow]
  change latestAt (runCalls db [c]) hostId clockKey.1 clockKey.2 = _
  rw [hrun]
  by_cases hi : inserted (serve db c).1 = true
  · rw [if_pos hi, List.flatMap_cons, List.flatMap_nil, List.append_nil, offeredLatest_clock]
    by_cases hhost : callHost c = some hostId
    · rw [if_pos hhost, if_pos ⟨hi, hhost⟩]
    · rw [if_neg hhost, if_neg (fun h => hhost h.2)]
      rfl
  · rw [if_neg hi, if_neg (fun h => hi h.1)]
    rfl

/-- What is stored under the key is the row of its writer. -/
def ClockRun.Ledger (s : ClockRun) : Prop :=
  ∀ hostId, clockRow s.db hostId = (clockWriter hostId s.receipts).map (ClockWriter.row hostId)

theorem ledger_step (s : ClockRun) (e : ClockEvent) (s' : ClockRun)
    (hstep : clockStep s e = some s') (h : s.Ledger) : s'.Ledger := by
  intro hostId
  cases e with
  | receive c =>
      rw [clockStep] at hstep
      split at hstep
      · next hi =>
          obtain rfl := Option.some.inj hstep
          rw [clockRow_serve, clockWriter_concat]
          by_cases hhost : callHost c = some hostId
          · rw [if_pos ⟨hi, hhost⟩, if_pos hhost, Table.map_foldl_keep, h hostId]
          · rw [if_neg (fun hand => hhost hand.2), if_neg hhost]
            exact h hostId
      · cases hstep
  | refuse c =>
      rw [clockStep] at hstep
      split at hstep
      · cases hstep
      · next hi =>
          obtain rfl := Option.some.inj hstep
          rw [clockRow_serve, if_neg (fun hand => hi hand.1)]
          exact h hostId
  | enroll hosts agents =>
      obtain rfl := Option.some.inj hstep
      exact h hostId
  | prune dbNow =>
      obtain rfl := Option.some.inj hstep
      exact h hostId

end Ledger

section Ownership

variable {s s' : ClockRun} {c : Call} {hostId : Uuid}

/-- The stored rows are those of their writers, and the writers are the server. -/
structure ClockRun.Owned (s : ClockRun) : Prop where
  ledger : s.Ledger
  server : ∀ hostId w, clockWriter hostId s.receipts = some w →
    ∃ c ∈ s.receipts, callHost c = some hostId ∧ w = .server c

theorem initial_owned : ClockRun.initial.Owned :=
  ⟨fun _ => rfl, fun _ _ h => by cases h⟩

/-- A host whose writer is the server has that row or none. -/
theorem ClockRun.Ledger.describes (h : s.Ledger) (hc : c ∈ s.receipts)
    (hhost : callHost c = some hostId)
    (hwriter : clockWriter hostId s.receipts = some (.server c)) : s.Describes hostId c := by
  refine ⟨hc, hhost, hwriter, ?_⟩
  rw [h hostId, hwriter]
  rfl

/-- An owned state says of every host which receipt its row describes. -/
theorem ClockRun.Owned.describes (h : s.Owned) (hostId : Uuid) :
    clockRow s.db hostId = none ∨ ∃ c, s.Describes hostId c := by
  cases hwriter : clockWriter hostId s.receipts with
  | none =>
      left
      rw [h.ledger hostId, hwriter]
      rfl
  | some w =>
      obtain ⟨c, hc, hhost, rfl⟩ := h.server hostId w hwriter
      exact Or.inr ⟨c, h.ledger.describes hc hhost hwriter⟩

theorem ClockRun.Owned.of_describes (hledger : s.Ledger)
    (h : ∀ hostId, clockRow s.db hostId = none ∨ ∃ c, s.Describes hostId c) : s.Owned := by
  refine ⟨hledger, ?_⟩
  intro hostId w hw
  obtain hnone | ⟨c, hc, hhost, hwriter, -⟩ := h hostId
  · rw [hledger hostId, hw] at hnone
    cases hnone
  · rw [hwriter] at hw
    exact ⟨c, hc, hhost, (Option.some.inj hw).symm⟩

theorem receive_cases (hstep : clockStep s (.receive c) = some s') :
    inserted (serve s.db c).1 = true ∧ s' = ⟨(serve s.db c).2, s.receipts ++ [c]⟩ := by
  rw [clockStep] at hstep
  split at hstep
  · next hi => exact ⟨hi, (Option.some.inj hstep).symm⟩
  · cases hstep

/-- Only an accepted envelope adds a receipt. -/
theorem receipts_of_not_receive {e : ClockEvent} (hstep : clockStep s e = some s')
    (he : ∀ c, e ≠ .receive c) : s'.receipts = s.receipts := by
  cases e with
  | receive c => exact absurd rfl (he c)
  | refuse c =>
      rw [clockStep] at hstep
      split at hstep
      · cases hstep
      · rw [← Option.some.inj hstep]
  | enroll hosts agents => rw [← Option.some.inj hstep]
  | prune dbNow => rw [← Option.some.inj hstep]

theorem writer_strict (hostId : Uuid) (x y : ClockWriter) :
    latestReplaces (x.row hostId) (y.row hostId) = true ↔
      latestRowRank (x.row hostId) < latestRowRank (y.row hostId) :=
  latestReplaces_iff_lt _ _

theorem clockWriter_receive (receipts : List Call) (hhost : callHost c = some hostId) :
    ∃ w, clockWriter hostId (receipts ++ [c]) = some w := by
  rw [clockWriter_concat, if_pos hhost, ← Option.isSome_iff_exists, Table.keep_isSome]
  simp [clockOffers]

/-- The candidates for the row of a host when an envelope is accepted. -/
theorem mem_candidates {receipts : List Call} {w : ClockWriter}
    (h : w ∈ (clockWriter hostId receipts).toList ++
      (clockSamples c.envelope).map (ClockWriter.sample c)) :
    clockWriter hostId receipts = some w ∨ ∃ x ∈ clockSamples c.envelope, .sample c x = w := by
  rcases List.mem_append.mp h with h | h
  · exact Or.inl (Option.mem_toList.mp h)
  · exact Or.inr (List.mem_map.mp h)

/-- Under the condition the row stays the server's own. -/
theorem writer_of_reserved (howned : s.Owned) (hhost : callHost c = some hostId)
    (hreserved : ClockReserved s (.receive c)) :
    clockWriter hostId (s.receipts ++ [c]) = some (.server c) ∨
      (clockWriter hostId (s.receipts ++ [c]) = clockWriter hostId s.receipts ∧
        ¬ s.Later hostId c) := by
  obtain ⟨hsamples, hlater⟩ := hreserved hostId hhost
  rw [clockWriter_concat, if_pos hhost, clockOffers]
  by_cases hstored : ∃ w ∈ clockWriter hostId s.receipts,
      clockRank c ≤ latestRowRank (w.row hostId)
  · obtain ⟨w, hw, hle⟩ := hstored
    have hrow : w.row hostId ∈ clockRow s.db hostId := by
      rw [howned.ledger hostId, hw]
      exact rfl
    right
    constructor
    · apply Table.keep_stored (writer_strict hostId)
      intro y hy
      refine ⟨w, hw, ?_⟩
      rcases List.mem_append.mp hy with hy | hy
      · obtain ⟨x, hx, rfl⟩ := List.mem_map.mp hy
        rcases hsamples x hx with ⟨row, hrow', hxrow⟩ | hlt
        · rw [Option.mem_def.mp hrow, Option.mem_def, Option.some.injEq] at hrow'
          rwa [← hrow'] at hxrow
        · exact hlt.le.trans hle
      · obtain rfl := List.mem_singleton.mp hy
        exact hle
    · intro hl
      exact absurd (hlater hl _ hrow) hle.not_gt
  · left
    apply Table.keep_last (writer_strict hostId)
    intro y hy
    by_contra hnot
    have hle : clockRank c ≤ latestRowRank (y.row hostId) := not_lt.mp hnot
    rcases mem_candidates hy with hy | ⟨x, hx, rfl⟩
    · exact hstored ⟨y, hy, hle⟩
    · rcases hsamples x hx with ⟨row, hrow, hxrow⟩ | hlt
      · rw [howned.ledger hostId, Option.mem_def, Option.map_eq_some_iff] at hrow
        obtain ⟨w, hw, rfl⟩ := hrow
        exact hstored ⟨w, hw, hle.trans hxrow⟩
      · exact absurd hlt hle.not_gt

/-- A server's row after an accepted envelope that is not above a candidate was stored before. -/
theorem stored_of_candidate {r : Call} {w : ClockWriter} (hhost : callHost c = some hostId)
    (hwriter : clockWriter hostId (s.receipts ++ [c]) = some (.server r))
    (hw : w ∈ (clockWriter hostId s.receipts).toList ++
      (clockSamples c.envelope).map (ClockWriter.sample c))
    (hle : clockRank c ≤ latestRowRank (w.row hostId)) :
    clockWriter hostId s.receipts = some (.server r) ∧
      latestRowRank (w.row hostId) ≤ latestRowRank ((ClockWriter.server r).row hostId) := by
  rw [clockWriter_concat, if_pos hhost, clockOffers] at hwriter
  obtain ⟨best, hbest, hkept, hrank⟩ :=
    Table.keep_not_last (b := .server c) (writer_strict hostId) hw hle
  obtain rfl := Option.some.inj (hkept.symm.trans hwriter)
  rcases mem_candidates hbest with hstored | ⟨x, -, hx⟩
  · exact ⟨hstored, hrank⟩
  · cases hx

theorem owned_step (s : ClockRun) (e : ClockEvent) (s' : ClockRun)
    (hstep : clockStep s e = some s') (hreserved : ClockReserved s e) (h : s.Owned) :
    s'.Owned := by
  have hledger := ledger_step s e s' hstep h.ledger
  refine ⟨hledger, ?_⟩
  intro hostId w hw
  by_cases hreceive : ∃ c, e = .receive c
  · obtain ⟨c, rfl⟩ := hreceive
    obtain ⟨-, rfl⟩ := receive_cases hstep
    simp only [List.mem_append, List.mem_singleton]
    by_cases hhost : callHost c = some hostId
    · rcases writer_of_reserved h hhost hreserved with hserver | ⟨hsame, -⟩
      · exact ⟨c, Or.inr rfl, hhost, Option.some.inj (hw.symm.trans hserver)⟩
      · obtain ⟨r, hr, hrhost, rfl⟩ := h.server hostId w (hsame.symm.trans hw)
        exact ⟨r, Or.inl hr, hrhost, rfl⟩
    · rw [clockWriter_concat, if_neg hhost] at hw
      obtain ⟨r, hr, hrhost, rfl⟩ := h.server hostId w hw
      exact ⟨r, Or.inl hr, hrhost, rfl⟩
  · have hreceipts := receipts_of_not_receive hstep fun c he => hreceive ⟨c, he⟩
    rw [hreceipts] at hw ⊢
    exact h.server hostId w hw

/-- In an owned state a step leaves the row of every host to the server exactly under the
condition. -/
theorem clockReserved_iff_serverOwned (s : ClockRun) (e : ClockEvent) (s' : ClockRun)
    (hstep : clockStep s e = some s') (h : s.Owned) : ClockReserved s e ↔ ServerOwned s e := by
  constructor
  · intro hreserved s'' hs''
    have howned := owned_step s e s'' hs'' hreserved h
    refine ⟨howned.describes, ?_⟩
    rintro c rfl hostId hhost hlater
    obtain ⟨-, rfl⟩ := receive_cases hs''
    rcases writer_of_reserved h hhost hreserved with hserver | ⟨-, hnot⟩
    · exact howned.ledger.describes (by simp) hhost hserver
    · exact absurd hlater hnot
  · intro hserver
    obtain ⟨hall, hlast⟩ := hserver s' hstep
    cases e with
    | refuse c => trivial
    | enroll hosts agents => trivial
    | prune dbNow => trivial
    | receive c =>
        intro hostId hhost
        have howned := ClockRun.Owned.of_describes (ledger_step s _ s' hstep h.ledger) hall
        obtain ⟨-, rfl⟩ := receive_cases hstep
        constructor
        · intro x hx
          by_contra hnot
          obtain ⟨habove, hnotlt⟩ := not_or.mp hnot
          have hcandidate : ClockWriter.sample c x ∈ (clockWriter hostId s.receipts).toList ++
              (clockSamples c.envelope).map (ClockWriter.sample c) :=
            List.mem_append_right _ (List.mem_map_of_mem hx)
          obtain ⟨w, hw⟩ := clockWriter_receive s.receipts hhost
          obtain ⟨r, -, -, rfl⟩ := howned.server hostId w hw
          obtain ⟨hstored, hrank⟩ := stored_of_candidate hhost hw hcandidate (not_lt.mp hnotlt)
          refine habove ⟨_, ?_, hrank⟩
          rw [h.ledger hostId, hstored]
          exact rfl
        · intro hlater row hrow
          by_contra hnot
          rw [h.ledger hostId, Option.mem_def, Option.map_eq_some_iff] at hrow
          obtain ⟨w, hw, rfl⟩ := hrow
          obtain ⟨-, -, hwriter, -⟩ := hlast c rfl hostId hhost hlater
          obtain ⟨hstored, -⟩ := stored_of_candidate hhost hwriter
            (List.mem_append_left _ (Option.mem_toList.mpr hw)) (not_lt.mp hnot)
          obtain ⟨r, hr, hrhost, heq⟩ := h.server hostId _ hstored
          obtain rfl := ClockWriter.server.inj heq
          exact lt_irrefl _ (hlater c hr hrhost)

/-- In every run of submissions the row under the server's key is the server's own, and after a
later receipt that of the receipt, exactly if every accepted envelope meets the condition. -/
theorem serverOwned_iff (events : List ClockEvent) (s : ClockRun)
    (hrun : Machine.run clockStep ClockRun.initial events = some s) :
    Machine.Along clockStep ServerOwned ClockRun.initial events ↔
      Machine.Along clockStep ClockReserved ClockRun.initial events :=
  (Machine.along_iff owned_step clockReserved_iff_serverOwned hrun initial_owned).symm

end Ownership

def enrollOneHost : ClockEvent := .enroll oneHostDb.hosts oneHostDb.agents

theorem clockStep_receive {db : Db} {c : Call} (hi : inserted (serve db c).1 = true)
    (receipts : List Call) :
    clockStep ⟨db, receipts⟩ (.receive c) = some ⟨(serve db c).2, receipts ++ [c]⟩ :=
  if_pos hi

theorem run_oneReceipt {c : Call} (hi : inserted (serve oneHostDb c).1 = true) :
    Machine.run clockStep ClockRun.initial [enrollOneHost, .receive c] =
      some ⟨(serve oneHostDb c).2, [c]⟩ := by
  have henroll : clockStep ClockRun.initial enrollOneHost = some ⟨oneHostDb, []⟩ := rfl
  rw [Machine.run, henroll, Option.bind_some, Machine.run, clockStep_receive hi]
  rfl

/-- A receipt whose stored row is an agent's sample does not leave the row to the server. -/
theorem not_serverOwned_of_sample {c : Call} {x : Sample} {hostId : Uuid}
    (hi : inserted (serve oneHostDb c).1 = true)
    (hwriter : clockWriter hostId [c] = some (.sample c x)) :
    ¬ Machine.Along clockStep ServerOwned ClockRun.initial [enrollOneHost, .receive c] := by
  rintro ⟨-, hrest⟩
  have howned := ((hrest ⟨oneHostDb, []⟩ rfl).1 _ (clockStep_receive hi [])).1 hostId
  have hledger := Machine.invariant_run ledger_step (run_oneReceipt hi) initial_owned.ledger hostId
  rw [hwriter] at hledger
  rcases howned with hnone | ⟨r, -, -, hserver, -⟩
  · cases hledger.symm.trans hnone
  · cases hwriter.symm.trans hserver

/-- An envelope without a sample under the key leaves the server's row. -/
theorem serverOwned_submission :
    Machine.Along clockStep ServerOwned ClockRun.initial
      [enrollOneHost, .receive (submission (some true))] := by
  apply (serverOwned_iff _ _ (run_oneReceipt (submission_inserted (some true)))).mpr
  refine ⟨trivial, ?_⟩
  intro s' henroll
  obtain rfl := Option.some.inj henroll
  refine ⟨?_, fun _ _ => trivial⟩
  intro hostId _
  have hnone : clockSamples (submission (some true)).envelope = [] := by decide
  constructor
  · rw [hnone]
    intro x hx
    cases hx
  · intro _ row hrow
    cases hrow

/-- The same envelope with one sample that an agent made under the server's key, dated a minute
ahead. -/
def forgedCall : Call :=
  { submission (some false) with
    envelope := .draft (Uuid.ofByte 2).toText (Uuid.ofByte 1).toText "b" 1 (seconds 10)
      [⟨"agent-clock", ⟨"agent.clock_offset_seconds", "seconds", some ⟨0⟩, .fresh, "a", "t",
        seconds 160⟩⟩] [] }

theorem forgedCall_submitted :
    Submitted oneHostDb forgedCall (Uuid.ofByte 2) (Uuid.ofByte 1) where
  consistent := oneHostDb_reachable.consistent
  agent := rfl
  host := rfl
  known := ⟨_, List.mem_cons_self, rfl⟩
  checked := by decide +kernel
  unseen := rfl
  noNul := by
    simp [NoNul, forgedCall, Envelope.draft, Envelope.texts, hasNul_toText]
    simp [hasNul, codecProtoZstd]
  finite := by
    simp [FiniteValues, forgedCall, Envelope.draft]
    decide

theorem forgedCall_storable : Storable forgedCall := by
  have hs := processorCall_storable .fresh (by decide) 1 (by decide) 10 (by decide) (by decide)
  refine ⟨?_, ?_, hs.keyLength, hs.sequence, ?_, ?_, hs.clocks, hs.observedYear, ?_, hs.expiry⟩
  · simp [forgedCall, Envelope.draft]
  · simp [forgedCall, Envelope.draft]
  · simp [forgedCall, Envelope.draft]
  · simp [forgedCall, Envelope.draft]
  · simp only [forgedCall, Envelope.draft, List.forall_mem_singleton]
    decide

theorem forgedCall_inserted : inserted (serve oneHostDb forgedCall).1 = true :=
  (serve_of_storable forgedCall_submitted forgedCall_storable).1

theorem forgedCall_writer :
    ∃ x, clockWriter (Uuid.ofByte 1) [forgedCall] = some (.sample forgedCall x) := by
  have hhost : callHost forgedCall = some (Uuid.ofByte 1) := Uuid.parse_toText _
  have hwriter := clockWriter_concat (Uuid.ofByte 1) [] forgedCall
  rw [List.nil_append, if_pos hhost] at hwriter
  rw [hwriter]
  exact ⟨_, rfl⟩

/-- The row stored after the receipt is the agent's. -/
theorem forgedCall_owned :
    (Machine.run clockStep ClockRun.initial [enrollOneHost, .receive forgedCall]).isSome = true ∧
      ¬ Machine.Along clockStep ServerOwned ClockRun.initial
        [enrollOneHost, .receive forgedCall] := by
  obtain ⟨x, hwriter⟩ := forgedCall_writer
  exact ⟨Option.isSome_iff_exists.mpr ⟨_, run_oneReceipt forgedCall_inserted⟩,
    not_serverOwned_of_sample forgedCall_inserted hwriter⟩

end NodeScope.Telemetry
