import NodeScope.Telemetry.Storable
import Mathlib.Data.Prod.Lex

/-!
# Convergence of the latest state

The two upserts of a submission offer a row to the one stored under its key. For
`metric_latest` the guard follows the lexicographic rank of observation time and
quality, for `container_inventory` it follows the observation time alone, with
ties going to the newcomer. Runs that accept the same envelopes of a host in
different orders, at different clocks and between different calls of other hosts
therefore end with rows of the same rank, and with the same row when no two
candidates tie.
-/

namespace NodeScope.Telemetry

open Domain Storage Lib Lib.Check Lib.Time

/-- The two copies of the quality table agree. -/
theorem sqlQualityRank_eq (q : MetricQuality) : sqlQualityRank q = latestQualityRank q := by
  cases q <;> rfl

/-- The statement's guard decides as `shouldReplaceLatest` does on the stored
instants. -/
theorem latestReplaces_eq (stored excluded : LatestRow) :
    latestReplaces stored excluded =
      shouldReplaceLatest (ofTimestamp stored.observedAt) stored.quality excluded.quality
        (ofTimestamp excluded.observedAt) := by
  simp only [latestReplaces, shouldReplaceLatest, sqlQualityRank_eq, ofTimestamp_lt_ofTimestamp]
  rcases lt_trichotomy stored.observedAt excluded.observedAt with h | h | h
  · simp [h]
  · simp [h]
  · simp [h, h.not_gt, h.ne]

/-- The order in which `metric_latest` prefers rows. -/
def latestRank (observedAt : Int) (quality : MetricQuality) : Int ×ₗ Nat :=
  toLex (observedAt, latestQualityRank quality)

def latestRowRank (r : LatestRow) : Int ×ₗ Nat := latestRank r.observedAt r.quality

theorem latestReplaces_follows :
    Table.Follows (fun r => latestRowRank r.unstamped) latestReplaces where
  greater stored excluded h := by
    rcases Prod.Lex.toLex_lt_toLex.mp h with h | ⟨h, hq⟩
    · simp only [LatestRow.unstamped] at h
      simp [latestReplaces, h]
    · simp only [LatestRow.unstamped] at h hq
      simp [latestReplaces, sqlQualityRank_eq, h, hq]
  noSmaller stored excluded h := by
    apply Prod.Lex.toLex_le_toLex.mpr
    simp only [latestReplaces, sqlQualityRank_eq, Bool.or_eq_true, Bool.and_eq_true,
      decide_eq_true_eq, beq_iff_eq] at h
    rcases h with h | ⟨h, hq⟩
    · exact Or.inl h
    · exact Or.inr ⟨h.symm, hq.le⟩

theorem containerReplaces_follows :
    Table.Follows (fun r => r.unstamped.observedAt) containerReplaces where
  greater stored excluded h := by
    simp only [ContainerRow.unstamped] at h
    simp [containerReplaces, h.le]
  noSmaller stored excluded h := by
    simpa [containerReplaces, ContainerRow.unstamped] using h

/-- The rows a call offers, for the host of its identity. -/
def offeredLatest (c : Call) : List LatestRow := (callHost c).toList.flatMap (latestRows c)

def offeredContainers (c : Call) : List ContainerRow :=
  (callHost c).toList.flatMap (containerRows c)

/-- A run offers the rows of its accepted calls to `metric_latest`, and no others. -/
theorem runCalls_metricLatest (cs : List Call) (db : Db) :
    (runCalls db cs).metricLatest =
      ((accepted db cs).flatMap offeredLatest).foldl
        (Table.upsert LatestRow.key latestReplaces) db.metricLatest := by
  rw [List.foldl_flatMap]
  apply runCalls_project (fun db => db.metricLatest)
  · intro db capacity
    rfl
  · intro db c hostId rawRetained hhost
    rw [foldl_offer_metricLatest, proposals_latest]
    simp [offeredLatest, hhost]

theorem runCalls_containerInventory (cs : List Call) (db : Db) :
    (runCalls db cs).containerInventory =
      ((accepted db cs).flatMap offeredContainers).foldl
        (Table.upsert ContainerRow.key containerReplaces) db.containerInventory := by
  rw [List.foldl_flatMap]
  apply runCalls_project (fun db => db.containerInventory)
  · intro db capacity
    rfl
  · intro db c hostId rawRetained hhost
    rw [foldl_offer_containerInventory, proposals_container]
    simp [offeredContainers, hhost]

/-- The envelopes of a host that a run stores. -/
def acceptedEnvelopes (db : Db) (cs : List Call) (hostId : Uuid) : List Envelope :=
  ((accepted db cs).filter fun c => decide (callHost c = some hostId)).map Call.envelope

/-- The samples of some envelopes that belong to one device and metric. -/
def samplesFor (deviceId metricName : String) (es : List Envelope) : List Sample :=
  (es.flatMap Envelope.samples).filter fun s =>
    decide (s.deviceID = deviceId ∧ s.metric.name = metricName)

/-- The device and metric of the server's own sample. -/
def clockKey : String × String := ("agent-clock", "agent.clock_offset_seconds")

/-- What a call offers for a key is, up to the receipt time, what its envelope holds
for it. -/
theorem offeredLatest_view (c : Call) (hostId : Uuid) {deviceId metricName : String}
    (hclock : (deviceId, metricName) ≠ clockKey) :
    ((offeredLatest c).filter fun r =>
        decide (r.key = (hostId, deviceId, metricName))).map LatestRow.unstamped =
      if callHost c = some hostId then
        (samplesFor deviceId metricName [c.envelope]).map (latestRow 0 hostId) else [] := by
  cases hc : callHost c with
  | none => simp [offeredLatest, hc]
  | some host =>
      by_cases hh : host = hostId
      · subst hh
        have hoff : ¬(("agent-clock" = deviceId) ∧ "agent.clock_offset_seconds" = metricName) := by
          rintro ⟨rfl, rfl⟩
          exact hclock rfl
        simp only [offeredLatest, hc, Option.toList_some, List.flatMap_singleton, latestRows,
          List.map_append, List.filter_append, List.filter_map, Function.comp_def, samplesFor]
        simp [LatestRow.key, latestRow, LatestRow.unstamped, clockOffsetSample, hoff,
          Function.comp_def]
      · have hne : ∀ r ∈ latestRows c host, ¬r.key = (hostId, deviceId, metricName) := by
          simp only [latestRows, List.mem_map]
          rintro r ⟨s, -, rfl⟩ hk
          exact hh (Prod.mk.inj hk).1
        simp only [offeredLatest, hc]
        simpa [hh] using hne

/-- Up to receipt times, a run offers to a key what its accepted envelopes hold for
it. -/
theorem accepted_latest_view (db : Db) (cs : List Call) (hostId : Uuid)
    {deviceId metricName : String} (hclock : (deviceId, metricName) ≠ clockKey) :
    (((accepted db cs).flatMap offeredLatest).filter fun r =>
        decide (r.key = (hostId, deviceId, metricName))).map LatestRow.unstamped =
      (samplesFor deviceId metricName (acceptedEnvelopes db cs hostId)).map
        (latestRow 0 hostId) := by
  rw [acceptedEnvelopes]
  induction accepted db cs with
  | nil => rfl
  | cons c rest ih =>
      rw [List.flatMap_cons, List.filter_append, List.map_append, ih,
        offeredLatest_view c hostId hclock]
      by_cases hc : callHost c = some hostId
      · simp [hc, samplesFor]
      · simp [hc]

/-- The ranks a run offers for a key, the one of the row stored before the run
included. -/
def latestCandidates (db : Db) (cs : List Call) (hostId : Uuid) (deviceId metricName : String) :
    List (Int ×ₗ Nat) :=
  ((Table.find LatestRow.key (hostId, deviceId, metricName) db.metricLatest).map
      latestRowRank).toList ++
    (samplesFor deviceId metricName (acceptedEnvelopes db cs hostId)).map fun s =>
      latestRank (toTimestamp s.metric.observedAt) s.metric.quality

def latestAt (db : Db) (hostId : Uuid) (deviceId metricName : String) : Option LatestRow :=
  Table.find LatestRow.key (hostId, deviceId, metricName) db.metricLatest

/-- The offered rows have the ranks of the samples. -/
theorem latestCandidates_eq (db : Db) (cs : List Call) (hostId : Uuid)
    {deviceId metricName : String} (hclock : (deviceId, metricName) ≠ clockKey) :
    ((latestAt db hostId deviceId metricName).toList ++
        ((accepted db cs).flatMap offeredLatest).filter fun r =>
          decide (r.key = (hostId, deviceId, metricName))).map
        (fun r => latestRowRank r.unstamped) =
      latestCandidates db cs hostId deviceId metricName := by
  have hview := congrArg (List.map latestRowRank) (accepted_latest_view db cs hostId hclock)
  simp only [List.map_map, Function.comp_def] at hview
  rw [List.map_append, hview, latestCandidates, latestAt]
  cases Table.find LatestRow.key (hostId, deviceId, metricName) db.metricLatest <;> rfl

theorem latestAt_runCalls (db : Db) (cs : List Call) (hostId : Uuid)
    (deviceId metricName : String) :
    latestAt (runCalls db cs) hostId deviceId metricName =
      (((accepted db cs).flatMap offeredLatest).filter fun r =>
        decide (r.key = (hostId, deviceId, metricName))).foldl (Table.keep latestReplaces)
          (latestAt db hostId deviceId metricName) := by
  rw [latestAt, runCalls_metricLatest, Table.find_foldl_upsert]
  rfl

/-- A run leaves a row whose rank is the greatest of the candidates. -/
theorem latestAt_rank (db : Db) (cs : List Call) (hostId : Uuid)
    {deviceId metricName : String} (hclock : (deviceId, metricName) ≠ clockKey) :
    (latestAt (runCalls db cs) hostId deviceId metricName).map latestRowRank =
      (latestCandidates db cs hostId deviceId metricName).max? := by
  rw [← latestCandidates_eq db cs hostId hclock, latestAt_runCalls]
  exact Table.map_rank_keep latestReplaces_follows _ _

/-- Runs that accept the same envelopes of a host leave rows of one rank under a
key, and the same row when its candidates do not tie. -/
theorem latestAt_converges {db : Db} {cs₁ cs₂ : List Call} {hostId : Uuid}
    (hperm : (acceptedEnvelopes db cs₁ hostId).Perm (acceptedEnvelopes db cs₂ hostId))
    {deviceId metricName : String} (hclock : (deviceId, metricName) ≠ clockKey) :
    (latestAt (runCalls db cs₁) hostId deviceId metricName).map latestRowRank =
        (latestAt (runCalls db cs₂) hostId deviceId metricName).map latestRowRank ∧
      ((latestCandidates db cs₁ hostId deviceId metricName).Nodup →
        (latestAt (runCalls db cs₁) hostId deviceId metricName).map LatestRow.unstamped =
          (latestAt (runCalls db cs₂) hostId deviceId metricName).map LatestRow.unstamped) := by
  have hviews := ((hperm.flatMap_right Envelope.samples).filter fun s =>
    decide (s.deviceID = deviceId ∧ s.metric.name = metricName)).map (latestRow 0 hostId)
  change ((samplesFor deviceId metricName _).map _).Perm
    ((samplesFor deviceId metricName _).map _) at hviews
  rw [← accepted_latest_view db cs₁ hostId hclock, ← accepted_latest_view db cs₂ hostId hclock]
    at hviews
  rw [← latestCandidates_eq db cs₁ hostId hclock, latestAt_runCalls, latestAt_runCalls]
  exact Table.keep_converges LatestRow.unstamped latestRowRank latestReplaces_follows hviews _

theorem accepted_valid {db : Db} {cs : List Call} {c : Call} (h : c ∈ accepted db cs) :
    c.envelope.Valid := by
  induction cs generalizing db with
  | nil => simp [accepted] at h
  | cons x rest ih =>
      rw [accepted] at h
      obtain ⟨hi, -⟩ | ⟨hi, hsub, -⟩ := serve_cases db x
      · rw [hi] at h
        exact ih h
      · rw [hi, if_pos rfl, List.mem_cons] at h
        rcases h with rfl | h
        · simp only [checkSubmission, unit_bind_eq_ok, mapError_eq_ok] at hsub
          exact Envelope.validate_eq_ok.mp hsub.2.2.1
        · exact ih h

/-- The envelopes among some that mention a container. -/
def mentioning (containerId : String) (es : List Envelope) : List Envelope :=
  es.filter fun e => e.containers.any fun x => x.containerID == containerId

/-- The record of a container in an envelope that mentions it. -/
def containerView (hostId : Uuid) (containerId : String) (e : Envelope) : List ContainerRow :=
  (e.containers.filter fun x => decide (x.containerID = containerId)).map fun x =>
    containerRow 0 hostId x e.observedAt

theorem offeredContainers_view (c : Call) (hostId : Uuid) (containerId : String) :
    ((offeredContainers c).filter fun r =>
        decide (r.key = (hostId, containerId))).map ContainerRow.unstamped =
      if callHost c = some hostId then containerView hostId containerId c.envelope else [] := by
  cases hc : callHost c with
  | none => simp [offeredContainers, hc]
  | some host =>
      by_cases hh : host = hostId
      · subst hh
        simp only [offeredContainers, hc, Option.toList_some, List.flatMap_singleton,
          containerRows, List.filter_map, Function.comp_def, containerView]
        simp [ContainerRow.key, containerRow, ContainerRow.unstamped, Function.comp_def]
      · have hne : ∀ r ∈ containerRows c host, ¬r.key = (hostId, containerId) := by
          simp only [containerRows, List.mem_map]
          rintro r ⟨x, -, rfl⟩ hk
          exact hh (Prod.mk.inj hk).1
        simp only [offeredContainers, hc]
        simpa [hh] using hne

theorem accepted_container_view (db : Db) (cs : List Call) (hostId : Uuid)
    (containerId : String) :
    (((accepted db cs).flatMap offeredContainers).filter fun r =>
        decide (r.key = (hostId, containerId))).map ContainerRow.unstamped =
      (acceptedEnvelopes db cs hostId).flatMap (containerView hostId containerId) := by
  rw [acceptedEnvelopes]
  induction accepted db cs with
  | nil => rfl
  | cons c rest ih =>
      rw [List.flatMap_cons, List.filter_append, List.map_append, ih,
        offeredContainers_view c hostId containerId]
      by_cases hc : callHost c = some hostId
      · simp [hc]
      · simp [hc]

/-- A valid envelope has at most one record of a container. -/
theorem containerView_times {e : Envelope} (h : e.Valid) (hostId : Uuid) (containerId : String) :
    (containerView hostId containerId e).map ContainerRow.observedAt =
      if (e.containers.any fun x => x.containerID == containerId) then
        [toTimestamp e.observedAt] else [] := by
  have hnodup := h.containersDistinct
  simp only [containerView, List.map_map, Function.comp_def, containerRow]
  generalize e.containers = containers at hnodup ⊢
  induction containers with
  | nil => rfl
  | cons x rest ih =>
      simp only [List.map_cons, List.nodup_cons, List.mem_map, not_exists, not_and] at hnodup
      by_cases hx : x.containerID = containerId
      · have hrest : rest.filter (fun y => decide (y.containerID = containerId)) = [] := by
          simp only [List.filter_eq_nil_iff, decide_eq_true_eq]
          intro y hy hk
          exact hnodup.1 y hy (hk.trans hx.symm)
        simp [hx, hrest]
      · simpa [hx] using ih hnodup.2

theorem containerViews_times {es : List Envelope} (h : ∀ e ∈ es, e.Valid) (hostId : Uuid)
    (containerId : String) :
    (es.flatMap (containerView hostId containerId)).map ContainerRow.observedAt =
      (mentioning containerId es).map fun e => toTimestamp e.observedAt := by
  induction es with
  | nil => rfl
  | cons e rest ih =>
      have hrest := ih fun x hx => h x (List.mem_cons_of_mem e hx)
      rw [List.flatMap_cons, List.map_append, hrest, containerView_times (h e List.mem_cons_self)]
      by_cases hm : (e.containers.any fun x => x.containerID == containerId) = true
      · simp only [hm, if_true, mentioning, List.filter_cons, List.map_cons,
          List.singleton_append]
      · simp only [hm, Bool.false_eq_true, if_false, mentioning, List.filter_cons,
          List.nil_append]

/-- The observation times offered for a container, the stored one included. -/
def containerCandidates (db : Db) (cs : List Call) (hostId : Uuid) (containerId : String) :
    List Int :=
  ((Table.find ContainerRow.key (hostId, containerId) db.containerInventory).map
      ContainerRow.observedAt).toList ++
    (mentioning containerId (acceptedEnvelopes db cs hostId)).map fun e =>
      toTimestamp e.observedAt

def containerAt (db : Db) (hostId : Uuid) (containerId : String) : Option ContainerRow :=
  Table.find ContainerRow.key (hostId, containerId) db.containerInventory

theorem containerCandidates_eq (db : Db) (cs : List Call) (hostId : Uuid)
    (containerId : String) :
    ((containerAt db hostId containerId).toList ++
        ((accepted db cs).flatMap offeredContainers).filter fun r =>
          decide (r.key = (hostId, containerId))).map (fun r => r.unstamped.observedAt) =
      containerCandidates db cs hostId containerId := by
  have hview := congrArg (List.map ContainerRow.observedAt)
    (accepted_container_view db cs hostId containerId)
  simp only [List.map_map, Function.comp_def] at hview
  have hvalid : ∀ e ∈ acceptedEnvelopes db cs hostId, e.Valid := by
    intro e he
    simp only [acceptedEnvelopes, List.mem_map, List.mem_filter] at he
    obtain ⟨c, ⟨hc, -⟩, rfl⟩ := he
    exact accepted_valid hc
  rw [List.map_append, hview, containerViews_times hvalid, containerCandidates, containerAt]
  cases Table.find ContainerRow.key (hostId, containerId) db.containerInventory <;> rfl

theorem containerAt_runCalls (db : Db) (cs : List Call) (hostId : Uuid) (containerId : String) :
    containerAt (runCalls db cs) hostId containerId =
      (((accepted db cs).flatMap offeredContainers).filter fun r =>
        decide (r.key = (hostId, containerId))).foldl (Table.keep containerReplaces)
          (containerAt db hostId containerId) := by
  rw [containerAt, runCalls_containerInventory, Table.find_foldl_upsert]
  rfl

theorem containerAt_converges {db : Db} {cs₁ cs₂ : List Call} {hostId : Uuid}
    (hperm : (acceptedEnvelopes db cs₁ hostId).Perm (acceptedEnvelopes db cs₂ hostId))
    {containerId : String} (hties : (containerCandidates db cs₁ hostId containerId).Nodup) :
    (containerAt (runCalls db cs₁) hostId containerId).map ContainerRow.unstamped =
      (containerAt (runCalls db cs₂) hostId containerId).map ContainerRow.unstamped := by
  have hviews := hperm.flatMap_right (containerView hostId containerId)
  rw [← accepted_container_view, ← accepted_container_view] at hviews
  rw [← containerCandidates_eq] at hties
  rw [containerAt_runCalls, containerAt_runCalls]
  exact (Table.keep_converges ContainerRow.unstamped ContainerRow.observedAt
    containerReplaces_follows hviews _).2 hties

/-- The latest state does not depend on the order of delivery. Two runs that accept
the same envelopes of a host leave, under every key but the server's own, a row
whose rank is the greatest rank stored for the key, and the same row when no two
ranks tie. The guard of the upsert is `shouldReplaceLatest`. The inventory row of a
container is the same when the envelopes mentioning it were observed at different
times. -/
theorem latestState_order_independent (db : Db) (cs₁ cs₂ : List Call) (hostId : Uuid)
    (hperm : (acceptedEnvelopes db cs₁ hostId).Perm (acceptedEnvelopes db cs₂ hostId)) :
    (∀ deviceId metricName, (deviceId, metricName) ≠ clockKey →
      (latestAt (runCalls db cs₁) hostId deviceId metricName).map latestRowRank =
          (latestCandidates db cs₁ hostId deviceId metricName).max? ∧
        (latestAt (runCalls db cs₂) hostId deviceId metricName).map latestRowRank =
          (latestCandidates db cs₁ hostId deviceId metricName).max? ∧
        ((latestCandidates db cs₁ hostId deviceId metricName).Nodup →
          (latestAt (runCalls db cs₁) hostId deviceId metricName).map LatestRow.unstamped =
            (latestAt (runCalls db cs₂) hostId deviceId metricName).map LatestRow.unstamped)) ∧
      (∀ stored excluded : LatestRow, latestReplaces stored excluded =
        shouldReplaceLatest (ofTimestamp stored.observedAt) stored.quality excluded.quality
          (ofTimestamp excluded.observedAt)) ∧
      ∀ containerId, (containerCandidates db cs₁ hostId containerId).Nodup →
        (containerAt (runCalls db cs₁) hostId containerId).map ContainerRow.unstamped =
          (containerAt (runCalls db cs₂) hostId containerId).map ContainerRow.unstamped := by
  refine ⟨?_, latestReplaces_eq, ?_⟩
  · intro deviceId metricName hclock
    obtain ⟨hrank, hrow⟩ := latestAt_converges hperm hclock
    have hmax := latestAt_rank db cs₁ hostId hclock
    exact ⟨hmax, hrank.symm.trans hmax, hrow⟩
  · intro containerId hties
    exact containerAt_converges hperm hties

/-- Two storable submissions with different keys are both accepted. -/
theorem accepted_pair {s₁ s₂ : UInt64} {t₁ t₂ : Int}
    (h₁ : checkSubmission (processorCall .fresh s₁ t₁) = .ok ())
    (h₂ : checkSubmission (processorCall .fresh s₂ t₂) = .ok ())
    (hs₁ : Storable (processorCall .fresh s₁ t₁)) (hs₂ : Storable (processorCall .fresh s₂ t₂))
    (hkeys : (processorCall .fresh s₁ t₁).envelope.idempotencyKey ≠
      (processorCall .fresh s₂ t₂).envelope.idempotencyKey) :
    accepted oneHostDb [processorCall .fresh s₁ t₁, processorCall .fresh s₂ t₂] =
      [processorCall .fresh s₁ t₁, processorCall .fresh s₂ t₂] := by
  have hcons := oneHostDb_reachable.consistent
  obtain ⟨hi₁, raw, hdb⟩ := serve_of_storable (processorCall_submitted hcons rfl h₁ rfl) hs₁
  have hhosts : (serve oneHostDb (processorCall .fresh s₁ t₁)).2.hosts = oneHostDb.hosts := by
    rw [hdb, (foldl_offer_registry _ _).1]
  have hunseen : keyReceived (serve oneHostDb (processorCall .fresh s₁ t₁)).2
      (processorCall .fresh s₂ t₂).envelope.idempotencyKey = false := by
    rw [hdb, keyReceived_foldl_offer]
    simp [hkeys, keyReceived, oneHostDb, Db.empty]
  obtain ⟨hi₂, -⟩ := serve_of_storable
    (processorCall_submitted (hcons.serve _) hhosts h₂ hunseen) hs₂
  simp [accepted, hi₁, hi₂]

def inOrder : List Call := [processorCall .fresh 1 10, processorCall .fresh 2 20]

def outOfOrder : List Call := [processorCall .fresh 2 20, processorCall .fresh 1 10]

theorem acceptedEnvelopes_inOrder :
    acceptedEnvelopes oneHostDb inOrder (Uuid.ofByte 1) = inOrder.map Call.envelope ∧
      acceptedEnvelopes oneHostDb outOfOrder (Uuid.ofByte 1) = outOfOrder.map Call.envelope := by
  have h₂ : checkSubmission (processorCall .fresh 2 20) = .ok () := by decide +kernel
  have hs₁ := processorCall_storable .fresh (by decide) 1 (by decide) 10 (by decide) (by decide)
  have hs₂ := processorCall_storable .fresh (by decide) 2 (by decide) 20 (by decide) (by decide)
  have hkeys : (processorCall .fresh 1 10).envelope.idempotencyKey ≠
      (processorCall .fresh 2 20).envelope.idempotencyKey := by
    decide
  have hhost (s : UInt64) (t : Int) :
      callHost (processorCall .fresh s t) = some (Uuid.ofByte 1) :=
    Uuid.parse_toText _
  simp [acceptedEnvelopes, inOrder, outOfOrder, hhost,
    accepted_pair processorCall_checked h₂ hs₁ hs₂ hkeys,
    accepted_pair h₂ processorCall_checked hs₂ hs₁ hkeys.symm]

theorem latestState_two_orders :
    (acceptedEnvelopes oneHostDb inOrder (Uuid.ofByte 1)).length = 2 ∧
      (latestAt (runCalls oneHostDb inOrder) (Uuid.ofByte 1) "d" "m").map
          LatestRow.unstamped =
        (latestAt (runCalls oneHostDb outOfOrder) (Uuid.ofByte 1) "d" "m").map
          LatestRow.unstamped ∧
      (containerAt (runCalls oneHostDb inOrder) (Uuid.ofByte 1) "c").map
          ContainerRow.unstamped =
        (containerAt (runCalls oneHostDb outOfOrder) (Uuid.ofByte 1) "c").map
          ContainerRow.unstamped := by
  obtain ⟨hin, hout⟩ := acceptedEnvelopes_inOrder
  have hperm : (acceptedEnvelopes oneHostDb inOrder (Uuid.ofByte 1)).Perm
      (acceptedEnvelopes oneHostDb outOfOrder (Uuid.ofByte 1)) := by
    rw [hin, hout]
    exact List.Perm.map _ (List.Perm.swap _ _ _)
  have hranks : (latestCandidates oneHostDb inOrder (Uuid.ofByte 1) "d" "m").Nodup := by
    rw [latestCandidates, hin]
    decide
  have htimes : (containerCandidates oneHostDb inOrder (Uuid.ofByte 1) "c").Nodup := by
    rw [containerCandidates, hin]
    decide
  obtain ⟨hlatest, -, hcontainer⟩ :=
    latestState_order_independent oneHostDb inOrder outOfOrder (Uuid.ofByte 1) hperm
  obtain ⟨-, -, hrow⟩ := hlatest "d" "m" (by decide)
  refine ⟨?_, hrow hranks, hcontainer "c" htimes⟩
  rw [hin]
  rfl

end NodeScope.Telemetry
