import NodeScope.Telemetry.StoreInvariant

/-!
# When the schema takes what the validator takes

The program's own checks and the constraints of the tables were written apart.
`Storable` lists what the tables ask beyond those checks, and
`persistEnvelope_both_modes_iff` shows that the list is complete: a submission that
passes the checks is stored in both capacity modes exactly when it is storable.
-/

namespace NodeScope.Telemetry

open Domain Storage Lib Lib.Check Lib.Text Lib.Time

/-- What the tables ask of a submission beyond the program's own checks. -/
structure Storable (c : Call) : Prop where
  qualities : ∀ s ∈ c.envelope.samples, s.metric.quality ≠ .experimental
  health : ∀ x ∈ c.envelope.containers, ∃ ch ∈ x.health.toList, ch ≠ ' '
  keyLength : sqlLength c.envelope.bootID + sqlLength (Nat.repr c.envelope.sequence.toNat) ≤ 218
  sequence : c.envelope.sequence.toNat < 2 ^ 63
  sampleCount : c.envelope.samples.length ≤ 4096
  distinct : (c.envelope.samples.map fun s => (s.deviceID, s.metric.name)).Nodup
  clocks : c.dbNow < toTimestamp (c.now + rawRetention)
  observedYear : Time.jsonEncodable c.envelope.observedAt = true
  sampleYears : ∀ s ∈ c.envelope.samples, Time.jsonEncodable s.metric.observedAt = true
  expiry : storable (toTimestamp (c.now + rawRetention)) = true

theorem filled_of_trimSpace {s : String} (h : trimSpace s ≠ "") : filled s = true := by
  simpa [filled] using sqlLength_sqlTrim_pos h

theorem filled_iff (s : String) : filled s = true ↔ ∃ ch ∈ s.toList, ch ≠ ' ' := by
  rw [filled, decide_eq_true_eq, sqlLength_sqlTrim_pos_iff]

/-- A sample whose texts and value fill the columns that need them. -/
structure SampleFilled (s : Sample) : Prop where
  deviceID : filled s.deviceID = true
  name : filled s.metric.name = true
  source : filled s.metric.source = true
  semantics : filled s.metric.semantics = true
  quality : s.metric.quality.valid = true
  value : s.metric.value.isSome = true ∨ s.metric.quality = .unavailable ∨
    s.metric.quality = .unsupported

theorem Sample.Valid.filled {s : Sample} (h : s.Valid) : SampleFilled s := by
  obtain ⟨hname, hquality, hsource, hsemantics, -, -, hvalue⟩ :=
    MetricValue.validate_eq_ok.mp h.metric
  refine ⟨filled_of_trimSpace h.deviceID, filled_of_trimSpace hname, filled_of_trimSpace hsource,
    filled_of_trimSpace hsemantics, hquality, ?_⟩
  rw [MetricQuality.withValue_eq_not hquality, Bool.not_eq_true'] at hvalue
  by_cases hwithout : s.metric.quality.withoutValue = true
  · simp only [MetricQuality.withoutValue, Bool.or_eq_true, beq_iff_eq] at hwithout
    exact Or.inr hwithout
  · exact Or.inl (hvalue (by simpa using hwithout))

theorem clockOffsetSample_filled (observedAt receivedAt : Int) :
    SampleFilled (clockOffsetSample observedAt receivedAt) := by
  have hs {t : String} (h : 's' ∈ t.toList) : filled t = true :=
    (filled_iff t).mpr ⟨'s', h, by decide⟩
  have ha {t : String} (h : 'a' ∈ t.toList) : filled t = true :=
    (filled_iff t).mpr ⟨'a', h, by decide⟩
  refine ⟨ha (by simp [clockOffsetSample]), ha (by simp [clockOffsetSample]),
    hs (by simp [clockOffsetSample]), hs (by simp [clockOffsetSample]), ?_, Or.inl rfl⟩
  simp only [clockOffsetSample]
  split <;> rfl

/-- Both sample tables take every valid quality but one. -/
theorem storedQuality_iff {q : MetricQuality} (h : q.valid = true) :
    storedQuality q = true ↔ q ≠ .experimental := by
  cases q <;> simp [storedQuality, MetricQuality.valid] at h ⊢

theorem latestChecks_iff {s : Sample} (h : SampleFilled s) (dbNow : Int) (hostId : Uuid) :
    (∀ k ∈ (latestRow dbNow hostId s).checks, k.2 = true) ↔
      s.metric.quality ≠ .experimental := by
  have hvalue : (s.metric.value.isSome || false || s.metric.quality == .unavailable ||
      s.metric.quality == .unsupported ||
      s.metric.quality == .unknown "invalid" (by decide)) = true := by
    rcases h.value with hv | hv | hv <;> simp [hv]
  rw [← storedQuality_iff h.quality]
  simp only [LatestRow.checks, latestRow, List.forall_mem_cons, Option.isSome_none, hvalue,
    h.deviceID, h.name, h.source, h.semantics, true_and, List.not_mem_nil, false_implies,
    implies_true, and_true]

theorem sampleChecks_iff {s : Sample} (h : SampleFilled s) (key : String) (hostId : Uuid)
    {expiresAt : Int} (hexpiry : toTimestamp s.metric.observedAt < toTimestamp expiresAt) :
    (∀ k ∈ (sampleRow key hostId s expiresAt).checks, k.2 = true) ↔
      s.metric.quality ≠ .experimental := by
  have hvalue : (s.metric.value.isSome || s.metric.quality == .unavailable ||
      s.metric.quality == .unsupported) = true := by
    rcases h.value with hv | hv | hv <;> simp [hv]
  rw [← storedQuality_iff h.quality]
  simp only [SampleRow.checks, sampleRow, List.forall_mem_cons, hvalue, h.deviceID, h.name,
    h.source, h.semantics, hexpiry, decide_true, true_and, List.not_mem_nil, false_implies,
    implies_true, and_true]

theorem containerChecks_iff {x : ContainerInventory} (h : x.Complete) (dbNow : Int)
    (hostId : Uuid) (observedAt : Int) :
    (∀ k ∈ (containerRow dbNow hostId x observedAt).checks, k.2 = true) ↔
      ∃ ch ∈ x.health.toList, ch ≠ ' ' := by
  rw [← filled_iff]
  simp only [ContainerRow.checks, containerRow, List.forall_mem_cons,
    filled_of_trimSpace h.containerID, filled_of_trimSpace h.name, filled_of_trimSpace h.image,
    filled_of_trimSpace h.state, true_and, List.not_mem_nil, false_implies, implies_true,
    and_true]

/-- The texts of a submission have no NUL character. -/
def NoNul (e : Envelope) : Prop := ∀ t ∈ e.texts, hasNul t = false

/-- The values of a submission are finite. -/
def FiniteValues (e : Envelope) : Prop :=
  ∀ s ∈ e.samples, ∀ v, s.metric.value = some v → v.isFinite = true

/-- The texts of a sample have no NUL character. -/
def SampleNoNul (s : Sample) : Prop :=
  ∀ t ∈ [s.deviceID, s.metric.name, s.metric.source, s.metric.semantics], hasNul t = false

theorem NoNul.sample {e : Envelope} (h : NoNul e) {s : Sample} (hs : s ∈ e.samples) :
    SampleNoNul s := by
  intro t ht
  apply h t
  simp only [Envelope.texts, List.mem_append, List.mem_flatMap]
  refine Or.inl (Or.inr ⟨s, hs, ?_⟩)
  simp only [List.mem_cons, List.not_mem_nil, or_false] at ht ⊢
  rcases ht with rfl | rfl | rfl | rfl <;> simp

theorem NoNul.container {e : Envelope} (h : NoNul e) {x : ContainerInventory}
    (hx : x ∈ e.containers) :
    ∀ t ∈ [x.containerID, x.name, x.image, x.state, x.health], hasNul t = false := by
  intro t ht
  apply h t
  simp only [Envelope.texts, List.mem_append, List.mem_flatMap]
  exact Or.inr ⟨x, hx, ht⟩

theorem clockOffsetSample_noNul (observedAt receivedAt : Int) :
    SampleNoNul (clockOffsetSample observedAt receivedAt) := by
  simp [SampleNoNul, clockOffsetSample, hasNul]

section Statements

variable {db : Db} {c : Call} {hostId : Uuid}

/-- A database that has the host of a call. -/
structure HostKnown (db : Db) (c : Call) (hostId : Uuid) : Prop where
  cast : castUuid c.identity.hostID = .ok hostId
  noNul : hasNul c.identity.hostID = false
  host : ∃ h ∈ db.hosts, h.id = hostId

theorem latest_exec_iff (hknown : HostKnown db c hostId) {s : Sample} (hfilled : SampleFilled s)
    (hnul : SampleNoNul s) :
    (∃ p, (Write.latest s).exec false db c = .ok p) ↔
      s.metric.quality ≠ .experimental ∧
        storable (toTimestamp s.metric.observedAt) = true := by
  simp only [Write.exec, upsertLatest_eq_ok, hknown.cast, Except.ok.injEq, exists_eq_left',
    latestChecks_iff hfilled]
  constructor
  · rintro ⟨p, -, -, htime, hquality, -, -⟩
    exact ⟨hquality, htime⟩
  · rintro ⟨hquality, htime⟩
    exact ⟨_, trivial, List.forall_mem_cons.mpr ⟨hknown.noNul, hnul⟩, htime, hquality,
      fun _ => hknown.host, rfl⟩

theorem container_exec_iff (hknown : HostKnown db c hostId) {x : ContainerInventory}
    (hcomplete : x.Complete)
    (hnul : ∀ t ∈ [x.containerID, x.name, x.image, x.state, x.health], hasNul t = false) :
    (∃ p, (Write.container x).exec false db c = .ok p) ↔
      (∃ ch ∈ x.health.toList, ch ≠ ' ') ∧
        storable (toTimestamp c.envelope.observedAt) = true := by
  simp only [Write.exec, upsertContainer_eq_ok, hknown.cast, Except.ok.injEq, exists_eq_left',
    containerChecks_iff hcomplete]
  constructor
  · rintro ⟨p, -, -, htime, hhealth, -, -⟩
    exact ⟨hhealth, htime⟩
  · rintro ⟨hhealth, htime⟩
    exact ⟨_, trivial, List.forall_mem_cons.mpr ⟨hknown.noNul, hnul⟩, htime, hhealth,
      fun _ => hknown.host, rfl⟩

theorem rawSample_exec_iff (hknown : HostKnown db c hostId) {s : Sample}
    (hfilled : SampleFilled s) (hnul : SampleNoNul s)
    (hkeyNul : hasNul c.envelope.idempotencyKey = false)
    (hexpiry : toTimestamp s.metric.observedAt < toTimestamp (c.now + rawRetention)) :
    (∃ p, (Write.rawSample s).exec false db c = .ok p) ↔
      s.metric.quality ≠ .experimental ∧ storable (toTimestamp s.metric.observedAt) = true ∧
        storable (toTimestamp (c.now + rawRetention)) = true ∧
        (∃ b ∈ db.telemetryBatches, b.idempotencyKey = c.envelope.idempotencyKey) ∧
        ∀ r ∈ db.metricSamples, r.key ≠ (c.envelope.idempotencyKey, s.deviceID,
          s.metric.name) := by
  simp only [Write.exec, insertRawSample_eq_ok, hknown.cast, Except.ok.injEq, exists_eq_left',
    sampleChecks_iff hfilled _ _ hexpiry]
  constructor
  · rintro ⟨p, -, -, htime, hexp, hbatch, hquality, hfresh, -, -⟩
    exact ⟨hquality, htime, hexp, hbatch, hfresh⟩
  · rintro ⟨hquality, htime, hexp, hbatch, hfresh⟩
    exact ⟨_, trivial, List.forall_mem_cons.mpr ⟨hkeyNul, List.forall_mem_cons.mpr
      ⟨hknown.noNul, hnul⟩⟩, htime, hexp, hbatch, hquality, hfresh, hknown.host, rfl⟩

end Statements

/-- The statements are all taken, one after the other. -/
def Runs (c : Call) (ws : List Write) (db : Db) : Prop :=
  ∃ db', runWrites healthy c 0 ws db = .ok db'

theorem runWrites_healthy (c : Call) (i : Nat) (ws : List Write) (db : Db) :
    runWrites healthy c i ws db = runWrites healthy c 0 ws db := by
  induction ws generalizing i db with
  | nil => rfl
  | cons w rest ih =>
      simp only [runWrites, ih (i + 1), ih (0 + 1)]
      rfl

section Loops

variable {c : Call} {hostId : Uuid}

theorem runs_nil (db : Db) : Runs c [] db := ⟨db, rfl⟩

theorem runs_cons (hcast : castUuid c.identity.hostID = .ok hostId) {w : Write}
    {rest : List Write} {db : Db} :
    Runs c (w :: rest) db ↔
      (∃ p, w.exec false db c = .ok p) ∧ Runs c rest (offer db (w.proposal c hostId)) := by
  simp only [Runs, runWrites, bind_eq_ok, runWrites_healthy c (0 + 1), healthy]
  constructor
  · rintro ⟨db', p, hp, h⟩
    rw [exec_offer hcast hp] at h
    exact ⟨⟨p, hp⟩, db', h⟩
  · rintro ⟨⟨p, hp⟩, db', h⟩
    rw [← exec_offer hcast hp] at h
    exact ⟨db', p, hp, h⟩

theorem runs_append (hcast : castUuid c.identity.hostID = .ok hostId) {ws₁ ws₂ : List Write}
    {db : Db} :
    Runs c (ws₁ ++ ws₂) db ↔
      Runs c ws₁ db ∧ Runs c ws₂ ((ws₁.map (Write.proposal c hostId)).foldl offer db) := by
  induction ws₁ generalizing db with
  | nil => simp [runs_nil]
  | cons w rest ih => rw [List.cons_append, runs_cons hcast, runs_cons hcast, ih, and_assoc]; rfl

theorem HostKnown.offer {db : Db} (h : HostKnown db c hostId) (p : Put) :
    HostKnown (Telemetry.offer db p) c hostId := by
  refine ⟨h.cast, h.noNul, ?_⟩
  cases p <;> exact h.host

theorem HostKnown.foldl_offer {db : Db} (h : HostKnown db c hostId) (ps : List Put) :
    HostKnown (ps.foldl Telemetry.offer db) c hostId := by
  induction ps generalizing db with
  | nil => exact h
  | cons p rest ih => exact ih (h.offer p)

/-- The column types and checks take the sample. -/
def SampleStorable (s : Sample) : Prop :=
  s.metric.quality ≠ .experimental ∧ storable (toTimestamp s.metric.observedAt) = true

theorem runs_latest {l : List Sample} (hl : ∀ s ∈ l, SampleFilled s ∧ SampleNoNul s) {db : Db}
    (hknown : HostKnown db c hostId) :
    Runs c (l.flatMap (sampleWrites false)) db ↔ ∀ s ∈ l, SampleStorable s := by
  induction l generalizing db with
  | nil => simp [runs_nil]
  | cons s rest ih =>
      obtain ⟨⟨hfilled, hnul⟩, hrest⟩ := List.forall_mem_cons.mp hl
      have hwrites : (s :: rest).flatMap (sampleWrites false) =
          .latest s :: rest.flatMap (sampleWrites false) := rfl
      rw [hwrites, runs_cons hknown.cast, latest_exec_iff hknown hfilled hnul,
        ih hrest (hknown.offer _), List.forall_mem_cons]
      rfl

theorem runs_containers {l : List ContainerInventory}
    (hl : ∀ x ∈ l, x.Complete ∧
      ∀ t ∈ [x.containerID, x.name, x.image, x.state, x.health], hasNul t = false) {db : Db}
    (hknown : HostKnown db c hostId)
    (htime : storable (toTimestamp c.envelope.observedAt) = true) :
    Runs c (l.map .container) db ↔ ∀ x ∈ l, ∃ ch ∈ x.health.toList, ch ≠ ' ' := by
  induction l generalizing db with
  | nil => simp [runs_nil]
  | cons x rest ih =>
      obtain ⟨⟨hcomplete, hnul⟩, hrest⟩ := List.forall_mem_cons.mp hl
      rw [List.map_cons, runs_cons hknown.cast, container_exec_iff hknown hcomplete hnul,
        ih hrest (hknown.offer _), List.forall_mem_cons]
      simp [htime]

/-- The raw loop also needs the samples of the batch to differ in device or
metric. -/
theorem runs_rawSamples {l : List Sample}
    (hl : ∀ s ∈ l, SampleFilled s ∧ SampleNoNul s ∧
      toTimestamp s.metric.observedAt < toTimestamp (c.now + rawRetention))
    (hkeyNul : hasNul c.envelope.idempotencyKey = false)
    (hexp : storable (toTimestamp (c.now + rawRetention)) = true) {db : Db}
    (hknown : HostKnown db c hostId)
    (hbatch : ∃ b ∈ db.telemetryBatches, b.idempotencyKey = c.envelope.idempotencyKey) :
    Runs c (l.flatMap (sampleWrites true)) db ↔
      (∀ s ∈ l, SampleStorable s) ∧ (l.map fun s => (s.deviceID, s.metric.name)).Nodup ∧
        ∀ s ∈ l, ∀ r ∈ db.metricSamples,
          r.key ≠ (c.envelope.idempotencyKey, s.deviceID, s.metric.name) := by
  induction l generalizing db with
  | nil => simp [runs_nil]
  | cons s rest ih =>
      obtain ⟨⟨hfilled, hnul, hexpiry⟩, hrest⟩ := List.forall_mem_cons.mp hl
      have hwrites : (s :: rest).flatMap (sampleWrites true) =
          .rawSample s :: .latest s :: rest.flatMap (sampleWrites true) := rfl
      have hknown₁ := hknown.offer ((Write.rawSample s).proposal c hostId)
      have hsamples : (offer (offer db ((Write.rawSample s).proposal c hostId))
          ((Write.latest s).proposal c hostId)).metricSamples = db.metricSamples ++
            [sampleRow c.envelope.idempotencyKey hostId s (c.now + rawRetention)] := rfl
      rw [hwrites, runs_cons hknown.cast, runs_cons hknown.cast,
        rawSample_exec_iff hknown hfilled hnul hkeyNul hexpiry,
        latest_exec_iff hknown₁ hfilled hnul,
        ih hrest (hknown₁.offer ((Write.latest s).proposal c hostId)) hbatch, hsamples]
      have hdistinct : (∀ t ∈ rest, ∀ r ∈ db.metricSamples ++
          [sampleRow c.envelope.idempotencyKey hostId s (c.now + rawRetention)],
            r.key ≠ (c.envelope.idempotencyKey, t.deviceID, t.metric.name)) ↔
          (∀ t ∈ rest, ∀ r ∈ db.metricSamples,
            r.key ≠ (c.envelope.idempotencyKey, t.deviceID, t.metric.name)) ∧
          ∀ t ∈ rest, (t.deviceID, t.metric.name) ≠ (s.deviceID, s.metric.name) := by
        simp only [List.forall_mem_append, List.forall_mem_singleton, forall_and,
          SampleRow.key, sampleRow, ne_eq, Prod.mk.injEq, true_and, eq_comm]
      rw [hdistinct, List.forall_mem_cons, List.forall_mem_cons, List.map_cons, List.nodup_cons,
        List.mem_map]
      simp only [SampleStorable, hexp, not_exists, not_and]
      tauto

end Loops

/-! ## The key and the times -/

theorem toList_idempotencyKeyOf (agentID bootID : String) (sequence : UInt64) :
    (idempotencyKeyOf agentID bootID sequence).toList =
      agentID.toList ++ ':' :: (bootID.toList ++ ':' :: (Nat.repr sequence.toNat).toList) := by
  simp [idempotencyKeyOf]

theorem repr_ne_nil (n : Nat) : (Nat.repr n).toList ≠ [] := by
  rw [Nat.toList_repr]
  exact Nat.toDigits_ne_nil

/-- Neither end of a key is a space, so its trimmed length is its length. -/
theorem sqlLength_sqlTrim_key (u : Uuid) (bootID : String) (sequence : UInt64) :
    sqlLength (sqlTrim (idempotencyKeyOf u.toText bootID sequence)) =
      38 + sqlLength bootID + sqlLength (Nat.repr sequence.toNat) := by
  have hlist := toList_idempotencyKeyOf u.toText bootID sequence
  have hu : u.toText.toList ≠ [] := by
    intro h
    have hlen := u.toText_length
    rw [h] at hlen
    exact absurd hlen (by decide)
  have hd := repr_ne_nil sequence.toNat
  have hne : (idempotencyKeyOf u.toText bootID sequence).toList ≠ [] := by simp [hlist]
  have hhead : (idempotencyKeyOf u.toText bootID sequence).toList.head hne ≠ ' ' := by
    simp only [hlist, List.head_append_of_ne_nil hu]
    intro h
    exact u.space_notMem_toText (h ▸ List.head_mem hu)
  have hlast : (idempotencyKeyOf u.toText bootID sequence).toList.getLast hne ≠ ' ' := by
    have hmem : (idempotencyKeyOf u.toText bootID sequence).toList.getLast hne ∈
        (Nat.repr sequence.toNat).toList := by
      have hsplit : (idempotencyKeyOf u.toText bootID sequence).toList =
          (u.toText.toList ++ ':' :: (bootID.toList ++ [':'])) ++
            (Nat.repr sequence.toNat).toList := by
        simp [hlist]
      simp only [hsplit, List.getLast_append_of_ne_nil _ hd]
      exact List.getLast_mem hd
    intro h
    rw [h] at hmem
    exact notMem_repr (by decide) _ hmem
  rw [sqlTrim, sqlLength, String.toList_ofList,
    trimBoth_eq_self hne (by simpa using hhead) (by simpa using hlast), hlist]
  simp only [List.length_append, List.length_cons, u.toText_length, sqlLength]
  omega

theorem keyLengthBounded_iff (u : Uuid) (bootID : String) (sequence : UInt64) :
    keyLengthBounded (idempotencyKeyOf u.toText bootID sequence) = true ↔
      sqlLength bootID + sqlLength (Nat.repr sequence.toNat) ≤ 218 := by
  simp only [keyLengthBounded, sqlLength_sqlTrim_key, Bool.and_eq_true, decide_eq_true_eq]
  omega

theorem hasNul_idempotencyKeyOf {agentID bootID : String} (ha : hasNul agentID = false)
    (hb : hasNul bootID = false) (sequence : UInt64) :
    hasNul (idempotencyKeyOf agentID bootID sequence) = false := by
  have hd := notMem_repr (c := '\x00') (by decide) sequence.toNat
  simp only [hasNul, List.contains_eq_mem, decide_eq_false_iff_not] at ha hb ⊢
  rw [toList_idempotencyKeyOf]
  simp only [List.mem_append, List.mem_cons, not_or]
  exact ⟨ha, by decide, hb, by decide, hd⟩

theorem storable_of_jsonEncodable {t : Int} (h : Time.jsonEncodable t = true) :
    storable (toTimestamp t) = true := by
  rw [jsonEncodable_iff] at h
  rw [storable_iff]
  simp only [toTimestamp, seconds, nanosPerSecond, minTimestamp, endTimestamp] at h ⊢
  omega

/-- An observation within the permitted skew expires after it was made. -/
theorem observed_before_expiry {t now : Int} (h : t ≤ now + maxFutureObservationSkew) :
    toTimestamp t < toTimestamp (now + rawRetention) := by
  simp only [toTimestamp, maxFutureObservationSkew, rawRetention, seconds, nanosPerSecond] at h ⊢
  omega

/-- The store's clock is storable when an observation it permits is. -/
theorem storable_now {t now : Int} (h : t ≤ now + maxFutureObservationSkew)
    (hyear : Time.jsonEncodable t = true)
    (hexpiry : storable (toTimestamp (now + rawRetention)) = true) :
    storable (toTimestamp now) = true := by
  rw [jsonEncodable_iff] at hyear
  rw [storable_iff] at hexpiry ⊢
  simp only [toTimestamp, maxFutureObservationSkew, rawRetention, seconds, nanosPerSecond,
    minTimestamp, endTimestamp] at h hyear hexpiry ⊢
  omega

/-! ## Both modes -/

/-- A submission of an enrolled agent that passes the program's checks and was not
received before. -/
structure Submitted (db : Db) (c : Call) (agentId hostId : Uuid) : Prop where
  consistent : Consistent db
  agent : c.identity.agentID = agentId.toText
  host : c.identity.hostID = hostId.toText
  known : ∃ h ∈ db.hosts, h.id = hostId
  checked : checkSubmission c = .ok ()
  unseen : keyReceived db c.envelope.idempotencyKey = false
  noNul : NoNul c.envelope
  finite : FiniteValues c.envelope

section Submitted

variable {db : Db} {c : Call} {agentId hostId : Uuid}

theorem Submitted.valid (h : Submitted db c agentId hostId) : c.envelope.Valid := by
  have hchecked := h.checked
  simp only [checkSubmission, unit_bind_eq_ok, mapError_eq_ok] at hchecked
  exact Envelope.validate_eq_ok.mp hchecked.2.2.1

theorem Submitted.times (h : Submitted db c agentId hostId) :
    c.envelope.observedAt ≤ c.now + maxFutureObservationSkew ∧
      ∀ s ∈ c.envelope.samples, s.metric.observedAt ≤ c.now + maxFutureObservationSkew := by
  have hchecked := h.checked
  simp only [checkSubmission, unit_bind_eq_ok, mapError_eq_ok] at hchecked
  exact Envelope.validateReceiptTimes_eq_ok.mp hchecked.2.2.2

theorem Submitted.key (h : Submitted db c agentId hostId) :
    c.envelope.idempotencyKey =
      idempotencyKeyOf agentId.toText c.envelope.bootID c.envelope.sequence := by
  rw [Envelope.idempotencyKey, (agentID_of_checkSubmission h.checked).1, h.agent]

theorem hasNul_toText (u : Uuid) : hasNul u.toText = false := by
  have := u.nul_notMem_toText
  simpa [hasNul] using this

theorem Submitted.keyNoNul (h : Submitted db c agentId hostId) :
    hasNul c.envelope.idempotencyKey = false := by
  rw [h.key]
  apply hasNul_idempotencyKeyOf (hasNul_toText agentId)
  exact h.noNul _ (by simp [Envelope.texts])

theorem Submitted.hostKnown (h : Submitted db c agentId hostId) : HostKnown db c hostId := by
  refine ⟨?_, ?_, h.known⟩
  · rw [h.host, castUuid_toText]
  · rw [h.host]
    exact hasNul_toText hostId

theorem Submitted.jsonEncodable_iff (h : Submitted db c agentId hostId) :
    c.envelope.jsonEncodable = true ↔ Time.jsonEncodable c.envelope.observedAt = true ∧
      ∀ s ∈ c.envelope.samples, Time.jsonEncodable s.metric.observedAt = true := by
  simp only [Envelope.jsonEncodable, Bool.and_eq_true, List.all_eq_true]
  refine and_congr_right fun _ => forall₂_congr fun s hs => and_iff_left ?_
  cases hv : s.metric.value with
  | none => rfl
  | some v => exact h.finite s hs v hv

/-- No stored batch has the key of the submission or its parts. -/
theorem Submitted.fresh (h : Submitted db c agentId hostId) :
    (∀ r ∈ db.telemetryBatches, r.idempotencyKey ≠ c.envelope.idempotencyKey) ∧
      ∀ r ∈ db.telemetryBatches, ¬(r.agentId = c.identity.agentID ∧
        r.bootId = c.envelope.bootID ∧ r.sequence = c.envelope.sequence.toNat) := by
  have hunseen := h.unseen
  simp only [keyReceived, Bool.or_eq_false_iff, List.any_eq_false, beq_iff_eq] at hunseen
  refine ⟨hunseen.1, ?_⟩
  rintro r hr ⟨ha, hb, hs⟩
  apply hunseen.1 r hr
  rw [h.consistent.batchKeys r hr, ha, hb, hs, h.agent, h.key]
  rfl

theorem rawBatch_exec_iff (h : Submitted db c agentId hostId) :
    (∃ p, Write.rawBatch.exec false db c = .ok p) ↔
      sqlLength c.envelope.bootID + sqlLength (Nat.repr c.envelope.sequence.toNat) ≤ 218 ∧
        c.envelope.sequence.toNat < 2 ^ 63 ∧ c.envelope.samples.length ≤ 4096 ∧
        c.dbNow < toTimestamp (c.now + rawRetention) ∧
        Time.jsonEncodable c.envelope.observedAt = true ∧
        (∀ s ∈ c.envelope.samples, Time.jsonEncodable s.metric.observedAt = true) ∧
        storable (toTimestamp (c.now + rawRetention)) = true := by
  have hvalid := h.valid
  have hcount : c.envelope.metricValueCount.toNat = c.envelope.samples.length :=
    hvalid.sampleValues
  have hpos : 0 < c.envelope.metricValueCount.toNat :=
    Nat.pos_of_ne_zero fun h0 => hvalid.metricValueCount.1 (UInt32.toNat_inj.mp h0)
  have hbytes : 0 < c.envelope.compressedBytes.toNat :=
    Nat.pos_of_ne_zero fun h0 => hvalid.compressedBytes.1 (UInt32.toNat_inj.mp h0)
  have hbytesMax : c.envelope.compressedBytes.toNat ≤ 1048576 := hvalid.compressedBytes.2
  have hcountMax : c.envelope.metricValueCount.toNat ≤ 10000 := hvalid.metricValueCount.2
  have hagent : filled c.identity.agentID = true := by
    rw [← (agentID_of_checkSubmission h.checked).1]
    exact filled_of_trimSpace hvalid.agentID
  have htexts : ∀ t ∈ [c.envelope.idempotencyKey, c.identity.agentID, c.identity.hostID,
      c.envelope.bootID] ++ c.envelope.texts, hasNul t = false := by
    have hboot : hasNul c.envelope.bootID = false := h.noNul _ (by simp [Envelope.texts])
    simp only [List.forall_mem_append, List.forall_mem_cons, List.not_mem_nil, false_implies,
      implies_true, and_true, h.keyNoNul, h.agent, h.host, hasNul_toText, hboot, true_and]
    exact h.noNul
  simp only [Write.exec, insertRawBatch_eq_ok, h.jsonEncodable_iff, h.hostKnown.cast,
    Except.ok.injEq, exists_eq_left', BatchRow.checks, batchRow, List.forall_mem_cons,
    List.not_mem_nil, false_implies, implies_true, and_true, hagent,
    filled_of_trimSpace hvalid.bootID, h.key, keyLengthBounded_iff, hcount, decide_eq_true_eq,
    Bool.and_eq_true]
  constructor
  · rintro ⟨p, ⟨hyear, hyears⟩, -, -, hseq, -, -, -, hexp, ⟨-, -, hclock, -, hkey, hmax, -⟩, -⟩
    exact ⟨hkey, hseq, hmax.2, hclock, hyear, hyears, hexp⟩
  · rintro ⟨hkey, hseq, hmax, hclock, hyear, hyears, hexp⟩
    rw [← h.key]
    exact ⟨_, ⟨hyear, hyears⟩, trivial, htexts, hseq, by omega, by omega,
      storable_of_jsonEncodable hyear, hexp,
      ⟨trivial, trivial, hclock, hbytes, hkey, ⟨by omega, hmax⟩, Nat.zero_le _⟩, h.fresh.1,
      h.fresh.2, h.known, rfl⟩

theorem receipt_exec_iff (h : Submitted db c agentId hostId) :
    (∃ p, Write.receipt.exec false db c = .ok p) ↔
      sqlLength c.envelope.bootID + sqlLength (Nat.repr c.envelope.sequence.toNat) ≤ 218 ∧
        c.dbNow < toTimestamp (c.now + rawRetention) ∧
        storable (toTimestamp (c.now + rawRetention)) = true := by
  have hagent : filled c.identity.agentID = true := by
    rw [← (agentID_of_checkSubmission h.checked).1]
    exact filled_of_trimSpace h.valid.agentID
  have hunseen := h.unseen
  simp only [keyReceived, Bool.or_eq_false_iff, List.any_eq_false, beq_iff_eq] at hunseen
  have htexts : hasNul c.envelope.idempotencyKey = false ∧
      hasNul c.identity.agentID = false ∧ hasNul c.identity.hostID = false := by
    rw [h.agent, h.host]
    exact ⟨h.keyNoNul, hasNul_toText agentId, hasNul_toText hostId⟩
  simp only [Write.exec, insertReceipt_eq_ok, h.hostKnown.cast, Except.ok.injEq,
    exists_eq_left', ReceiptRow.checks, receiptRow, List.forall_mem_cons, List.not_mem_nil,
    false_implies, implies_true, and_true, hagent, h.key, keyLengthBounded_iff,
    decide_eq_true_eq, true_and]
  constructor
  · rintro ⟨p, -, hexp, ⟨hclock, hkey⟩, -⟩
    exact ⟨hkey, hclock, hexp⟩
  · rintro ⟨hkey, hclock, hexp⟩
    rw [← h.key]
    exact ⟨_, htexts, hexp, ⟨hclock, hkey⟩, hunseen.2, h.known, rfl⟩

theorem writes_eq (c : Call) (rawRetained : Bool) :
    writes c rawRetained = (if rawRetained then .rawBatch else .receipt) ::
      (c.envelope.samples.flatMap (sampleWrites rawRetained) ++
        (c.envelope.containers.map .container ++
          [.latest (clockOffsetSample c.envelope.observedAt c.now)])) := by
  simp [writes]

/-- The first write, the two loops and the server's own sample are taken apart. -/
theorem runs_writes (h : Submitted db c agentId hostId)
    (htime : storable (toTimestamp c.envelope.observedAt) = true) (rawRetained : Bool) :
    Runs c (writes c rawRetained) db ↔
      (∃ p, (if rawRetained then Write.rawBatch else .receipt).exec false db c = .ok p) ∧
        Runs c (c.envelope.samples.flatMap (sampleWrites rawRetained))
          (offer db ((if rawRetained then Write.rawBatch else .receipt).proposal c hostId)) ∧
        (∀ x ∈ c.envelope.containers, ∃ ch ∈ x.health.toList, ch ≠ ' ') ∧
        storable (toTimestamp c.now) = true := by
  have hcast := h.hostKnown.cast
  have hcontainers : ∀ x ∈ c.envelope.containers, x.Complete ∧
      ∀ t ∈ [x.containerID, x.name, x.image, x.state, x.health], hasNul t = false :=
    fun x hx => ⟨h.valid.containers x hx, h.noNul.container hx⟩
  have hknown (p : Put) (ps : List Put) : HostKnown (ps.foldl offer (offer db p)) c hostId :=
    (h.hostKnown.offer p).foldl_offer ps
  have hclock : (clockOffsetSample c.envelope.observedAt c.now).metric.quality ≠
      .experimental := by
    simp only [clockOffsetSample]
    split <;> simp
  rw [writes_eq, runs_cons hcast, runs_append hcast, runs_append hcast, runs_cons hcast,
    runs_containers hcontainers (hknown _ _) htime,
    latest_exec_iff ((hknown _ _).foldl_offer _) (clockOffsetSample_filled _ _)
      (clockOffsetSample_noNul _ _)]
  simp only [runs_nil, and_true, hclock, ne_eq, not_false_eq_true, true_and]
  rfl

/-- A raw submission is taken exactly when it is storable. -/
theorem runs_raw_iff (h : Submitted db c agentId hostId) :
    Runs c (writes c true) db ↔ Storable c := by
  have hsamples : ∀ s ∈ c.envelope.samples, SampleFilled s ∧ SampleNoNul s ∧
      toTimestamp s.metric.observedAt < toTimestamp (c.now + rawRetention) :=
    fun s hs => ⟨(h.valid.samples s hs).filled, h.noNul.sample hs,
      observed_before_expiry (h.times.2 s hs)⟩
  have hbatch : ∃ b ∈ (offer db (Write.rawBatch.proposal c hostId)).telemetryBatches,
      b.idempotencyKey = c.envelope.idempotencyKey :=
    ⟨_, List.mem_append_right _ List.mem_cons_self, rfl⟩
  have hunused : ∀ s ∈ c.envelope.samples, ∀ r ∈ db.metricSamples,
      r.key ≠ (c.envelope.idempotencyKey, s.deviceID, s.metric.name) := by
    intro s _ r hr hk
    obtain ⟨b, hb, hbk⟩ := h.consistent.sampleBatches r hr
    exact h.fresh.1 b hb (hbk.trans (Prod.mk.inj hk).1)
  have hloop (hexp : storable (toTimestamp (c.now + rawRetention)) = true) :
      Runs c (c.envelope.samples.flatMap (sampleWrites true))
          (offer db (Write.rawBatch.proposal c hostId)) ↔
        (∀ s ∈ c.envelope.samples, SampleStorable s) ∧
          (c.envelope.samples.map fun s => (s.deviceID, s.metric.name)).Nodup := by
    rw [runs_rawSamples hsamples h.keyNoNul hexp (h.hostKnown.offer _) hbatch]
    exact and_congr_right fun _ => and_iff_left hunused
  constructor
  · intro hrun
    have hfirst := hrun
    rw [writes_eq, runs_cons h.hostKnown.cast] at hfirst
    obtain ⟨hkey, hseq, hcount, hclocks, hyear, hyears, hexp⟩ :=
      (rawBatch_exec_iff h).mp hfirst.1
    obtain ⟨-, hloopRuns, hhealth, -⟩ :=
      (runs_writes h (storable_of_jsonEncodable hyear) true).mp hrun
    obtain ⟨hquality, hdistinct⟩ := (hloop hexp).mp hloopRuns
    exact ⟨fun s hs => (hquality s hs).1, hhealth, hkey, hseq, hcount, hdistinct, hclocks, hyear,
      hyears, hexp⟩
  · intro hs
    refine (runs_writes h (storable_of_jsonEncodable hs.observedYear) true).mpr
      ⟨(rawBatch_exec_iff h).mpr ⟨hs.keyLength, hs.sequence, hs.sampleCount, hs.clocks,
        hs.observedYear, hs.sampleYears, hs.expiry⟩, (hloop hs.expiry).mpr ⟨?_, hs.distinct⟩,
        hs.health, storable_now h.times.1 hs.observedYear hs.expiry⟩
    exact fun s hm => ⟨hs.qualities s hm, storable_of_jsonEncodable (hs.sampleYears s hm)⟩

/-- A storable submission is taken in the compact mode too. -/
theorem runs_compact (h : Submitted db c agentId hostId) (hs : Storable c) :
    Runs c (writes c false) db := by
  have hsamples : ∀ s ∈ c.envelope.samples, SampleFilled s ∧ SampleNoNul s :=
    fun s hs => ⟨(h.valid.samples s hs).filled, h.noNul.sample hs⟩
  refine (runs_writes h (storable_of_jsonEncodable hs.observedYear) false).mpr
    ⟨(receipt_exec_iff h).mpr ⟨hs.keyLength, hs.clocks, hs.expiry⟩, ?_, hs.health,
      storable_now h.times.1 hs.observedYear hs.expiry⟩
  rw [runs_latest hsamples (h.hostKnown.offer _)]
  exact fun s hm => ⟨hs.qualities s hm, storable_of_jsonEncodable (hs.sampleYears s hm)⟩

theorem persistEnvelope_inserted_iff (h : Submitted db c agentId hostId) :
    (persistEnvelope healthy db c).1 = .ok ⟨true, acceptRawBatches db⟩ ↔
      Runs c (writes c (acceptRawBatches db)) db := by
  have hlock : lockKey healthy c.envelope.idempotencyKey = .ok () := by
    simp [lockKey, healthy, h.keyNoNul]
  simp only [persistEnvelope, transaction, h.checked, hlock, h.unseen, healthy, failIf_false,
    ok_bind, Bool.false_eq_true, if_false]
  rw [Runs]
  cases runWrites healthy c 0 (writes c (acceptRawBatches db)) db with
  | error e => simp
  | ok db' => simp

theorem Consistent.withCapacity {db : Db} (h : Consistent db) (capacity : Option Bool) :
    Consistent { db with capacityStatus := capacity } :=
  ⟨h.agentHosts, h.batchKeys, h.sampleBatches⟩

/-- The capacity state a submission meets is no part of its checks. -/
theorem Submitted.withCapacity (h : Submitted db c agentId hostId) (capacity : Option Bool) :
    Submitted { db with capacityStatus := capacity } c agentId hostId :=
  ⟨h.consistent.withCapacity capacity, h.agent, h.host, h.known, h.checked, h.unseen, h.noNul,
    h.finite⟩

/-- A storable submission that is served is stored. -/
theorem serve_of_storable (hsub : Submitted db c agentId hostId) (hs : Storable c) :
    inserted (serve db c).1 = true ∧ ∃ rawRetained, (serve db c).2 =
      (proposals c hostId rawRetained).foldl offer { db with capacityStatus := c.capacity } := by
  have h := hsub.withCapacity c.capacity
  have hrun : Runs c (writes c (acceptRawBatches { db with capacityStatus := c.capacity }))
      { db with capacityStatus := c.capacity } := by
    cases acceptRawBatches { db with capacityStatus := c.capacity } with
    | true => exact (runs_raw_iff h).mpr hs
    | false => exact runs_compact h hs
  have hresult := (persistEnvelope_inserted_iff h).mpr hrun
  have hinserted : inserted (serve db c).1 = true := by
    rw [serve, hresult]
    rfl
  obtain ⟨hno, -⟩ | ⟨-, -, -, hostId', raw, hhost, hdb⟩ := serve_cases db c
  · rw [hinserted] at hno
    exact absurd hno (by decide)
  · rw [callHost, h.host, Uuid.parse_toText, Option.some.injEq] at hhost
    subst hhost
    exact ⟨hinserted, raw, hdb⟩

end Submitted

theorem keyReceived_foldl_offer (db : Db) (c : Call) (hostId : Uuid) (rawRetained : Bool)
    (key : String) :
    keyReceived ((proposals c hostId rawRetained).foldl offer db) key =
      (keyReceived db key || c.envelope.idempotencyKey == key) := by
  rw [keyReceived, foldl_offer_telemetryBatches, foldl_offer_ingestReceipts, proposals_batch,
    proposals_receipt, keyReceived]
  cases rawRetained <;>
    simp [batchRow, receiptRow, Bool.or_assoc, Bool.or_comm, Bool.or_left_comm]

/-- The validator and the schema agree exactly on the storable submissions. For a
submission of an enrolled agent that passes the program's checks and is new, the
whole envelope is stored in both capacity modes if and only if it is storable. -/
theorem persistEnvelope_both_modes_iff {db : Db} (hdb : Reachable db) {c : Call} {a : AgentRow}
    (hagent : a ∈ db.agents) (hidentity : c.identity = ⟨a.id.toText, a.hostId.toText⟩)
    (hchecked : checkSubmission c = .ok ())
    (hunseen : keyReceived db c.envelope.idempotencyKey = false) (hnul : NoNul c.envelope)
    (hfinite : FiniteValues c.envelope) :
    (∀ raw, (persistEnvelope healthy { db with capacityStatus := some raw } c).1 =
      .ok ⟨true, raw⟩) ↔ Storable c := by
  have hcons := hdb.consistent
  have hbase : Submitted db c a.id a.hostId :=
    ⟨hcons, by rw [hidentity], by rw [hidentity], hcons.agentHosts a hagent, hchecked, hunseen,
      hnul, hfinite⟩
  have hsub (raw : Bool) := hbase.withCapacity (some raw)
  have hmode (raw : Bool) : acceptRawBatches { db with capacityStatus := some raw } = raw := by
    cases raw <;> rfl
  have hiff (raw : Bool) := persistEnvelope_inserted_iff (hsub raw)
  simp only [hmode] at hiff
  simp only [hiff, Bool.forall_bool]
  constructor
  · rintro ⟨-, hraw⟩
    exact (runs_raw_iff (hsub true)).mp hraw
  · intro hs
    exact ⟨runs_compact (hsub false) hs, (runs_raw_iff (hsub true)).mpr hs⟩

/-- A database with one enrolled host and no telemetry. -/
def oneHostDb : Db :=
  { Db.empty with
    hosts := [⟨Uuid.ofByte 1, "alpha", "Alpha", "linux", none⟩]
    agents := [⟨Uuid.ofByte 2, Uuid.ofByte 1, "Alpha native agent", List.replicate 32 0, "hint",
      0, none, 1, none⟩] }

theorem oneHostDb_reachable : Reachable oneHostDb :=
  Reachable.start (by simp [AgentsReferHosts])

/-- A submission of that host with a reading of the processor and a container. -/
def processorCall (quality : MetricQuality) (sequence : UInt64) (second : Int) : Call where
  identity := ⟨(Uuid.ofByte 2).toText, (Uuid.ofByte 1).toText⟩
  envelope := .draft (Uuid.ofByte 2).toText (Uuid.ofByte 1).toText "b" sequence (seconds second)
    [⟨"d", ⟨"m", "u", some ⟨0⟩, quality, "s", "t", seconds second⟩⟩]
    [⟨"c", "n", "i", "s", "h", false⟩]
  now := seconds 100
  dbNow := sqlSeconds 100
  capacity := some true

theorem processorCall_noNul (quality : MetricQuality) (sequence : UInt64) (second : Int) :
    NoNul (processorCall quality sequence second).envelope := by
  simp [NoNul, processorCall, Envelope.draft, Envelope.texts, hasNul_toText]
  simp [hasNul, codecProtoZstd]

theorem processorCall_finite (quality : MetricQuality) (sequence : UInt64) (second : Int) :
    FiniteValues (processorCall quality sequence second).envelope := by
  simp [FiniteValues, processorCall, Envelope.draft]
  decide

theorem processorCall_storable (quality : MetricQuality) (hq : quality ≠ .experimental)
    (sequence : UInt64) (hseq : sequence.toNat < 10) (second : Int) (h₀ : 0 ≤ second)
    (h₁ : second ≤ 100) : Storable (processorCall quality sequence second) where
  qualities := by simpa [processorCall, Envelope.draft] using hq
  health := by simp [processorCall, Envelope.draft]
  keyLength := by
    have hdigit : ∀ n < 10, sqlLength "b" + sqlLength (Nat.repr n) ≤ 218 := by decide
    exact hdigit _ hseq
  sequence := lt_trans hseq (by decide)
  sampleCount := by simp [processorCall, Envelope.draft]
  distinct := by simp [processorCall, Envelope.draft]
  clocks := by
    simp only [processorCall]
    decide
  observedYear := by
    rw [jsonEncodable_iff]
    simp only [processorCall, Envelope.draft, seconds, nanosPerSecond]
    omega
  sampleYears := by
    simp only [processorCall, Envelope.draft, List.forall_mem_singleton]
    rw [jsonEncodable_iff]
    simp only [seconds, nanosPerSecond]
    omega
  expiry := by
    simp only [processorCall]
    decide

/-- The first submission passes the checks. -/
theorem processorCall_checked : checkSubmission (processorCall .fresh 1 10) = .ok () := by
  decide +kernel

/-- The submissions of the host can follow each other. -/
theorem processorCall_submitted {db : Db} (hdb : Consistent db)
    (hhosts : db.hosts = oneHostDb.hosts) {quality : MetricQuality} {sequence : UInt64} {second : Int}
    (hchecked : checkSubmission (processorCall quality sequence second) = .ok ())
    (hunseen : keyReceived db (processorCall quality sequence second).envelope.idempotencyKey =
      false) :
    Submitted db (processorCall quality sequence second) (Uuid.ofByte 2) (Uuid.ofByte 1) where
  consistent := hdb
  agent := rfl
  host := rfl
  known := by simp [hhosts, oneHostDb]
  checked := hchecked
  unseen := hunseen
  noNul := processorCall_noNul quality sequence second
  finite := processorCall_finite quality sequence second

/-- The first of them, received at a hundred seconds in a capacity state. -/
def submission (capacity : Option Bool) : Call :=
  { processorCall .fresh 1 10 with capacity := capacity }

theorem submission_inserted (capacity : Option Bool) :
    inserted (serve oneHostDb (submission capacity)).1 = true := by
  have hs := processorCall_storable .fresh (by decide) 1 (by decide) 10 (by decide) (by decide)
  have hsubmitted :=
    processorCall_submitted oneHostDb_reachable.consistent rfl processorCall_checked rfl
  have hcall : Submitted oneHostDb (submission capacity) (Uuid.ofByte 2) (Uuid.ofByte 1) :=
    ⟨hsubmitted.consistent, hsubmitted.agent, hsubmitted.host, hsubmitted.known,
      hsubmitted.checked, hsubmitted.unseen, hsubmitted.noNul, hsubmitted.finite⟩
  have hstorable : Storable (submission capacity) :=
    ⟨hs.qualities, hs.health, hs.keyLength, hs.sequence, hs.sampleCount, hs.distinct, hs.clocks,
      hs.observedYear, hs.sampleYears, hs.expiry⟩
  exact (serve_of_storable hcall hstorable).1

theorem persistEnvelope_fresh_processorCall :
    (persistEnvelope healthy { oneHostDb with capacityStatus := some true }
        (processorCall .fresh 1 10)).1 = .ok ⟨true, true⟩ ∧
      (persistEnvelope healthy { oneHostDb with capacityStatus := some false }
        (processorCall .fresh 1 10)).1 = .ok ⟨true, false⟩ := by
  have h := (persistEnvelope_both_modes_iff oneHostDb_reachable List.mem_cons_self rfl
    processorCall_checked rfl (processorCall_noNul .fresh 1 10)
    (processorCall_finite .fresh 1 10)).mpr
    (processorCall_storable .fresh (by decide) 1 (by decide) 10 (by decide) (by decide))
  exact ⟨h true, h false⟩

/-- One experimental reading makes both modes refuse the whole envelope. -/
theorem persistEnvelope_experimental_processorCall :
    Reachable oneHostDb ∧
      (∃ a ∈ oneHostDb.agents,
        (processorCall .experimental 1 10).identity = ⟨a.id.toText, a.hostId.toText⟩) ∧
      checkSubmission (processorCall .experimental 1 10) = .ok () ∧
      keyReceived oneHostDb (processorCall .experimental 1 10).envelope.idempotencyKey = false ∧
      NoNul (processorCall .experimental 1 10).envelope ∧
      FiniteValues (processorCall .experimental 1 10).envelope ∧
      (persistEnvelope healthy { oneHostDb with capacityStatus := some true }
        (processorCall .experimental 1 10)).1 =
          .error (.insertSample "m" (.check "metric_samples_quality_check")) ∧
      (persistEnvelope healthy { oneHostDb with capacityStatus := some false }
        (processorCall .experimental 1 10)).1 =
          .error (.upsertLatest "m" (.check "metric_latest_quality_check")) :=
  ⟨oneHostDb_reachable, ⟨_, List.mem_cons_self, rfl⟩, by decide +kernel, rfl,
    processorCall_noNul .experimental 1 10, processorCall_finite .experimental 1 10,
    by decide +kernel, by decide +kernel⟩

end NodeScope.Telemetry
