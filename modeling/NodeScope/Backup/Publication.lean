import NodeScope.Backup.FencingToken
import NodeScope.Backup.Snapshot

/-!
# Tokens, overlapping runs and stale publications

The leases' invariants hold along any interleaving of backup runs. Two things a run relies
on are not given by them. A replica that takes its own lapsed lease again gets its old
token back, and between a run's second check and its rename another replica may acquire
the lease. Both are characterised exactly.
-/

namespace NodeScope.Backup

open Storage Lib Lib.Check Lib.Time

/-- An acquisition that succeeded stands at a place of the history and gave this lease. -/
def Obtained (granted : List Grant) (replicaId : String) (h : Held) : Prop :=
  ∃ g, granted[h.obtained]? = some g ∧ g.call.leaseName = "daily_backup" ∧
    g.call.replicaId = replicaId ∧ g.lease = h.lease

/-- From one place of the history up to another only this replica acquired the lease. -/
def Undisturbed (granted : List Grant) (replicaId : String) (first last : Nat) : Prop :=
  ∀ (j : Nat) (g : Grant), first ≤ j → j < last → granted[j]? = some g →
    g.call.leaseName = "daily_backup" → g.call.replicaId = replicaId

theorem Obtained.mono {granted granted' : List Grant} {replicaId : String} {h : Held}
    (hgrows : granted <+: granted') (hobtained : Obtained granted replicaId h) :
    Obtained granted' replicaId h := by
  obtain ⟨g, hg, hrest⟩ := hobtained
  exact ⟨g, getElem?_of_extended hgrows hg, hrest⟩

theorem Undisturbed.mono {granted granted' : List Grant} {replicaId : String} {first last : Nat}
    (hgrows : granted <+: granted') (hlast : last ≤ granted.length)
    (h : Undisturbed granted replicaId first last) : Undisturbed granted' replicaId first last := by
  intro j g hfirst hj hg
  refine h j g hfirst hj ?_
  rw [← hg, List.prefix_iff_getElem?.mp hgrows j (by omega), List.getElem?_eq_getElem (by omega)]

/-- What is known of a run: the lease it holds was granted to it, and when its second check
has passed no other replica had acquired the lease up to that check. -/
structure Run.Sound (granted : List Grant) (run : Run) : Prop where
  obtained : ∀ h, run.phase.held = some h → Obtained granted run.request.replicaId h
  cleared : ∀ h seen, run.phase = .holding h (.cleared seen) →
    h.obtained < seen ∧ seen ≤ granted.length ∧
      Undisturbed granted run.request.replicaId (h.obtained + 1) seen

/-- The same of a publication. -/
structure Publication.Sound (granted : List Grant) (p : Publication) : Prop where
  obtained_lt : p.obtained < p.seen
  seen_le : p.seen ≤ p.renamedAt
  renamedAt_le : p.renamedAt ≤ granted.length
  untilCheck : Undisturbed granted p.replicaId (p.obtained + 1) p.seen

theorem Run.Sound.mono {granted granted' : List Grant} {run : Run} (hgrows : granted <+: granted')
    (h : run.Sound granted) : run.Sound granted' where
  obtained held hheld := (h.obtained held hheld).mono hgrows
  cleared held seen hphase := by
    obtain ⟨hlt, hle, hundisturbed⟩ := h.cleared held seen hphase
    exact ⟨hlt, hle.trans hgrows.length_le, hundisturbed.mono hgrows hle⟩

theorem Publication.Sound.mono {granted granted' : List Grant} {p : Publication}
    (hgrows : granted <+: granted') (h : p.Sound granted) : p.Sound granted' where
  obtained_lt := h.obtained_lt
  seen_le := h.seen_le
  renamedAt_le := h.renamedAt_le.trans hgrows.length_le
  untilCheck := h.untilCheck.mono hgrows (h.seen_le.trans h.renamedAt_le)

/-- A run without a lease. -/
theorem Run.sound_of_none {granted : List Grant} {run : Run} (h : run.phase.held = none) :
    run.Sound granted where
  obtained held hheld := absurd (hheld.symm.trans h) (by simp)
  cleared held seen hphase := by
    rw [hphase] at h
    exact absurd h (by simp [Phase.held])

/-- A step keeps the lease of a run. -/
theorem advance_held {leases : Leases} {files : Files} {env : Env} {r : Request} {h h' : Held}
    {stage : Stage} (hheld : (advance leases files env r h stage).2.held = some h') :
    h'.lease = h.lease ∧ h'.obtained = h.obtained := by
  cases stage with
  | renamed =>
      obtain rfl : h = h' := by simpa [advance, Phase.held] using hheld
      exact ⟨rfl, rfl⟩
  | _ =>
      simp only [advance, fail] at hheld
      split_ifs at hheld <;> obtain rfl := Option.some.inj hheld <;> exact ⟨rfl, rfl⟩

/-- A step that clears a run for the rename has found the lease current. -/
theorem advance_cleared {leases : Leases} {files : Files} {env : Env} {r : Request} {h h' : Held}
    {stage : Stage} {seen : Nat}
    (hphase : (advance leases files env r h stage).2 = .holding h' (.cleared seen)) :
    seen = leases.granted.length ∧ h'.obtained = h.obtained ∧
      leaseIsCurrent leases.table "daily_backup" r.replicaId h.lease.fencingToken leases.clock =
        true := by
  cases stage with
  | archived =>
      simp only [advance, fail] at hphase
      split_ifs at hphase with hfails hcurrent
      simp only [Phase.holding.injEq, Stage.cleared.injEq] at hphase
      obtain ⟨rfl, rfl⟩ := hphase
      exact ⟨rfl, rfl, hcurrent⟩
  | renamed => simp [advance] at hphase
  | _ =>
      simp only [advance, fail] at hphase
      split_ifs at hphase
      simp at hphase

theorem Run.Sound.advance {leases : Leases} (hfenced : Fenced leases) {r : Request} {h : Held}
    {stage : Stage} (hsound : Run.Sound leases.granted ⟨r, .holding h stage⟩) (files : Files)
    (env : Env) : Run.Sound leases.granted ⟨r, (Backup.advance leases files env r h stage).2⟩ where
  obtained h' hheld := by
    obtain ⟨hlease, hobtained⟩ := advance_held hheld
    obtain ⟨g, hg, hname, hreplica, hgrant⟩ := hsound.obtained h rfl
    exact ⟨g, by rw [hobtained]; exact hg, hname, hreplica, hgrant.trans hlease.symm⟩
  cleared h' seen hphase := by
    obtain ⟨rfl, hobtained, hcurrent⟩ := advance_cleared hphase
    obtain ⟨g, hg, hname, hreplica, hgrant⟩ := hsound.obtained h rfl
    rw [hobtained]
    refine ⟨(List.getElem?_eq_some_iff.mp hg).1, le_rfl, ?_⟩
    intro j g' hj _ hg' hname'
    rw [← hgrant, ← hname] at hcurrent
    rw [show r.replicaId = g.call.replicaId from hreplica.symm] at hcurrent
    exact (hfenced.no_other_since hg hcurrent hj hg' (hname'.trans hname.symm)).trans hreplica

/-- What is known in every state of every interleaving. -/
structure World.Sound (w : World) : Prop where
  fenced : Fenced w.leases
  chained : Chained w.leases
  runs : ∀ run ∈ w.runs, run.Sound w.leases.granted
  published : ∀ p ∈ w.published, p.Sound w.leases.granted

/-- The lease machine moves, the runs are those from before and one that is sound again,
and the publications are those from before and sound ones. -/
theorem World.Sound.of_moves {w w' : World} (h : w.Sound) (hmoves : w.leases.Moves w'.leases)
    (hruns : ∀ run ∈ w'.runs, run ∈ w.runs ∨ run.Sound w'.leases.granted)
    (hpublished : ∀ p ∈ w'.published, p ∈ w.published ∨ p.Sound w'.leases.granted) :
    w'.Sound where
  fenced := h.fenced.moves hmoves
  chained := h.chained.moves hmoves h.fenced
  runs run hrun := (hruns run hrun).elim (fun hold => (h.runs run hold).mono hmoves.granted) id
  published p hp :=
    (hpublished p hp).elim (fun hold => (h.published p hold).mono hmoves.granted) id

theorem leaserAcquire_backup (table : LeaseTable) (replicaId : String) (vNow : Int) :
    leaserAcquire table "daily_backup" replicaId (seconds 1800) vNow =
      acquireMaintenanceLease table ⟨"daily_backup", replicaId, 1800, vNow⟩ := rfl

theorem World.Sound.acquire {w : World} (h : w.Sound) (index : Nat) (env : Env) (r : Request)
    (vNow : Int) : (w.acquire index env r vNow).Sound := by
  cases hresult : acquireMaintenanceLease w.leases.table ⟨"daily_backup", r.replicaId, 1800, vNow⟩ with
  | error e =>
      have hw : w.acquire index env r vNow =
          { w with runs := w.runs.set index ⟨r, .ended none (.error (.acquireBackupLease e))⟩ } := by
        simp only [World.acquire, leaserAcquire_backup, hresult]
      rw [hw]
      refine h.of_moves (Or.inl ⟨rfl, rfl⟩) ?_ fun p hp => Or.inl hp
      intro run hrun
      refine (List.mem_or_eq_of_mem_set hrun).imp_right ?_
      rintro rfl
      exact Run.sound_of_none rfl
  | ok result =>
      obtain ⟨table, lease⟩ := result
      have hw : w.acquire index env r vNow =
          ⟨w.leases.acquire ⟨"daily_backup", r.replicaId, 1800, vNow⟩, w.files,
            w.runs.set index
              ⟨r, .holding ⟨lease, w.leases.granted.length, env.hostTime, 0⟩ .leased⟩,
            w.published⟩ := by
        simp only [World.acquire, leaserAcquire_backup, hresult, Leases.acquire]
      rw [hw]
      refine h.of_moves (w.leases.moves_acquire _) ?_ fun p hp => Or.inl hp
      intro run hrun
      refine (List.mem_or_eq_of_mem_set hrun).imp_right ?_
      rintro rfl
      constructor
      · intro held hheld
        obtain rfl := Option.some.inj hheld
        rw [Leases.acquire_of_eq_ok hresult]
        exact ⟨_, Machine.getElem?_concat.mpr (Or.inr ⟨rfl, rfl⟩), rfl, rfl, rfl⟩
      · intro held seen hphase
        simp at hphase

theorem Run.Sound.publication {leases : Leases} {env : Env} {r : Request} {held : Held}
    {stage : Stage} (hrun : Run.Sound leases.granted ⟨r, .holding held stage⟩) {p : Publication}
    (hp : p ∈ Backup.publication leases env r held stage) : p.Sound leases.granted := by
  cases stage with
  | cleared seen =>
      obtain ⟨hlt, hle, hundisturbed⟩ := hrun.cleared held seen rfl
      simp only [Backup.publication, List.mem_ite_nil_left, List.mem_singleton] at hp
      obtain ⟨-, rfl⟩ := hp
      exact ⟨hlt, hle, le_rfl, hundisturbed⟩
  | _ => simp [Backup.publication] at hp

theorem World.Sound.step (w : World) (a : Action) (w' : World) (hstep : w.step a = some w')
    (h : w.Sound) : w'.Sound := by
  cases a with
  | leases a =>
      obtain ⟨leases, hleases, rfl⟩ := Option.map_eq_some_iff.mp hstep
      exact h.of_moves (Leases.moves_step hleases) (fun _ hrun => Or.inl hrun) fun _ hp => Or.inl hp
  | start r =>
      obtain rfl := Option.some.inj hstep
      refine h.of_moves (Or.inl ⟨rfl, rfl⟩) ?_ fun p hp => Or.inl hp
      intro run hrun
      refine (List.mem_append.mp hrun).imp_right fun hnew => ?_
      obtain rfl := List.mem_singleton.mp hnew
      refine Run.sound_of_none ?_
      cases r.validate <;> rfl
  | acquire index env =>
      simp only [World.step] at hstep
      split at hstep
      · rename_i r vNow hget
        split_ifs at hstep
        · obtain rfl := Option.some.inj hstep
          refine h.of_moves (Or.inl ⟨rfl, rfl⟩) ?_ fun p hp => Or.inl hp
          intro run hrun
          refine (List.mem_or_eq_of_mem_set hrun).imp_right ?_
          rintro rfl
          exact Run.sound_of_none rfl
        · obtain rfl := Option.some.inj hstep
          exact h.acquire index env r vNow
      · simp at hstep
  | advance index env =>
      simp only [World.step] at hstep
      split at hstep
      · rename_i r held stage hget
        obtain rfl := Option.some.inj hstep
        have hrun := h.runs _ (List.mem_of_getElem? hget)
        refine h.of_moves (Or.inl ⟨rfl, rfl⟩) ?_ ?_
        · intro run hmem
          refine (List.mem_or_eq_of_mem_set hmem).imp_right ?_
          rintro rfl
          exact hrun.advance h.fenced w.files env
        · intro p hp
          exact (List.mem_append.mp hp).imp_right fun hnew => hrun.publication hnew
      · simp at hstep
  | stop index =>
      simp only [World.step] at hstep
      split at hstep
      · rename_i r vNow hget
        obtain rfl := Option.some.inj hstep
        refine h.of_moves (Or.inl ⟨rfl, rfl⟩) ?_ fun p hp => Or.inl hp
        intro run hrun
        refine (List.mem_or_eq_of_mem_set hrun).imp_right ?_
        rintro rfl
        exact Run.sound_of_none rfl
      · rename_i r held stage hget
        obtain rfl := Option.some.inj hstep
        have hrun := h.runs _ (List.mem_of_getElem? hget)
        refine h.of_moves (Or.inl ⟨rfl, rfl⟩) ?_ fun p hp => Or.inl hp
        intro run hmem
        refine (List.mem_or_eq_of_mem_set hmem).imp_right ?_
        rintro rfl
        exact ⟨hrun.obtained, fun _ _ hphase => absurd hphase (by simp)⟩
      · simp at hstep

theorem World.sound_init (clock : Int) : (World.init clock).Sound where
  fenced := fenced_init clock LeaseTable.empty
  chained := chained_init clock
  runs run hrun := by simp [World.init] at hrun
  published p hp := by simp [World.init] at hp

theorem World.sound_run {clock : Int} {actions : List Action} {w : World}
    (hrun : (World.init clock).run actions = some w) : w.Sound :=
  Machine.invariant_run World.Sound.step hrun (World.sound_init clock)

/-- Two runs that both found the lease current, with an acquisition between theirs, or the
later one's own, that renewed no unexpired lease, hold different tokens. -/
def World.RunsDistinguished (w : World) : Prop :=
  ∀ run₁ ∈ w.runs, ∀ run₂ ∈ w.runs, ∀ h₁ h₂ : Held, run₁.phase.held = some h₁ →
    run₂.phase.held = some h₂ → 0 < h₁.passed → 0 < h₂.passed →
    ∀ (n : Nat) (g : Grant), h₁.obtained < n → n ≤ h₂.obtained → w.leases.granted[n]? = some g →
      g.call.leaseName = "daily_backup" → ¬ g.Renews →
      h₁.lease.fencingToken ≠ h₂.lease.fencingToken

theorem World.Sound.runsDistinguished {w : World} (h : w.Sound)
    (hnone : ∀ g ∈ w.leases.granted, ¬ g.Retakes) : w.RunsDistinguished := by
  intro run₁ hrun₁ run₂ hrun₂ h₁ h₂ hheld₁ hheld₂ _ _ n g hfirst hlast hg hname hrenews
  obtain ⟨g₁, hg₁, hname₁, -, hlease₁⟩ := (h.runs run₁ hrun₁).obtained h₁ hheld₁
  obtain ⟨g₂, hg₂, hname₂, -, hlease₂⟩ := (h.runs run₂ hrun₂).obtained h₂ hheld₂
  have hlt : g₁.lease.fencingToken < g.lease.fencingToken :=
    (h.chained.grants n g hg).token_lt hrenews (hnone g (List.mem_of_getElem? hg)) hfirst hg₁
      (hname₁.trans hname.symm)
  have hle : g.lease.fencingToken ≤ g₂.lease.fencingToken :=
    h.chained.token_le hg₂ hg hlast (hname.trans hname₂.symm)
  rw [← hlease₁, ← hlease₂]
  exact (hlt.trans_le hle).ne

/-- In every interleaving of acquisitions and backup runs, tokens identify acquisitions,
and the runs that rest on them, exactly when no replica takes back a lapsed lease of its
own. -/
theorem fencing_tokens_identify_iff (clock : Int) (actions : List Action) (w : World)
    (hrun : (World.init clock).run actions = some w) :
    (TokensIncrease w.leases.granted ∧ w.RunsDistinguished) ↔
      ∀ g ∈ w.leases.granted, ¬ g.Retakes := by
  have hsound := World.sound_run hrun
  rw [hsound.chained.tokensIncrease_iff]
  constructor
  · intro h
    exact h.1
  · intro hnone
    exact ⟨hnone, hsound.runsDistinguished hnone⟩

def dailyRequest (replicaId : String) : Request :=
  ⟨replicaId, "/var/backups/nodescope", modeDefault, 10⟩

/-- A step that succeeds at an hour of the host's clock. -/
def hour (n : Int) : Env := ⟨false, seconds (n * 3600), [], 0⟩

/-- One replica starts a second run after its lease of the first lapsed, while the first is
still dumping. Both find the lease current. -/
def overlappingRuns : List Action :=
  [.start (dailyRequest "framework"), .acquire 0 (hour 0), .advance 0 (hour 0),
    .leases (.tick (sqlSeconds 3600)), .start (dailyRequest "framework"), .acquire 1 (hour 1),
    .advance 0 (hour 1), .advance 0 (hour 1), .advance 0 (hour 1), .advance 1 (hour 1),
    .advance 1 (hour 1), .advance 1 (hour 1), .advance 1 (hour 1)]

/-- Both runs hold the token 1, though the second acquired an expired lease. -/
theorem lapsed_lease_keeps_token :
    ∃ w, (World.init 0).run overlappingRuns = some w ∧ ¬ TokensIncrease w.leases.granted ∧
      ¬ w.RunsDistinguished := by
  refine ⟨_, rfl, ?_, ?_⟩
  · intro h
    refine absurd (h 1 0 _ _ rfl rfl (by decide) rfl ?_) (by decide)
    rintro ⟨old, hold, -, hlive⟩
    obtain rfl := Option.some.inj hold
    exact absurd hlive (by decide)
  · intro h
    refine h _ List.mem_cons_self _ (List.mem_cons_of_mem _ List.mem_cons_self) _ _ rfl rfl
      (by decide) (by decide) 1 _ (by decide) (by decide) rfl rfl ?_ rfl
    rintro ⟨old, hold, -, hlive⟩
    obtain rfl := Option.some.inj hold
    exact absurd hlive (by decide)

/-- A run on one replica, then, after the lease lapsed, one on the other. -/
def runsInTurn : List Action :=
  [.start (dailyRequest "framework"), .acquire 0 (hour 0), .advance 0 (hour 0),
    .leases (.tick (sqlSeconds 3600)), .start (dailyRequest "asus"), .acquire 1 (hour 1)]

theorem runsInTurn_tokens :
    ∃ w, (World.init 0).run runsInTurn = some w ∧
      w.leases.granted.map (fun g => g.lease.fencingToken) = [1, 2] ∧
      TokensIncrease w.leases.granted ∧ w.RunsDistinguished := by
  obtain ⟨w, hrun, hgranted⟩ : ∃ w, (World.init 0).run runsInTurn = some w ∧
      w.leases.granted = [⟨⟨"daily_backup", "framework", 1800, 0⟩, none, ⟨1, sqlSeconds 1800⟩⟩,
        ⟨⟨"daily_backup", "asus", 1800, sqlSeconds 3600⟩,
          some ⟨"daily_backup", "framework", 1, 0, 0, sqlSeconds 1800⟩, ⟨2, sqlSeconds 5400⟩⟩] :=
    ⟨_, rfl, rfl⟩
  refine ⟨w, hrun, by rw [hgranted]; rfl, ?_⟩
  refine (fencing_tokens_identify_iff 0 runsInTurn w hrun).mpr ?_
  rw [hgranted]
  simp [Grant.Retakes]

/-- No archive got its final name after another replica had acquired the lease. -/
def World.NeverStale (w : World) : Prop :=
  ∀ p ∈ w.published, Undisturbed w.leases.granted p.replicaId (p.obtained + 1) p.renamedAt

/-- In every interleaving, no stale holder has published exactly when in no run another
replica acquired the lease between the second check and the rename. -/
theorem never_stale_iff (clock : Int) (actions : List Action) (w : World)
    (hrun : (World.init clock).run actions = some w) :
    w.NeverStale ↔
      ∀ p ∈ w.published, Undisturbed w.leases.granted p.replicaId p.seen p.renamedAt := by
  have hsound := World.sound_run hrun
  constructor
  · intro hnever p hp j g hfirst hlast
    have hlt := (hsound.published p hp).obtained_lt
    exact hnever p hp j g (by omega) hlast
  · intro hpause p hp j g hfirst hlast
    rcases lt_or_ge j p.seen with hbefore | hafter
    · exact (hsound.published p hp).untilCheck j g hfirst hbefore
    · exact hpause p hp j g hafter hlast

/-- A run of one replica up to its second check. -/
def runToRename : List Action :=
  [.start (dailyRequest "framework"), .acquire 0 (hour 0), .advance 0 (hour 0),
    .advance 0 (hour 0), .advance 0 (hour 0), .advance 0 (hour 0), .advance 0 (hour 0),
    .advance 0 (hour 0)]

/-- The run pauses before its rename for longer than the lease lasts. -/
def pausedRun : List Action :=
  runToRename ++ [.leases (.tick (sqlSeconds 3600)), .start (dailyRequest "asus"),
    .acquire 1 (hour 1), .advance 0 (hour 1)]

/-- The other replica holds the lease when the paused run publishes. -/
theorem paused_run_publishes_stale :
    ∃ w, (World.init 0).run pausedRun = some w ∧ w.published = [⟨"framework", 0, 1, 2⟩] ∧
      ¬ w.NeverStale := by
  refine ⟨_, rfl, rfl, ?_⟩
  intro h
  exact absurd (h _ List.mem_cons_self 1 _ (by decide) (by decide) rfl rfl) (by decide)

theorem prompt_run_publishes :
    ∃ w, (World.init 0).run (runToRename ++ [.advance 0 (hour 0)]) = some w ∧
      w.published = [⟨"framework", 0, 1, 1⟩] ∧ w.NeverStale := by
  obtain ⟨w, hrun, hpublished⟩ :
      ∃ w, (World.init 0).run (runToRename ++ [.advance 0 (hour 0)]) = some w ∧
        w.published = [⟨"framework", 0, 1, 1⟩] :=
    ⟨_, rfl, rfl⟩
  refine ⟨w, hrun, hpublished, (never_stale_iff 0 _ w hrun).mpr ?_⟩
  intro p hp j g hfirst hlast
  rw [hpublished] at hp
  obtain rfl := List.mem_singleton.mp hp
  exact absurd hlast (not_lt.mpr hfirst)

end NodeScope.Backup
