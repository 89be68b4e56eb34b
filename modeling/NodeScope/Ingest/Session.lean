import NodeScope.Ingest.Protocol

/-!
# One call among many

The key of an envelope is in one of two tables, so no index makes it unique. What does
is the order of a transaction: it holds the lock on the key when it looks for it, and
until its row is visible. `Sound` says what this gives for one call, whatever the others
do, and the lemmas below that every step of the call keeps it.
-/

namespace NodeScope.Ingest

open Storage Lib Lib.Check Telemetry App Agent

/-- The rows with a key in the two tables taken together. -/
def rows (db : Db) (k : String) : Nat :=
  (db.telemetryBatches.countP fun r => r.idempotencyKey == k) +
    db.ingestReceipts.countP fun r => r.idempotencyKey == k

theorem keyReceived_eq_false {db : Db} {k : String} : keyReceived db k = false ↔ rows db k = 0 := by
  simp [keyReceived, rows, List.countP_eq_zero]

theorem keyReceived_eq_true {db : Db} {k : String} : keyReceived db k = true ↔ 1 ≤ rows db k := by
  rw [← Bool.not_eq_false, keyReceived_eq_false]
  omega

/-- The key a written row adds to the two tables. -/
def putKey : Put → Option String
  | .batch row => some row.idempotencyKey
  | .receipt row => some row.idempotencyKey
  | _ => none

theorem rows_put (db : Db) (p : Put) (k : String) :
    rows (db.put p) k = rows db k + (putKey p).toList.count k := by
  cases p with
  | batch row =>
      simp only [rows, Db.put, List.countP_append, List.countP_singleton, putKey,
        Option.toList_some, List.count_singleton]
      omega
  | receipt row =>
      simp only [rows, Db.put, List.countP_append, List.countP_singleton, putKey,
        Option.toList_some, List.count_singleton]
      omega
  | sample row => rfl
  | latest row => rfl
  | container row => rfl

theorem rows_puts (db : Db) (ps : List Put) (k : String) :
    rows (db.puts ps) k = rows db k + (ps.filterMap putKey).count k := by
  induction ps generalizing db with
  | nil => rfl
  | cons p rest ih =>
      have hcons : (p :: rest).filterMap putKey = (putKey p).toList ++ rest.filterMap putKey := by
        rw [List.filterMap_cons]
        cases putKey p <;> rfl
      rw [hcons, List.count_append, ← Nat.add_assoc, ← rows_put]
      exact ih (db.put p)

/-- The two statements that write the key. -/
def keyed : Write → Bool
  | .rawBatch => true
  | .receipt => true
  | _ => false

theorem exec_putKey {lost : Bool} {db : Db} {c : Call} {w : Write} {p : Option Put}
    (h : w.exec lost db c = .ok p) :
    p.toList.filterMap putKey = if keyed w then [c.envelope.idempotencyKey] else [] := by
  obtain ⟨hostId, -, rfl⟩ := Write.exec_ok h
  cases w with
  | rawBatch => rfl
  | receipt => rfl
  | rawSample s => rfl
  | latest s => cases admits db (Write.proposal c hostId (.latest s)) <;> rfl
  | container x => cases admits db (Write.proposal c hostId (.container x)) <;> rfl

/-- The key is written by the first statement of the sequence and by no other. -/
theorem writes_keyed (c : Call) (rawRetained : Bool) :
    ∃ first rest, writes c rawRetained = first :: rest ∧ keyed first = true ∧
      ∀ w ∈ rest, keyed w = false := by
  refine ⟨if rawRetained then .rawBatch else .receipt,
    c.envelope.samples.flatMap (sampleWrites rawRetained) ++
      c.envelope.containers.map .container ++
      [.latest (clockOffsetSample c.envelope.observedAt c.now)], rfl, ?_, ?_⟩
  · cases rawRetained <;> rfl
  · intro w hw
    simp only [List.mem_append, List.mem_flatMap, List.mem_map, List.mem_singleton] at hw
    rcases hw with (⟨s, -, hw⟩ | ⟨x, -, rfl⟩) | rfl
    · cases rawRetained with
      | true =>
          simp only [sampleWrites, if_true, List.mem_cons, List.not_mem_nil, or_false] at hw
          rcases hw with rfl | rfl <;> rfl
      | false =>
          simp only [sampleWrites, Bool.false_eq_true, if_false, List.mem_singleton] at hw
          rw [hw]
          rfl
    · rfl
    · rfl

/-- The lock outlives the lookup. -/
theorem Stage.holds_of_pastCheck (stage : Stage) (h : stage.pastCheck = true) :
    stage.holds = true := by
  cases stage <;> first | rfl | exact absurd h (by simp [Stage.pastCheck])

/-- What a transaction has written so far adds its own key once, from its first
statement on. -/
def OwnKeys (s : Session) : Prop :=
  match s.stage with
  | .writing rawRetained own rest =>
      (own = [] ∧ rest = writes s.call rawRetained) ∨
        (own.filterMap putKey = [s.key] ∧ ∀ w ∈ rest, keyed w = false)
  | .committing _ own => own.filterMap putKey = [s.key]
  | _ => True

/-- What holds of a call at any time. A key that was not found is still absent, since
its lock is held; and a call that returned a success has a row to point at, unless it
was pruned. -/
structure Sound (db : Db) (pruned : List String) (s : Session) : Prop where
  fresh : s.stage.pastCheck = true → rows db s.key = 0
  own : OwnKeys s
  stored : ∀ rawRetained, s.stage = .committed rawRetained → s.key ∈ pruned ∨ 1 ≤ rows db s.key
  inserted : ∀ rawRetained, s.result = some (.ok ⟨true, rawRetained⟩) →
    s.stage = .committed rawRetained
  found : ∀ rawRetained, s.result = some (.ok ⟨false, rawRetained⟩) →
    (s.stage = .locked ∨ s.stage = .rolledBack) ∧ (s.key ∈ pruned ∨ 1 ≤ rows db s.key)

section Session

variable {db : Db} {pruned : List String} {s s' : Session}

theorem Sound.returns_error (h : Sound db pruned s) (e : PersistError) :
    Sound db pruned (s.returns (.error e)) where
  fresh := h.fresh
  own := h.own
  stored := h.stored
  inserted := by
    intro rawRetained hresult
    exact absurd hresult (by simp [Session.returns])
  found := by
    intro rawRetained hresult
    exact absurd hresult (by simp [Session.returns])

/-- The statements that are answered as the call hopes, with what they tell it. -/
inductive Moves (db : Db) (c : Call) (lockFree : Bool) : Stage → Stage → Prop where
  | begin : Moves db c lockFree .idle .begun
  | lock : lockFree = true → Moves db c lockFree .begun .locked
  | lookup : rows db c.envelope.idempotencyKey = 0 → Moves db c lockFree .locked .unseen
  | capacity (rawRetained : Bool) :
      Moves db c lockFree .unseen (.writing rawRetained [] (writes c rawRetained))
  | write {rawRetained : Bool} {own : List Put} {w : Write} {rest : List Write} {p : Option Put} :
      w.exec false (db.puts own) c = .ok p →
      Moves db c lockFree (.writing rawRetained own (w :: rest))
        (.writing rawRetained (own ++ p.toList) rest)
  | commit {rawRetained : Bool} {own : List Put} :
      Moves db c lockFree (.writing rawRetained own []) (.committing rawRetained own)

/-- No statement makes a commit take effect. -/
theorem Moves.ne_committed {c : Call} {lockFree : Bool} {stage t : Stage}
    (h : Moves db c lockFree stage t) (rawRetained : Bool) : t ≠ .committed rawRetained := by
  cases h <;> simp

/-- Everything a statement can do to a call: move it on, or make it return. -/
theorem Session.next_cases {lockFree : Bool} (hn : s.next db lockFree = some s') :
    s.result = none ∧
      ((∃ t, Moves db s.call lockFree s.stage t ∧ s' = { s with stage := t }) ∨
        (∃ e, s' = s.returns (.error e)) ∨
        (∃ e, s.stage = .idle ∧ s' = Session.returns { s with stage := .rolledBack } (.error e)) ∨
        (s.stage = .locked ∧ 1 ≤ rows db s.key ∧ s' = s.returns (.ok ⟨false, false⟩)) ∨
        ∃ rawRetained, s.stage = .committed rawRetained ∧
          s' = s.returns (.ok ⟨true, rawRetained⟩)) := by
  obtain ⟨call, stage, result⟩ := s
  cases result with
  | some result => simp [Session.next] at hn
  | none =>
    refine ⟨rfl, ?_⟩
    simp only [Session.next, Option.isSome_none, Bool.false_eq_true, if_false] at hn
    cases stage with
    | idle =>
        cases hcheck : checkSubmission call with
        | error e =>
            simp only [hcheck, Option.some.injEq] at hn
            exact Or.inr (Or.inr (Or.inl ⟨e, rfl, hn.symm⟩))
        | ok u =>
            simp only [hcheck, Option.some.injEq] at hn
            exact Or.inl ⟨.begun, .begin, hn.symm⟩
    | begun =>
        cases hnul : hasNul (Session.key ⟨call, .begun, none⟩) with
        | true =>
            simp only [hnul, if_true, Option.some.injEq] at hn
            exact Or.inr (Or.inl ⟨_, hn.symm⟩)
        | false =>
            simp only [hnul, Bool.false_eq_true, if_false] at hn
            obtain ⟨hfree, hn⟩ := Option.ite_none_right_eq_some.mp hn
            exact Or.inl ⟨.locked, .lock hfree, (Option.some.inj hn).symm⟩
    | locked =>
        cases hkey : keyReceived db (Session.key ⟨call, .locked, none⟩) with
        | true =>
            simp only [hkey, if_true, Option.some.injEq] at hn
            exact Or.inr (Or.inr (Or.inr (Or.inl ⟨rfl, keyReceived_eq_true.mp hkey, hn.symm⟩)))
        | false =>
            simp only [hkey, Bool.false_eq_true, if_false, Option.some.injEq] at hn
            exact Or.inl ⟨.unseen, .lookup (keyReceived_eq_false.mp hkey), hn.symm⟩
    | unseen =>
        simp only [Option.some.injEq] at hn
        exact Or.inl ⟨_, .capacity _, hn.symm⟩
    | writing rawRetained own rest =>
        cases rest with
        | nil =>
            simp only [Option.some.injEq] at hn
            exact Or.inl ⟨_, .commit, hn.symm⟩
        | cons w rest =>
            cases hexec : w.exec false (db.puts own) call with
            | error e =>
                simp only [hexec, Option.some.injEq] at hn
                exact Or.inr (Or.inl ⟨e, hn.symm⟩)
            | ok p =>
                simp only [hexec, Option.some.injEq] at hn
                exact Or.inl ⟨_, .write hexec, hn.symm⟩
    | committing rawRetained own => exact absurd hn (by simp)
    | committed rawRetained =>
        simp only [Option.some.injEq] at hn
        exact Or.inr (Or.inr (Or.inr (Or.inr ⟨rawRetained, rfl, hn.symm⟩)))
    | rolledBack => exact absurd hn (by simp)

/-- A statement that succeeds keeps the writes in order, and keeps the key absent. -/
theorem Sound.move {lockFree : Bool} {t : Stage} (h : Sound db pruned s)
    (hresult : s.result = none) (hmove : Moves db s.call lockFree s.stage t) :
    Sound db pruned { s with stage := t } ∧
      (t.holds = true → s.stage.holds = true ∨ lockFree = true) := by
  obtain ⟨call, stage, result⟩ := s
  have hrunning : ∀ {t : Stage}, (t.pastCheck = true → rows db call.envelope.idempotencyKey = 0) →
      OwnKeys ⟨call, t, result⟩ → (∀ rawRetained, t ≠ .committed rawRetained) →
      Sound db pruned ⟨call, t, result⟩ := by
    intro t hfresh hown hstage
    simp only at hresult
    refine ⟨hfresh, hown, fun rawRetained ht => absurd ht (hstage rawRetained), ?_, ?_⟩
    · simp [hresult]
    · simp [hresult]
  cases hmove with
  | begin => exact ⟨hrunning (by simp [Stage.pastCheck]) trivial (by simp), by simp [Stage.holds]⟩
  | lock hfree =>
      exact ⟨hrunning (by simp [Stage.pastCheck]) trivial (by simp), fun _ => Or.inr hfree⟩
  | lookup hrows => exact ⟨hrunning (fun _ => hrows) trivial (by simp), fun _ => Or.inl rfl⟩
  | capacity rawRetained =>
      exact ⟨hrunning (fun _ => h.fresh rfl) (Or.inl ⟨rfl, rfl⟩) (by simp), fun _ => Or.inl rfl⟩
  | @write rawRetained own w rest p hexec =>
      refine ⟨hrunning (fun _ => h.fresh rfl) (Or.inr ?_) (by simp), fun _ => Or.inl rfl⟩
      have hput := exec_putKey hexec
      rw [List.filterMap_append, hput]
      rcases h.own with ⟨hown, hrest⟩ | ⟨hown, hrest⟩
      · obtain ⟨first, others, hwrites, hfirst, hothers⟩ := writes_keyed call rawRetained
        obtain ⟨rfl, rfl⟩ := List.cons.inj (hrest.trans hwrites)
        rw [hown, hfirst]
        exact ⟨rfl, hothers⟩
      · obtain ⟨hw, hothers⟩ := List.forall_mem_cons.mp hrest
        rw [hown, hw]
        exact ⟨rfl, hothers⟩
  | @commit rawRetained own =>
      refine ⟨hrunning (fun _ => h.fresh rfl) ?_ (by simp), fun _ => Or.inl rfl⟩
      rcases h.own with ⟨-, hrest⟩ | ⟨hown, -⟩
      · obtain ⟨first, others, hwrites, -⟩ := writes_keyed call rawRetained
        exact absurd (hrest.trans hwrites) (by simp)
      · exact hown

/-- A statement keeps a call sound. It takes a lock only when it is free. -/
theorem Sound.next {lockFree : Bool} (h : Sound db pruned s) (hn : s.next db lockFree = some s') :
    Sound db pruned s' ∧ s'.call = s.call ∧
      (s'.stage.holds = true → s.stage.holds = true ∨ lockFree = true) := by
  obtain ⟨hresult, ⟨t, hmove, rfl⟩ | ⟨e, rfl⟩ | ⟨e, hidle, rfl⟩ | ⟨hstage, hrows, rfl⟩ |
    ⟨raw, hstage, rfl⟩⟩ := Session.next_cases hn
  · obtain ⟨hsound, hholds⟩ := h.move hresult hmove
    exact ⟨hsound, rfl, hholds⟩
  · exact ⟨h.returns_error e, rfl, Or.inl⟩
  · have hrolled : Sound db pruned { s with stage := .rolledBack } :=
      ⟨by simp [Stage.pastCheck], trivial, by simp, by simp [hresult], by simp [hresult]⟩
    exact ⟨hrolled.returns_error e, rfl,
      fun hholds => absurd hholds (by simp [Session.returns, Stage.holds])⟩
  · refine ⟨⟨h.fresh, h.own, h.stored, ?_, ?_⟩, rfl, Or.inl⟩
    · simp [Session.returns]
    · intro raw _
      exact ⟨Or.inl hstage, Or.inr hrows⟩
  · refine ⟨⟨h.fresh, h.own, h.stored, ?_, ?_⟩, rfl, Or.inl⟩
    · intro raw' hresult'
      simp only [Session.returns, Option.some.injEq, Except.ok.injEq, PersistResult.mk.injEq,
        true_and] at hresult'
      rw [← hresult']
      exact hstage
    · simp [Session.returns]

theorem Sound.lose (h : Sound db pruned s) (hl : s.lose db = some s') :
    Sound db pruned s' ∧ s'.call = s.call ∧ s'.stage = s.stage := by
  obtain ⟨-, hl⟩ := Option.ite_none_left_eq_some.mp hl
  obtain rfl := Option.some.inj hl
  exact ⟨h.returns_error _, rfl, rfl⟩

/-- A transaction that ends without a commit leaves the database as it is; one whose
commit takes effect adds a row with its key, which was not there. -/
theorem Session.finish_cases {commit : Bool} {db' : Db} (hf : s.finish db commit = some (s', db')) :
    (s' = { s with stage := .rolledBack } ∧ db' = db ∧
      ∀ rawRetained, s.stage ≠ .committed rawRetained) ∨
    ∃ rawRetained own, s.stage = .committing rawRetained own ∧
      s' = { s with stage := .committed rawRetained } ∧ db' = db.puts own := by
  obtain ⟨call, stage, result⟩ := s
  cases stage with
  | committing rawRetained own =>
      cases commit with
      | true =>
          simp only [Session.finish, if_true, Option.some.injEq, Prod.mk.injEq] at hf
          exact Or.inr ⟨rawRetained, own, rfl, hf.1.symm, hf.2.symm⟩
      | false =>
          simp only [Session.finish, Bool.false_eq_true, if_false, Option.some.injEq,
            Prod.mk.injEq] at hf
          exact Or.inl ⟨hf.1.symm, hf.2.symm, by simp⟩
  | committed rawRetained => exact absurd hf (by simp [Session.finish])
  | _ =>
      obtain ⟨-, hf⟩ := Option.ite_none_left_eq_some.mp hf
      simp only [Option.some.injEq, Prod.mk.injEq] at hf
      exact Or.inl ⟨hf.1.symm, hf.2.symm, by simp⟩

theorem Sound.rollBack (h : Sound db pruned s) (hstage : ∀ raw, s.stage ≠ .committed raw) :
    Sound db pruned { s with stage := .rolledBack } where
  fresh := by simp [Stage.pastCheck]
  own := trivial
  stored := by simp
  inserted := fun raw hresult => absurd (h.inserted raw hresult) (hstage raw)
  found := fun raw hresult => ⟨Or.inr rfl, (h.found raw hresult).2⟩

/-- The rows after a commit takes effect. -/
theorem Sound.rows_commit (h : Sound db pruned s) {raw : Bool} {own : List Put}
    (hstage : s.stage = .committing raw own) (k : String) :
    rows (db.puts own) k = rows db k + if k = s.key then 1 else 0 := by
  have hown := h.own
  simp only [OwnKeys, hstage] at hown
  rw [rows_puts, hown, List.count_singleton]
  by_cases hk : k = s.key
  · simp [hk]
  · simp [hk, Ne.symm hk]

theorem Sound.commit (h : Sound db pruned s) {raw : Bool} {own : List Put}
    (hstage : s.stage = .committing raw own) :
    Sound (db.puts own) pruned { s with stage := .committed raw } where
  fresh := by simp [Stage.pastCheck]
  own := trivial
  stored := by
    intro _ _
    right
    rw [show Session.key { s with stage := .committed raw } = s.key from rfl,
      h.rows_commit hstage, if_pos rfl]
    omega
  inserted := by
    intro raw' hresult
    exact absurd (h.inserted raw' hresult) (by simp [hstage])
  found := by
    intro raw' hresult
    exact absurd (h.found raw' hresult).1 (by simp [hstage])

/-- A call stays sound when the database changes, if its row is not taken away and its
absent key stays absent. -/
theorem Sound.mono (h : Sound db pruned s) {db' : Db} {pruned' : List String}
    (hfresh : s.stage.pastCheck = true → rows db s.key = 0 → rows db' s.key = 0)
    (hkept : s.key ∈ pruned ∨ 1 ≤ rows db s.key → s.key ∈ pruned' ∨ 1 ≤ rows db' s.key) :
    Sound db' pruned' s where
  fresh := fun hpast => hfresh hpast (h.fresh hpast)
  own := h.own
  stored := fun raw hstage => hkept (h.stored raw hstage)
  inserted := h.inserted
  found := fun raw hresult => ⟨(h.found raw hresult).1, hkept (h.found raw hresult).2⟩

end Session

end NodeScope.Ingest
