import NodeScope.Agent.SequenceStore

/-!
# Sequence numbers are not reused

A call of `Next` that begins when its store is not behind the state file, and while no
other call is under way, returns a pair above all that were returned in the boot. A store
that is alone on its directory is never behind; two stores are as soon as one of them has
written.
-/

namespace NodeScope.Agent

open Lib

/-- A call of `Next` is under way. -/
def NextPhase.busy : NextPhase → Bool
  | .exited => false
  | .idle => false
  | _ => true

/-- The temporary file has been written and not renamed. -/
def NextPhase.pending : NextPhase → Bool
  | .written => true
  | .closed => true
  | .secured => true
  | _ => false

/-- The names refer to files, and not both to the same one. -/
structure Directory.Sound (d : Directory) : Prop where
  state : ∀ file, d.state = some file → file < d.files.length
  temporary : ∀ file, d.temporary = some file → file < d.files.length ∧ d.state ≠ some file

/-- What holds of a store with a call under way. -/
structure SequenceStore.InCall (host : Host) (store : SequenceStore) : Prop where
  fresh : ∀ p ∈ host.returned, p.1 = host.bootId → p.2 < store.state.sequence
  opened : ∀ file, store.phase = .opened file → host.directory.temporary = some file ∧
    host.directory.files[file]? = some .empty
  pending : store.phase.pending = true → ∃ file, host.directory.temporary = some file ∧
    host.directory.files[file]? = some store.state.marshal
  renamed : store.phase = .renamed →
    openSequenceStore host.directory host.bootId = some store.state

/-- The state file holds at least this number for the boot. -/
def Host.Records (host : Host) (n : Nat) : Prop :=
  ∃ m, openSequenceStore host.directory host.bootId = some ⟨host.bootId, m⟩ ∧ n ≤ m

structure Host.Sound (host : Host) : Prop where
  boots : host.bootId ∉ host.earlierBoots
  returnedBoots : ∀ p ∈ host.returned, p.1 = host.bootId ∨ p.1 ∈ host.earlierBoots
  increasing : host.returned.Pairwise fun p q => p.1 = q.1 → p.2 < q.2
  recorded : ∀ p ∈ host.returned, p.1 = host.bootId → host.Records p.2
  directory : host.directory.Sound
  storeBoots : ∀ store ∈ host.stores, store.state.bootId = host.bootId
  calls : ∀ (i : Nat) (store : SequenceStore), host.stores[i]? = some store →
    store.phase.busy = true → store.InCall host
  alone : ∀ (i j : Nat) (store other : SequenceStore), host.stores[i]? = some store →
    host.stores[j]? = some other → store.phase.busy = true → other.phase.busy = true → i = j

/-- The number the state file has for the boot. -/
def Host.recorded (host : Host) : Nat :=
  ((openSequenceStore host.directory host.bootId).map fun s => s.sequence).getD 0

/-- A call begins only in a store that is not behind the file or at the last number, and
while no other call is under way. -/
def Host.Cautious (host : Host) : HostAction → Prop
  | .next i => ∀ store, host.stores[i]? = some store →
      host.recorded ≤ store.state.sequence ∧ store.state.sequence + 1 < 2 ^ 64 ∧
        ∀ other ∈ host.stores, other.phase.busy = false
  | _ => True

instance (host : Host) (a : HostAction) : Decidable (host.Cautious a) :=
  match a with
  | .next i => inferInstanceAs (Decidable (∀ store ∈ host.stores[i]?,
      host.recorded ≤ store.state.sequence ∧ store.state.sequence + 1 < 2 ^ 64 ∧
        ∀ other ∈ host.stores, other.phase.busy = false))
  | .openStore => .isTrue trivial
  | .proceed _ _ _ => .isTrue trivial
  | .crash _ => .isTrue trivial
  | .reboot _ => .isTrue trivial

theorem openSequenceStore_bootId {d : Directory} {bootId : String} {s : PersistedState}
    (h : openSequenceStore d bootId = some s) : s.bootId = bootId := by
  simp only [openSequenceStore] at h
  split at h
  · obtain rfl := Option.some.inj h
    rfl
  · obtain ⟨t, -, rfl⟩ := Option.map_eq_some_iff.mp h
    split_ifs with heq
    · exact heq
    · rfl

theorem Host.Records.le_recorded {host : Host} {n : Nat} (h : host.Records n) :
    n ≤ host.recorded := by
  obtain ⟨m, hopen, hle⟩ := h
  simpa [Host.recorded, hopen] using hle

/-- The state file decides what a store starts from. -/
theorem openSequenceStore_congr {d d' : Directory} (h : d'.readState = d.readState)
    (bootId : String) : openSequenceStore d' bootId = openSequenceStore d bootId := by
  simp only [openSequenceStore, h]

theorem openSequenceStore_marshal {d : Directory} {s : PersistedState}
    (h : d.readState = some s.marshal) : openSequenceStore d s.bootId = some s := by
  simp [openSequenceStore, h, PersistedState.unmarshal_marshal]

/-- A file that is not the state file can be written without touching the state. -/
theorem readState_set {d : Directory} {file : Nat} (hfile : d.state ≠ some file)
    (contents : Contents) :
    Directory.readState { d with files := d.files.set file contents } = d.readState := by
  simp only [Directory.readState]
  cases hstate : d.state with
  | none => rfl
  | some other =>
      have hne : file ≠ other := by
        rintro rfl
        exact hfile hstate
      rw [Option.bind_some, Option.bind_some, List.getElem?_set_ne hne]

theorem Directory.Sound.set {d : Directory} (h : d.Sound) (file : Nat) (contents : Contents) :
    Directory.Sound { d with files := d.files.set file contents } where
  state other hother := by
    rw [List.length_set]
    exact h.state other hother
  temporary other hother := by
    rw [List.length_set]
    exact h.temporary other hother

/-- Opening the temporary file leaves it empty and the state as it was. -/
theorem Directory.Sound.openTemporary {d : Directory} (h : d.Sound) :
    d.openTemporary.1.Sound ∧ d.openTemporary.1.readState = d.readState ∧
      d.openTemporary.1.temporary = some d.openTemporary.2 ∧
      d.openTemporary.1.files[d.openTemporary.2]? = some .empty := by
  cases htemporary : d.temporary with
  | some file =>
      obtain ⟨hfile, hstate⟩ := h.temporary file htemporary
      have hopen : d.openTemporary = ({ d with files := d.files.set file .empty }, file) := by
        simp only [Directory.openTemporary, htemporary]
      rw [hopen]
      exact ⟨h.set file .empty, readState_set hstate .empty, htemporary,
        List.getElem?_set_self hfile⟩
  | none =>
      have hopen : d.openTemporary =
          (⟨d.files ++ [.empty], d.state, some d.files.length⟩, d.files.length) := by
        simp only [Directory.openTemporary, htemporary]
      rw [hopen]
      refine ⟨⟨?_, ?_⟩, ?_, rfl, by simp⟩
      · intro file hfile
        have hlt := h.state file hfile
        simp only [List.length_append, List.length_singleton]
        omega
      · intro file hfile
        obtain rfl := Option.some.inj hfile
        refine ⟨by simp, ?_⟩
        intro hstate
        exact absurd (h.state _ hstate) (lt_irrefl _)
      · simp only [Directory.readState]
        cases hstate : d.state with
        | none => rfl
        | some file =>
            rw [Option.bind_some, Option.bind_some,
              List.getElem?_append_left (h.state file hstate)]

theorem Host.sound_init (bootId : String) (leftover : Option Contents) :
    (Host.init bootId leftover).Sound where
  boots := by simp [Host.init]
  returnedBoots := by simp [Host.init]
  increasing := List.Pairwise.nil
  recorded := by simp [Host.init]
  directory := by
    constructor
    · intro file hfile
      simp [Host.init] at hfile
    · cases leftover <;> simp [Host.init]
  storeBoots := by simp [Host.init]
  calls := by simp [Host.init]
  alone := by simp [Host.init]

/-- A store without a call under way can be added or put in another's place. -/
theorem Host.Sound.withStores {host : Host} (h : host.Sound) (stores : List SequenceStore)
    (hboots : ∀ store ∈ stores, store.state.bootId = host.bootId)
    (hbusy : ∀ (i : Nat) (store : SequenceStore), stores[i]? = some store →
      store.phase.busy = true → host.stores[i]? = some store) :
    Host.Sound { host with stores := stores } where
  boots := h.boots
  returnedBoots := h.returnedBoots
  increasing := h.increasing
  recorded := h.recorded
  directory := h.directory
  storeBoots := hboots
  calls i store hstore hb := by
    have hcall := h.calls i store (hbusy i store hstore hb) hb
    exact ⟨hcall.fresh, hcall.opened, hcall.pending, hcall.renamed⟩
  alone i j store other hstore hother hb hb' :=
    h.alone i j store other (hbusy i store hstore hb) (hbusy j other hother hb') hb hb'

/-- All other stores are at rest, and the one at `i` takes the next place in its call. -/
theorem Host.Sound.withCall {host host' : Host} (h : host.Sound) {i : Nat} {store : SequenceStore}
    (hbootId : host'.bootId = host.bootId) (hearlier : host'.earlierBoots = host.earlierBoots)
    (hreturned : host'.returned = host.returned) (hdirectory : host'.directory.Sound)
    (hrecorded : ∀ p ∈ host.returned, p.1 = host.bootId → host'.Records p.2)
    (hstores : host'.stores = host.stores.set i store) (hboot : store.state.bootId = host.bootId)
    (hothers : ∀ (j : Nat) (other : SequenceStore), j ≠ i → host.stores[j]? = some other →
      other.phase.busy = false)
    (hcall : store.phase.busy = true → store.InCall host') : host'.Sound where
  boots := by
    rw [hbootId, hearlier]
    exact h.boots
  returnedBoots := by
    rw [hbootId, hearlier, hreturned]
    exact h.returnedBoots
  increasing := by
    rw [hreturned]
    exact h.increasing
  recorded := by
    rw [hreturned, hbootId]
    exact hrecorded
  directory := hdirectory
  storeBoots other hother := by
    rw [hstores] at hother
    rw [hbootId]
    rcases List.mem_or_eq_of_mem_set hother with hold | rfl
    · exact h.storeBoots other hold
    · exact hboot
  calls j other hother hb := by
    rw [hstores] at hother
    rcases Machine.getElem?_set_cases hother with ⟨-, rfl⟩ | ⟨hne, hold⟩
    · exact hcall hb
    · exact absurd hb (by simp [hothers j other hne hold])
  alone j k store₁ store₂ hstore₁ hstore₂ hb₁ hb₂ := by
    rw [hstores] at hstore₁ hstore₂
    rcases Machine.getElem?_set_cases hstore₁ with ⟨rfl, -⟩ | ⟨hne, hold⟩
    · rcases Machine.getElem?_set_cases hstore₂ with ⟨rfl, -⟩ | ⟨hne, hold⟩
      · rfl
      · exact absurd hb₂ (by simp [hothers k store₂ hne hold])
    · exact absurd hb₁ (by simp [hothers j store₁ hne hold])

/-- What a step of a call leaves behind: a sound directory with the state file as it was or
with the state of the store, and the call in its next phase. -/
structure SequenceStore.Proceeds (host host' : Host) (store : SequenceStore) (phase : NextPhase) :
    Prop where
  directory : host'.directory.Sound
  state : host'.directory.readState = host.directory.readState ∨
    host'.directory.readState = some store.state.marshal
  call : phase.busy = true → InCall host' ⟨store.state, phase⟩

variable {host : Host} {store : SequenceStore}

/-- A step that leaves the state file alone. -/
theorem SequenceStore.proceeds_of_readState {phase : NextPhase} {directory : Directory}
    (hdirectory : directory.Sound) (hstate : directory.readState = host.directory.readState)
    (stores : List SequenceStore)
    (hcall : phase.busy = true →
      SequenceStore.InCall { host with directory := directory, stores := stores }
        ⟨store.state, phase⟩) :
    store.Proceeds host { host with directory := directory, stores := stores } phase where
  directory := hdirectory
  state := Or.inl hstate
  call := hcall

/-- A step that changes nothing in the directory. -/
theorem Host.Sound.proceeds_same (h : host.Sound) {phase : NextPhase}
    (stores : List SequenceStore)
    (hcall : phase.busy = true → SequenceStore.InCall host ⟨store.state, phase⟩) :
    store.Proceeds host { host with stores := stores } phase := by
  refine SequenceStore.proceeds_of_readState h.directory rfl stores fun hb => ?_
  obtain ⟨hfresh, hopened, hpending, hrenamed⟩ := hcall hb
  exact ⟨hfresh, hopened, hpending, hrenamed⟩

/-- The rename makes the state of the store the recorded one. -/
theorem Host.Sound.proceeds_rename (h : host.Sound) (hcall : store.InCall host)
    (hphase : store.phase = .secured) (hboot : store.state.bootId = host.bootId)
    {directory : Directory} (hrename : host.directory.rename = some directory)
    (stores : List SequenceStore) :
    store.Proceeds host { host with directory := directory, stores := stores } .renamed := by
  obtain ⟨file, htemporary, hfile⟩ := hcall.pending (by rw [hphase]; rfl)
  obtain ⟨hlt, -⟩ := h.directory.temporary file htemporary
  obtain rfl : (⟨host.directory.files, some file, none⟩ : Directory) = directory := by
    simpa [Directory.rename, htemporary] using hrename
  constructor
  · constructor
    · intro other hother
      obtain rfl := Option.some.inj hother
      exact hlt
    · intro other hother
      exact absurd hother (by simp)
  · exact Or.inr hfile
  · intro _
    refine ⟨hcall.fresh, ?_, ?_, ?_⟩
    · intro other hother
      exact absurd hother (by simp)
    · intro hpending
      exact absurd hpending (by simp [NextPhase.pending])
    · intro _
      change openSequenceStore ⟨host.directory.files, some file, none⟩ host.bootId = _
      rw [← hboot]
      exact openSequenceStore_marshal hfile

/-- Every step of a call but the last one, on a host where only this call is under way. -/
theorem Host.Sound.proceeds_of_eq_some (h : host.Sound) (hcall : store.InCall host)
    (hboot : store.state.bootId = host.bootId) {fails : Bool} {mixture : Contents}
    {directory : Directory} {phase : NextPhase}
    (hstep : store.proceed host.directory fails mixture = some (directory, phase, false))
    (stores : List SequenceStore) :
    store.Proceeds host { host with directory := directory, stores := stores } phase := by
  have hidle : NextPhase.idle.busy = true → SequenceStore.InCall host ⟨store.state, .idle⟩ := by
    intro hb
    exact absurd hb (by simp [NextPhase.busy])
  have hnext : ∀ next : NextPhase, next.pending = true → store.phase.pending = true →
      SequenceStore.InCall host ⟨store.state, next⟩ := by
    intro next hpending hstore
    refine ⟨hcall.fresh, ?_, fun _ => hcall.pending hstore, ?_⟩
    · rintro file rfl
      exact absurd hpending (by simp [NextPhase.pending])
    · rintro rfl
      exact absurd hpending (by simp [NextPhase.pending])
  cases hphase : store.phase with
  | exited => simp [SequenceStore.proceed, hphase] at hstep
  | idle => simp [SequenceStore.proceed, hphase] at hstep
  | renamed => simp [SequenceStore.proceed, hphase] at hstep
  | advanced =>
      simp only [SequenceStore.proceed, hphase] at hstep
      split_ifs at hstep
      · simp only [Option.some.injEq, Prod.mk.injEq, and_true] at hstep
        obtain ⟨rfl, rfl⟩ := hstep
        exact h.proceeds_same stores hidle
      · simp only [Option.some.injEq, Prod.mk.injEq, and_true] at hstep
        obtain ⟨rfl, rfl⟩ := hstep
        obtain ⟨hsound, hstate, htemporary, hempty⟩ := h.directory.openTemporary
        refine SequenceStore.proceeds_of_readState hsound hstate stores fun _ =>
          ⟨hcall.fresh, ?_, ?_, ?_⟩
        · intro file hfile
          obtain rfl := NextPhase.opened.inj hfile
          exact ⟨htemporary, hempty⟩
        · intro hpending
          exact absurd hpending (by simp [NextPhase.pending])
        · intro hrenamed
          exact absurd hrenamed (by simp)
  | opened file =>
      obtain ⟨htemporary, hempty⟩ := hcall.opened file hphase
      obtain ⟨hlt, hother⟩ := h.directory.temporary file htemporary
      simp only [SequenceStore.proceed, hphase, Directory.write, hempty, if_true] at hstep
      split_ifs at hstep
      · simp only [Option.some.injEq, Prod.mk.injEq, and_true] at hstep
        obtain ⟨rfl, rfl⟩ := hstep
        refine SequenceStore.proceeds_of_readState (h.directory.set file mixture)
          (readState_set hother mixture) stores ?_
        intro hb
        exact absurd hb (by simp [NextPhase.busy])
      · simp only [Option.some.injEq, Prod.mk.injEq, and_true] at hstep
        obtain ⟨rfl, rfl⟩ := hstep
        refine SequenceStore.proceeds_of_readState (h.directory.set file _)
          (readState_set hother _) stores fun _ => ?_
        refine ⟨hcall.fresh, ?_, fun _ => ⟨file, htemporary, List.getElem?_set_self hlt⟩, ?_⟩
        · intro other hopened
          exact absurd hopened (by simp)
        · intro hrenamed
          exact absurd hrenamed (by simp)
  | written =>
      simp only [SequenceStore.proceed, hphase, Option.some.injEq, Prod.mk.injEq, and_true] at hstep
      obtain ⟨rfl, rfl⟩ := hstep
      split_ifs
      · exact h.proceeds_same stores hidle
      · exact h.proceeds_same stores fun _ => hnext .closed rfl (by rw [hphase]; rfl)
  | closed =>
      simp only [SequenceStore.proceed, hphase, Option.some.injEq, Prod.mk.injEq, and_true] at hstep
      obtain ⟨rfl, rfl⟩ := hstep
      split_ifs
      · exact h.proceeds_same stores hidle
      · exact h.proceeds_same stores fun _ => hnext .secured rfl (by rw [hphase]; rfl)
  | secured =>
      simp only [SequenceStore.proceed, hphase] at hstep
      split_ifs at hstep
      · simp only [Option.some.injEq, Prod.mk.injEq, and_true] at hstep
        obtain ⟨rfl, rfl⟩ := hstep
        exact h.proceeds_same stores hidle
      · split at hstep
        · simp only [Option.some.injEq, Prod.mk.injEq, and_true] at hstep
          obtain ⟨rfl, rfl⟩ := hstep
          exact h.proceeds_same stores hidle
        · rename_i renamed hrename
          simp only [Option.some.injEq, Prod.mk.injEq, and_true] at hstep
          obtain ⟨rfl, rfl⟩ := hstep
          exact h.proceeds_rename hcall hphase hboot hrename stores

/-- A call returns its pair in its last step. -/
theorem SequenceStore.proceed_returns {d d' : Directory} {fails : Bool} {mixture : Contents}
    {phase : NextPhase} (h : store.proceed d fails mixture = some (d', phase, true)) :
    store.phase = .renamed ∧ d' = d ∧ phase = .idle := by
  cases hphase : store.phase with
  | renamed =>
      simp only [SequenceStore.proceed, hphase, Option.some.injEq, Prod.mk.injEq, and_true] at h
      exact ⟨rfl, h.1.symm, h.2.symm⟩
  | secured =>
      simp only [SequenceStore.proceed, hphase] at h
      split_ifs at h
      · simp at h
      · split at h <;> simp at h
  | advanced =>
      simp only [SequenceStore.proceed, hphase] at h
      split_ifs at h <;> simp at h
  | opened file =>
      simp only [SequenceStore.proceed, hphase] at h
      split_ifs at h <;> simp at h
  | _ => simp [SequenceStore.proceed, hphase] at h

theorem SequenceStore.proceed_busy {d : Directory} {fails : Bool} {mixture : Contents}
    {result : Directory × NextPhase × Bool} (h : store.proceed d fails mixture = some result) :
    store.phase.busy = true := by
  cases hphase : store.phase with
  | exited => simp [SequenceStore.proceed, hphase] at h
  | idle => simp [SequenceStore.proceed, hphase] at h
  | _ => rfl

/-- The call of a store ends, or its process does. -/
theorem Host.Sound.atRest (h : host.Sound) {i : Nat} (hstore : host.stores[i]? = some store)
    (phase : NextPhase) (hphase : phase.busy = false) :
    Host.Sound { host with stores := host.stores.set i ⟨store.state, phase⟩ } := by
  refine h.withStores (host.stores.set i ⟨store.state, phase⟩) ?_ ?_
  · intro other hother
    rcases List.mem_or_eq_of_mem_set hother with hold | rfl
    · exact h.storeBoots other hold
    · exact h.storeBoots store (List.mem_of_getElem? hstore)
  · intro j other hother hb
    rcases Machine.getElem?_set_cases hother with ⟨-, rfl⟩ | ⟨-, hold⟩
    · exact absurd hb (by simp [hphase])
    · exact hold

/-- The pair of a call whose rename took place is returned. -/
theorem Host.Sound.returns (h : host.Sound) {i : Nat} (hstore : host.stores[i]? = some store)
    (hphase : store.phase = .renamed) :
    Host.Sound { host with
      stores := host.stores.set i ⟨store.state, .idle⟩
      returned := host.returned ++ [(store.state.bootId, store.state.sequence)] } := by
  have hcall := h.calls i store hstore (by rw [hphase]; rfl)
  have hboot := h.storeBoots store (List.mem_of_getElem? hstore)
  have hrest := h.atRest hstore NextPhase.idle rfl
  constructor
  · exact h.boots
  · intro p hp
    rcases List.mem_append.mp hp with hold | hnew
    · exact h.returnedBoots p hold
    · obtain rfl := List.mem_singleton.mp hnew
      exact Or.inl hboot
  · refine List.pairwise_append.mpr ⟨h.increasing, List.pairwise_singleton _ _, ?_⟩
    intro p hp q hq hpq
    obtain rfl := List.mem_singleton.mp hq
    exact hcall.fresh p hp (hpq.trans hboot)
  · intro p hp hp'
    rcases List.mem_append.mp hp with hold | hnew
    · exact h.recorded p hold hp'
    · obtain rfl := List.mem_singleton.mp hnew
      refine ⟨store.state.sequence, ?_, le_rfl⟩
      rw [hcall.renamed hphase]
      exact congrArg some (by rw [← hboot])
  · exact h.directory
  · exact hrest.storeBoots
  · intro j other hother hb
    rcases Machine.getElem?_set_cases hother with ⟨-, rfl⟩ | ⟨hne, hold⟩
    · exact absurd hb (by simp [NextPhase.busy])
    · exact absurd (h.alone j i other store hold hstore hb (by rw [hphase]; rfl)) hne
  · exact hrest.alone

theorem Host.Sound.next (h : host.Sound) {i : Nat} (hstore : host.stores[i]? = some store)
    (hbehind : host.recorded ≤ store.state.sequence) (hlast : store.state.sequence + 1 < 2 ^ 64)
    (hothers : ∀ other ∈ host.stores, other.phase.busy = false) (calls : Nat) :
    Host.Sound { host with
      stores := host.stores.set i
        ⟨⟨store.state.bootId, (store.state.sequence + 1) % 2 ^ 64⟩, .advanced⟩
      calls := calls } := by
  refine h.withCall rfl rfl rfl h.directory h.recorded rfl
    (h.storeBoots store (List.mem_of_getElem? hstore)) ?_ ?_
  · intro j other _ hother
    exact hothers other (List.mem_of_getElem? hother)
  · intro _
    refine ⟨?_, ?_, ?_, ?_⟩
    · intro p hp hp'
      have hle := (h.recorded p hp hp').le_recorded
      simp only [Nat.mod_eq_of_lt hlast]
      omega
    · intro file hfile
      exact absurd hfile (by simp)
    · intro hpending
      exact absurd hpending (by simp [NextPhase.pending])
    · intro hrenamed
      exact absurd hrenamed (by simp)

theorem Host.Sound.proceed (h : host.Sound) {i : Nat} (hstore : host.stores[i]? = some store)
    {fails : Bool} {mixture : Contents} {directory : Directory} {phase : NextPhase}
    (hstep : store.proceed host.directory fails mixture = some (directory, phase, false)) :
    Host.Sound { host with
      directory := directory
      stores := host.stores.set i ⟨store.state, phase⟩ } := by
  have hbusy := SequenceStore.proceed_busy hstep
  have hboot := h.storeBoots store (List.mem_of_getElem? hstore)
  have hincall := h.calls i store hstore hbusy
  obtain ⟨hdirectory, hstate, hcall⟩ := h.proceeds_of_eq_some hincall hboot hstep
    (host.stores.set i ⟨store.state, phase⟩)
  refine h.withCall rfl rfl rfl hdirectory ?_ rfl hboot ?_ hcall
  · intro p hp hp'
    rcases hstate with hsame | hmarshal
    · obtain ⟨m, hopen, hle⟩ := h.recorded p hp hp'
      exact ⟨m, (openSequenceStore_congr hsame host.bootId).trans hopen, hle⟩
    · refine ⟨store.state.sequence, ?_, (hincall.fresh p hp hp').le⟩
      rw [← hboot]
      exact openSequenceStore_marshal hmarshal
  intro j other hne hother
  by_contra hb
  exact hne (h.alone j i other store hother hstore (by simpa using hb) hbusy)

/-- A cautious step keeps the invariant. -/
theorem Host.Sound.step (host : Host) (a : HostAction) (host' : Host) (hstep : host.step a = some host')
    (hcautious : host.Cautious a) (h : host.Sound) : host'.Sound := by
  cases a with
  | openStore =>
      obtain ⟨state, hopen, rfl⟩ := Option.map_eq_some_iff.mp hstep
      refine h.withStores (host.stores ++ [⟨state, .idle⟩]) ?_ ?_
      · intro store hmem
        rcases List.mem_append.mp hmem with hold | hnew
        · exact h.storeBoots store hold
        · obtain rfl := List.mem_singleton.mp hnew
          exact openSequenceStore_bootId hopen
      · intro i store hstore hb
        rcases Machine.getElem?_concat.mp hstore with hold | ⟨-, rfl⟩
        · exact hold
        · exact absurd hb (by simp [NextPhase.busy])
  | next i =>
      obtain ⟨store, hstore, hif⟩ := Option.bind_eq_some_iff.mp hstep
      obtain ⟨-, hnext⟩ := Option.ite_none_right_eq_some.mp hif
      obtain rfl := Option.some.inj hnext
      obtain ⟨hbehind, hlast, hothers⟩ := hcautious store hstore
      exact h.next hstore hbehind hlast hothers (host.calls + 1)
  | proceed i fails mixture =>
      obtain ⟨store, hstore, hmap⟩ := Option.bind_eq_some_iff.mp hstep
      obtain ⟨⟨directory, phase, returns⟩, hproceed, rfl⟩ := Option.map_eq_some_iff.mp hmap
      cases returns with
      | false => exact h.proceed hstore hproceed
      | true =>
          obtain ⟨hphase, rfl, rfl⟩ := SequenceStore.proceed_returns hproceed
          exact h.returns hstore hphase
  | crash i =>
      obtain ⟨store, hstore, hcrash⟩ := Option.bind_eq_some_iff.mp hstep
      obtain rfl := Option.some.inj hcrash
      exact h.atRest hstore .exited rfl
  | reboot bootId =>
      simp only [Host.step, Option.ite_none_left_eq_some, not_or] at hstep
      obtain ⟨⟨hnew, hearlier⟩, hreboot⟩ := hstep
      obtain rfl := Option.some.inj hreboot
      have hold : ∀ p ∈ host.returned, p.1 ≠ bootId := by
        rintro p hp rfl
        exact (h.returnedBoots p hp).elim hnew hearlier
      constructor
      · simpa using ⟨hnew, hearlier⟩
      · intro p hp
        exact Or.inr (List.mem_cons.mpr (h.returnedBoots p hp))
      · exact h.increasing
      · intro p hp hp'
        exact absurd hp' (hold p hp)
      · exact h.directory
      · simp
      · simp
      · simp

theorem Host.Sound.nodup (h : host.Sound) : host.returned.Nodup := by
  refine h.increasing.imp ?_
  rintro p q hlt rfl
  exact absurd (hlt rfl) (lt_irrefl _)

/-- With any number of stores on one directory, no pair is returned twice in a run whose
calls all begin in a store that is not behind the state file, while no other call is under
way. -/
theorem cautious_stores_never_repeat (bootId : String) (leftover : Option Contents)
    (actions : List HostAction) (host : Host)
    (hrun : (Host.init bootId leftover).run actions = some host)
    (hcautious : Machine.Along Host.step Host.Cautious (Host.init bootId leftover) actions) :
    host.returned.Nodup :=
  (Machine.invariant_run_along Host.Sound.step hrun hcautious
    (Host.sound_init bootId leftover)).nodup

/-- All steps of one call. -/
def wholeCall (store : Nat) : List HostAction :=
  .next store :: List.replicate 6 (.proceed store false .damaged)

/-- Both stores are opened before either of them makes a call. -/
def twoStores : List HostAction := [.openStore, .openStore] ++ wholeCall 0 ++ wholeCall 1

/-- The pair of the first call comes back from the second. -/
theorem two_stores_repeat_a_pair :
    ∃ host, (Host.init "boot" none).run twoStores = some host ∧
      host.returned = [("boot", 1), ("boot", 1)] ∧ ¬ host.returned.Nodup := by
  refine ⟨_, rfl, rfl, by decide⟩

/-- The second store is opened after the last call of the first. -/
theorem successive_stores_return_distinct :
    ∃ host, (Host.init "boot" none).run
        ([.openStore] ++ wholeCall 0 ++ [.openStore] ++ wholeCall 1) = some host ∧
      host.returned = [("boot", 1), ("boot", 2)] ∧ host.returned.Nodup := by
  refine ⟨_, rfl, rfl, ?_⟩
  exact cautious_stores_never_repeat "boot" none
    ([.openStore] ++ wholeCall 0 ++ [.openStore] ++ wholeCall 1) _ rfl (by decide +kernel)

/-- At most one store is alive: one is opened only when the earlier ones are gone. -/
def Host.Single (host : Host) : HostAction → Prop
  | .openStore => ∀ store ∈ host.stores, store.phase = .exited
  | _ => True

instance (host : Host) (a : HostAction) : Decidable (host.Single a) :=
  match a with
  | .openStore => inferInstanceAs (Decidable (∀ store ∈ host.stores, store.phase = .exited))
  | .next _ => .isTrue trivial
  | .proceed _ _ _ => .isTrue trivial
  | .crash _ => .isTrue trivial
  | .reboot _ => .isTrue trivial

/-- What is known of a host on which at most one store is alive. -/
structure Host.Solitary (host : Host) : Prop where
  one : ∀ (i j : Nat) (store other : SequenceStore), host.stores[i]? = some store →
    host.stores[j]? = some other → store.phase ≠ .exited → other.phase ≠ .exited → i = j
  ahead : ∀ store ∈ host.stores, store.phase ≠ .exited → host.recorded ≤ store.state.sequence
  counted : ∀ store ∈ host.stores, store.state.sequence ≤ host.calls
  fileCounted : ∀ bootId s, openSequenceStore host.directory bootId = some s →
    s.sequence ≤ host.calls

theorem NextPhase.ne_exited_of_busy {phase : NextPhase} (h : phase.busy = true) :
    phase ≠ .exited := by
  rintro rfl
  exact absurd h (by simp [NextPhase.busy])

/-- The one store that is alive begins its calls cautiously. -/
theorem Host.Solitary.cautious {host' : Host} {a : HostAction} (h : host.Solitary)
    (hstep : host.step a = some host') (hcalls : host'.calls < 2 ^ 64) : host.Cautious a := by
  cases a with
  | next i =>
      obtain ⟨store, hstore, hif⟩ := Option.bind_eq_some_iff.mp hstep
      obtain ⟨hidle, hnext⟩ := Option.ite_none_right_eq_some.mp hif
      obtain rfl := Option.some.inj hnext
      have halive : store.phase ≠ .exited := by simp [hidle]
      intro other hother
      obtain rfl := Option.some.inj (hstore.symm.trans hother)
      have hmem := List.mem_of_getElem? hstore
      refine ⟨h.ahead store hmem halive, ?_, ?_⟩
      · have hle := h.counted store hmem
        change host.calls + 1 < 2 ^ 64 at hcalls
        omega
      · intro other hother
        by_contra hb
        rw [Bool.not_eq_false] at hb
        obtain ⟨j, hj⟩ := List.mem_iff_getElem?.mp hother
        obtain rfl := h.one j i other store hj hstore (NextPhase.ne_exited_of_busy hb) halive
        obtain rfl := Option.some.inj (hstore.symm.trans hj)
        rw [hidle] at hb
        exact absurd hb (by simp [NextPhase.busy])
  | _ => trivial

/-- The store at `i` is replaced by one that is alive only if it was. The state file may
change when it was. -/
theorem Host.Solitary.replace {host' : Host} (h : host.Solitary) {i : Nat} {new : SequenceStore}
    (hstore : host.stores[i]? = some store) (hstores : host'.stores = host.stores.set i new)
    (halive : new.phase ≠ .exited → store.phase ≠ .exited)
    (hrecorded : host'.recorded = host.recorded ∨ store.phase ≠ .exited)
    (hahead : new.phase ≠ .exited → host'.recorded ≤ new.state.sequence)
    (hcounted : new.state.sequence ≤ host'.calls) (hcalls : host.calls ≤ host'.calls)
    (hfile : ∀ bootId s, openSequenceStore host'.directory bootId = some s →
      s.sequence ≤ host'.calls) : host'.Solitary where
  one j k store₁ store₂ hstore₁ hstore₂ halive₁ halive₂ := by
    rw [hstores] at hstore₁ hstore₂
    rcases Machine.getElem?_set_cases hstore₁ with ⟨rfl, rfl⟩ | ⟨-, hold₁⟩
    · rcases Machine.getElem?_set_cases hstore₂ with ⟨rfl, -⟩ | ⟨-, hold₂⟩
      · rfl
      · exact h.one j k store store₂ hstore hold₂ (halive halive₁) halive₂
    · rcases Machine.getElem?_set_cases hstore₂ with ⟨rfl, rfl⟩ | ⟨-, hold₂⟩
      · exact h.one j k store₁ store hold₁ hstore halive₁ (halive halive₂)
      · exact h.one j k store₁ store₂ hold₁ hold₂ halive₁ halive₂
  ahead other hother hother' := by
    rw [hstores] at hother
    obtain ⟨j, hj⟩ := List.mem_iff_getElem?.mp hother
    rcases Machine.getElem?_set_cases hj with ⟨-, rfl⟩ | ⟨hne, hold⟩
    · exact hahead hother'
    · rcases hrecorded with hsame | hwas
      · rw [hsame]
        exact h.ahead other (List.mem_of_getElem? hold) hother'
      · exact absurd (h.one j i other store hold hstore hother' hwas) hne
  counted other hother := by
    rw [hstores] at hother
    rcases List.mem_or_eq_of_mem_set hother with hold | rfl
    · exact (h.counted other hold).trans hcalls
    · exact hcounted
  fileCounted := hfile

/-- A state file that holds a state gives its number or zero. -/
theorem sequence_of_marshal {d : Directory} {bootId : String} {s t : PersistedState}
    (hstate : d.readState = some t.marshal) (h : openSequenceStore d bootId = some s) :
    s.sequence ≤ t.sequence := by
  simp only [openSequenceStore, hstate, PersistedState.unmarshal_marshal, Option.map_some,
    Option.some.injEq] at h
  split_ifs at h
  · rw [← h]
  · rw [← h]
    exact Nat.zero_le _

theorem Host.recorded_le {n : Nat}
    (h : ∀ s, openSequenceStore host.directory host.bootId = some s → s.sequence ≤ n) :
    host.recorded ≤ n := by
  rw [Host.recorded]
  cases hopen : openSequenceStore host.directory host.bootId with
  | none => exact Nat.zero_le n
  | some s => exact h s hopen

theorem Host.Solitary.proceed (h : host.Solitary) (hsound : host.Sound) {i : Nat}
    (hstore : host.stores[i]? = some store) {fails : Bool} {mixture : Contents}
    {directory : Directory} {phase : NextPhase}
    (hstep : store.proceed host.directory fails mixture = some (directory, phase, false)) :
    Host.Solitary { host with
      directory := directory
      stores := host.stores.set i ⟨store.state, phase⟩ } := by
  have hbusy := SequenceStore.proceed_busy hstep
  have halive := NextPhase.ne_exited_of_busy hbusy
  have hmem := List.mem_of_getElem? hstore
  obtain ⟨-, hstate, -⟩ := hsound.proceeds_of_eq_some (hsound.calls i store hstore hbusy)
    (hsound.storeBoots store hmem) hstep (host.stores.set i ⟨store.state, phase⟩)
  refine h.replace hstore rfl (fun _ => halive) (Or.inr halive) (fun _ => ?_)
    (h.counted store hmem) le_rfl ?_
  · apply Host.recorded_le
    intro s hs
    rcases hstate with hsame | hmarshal
    · refine le_trans ?_ (h.ahead store hmem halive)
      have hopen : openSequenceStore host.directory host.bootId = some s :=
        (openSequenceStore_congr hsame host.bootId).symm.trans hs
      simp [Host.recorded, hopen]
    · exact sequence_of_marshal hmarshal hs
  · intro bootId s hs
    rcases hstate with hsame | hmarshal
    · exact h.fileCounted bootId s ((openSequenceStore_congr hsame bootId).symm.trans hs)
    · exact (sequence_of_marshal hmarshal hs).trans (h.counted store hmem)

theorem Host.Solitary.step {host' : Host} {a : HostAction} (h : host.Solitary) (hsound : host.Sound)
    (hstep : host.step a = some host') (hsingle : host.Single a) (hcautious : host.Cautious a) :
    host'.Solitary := by
  cases a with
  | openStore =>
      obtain ⟨state, hopen, rfl⟩ := Option.map_eq_some_iff.mp hstep
      constructor
      · intro i j store other hstore hother halive halive'
        rcases Machine.getElem?_concat.mp hstore with hold | ⟨rfl, -⟩
        · exact absurd (hsingle store (List.mem_of_getElem? hold)) halive
        · rcases Machine.getElem?_concat.mp hother with hold | ⟨rfl, -⟩
          · exact absurd (hsingle other (List.mem_of_getElem? hold)) halive'
          · rfl
      · intro store hmem halive
        rcases List.mem_append.mp hmem with hold | hnew
        · exact absurd (hsingle store hold) halive
        · obtain rfl := List.mem_singleton.mp hnew
          simp [Host.recorded, hopen]
      · intro store hmem
        rcases List.mem_append.mp hmem with hold | hnew
        · exact h.counted store hold
        · obtain rfl := List.mem_singleton.mp hnew
          exact h.fileCounted host.bootId state hopen
      · exact h.fileCounted
  | next i =>
      obtain ⟨store, hstore, hif⟩ := Option.bind_eq_some_iff.mp hstep
      obtain ⟨hidle, hnext⟩ := Option.ite_none_right_eq_some.mp hif
      obtain rfl := Option.some.inj hnext
      have hmem := List.mem_of_getElem? hstore
      have halive : store.phase ≠ .exited := by simp [hidle]
      obtain ⟨hbehind, hlast, -⟩ := hcautious store hstore
      have hmod : (store.state.sequence + 1) % 2 ^ 64 = store.state.sequence + 1 :=
        Nat.mod_eq_of_lt hlast
      refine h.replace hstore rfl (fun _ => halive) (Or.inr halive) (fun _ => ?_) ?_
        (Nat.le_succ _) fun bootId s hs => (h.fileCounted bootId s hs).trans (Nat.le_succ _)
      · change host.recorded ≤ (store.state.sequence + 1) % 2 ^ 64
        omega
      · change (store.state.sequence + 1) % 2 ^ 64 ≤ host.calls + 1
        have hcounted := h.counted store hmem
        omega
  | proceed i fails mixture =>
      obtain ⟨store, hstore, hmap⟩ := Option.bind_eq_some_iff.mp hstep
      obtain ⟨⟨directory, phase, returns⟩, hproceed, rfl⟩ := Option.map_eq_some_iff.mp hmap
      cases returns with
      | false => exact h.proceed hsound hstore hproceed
      | true =>
          obtain ⟨hphase, rfl, rfl⟩ := SequenceStore.proceed_returns hproceed
          have hmem := List.mem_of_getElem? hstore
          have halive : store.phase ≠ .exited := by simp [hphase]
          exact h.replace hstore rfl (fun _ => halive) (Or.inr halive)
            (fun _ => h.ahead store hmem halive) (h.counted store hmem) le_rfl h.fileCounted
  | crash i =>
      obtain ⟨store, hstore, hcrash⟩ := Option.bind_eq_some_iff.mp hstep
      obtain rfl := Option.some.inj hcrash
      exact h.replace hstore rfl (fun halive => absurd rfl halive) (Or.inl rfl)
        (fun halive => absurd rfl halive) (h.counted store (List.mem_of_getElem? hstore)) le_rfl
        h.fileCounted
  | reboot bootId =>
      simp only [Host.step, Option.ite_none_left_eq_some] at hstep
      obtain ⟨-, hreboot⟩ := hstep
      obtain rfl := Option.some.inj hreboot
      refine ⟨?_, ?_, ?_, h.fileCounted⟩ <;> simp

theorem Host.solitary_init (bootId : String) (leftover : Option Contents) :
    (Host.init bootId leftover).Solitary where
  one := by simp [Host.init]
  ahead := by simp [Host.init]
  counted := by simp [Host.init]
  fileCounted boot s h := by
    obtain rfl := Option.some.inj h
    exact le_rfl

theorem Host.calls_le_step {host' : Host} {a : HostAction} (h : host.step a = some host') :
    host.calls ≤ host'.calls := by
  cases a with
  | openStore =>
      obtain ⟨state, -, rfl⟩ := Option.map_eq_some_iff.mp h
      exact le_rfl
  | next i =>
      obtain ⟨store, -, hif⟩ := Option.bind_eq_some_iff.mp h
      obtain ⟨-, hnext⟩ := Option.ite_none_right_eq_some.mp hif
      obtain rfl := Option.some.inj hnext
      exact Nat.le_succ _
  | proceed i fails mixture =>
      obtain ⟨store, -, hmap⟩ := Option.bind_eq_some_iff.mp h
      obtain ⟨result, -, rfl⟩ := Option.map_eq_some_iff.mp hmap
      exact le_rfl
  | crash i =>
      obtain ⟨store, -, hcrash⟩ := Option.bind_eq_some_iff.mp h
      obtain rfl := Option.some.inj hcrash
      exact le_rfl
  | reboot bootId =>
      simp only [Host.step, Option.ite_none_left_eq_some] at h
      obtain ⟨-, hreboot⟩ := h
      obtain rfl := Option.some.inj hreboot
      exact le_rfl

/-- With at most one store alive and fewer than `2 ^ 64` calls, whatever steps fail and
wherever processes stop: no pair is returned twice, the numbers of a boot increase, and the
state file records at least every number returned in the boot. -/
theorem sequence_numbers_never_reused (bootId : String) (leftover : Option Contents)
    (actions : List HostAction) (host : Host)
    (hrun : (Host.init bootId leftover).run actions = some host)
    (hsingle : Machine.Along Host.step Host.Single (Host.init bootId leftover) actions)
    (hcalls : host.calls < 2 ^ 64) :
    host.returned.Nodup ∧ host.returned.Pairwise (fun p q => p.1 = q.1 → p.2 < q.2) ∧
      ∀ p ∈ host.returned, p.1 = host.bootId →
        ∃ m, openSequenceStore host.directory host.bootId = some ⟨host.bootId, m⟩ ∧ p.2 ≤ m := by
  have hstep : ∀ s a s', Host.step s a = some s' → s.Single a →
      (s.calls < 2 ^ 64 → s.Sound ∧ s.Solitary) → s'.calls < 2 ^ 64 → s'.Sound ∧ s'.Solitary := by
    intro s a s' hs ha hinv hlt
    obtain ⟨hsound, hsolitary⟩ := hinv ((Host.calls_le_step hs).trans_lt hlt)
    have hcautious := hsolitary.cautious hs hlt
    exact ⟨hsound.step s a s' hs hcautious, hsolitary.step hsound hs ha hcautious⟩
  have hsound : host.Sound :=
    (Machine.invariant_run_along hstep hrun hsingle
      (fun _ => ⟨Host.sound_init bootId leftover, Host.solitary_init bootId leftover⟩) hcalls).1
  exact ⟨hsound.nodup, hsound.increasing, hsound.recorded⟩

/-- A call whose write fails, a call whose process stops between rename and return, a new
store in the same boot, and one after a reboot. -/
def interruptedCalls : List HostAction :=
  [.openStore] ++ wholeCall 0 ++
    [.next 0, .proceed 0 false .damaged, .proceed 0 true .damaged] ++ wholeCall 0 ++
    .next 0 :: List.replicate 5 (.proceed 0 false .damaged) ++ [.crash 0, .openStore] ++
    wholeCall 1 ++ [.reboot "next boot", .openStore] ++ wholeCall 0

theorem interruptedCalls_return_distinct :
    ∃ host, (Host.init "boot" (some .damaged)).run interruptedCalls = some host ∧
      host.returned = [("boot", 1), ("boot", 3), ("boot", 5), ("next boot", 1)] ∧
      host.returned.Nodup := by
  refine ⟨_, rfl, rfl, ?_⟩
  exact (sequence_numbers_never_reused "boot" (some .damaged) interruptedCalls _ rfl
    (by decide +kernel) (by decide +kernel)).1

end NodeScope.Agent
