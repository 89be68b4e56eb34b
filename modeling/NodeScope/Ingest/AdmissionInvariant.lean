import NodeScope.Ingest.Admission

/-!
# The promises of the admission service

The two maps of the service are a summary of the calls so far (`Inv`): the stored expiries are
those of accepted calls, and the window of an agent counts the calls that were accepted in it.
Every promise is read off the summary. The sum of the two bounds is formed with the 64 bits of
an `int`, and a policy that is valid may make it overflow; then every call is throttled.
-/

namespace NodeScope.Ingest

open Lib Lib.Check Lib.Text Lib.Time Telemetry

namespace Admission

/-- What the window of an agent says about the calls so far. -/
structure Current (policy : Policy) (start : Int) (s : Admission) (agentID : String)
    (window : AgentWindow) : Prop where
  startedAt : start ≤ window.startedAt
  begun : window.startedAt ≤ s.last
  counted : window.count.toInt = s.acceptedIn agentID window.startedAt
  bounded : window.count.toInt ≤ policy.maxRequestsPerMinute.toInt + policy.burst.toInt
  ended : ∀ a ∈ s.history, a.offer.agentID = agentID → a.acceptedKey.isSome = true →
    a.offer.now < window.startedAt + seconds 60

/-- The two maps agree with the calls so far. -/
structure Inv (policy : Policy) (start : Int) (s : Admission) : Prop where
  samePolicy : s.service.policy = policy
  started : start ≤ s.last
  times : ∀ a ∈ s.history, a.offer.now ≤ s.last
  marked : ∀ key expiresAt, s.service.seen key = some expiresAt → ∃ a ∈ s.history,
    a.acceptedKey = some key ∧ expiresAt = a.offer.now + policy.deduplicationTTL.toInt
  kept : ∀ a ∈ s.history, ∀ key, a.acceptedKey = some key →
    s.last < a.offer.now + policy.deduplicationTTL.toInt →
    ∃ expiresAt, s.service.seen key = some expiresAt ∧
      a.offer.now + policy.deduplicationTTL.toInt ≤ expiresAt
  spaced : s.history.Pairwise fun a b => ∀ key, a.acceptedKey = some key →
    b.acceptedKey = some key → a.offer.now + policy.deduplicationTTL.toInt ≤ b.offer.now
  idle : ∀ agentID, s.service.rates agentID = none → ∀ a ∈ s.history,
    a.offer.agentID = agentID → a.acceptedKey = none
  current : ∀ agentID window, s.service.rates agentID = some window →
    Current policy start s agentID window

theorem inv_init (policy : Policy) (start : Int) : Inv policy start (init policy start) where
  samePolicy := rfl
  started := le_rfl
  times := fun _ ha => nomatch ha
  marked := fun _ _ hseen => nomatch hseen
  kept := fun _ ha => nomatch ha
  spaced := .nil
  idle := fun _ _ _ ha => nomatch ha
  current := fun _ _ hrate => nomatch hrate

section Invariant

variable {policy : Policy} {start : Int} {s s' : Admission} {o : Offer}

/-- The two bounds can be added, and the clock is past the zero time. -/
structure Workable (policy : Policy) (start : Int) : Prop where
  afterZero : zeroTime < start
  positive : 0 < policy.limit.toInt
  limit : policy.limit.toInt = policy.maxRequestsPerMinute.toInt + policy.burst.toInt

theorem limit_toInt (hvalid : policy.validate = .ok ())
    (hsum : policy.maxRequestsPerMinute.toInt + policy.burst.toInt < 2 ^ 63) :
    policy.limit.toInt = policy.maxRequestsPerMinute.toInt + policy.burst.toInt := by
  obtain ⟨hmax, hburst, -⟩ := Policy.validate_eq_ok.mp hvalid
  rw [Policy.limit, Int64.toInt_add]
  exact Int.bmod_eq_of_le (by omega) (by omega)

theorem workable_of_lt (hvalid : policy.validate = .ok ())
    (hsum : policy.maxRequestsPerMinute.toInt + policy.burst.toInt < 2 ^ 63)
    (hzero : zeroTime < start) : Workable policy start := by
  have hlimit := limit_toInt hvalid hsum
  obtain ⟨hmax, hburst, -⟩ := Policy.validate_eq_ok.mp hvalid
  exact ⟨hzero, by omega, hlimit⟩

/-- A key is not found exactly when every call that had it accepted is a time to live ago. -/
theorem Inv.unseen_iff (h : Inv policy start s) {now : Int} (hnow : s.last ≤ now) {key : String} :
    (s.service.prune now).seen key = none ↔ ∀ a ∈ s.history, a.acceptedKey = some key →
      a.offer.now + policy.deduplicationTTL.toInt ≤ now := by
  rw [Option.eq_none_iff_forall_ne_some]
  constructor
  · intro hnone a ha hkey
    by_contra hlive
    obtain ⟨expiresAt, hseen, hle⟩ := h.kept a ha key hkey (by omega)
    exact hnone expiresAt (Service.seen_prune_eq_some.mpr ⟨hseen, by omega⟩)
  · intro hold expiresAt hsome
    obtain ⟨hseen, hlive⟩ := Service.seen_prune_eq_some.mp hsome
    obtain ⟨a, ha, hkey, rfl⟩ := h.marked key expiresAt hseen
    have := hold a ha hkey
    omega

/-- The window of a call is the stored one while it lasts, and a new one after that. -/
theorem Inv.windowAt_cases (h : Inv policy start s) (hw : Workable policy start)
    (agentID : String) (now : Int) :
    (∃ window, s.service.rates agentID = some window ∧ now < window.startedAt + seconds 60 ∧
        s.service.windowAt agentID now = window) ∨
      ((∀ window, s.service.rates agentID = some window → window.startedAt + seconds 60 ≤ now) ∧
        s.service.windowAt agentID now = ⟨now, 0⟩) := by
  by_cases hover : ∀ window, s.service.rates agentID = some window →
      window.startedAt + seconds 60 ≤ now
  · exact Or.inr ⟨hover, Service.windowAt_of_over hover⟩
  · push Not at hover
    obtain ⟨window, hrate, hnow⟩ := hover
    have hstart := hw.afterZero.trans_le (h.current agentID window hrate).startedAt
    exact Or.inl ⟨window, hrate, hnow,
      Service.windowAt_of_some hrate (by omega) hnow⟩

/-- What a call does that is not accepted: no key is marked, those that have not expired stay,
and no window changes. -/
structure Refused (s s' : Admission) (o : Offer) : Prop where
  samePolicy : s'.service.policy = s.service.policy
  last : s'.last = o.now
  history : ∃ a, s'.history = s.history ++ [a] ∧ a.offer = o ∧ a.acceptedKey = none
  rates : s'.service.rates = s.service.rates
  dropped : ∀ key expiresAt, s'.service.seen key = some expiresAt →
    s.service.seen key = some expiresAt
  held : ∀ key expiresAt, s.service.seen key = some expiresAt → o.now < expiresAt →
    s'.service.seen key = some expiresAt

theorem refused_of_prune {service' : Service} {a : Answered}
    (hpolicy : service'.policy = s.service.policy) (hrates : service'.rates = s.service.rates)
    (hseen : service'.seen = (s.service.prune o.now).seen) (hoffer : a.offer = o)
    (hkey : a.acceptedKey = none) : Refused s ⟨service', o.now, s.history ++ [a]⟩ o where
  samePolicy := hpolicy
  last := rfl
  history := ⟨a, rfl, hoffer, hkey⟩
  rates := hrates
  dropped := by
    intro key expiresAt hsome
    simp only [hseen] at hsome
    exact (Service.seen_prune_eq_some.mp hsome).1
  held := by
    intro key expiresAt hsome hlive
    simp only [hseen]
    exact Service.seen_prune_eq_some.mpr ⟨hsome, hlive⟩

/-- A call is throttled in a stored window that goes on. -/
theorem Inv.window_of_full (h : Inv policy start s) (hw : Workable policy start)
    {agentID : String} {now : Int}
    (hfull : s.service.policy.limit ≤ (s.service.windowAt agentID now).count) :
    s.service.rates agentID = some (s.service.windowAt agentID now) ∧
      now < (s.service.windowAt agentID now).startedAt + seconds 60 := by
  rcases h.windowAt_cases hw agentID now with ⟨window, hrate, hnow, heq⟩ | ⟨-, heq⟩
  · rw [heq]
    exact ⟨hrate, hnow⟩
  · rw [heq, h.samePolicy, Int64.le_iff_toInt_le] at hfull
    have hcount : (⟨now, 0⟩ : AgentWindow).count.toInt = 0 := Int64.toInt_zero
    have hpositive := hw.positive
    omega

/-- The state after a call that is accepted. -/
def accepted (s : Admission) (o : Offer) : Admission where
  service :=
    { policy := s.service.policy
      seen := Function.update (s.service.prune o.now).seen o.key
        (some (o.now + s.service.policy.deduplicationTTL.toInt))
      rates := Function.update s.service.rates o.agentID
        (some ⟨(s.service.windowAt o.agentID o.now).startedAt,
          (s.service.windowAt o.agentID o.now).count + 1⟩) }
  last := o.now
  history := s.history ++ [⟨o, .ok ⟨.accepted, o.key, o.now⟩⟩]

/-- A call is refused, or it is a checked one whose key is not found and whose window has
room. -/
theorem Inv.step_cases (h : Inv policy start s) (hw : Workable policy start)
    (hstep : s.step o = some s') :
    Refused s s' o ∨ (o.envelope.agentID = o.agentID ∧
      (s.service.prune o.now).seen o.key = none ∧
      (s.service.windowAt o.agentID o.now).count < policy.limit ∧ s' = s.accepted o) := by
  obtain ⟨-, rfl⟩ := step_eq_some.mp hstep
  have hanswers := accept_answers s.service o.now o.agentID o.envelope
  rw [← answer] at hanswers
  generalize s.answer o = r at hanswers
  obtain ⟨result, service'⟩ := r
  cases hanswers with
  | failed error hcheck =>
      left
      exact {
        samePolicy := rfl
        last := rfl
        history := ⟨_, rfl, rfl, rfl⟩
        rates := rfl
        dropped := fun _ _ hsome => hsome
        held := fun _ _ hsome _ => hsome }
  | duplicate hcheck hseen => exact Or.inl (refused_of_prune rfl rfl rfl rfl rfl)
  | throttled hcheck hseen hfull =>
      have hrate := (h.window_of_full hw hfull).1
      refine Or.inl (refused_of_prune rfl ?_ rfl rfl rfl)
      exact Function.update_eq_self_iff.mpr hrate.symm
  | accepted hcheck hseen hroom =>
      right
      rw [h.samePolicy] at hroom
      exact ⟨(checkAccept_eq_ok.mp hcheck).1, hseen, hroom, rfl⟩

theorem acceptedIn_concat {a : Answered} (hhistory : s'.history = s.history ++ [a])
    (agentID : String) (startedAt : Int) :
    s'.acceptedIn agentID startedAt =
      s.acceptedIn agentID startedAt + if a.acceptedIn agentID startedAt = true then 1 else 0 := by
  rw [acceptedIn, hhistory, List.countP_append, List.countP_singleton, acceptedIn]

theorem Refused.acceptedIn_eq (hrefused : Refused s s' o) (agentID : String) (startedAt : Int) :
    s'.acceptedIn agentID startedAt = s.acceptedIn agentID startedAt := by
  obtain ⟨a, hhistory, -, hkey⟩ := hrefused.history
  rw [acceptedIn_concat hhistory, if_neg (by simp [Answered.acceptedIn, hkey]), Nat.add_zero]

/-- A refused call adds no accepted one to the history. -/
theorem Refused.mem_of_accepted (hrefused : Refused s s' o) {a : Answered} (ha : a ∈ s'.history)
    (hkey : a.acceptedKey.isSome = true) : a ∈ s.history := by
  obtain ⟨b, hhistory, -, hnone⟩ := hrefused.history
  rw [hhistory] at ha
  rcases List.mem_append.mp ha with ha | ha
  · exact ha
  · obtain rfl := List.mem_singleton.mp ha
    rw [hnone] at hkey
    cases hkey

theorem Inv.refused (h : Inv policy start s) (hlast : s.last ≤ o.now)
    (hrefused : Refused s s' o) : Inv policy start s' where
  samePolicy := hrefused.samePolicy.trans h.samePolicy
  started := by
    rw [hrefused.last]
    exact h.started.trans hlast
  times := by
    obtain ⟨b, hhistory, hoffer, -⟩ := hrefused.history
    intro a ha
    rw [hrefused.last]
    rw [hhistory] at ha
    rcases List.mem_append.mp ha with ha | ha
    · exact (h.times a ha).trans hlast
    · rw [List.mem_singleton.mp ha, hoffer]
  marked := by
    obtain ⟨b, hhistory, -, -⟩ := hrefused.history
    intro key expiresAt hsome
    obtain ⟨a, ha, hrest⟩ := h.marked key expiresAt (hrefused.dropped key expiresAt hsome)
    exact ⟨a, hhistory ▸ List.mem_append_left _ ha, hrest⟩
  kept := by
    intro a ha key hkey hlive
    rw [hrefused.last] at hlive
    have hmem := hrefused.mem_of_accepted ha (by rw [hkey]; rfl)
    obtain ⟨expiresAt, hsome, hle⟩ := h.kept a hmem key hkey (by omega)
    exact ⟨expiresAt, hrefused.held key expiresAt hsome (by omega), hle⟩
  spaced := by
    obtain ⟨b, hhistory, -, hnone⟩ := hrefused.history
    rw [hhistory, List.pairwise_append]
    refine ⟨h.spaced, List.pairwise_singleton _ _, ?_⟩
    intro a _ b' hb' key _ hkey
    rw [List.mem_singleton.mp hb', hnone] at hkey
    cases hkey
  idle := by
    intro agentID hrate a ha hagent
    rw [hrefused.rates] at hrate
    cases hkey : a.acceptedKey with
    | none => rfl
    | some key =>
        have hmem := hrefused.mem_of_accepted ha (by rw [hkey]; rfl)
        exact hkey.symm.trans (h.idle agentID hrate a hmem hagent)
  current := by
    intro agentID window hrate
    rw [hrefused.rates] at hrate
    have hcurrent := h.current agentID window hrate
    refine ⟨hcurrent.startedAt, ?_, ?_, hcurrent.bounded, ?_⟩
    · rw [hrefused.last]
      exact hcurrent.begun.trans hlast
    · rw [hrefused.acceptedIn_eq]
      exact hcurrent.counted
    · intro a ha hagent hkey
      exact hcurrent.ended a (hrefused.mem_of_accepted ha hkey) hagent hkey

/-- The calls that are accepted in the window of a call, before it. -/
theorem Inv.windowAt_counted (h : Inv policy start s) (hw : Workable policy start)
    (hnow : s.last ≤ o.now) :
    (s.service.windowAt o.agentID o.now).count.toInt =
        s.acceptedIn o.agentID (s.service.windowAt o.agentID o.now).startedAt ∧
      start ≤ (s.service.windowAt o.agentID o.now).startedAt ∧
      (s.service.windowAt o.agentID o.now).startedAt ≤ o.now ∧
      o.now < (s.service.windowAt o.agentID o.now).startedAt + seconds 60 ∧
      ∀ a ∈ s.history, a.offer.agentID = o.agentID → a.acceptedKey.isSome = true →
        a.offer.now < (s.service.windowAt o.agentID o.now).startedAt + seconds 60 := by
  have hminute : (0 : Int) < seconds 60 := by decide
  rcases h.windowAt_cases hw o.agentID o.now with ⟨window, hrate, hlt, heq⟩ | ⟨hover, heq⟩
  · have hcurrent := h.current o.agentID window hrate
    rw [heq]
    exact ⟨hcurrent.counted, hcurrent.startedAt, hcurrent.begun.trans hnow, hlt, hcurrent.ended⟩
  · rw [heq]
    refine ⟨?_, h.started.trans hnow, le_rfl, by simp only; omega, ?_⟩
    · have hcount : (⟨o.now, 0⟩ : AgentWindow).count.toInt = 0 := Int64.toInt_zero
      rw [hcount, acceptedIn, eq_comm, Int.natCast_eq_zero, List.countP_eq_zero]
      intro a ha hin
      obtain ⟨hagent, hkey, hfrom, -⟩ := Answered.acceptedIn_eq_true.mp hin
      cases hrate : s.service.rates o.agentID with
      | none =>
          rw [h.idle o.agentID hrate a ha hagent] at hkey
          cases hkey
      | some window =>
          have hend := (h.current o.agentID window hrate).ended a ha hagent hkey
          have := hover window hrate
          simp only at hfrom
          omega
    · intro a ha _ _
      have := h.times a ha
      simp only
      omega

theorem acceptedIn_accepted (s : Admission) (o : Offer) (agentID : String) (startedAt : Int) :
    (s.accepted o).acceptedIn agentID startedAt = s.acceptedIn agentID startedAt +
      if Answered.acceptedIn agentID startedAt ⟨o, .ok ⟨.accepted, o.key, o.now⟩⟩ = true then 1
      else 0 :=
  acceptedIn_concat rfl agentID startedAt

theorem mem_accepted {a : Answered} (ha : a ∈ (s.accepted o).history) :
    a ∈ s.history ∨ a = ⟨o, .ok ⟨.accepted, o.key, o.now⟩⟩ := by
  rcases List.mem_append.mp ha with ha | ha
  · exact Or.inl ha
  · exact Or.inr (List.mem_singleton.mp ha)

/-- The window of the agent counts the call that is accepted. -/
theorem Inv.current_accepted (h : Inv policy start s) (hw : Workable policy start)
    (hnow : s.last ≤ o.now)
    (hroom : (s.service.windowAt o.agentID o.now).count < policy.limit) :
    Current policy start (s.accepted o) o.agentID
      ⟨(s.service.windowAt o.agentID o.now).startedAt,
        (s.service.windowAt o.agentID o.now).count + 1⟩ := by
  obtain ⟨hcount, hstart, hbegun, hlive, hended⟩ := h.windowAt_counted hw hnow
  have hlt := Int64.lt_iff_toInt_lt.mp hroom
  have hbound := Int64.toInt_lt policy.limit
  have hadd : ((s.service.windowAt o.agentID o.now).count + 1).toInt =
      (s.service.windowAt o.agentID o.now).count.toInt + 1 := by
    have hone : (1 : Int64).toInt = 1 := by decide
    rw [Int64.toInt_add, hone]
    exact Int.bmod_eq_of_le (by omega) (by omega)
  have hin : Answered.acceptedIn o.agentID (s.service.windowAt o.agentID o.now).startedAt
      ⟨o, .ok ⟨.accepted, o.key, o.now⟩⟩ = true :=
    Answered.acceptedIn_eq_true.mpr ⟨rfl, rfl, hbegun, hlive⟩
  refine ⟨hstart, hbegun, ?_, ?_, ?_⟩
  · rw [hadd, hcount, acceptedIn_accepted, if_pos hin]
    rfl
  · rw [hadd, ← hw.limit]
    omega
  · intro a ha hagent hkey
    rcases mem_accepted ha with ha | rfl
    · exact hended a ha hagent hkey
    · exact hlive

theorem Inv.accepted (h : Inv policy start s) (hw : Workable policy start)
    (hnow : s.last ≤ o.now)
    (hunseen : (s.service.prune o.now).seen o.key = none)
    (hroom : (s.service.windowAt o.agentID o.now).count < policy.limit) :
    Inv policy start (s.accepted o) where
  samePolicy := h.samePolicy
  started := h.started.trans hnow
  times := by
    intro a ha
    rcases mem_accepted ha with ha | rfl
    · exact (h.times a ha).trans hnow
    · exact le_rfl
  marked := by
    intro key expiresAt hsome
    rcases eq_or_ne key o.key with rfl | hne
    · simp only [Admission.accepted, Function.update_self, Option.some.injEq] at hsome
      exact ⟨_, List.mem_append_right _ List.mem_cons_self, rfl, by rw [← hsome, h.samePolicy]⟩
    · simp only [Admission.accepted, Function.update_of_ne hne] at hsome
      obtain ⟨a, ha, hrest⟩ := h.marked key expiresAt (Service.seen_prune_eq_some.mp hsome).1
      exact ⟨a, List.mem_append_left _ ha, hrest⟩
  kept := by
    intro a ha key hkey hlive
    have hlive : o.now < a.offer.now + policy.deduplicationTTL.toInt := hlive
    rcases eq_or_ne key o.key with rfl | hne
    · refine ⟨_, Function.update_self _ _ _, ?_⟩
      rw [h.samePolicy]
      rcases mem_accepted ha with ha | rfl
      · have := h.times a ha
        omega
      · exact le_rfl
    · rcases mem_accepted ha with ha | rfl
      · obtain ⟨expiresAt, hsome, hle⟩ := h.kept a ha key hkey (by omega)
        refine ⟨expiresAt, ?_, hle⟩
        simp only [Admission.accepted, Function.update_of_ne hne]
        exact Service.seen_prune_eq_some.mpr ⟨hsome, by omega⟩
      · exact absurd (Option.some.inj hkey).symm hne
  spaced := by
    refine List.pairwise_append.mpr ⟨h.spaced, List.pairwise_singleton _ _, ?_⟩
    intro a ha b hb key hkey hkey'
    obtain rfl := List.mem_singleton.mp hb
    obtain rfl := Option.some.inj hkey'
    exact (h.unseen_iff hnow).mp hunseen a ha hkey
  idle := by
    intro agentID hrate a ha hagent
    rcases eq_or_ne agentID o.agentID with rfl | hne
    · simp [Admission.accepted] at hrate
    · simp only [Admission.accepted, Function.update_of_ne hne] at hrate
      rcases mem_accepted ha with ha | rfl
      · exact h.idle agentID hrate a ha hagent
      · exact absurd hagent.symm hne
  current := by
    intro agentID window hrate
    rcases eq_or_ne agentID o.agentID with rfl | hne
    · simp only [Admission.accepted, Function.update_self, Option.some.injEq] at hrate
      subst hrate
      exact h.current_accepted hw hnow hroom
    · simp only [Admission.accepted, Function.update_of_ne hne] at hrate
      have hcurrent := h.current agentID window hrate
      have hout : ¬ Answered.acceptedIn agentID window.startedAt
          ⟨o, .ok ⟨.accepted, o.key, o.now⟩⟩ = true :=
        fun hin => hne (Answered.acceptedIn_eq_true.mp hin).1.symm
      refine ⟨hcurrent.startedAt, hcurrent.begun.trans hnow, ?_, hcurrent.bounded, ?_⟩
      · rw [acceptedIn_accepted, if_neg hout]
        exact hcurrent.counted
      · intro a ha hagent hkey
        rcases mem_accepted ha with ha | rfl
        · exact hcurrent.ended a ha hagent hkey
        · exact absurd hagent.symm hne

theorem Inv.step (h : Inv policy start s) (hw : Workable policy start)
    (hstep : s.step o = some s') : Inv policy start s' := by
  have hnow := (step_eq_some.mp hstep).1.1
  rcases h.step_cases hw hstep with hrefused | ⟨-, hunseen, hroom, rfl⟩
  · exact h.refused hnow hrefused
  · exact h.accepted hw hnow hunseen hroom

/-- A call that is not answered with an acceptance is refused. -/
theorem Inv.refused_of_answer (h : Inv policy start s) (hw : Workable policy start)
    (hstep : s.step o = some s')
    (hanswer : (s.answer o).1 ≠ .ok ⟨.accepted, o.key, o.now⟩) : Refused s s' o := by
  rcases h.step_cases hw hstep with hrefused | ⟨-, -, -, rfl⟩
  · exact hrefused
  · obtain ⟨-, heq⟩ := step_eq_some.mp hstep
    have hhistory := congrArg Admission.history heq
    have hlast := List.append_cancel_left hhistory
    simp only [List.cons.injEq, Answered.mk.injEq, true_and, and_true] at hlast
    exact absurd hlast.symm hanswer

theorem Inv.answer_duplicate (h : Inv policy start s) (hnow : s.last ≤ o.now)
    (hcheck : checkAccept o.agentID o.envelope = .ok ())
    (hrepeat : ∃ a ∈ s.history, a.acceptedKey = some o.key ∧
      o.now < a.offer.now + policy.deduplicationTTL.toInt) :
    s.answer o = (.ok ⟨.duplicate, o.key, o.now⟩, s.service.prune o.now) := by
  obtain ⟨a, ha, hkey, hlive⟩ := hrepeat
  refine Service.accept_of_seen hcheck (Option.isSome_iff_ne_none.mpr ?_)
  intro hunseen
  have := (h.unseen_iff hnow).mp hunseen a ha hkey
  omega

theorem Inv.answer_accepted (h : Inv policy start s) (hw : Workable policy start)
    (hnow : s.last ≤ o.now) (hcheck : checkAccept o.agentID o.envelope = .ok ())
    (hold : ∀ a ∈ s.history, a.acceptedKey = some o.key →
      a.offer.now + policy.deduplicationTTL.toInt ≤ o.now)
    (hover : ∀ window, s.service.rates o.agentID = some window →
      window.startedAt + seconds 60 ≤ o.now) :
    (s.answer o).1 = .ok ⟨.accepted, o.key, o.now⟩ := by
  have hroom : (s.service.windowAt o.agentID o.now).count < s.service.policy.limit := by
    rw [Service.windowAt_of_over hover, h.samePolicy, Int64.lt_iff_toInt_lt]
    exact hw.positive
  rw [answer, Service.accept_of_room hcheck ((h.unseen_iff hnow).mpr hold) hroom]
  rfl

/-- A throttled call was checked, its key was not found, and its window is stored, is full and
goes on. -/
theorem Inv.throttled (h : Inv policy start s) (hw : Workable policy start)
    (hstep : s.step o = some s')
    (hanswer : (s.answer o).1 = .ok ⟨.throttled, o.key, o.now⟩) :
    checkAccept o.agentID o.envelope = .ok () ∧ (s.service.prune o.now).seen o.key = none ∧
      ∀ window, s'.service.rates o.agentID = some window →
        policy.limit ≤ window.count ∧ o.now < window.startedAt + seconds 60 := by
  have hrefused := h.refused_of_answer hw hstep (by rw [hanswer]; simp)
  have hanswers := accept_answers s.service o.now o.agentID o.envelope
  rw [← answer, hanswer] at hanswers
  generalize (s.answer o).2 = service' at hanswers
  cases hanswers with
  | throttled hcheck hseen hfull =>
      refine ⟨hcheck, hseen, ?_⟩
      intro window hrate
      obtain ⟨hstored, hnow⟩ := h.window_of_full hw hfull
      rw [hrefused.rates, hstored] at hrate
      obtain rfl := Option.some.inj hrate
      rw [h.samePolicy] at hfull
      exact ⟨hfull, hnow⟩

/-- The window of an agent is full, and a key of it can be accepted again from a time on. -/
structure Waiting (policy : Policy) (e : Envelope) (window : AgentWindow) (since : Int)
    (s : Admission) : Prop where
  rates : s.service.rates e.agentID = some window
  old : ∀ a ∈ s.history, a.acceptedKey = some e.idempotencyKey →
    a.offer.now + policy.deduplicationTTL.toInt ≤ since

/-- No call changes that as long as the window goes on. -/
theorem Waiting.step {e : Envelope} {window : AgentWindow} {since : Int} (h : Inv policy start s)
    (hw : Workable policy start) (hcolon : ':' ∉ e.agentID.toList)
    (hfull : policy.limit ≤ window.count) (hstep : s.step o = some s')
    (hends : o.agentID = e.agentID → o.now < window.startedAt + seconds 60)
    (hwaiting : Waiting policy e window since s) : Waiting policy e window since s' := by
  rcases h.step_cases hw hstep with hrefused | ⟨howner, -, hroom, rfl⟩
  · refine ⟨by rw [hrefused.rates]; exact hwaiting.rates, ?_⟩
    intro a ha hkey
    exact hwaiting.old a (hrefused.mem_of_accepted ha (by rw [hkey]; rfl)) hkey
  · have hne : o.agentID ≠ e.agentID := by
      intro hagent
      have hstart := hw.afterZero.trans_le (h.current e.agentID window hwaiting.rates).startedAt
      rw [hagent, Service.windowAt_of_some hwaiting.rates (by omega) (hends hagent)] at hroom
      exact Int64.not_le.mpr hroom hfull
    refine ⟨?_, ?_⟩
    · simp only [Admission.accepted, Function.update_of_ne hne.symm]
      exact hwaiting.rates
    · intro a ha hkey
      rcases mem_accepted ha with ha | rfl
      · exact hwaiting.old a ha hkey
      · have hother := (step_eq_some.mp hstep).1.2
        rw [← howner] at hother hne
        exact absurd (Option.some.inj hkey) (idempotencyKey_ne hother hcolon hne)

/-- The calls of an agent that were accepted in a window of it stay within the two bounds, and
the window either is the stored one or is over. -/
structure Within (policy : Policy) (agentID : String) (startedAt : Int) (s : Admission) : Prop where
  bounded : (s.acceptedIn agentID startedAt : Int) ≤
    policy.maxRequestsPerMinute.toInt + policy.burst.toInt
  stored : startedAt + seconds 60 ≤ s.last ∨
    ∃ window, s.service.rates agentID = some window ∧ window.startedAt = startedAt

theorem Within.step {agentID : String} {startedAt : Int} (h : Inv policy start s)
    (hw : Workable policy start) (hstep : s.step o = some s')
    (hwithin : Within policy agentID startedAt s) :
    Within policy agentID startedAt s' := by
  have hnow := (step_eq_some.mp hstep).1.1
  rcases h.step_cases hw hstep with hrefused | ⟨-, hunseen, hroom, rfl⟩
  · refine ⟨by rw [hrefused.acceptedIn_eq]; exact hwithin.bounded, ?_⟩
    rw [hrefused.last, hrefused.rates]
    exact hwithin.stored.imp_left fun hover => hover.trans hnow
  · rcases eq_or_ne o.agentID agentID with rfl | hne
    · by_cases hover : startedAt + seconds 60 ≤ o.now
      · refine ⟨?_, Or.inl hover⟩
        rw [acceptedIn_accepted, if_neg]
        · exact hwithin.bounded
        · intro hin
          have := (Answered.acceptedIn_eq_true.mp hin).2.2.2
          simp only at this
          omega
      · obtain ⟨window, hrate, rfl⟩ := hwithin.stored.resolve_left (by omega)
        have hstart := hw.afterZero.trans_le (h.current o.agentID window hrate).startedAt
        have hcurrent := h.current_accepted hw hnow hroom
        rw [Service.windowAt_of_some hrate (by omega) (by omega)] at hcurrent
        refine ⟨?_, Or.inr ⟨_, Function.update_self _ _ _, ?_⟩⟩
        · rw [← hcurrent.counted]
          exact hcurrent.bounded
        · rw [Service.windowAt_of_some hrate (by omega) (by omega)]
    · refine ⟨?_, ?_⟩
      · rw [acceptedIn_accepted, if_neg fun hin => hne (Answered.acceptedIn_eq_true.mp hin).1]
        exact hwithin.bounded
      · simp only [Admission.accepted, Function.update_of_ne hne.symm]
        exact hwithin.stored.imp_left fun hover => hover.trans hnow

end Invariant

section Promises

variable {policy : Policy} {start : Int} {s : Admission}

theorem Inv.run (hw : Workable policy start) {s' : Admission} {offers : List Offer}
    (h : Inv policy start s)
    (hrun : Machine.run Admission.step s offers = some s') : Inv policy start s' :=
  Machine.invariant_run (fun _ _ _ hstep h => h.step hw hstep) hrun h

theorem Reachable.inv (hw : Workable policy start) (h : Reachable policy start s) :
    Inv policy start s := by
  obtain ⟨offers, hrun⟩ := h
  exact (inv_init policy start).run hw hrun

/-- A throttled envelope waits for the end of its window, and is accepted after it. -/
theorem Inv.retried (h : Inv policy start s) (hw : Workable policy start)
    {o o' : Offer} {s₁ s₂ s' : Admission} {window : AgentWindow} {between : List Offer}
    (hstep : s.step o = some s₁) (hanswer : (s.answer o).1 = .ok ⟨.throttled, o.key, o.now⟩)
    (hrate : s₁.service.rates o.agentID = some window)
    (hrun : Machine.run Admission.step s₁ between = some s₂)
    (hends : ∀ m ∈ between, m.agentID = o.agentID → m.now < window.startedAt + seconds 60)
    (hlast : s₂.step o' = some s') (hagent : o'.agentID = o.agentID)
    (henvelope : o'.envelope = o.envelope) (hover : window.startedAt + seconds 60 ≤ o'.now) :
    (s₂.answer o').1 = .ok ⟨.accepted, o'.key, o'.now⟩ := by
  obtain ⟨⟨hnow, hcolon⟩, -⟩ := step_eq_some.mp hstep
  obtain ⟨hcheck, hunseen, hwindow⟩ := h.throttled hw hstep hanswer
  obtain ⟨hfull, hlive⟩ := hwindow window hrate
  have howner := (checkAccept_eq_ok.mp hcheck).1
  have hrefused := h.refused_of_answer hw hstep (by rw [hanswer]; simp)
  have hwaiting : Waiting policy o.envelope window o.now s₁ := by
    refine ⟨by rw [howner]; exact hrate, ?_⟩
    intro a ha hkey
    exact (h.unseen_iff hnow).mp hunseen a (hrefused.mem_of_accepted ha (by rw [hkey]; rfl)) hkey
  have hkept : ∀ (t : Admission) (m : Offer) (t' : Admission), t.step m = some t' →
      (m.agentID = o.agentID → m.now < window.startedAt + seconds 60) →
      Inv policy start t ∧ Waiting policy o.envelope window o.now t →
      Inv policy start t' ∧ Waiting policy o.envelope window o.now t' := by
    rintro t m t' hstep hends ⟨ht, hwaiting⟩
    exact ⟨ht.step hw hstep,
      hwaiting.step ht hw (by rw [howner]; exact hcolon) hfull hstep
        (by rw [howner]; exact hends)⟩
  obtain ⟨h₂, hwaiting₂⟩ := Machine.invariant_run_along hkept hrun
    (Machine.along_of_forall_mem hends s₁) ⟨h.step hw hstep, hwaiting⟩
  have hnow₂ := (step_eq_some.mp hlast).1.1
  refine h₂.answer_accepted hw hnow₂ (by rw [hagent, henvelope]; exact hcheck) ?_ ?_
  · intro a ha hkey
    rw [Offer.key, henvelope] at hkey
    have := hwaiting₂.old a ha hkey
    omega
  · intro stored hstored
    rw [hagent, ← howner, hwaiting₂.rates] at hstored
    obtain rfl := Option.some.inj hstored
    exact hover

/-- Along any calls, no more of an agent's are accepted in one of its windows than the two bounds
allow. -/
theorem Inv.within (h : Inv policy start s) (hw : Workable policy start)
    {agentID : String} {window : AgentWindow} {offers : List Offer} {s' : Admission}
    (hrate : s.service.rates agentID = some window)
    (hrun : Machine.run Admission.step s offers = some s') :
    (s'.acceptedIn agentID window.startedAt : Int) ≤
      policy.maxRequestsPerMinute.toInt + policy.burst.toInt := by
  have hcurrent := h.current agentID window hrate
  have hwithin : Within policy agentID window.startedAt s :=
    ⟨by rw [← hcurrent.counted]; exact hcurrent.bounded, Or.inr ⟨window, hrate, rfl⟩⟩
  have hkept : ∀ (t : Admission) (m : Offer) (t' : Admission), t.step m = some t' →
      Inv policy start t ∧ Within policy agentID window.startedAt t →
      Inv policy start t' ∧ Within policy agentID window.startedAt t' := by
    rintro t m t' hstep ⟨ht, hwithin⟩
    exact ⟨ht.step hw hstep, hwithin.step ht hw hstep⟩
  exact (Machine.invariant_run hkept hrun ⟨h, hwithin⟩).2.bounded

/-- A service whose bounds can be added, under a clock that is past the zero time, keeps every
promise. -/
theorem admits_of_lt (hvalid : policy.validate = .ok ())
    (hsum : policy.maxRequestsPerMinute.toInt + policy.burst.toInt < 2 ^ 63)
    (hzero : zeroTime < start) : Admits policy start := by
  have hw := workable_of_lt hvalid hsum hzero
  have hinv {t : Admission} (ht : Reachable policy start t) : Inv policy start t :=
    ht.inv hw
  exact {
    spaced := fun t ht => (hinv ht).spaced
    repeated := by
      intro t o t' ht hstep hcheck hrepeat
      obtain ⟨⟨hnow, -⟩, rfl⟩ := step_eq_some.mp hstep
      have hanswer := (hinv ht).answer_duplicate hnow hcheck hrepeat
      rw [hanswer]
      exact ⟨rfl, rfl⟩
    refused := by
      intro t o t' ht hstep hanswer
      have hrefused : Refused t t' o := by
        refine (hinv ht).refused_of_answer hw hstep ?_
        rcases hanswer with hanswer | ⟨e, hanswer⟩
        · rw [hanswer]
          simp
        · rw [hanswer]
          simp
      exact ⟨hrefused.rates, hrefused.dropped⟩
    fresh := fun t o t' ht hstep hcheck hold hover =>
      (hinv ht).answer_accepted hw (step_eq_some.mp hstep).1.1 hcheck hold hover
    retried := fun t o t₁ window between t₂ o' t' ht hstep hanswer hrate hrun hends hlast hagent
        henvelope hover =>
      (hinv ht).retried hw hstep hanswer hrate hrun hends hlast hagent henvelope
        hover
    isolated := fun offers t agentID hcolon hrun => isolated hcolon hrun
    bounded := fun t agentID window offers t' ht hrate hrun =>
      (hinv ht).within hw hrate hrun }

end Promises

/-- The envelopes of one boot of an agent, which differ in the sequence number. -/
def submitted (i : Nat) : Envelope :=
  .draft "agent" "host" "boot" (UInt64.ofNat (i + 1)) (seconds 10)
    [⟨"d", ⟨"m", "u", some ⟨0⟩, .fresh, "s", "t", seconds 10⟩⟩] []

theorem submitted_sequence {i : Nat} (hi : i < 2 ^ 63) :
    (submitted i).sequence.toNat = i + 1 :=
  UInt64.toNat_ofNat_of_lt' (by simp only [UInt64.size]; omega)

theorem submitted_check {i : Nat} (hi : i < 2 ^ 63) :
    checkAccept "agent" (submitted i) = .ok () := by
  have hvalidate : (submitted 0).validate = .ok () := by decide +kernel
  have hzero := Envelope.validate_eq_ok.mp hvalidate
  have hsequence : (submitted i).sequence ≠ 0 := by
    intro heq
    have hnat := submitted_sequence hi
    rw [heq] at hnat
    exact Nat.succ_ne_zero i hnat.symm
  exact checkAccept_eq_ok.mpr ⟨rfl, { hzero with sequence := hsequence }⟩

theorem submitted_key_inj {i j : Nat} (hi : i < 2 ^ 63) (hj : j < 2 ^ 63)
    (h : (submitted i).idempotencyKey = (submitted j).idempotencyKey) : i = j := by
  have hagent : ':' ∉ "agent".toList := by decide
  have hsequence := ((idempotencyKeyOf_eq_iff hagent hagent).mp h).2.2
  have hnat := congrArg UInt64.toNat hsequence
  rw [submitted_sequence hi, submitted_sequence hj] at hnat
  omega

/-- The agent offers an envelope of its boot at a reading of the clock. -/
def offered (now : Int) (i : Nat) : Offer := ⟨now, "agent", submitted i⟩

theorem offered_colon (now : Int) (i : Nat) : ':' ∉ (offered now i).agentID.toList := by
  have hagent : ':' ∉ "agent".toList := by decide
  exact hagent

theorem limit_toInt_neg {policy : Policy}
    (hsum : 2 ^ 63 ≤ policy.maxRequestsPerMinute.toInt + policy.burst.toInt) :
    policy.limit.toInt < 0 := by
  have hmax := Int64.toInt_lt policy.maxRequestsPerMinute
  have hburst := Int64.toInt_lt policy.burst
  rw [Policy.limit, Int64.toInt_add, ← Int.sub_bmod_right, Int.bmod_eq_of_le (by omega) (by omega)]
  omega

/-- Bounds whose sum overflows leave no room even for the first call. -/
theorem not_admits_of_overflow {policy : Policy} (start : Int)
    (hsum : 2 ^ 63 ≤ policy.maxRequestsPerMinute.toInt + policy.burst.toInt) :
    ¬ Admits policy start := by
  intro h
  have hlimit := limit_toInt_neg hsum
  have hcheck : checkAccept "agent" (submitted 0) = .ok () := submitted_check (by decide)
  have hnone : ∀ window, (init policy start).service.rates "agent" = some window →
      window.startedAt + seconds 60 ≤ start := by
    intro window hrate
    cases hrate
  have hfresh := h.fresh (init policy start) (offered start 0) _ ⟨[], rfl⟩
    (step_eq_some.mpr ⟨⟨le_rfl, offered_colon start 0⟩, rfl⟩) hcheck
    (fun _ ha => nomatch ha) hnone
  have hfull : (init policy start).service.policy.limit ≤
      ((init policy start).service.windowAt "agent" start).count := by
    have hcount : (⟨start, 0⟩ : AgentWindow).count.toInt = 0 := Int64.toInt_zero
    rw [Service.windowAt_of_over hnone, Int64.le_iff_toInt_le, hcount]
    exact hlimit.le
  rw [answer, offered, Service.accept_of_full hcheck rfl hfull] at hfresh
  cases hfresh

/-- The state in which envelopes of one boot were accepted at the zero time, one after the
other. -/
structure Zeroed (policy : Policy) (n : Nat) (s : Admission) : Prop where
  samePolicy : s.service.policy = policy
  last : s.last ≤ zeroTime
  rates : ∀ window, s.service.rates "agent" = some window → window.startedAt = zeroTime
  stored : 0 < n → (s.service.rates "agent").isSome = true
  seen : ∀ key expiresAt, s.service.seen key = some expiresAt →
    ∃ i < n, key = (submitted i).idempotencyKey
  count : s.acceptedIn "agent" zeroTime = n

/-- At the zero time every call opens a window, so the next envelope is accepted as well. -/
theorem Zeroed.step {policy : Policy} {n : Nat} {s : Admission} (h : Zeroed policy n s)
    (hpos : 0 < policy.limit.toInt) (hn : n < 2 ^ 63) :
    s.step (offered zeroTime n) = some (s.accepted (offered zeroTime n)) ∧
      Zeroed policy (n + 1) (s.accepted (offered zeroTime n)) := by
  have hwindow : s.service.windowAt "agent" zeroTime = ⟨zeroTime, 0⟩ := by
    cases hrate : s.service.rates "agent" with
    | none => simp [Service.windowAt, hrate, isZero]
    | some window => simp [Service.windowAt, hrate, isZero, h.rates window hrate]
  have hcheck := submitted_check hn
  have hunseen : (s.service.prune zeroTime).seen (submitted n).idempotencyKey = none := by
    rw [Option.eq_none_iff_forall_ne_some]
    intro expiresAt hsome
    obtain ⟨i, hi, hkey⟩ := h.seen _ _ (Service.seen_prune_eq_some.mp hsome).1
    have := submitted_key_inj hn (by omega) hkey
    omega
  have hroom : (s.service.windowAt "agent" zeroTime).count < s.service.policy.limit := by
    rw [hwindow, h.samePolicy, Int64.lt_iff_toInt_lt]
    exact hpos
  have hanswer : s.answer (offered zeroTime n) =
      (.ok ⟨.accepted, (offered zeroTime n).key, zeroTime⟩,
        (s.accepted (offered zeroTime n)).service) :=
    Service.accept_of_room hcheck hunseen hroom
  refine ⟨step_eq_some.mpr ⟨⟨h.last, offered_colon _ _⟩, by rw [hanswer]; rfl⟩, ?_⟩
  exact {
    samePolicy := h.samePolicy
    last := le_rfl
    rates := by
      intro window hrate
      simp only [accepted, offered, Function.update_self, Option.some.injEq, hwindow] at hrate
      rw [← hrate]
    stored := fun _ => by simp [accepted, offered]
    seen := by
      intro key expiresAt hsome
      rcases eq_or_ne key (offered zeroTime n).key with rfl | hne
      · exact ⟨n, Nat.lt_succ_self n, rfl⟩
      · simp only [accepted, Function.update_of_ne hne] at hsome
        obtain ⟨i, hi, hkey⟩ := h.seen key expiresAt (Service.seen_prune_eq_some.mp hsome).1
        exact ⟨i, Nat.lt_succ_of_lt hi, hkey⟩
    count := by
      have hminute : zeroTime < zeroTime + seconds 60 := by decide
      have hin : Answered.acceptedIn "agent" zeroTime ⟨offered zeroTime n,
          .ok ⟨.accepted, (offered zeroTime n).key, zeroTime⟩⟩ = true :=
        Answered.acceptedIn_eq_true.mpr ⟨rfl, rfl, le_rfl, hminute⟩
      rw [acceptedIn_accepted, h.count]
      exact congrArg (n + ·) (if_pos hin) }

theorem zeroed_run {policy : Policy} {start : Int} (hstart : start ≤ zeroTime)
    (hpos : 0 < policy.limit.toInt) {n : Nat} (hn : n ≤ 2 ^ 63) :
    ∃ s, Machine.run step (init policy start) ((List.range n).map (offered zeroTime)) = some s ∧
      Zeroed policy n s := by
  induction n with
  | zero =>
      exact ⟨init policy start, rfl, rfl, hstart, fun _ hrate => (nomatch hrate),
        fun h => absurd h (lt_irrefl 0), fun _ _ hsome => (nomatch hsome), rfl⟩
  | succ n ih =>
      obtain ⟨s, hrun, hzeroed⟩ := ih (by omega)
      obtain ⟨hstep, hnext⟩ := hzeroed.step hpos (by omega)
      refine ⟨_, ?_, hnext⟩
      rw [List.range_succ, List.map_append]
      exact Machine.run_append_eq_some.mpr
        ⟨s, hrun, Machine.run_cons_eq_some.mpr ⟨_, hstep, rfl⟩⟩

/-- A clock that can read the zero time lets an agent pass both bounds. -/
theorem not_admits_of_zero {policy : Policy} {start : Int} (hvalid : policy.validate = .ok ())
    (hsum : policy.maxRequestsPerMinute.toInt + policy.burst.toInt < 2 ^ 63)
    (hstart : start ≤ zeroTime) : ¬ Admits policy start := by
  intro h
  have hlimit := limit_toInt hvalid hsum
  obtain ⟨hmax, hburst, -⟩ := Policy.validate_eq_ok.mp hvalid
  have hpos : 0 < policy.limit.toInt := by omega
  have hn : policy.limit.toInt.toNat + 1 ≤ 2 ^ 63 := by omega
  obtain ⟨s, hrun, hzeroed⟩ := zeroed_run hstart hpos hn
  obtain ⟨window, hrate⟩ := Option.isSome_iff_exists.mp (hzeroed.stored (Nat.succ_pos _))
  have hbounded := h.bounded s "agent" window [] s ⟨_, hrun⟩ hrate rfl
  rw [hzeroed.rates window hrate, hzeroed.count] at hbounded
  omega

end Admission

/-- The service keeps its promises exactly when its two bounds can be added in an `int` and the
clock has passed the zero time. -/
theorem admits_iff {policy : Policy} (start : Int) (hvalid : policy.validate = .ok ()) :
    Admits policy start ↔
      policy.maxRequestsPerMinute.toInt + policy.burst.toInt < 2 ^ 63 ∧ zeroTime < start := by
  constructor
  · intro h
    have hsum : policy.maxRequestsPerMinute.toInt + policy.burst.toInt < 2 ^ 63 := by
      by_contra hover
      exact Admission.not_admits_of_overflow start (not_lt.mp hover) h
    refine ⟨hsum, ?_⟩
    by_contra hstart
    exact Admission.not_admits_of_zero hvalid hsum (not_lt.mp hstart) h
  · rintro ⟨hsum, hzero⟩
    exact Admission.admits_of_lt hvalid hsum hzero

theorem defaultPolicy_admits : Admits defaultPolicy (seconds 1784721600) :=
  (admits_iff (seconds 1784721600) (by decide)).mpr (by decide)

/-- A policy that `Validate` accepts and that throttles every call. -/
def overflowing : Policy := ⟨9223372036854775807, 1, 172800000000000⟩

theorem overflowing_not_admits :
    overflowing.validate = .ok () ∧ ¬ Admits overflowing (seconds 1784721600) :=
  ⟨by decide, Admission.not_admits_of_overflow _ (by decide)⟩

end NodeScope.Ingest
