import Mathlib.Tactic.Linarith
import Mathlib.Tactic.NormNum
import NodeScope.Lib.Check
import NodeScope.Lib.FloatArith

/-!
# The capacity governor

`Policy.decide` computes the used share of a quota with two conversions, a division and a
multiplication of doubles, each of which rounds, and compares it with the thresholds of the policy.
Rounding respects the order, so that the mode still never falls as usage grows and never rises as
the quota grows; and for the default thresholds it decides no case otherwise than the exact share
would, up to a quota of 64 tebibytes.
-/

namespace NodeScope.Storage

open Lib Lib.Check Lib.Float64

section Model

/-- `Mode`. -/
inductive Mode where
  | normal
  | constrained
  | summaryOnly
  | protective
deriving DecidableEq

/-- How far storage is held back in a mode. -/
def Mode.severity : Mode → Nat
  | normal => 0
  | constrained => 1
  | summaryOnly => 2
  | protective => 3

/-- `Policy` of the storage governor. -/
structure Policy where
  constrainedPercent : Float64
  summaryOnlyPercent : Float64
  protectivePercent : Float64

/-- `DefaultPolicy`. -/
def defaultPolicy : Policy where
  constrainedPercent := Float64.ofInt 70
  summaryOnlyPercent := Float64.ofInt 85
  protectivePercent := Float64.ofInt 95

def zeroPercent : Float64 := Float64.ofInt 0

def hundredPercent : Float64 := Float64.ofInt 100

namespace Policy

/-- The thresholds in the order in which `Validate` checks them. -/
def thresholds (policy : Policy) : List (String × Float64) :=
  [("constrained", policy.constrainedPercent), ("summary-only", policy.summaryOnlyPercent),
    ("protective", policy.protectivePercent)]

def finite (threshold : String × Float64) : Except String Unit :=
  failIf (threshold.2.isNaN || threshold.2.isInf) (threshold.1 ++ " percentage must be finite")

/-- `Policy.Validate`. -/
def validate (policy : Policy) : Except String Unit := do
  forAll finite policy.thresholds
  failIf (atLeast zeroPercent policy.constrainedPercent
      || atLeast policy.constrainedPercent hundredPercent)
    "constrained percentage must be in (0, 100)"
  failIf (atLeast policy.constrainedPercent policy.summaryOnlyPercent
      || atLeast policy.summaryOnlyPercent hundredPercent)
    "summary-only percentage must exceed constrained percentage and be below 100"
  failIf (atLeast policy.summaryOnlyPercent policy.protectivePercent
      || atLeast policy.protectivePercent hundredPercent)
    "protective percentage must exceed summary-only percentage and be below 100"

end Policy

/-- `Decision`. -/
structure Decision where
  mode : Mode
  acceptRawBatches : Bool
  acceptSummaryRollups : Bool
  recommendedAction : String
deriving DecidableEq

/-- The four decisions of the switch. -/
def decisionOf : Mode → Decision
  | .protective =>
      { mode := .protective
        acceptRawBatches := false
        acceptSummaryRollups := true
        recommendedAction := "Block raw telemetry storage, retain latest state and summaries, and require operator capacity action." }
  | .summaryOnly =>
      { mode := .summaryOnly
        acceptRawBatches := false
        acceptSummaryRollups := true
        recommendedAction := "Stop retaining raw batches and preserve only latest state and summary rollups." }
  | .constrained =>
      { mode := .constrained
        acceptRawBatches := true
        acceptSummaryRollups := true
        recommendedAction := "Continue raw telemetry with stricter compression and emit a capacity warning." }
  | .normal =>
      { mode := .normal
        acceptRawBatches := true
        acceptSummaryRollups := true
        recommendedAction := "Operate with configured raw and summary retention." }

def usedPercent (usedBytes quotaBytes : Int64) : Float64 :=
  ((Float64.ofInt usedBytes.toInt).div (Float64.ofInt quotaBytes.toInt)).mul hundredPercent

/-- The cases of the switch. -/
def Policy.modeAt (policy : Policy) (percent : Float64) : Mode :=
  if atLeast percent policy.protectivePercent then .protective
  else if atLeast percent policy.summaryOnlyPercent then .summaryOnly
  else if atLeast percent policy.constrainedPercent then .constrained
  else .normal

/-- `Policy.Decide`. -/
def Policy.decide (policy : Policy) (usedBytes quotaBytes : Int64) : Except String Decision := do
  policy.validate
  failIf (quotaBytes ≤ 0) "quota bytes must be positive"
  failIf (usedBytes < 0) "used bytes cannot be negative"
  return decisionOf (policy.modeAt (usedPercent usedBytes quotaBytes))

end Model

section Percent

variable {used used' quota quota' : Int64}

theorem plain_hundred : hundredPercent.Plain := by
  rw [Plain]
  decide +kernel

theorem plain_zero : zeroPercent.Plain := by
  rw [Plain]
  decide +kernel

theorem rank_lt_of_atLeast {x y : Float64} (hx : x.isNaN = false) (hy : y.isNaN = false)
    (h : atLeast x y = false) : Aggregate.rank x < Aggregate.rank y := by
  simpa [atLeast, hx, hy] using h

/-- A double strictly between two plain ones is plain. -/
theorem plain_between {x y z : Float64} (hx : x.Plain) (hz : z.Plain) (hy : y.isNaN = false)
    (hlow : atLeast x y = false) (hhigh : atLeast y z = false) :
    y.Plain ∧ x.bits.toNat < y.bits.toNat ∧ y.bits.toNat < z.bits.toNat := by
  have hxy := rank_lt_of_atLeast hx.isNaN hy hlow
  have hyz := rank_lt_of_atLeast hy hz.isNaN hhigh
  have hbits := hz.bits_lt
  rw [hx.rank_eq, Aggregate.rank] at hxy
  rw [hz.rank_eq, Aggregate.rank] at hyz
  rw [Plain, infinityBits]
  by_cases hneg : y.negative = true
  · rw [if_pos hneg] at hxy
    omega
  · rw [if_neg hneg] at hxy hyz
    have hlt : y.bits.toNat < 2 ^ 63 := by simpa [negative] using hneg
    omega

theorem plain_ofInt {n : Int} (h : 0 ≤ n) (hn : n ≤ 2 ^ 63) : (Float64.ofInt n).Plain := by
  have hq : (0 : ℚ) ≤ n := by exact_mod_cast h
  apply plain_ofRat hq
  calc magnitude (n : ℚ) ≤ magnitude (2 ^ 63) := magnitude_mono hq (by exact_mod_cast hn)
    _ < infinityBits := by decide +kernel

theorem ofInt_mono {m n : Int} (hm : 0 ≤ m) (h : m ≤ n) (hn : n ≤ 2 ^ 63) :
    (Float64.ofInt m).toRat ≤ (Float64.ofInt n).toRat := by
  rw [(plain_ofInt hm (h.trans hn)).toRat_le_iff (plain_ofInt (hm.trans h) hn)]
  exact bits_ofRat_mono (by exact_mod_cast hm) (Int.cast_le.mpr h)

theorem one_le_ofInt {n : Int} (h : 0 < n) (hn : n ≤ 2 ^ 63) : 1 ≤ (Float64.ofInt n).toRat := by
  calc (1 : ℚ) = (Float64.ofInt 1).toRat := by decide +kernel
    _ ≤ (Float64.ofInt n).toRat := ofInt_mono Int.one_nonneg h hn

theorem ofInt_le_pow {n : Int} (h : 0 ≤ n) (hn : n ≤ 2 ^ 63) :
    (Float64.ofInt n).toRat ≤ 2 ^ 63 := by
  calc (Float64.ofInt n).toRat ≤ (Float64.ofInt (2 ^ 63)).toRat := ofInt_mono h hn le_rfl
    _ = 2 ^ 63 := by decide +kernel

/-- The exact quotient of the converted counts. -/
def exactShare (used quota : Int64) : ℚ :=
  (Float64.ofInt used.toInt).toRat / (Float64.ofInt quota.toInt).toRat

theorem exactShare_nonneg (hused : 0 ≤ used.toInt)
    (hquota : 0 < quota.toInt) : 0 ≤ exactShare used quota := by
  have hu := (plain_ofInt hused used.toInt_lt.le).toRat_nonneg
  have hq := (plain_ofInt hquota.le quota.toInt_lt.le).toRat_nonneg
  exact div_nonneg hu hq

theorem exactShare_le (hused : 0 ≤ used.toInt) (hquota : 0 < quota.toInt) :
    exactShare used quota ≤ 2 ^ 63 := by
  have hone := one_le_ofInt hquota quota.toInt_lt.le
  have hbound := ofInt_le_pow hused used.toInt_lt.le
  rw [exactShare, div_le_iff₀ (one_pos.trans_le hone)]
  nlinarith

theorem exactShare_mono (hused : 0 ≤ used.toInt) (hquota : 0 < quota'.toInt)
    (hle : used.toInt ≤ used'.toInt) (hquotas : quota'.toInt ≤ quota.toInt) :
    exactShare used quota ≤ exactShare used' quota' := by
  have hnum := ofInt_mono hused hle used'.toInt_lt.le
  have hden := ofInt_mono hquota.le hquotas quota.toInt_lt.le
  have hone := one_le_ofInt hquota quota'.toInt_lt.le
  have hnonneg := (plain_ofInt (hused.trans hle) used'.toInt_lt.le).toRat_nonneg
  exact div_le_div₀ hnonneg hnum (one_pos.trans_le hone) hden

/-- The share is rounded once, and its multiple again. -/
def percentOf (share : ℚ) : Float64 := (ofRat share).mul hundredPercent

theorem usedPercent_eq (hused : 0 ≤ used.toInt) (hquota : 0 < quota.toInt) :
    usedPercent used quota = percentOf (exactShare used quota) := by
  have hone := one_le_ofInt hquota quota.toInt_lt.le
  have hu := plain_ofInt hused used.toInt_lt.le
  have hq := plain_ofInt hquota.le quota.toInt_lt.le
  rw [usedPercent, hu.div_eq hq (one_pos.trans_le hone), percentOf, exactShare]

theorem plain_share {q : ℚ} (h : 0 ≤ q) (hq : q ≤ 2 ^ 63) : (ofRat q).Plain := by
  apply plain_ofRat h
  calc magnitude q ≤ magnitude (2 ^ 63) := magnitude_mono h hq
    _ < infinityBits := by decide +kernel

theorem percentOf_mono {p q : ℚ} (hp : 0 ≤ p) (h : p ≤ q) (hq : q ≤ 2 ^ 63) :
    (percentOf p).bits.toNat ≤ (percentOf q).bits.toNat := by
  apply (plain_share hp (h.trans hq)).mul_le (plain_share (hp.trans h) hq) plain_hundred
  exact bits_ofRat_mono hp h

theorem plain_percentOf {q : ℚ} (h : 0 ≤ q) (hq : q ≤ 2 ^ 63) : (percentOf q).Plain := by
  have htop : (percentOf (2 ^ 63)).Plain := by
    rw [Plain]
    decide +kernel
  exact (percentOf_mono h hq le_rfl).trans_lt htop

end Percent

section Modes

variable {policy : Policy} {used used' quota quota' : Int64} {decision decision' : Decision}

/-- What the checks leave of a policy. -/
structure Policy.Ordered (policy : Policy) : Prop where
  constrained : policy.constrainedPercent.Plain
  summaryOnly : policy.summaryOnlyPercent.Plain
  protective : policy.protectivePercent.Plain
  positive : 0 < policy.constrainedPercent.bits.toNat
  below_summaryOnly :
    policy.constrainedPercent.bits.toNat < policy.summaryOnlyPercent.bits.toNat
  below_protective :
    policy.summaryOnlyPercent.bits.toNat < policy.protectivePercent.bits.toNat
  below_hundred : policy.protectivePercent.bits.toNat < hundredPercent.bits.toNat

theorem ordered_of_validate (h : policy.validate = .ok ()) : policy.Ordered := by
  simp only [Policy.validate, unit_bind_eq_ok, forAll_eq_ok, failIf_eq_ok, Policy.thresholds,
    Policy.finite, List.forall_mem_cons, Bool.or_eq_false_iff] at h
  obtain ⟨⟨⟨hc, -⟩, ⟨hs, -⟩, ⟨hp, -⟩, -⟩, ⟨hzero, hc'⟩, ⟨hcs, hs'⟩, ⟨hsp, hp'⟩⟩ := h
  obtain ⟨hcPlain, hpos, -⟩ := plain_between plain_zero plain_hundred hc hzero hc'
  obtain ⟨hsPlain, hlow, -⟩ := plain_between hcPlain plain_hundred hs hcs hs'
  obtain ⟨hpPlain, hmid, htop⟩ := plain_between hsPlain plain_hundred hp hsp hp'
  exact ⟨hcPlain, hsPlain, hpPlain, (Nat.zero_le _).trans_lt hpos, hlow, hmid, htop⟩

theorem decide_eq_ok : policy.decide used quota = .ok decision ↔
    policy.validate = .ok () ∧ 0 < quota.toInt ∧ 0 ≤ used.toInt ∧
      decision = decisionOf (policy.modeAt (usedPercent used quota)) := by
  simp only [Policy.decide, unit_bind_eq_ok, failIf_eq_ok, decide_eq_false_iff_not,
    Int64.le_iff_toInt_le, Int64.lt_iff_toInt_lt, not_le, not_lt, Int64.toInt_zero]
  refine and_congr_right fun _ => and_congr_right fun _ => and_congr_right fun _ => ?_
  exact ⟨fun h => (Except.ok.inj h).symm, fun h => congrArg _ h.symm⟩

/-- The mode in terms of bits, for a percentage that is plain. -/
theorem modeAt_eq (hpolicy : policy.Ordered) {percent : Float64} (hpercent : percent.Plain) :
    policy.modeAt percent =
      if policy.protectivePercent.bits.toNat ≤ percent.bits.toNat then .protective
      else if policy.summaryOnlyPercent.bits.toNat ≤ percent.bits.toNat then .summaryOnly
      else if policy.constrainedPercent.bits.toNat ≤ percent.bits.toNat then .constrained
      else .normal := by
  simp only [Policy.modeAt, hpercent.atLeast_iff hpolicy.protective,
    hpercent.atLeast_iff hpolicy.summaryOnly, hpercent.atLeast_iff hpolicy.constrained]

theorem modeAt_mono (hpolicy : policy.Ordered) {p q : Float64} (hp : p.Plain) (hq : q.Plain)
    (h : p.bits.toNat ≤ q.bits.toNat) :
    (policy.modeAt p).severity ≤ (policy.modeAt q).severity := by
  have hlow := hpolicy.below_summaryOnly
  have hmid := hpolicy.below_protective
  rw [modeAt_eq hpolicy hp, modeAt_eq hpolicy hq]
  split_ifs <;> simp only [Mode.severity] <;> omega

theorem decisionOf_mode (mode : Mode) : (decisionOf mode).mode = mode := by
  cases mode <;> rfl

theorem decisionOf_raw (mode : Mode) :
    (decisionOf mode).acceptRawBatches = true ↔ mode.severity ≤ Mode.constrained.severity := by
  cases mode <;> decide

theorem decisionOf_summaries (mode : Mode) : (decisionOf mode).acceptSummaryRollups = true := by
  cases mode <;> rfl

theorem percent_empty (hused : used.toInt = 0) (hquota : 0 < quota.toInt) :
    (usedPercent used quota).bits.toNat = 0 := by
  have hzero : exactShare used quota = 0 := by
    have hnum : (Float64.ofInt 0).toRat = 0 := by decide +kernel
    rw [exactShare, hused, hnum, zero_div]
  rw [usedPercent_eq hused.ge hquota, hzero]
  decide +kernel

theorem percent_full (hquota : 0 < quota.toInt) (h : quota.toInt ≤ used.toInt) :
    hundredPercent.bits.toNat ≤ (usedPercent used quota).bits.toNat := by
  have hused : 0 ≤ used.toInt := hquota.le.trans h
  have hshare : 1 ≤ exactShare used quota := by
    have hone := one_le_ofInt hquota quota.toInt_lt.le
    rw [exactShare, le_div_iff₀ (one_pos.trans_le hone), one_mul]
    exact ofInt_mono hquota.le h used.toInt_lt.le
  have hfull : percentOf 1 = hundredPercent := by decide +kernel
  rw [usedPercent_eq hused hquota, ← hfull]
  exact percentOf_mono zero_le_one hshare (exactShare_le hused hquota)

/-- Under every policy that passes its checks, a decision is made for every count that is not
negative and every positive quota. More usage or a smaller quota never leads to a milder mode, an
empty store is in the normal mode and a full one in the protective mode. Raw batches are accepted
below the summary-only mode, and summaries always. -/
theorem mode_follows_usage (policy : Policy) (hpolicy : policy.validate = .ok ()) :
    (∀ used quota : Int64, 0 ≤ used → 0 < quota → ∃ decision,
      policy.decide used quota = .ok decision ∧ decision.acceptSummaryRollups = true ∧
      (decision.acceptRawBatches = true ↔
        decision.mode.severity ≤ Mode.constrained.severity) ∧
      (used = 0 → decision.mode = .normal) ∧
      (quota ≤ used → decision.mode = .protective)) ∧
    (∀ used used' quota quota' decision decision', used ≤ used' → quota' ≤ quota →
      policy.decide used quota = .ok decision → policy.decide used' quota' = .ok decision' →
      decision.mode.severity ≤ decision'.mode.severity) := by
  have hordered := ordered_of_validate hpolicy
  have hpos := hordered.positive
  have hlow := hordered.below_summaryOnly
  have hmid := hordered.below_protective
  have htop := hordered.below_hundred
  constructor
  · intro used quota hused hquota
    rw [Int64.le_iff_toInt_le, Int64.toInt_zero] at hused
    rw [Int64.lt_iff_toInt_lt, Int64.toInt_zero] at hquota
    have hplain : (usedPercent used quota).Plain := by
      rw [usedPercent_eq hused hquota]
      exact plain_percentOf (exactShare_nonneg hused hquota) (exactShare_le hused hquota)
    refine ⟨_, decide_eq_ok.mpr ⟨hpolicy, hquota, hused, rfl⟩, decisionOf_summaries _, ?_, ?_, ?_⟩
    · rw [decisionOf_mode]
      exact decisionOf_raw _
    · rintro rfl
      have hempty := percent_empty Int64.toInt_zero hquota
      rw [decisionOf_mode, modeAt_eq hordered hplain, if_neg (by omega), if_neg (by omega),
        if_neg (by omega)]
    · intro hfull
      have hbits := percent_full hquota (Int64.le_iff_toInt_le.mp hfull)
      rw [decisionOf_mode, modeAt_eq hordered hplain, if_pos (by omega)]
  · intro used used' quota quota' decision decision' hused hquota h h'
    obtain ⟨-, hq, hu, rfl⟩ := decide_eq_ok.mp h
    obtain ⟨-, hq', hu', rfl⟩ := decide_eq_ok.mp h'
    rw [Int64.le_iff_toInt_le] at hused hquota
    have hmono := exactShare_mono hu hq' hused hquota
    rw [decisionOf_mode, decisionOf_mode, usedPercent_eq hu hq, usedPercent_eq hu' hq']
    have hshare := exactShare_nonneg hu hq
    have hshare' := exactShare_le hu' hq'
    apply modeAt_mono hordered (plain_percentOf hshare (hmono.trans hshare'))
    · exact plain_percentOf (hshare.trans hmono) hshare'
    · exact percentOf_mono hshare hmono hshare'

/-- The thresholds of the default policy pass. -/
theorem defaultPolicy_validate : defaultPolicy.validate = .ok () := by
  decide +kernel

theorem mode_follows_usage_default : ∃ decision,
    defaultPolicy.decide 12 10 = .ok decision ∧ decision.mode = .protective := by
  obtain ⟨decision, hdecide, -, -, -, hfull⟩ :=
    (mode_follows_usage defaultPolicy defaultPolicy_validate).1 12 10 (by decide) (by decide)
  exact ⟨decision, hdecide, hfull (by decide)⟩

end Modes

section Exact

variable {used quota : Int64}

/-- The mode of the exact percentage under the default policy. -/
def exactMode (usedBytes quotaBytes : Int) : Mode :=
  if 95 * quotaBytes ≤ 100 * usedBytes then .protective
  else if 85 * quotaBytes ≤ 100 * usedBytes then .summaryOnly
  else if 70 * quotaBytes ≤ 100 * usedBytes then .constrained
  else .normal

theorem toRat_ofInt_of_lt {n : Int} (h : 0 ≤ n) (hn : n < 2 ^ 53) :
    (Float64.ofInt n).toRat = n := by
  lift n to Nat using h
  exact toRat_ofRat_natCast (by exact_mod_cast hn)

theorem exactShare_of_lt (hused : 0 ≤ used.toInt) (hused' : used.toInt < 2 ^ 53)
    (hquota : 0 < quota.toInt) (hquota' : quota.toInt < 2 ^ 53) :
    exactShare used quota = (used.toInt : ℚ) / quota.toInt := by
  rw [exactShare, toRat_ofInt_of_lt hused hused', toRat_ofInt_of_lt hquota.le hquota']

/-- A threshold that survives the rounding from above, and that a share just below it does not
reach, is reached exactly where the exact percentage reaches it. -/
theorem threshold_le_iff {t : Int} (ht : 0 < t) (ht' : t ≤ 100)
    (habove : (Float64.ofInt t).bits.toNat ≤ (percentOf (t / 100)).bits.toNat)
    (hbelow : (percentOf (t / 100 - 1 / (100 * 2 ^ 46))).bits.toNat <
      (Float64.ofInt t).bits.toNat)
    (hused : 0 ≤ used.toInt) (hquota : 0 < quota.toInt) (hbound : quota.toInt ≤ 2 ^ 46) :
    (Float64.ofInt t).bits.toNat ≤ (usedPercent used quota).bits.toNat ↔
      t * quota.toInt ≤ 100 * used.toInt := by
  have hq : (0 : ℚ) < quota.toInt := by exact_mod_cast hquota
  obtain hlt | hfull := lt_or_ge used.toInt quota.toInt
  · rw [usedPercent_eq hused hquota]
    have hshare := exactShare_of_lt hused (by omega) hquota (by omega)
    constructor
    · -- A share below the threshold is below it by a part of the quota.
      contrapose!
      intro hless
      have hgap : exactShare used quota ≤ t / 100 - 1 / (100 * 2 ^ 46) := by
        have hcount : (100 * used.toInt : ℚ) ≤ t * quota.toInt - 1 := by
          exact_mod_cast Int.le_sub_one_of_lt hless
        have hstep : (1 : ℚ) / (100 * 2 ^ 46) ≤ 1 / (100 * quota.toInt) := by
          apply one_div_le_one_div_of_le (by positivity)
          exact mul_le_mul_of_nonneg_left (by exact_mod_cast hbound) (by norm_num)
        calc exactShare used quota = 100 * used.toInt / (100 * quota.toInt) := by
              rw [hshare, mul_div_mul_left _ _ (by norm_num)]
          _ ≤ (t * quota.toInt - 1) / (100 * quota.toInt) :=
              div_le_div_of_nonneg_right hcount (by positivity)
          _ = t / 100 - 1 / (100 * quota.toInt) := by
              field_simp
          _ ≤ t / 100 - 1 / (100 * 2 ^ 46) := by linarith
      have htop : ((t : ℚ) / 100 - 1 / (100 * 2 ^ 46)) ≤ 2 ^ 63 := by
        have : (t : ℚ) ≤ 100 := by exact_mod_cast ht'
        linarith
      exact (percentOf_mono (exactShare_nonneg hused hquota) hgap htop).trans_lt hbelow
    · intro hreach
      refine habove.trans (percentOf_mono (by positivity) ?_ (exactShare_le hused hquota))
      rw [hshare, div_le_div_iff₀ (by norm_num) hq]
      exact_mod_cast hreach.trans_eq (Int.mul_comm ..)
  · have hfloat := percent_full hquota hfull
    have hthreshold : (Float64.ofInt t).bits.toNat ≤ hundredPercent.bits.toNat :=
      bits_ofRat_mono (by exact_mod_cast ht.le) (by exact_mod_cast ht')
    refine iff_of_true (hthreshold.trans hfloat) ?_
    nlinarith

/-- Under the default policy and a quota of at most 64 tebibytes, no rounding shows: the decision is
the one of the exact percentage. -/
theorem default_mode_exact (used quota : Int64) (hused : 0 ≤ used) (hquota : 0 < quota)
    (hbound : quota ≤ 2 ^ 46) :
    defaultPolicy.decide used quota = .ok (decisionOf (exactMode used.toInt quota.toInt)) := by
  rw [Int64.le_iff_toInt_le, Int64.toInt_zero] at hused
  rw [Int64.lt_iff_toInt_lt, Int64.toInt_zero] at hquota
  have hbound' : quota.toInt ≤ 2 ^ 46 := Int64.le_iff_toInt_le.mp hbound
  have hordered := ordered_of_validate defaultPolicy_validate
  have hplain : (usedPercent used quota).Plain := by
    rw [usedPercent_eq hused hquota]
    exact plain_percentOf (exactShare_nonneg hused hquota) (exactShare_le hused hquota)
  have hprotective := threshold_le_iff (t := 95) (by decide) (by decide) (by decide +kernel)
    (by decide +kernel) hused hquota hbound'
  have hsummaryOnly := threshold_le_iff (t := 85) (by decide) (by decide) (by decide +kernel)
    (by decide +kernel) hused hquota hbound'
  have hconstrained := threshold_le_iff (t := 70) (by decide) (by decide) (by decide +kernel)
    (by decide +kernel) hused hquota hbound'
  refine decide_eq_ok.mpr ⟨defaultPolicy_validate, hquota, hused, congrArg decisionOf ?_⟩
  rw [modeAt_eq hordered hplain]
  simp only [exactMode, defaultPolicy, hprotective, hsummaryOnly, hconstrained]

theorem default_mode_exact_ninetyFive :
    defaultPolicy.decide 95 100 = .ok (decisionOf .protective) :=
  default_mode_exact 95 100 (by decide) (by decide) (by decide)

end Exact

end NodeScope.Storage
