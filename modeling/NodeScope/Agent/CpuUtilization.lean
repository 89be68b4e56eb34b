import Mathlib.Data.List.Chain
import NodeScope.Agent.Collectors
import NodeScope.Lib.Wrapping

/-!
# When a CPU utilization is honest

`collectCPU` keeps the sums of its last reading in 64 bits, and its one guard compares two
differences that may both have wrapped around. What the kernel counted is said here with numbers
that have no bound.

## Implementation notes

`Arithmetic.collectCPU` is `collectCPU` with the arithmetic of the utilization left open: doubles
give the sample of the source, rationals the value that the sample stands for.
-/

namespace NodeScope.Agent

open Lib Lib.Wrapping Telemetry

section Outcome

/-- What a utilization is computed with. -/
structure Arithmetic (V : Type) where
  ofNat : Nat → V
  sub : V → V → V
  mul : V → V → V
  div : V → V → V

def doubles : Arithmetic Float64 where
  ofNat := Float64.ofNat
  sub := Float64.sub
  mul := Float64.mul
  div := Float64.div

def rationals : Arithmetic ℚ where
  ofNat := fun n => n
  sub := fun x y => x - y
  mul := fun x y => x * y
  div := fun x y => x / y

/-- What a call of `collectCPU` emits: nothing but an error, or one sample. -/
inductive CpuOutcome (V : Type) where
  | failed
  | unavailable (semantics : String)
  | utilization (value : V)
deriving DecidableEq

namespace Arithmetic

variable {V : Type} (A : Arithmetic V)

def utilization (idleDelta totalDelta : UInt64) : V :=
  A.mul (A.sub (A.ofNat 1) (A.div (A.ofNat idleDelta.toNat) (A.ofNat totalDelta.toNat)))
    (A.ofNat 100)

def collectCPU (state : CpuState) (stat : Option String) : CpuOutcome V × CpuState :=
  match stat.bind cpuCounters with
  | none => (.failed, state)
  | some values =>
      let total := values.foldl (· + ·) 0
      let idle := values.getD 3 0 + values.getD 4 0
      if !state.hasCPU then
        (.unavailable "aggregate host CPU utilization requires two observations", ⟨total, idle, true⟩)
      else
        let totalDelta := total - state.lastTotal
        let idleDelta := idle - state.lastIdle
        if totalDelta == 0 || totalDelta < idleDelta then
          (.unavailable "aggregate host CPU utilization delta unavailable", ⟨total, idle, true⟩)
        else (.utilization (A.utilization idleDelta totalDelta), ⟨total, idle, true⟩)

end Arithmetic

def CpuOutcome.samples (observedAt : Int) : CpuOutcome Float64 → Option (List Sample)
  | .failed => none
  | .unavailable semantics =>
      some [unavailableSample "cpu-aggregate" "cpu.utilization" "percent" "procfs" semantics
        observedAt]
  | .utilization value =>
      some [numericSample "cpu-aggregate" "cpu.utilization" "percent" value "procfs"
        "aggregate host CPU utilization" observedAt]

/-- With doubles, the outcome gives the samples of the source. -/
theorem collectCPU_eq (state : CpuState) (stat : Option String) (observedAt : Int) :
    collectCPU state stat observedAt =
      ((doubles.collectCPU state stat).1.samples observedAt, (doubles.collectCPU state stat).2) := by
  rw [collectCPU, Arithmetic.collectCPU]
  cases stat.bind cpuCounters with
  | none => rfl
  | some values =>
      dsimp only
      split
      · rfl
      · split
        · rfl
        · rfl

end Outcome

section Honesty

/-- All that the counters of a line counted. -/
def trueTotal (values : List UInt64) : Nat := (values.map UInt64.toNat).sum

/-- The time spent idle or waiting for input and output. -/
def trueIdle (values : List UInt64) : Nat := (values.getD 3 0).toNat + (values.getD 4 0).toNat

def totalAdvance (last values : List UInt64) : Int := trueTotal values - trueTotal last

def idleAdvance (last values : List UInt64) : Int := trueIdle values - trueIdle last

/-- A utilization that is the share of the time that was not spent idle. -/
structure Exact (last values : List UInt64) (value : ℚ) : Prop where
  total : trueTotal last < trueTotal values
  idle : trueIdle last ≤ trueIdle values
  share : value = 100 * (1 - (idleAdvance last values : ℚ) / totalAdvance last values)
  range : 0 ≤ value ∧ value ≤ 100

/-- A call emits a number only if it is exact since the last reading, and else says that there is
none. A file that cannot be read or parsed gives an error, and is no reading. -/
def HonestCall (last current : Option (List UInt64)) (outcome : CpuOutcome ℚ) : Prop :=
  match current, last with
  | none, _ => outcome = .failed
  | some _, none => ∃ semantics, outcome = .unavailable semantics
  | some values, some last =>
      (∃ semantics, outcome = .unavailable semantics) ∨
        ∃ value, outcome = .utilization value ∧ Exact last values value

/-- The guard rejects what the counters show of the two advances, or neither went back and both
took their turns in the ratio of what is shown. -/
def Steady (last values : List UInt64) : Prop :=
  shown (totalAdvance last values) = 0 ∨
    shown (totalAdvance last values) < shown (idleAdvance last values) ∨
    0 ≤ totalAdvance last values ∧ 0 ≤ idleAdvance last values ∧
      shown (idleAdvance last values) * turns (totalAdvance last values) =
        shown (totalAdvance last values) * turns (idleAdvance last values)

instance (last values : List UInt64) : Decidable (Steady last values) :=
  inferInstanceAs (Decidable (_ ∨ _))

variable {last values : List UInt64}

theorem total_toNat (values : List UInt64) :
    (values.foldl (· + ·) 0).toNat = trueTotal values % 2 ^ 64 := by
  rw [toNat_foldl_add, UInt64.toNat_zero, Nat.zero_add, trueTotal]

theorem idle_toNat (values : List UInt64) :
    (values.getD 3 0 + values.getD 4 0).toNat = trueIdle values % 2 ^ 64 := by
  rw [UInt64.toNat_add, trueIdle]

/-- The state after a reading. -/
def stateOf (values : List UInt64) : CpuState :=
  ⟨values.foldl (· + ·) 0, values.getD 3 0 + values.getD 4 0, true⟩

/-- The differences of two readings in 64 bits. -/
def totalDelta (last values : List UInt64) : UInt64 :=
  values.foldl (· + ·) 0 - last.foldl (· + ·) 0

def idleDelta (last values : List UInt64) : UInt64 :=
  (values.getD 3 0 + values.getD 4 0) - (last.getD 3 0 + last.getD 4 0)

theorem toNat_totalDelta (last values : List UInt64) :
    ((totalDelta last values).toNat : Int) = shown (totalAdvance last values) :=
  toNat_sub (total_toNat values) (total_toNat last)

theorem toNat_idleDelta (last values : List UInt64) :
    ((idleDelta last values).toNat : Int) = shown (idleAdvance last values) :=
  toNat_sub (idle_toNat values) (idle_toNat last)

/-- What passes the guard. -/
theorem guard_eq_false :
    (totalDelta last values == 0 || totalDelta last values < idleDelta last values) = false ↔
      shown (totalAdvance last values) ≠ 0 ∧
        shown (idleAdvance last values) ≤ shown (totalAdvance last values) := by
  rw [← toNat_totalDelta, ← toNat_idleDelta, Bool.or_eq_false_iff, beq_eq_false_iff_ne,
    decide_eq_false_iff_not, UInt64.lt_iff_toNat_lt, ne_eq, ← UInt64.toNat_inj, UInt64.toNat_zero]
  omega

theorem rationals_utilization (last values : List UInt64) :
    rationals.utilization (idleDelta last values) (totalDelta last values) =
      100 * (1 - (shown (idleAdvance last values) : ℚ) / shown (totalAdvance last values)) := by
  rw [← toNat_totalDelta, ← toNat_idleDelta]
  simp only [Arithmetic.utilization, rationals, Nat.cast_one, Nat.cast_ofNat, Int.cast_natCast]
  ring

/-- What is shown of two advances has their ratio if it has it as whole numbers. -/
theorem ratio_eq_iff {i t part whole : Int} (ht : t ≠ 0) (hwhole : whole ≠ 0) :
    (i : ℚ) / t = part / whole ↔ i * whole = part * t := by
  have ht' : (t : ℚ) ≠ 0 := Int.cast_ne_zero.mpr ht
  have hwhole' : (whole : ℚ) ≠ 0 := Int.cast_ne_zero.mpr hwhole
  rw [div_eq_div_iff ht' hwhole']
  exact_mod_cast Iff.rfl

theorem range_of_le {i t : Int} (hi : 0 ≤ i) (hle : i ≤ t) :
    0 ≤ 100 * (1 - (i : ℚ) / t) ∧ 100 * (1 - (i : ℚ) / t) ≤ 100 := by
  have hi' : (0 : ℚ) ≤ i := Int.cast_nonneg hi
  have hle' : (i : ℚ) ≤ t := Int.cast_le.mpr hle
  have hnonneg : 0 ≤ (i : ℚ) / t := div_nonneg hi' (hi'.trans hle')
  have hone : (i : ℚ) / t ≤ 1 := div_le_one_of_le₀ hle' (hi'.trans hle')
  constructor <;> linarith

/-- A number that passes the guard is exact if neither sum went back and their turns do not
change the ratio. -/
theorem exact_iff (hguard : shown (totalAdvance last values) ≠ 0 ∧
      shown (idleAdvance last values) ≤ shown (totalAdvance last values)) :
    Exact last values (rationals.utilization (idleDelta last values) (totalDelta last values)) ↔
      0 ≤ totalAdvance last values ∧ 0 ≤ idleAdvance last values ∧
        shown (idleAdvance last values) * turns (totalAdvance last values) =
          shown (totalAdvance last values) * turns (idleAdvance last values) := by
  obtain ⟨hne, hle⟩ := hguard
  rw [rationals_utilization, ← mul_eq_mul_iff]
  constructor
  · rintro ⟨htotal, hidle, hshare, -⟩
    have hpos : 0 < totalAdvance last values := by
      rw [totalAdvance]
      omega
    refine ⟨hpos.le, ?_, (ratio_eq_iff hne hpos.ne').mp ?_⟩
    · rw [idleAdvance]
      omega
    · linarith
  · rintro ⟨htotal, hidle, hratio⟩
    have hpos := pos_of_shown htotal hne
    have hquotient := (ratio_eq_iff hne hpos.ne').mpr hratio
    refine ⟨?_, ?_, by rw [hquotient], range_of_le (shown_nonneg _) hle⟩
    · rw [totalAdvance] at hpos
      omega
    · rw [idleAdvance] at hidle
      omega

end Honesty

section Runs

variable {V : Type}

/-- The collector of an agent that has just started. -/
def newLinuxHostCollector : CpuState := ⟨0, 0, false⟩

def Arithmetic.stateAfter (A : Arithmetic V) (stats : List (Option String)) : CpuState :=
  stats.foldl (fun state stat => (A.collectCPU state stat).2) newLinuxHostCollector

/-- What the next call emits after calls with some contents of the file. -/
def Arithmetic.outcome (A : Arithmetic V) (before : List (Option String)) (stat : Option String) :
    CpuOutcome V := (A.collectCPU (A.stateAfter before) stat).1

def reading (stat : Option String) : Option (List UInt64) := stat.bind cpuCounters

/-- The readings of successful calls. -/
def readings (stats : List (Option String)) : List (List UInt64) := stats.filterMap reading

/-- Every call of a run is honest about what happened since the last successful one. -/
def HonestRun (stats : List (Option String)) : Prop :=
  ∀ before stat, before ++ [stat] <+: stats →
    HonestCall (readings before).getLast? (reading stat) (rationals.outcome before stat)

theorem stateAfter_concat (A : Arithmetic V) (before : List (Option String)) (stat : Option String) :
    A.stateAfter (before ++ [stat]) = (A.collectCPU (A.stateAfter before) stat).2 := by
  rw [Arithmetic.stateAfter, List.foldl_append]
  rfl

theorem readings_concat (before : List (Option String)) (stat : Option String) :
    readings (before ++ [stat]) = readings before ++ (reading stat).toList := by
  rw [readings, List.filterMap_append, ← readings]
  cases h : reading stat <;> simp [h]

/-- The collector keeps the sums of the last reading. -/
theorem stateAfter_eq (A : Arithmetic V) (before : List (Option String)) :
    A.stateAfter before =
      match (readings before).getLast? with
      | none => newLinuxHostCollector
      | some last => stateOf last := by
  induction before using List.reverseRecOn with
  | nil => rfl
  | append_singleton before stat ih =>
      rw [stateAfter_concat, readings_concat, Arithmetic.collectCPU]
      change (match reading stat with | none => _ | some values => _ : CpuOutcome V × CpuState).2 = _
      cases hreading : reading stat with
      | none =>
          rw [Option.toList_none, List.append_nil]
          exact ih
      | some values =>
          rw [Option.toList_some, List.getLast?_concat]
          dsimp only
          split
          · rfl
          · split
            · rfl
            · rfl

/-- What a call emits, from its reading and the last one. -/
theorem outcome_eq (A : Arithmetic V) (before : List (Option String)) (stat : Option String) :
    A.outcome before stat =
      match reading stat, (readings before).getLast? with
      | none, _ => .failed
      | some _, none =>
          .unavailable "aggregate host CPU utilization requires two observations"
      | some values, some last =>
          if totalDelta last values == 0 || totalDelta last values < idleDelta last values then
            .unavailable "aggregate host CPU utilization delta unavailable"
          else .utilization (A.utilization (idleDelta last values) (totalDelta last values)) := by
  rw [Arithmetic.outcome, Arithmetic.collectCPU, stateAfter_eq]
  change (match reading stat with | none => _ | some values => _ : CpuOutcome V × CpuState).1 = _
  cases reading stat with
  | none => rfl
  | some values =>
      cases (readings before).getLast? with
      | none => rfl
      | some last =>
          exact apply_ite Prod.fst
            ((totalDelta last values == 0 ||
              decide (totalDelta last values < idleDelta last values)) = true) _ _

/-- A call is honest exactly if its reading is steady since the last one. -/
theorem honestCall_iff (before : List (Option String)) (stat : Option String) :
    HonestCall (readings before).getLast? (reading stat) (rationals.outcome before stat) ↔
      ∀ last ∈ (readings before).getLast?, ∀ values ∈ reading stat, Steady last values := by
  rw [outcome_eq]
  cases reading stat with
  | none => simp [HonestCall]
  | some values =>
      cases (readings before).getLast? with
      | none => simp [HonestCall]
      | some last =>
          simp only [HonestCall, Option.mem_some_iff, forall_eq']
          split
          · next hguard =>
              -- What the guard rejects has no number.
              have hrejected := mt guard_eq_false.mpr (ne_false_of_eq_true hguard)
              rw [not_and_or, not_not, not_le] at hrejected
              exact iff_of_true (Or.inl ⟨_, rfl⟩) (hrejected.imp_right Or.inl)
          · next hguard =>
              have hpassed := guard_eq_false.mp (eq_false_of_ne_true hguard)
              have hexact := exact_iff hpassed
              simp only [CpuOutcome.utilization.injEq, reduceCtorEq, exists_false, false_or,
                exists_eq_left', hexact, Steady, hpassed.1, hpassed.2.not_gt]

/-- The calls of a longer run are those of the run before and the last one. -/
theorem forall_calls_concat {P : List (Option String) → Option String → Prop}
    (stats : List (Option String)) (stat : Option String) :
    (∀ before s, before ++ [s] <+: stats ++ [stat] → P before s) ↔
      (∀ before s, before ++ [s] <+: stats → P before s) ∧ P stats stat := by
  constructor
  · intro h
    exact ⟨fun before s hs => h before s (hs.trans (List.prefix_append _ _)),
      h stats stat List.prefix_rfl⟩
  · rintro ⟨h, hlast⟩ before s hs
    obtain heq | hs := List.prefix_concat_iff.mp hs
    · obtain ⟨rfl, hsame⟩ := List.append_inj' heq rfl
      obtain rfl := List.singleton_inj.mp hsame
      exact hlast
    · exact h before s hs

/-- A run is honest exactly if its readings are steady, each since the one before it. -/
theorem cpu_honest_iff (stats : List (Option String)) :
    HonestRun stats ↔ (readings stats).IsChain Steady := by
  have hcalls : HonestRun stats ↔ ∀ before stat, before ++ [stat] <+: stats →
      ∀ last ∈ (readings before).getLast?, ∀ values ∈ reading stat, Steady last values :=
    forall₂_congr fun before stat => imp_congr_right fun _ => honestCall_iff before stat
  rw [hcalls]
  clear hcalls
  induction stats using List.reverseRecOn with
  | nil => simp [readings]
  | append_singleton stats stat ih =>
      rw [readings_concat, List.isChain_append]
      refine (forall_calls_concat stats stat).trans (and_congr ih ?_)
      cases hreading : reading stat with
      | none => simp
      | some values => simp

def busyStat : Option String := some "cpu  4 4 1 1 0 0 0 0\n"

/-- The same processors after some of the counters went back. -/
def resetStat : Option String := some "cpu  1 1 1 1 0 0 0 0\n"

/-- The total falls from 10 to 4 while nothing more is idle, and the host is reported as busy all
the time. -/
theorem backward_total_reported :
    rationals.outcome [busyStat] resetStat = .utilization 100 ∧
      ¬ HonestRun [busyStat, resetStat] := by
  have houtcome : rationals.outcome [busyStat] resetStat = .utilization 100 := by decide +kernel
  refine ⟨houtcome, fun h => ?_⟩
  have hcall := h [busyStat] resetStat List.prefix_rfl
  rw [houtcome] at hcall
  obtain ⟨_, hunavailable⟩ | ⟨_, -, hexact⟩ := hcall
  · cases hunavailable
  · exact absurd hexact.total (by decide)

end Runs

end NodeScope.Agent
