import Mathlib.Algebra.Ring.Rat
import NodeScope.Agent.Collectors

/-!
# When a process on a GPU is counted once

`processMemory` asks for the processes of the whole host, and `Collect` calls it for every GPU. The
samples are counted here for a report and a list of processes that stay the same during a collection.
-/

namespace NodeScope.Agent

open Lib Lib.Text Telemetry

/-- The answers of the two queries. -/
def answered (report listing : String) : NvidiaOutputs := ⟨true, some report, fun _ => some listing⟩

/-- The GPUs of a report. -/
def gpuLines (report : String) : List GpuLine := (splitAt '\n' (trimSpace report)).filterMap gpuLine

def gpuDevice (gpu : GpuLine) : String := "nvidia-gpu-" ++ gpu.index

/-- The sample of a row of the list for a GPU. -/
def contribution (observedAt : Int) (device : String) (row : String × Float64) : Sample :=
  numericSample (device ++ ":pid-" ++ row.1) perProcessMetric "bytes" (mebibytes row.2) "nvidia-smi"
    "nvidia-smi per-process GPU memory; UMA/FB semantics are vendor-reported" observedAt

/-- The samples that give an amount of memory of a process. -/
def processSamples (samples : List Sample) : List Sample :=
  samples.filter fun s => s.metric.name == perProcessMetric && s.metric.value.isSome

def sampleBytes (s : Sample) : ℚ := (s.metric.value.map Float64.toRat).getD 0

def processBytes (row : String × Float64) : ℚ := (mebibytes row.2).toRat

/-- The samples of the processes in the batch of a collection. -/
def collectedProcesses (report listing : String) (observedAt : Int) : List Sample :=
  processSamples (collectNvidia (answered report listing) observedAt)

/-- Every row with an amount of memory has one sample, for one device; so the amounts add up to
those of the list. Whatever GPUs the processes use, where each uses one of the report, a sample is for
a GPU that its process uses. -/
structure CountedOnce (report listing : String) (observedAt : Int) : Prop where
  once : ∃ devices : List String, devices.length = (reportedProcesses listing).length ∧
    (collectedProcesses report listing observedAt).Perm
      (List.zipWith (contribution observedAt) devices (reportedProcesses listing))
  sum : ((collectedProcesses report listing observedAt).map sampleBytes).sum =
    ((reportedProcesses listing).map processBytes).sum
  used : ∀ uses : String → String → Prop,
    (∀ row ∈ reportedProcesses listing, ∃ gpu ∈ gpuLines report, uses row.1 (gpuDevice gpu)) →
      ∀ s ∈ collectedProcesses report listing observedAt, ∃ row ∈ reportedProcesses listing,
        ∃ device, uses row.1 device ∧ s = contribution observedAt device row

section Samples

variable {observedAt : Int}

theorem processSamples_append (samples more : List Sample) :
    processSamples (samples ++ more) = processSamples samples ++ processSamples more :=
  List.filter_append ..

theorem processSamples_gpuSamples (gpu : GpuLine) (device : String) (observedAt : Int) :
    processSamples (gpuSamples gpu device observedAt) = [] := by
  have hreported (name unit raw : String) (convert : Float64 → Float64) (semantics missing : String)
      (hname : (name == perProcessMetric) = false) :
      processSamples [reportedSample device name unit raw convert semantics missing observedAt] =
        [] := by
    rw [reportedSample]
    cases parseReportedFloat raw with
    | none => simp [processSamples, unavailableSample, hname]
    | some value => simp [processSamples, numericSample, hname]
  have havailable : processSamples [numericSample device "gpu.availability" "state"
      (Float64.ofNat 1) "nvidia-smi" "NVIDIA GPU is reported by nvidia-smi" observedAt] = [] := by
    simp [processSamples, numericSample, perProcessMetric]
  rw [gpuSamples, ← List.singleton_append, processSamples_append, havailable, List.nil_append,
    ← List.singleton_append, processSamples_append, hreported _ _ _ _ _ _ (by decide),
    List.nil_append, ← List.singleton_append, processSamples_append,
    hreported _ _ _ _ _ _ (by decide), List.nil_append, ← List.singleton_append,
    processSamples_append, hreported _ _ _ _ _ _ (by decide), List.nil_append,
    hreported _ _ _ _ _ _ (by decide)]

theorem processSamples_processMemory (listing device : String) (observedAt : Int) :
    processSamples (processMemory (some listing) device observedAt) =
      (reportedProcesses listing).map (contribution observedAt device) := by
  rw [processMemory]
  dsimp only
  split
  · next hempty =>
      rw [List.isEmpty_iff.mp hempty]
      rfl
  · apply List.filter_eq_self.mpr
    intro s hs
    obtain ⟨row, -, rfl⟩ := List.mem_map.mp hs
    rfl

/-- The list is counted for every line of the report. -/
theorem processSamples_collectGpus (listing : String) (observedAt : Int) (call : Nat)
    (lines : List String) :
    processSamples (collectGpus (fun _ => some listing) observedAt call lines) =
      (lines.filterMap gpuLine).flatMap fun gpu =>
        (reportedProcesses listing).map (contribution observedAt (gpuDevice gpu)) := by
  induction lines generalizing call with
  | nil => rfl
  | cons line rest ih =>
      rw [collectGpus, List.filterMap_cons]
      cases gpuLine line with
      | none => exact ih call
      | some gpu =>
          simp only [processSamples_append, processSamples_gpuSamples, List.nil_append,
            processSamples_processMemory, ih, List.flatMap_cons, gpuDevice]

theorem processSamples_collectNvidia (report : String) (apps : Nat → Option String)
    (observedAt : Int) :
    processSamples (collectNvidia ⟨true, some report, apps⟩ observedAt) =
      processSamples (collectGpus apps observedAt 0 (splitAt '\n' (trimSpace report))) := by
  by_cases hempty : (collectGpus apps observedAt 0 (splitAt '\n' (trimSpace report))).isEmpty = true
  · simp only [collectNvidia, Bool.not_true, Bool.false_eq_true, if_false, if_pos hempty]
    rw [List.isEmpty_iff.mp hempty]
    rfl
  · simp only [collectNvidia, Bool.not_true, Bool.false_eq_true, if_false, if_neg hempty]

theorem collectedProcesses_eq (report listing : String) (observedAt : Int) :
    collectedProcesses report listing observedAt =
      (gpuLines report).flatMap fun gpu =>
        (reportedProcesses listing).map (contribution observedAt (gpuDevice gpu)) := by
  rw [collectedProcesses, answered, processSamples_collectNvidia, processSamples_collectGpus]
  rfl

theorem length_collectedProcesses (report listing : String) (observedAt : Int) :
    (collectedProcesses report listing observedAt).length =
      (gpuLines report).length * (reportedProcesses listing).length := by
  rw [collectedProcesses_eq, List.length_flatMap]
  simp

end Samples

section Counting

variable {report listing : String} {observedAt : Int}

/-- The amounts of a sample for each row add up to those of the rows. -/
theorem sum_zipWith_contribution (devices : List String) (rows : List (String × Float64))
    (h : devices.length = rows.length) :
    ((List.zipWith (contribution observedAt) devices rows).map sampleBytes).sum =
      (rows.map processBytes).sum := by
  induction rows generalizing devices with
  | nil => simp
  | cons row rest ih =>
      cases devices with
      | nil => cases h
      | cons device more =>
          rw [List.zipWith_cons_cons, List.map_cons, List.sum_cons, List.map_cons, List.sum_cons,
            ih more (Nat.succ.inj h)]
          rfl

theorem countedOnce_of_single {gpu : GpuLine} (hgpu : gpuLines report = [gpu]) :
    CountedOnce report listing observedAt := by
  have hsamples : collectedProcesses report listing observedAt =
      (reportedProcesses listing).map (contribution observedAt (gpuDevice gpu)) := by
    rw [collectedProcesses_eq, hgpu, List.flatMap_singleton]
  have hzip : List.zipWith (contribution observedAt)
      (List.replicate (reportedProcesses listing).length (gpuDevice gpu))
      (reportedProcesses listing) = collectedProcesses report listing observedAt := by
    rw [hsamples]
    apply List.ext_getElem
    · simp
    · intro i _ _
      simp
  refine ⟨⟨List.replicate _ (gpuDevice gpu), List.length_replicate, ?_⟩, ?_, ?_⟩
  · rw [hzip]
  · rw [← hzip]
    exact sum_zipWith_contribution _ _ List.length_replicate
  · intro uses huses s hs
    rw [hsamples] at hs
    obtain ⟨row, hrow, rfl⟩ := List.mem_map.mp hs
    obtain ⟨used, hused, hdevice⟩ := huses row hrow
    rw [hgpu] at hused
    rw [List.mem_singleton.mp hused] at hdevice
    exact ⟨row, hrow, gpuDevice gpu, hdevice, rfl⟩

/-- Every process is counted once exactly if none is listed or the report has one GPU. -/
theorem counted_once_iff (report listing : String) (observedAt : Int) :
    CountedOnce report listing observedAt ↔
      reportedProcesses listing = [] ∨ (gpuLines report).length = 1 := by
  constructor
  · intro h
    obtain ⟨devices, hlength, hperm⟩ := h.once
    have hcount := hperm.length_eq
    rw [length_collectedProcesses, List.length_zipWith, hlength, Nat.min_self] at hcount
    cases hrows : reportedProcesses listing with
    | nil => exact Or.inl rfl
    | cons row rest =>
        have hpositive : 0 < (reportedProcesses listing).length := by simp [hrows]
        apply Or.inr
        exact Nat.eq_of_mul_eq_mul_right hpositive (hcount.trans (Nat.one_mul _).symm)
  · rintro (hnone | hone)
    · have hempty : collectedProcesses report listing observedAt = [] := by
        simp [collectedProcesses_eq, hnone]
      exact ⟨⟨[], by simp [hnone], by simp [hempty]⟩, by simp [hempty, hnone], by simp [hempty]⟩
    · obtain ⟨gpu, hgpu⟩ := List.length_eq_one_iff.mp hone
      exact countedOnce_of_single hgpu

/-- Two GPUs and a process: its 512 MiB are counted for each. -/
theorem twoGpus_countedTwice :
    ¬ CountedOnce "0, A, 1, 2, 3, 4\n1, B, 1, 2, 3, 4" "100, 512" 0 := by
  intro h
  obtain ⟨devices, hlength, hperm⟩ := h.once
  have hcount := hperm.length_eq
  have hgpus : (gpuLines "0, A, 1, 2, 3, 4\n1, B, 1, 2, 3, 4").length = 2 := by decide +kernel
  have hrows : (reportedProcesses "100, 512").length = 1 := by decide +kernel
  rw [length_collectedProcesses, List.length_zipWith, hlength, hgpus, hrows] at hcount
  omega

end Counting

end NodeScope.Agent
