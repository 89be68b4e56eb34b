import NodeScope.Storage.Rollup

/-!
# High-water marks

`refresh_high_water_marks` takes the maximum of each series over the samples of five windows that
end at its execution and writes it over the stored mark of the series and the window. A series
without a sample in a window is not in the selection, so that its mark stays what an earlier
execution found. `highWater_current_iff` says that nothing else keeps a mark from being current.

## Implementation notes

The executions are in any order of their times, and samples arrive and are pruned between them. An
execution that the database aborts leaves no trace and is not an execution here.
-/

namespace NodeScope.Storage

open Domain Lib Lib.Aggregate Lib.Time

section Model

/-- The values that `window_seconds` may have. -/
inductive HighWaterWindow where
  | tenMinutes
  | thirtyMinutes
  | oneHour
  | twoHours
  | fourHours
deriving DecidableEq

namespace HighWaterWindow

def seconds : HighWaterWindow → Int
  | tenMinutes => 600
  | thirtyMinutes => 1800
  | oneHour => 3600
  | twoHours => 7200
  | fourHours => 14400

/-- The order of the loop. -/
def all : List HighWaterWindow := [tenMinutes, thirtyMinutes, oneHour, twoHours, fourHours]

theorem mem_all (w : HighWaterWindow) : w ∈ all := by
  cases w <;> decide

end HighWaterWindow

/-- The columns the samples are grouped by. -/
structure Series where
  hostId : Uuid
  deviceId : String
  metricName : String
deriving DecidableEq

def SampleRow.series (sample : SampleRow) : Series where
  hostId := sample.hostId
  deviceId := sample.deviceId
  metricName := sample.metricName

/-- The primary key of `metric_high_water`. -/
structure HighWaterKey extends Series where
  window : HighWaterWindow
deriving DecidableEq

structure HighWaterRow extends HighWaterKey where
  windowEndedAt : Int
  maximumValue : Option Float64
  source : String
  semantics : String
deriving DecidableEq

def highWaterKey (w : HighWaterWindow) (sample : SampleRow) : HighWaterKey where
  toSeries := sample.series
  window := w

def inWindow (now : Int) (w : HighWaterWindow) (sample : SampleRow) : Bool :=
  now - sqlSeconds w.seconds ≤ sample.observedAt && sample.observedAt ≤ now

/-- The samples that an execution reads for a window. -/
def qualifying (now : Int) (samples : List SampleRow) (w : HighWaterWindow) : List SampleRow :=
  samples.filter fun sample => usable sample && inWindow now w sample

def highWaterMark (now : Int) (k : HighWaterKey) (group : List SampleRow) : HighWaterRow :=
  let last := latest SampleRow.observedAt group
  { k with
    windowEndedAt := now
    maximumValue := maximum (group.filterMap SampleRow.numericValue)
    source := (last.map SampleRow.source).getD ""
    semantics := (last.map SampleRow.semantics).getD "" }

/-- The stored marks after an execution and the number of rows it has written. -/
def refreshHighWaterMarks (now : Int) (samples : List SampleRow) (marks : List HighWaterRow) :
    List HighWaterRow × Nat :=
  (refreshEach (highWaterMark now) HighWaterRow.toHighWaterKey highWaterKey HighWaterWindow.all
      (qualifying now samples) marks,
    (HighWaterWindow.all.map fun w =>
      (grouped (highWaterKey w) (highWaterMark now) (qualifying now samples w)).length).sum)

structure HighWaterState where
  metricSamples : List SampleRow
  marks : List HighWaterRow
  status : MaintenanceStatus
deriving DecidableEq

def HighWaterState.initial : HighWaterState := ⟨[], [], ⟨none, none, 0⟩⟩

inductive HighWaterEvent where
  | arrive (sample : SampleRow)
  | prune (now : Int)
  | execute (now : Int)

/-- A sample is accepted, the expired samples are deleted, or the function is executed. -/
def highWaterStep (s : HighWaterState) : HighWaterEvent → Option HighWaterState
  | .arrive sample => some { s with metricSamples := s.metricSamples ++ [sample] }
  | .prune now =>
      some { s with metricSamples := s.metricSamples.filter fun sample => now < sample.expiresAt }
  | .execute now =>
      let result := refreshHighWaterMarks now s.metricSamples s.marks
      some { s with marks := result.1, status := ⟨some now, some now, result.2⟩ }

end Model

section Statements

/-- One value is below another; a null is not compared. -/
def below (x y : Option Float64) : Bool := x.any fun a => y.any fun b => lt a b

/-- The qualifying samples of a series in a window. -/
def seriesSamples (now : Int) (samples : List SampleRow) (k : HighWaterKey) : List SampleRow :=
  (qualifying now samples k.window).filter fun sample => sample.series = k.toSeries

/-- The row has the value of a qualifying sample of its series and none of the others is above
it. -/
def HighWaterRow.Current (now : Int) (samples : List SampleRow) (row : HighWaterRow) : Prop :=
  (∃ sample ∈ seriesSamples now samples row.toHighWaterKey,
      sample.numericValue = row.maximumValue) ∧
    ∀ sample ∈ seriesSamples now samples row.toHighWaterKey,
      below row.maximumValue sample.numericValue = false

instance (now : Int) (samples : List SampleRow) (row : HighWaterRow) :
    Decidable (row.Current now samples) :=
  inferInstanceAs (Decidable (_ ∧ _))

/-- After an execution every mark is current, and among the marks of a series none is below that
of a shorter window. -/
def CurrentAfter (s : HighWaterState) : HighWaterEvent → Prop
  | .arrive _ | .prune _ => True
  | .execute now =>
      ∀ s' ∈ highWaterStep s (.execute now),
        (∀ row ∈ s'.marks, row.Current now s'.metricSamples) ∧
          ∀ shorter ∈ s'.marks, ∀ longer ∈ s'.marks, shorter.toSeries = longer.toSeries →
            shorter.window.seconds ≤ longer.window.seconds →
              below longer.maximumValue shorter.maximumValue = false

instance (s : HighWaterState) : ∀ e, Decidable (CurrentAfter s e)
  | .arrive _ | .prune _ => .isTrue trivial
  | .execute now =>
      inferInstanceAs (Decidable (∀ s' ∈ highWaterStep s (.execute now), _ ∧ _))

/-- No series with a stored mark is silent in the window of the mark. -/
def NoneSilent (s : HighWaterState) : HighWaterEvent → Prop
  | .arrive _ | .prune _ => True
  | .execute now =>
      ∀ row ∈ s.marks, ∃ sample ∈ s.metricSamples,
        sample.series = row.toSeries ∧ usable sample ∧ inWindow now row.window sample

instance (s : HighWaterState) : ∀ e, Decidable (NoneSilent s e)
  | .arrive _ | .prune _ => .isTrue trivial
  | .execute _ => inferInstanceAs (Decidable (∀ row ∈ s.marks, _))

end Statements

section Marks

theorem toHighWaterKey_highWaterMark (now : Int) (k : HighWaterKey) (group : List SampleRow) :
    (highWaterMark now k group).toHighWaterKey = k := rfl

theorem window_highWaterKey (w : HighWaterWindow) (sample : SampleRow) :
    (highWaterKey w sample).window = w := rfl

/-- The group of a mark. -/
theorem members_qualifying (now : Int) (samples : List SampleRow) (k : HighWaterKey) :
    members (highWaterKey k.window) k (qualifying now samples k.window) =
      seriesSamples now samples k := by
  apply List.filter_congr
  intro sample _
  cases k
  simp [highWaterKey]

theorem mem_seriesSamples {now : Int} {samples : List SampleRow} {k : HighWaterKey}
    {sample : SampleRow} :
    sample ∈ seriesSamples now samples k ↔ sample ∈ samples ∧ sample.series = k.toSeries ∧
      usable sample = true ∧ inWindow now k.window sample = true := by
  simp only [seriesSamples, qualifying, List.mem_filter, decide_eq_true_eq, Bool.and_eq_true]
  tauto

/-- A longer window has the samples of a shorter one. -/
theorem seriesSamples_of_shorter {now : Int} {samples : List SampleRow}
    {shorter longer : HighWaterKey}
    (hseries : shorter.toSeries = longer.toSeries)
    (hseconds : shorter.window.seconds ≤ longer.window.seconds) {sample : SampleRow}
    (h : sample ∈ seriesSamples now samples shorter) :
    sample ∈ seriesSamples now samples longer := by
  obtain ⟨hmem, hsame, husable, hwindow⟩ := mem_seriesSamples.mp h
  refine mem_seriesSamples.mpr ⟨hmem, hsame.trans hseries, husable, ?_⟩
  simp only [inWindow, Bool.and_eq_true, decide_eq_true_eq] at hwindow ⊢
  simp only [sqlSeconds] at hwindow ⊢
  omega

theorem numericValue_of_usable {sample : SampleRow} (h : usable sample = true) :
    ∃ v, sample.numericValue = some v := by
  rw [usable, Bool.and_eq_true] at h
  exact Option.isSome_iff_exists.mp h.1

/-- The mark of a group that is not empty is current. -/
theorem highWaterMark_current {now : Int} {samples : List SampleRow} {k : HighWaterKey}
    (hne : seriesSamples now samples k ≠ []) :
    (highWaterMark now k (seriesSamples now samples k)).Current now samples := by
  obtain ⟨first, hfirst⟩ := List.exists_mem_of_ne_nil _ hne
  obtain ⟨v, hv⟩ := numericValue_of_usable (mem_seriesSamples.mp hfirst).2.2.1
  have hvalues : (seriesSamples now samples k).filterMap SampleRow.numericValue ≠ [] :=
    List.ne_nil_of_mem (List.mem_filterMap.mpr ⟨first, hfirst, hv⟩)
  obtain ⟨x, hx⟩ := Option.ne_none_iff_exists'.mp (mt maximum_eq_none.mp hvalues)
  obtain ⟨hmem, hbound⟩ := maximum_spec hx
  have hmark : (highWaterMark now k (seriesSamples now samples k)).maximumValue = some x := hx
  rw [HighWaterRow.Current, hmark]
  constructor
  · exact List.mem_filterMap.mp hmem
  · intro sample hsample
    cases hother : sample.numericValue with
    | none => rfl
    | some y => exact hbound y (List.mem_filterMap.mpr ⟨sample, hsample, hother⟩)

/-- What an execution leaves under a key. -/
theorem find_refreshHighWaterMarks (now : Int) (samples : List SampleRow)
    (marks : List HighWaterRow) (k : HighWaterKey) :
    Table.find HighWaterRow.toHighWaterKey k (refreshHighWaterMarks now samples marks).1 =
      if seriesSamples now samples k = [] then Table.find HighWaterRow.toHighWaterKey k marks
      else some (highWaterMark now k (seriesSamples now samples k)) := by
  rw [refreshHighWaterMarks, find_refreshEach (toHighWaterKey_highWaterMark now) highWaterKey
    window_highWaterKey, members_qualifying]
  by_cases hnil : seriesSamples now samples k = []
  · rw [if_pos hnil, if_neg (fun h => h.2 hnil)]
  · rw [if_neg hnil, if_pos ⟨HighWaterWindow.mem_all _, hnil⟩]

end Marks

section Currency

variable {s s' : HighWaterState} {now : Int}

/-- The marks have one row for each key. -/
def HighWaterState.Keyed (s : HighWaterState) : Prop :=
  (s.marks.map HighWaterRow.toHighWaterKey).Nodup

theorem keyed_step (s : HighWaterState) (e : HighWaterEvent) (s' : HighWaterState)
    (hstep : highWaterStep s e = some s') (h : s.Keyed) : s'.Keyed := by
  cases e with
  | arrive sample =>
      obtain rfl := Option.some.inj hstep
      exact h
  | prune now =>
      obtain rfl := Option.some.inj hstep
      exact h
  | execute now =>
      obtain rfl := Option.some.inj hstep
      exact nodup_refreshEach highWaterKey _ _ h

/-- A mark whose series is not silent was written by the execution. -/
theorem current_of_noneSilent (hkeyed : s.Keyed)
    (hstep : highWaterStep s (.execute now) = some s') (hsilent : NoneSilent s (.execute now))
    {row : HighWaterRow} (hrow : row ∈ s'.marks) : row.Current now s'.metricSamples := by
  have hfind := (Table.find_eq_some_iff (keyed_step s _ s' hstep hkeyed)).mpr ⟨hrow, rfl⟩
  obtain rfl := Option.some.inj hstep
  rw [find_refreshHighWaterMarks] at hfind
  split at hfind
  · next hnil =>
      obtain ⟨hstored, -⟩ := Table.mem_of_find hfind
      obtain ⟨sample, hsample⟩ := hsilent row hstored
      exact absurd (mem_seriesSamples.mpr hsample) (hnil ▸ List.not_mem_nil)
  · next hne =>
      have hcurrent := highWaterMark_current hne
      rwa [Option.some.inj hfind] at hcurrent

/-- A mark that an execution does not write is stored after it. -/
theorem mem_of_silent (hkeyed : s.Keyed) (hstep : highWaterStep s (.execute now) = some s')
    {row : HighWaterRow} (hrow : row ∈ s.marks)
    (hnil : seriesSamples now s.metricSamples row.toHighWaterKey = []) : row ∈ s'.marks := by
  have hfind := find_refreshHighWaterMarks now s.metricSamples s.marks row.toHighWaterKey
  rw [if_pos hnil, (Table.find_eq_some_iff hkeyed).mpr ⟨hrow, rfl⟩] at hfind
  obtain rfl := Option.some.inj hstep
  exact (Table.mem_of_find hfind).1

/-- The mark of a longer window is not below that of a shorter one. -/
theorem not_below_of_shorter {samples : List SampleRow} {shorter longer : HighWaterRow}
    (hshorter : shorter.Current now samples) (hlonger : longer.Current now samples)
    (hseries : shorter.toSeries = longer.toSeries)
    (hseconds : shorter.window.seconds ≤ longer.window.seconds) :
    below longer.maximumValue shorter.maximumValue = false := by
  obtain ⟨⟨sample, hsample, hvalue⟩, -⟩ := hshorter
  rw [← hvalue]
  exact hlonger.2 sample (seriesSamples_of_shorter hseries hseconds hsample)

/-- An execution leaves current marks exactly if no series with a mark is silent. -/
theorem noneSilent_iff_currentAfter (s : HighWaterState) (e : HighWaterEvent)
    (s' : HighWaterState) (hstep : highWaterStep s e = some s') (hkeyed : s.Keyed) :
    CurrentAfter s e ↔ NoneSilent s e := by
  cases e with
  | arrive sample => exact Iff.rfl
  | prune now => exact Iff.rfl
  | execute now =>
      constructor
      · intro hcurrent row hrow
        by_cases hnil : seriesSamples now s.metricSamples row.toHighWaterKey = []
        · obtain ⟨⟨sample, hsample, -⟩, -⟩ :=
            (hcurrent s' hstep).1 row (mem_of_silent hkeyed hstep hrow hnil)
          obtain rfl := Option.some.inj hstep
          exact absurd hsample (hnil ▸ List.not_mem_nil)
        · obtain ⟨sample, hsample⟩ := List.exists_mem_of_ne_nil _ hnil
          exact ⟨sample, mem_seriesSamples.mp hsample⟩
      · intro hsilent s'' hs''
        have hcurrent : ∀ row ∈ s''.marks, row.Current now s''.metricSamples :=
          fun row hrow => current_of_noneSilent hkeyed hs'' hsilent hrow
        refine ⟨hcurrent, ?_⟩
        intro shorter hshorter longer hlonger hseries hseconds
        exact not_below_of_shorter (hcurrent shorter hshorter) (hcurrent longer hlonger) hseries
          hseconds

end Currency

theorem highWaterStep_isSome (s : HighWaterState) (e : HighWaterEvent) :
    (highWaterStep s e).isSome = true := by
  cases e <;> rfl

/-- In every run the marks are current after each execution exactly if at none of them a series
with a mark is silent in the window of the mark. -/
theorem highWater_current_iff (events : List HighWaterEvent) :
    Machine.Along highWaterStep CurrentAfter HighWaterState.initial events ↔
      Machine.Along highWaterStep NoneSilent HighWaterState.initial events := by
  obtain ⟨s, hrun⟩ := Option.isSome_iff_exists.mp
    (Machine.run_isSome highWaterStep_isSome HighWaterState.initial events)
  exact Machine.along_iff (fun s e s' hstep _ => keyed_step s e s' hstep)
    noneSilent_iff_currentAfter hrun List.nodup_nil

/-- One sample, an execution a minute later and one ten minutes after that, when the series has
been silent for longer than the shortest window. -/
theorem highWater_stale : ¬ Machine.Along highWaterStep CurrentAfter HighWaterState.initial
    [.arrive (sampleAt 0 "batch-one"), .execute (bucketOrigin + sqlSeconds 60),
      .execute (bucketOrigin + sqlSeconds 660)] := by
  decide +kernel

end NodeScope.Storage
