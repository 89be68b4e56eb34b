import NodeScope.Console.FleetAgreement
import NodeScope.Lib.FloatParse

/-!
# The fleet through a chain of relays

Without a database of its own a console runs `nodescope-cli --format json` on another machine, which
may again read the fleet from a third one. Every relay prints what it has read. The first one may
move a receipt by the seconds that its zone prints no text for. From there on nothing changes, however
many relays there are.

## Implementation notes

A time has a zone, of which only the offset at that time is ever used. Lists stand for slices, so
that no rows are printed as an empty array. The text of a number that is not whole is a parameter,
as it is for the control API. A remote command that fails has no output here. An output over the limit
is an error here; `Wait` may also never return from one that fills the pipe as well.
-/

namespace NodeScope.Console

open Lib Lib.Json Lib.Text Lib.Time Lib.Float64 Telemetry Control

section Times

/-- The offset of the zone at the end of a text that was read. -/
def zoneOf (s : List Char) : Int :=
  if s.getLast? = some 'Z' then 0
  else ((getZone (s.drop (s.length - 6))).map Prod.fst).getD 0

/-- An offset in whole minutes, as it is printed. -/
def printedOffset (offset : Int) : Int := offset - offset.tmod 60

variable {offset t : Int}

theorem tdiv_printedOffset (offset : Int) : (printedOffset offset).tdiv 60 = offset.tdiv 60 := by
  have hminutes := Int.mul_tdiv_add_tmod offset 60
  have heq : printedOffset offset = 60 * offset.tdiv 60 := by
    rw [printedOffset]
    omega
  rw [heq, Int.mul_tdiv_cancel_left _ (by decide)]

theorem tmod_printedOffset (offset : Int) : (printedOffset offset).tmod 60 = 0 := by
  have hminutes := Int.mul_tdiv_add_tmod (printedOffset offset) 60
  have hwhole := Int.mul_tdiv_add_tmod offset 60
  rw [tdiv_printedOffset] at hminutes
  rw [printedOffset] at hminutes ⊢
  omega

/-- The clock of the zone shows the same, whether it is read at the instant that was printed or at
the one that was read. -/
theorem local_printed (offset t : Int) :
    t + seconds (offset.tmod 60) + seconds (printedOffset offset) = t + seconds offset := by
  simp only [printedOffset, seconds, nanosPerSecond]
  omega

theorem zoneEncodable_printed :
    zoneEncodable (printedOffset offset) (t + seconds (offset.tmod 60)) = zoneEncodable offset t := by
  rw [zoneEncodable, zoneEncodable, local_printed, tdiv_printedOffset]

theorem zoneText_printed (h : printedOffset offset ≠ 0) :
    zoneText (printedOffset offset) = zoneText offset := by
  have hne : offset ≠ 0 := by
    rintro rfl
    exact h rfl
  simp only [zoneText, tdiv_printedOffset, if_neg h, if_neg hne]

/-- The text of a time, its zone apart. -/
def zoneless (u : Int) : List Char :=
  hourText u ++ ':' :: ((padded 2 (clock u / 60 % 60)).toList ++
    ':' :: ((padded 2 (clock u % 60)).toList ++ (fraction (u % nanosPerSecond).toNat).toList))

theorem formatZone_eq (offset t : Int) :
    (formatZone offset t).toList = zoneless (t + seconds offset) ++ zoneText offset := by
  rw [toList_formatZone, zoneless]
  simp

/-- The second printing of a time is not longer than the first. -/
theorem length_formatZone_le (offset t : Int) :
    (writeString (formatZone (printedOffset offset) (t + seconds (offset.tmod 60)))).length ≤
      (writeString (formatZone offset t)).length := by
  have hzone : ((zoneText (printedOffset offset)).flatMap writeChar).length ≤
      ((zoneText offset).flatMap writeChar).length := by
    by_cases hzero : printedOffset offset = 0
    · obtain ⟨c, rest, hcons, -, -⟩ := zoneText_eq_cons offset
      calc ((zoneText (printedOffset offset)).flatMap writeChar).length
          = 1 := by rw [hzero]; rfl
        _ ≤ (zoneText offset).length := by rw [hcons]; simp
        _ ≤ ((zoneText offset).flatMap writeChar).length := length_le_written _
    · rw [zoneText_printed hzero]
  simp only [writeString, formatZone_eq, local_printed, List.flatMap_append, List.length_cons,
    List.length_append]
  omega

theorem zoneOf_formatZone (h : zoneEncodable offset t = true) :
    zoneOf (formatZone offset t).toList = printedOffset offset := by
  simp only [zoneEncodable, Bool.and_eq_true, decide_eq_true_eq] at h
  have hread := getZone_zoneText h.2
  have hminutes := Int.mul_tdiv_add_tmod offset 60
  rw [formatZone_eq, zoneOf, List.getLast?_append]
  by_cases hzero : offset = 0
  · subst hzero
    rfl
  · obtain ⟨c, d, hcd⟩ := List.length_eq_two.mp
      (length_padded (by decide) (by omega : (offset.tdiv 60).natAbs % 60 < 10 ^ 2))
    have hlength : (zoneText offset).length = 6 := by
      simp only [zoneText, if_neg hzero, List.length_cons, List.length_append, hcd,
        length_padded (by decide : 0 < 2)
          (by omega : (offset.tdiv 60).natAbs / 60 < 10 ^ 2), List.length_nil]
    have hlast : (zoneText offset).getLast? = some d := by
      simp only [zoneText, if_neg hzero, hcd]
      simp [List.getLast?_cons, List.getLast?_append]
    have hmem : d ∈ (padded 2 ((offset.tdiv 60).natAbs % 60)).toList := by
      rw [hcd]
      simp
    have hdigit : d.isDigit = true := isDigit_of_mem_padded hmem
    rw [hlast, Option.some_or, if_neg, List.length_append, hlength, Nat.add_sub_cancel,
      List.drop_left, hread, Option.map_some, Option.getD_some, printedOffset]
    · omega
    · rintro heq
      rw [Option.some.inj heq] at hdigit
      exact absurd hdigit (by decide)

end Times

section Definitions

/-- A row in memory: its receipt has a zone. -/
structure LocatedStatus where
  status : HostStatus
  /-- The offset of the zone at the receipt, zero where there is none. -/
  offset : Int
deriving DecidableEq

namespace LocatedStatus

def zero : LocatedStatus := ⟨⟨"", "", "", 0, "", none, 0, 0, 0, none, none⟩, 0⟩

/-- A row as the database gives it, in the zone of the machine. -/
def ofDatabase (zone : Int → Int) (status : HostStatus) : LocatedStatus :=
  ⟨status, (status.latestReceipt.map zone).getD 0⟩

variable (number : Float64 → Option Bytes)

/-- A pointer, which is printed as `null` where it is nil. -/
def nullable {A : Type} (write : A → Option Bytes) : Option A → Option Bytes
  | none => some (utf8 "null")
  | some a => write a

/-- The fields of a row in the order of its type, those of pointers being printed already. -/
def fields (status : HostStatus) (receipt offset quality : Bytes) : List (String × Bytes) :=
  [("host_slug", writeString status.hostSlug),
    ("display_name", writeString status.displayName),
    ("platform", writeString status.platform),
    ("effective_interval_seconds", writeInt status.effectiveIntervalSeconds),
    ("freshness_state", writeString status.freshnessState),
    ("latest_receipt", receipt),
    ("current_metric_count", writeInt status.currentMetricCount),
    ("unavailable_metric_count", writeInt status.unavailableMetricCount),
    ("stale_metric_count", writeInt status.staleMetricCount),
    ("clock_offset_seconds", offset),
    ("clock_offset_quality", quality)]

def members (row : LocatedStatus) : Option (List (String × Bytes)) := do
  let zone : Encoding := ⟨fun _ => row.offset, number⟩
  let receipt ← nullable zone.time row.status.latestReceipt
  let offset ← nullable number row.status.clockOffsetSeconds
  let quality ← nullable (fun s => some (writeString s)) row.status.clockOffsetQuality
  pure (fields row.status receipt offset quality)

/-- What a member of an object does to a row. -/
def setMember (row : LocatedStatus) (member : String × Value) : Option LocatedStatus :=
  let status := row.status
  if nameMatches "host_slug" member.1 then
    (RemoteFleetHost.text status.hostSlug member.2).map fun hostSlug =>
      { row with status := { status with hostSlug } }
  else if nameMatches "display_name" member.1 then
    (RemoteFleetHost.text status.displayName member.2).map fun displayName =>
      { row with status := { status with displayName } }
  else if nameMatches "platform" member.1 then
    (RemoteFleetHost.text status.platform member.2).map fun platform =>
      { row with status := { status with platform } }
  else if nameMatches "effective_interval_seconds" member.1 then
    (RemoteFleetHost.count status.effectiveIntervalSeconds member.2).map
      fun effectiveIntervalSeconds => { row with status := { status with effectiveIntervalSeconds } }
  else if nameMatches "freshness_state" member.1 then
    (RemoteFleetHost.text status.freshnessState member.2).map fun freshnessState =>
      { row with status := { status with freshnessState } }
  else if nameMatches "latest_receipt" member.1 then
    (RemoteFleetHost.time member.2).map fun latestReceipt =>
      { status := { status with latestReceipt }
        offset := match member.2 with
          | .string s => zoneOf s.toList
          | _ => 0 }
  else if nameMatches "current_metric_count" member.1 then
    (RemoteFleetHost.count status.currentMetricCount member.2).map fun currentMetricCount =>
      { row with status := { status with currentMetricCount } }
  else if nameMatches "unavailable_metric_count" member.1 then
    (RemoteFleetHost.count status.unavailableMetricCount member.2).map
      fun unavailableMetricCount => { row with status := { status with unavailableMetricCount } }
  else if nameMatches "stale_metric_count" member.1 then
    (RemoteFleetHost.count status.staleMetricCount member.2).map fun staleMetricCount =>
      { row with status := { status with staleMetricCount } }
  else if nameMatches "clock_offset_seconds" member.1 then
    match member.2 with
    | .number literal => (parseFloat (String.ofList literal)).map fun x =>
        { row with status := { status with clockOffsetSeconds := some x } }
    | .null => some { row with status := { status with clockOffsetSeconds := none } }
    | _ => none
  else if nameMatches "clock_offset_quality" member.1 then
    match member.2 with
    | .string s => some { row with status := { status with clockOffsetQuality := some s } }
    | .null => some { row with status := { status with clockOffsetQuality := none } }
    | _ => none
  else some row

def decode : Value → Option LocatedStatus
  | .object members => members.foldlM setMember zero
  | .null => some zero
  | _ => none

end LocatedStatus

inductive RelayError where
  | execute
  | tooLarge
  | decode
deriving DecidableEq

def rowText (number : Float64 → Option Bytes) (row : LocatedStatus) : Option Bytes :=
  (row.members number).map writeObject

/-- `writeOutput` with the format `json`. -/
def writeOutput (number : Float64 → Option Bytes) (rows : List LocatedStatus) : Option Bytes :=
  (rows.mapM (rowText number)).map fun texts => writeArray texts ++ [0x0a]

def decodeRows : Value → Option (List LocatedStatus)
  | .array elements => elements.mapM LocatedStatus.decode
  | .null => some []
  | _ => none

/-- `loadSSH`, from what the remote command has printed. -/
def loadSSH : Option Bytes → Except RelayError (List LocatedStatus)
  | none => .error .execute
  | some output =>
      if maxResponseBytes < output.length then .error .tooLarge
      else match (parse output).bind decodeRows with
        | some rows => .ok rows
        | none => .error .decode

/-- The rows that a console has behind a number of relays. -/
def relayed (number : Float64 → Option Bytes) (rows : List LocatedStatus) :
    Nat → Except RelayError (List LocatedStatus)
  | 0 => .ok rows
  | n + 1 => loadSSH ((relayed number rows n).toOption.bind (writeOutput number))

/-- What the first relay makes of a row. -/
def LocatedStatus.throughRelay (row : LocatedStatus) : LocatedStatus where
  status := { row.status with
    latestReceipt := row.status.latestReceipt.map (· + seconds (row.offset.tmod 60)) }
  offset := (row.status.latestReceipt.map fun _ => printedOffset row.offset).getD 0

/-- The numbers of a row are in the range of their types. -/
structure HostStatus.Fits (status : HostStatus) : Prop where
  interval : -2 ^ 63 ≤ status.effectiveIntervalSeconds ∧ status.effectiveIntervalSeconds < 2 ^ 63
  current : -2 ^ 63 ≤ status.currentMetricCount ∧ status.currentMetricCount < 2 ^ 63
  unavailable : -2 ^ 63 ≤ status.unavailableMetricCount ∧ status.unavailableMetricCount < 2 ^ 63
  stale : -2 ^ 63 ≤ status.staleMetricCount ∧ status.staleMetricCount < 2 ^ 63

/-- What is printed of a number is a number in JSON that is read as it was. -/
def ReadsBack (number : Float64 → Option Bytes) : Prop :=
  ∀ x text, number x = some text → ∃ literal,
    (∀ depth, Reads depth text (.number literal)) ∧ parseFloat (String.ofList literal) = some x

end Definitions

section Rows

variable {number : Float64 → Option Bytes} {row : LocatedStatus}

theorem reads_null (depth : Nat) : Reads depth (utf8 "null") .null := by
  have hbytes : utf8 "null" = [0x6e, 0x75, 0x6c, 0x6c] := by decide +kernel
  intro fuel rest hfuel hrest
  rw [hbytes] at hfuel ⊢
  obtain ⟨fuel, rfl⟩ : ∃ k, fuel = k + 1 := Nat.exists_eq_succ_of_ne_zero (by
    rw [List.length_cons] at hfuel
    omega)
  simp [readValue, skipSpace, Json.isSpace, readLiteral]

/-- A receipt that is printed is read in whole minutes of its zone. -/
theorem receipt_reads {offset : Int} {receipt : Option Int} {text : Bytes}
    (h : LocatedStatus.nullable (Encoding.time ⟨fun _ => offset, number⟩) receipt = some text) :
    ∃ value, (∀ depth, Reads depth text value) ∧
      RemoteFleetHost.time value = some (receipt.map (· + seconds (offset.tmod 60))) ∧
      (match value with
        | .string s => zoneOf s.toList
        | _ => 0) = (receipt.map fun _ => printedOffset offset).getD 0 := by
  cases receipt with
  | none =>
      obtain rfl := Option.some.inj h
      exact ⟨.null, reads_null, rfl, rfl⟩
  | some t =>
      simp only [LocatedStatus.nullable, Encoding.time] at h
      split at h
      · next hencodable =>
          obtain rfl := Option.some.inj h
          refine ⟨.string (formatZone offset t), fun depth => reads_string _, ?_,
            zoneOf_formatZone hencodable⟩
          rw [RemoteFleetHost.time, parse_formatZone hencodable]
          rfl
      · cases h

/-- The names that a row is printed under. -/
def statusFields : List String :=
  ["host_slug", "display_name", "platform", "effective_interval_seconds", "freshness_state",
    "latest_receipt", "current_metric_count", "unavailable_metric_count", "stale_metric_count",
    "clock_offset_seconds", "clock_offset_quality"]

theorem nameMatches_status {field name : String} (hfield : field ∈ statusFields)
    (hname : name ∈ statusFields) : nameMatches field name = decide (field = name) := by
  have htable : ∀ field ∈ statusFields, ∀ name ∈ statusFields,
      nameMatches field name = decide (field = name) := by
    decide +kernel
  exact htable field hfield name hname

theorem count_read (old : Int) {n : Int} (h : -2 ^ 63 ≤ n ∧ n < 2 ^ 63) :
    RemoteFleetHost.count old (.number (intLiteral n)) = some n :=
  int64_intLiteral h.1 h.2

/-- A number that is printed is read as it was. -/
theorem offset_reads (hnumber : ReadsBack number) {offset : Option Float64} {text : Bytes}
    (h : LocatedStatus.nullable number offset = some text) :
    ∃ value, (∀ depth, Reads depth text value) ∧ ∀ row : LocatedStatus,
      row.setMember ("clock_offset_seconds", value) =
        some { row with status := { row.status with clockOffsetSeconds := offset } } := by
  cases offset with
  | none =>
      obtain rfl := Option.some.inj h
      refine ⟨.null, reads_null, fun row => ?_⟩
      simp (disch := decide) [LocatedStatus.setMember, nameMatches_status]
  | some x =>
      obtain ⟨literal, hreads, hparse⟩ := hnumber x text h
      refine ⟨.number literal, hreads, fun row => ?_⟩
      simp (disch := decide) [LocatedStatus.setMember, nameMatches_status, hparse]

theorem quality_reads {quality : Option String} {text : Bytes}
    (h : LocatedStatus.nullable (fun s => some (writeString s)) quality = some text) :
    ∃ value, (∀ depth, Reads depth text value) ∧ ∀ row : LocatedStatus,
      row.setMember ("clock_offset_quality", value) =
        some { row with status := { row.status with clockOffsetQuality := quality } } := by
  cases quality with
  | none =>
      obtain rfl := Option.some.inj h
      refine ⟨.null, reads_null, fun row => ?_⟩
      simp (disch := decide) [LocatedStatus.setMember, nameMatches_status]
  | some s =>
      obtain rfl := Option.some.inj h
      refine ⟨.string s, fun depth => reads_string s, fun row => ?_⟩
      simp (disch := decide) [LocatedStatus.setMember, nameMatches_status]

/-- A row that is printed is read as it comes through a relay. -/
theorem members_read (hnumber : ReadsBack number) (hfits : row.status.Fits)
    {texts : List (String × Bytes)} (h : row.members number = some texts) :
    ∃ values, (∀ depth, List.Forall₂ (ReadsMember depth) texts values) ∧
      LocatedStatus.decode (.object values) = some row.throughRelay := by
  simp only [LocatedStatus.members, Option.bind_eq_bind, Option.bind_eq_some_iff, Option.pure_def,
    Option.some.injEq] at h
  obtain ⟨receipt, hreceipt, offset, hoffset, quality, hquality, rfl⟩ := h
  obtain ⟨receiptValue, hreadsReceipt, htime, hzone⟩ := receipt_reads hreceipt
  obtain ⟨offsetValue, hreadsOffset, hsetOffset⟩ := offset_reads hnumber hoffset
  obtain ⟨qualityValue, hreadsQuality, hsetQuality⟩ := quality_reads hquality
  have hinterval := count_read 0 hfits.interval
  have hcurrent := count_read 0 hfits.current
  have hunavailable := count_read 0 hfits.unavailable
  have hstale := count_read 0 hfits.stale
  refine ⟨[("host_slug", .string row.status.hostSlug),
    ("display_name", .string row.status.displayName), ("platform", .string row.status.platform),
    ("effective_interval_seconds", .number (intLiteral row.status.effectiveIntervalSeconds)),
    ("freshness_state", .string row.status.freshnessState), ("latest_receipt", receiptValue),
    ("current_metric_count", .number (intLiteral row.status.currentMetricCount)),
    ("unavailable_metric_count", .number (intLiteral row.status.unavailableMetricCount)),
    ("stale_metric_count", .number (intLiteral row.status.staleMetricCount)),
    ("clock_offset_seconds", offsetValue), ("clock_offset_quality", qualityValue)], ?_, ?_⟩
  · intro depth
    simp only [LocatedStatus.fields, List.forall₂_cons, ReadsMember, true_and, reads_string, reads_int,
      hreadsReceipt depth, hreadsOffset depth, hreadsQuality depth]
    exact .nil
  · simp only [LocatedStatus.decode, List.foldlM_cons, List.foldlM_nil]
    simp only [hsetOffset, hsetQuality]
    simp (disch := decide) [LocatedStatus.setMember, nameMatches_status, RemoteFleetHost.text,
      LocatedStatus.zero, hinterval, hcurrent, hunavailable, hstale, htime, hzone,
      LocatedStatus.throughRelay]

theorem receipt_again {offset : Int} {receipt : Option Int} {text : Bytes}
    (h : LocatedStatus.nullable (Encoding.time ⟨fun _ => offset, number⟩) receipt = some text) :
    ∃ text', LocatedStatus.nullable
        (Encoding.time ⟨fun _ => (receipt.map fun _ => printedOffset offset).getD 0, number⟩)
        (receipt.map (· + seconds (offset.tmod 60))) = some text' ∧ text'.length ≤ text.length := by
  cases receipt with
  | none => exact ⟨text, h, le_rfl⟩
  | some t =>
      simp only [LocatedStatus.nullable, Encoding.time] at h
      split at h
      · next hencodable =>
          obtain rfl := Option.some.inj h
          refine ⟨_, ?_, length_formatZone_le offset t⟩
          simp [LocatedStatus.nullable, Encoding.time, zoneEncodable_printed, hencodable]
      · cases h

/-- What has come through a relay is printed in no more bytes. -/
theorem members_again {texts : List (String × Bytes)} (h : row.members number = some texts) :
    ∃ texts', row.throughRelay.members number = some texts' ∧
      (writeObject texts').length ≤ (writeObject texts).length := by
  simp only [LocatedStatus.members, Option.bind_eq_bind, Option.bind_eq_some_iff, Option.pure_def,
    Option.some.injEq] at h
  obtain ⟨receipt, hreceipt, offset, hoffset, quality, hquality, rfl⟩ := h
  obtain ⟨receipt', hreceipt', hlength⟩ := receipt_again hreceipt
  refine ⟨LocatedStatus.fields row.status receipt' offset quality, ?_, ?_⟩
  · simp only [LocatedStatus.members, LocatedStatus.throughRelay, Option.bind_eq_bind,
      Option.bind_eq_some_iff, Option.pure_def, Option.some.injEq]
    exact ⟨receipt', hreceipt', offset, hoffset, quality, hquality, rfl⟩
  · simp [LocatedStatus.fields, writeObject, writeMember, separated]
    omega

theorem throughRelay_idem (row : LocatedStatus) :
    row.throughRelay.throughRelay = row.throughRelay := by
  have hprinted (offset : Int) : printedOffset (printedOffset offset) = printedOffset offset := by
    rw [printedOffset, tmod_printedOffset, Int.sub_zero]
  have hzero : seconds 0 = 0 := rfl
  rw [LocatedStatus.throughRelay, LocatedStatus.throughRelay]
  cases row.status.latestReceipt with
  | none => rfl
  | some t => simp [tmod_printedOffset, hprinted, hzero]

theorem status_throughRelay (row : LocatedStatus) :
    row.throughRelay.status = row.status ↔
      (row.status.latestReceipt.isSome = true → row.offset.tmod 60 = 0) := by
  obtain ⟨⟨slug, name, platform, interval, freshness, receipt, current, unavailable, stale,
    clockOffset, quality⟩, offset⟩ := row
  cases receipt with
  | none => simp [LocatedStatus.throughRelay]
  | some t => simp [LocatedStatus.throughRelay, seconds, nanosPerSecond]

theorem HostStatus.Fits.throughRelay (h : row.status.Fits) : row.throughRelay.status.Fits :=
  ⟨h.interval, h.current, h.unavailable, h.stale⟩

end Rows

section Relays

variable {number : Float64 → Option Bytes} {rows : List LocatedStatus}

theorem rows_read (hnumber : ReadsBack number) (hfits : ∀ row ∈ rows, row.status.Fits)
    {texts : List Bytes} (h : rows.mapM (rowText number) = some texts) :
    ∃ values, List.Forall₂ (Reads 1) texts values ∧
      values.mapM LocatedStatus.decode = some (rows.map LocatedStatus.throughRelay) := by
  induction rows generalizing texts with
  | nil =>
      obtain rfl : [] = texts := by simpa using h
      exact ⟨[], .nil, rfl⟩
  | cons row rows ih =>
      obtain ⟨hrow, hrows⟩ := List.forall_mem_cons.mp hfits
      simp only [List.mapM_cons, Option.bind_eq_bind, Option.bind_eq_some_iff, Option.pure_def,
        Option.some.injEq, rowText, Option.map_eq_some_iff] at h
      obtain ⟨-, ⟨members, hmembers, rfl⟩, texts, htexts, rfl⟩ := h
      obtain ⟨values, hreads, hdecode⟩ := members_read hnumber hrow hmembers
      obtain ⟨others, hothers, hdecodes⟩ := ih hrows htexts
      refine ⟨.object values :: others, .cons (reads_object (by decide) (hreads 2)) hothers, ?_⟩
      simp [List.mapM_cons, hdecode, hdecodes]

theorem rows_again {texts : List Bytes} (h : rows.mapM (rowText number) = some texts) :
    ∃ texts', (rows.map LocatedStatus.throughRelay).mapM (rowText number) = some texts' ∧
      texts'.length = texts.length ∧
      (texts'.map List.length).sum ≤ (texts.map List.length).sum := by
  induction rows generalizing texts with
  | nil =>
      obtain rfl : [] = texts := by simpa using h
      exact ⟨[], rfl, rfl, le_rfl⟩
  | cons row rows ih =>
      simp only [List.mapM_cons, Option.bind_eq_bind, Option.bind_eq_some_iff, Option.pure_def,
        Option.some.injEq, rowText, Option.map_eq_some_iff] at h
      obtain ⟨-, ⟨members, hmembers, rfl⟩, texts, htexts, rfl⟩ := h
      obtain ⟨members', hmembers', hle⟩ := members_again hmembers
      obtain ⟨texts', htexts', hlength, hsum⟩ := ih htexts
      refine ⟨writeObject members' :: texts', ?_, by simp [hlength], ?_⟩
      · simp [List.mapM_cons, rowText, hmembers', htexts']
      · simp only [List.map_cons, List.sum_cons]
        omega

theorem loadSSH_output (hnumber : ReadsBack number) (hfits : ∀ row ∈ rows, row.status.Fits)
    {output : Bytes} (h : writeOutput number rows = some output) :
    loadSSH (some output) = if maxResponseBytes < output.length then .error .tooLarge
      else .ok (rows.map LocatedStatus.throughRelay) := by
  obtain ⟨texts, htexts, rfl⟩ := Option.map_eq_some_iff.mp h
  obtain ⟨values, hreads, hdecode⟩ := rows_read hnumber hfits htexts
  have hparse : parse (writeArray texts ++ [0x0a]) = some (.array values) :=
    parse_of_reads (reads_array (by decide) hreads) (by simp [Json.isSpace])
  rw [loadSSH, hparse]
  simp [decodeRows, hdecode]

theorem output_again {output : Bytes} (h : writeOutput number rows = some output) :
    ∃ output', writeOutput number (rows.map LocatedStatus.throughRelay) = some output' ∧
      output'.length ≤ output.length := by
  obtain ⟨texts, htexts, rfl⟩ := Option.map_eq_some_iff.mp h
  obtain ⟨texts', htexts', hlength, hsum⟩ := rows_again htexts
  refine ⟨writeArray texts' ++ [0x0a], Option.map_eq_some_iff.mpr ⟨texts', htexts', rfl⟩, ?_⟩
  simp only [writeArray, List.length_append, List.length_cons, List.length_nil, length_separated]
  omega

/-- What a console gets behind one relay it gets behind any number of them. -/
theorem relayed_eq (hnumber : ReadsBack number) (hfits : ∀ row ∈ rows, row.status.Fits)
    {output : Bytes} (h : writeOutput number rows = some output)
    (hsize : output.length ≤ maxResponseBytes) (n : Nat) :
    relayed number rows (n + 1) = .ok (rows.map LocatedStatus.throughRelay) := by
  induction n with
  | zero =>
      rw [relayed, relayed, Except.toOption, Option.bind_some, h, loadSSH_output hnumber hfits h,
        if_neg (by omega)]
  | succ n ih =>
      obtain ⟨output', houtput, hlength⟩ := output_again h
      have hrelayed : ∀ row ∈ rows.map LocatedStatus.throughRelay, row.status.Fits := by
        intro row hrow
        obtain ⟨original, horiginal, rfl⟩ := List.mem_map.mp hrow
        exact (hfits original horiginal).throughRelay
      have hsame : (rows.map LocatedStatus.throughRelay).map LocatedStatus.throughRelay =
          rows.map LocatedStatus.throughRelay := by
        rw [List.map_map]
        exact List.map_congr_left fun row _ => throughRelay_idem row
      rw [relayed, ih, Except.toOption, Option.bind_some, houtput,
        loadSSH_output hnumber hrelayed houtput, if_neg (by omega), hsame]

/-- A relay that fails makes those that read from it fail. -/
theorem relayed_error (hnumber : ReadsBack number) (hfits : ∀ row ∈ rows, row.status.Fits)
    (h : ∀ output, writeOutput number rows = some output → maxResponseBytes < output.length)
    (n : Nat) : ∃ error, relayed number rows (n + 1) = .error error := by
  induction n with
  | zero =>
      rw [relayed, relayed, Except.toOption, Option.bind_some]
      cases houtput : writeOutput number rows with
      | none => exact ⟨_, rfl⟩
      | some output =>
          rw [loadSSH_output hnumber hfits houtput, if_pos (h output houtput)]
          exact ⟨_, rfl⟩
  | succ n ih =>
      obtain ⟨error, herror⟩ := ih
      rw [relayed, herror]
      exact ⟨.execute, rfl⟩

/-- Behind any number of relays a console gets rows exactly if the first relay can print them within
the limit, and then they are those of the first relay. These are the rows it has read itself exactly
if its receipts are in whole minutes of their zones. -/
theorem relayed_iff (hnumber : ReadsBack number) (hfits : ∀ row ∈ rows, row.status.Fits) (n : Nat) :
    ((∃ hosts, relayed number rows (n + 1) = .ok hosts) ↔
        ∃ output, writeOutput number rows = some output ∧ output.length ≤ maxResponseBytes) ∧
      ∀ hosts, relayed number rows (n + 1) = .ok hosts →
        relayed number rows 1 = .ok hosts ∧
          (hosts.map LocatedStatus.status = rows.map LocatedStatus.status ↔
            ∀ row ∈ rows, row.status.latestReceipt.isSome = true → row.offset.tmod 60 = 0) := by
  have hiff : (∃ hosts, relayed number rows (n + 1) = .ok hosts) ↔
      ∃ output, writeOutput number rows = some output ∧ output.length ≤ maxResponseBytes := by
    constructor
    · rintro ⟨hosts, hok⟩
      by_contra hno
      push Not at hno
      obtain ⟨error, herror⟩ := relayed_error hnumber hfits hno n
      rw [hok] at herror
      cases herror
    · rintro ⟨output, houtput, hsize⟩
      exact ⟨_, relayed_eq hnumber hfits houtput hsize n⟩
  refine ⟨hiff, fun hosts hok => ?_⟩
  obtain ⟨output, houtput, hsize⟩ := hiff.mp ⟨hosts, hok⟩
  obtain rfl := Except.ok.inj (hok.symm.trans (relayed_eq hnumber hfits houtput hsize n))
  refine ⟨relayed_eq hnumber hfits houtput hsize 0, ?_⟩
  rw [List.map_map, List.map_inj_left]
  exact forall₂_congr fun row _ => status_throughRelay row

theorem readsBack_utcEncoding : ReadsBack utcEncoding.number := by
  have hzero : parseFloat (String.ofList (intLiteral 0)) = some ⟨0⟩ := by decide +kernel
  intro x text h
  simp only [utcEncoding] at h
  split at h
  · next hx =>
      obtain rfl := Option.some.inj h
      exact ⟨intLiteral 0, fun _ => reads_int 0, hx ▸ hzero⟩
  · cases h

/-- The rows of a machine in UTC. -/
def comparedRows : List LocatedStatus :=
  (loadDatabase comparedFleet).map (LocatedStatus.ofDatabase utcEncoding.zone)

theorem comparedRows_relayed :
    ∃ hosts, relayed utcEncoding.number comparedRows 3 = .ok hosts ∧
      hosts.map LocatedStatus.status = comparedRows.map LocatedStatus.status := by
  have hrows : comparedRows = [⟨⟨"alpha", "Alpha", "linux", 5, "fresh", some (seconds 100), 1, 0, 0,
      some ⟨0⟩, some "fresh"⟩, 0⟩] := by
    decide +kernel
  have hfits : ∀ row ∈ comparedRows, row.status.Fits := by
    rw [hrows, List.forall_mem_singleton]
    exact ⟨by decide, by decide, by decide, by decide⟩
  have hprinted : (writeOutput utcEncoding.number comparedRows).any
      (fun output => decide (output.length ≤ maxResponseBytes)) = true := by
    decide +kernel
  obtain ⟨output, houtput, hsize⟩ := (Option.any_eq_true _ _).mp hprinted
  have hrelayed := relayed_iff readsBack_utcEncoding hfits 2
  obtain ⟨hosts, hhosts⟩ := hrelayed.1.mpr ⟨output, houtput, of_decide_eq_true hsize⟩
  refine ⟨hosts, hhosts, (hrelayed.2 hosts hhosts).2.mpr ?_⟩
  rw [hrows, List.forall_mem_singleton]
  exact fun _ => rfl

end Relays

end NodeScope.Console
