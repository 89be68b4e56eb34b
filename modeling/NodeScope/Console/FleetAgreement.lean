import NodeScope.Console.FleetClient

/-!
# When both ways give the same fleet

The control API publishes a clock offset and its quality, which `remoteFleetHost` has no fields for.
What else there is of a host comes through as it was, as long as its receipt can be written in whole
minutes of the zone and the answer is not too large to be read.
-/

namespace NodeScope.Console

open Lib Lib.Json Lib.Time Telemetry Control

section Statements

/-- The fields that `FleetHost` has. -/
def HostStatus.published (status : HostStatus) : FleetHost where
  id := status.hostSlug
  name := status.displayName
  platform := status.platform
  freshness := status.freshnessState
  latestServerReceipt := status.latestReceipt
  metricCount := status.currentMetricCount
  unavailableMetricCount := status.unavailableMetricCount
  staleMetricCount := status.staleMetricCount
  clockOffsetSeconds := status.clockOffsetSeconds
  clockOffsetQuality := status.clockOffsetQuality

/-- The answer of the control API to a console. -/
def fleetResponse (e : Encoding) (others : Service FleetHost) (principal : Principal)
    (state : FleetState) : HttpResponse :=
  writeJSON e (fleet (postgresService state others) principal).2

/-- The list of the control API is loaded and agrees with the list of the database. -/
def SameFleet (e : Encoding) (others : Service FleetHost) (principal : Principal)
    (state : FleetState) : Prop :=
  ∃ hosts, loadHTTPS (fleetResponse e others principal state) = .ok hosts ∧
    hosts.map HostStatus.published = (loadDatabase state).map HostStatus.published

/-- An instant that is written, and read as it was. -/
def WholeMinutes (e : Encoding) (t : Int) : Prop :=
  zoneEncodable (e.zone t) t = true ∧ (e.zone t).tmod 60 = 0

/-- A row of which nothing is lost. -/
structure Portable (e : Encoding) (row : FleetStatus) : Prop where
  offset : row.clockOffsetSeconds = none
  quality : row.clockOffsetQuality = none
  receipt : ∀ t ∈ row.latestReceipt, WholeMinutes e (ofTimestamp t)

def receiptSize (e : Encoding) : Option Int → Nat
  | none => 0
  | some t => 25 + (writeString (formatZone (e.zone t) t)).length

/-- The bytes of a host without a clock offset. -/
def hostSize (e : Encoding) (row : FleetStatus) : Nat :=
  (writeString row.hostSlug).length + (writeString row.displayName).length +
    (writeString row.platform).length + (writeString (freshnessText row.freshnessState)).length +
    receiptSize e (row.latestReceipt.map ofTimestamp) +
    (writeInt row.currentMetricCount).length + (writeInt row.unavailableMetricCount).length +
    (writeInt row.staleMetricCount).length + 106

/-- The bytes of an answer: the hosts with the commas between them, the object around them and the
new line. -/
def fleetSize (e : Encoding) (rows : List FleetStatus) : Nat :=
  (rows.map (hostSize e)).sum + (rows.length - 1) + 13

end Statements

section Hosts

variable {e : Encoding} {row : FleetStatus}

def receiptMembers (e : Encoding) : Option Int → List (String × Bytes)
  | none => []
  | some t => [("latest_server_receipt", writeString (formatZone (e.zone t) t))]

def receiptValues (e : Encoding) : Option Int → List (String × Value)
  | none => []
  | some t => [("latest_server_receipt", .string (formatZone (e.zone t) t))]

/-- The members of a host without a clock offset. -/
def publishedMembers (e : Encoding) (row : FleetStatus) : List (String × Bytes) :=
  [("id", writeString row.hostSlug), ("name", writeString row.displayName),
    ("platform", writeString row.platform),
    ("freshness", writeString (freshnessText row.freshnessState))] ++
  receiptMembers e (row.latestReceipt.map ofTimestamp) ++
  [("metric_count", writeInt row.currentMetricCount),
    ("unavailable_metric_count", writeInt row.unavailableMetricCount),
    ("stale_metric_count", writeInt row.staleMetricCount)]

/-- The members as they are read. -/
def publishedValues (e : Encoding) (row : FleetStatus) : List (String × Value) :=
  [("id", .string row.hostSlug), ("name", .string row.displayName),
    ("platform", .string row.platform),
    ("freshness", .string (freshnessText row.freshnessState))] ++
  receiptValues e (row.latestReceipt.map ofTimestamp) ++
  [("metric_count", .number (intLiteral row.currentMetricCount)),
    ("unavailable_metric_count", .number (intLiteral row.unavailableMetricCount)),
    ("stale_metric_count", .number (intLiteral row.staleMetricCount))]

/-- What a console gets of a row. -/
def RemoteFleetHost.ofRow (e : Encoding) (row : FleetStatus) : RemoteFleetHost where
  id := row.hostSlug
  name := row.displayName
  platform := row.platform
  freshness := freshnessText row.freshnessState
  latestServerReceipt := (row.latestReceipt.map ofTimestamp).map fun t =>
    t + seconds ((e.zone t).tmod 60)
  metricCount := row.currentMetricCount
  unavailableMetricCount := row.unavailableMetricCount
  staleMetricCount := row.staleMetricCount

/-- The row has no clock offset, and its receipt is written. -/
structure Written (e : Encoding) (row : FleetStatus) : Prop where
  offset : row.clockOffsetSeconds = none
  quality : row.clockOffsetQuality = none
  receipt : ∀ t ∈ row.latestReceipt.map ofTimestamp, zoneEncodable (e.zone t) t = true

theorem hostMembers_eq (h : Written e row) :
    e.hostMembers (FleetHost.scan row) = some (publishedMembers e row) := by
  have hreceipt := h.receipt
  rw [Encoding.hostMembers, publishedMembers, FleetHost.scan, h.offset, h.quality]
  generalize row.latestReceipt.map ofTimestamp = receipt at hreceipt ⊢
  cases receipt with
  | none => rfl
  | some t => simp [Encoding.optional, Encoding.time, receiptMembers, hreceipt t rfl]

/-- A host that is written has a receipt that is. -/
theorem receipt_of_host {text : Bytes} (h : e.host (FleetHost.scan row) = some text) :
    ∀ t ∈ row.latestReceipt.map ofTimestamp, zoneEncodable (e.zone t) t = true := by
  intro t ht
  by_contra hno
  rw [Encoding.host, Encoding.hostMembers] at h
  simp [FleetHost.scan, Option.mem_def.mp ht, Encoding.optional, Encoding.time, hno] at h

theorem reads_published (e : Encoding) (row : FleetStatus) (depth : Nat) :
    List.Forall₂ (ReadsMember depth) (publishedMembers e row) (publishedValues e row) := by
  have hreceipt (receipt : Option Int) :
      List.Forall₂ (ReadsMember depth) (receiptMembers e receipt) (receiptValues e receipt) := by
    cases receipt with
    | none => exact .nil
    | some t => exact .cons ⟨rfl, reads_string _⟩ .nil
  rw [publishedMembers, publishedValues]
  refine List.rel_append (List.rel_append ?_ (hreceipt _)) ?_
  · exact .cons ⟨rfl, reads_string _⟩ (.cons ⟨rfl, reads_string _⟩
      (.cons ⟨rfl, reads_string _⟩ (.cons ⟨rfl, reads_string _⟩ .nil)))
  · exact .cons ⟨rfl, reads_int _⟩ (.cons ⟨rfl, reads_int _⟩ (.cons ⟨rfl, reads_int _⟩ .nil))

/-- The names that fields are published under. -/
def remoteFields : List String :=
  ["id", "name", "platform", "freshness", "latest_server_receipt", "metric_count",
    "unavailable_metric_count", "stale_metric_count"]

theorem nameMatches_remote {field name : String} (hfield : field ∈ remoteFields)
    (hname : name ∈ remoteFields) : nameMatches field name = decide (field = name) := by
  have htable : ∀ field ∈ remoteFields, ∀ name ∈ remoteFields,
      nameMatches field name = decide (field = name) := by
    decide +kernel
  exact htable field hfield name hname

theorem count_written (old : Int) {n : Nat} (h : n < 2 ^ 63) :
    RemoteFleetHost.count old (.number (intLiteral n)) = some (n : Int) :=
  int64_intLiteral (by omega) (by omega)

theorem decode_published (h : Written e row) (hfits : FitsBigint row) :
    RemoteFleetHost.decode RemoteFleetHost.zero (.object (publishedValues e row)) =
      some (RemoteFleetHost.ofRow e row) := by
  have hmetric := count_written 0 hfits.1
  have hunavailable := count_written 0 hfits.2.1
  have hstale := count_written 0 hfits.2.2
  have hreceipt := h.receipt
  rw [publishedValues, RemoteFleetHost.ofRow]
  generalize row.latestReceipt.map ofTimestamp = receipt at hreceipt ⊢
  cases receipt with
  | none =>
      simp (disch := decide) [receiptValues, RemoteFleetHost.decode, RemoteFleetHost.setMember,
        nameMatches_remote, RemoteFleetHost.text, RemoteFleetHost.zero, hmetric, hunavailable,
        hstale]
  | some t =>
      have htime : RemoteFleetHost.time (.string (formatZone (e.zone t) t)) =
          some (some (t + seconds ((e.zone t).tmod 60))) := by
        rw [RemoteFleetHost.time, parse_formatZone (hreceipt t rfl), Option.map_some]
      simp (disch := decide) [receiptValues, RemoteFleetHost.decode, RemoteFleetHost.setMember,
        nameMatches_remote, RemoteFleetHost.text, RemoteFleetHost.zero, htime, hmetric,
        hunavailable, hstale]

theorem length_remoteFields : remoteFields.map (fun name => (writeString name).length) =
    [4, 6, 10, 11, 23, 14, 26, 20] := by
  decide +kernel

theorem length_host (e : Encoding) (row : FleetStatus) :
    (writeObject (publishedMembers e row)).length = hostSize e row := by
  have hnames := length_remoteFields
  simp only [remoteFields, List.map_cons, List.map_nil, List.cons.injEq, and_true] at hnames
  obtain ⟨hid, hname, hplatform, hfreshness, hreceipt, hmetric, hunavailable, hstale⟩ := hnames
  rw [publishedMembers, hostSize]
  generalize row.latestReceipt.map ofTimestamp = receipt
  cases receipt with
  | none =>
      simp [receiptMembers, receiptSize, writeObject, writeMember, separated, hid, hname,
        hplatform, hfreshness, hmetric, hunavailable, hstale]
      omega
  | some t =>
      simp [receiptMembers, receiptSize, writeObject, writeMember, separated, hid, hname,
        hplatform, hfreshness, hreceipt, hmetric, hunavailable, hstale]
      omega

end Hosts

section Fleets

variable {e : Encoding} {rows : List FleetStatus}

theorem hosts_written (h : ∀ row ∈ rows, Written e row) :
    (rows.map FleetHost.scan).mapM e.host =
      some (rows.map fun row => writeObject (publishedMembers e row)) := by
  induction rows with
  | nil => rfl
  | cons row rows ih =>
      have hrow : e.host (FleetHost.scan row) = some (writeObject (publishedMembers e row)) := by
        rw [Encoding.host, hostMembers_eq (h row List.mem_cons_self), Option.map_some]
      have hrows := ih fun other hother => h other (List.mem_cons_of_mem row hother)
      simp [List.mapM_cons, hrow, hrows]

/-- The text of a fleet. -/
def fleetText (e : Encoding) (rows : List FleetStatus) : Bytes :=
  writeObject [("hosts", writeArray (rows.map fun row => writeObject (publishedMembers e row)))]

theorem reads_fleetText (e : Encoding) (rows : List FleetStatus) :
    Reads 0 (fleetText e rows)
      (.object [("hosts", .array (rows.map fun row => .object (publishedValues e row)))]) := by
  apply reads_object (by decide)
  refine .cons ⟨rfl, ?_⟩ .nil
  apply reads_array (by decide)
  induction rows with
  | nil => exact .nil
  | cons row rows ih => exact .cons (reads_object (by decide) (reads_published e row _)) ih

theorem length_separated (texts : List Bytes) :
    (separated texts).length = (texts.map List.length).sum + (texts.length - 1) := by
  induction texts with
  | nil => rfl
  | cons text texts ih =>
      by_cases hlast : texts = []
      · subst hlast
        simp [separated]
      · have hpos := List.length_pos_iff.mpr hlast
        rw [separated_cons text hlast, List.length_append, List.length_cons, ih, List.map_cons,
          List.sum_cons, List.length_cons]
        omega

theorem length_fleetText (e : Encoding) (rows : List FleetStatus) :
    (fleetText e rows ++ [0x0a]).length = fleetSize e rows := by
  have hname : (writeString "hosts").length = 7 := by decide +kernel
  have hsum : (rows.map fun row => (writeObject (publishedMembers e row)).length) =
      rows.map (hostSize e) := List.map_congr_left fun row _ => length_host e row
  have hlist := length_separated (rows.map fun row => writeObject (publishedMembers e row))
  rw [List.map_map, List.length_map] at hlist
  simp only [Function.comp_def, hsum] at hlist
  rw [fleetText, fleetSize]
  generalize rows.map (fun row => writeObject (publishedMembers e row)) = texts at hlist ⊢
  simp [writeObject, writeArray, writeMember, separated, hname, hlist]
  omega

theorem decodeAll_published (h : ∀ row ∈ rows, Written e row)
    (hfits : ∀ row ∈ rows, FitsBigint row) :
    RemoteFleetHost.decodeAll [] (rows.map fun row => .object (publishedValues e row)) =
      some (rows.map (RemoteFleetHost.ofRow e)) := by
  induction rows with
  | nil => rfl
  | cons row rows ih =>
      have hrow := decode_published (h row List.mem_cons_self) (hfits row List.mem_cons_self)
      have hrows := ih (fun other hother => h other (List.mem_cons_of_mem row hother))
        fun other hother => hfits other (List.mem_cons_of_mem row hother)
      simp [RemoteFleetHost.decodeAll, hrow, hrows]

end Fleets

section Loads

variable {e : Encoding} {others : Service FleetHost} {principal : Principal}
  {state : FleetState}

/-- What is loaded of a fleet that is written. -/
theorem load_written (hviewer : principal.role.allows .viewer = true)
    (h : ∀ row ∈ state.rows, Written e row) :
    loadHTTPS (fleetResponse e others principal state) =
      if maxResponseBytes < fleetSize e state.rows then .error .tooLarge
      else .ok (state.rows.map fun row => (RemoteFleetHost.ofRow e row).status) := by
  have hresponse : fleetResponse e others principal state =
      ⟨200, fleetText e state.rows ++ [0x0a]⟩ := by
    simp [fleetResponse, fleet, hviewer, postgresService, writeJSON, ApiResponse.code,
      Encoding.answer, hosts_written h, fleetText]
  have hparse : parse (fleetText e state.rows ++ [0x0a]) = some _ :=
    parse_of_reads (reads_fleetText e state.rows) (by simp [isSpace])
  have hname : nameMatches "hosts" "hosts" = true := by decide +kernel
  have hpayload : (parse (fleetText e state.rows ++ [0x0a])).bind decodePayload =
      some (state.rows.map (RemoteFleetHost.ofRow e)) := by
    simp [hparse, decodePayload, setHosts, hname, decodeAll_published h state.fits]
  rw [hresponse, loadHTTPS, length_fleetText, hpayload]
  simp [Function.comp_def]

/-- What is loaded was sent with the status of a success, and has no clock offset. -/
theorem load_eq_ok {response : HttpResponse} {hosts : List HostStatus}
    (h : loadHTTPS response = .ok hosts) :
    response.status = 200 ∧ response.body ≠ [] ∧
      ∀ host ∈ hosts, host.clockOffsetSeconds = none ∧ host.clockOffsetQuality = none := by
  rw [loadHTTPS] at h
  split_ifs at h with hlarge hstatus
  · rw [not_not] at hstatus
    cases hpayload : (parse response.body).bind decodePayload with
    | none => simp [hpayload] at h
    | some loaded =>
        rw [hpayload] at h
        obtain rfl := Except.ok.inj h
        refine ⟨hstatus, ?_, ?_⟩
        · intro hempty
          rw [hempty] at hpayload
          simp [parse, readValue, skipSpace] at hpayload
        · intro host hhost
          obtain ⟨remote, -, rfl⟩ := List.mem_map.mp hhost
          exact ⟨rfl, rfl⟩

theorem host_of_hosts {rows : List FleetStatus} {texts : List Bytes}
    (h : (rows.map FleetHost.scan).mapM e.host = some texts) :
    ∀ row ∈ rows, ∃ text, e.host (FleetHost.scan row) = some text := by
  induction rows generalizing texts with
  | nil => simp
  | cons row rows ih =>
      simp only [List.map_cons, List.mapM_cons, Option.bind_eq_bind, Option.bind_eq_some_iff] at h
      obtain ⟨text, htext, rest, hrest, -⟩ := h
      exact List.forall_mem_cons.mpr ⟨⟨text, htext⟩, ih hrest⟩

/-- A list is loaded for a viewer only, and where every host of it was written. -/
theorem written_of_load {hosts : List HostStatus}
    (h : loadHTTPS (fleetResponse e others principal state) = .ok hosts) :
    principal.role.allows .viewer = true ∧
      ∀ row ∈ state.rows, ∃ text, e.host (FleetHost.scan row) = some text := by
  obtain ⟨hstatus, hbody, -⟩ := load_eq_ok h
  by_cases hviewer : principal.role.allows .viewer = true
  · refine ⟨hviewer, ?_⟩
    cases hhosts : (state.rows.map FleetHost.scan).mapM e.host with
    | none =>
        simp [fleetResponse, fleet, hviewer, postgresService, writeJSON, Encoding.answer,
          hhosts] at hbody
    | some texts => exact host_of_hosts hhosts
  · simp [fleetResponse, fleet, hviewer, writeJSON, ApiResponse.code] at hstatus

/-- A list that agrees is one of hosts without clock offsets. -/
theorem clock_of_sameFleet (h : SameFleet e others principal state) :
    ∀ row ∈ state.rows, row.clockOffsetSeconds = none ∧ row.clockOffsetQuality = none := by
  obtain ⟨hosts, hload, hagree⟩ := h
  obtain ⟨-, -, hclock⟩ := load_eq_ok hload
  intro row hrow
  have hmem : (HostStatus.scan row).published ∈ hosts.map HostStatus.published :=
    hagree ▸ List.mem_map_of_mem (List.mem_map_of_mem hrow)
  obtain ⟨host, hhost, heq⟩ := List.mem_map.mp hmem
  have hnone := hclock host hhost
  exact ⟨(congrArg FleetHost.clockOffsetSeconds heq).symm.trans hnone.1,
    (congrArg FleetHost.clockOffsetQuality heq).symm.trans hnone.2⟩

/-- A row that is written is received as it is scanned where its receipt is not moved. -/
theorem published_ofRow {row : FleetStatus} (h : Written e row) :
    (RemoteFleetHost.ofRow e row).status.published = (HostStatus.scan row).published ↔
      ∀ t ∈ row.latestReceipt, (e.zone (ofTimestamp t)).tmod 60 = 0 := by
  cases hreceipt : row.latestReceipt with
  | none =>
      simp [HostStatus.published, RemoteFleetHost.ofRow, RemoteFleetHost.status, HostStatus.scan,
        h.offset, h.quality, hreceipt]
  | some t =>
      simp [HostStatus.published, RemoteFleetHost.ofRow, RemoteFleetHost.status, HostStatus.scan,
        h.offset, h.quality, hreceipt, seconds, nanosPerSecond]

theorem sameFleet_iff (e : Encoding) (others : Service FleetHost) (principal : Principal)
    (state : FleetState) :
    SameFleet e others principal state ↔
      principal.role.allows .viewer = true ∧ (∀ row ∈ state.rows, Portable e row) ∧
        fleetSize e state.rows ≤ maxResponseBytes := by
  constructor
  · intro h
    have hclock := clock_of_sameFleet h
    obtain ⟨hosts, hload, hagree⟩ := h
    obtain ⟨hviewer, htexts⟩ := written_of_load hload
    have hwritten : ∀ row ∈ state.rows, Written e row := by
      intro row hrow
      obtain ⟨text, htext⟩ := htexts row hrow
      exact ⟨(hclock row hrow).1, (hclock row hrow).2, receipt_of_host htext⟩
    rw [load_written hviewer hwritten] at hload
    split_ifs at hload with hlarge
    obtain rfl := Except.ok.inj hload
    rw [loadDatabase, List.map_map, List.map_map, List.map_inj_left] at hagree
    refine ⟨hviewer, ?_, Nat.le_of_not_lt hlarge⟩
    intro row hrow
    have hminutes := (published_ofRow (hwritten row hrow)).mp (hagree row hrow)
    refine ⟨(hclock row hrow).1, (hclock row hrow).2, ?_⟩
    intro t ht
    exact ⟨(hwritten row hrow).receipt _ (Option.mem_map_of_mem _ ht), hminutes t ht⟩
  · rintro ⟨hviewer, hportable, hsize⟩
    have hwritten : ∀ row ∈ state.rows, Written e row := by
      intro row hrow
      refine ⟨(hportable row hrow).offset, (hportable row hrow).quality, ?_⟩
      intro t ht
      obtain ⟨s, hs, rfl⟩ := Option.mem_map.mp ht
      exact ((hportable row hrow).receipt s hs).1
    refine ⟨_, (load_written hviewer hwritten).trans (if_neg (Nat.not_lt.mpr hsize)), ?_⟩
    rw [loadDatabase, List.map_map, List.map_map, List.map_inj_left]
    intro row hrow
    refine (published_ofRow (hwritten row hrow)).mpr ?_
    intro t ht
    exact ((hportable row hrow).receipt t ht).2

/-- A host whose clock was compared with the server's at its one receipt. -/
def comparedDb : Storage.Db :=
  { Storage.Db.empty with
    hosts := [⟨Uuid.ofByte 1, "alpha", "Alpha", "linux", none⟩]
    metricLatest := [⟨Uuid.ofByte 1, "agent-clock", "agent.clock_offset_seconds",
      sqlSeconds 100, sqlSeconds 100, some ⟨0⟩, none, .fresh, "nodescope-server", "offset"⟩] }

/-- A replica in UTC, with the text of a zero. -/
def utcEncoding : Encoding := ⟨fun _ => 0, fun x => if x = ⟨0⟩ then some [0x30] else none⟩

/-- A service that is asked for its fleet only. -/
def fleetOnly : Service FleetHost :=
  ⟨fun _ => none, fun _ _ => none, fun _ _ _ => false, fun _ _ _ => false, fun _ _ _ => false⟩

def comparedFleet : FleetState where
  rows := fleetIngestionStatus (sqlSeconds 101) ⟨5, []⟩ comparedDb
  fits := by decide +kernel

theorem clockOffset_dropped :
    queryFleet (sqlSeconds 101) ⟨5, []⟩ comparedDb = some comparedFleet ∧
      loadHTTPS (fleetResponse utcEncoding fleetOnly ⟨"console", .viewer⟩ comparedFleet) =
        .ok [⟨"alpha", "Alpha", "linux", 0, "fresh", some (seconds 100), 1, 0, 0, none, none⟩] ∧
      loadDatabase comparedFleet = [⟨"alpha", "Alpha", "linux", 5, "fresh", some (seconds 100),
        1, 0, 0, some ⟨0⟩, some "fresh"⟩] ∧
      ¬ SameFleet utcEncoding fleetOnly ⟨"console", .viewer⟩ comparedFleet := by
  have hload : loadHTTPS (fleetResponse utcEncoding fleetOnly ⟨"console", .viewer⟩
      comparedFleet) =
        .ok [⟨"alpha", "Alpha", "linux", 0, "fresh", some (seconds 100), 1, 0, 0, none, none⟩] := by
    decide +kernel
  have hdatabase : loadDatabase comparedFleet = [⟨"alpha", "Alpha", "linux", 5, "fresh",
      some (seconds 100), 1, 0, 0, some ⟨0⟩, some "fresh"⟩] := by
    decide +kernel
  refine ⟨dif_pos comparedFleet.fits, hload, hdatabase, ?_⟩
  rintro ⟨hosts, hsame, hagree⟩
  obtain rfl := Except.ok.inj (hload.symm.trans hsame)
  rw [hdatabase] at hagree
  simp [HostStatus.published] at hagree

end Loads

end NodeScope.Console
