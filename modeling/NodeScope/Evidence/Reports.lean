import NodeScope.Backup.Snapshot
import NodeScope.Credentials.Enrollment
import NodeScope.Lib.JsonWriter
import NodeScope.Lib.Path
import NodeScope.Lib.Publish
import NodeScope.Lib.TimeParse

/-!
# Reports on disk

`nodescope-verify` and `nodescope-storage-evidence` publish a report by renaming a temporary file
of the output directory. Any number of these commands may run at the same time, fail and be
stopped. A reader of the reports sees what it would see if each command put its whole report in
place in one step.

## Implementation notes

A report says what its JSON is once its path is known; no JSON is an error of `MarshalIndent`. A
failure of `MkdirAll` is one of creating the temporary file. A temporary name that a file has is
tried with another number, which is no step.
-/

namespace NodeScope.Evidence

open Lib Lib.Text Lib.Path Lib.Time Lib.Check
open Backup (stamp)
open Credentials (validSlug slugStart)

/-- The reports of `nodescope-verify` and of `nodescope-storage-evidence`. -/
inductive ReportKind where
  | verification
  | storageEvidence
deriving DecidableEq

def ReportKind.stem : ReportKind → String
  | .verification => "nodescope-host-verification-"
  | .storageEvidence => "nodescope-storage-evidence-"

/-- The characters that stay as they are in a file name. -/
def nameChar (c : Char) : Bool :=
  ('a' ≤ c && c ≤ 'z') || ('A' ≤ c && c ≤ 'Z') || ('0' ≤ c && c ≤ '9') || c == '-' || c == '_'

/-- A text in the name of a file, as both commands write it. -/
def filenameComponent (value : String) : String :=
  let value := trimSpace value
  if value == "" then "unknown"
  else String.ofList (value.toList.map fun c => if nameChar c then c else '_')

/-- `verificationFilenameComponent`. -/
def verificationFilenameComponent : String → String := filenameComponent

/-- `sanitizeReportComponent`. -/
def sanitizeReportComponent : String → String := filenameComponent

def ReportKind.component : ReportKind → String → String
  | .verification => verificationFilenameComponent
  | .storageEvidence => sanitizeReportComponent

/-- A report with where it is to be stored. -/
structure Report where
  kind : ReportKind
  outputDir : Bytes
  hostSlug : String
  generatedAt : Int
  /-- `MarshalIndent` of the report with its path. -/
  marshal : Bytes → Option Bytes

inductive ReportError where
  | invalidPath
  | marshal
deriving DecidableEq

namespace Report

/-- The name of the file in the output directory. -/
def filename (r : Report) : String :=
  r.kind.stem ++ r.kind.component r.hostSlug ++ "-" ++ stamp r.generatedAt ++ ".json"

def path (r : Report) : Bytes := join r.outputDir (utf8 r.filename)

def contents (r : Report) : Option Bytes := (r.marshal r.path).map fun payload => payload ++ [0x0a]

/-- `writeVerificationReportAtomic` and `writeReportAtomic` before the temporary file: what to
write and where, or nothing without an output directory. -/
def prepare (r : Report) : Except ReportError (Option (Bytes × Bytes)) :=
  if trimSpaceBytes r.outputDir == [] then .ok none
  else do
    failIf (dir r.path != clean r.outputDir) .invalidPath
    match r.contents with
    | none => .error .marshal
    | some contents => .ok (some (r.path, contents))

/-- The name that `CreateTemp` tries for a random number. -/
def tempName (r : Report) (random : Nat) : String :=
  "." ++ r.kind.stem ++ toString random ++ ".tmp"

def tempPath (r : Report) (random : Nat) : Bytes :=
  let start := if r.outputDir.getLast? == some slash then r.outputDir else r.outputDir ++ [slash]
  start ++ utf8 (r.tempName random)

def location (r : Report) (cwd : Location) : Location := resolve cwd r.path

end Report

/-- Whether the last component of a location begins with a dot. -/
def hiddenFile (l : Location) : Bool :=
  match l.getLast? with
  | some name => name.head? == some dot
  | none => false

abbrev Files := Publish.Files Location UInt8

abbrev World := Publish.World Location UInt8 hiddenFile

abbrev Action := Publish.Action Location UInt8 hiddenFile

section Names

theorem notMem_utf8 {c : Char} (hc : c.toNat < 0x80) {s : String} (h : c ∉ s.toList) :
    UInt8.ofNat c.toNat ∉ utf8 s := by
  rw [← String.ofList_toList (s := s), Decimal.utf8_ofList]
  intro hmem
  obtain ⟨x, hx, hb⟩ := List.mem_flatMap.mp hmem
  by_cases hascii : x.toNat < 0x80
  · rw [Runes.encode_ascii hascii, List.mem_singleton] at hb
    have hvalue := congrArg UInt8.toNat hb
    rw [Json.toNat_ofNat_small (by omega), Json.toNat_ofNat_small (by omega)] at hvalue
    exact h (Char.toNat_inj.mp hvalue ▸ hx)
  · have hforeign := Runes.encode_foreign (Nat.le_of_not_lt hascii) _ hb
    rw [UInt8.le_iff_toNat_le, Json.toNat_ofNat_small (by omega)] at hforeign
    exact absurd hforeign (by simp; omega)

theorem filenameComponent_chars (value : String) :
    ∀ c ∈ (filenameComponent value).toList, nameChar c = true := by
  rw [filenameComponent]
  split
  · have hall : "unknown".toList.all nameChar = true := by decide
    exact List.all_eq_true.mp hall
  · rw [String.toList_ofList]
    intro c hc
    obtain ⟨d, -, rfl⟩ := List.mem_map.mp hc
    split
    · assumption
    · decide

theorem notMem_component {c : Char} (hc : nameChar c = false) (kind : ReportKind)
    (value : String) : c ∉ (kind.component value).toList := by
  intro h
  have hname : nameChar c = true := by
    cases kind <;> exact filenameComponent_chars value c h
  rw [hc] at hname
  cases hname

theorem notMem_stamp {c : Char} (hdigit : c.isDigit = false) (hc : c ≠ '-' ∧ c ≠ 'T' ∧ c ≠ 'Z')
    (t : Int) : c ∉ (stamp t).toList := by
  have hpadded (width n : Nat) := notMem_padded hdigit width n
  have hyear (year : Int) := notMem_paddedYear hdigit hc.1 year
  simp [stamp, hpadded, hyear, hc.2.1, hc.2.2]

theorem Report.toList_filename (r : Report) : r.filename.toList =
    r.kind.stem.toList ++ ((r.kind.component r.hostSlug).toList ++
      '-' :: ((stamp r.generatedAt).toList ++ ".json".toList)) := by
  simp [Report.filename]

theorem Report.slash_notMem_filename (r : Report) : slash ∉ utf8 r.filename := by
  apply notMem_utf8 (c := '/') (by decide)
  have hstem : '/' ∉ r.kind.stem.toList := by cases r.kind <;> decide
  have hcomponent := notMem_component (c := '/') (by decide) r.kind r.hostSlug
  have hstamp := notMem_stamp (c := '/') (by decide) (by decide) r.generatedAt
  simp [r.toList_filename, hstem, hcomponent, hstamp]

theorem Report.slash_notMem_tempName (r : Report) (random : Nat) :
    slash ∉ utf8 (r.tempName random) := by
  apply notMem_utf8 (c := '/') (by decide)
  have hstem : '/' ∉ r.kind.stem.toList := by cases r.kind <;> decide
  have hrandom : '/' ∉ Nat.toDigits 10 random := by
    simpa using notMem_repr (c := '/') (by decide) random
  simp [Report.tempName, hstem, hrandom]

/-- The names of reports begin with their stem. -/
theorem Report.utf8_filename (r : Report) :
    ∃ rest, utf8 r.filename = utf8 r.kind.stem ++ rest := by
  refine ⟨utf8 (r.kind.component r.hostSlug ++ "-" ++ stamp r.generatedAt ++ ".json"), ?_⟩
  rw [← utf8_append, Report.filename]
  simp only [String.append_assoc]

theorem Report.utf8_tempName (r : Report) (random : Nat) :
    ∃ rest, utf8 (r.tempName random) = dot :: (utf8 r.kind.stem ++ rest) := by
  refine ⟨utf8 (toString random ++ ".tmp"), ?_⟩
  rw [Report.tempName, String.append_assoc, utf8_append, utf8_append]
  rfl

theorem ReportKind.length_stem (kind : ReportKind) : 2 < (utf8 kind.stem).length := by
  cases kind <;> decide

theorem ReportKind.head_stem (kind : ReportKind) : ∃ rest, utf8 kind.stem = 0x6e :: rest := by
  cases kind <;> exact ⟨_, rfl⟩

theorem Report.plain_filename (r : Report) : plain (utf8 r.filename) = true := by
  obtain ⟨rest, hname⟩ := r.utf8_filename
  apply plain_of_length
  rw [hname, List.length_append]
  have := r.kind.length_stem
  omega

theorem Report.plain_tempName (r : Report) (random : Nat) :
    plain (utf8 (r.tempName random)) = true := by
  obtain ⟨rest, hname⟩ := r.utf8_tempName random
  apply plain_of_length
  rw [hname, List.length_cons, List.length_append]
  have := r.kind.length_stem
  omega

end Names

section Places

variable (r : Report) (cwd : Location)

theorem Report.location_eq (h : r.outputDir ≠ []) :
    r.location cwd = resolve cwd r.outputDir ++ [utf8 r.filename] := by
  have hempty : slash ∉ ([] : Bytes) := List.not_mem_nil
  have hplace := resolve_join h r.slash_notMem_filename r.plain_filename hempty
    (by rw [List.append_nil]; exact r.plain_filename) cwd
  rwa [List.append_nil, List.append_nil] at hplace

theorem Report.resolve_tempPath (h : r.outputDir ≠ []) (random : Nat) :
    resolve cwd (r.tempPath random) = resolve cwd r.outputDir ++ [utf8 (r.tempName random)] := by
  have hslash := r.slash_notMem_tempName random
  have hplain := r.plain_tempName random
  rw [Report.tempPath]
  by_cases hlast : (r.outputDir.getLast? == some slash) = true
  · obtain ⟨before, heq⟩ := List.getLast?_eq_some_iff.mp (eq_of_beq hlast)
    rw [if_pos hlast, heq]
    exact resolve_name hslash hplain cwd
  · rw [if_neg hlast, resolve_name hslash hplain, resolve_slash h]

theorem hiddenFile_concat (l : Location) (name : Bytes) :
    hiddenFile (l ++ [name]) = (name.head? == some dot) := by
  rw [hiddenFile, List.getLast?_concat]

theorem Report.location_visible (h : r.outputDir ≠ []) : hiddenFile (r.location cwd) = false := by
  obtain ⟨rest, hname⟩ := r.utf8_filename
  obtain ⟨others, hstem⟩ := r.kind.head_stem
  rw [r.location_eq cwd h, hiddenFile_concat, hname, hstem]
  rfl

theorem Report.tempPath_hidden (h : r.outputDir ≠ []) (random : Nat) :
    hiddenFile (resolve cwd (r.tempPath random)) = true := by
  obtain ⟨rest, hname⟩ := r.utf8_tempName random
  rw [r.resolve_tempPath cwd h, hiddenFile_concat, hname]
  rfl

/-- A name that ends in no directory but the report's own: the path of a report is never refused. -/
theorem Report.prepare_eq : r.prepare =
    if trimSpaceBytes r.outputDir == [] then .ok none
    else
      match r.contents with
      | none => .error .marshal
      | some contents => .ok (some (r.path, contents)) := by
  rw [Report.prepare]
  by_cases hblank : (trimSpaceBytes r.outputDir == []) = true
  · rw [if_pos hblank, if_pos hblank]
  · have hne : r.outputDir ≠ [] := by
      intro h
      rw [h] at hblank
      exact hblank (by decide)
    have hdir : dir r.path = clean r.outputDir :=
      dir_join hne r.slash_notMem_filename r.plain_filename
    rw [if_neg hblank, if_neg hblank, hdir, bne_self_eq_false]
    rfl

end Places

section Commands

variable {cwd : Location} {r : Report}

theorem Report.prepare_ok {path contents : Bytes} (h : r.prepare = .ok (some (path, contents))) :
    r.outputDir ≠ [] ∧ path = r.path ∧ r.contents = some contents := by
  have hne : r.outputDir ≠ [] := by
    intro hempty
    rw [r.prepare_eq, hempty, if_pos (by decide)] at h
    cases h
  rw [r.prepare_eq] at h
  split at h
  · cases h
  · split at h
    · cases h
    · next hcontents =>
        cases h
        exact ⟨hne, rfl, hcontents⟩

/-- What a command has to publish. -/
def Report.job (cwd : Location) (r : Report) : Option (Publish.Job Location UInt8 hiddenFile) :=
  match h : r.prepare with
  | .ok (some (path, contents)) =>
      some {
        target := resolve cwd path
        candidate := fun random => resolve cwd (r.tempPath random)
        payload := contents
        target_visible := by
          obtain ⟨hne, rfl, -⟩ := Report.prepare_ok h
          exact r.location_visible cwd hne
        candidate_hidden := r.tempPath_hidden cwd (Report.prepare_ok h).1 }
  | _ => none

theorem Report.job_some {job : Publish.Job Location UInt8 hiddenFile}
    (h : r.job cwd = some job) :
    r.outputDir ≠ [] ∧ job.target = r.location cwd ∧ r.contents = some job.payload := by
  rw [Report.job] at h
  split at h
  · next path contents hprepare =>
      obtain ⟨hne, rfl, hcontents⟩ := Report.prepare_ok hprepare
      obtain rfl := Option.some.inj h
      exact ⟨hne, rfl, hcontents⟩
  · cases h

theorem Report.exists_job (hdir : trimSpaceBytes r.outputDir ≠ []) {contents : Bytes}
    (hcontents : r.contents = some contents) : ∃ job, r.job cwd = some job := by
  have hprepare : r.prepare = .ok (some (r.path, contents)) := by
    rw [r.prepare_eq, if_neg (by simpa using hdir), hcontents]
  rw [Report.job]
  split
  · exact ⟨_, rfl⟩
  · next hnot => exact absurd hprepare (hnot _ _)

/-- The commands that a list of actions begins, one after the other. -/
def Begins (cwd : Location) (commands : List Report) (actions : List Action) : Prop :=
  commands.map (Report.job cwd) = (actions.filterMap Publish.Action.begun).map some

/-- The reports that were published, in order. -/
def published (commands : List Report) (w : World) : List Report :=
  w.published.filterMap fun i => commands[i]?

/-- A report is put in its place in one step. -/
def putReport (cwd : Location) (files : Files) (r : Report) : Files :=
  Function.update files (r.location cwd) r.contents

theorem put_eq_putReport {job : Publish.Job Location UInt8 hiddenFile} (h : r.job cwd = some job)
    (files : Files) : Publish.put files job = putReport cwd files r := by
  obtain ⟨-, htarget, hcontents⟩ := Report.job_some h
  rw [Publish.put, putReport, htarget, hcontents]

variable {commands : List Report} {before : Files} {actions : List Action} {w : World}

theorem publications_eq (hrun : (Publish.World.init before).run actions = some w) :
    w.publications =
      w.published.filterMap fun i => (actions.filterMap Publish.Action.begun)[i]? := by
  have hjobs := Publish.World.jobs_run hrun
  rw [Publish.World.init, List.map_nil, List.nil_append] at hjobs
  apply List.filterMap_congr
  intro i _
  rw [← hjobs, List.getElem?_map]

theorem foldl_putReport (hbegins : Begins cwd commands actions) (indices : List Nat)
    (files : Files) :
    (indices.filterMap fun i => (actions.filterMap Publish.Action.begun)[i]?).foldl Publish.put
        files =
      (indices.filterMap fun i => commands[i]?).foldl (putReport cwd) files := by
  induction indices generalizing files with
  | nil => rfl
  | cons i rest ih =>
      have hentry := congrArg (fun l => l[i]?) hbegins
      rw [List.getElem?_map, List.getElem?_map] at hentry
      cases hcommand : commands[i]? with
      | none =>
          rw [hcommand, Option.map_none, eq_comm, Option.map_eq_none_iff] at hentry
          rw [List.filterMap_cons_none hentry, List.filterMap_cons_none hcommand, ih]
      | some r =>
          rw [hcommand, Option.map_some, eq_comm, Option.map_eq_some_iff] at hentry
          obtain ⟨job, hjob, heq⟩ := hentry
          rw [List.filterMap_cons_some hjob, List.filterMap_cons_some hcommand, List.foldl_cons,
            List.foldl_cons, put_eq_putReport heq.symm, ih]

/-- Readers see whole reports only, in the order in which they were published. What else is left of
the commands is under a hidden name of one command that had no file before, and a command that has
returned has published once or not at all, as it says. -/
theorem reports_published_at_once (hbegins : Begins cwd commands actions)
    (hrun : (Publish.World.init before).run actions = some w) :
    (∀ l, hiddenFile l = false →
      w.files l = (published commands w).foldl (putReport cwd) before l) ∧
    (∀ l, hiddenFile l = true → w.files l = before l ∨ before l = none ∧
      ∃! i : Nat, ∃ x, w.writers[i]? = some x ∧ x.phase.name = some l) ∧
    ∀ (i : Nat) x ok left, w.writers[i]? = some x → x.phase = .returned ok left →
      w.published.count i = if ok then 1 else 0 := by
  have hsound := Publish.World.sound_run hrun
  refine ⟨?_, fun l hl => hsound.hidden_cases hl, ?_⟩
  · intro l hl
    rw [hsound.visible l hl, publications_eq hrun, foldl_putReport hbegins, published]
  · intro i x ok left hx hphase
    exact hsound.count_published hx (by rw [hphase]; rfl)

def sampleReport : Report :=
  ⟨.verification, utf8 "reports", "nuc", 1700000000000000000, fun _ => some (utf8 "\x7b\x7d")⟩

/-- Another report for the place of the first. -/
def laterReport : Report := { sampleReport with marshal := fun _ => some (utf8 "[]") }

theorem Report.job_candidate {job : Publish.Job Location UInt8 hiddenFile}
    (h : r.job cwd = some job) (random : Nat) :
    job.candidate random = resolve cwd (r.tempPath random) := by
  rw [Report.job] at h
  split at h
  · obtain rfl := Option.some.inj h
    rfl
  · cases h

/-- The two commands with their files, before anything is written. -/
theorem exists_begun : ∃ j k : Publish.Job Location UInt8 hiddenFile, ∃ files : Files,
    sampleReport.job [] = some j ∧ laterReport.job [] = some k ∧
      (Publish.World.init fun _ => none).run
          [.begin j, .begin k, .create 0 (some 7), .create 1 (some 8)] =
        some ⟨files, [⟨j, .created (j.candidate 7)⟩, ⟨k, .created (k.candidate 8)⟩], []⟩ := by
  obtain ⟨j, hj⟩ : ∃ job, sampleReport.job [] = some job := Report.exists_job (by decide) rfl
  obtain ⟨k, hk⟩ : ∃ job, laterReport.job [] = some job := Report.exists_job (by decide) rfl
  have hfree : k.candidate 8 ≠ j.candidate 7 := by
    rw [Report.job_candidate hj, Report.job_candidate hk]
    decide +kernel
  refine ⟨j, k, Function.update (Function.update (fun _ => none) (j.candidate 7) (some []))
    (k.candidate 8) (some []), hj, hk, ?_⟩
  simp [Publish.World.run, Machine.run, Publish.World.step, Publish.World.init,
    Function.update_of_ne hfree]

/-- Of two commands at one place the first is stopped while it writes: it leaves no report, and the
other one's stands there. -/
theorem stopped_command_leaves_no_report : ∃ (actions : List Action) (w : World),
    Begins [] [sampleReport, laterReport] actions ∧
      (Publish.World.init fun _ => none).run actions = some w ∧
      published [sampleReport, laterReport] w = [laterReport] ∧
      ∀ l, hiddenFile l = false → w.files l = putReport [] (fun _ => none) laterReport l := by
  obtain ⟨j, k, files, hj, hk, hbegun⟩ := exists_begun
  have hrest : ∃ w : World, Publish.World.run
      ⟨files, [⟨j, .created (j.candidate 7)⟩, ⟨k, .created (k.candidate 8)⟩], []⟩
      [.proceed 0 false 0, .proceed 1 false 0, .crash 0 1, .proceed 1 false 0, .proceed 1 false 0,
        .proceed 1 false 0, .proceed 1 false 0] = some w ∧
      published [sampleReport, laterReport] w = [laterReport] := ⟨_, rfl, rfl⟩
  obtain ⟨w, hrest, hpublished⟩ := hrest
  have hrun := Machine.run_append_eq_some.mpr ⟨_, hbegun, hrest⟩
  have hbegins : Begins [] [sampleReport, laterReport]
      ([.begin j, .begin k, .create 0 (some 7), .create 1 (some 8)] ++
        [.proceed 0 false 0, .proceed 1 false 0, .crash 0 1, .proceed 1 false 0, .proceed 1 false 0,
          .proceed 1 false 0, .proceed 1 false 0]) := by
    simp [Begins, Publish.Action.begun, hj, hk]
  refine ⟨_, w, hbegins, hrun, hpublished, fun l hl => ?_⟩
  rw [(reports_published_at_once hbegins hrun).1 l hl, hpublished]
  rfl

end Commands

section Uniqueness

/-- A report of a host of the schema, of a year that is written without a sign. -/
def Report.Regular (r : Report) : Prop :=
  validSlug r.hostSlug = true ∧ 0 ≤ (date r.generatedAt).1

/-- Two reports of one kind about one host, in one directory and of one second. -/
def Report.SamePlace (cwd : Location) (r s : Report) : Prop :=
  resolve cwd r.outputDir = resolve cwd s.outputDir ∧ r.kind = s.kind ∧ r.hostSlug = s.hostSlug ∧
    r.generatedAt / nanosPerSecond = s.generatedAt / nanosPerSecond

instance (cwd : Location) (r : Report) : DecidablePred (r.SamePlace cwd) := fun _ =>
  inferInstanceAs (Decidable (_ ∧ _ ∧ _ ∧ _))

theorem slug_chars {slug : String} (h : validSlug slug = true) :
    slug.toList ≠ [] ∧ ∀ c ∈ slug.toList, slugStart c = true ∨ c = '-' := by
  rw [validSlug] at h
  split at h
  · cases h
  · next c rest heq =>
      simp only [Bool.and_eq_true, List.all_eq_true, Bool.or_eq_true, beq_iff_eq] at h
      rw [heq]
      refine ⟨List.cons_ne_nil _ _, fun d hd => ?_⟩
      obtain rfl | hd := List.mem_cons.mp hd
      · exact Or.inl h.1.1
      · exact h.1.2 d hd

theorem nameChar_of_slug {c : Char} (h : slugStart c = true ∨ c = '-') :
    nameChar c = true ∧ isSpace c = false := by
  obtain hstart | rfl := h
  · simp only [slugStart, Bool.or_eq_true, Bool.and_eq_true, decide_eq_true_eq, Char.le_def,
      UInt32.le_iff_toNat_le] at hstart
    constructor
    · simp only [nameChar, Char.le_def, UInt32.le_iff_toNat_le]
      simp only [Bool.or_eq_true, Bool.and_eq_true, decide_eq_true_eq]
      tauto
    · have hrange : 48 ≤ c.toNat ∧ c.toNat ≤ 122 := by
        obtain ⟨hlow, hhigh⟩ | ⟨hlow, hhigh⟩ := hstart
        · exact ⟨Nat.le_trans (by decide) hlow, hhigh⟩
        · exact ⟨hlow, Nat.le_trans hhigh (by decide)⟩
      simp [isSpace]
      omega
  · decide

/-- The slug of a host is its own component of a file name. -/
theorem filenameComponent_slug {slug : String} (h : validSlug slug = true) :
    filenameComponent slug = slug := by
  obtain ⟨hne, hchars⟩ := slug_chars h
  have htrim : trimSpace slug = slug := by
    rw [trimSpace, trimBoth_eq_self hne, String.ofList_toList]
    · exact (nameChar_of_slug (hchars _ (List.head_mem hne))).2
    · exact (nameChar_of_slug (hchars _ (List.getLast_mem hne))).2
  have hmap : slug.toList.map (fun c => if nameChar c then c else '_') = slug.toList := by
    conv_rhs => rw [← List.map_id slug.toList]
    exact List.map_congr_left fun c hc => if_pos (nameChar_of_slug (hchars c hc)).1
  rw [filenameComponent, htrim, hmap, String.ofList_toList, if_neg]
  simpa using fun h => hne (by rw [h]; rfl)

theorem component_slug {slug : String} (h : validSlug slug = true) (kind : ReportKind) :
    kind.component slug = slug := by
  cases kind <;> exact filenameComponent_slug h

theorem toList_stamp (t : Int) : (stamp t).toList =
    ((paddedYear (date t).1).toList ++
      ((padded 2 (date t).2.1).toList ++ (padded 2 (date t).2.2).toList)) ++
    'T' :: ((padded 2 (clock t / 3600)).toList ++ ((padded 2 (clock t / 60 % 60)).toList ++
      ((padded 2 (clock t % 60)).toList ++ ['Z']))) := by
  simp [stamp, date, clock]

theorem clock_lt (t : Int) : clock t < 86400 := by
  rw [clock]
  omega

/-- The stamp of a report is that of its second. -/
theorem stamp_inj {t u : Int} (ht : 0 ≤ (date t).1) (hu : 0 ≤ (date u).1) :
    stamp t = stamp u ↔ t / nanosPerSecond = u / nanosPerSecond := by
  constructor
  · intro h
    have htwo {n : Nat} (hn : n < 100) : (padded 2 n).toList.length = 2 :=
      length_padded (by decide) hn
    have hdate {v : Int} (hv : 0 ≤ (date v).1) : (date v).2.1 < 100 ∧ (date v).2.2 < 100 := by
      obtain ⟨⟨-, hmonth⟩, -, hday⟩ := civil_valid hv
      have hdays : daysIn (date v).2.1 (date v).1.toNat ≤ 31 := by
        rw [daysIn]
        split_ifs <;> omega
      exact ⟨by rw [date]; omega, by rw [date] at *; omega⟩
    have hletter {v : Int} : 'T' ∉ (paddedYear (date v).1).toList ++
        ((padded 2 (date v).2.1).toList ++ (padded 2 (date v).2.2).toList) := by
      have hpadded (width n : Nat) := notMem_padded (c := 'T') (by decide) width n
      have hyear := notMem_paddedYear (c := 'T') (by decide) (by decide) (date v).1
      simp [hpadded, hyear]
    have hbound (v : Int) : clock v / 3600 < 100 ∧ clock v / 60 % 60 < 100 ∧ clock v % 60 < 100 := by
      have := clock_lt v
      omega
    have hpieces := congrArg String.toList h
    rw [toList_stamp, toList_stamp] at hpieces
    obtain ⟨hdays, hclocks⟩ := append_cons_inj_left hletter hletter hpieces
    obtain ⟨hyear, hdays⟩ := List.append_inj' hdays (by
      rw [List.length_append, List.length_append, htwo (hdate ht).1, htwo (hdate ht).2,
        htwo (hdate hu).1, htwo (hdate hu).2])
    obtain ⟨hmonth, hday⟩ := List.append_inj hdays (by rw [htwo (hdate ht).1, htwo (hdate hu).1])
    obtain ⟨hhour, hclocks⟩ := List.append_inj hclocks (by rw [htwo (hbound t).1, htwo (hbound u).1])
    obtain ⟨hminute, hclocks⟩ :=
      List.append_inj hclocks (by rw [htwo (hbound t).2.1, htwo (hbound u).2.1])
    have hsecond := List.append_cancel_right hclocks
    rw [toList_paddedYear, toList_paddedYear, if_neg (Int.not_lt.mpr ht),
      if_neg (Int.not_lt.mpr hu)] at hyear
    rw [String.toList_inj, padded_inj] at hyear hmonth hday hhour hminute hsecond
    have hcivil : date t = date u := Prod.ext (by omega) (Prod.ext hmonth hday)
    have hdayNumber := congrArg dayOfCivil hcivil
    rw [date, date, dayOfCivil_civil, dayOfCivil_civil] at hdayNumber
    simp only [clock, nanosPerSecond] at *
    omega
  · intro h
    simp only [stamp, h]

theorem hyphen_notMem_stamp {t : Int} (h : 0 ≤ (date t).1) : '-' ∉ (stamp t).toList := by
  have hpadded (width n : Nat) := notMem_padded (c := '-') (by decide) width n
  have hyear : '-' ∉ (paddedYear (date t).1).toList := by
    rw [toList_paddedYear, if_neg (Int.not_lt.mpr h)]
    exact hpadded 4 _
  simp [toList_stamp, hpadded, hyear]

theorem ReportKind.eq_of_stem {k k' : ReportKind} {a b : List Char}
    (h : k.stem.toList ++ a = k'.stem.toList ++ b) : k = k' := by
  have hletter (k : ReportKind) (a : List Char) :
      (k.stem.toList ++ a)[10]? = some (if k = .verification then 'h' else 's') := by
    rw [List.getElem?_append_left (by cases k <;> decide)]
    cases k <;> rfl
  have heq : (k.stem.toList ++ a)[10]? = (k'.stem.toList ++ b)[10]? := by rw [h]
  rw [hletter, hletter] at heq
  cases k <;> cases k' <;> simp_all

variable {cwd : Location} {r s : Report}

/-- The name of a report tells what it is about. -/
theorem filename_inj (hr : r.Regular) (hs : s.Regular) : r.filename = s.filename ↔
    r.kind = s.kind ∧ r.hostSlug = s.hostSlug ∧
      r.generatedAt / nanosPerSecond = s.generatedAt / nanosPerSecond := by
  have hhyphen {t : Int} (ht : 0 ≤ (date t).1) : '-' ∉ (stamp t).toList ++ ".json".toList := by
    simpa using hyphen_notMem_stamp ht
  rw [← String.toList_inj, r.toList_filename, s.toList_filename, component_slug hr.1,
    component_slug hs.1]
  constructor
  · intro h
    have hkind := ReportKind.eq_of_stem h
    rw [hkind] at h
    obtain ⟨hslug, hstamp⟩ := append_cons_inj_right (hhyphen hr.2) (hhyphen hs.2)
      (List.append_cancel_left h)
    have hstamp := String.toList_inj.mp (List.append_cancel_right hstamp)
    exact ⟨hkind, String.toList_inj.mp hslug, (stamp_inj hr.2 hs.2).mp hstamp⟩
  · rintro ⟨hkind, hslug, htime⟩
    rw [hkind, hslug, (stamp_inj hr.2 hs.2).mpr htime]

theorem location_inj (hr : r.Regular) (hs : s.Regular) (hrdir : r.outputDir ≠ [])
    (hsdir : s.outputDir ≠ []) : r.location cwd = s.location cwd ↔ r.SamePlace cwd s := by
  rw [r.location_eq cwd hrdir, s.location_eq cwd hsdir, Report.SamePlace, ← filename_inj hr hs,
    ← utf8_inj]
  constructor
  · intro h
    obtain ⟨hdir, hname⟩ := List.append_inj' h rfl
    exact ⟨hdir, (List.cons.inj hname).1⟩
  · rintro ⟨hdir, hname⟩
    rw [hdir, hname]

variable {commands : List Report} {before : Files} {actions : List Action} {w : World}

theorem mem_published (hbegins : Begins cwd commands actions) {r : Report}
    (h : r ∈ published commands w) : r ∈ commands ∧ r.outputDir ≠ [] := by
  obtain ⟨i, -, hi⟩ := List.mem_filterMap.mp h
  have hmem := List.mem_of_getElem? hi
  refine ⟨hmem, ?_⟩
  have hjob : r.job cwd ∈ commands.map (Report.job cwd) := List.mem_map_of_mem hmem
  rw [hbegins] at hjob
  obtain ⟨job, -, hjob⟩ := List.mem_map.mp hjob
  exact (Report.job_some hjob.symm).1

/-- In the place of a published report stands, whole, the last one that was published of its kind,
host, directory and second. -/
theorem published_report_in_place (hbegins : Begins cwd commands actions)
    (hregular : ∀ r ∈ commands, r.Regular)
    (hrun : (Publish.World.init before).run actions = some w) :
    ∀ r ∈ published commands w, ∃ s,
      ((published commands w).filter fun s => r.SamePlace cwd s).getLast? = some s ∧
        w.files (r.location cwd) = s.contents := by
  intro r hr
  obtain ⟨hrmem, hrdir⟩ := mem_published hbegins hr
  have hfiles := (Publish.World.sound_run hrun).visible _ (r.location_visible cwd hrdir)
  rw [publications_eq hrun, foldl_putReport hbegins, ← published] at hfiles
  have hplaces : ((published commands w).filter fun s => s.location cwd = r.location cwd) =
      (published commands w).filter fun s => r.SamePlace cwd s := by
    apply List.filter_congr
    intro s hs
    obtain ⟨hsmem, hsdir⟩ := mem_published hbegins hs
    rw [decide_eq_decide, eq_comm]
    exact location_inj (hregular r hrmem) (hregular s hsmem) hrdir hsdir
  have hstored := Publish.foldl_update (Report.location · cwd) Report.contents before
    (published commands w) (r.location cwd)
  rw [hplaces] at hstored
  replace hfiles := hfiles.trans hstored
  cases hlast : ((published commands w).filter fun s => r.SamePlace cwd s).getLast? with
  | none =>
      rw [List.getLast?_eq_none_iff, List.filter_eq_nil_iff] at hlast
      exact absurd (decide_eq_true ⟨rfl, rfl, rfl, rfl⟩) (hlast r hr)
  | some s =>
      rw [hlast] at hfiles
      exact ⟨s, rfl, hfiles⟩

theorem sampleReport_regular : sampleReport.Regular :=
  ⟨by decide, by decide⟩

/-- Two commands at one place take turns and both finish: the report of the one that renames last
stands there. -/
theorem finished_command_leaves_report : ∃ (actions : List Action) (w : World),
    Begins [] [sampleReport, laterReport] actions ∧
      (Publish.World.init fun _ => none).run actions = some w ∧
      published [sampleReport, laterReport] w = [sampleReport, laterReport] ∧
      w.files (sampleReport.location []) = laterReport.contents := by
  obtain ⟨j, k, files, hj, hk, hbegun⟩ := exists_begun
  have hrest : ∃ w : World, Publish.World.run
      ⟨files, [⟨j, .created (j.candidate 7)⟩, ⟨k, .created (k.candidate 8)⟩], []⟩
      [.proceed 0 false 0, .proceed 1 false 0, .proceed 0 false 0, .proceed 1 false 0,
        .proceed 1 false 0, .proceed 0 false 0, .proceed 0 false 0, .proceed 1 false 0,
        .proceed 0 false 0, .proceed 1 false 0, .proceed 1 false 0, .proceed 0 false 0] = some w ∧
      published [sampleReport, laterReport] w = [sampleReport, laterReport] := ⟨_, rfl, rfl⟩
  obtain ⟨w, hrest, hpublished⟩ := hrest
  have hrun := Machine.run_append_eq_some.mpr ⟨_, hbegun, hrest⟩
  have hbegins : Begins [] [sampleReport, laterReport]
      ([.begin j, .begin k, .create 0 (some 7), .create 1 (some 8)] ++
        [.proceed 0 false 0, .proceed 1 false 0, .proceed 0 false 0, .proceed 1 false 0,
          .proceed 1 false 0, .proceed 0 false 0, .proceed 0 false 0, .proceed 1 false 0,
          .proceed 0 false 0, .proceed 1 false 0, .proceed 1 false 0, .proceed 0 false 0]) := by
    simp [Begins, Publish.Action.begun, hj, hk]
  refine ⟨_, w, hbegins, hrun, hpublished, ?_⟩
  have hregular : ∀ r ∈ [sampleReport, laterReport], r.Regular := by
    simpa using ⟨sampleReport_regular, sampleReport_regular⟩
  obtain ⟨s, hlast, hfiles⟩ := published_report_in_place hbegins hregular hrun sampleReport
    (by rw [hpublished]; exact List.mem_cons_self)
  have hplace : ([sampleReport, laterReport].filter fun s => sampleReport.SamePlace [] s) =
      [sampleReport, laterReport] := by
    have hsame : sampleReport.SamePlace [] laterReport := ⟨rfl, rfl, rfl, rfl⟩
    have hself : sampleReport.SamePlace [] sampleReport := ⟨rfl, rfl, rfl, rfl⟩
    simp [hsame, hself]
  rw [hpublished, hplace] at hlast
  rw [hfiles, ← Option.some.inj hlast]
  rfl

end Uniqueness

end NodeScope.Evidence
