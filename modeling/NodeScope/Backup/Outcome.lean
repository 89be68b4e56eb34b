import NodeScope.Backup.Runner

/-!
# What a backup leaves behind

A run that returns an error should have published nothing, and one that succeeds a single
archive, in the place of none that is still to be kept. `clean_iff` says of any call, on any
files, when this is so. Pruning comes after the rename, so that an error of it is returned by a
run that has published; and no one learns that a deferred removal failed.
-/

namespace NodeScope.Backup

open Storage Lib Lib.Check Lib.Text Lib.Time

namespace Files

variable {files : Files} {e n : Entry} {path target : Path}

theorem mem_write (hfiles : files.Distinct) :
    e ∈ files.write n ↔ e = n ∨ (e ∈ files ∧ e.path ≠ n.path) :=
  Table.mem_put_iff n e hfiles

theorem Distinct.write (hfiles : files.Distinct) (n : Entry) : (files.write n).Distinct :=
  Table.nodup_put n hfiles

theorem write_write {m : Entry} (h : m.path = n.path) : (files.write m).write n = files.write n :=
  Table.put_put h files

theorem mem_remove : e ∈ files.remove path ↔ e ∈ files ∧ e.path ≠ path := by
  simp [remove]

theorem Distinct.remove (hfiles : files.Distinct) (path : Path) : (files.remove path).Distinct :=
  hfiles.sublist (List.filter_sublist.map _)

theorem holds_eq_false : files.holds path = false ↔ ∀ e ∈ files, e.path ≠ path := by
  rw [holds, Option.isSome_eq_false_iff, Option.isNone_iff_eq_none, Table.find_eq_none]

/-- A renamed entry replaces the one of the new name. -/
theorem mem_rename (hfiles : files.Distinct) (hn : n ∈ files) :
    e ∈ files.rename n.path target ↔
      e = { n with path := target } ∨ (e ∈ files ∧ e.path ≠ n.path ∧ e.path ≠ target) := by
  have hfind : Table.find Entry.path n.path files = some n :=
    (Table.find_eq_some_iff hfiles).mpr ⟨hn, rfl⟩
  rw [rename, hfind, mem_write (hfiles.remove n.path), mem_remove, and_assoc]

theorem Distinct.rename (hfiles : files.Distinct) (path target : Path) :
    (files.rename path target).Distinct := by
  rw [Files.rename]
  cases Table.find Entry.path path files with
  | none => exact hfiles
  | some n => exact (hfiles.remove path).write _

theorem mem_removeDeferred {stays : Bool} :
    e ∈ files.removeDeferred path stays ↔ e ∈ files ∧ (stays = true ∨ e.path ≠ path) := by
  cases stays with
  | true => simp [removeDeferred]
  | false => simp [removeDeferred, mem_remove]

end Files

/-- The archives that `prune` has removed when it returns. -/
def prunedPaths (files : Files) (directory : String) (before : Int) (env : Env) : List Path :=
  if env.fails then (expiredArchives files directory before).take env.removed
  else expiredArchives files directory before

theorem mem_foldl_remove (paths : List Path) {files : Files} {e : Entry} :
    e ∈ paths.foldl Files.remove files ↔ e ∈ files ∧ e.path ∉ paths := by
  induction paths generalizing files with
  | nil => simp
  | cons path rest ih =>
      rw [List.foldl_cons, ih, Files.mem_remove, List.mem_cons, not_or, and_assoc]

theorem mem_prune {files : Files} {directory : String} {before : Int} {env : Env} {e : Entry} :
    e ∈ prune files directory before env ↔
      e ∈ files ∧ e.path ∉ prunedPaths files directory before env :=
  mem_foldl_remove _

/-- The name is that of an archive. -/
def Entry.isArchive (e : Entry) : Bool :=
  "nodescope-".isPrefixOf e.path.name && e.path.name.endsWith ".tar.gz"

def Entry.isPartial (e : Entry) : Bool := e.path.name.endsWith ".partial"

/-- No archive and no partial artefact is there that was not there before. -/
def PublishedNothing (before after : Files) : Prop :=
  ∀ e ∈ after, e ∉ before → e.isArchive = false ∧ e.isPartial = false

/-- One archive is new, and those that are gone were older than the limit. -/
structure PublishedOne (before after : Files) (path : Path) (limit : Int) : Prop where
  published : ∃ n ∈ after, n.path = path ∧ n.isArchive = true ∧ n ∉ before ∧
    ∀ e ∈ after, e.isArchive = true → e ∉ before → e = n
  kept : ∀ e ∈ before, e.isArchive = true → e ∉ after → e.modTime < limit

theorem mem_expiredArchives {files : Files} (hfiles : files.Distinct) {directory : String}
    {before : Int} {e : Entry} (he : e ∈ files) :
    e.path ∈ expiredArchives files directory before ↔
      e.path.directory = directory ∧ e.isArchive = true ∧ e.modTime < before := by
  simp only [expiredArchives, List.mem_mergeSort, List.mem_map, List.mem_filter,
    Bool.and_eq_true, decide_eq_true_eq, Entry.isArchive]
  constructor
  · rintro ⟨e', ⟨he', ⟨⟨hdirectory, hstart⟩, hend⟩, htime⟩, hpath⟩
    obtain rfl := List.inj_on_of_nodup_map hfiles he' he hpath
    exact ⟨hdirectory, ⟨hstart, hend⟩, htime⟩
  · rintro ⟨hdirectory, ⟨hstart, hend⟩, htime⟩
    exact ⟨e, ⟨he, ⟨⟨hdirectory, hstart⟩, hend⟩, htime⟩, rfl⟩

namespace Request

variable (r : Request) (h : Held)

theorem final_isArchive {e : Entry} (he : e.path = r.final h) : e.isArchive = true := by
  rw [Entry.isArchive, he, Bool.and_eq_true, isPrefixOf_iff, endsWith_iff]
  simp only [final, basename, String.toList_append]
  exact ⟨by simp only [List.append_assoc, List.prefix_append], List.suffix_append _ _⟩

theorem staging_isPartial {e : Entry} (he : e.path = r.staging h) : e.isPartial = true := by
  rw [Entry.isPartial, he, endsWith_iff]
  simp only [staging, String.toList_append]
  exact List.suffix_append _ _

theorem archivePartial_isPartial {e : Entry} (he : e.path = r.archivePartial h) :
    e.isPartial = true := by
  rw [Entry.isPartial, he, endsWith_iff]
  simp only [archivePartial, String.toList_append]
  exact ⟨_, by
    rw [show ".tar.gz.partial".toList = ".tar.gz".toList ++ ".partial".toList from rfl,
      ← List.append_assoc]⟩

/-- The staging directory is hidden, so it is no archive. -/
theorem staging_not_isArchive {e : Entry} (he : e.path = r.staging h) : e.isArchive = false := by
  rw [Entry.isArchive, he, Bool.and_eq_false_iff]
  left
  rw [Bool.eq_false_iff, ne_eq, isPrefixOf_iff]
  simp only [staging, String.toList_append]
  rintro ⟨rest, hrest⟩
  simp at hrest

theorem staging_ne_archivePartial : r.staging h ≠ r.archivePartial h := by
  intro heq
  have hname := congrArg (fun p => p.name.toList.head?) heq
  simp [staging, archivePartial, basename] at hname

theorem staging_ne_final : r.staging h ≠ r.final h := by
  intro heq
  have hname := congrArg (fun p => p.name.toList.head?) heq
  simp [staging, final, basename] at hname

theorem archivePartial_ne_final : r.archivePartial h ≠ r.final h := by
  intro heq
  have hname := congrArg (fun p => p.name.toList.length) heq
  simp [archivePartial, final] at hname

end Request

namespace Outside

variable (x : Outside) (r : Request)

/-- The run creates its staging directory, with the lease it holds then. -/
def created (files : Files) : Option Held :=
  match x.acquire with
  | .error _ => none
  | .ok lease =>
      if x.configured && (r.validate == .ok ()) && !x.mkdirAllFails && !x.mkdirFails &&
          !files.holds (r.staging (x.held lease)) then
        some (x.held lease)
      else none

/-- The dump and the manifest are written and the lease is current. -/
def describes : Bool := !x.dumpFails && !x.manifestFails && x.firstCheck == some true

/-- The partial archive can be created. -/
def opens (h : Held) (files : Files) : Bool := !x.openFails && !files.holds (r.archivePartial h)

/-- The archive is written, the lease is still current, and the archive gets its name. -/
def renames : Bool := !x.archiveFails && x.secondCheck == some true && !x.renameFails

end Outside

namespace Runner

section Entries

variable (x : Outside) (r : Request) (h : Held)

/-- The staging directory with all that is staged. -/
def staged : Entry :=
  ⟨r.staging h, x.stagedAt, .staging (some x.dump) (some (r.manifest h))⟩

/-- The archive under its final name. -/
def published : Entry := ⟨r.final h, x.archivedAt, .archive x.archive⟩

/-- The files after the rename. -/
def renamed (files : Files) : Files :=
  ((files.write (staged x r h)).write (partialArchive x r h)).rename (r.archivePartial h)
    (r.final h)

/-- The archives that have gone when `prune` returns. -/
def pruned (files : Files) : List Path :=
  prunedPaths (renamed x r h files) r.outputDirectory (h.now - r.retentionDays * seconds 86400)
    ⟨x.pruneFails, x.archivedAt, [], x.pruned⟩

end Entries

variable {x : Outside} {r : Request} {h : Held} {files : Files}

theorem run_of_created_none (hcreated : x.created r files = none) :
    ∃ e, run x r files = (files, .error e) := by
  cases hconfigured : x.configured with
  | false =>
      exact ⟨.invalid "backup leaser and dump executor are required", by simp [run, hconfigured]⟩
  | true =>
      cases hvalidate : r.validate with
      | error e => exact ⟨e, by simp [run, hconfigured, hvalidate]⟩
      | ok u =>
          cases hacquire : x.acquire with
          | error e =>
              exact ⟨.acquireBackupLease e, by simp [run, hconfigured, hvalidate, hacquire]⟩
          | ok lease =>
              refine ⟨.filesystem, ?_⟩
              simp only [Outside.created, hacquire, hconfigured, hvalidate] at hcreated
              have hfails : (x.mkdirAllFails || x.mkdirFails ||
                  files.holds (r.staging (x.held lease))) = true := by
                by_contra hnot
                simp only [Bool.not_eq_true, Bool.or_eq_false_iff] at hnot
                simp [hnot] at hcreated
              simp only [run, hconfigured, hvalidate, hacquire, hfails, if_true]

theorem held_of_created (hcreated : x.created r files = some h) {lease : Lease}
    (hlease : x.acquire = .ok lease) : h = x.held lease := by
  simp only [Outside.created, hlease, Option.ite_none_right_eq_some, Option.some.injEq] at hcreated
  exact hcreated.2.symm

theorem run_of_created_some (hcreated : x.created r files = some h) :
    files.holds (r.staging h) = false ∧ h.now = x.now ∧ run x r files =
      ((stage x r h files).1.removeDeferred (r.staging h) x.stagingStays,
        (stage x r h files).2) := by
  cases hacquire : x.acquire with
  | error e => simp [Outside.created, hacquire] at hcreated
  | ok lease =>
      simp only [Outside.created, hacquire, Option.ite_none_right_eq_some, Option.some.injEq,
        Bool.and_eq_true, Bool.not_eq_true', beq_iff_eq] at hcreated
      obtain ⟨⟨⟨⟨⟨hconfigured, hvalidate⟩, hmkdirAll⟩, hmkdir⟩, hholds⟩, rfl⟩ := hcreated
      refine ⟨hholds, rfl, ?_⟩
      simp [run, hconfigured, hvalidate, hacquire, hmkdirAll, hmkdir, hholds]

/-- A run that does not come to the archive leaves a staging directory. -/
theorem stage_of_not_describes (hdescribes : x.describes = false) :
    ∃ e n, n.path = r.staging h ∧ stage x r h files = (files.write n, .error e) := by
  rw [Outside.describes] at hdescribes
  simp only [stage, Files.write_write]
  cases hdump : x.dumpFails with
  | true => exact ⟨_, _, rfl, rfl⟩
  | false =>
      cases hmanifest : x.manifestFails with
      | true => exact ⟨_, _, rfl, rfl⟩
      | false =>
          cases hcheck : x.firstCheck with
          | none => exact ⟨_, _, rfl, rfl⟩
          | some current =>
              cases current with
              | false => exact ⟨_, _, rfl, rfl⟩
              | true => simp [hdump, hmanifest, hcheck] at hdescribes

theorem stage_of_describes (hdescribes : x.describes = true) :
    stage x r h files =
      ((archive x r h (files.write (staged x r h))).1.removeDeferred (r.archivePartial h)
          x.archiveStays,
        (archive x r h (files.write (staged x r h))).2) := by
  simp only [Outside.describes, Bool.and_eq_true, Bool.not_eq_true', beq_iff_eq] at hdescribes
  obtain ⟨⟨hdump, hmanifest⟩, hcheck⟩ := hdescribes
  simp [stage, staged, Files.write_write, hdump, hmanifest, hcheck]

theorem archive_of_not_opens (hopens : x.opens r h files = false) :
    archive x r h files = (files, .error .filesystem) := by
  have hfails : (x.openFails || files.holds (r.archivePartial h)) = true := by
    simpa [Outside.opens, ← Bool.not_or] using hopens
  rw [archive, if_pos hfails]

theorem archive_of_opens (hopens : x.opens r h files = true) :
    archive x r h files =
      if x.archiveFails then (files.write (partialArchive x r h), .error .filesystem)
      else match x.secondCheck with
        | none => (files.write (partialArchive x r h), .error .leaseCheck)
        | some false => (files.write (partialArchive x r h),
            .error (.leaseLost "backup lease was lost before final publication"))
        | some true => publish x r h (files.write (partialArchive x r h)) := by
  have hworks : ¬ (x.openFails || files.holds (r.archivePartial h)) = true := by
    simpa [Outside.opens, ← Bool.not_or] using hopens
  rw [archive]
  exact if_neg hworks

theorem archive_of_not_renames (hopens : x.opens r h files = true)
    (hrenames : x.renames = false) :
    ∃ e, archive x r h files = (files.write (partialArchive x r h), .error e) := by
  rw [Outside.renames] at hrenames
  rw [archive_of_opens hopens]
  cases harchive : x.archiveFails with
  | true => exact ⟨_, rfl⟩
  | false =>
      cases hcheck : x.secondCheck with
      | none => exact ⟨_, rfl⟩
      | some current =>
          cases current with
          | false => exact ⟨_, rfl⟩
          | true =>
              have hrename : x.renameFails = true := by
                simpa [harchive, hcheck] using hrenames
              exact ⟨.filesystem, by simp [publish, hrename]⟩

theorem archive_of_renames (hopens : x.opens r h files = true) (hrenames : x.renames = true) :
    archive x r h files =
      (prune ((files.write (partialArchive x r h)).rename (r.archivePartial h) (r.final h))
          r.outputDirectory (h.now - r.retentionDays * seconds 86400)
          ⟨x.pruneFails, x.archivedAt, [], x.pruned⟩,
        if x.pruneFails then .error .filesystem else .ok (r.final h)) := by
  simp only [Outside.renames, Bool.and_eq_true, Bool.not_eq_true', beq_iff_eq] at hrenames
  obtain ⟨⟨harchive, hcheck⟩, hrename⟩ := hrenames
  simp [archive_of_opens hopens, publish, harchive, hcheck, hrename]

theorem opens_write (n : Entry) (hn : n.path = r.staging h) :
    x.opens r h (files.write n) = x.opens r h files := by
  have hne : n.path ≠ r.archivePartial h := by
    rw [hn]
    exact r.staging_ne_archivePartial h
  rw [Outside.opens, Outside.opens, Files.holds, Files.holds, Files.write, Table.find_put,
    if_neg hne]

/-- The directory of the run, without its own names. -/
structure Fresh (r : Request) (h : Held) (files : Files) : Prop where
  distinct : files.Distinct
  staging : ∀ e ∈ files, e.path ≠ r.staging h

theorem Fresh.notMem (hfresh : Fresh r h files) {n : Entry} (hn : n.path = r.staging h) :
    n ∉ files :=
  fun hmem => hfresh.staging n hmem hn

/-- A run of which only these two entries can be left has published nothing when neither is. -/
theorem publishedNothing_iff {before after : Files} {n a : Entry} {p q : Prop}
    (hafter : ∀ e ∈ after, e ∈ before ∨ (e = n ∧ p) ∨ (e = a ∧ q)) (hn : p → n ∈ after)
    (ha : q → a ∈ after) (hnew : n ∉ before) (hnewa : q → a ∉ before)
    (hincomplete : n.isPartial = true) (hincompletea : a.isPartial = true) :
    PublishedNothing before after ↔ ¬ p ∧ ¬ q := by
  constructor
  · intro hnothing
    refine ⟨?_, ?_⟩
    · intro hp
      have hnone := (hnothing n (hn hp) hnew).2
      rw [hincomplete] at hnone
      cases hnone
    · intro hq
      have hnone := (hnothing a (ha hq) (hnewa hq)).2
      rw [hincompletea] at hnone
      cases hnone
  · rintro ⟨hp, hq⟩ e he hnotMem
    rcases hafter e he with hold | ⟨-, h⟩ | ⟨-, h⟩
    · exact absurd hold hnotMem
    · exact absurd h hp
    · exact absurd h hq

theorem notHeld_of_opens (hopens : x.opens r h files = true) :
    ∀ e ∈ files, e.path ≠ r.archivePartial h := by
  simp only [Outside.opens, Bool.and_eq_true, Bool.not_eq_true'] at hopens
  exact Files.holds_eq_false.mp hopens.2

theorem mem_renamed (hfresh : Fresh r h files) (hopens : x.opens r h files = true) {e : Entry} :
    e ∈ renamed x r h files ↔
      e = published x r h ∨ e = staged x r h ∨ (e ∈ files ∧ e.path ≠ r.final h) := by
  have hstaged := hfresh.distinct.write (staged x r h)
  have hincomplete : partialArchive x r h ∈
      (files.write (staged x r h)).write (partialArchive x r h) :=
    (Files.mem_write hstaged).mpr (Or.inl rfl)
  refine (Files.mem_rename (hstaged.write (partialArchive x r h)) hincomplete).trans
    (or_congr Iff.rfl ?_)
  rw [Files.mem_write hstaged, Files.mem_write hfresh.distinct]
  constructor
  · rintro ⟨rfl | ⟨rfl | ⟨he, -⟩, -⟩, hne, hfinal⟩
    · exact absurd rfl hne
    · exact Or.inl rfl
    · exact Or.inr ⟨he, hfinal⟩
  · rintro (rfl | ⟨he, hfinal⟩)
    · exact ⟨Or.inr ⟨Or.inl rfl, r.staging_ne_archivePartial h⟩,
        r.staging_ne_archivePartial h, r.staging_ne_final h⟩
    · have hne := notHeld_of_opens hopens e he
      exact ⟨Or.inr ⟨Or.inr ⟨he, hfresh.staging e he⟩, hne⟩, hne, hfinal⟩

theorem distinct_renamed (hfresh : Fresh r h files) : (renamed x r h files).Distinct :=
  ((hfresh.distinct.write _).write _).rename _ _

/-- A run that comes to the rename: what it leaves and what it returns. -/
theorem run_of_renames (hcreated : x.created r files = some h) (hfresh : Fresh r h files)
    (hdescribes : x.describes = true) (hopens : x.opens r h files = true)
    (hrenames : x.renames = true) :
    (run x r files).2 = (if x.pruneFails then .error .filesystem else .ok (r.final h)) ∧
      ∀ e, e ∈ (run x r files).1 ↔ e ∈ renamed x r h files ∧ e.path ∉ pruned x r h files ∧
        (x.stagingStays = true ∨ e.path ≠ r.staging h) := by
  obtain ⟨-, -, hrun⟩ := run_of_created_some hcreated
  have hopens' : x.opens r h (files.write (staged x r h)) = true :=
    (opens_write (staged x r h) rfl).trans hopens
  rw [hrun, stage_of_describes hdescribes, archive_of_renames hopens' hrenames]
  refine ⟨rfl, ?_⟩
  intro e
  rw [Files.mem_removeDeferred, Files.mem_removeDeferred, mem_prune]
  constructor
  · rintro ⟨⟨⟨he, hpruned⟩, -⟩, hstaging⟩
    exact ⟨he, hpruned, hstaging⟩
  · rintro ⟨he, hpruned, hstaging⟩
    refine ⟨⟨⟨he, hpruned⟩, Or.inr ?_⟩, hstaging⟩
    rcases (mem_renamed hfresh hopens).mp he with rfl | rfl | ⟨hold, -⟩
    · exact (r.archivePartial_ne_final h).symm
    · exact r.staging_ne_archivePartial h
    · exact notHeld_of_opens hopens e hold

/-- The staging directory is not pruned. -/
theorem staging_notMem_pruned (hfresh : Fresh r h files) (hopens : x.opens r h files = true) :
    r.staging h ∉ pruned x r h files := by
  have hstaged : staged x r h ∈ renamed x r h files :=
    (mem_renamed hfresh hopens).mpr (Or.inr (Or.inl rfl))
  have hnot : (staged x r h).path ∉ expiredArchives (renamed x r h files) r.outputDirectory
      (h.now - r.retentionDays * seconds 86400) := by
    rw [mem_expiredArchives (distinct_renamed hfresh) hstaged,
      r.staging_not_isArchive h (e := staged x r h) rfl]
    simp
  rw [pruned, prunedPaths]
  split
  · exact fun hmem => hnot (List.mem_of_mem_take hmem)
  · exact hnot

/-- A run whose pruning fails has published nothing when the archive is none that is new, or was
removed before the failure. -/
theorem publishedNothing_of_pruneFails (hcreated : x.created r files = some h)
    (hfresh : Fresh r h files) (hdescribes : x.describes = true)
    (hopens : x.opens r h files = true) (hrenames : x.renames = true) :
    PublishedNothing files (run x r files).1 ↔
      x.stagingStays = false ∧ (published x r h ∈ files ∨ r.final h ∈ pruned x r h files) := by
  obtain ⟨-, hafter⟩ := run_of_renames hcreated hfresh hdescribes hopens hrenames
  constructor
  · intro hnothing
    refine ⟨?_, ?_⟩
    · by_contra hstays
      have hmem : staged x r h ∈ (run x r files).1 :=
        (hafter _).mpr ⟨(mem_renamed hfresh hopens).mpr (Or.inr (Or.inl rfl)),
          staging_notMem_pruned hfresh hopens, Or.inl (by simpa using hstays)⟩
      have hnone := (hnothing _ hmem (hfresh.notMem rfl)).2
      rw [r.staging_isPartial h rfl] at hnone
      cases hnone
    · by_contra hnot
      rw [not_or] at hnot
      have hmem : published x r h ∈ (run x r files).1 :=
        (hafter _).mpr ⟨(mem_renamed hfresh hopens).mpr (Or.inl rfl), hnot.2,
          Or.inr (r.staging_ne_final h).symm⟩
      have hnone := (hnothing _ hmem hnot.1).1
      rw [r.final_isArchive h rfl] at hnone
      cases hnone
  · rintro ⟨hstays, hgone⟩ e he hnew
    obtain ⟨hrenamed, hpruned, hstaging⟩ := (hafter e).mp he
    rcases (mem_renamed hfresh hopens).mp hrenamed with rfl | rfl | ⟨hold, -⟩
    · exact absurd hgone (not_or.mpr ⟨hnew, hpruned⟩)
    · rw [hstays] at hstaging
      exact absurd rfl (hstaging.resolve_left (by simp))
    · exact absurd hold hnew

/-- Where pruning succeeds, the old archives are gone. -/
theorem mem_pruned_iff (hfresh : Fresh r h files) (hprune : x.pruneFails = false) {e : Entry}
    (he : e ∈ renamed x r h files) :
    e.path ∈ pruned x r h files ↔ e.path.directory = r.outputDirectory ∧ e.isArchive = true ∧
      e.modTime < h.now - r.retentionDays * seconds 86400 := by
  rw [pruned, prunedPaths, if_neg (by simp [hprune]),
    mem_expiredArchives (distinct_renamed hfresh) he]

/-- The entry of the final name after a run that succeeds. -/
theorem published_mem_iff (hcreated : x.created r files = some h) (hfresh : Fresh r h files)
    (hdescribes : x.describes = true) (hopens : x.opens r h files = true)
    (hrenames : x.renames = true) (hprune : x.pruneFails = false) {e : Entry}
    (hfinal : e.path = r.final h) :
    e ∈ (run x r files).1 ↔ e = published x r h ∧
      h.now - r.retentionDays * seconds 86400 ≤ x.archivedAt := by
  obtain ⟨-, hafter⟩ := run_of_renames hcreated hfresh hdescribes hopens hrenames
  have hnew : published x r h ∈ renamed x r h files := (mem_renamed hfresh hopens).mpr (Or.inl rfl)
  rw [hafter]
  constructor
  · rintro ⟨hrenamed, hstays, -⟩
    obtain rfl : e = published x r h := by
      rcases (mem_renamed hfresh hopens).mp hrenamed with heq | rfl | ⟨-, hne⟩
      · exact heq
      · exact absurd hfinal (r.staging_ne_final h)
      · exact absurd hfinal hne
    rw [mem_pruned_iff hfresh hprune hnew] at hstays
    refine ⟨rfl, ?_⟩
    by_contra hold
    exact hstays ⟨rfl, r.final_isArchive h rfl, not_le.mp hold⟩
  · rintro ⟨rfl, hlimit⟩
    refine ⟨hnew, ?_, Or.inr (r.staging_ne_final h).symm⟩
    rw [mem_pruned_iff hfresh hprune hnew]
    exact fun hold => absurd hold.2.2 (not_lt.mpr hlimit)

/-- A run that succeeds has published one archive when that is new, is not old, and replaces
none that is not old. -/
theorem publishedOne_iff (hcreated : x.created r files = some h) (hfresh : Fresh r h files)
    (hdescribes : x.describes = true) (hopens : x.opens r h files = true)
    (hrenames : x.renames = true) (hprune : x.pruneFails = false) :
    PublishedOne files (run x r files).1 (r.final h)
        (h.now - r.retentionDays * seconds 86400) ↔
      published x r h ∉ files ∧ h.now - r.retentionDays * seconds 86400 ≤ x.archivedAt ∧
        ∀ e ∈ files, e.path = r.final h →
          e.modTime < h.now - r.retentionDays * seconds 86400 := by
  obtain ⟨-, hafter⟩ := run_of_renames hcreated hfresh hdescribes hopens hrenames
  have hpublished {e : Entry} (hfinal : e.path = r.final h) :=
    published_mem_iff hcreated hfresh hdescribes hopens hrenames hprune hfinal
  constructor
  · rintro ⟨⟨n, hn, hpath, -, hnotMem, -⟩, hkept⟩
    obtain ⟨rfl, hlimit⟩ := (hpublished hpath).mp hn
    refine ⟨hnotMem, hlimit, ?_⟩
    intro e he hfinal
    refine hkept e he (r.final_isArchive h hfinal) ?_
    intro hmem
    obtain ⟨rfl, -⟩ := (hpublished hfinal).mp hmem
    exact hnotMem he
  · rintro ⟨hnotMem, hlimit, hreplaced⟩
    constructor
    · refine ⟨published x r h, (hpublished rfl).mpr ⟨rfl, hlimit⟩, rfl, r.final_isArchive h rfl,
        hnotMem, ?_⟩
      intro e he harchive hnone
      rcases (mem_renamed hfresh hopens).mp ((hafter e).mp he).1 with heq | rfl | ⟨hold, -⟩
      · exact heq
      · rw [r.staging_not_isArchive h rfl] at harchive
        cases harchive
      · exact absurd hold hnone
    · intro e he harchive hgone
      by_cases hfinal : e.path = r.final h
      · exact hreplaced e he hfinal
      · have hrenamed := (mem_renamed hfresh hopens).mpr (Or.inr (Or.inr ⟨he, hfinal⟩))
        by_contra hold
        refine hgone ((hafter e).mpr ⟨hrenamed, ?_, Or.inr (hfresh.staging e he)⟩)
        rw [mem_pruned_iff hfresh hprune hrenamed]
        exact fun hexpired => hold hexpired.2.2

/-- Of a run that does not come to write the archive the staging directory may be left. -/
theorem publishedNothing_staging (hfresh : Fresh r h files) {n : Entry}
    (hn : n.path = r.staging h) {after : Files}
    (hafter : ∀ e, e ∈ after ↔ e = n ∧ x.stagingStays = true ∨ e ∈ files ∧ e.path ≠ r.staging h ∧
      (x.describes = true → x.archiveStays = true ∨ e.path ≠ r.archivePartial h)) :
    PublishedNothing files after ↔ x.stagingStays = false := by
  refine (publishedNothing_iff (p := x.stagingStays = true) (q := False) (n := n)
    (a := partialArchive x r h) ?_ ?_ False.elim (hfresh.notMem hn) False.elim
    (r.staging_isPartial h hn) (r.archivePartial_isPartial h rfl)).trans (by simp)
  · intro e he
    rcases (hafter e).mp he with hleft | ⟨hold, -⟩
    · exact Or.inr (Or.inl hleft)
    · exact Or.inl hold
  · intro hstays
    exact (hafter n).mpr (Or.inl ⟨rfl, hstays⟩)

/-- A run that fails before the rename has published nothing when nothing of it is left. -/
theorem publishedNothing_of_not_renames (hcreated : x.created r files = some h)
    (hfresh : Fresh r h files)
    (hfails : (x.describes && x.opens r h files && x.renames) = false) :
    (∃ e, (run x r files).2 = .error e) ∧ (PublishedNothing files (run x r files).1 ↔
      x.stagingStays = false ∧
        ((x.describes && x.opens r h files) = true → x.archiveStays = false)) := by
  obtain ⟨-, -, hrun⟩ := run_of_created_some hcreated
  rw [hrun]
  cases hdescribes : x.describes with
  | false =>
      obtain ⟨error, n, hn, hstage⟩ : ∃ e n, n.path = r.staging h ∧
          stage x r h files = (files.write n, .error e) := stage_of_not_describes hdescribes
      rw [hstage]
      refine ⟨⟨error, rfl⟩, (publishedNothing_staging (x := x) hfresh hn ?_).trans (by simp)⟩
      intro e
      rw [Files.mem_removeDeferred, Files.mem_write hfresh.distinct, hdescribes, hn]
      constructor
      · rintro ⟨rfl | ⟨he, hne⟩, hstays⟩
        · exact Or.inl ⟨rfl, hstays.resolve_right (fun hne => hne hn)⟩
        · exact Or.inr ⟨he, hne, by simp⟩
      · rintro (⟨rfl, hstays⟩ | ⟨he, hne, -⟩)
        · exact ⟨Or.inl rfl, Or.inl hstays⟩
        · exact ⟨Or.inr ⟨he, hne⟩, Or.inr hne⟩
  | true =>
      rw [stage_of_describes hdescribes]
      cases hopens : x.opens r h files with
      | false =>
          rw [archive_of_not_opens ((opens_write (staged x r h) rfl).trans hopens)]
          refine ⟨⟨_, rfl⟩,
            (publishedNothing_staging (x := x) (n := staged x r h) hfresh rfl ?_).trans (by simp)⟩
          intro e
          rw [Files.mem_removeDeferred, Files.mem_removeDeferred, Files.mem_write hfresh.distinct,
            hdescribes]
          constructor
          · rintro ⟨⟨rfl | ⟨he, hne⟩, hincomplete⟩, hstays⟩
            · exact Or.inl ⟨rfl, hstays.resolve_right (fun hne => hne rfl)⟩
            · exact Or.inr ⟨he, hne, fun _ => hincomplete⟩
          · rintro (⟨rfl, hstays⟩ | ⟨he, hne, hincomplete⟩)
            · exact ⟨⟨Or.inl rfl, Or.inr (r.staging_ne_archivePartial h)⟩, Or.inl hstays⟩
            · exact ⟨⟨Or.inr ⟨he, hne⟩, hincomplete rfl⟩, Or.inr hne⟩
      | true =>
          have hrenames : x.renames = false := by simpa [hdescribes, hopens] using hfails
          obtain ⟨error, harchive⟩ := archive_of_not_renames
            ((opens_write (staged x r h) rfl).trans hopens) hrenames
          have hnew : partialArchive x r h ∉ files :=
            fun hmem => notHeld_of_opens hopens _ hmem rfl
          rw [harchive]
          refine ⟨⟨error, rfl⟩, (publishedNothing_iff (p := x.stagingStays = true)
            (q := x.archiveStays = true) (n := staged x r h) (a := partialArchive x r h) ?_ ?_ ?_
            (hfresh.notMem rfl) (fun _ => hnew) (r.staging_isPartial h rfl)
            (r.archivePartial_isPartial h rfl)).trans (by simp)⟩
          · intro e he
            rw [Files.mem_removeDeferred, Files.mem_removeDeferred,
              Files.mem_write (hfresh.distinct.write _), Files.mem_write hfresh.distinct] at he
            obtain ⟨⟨rfl | ⟨rfl | ⟨he, -⟩, -⟩, hincomplete⟩, hstays⟩ := he
            · exact Or.inr (Or.inr ⟨rfl, hincomplete.resolve_right (fun hne => hne rfl)⟩)
            · exact Or.inr (Or.inl ⟨rfl, hstays.resolve_right (fun hne => hne rfl)⟩)
            · exact Or.inl he
          · intro hstays
            rw [Files.mem_removeDeferred, Files.mem_removeDeferred,
              Files.mem_write (hfresh.distinct.write _), Files.mem_write hfresh.distinct]
            exact ⟨⟨Or.inr ⟨Or.inl rfl, r.staging_ne_archivePartial h⟩,
              Or.inr (r.staging_ne_archivePartial h)⟩, Or.inl hstays⟩
          · intro hstays
            rw [Files.mem_removeDeferred, Files.mem_removeDeferred,
              Files.mem_write (hfresh.distinct.write _)]
            exact ⟨⟨Or.inl rfl, Or.inl hstays⟩, Or.inr (r.staging_ne_archivePartial h).symm⟩

/-- A run that succeeds has gone all the way. -/
theorem of_run_eq_ok (hfiles : files.Distinct) {path : Path} (hrun : (run x r files).2 = .ok path) :
    ∃ h, x.created r files = some h ∧ Fresh r h files ∧ x.describes = true ∧
      x.opens r h files = true ∧ x.renames = true ∧ x.pruneFails = false ∧ path = r.final h := by
  cases hcreated : x.created r files with
  | none =>
      obtain ⟨error, hfails⟩ := run_of_created_none hcreated
      rw [hfails] at hrun
      cases hrun
  | some h =>
      obtain ⟨hstaging, -, -⟩ := run_of_created_some hcreated
      have hfresh : Fresh r h files := ⟨hfiles, Files.holds_eq_false.mp hstaging⟩
      cases hrenames : x.describes && x.opens r h files && x.renames with
      | false =>
          obtain ⟨⟨error, hfails⟩, -⟩ := publishedNothing_of_not_renames hcreated hfresh hrenames
          rw [hfails] at hrun
          cases hrun
      | true =>
          simp only [Bool.and_eq_true] at hrenames
          obtain ⟨⟨hdescribes, hopens⟩, hrenames⟩ := hrenames
          rw [(run_of_renames hcreated hfresh hdescribes hopens hrenames).1] at hrun
          cases hprune : x.pruneFails with
          | true => simp [hprune] at hrun
          | false =>
              simp only [hprune, Bool.false_eq_true, if_false, Except.ok.injEq] at hrun
              exact ⟨h, rfl, hfresh, hdescribes, hopens, hrenames, rfl, hrun.symm⟩

end Runner

/-- The files of an output directory. -/
structure Directory where
  entries : Files
  distinct : entries.Distinct

def Request.limit (r : Request) (now : Int) : Int := now - r.retentionDays * seconds 86400

/-- An error has published nothing, and a success one archive. -/
def Clean (x : Outside) (r : Request) (d : Directory) : Prop :=
  match (Runner.run x r d.entries).2 with
  | .error _ => PublishedNothing d.entries (Runner.run x r d.entries).1
  | .ok path => PublishedOne d.entries (Runner.run x r d.entries).1 path (r.limit x.now)

/-- A run that has created its staging directory either fails before the rename, and the
deferred removals succeed; or its pruning fails, when it had removed the new archive or this
replaced the very same; or it succeeds with an archive that is new, is not old, and replaces none
that is not old. -/
def CleanWhen (x : Outside) (r : Request) (d : Directory) : Prop :=
  ∀ h, x.created r d.entries = some h →
    if (x.describes && x.opens r h d.entries && x.renames) = false then
      x.stagingStays = false ∧
        ((x.describes && x.opens r h d.entries) = true → x.archiveStays = false)
    else if x.pruneFails then
      x.stagingStays = false ∧ (Runner.published x r h ∈ d.entries ∨
        r.final h ∈ Runner.pruned x r h d.entries)
    else
      Runner.published x r h ∉ d.entries ∧ r.limit x.now ≤ x.archivedAt ∧
        ∀ e ∈ d.entries, e.path = r.final h → e.modTime < r.limit x.now

theorem clean_iff (x : Outside) (r : Request) (d : Directory) : Clean x r d ↔ CleanWhen x r d := by
  cases hcreated : x.created r d.entries with
  | none =>
      obtain ⟨error, hrun⟩ := Runner.run_of_created_none hcreated
      have hclean : Clean x r d := by
        rw [Clean, hrun]
        exact fun e he hnew => absurd he hnew
      simp [hclean, CleanWhen, hcreated]
  | some h =>
      obtain ⟨hstaging, hnow, -⟩ := Runner.run_of_created_some hcreated
      have hfresh : Runner.Fresh r h d.entries := ⟨d.distinct, Files.holds_eq_false.mp hstaging⟩
      simp only [CleanWhen, hcreated, Option.some.injEq, forall_eq']
      split
      · rename_i hfails
        obtain ⟨⟨error, hresult⟩, hiff⟩ :=
          Runner.publishedNothing_of_not_renames hcreated hfresh hfails
        rw [Clean, hresult]
        exact hiff
      · rename_i hrenames
        simp only [Bool.not_eq_false, Bool.and_eq_true] at hrenames
        obtain ⟨⟨hdescribes, hopens⟩, hrenames⟩ := hrenames
        have hresult := (Runner.run_of_renames hcreated hfresh hdescribes hopens hrenames).1
        cases hprune : x.pruneFails with
        | true =>
            rw [hprune] at hresult
            rw [Clean, hresult]
            exact Runner.publishedNothing_of_pruneFails hcreated hfresh hdescribes hopens hrenames
        | false =>
            rw [hprune] at hresult
            rw [Clean, hresult, Request.limit, ← hnow]
            exact Runner.publishedOne_iff hcreated hfresh hdescribes hopens hrenames hprune

/-- Everything succeeds up to the rename, and then the directory cannot be read. -/
def unreadable : Outside where
  configured := true
  acquire := .ok ⟨1, 0⟩
  mkdirAllFails := false
  now := seconds 1784721600
  mkdirFails := false
  stagedAt := seconds 1784721600
  dump := []
  dumpFails := false
  manifestFails := false
  firstCheck := some true
  openFails := false
  archive := []
  archivedAt := seconds 1784721600
  archiveFails := false
  secondCheck := some true
  renameFails := false
  pruneFails := true
  pruned := 0
  archiveStays := false
  stagingStays := false

theorem unreadable_not_clean :
    ¬ Clean unreadable ⟨"framework", "/var/backups/nodescope", modeDefault, 10⟩ ⟨[], .nil⟩ := by
  have hcreated : unreadable.created ⟨"framework", "/var/backups/nodescope", modeDefault, 10⟩ [] =
      some ⟨⟨1, 0⟩, 0, seconds 1784721600, 0⟩ := by
    decide
  have hfresh : Runner.Fresh ⟨"framework", "/var/backups/nodescope", modeDefault, 10⟩
      ⟨⟨1, 0⟩, 0, seconds 1784721600, 0⟩ [] := ⟨.nil, fun _ he => nomatch he⟩
  intro hclean
  have hnothing := (Runner.publishedNothing_of_pruneFails hcreated hfresh rfl rfl rfl).mp hclean
  rcases hnothing.2 with hmem | hmem
  · cases hmem
  · simp [Runner.pruned, prunedPaths, unreadable] at hmem

end NodeScope.Backup
