import NodeScope.Lib.Decimal
import NodeScope.Update.Release

/-!
# What staging a release leaves behind

A call that stores an archive either places the binary of its entry or leaves the archive where it
is. `onlyVerified_iff` says when nothing but a verified binary is staged: the first field of the
checksum may be cut off by the limit on its response, and the staged path may be the name of the
archive itself. `staysInside_iff` says when a call stays inside the stage directory and cleans up:
the version is joined into the path unchecked, and no failure after the archive was stored removes
it.
-/

namespace NodeScope.Update

open Lib Lib.Check Lib.Text Lib.Path Lib.Reader
open Telemetry (hexByte hexEncode)
open Lib.ByteText (hexDecode hexEqualFold hexDecode_map_lower hexDecode_congr hexDecode_eq_some)

section Conditions

/-- The content that is stored of an archive, if nothing about its download fails. -/
def downloaded (env : StageEnv) (client : Downloader) (url : Bytes) : Option Bytes := do
  let _ ← Url.parse url
  let response ← client.archive
  if response.statusCode == 200 && (response.body.readLimited archiveLimit).2 == .eof &&
      !env.fails.copyArchive && !env.fails.closeArchive then
    some (response.body.readLimited archiveLimit).1
  else none

/-- Nothing fails from the partial file of an entry on. -/
def placeable (env : StageEnv) (entry : TarEntry) : Bool :=
  entry.body.ending == .eof && !env.fails.createPartial && !env.fails.copyPartial &&
    !env.fails.closePartial && !env.fails.rename

/-- The binary that is staged from an archive, if nothing after its download fails. -/
def stageable (env : StageEnv) (artifact : Artifact) (checksum content : Bytes) : Option Bytes :=
  if env.fails.hashArchive ||
      !hexEqualFold checksum (utf8 (hexEncode (Sha256.sha256 content).toList)) ||
      env.fails.openArchive then none
  else
    (env.untar content).bind fun contents =>
      (contents.entries.find? fun entry => entry.name == artifact.binaryName).bind fun entry =>
        if entry.valid && placeable env entry then some entry.body.content else none

/-- A call whose archive is stored: its checksum, the name of the archive and its content. -/
structure Stores (env : StageEnv) (client : Option Downloader) (artifact : Artifact)
    (stageDirectory : Bytes) (disk : Disk) (checksum name content : Bytes) : Prop where
  exists_client : ∃ downloader,
    prepare env client artifact stageDirectory = .ok (downloader, checksum) ∧
      downloaded env downloader artifact.archiveURL = some content
  created : createTemp env stageDirectory disk = some name

/-- The archive as far as it is stored. -/
def archiveResponse (client : Option Downloader) : Bytes :=
  ((client.bind Downloader.archive).map fun response =>
    response.body.content.take archiveLimit).getD []

/-- The response that names the checksum, as far as it arrives. -/
def checksumResponse (client : Option Downloader) : Bytes :=
  ((client.bind Downloader.checksum).map fun response => response.body.content).getD []

def firstField (text : Bytes) : Option Bytes := (ByteText.fields text).head?

end Conditions

section Hex

theorem utf8_ofList (l : List Char) :
    utf8 (String.ofList l) = l.flatMap fun c => utf8 (String.singleton c) := by
  induction l with
  | nil => exact utf8_empty
  | cons c rest ih =>
      rw [List.flatMap_cons, ← ih, ← utf8_append]
      congr 1
      apply String.toList_inj.mp
      simp

theorem hexDecode_hexEncode (b : Bytes) : hexDecode (utf8 (hexEncode b)) = some b := by
  have hdigit : ∀ n < 16, ∃ x, utf8 (String.singleton (Nat.digitChar n)) = [x] ∧
      Url.hexValue x = some (UInt8.ofNat n) := by
    have hall : ∀ n < 16, ∃ x ∈ (utf8 "0123456789abcdef"),
        utf8 (String.singleton (Nat.digitChar n)) = [x] ∧
          Url.hexValue x = some (UInt8.ofNat n) := by decide
    intro n hn
    obtain ⟨x, -, hx⟩ := hall n hn
    exact ⟨x, hx⟩
  rw [hexEncode, utf8_ofList]
  induction b with
  | nil => rfl
  | cons c rest ih =>
      have hc : c.toNat < 256 := c.toNat_lt
      obtain ⟨high, hhigh, hhigh'⟩ := hdigit (c.toNat / 16) (by omega)
      obtain ⟨low, hlow, hlow'⟩ := hdigit (c.toNat % 16) (by omega)
      have hcombine : UInt8.ofNat (c.toNat / 16) * 16 + UInt8.ofNat (c.toNat % 16) = c := by
        apply UInt8.toNat_inj.mp
        simp only [UInt8.toNat_add, UInt8.toNat_mul, UInt8.toNat_ofNat', UInt8.reduceToNat]
        omega
      rw [List.flatMap_cons, List.flatMap_append, hexByte, List.flatMap_cons, List.flatMap_cons,
        List.flatMap_nil, hhigh, hlow, List.append_nil]
      simp only [List.cons_append, List.nil_append]
      rw [hexDecode, hhigh', hlow', ih]
      simp [hcombine]

end Hex

section Checksum

theorem readLimited_fst (s : Source) (limit : Nat) :
    (s.readLimited limit).1 = s.content.take limit := by
  rw [Source.readLimited]
  split
  · rfl
  · next h => exact (List.take_of_length_le (not_le.mp h).le).symm

/-- A checksum is the first field of the beginning of its response, and consists of digits. -/
theorem fetchChecksum_ok {client : Downloader} {url checksum : Bytes}
    (h : fetchChecksum client url = .ok checksum) :
    ∃ response field, client.checksum = some response ∧
      firstField (response.body.content.take checksumLimit) = some field ∧
      field.length = 64 ∧ checksum = field.map Url.lower ∧ ∃ digest, hexDecode field = some digest := by
  rw [fetchChecksum, orFail_bind_eq_ok] at h
  obtain ⟨u, -, h⟩ := h
  rw [orFail_bind_eq_ok] at h
  obtain ⟨response, hresponse, h⟩ := h
  rw [unit_bind_eq_ok] at h
  obtain ⟨-, h⟩ := h
  dsimp only at h
  rw [unit_bind_eq_ok, orFail_bind_eq_ok] at h
  obtain ⟨-, field, hfield, h⟩ := h
  rw [unit_bind_eq_ok, failIf_eq_ok, orFail_bind_eq_ok] at h
  obtain ⟨hlength, digest, hdigest, h⟩ := h
  rw [readLimited_fst] at hfield
  cases h
  exact ⟨response, field, hresponse, hfield, by simpa using hlength, rfl, digest, hdigest⟩

theorem prepare_ok {env : StageEnv} {client : Option Downloader} {artifact : Artifact}
    {stageDirectory checksum : Bytes} {downloader : Downloader}
    (h : prepare env client artifact stageDirectory = .ok (downloader, checksum)) :
    client = some downloader ∧ stageDirectory ≠ [] ∧
      fetchChecksum downloader artifact.checksumURL = .ok checksum := by
  rw [prepare, bind_eq_ok] at h
  obtain ⟨d, hcheck, h⟩ := h
  rw [bind_eq_ok] at h
  obtain ⟨c, hfetch, h⟩ := h
  cases h
  rw [checkArtifact, orFail_bind_eq_ok] at hcheck
  obtain ⟨d', hclient, hcheck⟩ := hcheck
  simp only [unit_bind_eq_ok, failIf_eq_ok, Bool.or_eq_false_iff, beq_eq_false_iff_ne] at hcheck
  obtain ⟨-, -, -, ⟨-, hdirectory⟩, hcheck⟩ := hcheck
  cases hcheck
  exact ⟨hclient, hdirectory, hfetch⟩

/-- The field that is compared begins the first field of the whole response. -/
theorem firstField_take {text field : Bytes} {limit : Nat} {digest : Bytes}
    (h : firstField (text.take limit) = some field) (hne : field ≠ [])
    (hdigest : hexDecode field = some digest) :
    ∃ rest, firstField text = some (field ++ rest) := by
  have := ByteText.fields_head_append h hne (hexDecode_eq_some hdigest).2 (text.drop limit)
  rwa [List.take_append_drop] at this

/-- The whole first field denotes a digest of the same length only if it is the field that is
compared. -/
theorem firstField_bind_eq_iff {text field digest other : Bytes} {limit : Nat}
    (h : firstField (text.take limit) = some field) (hlength : field.length = 64)
    (hdigest : hexDecode field = some digest) (hother : other.length = 32) :
    (firstField text).bind hexDecode = some other ↔
      firstField text = firstField (text.take limit) ∧ digest = other := by
  have hne : field ≠ [] := by
    rintro rfl
    cases hlength
  obtain ⟨rest, hrest⟩ := firstField_take h hne hdigest
  rw [h, hrest, Option.bind_some]
  constructor
  · intro hwhole
    have hlong := (hexDecode_eq_some hwhole).1
    rw [List.length_append] at hlong
    obtain rfl : rest = [] := List.length_eq_zero_iff.mp (by omega)
    rw [List.append_nil] at hwhole ⊢
    rw [hdigest] at hwhole
    exact ⟨rfl, Option.some.inj hwhole⟩
  · rintro ⟨hsame, rfl⟩
    obtain rfl : rest = [] := by simpa using hsame
    rwa [List.append_nil]

end Checksum

section Effects

def releaseName (random : UInt32) : Bytes :=
  utf8 "release-" ++ utf8 (toString random.toNat) ++ utf8 ".tar.gz"

theorem slash_not_mem_decimal (n : Nat) : slash ∉ utf8 (toString n) := by
  intro hslash
  have hdigit : Url.isDigit slash = true := Decimal.isDigit_of_mem_itoa hslash
  exact absurd hdigit (by decide)

theorem slash_not_mem_releaseName (random : UInt32) : slash ∉ releaseName random := by
  have hfixed : slash ∉ utf8 "release-" ∧ slash ∉ utf8 ".tar.gz" := by decide
  rw [releaseName, List.mem_append, List.mem_append, not_or, not_or]
  exact ⟨⟨hfixed.1, slash_not_mem_decimal _⟩, hfixed.2⟩

/-- The archive is a direct child of the stage directory. -/
theorem resolve_tempName {directory : Bytes} (hne : directory ≠ []) (cwd : Location)
    (random : UInt32) :
    resolve cwd (tempName directory random) = resolve cwd directory ++ [releaseName random] := by
  have hplain : plain (releaseName random) = true := by
    have hlength : (utf8 "release-").length = 8 := by decide
    apply plain_of_length
    rw [releaseName, List.length_append, List.length_append, hlength]
    omega
  have hslash := slash_not_mem_releaseName random
  rw [tempName, ← releaseName]
  by_cases hlast : (directory.getLast? == some slash) = true
  · obtain ⟨before, rfl⟩ := List.getLast?_eq_some_iff.mp (eq_of_beq hlast)
    rw [if_pos hlast]
    exact resolve_name hslash hplain cwd
  · rw [if_neg hlast, resolve_name hslash hplain, resolve_slash hne]

theorem createTemp_some {env : StageEnv} {directory : Bytes} {disk : Disk} {name : Bytes}
    (h : createTemp env directory disk = some name) :
    (∃ random, name = tempName directory random) ∧ disk (resolve env.cwd name) = none := by
  rw [createTemp] at h
  split at h
  · cases h
  · have hmem := List.mem_of_find?_eq_some h
    obtain ⟨random, -, rfl⟩ := List.mem_map.mp hmem
    have hfree := List.find?_some h
    exact ⟨⟨random, rfl⟩, by simpa using hfree⟩

/-- The partial file is neither the archive nor the staged one. -/
theorem resolve_partialPath_ne {directory : Bytes} (hne : directory ≠ []) (cwd : Location)
    (random : UInt32) (destination : Bytes) :
    resolve cwd (partialPath destination) ≠ resolve cwd (tempName directory random) := by
  have hslash : slash ∉ utf8 ".partial" := by decide
  obtain ⟨d, last, hpartial⟩ := resolve_append_last hslash (by decide) cwd destination
  rw [resolve_tempName hne, partialPath, hpartial]
  intro heq
  obtain ⟨-, hname⟩ := List.append_inj' heq rfl
  have hend := congrArg List.getLast? (List.cons.inj hname).1
  have hl : (utf8 ".partial").getLast? = some 0x6c := by decide
  have hz : (utf8 ".tar.gz").getLast? = some 0x7a := by decide
  rw [releaseName, List.getLast?_append, List.getLast?_append, hl, hz] at hend
  simp at hend

/-- An archive is stored under the first free name, or the disk is as it was. -/
theorem fetchArchive_spec (env : StageEnv) (client : Downloader) (url directory : Bytes)
    (disk : Disk) :
    (∃ content name, downloaded env client url = some content ∧
      createTemp env directory disk = some name ∧
      fetchArchive env client url directory disk =
        (.ok name, Work.put ⟨disk, []⟩ (resolve env.cwd name) content)) ∨
      (∀ content name, downloaded env client url = some content →
        createTemp env directory disk ≠ some name) ∧
      ∃ e touched, fetchArchive env client url directory disk = (.error e, ⟨disk, touched⟩) ∧
        ∀ file ∈ touched, ∃ name, createTemp env directory disk = some name ∧
          file = resolve env.cwd name := by
  rw [fetchArchive, downloaded]
  cases hurl : Url.parse url with
  | none => exact Or.inr ⟨nofun, .newRequest, [], rfl, nofun⟩
  | some u =>
      cases hresponse : client.archive with
      | none => exact Or.inr ⟨nofun, .downloadArchive, [], rfl, nofun⟩
      | some response =>
          by_cases hstatus : response.statusCode = 200
          · cases hcreate : createTemp env directory disk with
            | none => exact Or.inr ⟨nofun, .createArchive, [], by simp [hstatus], nofun⟩
            | some name =>
                obtain ⟨-, hfree⟩ := createTemp_some hcreate
                -- A file that is removed again leaves the disk as it was.
                have hgone (content : Bytes) :
                    (Work.put ⟨disk, []⟩ (resolve env.cwd name) content).remove
                      (resolve env.cwd name) = ⟨disk, [resolve env.cwd name]⟩ := by
                  simp only [Work.put, Work.remove, Function.update_idem, List.nil_append]
                  rw [← hfree, Function.update_eq_self]
                have htouched : ∀ file ∈ [resolve env.cwd name],
                    ∃ name', some name = some name' ∧ file = resolve env.cwd name' := by
                  intro file hfile
                  exact ⟨name, rfl, List.mem_singleton.mp hfile⟩
                by_cases hcopy : ((response.body.readLimited archiveLimit).2 == .failed ||
                    env.fails.copyArchive) = true
                · refine Or.inr ⟨?_, .copyArchive, _, ?_, htouched⟩
                  · rw [Bool.or_eq_true, beq_iff_eq] at hcopy
                    obtain h | h := hcopy <;> simp [h]
                  · simp [hstatus, hcopy, hgone]
                · by_cases hclose : env.fails.closeArchive = true
                  · refine Or.inr ⟨by simp [hclose], .closeArchive, _, ?_, htouched⟩
                    simp [hstatus, hcopy, hclose, hgone]
                  · refine Or.inl ⟨(response.body.readLimited archiveLimit).1, name, ?_, rfl, ?_⟩
                    · rw [Bool.or_eq_true, not_or, beq_iff_eq] at hcopy
                      have hending : (response.body.readLimited archiveLimit).2 = .eof := by
                        cases h : (response.body.readLimited archiveLimit).2 with
                        | eof => rfl
                        | failed => exact absurd h hcopy.1
                      simp [hstatus, hending, hcopy.2, hclose]
                    · simp [hstatus, hcopy, hclose]
          · refine Or.inr ⟨by simp [hstatus], .archiveStatus response.statusCode, [], ?_, nofun⟩
            simp [hstatus]

theorem TarEntry.readLimited (entry : TarEntry) :
    entry.body.readLimited (entry.size + 1).toNat = (entry.body.content, entry.body.ending) := by
  have hbounded := entry.bounded
  rw [Source.readLimited, if_neg (by omega)]
  rfl

/-- The disk with the binary in its place and no partial file. -/
def placed (env : StageEnv) (destination binary : Bytes) (w : Work) : Work :=
  ⟨Function.update (Function.update w.disk (resolve env.cwd (partialPath destination)) none)
      (resolve env.cwd destination) (some binary),
    w.touched ++ [resolve env.cwd (partialPath destination), resolve env.cwd destination]⟩

/-- Only the partial file may differ. -/
def SameBut (file : Location) (before after : Disk) : Prop := ∀ l, l ≠ file → after l = before l

theorem placeEntry_spec (env : StageEnv) (entry : TarEntry) (destination : Bytes) (w : Work) :
    if placeable env entry = true then
      placeEntry env entry destination w = (.ok (), placed env destination entry.body.content w)
    else ∃ e w', placeEntry env entry destination w = (.error e, w') ∧
      SameBut (resolve env.cwd (partialPath destination)) w.disk w'.disk := by
  have hput : SameBut (resolve env.cwd (partialPath destination)) w.disk
      (w.put (resolve env.cwd (partialPath destination)) entry.body.content).disk :=
    fun l hl => Function.update_of_ne hl _ _
  have hremove : SameBut (resolve env.cwd (partialPath destination)) w.disk
      ((w.put (resolve env.cwd (partialPath destination)) entry.body.content).remove
        (resolve env.cwd (partialPath destination))).disk := fun l hl => by
    simp only [Work.put, Work.remove, Function.update_idem, Function.update_of_ne hl]
  rw [placeEntry, entry.readLimited, placeable]
  cases hcreate : env.fails.createPartial with
  | true =>
      rw [if_neg (by simp)]
      exact ⟨.createPartial, w, rfl, fun _ _ => rfl⟩
  | false =>
      by_cases hcopy : (entry.body.ending == .failed || env.fails.copyPartial) = true
      · rw [if_neg ?_]
        · exact ⟨.copyPartial, _, by simp [hcopy], hremove⟩
        · rw [Bool.or_eq_true, beq_iff_eq] at hcopy
          obtain h | h := hcopy <;> simp [h]
      · have hending : entry.body.ending = .eof ∧ env.fails.copyPartial = false := by
          rw [Bool.or_eq_true, not_or, beq_iff_eq] at hcopy
          cases h : entry.body.ending with
          | eof => exact ⟨rfl, by simpa using hcopy.2⟩
          | failed => exact absurd h hcopy.1
        cases hclose : env.fails.closePartial with
        | true =>
            rw [if_neg (by simp)]
            exact ⟨.closePartial, _, by simp [hcopy], hremove⟩
        | false =>
            cases hrename : env.fails.rename with
            | true =>
                rw [if_neg (by simp)]
                exact ⟨.rename, _, by simp [hcopy], hput⟩
            | false =>
                rw [if_pos (by simp [hending])]
                simp [hcopy, Work.put, Work.rename, placed]

variable {env : StageEnv} {artifact : Artifact} {stageDirectory checksum archive content : Bytes}
  {w : Work}

theorem stageable_some {binary : Bytes}
    (h : stageable env artifact checksum content = some binary) :
    ∃ contents entry, env.untar content = some contents ∧
      contents.entries.find? (fun entry => entry.name == artifact.binaryName) = some entry ∧
      entry.valid = true ∧ entry.body.content = binary ∧ (binary.length : Int) = entry.size ∧
      hexEqualFold checksum (utf8 (hexEncode (Sha256.sha256 content).toList)) = true := by
  rw [stageable] at h
  split at h
  · cases h
  · next hfails =>
      simp only [Bool.or_eq_true, not_or, Bool.not_eq_true', Bool.not_eq_false] at hfails
      rw [Option.bind_eq_some_iff] at h
      obtain ⟨contents, hcontents, h⟩ := h
      rw [Option.bind_eq_some_iff] at h
      obtain ⟨entry, hentry, h⟩ := h
      split at h
      · next hplace =>
          simp only [placeable, Bool.and_eq_true, beq_iff_eq] at hplace
          cases h
          exact ⟨contents, entry, hcontents, hentry, hplace.1, rfl,
            entry.complete hplace.2.1.1.1.1, hfails.1.2⟩
      · cases h

/-- What follows once an archive is stored: the binary is placed, or the call fails and changes
nothing but the partial file. -/
theorem stageArchive_spec (hstored : w.disk (resolve env.cwd archive) = some content) :
    match stageable env artifact checksum content with
    | some binary => ∃ observed,
        stageArchive env artifact stageDirectory checksum archive w =
          (.ok ⟨stagedPath artifact stageDirectory, observed, archive⟩,
            placed env (stagedPath artifact stageDirectory) binary w)
    | none => ∃ e w', stageArchive env artifact stageDirectory checksum archive w = (.error e, w') ∧
        SameBut (resolve env.cwd (partialPath (stagedPath artifact stageDirectory))) w.disk
          w'.disk := by
  have hunchanged (file : Location) : SameBut file w.disk w.disk := fun _ _ => rfl
  rw [stageArchive, fileSHA256, hstored, stageable]
  cases hhash : env.fails.hashArchive with
  | true => exact ⟨.hashArchive, w, rfl, hunchanged _⟩
  | false =>
      cases hfold : hexEqualFold checksum (utf8 (hexEncode (Sha256.sha256 content).toList)) with
      | false => exact ⟨.checksumMismatch, w, by simp [failIf, orFail, hfold], hunchanged _⟩
      | true =>
          simp only [failIf, orFail, Bool.false_eq_true, if_false, ok_bind, hfold, Bool.not_true,
            Bool.or_false, Bool.false_or, extractBinary, hstored]
          cases hopen : env.fails.openArchive with
          | true => exact ⟨.openArchive, w, rfl, hunchanged _⟩
          | false =>
              simp only [Bool.false_eq_true, if_false]
              cases huntar : env.untar content with
              | none => exact ⟨.gunzip, w, rfl, hunchanged _⟩
              | some contents =>
                  simp only [Option.bind_some]
                  cases hentry : contents.entries.find? fun entry =>
                      entry.name == artifact.binaryName with
                  | none => exact ⟨_, w, rfl, hunchanged _⟩
                  | some entry =>
                      simp only [Option.bind_some]
                      cases hvalid : entry.valid with
                      | false => exact ⟨.invalidEntry, w, rfl, hunchanged _⟩
                      | true =>
                          have hplace := placeEntry_spec env entry
                            (stagedPath artifact stageDirectory) w
                          split at hplace
                          · next h =>
                              simp only [h, Bool.and_self, if_true, Bool.not_true,
                                Bool.false_eq_true, if_false, hplace]
                              exact ⟨_, rfl⟩
                          · next h =>
                              obtain ⟨e, w', hplace, hsame⟩ := hplace
                              simp only [h, Bool.and_false, Bool.not_true, Bool.false_eq_true,
                                if_false, hplace]
                              exact ⟨e, w', rfl, hsame⟩

end Effects

section Calls

variable {env : StageEnv} {client : Option Downloader} {artifact : Artifact}
  {stageDirectory : Bytes} {disk : Disk} {checksum name content : Bytes}

/-- The file is in the directory, and not in one below it. -/
def IsChild (env : StageEnv) (directory : Bytes) (file : Location) : Prop :=
  ∃ name, file = resolve env.cwd directory ++ [name]

theorem Stores.unique {checksum' name' content' : Bytes}
    (h : Stores env client artifact stageDirectory disk checksum name content)
    (h' : Stores env client artifact stageDirectory disk checksum' name' content') :
    checksum' = checksum ∧ name' = name ∧ content' = content := by
  obtain ⟨downloader, hprepare, hcontent⟩ := h.exists_client
  obtain ⟨downloader', hprepare', hcontent'⟩ := h'.exists_client
  rw [hprepare] at hprepare'
  cases hprepare'
  rw [hcontent] at hcontent'
  have hname := h.created
  rw [h'.created] at hname
  cases hname
  cases hcontent'
  exact ⟨rfl, rfl, rfl⟩

theorem Stores.stageDirectory_ne
    (h : Stores env client artifact stageDirectory disk checksum name content) :
    stageDirectory ≠ [] := by
  obtain ⟨downloader, hprepare, -⟩ := h.exists_client
  exact (prepare_ok hprepare).2.1

theorem isChild_createTemp (hne : stageDirectory ≠ [])
    (h : createTemp env stageDirectory disk = some name) :
    IsChild env stageDirectory (resolve env.cwd name) := by
  obtain ⟨⟨random, rfl⟩, -⟩ := createTemp_some h
  exact ⟨releaseName random, resolve_tempName hne env.cwd random⟩

/-- The partial file is not the archive. -/
theorem Stores.partialPath_ne
    (h : Stores env client artifact stageDirectory disk checksum name content)
    (destination : Bytes) :
    resolve env.cwd (partialPath destination) ≠ resolve env.cwd name := by
  obtain ⟨⟨random, rfl⟩, -⟩ := createTemp_some h.created
  exact resolve_partialPath_ne h.stageDirectory_ne env.cwd random destination

theorem Stores.archiveResponse_eq
    (h : Stores env client artifact stageDirectory disk checksum name content) :
    archiveResponse client = content := by
  obtain ⟨downloader, hprepare, hcontent⟩ := h.exists_client
  obtain ⟨rfl, -, -⟩ := prepare_ok hprepare
  simp only [downloaded, Option.bind_eq_bind, Option.bind_eq_some_iff] at hcontent
  obtain ⟨u, -, response, hresponse, hcontent⟩ := hcontent
  split at hcontent
  · rw [readLimited_fst] at hcontent
    cases hcontent
    simp [archiveResponse, hresponse]
  · cases hcontent

theorem Stores.checksum_eq
    (h : Stores env client artifact stageDirectory disk checksum name content) :
    ∃ field digest, firstField ((checksumResponse client).take checksumLimit) = some field ∧
      field.length = 64 ∧ hexDecode field = some digest ∧ hexDecode checksum = some digest := by
  obtain ⟨downloader, hprepare, -⟩ := h.exists_client
  obtain ⟨rfl, -, hfetch⟩ := prepare_ok hprepare
  obtain ⟨response, field, hresponse, hfield, hlength, rfl, digest, hdigest⟩ := fetchChecksum_ok hfetch
  refine ⟨field, digest, ?_, hlength, hdigest, by rw [hexDecode_map_lower, hdigest]⟩
  rwa [checksumResponse, Option.bind_some, hresponse]

/-- The disk once the archive is stored. -/
def storedWork (env : StageEnv) (disk : Disk) (name content : Bytes) : Work :=
  Work.put ⟨disk, []⟩ (resolve env.cwd name) content

theorem downloadAndStage_cases (env : StageEnv) (client : Option Downloader) (artifact : Artifact)
    (stageDirectory : Bytes) (disk : Disk) :
    (∃ checksum name content, Stores env client artifact stageDirectory disk checksum name content ∧
      downloadAndStage env client artifact stageDirectory disk =
        stageArchive env artifact stageDirectory checksum name (storedWork env disk name content)) ∨
      (∀ checksum name content,
        ¬ Stores env client artifact stageDirectory disk checksum name content) ∧
      ∃ e touched, downloadAndStage env client artifact stageDirectory disk =
          (.error e, ⟨disk, touched⟩) ∧ ∀ file ∈ touched, IsChild env stageDirectory file := by
  rw [downloadAndStage]
  cases hprepare : prepare env client artifact stageDirectory with
  | error e =>
      refine Or.inr ⟨?_, e, [], rfl, nofun⟩
      rintro checksum name content ⟨⟨downloader, h, -⟩, -⟩
      rw [hprepare] at h
      cases h
  | ok prepared =>
      obtain ⟨downloader, checksum⟩ := prepared
      have hne := (prepare_ok hprepare).2.1
      obtain ⟨content, name, hcontent, hcreate, hfetch⟩ | ⟨hnone, e, touched, hfetch, htouched⟩ :=
        fetchArchive_spec env downloader artifact.archiveURL stageDirectory disk
      · refine Or.inl ⟨checksum, name, content, ⟨⟨downloader, hprepare, hcontent⟩, hcreate⟩, ?_⟩
        simp only [hfetch, storedWork]
      · refine Or.inr ⟨?_, e, touched, by simp only [hfetch], ?_⟩
        · rintro checksum' name content ⟨⟨downloader', h, hcontent⟩, hcreate⟩
          rw [hprepare] at h
          cases h
          exact hnone content name hcontent hcreate
        · intro file hfile
          obtain ⟨name, hcreate, rfl⟩ := htouched file hfile
          exact isChild_createTemp hne hcreate

theorem downloadAndStage_eq
    (h : Stores env client artifact stageDirectory disk checksum name content) :
    downloadAndStage env client artifact stageDirectory disk =
      stageArchive env artifact stageDirectory checksum name (storedWork env disk name content) := by
  obtain ⟨checksum', name', content', h', hcall⟩ | ⟨hnone, -⟩ :=
    downloadAndStage_cases env client artifact stageDirectory disk
  · obtain ⟨rfl, rfl, rfl⟩ := h.unique h'
    exact hcall
  · exact absurd h (hnone _ _ _)

theorem storedWork_self : (storedWork env disk name content).disk (resolve env.cwd name) =
    some content := Function.update_self ..

end Calls

section Example

def agentArtifact : Artifact where
  version := utf8 "v1"
  archiveURL := utf8 "https://example.test/a.tar.gz"
  checksumURL := utf8 "https://example.test/a.sha256"
  binaryName := utf8 "agent"

def sound : StageFailures where
  mkdirAll := false
  createTemp := false
  copyArchive := false
  closeArchive := false
  hashArchive := false
  openArchive := false
  createPartial := false
  copyPartial := false
  closePartial := false
  rename := false

def answer (body : Bytes) : Option Download := some ⟨200, ⟨[body], .eof⟩⟩

end Example

section Verified

variable {env : StageEnv} {client : Option Downloader} {artifact : Artifact}
  {stageDirectory : Bytes} {disk : Disk} {checksum name content : Bytes}

/-- What a call that succeeds has staged, and that a call that fails leaves the staged path
alone. -/
structure OnlyVerified (env : StageEnv) (client : Option Downloader) (artifact : Artifact)
    (stageDirectory : Bytes) (disk : Disk) : Prop where
  kept : ∀ result w, downloadAndStage env client artifact stageDirectory disk = (.ok result, w) →
    ∃ archive, w.disk (resolve env.cwd result.archivePath) = some archive ∧
      (firstField (checksumResponse client)).bind hexDecode =
        some (Sha256.sha256 archive).toList
  staged : ∀ result w, downloadAndStage env client artifact stageDirectory disk = (.ok result, w) →
    ∃ contents entry, env.untar (archiveResponse client) = some contents ∧
      contents.entries.find? (fun entry => entry.name == artifact.binaryName) = some entry ∧
      entry.typeflag = typeReg ∧ 1 ≤ entry.size ∧ entry.size ≤ 128 * 2 ^ 20 ∧
      (entry.body.content.length : Int) = entry.size ∧
      w.disk (resolve env.cwd result.stagedBinary) = some entry.body.content
  failed : ∀ e w, downloadAndStage env client artifact stageDirectory disk = (.error e, w) →
    w.disk (resolve env.cwd (stagedPath artifact stageDirectory)) =
      disk (resolve env.cwd (stagedPath artifact stageDirectory))

/-- If the binary is staged, the limit on the checksum's response does not cut its first field;
and the staged path is not the name of the archive. -/
def Verifiable (env : StageEnv) (client : Option Downloader) (artifact : Artifact)
    (stageDirectory : Bytes) (disk : Disk) : Prop :=
  ∀ checksum name content, Stores env client artifact stageDirectory disk checksum name content →
    ((stageable env artifact checksum content).isSome →
      firstField (checksumResponse client) =
        firstField ((checksumResponse client).take checksumLimit)) ∧
    (resolve env.cwd (stagedPath artifact stageDirectory) = resolve env.cwd name →
      ∃ binary, stageable env artifact checksum content = some binary ∧
        Sha256.sha256 binary = Sha256.sha256 content)

/-- A call that stores an archive and stages no binary changes its own files only. -/
theorem failed_of_stageable_none
    (h : Stores env client artifact stageDirectory disk checksum name content)
    (hnone : stageable env artifact checksum content = none) :
    ∃ e w, stageArchive env artifact stageDirectory checksum name
        (storedWork env disk name content) = (.error e, w) ∧
      (∀ file, file ≠ resolve env.cwd (partialPath (stagedPath artifact stageDirectory)) →
        w.disk file = (storedWork env disk name content).disk file) ∧
      disk (resolve env.cwd name) = none := by
  have hstored : (storedWork env disk name content).disk (resolve env.cwd name) = some content :=
    storedWork_self
  have hspec := @stageArchive_spec env artifact stageDirectory checksum name content _ hstored
  rw [hnone] at hspec
  obtain ⟨e, w, hcall, hsame⟩ := hspec
  exact ⟨e, w, hcall, hsame, (createTemp_some h.created).2⟩

/-- A call that stages a binary keeps the archive, unless the binary takes its place. -/
theorem placed_of_stageable
    (h : Stores env client artifact stageDirectory disk checksum name content) {binary : Bytes}
    (hsome : stageable env artifact checksum content = some binary) :
    ∃ observed w, stageArchive env artifact stageDirectory checksum name
        (storedWork env disk name content) =
          (.ok ⟨stagedPath artifact stageDirectory, observed, name⟩, w) ∧
      w.disk (resolve env.cwd (stagedPath artifact stageDirectory)) = some binary ∧
      w.disk (resolve env.cwd name) =
        some (if resolve env.cwd (stagedPath artifact stageDirectory) = resolve env.cwd name
          then binary else content) ∧
      w.touched = [resolve env.cwd name,
        resolve env.cwd (partialPath (stagedPath artifact stageDirectory)),
        resolve env.cwd (stagedPath artifact stageDirectory)] := by
  have hstored : (storedWork env disk name content).disk (resolve env.cwd name) = some content :=
    storedWork_self
  have hspec := @stageArchive_spec env artifact stageDirectory checksum name content _ hstored
  rw [hsome] at hspec
  obtain ⟨observed, hcall⟩ := hspec
  refine ⟨observed, _, hcall, Function.update_self .., ?_, rfl⟩
  simp only [placed]
  by_cases hsame : resolve env.cwd (stagedPath artifact stageDirectory) = resolve env.cwd name
  · rw [if_pos hsame, hsame, Function.update_self]
  · rw [if_neg hsame, Function.update_of_ne (Ne.symm hsame),
      Function.update_of_ne (h.partialPath_ne _).symm, storedWork_self]

/-- The first field of the whole response denotes the digest of some bytes exactly if the field that
was compared is all of it and the bytes have the digest of the archive. -/
theorem kept_denotes_iff
    (h : Stores env client artifact stageDirectory disk checksum name content) {binary : Bytes}
    (hsome : stageable env artifact checksum content = some binary) (archive : Bytes) :
    (firstField (checksumResponse client)).bind hexDecode =
        some (Sha256.sha256 archive).toList ↔
      firstField (checksumResponse client) =
          firstField ((checksumResponse client).take checksumLimit) ∧
        Sha256.sha256 archive = Sha256.sha256 content := by
  obtain ⟨field, digest, hfield, hlength, hdigest, hchecksum⟩ := h.checksum_eq
  obtain ⟨contents, entry, -, -, -, -, -, hfold⟩ := stageable_some hsome
  rw [hexDecode_congr hfold, hexDecode_hexEncode] at hchecksum
  obtain rfl : (Sha256.sha256 content).toList = digest := Option.some.inj hchecksum
  rw [firstField_bind_eq_iff hfield hlength hdigest (List.Vector.toList_length _)]
  refine and_congr_right fun _ => ⟨fun hsame => ?_, fun hsame => by rw [hsame]⟩
  exact (List.Vector.eq _ _ hsame).symm

/-- Only a verified binary is staged exactly if the field that is compared is not cut off and the
staged path is not the name of the archive. -/
theorem onlyVerified_iff (env : StageEnv) (client : Option Downloader) (artifact : Artifact)
    (stageDirectory : Bytes) (disk : Disk) :
    OnlyVerified env client artifact stageDirectory disk ↔
      Verifiable env client artifact stageDirectory disk := by
  obtain ⟨checksum, name, content, hstores, hcall⟩ | ⟨hnone, e, touched, hcall, -⟩ :=
    downloadAndStage_cases env client artifact stageDirectory disk
  · have hcondition : Verifiable env client artifact stageDirectory disk ↔
        ((stageable env artifact checksum content).isSome →
          firstField (checksumResponse client) =
            firstField ((checksumResponse client).take checksumLimit)) ∧
        (resolve env.cwd (stagedPath artifact stageDirectory) = resolve env.cwd name →
          ∃ binary, stageable env artifact checksum content = some binary ∧
            Sha256.sha256 binary = Sha256.sha256 content) := by
      refine ⟨fun h => h checksum name content hstores, fun h checksum' name' content' h' => ?_⟩
      obtain ⟨rfl, rfl, rfl⟩ := hstores.unique h'
      exact h
    rw [hcondition]
    cases hstage : stageable env artifact checksum content with
    | none =>
        obtain ⟨e, w, hfail, hsame, hfree⟩ := failed_of_stageable_none hstores hstage
        rw [hfail] at hcall
        have hslash : slash ∉ utf8 ".partial" := by decide
        have hpartial := resolve_append_ne hslash (by decide) env.cwd
          (stagedPath artifact stageDirectory)
        have hstaged := hsame _ hpartial.symm
        constructor
        · intro h
          refine ⟨nofun, fun hlocation => ?_⟩
          have hkeeps := h.failed e w hcall
          rw [hstaged, hlocation, storedWork_self, hfree] at hkeeps
          cases hkeeps
        · rintro ⟨-, hlocation⟩
          have hne : resolve env.cwd (stagedPath artifact stageDirectory) ≠ resolve env.cwd name := by
            intro heq
            obtain ⟨binary, hbinary, -⟩ := hlocation heq
            cases hbinary
          refine ⟨?_, ?_, ?_⟩
          · intro result w' h
            rw [hcall] at h
            cases h
          · intro result w' h
            rw [hcall] at h
            cases h
          · intro e' w' h
            rw [hcall] at h
            cases h
            rw [hstaged]
            exact Function.update_of_ne hne _ _
    | some binary =>
        obtain ⟨observed, w, hplace, hstaged, hkept, -⟩ := placed_of_stageable hstores hstage
        rw [hplace] at hcall
        have hdenotes := kept_denotes_iff hstores hstage
          (if resolve env.cwd (stagedPath artifact stageDirectory) = resolve env.cwd name
            then binary else content)
        constructor
        · intro h
          obtain ⟨archive, harchive, hdigest⟩ := h.kept _ w hcall
          rw [hkept] at harchive
          cases harchive
          obtain ⟨hfield, hsame⟩ := hdenotes.mp hdigest
          refine ⟨fun _ => hfield, fun hlocation => ⟨binary, rfl, ?_⟩⟩
          rwa [if_pos hlocation] at hsame
        · rintro ⟨hfield, hlocation⟩
          refine ⟨?_, ?_, ?_⟩
          · intro result w' h
            rw [hcall] at h
            cases h
            refine ⟨_, hkept, hdenotes.mpr ⟨hfield rfl, ?_⟩⟩
            split
            · next heq =>
                obtain ⟨binary', hbinary, hsame⟩ := hlocation heq
                cases hbinary
                exact hsame
            · rfl
          · intro result w' h
            rw [hcall] at h
            cases h
            obtain ⟨contents, entry, huntar, hentry, hvalid, hbinary, hlength, -⟩ :=
              stageable_some hstage
            simp only [TarEntry.valid, Bool.and_eq_true, beq_iff_eq, decide_eq_true_eq] at hvalid
            rw [← hstores.archiveResponse_eq] at huntar
            subst hbinary
            exact ⟨contents, entry, huntar, hentry, hvalid.1.1, hvalid.1.2, hvalid.2, hlength,
              hstaged⟩
          · intro e w' h
            rw [hcall] at h
            cases h
  · refine iff_of_true ⟨?_, ?_, ?_⟩ fun checksum name content h => absurd h (hnone _ _ _)
    · intro result w h
      rw [hcall] at h
      cases h
    · intro result w h
      rw [hcall] at h
      cases h
    · intro e' w h
      rw [hcall] at h
      cases h
      rfl

theorem fetchChecksum_eq {client : Downloader} {url field digest : Bytes} {response : Download}
    (hurl : (Url.parse url).isSome) (hresponse : client.checksum = some response)
    (hstatus : response.statusCode = 200) (hending : response.body.ending = .eof)
    (hfield : firstField (response.body.content.take checksumLimit) = some field)
    (hlength : field.length = 64) (hdigest : hexDecode field = some digest) :
    fetchChecksum client url = .ok (field.map Url.lower) := by
  obtain ⟨u, hu⟩ := Option.isSome_iff_exists.mp hurl
  have hread : response.body.readLimited checksumLimit =
      (response.body.content.take checksumLimit, .eof) := by
    refine Prod.ext (readLimited_fst _ _) ?_
    rw [Source.readLimited]
    split
    · rfl
    · exact hending
  rw [firstField] at hfield
  simp [fetchChecksum, orFail, failIf, hu, hresponse, hstatus, hread, hfield, hlength, hdigest]

/-- The digits of the archive's digest, behind as many blanks as leave room for them only. -/
def archiveDigits : Bytes := utf8 (hexEncode (Sha256.sha256 [97, 98, 99]).toList)

def cutChecksum : Downloader :=
  ⟨answer (List.replicate 4032 0x20 ++ (archiveDigits ++ [0x30])), answer [97, 98, 99]⟩

def agentEntry : TarEntry where
  name := utf8 "agent"
  typeflag := typeReg
  size := 1
  body := ⟨[[1]], .eof⟩
  bounded := by decide
  complete := fun _ => rfl

def cutEnv : StageEnv := ⟨[], [7], fun _ => some ⟨[agentEntry], .eof⟩, sound⟩

/-- A digit behind the limit is not compared. -/
theorem cut_checksum_not_verified :
    ¬ OnlyVerified cutEnv (some cutChecksum) agentArtifact (utf8 "/stage") fun _ => none := by
  have hdecode : hexDecode archiveDigits = some (Sha256.sha256 [97, 98, 99]).toList :=
    hexDecode_hexEncode _
  obtain ⟨hlength, hdigits⟩ := hexDecode_eq_some hdecode
  rw [List.Vector.toList_length] at hlength
  have hne : archiveDigits ≠ [] := List.ne_nil_of_length_pos (by omega)
  have hresponse : checksumResponse (some cutChecksum) =
      List.replicate 4032 0x20 ++ (archiveDigits ++ [0x30]) := List.append_nil _
  have hwhole : firstField (checksumResponse (some cutChecksum)) = some (archiveDigits ++ [0x30]) := by
    rw [hresponse]
    refine ByteText.fields_head_blanks 4032 (by simp) ?_
    intro c hc
    rw [List.mem_append, List.mem_singleton] at hc
    obtain hc | rfl := hc
    · exact hdigits c hc
    · rfl
  have hcut : firstField ((checksumResponse (some cutChecksum)).take checksumLimit) =
      some archiveDigits := by
    have htake : (checksumResponse (some cutChecksum)).take checksumLimit =
        List.replicate 4032 0x20 ++ archiveDigits := by
      rw [hresponse, ← List.append_assoc]
      refine List.take_left' ?_
      rw [List.length_append, List.length_replicate, hlength]
      rfl
    rw [htake]
    exact ByteText.fields_head_blanks 4032 hne hdigits
  have hstores : Stores cutEnv (some cutChecksum) agentArtifact (utf8 "/stage") (fun _ => none)
      (archiveDigits.map Url.lower) (utf8 "/stage/release-7.tar.gz") [97, 98, 99] := by
    refine ⟨⟨cutChecksum, ?_, by decide⟩, by decide⟩
    have hcheck : checkArtifact cutEnv (some cutChecksum) agentArtifact (utf8 "/stage") =
        .ok cutChecksum := rfl
    have hfetch : fetchChecksum cutChecksum agentArtifact.checksumURL =
        .ok (archiveDigits.map Url.lower) :=
      fetchChecksum_eq (by decide) rfl rfl rfl hcut hlength hdecode
    rw [prepare, hcheck, ok_bind, hfetch, ok_bind]
  have hstage : stageable cutEnv agentArtifact (archiveDigits.map Url.lower) [97, 98, 99] =
      some [1] := by
    have hfold : hexEqualFold (archiveDigits.map Url.lower)
        (utf8 (hexEncode (Sha256.sha256 [97, 98, 99]).toList)) = true :=
      ByteText.hexEqualFold_lower archiveDigits
    rw [stageable, hfold]
    rfl
  intro h
  obtain ⟨observed, w, hplace, -, hkept, -⟩ := placed_of_stageable hstores hstage
  obtain ⟨archive, -, hdenotes⟩ := h.kept _ w ((downloadAndStage_eq hstores).trans hplace)
  have hsame := ((kept_denotes_iff hstores hstage archive).mp hdenotes).1
  rw [hwhole, hcut] at hsame
  simp at hsame

end Verified

section Inside

variable {env : StageEnv} {client : Option Downloader} {artifact : Artifact}
  {stageDirectory : Bytes} {disk : Disk} {checksum name content : Bytes}

/-- The files of a call are direct children of the stage directory, and a call that fails leaves
the directory as it was. -/
structure StaysInside (env : StageEnv) (client : Option Downloader) (artifact : Artifact)
    (stageDirectory : Bytes) (disk : Disk) : Prop where
  inside : ∀ file ∈ (downloadAndStage env client artifact stageDirectory disk).2.touched,
    IsChild env stageDirectory file
  cleaned : ∀ e w, downloadAndStage env client artifact stageDirectory disk = (.error e, w) →
    ∀ file, resolve env.cwd stageDirectory <+: file → w.disk file = disk file

/-- Once an archive is stored nothing fails, and the version leads to a file in the directory. -/
def Contained (env : StageEnv) (client : Option Downloader) (artifact : Artifact)
    (stageDirectory : Bytes) (disk : Disk) : Prop :=
  ∀ checksum name content, Stores env client artifact stageDirectory disk checksum name content →
    (stageable env artifact checksum content).isSome ∧
      IsChild env stageDirectory (resolve env.cwd (stagedPath artifact stageDirectory)) ∧
      IsChild env stageDirectory
        (resolve env.cwd (partialPath (stagedPath artifact stageDirectory)))

/-- The archive of a call that fails is left behind. -/
theorem not_staysInside_of_stageable_none
    (h : Stores env client artifact stageDirectory disk checksum name content)
    (hnone : stageable env artifact checksum content = none)
    (hcall : downloadAndStage env client artifact stageDirectory disk =
      stageArchive env artifact stageDirectory checksum name (storedWork env disk name content)) :
    ¬ StaysInside env client artifact stageDirectory disk := by
  intro hstays
  obtain ⟨e, w, hfail, hsame, hfree⟩ := failed_of_stageable_none h hnone
  obtain ⟨child, hchild⟩ := isChild_createTemp h.stageDirectory_ne h.created
  have hcleaned := hstays.cleaned e w (hcall.trans hfail) (resolve env.cwd name)
    (by rw [hchild]; exact List.prefix_append _ _)
  rw [hsame _ (h.partialPath_ne _).symm, storedWork_self, hfree] at hcleaned
  cases hcleaned

/-- A call stays inside the stage directory and cleans up exactly if it stores no archive, or
nothing fails after that and the version does not lead out of the directory. -/
theorem staysInside_iff (env : StageEnv) (client : Option Downloader) (artifact : Artifact)
    (stageDirectory : Bytes) (disk : Disk) :
    StaysInside env client artifact stageDirectory disk ↔
      Contained env client artifact stageDirectory disk := by
  obtain ⟨checksum, name, content, hstores, hcall⟩ | ⟨hnone, e, touched, hcall, htouched⟩ :=
    downloadAndStage_cases env client artifact stageDirectory disk
  · have hcondition : Contained env client artifact stageDirectory disk ↔
        (stageable env artifact checksum content).isSome ∧
          IsChild env stageDirectory (resolve env.cwd (stagedPath artifact stageDirectory)) ∧
          IsChild env stageDirectory
            (resolve env.cwd (partialPath (stagedPath artifact stageDirectory))) := by
      refine ⟨fun h => h checksum name content hstores, fun h checksum' name' content' h' => ?_⟩
      obtain ⟨rfl, rfl, rfl⟩ := hstores.unique h'
      exact h
    rw [hcondition]
    cases hstage : stageable env artifact checksum content with
    | none => exact iff_of_false (not_staysInside_of_stageable_none hstores hstage hcall) (by simp)
    | some binary =>
        obtain ⟨observed, w, hplace, -, -, htouched⟩ := placed_of_stageable hstores hstage
        rw [hplace] at hcall
        have harchive := isChild_createTemp hstores.stageDirectory_ne hstores.created
        constructor
        · intro h
          have hinside := h.inside
          rw [hcall, htouched] at hinside
          exact ⟨rfl, hinside _ (by simp), hinside _ (by simp)⟩
        · rintro ⟨-, hstaged, hpartial⟩
          refine ⟨?_, fun e' w' h => ?_⟩
          · rw [hcall, htouched]
            simp only [List.mem_cons, List.not_mem_nil, or_false]
            rintro file (rfl | rfl | rfl)
            · exact harchive
            · exact hpartial
            · exact hstaged
          · rw [hcall] at h
            cases h
  · refine iff_of_true ⟨?_, ?_⟩ fun checksum name content h => absurd h (hnone _ _ _)
    · rw [hcall]
      exact htouched
    · intro e' w h file hfile
      rw [hcall] at h
      cases h
      rfl

/-- An archive of another digest, with an archive reader that is never asked. -/
def mismatching : Downloader := ⟨answer (List.replicate 64 0x30), answer [97, 98, 99]⟩

theorem mismatch_leaves_archive :
    ¬ StaysInside ⟨[], [7], fun _ => none, sound⟩ (some mismatching) agentArtifact (utf8 "/stage")
      fun _ => none := by
  have hstores : Stores ⟨[], [7], fun _ => none, sound⟩ (some mismatching) agentArtifact
      (utf8 "/stage") (fun _ => none) (List.replicate 64 0x30) (utf8 "/stage/release-7.tar.gz")
      [97, 98, 99] := ⟨⟨mismatching, by decide, by decide⟩, by decide⟩
  have hnone : stageable ⟨[], [7], fun _ => none, sound⟩ agentArtifact (List.replicate 64 0x30)
      [97, 98, 99] = none := by
    rw [stageable]
    split <;> rfl
  exact not_staysInside_of_stageable_none hstores hnone rfl

end Inside

end NodeScope.Update
