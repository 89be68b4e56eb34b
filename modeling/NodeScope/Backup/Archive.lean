import Mathlib.Data.List.Infix
import NodeScope.Backup.Outcome
import NodeScope.Lib.GzipStored
import NodeScope.Lib.Reader
import NodeScope.Lib.Sink
import NodeScope.Lib.Ustar

/-!
# Writing the archive

`tarDirectory`: a tar writer on a gzip writer on a file. The padding of the last file, the end of
the archive and what the compressor has kept back are written by the deferred calls of `Close`,
whose errors are dropped. `backup_complete_iff` says of a run that reports success when the
archive can be read back.

## Implementation notes

The compressor and the headers of the tar format are those of any implementation: a compressor
says what it writes to its file in which pieces, and what its reader accepts. A write to the file
may be cut short, and when the file is closed, bytes at its end may be lost.
-/

namespace NodeScope.Backup

open Storage Lib Lib.Check Lib.Text Lib.Time
open Lib.Ustar (zeros padding)

abbrev Bytes := List UInt8

/-- A compressor: the writes to its file that a `Write` and the `Close` of it make, and its
reader. -/
structure Compression where
  State : Type
  start : State
  write : State → Bytes → List Bytes × State
  close : State → List Bytes
  read : Bytes → Option Bytes

/-- All that a compressor writes to its file for some input. -/
def Compression.output (c : Compression) : c.State → List Bytes → List Bytes
  | z, [] => c.close z
  | z, b :: rest => (c.write z b).1 ++ c.output (c.write z b).2 rest

/-- A reader gets back the input, and gets nothing from less than the whole output. -/
structure Compression.Faithful (c : Compression) : Prop where
  reads : ∀ bs, c.read (c.output c.start bs).flatten = some bs.flatten
  whole : ∀ bs b, b <+: (c.output c.start bs).flatten → b ≠ (c.output c.start bs).flatten →
    c.read b = none
  empty : c.read [] = none

/-- The headers of a tar format, as they are written for a name and a size, and its reader. -/
structure TarFormat where
  header : Bytes → Nat → Option (List Bytes)
  read : Bytes → Option (List (Bytes × Bytes))

/-- The archive of some files, if they all have headers. -/
def TarFormat.stream (f : TarFormat) : List (Bytes × Bytes) → Option Bytes
  | [] => some (zeros 1024)
  | (name, contents) :: rest => do
      let blocks ← f.header name contents.length
      let tail ← f.stream rest
      some (blocks.flatten ++ (contents ++ (zeros (padding contents.length) ++ tail)))

def manifestName : Bytes := utf8 "manifest.json"

def dumpName : Bytes := utf8 "nodescope.dump"

/-- A reader gets back the two files of a backup. -/
def TarFormat.Faithful (f : TarFormat) : Prop :=
  ∀ manifest dump whole, f.stream [(manifestName, manifest), (dumpName, dump)] = some whole →
    f.read whole = some [(manifestName, manifest), (dumpName, dump)]

/-- `gzip.Writer` on the file. After an error it writes no more. -/
structure GzipWriter (c : Compression) where
  state : c.State
  failed : Bool
  file : Sink.File UInt8

namespace GzipWriter

variable {c : Compression} (limits : Sink.Limits)

def write (w : GzipWriter c) (b : Bytes) : GzipWriter c × Bool :=
  if w.failed then (w, false)
  else
    let (chunks, state) := c.write w.state b
    let (file, ok) := Sink.writeAll limits w.file chunks
    (⟨state, !ok, file⟩, ok)

/-- Several writes, up to the first that fails. -/
def writeAll (w : GzipWriter c) : List Bytes → GzipWriter c × Bool
  | [] => (w, true)
  | b :: rest =>
      let (w, ok) := w.write limits b
      if ok then w.writeAll rest else (w, false)

def close (w : GzipWriter c) : Sink.File UInt8 :=
  if w.failed then w.file else (Sink.writeAll limits w.file (c.close w.state)).1

end GzipWriter

/-- `tar.Writer`: how many bytes of the file are still to come, and how many zeros after them. -/
structure TarWriter (c : Compression) where
  gzip : GzipWriter c
  failed : Bool
  pad : Nat
  remaining : Nat

namespace TarWriter

variable {c : Compression} (limits : Sink.Limits)

def put (t : TarWriter c) (bs : List Bytes) : TarWriter c × Bool :=
  let (gzip, ok) := t.gzip.writeAll limits bs
  ({ t with gzip := gzip, failed := !ok }, ok)

def flush (t : TarWriter c) : TarWriter c × Bool :=
  if t.failed || 0 < t.remaining then (t, false)
  else
    let (t, ok) := t.put limits [zeros t.pad]
    (if ok then { t with pad := 0 } else t, ok)

def writeHeader (f : TarFormat) (t : TarWriter c) (name : Bytes) (size : Nat) :
    TarWriter c × Bool :=
  let (t, ok) := t.flush limits
  if ok then
    match f.header name size with
    | none => (t, false)
    | some blocks =>
        let (t, ok) := t.put limits blocks
        (if ok then { t with pad := padding size, remaining := size } else t, ok)
  else (t, false)

/-- A write of more than the rest of the file writes that and fails. -/
def write (t : TarWriter c) (b : Bytes) : TarWriter c × Bool :=
  if t.failed then (t, false)
  else
    let part := b.take t.remaining
    if part = [] then (t, b = [])
    else
      let (t', ok) := t.put limits [part]
      ({ t' with remaining := t.remaining - part.length }, ok && b.length ≤ t.remaining)

def writeBuffers (t : TarWriter c) : List Bytes → TarWriter c × Bool
  | [] => (t, true)
  | b :: rest =>
      let (t, ok) := t.write limits b
      if ok then t.writeBuffers rest else (t, false)

def close (t : TarWriter c) : TarWriter c :=
  let (t, ok) := t.flush limits
  if ok then (t.put limits [zeros 512, zeros 512]).1 else t

end TarWriter

/-- A file that `filepath.Walk` comes to: its name in the directory, its contents, and the read
of it that fails, if one does. -/
structure StagedFile where
  name : Bytes
  regular : Bool
  contents : Bytes
  readFails : Option Nat

/-- The contents in the pieces in which `io.Copy` reads them. -/
def StagedFile.buffers (file : StagedFile) : List Bytes :=
  Reader.cut 32768 file.contents.length file.contents

section Walk

variable {c : Compression} (limits : Sink.Limits) (f : TarFormat)

def copy (t : TarWriter c) (file : StagedFile) : TarWriter c × Bool :=
  match file.readFails with
  | none => t.writeBuffers limits file.buffers
  | some n => ((t.writeBuffers limits (file.buffers.take n)).1, false)

def walkFile (t : TarWriter c) (file : StagedFile) : TarWriter c × Bool :=
  if [0x2e, 0x2e] <:+: file.name ∨ file.regular = false then (t, false)
  else
    let (t, ok) := t.writeHeader limits f file.name file.contents.length
    if ok then copy limits t file else (t, false)

def walk (t : TarWriter c) : List StagedFile → TarWriter c × Bool
  | [] => (t, true)
  | file :: rest =>
      let (t, ok) := walkFile limits f t file
      if ok then walk t rest else (t, false)

end Walk

/-- The disk: how much of each write to the file it takes, how many bytes at the end of the file
are lost when it is closed, and which read of the staged files fails. -/
structure Disk where
  limits : Sink.Limits
  lost : Nat
  manifestRead : Option Nat
  dumpRead : Option Nat

def TarWriter.start (c : Compression) : TarWriter c := ⟨⟨c.start, false, Sink.empty⟩, false, 0, 0⟩

/-- What is in the file in the end, and whether the walk succeeded. The errors of the three
deferred calls are dropped. -/
def tarDirectory (c : Compression) (f : TarFormat) (disk : Disk) (files : List StagedFile) :
    Bytes × Bool :=
  let (t, ok) := walk disk.limits f (TarWriter.start c) files
  let file := (t.close disk.limits).gzip.close disk.limits
  (file.contents.take (file.contents.length - disk.lost), ok)

/-- What a compressor writes to its file before it is closed, and its state then. -/
def Compression.emit (c : Compression) : c.State → List Bytes → List Bytes × c.State
  | z, [] => ([], z)
  | z, b :: rest =>
      ((c.write z b).1 ++ (c.emit (c.write z b).2 rest).1, (c.emit (c.write z b).2 rest).2)

theorem Compression.output_append (c : Compression) (z : c.State) (bs rest : List Bytes) :
    c.output z (bs ++ rest) = (c.emit z bs).1 ++ c.output (c.emit z bs).2 rest := by
  induction bs generalizing z with
  | nil => rfl
  | cons b bs ih => rw [List.cons_append, output, ih, emit, List.append_assoc]

theorem Compression.emit_concat (c : Compression) (z : c.State) (bs : List Bytes) (b : Bytes) :
    c.emit z (bs ++ [b]) = ((c.emit z bs).1 ++ (c.write (c.emit z bs).2 b).1,
      (c.write (c.emit z bs).2 b).2) := by
  induction bs generalizing z with
  | nil => simp [emit]
  | cons b' bs ih => rw [List.cons_append, emit, ih, emit, List.append_assoc]

namespace GzipWriter

variable {c : Compression} {limits : Sink.Limits} {w : GzipWriter c} {bs : List Bytes}

/-- The writer has taken these writes, and no write to its file was cut short. -/
structure Wrote (limits : Sink.Limits) (w : GzipWriter c) (bs : List Bytes) : Prop where
  works : w.failed = false
  state : w.state = (c.emit c.start bs).2
  fit : Sink.AllFit limits 0 (c.emit c.start bs).1
  file : w.file = ⟨(c.emit c.start bs).1.flatten, (c.emit c.start bs).1.length⟩

theorem Wrote.write (h : Wrote limits w bs) {b : Bytes} {w' : GzipWriter c}
    (hok : w.write limits b = (w', true)) : Wrote limits w' (bs ++ [b]) := by
  simp only [GzipWriter.write, h.works, Bool.false_eq_true, if_false, Prod.mk.injEq] at hok
  obtain ⟨rfl, hall⟩ := hok
  have hfit := Sink.writeAll_eq_true_iff.mp hall
  have hfile := Sink.writeAll_of_allFit hfit
  rw [h.state] at hfit
  rw [h.file] at hfit
  refine ⟨by simp [hall], ?_, ?_, ?_⟩
  · rw [c.emit_concat, h.state]
  · rw [c.emit_concat, Sink.allFit_append, Nat.zero_add]
    exact ⟨h.fit, hfit⟩
  · rw [c.emit_concat, hfile, h.state, h.file, List.flatten_append, List.length_append]

/-- A write that fails has left less than all of its output, and the writer writes no more. -/
theorem Wrote.write_fails (h : Wrote limits w bs) {b : Bytes} {w' : GzipWriter c}
    (hfails : w.write limits b = (w', false)) :
    w'.failed = true ∧
      ¬ Sink.AllFit limits (c.emit c.start bs).1.length (c.write (c.emit c.start bs).2 b).1 ∧
      ∃ n, n < (c.write (c.emit c.start bs).2 b).1.flatten.length ∧ w'.file.contents =
        (c.emit c.start bs).1.flatten ++ (c.write (c.emit c.start bs).2 b).1.flatten.take n := by
  simp only [GzipWriter.write, h.works, Bool.false_eq_true, if_false, Prod.mk.injEq] at hfails
  obtain ⟨rfl, hall⟩ := hfails
  rw [h.state, h.file] at hall
  have hnot : ¬ Sink.AllFit limits (c.emit c.start bs).1.length
      (c.write (c.emit c.start bs).2 b).1 := by
    intro hfit
    rw [Sink.writeAll_of_allFit hfit] at hall
    cases hall
  obtain ⟨n, hn, hcontents, -⟩ := Sink.writeAll_of_not_allFit
    (s := ⟨(c.emit c.start bs).1.flatten, (c.emit c.start bs).1.length⟩) hnot
  refine ⟨by simp [h.state, h.file, hall], hnot, n, hn, ?_⟩
  rw [h.state, h.file]
  exact hcontents

theorem Wrote.writeAll (h : Wrote limits w bs) {cs : List Bytes} {w' : GzipWriter c}
    (hok : w.writeAll limits cs = (w', true)) : Wrote limits w' (bs ++ cs) := by
  induction cs generalizing w bs with
  | nil =>
      simp only [GzipWriter.writeAll, Prod.mk.injEq, and_true] at hok
      subst hok
      simpa using h
  | cons b rest ih =>
      rw [GzipWriter.writeAll] at hok
      cases hwrite : w.write limits b with
      | mk w₁ ok =>
          rw [hwrite] at hok
          cases ok with
          | false => simp at hok
          | true =>
              have hrest := ih (h.write hwrite) hok
              rwa [List.append_assoc, List.singleton_append] at hrest

/-- Some more writes, up to the first that fails, and the closing of the writer: its file holds
all of the output when every write to it fits, and less than all of it otherwise. -/
theorem Wrote.finish (h : Wrote limits w bs) (rest : List Bytes) :
    (Sink.AllFit limits 0 (c.output c.start (bs ++ rest)) →
        ((w.writeAll limits rest).1.close limits).contents =
          (c.output c.start (bs ++ rest)).flatten) ∧
      (¬ Sink.AllFit limits 0 (c.output c.start (bs ++ rest)) →
        ∃ n, n < (c.output c.start (bs ++ rest)).flatten.length ∧
          ((w.writeAll limits rest).1.close limits).contents =
            (c.output c.start (bs ++ rest)).flatten.take n) := by
  induction rest generalizing w bs with
  | nil =>
      rw [c.output_append, Sink.allFit_append, Nat.zero_add]
      simp only [GzipWriter.writeAll, close, h.works, Bool.false_eq_true, if_false, h.file, h.state,
        Compression.output]
      constructor
      · rintro ⟨-, hclose⟩
        rw [Sink.writeAll_of_allFit hclose, List.flatten_append]
      · intro hnot
        have hclose : ¬ Sink.AllFit limits (c.emit c.start bs).1.length
            (c.close (c.emit c.start bs).2) := fun hclose => hnot ⟨h.fit, hclose⟩
        obtain ⟨n, hn, hcontents, -⟩ := Sink.writeAll_of_not_allFit
          (s := ⟨(c.emit c.start bs).1.flatten, (c.emit c.start bs).1.length⟩) hclose
        refine ⟨(c.emit c.start bs).1.flatten.length + n, ?_, ?_⟩
        · rw [List.flatten_append, List.length_append]
          omega
        · rw [List.flatten_append, List.take_length_add_append]
          exact hcontents
  | cons b rest ih =>
      rw [GzipWriter.writeAll]
      cases hwrite : w.write limits b with
      | mk w₁ ok =>
          cases ok with
          | true =>
              have hrest := ih (h.write hwrite)
              rw [List.append_assoc, List.singleton_append] at hrest
              exact hrest
          | false =>
              obtain ⟨hfailed, hnot, n, hn, hcontents⟩ := h.write_fails hwrite
              have houtput : c.output c.start (bs ++ b :: rest) = (c.emit c.start bs).1 ++
                  ((c.write (c.emit c.start bs).2 b).1 ++
                    c.output (c.write (c.emit c.start bs).2 b).2 rest) := by
                rw [c.output_append, Compression.output]
              rw [houtput]
              constructor
              · intro hfit
                rw [Sink.allFit_append, Sink.allFit_append, Nat.zero_add] at hfit
                exact absurd hfit.2.1 hnot
              · intro _
                refine ⟨(c.emit c.start bs).1.flatten.length + n, ?_, ?_⟩
                · rw [List.flatten_append, List.flatten_append, List.length_append,
                    List.length_append]
                  omega
                · rw [List.flatten_append, List.flatten_append, List.take_length_add_append,
                    List.take_append_of_le_length hn.le]
                  simpa [close, hfailed] using hcontents

end GzipWriter

/-- The writes to the compressor for the rest of an archive, after a file whose padding is still
owed. -/
def TarFormat.writes (f : TarFormat) : Nat → List StagedFile → Option (List Bytes)
  | pad, [] => some [zeros pad, zeros 512, zeros 512]
  | pad, file :: rest => do
      let blocks ← f.header file.name file.contents.length
      let tail ← f.writes (padding file.contents.length) rest
      some (zeros pad :: (blocks ++ (file.buffers.filter (fun b => b ≠ []) ++ tail)))

/-- The name and the contents of a file. -/
def StagedFile.entry (file : StagedFile) : Bytes × Bytes := (file.name, file.contents)

theorem StagedFile.flatten_buffers (file : StagedFile) : file.buffers.flatten = file.contents :=
  Reader.flatten_cut _ _ _

theorem flatten_filter_ne_nil (bs : List Bytes) :
    (bs.filter fun b => b ≠ []).flatten = bs.flatten := by
  induction bs with
  | nil => rfl
  | cons b rest ih =>
      cases b with
      | nil => simpa using ih
      | cons x b => simpa using ih

/-- The writes make up the archive. -/
theorem TarFormat.flatten_writes (f : TarFormat) {pad : Nat} {files : List StagedFile}
    {ws : List Bytes} (h : f.writes pad files = some ws) :
    ∃ whole, f.stream (files.map StagedFile.entry) = some whole ∧
      ws.flatten = zeros pad ++ whole := by
  induction files generalizing pad ws with
  | nil =>
      simp only [writes, Option.some.injEq] at h
      subst h
      have hblocks : zeros 512 ++ zeros 512 = zeros 1024 := List.replicate_append_replicate
      refine ⟨zeros 1024, rfl, ?_⟩
      rw [List.flatten_cons, List.flatten_cons, List.flatten_cons, List.flatten_nil,
        List.append_nil, hblocks]
  | cons file rest ih =>
      simp only [writes, Option.bind_eq_bind, Option.bind_eq_some_iff, Option.some.injEq] at h
      obtain ⟨blocks, hheader, tail, htail, rfl⟩ := h
      obtain ⟨whole, hwhole, hflatten⟩ := ih htail
      refine ⟨blocks.flatten ++ (file.contents ++ (zeros (padding file.contents.length) ++ whole)),
        ?_, ?_⟩
      · simp [stream, StagedFile.entry, hheader, hwhole]
      · simp only [List.flatten_cons, List.flatten_append, flatten_filter_ne_nil,
          file.flatten_buffers, hflatten]

namespace TarWriter

variable {c : Compression} {limits : Sink.Limits} {f : TarFormat} {t t' : TarWriter c}
  {bs : List Bytes}

/-- The writer has taken these writes, with the padding of a file and so much of it to come. -/
structure Wrote (limits : Sink.Limits) (t : TarWriter c) (bs : List Bytes) (pad remaining : Nat) :
    Prop where
  works : t.failed = false
  gzip : t.gzip.Wrote limits bs
  pad : t.pad = pad
  remaining : t.remaining = remaining

theorem Wrote.put {pad remaining : Nat} (h : t.Wrote limits bs pad remaining) {cs : List Bytes}
    (hok : t.put limits cs = (t', true)) : t'.Wrote limits (bs ++ cs) pad remaining := by
  cases hwrite : t.gzip.writeAll limits cs with
  | mk w ok =>
      simp only [TarWriter.put, hwrite, Prod.mk.injEq] at hok
      obtain ⟨rfl, rfl⟩ := hok
      exact ⟨rfl, h.gzip.writeAll hwrite, h.pad, h.remaining⟩

theorem Wrote.flush {pad : Nat} (h : t.Wrote limits bs pad 0)
    (hok : t.flush limits = (t', true)) : t'.Wrote limits (bs ++ [zeros pad]) 0 0 := by
  simp only [TarWriter.flush, h.works, h.remaining, Bool.false_or, lt_self_iff_false, decide_false,
    Bool.false_eq_true, if_false] at hok
  cases hput : t.put limits [zeros t.pad] with
  | mk t₁ ok =>
      simp only [hput, Prod.mk.injEq] at hok
      obtain ⟨rfl, rfl⟩ := hok
      have hwrote := h.put hput
      rw [h.pad] at hwrote
      exact ⟨hwrote.works, hwrote.gzip, rfl, hwrote.remaining⟩

theorem Wrote.writeHeader {pad : Nat} (h : t.Wrote limits bs pad 0) {name : Bytes} {size : Nat}
    (hok : t.writeHeader limits f name size = (t', true)) :
    ∃ blocks, f.header name size = some blocks ∧
      t'.Wrote limits (bs ++ zeros pad :: blocks) (padding size) size := by
  cases hflush : t.flush limits with
  | mk t₁ ok =>
      simp only [TarWriter.writeHeader, hflush] at hok
      cases ok with
      | false => simp at hok
      | true =>
          have hwrote := h.flush hflush
          cases hheader : f.header name size with
          | none => simp [hheader] at hok
          | some blocks =>
              cases hput : t₁.put limits blocks with
              | mk t₂ ok =>
                  simp only [hheader, hput, if_true, Prod.mk.injEq] at hok
                  obtain ⟨rfl, rfl⟩ := hok
                  have hblocks := hwrote.put hput
                  rw [List.append_assoc, List.singleton_append] at hblocks
                  exact ⟨blocks, rfl, hblocks.works, hblocks.gzip, rfl, rfl⟩

/-- A write that succeeds is no longer than what is to come of the file. -/
theorem Wrote.write {pad remaining : Nat} (h : t.Wrote limits bs pad remaining) {b : Bytes}
    (hok : t.write limits b = (t', true)) :
    b.length ≤ remaining ∧ t'.Wrote limits (bs ++ [b].filter fun b => b ≠ []) pad
      (remaining - b.length) := by
  simp only [TarWriter.write, h.works, h.remaining, Bool.false_eq_true, if_false] at hok
  by_cases hpart : b.take remaining = []
  · simp only [hpart, if_true, Prod.mk.injEq, decide_eq_true_eq] at hok
    obtain ⟨rfl, rfl⟩ := hok
    exact ⟨Nat.zero_le _, by simpa using h⟩
  · rw [if_neg hpart] at hok
    cases hput : t.put limits [b.take remaining] with
    | mk t₁ ok =>
        simp only [hput, Prod.mk.injEq, Bool.and_eq_true, decide_eq_true_eq] at hok
        obtain ⟨rfl, rfl, hle⟩ := hok
        have hwrote := h.put hput
        rw [List.take_of_length_le hle] at hwrote hpart
        refine ⟨hle, ?_⟩
        rw [List.filter_cons_of_pos (by simpa using hpart), List.filter_nil]
        exact ⟨hwrote.works, hwrote.gzip, hwrote.pad, by rw [List.take_of_length_le hle]⟩

theorem Wrote.writeBuffers {pad remaining : Nat} (h : t.Wrote limits bs pad remaining)
    {buffers : List Bytes} (hok : t.writeBuffers limits buffers = (t', true)) :
    t'.Wrote limits (bs ++ buffers.filter fun b => b ≠ []) pad
      (remaining - buffers.flatten.length) := by
  induction buffers generalizing t bs remaining with
  | nil =>
      simp only [TarWriter.writeBuffers, Prod.mk.injEq, and_true] at hok
      subst hok
      simpa using h
  | cons b rest ih =>
      rw [TarWriter.writeBuffers] at hok
      cases hwrite : t.write limits b with
      | mk t₁ ok =>
          rw [hwrite] at hok
          cases ok with
          | false => simp at hok
          | true =>
              have hrest := ih (h.write hwrite).2 hok
              rw [List.append_assoc, ← List.filter_append, List.singleton_append] at hrest
              rw [List.flatten_cons, List.length_append, ← Nat.sub_sub]
              exact hrest

theorem Wrote.close {pad : Nat} (h : t.Wrote limits bs pad 0) :
    (t.close limits).gzip =
      (t.gzip.writeAll limits [zeros pad, zeros 512, zeros 512]).1 := by
  cases hwrite : t.gzip.write limits (zeros pad) with
  | mk w ok =>
      simp only [TarWriter.close, TarWriter.flush, h.works, h.remaining, h.pad, TarWriter.put,
        GzipWriter.writeAll, hwrite, Bool.false_or, lt_self_iff_false, decide_false,
        Bool.false_eq_true, if_false]
      cases ok with
      | true => simp
      | false => simp

end TarWriter

section Directory

variable {c : Compression} {limits : Sink.Limits} {f : TarFormat} {t t' : TarWriter c}
  {bs : List Bytes}

theorem walkFile_wrote {pad : Nat} (h : t.Wrote limits bs pad 0) {file : StagedFile}
    (hok : walkFile limits f t file = (t', true)) :
    ∃ blocks, f.header file.name file.contents.length = some blocks ∧
      t'.Wrote limits (bs ++ zeros pad :: (blocks ++ file.buffers.filter fun b => b ≠ []))
        (padding file.contents.length) 0 := by
  rw [walkFile] at hok
  split at hok
  · simp at hok
  · cases hheader : t.writeHeader limits f file.name file.contents.length with
    | mk t₁ ok =>
        rw [hheader] at hok
        cases ok with
        | false => simp at hok
        | true =>
            obtain ⟨blocks, hblocks, hwrote⟩ := h.writeHeader hheader
            refine ⟨blocks, hblocks, ?_⟩
            simp only [if_true, copy] at hok
            cases hreads : file.readFails with
            | some n => simp [hreads] at hok
            | none =>
                simp only [hreads] at hok
                have hall := hwrote.writeBuffers hok
                rw [file.flatten_buffers, Nat.sub_self, List.append_assoc, List.cons_append] at hall
                exact hall

/-- A walk that succeeds has taken all the writes of the archive that come before its end. -/
theorem walk_wrote {pad : Nat} (h : t.Wrote limits bs pad 0) {files : List StagedFile}
    (hok : walk limits f t files = (t', true)) :
    ∃ cs pad', t'.Wrote limits (bs ++ cs) pad' 0 ∧
      f.writes pad files = some (cs ++ [zeros pad', zeros 512, zeros 512]) := by
  induction files generalizing t bs pad with
  | nil =>
      simp only [walk, Prod.mk.injEq, and_true] at hok
      subst hok
      exact ⟨[], pad, by simpa using h, rfl⟩
  | cons file rest ih =>
      rw [walk] at hok
      cases hfile : walkFile limits f t file with
      | mk t₁ ok =>
          rw [hfile] at hok
          cases ok with
          | false => simp at hok
          | true =>
              obtain ⟨blocks, hblocks, hwrote⟩ := walkFile_wrote h hfile
              obtain ⟨cs, pad', hrest, hwrites⟩ := ih hwrote hok
              refine ⟨_, pad', by rwa [List.append_assoc] at hrest, ?_⟩
              simp [TarFormat.writes, hblocks, hwrites]

theorem TarWriter.wrote_start (c : Compression) (limits : Sink.Limits) :
    (TarWriter.start c).Wrote limits [] 0 0 :=
  ⟨rfl, ⟨rfl, rfl, trivial, rfl⟩, rfl, rfl⟩

/-- Where `tarDirectory` succeeds, the file holds all of the archive when every write to the file
fits and nothing is lost when it is closed, and less than all of it otherwise. -/
theorem tarDirectory_contents {disk : Disk} {files : List StagedFile}
    (hok : (tarDirectory c f disk files).2 = true) :
    ∃ ws, f.writes 0 files = some ws ∧
      (Sink.AllFit disk.limits 0 (c.output c.start ws) → disk.lost = 0 →
        (tarDirectory c f disk files).1 = (c.output c.start ws).flatten) ∧
      (¬ (Sink.AllFit disk.limits 0 (c.output c.start ws) ∧ disk.lost = 0) →
        (c.output c.start ws).flatten ≠ [] →
        ∃ n, n < (c.output c.start ws).flatten.length ∧
          (tarDirectory c f disk files).1 = (c.output c.start ws).flatten.take n) := by
  cases hwalk : walk disk.limits f (TarWriter.start c) files with
  | mk t ok =>
      simp only [tarDirectory, hwalk] at hok ⊢
      subst hok
      obtain ⟨cs, pad, hwrote, hwrites⟩ := walk_wrote (TarWriter.wrote_start c disk.limits) hwalk
      rw [List.nil_append] at hwrote
      refine ⟨_, hwrites, ?_⟩
      obtain ⟨hwhole, hpart⟩ := hwrote.gzip.finish [zeros pad, zeros 512, zeros 512]
      rw [hwrote.close]
      constructor
      · intro hfit hlost
        rw [hwhole hfit, hlost, Nat.sub_zero, List.take_length]
      · intro hnot hne
        have hlong := List.length_pos_iff.mpr hne
        by_cases hfit : Sink.AllFit disk.limits 0
            (c.output c.start (cs ++ [zeros pad, zeros 512, zeros 512]))
        · have hlost : disk.lost ≠ 0 := fun hlost => hnot ⟨hfit, hlost⟩
          rw [hwhole hfit]
          exact ⟨_, by omega, rfl⟩
        · obtain ⟨n, hn, hcontents⟩ := hpart hfit
          rw [hcontents, List.take_take]
          exact ⟨_, by omega, rfl⟩

end Directory

/-- The staging directory, in the order of the names. -/
def stagedFiles (marshal : Manifest → Bytes) (disk : Disk) (x : Outside) (r : Request) (h : Held) :
    List StagedFile :=
  [⟨manifestName, true, marshal (r.manifest h) ++ [0x0a], disk.manifestRead⟩,
    ⟨dumpName, true, x.dump, disk.dumpRead⟩]

/-- The partial archive is what `tarDirectory` makes of the staging directory. -/
def Outside.archiving (c : Compression) (f : TarFormat) (marshal : Manifest → Bytes) (disk : Disk)
    (x : Outside) (r : Request) (h : Held) : Outside :=
  let result := tarDirectory c f disk (stagedFiles marshal disk x r h)
  { x with archive := result.1, archiveFails := !result.2 }

def Runner.runArchiving (c : Compression) (f : TarFormat) (marshal : Manifest → Bytes) (disk : Disk)
    (x : Outside) (r : Request) (files : Files) : Files × Except RunError Path :=
  match x.acquire with
  | .error _ => Runner.run x r files
  | .ok lease => Runner.run (x.archiving c f marshal disk r (x.held lease)) r files

/-- The file at the path decompresses and un-tars to the manifest and the dump. -/
def Complete (c : Compression) (f : TarFormat) (files : Files) (path : Path)
    (manifest dump : Bytes) : Prop :=
  ∃ e ∈ files, e.path = path ∧ ∃ archive, e.node = .archive archive ∧
    (c.read archive).bind f.read = some [(manifestName, manifest), (dumpName, dump)]

section Complete

variable {c : Compression} {f : TarFormat}

/-- What `tarDirectory` wrote can be read back when every write of it fits and the file keeps it
all. -/
theorem read_tarDirectory_iff (hc : c.Faithful) (hf : f.Faithful) {marshal : Manifest → Bytes}
    {disk : Disk} {x : Outside} {r : Request} {h : Held}
    (hok : (tarDirectory c f disk (stagedFiles marshal disk x r h)).2 = true) :
    (c.read (tarDirectory c f disk (stagedFiles marshal disk x r h)).1).bind f.read =
        some [(manifestName, marshal (r.manifest h) ++ [0x0a]), (dumpName, x.dump)] ↔
      (∀ ws, f.writes 0 (stagedFiles marshal disk x r h) = some ws →
        Sink.AllFit disk.limits 0 (c.output c.start ws)) ∧ disk.lost = 0 := by
  obtain ⟨ws, hwrites, hwhole, hpart⟩ := tarDirectory_contents hok
  obtain ⟨whole, hstream, hflatten⟩ := f.flatten_writes hwrites
  have hread := hc.reads ws
  rw [hwrites]
  simp only [Option.some.injEq, forall_eq']
  constructor
  · intro hback
    by_contra hnot
    have hne : (c.output c.start ws).flatten ≠ [] := by
      intro hnil
      rw [hnil, hc.empty] at hread
      cases hread
    obtain ⟨n, hn, hcontents⟩ := hpart hnot hne
    rw [hcontents, hc.whole ws _ (List.take_prefix _ _)] at hback
    · cases hback
    · intro heq
      have hlength := congrArg List.length heq
      rw [List.length_take] at hlength
      omega
  · rintro ⟨hfit, hlost⟩
    rw [hwhole hfit hlost, hread, hflatten]
    exact hf _ _ whole hstream

/-- The file of a backup that is reported is what `tarDirectory` wrote, unless it was pruned. -/
theorem complete_iff_read {marshal : Manifest → Bytes} {disk : Disk} {x : Outside} {r : Request}
    {files : Files} (hfiles : files.Distinct) {lease : Lease} (hlease : x.acquire = .ok lease)
    {path : Path} (hrun : (Runner.runArchiving c f marshal disk x r files).2 = .ok path)
    (manifest dump : Bytes) :
    (tarDirectory c f disk (stagedFiles marshal disk x r (x.held lease))).2 = true ∧
      (Complete c f (Runner.runArchiving c f marshal disk x r files).1 path manifest dump ↔
        (c.read (tarDirectory c f disk
            (stagedFiles marshal disk x r (x.held lease))).1).bind f.read =
          some [(manifestName, manifest), (dumpName, dump)] ∧ r.limit x.now ≤ x.archivedAt) := by
  simp only [Runner.runArchiving, hlease] at hrun ⊢
  obtain ⟨h, hcreated, hfresh, hdescribes, hopens, hrenames, hprune, rfl⟩ :=
    Runner.of_run_eq_ok hfiles hrun
  obtain rfl : h = x.held lease := Runner.held_of_created hcreated hlease
  have hpublished {e : Entry} (hfinal : e.path = r.final (x.held lease)) :=
    Runner.published_mem_iff hcreated hfresh hdescribes hopens hrenames hprune hfinal
  constructor
  · simp only [Outside.renames, Outside.archiving, Bool.and_eq_true] at hrenames
    simpa using hrenames.1.1
  · constructor
    · rintro ⟨e, he, hfinal, archive, hnode, hback⟩
      obtain ⟨rfl, hlimit⟩ := (hpublished hfinal).mp he
      obtain rfl := Node.archive.inj hnode
      exact ⟨hback, hlimit⟩
    · rintro ⟨hback, hlimit⟩
      exact ⟨_, (hpublished rfl).mpr ⟨rfl, hlimit⟩, rfl, _, rfl, hback⟩

/-- A backup that is reported can be read back exactly when no write that closing the archive
makes was cut short, closing the file has lost nothing, and the clock has not left the archive
behind the retention limit. -/
theorem backup_complete_iff (hc : c.Faithful) (hf : f.Faithful) (marshal : Manifest → Bytes)
    (disk : Disk) (x : Outside) (r : Request) (d : Directory) {lease : Lease}
    (hlease : x.acquire = .ok lease) {path : Path}
    (hrun : (Runner.runArchiving c f marshal disk x r d.entries).2 = .ok path) :
    Complete c f (Runner.runArchiving c f marshal disk x r d.entries).1 path
        (marshal (r.manifest (x.held lease)) ++ [0x0a]) x.dump ↔
      (∀ ws, f.writes 0 (stagedFiles marshal disk x r (x.held lease)) = some ws →
          Sink.AllFit disk.limits 0 (c.output c.start ws)) ∧ disk.lost = 0 ∧
        r.limit x.now ≤ x.archivedAt := by
  obtain ⟨hok, hcomplete⟩ := complete_iff_read d.distinct hlease hrun
    (marshal (r.manifest (x.held lease)) ++ [0x0a]) x.dump
  rw [hcomplete, read_tarDirectory_iff hc hf hok, and_assoc]

end Complete

/-- A gzip writer that stores its input. -/
def storedGzip : Compression :=
  ⟨GzipStored.Member, none, GzipStored.writeMember, GzipStored.closeMember, GzipStored.decode⟩

theorem storedGzip_output_from (m : GzipStored.Member) (bs : List Bytes) :
    storedGzip.output m bs = GzipStored.member m bs := by
  induction bs generalizing m with
  | nil => rfl
  | cons b rest ih => exact congrArg ((GzipStored.writeMember m b).1 ++ ·) (ih _)

theorem storedGzip_output (bs : List Bytes) :
    storedGzip.output storedGzip.start bs = GzipStored.member none bs :=
  storedGzip_output_from none bs

theorem storedGzip_faithful : storedGzip.Faithful where
  reads bs := by
    rw [storedGzip_output]
    exact GzipStored.decode_member bs
  whole bs b hprefix hne := by
    rw [storedGzip_output] at hprefix hne
    exact GzipStored.decode_of_prefix hprefix hne
  empty := rfl

/-- Files that only their owner reads and writes. -/
def private600 : Ustar.Attributes := ⟨384, 0, 0, 1784721600⟩

def ustar : TarFormat :=
  ⟨fun name size => (Ustar.header private600 name size).map fun h => [h],
    fun b => Ustar.read b.length b⟩

theorem ustar_faithful : ustar.Faithful := by
  intro manifest dump whole hstream
  simp only [TarFormat.stream, ustar, Option.bind_eq_bind, Option.bind_eq_some_iff,
    Option.map_eq_some_iff, Option.some.injEq] at hstream
  obtain ⟨_, ⟨h, hheader, rfl⟩, tail, ⟨_, ⟨h', hheader', rfl⟩, _, rfl, rfl⟩, rfl⟩ := hstream
  have hshape : [h].flatten ++ (manifest ++ (zeros (padding manifest.length) ++
      ([h'].flatten ++ (dump ++ (zeros (padding dump.length) ++ zeros 1024))))) =
      Ustar.entry h manifest ++ (Ustar.entry h' dump ++ zeros 1024) := by
    simp [Ustar.entry]
  have hlong : 3 ≤ (Ustar.entry h manifest ++ (Ustar.entry h' dump ++ zeros 1024)).length := by
    simp only [List.length_append, zeros, List.length_replicate]
    omega
  obtain ⟨n, hn⟩ := Nat.exists_eq_add_of_le' hlong
  rw [hshape, ustar]
  simp only
  rw [hn]
  exact Ustar.read_entry hheader (Ustar.read_entry hheader' (Ustar.read_zeros n))

/-- `json.MarshalIndent` of a manifest whose texts need no escapes. -/
def marshalIndent (m : Manifest) : Bytes :=
  utf8 ("\x7b\n  \"version\": " ++ toString m.version ++
    ",\n  \"created_at\": \"" ++ formatRFC3339Nano m.createdAt ++
    "\",\n  \"replica_id\": \"" ++ m.replicaId ++
    "\",\n  \"mode\": \"" ++ m.mode ++
    "\",\n  \"fencing_token\": " ++ toString m.fencingToken ++
    ",\n  \"files\": [\n    " ++
    String.intercalate ",\n    " (m.files.map fun name => "\"" ++ name ++ "\"") ++ "\n  ]\n\x7d")

/-- Everything the run asks for succeeds. -/
def undisturbed : Outside :=
  { unreadable with dump := utf8 "PGDMP", pruneFails := false }

def nightly : Request := ⟨"framework", "/var/backups/nodescope", modeDefault, 10⟩

def nightlyPath : Path := ⟨"/var/backups/nodescope", "nodescope-default-20260722T120000Z-1.tar.gz"⟩

def soundDisk : Disk := ⟨fun _ => none, 0, none, none⟩

theorem soundDisk_run : (Runner.runArchiving storedGzip ustar marshalIndent soundDisk undisturbed
    nightly []).2 = .ok nightlyPath := by
  decide +kernel

theorem soundDisk_complete :
    Complete storedGzip ustar (Runner.runArchiving storedGzip ustar marshalIndent soundDisk
        undisturbed nightly []).1 nightlyPath
      (marshalIndent (nightly.manifest (undisturbed.held ⟨1, 0⟩)) ++ [0x0a]) undisturbed.dump :=
  (backup_complete_iff storedGzip_faithful ustar_faithful marshalIndent soundDisk undisturbed
    nightly ⟨[], .nil⟩ rfl soundDisk_run).mpr
    ⟨fun ws _ => Sink.allFit_unlimited 0 _, rfl, by decide⟩

/-- The disk is full when the gzip writer is closed. -/
def fullDisk : Disk := { soundDisk with limits := fun n => if n = 17 then some 0 else none }

theorem fullDisk_run : (Runner.runArchiving storedGzip ustar marshalIndent fullDisk undisturbed
    nightly []).2 = .ok nightlyPath := by
  decide +kernel

theorem fullDisk_cut : ((ustar.writes 0 (stagedFiles marshalIndent fullDisk undisturbed nightly
    (undisturbed.held ⟨1, 0⟩))).map fun ws => decide (Sink.AllFit fullDisk.limits 0
      (GzipStored.member none ws))) = some false := by
  decide +kernel

/-- The backup is reported though the end of the archive is missing. -/
theorem fullDisk_not_complete :
    (Runner.runArchiving storedGzip ustar marshalIndent fullDisk undisturbed nightly []).2 =
        .ok nightlyPath ∧
      ¬ Complete storedGzip ustar (Runner.runArchiving storedGzip ustar marshalIndent fullDisk
          undisturbed nightly []).1 nightlyPath
        (marshalIndent (nightly.manifest (undisturbed.held ⟨1, 0⟩)) ++ [0x0a])
        undisturbed.dump := by
  refine ⟨fullDisk_run, ?_⟩
  have hempty : Files.Distinct [] := .nil
  obtain ⟨hok, hiff⟩ := complete_iff_read hempty rfl fullDisk_run
    (marshalIndent (nightly.manifest (undisturbed.held ⟨1, 0⟩)) ++ [0x0a]) undisturbed.dump
  rw [hiff, read_tarDirectory_iff storedGzip_faithful ustar_faithful hok]
  rintro ⟨⟨hfit, -⟩, -⟩
  have hcut := fullDisk_cut
  rw [Option.map_eq_some_iff] at hcut
  obtain ⟨ws, hwrites, hnot⟩ := hcut
  have hall := hfit ws hwrites
  rw [storedGzip_output] at hall
  exact of_decide_eq_false hnot hall

end NodeScope.Backup
