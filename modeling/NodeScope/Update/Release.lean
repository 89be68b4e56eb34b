import Mathlib.Logic.Function.Basic
import NodeScope.Lib.ByteText
import NodeScope.Lib.Check
import NodeScope.Lib.Path
import NodeScope.Lib.Reader
import NodeScope.Telemetry.Wire

/-!
# Staging of a release

`DownloadAndStage` fetches the checksum of a release, stores the archive under a temporary name in
the stage directory, compares the two, and takes the first entry with the name of the binary
through a partial file to its place.

## Implementation notes

A disk gives what a file holds. The fields of a failure record say which operations fail for a
reason outside the modelled files; removing a file does not. The random numbers of `CreateTemp` are
those it draws one after the other. `MkdirAll` of an empty name fails. `gzip` and `archive/tar` are
a parameter that lists the entries of an archive; an entry has as many bytes as its header says, or
ends with an error before.
-/

namespace NodeScope.Update

open Lib Lib.Check Lib.Text Lib.Path Lib.Reader
open Lib.ByteText (hexDecode hexEqualFold)

/-- The files of the disk. -/
abbrev Disk : Type := Location → Option Bytes

/-- `Artifact`. -/
structure Artifact where
  version : Bytes
  archiveURL : Bytes
  checksumURL : Bytes
  binaryName : Bytes
deriving DecidableEq

/-- `Result`. -/
structure StageResult where
  stagedBinary : Bytes
  sha256 : Bytes
  archivePath : Bytes
deriving DecidableEq

/-- A response, as far as it is read. -/
structure Download where
  statusCode : Int
  body : Source
deriving DecidableEq

/-- The answers of a client to the two requests; no answer is an error of `Do`. -/
structure Downloader where
  checksum : Option Download
  archive : Option Download
deriving DecidableEq

/-- The errors of `DownloadAndStage`, in the order of the source. -/
inductive ReleaseError where
  | clientRequired
  | fieldsRequired
  | httpsRequired
  | binaryName
  | stageDirectory
  | newRequest
  | downloadChecksum
  | checksumStatus (code : Int)
  | readChecksum
  | invalidChecksum
  | downloadArchive
  | archiveStatus (code : Int)
  | createArchive
  | copyArchive
  | closeArchive
  | hashArchive
  | checksumMismatch
  | openArchive
  | gunzip
  | nextEntry
  | invalidEntry
  | createPartial
  | copyPartial
  | closePartial
  | rename
  | notContained (binaryName : Bytes)
deriving DecidableEq

/-- An entry of an archive; what is read of it is complete, or ends with an error. -/
structure TarEntry where
  name : Bytes
  typeflag : UInt8
  size : Int
  body : Source
  bounded : (body.content.length : Int) ≤ size
  complete : body.ending = .eof → (body.content.length : Int) = size

/-- The entries that `Next` returns, and whether it ends with the end of the archive. -/
structure TarContents where
  entries : List TarEntry
  ending : Ending

/-- The calls of the operating system that fail. -/
structure StageFailures where
  mkdirAll : Bool
  createTemp : Bool
  copyArchive : Bool
  closeArchive : Bool
  hashArchive : Bool
  openArchive : Bool
  createPartial : Bool
  copyPartial : Bool
  closePartial : Bool
  rename : Bool
deriving DecidableEq

/-- The surroundings of a call: the working directory, the numbers that `CreateTemp` draws, the readers
of archives and the failures. -/
structure StageEnv where
  cwd : Location
  randoms : List UInt32
  untar : Bytes → Option TarContents
  fails : StageFailures

/-- The disk, and the files that were created or replaced on it. -/
structure Work where
  disk : Disk
  touched : List Location

namespace Work

def put (w : Work) (file : Location) (content : Bytes) : Work :=
  ⟨Function.update w.disk file (some content), w.touched ++ [file]⟩

def remove (w : Work) (file : Location) : Work :=
  { w with disk := Function.update w.disk file none }

def rename (w : Work) (source target : Location) : Option Work :=
  (w.disk source).map fun content =>
    ⟨Function.update (Function.update w.disk source none) target (some content),
      w.touched ++ [target]⟩

end Work

section Checksum

def checksumLimit : Nat := 4096

/-- `fetchChecksum`. -/
def fetchChecksum (client : Downloader) (url : Bytes) : Except ReleaseError Bytes := do
  let _ ← orFail (Url.parse url) .newRequest
  let response ← orFail client.checksum .downloadChecksum
  failIf (response.statusCode != 200) (.checksumStatus response.statusCode)
  let (body, ending) := response.body.readLimited checksumLimit
  failIf (ending == .failed) .readChecksum
  let field ← orFail (ByteText.fields body).head? .invalidChecksum
  failIf (field.length != 64) .invalidChecksum
  let _ ← orFail (hexDecode field) .invalidChecksum
  .ok (field.map Url.lower)

end Checksum

section Archive

/-- The name that `CreateTemp` tries for a random number. -/
def tempName (directory : Bytes) (random : UInt32) : Bytes :=
  let start := if directory.getLast? == some slash then directory else directory ++ [slash]
  start ++ (utf8 "release-" ++ utf8 (toString random.toNat) ++ utf8 ".tar.gz")

/-- `CreateTemp`: the first name that no file has. -/
def createTemp (env : StageEnv) (directory : Bytes) (disk : Disk) : Option Bytes :=
  if env.fails.createTemp then none
  else (env.randoms.map (tempName directory)).find? fun name => (disk (resolve env.cwd name)).isNone

def archiveLimit : Nat := 256 * 2 ^ 20

/-- `fetchArchive`. -/
def fetchArchive (env : StageEnv) (client : Downloader) (url directory : Bytes) (disk : Disk) :
    Except ReleaseError Bytes × Work :=
  let before : Work := ⟨disk, []⟩
  match Url.parse url, client.archive with
  | none, _ => (.error .newRequest, before)
  | some _, none => (.error .downloadArchive, before)
  | some _, some response =>
      if response.statusCode != 200 then (.error (.archiveStatus response.statusCode), before)
      else
        match createTemp env directory disk with
        | none => (.error .createArchive, before)
        | some name =>
            let (content, ending) := response.body.readLimited archiveLimit
            let file := resolve env.cwd name
            let written := before.put file content
            if ending == .failed || env.fails.copyArchive then
              (.error .copyArchive, written.remove file)
            else if env.fails.closeArchive then (.error .closeArchive, written.remove file)
            else (.ok name, written)

/-- `fileSHA256`. -/
def fileSHA256 (env : StageEnv) (path : Bytes) (disk : Disk) : Except ReleaseError Bytes := do
  failIf env.fails.hashArchive .hashArchive
  let content ← orFail (disk (resolve env.cwd path)) .hashArchive
  .ok (utf8 (Telemetry.hexEncode (Sha256.sha256 content).toList))

/-- `tar.TypeReg`. -/
def typeReg : UInt8 := 0x30

def binaryLimit : Int := 128 * 2 ^ 20

def TarEntry.valid (entry : TarEntry) : Bool :=
  entry.typeflag == typeReg && 0 < entry.size && entry.size ≤ binaryLimit

def partialPath (destination : Bytes) : Bytes := destination ++ utf8 ".partial"

/-- The part of `extractBinary` from the partial file on. -/
def placeEntry (env : StageEnv) (entry : TarEntry) (destination : Bytes) (w : Work) :
    Except ReleaseError Unit × Work :=
  if env.fails.createPartial then (.error .createPartial, w)
  else
    let temporary := resolve env.cwd (partialPath destination)
    let (content, ending) := entry.body.readLimited (entry.size + 1).toNat
    let written := w.put temporary content
    if ending == .failed || env.fails.copyPartial then
      (.error .copyPartial, written.remove temporary)
    else if env.fails.closePartial then (.error .closePartial, written.remove temporary)
    else if env.fails.rename then (.error .rename, written)
    else
      match written.rename temporary (resolve env.cwd destination) with
      | none => (.error .rename, written)
      | some renamed => (.ok (), renamed)

/-- `extractBinary`. -/
def extractBinary (env : StageEnv) (archive binaryName destination : Bytes) (w : Work) :
    Except ReleaseError Unit × Work :=
  if env.fails.openArchive then (.error .openArchive, w)
  else
    match w.disk (resolve env.cwd archive) with
    | none => (.error .openArchive, w)
    | some content =>
        match env.untar content with
        | none => (.error .gunzip, w)
        | some contents =>
            match contents.entries.find? fun entry => entry.name == binaryName with
            | none =>
                (.error (if contents.ending == .eof then .notContained binaryName else .nextEntry), w)
            | some entry =>
                if !entry.valid then (.error .invalidEntry, w)
                else placeEntry env entry destination w

end Archive

section Staging

def checkArtifact (env : StageEnv) (client : Option Downloader) (artifact : Artifact)
    (stageDirectory : Bytes) : Except ReleaseError Downloader := do
  let client ← orFail client .clientRequired
  failIf (artifact.version == [] || artifact.archiveURL == [] || artifact.checksumURL == [] ||
    artifact.binaryName == []) .fieldsRequired
  failIf (!(utf8 "https://").isPrefixOf artifact.archiveURL ||
    !(utf8 "https://").isPrefixOf artifact.checksumURL) .httpsRequired
  failIf (base artifact.binaryName != artifact.binaryName) .binaryName
  failIf (env.fails.mkdirAll || stageDirectory == []) .stageDirectory
  .ok client

def stagedPath (artifact : Artifact) (stageDirectory : Bytes) : Bytes :=
  join stageDirectory (artifact.binaryName ++ (utf8 "." ++ artifact.version))

/-- The part of `DownloadAndStage` after the archive has been stored. -/
def stageArchive (env : StageEnv) (artifact : Artifact) (stageDirectory checksum archive : Bytes)
    (w : Work) : Except ReleaseError StageResult × Work :=
  match fileSHA256 env archive w.disk with
  | .error e => (.error e, w)
  | .ok observed =>
      if !hexEqualFold checksum observed then (.error .checksumMismatch, w)
      else
        let staged := stagedPath artifact stageDirectory
        match extractBinary env archive artifact.binaryName staged w with
        | (.error e, w') => (.error e, w')
        | (.ok (), w') => (.ok ⟨staged, observed, archive⟩, w')

/-- The checks and the checksum, which leave the disk alone. -/
def prepare (env : StageEnv) (client : Option Downloader) (artifact : Artifact)
    (stageDirectory : Bytes) : Except ReleaseError (Downloader × Bytes) := do
  let client ← checkArtifact env client artifact stageDirectory
  let checksum ← fetchChecksum client artifact.checksumURL
  .ok (client, checksum)

/-- `DownloadAndStage`. -/
def downloadAndStage (env : StageEnv) (client : Option Downloader) (artifact : Artifact)
    (stageDirectory : Bytes) (disk : Disk) : Except ReleaseError StageResult × Work :=
  match prepare env client artifact stageDirectory with
  | .error e => (.error e, ⟨disk, []⟩)
  | .ok (client, checksum) =>
      match fetchArchive env client artifact.archiveURL stageDirectory disk with
      | (.error e, w) => (.error e, w)
      | (.ok archive, w) => stageArchive env artifact stageDirectory checksum archive w

end Staging

end NodeScope.Update
