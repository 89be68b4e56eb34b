import NodeScope.Lib.Machine

/-!
# The agent's sequence store

`OpenSequenceStore` and `Next` on a state directory that any number of processes may
have open. `Next` advances the counter in memory, writes it to a temporary file and
renames that file over the state file; each of these is a step of its own that may fail,
and the process may stop after any of them.

## Implementation notes

The two names of the directory refer to files by number, since a process that has opened
a file keeps writing to it after another one renamed it. The contents of a file are what
`json.Unmarshal` finds in it: nothing yet, a text that is no object, or an object with the
members it has. A write to a file that is not empty any more leaves a mixture of two
texts, and so does one that fails; the model takes any contents there.
-/

namespace NodeScope.Agent

open Lib

structure PersistedState where
  bootId : String
  sequence : Nat
deriving DecidableEq

inductive Contents where
  | empty
  | damaged
  | object (bootId : Option String) (sequence : Option Nat)
deriving DecidableEq

/-- `json.Marshal`. -/
def PersistedState.marshal (s : PersistedState) : Contents := .object (some s.bootId) (some s.sequence)

/-- `json.Unmarshal` into a value: the members that are there replace its own. -/
def PersistedState.unmarshal (s : PersistedState) : Contents → Option PersistedState
  | .empty => none
  | .damaged => none
  | .object bootId sequence => some ⟨bootId.getD s.bootId, sequence.getD s.sequence⟩

theorem PersistedState.unmarshal_marshal (s t : PersistedState) :
    s.unmarshal t.marshal = some t := rfl

/-- The files by number, and those that `sequence.json` and `sequence.json.tmp` name. -/
structure Directory where
  files : List Contents
  state : Option Nat
  temporary : Option Nat
deriving DecidableEq

namespace Directory

/-- `os.ReadFile` of the state file. -/
def readState (d : Directory) : Option Contents := d.state.bind fun file => d.files[file]?

/-- `os.OpenFile` of the temporary file, truncated or created. -/
def openTemporary (d : Directory) : Directory × Nat :=
  match d.temporary with
  | some file => ({ d with files := d.files.set file .empty }, file)
  | none => (⟨d.files ++ [.empty], d.state, some d.files.length⟩, d.files.length)

/-- A write at the start of an open file. -/
def write (d : Directory) (file : Nat) (contents mixture : Contents) : Directory :=
  let result := if d.files[file]? = some .empty then contents else mixture
  { d with files := d.files.set file result }

/-- `os.Rename` of the temporary file to the state file. -/
def rename (d : Directory) : Option Directory :=
  d.temporary.map fun file => ⟨d.files, some file, none⟩

end Directory

/-- `OpenSequenceStore`, when reading the boot id and the directory does not fail. -/
def openSequenceStore (d : Directory) (bootId : String) : Option PersistedState :=
  match d.readState with
  | none => some ⟨bootId, 0⟩
  | some contents =>
      (PersistedState.unmarshal ⟨bootId, 0⟩ contents).map fun s =>
        if s.bootId = bootId then s else ⟨bootId, 0⟩

/-- Where a call of `Next` stands; in `exited` the process with the store is gone. -/
inductive NextPhase where
  | exited
  | idle
  | advanced
  | opened (file : Nat)
  | written
  | closed
  | secured
  | renamed
deriving DecidableEq

structure SequenceStore where
  state : PersistedState
  phase : NextPhase
deriving DecidableEq

/-- A host: its boot id and the earlier ones, the directory, the stores opened since the
boot, the pairs that calls returned, in order, and the number of calls. -/
structure Host where
  bootId : String
  earlierBoots : List String
  directory : Directory
  stores : List SequenceStore
  returned : List (String × Nat)
  calls : Nat
deriving DecidableEq

inductive HostAction where
  | openStore
  | next (store : Nat)
  | proceed (store : Nat) (fails : Bool) (mixture : Contents)
  | crash (store : Nat)
  | reboot (bootId : String)
deriving DecidableEq

/-- One step of a call of `Next`: the directory and the phase after it, and whether the
call returned its pair. A step that fails ends the call and leaves the counter in memory
advanced. -/
def SequenceStore.proceed (store : SequenceStore) (d : Directory) (fails : Bool)
    (mixture : Contents) : Option (Directory × NextPhase × Bool) :=
  match store.phase with
  | .exited => none
  | .idle => none
  | .advanced =>
      if fails then some (d, .idle, false)
      else some (d.openTemporary.1, .opened d.openTemporary.2, false)
  | .opened file =>
      if fails then some ({ d with files := d.files.set file mixture }, .idle, false)
      else some (d.write file store.state.marshal mixture, .written, false)
  | .written => some (d, if fails then .idle else .closed, false)
  | .closed => some (d, if fails || d.temporary.isNone then .idle else .secured, false)
  | .secured =>
      if fails then some (d, .idle, false)
      else
        match d.rename with
        | none => some (d, .idle, false)
        | some renamed => some (renamed, .renamed, false)
  | .renamed => some (d, .idle, true)

def Host.step (host : Host) : HostAction → Option Host
  | .openStore =>
      (openSequenceStore host.directory host.bootId).map fun state =>
        { host with stores := host.stores ++ [⟨state, .idle⟩] }
  | .next i =>
      host.stores[i]?.bind fun store =>
        if store.phase = .idle then
          let state : PersistedState := ⟨store.state.bootId, (store.state.sequence + 1) % 2 ^ 64⟩
          let calls := host.calls + 1
          some { host with stores := host.stores.set i ⟨state, .advanced⟩, calls := calls }
        else none
  | .proceed i fails mixture =>
      host.stores[i]?.bind fun store =>
        (store.proceed host.directory fails mixture).map fun (directory, phase, returns) =>
          let pair := (store.state.bootId, store.state.sequence)
          let returned := if returns then host.returned ++ [pair] else host.returned
          let stores := host.stores.set i ⟨store.state, phase⟩
          { host with directory := directory, stores := stores, returned := returned }
  | .crash i =>
      host.stores[i]?.bind fun store =>
        some { host with stores := host.stores.set i ⟨store.state, .exited⟩ }
  | .reboot bootId =>
      if bootId = host.bootId ∨ bootId ∈ host.earlierBoots then none
      else
        let earlier := host.bootId :: host.earlierBoots
        some { host with bootId := bootId, earlierBoots := earlier, stores := [] }

def Host.run : Host → List HostAction → Option Host := Machine.run Host.step

/-- A host before the first start of the agent. A temporary file may have been left in the
directory. -/
def Host.init (bootId : String) (leftover : Option Contents) : Host :=
  ⟨bootId, [], ⟨leftover.toList, none, leftover.map fun _ => 0⟩, [], [], 0⟩

end NodeScope.Agent
