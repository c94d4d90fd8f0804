import TemplateSync.Host.Workspace

set_option autoImplicit false

namespace TemplateSync

structure Ticker where
  flags : DirtyFlags
  batchInFlight : Bool
  deriving DecidableEq

/-- The projects whose metadata a batch emits, as they were listed when it started. -/
structure Batch where
  projects : List ProjectDescriptor
  deriving DecidableEq

structure TickOutcome where
  solutionSent : Bool
  batch : Option Batch

namespace Ticker

variable {σ : Type}

def initial : Ticker := ⟨.clean, false⟩

def onChange (change : Change) : Act Ticker Unit := fun ticker =>
  ⟨(), [.workspaceChanged change], { ticker with flags := ticker.flags.mark change }⟩

-- Takes the flags in one step. Metadata stays dirty while a batch is running.
def claim : Act Ticker DirtyFlags := fun ticker =>
  let (taken, rest) := ticker.flags.take
  if !taken.metadata then ⟨taken, [], { ticker with flags := rest }⟩
  -- The list may still go out; the metadata waits for a later tick.
  else if ticker.batchInFlight then
    ⟨{ taken with metadata := false }, [.deferringBatch],
      { ticker with flags := { rest with metadata := true } }⟩
  else ⟨taken, [], ⟨rest, true⟩⟩

def batchEnded (ticker : Ticker) : Ticker :=
  { ticker with batchInFlight := false }

def metadataLeft (ticker : Ticker) : Ticker :=
  { ticker with flags := { ticker.flags with metadata := true } }

-- A batch that could not be started has ended, and after that its metadata is dirty again.
def batchNotStarted (fault : Fault) : Act Ticker Unit := do
  Act.modify batchEnded
  Act.say (.batchNotStarted fault)
  Act.modify metadataLeft

def solution (workspace : Workspace σ) : Act σ Message := do
  let projects ← workspace.list
  Act.say (.updatingSolution projects.length)
  return .solution projects

def sendSolution (workspace : Workspace σ) (broadcaster : Broadcaster σ) (flags : DirtyFlags) :
    Act σ Bool := do
  if flags.solution then
    broadcaster.broadcastSnapshot (solution workspace)
    return true
  else return false

def prepareBatch (workspace : Workspace σ) (flags : DirtyFlags) : Act σ (Option Batch) := do
  if flags.metadata then
    let projects ← workspace.list
    Act.say (.startingBatch projects.length)
    return some ⟨projects⟩
  else return none

def ticking {α : Type} : Act Ticker α → Act (Ticker × σ) α :=
  Act.zoom Prod.fst fun ticker whole => (ticker, whole.2)

def outside {α : Type} : Act σ α → Act (Ticker × σ) α :=
  Act.zoom Prod.snd fun state whole => (whole.1, state)

-- The list goes out before a batch reads its projects.
def tick (workspace : Workspace σ) (broadcaster : Broadcaster σ) :
    Act (Ticker × σ) TickOutcome := do
  let flags ← ticking claim
  let sent ← outside (sendSolution workspace broadcaster flags)
  let batch ← outside (prepareBatch workspace flags)
  return ⟨sent, batch⟩

end Ticker

namespace Batch

variable {σ : Type}

def emitAll (workspace : Workspace σ) :
    List ProjectDescriptor → Act σ (List (ProjectDescriptor × Emission))
  | [] => pure []
  | project :: projects => do
    Act.say (.compiling project.name)
    let emission ← workspace.emit project
    let rest ← emitAll workspace projects
    return (project, emission) :: rest

def message (project : ProjectDescriptor) (emitted : Emitted) : Message :=
  .metadata ⟨project.id, project.name, emitted.assemblyName, emitted.bytes⟩

def sendOne (broadcaster : Broadcaster σ) (project : ProjectDescriptor) : Emission → Act σ Nat
  | .emitted emitted => do
    Act.say (.emitSucceeded project.name emitted.bytes.length)
    broadcaster.broadcast (message project emitted)
    return 1
  | .failed fault => do
    Act.say (.emitFailed project.name fault)
    return 0
  | .crashed => pure 0

def sendAll (broadcaster : Broadcaster σ) : List (ProjectDescriptor × Emission) → Act σ Nat
  | [] => pure 0
  | (project, emission) :: rest => do
    let sent ← sendOne broadcaster project emission
    return sent + (← sendAll broadcaster rest)

-- All emits come before the first message, so a crash of one keeps all from being sent.
def run (batch : Batch) (workspace : Workspace σ) (broadcaster : Broadcaster σ) :
    Act σ (Option Nat) := do
  let results ← emitAll workspace batch.projects
  if results.any fun (_, emission) => emission = .crashed then return none
  else return some (← sendAll broadcaster results)

def wait (result : Option Nat) : Act σ Nat :=
  match result with
  | some sent => pure sent
  | none => do
    Act.say .batchCrashed
    return 0

end Batch

end TemplateSync
