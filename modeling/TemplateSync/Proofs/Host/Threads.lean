import TemplateSync.Host.Watch
import TemplateSync.Proofs.Host.Uninterrupted
import TemplateSync.Proofs.Locks

set_option autoImplicit false

namespace TemplateSync

open Locks

structure Premises where
  fanout : Fanout
  ticker : Ticker
  manifest : Manifest
  files : FileTree
  runs : Command → Except IoError Finished
  -- What the emits have given, by the numbers of their threads.
  emissions : Nat → Option Emission
  acceptor : Option Nat
  timer : Option Nat
  halted : Bool

namespace Fanout

def writeTo (id : Nat) (text : String) : Act Fanout (Option Bool) := fun fanout =>
  match fanout.clients.find? fun client => client.id = id with
  | none => ⟨none, [], fanout⟩
  | some client =>
    match client.write text with
    | .ok next => ⟨some true, [], fanout.update next⟩
    | .error error => ⟨some false, [.sendFailed id error], fanout⟩

def takeId : Act Fanout Nat := fun fanout =>
  ⟨fanout.nextId, [], { fanout with nextId := fanout.nextId + 1 }⟩

def enrol (fanout : Fanout) (id : Nat) : Fanout :=
  { fanout with clients := fanout.clients ++ [.connected id] }

end Fanout

def Emission.ofResult : Except Fault Emitted → Emission
  | .ok made => emitted made
  | .error fault => failed fault

namespace Premises

inductive Lock where
  | writer (id : Nat)
  | clients
  | flags
  | entries
  | acceptor
  | socket
  deriving DecidableEq

inductive Call where
  | start
  | stop
  | stopListening
  | change (change : Change)
  | events (events : List FileEvent)
  | reload
  | tick (wait : Bool)
  | send (message : Message)
  | count
  | flags
  | roots
  deriving DecidableEq

inductive Role where
  | accepting
  | ticking
  | batch (projects : List ProjectDescriptor)
  | emit (project : ProjectDescriptor)
  | calling (call : Call)
  deriving DecidableEq

abbrev Routine := Script Premises Lock Role

section Routines

variable {α : Type}

def onFanout (act : Act Fanout α) : Routine α :=
  perform fanout (fun fanout s => { s with fanout := fanout }) act

def onTicker (act : Act Ticker α) : Routine α :=
  perform ticker (fun ticker s => { s with ticker := ticker }) act

def onManifest (act : Act Manifest α) : Routine α :=
  perform manifest (fun manifest s => { s with manifest := manifest }) act

end Routines

def projects : Routine (List ProjectDescriptor) :=
  within .entries .reading do return (← look).manifest.projects

def solution : Routine Message :=
  return .solution (← projects)

def reload : Routine (Except Fault Unit) := do
  let s ← look
  match Manifest.readEntries s.files s.manifest.path with
  | .error fault => return .error fault
  | .ok entries =>
    within .entries .writing (onManifest (Act.modify fun manifest => { manifest with entries := entries }))
    return .ok ()

-- The manifest's own path never changes; no lock is taken for it.
def classify (path : Path) : Routine (Option Change) := do
  let manifest := (← look).manifest
  if path.Same manifest.path then return some .solutionChanged
  else if (path.below (manifest.path.parent?.getD ⟨[]⟩)).any Watch.isIgnored then return none
  else if ← within .entries .reading do return (← look).manifest.isProjectFile path then
    return some .projectChanged
  else return some .documentChanged

def reloadFor (change : Change) : Routine Unit :=
  if change = .solutionChanged then discard reload else return ()

def handleFrom : List FileEvent → List Change → Routine (List Change)
  | [], told => return told.reverse
  | event :: events, told => do
    if event.continuous then handleFrom events told
    else match ← classify event.path with
      | none => handleFrom events told
      | some change =>
        if told.contains change then handleFrom events told
        else
          reloadFor change
          handleFrom events (change :: told)

def handle (events : List FileEvent) : Routine (List Change) :=
  handleFrom events []

def notify (change : Change) : Routine Unit :=
  within .flags .writing (onTicker (Ticker.onChange change))

def notifyAll : List Change → Routine Unit
  | [] => return ()
  | change :: changes => do
    notify change
    notifyAll changes

-- Of a client that has left the set it is not known what its connection takes.
def write (id : Nat) (text : String) : Routine Bool := do
  match ← onFanout (Fanout.writeTo id text) with
  | some arrived => return arrived
  | none => either

def shut (id : Nat) : Routine Unit :=
  onFanout (Act.modify fun fanout => fanout.shut id)

def remove (ids : List Nat) : Routine Unit :=
  within .clients .writing (onFanout (Act.modify fun fanout => fanout.remove ids))

def copy : Routine (List Nat) :=
  return (← look).fanout.clients.map Client.id

def deliverTo (text : String) : List Nat → Routine (List Nat)
  | [] => return []
  | id :: ids => do
    if ← within (.writer id) .writing (write id text) then deliverTo text ids
    else
      shut id
      return id :: (← deliverTo text ids)

-- The lock is taken only if there is someone to remove.
def prune (failed : List Nat) : Routine Unit :=
  if failed = [] then return () else remove failed

def deliver (text : String) (ids : List Nat) : Routine Nat := do
  let failed ← deliverTo text ids
  prune failed
  return ids.length - failed.length

def send (message : Message) : Routine (Except Fault Nat) := do
  match message.encode with
  | .error fault => return .error fault
  | .ok text =>
    let ids ← within .clients .writing copy
    return .ok (← deliver text ids)

def sendSnapshot (snapshot : Routine Message) : Routine (Except Fault (Message × Nat)) := do
  let (message, ids) ← within .clients .writing do
    let message ← snapshot
    return (message, ← copy)
  match message.encode with
  | .error fault => return .error fault
  | .ok text => return .ok (message, ← deliver text ids)

def greet (id : Nat) : List Message → Routine Bool
  | [] => return true
  | message :: messages => do
    match message.encode with
    | .error _ => return false
    | .ok text => if ← write id text then greet id messages else return false

def welcome (version : Int32) (id : Nat) : Routine Unit := do
  let greeted ← within (.writer id) .writing do
    let messages ← within .clients .writing do
      onFanout (Act.modify fun fanout => fanout.enrol id)
      return [.version version, ← solution]
    greet id messages
  if greeted then return ()
  else
    remove [id]
    shut id

-- A connection may be lost before it has been set up.
def accept (version : Int32) : Routine Unit := do
  let id ← onFanout Fanout.takeId
  if ← either then welcome version id

def accepting (version : Int32) : Routine Bool := do
  if (← look).fanout.stopped then return false
  else if ← either then
    accept version
    return true
  else return false

def startListening : Routine Bool := do
  let s ← within .socket .writing (swap fun s => { s with fanout := (Fanout.start s.fanout).state })
  if s.fanout.started then return true
  else if ← either then
    let number ← spawn .accepting
    within .acceptor .writing (alter fun s => { s with acceptor := some number })
    return true
  else return false

-- Either thread may be one too many.
def start : Routine Unit := do
  if ← startListening then
    if ← either then
      let number ← spawn .ticking
      alter fun s => { s with timer := some number }

def awaitEnd (role : Role) : Option Nat → Routine Unit
  | some number => await role number
  | none => return ()

-- The lock of the accepting thread's handle is kept until this thread has ended.
def stopListening : Routine Unit := do
  let s ← swap fun s => { s with fanout := { s.fanout with stopped := true } }
  if s.fanout.stopped then return ()
  else
    within .acceptor .writing do
      awaitEnd .accepting (← swap fun s => { s with acceptor := none }).acceptor
    within .clients .writing (onFanout (Act.modify fun fanout => { fanout with clients := [] }))

def stop : Routine Unit := do
  awaitEnd .ticking (← swap fun s => { s with halted := true, timer := none }).timer
  stopListening

def sendSolution (taken : DirtyFlags) : Routine Unit :=
  if taken.solution then discard (sendSnapshot solution) else return ()

def tick : Routine (Option (List ProjectDescriptor × Nat)) := do
  let taken ← within .flags .writing (onTicker Ticker.claim)
  sendSolution taken
  if taken.metadata then
    let listed ← projects
    if ← either then return some (listed, ← spawn (.batch listed))
    else
      within .flags .writing (onTicker (Act.modify Ticker.batchEnded))
      within .flags .writing (onTicker (Act.modify Ticker.metadataLeft))
      return none
  else return none

def ticking : Routine Bool := do
  if (← look).halted then return false
  else
    discard tick
    return true

def emitted (project : ProjectDescriptor) : Routine (Except Fault Emitted) := do
  let s ← look
  match Command.ofWords? s.manifest.metadataCommand with
  | none => return .error (.config "no metadata command configured")
  | some command =>
    match s.runs { command with arguments := command.arguments ++ [project.path] } with
    | .error error => return .error (.io error)
    | .ok finished =>
      if finished.status.success then
        within .entries .reading do return (← look).manifest.emittedOf project finished
      else return s.manifest.emittedOf project finished

-- An emit that crashes leaves nothing.
def emit (project : ProjectDescriptor) (number : Nat) : Routine Bool := do
  if ← either then
    let result ← emitted project
    alter fun s => { s with emissions := Function.update s.emissions number (some (.ofResult result)) }
    return false
  else return false

def spawnAll : List ProjectDescriptor → Routine (List (ProjectDescriptor × Nat))
  | [] => return []
  | project :: projects => do
    let number ← spawn (.emit project)
    return (project, number) :: (← spawnAll projects)

def awaitAll : List (ProjectDescriptor × Nat) → Routine Unit
  | [] => return ()
  | (project, number) :: emits => do
    await (.emit project) number
    awaitAll emits

def sendAll : List (ProjectDescriptor × Emission) → Routine Unit
  | [] => return ()
  | (project, .emitted emitted) :: results => do
    discard (send (Batch.message project emitted))
    sendAll results
  | (_, _) :: results => sendAll results

def sendResults (results : List (ProjectDescriptor × Emission)) : Routine Unit :=
  if results.any fun (_, emission) => emission = .crashed then return () else sendAll results

def batch (projects : List ProjectDescriptor) : Routine Bool := do
  let emits ← spawnAll projects
  awaitAll emits
  let s ← look
  sendResults (emits.map fun (project, number) => (project, (s.emissions number).getD .crashed))
  within .flags .writing (onTicker (Act.modify Ticker.batchEnded))
  return false

def Call.routine : Call → Int32 → Routine Unit
  | start, _ => Premises.start
  | stop, _ => Premises.stop
  | stopListening, _ => Premises.stopListening
  | change kind, _ => notify kind
  | events batch, _ => do notifyAll (← handle batch)
  | reload, _ => discard Premises.reload
  | tick wait, _ => do
    match ← Premises.tick with
    | some (projects, number) => if wait then await (.batch projects) number
    | none => return ()
  | send message, _ => discard (Premises.send message)
  | count, _ => discard (within .clients .writing look)
  | flags, _ => discard (within .flags .writing look)
  | roots, _ => discard (within .entries .reading look)

inductive Drifts (s : Premises) : Premises → Prop where
  | files (files : FileTree) : Drifts s { s with files := files }
  | runs (runs : Command → Except IoError Finished) : Drifts s { s with runs := runs }
  | broke (id : Nat) : Drifts s
      { s with
        fanout := { s.fanout with
          clients := s.fanout.clients.map fun client =>
            if client.id = id then { client with broken := true } else client } }

def program (version : Int32) : Program Premises Lock Role where
  body
    | .accepting, _ => accepting version
    | .ticking, _ => ticking
    | .batch projects, _ => batch projects
    | .emit project, number => emit project number
    | .calling call, _ => do
      call.routine version
      return false
  Enters role := ∃ call, role = .calling call
  Drifts := Drifts

end Premises

end TemplateSync
