import TemplateSync.Cli.Options
import TemplateSync.Host.Watch
import TemplateSync.Settings
import TemplateSync.Worker.Pipeline
import TemplateSync.World

set_option autoImplicit false

namespace TemplateSync

def Fault.chain : Fault → List String
  | .io error => [(Fault.io error).message, error.message]
  | .json detail => [(Fault.json detail).message, detail]
  | .toml detail => [(Fault.toml detail).message, detail]
  | fault => [fault.message]

namespace Cli

/-- How a program ends; one that waits forever has no exit code. -/
structure Ending where
  code : Option Nat
  error : Option String
  events : List Event
  served : Bool
  world : World

def refused (world : World) : Refusal → Ending
  | .help => ⟨some 0, none, [], false, world⟩
  | .usage => ⟨some 2, none, [], false, world⟩

def failed (world : World) (events : List Event) (contexts : List String) (fault : Fault) : Ending :=
  ⟨some 1, some ("Error: " ++ ": ".intercalate (contexts ++ fault.chain)), events, false, world⟩

def workerFlags : List Flag :=
  [⟨"port", some 'p', some (isNumberUpTo maxPort)⟩, ⟨"debug", some 'd', none⟩,
    ⟨"config", some 'c', some isPath⟩]

def hostFlags : List Flag :=
  [⟨"manifest", some 'm', some isPath⟩, ⟨"config", some 'c', some isPath⟩,
    ⟨"spawn-worker", none, some isPath⟩, ⟨"tick-ms", none, some (isNumberUpTo maxWord)⟩]

def pathOf? (given : Given) (name : String) : Option Path :=
  (given.lookup name).map Path.ofString

structure WorkerRun where
  result : Except Fault Unit
  events : List Event
  readerEvents : List Event
  workerEvents : List Event
  world : World

def runWorker (settings : WorkerSettings) (world : World) : WorkerRun :=
  match world.connect with
  | .error error => ⟨.error (.io error), [.connecting], [], [], world⟩
  | .ok stream =>
    let bench := World.workbench (settings.toolchain World.files World.run)
    let (session, world) := Worker.serveStream bench settings.templateExtension
      settings.maxFrameLength stream world
    ⟨.ok (), [.connecting, .connected, .workerFinished], session.readerEvents,
      session.workerEvents, world⟩

def worker (world : World) (words : List String) : Ending :=
  match read workerFlags ["port"] words with
  | .error refusal => refused world refusal
  | .ok given =>
    match WorkerSettings.load world.files (pathOf? given "config") with
    | .error fault => failed world [] ["cannot load worker config"] fault
    | .ok settings =>
      let run := runWorker settings world
      match run.result with
      | .error fault =>
        let port := ((given.lookup "port").bind number?).getD 0
        failed run.world run.events [s!"cannot serve host on port {port}"] fault
      | .ok () =>
        ⟨some 0, none, run.readerEvents ++ run.workerEvents ++ run.events, true, run.world⟩

-- The number under which a host listens when it may choose.
def chosenPort : Nat := 47653

-- Stopping wakes the listener by a connection of the host to itself.
def stopped (world : World) (events : List Event) : Ending :=
  match world.network with
  | .unreachable => ⟨none, none, events, false, world⟩
  | _ => ⟨some 0, none, events ++ [.timerStopped, .listenerDisposed], false, world⟩

def watchEvents (world : World) (manifest : Manifest) (settings : HostSettings) : List Event :=
  match Watch.start world.files manifest settings.debounceMilliseconds with
  | .ok (_, events) => events
  | .error error => [.watcherNotStarted error.message]

def launch (world : World) (events : List Event) (settings : HostSettings) (worker : String) :
    Ending :=
  let port := if settings.port = 0 then chosenPort else settings.port
  let events := events ++ [.launchingWorker (Path.ofString worker)]
  let launched := World.run ⟨worker, ["--port", toString port]⟩ [] world
  match launched.value with
  | .error error =>
    ⟨some 1, some s!"Error: cannot launch {worker}: {error.message}", events, false, world⟩
  | .ok finished => stopped launched.state (events ++ [.workerExited finished.status.text])

def host (world : World) (words : List String) : Ending :=
  match read hostFlags ["manifest"] words with
  | .error refusal => refused world refusal
  | .ok given =>
    match HostSettings.load world.files (pathOf? given "config") with
    | .error fault => failed world [] ["cannot load host config"] fault
    | .ok settings =>
      let tick := ((given.lookup "tick-ms").bind number?).getD settings.tickMilliseconds
      let path := (given.lookup "manifest").getD ""
      match Manifest.load world.files (Path.ofString path) settings.metadataCommand with
      | .error fault => failed world [] [s!"cannot load manifest {path}"] fault
      | .ok (manifest, loaded) =>
        let events := loaded ++ [.listening, .hostStarted tick] ++ watchEvents world manifest settings
        match given.lookup "spawn-worker" with
        | none => ⟨none, none, events, false, world⟩
        | some worker => launch world events settings worker

end Cli

end TemplateSync
