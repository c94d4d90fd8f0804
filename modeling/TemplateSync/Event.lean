import TemplateSync.Change
import TemplateSync.Fault
import TemplateSync.Path
import TemplateSync.Uuid

set_option autoImplicit false

namespace TemplateSync

inductive Level where
  | debug
  | info
  | warn
  | error
  deriving DecidableEq

inductive Field where
  | number (value : Int)
  | text (value : String)
  | address
  deriving DecidableEq

inductive Event where
  | spawning (program : String)
  | connecting
  | connected
  | workerFinished
  | processorCancelled
  | queueCompleted
  | hostVersion (version supported : Int32)
  | clearingProjects (previous : Nat)
  | addingProject (project : String) (documents : Nat)
  | foundDocument (document : Path)
  | unknownProjectReferences (id : Uuid)
  | updatingReferences (project : String) (references : Nat)
  | unknownProjectMetadata (id : Uuid) (project : String)
  | updatingMetadata (project : String) (bytes : Nat)
  | unresolvedReference (project : String) (reference : Path) (error : String)
  | updatedDocuments (project : String) (generated failed errors : Nat)
  | generating (document : String)
  | cannotOpenDocument (document : Path) (error : IoError)
  | generated (document : String) (length : Nat)
  | templateError (document error : String)
  | compileError (project diagnostic : String)
  | compilerFailed (project : String) (error : Fault)
  | errorMessage (text : String) (detail : Option String)
  | unknownMessage (tag body : String)
  | droppedAfterCompletion (kind : String)
  | connectionClosed
  | readFailed (error : String)
  | unreadableMessage (text : String) (detail : Option String)
  | gotMessage (kind : String)
  | listening
  | alreadyStarted
  | acceptFailed (error : IoError)
  | listenerStopped
  | clientSetupFailed (error : IoError)
  | greetingFailed (client : Nat) (error : String)
  | acceptedClient (client : Nat)
  | sendFailed (client : Nat) (error : IoError)
  | listenerDisposed
  | broadcast (kind : String) (clients : Nat)
  | cannotEncode (kind : Option String) (error : Fault)
  | manifestLoaded (manifest : Path) (projects : Nat)
  | manifestReloaded (projects : Nat)
  | hostStarted (tickMilliseconds : Nat)
  | workspaceChanged (change : Change)
  | deferringBatch
  | updatingSolution (projects : Nat)
  | startingBatch (projects : Nat)
  | batchNotStarted (error : Fault)
  | compiling (project : String)
  | emitSucceeded (project : String) (bytes : Nat)
  | emitFailed (project : String) (error : Fault)
  | batchCrashed
  | timerStopped
  | watcherFault (error : String)
  | watcherStarted (roots debounceMilliseconds : Nat)
  | watcherNotStarted (error : String)
  | skippingContinuous (file : Path)
  | reloadFailed (error : Fault)
  | workspaceEvents (changes : List Change)
  | launchingWorker (worker : Path)
  | workerExited (status : String)
  deriving DecidableEq

namespace Event

def level : Event → Level
  | spawning _ | processorCancelled | queueCompleted | foundDocument _ | updatingReferences _ _
  | generating _ | generated _ _ | droppedAfterCompletion _ | gotMessage _ | listenerStopped
  | broadcast _ _ | manifestReloaded _ | workspaceChanged _ | deferringBatch | compiling _
  | timerStopped | skippingContinuous _ | workspaceEvents _ => .debug
  | connecting | connected | workerFinished | clearingProjects _ | addingProject _ _
  | updatingMetadata _ _ | updatedDocuments _ _ _ _ | unknownMessage _ _ | connectionClosed
  | readFailed _ | listening | acceptedClient _ | listenerDisposed | manifestLoaded _ _
  | hostStarted _ | updatingSolution _ | startingBatch _ | emitSucceeded _ _
  | watcherStarted _ _ | launchingWorker _ | workerExited _ => .info
  | unknownProjectReferences _ | unknownProjectMetadata _ _ | unresolvedReference _ _ _
  | cannotOpenDocument _ _ | templateError _ _ | compileError _ _ | compilerFailed _ _
  | errorMessage _ _ | unreadableMessage _ _ | alreadyStarted | clientSetupFailed _
  | greetingFailed _ _ | sendFailed _ _ | batchNotStarted _ | emitFailed _ _ | batchCrashed
  | watcherFault _ | watcherNotStarted _ | reloadFailed _ => .warn
  | acceptFailed _ | cannotEncode _ _ => .error
  | hostVersion version supported => if version = supported then .info else .warn

def message : Event → String
  | spawning _ => "spawning"
  | connecting => "connecting"
  | connected => "connected"
  | workerFinished => "worker finished"
  | processorCancelled => "processor cancelled"
  | queueCompleted => "queue completed"
  | hostVersion version supported =>
    if version = supported then "host protocol version"
    else "unsupported host protocol version, continuing"
  | clearingProjects _ => "clearing projects"
  | addingProject _ _ => "adding project"
  | foundDocument _ => "found document"
  | unknownProjectReferences _ => "reference update for unknown project, dropping"
  | updatingReferences _ _ => "updating references"
  | unknownProjectMetadata _ _ => "metadata for unknown project, dropping"
  | updatingMetadata _ _ => "updating metadata"
  | unresolvedReference _ _ _ => "unresolved reference"
  | updatedDocuments _ _ _ _ => "updated documents"
  | generating _ => "generating"
  | cannotOpenDocument _ _ => "cannot open document"
  | generated _ _ => "generated"
  | templateError _ _ => "parser error"
  | compileError _ _ => "compile error"
  | compilerFailed _ _ => "compiler failed"
  | errorMessage _ _ => "error message"
  | unknownMessage _ _ => "unknown message"
  | droppedAfterCompletion _ => "queue completed, dropping message"
  | connectionClosed => "connection closed, shutting down"
  | readFailed _ => "read failed, shutting down"
  | unreadableMessage _ _ => "parse error"
  | gotMessage _ => "got message"
  | listening => "listening"
  | alreadyStarted => "listener already started"
  | acceptFailed _ => "accept failed, stopping listener"
  | listenerStopped => "listener stopped"
  | clientSetupFailed _ => "cannot set up client"
  | greetingFailed _ _ => "greeting failed, dropping client"
  | acceptedClient _ => "accepted client"
  | sendFailed _ _ => "send failed, pruning client"
  | listenerDisposed => "listener disposed"
  | broadcast _ _ => "broadcast"
  | cannotEncode _ _ => "cannot encode broadcast"
  | manifestLoaded _ _ => "manifest loaded"
  | manifestReloaded _ => "manifest reloaded"
  | hostStarted _ => "host started"
  | workspaceChanged _ => "workspace changed"
  | deferringBatch => "metadata batch still running, deferring"
  | updatingSolution _ => "updating solution"
  | startingBatch _ => "updating metadata"
  | batchNotStarted _ => "cannot start metadata batch"
  | compiling _ => "compiling"
  | emitSucceeded _ _ => "emit success"
  | emitFailed _ _ => "emit failed"
  | batchCrashed => "metadata batch panicked"
  | timerStopped => "timer stopped"
  | watcherFault _ => "file watcher error"
  | watcherStarted _ _ => "file watcher started"
  | watcherNotStarted _ => "file watcher failed to start"
  | skippingContinuous _ => "skipping continuous write"
  | reloadFailed _ => "manifest reload failed, keeping previous projects"
  | workspaceEvents _ => "workspace events"
  | launchingWorker _ => "launching worker"
  | workerExited _ => "worker exited"

def count (name : String) (n : Nat) : String × Field := (name, .number n)

def words (name value : String) : String × Field := (name, .text value)

def names (changes : List Change) : String :=
  "[" ++ ", ".intercalate (changes.map Change.name) ++ "]"

def fields : Event → List (String × Field)
  | spawning program => [words "program" program]
  | connecting | connected => [("addr", .address)]
  | hostVersion version supported =>
    if version = supported then [("version", .number version.toInt)]
    else [("version", .number version.toInt), ("supported", .number supported.toInt)]
  | clearingProjects previous => [count "previous" previous]
  | addingProject project documents => [words "project" project, count "documents" documents]
  | foundDocument document => [words "document" document.display]
  | unknownProjectReferences id => [words "id" id.print]
  | updatingReferences project references => [words "project" project, count "references" references]
  | unknownProjectMetadata id project => [words "id" id.print, words "project" project]
  | updatingMetadata project bytes => [words "project" project, count "bytes" bytes]
  | unresolvedReference project reference error =>
    [words "project" project, words "reference" reference.display, words "error" error]
  | updatedDocuments project done failed errors =>
    [words "project" project, count "generated" done, count "failed" failed, count "errors" errors]
  | generating document => [words "document" document]
  | cannotOpenDocument document error =>
    [words "document" document.display, words "error" error.message]
  | generated document length => [words "document" document, count "len" length]
  | templateError document error => [words "document" document, words "error" error]
  | compileError project diagnostic => [words "project" project, words "diagnostic" diagnostic]
  | compilerFailed project error => [words "project" project, words "error" error.message]
  | errorMessage text detail => [words "detail" (detail.getD "none"), words "text" text]
  | unknownMessage tag body => [words "type_tag" tag, words "body" body]
  | droppedAfterCompletion kind => [words "kind" kind]
  | readFailed error => [words "error" error]
  | unreadableMessage text detail => [words "detail" (detail.getD ""), words "text" text]
  | gotMessage kind => [words "kind" kind]
  | listening => [("port", .address)]
  | acceptFailed error => [words "error" error.message]
  | clientSetupFailed error => [words "error" error.message]
  | greetingFailed client error => [count "client" client, words "error" error]
  | acceptedClient client => [count "client" client, ("peer", .address)]
  | sendFailed client error => [count "client" client, words "error" error.message]
  | broadcast kind clients => [words "kind" kind, count "clients" clients]
  | cannotEncode kind error =>
    (kind.map (words "kind")).toList ++ [words "error" error.message]
  | manifestLoaded manifest projects =>
    [words "manifest" manifest.display, count "projects" projects]
  | manifestReloaded projects => [count "projects" projects]
  | hostStarted tick => [("port", .address), count "tick_ms" tick]
  | workspaceChanged change => [words "kind" change.name]
  | updatingSolution projects | startingBatch projects => [count "projects" projects]
  | batchNotStarted error | reloadFailed error => [words "error" error.message]
  | compiling project => [words "project" project]
  | emitSucceeded project bytes => [words "project" project, count "bytes" bytes]
  | emitFailed project error => [words "project" project, words "error" error.message]
  | watcherFault error | watcherNotStarted error => [words "error" error]
  | watcherStarted roots debounce => [count "roots" roots, count "debounce_ms" debounce]
  | skippingContinuous file => [words "file" file.display]
  | workspaceEvents changes => [words "kinds" (names changes)]
  | launchingWorker worker => [words "worker" worker.display, ("port", .address)]
  | workerExited status => [words "status" status]
  | workerFinished | processorCancelled | queueCompleted | connectionClosed | alreadyStarted
  | listenerStopped | listenerDisposed | deferringBatch | batchCrashed | timerStopped => []

end Event

end TemplateSync
