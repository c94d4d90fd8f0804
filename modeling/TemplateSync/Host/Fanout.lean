import TemplateSync.Act
import TemplateSync.Envelope
import TemplateSync.Frame
import TemplateSync.Host.Workspace

set_option autoImplicit false

namespace TemplateSync

structure Client where
  id : Nat
  written : Bytes
  broken : Bool
  isOpen : Bool
  deriving DecidableEq

structure Fanout where
  clients : List Client
  -- Numbers stay below 2^64: no host accepts so many connections.
  nextId : Nat
  started : Bool
  stopped : Bool

namespace Client

def connected (id : Nat) : Client := ⟨id, [], false, true⟩

def write (client : Client) (text : String) : Except IoError Client :=
  match Frame.write text with
  | .error error => .error error
  | .ok frame =>
    if client.broken || !client.isOpen then .error (.os .brokenPipe)
    else .ok { client with written := client.written ++ frame }

def close (client : Client) : Client :=
  { client with isOpen := false }

end Client

namespace Fanout

def initial : Fanout := ⟨[], 1, false, false⟩

def bind : Act Fanout Unit := do
  Act.set initial
  Act.say .listening

-- Accepting starts once.
def start : Act Fanout Unit := fun fanout =>
  if fanout.started then ⟨(), [.alreadyStarted], fanout⟩ else ⟨(), [], { fanout with started := true }⟩

def remove (fanout : Fanout) (ids : List Nat) : Fanout :=
  { fanout with clients := fanout.clients.filter fun client => !ids.contains client.id }

def deliverTo (text : String) : List Client → List Client × List (Nat × IoError)
  | [] => ([], [])
  | client :: rest =>
    let (clients, failed) := deliverTo text rest
    match client.write text with
    | .ok client => (client :: clients, failed)
    -- The connection is shut down at once, and the client leaves the set after the round.
    | .error error => (client.close :: clients, (client.id, error) :: failed)

def deliver (text : String) : Act Fanout Nat := fun fanout =>
  let (clients, failed) := deliverTo text fanout.clients
  ⟨clients.length - failed.length, failed.map fun (id, error) => .sendFailed id error,
    { fanout with clients := clients }.remove (failed.map Prod.fst)⟩

def send (message : Message) : Act Fanout (Except Fault Nat) := do
  match message.encode with
  | .error fault => return .error fault
  | .ok text => return .ok (← deliver text)

def greet (client : Client) : List Message → Except String Client
  | [] => .ok client
  | message :: messages =>
    match message.encode with
    | .error fault => .error fault.message
    | .ok text =>
      match client.write text with
      | .error error => .error error.message
      | .ok client => greet client messages

def register (fanout : Fanout) : Client × Fanout :=
  let client := Client.connected fanout.nextId
  (client, { fanout with nextId := fanout.nextId + 1, clients := fanout.clients ++ [client] })

def update (fanout : Fanout) (client : Client) : Fanout :=
  { fanout with
    clients := fanout.clients.map fun known => if known.id = client.id then client else known }

-- The messages of the greeting are those of the moment of registration.
def accept (greeting : List Message) : Act Fanout (Option Client) := fun fanout =>
  let (client, fanout) := fanout.register
  match greet client greeting with
  | .ok client => ⟨some client, [.acceptedClient client.id], fanout.update client⟩
  | .error error => ⟨none, [.greetingFailed client.id error], fanout.remove [client.id]⟩

def stop : Act Fanout Unit := fun fanout =>
  if fanout.stopped then ⟨(), [], fanout⟩
  else ⟨(), [.listenerDisposed], { fanout with clients := [], stopped := true }⟩

def report (message : Message) : Except Fault Nat → Act Fanout Unit
  | .ok clients => Act.say (.broadcast message.kind clients)
  | .error fault => Act.say (.cannotEncode (some message.kind) fault)

def broadcast (message : Message) : Act Fanout Unit := do
  report message (← send message)

def sendSnapshot (snapshot : Act Fanout Message) :
    Act Fanout (Except Fault (Message × Nat)) := do
  let message ← snapshot
  return (← send message).map fun sent => (message, sent)

def broadcastSnapshot (snapshot : Act Fanout Message) : Act Fanout Unit := do
  match ← sendSnapshot snapshot with
  | .ok (message, clients) => Act.say (.broadcast message.kind clients)
  | .error fault => Act.say (.cannotEncode none fault)

def broadcaster : Broadcaster Fanout := ⟨broadcast, broadcastSnapshot⟩

end Fanout

end TemplateSync
