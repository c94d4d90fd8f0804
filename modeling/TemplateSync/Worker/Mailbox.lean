import TemplateSync.Act
import TemplateSync.Message

set_option autoImplicit false

namespace TemplateSync

structure Mailbox where
  pending : List Message
  completed : Bool
  cancelled : Bool
  deriving DecidableEq

inductive Delivery where
  | message (message : Message)
  | closed
  | cancelled
  | wait
  deriving DecidableEq

namespace Mailbox

def empty : Mailbox := ⟨[], false, false⟩

def enqueue (message : Message) : Act Mailbox Unit := fun mailbox =>
  -- A message that comes too late changes nothing.
  if mailbox.completed then ⟨(), [.droppedAfterCompletion message.kind], mailbox⟩
  else ⟨(), [], { mailbox with pending := mailbox.pending ++ [message] }⟩

-- Cancellation comes first, then what is pending, then completion.
def take : Act Mailbox Delivery := fun mailbox =>
  if mailbox.cancelled then ⟨.cancelled, [], mailbox⟩
  else match mailbox.pending with
    | message :: rest => ⟨.message message, [], { mailbox with pending := rest }⟩
    | [] => ⟨if mailbox.completed then .closed else .wait, [], mailbox⟩

def complete (mailbox : Mailbox) : Mailbox :=
  { mailbox with completed := true }

def cancel (mailbox : Mailbox) : Mailbox :=
  { mailbox with cancelled := true }

def isCompleted (mailbox : Mailbox) : Bool :=
  mailbox.completed && mailbox.pending.isEmpty

def size (mailbox : Mailbox) : Nat :=
  mailbox.pending.length

end Mailbox

end TemplateSync
