import TemplateSync.Envelope
import TemplateSync.Frame
import TemplateSync.Worker.Mailbox

set_option autoImplicit false

namespace TemplateSync

inductive IntakePhase where
  | ready
  | holding (message : Message)
  | finished
  deriving DecidableEq

structure Intake where
  stream : Frame.Stream
  phase : IntakePhase
  cancelled : Bool

namespace Intake

def start (stream : Frame.Stream) (cancelled : Bool) : Intake :=
  ⟨stream, .ready, cancelled⟩

def received (text : String) : Message → Event
  | .error _ detail => .unreadableMessage text detail
  | message => .gotMessage message.kind

def stopped : Frame.Fault → Event
  | .endOfStream => .connectionClosed
  | fault => .readFailed fault.message

-- One step: a look at the flag and a read, or a look at the flag and a message handed on.
def step (limit : Nat) (intake : Intake) : Act Mailbox Intake :=
  match intake.phase with
  | .finished => pure intake
  | .ready =>
    if intake.cancelled then pure { intake with phase := .finished }
    else match Frame.read limit intake.stream with
      | (.error fault, rest) => do
        Act.say (stopped fault)
        -- The flag is raised too, for whoever looks at it after the end.
        return ⟨rest, .finished, true⟩
      | (.ok text, rest) => do
        let message := Message.read text
        Act.say (received text message)
        return { intake with stream := rest, phase := .holding message }
  | .holding message =>
    -- A message that is at hand when reading is cancelled is not handed on.
    if intake.cancelled then pure { intake with phase := .finished }
    else do
      Mailbox.enqueue message
      return { intake with phase := .ready }

def runFor (limit : Nat) : Nat → Intake → Act Mailbox Intake
  | 0, intake => pure intake
  | fuel + 1, intake =>
    if intake.phase = .finished then pure intake
    else do runFor limit fuel (← step limit intake)

-- Reads to the end. Each text takes an octet at least and two steps.
def run (limit : Nat) (intake : Intake) : Act Mailbox Intake :=
  runFor limit (2 * Frame.octets intake.stream + 4) intake

end Intake

end TemplateSync
