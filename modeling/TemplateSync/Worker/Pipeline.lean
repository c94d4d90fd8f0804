import TemplateSync.Worker.Basic
import TemplateSync.Worker.Intake

set_option autoImplicit false

namespace TemplateSync.Worker

variable {σ : Type}

-- Takes and applies one message; `false` where there is nothing more to take.
def serveOne (bench : Workbench σ) (extension : String) (worker : Worker) :
    Act (Mailbox × σ) (Worker × Bool) := do
  match ← Act.zoom Prod.fst (fun mailbox whole => (mailbox, whole.2)) Mailbox.take with
  | .message message =>
    let (_, worker) ← Act.zoom Prod.snd (fun state whole => (whole.1, state))
      (handle bench extension worker message)
    return (worker, true)
  | .cancelled =>
    Act.say .processorCancelled
    return (worker, false)
  | .closed =>
    Act.say .queueCompleted
    return (worker, false)
  | .wait => return (worker, false)

def serveFor (bench : Workbench σ) (extension : String) :
    Nat → Worker → Act (Mailbox × σ) Worker
  | 0, worker => pure worker
  | fuel + 1, worker => do
    match ← serveOne bench extension worker with
    | (worker, true) => serveFor bench extension fuel worker
    | (worker, false) => return worker

def serve (bench : Workbench σ) (extension : String) (worker : Worker) :
    Act (Mailbox × σ) Worker := do
  let (mailbox, _) ← Act.get
  serveFor bench extension (mailbox.size + 1) worker

structure Session where
  worker : Worker
  readerEvents : List Event
  workerEvents : List Event

-- Serves a whole stream. The reader waits for nothing, so it may run first.
def serveStream (bench : Workbench σ) (extension : String) (limit : Nat) (stream : Frame.Stream)
    (state : σ) : Session × σ :=
  let read := Intake.run limit (.start stream false) .empty
  let served := serve bench extension initial (read.state.complete, state)
  (⟨served.value, read.events, served.events⟩, served.state.2)

end TemplateSync.Worker
