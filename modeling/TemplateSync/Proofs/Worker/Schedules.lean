import Mathlib.Logic.Relation
import TemplateSync.Proofs.Frame.Octets
import TemplateSync.Worker.Pipeline

set_option autoImplicit false

namespace TemplateSync

inductive Taker where
  | waiting
  | holding (message : Message)
  | ended
  deriving DecidableEq

namespace Taker

def ofDelivery? : Delivery → Option Taker
  | .message message => some (.holding message)
  | .closed | .cancelled => some .ended
  | .wait => none

def held : Taker → List Message
  | .holding message => [message]
  | .waiting | .ended => []

end Taker

namespace Intake

def messages (limit : Nat) (stream : Frame.Stream) : List Message :=
  (Frame.readAll limit stream).texts.map Message.read

-- What would still be handed on if nothing interrupts.
def ahead (limit : Nat) (intake : Intake) : List Message :=
  match intake.phase with
  | .finished => []
  | .ready => messages limit intake.stream
  | .holding message => message :: messages limit intake.stream

def due (limit : Nat) (intake : Intake) : List Message :=
  if intake.cancelled then [] else intake.ahead limit

theorem messages_flat (limit : Nat) (stream : Frame.Stream) :
    messages limit stream = messages limit [stream.flatten] := by
  simp [messages]

theorem messages_ok {limit : Nat} {text : String} {stream rest : Frame.Stream}
    (read : Frame.read limit stream = (.ok text, rest)) :
    messages limit stream = Message.read text :: messages limit rest := by
  obtain ⟨same, flat⟩ := Frame.read_flat limit stream
  rw [read] at same flat
  have first := Frame.texts_ok (Prod.ext same.symm flat.symm)
  simp [messages, first]

theorem messages_error {limit : Nat} {fault : Frame.Fault} {stream rest : Frame.Stream}
    (read : Frame.read limit stream = (.error fault, rest)) : messages limit stream = [] := by
  obtain ⟨same, flat⟩ := Frame.read_flat limit stream
  rw [read] at same flat
  have none := Frame.texts_error (Prod.ext same.symm flat.symm)
  simp [messages, none]

inductive Moved (limit : Nat) (intake : Intake) (mailbox : Mailbox) : Intake → Mailbox → Prop where
  | rested (finished : intake.phase = .finished) : Moved limit intake mailbox intake mailbox
  | stopped (cancelled : intake.cancelled = true) :
      Moved limit intake mailbox { intake with phase := .finished } mailbox
  | failed (fault : Frame.Fault) (rest : Frame.Stream) (ready : intake.phase = .ready)
      (read : Frame.read limit intake.stream = (.error fault, rest)) :
      Moved limit intake mailbox ⟨rest, .finished, true⟩ mailbox
  | got (text : String) (rest : Frame.Stream) (going : intake.cancelled = false)
      (ready : intake.phase = .ready)
      (read : Frame.read limit intake.stream = (.ok text, rest)) :
      Moved limit intake mailbox
        { intake with stream := rest, phase := .holding (Message.read text) } mailbox
  | handed (message : Message) (going : intake.cancelled = false)
      (holding : intake.phase = .holding message) :
      Moved limit intake mailbox { intake with phase := .ready }
        (Mailbox.enqueue message mailbox).state

theorem step_moved (limit : Nat) (intake : Intake) (mailbox : Mailbox) :
    Moved limit intake mailbox (intake.step limit mailbox).value
      (intake.step limit mailbox).state := by
  cases phase : intake.phase with
  | finished =>
    simpa [step, phase] using Moved.rested phase
  | ready =>
    cases going : intake.cancelled with
    | true => simpa [step, phase, going] using Moved.stopped going
    | false =>
      rcases read : Frame.read limit intake.stream with ⟨answer, rest⟩
      cases answer with
      | error fault => simpa [step, phase, going, read] using Moved.failed fault rest phase read
      | ok text => simpa [step, phase, going, read] using Moved.got text rest going phase read
  | holding message =>
    cases going : intake.cancelled with
    | true => simpa [step, phase, going] using Moved.stopped going
    | false => simpa [step, phase, going] using Moved.handed message going phase

end Intake

structure Pipeline (σ : Type) where
  intake : Intake
  mailbox : Mailbox
  taker : Taker
  worker : Worker
  state : σ
  handled : List Message

namespace Pipeline

variable {σ : Type} (limit : Nat) (bench : Workbench σ) (extension : String)

def start (stream : Frame.Stream) (state : σ) : Pipeline σ :=
  ⟨.start stream false, .empty, .waiting, .initial, state, []⟩

def read (p : Pipeline σ) : Pipeline σ :=
  let done := p.intake.step limit p.mailbox
  { p with intake := done.value, mailbox := done.state }

def handle (message : Message) (p : Pipeline σ) : Pipeline σ :=
  let done := p.worker.handle bench extension message p.state
  { p with
    taker := .waiting
    worker := done.value.2
    state := done.state
    handled := p.handled ++ [message] }

/-- One step of either thread. A flag raised between the reader's last look and its handing on is a flag raised
after it. -/
inductive Step : Pipeline σ → Pipeline σ → Prop where
  | read (p : Pipeline σ) (reading : p.intake.phase ≠ .finished) : Step p (p.read limit)
  | complete (p : Pipeline σ) (read : p.intake.phase = .finished)
      (first : p.mailbox.completed = false) : Step p { p with mailbox := p.mailbox.complete }
  | take (p : Pipeline σ) (taker : Taker) (idle : p.taker = .waiting)
      (found : Taker.ofDelivery? (Mailbox.take p.mailbox).value = some taker) :
      Step p { p with mailbox := (Mailbox.take p.mailbox).state, taker := taker }
  | handle (p : Pipeline σ) (message : Message) (holds : p.taker = .holding message) :
      Step p (p.handle bench extension message)

/-- What others may do: stop the reader, shut down a stopped reader's stream, cancel the mailbox. -/
inductive Interrupt : Pipeline σ → Pipeline σ → Prop where
  | stop (p : Pipeline σ) : Interrupt p { p with intake := { p.intake with cancelled := true } }
  | shut (p : Pipeline σ) (stream : Frame.Stream) (stopped : p.intake.cancelled = true) :
      Interrupt p { p with intake := { p.intake with stream := stream } }
  | cancel (p : Pipeline σ) : Interrupt p { p with mailbox := p.mailbox.cancel }

def Disturbed (p q : Pipeline σ) : Prop :=
  Step limit bench extension p q ∨ Interrupt p q

def Ended (p : Pipeline σ) : Prop :=
  p.intake.phase = .finished ∧ p.mailbox.completed = true ∧ p.taker = .ended

def line (p : Pipeline σ) : List Message :=
  p.handled ++ p.taker.held ++ p.mailbox.pending ++ p.intake.due limit

end Pipeline

namespace Worker

variable {σ : Type}

def handleAll (bench : Workbench σ) (extension : String) (worker : Worker) (state : σ)
    (messages : List Message) : Worker × σ :=
  messages.foldl (fun done message =>
    let next := done.1.handle bench extension message done.2
    (next.value.2, next.state)) (worker, state)

@[simp] theorem handleAll_append (bench : Workbench σ) (extension : String) (worker : Worker)
    (state : σ) (messages : List Message) (message : Message) :
    handleAll bench extension worker state (messages ++ [message]) =
      let done := handleAll bench extension worker state messages
      let next := done.1.handle bench extension message done.2
      (next.value.2, next.state) := by
  simp [handleAll]

end Worker

namespace Pipeline

variable {σ : Type} {limit : Nat} {bench : Workbench σ} {extension : String}

structure Consistent (bench : Workbench σ) (extension : String) (state : σ) (p : Pipeline σ) :
    Prop where
  applied : (p.worker, p.state) = Worker.handleAll bench extension .initial state p.handled
  complete_finished : p.mailbox.completed = true → p.intake.phase = .finished

theorem start_consistent (stream : Frame.Stream) (state : σ) :
    Consistent bench extension state (start stream state) :=
  ⟨rfl, by simp [start, Mailbox.empty]⟩

theorem moved_due {intake next : Intake} {mailbox after : Mailbox}
    (open_while : mailbox.completed = true → intake.phase = .finished)
    (moved : Intake.Moved limit intake mailbox next after) :
    after.pending ++ next.due limit = mailbox.pending ++ intake.due limit := by
  cases moved with
  | rested => rfl
  | stopped cancelled => simp [Intake.due, cancelled]
  | failed fault rest ready read =>
    have nothing : intake.ahead limit = [] := by
      simp [Intake.ahead, ready, Intake.messages_error read]
    simp [Intake.due, nothing]
  | got text rest going ready read =>
    simp [Intake.due, going, Intake.ahead, ready, Intake.messages_ok read]
  | handed message going holding =>
    have incomplete : mailbox.completed = false := by
      by_contra completed
      have finished := open_while (by simpa using completed)
      rw [holding] at finished
      cases finished
    simp [Intake.due, going, Intake.ahead, holding, Mailbox.enqueue, incomplete]

theorem take_pending {mailbox : Mailbox} {taker : Taker}
    (found : Taker.ofDelivery? (Mailbox.take mailbox).value = some taker) :
    taker.held ++ (Mailbox.take mailbox).state.pending = mailbox.pending := by
  rcases mailbox with ⟨pending, completed, cancelled⟩
  cases cancelled <;> cases pending <;> cases completed <;>
    simp_all [Mailbox.take, Taker.ofDelivery?] <;> subst found <;> rfl

theorem Step.line_eq {p q : Pipeline σ}
    (open_while : p.mailbox.completed = true → p.intake.phase = .finished)
    (step : Step limit bench extension p q) : q.line limit = p.line limit := by
  cases step with
  | read reading =>
    have due := moved_due open_while (Intake.step_moved limit p.intake p.mailbox)
    simp only [line, Pipeline.read, List.append_assoc, due]
  | complete read first => rfl
  | take taker idle found =>
    have pending := take_pending found
    simp only [line, idle, List.append_assoc]
    rw [← pending]
    simp [Taker.held]
  | handle message holds => simp [line, Pipeline.handle, holds, Taker.held]

theorem Interrupt.line_prefix {p q : Pipeline σ} (interrupt : Interrupt p q) :
    q.line limit <+: p.line limit := by
  cases interrupt with
  | stop => exact ⟨p.intake.due limit, by simp [line, Intake.due]⟩
  | shut stream stopped => simp [line, Intake.due, stopped]
  | cancel => exact List.prefix_refl _

theorem moved_completed {intake next : Intake} {mailbox after : Mailbox}
    (moved : Intake.Moved limit intake mailbox next after) :
    after.completed = mailbox.completed ∧ after.cancelled = mailbox.cancelled := by
  cases moved with
  | rested | stopped | failed | got => exact ⟨rfl, rfl⟩
  | handed message => cases completed : mailbox.completed <;> simp [Mailbox.enqueue, completed]

theorem take_completed (mailbox : Mailbox) :
    (Mailbox.take mailbox).state.completed = mailbox.completed ∧
      (Mailbox.take mailbox).state.cancelled = mailbox.cancelled := by
  rcases mailbox with ⟨_ | _, completed, _ | _⟩ <;> exact ⟨rfl, rfl⟩

theorem Step.consistent {state : σ} {p q : Pipeline σ} (before : Consistent bench extension state p)
    (step : Step limit bench extension p q) : Consistent bench extension state q := by
  cases step with
  | read reading =>
    refine ⟨before.applied, ?_⟩
    intro completed
    have same := (moved_completed (Intake.step_moved limit p.intake p.mailbox)).1
    exact absurd (before.complete_finished (same.symm.trans completed)) reading
  | complete read first => exact ⟨before.applied, fun _ => read⟩
  | take taker idle found =>
    refine ⟨before.applied, ?_⟩
    intro completed
    exact before.complete_finished ((take_completed p.mailbox).1.symm.trans completed)
  | handle message holds =>
    refine ⟨?_, before.complete_finished⟩
    simp only [Pipeline.handle, Worker.handleAll_append, ← before.applied]

theorem Interrupt.consistent {state : σ} {p q : Pipeline σ}
    (before : Consistent bench extension state p) (interrupt : Interrupt p q) :
    Consistent bench extension state q := by
  cases interrupt with
  | stop | shut | cancel => exact ⟨before.applied, before.complete_finished⟩

structure Calm (p : Pipeline σ) : Prop where
  cancelled_finished : p.intake.cancelled = true → p.intake.phase = .finished
  uncancelled : p.mailbox.cancelled = false
  ended_empty : p.taker = .ended → p.mailbox.completed = true ∧ p.mailbox.pending = []

theorem start_calm (stream : Frame.Stream) (state : σ) : Calm (start stream state) :=
  ⟨by simp [start, Intake.start], rfl, by simp [start]⟩

theorem moved_cancelled {intake next : Intake} {mailbox after : Mailbox}
    (moved : Intake.Moved limit intake mailbox next after)
    (calm : intake.cancelled = true → intake.phase = .finished) :
    next.cancelled = true → next.phase = .finished := by
  cases moved with
  | rested => exact calm
  | stopped | failed => exact fun _ => rfl
  | got _ _ going | handed _ going => simp [going]

theorem take_ended {mailbox : Mailbox} (uncancelled : mailbox.cancelled = false)
    (found : Taker.ofDelivery? (Mailbox.take mailbox).value = some .ended) :
    mailbox.completed = true ∧ mailbox.pending = [] ∧ (Mailbox.take mailbox).state = mailbox := by
  rcases mailbox with ⟨_ | ⟨message, rest⟩, _ | _, _ | _⟩ <;>
    simp_all [Mailbox.take, Taker.ofDelivery?]

theorem Step.calm {state : σ} {p q : Pipeline σ} (consistent : Consistent bench extension state p)
    (before : Calm p) (step : Step limit bench extension p q) : Calm q := by
  cases step with
  | read reading =>
    have moved := Intake.step_moved limit p.intake p.mailbox
    refine ⟨moved_cancelled moved before.cancelled_finished,
      (moved_completed moved).2.trans before.uncancelled, ?_⟩
    intro ended
    -- The worker ends on a completed mailbox, which a reader that still reads has not completed.
    exact absurd (consistent.complete_finished (before.ended_empty ended).1) reading
  | complete read first =>
    refine ⟨before.cancelled_finished, before.uncancelled, ?_⟩
    intro ended
    exact ⟨rfl, (before.ended_empty ended).2⟩
  | take taker idle found =>
    refine ⟨before.cancelled_finished, (take_completed p.mailbox).2.trans before.uncancelled, ?_⟩
    rintro rfl
    obtain ⟨completed, empty, same⟩ := take_ended before.uncancelled found
    simp only [same]
    exact ⟨completed, empty⟩
  | handle message holds => exact ⟨before.cancelled_finished, before.uncancelled, nofun⟩

theorem stuck_ended {p : Pipeline σ} (stuck : ∀ q, ¬ Step limit bench extension p q) : p.Ended := by
  have finished : p.intake.phase = .finished := by
    by_contra reading
    exact stuck _ (.read p reading)
  have completed : p.mailbox.completed = true := by
    by_contra incomplete
    exact stuck _ (.complete p finished (by simpa using incomplete))
  refine ⟨finished, completed, ?_⟩
  cases taker : p.taker with
  | ended => rfl
  | holding message => exact absurd (.handle p message taker) (stuck _)
  | waiting =>
    rcases found : Taker.ofDelivery? (Mailbox.take p.mailbox).value with _ | next
    next =>
      -- A completed mailbox keeps no taker waiting.
      rcases hmail : p.mailbox with ⟨_ | _, _ | _, _ | _⟩ <;>
        simp_all [Mailbox.take, Taker.ofDelivery?]
    next => exact absurd (.take p next taker found) (stuck _)

-- The steps that are left at most: four for each octet and message, two for each pending message.
def readerWork (intake : Intake) : Nat :=
  match intake.phase with
  | .finished => 0
  | .ready => 4 * Frame.octets intake.stream + 1
  | .holding _ => 4 * Frame.octets intake.stream + 4

def mailboxWork (mailbox : Mailbox) : Nat :=
  (if mailbox.completed then 0 else 1) + 2 * mailbox.pending.length

def takerWork : Taker → Nat
  | .ended => 0
  | .waiting => 1
  | .holding _ => 2

def work (p : Pipeline σ) : Nat :=
  readerWork p.intake + mailboxWork p.mailbox + takerWork p.taker

theorem moved_work {intake next : Intake} {mailbox after : Mailbox}
    (moved : Intake.Moved limit intake mailbox next after) (reading : intake.phase ≠ .finished) :
    readerWork next + mailboxWork after < readerWork intake + mailboxWork mailbox := by
  cases moved with
  | rested finished => exact absurd finished reading
  | stopped cancelled =>
    cases phase : intake.phase with
    | finished => exact absurd phase reading
    | ready | holding => simp [readerWork, phase]
  | failed fault rest ready read => simp [readerWork, ready]
  | got text rest going ready read =>
    have less := Frame.read_smaller read
    simp only [readerWork, ready]
    omega
  | handed message going holding =>
    simp only [readerWork, holding, mailboxWork, Mailbox.enqueue]
    split
    next => simp
    next => simp; omega

theorem take_work {mailbox : Mailbox} {taker : Taker}
    (found : Taker.ofDelivery? (Mailbox.take mailbox).value = some taker) :
    mailboxWork (Mailbox.take mailbox).state + takerWork taker < mailboxWork mailbox + 1 := by
  rcases mailbox with ⟨_ | _, _ | _, _ | _⟩ <;>
    simp_all [Mailbox.take, Taker.ofDelivery?] <;> subst found <;>
    simp [mailboxWork, takerWork] <;> omega

theorem Step.work_lt {p q : Pipeline σ} (step : Step limit bench extension p q) :
    q.work < p.work := by
  cases step with
  | read reading =>
    have less := moved_work (Intake.step_moved limit p.intake p.mailbox) reading
    simp only [work, Pipeline.read]
    omega
  | complete read first => simp [work, mailboxWork, first, Mailbox.complete]
  | take taker idle found =>
    have less := take_work found
    simp only [work, idle]
    simp only [takerWork] at less ⊢
    omega
  | handle message holds => simp [work, Pipeline.handle, holds, takerWork]

theorem steps_end : WellFounded fun q p : Pipeline σ => Step limit bench extension p q :=
  Subrelation.wf Step.work_lt (measure work).wf

@[simp] theorem start_line (stream : Frame.Stream) (state : σ) :
    (start stream state).line limit = Intake.messages limit stream := by
  simp [line, start, Taker.held, Mailbox.empty, Intake.start, Intake.due, Intake.ahead]

theorem reaches_calm {stream : Frame.Stream} {state : σ} {p : Pipeline σ}
    (run : Relation.ReflTransGen (Step limit bench extension) (start stream state) p) :
    Consistent bench extension state p ∧ Calm p ∧
      p.line limit = Intake.messages limit stream := by
  induction run with
  | refl => exact ⟨start_consistent stream state, start_calm stream state, start_line stream state⟩
  | tail _ step ih =>
    obtain ⟨consistent, calm, whole⟩ := ih
    exact ⟨step.consistent consistent, step.calm consistent calm,
      (step.line_eq consistent.complete_finished).trans whole⟩

theorem reaches_disturbed {stream : Frame.Stream} {state : σ} {p : Pipeline σ}
    (run : Relation.ReflTransGen (Disturbed limit bench extension) (start stream state) p) :
    Consistent bench extension state p ∧ p.line limit <+: Intake.messages limit stream := by
  induction run with
  | refl => exact ⟨start_consistent stream state, by simp⟩
  | tail _ next ih =>
    obtain ⟨consistent, whole⟩ := ih
    rcases next with step | interrupt
    next =>
      rw [← step.line_eq consistent.complete_finished] at whole
      exact ⟨step.consistent consistent, whole⟩
    next => exact ⟨interrupt.consistent consistent, interrupt.line_prefix.trans whole⟩

theorem reaches_undisturbed {p q : Pipeline σ}
    (run : Relation.ReflTransGen (Step limit bench extension) p q) :
    Relation.ReflTransGen (Disturbed limit bench extension) p q :=
  run.lift id fun _ _ => .inl

theorem handled_prefix (p : Pipeline σ) : p.handled <+: p.line limit := by
  simp only [line, List.append_assoc]
  exact List.prefix_append _ _

theorem ended_handled {p : Pipeline σ} (calm : Calm p) (ended : p.Ended) :
    p.handled = p.line limit := by
  obtain ⟨finished, completed, done⟩ := ended
  simp [line, done, Taker.held, (calm.ended_empty done).2, Intake.due, Intake.ahead, finished]

/-- What an interrupt leaves is the beginning of the texts. -/
theorem schedules_serve_in_order (limit : Nat) (bench : Workbench σ) (extension : String)
    (stream : Frame.Stream) (state : σ) :
    let messages := (Frame.readAll limit [stream.flatten]).texts.map Message.read
    (WellFounded fun q p : Pipeline σ => Step limit bench extension p q) ∧
    (∀ p, Relation.ReflTransGen (Step limit bench extension) (start stream state) p →
      p.handled <+: messages ∧
      (p.worker, p.state) = Worker.handleAll bench extension .initial state p.handled ∧
      ((∀ q, ¬ Step limit bench extension p q) → p.Ended ∧ p.handled = messages)) ∧
    (∀ p, Relation.ReflTransGen (Disturbed limit bench extension) (start stream state) p →
      p.handled <+: messages ∧
      (p.worker, p.state) = Worker.handleAll bench extension .initial state p.handled ∧
      ((∀ q, ¬ Step limit bench extension p q) → p.Ended)) := by
  intro messages
  have flat : Intake.messages limit stream = messages := Intake.messages_flat limit stream
  refine ⟨steps_end, ?_, ?_⟩
  next =>
    intro p run
    obtain ⟨consistent, calm, whole⟩ := reaches_calm run
    rw [flat] at whole
    refine ⟨whole ▸ p.handled_prefix, consistent.applied, ?_⟩
    intro stuck
    have ended := stuck_ended stuck
    exact ⟨ended, (ended_handled calm ended).trans whole⟩
  next =>
    intro p run
    obtain ⟨consistent, whole⟩ := reaches_disturbed run
    rw [flat] at whole
    exact ⟨p.handled_prefix.trans whole, consistent.applied, stuck_ended⟩

section Alone

def readerSteps (intake : Intake) : Nat :=
  match intake.phase with
  | .finished => 0
  | .ready => 2 * Frame.octets intake.stream + 1
  | .holding _ => 2 * Frame.octets intake.stream + 2

theorem moved_steps {intake next : Intake} {mailbox after : Mailbox}
    (moved : Intake.Moved limit intake mailbox next after) (reading : intake.phase ≠ .finished) :
    readerSteps next < readerSteps intake := by
  cases moved with
  | rested finished => exact absurd finished reading
  | stopped cancelled =>
    cases phase : intake.phase with
    | finished => exact absurd phase reading
    | ready | holding => simp [readerSteps, phase]
  | failed fault rest ready read => simp [readerSteps, ready]
  | got text rest going ready read =>
    have less := Frame.read_smaller read
    simp only [readerSteps, ready]
    omega
  | handed message going holding => simp [readerSteps, holding]

theorem runFor_reaches (limit : Nat) (bench : Workbench σ) (extension : String) (fuel : Nat)
    (p : Pipeline σ) (enough : readerSteps p.intake ≤ fuel) :
    ∃ q, Relation.ReflTransGen (Step limit bench extension) p q ∧ q.intake.phase = .finished ∧
      q = { p with
        intake := (Intake.runFor limit fuel p.intake p.mailbox).value
        mailbox := (Intake.runFor limit fuel p.intake p.mailbox).state } := by
  induction fuel generalizing p with
  | zero =>
    refine ⟨p, .refl, ?_, rfl⟩
    cases phase : p.intake.phase with
    | finished => rfl
    | ready | holding => simp [readerSteps, phase] at enough
  | succ fuel ih =>
    by_cases reading : p.intake.phase = .finished
    next => exact ⟨p, .refl, reading, by simp [Intake.runFor, reading]⟩
    next =>
      have less := moved_steps (Intake.step_moved limit p.intake p.mailbox) reading
      obtain ⟨q, run, finished, rfl⟩ := ih (p.read limit) (by simp only [Pipeline.read]; omega)
      refine ⟨_, .head (.read p reading) run, finished, ?_⟩
      simp [Intake.runFor, reading, Pipeline.read]

theorem complete_reaches (limit : Nat) (bench : Workbench σ) (extension : String) (p : Pipeline σ)
    (read : p.intake.phase = .finished) :
    Relation.ReflTransGen (Step limit bench extension) p
      { p with mailbox := p.mailbox.complete } := by
  cases completed : p.mailbox.completed with
  | false => exact .single (.complete p read completed)
  | true =>
    have same : p.mailbox.complete = p.mailbox := by rw [Mailbox.complete, ← completed]
    rw [same]

theorem serveFor_reaches (limit : Nat) (bench : Workbench σ) (extension : String) (fuel : Nat)
    (p : Pipeline σ) (read : p.intake.phase = .finished)
    (completed : p.mailbox.completed = true) (uncancelled : p.mailbox.cancelled = false)
    (idle : p.taker = .waiting) (enough : p.mailbox.size < fuel) :
    ∃ q, Relation.ReflTransGen (Step limit bench extension) p q ∧ q.Ended ∧
      q.worker = (Worker.serveFor bench extension fuel p.worker (p.mailbox, p.state)).value ∧
      q.state = (Worker.serveFor bench extension fuel p.worker (p.mailbox, p.state)).state.2 := by
  induction fuel generalizing p with
  | zero => cases enough
  | succ fuel ih =>
    rcases p with ⟨intake, ⟨pending, done, cancelled⟩, taker, worker, state, handled⟩
    simp only at read completed uncancelled idle enough
    subst completed uncancelled idle
    cases pending with
    | nil =>
      refine ⟨_, .single (.take _ .ended rfl rfl), ⟨read, rfl, rfl⟩, ?_⟩
      exact ⟨rfl, rfl⟩
    | cons message pending =>
      have taken : Step limit bench extension
          ⟨intake, ⟨message :: pending, true, false⟩, .waiting, worker, state, handled⟩
          ⟨intake, ⟨pending, true, false⟩, .holding message, worker, state, handled⟩ :=
        .take _ (.holding message) rfl rfl
      obtain ⟨q, run, ended, same, left⟩ := ih
        (Pipeline.handle bench extension message
          ⟨intake, ⟨pending, true, false⟩, .holding message, worker, state, handled⟩)
        read rfl rfl rfl (Nat.lt_of_succ_lt_succ enough)
      exact ⟨q, .head taken (.head (.handle _ message rfl) run), ended, same, left⟩

theorem serveStream_reaches (limit : Nat) (bench : Workbench σ) (extension : String)
    (stream : Frame.Stream) (state : σ) :
    ∃ p, Relation.ReflTransGen (Step limit bench extension) (start stream state) p ∧ p.Ended ∧
      p.handled = Intake.messages limit stream ∧
      p.worker = (Worker.serveStream bench extension limit stream state).1.worker ∧
      p.state = (Worker.serveStream bench extension limit stream state).2 := by
  obtain ⟨p, read, finished, same⟩ := runFor_reaches limit bench extension
    (2 * Frame.octets stream + 4) (start stream state) (by simp [readerSteps, start, Intake.start])
  have waiting : p.taker = .waiting := by rw [same]; rfl
  have uncancelled : p.mailbox.cancelled = false := (reaches_calm read).2.1.uncancelled
  obtain ⟨q, served, ended, worker, left⟩ := serveFor_reaches limit bench extension
    (p.mailbox.size + 1) { p with mailbox := p.mailbox.complete } finished rfl uncancelled waiting
    (Nat.lt_succ_self _)
  have run := (read.trans (complete_reaches limit bench extension p finished)).trans served
  obtain ⟨consistent, calm, whole⟩ := reaches_calm run
  refine ⟨q, run, ended, (ended_handled calm ended).trans whole, ?_, ?_⟩
  next => rw [worker, same]; rfl
  next => rw [left, same]; rfl

theorem serveStream_eq (limit : Nat) (bench : Workbench σ) (extension : String)
    (stream : Frame.Stream) (state : σ) :
    ((Worker.serveStream bench extension limit stream state).1.worker,
        (Worker.serveStream bench extension limit stream state).2) =
      Worker.handleAll bench extension .initial state (Intake.messages limit stream) := by
  obtain ⟨p, run, _, handled, worker, left⟩ :=
    serveStream_reaches limit bench extension stream state
  rw [← handled, ← (reaches_calm run).1.applied, worker, left]

end Alone

end Pipeline

end TemplateSync
