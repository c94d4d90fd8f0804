import TemplateSync.Proofs.Host.Clock
import TemplateSync.Proofs.Host.Connection

set_option autoImplicit false

namespace TemplateSync

namespace Fanout

def shut (fanout : Fanout) (id : Nat) : Fanout :=
  { fanout with
    clients := fanout.clients.map fun known => if known.id = id then known.close else known }

theorem mem_update {fanout : Fanout} {next client : Client}
    (there : client ∈ (fanout.update next).clients) :
    client = next ∨ client ∈ fanout.clients ∧ client.id ≠ next.id := by
  obtain ⟨known, member, rfl⟩ := List.mem_map.mp there
  by_cases own : known.id = next.id
  next => simp [own]
  next => simp [own, member]

theorem mem_shut {fanout : Fanout} {id : Nat} {client : Client}
    (there : client ∈ (fanout.shut id).clients) :
    client ∈ fanout.clients ∨ ∃ known ∈ fanout.clients, client = known.close := by
  obtain ⟨known, member, rfl⟩ := List.mem_map.mp there
  by_cases own : known.id = id
  next => exact .inr ⟨known, member, by simp [own]⟩
  next => exact .inl (by simpa [own] using member)

theorem mem_remove {fanout : Fanout} {ids : List Nat} {client : Client}
    (there : client ∈ (fanout.remove ids).clients) :
    client ∈ fanout.clients ∧ client.id ∉ ids := by
  simpa [remove] using there

theorem mem_register {fanout : Fanout} {client : Client}
    (there : client ∈ fanout.register.2.clients) :
    client ∈ fanout.clients ∨ client = .connected fanout.nextId := by
  simpa [register] using there

end Fanout

structure Round where
  text : String
  waiting : List Nat
  failing : Option Nat
  failed : List Nat

namespace Round

def start (text : String) (fanout : Fanout) : Round :=
  ⟨text, fanout.clients.map Client.id, none, []⟩

def after (round : Round) (id : Nat) (rest : List Nat) (arrived : Bool) : Round :=
  { round with waiting := rest, failing := if arrived then none else some id }

def Done (round : Round) : Prop :=
  round.waiting = [] ∧ round.failing = none

def Drops (round : Round) (id : Nat) : Prop :=
  round.failing = some id ∨ id ∈ round.failed

def Pending (round : Round) (id : Nat) : Prop :=
  id ∈ round.waiting ∨ round.Drops id

theorem pending_start (text : String) {fanout : Fanout} {client : Client}
    (there : client ∈ fanout.clients) : (start text fanout).Pending client.id :=
  .inl (List.mem_map_of_mem there)

theorem pending_done {round : Round} {id : Nat} (done : round.Done) (pending : round.Pending id) :
    id ∈ round.failed := by
  rcases pending with waiting | failing | failed
  next => simp [done.1] at waiting
  next => simp [done.2] at failing
  next => exact failed

theorem pending_after {round : Round} {id other : Nat} {rest : List Nat}
    (turn : round.waiting = id :: rest) (calm : round.failing = none)
    (pending : round.Pending other) (different : other ≠ id) (arrived : Bool) :
    (round.after id rest arrived).Pending other := by
  rcases pending with waiting | failing | failed
  next =>
    rw [turn, List.mem_cons] at waiting
    exact .inl (waiting.resolve_left different)
  next => simp [calm] at failing
  next => exact .inr (.inr failed)

theorem pending_failed (round : Round) (id : Nat) (rest : List Nat) :
    (round.after id rest false).Pending id :=
  .inr (.inl rfl)

theorem pending_close {round : Round} {id other : Nat} (failing : round.failing = some id)
    (pending : round.Pending other) :
    Pending { round with failing := none, failed := round.failed ++ [id] } other := by
  rcases pending with waiting | own | failed
  next => exact .inl waiting
  next =>
    rw [failing] at own
    cases own
    exact .inr (.inr (by simp))
  next => exact .inr (.inr (by simp [failed]))

end Round

/-- The accepting thread. While it greets a client no one else writes to this client. -/
inductive Accepting where
  | idle
  | greeting (client : Nat) (due : List Message)
  | leaving (client : Nat)

def Accepting.due (accepting : Accepting) (id : Nat) : List Message :=
  match accepting with
  | .greeting own due => if own = id then due else []
  | .idle | .leaving _ => []

@[simp] theorem Accepting.due_own (id : Nat) (due : List Message) :
    (greeting id due).due id = due := by
  simp [Accepting.due]

theorem Accepting.due_other {own id : Nat} (due : List Message) (different : own ≠ id) :
    (greeting own due).due id = [] := by
  simp [Accepting.due, different]

theorem Accepting.due_none {accepting : Accepting} {id : Nat}
    (free : ∀ due, accepting ≠ .greeting id due) : accepting.due id = [] := by
  cases accepting with
  | idle | leaving => rfl
  | greeting own due =>
    by_cases same : own = id
    next => subst same; exact absurd rfl (free due)
    next => exact due_other due same

/-- Each tick has a number, under which its list and then its batch's metadata are delivered. -/
structure Host (σ : Type) where
  clock : Clock σ
  owed : Nat
  fanout : Fanout
  held : Nat → Bytes
  -- The texts each client was written without an error.
  told : Nat → List String
  accepting : Accepting
  rounds : Nat → Option Round

namespace Host

variable {σ : Type}

def start (world : σ) : Host σ :=
  ⟨.start world, 0, .initial, fun _ => [], fun _ => [], .idle, fun _ => none⟩

def enlist (h : Host σ) (due : List Message) : Host σ :=
  { h with
    fanout := h.fanout.register.2
    held := Function.update h.held h.fanout.nextId []
    told := Function.update h.told h.fanout.nextId []
    accepting := .greeting h.fanout.nextId due }

def write (h : Host σ) (next : Client) (text : String) (left : Bytes) (arrived : Bool) : Host σ :=
  { h with
    fanout := h.fanout.update next
    held := Function.update h.held next.id left
    told := if arrived then Function.update h.told next.id (h.told next.id ++ [text]) else h.told }

def setRound (h : Host σ) (tick : Nat) (round : Option Round) : Host σ :=
  { h with rounds := Function.update h.rounds tick round }

@[simp] theorem setRound_clock (h : Host σ) (tick : Nat) (round : Option Round) :
    (h.setRound tick round).clock = h.clock := rfl

@[simp] theorem setRound_owed (h : Host σ) (tick : Nat) (round : Option Round) :
    (h.setRound tick round).owed = h.owed := rfl

@[simp] theorem setRound_fanout (h : Host σ) (tick : Nat) (round : Option Round) :
    (h.setRound tick round).fanout = h.fanout := rfl

@[simp] theorem setRound_held (h : Host σ) (tick : Nat) (round : Option Round) :
    (h.setRound tick round).held = h.held := rfl

@[simp] theorem setRound_told (h : Host σ) (tick : Nat) (round : Option Round) :
    (h.setRound tick round).told = h.told := rfl

@[simp] theorem setRound_accepting (h : Host σ) (tick : Nat) (round : Option Round) :
    (h.setRound tick round).accepting = h.accepting := rfl

@[simp] theorem setRound_same (h : Host σ) (tick : Nat) (round : Option Round) :
    (h.setRound tick round).rounds tick = round := by
  simp [setRound]

def Inner : Moment σ → Prop
  | .projectsRead _ | .batchStarted _ | .spawnFailed _ | .metadataLeft _ => True
  | _ => False

theorem inner_moment {moment : Moment σ} (inner : Inner moment) :
    (∃ tick, moment.tick? = some tick) ∧ (∀ tick, moment ≠ .claimed tick) ∧
      (∀ tick, moment ≠ .listRead tick) ∧ ∀ tick, moment ≠ .listSent tick := by
  cases moment with
  | projectsRead tick | batchStarted tick | spawnFailed tick | metadataLeft tick =>
    exact ⟨⟨tick, rfl⟩, nofun, nofun, nofun⟩
  | moved | changed | claimed | listRead | listSent | batchEnded => exact inner.elim

inductive Step (workspace : Workspace σ) (version : Int32) (h : Host σ) : Host σ → Prop where
  -- The workspace, and those who notify the host.
  | mutate (world : σ) :
      Step workspace version h { h with clock := h.clock.move world, owed := h.owed + 1 }
  | work (world : σ) (same : workspace.projects world = workspace.projects h.clock.world) :
      Step workspace version h { h with clock := h.clock.move world }
  | notify (change : Change) (structural : change.isStructural = true) (owed : Nat)
      (due : h.owed = owed + 1) :
      Step workspace version h
        { h with
          clock := h.clock.turn (Ticker.onChange change h.clock.ticker).state
          owed := owed }
  | change (change : Change) :
      Step workspace version h
        { h with clock := h.clock.turn (Ticker.onChange change h.clock.ticker).state }
  -- The timer.
  | claim (tick : Nat) (clock : Clock σ) (alone : ∀ other, (h.clock.ticks other).inProgress = false)
      (step : Clock.Step workspace h.clock (.claimed tick) clock) :
      Step workspace version h { h with clock := clock }
  | list (tick : Nat) (clock : Clock σ) (message : Message) (metadata : Bool) (text : String)
      (step : Clock.Step workspace h.clock (.listRead tick) clock)
      (read : clock.ticks tick = .listing message metadata) (encoded : message.encode = .ok text) :
      Step workspace version h
        ({ h with clock := clock }.setRound tick (some (.start text h.fanout)))
  | listed (tick : Nat) (clock : Clock σ) (round : Round) (whole : h.rounds tick = some round)
      (done : round.Done) (step : Clock.Step workspace h.clock (.listSent tick) clock) :
      Step workspace version h
        ({ h with clock := clock, fanout := h.fanout.remove round.failed }.setRound tick none)
  | inner (moment : Moment σ) (clock : Clock σ) (inner : Inner moment)
      (step : Clock.Step workspace h.clock moment clock) :
      Step workspace version h { h with clock := clock }
  -- The batches.
  | send (tick : Nat) (batch : Batch) (content : Metadata) (text : String)
      (batching : h.clock.ticks tick = .batching batch) (free : h.rounds tick = none)
      (encoded : (Message.metadata content).encode = .ok text) :
      Step workspace version h (h.setRound tick (some (.start text h.fanout)))
  | sent (tick : Nat) (batch : Batch) (round : Round)
      (batching : h.clock.ticks tick = .batching batch) (whole : h.rounds tick = some round)
      (done : round.Done) :
      Step workspace version h
        ({ h with fanout := h.fanout.remove round.failed }.setRound tick none)
  | batchEnd (tick : Nat) (clock : Clock σ) (silent : h.rounds tick = none)
      (step : Clock.Step workspace h.clock (.batchEnded tick) clock) :
      Step workspace version h { h with clock := clock }
  -- The deliveries of both.
  | deliver (tick : Nat) (round : Round) (client next : Client) (rest : List Nat) (left : Bytes)
      (arrived : Bool) (under_way : h.rounds tick = some round)
      (turn : round.waiting = client.id :: rest) (calm : round.failing = none)
      (there : client ∈ h.fanout.clients) (free : ∀ due, h.accepting ≠ .greeting client.id due)
      (writes : client.Writes (h.held client.id) round.text next left arrived) :
      Step workspace version h
        ((h.write next round.text left arrived).setRound tick
          (some (round.after client.id rest arrived)))
  | pass (tick : Nat) (round : Round) (id : Nat) (rest : List Nat) (arrived : Bool)
      (under_way : h.rounds tick = some round) (turn : round.waiting = id :: rest)
      (calm : round.failing = none) (gone : ∀ client ∈ h.fanout.clients, client.id ≠ id) :
      Step workspace version h (h.setRound tick (some (round.after id rest arrived)))
  | close (tick : Nat) (round : Round) (id : Nat) (under_way : h.rounds tick = some round)
      (failing : round.failing = some id) :
      Step workspace version h
        ({ h with fanout := h.fanout.shut id }.setRound tick
          (some { round with failing := none, failed := round.failed ++ [id] }))
  -- A connection may break for good at any time; one that stalls is a matter of the writes.
  | lose (client : Client) (there : client ∈ h.fanout.clients) :
      Step workspace version h
        { h with fanout := h.fanout.update { client with broken := true } }
  -- The accepting thread; a client that cannot be set up takes a number too.
  | turnAway (idle : h.accepting = .idle) :
      Step workspace version h { h with fanout := { h.fanout with nextId := h.fanout.nextId + 1 } }
  | register (idle : h.accepting = .idle) :
      Step workspace version h (h.enlist (workspace.greeting version h.clock.world))
  | greet (client next : Client) (message : Message) (due : List Message) (text : String)
      (left : Bytes) (arrived : Bool) (greeting : h.accepting = .greeting client.id (message :: due))
      (there : client ∈ h.fanout.clients) (encoded : message.encode = .ok text)
      (writes : client.Writes (h.held client.id) text next left arrived) :
      Step workspace version h
        { h.write next text left arrived with
          accepting := if arrived then .greeting client.id due else .leaving client.id }
  | fall (id : Nat) (message : Message) (due : List Message) (fault : Fault)
      (greeting : h.accepting = .greeting id (message :: due))
      (unencoded : message.encode = .error fault) :
      Step workspace version h { h with accepting := .leaving id }
  | leave (id : Nat) (leaving : h.accepting = .leaving id) :
      Step workspace version h { h with fanout := h.fanout.remove [id], accepting := .idle }
  | welcome (id : Nat) (greeted : h.accepting = .greeting id []) :
      Step workspace version h { h with accepting := .idle }

end Host

end TemplateSync
