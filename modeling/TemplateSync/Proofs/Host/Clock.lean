import Mathlib.Logic.Function.Basic
import TemplateSync.Host.Ticker
import TemplateSync.Proofs.Trace

set_option autoImplicit false

namespace TemplateSync

inductive TickPhase where
  | unstarted
  -- The list is to be read; then the metadata is due, or not.
  | claimed (metadata : Bool)
  | listing (message : Message) (metadata : Bool)
  | listed
  | counted (batch : Batch)
  -- The batch could not be started and has ended; its metadata is not dirty again yet.
  | unwound
  | batching (batch : Batch)
  | ended

namespace TickPhase

def afterList (metadata : Bool) : TickPhase :=
  if metadata then .listed else .ended

def ofTaken (taken : DirtyFlags) : TickPhase :=
  if taken.solution then .claimed taken.metadata else afterList taken.metadata

@[simp] theorem afterList_ne_listing (due : Bool) (message : Message) (metadata : Bool) :
    afterList due ≠ .listing message metadata := by
  cases due <;> simp [afterList]

@[simp] theorem ofTaken_ne_listing (taken : DirtyFlags) (message : Message) (metadata : Bool) :
    ofTaken taken ≠ .listing message metadata := by
  rw [ofTaken]
  split <;> simp

-- A batch goes on after its tick.
def inProgress : TickPhase → Bool
  | .claimed _ | .listing .. | .listed | .counted _ | .unwound => true
  | .unstarted | .batching _ | .ended => false

end TickPhase

inductive Moment (σ : Type) where
  | moved (world : σ)
  | changed (change : Change)
  | claimed (tick : Nat)
  | listRead (tick : Nat)
  | listSent (tick : Nat)
  | projectsRead (tick : Nat)
  | batchStarted (tick : Nat)
  | spawnFailed (tick : Nat)
  | metadataLeft (tick : Nat)
  | batchEnded (tick : Nat)

def Moment.tick? {σ : Type} : Moment σ → Option Nat
  | .moved _ | .changed _ => none
  | .claimed tick | .listRead tick | .listSent tick | .projectsRead tick | .batchStarted tick
  | .spawnFailed tick | .metadataLeft tick | .batchEnded tick => some tick

structure Clock (σ : Type) where
  ticker : Ticker
  world : σ
  ticks : Nat → TickPhase

namespace Clock

variable {σ : Type}

def start (world : σ) : Clock σ :=
  ⟨.initial, world, fun _ => .unstarted⟩

def turn (c : Clock σ) (ticker : Ticker) : Clock σ :=
  { c with ticker := ticker }

def move (c : Clock σ) (world : σ) : Clock σ :=
  { c with world := world }

def put (c : Clock σ) (tick : Nat) (phase : TickPhase) : Clock σ :=
  { c with ticks := Function.update c.ticks tick phase }

@[simp] theorem turn_ticker (c : Clock σ) (ticker : Ticker) : (c.turn ticker).ticker = ticker := rfl

@[simp] theorem turn_world (c : Clock σ) (ticker : Ticker) : (c.turn ticker).world = c.world := rfl

@[simp] theorem turn_ticks (c : Clock σ) (ticker : Ticker) : (c.turn ticker).ticks = c.ticks := rfl

@[simp] theorem move_ticker (c : Clock σ) (world : σ) : (c.move world).ticker = c.ticker := rfl

@[simp] theorem move_world (c : Clock σ) (world : σ) : (c.move world).world = world := rfl

@[simp] theorem move_ticks (c : Clock σ) (world : σ) : (c.move world).ticks = c.ticks := rfl

@[simp] theorem put_ticker (c : Clock σ) (tick : Nat) (phase : TickPhase) :
    (c.put tick phase).ticker = c.ticker := rfl

@[simp] theorem put_world (c : Clock σ) (tick : Nat) (phase : TickPhase) :
    (c.put tick phase).world = c.world := rfl

@[simp] theorem put_same (c : Clock σ) (tick : Nat) (phase : TickPhase) :
    (c.put tick phase).ticks tick = phase := by
  simp [put]

@[simp] theorem put_put (c : Clock σ) (tick : Nat) (first second : TickPhase) :
    (c.put tick first).put tick second = c.put tick second := by
  simp [put]

theorem put_move (c : Clock σ) (tick : Nat) (phase : TickPhase) (world : σ) :
    (c.move world).put tick phase = (c.put tick phase).move world := rfl

theorem put_turn (c : Clock σ) (tick : Nat) (phase : TickPhase) (ticker : Ticker) :
    (c.turn ticker).put tick phase = (c.put tick phase).turn ticker := rfl

theorem put_self {c : Clock σ} {tick : Nat} {phase : TickPhase} (there : c.ticks tick = phase) :
    c.put tick phase = c := by
  subst there
  simp [put]

theorem put_other (c : Clock σ) {tick other : Nat} (phase : TickPhase) (different : other ≠ tick) :
    (c.put tick phase).ticks other = c.ticks other := by
  simp [put, different]

inductive Step (workspace : Workspace σ) (c : Clock σ) : Moment σ → Clock σ → Prop where
  | moved (world : σ) : Step workspace c (.moved world) (c.move world)
  | changed (change : Change) :
      Step workspace c (.changed change)
        (c.turn (Ticker.onChange change c.ticker).state)
  | claimed (tick : Nat) (unstarted : c.ticks tick = .unstarted) :
      Step workspace c (.claimed tick)
        ((c.turn (Ticker.claim c.ticker).state).put tick
          (.ofTaken (Ticker.claim c.ticker).value))
  | listRead (tick : Nat) (metadata : Bool)
      (claimed : c.ticks tick = .claimed metadata) :
      Step workspace c (.listRead tick)
        (c.put tick (.listing (Ticker.solution workspace c.world).value metadata))
  | listSent (tick : Nat) (message : Message) (metadata : Bool)
      (listing : c.ticks tick = .listing message metadata) :
      Step workspace c (.listSent tick) (c.put tick (.afterList metadata))
  | projectsRead (tick : Nat) (listed : c.ticks tick = .listed) :
      Step workspace c (.projectsRead tick) (c.put tick (.counted ⟨workspace.projects c.world⟩))
  | batchStarted (tick : Nat) (batch : Batch)
      (counted : c.ticks tick = .counted batch) :
      Step workspace c (.batchStarted tick) (c.put tick (.batching batch))
  | spawnFailed (tick : Nat) (batch : Batch)
      (counted : c.ticks tick = .counted batch) :
      Step workspace c (.spawnFailed tick)
        ((c.turn c.ticker.batchEnded).put tick .unwound)
  | metadataLeft (tick : Nat) (unwound : c.ticks tick = .unwound) :
      Step workspace c (.metadataLeft tick)
        ((c.turn c.ticker.metadataLeft).put tick .ended)
  -- A batch ends in one way for the flags, whatever its emits gave.
  | batchEnded (tick : Nat) (batch : Batch)
      (batching : c.ticks tick = .batching batch) :
      Step workspace c (.batchEnded tick)
        ((c.turn c.ticker.batchEnded).put tick .ended)

theorem step_other {workspace : Workspace σ} {c d : Clock σ} {moment : Moment σ} {tick : Nat}
    (step : Step workspace c moment d) (other : moment.tick? ≠ some tick) :
    d.ticks tick = c.ticks tick := by
  cases step with
  | moved | changed => rfl
  | claimed own | listRead own | listSent own | projectsRead own | batchStarted own
  | spawnFailed own | metadataLeft own | batchEnded own =>
    have different : tick ≠ own := fun same => other (congrArg some same.symm)
    simp [put_other _ _ different]

inductive Run (workspace : Workspace σ) (c : Clock σ) : List (Moment σ) → Clock σ → Prop where
  | start : Run workspace c [] c
  | next {moments : List (Moment σ)} {moment : Moment σ} {d e : Clock σ}
      (run : Run workspace c moments d) (step : Step workspace d moment e) :
      Run workspace c (moments ++ [moment]) e

theorem run_iff_trace {workspace : Workspace σ} {c d : Clock σ} {moments : List (Moment σ)} :
    Run workspace c moments d ↔ Trace (Step workspace) c moments d := by
  constructor
  next =>
    intro run
    induction run with
    | start => exact .start
    | next _ step ih => exact .next ih step
  next =>
    intro trace
    induction trace with
    | start => exact .start
    | next _ step ih => exact .next ih step

theorem run_append {workspace : Workspace σ} {c e : Clock σ} {first second : List (Moment σ)} :
    Run workspace c (first ++ second) e ↔
      ∃ d, Run workspace c first d ∧ Run workspace d second e := by
  simp only [run_iff_trace, trace_append]

theorem Run.trans {workspace : Workspace σ} {c d e : Clock σ} {first second : List (Moment σ)}
    (one : Run workspace c first d) (two : Run workspace d second e) :
    Run workspace c (first ++ second) e :=
  run_append.mpr ⟨d, one, two⟩

theorem run_cons {workspace : Workspace σ} {c e : Clock σ} {moment : Moment σ}
    {moments : List (Moment σ)} :
    Run workspace c (moment :: moments) e ↔
      ∃ d, Step workspace c moment d ∧ Run workspace d moments e := by
  simp only [run_iff_trace, trace_cons]

section Alone

variable (workspace : Workspace σ) (broadcaster : Broadcaster σ)

-- The broadcaster may move the world while the list goes out.
def listMoments (tick : Nat) (sent : Bool) (world : σ) : List (Moment σ) :=
  if sent then [.listRead tick, .moved world, .listSent tick] else []

def batchMoments (tick : Nat) (batch : Option Batch) : List (Moment σ) :=
  if batch.isSome then [.projectsRead tick] else []

def tickMoments (tick : Nat) (done : Outcome (Ticker × σ) TickOutcome) : List (Moment σ) :=
  .claimed tick ::
    (listMoments tick done.value.solutionSent done.state.2 ++ batchMoments tick done.value.batch)

def prepared : Option Batch → TickPhase
  | some batch => .counted batch
  | none => .ended

def afterTick (c : Clock σ) (tick : Nat) (done : Outcome (Ticker × σ) TickOutcome) : Clock σ :=
  ((c.turn done.state.1).move done.state.2).put tick (prepared done.value.batch)

variable {workspace broadcaster} {c : Clock σ} {tick : Nat} {taken : DirtyFlags}

theorem afterTick_counted {done : Outcome (Ticker × σ) TickOutcome} {batch : Batch}
    (started : done.value.batch = some batch) : (c.afterTick tick done).ticks tick = .counted batch := by
  rw [afterTick, put_same, started, prepared]

theorem listing_runs (phase : c.ticks tick = .ofTaken taken) :
    Run workspace c
      (listMoments tick (Ticker.sendSolution workspace broadcaster taken c.world).value
        (Ticker.sendSolution workspace broadcaster taken c.world).state)
      ((c.move (Ticker.sendSolution workspace broadcaster taken c.world).state).put tick
        (.afterList taken.metadata)) := by
  cases due : taken.solution with
  | false =>
    have unsent : Ticker.sendSolution workspace broadcaster taken c.world = ⟨false, [], c.world⟩ := by
      simp [Ticker.sendSolution, due]
    rw [TickPhase.ofTaken, due, if_neg Bool.false_ne_true] at phase
    rw [unsent, put_move, put_self phase]
    exact .start
  | true =>
    rw [TickPhase.ofTaken, due, if_pos rfl] at phase
    have sent : (Ticker.sendSolution workspace broadcaster taken c.world).value = true := by
      simp [Ticker.sendSolution, due]
    generalize Ticker.sendSolution workspace broadcaster taken c.world = outcome at sent ⊢
    have moved : Run workspace c _ _ := (Run.start.next (.listRead tick _ phase)).next (.moved outcome.state)
    rw [← put_move] at moved
    have gone := moved.next (.listSent tick _ _ (put_same ..))
    rw [put_put] at gone
    rw [listMoments, if_pos sent]
    exact gone

theorem unwinding_runs (fault : Fault) {batch : Batch} (counted : c.ticks tick = .counted batch) :
    Run workspace c [.spawnFailed tick, .metadataLeft tick]
      ((c.turn (Ticker.batchNotStarted fault c.ticker).state).put tick .ended) := by
  have unwound : Run workspace c _ _ := (Run.start.next (.spawnFailed tick batch counted)).next
    (.metadataLeft tick (put_same ..))
  rwa [← put_turn, put_put] at unwound

theorem sendSolution_state (taken : DirtyFlags) (world : σ) :
    (Ticker.sendSolution workspace broadcaster taken world).state =
      if taken.solution then (broadcaster.broadcastSnapshot (Ticker.solution workspace) world).state
      else world := by
  cases due : taken.solution <;> simp [Ticker.sendSolution, due]

theorem prepareBatch_state (taken : DirtyFlags) (world : σ) :
    (Ticker.prepareBatch workspace taken world).state = world := by
  cases due : taken.metadata <;> simp [Ticker.prepareBatch, due, Workspace.list]

theorem prepareBatch_value (taken : DirtyFlags) (world : σ) :
    (Ticker.prepareBatch workspace taken world).value =
      if taken.metadata then some ⟨workspace.projects world⟩ else none := by
  cases due : taken.metadata <;> simp [Ticker.prepareBatch, due, Workspace.list]

theorem projects_run (phase : c.ticks tick = .afterList taken.metadata) :
    Run workspace c (batchMoments tick (Ticker.prepareBatch workspace taken c.world).value)
      (c.put tick (prepared (Ticker.prepareBatch workspace taken c.world).value)) := by
  rw [prepareBatch_value]
  cases due : taken.metadata with
  | false =>
    rw [TickPhase.afterList, due, if_neg Bool.false_ne_true] at phase
    rw [if_neg Bool.false_ne_true, prepared, put_self phase]
    exact .start
  | true =>
    rw [TickPhase.afterList, due, if_pos rfl] at phase
    exact Run.start.next (.projectsRead tick phase)

theorem tick_state (ticker : Ticker) (world : σ) :
    (Ticker.tick workspace broadcaster (ticker, world)).state =
      ((Ticker.claim ticker).state,
        (Ticker.sendSolution workspace broadcaster (Ticker.claim ticker).value world).state) := by
  simp [Ticker.tick, Ticker.ticking, Ticker.outside, prepareBatch_state]

theorem tick_sent (ticker : Ticker) (world : σ) :
    (Ticker.tick workspace broadcaster (ticker, world)).value.solutionSent =
      (Ticker.claim ticker).value.solution := by
  cases due : (Ticker.claim ticker).value.solution <;>
    simp [Ticker.tick, Ticker.ticking, Ticker.outside, Ticker.sendSolution, due]

theorem tick_batch (ticker : Ticker) (world : σ) :
    (Ticker.tick workspace broadcaster (ticker, world)).value.batch =
      if (Ticker.claim ticker).value.metadata then
        some ⟨workspace.projects (Ticker.tick workspace broadcaster (ticker, world)).state.2⟩
      else none := by
  rw [tick_state, ← prepareBatch_value]
  rfl

theorem tick_runs (unstarted : c.ticks tick = .unstarted) :
    Run workspace c (tickMoments tick (Ticker.tick workspace broadcaster (c.ticker, c.world)))
      (c.afterTick tick (Ticker.tick workspace broadcaster (c.ticker, c.world))) := by
  have claimed : Run workspace c [.claimed tick] _ := Run.start.next (.claimed tick unstarted)
  have sent := claimed.trans (@listing_runs _ workspace broadcaster _ tick _ (put_same ..))
  have counted := sent.trans (projects_run (put_same ..))
  rw [put_put, ← put_move, put_put, put_put] at counted
  rw [afterTick, tickMoments, tick_state]
  exact counted

end Alone

end Clock

end TemplateSync
