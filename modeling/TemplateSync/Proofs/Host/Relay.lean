import TemplateSync.Proofs.Host.Changes
import TemplateSync.Proofs.Host.Clockwork
import TemplateSync.Proofs.Host.Listing
import TemplateSync.Proofs.Worker.Documents

set_option autoImplicit false

namespace TemplateSync

namespace Clock

variable {σ : Type} {workspace : Workspace σ} {c d : Clock σ} {moment : Moment σ}

/-- With one timer, a list that is dirty or under way leaves the metadata dirty or due. -/
structure Orderly (c : Clock σ) : Prop where
  single : c.Single
  both : c.ticker.flags.solution = true → c.ticker.flags.metadata = true
  deferred : ∀ tick, Deferring (c.ticks tick) → c.ticker.flags.metadata = true
  lists : ∀ tick message metadata, c.ticks tick = .listing message metadata →
    ∃ projects, message = .solution projects

theorem start_orderly (world : σ) : (start world).Orderly where
  single := nofun
  both := nofun
  deferred := by simp [start, Deferring]
  lists := nofun

theorem Orderly.step (orderly : c.Orderly) (step : Step workspace c moment d)
    (alone : ∀ tick, moment = .claimed tick → ∀ other, (c.ticks other).inProgress = false) :
    d.Orderly where
  single := by
    by_cases claimed : ∃ tick, moment = .claimed tick
    next =>
      obtain ⟨tick, rfl⟩ := claimed
      exact single_claim (alone tick rfl) step
    next => exact single_step orderly.single step fun tick same => claimed ⟨tick, same⟩
  both := solution_step orderly.both step
  deferred := by
    intro tick deferring
    rcases deferring_step step deferring with before | ⟨rfl, taken, same⟩
    next =>
      have dirty : Stake.metadata.dirty c.ticker.flags = true := orderly.deferred tick before
      rcases dirty_step dirty step with still | ⟨other, rfl, _⟩
      next => exact still
      next =>
        -- The other claim would find this tick in progress.
        have idle := alone other rfl tick
        rcases before with phase | ⟨message, phase⟩ <;> rw [phase] at idle <;> cases idle
    next =>
      rw [same]
      exact claim_deferring orderly.both taken
  lists := by
    intro tick message metadata listing
    rcases listing_step step listing with before | ⟨_, rfl⟩
    next => exact orderly.lists tick message metadata before
    next => exact ⟨_, rfl⟩

structure AtRest (c : Clock σ) : Prop where
  clean : c.ticker.flags = .clean
  idle : ∀ tick, c.ticks tick = .unstarted ∨ c.ticks tick = .ended

theorem AtRest.served {stake : Stake} {mark : Nat → List (Moment σ)} {moments : List (Moment σ)}
    (rest : c.AtRest) (kept : Kept stake mark moments c) :
    ∃ tick, stake.isDone tick ∈ moments := by
  rcases kept with dirty | ⟨tick, unread, _⟩ | ⟨tick, reading, _⟩ | ⟨tick, done⟩
  next => rw [rest.clean] at dirty; cases stake <;> cases dirty
  next => rcases rest.idle tick with phase | phase <;> rw [phase] at unread <;> cases stake <;> cases unread
  next => rcases rest.idle tick with phase | phase <;> rw [phase] at reading <;> cases stake <;> cases reading
  next => exact ⟨tick, done.mem (by simp)⟩

end Clock

namespace Clockwork

variable {σ : Type} {workspace : Workspace σ} {w k : Clockwork σ} {beat : Beat σ}

def sent (w : Clockwork σ) : Beat σ → List Message
  | .clock (.listSent tick) =>
    match w.clock.ticks tick with
    | .listing message _ => [message]
    | _ => []
  | .spoken _ message => [message]
  | _ => []

def Speaks (w : Clockwork σ) : Prop :=
  ∀ tick message rest, w.batches tick = some (.speaking message rest) →
    ∃ metadata, message = .metadata metadata

theorem Speaks.put (speaks : w.Speaks) (tick : Nat) {phase : Option BatchPhase}
    (own : ∀ message rest, phase = some (.speaking message rest) →
      ∃ metadata, message = .metadata metadata) : (w.put tick phase).Speaks := by
  intro other message rest there
  by_cases same : other = tick
  next =>
    subst same
    exact own message rest (by rwa [put_same] at there)
  next => exact speaks other message rest (by rwa [put_other _ _ same] at there)

theorem Speaks.step (speaks : w.Speaks) (step : Step workspace w beat k) : k.Speaks := by
  cases step with
  | clock => exact speaks
  | speaking tick project emitted rest =>
    refine speaks.put tick ?_
    rintro _ _ ⟨⟩
    exact ⟨_, rfl⟩
  | begun tick batch clock => exact Speaks.put (w := { w with clock := clock }) speaks tick nofun
  | ended tick clock => exact Speaks.put (w := { w with clock := clock }) speaks tick nofun
  | emitted tick => exact Speaks.put (w := w.move _) speaks tick nofun
  | gathered tick | crashed tick | skipped tick | spoken tick => exact speaks.put tick nofun

end Clockwork

structure Relay (σ τ : Type) where
  host : Clockwork σ
  joined : Bool
  line : List Message
  worker : Worker
  state : τ

namespace Relay

variable {σ τ : Type}

inductive Turn (σ : Type) where
  | host (beat : Beat σ) (posted : List Message)
  | joined (greeting : List Message)
  | edited
  | handled (message : Message) (requests : Journal)

namespace Turn

def beat? : Turn σ → Option (Beat σ)
  | .host beat _ => some beat
  | .joined _ | .edited | .handled .. => none

def posted : Turn σ → List Message
  | .host _ messages | .joined messages => messages
  | .edited | .handled .. => []

def taken : Turn σ → List Message
  | .handled message _ => [message]
  | .host .. | .joined _ | .edited => []

end Turn

def beats (turns : List (Turn σ)) : List (Beat σ) :=
  turns.filterMap Turn.beat?

def posted (turns : List (Turn σ)) : List Message :=
  turns.flatMap Turn.posted

def taken (turns : List (Turn σ)) : List Message :=
  turns.flatMap Turn.taken

@[simp] theorem taken_append (first second : List (Turn σ)) :
    taken (first ++ second) = taken first ++ taken second :=
  List.flatMap_append

def start (world : σ) (state : τ) : Relay σ τ :=
  ⟨.start world, false, [], .initial, state⟩

-- A worker that has not joined is sent nothing.
def post (r : Relay σ τ) (beat : Beat σ) : List Message :=
  if r.joined then r.host.sent beat else []

variable (workspace : Workspace σ) (version : Int32) (bench : Workbench τ) (extension : String)

def serve (r : Relay σ τ) (message : Message) : Outcome (τ × Journal) (Verdict × Worker) :=
  r.worker.handle bench.recorded extension message (r.state, [])

/-- One timer ticks. A list that is under way when the worker joins may reach it besides its greeting. -/
inductive Step (r : Relay σ τ) : Turn σ → Relay σ τ → Prop where
  | host (beat : Beat σ) (host : Clockwork σ)
      (alone : ∀ tick, beat = .clock (.claimed tick) →
        ∀ other, (r.host.clock.ticks other).inProgress = false)
      (step : Clockwork.Step workspace r.host beat host) :
      Step r (.host beat (r.post beat)) { r with host := host, line := r.line ++ r.post beat }
  | joined (apart : r.joined = false) :
      Step r (.joined (workspace.greeting version r.host.clock.world))
        { r with
          joined := true
          line := r.line ++ workspace.greeting version r.host.clock.world }
  | edited (state : τ) : Step r .edited { r with state := state }
  | handled (message : Message) (rest : List Message) (next : r.line = message :: rest) :
      Step r (.handled message (r.serve bench extension message).state.2)
        { r with
          line := rest
          worker := (r.serve bench extension message).value.2
          state := (r.serve bench extension message).state.1 }

variable {workspace version bench extension} {r s t : Relay σ τ} {turn : Turn σ}
  {turns : List (Turn σ)}

structure Sound (r : Relay σ τ) : Prop where
  orderly : r.host.clock.Orderly
  speaks : r.host.Speaks

theorem start_sound (world : σ) (state : τ) : (start world state).Sound :=
  ⟨Clock.start_orderly world, nofun⟩

theorem Sound.step (sound : r.Sound) (step : Step workspace version bench extension r turn s) :
    s.Sound := by
  cases step with
  | host beat host alone step =>
    refine ⟨?_, sound.speaks.step step⟩
    rcases Clockwork.clock_step step with ⟨moment, rfl, moved⟩ | ⟨_, ticker, ticks⟩
    next => exact sound.orderly.step moved fun tick same => alone tick (by rw [same])
    next =>
      obtain ⟨single, both, deferred, lists⟩ := sound.orderly
      constructor
      next => simpa only [Clock.Single, ticks] using single
      next => simpa only [ticker] using both
      next => simpa only [ticker, ticks] using deferred
      next => simpa only [ticks] using lists
  | joined | edited | handled => exact ⟨sound.orderly, sound.speaks⟩

end Relay

end TemplateSync
