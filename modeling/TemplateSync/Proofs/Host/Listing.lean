import TemplateSync.Proofs.Host.Clock

set_option autoImplicit false

namespace TemplateSync

namespace Clock

variable {σ : Type} {workspace : Workspace σ} {c d : Clock σ} {moment : Moment σ} {tick : Nat}

def Unlisted (c : Clock σ) : Prop :=
  c.ticker.flags.solution = true ∨ ∃ tick metadata, c.ticks tick = .claimed metadata

theorem unlisted_change {change : Change} (structural : change.isStructural = true) :
    (c.turn (Ticker.onChange change c.ticker).state).Unlisted := by
  left
  simp [Ticker.onChange, DirtyFlags.mark, structural]

theorem claim_solution (ticker : Ticker) :
    (Ticker.claim ticker).value.solution = ticker.flags.solution := by
  rcases ticker with ⟨⟨_ | _, _ | _⟩, _ | _⟩ <;> rfl

theorem unlisted_step (unlisted : c.Unlisted) (step : Step workspace c moment d) :
    d.Unlisted ∨ ∃ tick, moment = .listRead tick := by
  rcases unlisted with dirty | ⟨other, metadata, claimed⟩
  next =>
    left
    cases step with
    | claimed tick unstarted =>
      have taken : (Ticker.claim c.ticker).value.solution = true := by rwa [claim_solution]
      exact .inr ⟨tick, _, by rw [put_same, TickPhase.ofTaken, if_pos taken]⟩
    | changed change =>
      left
      simp [Ticker.onChange, DirtyFlags.mark, dirty]
    | moved | listRead | listSent | projectsRead | batchStarted | spawnFailed | metadataLeft
    | batchEnded => exact .inl dirty
  next =>
    by_cases own : moment.tick? = some other
    next =>
      cases step with
      | moved | changed => cases own
      | listRead tick => exact .inr ⟨tick, rfl⟩
      | claimed _ phase | listSent _ _ _ phase | projectsRead _ phase | batchStarted _ _ phase
      | spawnFailed _ _ phase | metadataLeft _ phase | batchEnded _ _ phase =>
        cases own
        rw [phase] at claimed
        cases claimed
    next => exact .inl (.inr ⟨other, metadata, by rwa [step_other step own]⟩)

theorem listing_step {message : Message} {metadata : Bool} (step : Step workspace c moment d)
    (listing : d.ticks tick = .listing message metadata) :
    c.ticks tick = .listing message metadata ∨
      moment = .listRead tick ∧ message = .solution (workspace.projects c.world) := by
  by_cases own : moment.tick? = some tick
  next =>
    cases step with
    | moved | changed => cases own
    | listRead =>
      cases own
      rw [put_same] at listing
      cases listing
      exact .inr ⟨rfl, rfl⟩
    | claimed | listSent | projectsRead | batchStarted | spawnFailed | metadataLeft
    | batchEnded =>
      cases own
      simp at listing
  next => exact .inl (by rwa [step_other step own] at listing)

theorem listing_stays {message : Message} {metadata : Bool} (step : Step workspace c moment d)
    (listing : c.ticks tick = .listing message metadata) (going : moment ≠ .listSent tick) :
    d.ticks tick = .listing message metadata := by
  by_cases own : moment.tick? = some tick
  next =>
    cases step with
    | moved | changed => cases own
    | listSent => cases own; exact absurd rfl going
    | claimed _ phase | listRead _ _ phase | projectsRead _ phase | batchStarted _ _ phase
    | spawnFailed _ _ phase | metadataLeft _ phase | batchEnded _ _ phase =>
      cases own
      rw [phase] at listing
      cases listing
  next => rwa [step_other step own]

theorem progress_step (step : Step workspace c moment d)
    (running : (d.ticks tick).inProgress = true) :
    (c.ticks tick).inProgress = true ∨ moment = .claimed tick := by
  by_cases own : moment.tick? = some tick
  next =>
    cases step with
    | moved | changed => cases own
    | claimed => cases own; exact .inr rfl
    | listRead _ _ phase | listSent _ _ _ phase | projectsRead _ phase | batchStarted _ _ phase
    | spawnFailed _ _ phase | metadataLeft _ phase =>
      cases own
      left
      rw [phase]
      rfl
    | batchEnded =>
      cases own
      simp [TickPhase.inProgress] at running
  next => exact .inl (by rwa [step_other step own] at running)

theorem world_step (step : Step workspace c moment d) (timed : moment.tick? = some tick) :
    d.world = c.world := by
  cases step with
  | moved | changed => cases timed
  | claimed | listRead | listSent | projectsRead | batchStarted | spawnFailed | metadataLeft
  | batchEnded => rfl

def Single (c : Clock σ) : Prop :=
  ∀ one two, (c.ticks one).inProgress = true → (c.ticks two).inProgress = true → one = two

theorem single_step (single : c.Single) (step : Step workspace c moment d)
    (going : ∀ tick, moment ≠ .claimed tick) : d.Single := by
  intro one two first second
  have before := (progress_step step first).resolve_right (going one)
  have other := (progress_step step second).resolve_right (going two)
  exact single one two before other

theorem single_claim (alone : ∀ other, (c.ticks other).inProgress = false)
    (step : Step workspace c (.claimed tick) d) : d.Single := by
  have only (one : Nat) (running : (d.ticks one).inProgress = true) : one = tick := by
    rcases progress_step step running with before | claimed
    next => simp [alone] at before
    next => cases claimed; rfl
  intro one two first second
  rw [only one first, only two second]

end Clock

end TemplateSync
