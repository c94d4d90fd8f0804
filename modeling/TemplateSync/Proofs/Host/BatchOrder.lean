import TemplateSync.Proofs.Host.Clockwork

set_option autoImplicit false

namespace TemplateSync

namespace TickPhase

def preparing : TickPhase → Bool
  | .claimed due | .listing _ due => due
  | .listed | .counted _ => true
  | .unstarted | .unwound | .batching _ | .ended => false

def holds (phase : TickPhase) : Bool :=
  phase.preparing || phase.isBatching

def deferred : TickPhase → Bool
  | .claimed due | .listing _ due => !due
  | .ended => true
  | .unstarted | .listed | .counted _ | .unwound | .batching _ => false

def begun : TickPhase → Bool
  | .batching _ | .ended => true
  | .unstarted | .claimed _ | .listing .. | .listed | .counted _ | .unwound => false

@[simp] theorem holds_afterList (due : Bool) : (afterList due).holds = due := by
  cases due <;> rfl

@[simp] theorem preparing_ofTaken (taken : DirtyFlags) :
    (ofTaken taken).preparing = taken.metadata := by
  rcases taken with ⟨_ | _, _ | _⟩ <;> rfl

@[simp] theorem holds_ofTaken (taken : DirtyFlags) : (ofTaken taken).holds = taken.metadata := by
  rcases taken with ⟨_ | _, _ | _⟩ <;> rfl

@[simp] theorem deferred_ofTaken (taken : DirtyFlags) :
    (ofTaken taken).deferred = !taken.metadata := by
  rcases taken with ⟨_ | _, _ | _⟩ <;> rfl

theorem ofTaken_ne_unstarted (taken : DirtyFlags) : ofTaken taken ≠ .unstarted := by
  rcases taken with ⟨_ | _, _ | _⟩ <;> nofun

theorem holds_iff {phase : TickPhase} :
    phase.holds = true ↔ phase.isBatching = true ∨ phase.preparing = true := by
  rw [holds, Bool.or_eq_true, or_comm]

end TickPhase

namespace Ticker

theorem claim_metadata (ticker : Ticker) :
    (claim ticker).value.metadata = (ticker.flags.metadata && !ticker.batchInFlight) := by
  rcases ticker with ⟨⟨_ | _, _ | _⟩, _ | _⟩ <;> rfl

theorem claim_mark (ticker : Ticker) :
    (claim ticker).state.batchInFlight = (ticker.batchInFlight || ticker.flags.metadata) := by
  rcases ticker with ⟨⟨_ | _, _ | _⟩, _ | _⟩ <;> rfl

theorem claim_dirty (ticker : Ticker) :
    (claim ticker).state.flags.metadata = (ticker.batchInFlight && ticker.flags.metadata) := by
  rcases ticker with ⟨⟨_ | _, _ | _⟩, _ | _⟩ <;> rfl

end Ticker

namespace Clock

variable {σ : Type} {workspace : Workspace σ} {c d : Clock σ} {moment : Moment σ}

/-- The tick that holds the mark, if there is one. -/
structure Owner (c : Clock σ) (owner : Option Nat) : Prop where
  mark : c.ticker.batchInFlight = owner.isSome
  held : ∀ tick, (c.ticks tick).holds = true ↔ owner = some tick

theorem start_owner (world : σ) : (start world).Owner none :=
  ⟨rfl, fun _ => ⟨nofun, nofun⟩⟩

theorem Owner.unique {one two : Option Nat} (first : c.Owner one) (second : c.Owner two) :
    one = two := by
  ext tick
  exact (first.held tick).symm.trans (second.held tick)

section Owner

variable {owner : Option Nat} {tick : Nat} {phase : TickPhase} {ticker : Ticker}

theorem Owner.keep (owned : c.Owner owner) (ticker : Ticker)
    (same : ticker.batchInFlight = c.ticker.batchInFlight)
    (kept : phase.holds = (c.ticks tick).holds) : ((c.turn ticker).put tick phase).Owner owner := by
  refine ⟨same.trans owned.mark, fun other => ?_⟩
  by_cases own : other = tick
  next =>
    subst own
    rw [put_same, kept, owned.held]
  next => rw [put_other _ _ own, turn_ticks, owned.held]

theorem Owner.take (owned : c.Owner none) (marked : ticker.batchInFlight = true)
    (taken : phase.holds = true) : ((c.turn ticker).put tick phase).Owner (some tick) := by
  refine ⟨marked, fun other => ?_⟩
  by_cases own : other = tick
  next => simp [own, taken]
  next =>
    rw [put_other _ _ own, turn_ticks, owned.held]
    simp [Ne.symm own]

theorem Owner.release (owned : c.Owner (some tick)) (cleared : ticker.batchInFlight = false)
    (gone : phase.holds = false) : ((c.turn ticker).put tick phase).Owner none := by
  refine ⟨cleared, fun other => ?_⟩
  by_cases own : other = tick
  next => simp [own, gone]
  next =>
    rw [put_other _ _ own, turn_ticks, owned.held]
    simp [Ne.symm own]

theorem claim_owner (owned : c.Owner owner) (unstarted : c.ticks tick = .unstarted) :
    ((c.turn (Ticker.claim c.ticker).state).put tick
        (.ofTaken (Ticker.claim c.ticker).value)).Owner owner ∨
      owner = none ∧ ((c.turn (Ticker.claim c.ticker).state).put tick
        (.ofTaken (Ticker.claim c.ticker).value)).Owner (some tick) := by
  cases takes : c.ticker.flags.metadata && !c.ticker.batchInFlight with
  | true =>
    obtain ⟨dirty, unmarked⟩ : c.ticker.flags.metadata = true ∧ c.ticker.batchInFlight = false := by
      simpa using takes
    obtain rfl : owner = none := by simpa [owned.mark] using unmarked
    exact .inr ⟨rfl, owned.take (by simp [Ticker.claim_mark, dirty])
      (by rw [TickPhase.holds_ofTaken, Ticker.claim_metadata, takes])⟩
  | false =>
    refine .inl (owned.keep _ ?_ ?_)
    next =>
      rw [Ticker.claim_mark]
      revert takes
      cases c.ticker.batchInFlight <;> simp
    next =>
      rw [TickPhase.holds_ofTaken, Ticker.claim_metadata, takes, unstarted]
      rfl

-- The mark changes hands in two ways: a claim takes it while no one has it, and the end of a batch, or of the
-- attempt to start it, gives it back.
theorem owner_step (owned : c.Owner owner) (step : Step workspace c moment d) :
    d.Owner owner ∨
      (∃ tick, moment = .claimed tick ∧ owner = none ∧ d.Owner (some tick)) ∨
      ∃ tick, (moment = .spawnFailed tick ∨ moment = .batchEnded tick) ∧ owner = some tick ∧
        d.Owner none := by
  cases step with
  | moved | changed => exact .inl ⟨owned.mark, owned.held⟩
  | claimed tick unstarted =>
    rcases claim_owner owned unstarted with kept | ⟨none, taken⟩
    next => exact .inl kept
    next => exact .inr (.inl ⟨tick, rfl, none, taken⟩)
  | listRead tick metadata phase =>
    exact .inl (owned.keep c.ticker rfl (by rw [phase]; rfl))
  | listSent tick message metadata phase =>
    refine .inl (owned.keep c.ticker rfl ?_)
    rw [TickPhase.holds_afterList, phase]
    exact (Bool.or_false metadata).symm
  | projectsRead tick phase | batchStarted tick batch phase =>
    exact .inl (owned.keep c.ticker rfl (by rw [phase]; rfl))
  | metadataLeft tick phase => exact .inl (owned.keep _ rfl (by rw [phase]; rfl))
  | spawnFailed tick batch phase =>
    obtain rfl := (owned.held tick).mp (by rw [phase]; rfl)
    exact .inr (.inr ⟨tick, .inl rfl, rfl, owned.release rfl rfl⟩)
  | batchEnded tick batch phase =>
    obtain rfl := (owned.held tick).mp (by rw [phase]; rfl)
    exact .inr (.inr ⟨tick, .inr rfl, rfl, owned.release rfl rfl⟩)

end Owner

inductive Advance (tick : Nat) : Moment σ → TickPhase → TickPhase → Prop where
  | claimed (taken : DirtyFlags) : Advance tick (.claimed tick) .unstarted (.ofTaken taken)
  | listRead (message : Message) (due : Bool) :
      Advance tick (.listRead tick) (.claimed due) (.listing message due)
  | listSent (message : Message) (due : Bool) :
      Advance tick (.listSent tick) (.listing message due) (.afterList due)
  | projectsRead (batch : Batch) : Advance tick (.projectsRead tick) .listed (.counted batch)
  | batchStarted (batch : Batch) :
      Advance tick (.batchStarted tick) (.counted batch) (.batching batch)
  | spawnFailed (batch : Batch) : Advance tick (.spawnFailed tick) (.counted batch) .unwound
  | metadataLeft : Advance tick (.metadataLeft tick) .unwound .ended
  | batchEnded (batch : Batch) : Advance tick (.batchEnded tick) (.batching batch) .ended

theorem step_advance {tick : Nat} (step : Step workspace c moment d)
    (own : moment.tick? = some tick) : Advance tick moment (c.ticks tick) (d.ticks tick) := by
  cases step with
  | moved | changed => cases own
  | claimed _ phase | listRead _ _ phase | listSent _ _ _ phase | projectsRead _ phase
  | batchStarted _ _ phase | spawnFailed _ _ phase | metadataLeft _ phase
  | batchEnded _ _ phase =>
    cases own
    rw [phase, put_same]
    constructor

end Clock

namespace Clockwork

variable {σ : Type} {workspace : Workspace σ} {w k : Clockwork σ} {beat : Beat σ}
  {beats : List (Beat σ)}

inductive Progress (tick : Nat) (beat : Beat σ) (before : TickPhase) : TickPhase → Prop where
  | aside (other : beat.tick? ≠ some tick) : Progress tick beat before before
  | turned (moment : Moment σ) (after : TickPhase) (same : beat = .clock moment)
      (advance : Clock.Advance tick moment before after) : Progress tick beat before after
  | working (batching : before.isBatching = true) : Progress tick beat before before

theorem step_progress (fits : w.Fits) (step : Step workspace w beat k) (tick : Nat) :
    Progress tick beat (w.clock.ticks tick) (k.clock.ticks tick) := by
  by_cases own : beat.tick? = some tick
  next =>
    cases step with
    | clock _ _ _ step | begun _ _ _ _ step | ended _ _ _ step =>
      exact .turned _ _ rfl (Clock.step_advance step own)
    | emitted _ _ _ _ there | gathered _ _ there | crashed _ _ _ there | skipped _ _ _ _ there
    | speaking _ _ _ _ there | spoken _ _ _ there =>
      cases own
      refine .working ?_
      rw [← fits.alive, there]
      rfl
  next =>
    rw [ticks_other step own]
    exact .aside own

namespace Progress

variable {tick : Nat} {before after : TickPhase}

theorem unstarted (progress : Progress tick beat before .unstarted) :
    before = .unstarted ∧ beat.tick? ≠ some tick := by
  generalize phase : TickPhase.unstarted = after at progress
  cases progress with
  | aside other => exact ⟨rfl, other⟩
  | working batching =>
    subst phase
    cases batching
  | turned moment _ same advance =>
    cases advance with
    | claimed taken => exact absurd phase.symm (TickPhase.ofTaken_ne_unstarted taken)
    | listSent _ due => cases due <;> cases phase
    | listRead | projectsRead | batchStarted | spawnFailed | metadataLeft | batchEnded => cases phase

theorem ended (progress : Progress tick beat .ended after) :
    after = .ended ∧ beat.tick? ≠ some tick := by
  cases progress with
  | aside other => exact ⟨rfl, other⟩
  | working batching => cases batching
  | turned _ _ _ advance => cases advance

theorem begun (progress : Progress tick beat before after) (past : before.begun = true) :
    after.begun = true := by
  cases progress with
  | aside | working => exact past
  | turned _ _ _ advance => cases advance <;> first | rfl | cases past

theorem deferred (progress : Progress tick beat before after) (past : before.deferred = true) :
    after.deferred = true ∧ (beat.tick? = some tick →
      beat = .clock (.listRead tick) ∨ beat = .clock (.listSent tick)) := by
  cases progress with
  | aside other => exact ⟨past, fun own => absurd own other⟩
  | working batching =>
    cases before with
    | batching => cases past
    | unstarted | claimed | listing | listed | counted | unwound | ended => cases batching
  | turned _ _ same advance =>
    subst same
    cases advance with
    | listRead => exact ⟨past, fun _ => .inl rfl⟩
    | listSent _ due =>
      cases due
      next => exact ⟨rfl, fun _ => .inr rfl⟩
      next => cases past
    | claimed | projectsRead | batchStarted | spawnFailed | metadataLeft | batchEnded => cases past

theorem preparing (progress : Progress tick beat before after) (past : before.preparing = true) :
    after.preparing = true ∨ beat = .clock (.batchStarted tick) ∨
      beat = .clock (.spawnFailed tick) := by
  cases progress with
  | aside | working => exact .inl past
  | turned _ _ same advance =>
    subst same
    cases advance with
    | listRead | projectsRead => exact .inl past
    | listSent _ due =>
      cases due
      next => cases past
      next => exact .inl rfl
    | batchStarted => exact .inr (.inl rfl)
    | spawnFailed => exact .inr (.inr rfl)
    | claimed | metadataLeft | batchEnded => cases past

end Progress

theorem trace_unstarted {tick : Nat} (trace : Trace (Step workspace) w beats k) (fits : w.Fits)
    (now : k.clock.ticks tick = .unstarted) : ∀ beat ∈ beats, beat.tick? ≠ some tick := by
  induction trace with
  | start => nofun
  | next trace last ih =>
    have progress := step_progress (trace_fits trace fits) last tick
    rw [now] at progress
    obtain ⟨before, other⟩ := progress.unstarted
    simpa [or_imp, forall_and] using ⟨ih before, other⟩

-- What every beat keeps of the phase of one tick, and what it shows of itself meanwhile.
theorem trace_phase {tick : Nat} {keeps : TickPhase → Prop} {shows : Beat σ → Prop}
    (kept : ∀ beat before after, keeps before → Progress tick beat before after →
      keeps after ∧ shows beat)
    (trace : Trace (Step workspace) w beats k) (fits : w.Fits)
    (before : keeps (w.clock.ticks tick)) :
    keeps (k.clock.ticks tick) ∧ ∀ beat ∈ beats, shows beat := by
  induction trace with
  | start => exact ⟨before, nofun⟩
  | next trace last ih =>
    have progress := step_progress (trace_fits trace fits) last tick
    obtain ⟨still, shown⟩ := kept _ _ _ ih.1 progress
    exact ⟨still, by simpa [or_imp, forall_and] using ⟨ih.2, shown⟩⟩

theorem trace_ended {tick : Nat} (trace : Trace (Step workspace) w beats k) (fits : w.Fits)
    (ended : w.clock.ticks tick = .ended) :
    k.clock.ticks tick = .ended ∧ ∀ beat ∈ beats, beat.tick? ≠ some tick := by
  have kept (beat : Beat σ) (before after : TickPhase) (past : before = .ended)
      (progress : Progress tick beat before after) :
      after = .ended ∧ beat.tick? ≠ some tick := by
    subst past
    exact progress.ended
  exact trace_phase kept trace fits ended

theorem trace_begun {tick : Nat} (trace : Trace (Step workspace) w beats k) (fits : w.Fits)
    (begun : (w.clock.ticks tick).begun = true) : (k.clock.ticks tick).begun = true := by
  have kept (beat : Beat σ) (before after : TickPhase) (past : before.begun = true)
      (progress : Progress tick beat before after) : after.begun = true ∧ True :=
    ⟨progress.begun past, trivial⟩
  exact (trace_phase kept trace fits begun).1

theorem trace_deferred {tick : Nat} (trace : Trace (Step workspace) w beats k) (fits : w.Fits)
    (deferred : (w.clock.ticks tick).deferred = true) :
    (k.clock.ticks tick).deferred = true ∧ ∀ beat ∈ beats, beat.tick? = some tick →
      beat = .clock (.listRead tick) ∨ beat = .clock (.listSent tick) :=
  trace_phase (fun _ _ _ past progress => progress.deferred past) trace fits deferred

theorem trace_preparing {tick : Nat} (trace : Trace (Step workspace) w beats k) (fits : w.Fits)
    (preparing : (w.clock.ticks tick).preparing = true) :
    (k.clock.ticks tick).preparing = true ∨ .clock (.batchStarted tick) ∈ beats ∨
      .clock (.spawnFailed tick) ∈ beats := by
  induction trace with
  | start => exact .inl preparing
  | next trace last ih =>
    rcases ih with still | past
    next =>
      rcases (step_progress (trace_fits trace fits) last tick).preparing still with
        now | rfl | rfl
      next => exact .inl now
      next => exact .inr (.inl (by simp))
      next => exact .inr (.inr (by simp))
    next => exact .inr (by simpa using past.imp Or.inl Or.inl)

theorem owner_beat {owner : Option Nat} (owned : w.clock.Owner owner)
    (step : Step workspace w beat k) :
    k.clock.Owner owner ∨
      (∃ tick, beat = .clock (.claimed tick) ∧ owner = none ∧ k.clock.Owner (some tick)) ∨
      k.clock.Owner none := by
  rcases clock_step step with ⟨moment, rfl, moved⟩ | ⟨_, ticker, ticks⟩
  next =>
    rcases Clock.owner_step owned moved with kept | ⟨tick, rfl, free, taken⟩ | ⟨_, _, _, released⟩
    next => exact .inl kept
    next => exact .inr (.inl ⟨tick, rfl, free, taken⟩)
    next => exact .inr (.inr released)
  next => exact .inl ⟨ticker ▸ owned.mark, ticks ▸ owned.held⟩

theorem trace_owner {owner : Option Nat} (trace : Trace (Step workspace) w beats k)
    (owned : w.clock.Owner owner) : ∃ now, k.clock.Owner now := by
  induction trace with
  | start => exact ⟨owner, owned⟩
  | next _ last ih =>
    obtain ⟨now, owned⟩ := ih
    rcases owner_beat owned last with kept | ⟨tick, _, _, taken⟩ | released
    next => exact ⟨now, kept⟩
    next => exact ⟨some tick, taken⟩
    next => exact ⟨none, released⟩

theorem claimed_since {owner : Option Nat} {tick : Nat} (trace : Trace (Step workspace) w beats k)
    (before : w.clock.Owner owner) (now : k.clock.Owner (some tick)) :
    owner = some tick ∨ ∃ early late m, beats = early ++ .clock (.claimed tick) :: late ∧
      Trace (Step workspace) w early m ∧ m.clock.Owner none ∧
      Trace (Step workspace) m (.clock (.claimed tick) :: late) k := by
  induction trace with
  | start => exact .inl (before.unique now)
  | @next labels beat t u trace last ih =>
    obtain ⟨between, owned⟩ := trace_owner trace before
    -- The mark was this tick's already, or the last beat is its claim.
    have turn : between = some tick ∨ beat = .clock (.claimed tick) ∧ t.clock.Owner none := by
      rcases owner_beat owned last with kept | ⟨other, rfl, rfl, taken⟩ | released
      next => exact .inl (kept.unique now)
      next =>
        cases taken.unique now
        exact .inr ⟨rfl, owned⟩
      next => cases released.unique now
    rcases turn with rfl | ⟨rfl, free⟩
    next =>
      rcases ih owned with held | ⟨early, late, m, rfl, first, free, second⟩
      next => exact .inl held
      next => exact .inr ⟨early, late ++ [beat], m, by simp, first, free, second.next last⟩
    next => exact .inr ⟨labels, [], t, rfl, trace, free, trace_single last⟩

theorem start_run {world : σ} (trace : Trace (Step workspace) (start world) beats w) :
    w.Fits ∧ ∃ owner, w.clock.Owner owner :=
  ⟨trace_fits trace (start_fits world), trace_owner trace (Clock.start_owner world)⟩

theorem alive_holds (fits : w.Fits) {tick : Nat} (alive : (w.batches tick).isSome = true) :
    (w.clock.ticks tick).holds = true := by
  rw [fits.alive] at alive
  exact TickPhase.holds_iff.mpr (.inl alive)

theorem marked_iff {owner : Option Nat} (fits : w.Fits) (owned : w.clock.Owner owner) :
    w.clock.ticker.batchInFlight = true ↔
      ∃ tick, (w.batches tick).isSome = true ∨ (w.clock.ticks tick).preparing = true := by
  rw [owned.mark, Option.isSome_iff_exists]
  refine exists_congr fun tick => ?_
  rw [fits.alive, ← TickPhase.holds_iff]
  exact (owned.held tick).symm

-- A batch that starts after another was claimed after the other had ended.
theorem started_after {a b : Nat} {middle : List (Beat σ)} {m : Clockwork σ} {owner : Option Nat}
    (fits : w.Fits) (owned : w.clock.Owner owner)
    (first : Step workspace w (.clock (.batchStarted a)) m)
    (trace : Trace (Step workspace) m middle k) {batch : Batch}
    (counted : k.clock.ticks b = .counted batch) :
    ∃ early late free, middle = early ++ .clock (.claimed b) :: late ∧
      Trace (Step workspace) m early free ∧ free.clock.ticks a = .ended ∧
      Trace (Step workspace) free (.clock (.claimed b) :: late) k := by
  have after := first.fits fits
  obtain ⟨now, held⟩ : ∃ now, m.clock.Owner now := trace_owner (trace_single first) owned
  have batching : (m.clock.ticks a).isBatching = true := by
    rcases clock_step first with ⟨moment, same, step⟩ | ⟨none, _, _⟩
    next =>
      cases same
      generalize m.clock = clock at step
      cases step
      simp [TickPhase.isBatching]
    next => exact absurd rfl (none _)
  obtain rfl : now = some a :=
    (held.held a).mp (TickPhase.holds_iff.mpr (.inl batching))
  obtain ⟨last, owned⟩ := trace_owner trace held
  obtain rfl : last = some b := (owned.held b).mp (by rw [counted]; rfl)
  have begun : (m.clock.ticks a).begun = true := by
    revert batching
    cases m.clock.ticks a <;> simp [TickPhase.isBatching, TickPhase.begun]
  rcases claimed_since trace held owned with same | ⟨early, late, free, rfl, one, none, two⟩
  next =>
    -- A batch that has begun is not counted once more.
    cases same
    have still := trace_begun trace after begun
    rw [counted] at still
    cases still
  next =>
    refine ⟨early, late, free, rfl, one, ?_, two⟩
    have past := trace_begun one after begun
    have gone : ¬(free.clock.ticks a).holds = true := by simp [none.held]
    revert past gone
    cases free.clock.ticks a <;> simp [TickPhase.begun, TickPhase.holds, TickPhase.isBatching]

def CanStart (workspace : Workspace σ) (tick : Nat) (w : Clockwork σ) : Prop :=
  ∃ own k, Trace (Step workspace) w own k ∧ (∀ beat ∈ own, beat.tick? = some tick) ∧
    .clock (.batchStarted tick) ∈ own

section CanStart

variable {tick : Nat}

theorem canStart_after {moment : Moment σ} {clock : Clock σ} (own : moment.tick? = some tick)
    (aside : moment.startsOrEnds = false) (step : Clock.Step workspace w.clock moment clock)
    (rest : CanStart workspace tick { w with clock := clock }) : CanStart workspace tick w := by
  obtain ⟨beats, k, trace, all, starts⟩ := rest
  exact ⟨.clock moment :: beats, k, trace_cons.mpr ⟨_, .clock moment clock aside step, trace⟩,
    by simpa [Beat.tick?, own] using all, .tail _ starts⟩

theorem counted_canStart {batch : Batch} (phase : w.clock.ticks tick = .counted batch) :
    CanStart workspace tick w :=
  ⟨[.clock (.batchStarted tick)], _,
    trace_single (.begun tick batch _ phase (.batchStarted tick batch phase)),
    by simp [Beat.tick?, Moment.tick?], .head _⟩

theorem listed_canStart (phase : w.clock.ticks tick = .listed) : CanStart workspace tick w :=
  canStart_after rfl rfl (.projectsRead tick phase) (counted_canStart (Clock.put_same ..))

theorem listing_canStart {message : Message} (phase : w.clock.ticks tick = .listing message true) :
    CanStart workspace tick w :=
  canStart_after rfl rfl (.listSent tick message true phase) (listed_canStart (Clock.put_same ..))

theorem preparing_canStart (preparing : (w.clock.ticks tick).preparing = true) :
    CanStart workspace tick w := by
  cases phase : w.clock.ticks tick with
  | claimed due =>
    rw [phase] at preparing
    cases preparing
    exact canStart_after rfl rfl (.listRead tick true phase)
      (listing_canStart (Clock.put_same ..))
  | listing message due =>
    rw [phase] at preparing
    cases preparing
    exact listing_canStart phase
  | listed => exact listed_canStart phase
  | counted batch => exact counted_canStart phase
  | unstarted | unwound | batching | ended =>
    rw [phase] at preparing
    cases preparing

end CanStart

theorem claimed_phase {tick : Nat} (step : Step workspace w (.clock (.claimed tick)) k) :
    w.clock.ticks tick = .unstarted ∧ k.clock.ticker = (Ticker.claim w.clock.ticker).state ∧
      k.clock.ticks tick = .ofTaken (Ticker.claim w.clock.ticker).value := by
  cases step with
  | clock _ _ _ step =>
    cases step with
    | claimed _ unstarted => exact ⟨unstarted, rfl, Clock.put_same ..⟩

theorem batches_take_turns (workspace : Workspace σ) (world : σ) :
    (∀ beats w, Trace (Step workspace) (start world) beats w →
      (∀ a b, (w.batches a).isSome = true → (w.batches b).isSome = true → a = b) ∧
      (w.clock.ticker.batchInFlight = true ↔
        ∃ tick, (w.batches tick).isSome = true ∨ (w.clock.ticks tick).preparing = true) ∧
      ∀ tick, (w.batches tick).isSome = true →
        ∃ own k, Trace (Step workspace) w own k ∧ (∀ beat ∈ own, beat.tick? = some tick) ∧
          k.batches tick = none) ∧
    (∀ before a middle b after w,
      Trace (Step workspace) (start world)
        (before ++ .clock (.batchStarted a) :: (middle ++ .clock (.batchStarted b) :: after)) w →
      ∃ early late, middle = early ++ .clock (.claimed b) :: late ∧
        (∀ beat ∈ before ++ .clock (.batchStarted a) :: early, beat.tick? ≠ some b) ∧
        ∀ beat ∈ late ++ .clock (.batchStarted b) :: after, beat.tick? ≠ some a) ∧
    ∀ before tick after w m k, Trace (Step workspace) (start world) before w →
      Step workspace w (.clock (.claimed tick)) m → Trace (Step workspace) m after k →
      (w.clock.ticker.batchInFlight = true →
        m.clock.ticker.flags.metadata = w.clock.ticker.flags.metadata ∧
        ∀ beat ∈ after, beat.tick? = some tick →
          beat = .clock (.listRead tick) ∨ beat = .clock (.listSent tick)) ∧
      (w.clock.ticker.batchInFlight = false → w.clock.ticker.flags.metadata = true →
        .clock (.batchStarted tick) ∈ after ∨ .clock (.spawnFailed tick) ∈ after ∨
          CanStart workspace tick k) := by
  refine ⟨?_, ?_, ?_⟩
  next =>
    intro beats w trace
    obtain ⟨fits, owner, owned⟩ := start_run trace
    refine ⟨fun a b first second => ?_, marked_iff fits owned, fun tick alive => ?_⟩
    next =>
      have one := (owned.held a).mp (alive_holds fits first)
      have two := (owned.held b).mp (alive_holds fits second)
      exact Option.some.inj (one.symm.trans two)
    next =>
      obtain ⟨phase, there⟩ := Option.isSome_iff_exists.mp alive
      exact batch_ends fits there
  next =>
    intro before a middle b after w trace
    obtain ⟨x, one, rest⟩ := trace_append.mp trace
    obtain ⟨y, first, rest⟩ := trace_cons.mp rest
    obtain ⟨z, between, last⟩ := trace_append.mp rest
    obtain ⟨v, second, _⟩ := trace_cons.mp last
    obtain ⟨fits, owner, owned⟩ := start_run one
    obtain ⟨batch, counted⟩ : ∃ batch, z.clock.ticks b = .counted batch := by
      cases second with
      | clock _ _ aside => cases aside
      | begun _ batch _ counted => exact ⟨batch, counted⟩
    obtain ⟨early, late, free, rfl, sooner, ended, later⟩ :=
      started_after fits owned first between counted
    refine ⟨early, late, rfl, ?_, ?_⟩
    next =>
      have past : Trace (Step workspace) (start world)
          (before ++ .clock (.batchStarted a) :: early) free :=
        one.trans (trace_cons.mpr ⟨y, first, sooner⟩)
      obtain ⟨_, claimed, _⟩ := trace_cons.mp later
      exact trace_unstarted past (start_fits world) (claimed_phase claimed).1
    next =>
      obtain ⟨_, claimed, later⟩ := trace_cons.mp later
      have past := trace_fits sooner (first.fits fits)
      have finished := (trace_ended (trace_single claimed) past ended).1
      exact (trace_ended (later.trans last) (claimed.fits past) finished).2
  next =>
    intro before tick after w m k trace claimed rest
    obtain ⟨fits, _⟩ := start_run trace
    obtain ⟨_, ticker, phase⟩ := claimed_phase claimed
    have taken := Ticker.claim_metadata w.clock.ticker
    refine ⟨fun marked => ⟨?_, ?_⟩, fun unmarked dirty => ?_⟩
    next => rw [ticker, Ticker.claim_dirty, marked, Bool.true_and]
    next =>
      refine (trace_deferred rest (claimed.fits fits) ?_).2
      rw [phase, TickPhase.deferred_ofTaken, taken, marked]
      simp
    next =>
      have preparing : (m.clock.ticks tick).preparing = true := by
        rw [phase, TickPhase.preparing_ofTaken, taken, unmarked, dirty]
        rfl
      rcases trace_preparing rest (claimed.fits fits) preparing with still | started | failed
      next => exact .inr (.inr (preparing_canStart still))
      next => exact .inl started
      next => exact .inr (.inl failed)

section Example

def crashing (project : ProjectDescriptor) : Workspace Unit where
  projects := fun _ => [project]
  emit := fun _ => pure .crashed

def batchFails (project : ProjectDescriptor) : List (Beat Unit) :=
  [.emitted 0 project, .clock (.changed .documentChanged), .clock (.claimed 1), .crashed 0,
    .clock (.batchEnded 0), .clock (.claimed 2), .clock (.projectsRead 2)]

theorem batchFails_runs (project : ProjectDescriptor) :
    ∃ w, Trace (Step (crashing project)) (start ())
      ([.clock (.changed .documentChanged), .clock (.claimed 0), .clock (.projectsRead 0)] ++
        .clock (.batchStarted 0) :: (batchFails project ++ [.clock (.batchStarted 2)])) w := by
  -- A guard of a concrete state is true by evaluation.
  refine traced_cons (.clock _ _ rfl (.changed _)) ?_
  refine traced_cons (.clock _ _ rfl (.claimed 0 rfl)) ?_
  refine traced_cons (.clock _ _ rfl (.projectsRead 0 rfl)) ?_
  refine traced_cons (.begun 0 _ _ rfl (.batchStarted 0 _ rfl)) ?_
  refine traced_cons (.emitted 0 [] [] project rfl) ?_
  refine traced_cons (.clock _ _ rfl (.changed _)) ?_
  refine traced_cons (.clock _ _ rfl (.claimed 1 rfl)) ?_
  refine traced_cons (.crashed 0 _ project rfl (.head _)) ?_
  refine traced_cons (.ended 0 _ (.inl rfl) (.batchEnded 0 _ rfl)) ?_
  refine traced_cons (.clock _ _ rfl (.claimed 2 rfl)) ?_
  refine traced_cons (.clock _ _ rfl (.projectsRead 2 rfl)) ?_
  exact ⟨_, trace_single (.begun 2 _ _ rfl (.batchStarted 2 _ rfl))⟩

/-- The tick in between does not start a batch, and the one after the crash does. -/
theorem crashed_batch_gives_way :
    ∃ early late, batchFails ⟨.ofNat 1, "Web", "/web/Web.csproj", []⟩ =
        early ++ .clock (.claimed 2) :: late ∧
      ∀ beat ∈ late ++ [.clock (.batchStarted 2)], beat.tick? ≠ some 0 := by
  obtain ⟨w, run⟩ := batchFails_runs ⟨.ofNat 1, "Web", "/web/Web.csproj", []⟩
  obtain ⟨early, late, split, _, none⟩ :=
    (batches_take_turns (crashing _) ()).2.1 _ _ _ _ _ _ run
  exact ⟨early, late, split, none⟩

end Example

end Clockwork

end TemplateSync
