import TemplateSync.Proofs.Host.Clock

set_option autoImplicit false

namespace TemplateSync

inductive BatchPhase where
  | emitting (slots : List (ProjectDescriptor × Option Emission))
  | sending (rest : List (ProjectDescriptor × Emission))
  | speaking (message : Message) (rest : List (ProjectDescriptor × Emission))
  | crashed

namespace BatchPhase

def Sound : BatchPhase → Prop
  | .emitting _ | .crashed => True
  | .sending rest | .speaking _ rest => ∀ result ∈ rest, result.2 ≠ .crashed

def ahead : BatchPhase → Nat
  | .emitting slots => (slots.countP fun slot => slot.2.isNone) + 2 * slots.length + 2
  | .sending rest => 2 * rest.length + 1
  | .speaking _ rest => 2 * rest.length + 2
  | .crashed => 1

end BatchPhase

inductive Beat (σ : Type) where
  | clock (moment : Moment σ)
  | emitted (tick : Nat) (project : ProjectDescriptor)
  | gathered (tick : Nat)
  | crashed (tick : Nat)
  | skipped (tick : Nat) (project : ProjectDescriptor)
  | speaking (tick : Nat) (message : Message)
  | spoken (tick : Nat) (message : Message)

def Beat.tick? {σ : Type} : Beat σ → Option Nat
  | .clock moment => moment.tick?
  | .emitted tick _ | .gathered tick | .crashed tick | .skipped tick _ | .speaking tick _
  | .spoken tick _ => some tick

def Moment.startsOrEnds {σ : Type} : Moment σ → Bool
  | .batchStarted _ | .batchEnded _ => true
  | _ => false

def TickPhase.isBatching : TickPhase → Bool
  | .batching _ => true
  | _ => false

/-- A batch has the number of its tick. -/
structure Clockwork (σ : Type) where
  clock : Clock σ
  batches : Nat → Option BatchPhase

namespace Clockwork

variable {σ : Type}

def start (world : σ) : Clockwork σ :=
  ⟨.start world, fun _ => none⟩

def put (w : Clockwork σ) (tick : Nat) (phase : Option BatchPhase) : Clockwork σ :=
  { w with batches := Function.update w.batches tick phase }

def move (w : Clockwork σ) (world : σ) : Clockwork σ :=
  { w with clock := w.clock.move world }

@[simp] theorem put_clock (w : Clockwork σ) (tick : Nat) (phase : Option BatchPhase) :
    (w.put tick phase).clock = w.clock := rfl

@[simp] theorem put_same (w : Clockwork σ) (tick : Nat) (phase : Option BatchPhase) :
    (w.put tick phase).batches tick = phase := by
  simp [put]

theorem put_other (w : Clockwork σ) {tick other : Nat} (phase : Option BatchPhase)
    (different : other ≠ tick) : (w.put tick phase).batches other = w.batches other := by
  simp [put, different]

@[simp] theorem put_put (w : Clockwork σ) (tick : Nat) (first second : Option BatchPhase) :
    (w.put tick first).put tick second = w.put tick second := by
  simp [put]

theorem put_self {w : Clockwork σ} {tick : Nat} {phase : Option BatchPhase}
    (there : w.batches tick = phase) : w.put tick phase = w := by
  subst there
  simp [put]

@[simp] theorem move_clock (w : Clockwork σ) (world : σ) :
    (w.move world).clock = w.clock.move world := rfl

@[simp] theorem move_batches (w : Clockwork σ) (world : σ) :
    (w.move world).batches = w.batches := rfl

@[simp] theorem move_move (w : Clockwork σ) (first second : σ) :
    (w.move first).move second = w.move second := rfl

theorem put_move (w : Clockwork σ) (tick : Nat) (phase : Option BatchPhase) (world : σ) :
    (w.move world).put tick phase = (w.put tick phase).move world := rfl

def unemitted (projects : List ProjectDescriptor) :
    List (ProjectDescriptor × Option Emission) :=
  projects.map fun project => (project, none)

def emittedAll (results : List (ProjectDescriptor × Emission)) :
    List (ProjectDescriptor × Option Emission) :=
  results.map fun result => (result.1, some result.2)

inductive Step (workspace : Workspace σ) (w : Clockwork σ) : Beat σ → Clockwork σ → Prop where
  | clock (moment : Moment σ) (clock : Clock σ) (aside : moment.startsOrEnds = false)
      (step : Clock.Step workspace w.clock moment clock) :
      Step workspace w (.clock moment) { w with clock := clock }
  | begun (tick : Nat) (batch : Batch) (clock : Clock σ)
      (counted : w.clock.ticks tick = .counted batch)
      (step : Clock.Step workspace w.clock (.batchStarted tick) clock) :
      Step workspace w (.clock (.batchStarted tick))
        ({ w with clock := clock }.put tick (some (.emitting (unemitted batch.projects))))
  | emitted (tick : Nat) (done ahead : List (ProjectDescriptor × Option Emission))
      (project : ProjectDescriptor)
      (emitting : w.batches tick = some (.emitting (done ++ (project, none) :: ahead))) :
      Step workspace w (.emitted tick project)
        ((w.move (workspace.emit project w.clock.world).state).put tick
          (some (.emitting
            (done ++ (project, some (workspace.emit project w.clock.world).value) :: ahead))))
  | gathered (tick : Nat) (results : List (ProjectDescriptor × Emission))
      (emitting : w.batches tick = some (.emitting (emittedAll results)))
      (sound : ∀ result ∈ results, result.2 ≠ .crashed) :
      Step workspace w (.gathered tick) (w.put tick (some (.sending results)))
  -- A crash may end the batch before its other emits are done, or after.
  | crashed (tick : Nat) (slots : List (ProjectDescriptor × Option Emission))
      (project : ProjectDescriptor) (emitting : w.batches tick = some (.emitting slots))
      (crash : (project, some .crashed) ∈ slots) :
      Step workspace w (.crashed tick) (w.put tick (some .crashed))
  | skipped (tick : Nat) (project : ProjectDescriptor) (fault : Fault)
      (rest : List (ProjectDescriptor × Emission))
      (sending : w.batches tick = some (.sending ((project, .failed fault) :: rest))) :
      Step workspace w (.skipped tick project) (w.put tick (some (.sending rest)))
  | speaking (tick : Nat) (project : ProjectDescriptor) (emitted : Emitted)
      (rest : List (ProjectDescriptor × Emission))
      (sending : w.batches tick = some (.sending ((project, .emitted emitted) :: rest))) :
      Step workspace w (.speaking tick (Batch.message project emitted))
        (w.put tick (some (.speaking (Batch.message project emitted) rest)))
  | spoken (tick : Nat) (message : Message) (rest : List (ProjectDescriptor × Emission))
      (speaking : w.batches tick = some (.speaking message rest)) :
      Step workspace w (.spoken tick message) (w.put tick (some (.sending rest)))
  | ended (tick : Nat) (clock : Clock σ)
      (finished : w.batches tick = some .crashed ∨ w.batches tick = some (.sending []))
      (step : Clock.Step workspace w.clock (.batchEnded tick) clock) :
      Step workspace w (.clock (.batchEnded tick)) ({ w with clock := clock }.put tick none)

variable {workspace : Workspace σ} {w k : Clockwork σ} {beat : Beat σ}

-- What a beat does to the clock: one of its moments, or at most a move of the world.
theorem clock_step (step : Step workspace w beat k) :
    (∃ moment, beat = .clock moment ∧ Clock.Step workspace w.clock moment k.clock) ∨
      ((∀ moment, beat ≠ .clock moment) ∧ k.clock.ticker = w.clock.ticker ∧
        k.clock.ticks = w.clock.ticks) := by
  cases step with
  | clock moment clock aside step => exact .inl ⟨_, rfl, step⟩
  | begun tick batch clock counted step | ended tick clock finished step =>
    exact .inl ⟨_, rfl, step⟩
  | emitted | gathered | crashed | skipped | speaking | spoken => exact .inr ⟨nofun, rfl, rfl⟩

theorem ticks_other {tick : Nat} (step : Step workspace w beat k)
    (other : beat.tick? ≠ some tick) : k.clock.ticks tick = w.clock.ticks tick := by
  rcases clock_step step with ⟨moment, rfl, moved⟩ | ⟨_, _, same⟩
  next => exact Clock.step_other moved other
  next => rw [same]

theorem isBatching_step {workspace : Workspace σ} {c d : Clock σ} {moment : Moment σ}
    (step : Clock.Step workspace c moment d) (aside : moment.startsOrEnds = false) (tick : Nat) :
    (d.ticks tick).isBatching = (c.ticks tick).isBatching := by
  by_cases own : moment.tick? = some tick
  next =>
    cases step with
    | moved | changed => rfl
    | batchStarted | batchEnded => cases aside
    | claimed _ phase =>
      cases own
      rw [Clock.put_same, phase, TickPhase.ofTaken, TickPhase.afterList]
      split_ifs <;> rfl
    | listSent _ _ metadata phase =>
      cases own
      rw [Clock.put_same, phase]
      cases metadata <;> rfl
    | listRead _ _ phase | projectsRead _ phase | spawnFailed _ _ phase
    | metadataLeft _ phase =>
      cases own
      simp [phase, TickPhase.isBatching]
  next => rw [Clock.step_other step own]

/-- The batches under way are those of the ticks that have started one; no crash is sent. -/
structure Fits (w : Clockwork σ) : Prop where
  alive : ∀ tick, (w.batches tick).isSome = (w.clock.ticks tick).isBatching
  sound : ∀ tick phase, w.batches tick = some phase → phase.Sound

theorem start_fits (world : σ) : (start world).Fits :=
  ⟨fun _ => rfl, nofun⟩

theorem Fits.put (fits : w.Fits) {tick : Nat} {phase : BatchPhase} (there : (w.batches tick).isSome)
    (sound : phase.Sound) : (w.put tick (some phase)).Fits := by
  constructor
  next =>
    intro other
    rw [put_clock, ← fits.alive]
    by_cases own : other = tick
    next => simp [own, there]
    next => rw [put_other _ _ own]
  next =>
    intro other now same
    by_cases own : other = tick
    next =>
      subst own
      rw [put_same] at same
      rwa [← Option.some.inj same]
    next =>
      rw [put_other _ _ own] at same
      exact fits.sound other now same

theorem Fits.move (fits : w.Fits) (world : σ) : (w.move world).Fits :=
  ⟨fits.alive, fits.sound⟩

theorem Fits.turn (fits : w.Fits) {tick : Nat} {moment : Moment σ} {clock : Clock σ}
    (step : Clock.Step workspace w.clock moment clock) (own : moment.tick? = some tick)
    {phase : Option BatchPhase} (now : phase.isSome = (clock.ticks tick).isBatching)
    (sound : ∀ one, phase = some one → one.Sound) :
    ({ w with clock := clock }.put tick phase : Clockwork σ).Fits := by
  constructor
  next =>
    intro other
    by_cases same : other = tick
    next =>
      subst same
      simpa using now
    next =>
      rw [put_other _ _ same]
      refine (fits.alive other).trans ?_
      have elsewhere : moment.tick? ≠ some other := by
        rw [own]
        exact fun equal => same (Option.some.inj equal).symm
      rw [put_clock, Clock.step_other step elsewhere]
  next =>
    intro other one there
    by_cases same : other = tick
    next =>
      subst same
      exact sound one (by simpa using there)
    next =>
      rw [put_other _ _ same] at there
      exact fits.sound other one there

theorem Step.fits (fits : w.Fits) (step : Step workspace w beat k) : k.Fits := by
  cases step with
  | clock moment clock aside step =>
    exact ⟨fun tick => (fits.alive tick).trans (isBatching_step step aside tick).symm, fits.sound⟩
  | begun tick batch clock counted step =>
    refine fits.turn step rfl ?_ (by rintro _ ⟨⟩; trivial)
    cases step
    simp [TickPhase.isBatching]
  | ended tick clock finished step =>
    refine fits.turn step rfl ?_ nofun
    cases step
    simp [TickPhase.isBatching]
  | emitted tick done ahead project emitting =>
    exact (fits.move _).put (by simp [emitting]) trivial
  | crashed tick slots project emitting crash => exact fits.put (by simp [emitting]) trivial
  | gathered tick results emitting sound => exact fits.put (by simp [emitting]) sound
  | skipped tick project fault rest sending | speaking tick project emitted rest sending =>
    have sound := fits.sound tick _ sending
    exact fits.put (by simp [sending]) fun result inside => sound result (.tail _ inside)
  | spoken tick message rest speaking =>
    exact fits.put (by simp [speaking]) (fits.sound tick (.speaking message rest) speaking)

theorem trace_fits {beats : List (Beat σ)} (trace : Trace (Step workspace) w beats k)
    (fits : w.Fits) : k.Fits :=
  trace.keeps (fun _ _ _ fits step => step.fits fits) fits

theorem fits_batching (fits : w.Fits) {tick : Nat} {phase : BatchPhase}
    (there : w.batches tick = some phase) : ∃ batch, w.clock.ticks tick = .batching batch := by
  have alive := fits.alive tick
  rw [there] at alive
  cases phase : w.clock.ticks tick with
  | batching batch => exact ⟨batch, rfl⟩
  | unstarted | claimed | listing | listed | counted | unwound | ended =>
    rw [phase] at alive
    cases alive

variable (workspace) in
theorem over_ends (fits : w.Fits) {tick : Nat}
    (finished : w.batches tick = some .crashed ∨ w.batches tick = some (.sending [])) :
    Step workspace w (.clock (.batchEnded tick))
      ({ w with clock := (w.clock.turn w.clock.ticker.batchEnded).put tick .ended }.put tick
        none) := by
  obtain ⟨batch, batching⟩ : ∃ batch, w.clock.ticks tick = .batching batch := by
    rcases finished with there | there <;> exact fits_batching fits there
  exact .ended tick _ finished (.batchEnded tick batch batching)

theorem slots_cases (slots : List (ProjectDescriptor × Option Emission)) :
    (∃ done project ahead, slots = done ++ (project, none) :: ahead) ∨
      ∃ results, slots = emittedAll results := by
  induction slots with
  | nil => exact .inr ⟨[], rfl⟩
  | cons slot slots ih =>
    rcases slot with ⟨project, _ | emission⟩
    next => exact .inl ⟨[], project, slots, rfl⟩
    next =>
      rcases ih with ⟨done, other, ahead, rfl⟩ | ⟨results, rfl⟩
      next => exact .inl ⟨(project, some emission) :: done, other, ahead, rfl⟩
      next => exact .inr ⟨(project, emission) :: results, rfl⟩

theorem ahead_emittedAll (results : List (ProjectDescriptor × Emission)) :
    (BatchPhase.emitting (emittedAll results)).ahead = 2 * results.length + 2 := by
  have done : (emittedAll results).countP (fun slot => slot.2.isNone) = 0 := by
    refine List.countP_eq_zero.mpr fun slot inside => ?_
    obtain ⟨_, _, rfl⟩ := List.mem_map.mp inside
    simp
  rw [BatchPhase.ahead, done, emittedAll, List.length_map, Nat.zero_add]

variable (workspace) in
theorem batch_goes_on (fits : w.Fits) {tick : Nat} {phase : BatchPhase}
    (there : w.batches tick = some phase) :
    ∃ beat k, Step workspace w beat k ∧ beat.tick? = some tick ∧
      ∀ next, k.batches tick = some next → next.ahead < phase.ahead := by
  have reduced {v : Clockwork σ} {now : BatchPhase} (less : now.ahead < phase.ahead) :
      ∀ next, (v.put tick (some now)).batches tick = some next → next.ahead < phase.ahead := by
    rintro next same
    rw [put_same] at same
    rwa [← Option.some.inj same]
  cases phase with
  | crashed => exact ⟨_, _, over_ends workspace fits (.inl there), rfl, by simp⟩
  | speaking message rest =>
    exact ⟨_, _, .spoken tick message rest there, rfl, reduced (by simp [BatchPhase.ahead])⟩
  | sending rest =>
    rcases rest with _ | ⟨⟨project, emitted | fault | _⟩, rest⟩
    next => exact ⟨_, _, over_ends workspace fits (.inr there), rfl, by simp⟩
    next =>
      exact ⟨_, _, .speaking tick project emitted rest there, rfl,
        reduced (by rw [BatchPhase.ahead, BatchPhase.ahead, List.length_cons]; omega)⟩
    next =>
      exact ⟨_, _, .skipped tick project fault rest there, rfl,
        reduced (by simp [BatchPhase.ahead])⟩
    next => exact absurd rfl (fits.sound tick _ there _ (.head _))
  | emitting slots =>
    rcases slots_cases slots with ⟨done, project, ahead, rfl⟩ | ⟨results, rfl⟩
    next =>
      exact ⟨_, _, .emitted tick done ahead project there, rfl,
        reduced (by simp [BatchPhase.ahead])⟩
    next =>
      by_cases sound : ∀ result ∈ results, result.2 ≠ .crashed
      next =>
        exact ⟨_, _, .gathered tick results there sound, rfl,
          reduced (by rw [ahead_emittedAll, BatchPhase.ahead]; omega)⟩
      next =>
        obtain ⟨⟨project, _⟩, inside, rfl⟩ : ∃ result ∈ results, result.2 = .crashed := by
          simpa using sound
        have crash : (project, some .crashed) ∈ emittedAll results :=
          List.mem_map_of_mem (f := fun result => (result.1, some result.2)) inside
        exact ⟨_, _, .crashed tick _ project there crash, rfl,
          reduced (by simp [BatchPhase.ahead])⟩

theorem batch_ends (fits : w.Fits) {tick : Nat} {phase : BatchPhase}
    (there : w.batches tick = some phase) :
    ∃ own k, Trace (Step workspace) w own k ∧ (∀ beat ∈ own, beat.tick? = some tick) ∧
      k.batches tick = none := by
  induction measure : phase.ahead using Nat.strongRecOn generalizing w phase with
  | _ size ih =>
    obtain ⟨beat, v, step, owned, less⟩ := batch_goes_on workspace fits there
    cases next : v.batches tick with
    | none => exact ⟨[beat], v, trace_single step, by simpa using owned, next⟩
    | some now =>
      obtain ⟨own, k, trace, all, gone⟩ := ih _ (measure ▸ less now next) (step.fits fits) next rfl
      exact ⟨beat :: own, k, trace_cons.mpr ⟨v, step, trace⟩, by simpa [owned] using all, gone⟩

section Alone

variable (workspace) (broadcaster : Broadcaster σ)

theorem emitAll_runs (tick : Nat) (projects : List ProjectDescriptor)
    (done : List (ProjectDescriptor × Option Emission)) {w : Clockwork σ}
    (emitting : w.batches tick = some (.emitting (done ++ unemitted projects))) :
    ∃ beats, Trace (Step workspace) w beats
      ((w.move (Batch.emitAll workspace projects w.clock.world).state).put tick
        (some (.emitting
          (done ++ emittedAll (Batch.emitAll workspace projects w.clock.world).value)))) := by
  induction projects generalizing w done with
  | nil => exact ⟨[], trace_nil.mpr (put_self emitting)⟩
  | cons project projects ih =>
    have emitted : Step workspace w (.emitted tick project) _ :=
      .emitted tick done (unemitted projects) project emitting
    generalize emission : workspace.emit project w.clock.world = outcome at emitted
    have there : ((w.move outcome.state).put tick
        (some (.emitting (done ++ (project, some outcome.value) :: unemitted projects)))).batches
          tick = some (.emitting ((done ++ [(project, some outcome.value)]) ++ unemitted projects)) := by
      simp
    obtain ⟨beats, rest⟩ := ih _ there
    refine ⟨.emitted tick project :: beats, trace_cons.mpr ⟨_, emitted, ?_⟩⟩
    simpa [Batch.emitAll, emission, put_move, emittedAll] using rest

theorem sendAll_runs (tick : Nat) (results : List (ProjectDescriptor × Emission)) {w : Clockwork σ}
    (sending : w.batches tick = some (.sending results))
    (sound : ∀ result ∈ results, result.2 ≠ .crashed) :
    ∃ beats, Trace (Step workspace) w beats
      ((w.move (Batch.sendAll broadcaster results w.clock.world).state).put tick
        (some (.sending []))) := by
  induction results generalizing w with
  | nil => exact ⟨[], trace_nil.mpr (put_self sending)⟩
  | cons result results ih =>
    have later : ∀ result ∈ results, result.2 ≠ .crashed :=
      fun result inside => sound result (.tail _ inside)
    rcases result with ⟨project, emitted | fault | _⟩
    next =>
      let message := Batch.message project emitted
      have speaking : Step workspace w (.speaking tick message) _ :=
        .speaking tick project emitted results sending
      generalize said : broadcaster.broadcast message w.clock.world = outcome
      have moved : Step workspace (w.put tick (some (.speaking message results)))
          (.clock (.moved outcome.state)) _ := .clock _ _ rfl (.moved outcome.state)
      have spoken : Step workspace
          ((w.move outcome.state).put tick (some (.speaking message results)))
          (.spoken tick message) _ := .spoken tick message results (put_same ..)
      rw [put_put] at spoken
      obtain ⟨beats, rest⟩ := ih (put_same (w.move outcome.state) tick _) later
      refine ⟨.speaking tick message :: .clock (.moved outcome.state) :: .spoken tick message :: beats,
        trace_cons.mpr ⟨_, speaking, trace_cons.mpr ⟨_, moved, trace_cons.mpr ⟨_, spoken, ?_⟩⟩⟩⟩
      simpa [Batch.sendAll, Batch.sendOne, message, said, put_move] using rest
    next =>
      have skipped : Step workspace w (.skipped tick project) _ :=
        .skipped tick project fault results sending
      obtain ⟨beats, rest⟩ := ih (put_same w tick _) later
      refine ⟨.skipped tick project :: beats, trace_cons.mpr ⟨_, skipped, ?_⟩⟩
      simpa [Batch.sendAll, Batch.sendOne, put_move] using rest
    next => exact absurd rfl (sound _ (.head _))

theorem batch_runs (fits : w.Fits) {tick : Nat} {batch : Batch}
    (fresh : w.batches tick = some (.emitting (unemitted batch.projects))) :
    ∃ beats k, Trace (Step workspace) w beats k ∧ k.batches tick = none ∧
      k.clock.world = (batch.run workspace broadcaster w.clock.world).state := by
  obtain ⟨beats, emitted⟩ := emitAll_runs workspace tick batch.projects [] fresh
  have fits := trace_fits emitted fits
  rw [List.nil_append] at emitted fits
  generalize outcome : Batch.emitAll workspace batch.projects w.clock.world = results at emitted fits
  by_cases sound : ∀ result ∈ results.value, result.2 ≠ .crashed
  next =>
    have calm : results.value.any (fun result => result.2 = .crashed) = false := by
      simpa using sound
    have gathered : Step workspace
        ((w.move results.state).put tick (some (.emitting (emittedAll results.value)))) _ _ :=
      .gathered tick results.value (put_same ..) sound
    have fits := gathered.fits fits
    rw [put_put] at gathered fits
    obtain ⟨more, sent⟩ := sendAll_runs workspace broadcaster tick results.value
      (put_same (w.move results.state) tick _) sound
    have ended := over_ends workspace (trace_fits sent fits) (.inr (put_same ..))
    refine ⟨_, _, ((emitted.next gathered).trans sent).next ended, put_same .., ?_⟩
    simp [Batch.run, outcome, calm]
  next =>
    obtain ⟨⟨project, _⟩, inside, rfl⟩ : ∃ result ∈ results.value, result.2 = .crashed := by
      simpa using sound
    have crash : (project, some .crashed) ∈ emittedAll results.value :=
      List.mem_map_of_mem (f := fun result => (result.1, some result.2)) inside
    have any : results.value.any (fun result => result.2 = .crashed) = true := by
      simpa using ⟨project, inside⟩
    have crashed : Step workspace
        ((w.move results.state).put tick (some (.emitting (emittedAll results.value)))) _ _ :=
      .crashed tick _ project (put_same ..) crash
    have ended := over_ends workspace (crashed.fits fits) (.inl (put_same ..))
    refine ⟨_, _, (emitted.next crashed).next ended, put_same .., ?_⟩
    simp [Batch.run, outcome, any]

end Alone

end Clockwork

end TemplateSync
