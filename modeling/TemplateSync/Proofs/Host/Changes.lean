import TemplateSync.Proofs.Host.Clock

set_option autoImplicit false

namespace TemplateSync

inductive Stake where
  | list
  | metadata

namespace Stake

variable {σ : Type}

def dirty (flags : DirtyFlags) : Stake → Bool
  | .list => flags.solution
  | .metadata => flags.metadata

-- A tick that has taken the flag and reads later; one whose batch was not started is to read again.
def unread : Stake → TickPhase → Bool
  | .list, .claimed _ => true
  | .metadata, .claimed due | .metadata, .listing _ due => due
  | .metadata, .listed | .metadata, .unwound => true
  | _, _ => false

def reading : Stake → TickPhase → Bool
  | .list, .listing .. => true
  | .metadata, .counted _ => true
  | _, _ => false

def isRead (tick : Nat) : Stake → Moment σ
  | .list => .listRead tick
  | .metadata => .projectsRead tick

def isDone (tick : Nat) : Stake → Moment σ
  | .list => .listSent tick
  | .metadata => .batchStarted tick

end Stake

namespace Clock

variable {σ : Type} {workspace : Workspace σ}

-- From the moments on, what is at stake is dirty, or a tick has it in hand, or a tick has done it. The mark is
-- what a tick must have gone through first among these moments.
def Kept (stake : Stake) (mark : Nat → List (Moment σ)) (moments : List (Moment σ)) (c : Clock σ) :
    Prop :=
  stake.dirty c.ticker.flags = true ∨
  (∃ tick, stake.unread (c.ticks tick) = true ∧ (mark tick).Sublist moments) ∨
  (∃ tick, stake.reading (c.ticks tick) = true ∧
    (mark tick ++ [stake.isRead tick]).Sublist moments) ∨
  ∃ tick, (mark tick ++ [stake.isRead tick, stake.isDone tick]).Sublist moments

theorem claim_taken (ticker : Ticker) (stake : Stake) (dirty : stake.dirty ticker.flags = true) :
    stake.dirty (Ticker.claim ticker).state.flags = true ∨
      stake.unread (.ofTaken (Ticker.claim ticker).value) = true := by
  rcases ticker with ⟨⟨_ | _, _ | _⟩, _ | _⟩ <;> cases stake <;>
    simp_all [Stake.dirty, Stake.unread, Ticker.claim, DirtyFlags.take, TickPhase.ofTaken,
      TickPhase.afterList]

theorem dirty_step {stake : Stake} {moment : Moment σ} {c d : Clock σ}
    (dirty : stake.dirty c.ticker.flags = true) (step : Step workspace c moment d) :
    stake.dirty d.ticker.flags = true ∨
      ∃ tick, moment = .claimed tick ∧ stake.unread (d.ticks tick) = true := by
  cases step with
  | claimed tick unstarted =>
    rcases claim_taken c.ticker stake dirty with still | taken
    next => exact .inl still
    next => exact .inr ⟨tick, rfl, by simpa using taken⟩
  | changed change =>
    left
    cases stake with
    | list => simpa [Stake.dirty, Ticker.onChange, DirtyFlags.mark] using Or.inl dirty
    | metadata => rfl
  | metadataLeft tick unwound => left; cases stake <;> first | exact dirty | rfl
  | moved | listRead | listSent | projectsRead | batchStarted | spawnFailed | batchEnded =>
    left; exact dirty

theorem unread_step {stake : Stake} {moment : Moment σ} {c d : Clock σ} {tick : Nat}
    (unread : stake.unread (c.ticks tick) = true) (step : Step workspace c moment d) :
    stake.dirty d.ticker.flags = true ∨ stake.unread (d.ticks tick) = true ∨
      moment = stake.isRead tick ∧ stake.reading (d.ticks tick) = true := by
  by_cases own : moment.tick? = some tick
  next =>
    cases step with
    | moved | changed => cases own
    | claimed _ phase | listRead _ _ phase | listSent _ _ _ phase | projectsRead _ phase
    | batchStarted _ _ phase | spawnFailed _ _ phase | metadataLeft _ phase
    | batchEnded _ _ phase =>
      cases own
      rw [phase] at unread
      cases stake <;> simp_all [Stake.unread, Stake.reading, Stake.isRead, Stake.dirty,
        TickPhase.afterList, Ticker.metadataLeft]
  next => exact .inr (.inl (by rwa [step_other step own]))

theorem reading_step {stake : Stake} {moment : Moment σ} {c d : Clock σ} {tick : Nat}
    (reading : stake.reading (c.ticks tick) = true) (step : Step workspace c moment d) :
    stake.reading (d.ticks tick) = true ∨ stake.unread (d.ticks tick) = true ∨
      moment = stake.isDone tick := by
  by_cases own : moment.tick? = some tick
  next =>
    cases step with
    | moved | changed => cases own
    | claimed _ phase | listRead _ _ phase | listSent _ _ _ phase | projectsRead _ phase
    | batchStarted _ _ phase | spawnFailed _ _ phase | metadataLeft _ phase
    | batchEnded _ _ phase =>
      cases own
      rw [phase] at reading
      cases stake <;> simp_all [Stake.unread, Stake.reading, Stake.isDone]
  next => exact .inl (by rwa [step_other step own])

theorem kept_step {stake : Stake} {mark : Nat → List (Moment σ)}
    (marked : ∀ tick, (mark tick).Sublist [.claimed tick]) {moments : List (Moment σ)}
    {moment : Moment σ} {c d : Clock σ} (kept : Kept stake mark moments c)
    (step : Step workspace c moment d) : Kept stake mark (moments ++ [moment]) d := by
  have longer {part : List (Moment σ)} (inside : part.Sublist moments) :
      part.Sublist (moments ++ [moment]) := inside.trans (List.sublist_append_left ..)
  rcases kept with dirty | ⟨tick, unread, past⟩ | ⟨tick, reading, past⟩ | ⟨tick, past⟩
  next =>
    rcases dirty_step dirty step with still | ⟨tick, rfl, unread⟩
    next => exact .inl still
    next =>
      exact .inr (.inl ⟨tick, unread, (marked tick).trans (List.sublist_append_right ..)⟩)
  next =>
    rcases unread_step unread step with dirty | still | ⟨rfl, reading⟩
    next => exact .inl dirty
    next => exact .inr (.inl ⟨tick, still, longer past⟩)
    next => exact .inr (.inr (.inl ⟨tick, reading, past.append (.refl _)⟩))
  next =>
    rcases reading_step reading step with still | unread | rfl
    next => exact .inr (.inr (.inl ⟨tick, still, longer past⟩))
    next =>
      -- The batch could not be started, so its metadata is to be read once more.
      exact .inr (.inl ⟨tick, unread, longer ((List.sublist_append_left ..).trans past)⟩)
    next =>
      refine .inr (.inr (.inr ⟨tick, ?_⟩))
      have both := past.append (.refl [stake.isDone tick])
      rwa [List.append_assoc] at both
  next => exact .inr (.inr (.inr ⟨tick, longer past⟩))

theorem kept_append {stake : Stake} {mark : Nat → List (Moment σ)}
    (marked : ∀ tick, (mark tick).Sublist [.claimed tick]) {first moments : List (Moment σ)}
    {c d : Clock σ} (kept : Kept stake mark first c) (run : Run workspace c moments d) :
    Kept stake mark (first ++ moments) d := by
  induction run with
  | start => simpa using kept
  | next run step ih =>
    rw [← List.append_assoc]
    exact kept_step marked ih step

theorem solution_step {moment : Moment σ} {c d : Clock σ}
    (before : c.ticker.flags.solution = true → c.ticker.flags.metadata = true)
    (step : Step workspace c moment d) :
    d.ticker.flags.solution = true → d.ticker.flags.metadata = true := by
  cases step with
  | changed | metadataLeft => exact fun _ => rfl
  | claimed =>
    rcases c.ticker with ⟨⟨_ | _, _ | _⟩, _ | _⟩ <;>
      simp [Ticker.claim, DirtyFlags.take, DirtyFlags.clean]
  | moved | listRead | listSent | projectsRead | batchStarted | spawnFailed | batchEnded =>
    exact before

theorem solution_metadata {world : σ} {moments : List (Moment σ)} {c : Clock σ}
    (run : Run workspace (start world) moments c) :
    c.ticker.flags.solution = true → c.ticker.flags.metadata = true := by
  induction run with
  | start => simp [start, Ticker.initial, DirtyFlags.clean]
  | next _ step ih => exact solution_step ih step

-- A tick that has a list to send and no batch to start.
def Deferring (phase : TickPhase) : Prop :=
  phase = .claimed false ∨ ∃ message, phase = .listing message false

theorem claim_deferring {ticker : Ticker}
    (both : ticker.flags.solution = true → ticker.flags.metadata = true)
    (deferring : Deferring (.ofTaken (Ticker.claim ticker).value)) :
    (Ticker.claim ticker).state.flags.metadata = true := by
  rcases ticker with ⟨⟨_ | _, _ | _⟩, _ | _⟩ <;>
    simp_all [Deferring, Ticker.claim, DirtyFlags.take, TickPhase.ofTaken, TickPhase.afterList]

theorem deferring_step {moment : Moment σ} {c d : Clock σ} {tick : Nat}
    (step : Step workspace c moment d) (deferring : Deferring (d.ticks tick)) :
    Deferring (c.ticks tick) ∨
      moment = .claimed tick ∧ Deferring (.ofTaken (Ticker.claim c.ticker).value) ∧
        d.ticker = (Ticker.claim c.ticker).state := by
  by_cases own : moment.tick? = some tick
  next =>
    cases step with
    | moved | changed => cases own
    | claimed =>
      cases own
      exact .inr ⟨rfl, by simpa using deferring, rfl⟩
    | listRead _ metadata claimed =>
      cases own
      cases metadata <;> simp_all [Deferring]
    | listSent _ _ metadata listing =>
      cases own
      cases metadata <;> simp_all [Deferring, TickPhase.afterList]
    | projectsRead | batchStarted | spawnFailed | metadataLeft | batchEnded =>
      cases own
      simp [Deferring] at deferring
  next => exact .inl (by rwa [step_other step own] at deferring)

theorem deferring_run {world : σ} {moments : List (Moment σ)} {c : Clock σ} {tick : Nat}
    (run : Run workspace (start world) moments c) (deferring : Deferring (c.ticks tick)) :
    ∃ earlier middle d, moments = earlier ++ .claimed tick :: middle ∧
      Run workspace (start world) (earlier ++ [.claimed tick]) d ∧
      d.ticker.flags.metadata = true ∧ Run workspace d middle c := by
  induction run with
  | start => simp [Deferring, start] at deferring
  | @next moments _ _ _ run step ih =>
    rcases deferring_step step deferring with before | ⟨rfl, taken, same⟩
    next =>
      obtain ⟨earlier, middle, d, rfl, claimed, dirty, rest⟩ := ih before
      exact ⟨earlier, middle ++ [_], d, by simp, claimed, dirty, .next rest step⟩
    next =>
      have dirty := claim_deferring (solution_metadata run) taken
      rw [← same] at dirty
      exact ⟨moments, [], _, rfl, .next run step, dirty, .start⟩

theorem dirty_run {moments : List (Moment σ)} {c d : Clock σ}
    (dirty : c.ticker.flags.metadata = true) (run : Run workspace c moments d)
    (alone : ∀ tick, .claimed tick ∉ moments) : d.ticker.flags.metadata = true := by
  induction run with
  | start => exact dirty
  | @next _ _ d _ run step ih =>
    have before : Stake.metadata.dirty d.ticker.flags = true := by
      refine ih fun tick inside => alone tick ?_
      simp [inside]
    rcases dirty_step before step with still | ⟨tick, rfl, _⟩
    next => exact still
    next => exact absurd (by simp) (alone tick)

theorem kept_run {stake : Stake} {mark : Nat → List (Moment σ)}
    (marked : ∀ tick, (mark tick).Sublist [.claimed tick]) {moments : List (Moment σ)}
    {c d : Clock σ} (kept : Kept stake mark [] c) (run : Run workspace c moments d) :
    Kept stake mark moments d :=
  kept_append marked kept run

def Served (stake : Stake) : List (Moment σ) → Clock σ → Prop :=
  Kept stake fun tick => [.claimed tick]

def Renewed : List (Moment σ) → Clock σ → Prop :=
  Kept .metadata fun _ => []

theorem changed_served {moments : List (Moment σ)} {change : Change} {c d e : Clock σ}
    (step : Step workspace c (.changed change) d) (run : Run workspace d moments e) :
    Served .metadata moments e ∧ (change.isStructural = true → Served .list moments e) := by
  cases step
  constructor
  next => exact kept_run (fun _ => .refl _) (.inl rfl) run
  next =>
    intro structural
    refine kept_run (fun _ => .refl _) (.inl ?_) run
    simp [Stake.dirty, Ticker.onChange, DirtyFlags.mark, structural]

theorem sent_renewed {before after : List (Moment σ)} {world : σ} {tick : Nat} {c d e : Clock σ}
    (run : Run workspace (start world) before c) (step : Step workspace c (.listSent tick) d)
    (rest : Run workspace d after e) :
    Renewed after e ∨ ∃ earlier other middle claimed,
      before = earlier ++ .claimed tick :: middle ∧
      Run workspace (start world) (earlier ++ [.claimed tick]) claimed ∧
      claimed.ticker.flags.metadata = true ∧ .claimed other ∈ middle ∧
      Renewed (middle ++ .listSent tick :: after) e := by
  have renews {moments : List (Moment σ)} {c d : Clock σ} (run : Run workspace c moments d)
      (kept : Renewed [] c) : Renewed moments d := kept_run (fun _ => List.nil_sublist _) kept run
  have sent := step
  cases step with
  | listSent _ message metadata listing =>
    cases metadata with
    | true =>
      refine .inl (renews rest (.inr (.inl ⟨tick, ?_, List.nil_sublist _⟩)))
      simp [Stake.unread, TickPhase.afterList]
    | false =>
      -- The tick left the metadata dirty when it claimed; another may have claimed it since.
      obtain ⟨earlier, middle, claimed, rfl, taken, dirty, between⟩ :=
        deferring_run run (.inr ⟨message, listing⟩)
      by_cases alone : ∀ other, .claimed other ∉ middle
      next =>
        have still := dirty_run dirty between alone
        exact .inl (renews rest (.inl still))
      next =>
        obtain ⟨other, inside⟩ := not_forall_not.mp alone
        have whole := between.trans (run_cons.mpr ⟨_, sent, rest⟩)
        exact .inr ⟨earlier, other, middle, claimed, rfl, taken, dirty, inside,
          renews whole (.inl dirty)⟩

/-- After a list has gone out the metadata is renewed, or its tick had left the metadata dirty for another tick,
which claimed it before the list was sent; then it is renewed from the first of these claims on. -/
theorem changes_are_served (workspace : Workspace σ) (world : σ) :
    (∀ before change after c,
      Run workspace (start world) (before ++ .changed change :: after) c →
        Served .metadata after c ∧ (change.isStructural = true → Served .list after c)) ∧
    (∀ moments c, Run workspace (start world) moments c →
      c.ticker.flags.solution = true → c.ticker.flags.metadata = true) ∧
    ∀ before tick after c, Run workspace (start world) (before ++ .listSent tick :: after) c →
      Renewed after c ∨ ∃ earlier other middle claimed,
        before = earlier ++ .claimed tick :: middle ∧
        Run workspace (start world) (earlier ++ [.claimed tick]) claimed ∧
        claimed.ticker.flags.metadata = true ∧ .claimed other ∈ middle ∧
        Renewed (middle ++ .listSent tick :: after) c := by
  refine ⟨?_, fun _ _ => solution_metadata, ?_⟩
  next =>
    intro before change after c run
    obtain ⟨_, _, rest⟩ := run_append.mp run
    obtain ⟨_, step, rest⟩ := run_cons.mp rest
    exact changed_served step rest
  next =>
    intro before tick after c run
    obtain ⟨_, earlier, rest⟩ := run_append.mp run
    obtain ⟨_, step, rest⟩ := run_cons.mp rest
    exact sent_renewed earlier step rest

section Example

def hollow : Workspace Unit :=
  ⟨fun _ => [], fun _ => pure (.emitted ⟨none, []⟩)⟩

-- Tick 1 keeps the list and leaves the metadata to tick 2, whose batch is over when the list goes out.
def overtaken : List (Moment Unit) :=
  [.changed .solutionAdded, .claimed 0, .listRead 0, .listSent 0, .projectsRead 0, .batchStarted 0,
    .changed .solutionAdded, .claimed 1, .batchEnded 0, .claimed 2, .projectsRead 2, .batchStarted 2,
    .batchEnded 2, .listRead 1]

theorem overtaken_runs :
    ∃ c, Run hollow (start ()) (overtaken ++ [.listSent 1]) c ∧ c.ticker = .initial ∧
      ∀ tick, c.ticks tick = .unstarted ∨ c.ticks tick = .ended := by
  have first : Run hollow (start ()) [.changed .solutionAdded, .claimed 0, .listRead 0, .listSent 0,
      .projectsRead 0, .batchStarted 0] _ :=
    (((((Run.start.next (.changed _)).next (.claimed 0 rfl)).next (.listRead 0 true rfl)).next
      (.listSent 0 _ true rfl)).next (.projectsRead 0 rfl)).next (.batchStarted 0 ⟨[]⟩ rfl)
  have deferred := ((first.next (.changed .solutionAdded)).next (.claimed 1 rfl)).next
    (.batchEnded 0 ⟨[]⟩ rfl)
  have batch := (((deferred.next (.claimed 2 rfl)).next (.projectsRead 2 rfl)).next
    (.batchStarted 2 ⟨[]⟩ rfl)).next (.batchEnded 2 ⟨[]⟩ rfl)
  have list := (batch.next (.listRead 1 false rfl)).next (.listSent 1 _ false rfl)
  refine ⟨_, list, rfl, fun tick => ?_⟩
  rcases tick with _ | _ | _ | tick
  next => exact .inr rfl
  next => exact .inr rfl
  next => exact .inr rfl
  next => exact .inl rfl

/-- The list has gone out after the last batch has read the projects, and no metadata is dirty. -/
theorem late_list_is_not_renewed :
    ∃ c, Run hollow (start ()) (overtaken ++ [.listSent 1]) c ∧ c.ticker = .initial ∧
      (∀ tick, c.ticks tick = .unstarted ∨ c.ticks tick = .ended) ∧ ¬Renewed [] c := by
  obtain ⟨c, run, clean, ended⟩ := overtaken_runs
  refine ⟨c, run, clean, ended, ?_⟩
  rintro (dirty | ⟨tick, unread, _⟩ | ⟨tick, _, past⟩ | ⟨tick, past⟩)
  next =>
    rw [clean] at dirty
    cases dirty
  next => rcases ended tick with phase | phase <;> rw [phase] at unread <;> cases unread
  next => cases past
  next => cases past

end Example

end Clock

end TemplateSync
