import TemplateSync.Proofs.Host.BatchOrder
import TemplateSync.Proofs.Host.Listing
import TemplateSync.Proofs.Host.Turnover

set_option autoImplicit false

namespace TemplateSync

namespace TickPhase

def beforeList : TickPhase → Bool
  | .unstarted | .claimed _ | .listing .. => true
  | .listed | .counted _ | .unwound | .batching _ | .ended => false

def toList : TickPhase → Bool
  | .claimed _ | .listing .. => true
  | .unstarted | .listed | .counted _ | .unwound | .batching _ | .ended => false

def decided : TickPhase → Bool
  | .unwound | .batching _ | .ended => true
  | .unstarted | .claimed _ | .listing .. | .listed | .counted _ => false

def retains : TickPhase → Bool
  | .unwound => true
  | phase => phase.preparing

@[simp] theorem beforeList_afterList (due : Bool) : (afterList due).beforeList = false := by
  cases due <;> rfl

@[simp] theorem toList_ofTaken (taken : DirtyFlags) : (ofTaken taken).toList = taken.solution := by
  rcases taken with ⟨_ | _, _ | _⟩ <;> rfl

theorem retains_inProgress {phase : TickPhase} (retains : phase.retains = true) :
    phase.inProgress = true := by
  cases phase <;> first | rfl | cases retains

theorem toList_inProgress {phase : TickPhase} (toList : phase.toList = true) :
    phase.inProgress = true := by
  cases phase <;> first | rfl | cases toList

end TickPhase

namespace Moment

variable {σ : Type}

def sendsListOf (tick : Nat) : Moment σ → Bool
  | .listSent own => own == tick
  | _ => false

def decides (tick : Nat) (moment : Moment σ) : Prop :=
  moment = .batchStarted tick ∨ moment = .spawnFailed tick

theorem sendsListOf_iff {tick : Nat} {moment : Moment σ} :
    moment.sendsListOf tick = true ↔ moment = .listSent tick := by
  cases moment <;> simp [sendsListOf]

theorem sendsListOf_other {tick : Nat} {moment : Moment σ} (other : moment.tick? ≠ some tick) :
    moment.sendsListOf tick = false := by
  by_contra sends
  have own := sendsListOf_iff.mp (Bool.not_eq_false _ ▸ sends)
  exact other (own ▸ rfl)

theorem decides_other {tick : Nat} {moment : Moment σ} (other : moment.tick? ≠ some tick) :
    ¬moment.decides tick := by
  rintro (rfl | rfl) <;> exact other rfl

end Moment

namespace Ticker

theorem claim_clean (marked : Bool) :
    claim ⟨.clean, marked⟩ = ⟨.clean, [], ⟨.clean, marked⟩⟩ := rfl

theorem tick_clean {σ : Type} (workspace : Workspace σ) (broadcaster : Broadcaster σ) (marked : Bool)
    (world : σ) :
    tick workspace broadcaster (⟨.clean, marked⟩, world) =
      ⟨⟨false, none⟩, [], (⟨.clean, marked⟩, world)⟩ := rfl

end Ticker

namespace Clock.Advance

variable {σ : Type} {tick : Nat} {moment : Moment σ} {before after : TickPhase}

theorem lists (advance : Advance tick moment before after) :
    (moment.sendsListOf tick).toNat + after.beforeList.toNat ≤ before.beforeList.toNat := by
  cases advance with
  | listSent _ due => cases due <;> simp [Moment.sendsListOf, TickPhase.beforeList, TickPhase.afterList]
  | claimed taken => exact (Nat.zero_add _).trans_le (Bool.toNat_le _)
  | listRead | projectsRead | batchStarted | spawnFailed | metadataLeft | batchEnded => exact Nat.le_refl _

theorem toList (advance : Advance tick moment before after) (due : before.toList = true) :
    after.toList = true ∨ moment = .listSent tick := by
  cases advance with
  | listRead => exact .inl rfl
  | listSent => exact .inr rfl
  | claimed | projectsRead | batchStarted | spawnFailed | metadataLeft | batchEnded => cases due

theorem decided (advance : Advance tick moment before after) (past : before.decided = true) :
    after.decided = true ∧ ¬moment.decides tick := by
  cases advance with
  | metadataLeft | batchEnded => exact ⟨rfl, by simp [Moment.decides]⟩
  | claimed | listRead | listSent | projectsRead | batchStarted | spawnFailed => cases past

theorem decides (advance : Advance tick moment before after) (decides : moment.decides tick) :
    after.decided = true := by
  rcases decides with rfl | rfl <;> cases advance <;> rfl

theorem retains (advance : Advance tick moment before after) (now : after.retains = true) :
    before.retains = true ∨ moment = .claimed tick := by
  cases advance with
  | claimed => exact .inr rfl
  | listRead | projectsRead | spawnFailed => exact .inl now
  | listSent _ due => cases due <;> exact .inl now
  | batchStarted | metadataLeft | batchEnded => cases now

theorem preparing (advance : Advance tick moment before after) (now : after.preparing = true) :
    before.preparing = true ∨ moment = .claimed tick := by
  cases advance with
  | claimed => exact .inr rfl
  | listRead | projectsRead => exact .inl now
  | listSent _ due => cases due <;> exact .inl now
  | batchStarted | spawnFailed | metadataLeft | batchEnded => cases now

end Clock.Advance

namespace Clockwork

variable {σ : Type} {workspace : Workspace σ} {w k : Clockwork σ} {beat : Beat σ}
  {beats : List (Beat σ)} {tick : Nat}

def moments (beats : List (Beat σ)) : List (Moment σ) :=
  beats.filterMap fun
    | .clock moment => some moment
    | _ => none

@[simp] theorem moments_append (first second : List (Beat σ)) :
    moments (first ++ second) = moments first ++ moments second :=
  List.filterMap_append

@[simp] theorem moments_clock (moment : Moment σ) :
    moments [.clock moment] = [moment] := rfl

theorem moments_aside (aside : ∀ moment, beat ≠ .clock moment) : moments [beat] = [] := by
  cases beat with
  | clock moment => exact absurd rfl (aside moment)
  | emitted | gathered | crashed | skipped | speaking | spoken => rfl

theorem mem_moments {moment : Moment σ} : moment ∈ moments beats ↔ .clock moment ∈ beats := by
  rw [moments, List.mem_filterMap]
  constructor
  next =>
    rintro ⟨beat, inside, same⟩
    cases beat with
    | clock => cases same; exact inside
    | emitted | gathered | crashed | skipped | speaking | spoken => cases same
  next => exact fun inside => ⟨_, inside, rfl⟩

-- What every moment keeps of the clock and its history holds along the beats.
theorem trace_moments {holds : List (Moment σ) → Clock σ → Prop} (past : List (Moment σ))
    (kept : ∀ past moment c d, holds past c → Clock.Step workspace c moment d →
      holds (past ++ [moment]) d)
    (same : ∀ past c d, holds past c → d.ticker = c.ticker → d.ticks = c.ticks → holds past d)
    (trace : Trace (Step workspace) w beats k) (before : holds past w.clock) :
    holds (past ++ moments beats) k.clock := by
  induction trace with
  | start => simpa [moments] using before
  | next _ last ih =>
    rw [moments_append, ← List.append_assoc]
    rcases clock_step last with ⟨moment, rfl, step⟩ | ⟨aside, ticker, ticks⟩
    next => exact kept _ moment _ _ ih step
    next =>
      rw [moments_aside aside, List.append_nil]
      exact same _ _ _ ih ticker ticks

theorem served_le_marked (stake : Stake) {world : σ} (trace : Trace (Step workspace) (start world) beats k) :
    (moments beats).countP stake.serves ≤ (moments beats).countP stake.marks := by
  have accounted : Clock.Accounted stake (moments beats) k.clock := by
    refine trace_moments [] (fun _ _ _ _ => Clock.account_step) ?_ trace
      (Clock.start_accounted stake world)
    rintro past c d ⟨owing, all, bound⟩ ticker ticks
    exact ⟨owing, ticks ▸ all, ticker ▸ bound⟩
  obtain ⟨owing, _, bound⟩ := accounted
  omega

theorem phase_step (step : Step workspace w beat k) (tick : Nat) :
    (∃ moment, beat = .clock moment ∧
      Clock.Advance tick moment (w.clock.ticks tick) (k.clock.ticks tick)) ∨
    (∀ moment, beat = .clock moment → moment.tick? ≠ some tick) ∧
      k.clock.ticks tick = w.clock.ticks tick := by
  rcases clock_step step with ⟨moment, rfl, moved⟩ | ⟨aside, _, ticks⟩
  next =>
    by_cases own : moment.tick? = some tick
    next => exact .inl ⟨moment, rfl, Clock.step_advance moved own⟩
    next => exact .inr ⟨by rintro _ ⟨⟩; exact own, Clock.step_other moved own⟩
  next => exact .inr ⟨fun moment same => absurd same (aside moment), by rw [ticks]⟩

theorem trace_lists (tick : Nat) (trace : Trace (Step workspace) w beats k) :
    (moments beats).countP (Moment.sendsListOf tick) + (k.clock.ticks tick).beforeList.toNat ≤
      (w.clock.ticks tick).beforeList.toNat := by
  induction trace with
  | start => simp [moments]
  | @next beats beat t u _ last ih =>
    rw [moments_append, List.countP_append]
    rcases phase_step last tick with ⟨moment, rfl, advance⟩ | ⟨aside, same⟩
    next =>
      have less := advance.lists
      rw [moments_clock, List.countP_singleton]
      cases sends : moment.sendsListOf tick <;> simp [sends] at less ⊢ <;> omega
    next =>
      have none : (moments [beat]).countP (Moment.sendsListOf tick) = 0 := by
        refine List.countP_eq_zero.mpr fun moment inside => ?_
        have same := List.mem_singleton.mp (mem_moments.mp inside)
        simp [Moment.sendsListOf_other (aside moment same.symm)]
      rw [none, same]
      exact ih

theorem trace_toList (trace : Trace (Step workspace) w beats k)
    (due : (w.clock.ticks tick).toList = true) :
    (k.clock.ticks tick).toList = true ∨ .clock (.listSent tick) ∈ beats := by
  induction trace with
  | start => exact .inl due
  | next _ last ih =>
    rcases ih with still | sent
    next =>
      rcases phase_step last tick with ⟨moment, rfl, advance⟩ | ⟨_, same⟩
      next => exact (advance.toList still).imp_right fun sent => by simp [sent]
      next => exact .inl (same ▸ still)
    next => exact .inr (List.mem_append_left _ sent)

theorem trace_decided (trace : Trace (Step workspace) w beats k)
    (past : (w.clock.ticks tick).decided = true) :
    (k.clock.ticks tick).decided = true ∧
      ∀ moment, .clock moment ∈ beats → ¬moment.decides tick := by
  induction trace with
  | start => exact ⟨past, nofun⟩
  | next _ last ih =>
    simp only [List.mem_append, List.mem_singleton, or_imp, forall_and]
    rcases phase_step last tick with ⟨moment, rfl, advance⟩ | ⟨aside, same⟩
    next =>
      obtain ⟨now, silent⟩ := advance.decided ih.1
      exact ⟨now, ih.2, by rintro _ ⟨⟩; exact silent⟩
    next =>
      exact ⟨same ▸ ih.1, ih.2, fun moment own => Moment.decides_other (aside moment own.symm)⟩

-- Something of a kind has happened, and what came after it is such.
def Since (marks : Beat σ → Prop) (spares : List (Beat σ) → Prop) (beats : List (Beat σ)) : Prop :=
  ∃ earlier one later, beats = earlier ++ one :: later ∧ marks one ∧ spares later

theorem since_snoc {marks : Beat σ → Prop} {spares : List (Beat σ) → Prop} :
    Since marks spares (beats ++ [beat]) ↔
      marks beat ∧ spares [] ∨ Since marks (fun later => spares (later ++ [beat])) beats := by
  constructor
  next =>
    rintro ⟨earlier, one, later, whole, marked, spared⟩
    rcases List.eq_nil_or_concat later with rfl | ⟨later, last, rfl⟩
    next =>
      obtain ⟨_, same⟩ := List.append_inj' whole rfl
      cases same
      exact .inl ⟨marked, spared⟩
    next =>
      rw [List.concat_eq_append, ← List.cons_append, ← List.append_assoc] at whole
      obtain ⟨rfl, same⟩ := List.append_inj' whole rfl
      cases same
      exact .inr ⟨earlier, one, later, rfl, marked, by simpa using spared⟩
  next =>
    rintro (⟨marked, spared⟩ | ⟨earlier, one, later, rfl, marked, spared⟩)
    next => exact ⟨beats, beat, [], rfl, marked, spared⟩
    next => exact ⟨earlier, one, later ++ [beat], by simp, marked, spared⟩

theorem Since.imp {marks : Beat σ → Prop} {spares others : List (Beat σ) → Prop}
    (since : Since marks spares beats)
    (imp : ∀ earlier one later, beats = earlier ++ one :: later → spares later → others later) :
    Since marks others beats := by
  obtain ⟨earlier, one, later, whole, marked, spared⟩ := since
  exact ⟨earlier, one, later, whole, marked, imp _ _ _ whole spared⟩

-- A change that makes the list stale has been marked since the last claim.
def Restructured : List (Beat σ) → Prop :=
  Since (fun beat => ∃ change, beat = .clock (.changed change) ∧ change.isStructural = true)
    fun later => ∀ tick, .clock (.claimed tick) ∉ later

-- A change has been marked since the claim of any tick that has started its batch.
def Unserved : List (Beat σ) → Prop :=
  Since (fun beat => ∃ change, beat = .clock (.changed change))
    fun later => ∀ tick, .clock (.claimed tick) ∈ later → .clock (.batchStarted tick) ∉ later

theorem solution_step {c d : Clock σ} {moment : Moment σ} (step : Clock.Step workspace c moment d) :
    d.ticker.flags.solution = true ↔
      (∃ change, moment = .changed change ∧ change.isStructural = true) ∨
        c.ticker.flags.solution = true ∧ ∀ tick, moment ≠ .claimed tick := by
  cases step with
  | changed change => simp [Ticker.onChange, DirtyFlags.mark, or_comm]
  | claimed =>
    rcases c.ticker with ⟨⟨_ | _, _ | _⟩, _ | _⟩ <;>
      simp [Ticker.claim, DirtyFlags.take, DirtyFlags.clean]
  | metadataLeft | moved | listRead | listSent | projectsRead | batchStarted | spawnFailed
  | batchEnded => simp [Ticker.metadataLeft, Ticker.batchEnded]

theorem restructured_snoc :
    Restructured (beats ++ [beat]) ↔
      (∃ change, beat = .clock (.changed change) ∧ change.isStructural = true) ∨
        Restructured beats ∧ ∀ tick, beat ≠ .clock (.claimed tick) := by
  rw [Restructured, since_snoc]
  refine or_congr (by simp) ?_
  simp only [Since, List.mem_append, List.mem_singleton, not_or, forall_and,
    ne_comm, ← and_assoc, exists_and_right]

theorem restructured_iff {world : σ} (trace : Trace (Step workspace) (start world) beats w) :
    w.clock.ticker.flags.solution = true ↔ Restructured beats := by
  induction trace with
  | start => simp [start, Clock.start, Ticker.initial, DirtyFlags.clean, Restructured, Since]
  | next _ last ih =>
    rw [restructured_snoc, ← ih]
    rcases clock_step last with ⟨moment, rfl, step⟩ | ⟨aside, ticker, _⟩
    next =>
      rw [solution_step step]
      simp
    next =>
      rw [ticker]
      simp [aside]

/-- With one timer a tick begins when no other is in progress. -/
structure Paced (workspace : Workspace σ) (w : Clockwork σ) (beat : Beat σ) (k : Clockwork σ) : Prop where
  step : Step workspace w beat k
  alone : ∀ tick, beat = .clock (.claimed tick) → ∀ other, (w.clock.ticks other).inProgress = false

theorem Paced.trace (trace : Trace (Paced workspace) w beats k) : Trace (Step workspace) w beats k :=
  trace.mono fun _ _ _ paced => paced.step

-- A change that no tick with a batch has claimed, nor any that may still start one but for the exempt one.
def Outstanding (exempt : Option Nat) (beats : List (Beat σ)) (w : Clockwork σ) : Prop :=
  Since (fun beat => ∃ change, beat = .clock (.changed change))
    (fun later => ∀ tick, .clock (.claimed tick) ∈ later →
      .clock (.batchStarted tick) ∉ later ∧
        ((w.clock.ticks tick).preparing = true → exempt = some tick)) beats

theorem Outstanding.unserved {exempt : Option Nat} (outstanding : Outstanding exempt beats w) :
    Unserved beats :=
  outstanding.imp fun _ _ _ _ spared tick claimed => (spared tick claimed).1

theorem Outstanding.settled (outstanding : Outstanding (some tick) beats w)
    (settled : (w.clock.ticks tick).preparing = false) : Outstanding none beats w := by
  refine outstanding.imp fun _ _ _ _ spared other claimed => ⟨(spared other claimed).1, fun going => ?_⟩
  cases (spared other claimed).2 going
  rw [settled] at going
  cases going

theorem preparing_from (step : Step workspace w beat k)
    (now : (k.clock.ticks tick).preparing = true) :
    (w.clock.ticks tick).preparing = true ∨ beat = .clock (.claimed tick) := by
  rcases phase_step step tick with ⟨moment, rfl, advance⟩ | ⟨_, same⟩
  next => exact (advance.preparing now).imp_right (congrArg _)
  next => exact .inl (same ▸ now)

theorem retains_from (step : Step workspace w beat k)
    (now : (k.clock.ticks tick).retains = true) :
    (w.clock.ticks tick).retains = true ∨ beat = .clock (.claimed tick) := by
  rcases phase_step step tick with ⟨moment, rfl, advance⟩ | ⟨_, same⟩
  next => exact (advance.retains now).imp_right (congrArg _)
  next => exact .inl (same ▸ now)

theorem Outstanding.snoc {exempt : Option Nat} (outstanding : Outstanding exempt beats w)
    (step : Step workspace w beat k) (unclaimed : ∀ tick, beat ≠ .clock (.claimed tick))
    (foreign : ∀ tick, beat = .clock (.batchStarted tick) → exempt ≠ some tick) :
    Outstanding exempt (beats ++ [beat]) k := by
  refine since_snoc.mpr (.inr (outstanding.imp fun _ _ later _ spared tick claimed => ?_))
  have before : .clock (.claimed tick) ∈ later := by
    simpa [Ne.symm (unclaimed tick)] using claimed
  obtain ⟨unstarted, left⟩ := spared tick before
  refine ⟨?_, fun now => left ((preparing_from step now).resolve_right (unclaimed tick))⟩
  rintro starts
  rcases List.mem_append.mp starts with past | last
  next => exact unstarted past
  next =>
    have same := (List.mem_singleton.mp last).symm
    refine foreign tick same (left ?_)
    subst same
    cases step with
    | clock _ _ aside => cases aside
    | begun _ batch _ counted => rw [counted]; rfl

theorem Outstanding.claim {world : σ} (trace : Trace (Step workspace) (start world) beats w)
    (outstanding : Outstanding none beats w)
    (step : Step workspace w (.clock (.claimed tick)) k) :
    Outstanding (some tick) (beats ++ [.clock (.claimed tick)]) k := by
  have fresh := trace_unstarted trace (start_fits world) (claimed_phase step).1
  refine since_snoc.mpr (.inr (outstanding.imp fun earlier one later whole spared other claimed => ?_))
  have inside {beat : Beat σ} (there : beat ∈ later) : beat ∈ beats := by
    rw [whole]
    exact List.mem_append_right _ (.tail _ there)
  by_cases own : other = tick
  next =>
    subst own
    refine ⟨fun started => ?_, fun _ => rfl⟩
    have past : .clock (.batchStarted other) ∈ later := by simpa using started
    exact fresh _ (inside past) rfl
  next =>
    have before : .clock (.claimed other) ∈ later := by simpa [own] using claimed
    obtain ⟨unstarted, left⟩ := spared other before
    refine ⟨by simpa using unstarted, fun now => ?_⟩
    rcases preparing_from step now with was | same
    next => cases left was
    next =>
      cases same
      exact absurd rfl own

/-- A dirty flag, and a tick that retains it, go back to an outstanding change. -/
structure Founded (beats : List (Beat σ)) (w : Clockwork σ) : Prop where
  dirty : w.clock.ticker.flags.metadata = true → Outstanding none beats w
  retained : ∀ tick, (w.clock.ticks tick).retains = true → Outstanding (some tick) beats w

theorem metadata_step {c d : Clock σ} {moment : Moment σ} (step : Clock.Step workspace c moment d)
    (dirty : d.ticker.flags.metadata = true) :
    (∃ change, moment = .changed change) ∨ c.ticker.flags.metadata = true ∨
      ∃ tick, moment = .metadataLeft tick ∧ c.ticks tick = .unwound ∧ d.ticks tick = .ended := by
  cases step with
  | changed change => exact .inl ⟨change, rfl⟩
  | metadataLeft tick phase => exact .inr (.inr ⟨tick, rfl, phase, Clock.put_same ..⟩)
  | claimed =>
    rw [Clock.put_ticker, Clock.turn_ticker, Ticker.claim_dirty, Bool.and_eq_true] at dirty
    exact .inr (.inl dirty.2)
  | moved | listRead | listSent | projectsRead | batchStarted | spawnFailed | batchEnded =>
    exact .inr (.inl dirty)

theorem metadata_from (step : Step workspace w beat k)
    (dirty : k.clock.ticker.flags.metadata = true) :
    (∃ change, beat = .clock (.changed change)) ∨ w.clock.ticker.flags.metadata = true ∨
      ∃ tick, beat = .clock (.metadataLeft tick) ∧ w.clock.ticks tick = .unwound ∧
        k.clock.ticks tick = .ended := by
  rcases clock_step step with ⟨moment, rfl, moved⟩ | ⟨_, ticker, _⟩
  next => simpa using metadata_step moved dirty
  next => exact .inr (.inl (ticker ▸ dirty))

theorem claim_retains (step : Step workspace w (.clock (.claimed tick)) k)
    (now : (k.clock.ticks tick).retains = true) : w.clock.ticker.flags.metadata = true := by
  obtain ⟨_, _, phase⟩ := claimed_phase step
  have taken := Ticker.claim_metadata w.clock.ticker
  rw [phase] at now
  have due : (Ticker.claim w.clock.ticker).value.metadata = true := by
    revert now
    rcases (Ticker.claim w.clock.ticker).value with ⟨_ | _, _ | _⟩ <;>
      simp [TickPhase.ofTaken, TickPhase.afterList, TickPhase.retains, TickPhase.preparing]
  rw [due] at taken
  simp_all

theorem started_phase (step : Step workspace w (.clock (.batchStarted tick)) k) :
    (k.clock.ticks tick).retains = false := by
  cases step with
  | clock _ _ aside => cases aside
  | begun _ _ _ _ step =>
    cases step
    simp [TickPhase.retains, TickPhase.preparing]

theorem claim_leaves (step : Step workspace w (.clock (.claimed tick)) k)
    (dirty : k.clock.ticker.flags.metadata = true) : (k.clock.ticks tick).preparing = false := by
  obtain ⟨_, ticker, phase⟩ := claimed_phase step
  rw [ticker, Ticker.claim_dirty, Bool.and_eq_true] at dirty
  rw [phase, TickPhase.preparing_ofTaken, Ticker.claim_metadata, dirty.1, dirty.2]
  rfl

theorem Founded.next {world : σ} (trace : Trace (Paced workspace) (start world) beats w)
    (founded : Founded beats w) (paced : Paced workspace w beat k) : Founded (beats ++ [beat]) k := by
  have steps := Paced.trace trace
  obtain ⟨step, alone⟩ := paced
  by_cases claimed : ∃ tick, beat = .clock (.claimed tick)
  next =>
    obtain ⟨tick, rfl⟩ := claimed
    constructor
    next =>
      intro dirty
      have before : w.clock.ticker.flags.metadata = true := by
        rcases metadata_from step dirty with ⟨_, other⟩ | before | ⟨_, other, _⟩
        next => cases other
        next => exact before
        next => cases other
      exact ((founded.dirty before).claim steps step).settled (claim_leaves step dirty)
    next =>
      intro other now
      rcases retains_from step now with before | same
      next =>
        have idle := alone tick rfl other
        rw [TickPhase.retains_inProgress before] at idle
        cases idle
      next =>
        cases same
        exact (founded.dirty (claim_retains step now)).claim steps step
  next =>
    have unclaimed : ∀ tick, beat ≠ .clock (.claimed tick) := fun tick same => claimed ⟨tick, same⟩
    constructor
    next =>
      intro dirty
      rcases metadata_from step dirty with ⟨change, rfl⟩ | before | ⟨tick, rfl, unwound, ended⟩
      next => exact since_snoc.mpr (.inl ⟨⟨change, rfl⟩, by simp⟩)
      next => exact (founded.dirty before).snoc step unclaimed nofun
      next =>
        have retained := founded.retained tick (by rw [unwound]; rfl)
        exact (retained.snoc step unclaimed nofun).settled (by rw [ended]; rfl)
    next =>
      intro tick now
      have before := (retains_from step now).resolve_right (unclaimed tick)
      refine (founded.retained tick before).snoc step unclaimed ?_
      rintro other rfl same
      cases same
      rw [started_phase step] at now
      cases now

theorem trace_founded {world : σ} (trace : Trace (Paced workspace) (start world) beats w) :
    Founded beats w := by
  induction trace with
  | start => exact ⟨nofun, nofun⟩
  | next trace last ih => exact ih.next trace last

theorem unserved_dirty (trace : Trace (Step workspace) w beats k) (unserved : Unserved beats)
    (idle : ∀ tick, (k.clock.ticks tick).inProgress = false) :
    k.clock.ticker.flags.metadata = true := by
  obtain ⟨earlier, _, later, rfl, ⟨change, rfl⟩, spared⟩ := unserved
  obtain ⟨_, _, rest⟩ := trace_append.mp trace
  obtain ⟨m, changed, rest⟩ := trace_cons.mp rest
  have marked : m.clock.ticker.flags.metadata = true := by
    cases changed with
    | clock _ _ _ step => cases step; rfl
  have served : Clock.Served .metadata (moments later) k.clock := by
    refine trace_moments [] (fun _ _ _ _ => Clock.kept_step fun _ => .refl _) ?_ rest
      (.inl marked)
    intro past c d kept ticker ticks
    simpa only [Clock.Served, Clock.Kept, ticker, ticks] using kept
  rcases served with dirty | ⟨tick, unread, _⟩ | ⟨tick, reading, _⟩ | ⟨tick, done⟩
  next => exact dirty
  next =>
    have calm := idle tick
    revert unread calm
    cases k.clock.ticks tick <;> simp [Stake.unread, TickPhase.inProgress]
  next =>
    have calm := idle tick
    revert reading calm
    cases k.clock.ticks tick <;> simp [Stake.reading, TickPhase.inProgress]
  next =>
    have claimed : .clock (.claimed tick) ∈ later := mem_moments.mp (done.mem (by simp))
    have started : .clock (.batchStarted tick) ∈ later :=
      mem_moments.mp (done.mem (by simp [Stake.isDone]))
    exact absurd started (spared tick claimed)

theorem idle_dirty_iff {world : σ} (trace : Trace (Paced workspace) (start world) beats w)
    (idle : ∀ tick, (w.clock.ticks tick).inProgress = false) :
    w.clock.ticker.flags.metadata = true ↔ Unserved beats :=
  ⟨fun dirty => ((trace_founded trace).dirty dirty).unserved,
    fun unserved => unserved_dirty (Paced.trace trace) unserved idle⟩

section Claim

variable {after : List (Beat σ)} {m : Clockwork σ}

theorem trace_listless (trace : Trace (Step workspace) w beats k)
    (past : (w.clock.ticks tick).beforeList = false) : .clock (.listSent tick) ∉ beats := by
  intro sent
  have none := trace_lists tick trace
  have one : 0 < (moments beats).countP (Moment.sendsListOf tick) :=
    List.countP_pos_iff.mpr ⟨_, mem_moments.mpr sent, Moment.sendsListOf_iff.mpr rfl⟩
  rw [past, Bool.toNat_false] at none
  omega

theorem claim_listed (step : Step workspace w (.clock (.claimed tick)) m)
    (trace : Trace (Step workspace) m after k) (sent : .clock (.listSent tick) ∈ after) :
    w.clock.ticker.flags.solution = true := by
  by_contra clean
  refine trace_listless trace ?_ sent
  rw [(claimed_phase step).2.2, TickPhase.ofTaken, Clock.claim_solution, if_neg clean]
  exact TickPhase.beforeList_afterList _

theorem claim_lists (step : Step workspace w (.clock (.claimed tick)) m)
    (trace : Trace (Step workspace) m after k) (returned : (k.clock.ticks tick).inProgress = false)
    (dirty : w.clock.ticker.flags.solution = true) : .clock (.listSent tick) ∈ after := by
  have due : (m.clock.ticks tick).toList = true := by
    rw [(claimed_phase step).2.2, TickPhase.toList_ofTaken, Clock.claim_solution, dirty]
  refine (trace_toList trace due).resolve_left fun still => ?_
  rw [TickPhase.toList_inProgress still] at returned
  cases returned

theorem decided_last {moment : Moment σ} (trace : Trace (Step workspace) w (.clock moment :: beats) k)
    (decides : moment.decides tick) : ∀ later, .clock later ∈ beats → ¬later.decides tick := by
  obtain ⟨m, step, rest⟩ := trace_cons.mp trace
  refine (trace_decided rest ?_).2
  rcases phase_step step tick with ⟨_, same, advance⟩ | ⟨aside, _⟩
  next =>
    cases same
    exact advance.decides decides
  next => exact absurd decides (Moment.decides_other (aside moment rfl))

theorem decided_once {one two : Moment σ} (trace : Trace (Step workspace) w beats k)
    (first : .clock one ∈ beats) (second : .clock two ∈ beats) (decides : one.decides tick)
    (also : two.decides tick) : one = two := by
  obtain ⟨earlier, later, rfl⟩ := List.append_of_mem first
  rw [List.mem_append, List.mem_cons, Beat.clock.injEq] at second
  rcases second with sooner | same | after
  next =>
    obtain ⟨_, _, rfl⟩ := List.append_of_mem sooner
    rw [List.append_assoc, List.cons_append] at trace
    obtain ⟨_, _, rest⟩ := trace_append.mp trace
    exact absurd decides (decided_last rest also one (by simp))
  next => exact same.symm
  next =>
    obtain ⟨_, _, rest⟩ := trace_append.mp trace
    exact absurd also (decided_last rest decides two after)

theorem claim_unmarked {world : σ} (trace : Trace (Step workspace) (start world) beats w)
    (idle : ∀ tick, (w.clock.ticks tick).inProgress = false) :
    w.clock.ticker.batchInFlight = false ↔ ∀ other, w.batches other = none := by
  obtain ⟨fits, owner, owned⟩ := start_run trace
  rw [← Bool.not_eq_true, marked_iff fits owned, not_exists]
  refine forall_congr' fun other => ?_
  have calm : (w.clock.ticks other).preparing ≠ true := by
    intro preparing
    have busy : (w.clock.ticks other).inProgress = true := by
      revert preparing
      cases w.clock.ticks other <;> simp [TickPhase.preparing, TickPhase.inProgress]
    rw [idle other] at busy
    cases busy
  simp [calm]

theorem claim_starts (fits : w.Fits) (step : Step workspace w (.clock (.claimed tick)) m)
    (trace : Trace (Step workspace) m after k) (returned : (k.clock.ticks tick).inProgress = false) :
    .clock (.batchStarted tick) ∈ after ↔
      .clock (.spawnFailed tick) ∉ after ∧ w.clock.ticker.batchInFlight = false ∧
        w.clock.ticker.flags.metadata = true := by
  have taken := Ticker.claim_metadata w.clock.ticker
  have phase := (claimed_phase step).2.2
  constructor
  next =>
    intro started
    refine ⟨fun failed => ?_, ?_⟩
    next => cases decided_once trace started failed (.inl rfl) (.inr rfl)
    next =>
      by_contra free
      have deferred : (m.clock.ticks tick).deferred = true := by
        rw [phase, TickPhase.deferred_ofTaken, taken]
        revert free
        cases w.clock.ticker.batchInFlight <;> cases w.clock.ticker.flags.metadata <;> simp
      rcases (trace_deferred trace (step.fits fits) deferred).2 _ started rfl with same | same <;>
        cases same
  next =>
    rintro ⟨works, unmarked, dirty⟩
    have preparing : (m.clock.ticks tick).preparing = true := by
      rw [phase, TickPhase.preparing_ofTaken, taken, unmarked, dirty]
      rfl
    rcases trace_preparing trace (step.fits fits) preparing with still | started | failed
    next =>
      revert returned still
      cases k.clock.ticks tick <;> simp [TickPhase.preparing, TickPhase.inProgress]
    next => exact started
    next => exact absurd failed works

theorem unwound_step (step : Step workspace w beat k) (unclaimed : ∀ other, beat ≠ .clock (.claimed other))
    (before : w.clock.ticks tick = .unwound ∨ w.clock.ticker.flags.metadata = true) :
    k.clock.ticks tick = .unwound ∨ k.clock.ticker.flags.metadata = true := by
  rcases before with unwound | dirty
  next =>
    rcases phase_step step tick with ⟨moment, rfl, advance⟩ | ⟨_, same⟩
    next =>
      obtain rfl : moment = .metadataLeft tick := by
        rw [unwound] at advance
        generalize k.clock.ticks tick = phase at advance
        cases advance
        rfl
      right
      cases step with
      | clock _ _ _ step => cases step; rfl
    next => exact .inl (same.trans unwound)
  next =>
    right
    rcases clock_step step with ⟨moment, rfl, moved⟩ | ⟨_, ticker, _⟩
    next =>
      have later : Stake.metadata.dirty k.clock.ticker.flags = true ∨ _ := Clock.dirty_step dirty moved
      rcases later with still | ⟨other, rfl, _⟩
      next => exact still
      next => exact absurd rfl (unclaimed other)
    next => rwa [ticker]

theorem failed_dirty (trace : Trace (Step workspace) w beats k)
    (failed : .clock (.spawnFailed tick) ∈ beats) (unclaimed : ∀ other, .clock (.claimed other) ∉ beats)
    (returned : (k.clock.ticks tick).inProgress = false) : k.clock.ticker.flags.metadata = true := by
  obtain ⟨earlier, later, rfl⟩ := List.append_of_mem failed
  obtain ⟨_, _, rest⟩ := trace_append.mp trace
  obtain ⟨m, step, rest⟩ := trace_cons.mp rest
  have unwound : m.clock.ticks tick = .unwound := by
    cases step with
    | clock _ _ _ step => cases step; exact Clock.put_same ..
  have kept : k.clock.ticks tick = .unwound ∨ k.clock.ticker.flags.metadata = true := by
    refine rest.keeps_among (fun _ beat _ inside before step => unwound_step step ?_ before)
      (.inl unwound)
    rintro other rfl
    exact unclaimed other (by simp [inside])
  refine kept.resolve_left fun still => ?_
  rw [still] at returned
  cases returned

theorem projects_after_list {first rest : List (Beat σ)}
    (trace : Trace (Step workspace) w (first ++ .clock (.projectsRead tick) :: rest) k) :
    .clock (.listSent tick) ∉ rest := by
  obtain ⟨_, _, trace⟩ := trace_append.mp trace
  obtain ⟨m, step, trace⟩ := trace_cons.mp trace
  have gone : (m.clock.ticks tick).beforeList = false := by
    cases step with
    | clock _ _ _ step => cases step; rw [Clock.put_same]; rfl
  exact trace_listless trace gone

theorem clean_idles (fits : w.Fits) (step : Step workspace w (.clock (.claimed tick)) m)
    (trace : Trace (Step workspace) m after k) (clean : w.clock.ticker.flags = .clean) :
    m.clock.ticker = w.clock.ticker ∧ ∀ beat ∈ after, beat.tick? ≠ some tick := by
  obtain ⟨_, ticker, phase⟩ := claimed_phase step
  have whole : w.clock.ticker = ⟨.clean, w.clock.ticker.batchInFlight⟩ := by rw [← clean]
  rw [whole, Ticker.claim_clean] at ticker phase
  rw [← whole] at ticker
  exact ⟨ticker, (trace_ended trace (step.fits fits) phase).2⟩

end Claim

section Tick

variable {world : σ} {before after : List (Beat σ)} {m : Clockwork σ}

theorem tick_lists (trace : Trace (Step workspace) (start world)
      (before ++ .clock (.claimed tick) :: after) k) :
    (moments (before ++ .clock (.claimed tick) :: after)).countP (Moment.sendsListOf tick) ≤ 1 ∧
      ((k.clock.ticks tick).inProgress = false →
        (.clock (.listSent tick) ∈ after ↔ Restructured before)) ∧
      ∀ first rest, after = first ++ .clock (.projectsRead tick) :: rest →
        .clock (.listSent tick) ∉ rest := by
  obtain ⟨w, history, rest⟩ := trace_append.mp trace
  obtain ⟨m, claimed, rest⟩ := trace_cons.mp rest
  refine ⟨?_, fun returned => ?_, ?_⟩
  next =>
    have once := trace_lists tick trace
    have one : (TickPhase.unstarted.beforeList).toNat = 1 := rfl
    exact (Nat.le_add_right _ _).trans once
  next =>
    rw [← restructured_iff history]
    exact ⟨claim_listed claimed rest, claim_lists claimed rest returned⟩
  next =>
    rintro first last rfl
    exact projects_after_list rest

theorem tick_starts (trace : Trace (Paced workspace) (start world) before w)
    (claimed : Paced workspace w (.clock (.claimed tick)) m)
    (rest : Trace (Step workspace) m after k) (returned : (k.clock.ticks tick).inProgress = false) :
    (.clock (.batchStarted tick) ∈ after ↔
      .clock (.spawnFailed tick) ∉ after ∧ (∀ other, w.batches other = none) ∧ Unserved before) := by
  have steps := Paced.trace trace
  have idle := claimed.alone tick rfl
  rw [claim_starts (trace_fits steps (start_fits world)) claimed.step rest returned,
    claim_unmarked steps idle, idle_dirty_iff trace idle]

end Tick

section Alone

variable {broadcaster : Broadcaster σ}

theorem run_works {moments : List (Moment σ)} {clock : Clock σ}
    (aside : ∀ moment ∈ moments, moment.startsOrEnds = false)
    (run : Clock.Run workspace w.clock moments clock) :
    Trace (Step workspace) w (moments.map .clock) { w with clock := clock } := by
  induction run with
  | start => exact .start
  | next _ step ih =>
    simp only [List.mem_append, List.mem_singleton, or_imp, forall_and, forall_eq] at aside
    rw [List.map_append]
    exact (ih aside.1).next (.clock _ _ aside.2 step)

theorem tickMoments_aside (done : Outcome (Ticker × σ) TickOutcome) :
    ∀ moment ∈ Clock.tickMoments tick done, moment.startsOrEnds = false := by
  simp only [Clock.tickMoments, Clock.listMoments, Clock.batchMoments]
  split_ifs <;> simp [Moment.startsOrEnds]

/-- What a tick does that nothing interrupts, and how it may go on: its batch starts, or cannot be started. -/
structure Performs (workspace : Workspace σ) (broadcaster : Broadcaster σ) (w : Clockwork σ) (tick : Nat)
    (done : Outcome (Ticker × σ) TickOutcome) : Prop where
  sent : done.value.solutionSent = w.clock.ticker.flags.solution
  world : done.state.2 = if w.clock.ticker.flags.solution then
    (broadcaster.broadcastSnapshot (Ticker.solution workspace) w.clock.world).state else w.clock.world
  batch : done.value.batch = if w.clock.ticker.flags.metadata && !w.clock.ticker.batchInFlight then
    some ⟨workspace.projects done.state.2⟩ else none
  moments : Trace (Step workspace) w ((Clock.tickMoments tick done).map .clock)
    { w with clock := w.clock.afterTick tick done }
  starts : ∀ batch, done.value.batch = some batch →
    Step workspace { w with clock := w.clock.afterTick tick done } (.clock (.batchStarted tick))
      ({ w with clock := (w.clock.afterTick tick done).put tick (.batching batch) }.put tick
        (some (.emitting (unemitted batch.projects))))
  fails : ∀ batch fault, done.value.batch = some batch →
    Trace (Step workspace) { w with clock := w.clock.afterTick tick done }
      [.clock (.spawnFailed tick), .clock (.metadataLeft tick)]
      { w with clock := ((w.clock.afterTick tick done).turn
        (Ticker.batchNotStarted fault done.state.1).state).put tick .ended }

theorem tick_performs (unstarted : w.clock.ticks tick = .unstarted) :
    Performs workspace broadcaster w tick
      (Ticker.tick workspace broadcaster (w.clock.ticker, w.clock.world)) where
  sent := by rw [Clock.tick_sent, Clock.claim_solution]
  world := by rw [Clock.tick_state, Clock.sendSolution_state, Clock.claim_solution]
  batch := by rw [Clock.tick_batch, Ticker.claim_metadata]
  moments := run_works (tickMoments_aside _) (Clock.tick_runs unstarted)
  starts batch started := by
    have counted := @Clock.afterTick_counted _ w.clock tick _ batch started
    exact .begun tick batch _ counted (.batchStarted tick batch counted)
  fails batch fault started := by
    have counted := @Clock.afterTick_counted _ w.clock tick _ batch started
    exact run_works (by simp [Moment.startsOrEnds]) (Clock.unwinding_runs fault counted)

end Alone

end Clockwork

end TemplateSync
