import Mathlib.Data.Finset.Card
import TemplateSync.Proofs.Host.Changes

set_option autoImplicit false

namespace TemplateSync

namespace Moment

variable {σ : Type}

def sendsList : Moment σ → Bool
  | .listSent _ => true
  | _ => false

def startsBatch : Moment σ → Bool
  | .batchStarted _ => true
  | _ => false

def isChange : Moment σ → Bool
  | .changed _ => true
  | _ => false

def isStructural : Moment σ → Bool
  | .changed change => change.isStructural
  | _ => false

end Moment

namespace Stake

variable {σ : Type}

def marks : Stake → Moment σ → Bool
  | .list => Moment.isStructural
  | .metadata => Moment.isChange

def serves : Stake → Moment σ → Bool
  | .list => Moment.sendsList
  | .metadata => Moment.startsBatch

def carried (stake : Stake) (phase : TickPhase) : Bool :=
  stake.unread phase || stake.reading phase

end Stake

namespace Clock

variable {σ : Type} {workspace : Workspace σ} {c d : Clock σ} {moment : Moment σ} {stake : Stake}

/-- Where a flag goes: a claim gives it to a tick, and the tick answers for it or gives it back. -/
inductive Turnover (stake : Stake) (moment : Moment σ) (c d : Clock σ) : Prop where
  | still (held : ∀ tick, stake.carried (d.ticks tick) = true → stake.carried (c.ticks tick) = true)
      (flag : (stake.dirty d.ticker.flags).toNat ≤
        (stake.dirty c.ticker.flags).toNat + (stake.marks moment).toNat)
      (unserved : stake.serves moment = false)
  | taken (tick : Nat)
      (held : ∀ other, stake.carried (d.ticks other) = true →
        other = tick ∨ stake.carried (c.ticks other) = true)
      (dirty : stake.dirty c.ticker.flags = true) (clean : stake.dirty d.ticker.flags = false)
      (unserved : stake.serves moment = false)
  | dropped (tick : Nat) (carried : stake.carried (c.ticks tick) = true)
      (held : ∀ other, stake.carried (d.ticks other) = true →
        other ≠ tick ∧ stake.carried (c.ticks other) = true)
      (either : (stake.serves moment).toNat + (stake.dirty d.ticker.flags).toNat ≤
        (stake.dirty c.ticker.flags).toNat + 1)

theorem held_put {tick : Nat} {phase : TickPhase} (fewer : stake.carried phase = true →
      stake.carried (c.ticks tick) = true) (other : Nat)
    (carried : stake.carried ((c.put tick phase).ticks other) = true) :
    stake.carried (c.ticks other) = true := by
  by_cases own : other = tick
  next =>
    subst own
    exact fewer (by rwa [put_same] at carried)
  next => rwa [put_other _ _ own] at carried

theorem gone_put {tick : Nat} {phase : TickPhase} (gone : stake.carried phase = false) (other : Nat)
    (carried : stake.carried ((c.put tick phase).ticks other) = true) :
    other ≠ tick ∧ stake.carried (c.ticks other) = true := by
  by_cases own : other = tick
  next =>
    subst own
    rw [put_same, gone] at carried
    cases carried
  next => exact ⟨own, by rwa [put_other _ _ own] at carried⟩

theorem claim_moves (stake : Stake) (ticker : Ticker) :
    (stake.dirty ticker.flags = true ∧ stake.dirty (Ticker.claim ticker).state.flags = false) ∨
      (stake.dirty (Ticker.claim ticker).state.flags = stake.dirty ticker.flags ∧
        stake.carried (.ofTaken (Ticker.claim ticker).value) = false) := by
  rcases ticker with ⟨⟨_ | _, _ | _⟩, _ | _⟩ <;> cases stake <;>
    simp [Stake.dirty, Stake.carried, Stake.unread, Stake.reading, Ticker.claim, DirtyFlags.take,
      DirtyFlags.clean, TickPhase.ofTaken, TickPhase.afterList]

theorem turnover_step (step : Step workspace c moment d) : Turnover stake moment c d := by
  cases step with
  | moved => exact .still (fun _ held => held) (Nat.le_add_right ..) (by cases stake <;> rfl)
  | changed change =>
    refine .still (fun _ held => held) ?_ (by cases stake <;> rfl)
    cases stake with
    | list =>
      simp only [turn_ticker, Ticker.onChange, DirtyFlags.mark, Stake.dirty, Stake.marks,
        Moment.isStructural]
      cases c.ticker.flags.solution <;> simp
    | metadata => exact Nat.le_add_left 1 _
  | claimed tick phase =>
    have unserved : stake.serves (.claimed tick : Moment σ) = false := by cases stake <;> rfl
    rcases claim_moves stake c.ticker with ⟨dirty, clean⟩ | ⟨same, none⟩
    next =>
      refine .taken tick (fun other held => ?_) dirty clean unserved
      by_cases own : other = tick
      next => exact .inl own
      next => exact .inr (by rwa [put_other _ _ own] at held)
    next =>
      refine .still (fun other held => (gone_put none other held).2) ?_ unserved
      rw [put_ticker, turn_ticker, same]
      exact Nat.le_add_right ..
  | listRead tick due phase | projectsRead tick phase | spawnFailed tick batch phase
  | batchEnded tick batch phase =>
    refine .still (held_put ?_) (Nat.le_add_right ..) (by cases stake <;> rfl)
    cases stake <;> simp [phase, Stake.carried, Stake.unread, Stake.reading]
  | listSent tick message due phase =>
    cases stake with
    | list =>
      refine .dropped tick (by rw [phase]; rfl) (gone_put ?_) (Nat.add_comm ..).le
      cases due <;> rfl
    | metadata =>
      refine .still (held_put ?_) (Nat.le_add_right ..) rfl
      rw [phase]
      cases due <;> simp [Stake.carried, Stake.unread, Stake.reading, TickPhase.afterList]
  | batchStarted tick batch phase =>
    cases stake with
    | list => exact .still (fun other held => (gone_put rfl other held).2) (Nat.le_add_right ..) rfl
    | metadata => exact .dropped tick (by rw [phase]; rfl) (gone_put rfl) (Nat.add_comm ..).le
  | metadataLeft tick phase =>
    cases stake with
    | list => exact .still (fun other held => (gone_put rfl other held).2) (Nat.le_add_right ..) rfl
    | metadata => exact .dropped tick (by rw [phase]; rfl) (gone_put rfl) (Nat.le_add_left 1 _)

-- Every service so far, every tick that owes one and a dirty flag have a change each.
def Accounted (stake : Stake) (moments : List (Moment σ)) (c : Clock σ) : Prop :=
  ∃ owing : Finset Nat, (∀ tick, stake.carried (c.ticks tick) = true → tick ∈ owing) ∧
    moments.countP stake.serves + owing.card + (stake.dirty c.ticker.flags).toNat ≤
      moments.countP stake.marks

theorem start_accounted (stake : Stake) (world : σ) : Accounted stake [] (start world) := by
  refine ⟨∅, ?_, by cases stake <;> exact Nat.le_refl _⟩
  cases stake <;> nofun

theorem account_step {moments : List (Moment σ)} (accounted : Accounted stake moments c)
    (step : Step workspace c moment d) : Accounted stake (moments ++ [moment]) d := by
  obtain ⟨owing, all, bound⟩ := accounted
  simp only [Accounted, List.countP_append, List.countP_singleton]
  have turnover : Turnover stake moment c d := turnover_step step
  rcases turnover with
    ⟨held, flag, unserved⟩ | ⟨tick, held, dirty, clean, unserved⟩ | ⟨tick, carried, held, either⟩
  next =>
    refine ⟨owing, fun tick now => all tick (held tick now), ?_⟩
    rw [unserved]
    cases marked : stake.marks moment <;> simp [marked] at flag ⊢ <;> omega
  next =>
    refine ⟨insert tick owing, fun other now => ?_, ?_⟩
    next => exact Finset.mem_insert.mpr ((held other now).imp_right (all other))
    next =>
      have one := Finset.card_insert_le tick owing
      rw [dirty, Bool.toNat_true] at bound
      simp only [clean, unserved, Bool.toNat_false, Bool.false_eq_true, if_false]
      split_ifs <;> omega
  next =>
    refine ⟨owing.erase tick, fun other now => ?_, ?_⟩
    next =>
      obtain ⟨different, before⟩ := held other now
      exact Finset.mem_erase.mpr ⟨different, all other before⟩
    next =>
      have one := Finset.card_erase_add_one (all tick carried)
      cases served : stake.serves moment <;> simp [served] at either ⊢ <;> split_ifs <;> omega

end Clock

end TemplateSync
