import Mathlib.Logic.Function.Basic
import TemplateSync.Proofs.Trace
import TemplateSync.Worker.Mailbox

set_option autoImplicit false

namespace TemplateSync

namespace Monitor

inductive Call where
  | enqueue (message : Message)
  | complete
  | cancel
  | take
  | size
  | isCompleted
  deriving DecidableEq

inductive Reply where
  | done
  | delivered (delivery : Delivery)
  | size (count : Nat)
  | isCompleted (answer : Bool)
  deriving DecidableEq

inductive Notice where
  | one
  | all

def Call.act : Call → Act Mailbox Reply
  | .enqueue message => do
    Mailbox.enqueue message
    return .done
  | .complete => do
    Act.modify Mailbox.complete
    return .done
  | .cancel => do
    Act.modify Mailbox.cancel
    return .done
  | .take => do return .delivered (← Mailbox.take)
  | .size => do return .size (← Act.get).size
  | .isCompleted => do return .isCompleted (← Act.get).isCompleted

-- Whom the call wakes once it has let go of the lock. A message that is dropped wakes nobody.
def Call.notice? (mailbox : Mailbox) : Call → Option Notice
  | .enqueue _ => if mailbox.completed then none else some .one
  | .complete | .cancel => some .all
  | .take | .size | .isCompleted => none

inductive Stage where
  | idle
  | entering (call : Call) (woken : Bool)
  | inside (call : Call) (woken : Bool)
  | leaving (call : Call) (notice : Option Notice) (reply : Reply)
  | outside (call : Call) (notice : Option Notice) (reply : Reply)
  | parked

namespace Stage

def Locked : Stage → Prop
  | .inside .. | .leaving .. => True
  | .idle | .entering .. | .outside .. | .parked => False

def roused : Stage → Stage
  | .parked => .entering .take true
  | stage => stage

end Stage

inductive Move (T : Type) where
  | called (thread : T) (call : Call)
  | locked (thread : T)
  | updated (thread : T) (call : Call) (reply : Reply)
  | unlocked (thread : T)
  | parked (thread : T)
  | notified (thread : T)
  | stirred (thread : T)
  | returned (thread : T) (reply : Reply)

def Move.thread {T : Type} : Move T → T
  | .called thread _ | .locked thread | .updated thread _ _ | .unlocked thread | .parked thread
  | .notified thread | .stirred thread | .returned thread _ => thread

end Monitor

structure Monitor (T : Type) where
  mailbox : Mailbox
  holder : Option T
  stages : T → Monitor.Stage

namespace Monitor

variable {T : Type}

def start : Monitor T :=
  ⟨.empty, none, fun _ => .idle⟩

def rouseAll (m : Monitor T) : Monitor T :=
  { m with stages := fun thread => (m.stages thread).roused }

@[simp] theorem rouseAll_mailbox (m : Monitor T) : m.rouseAll.mailbox = m.mailbox := rfl

@[simp] theorem rouseAll_holder (m : Monitor T) : m.rouseAll.holder = m.holder := rfl

section Calls

variable {move : Move T} {moves : List (Move T)} {thread : T} {call : Call} {reply : Reply}

-- The thread neither begins nor ends a call, and it has not been at the mailbox.
def Aside (thread : T) : Move T → Prop
  | .called own _ | .updated own _ _ | .returned own _ => own ≠ thread
  | .locked _ | .unlocked _ | .parked _ | .notified _ | .stirred _ => True

def Fruitless (thread : T) : Move T → Prop
  | .called own _ | .returned own _ => own ≠ thread
  | .updated own _ reply => own = thread → reply = .delivered .wait
  | .locked _ | .unlocked _ | .parked _ | .notified _ | .stirred _ => True

def Begun (moves : List (Move T)) (thread : T) (call : Call) : Prop :=
  ∃ before between, moves = before ++ .called thread call :: between ∧
    ∀ move ∈ between, Fruitless thread move

-- The reply to the thread's last call was found under the lock, after the call began.
def Decided (moves : List (Move T)) (thread : T) (call : Call) (reply : Reply) : Prop :=
  ∃ before between after,
    moves = before ++ .called thread call :: between ++ .updated thread call reply :: after ∧
    (∀ move ∈ between, Fruitless thread move) ∧ ∀ move ∈ after, Aside thread move

def Told (moves : List (Move T)) (thread : T) : Stage → Prop
  | .idle => True
  | .entering call _ | .inside call _ => Begun moves thread call
  | .parked => Begun moves thread .take
  | .leaving call _ reply => Decided moves thread call reply
  | .outside call _ reply => Decided moves thread call reply ∧ reply ≠ .delivered .wait

theorem aside_other (different : thread ≠ move.thread) : Aside thread move := by
  cases move with
  | called | updated | returned => exact Ne.symm different
  | locked | unlocked | parked | notified | stirred => trivial

theorem fruitless_aside (aside : Aside thread move) : Fruitless thread move := by
  cases move with
  | updated => exact fun own => absurd own aside
  | called | returned => exact aside
  | locked | unlocked | parked | notified | stirred => trivial

theorem begun_next (begun : Begun moves thread call) (fruitless : Fruitless thread move) :
    Begun (moves ++ [move]) thread call := by
  obtain ⟨before, between, rfl, nothing⟩ := begun
  exact ⟨before, between ++ [move], by simp, List.forall_mem_append.mpr ⟨nothing, by simpa using fruitless⟩⟩

theorem decided_next (decided : Decided moves thread call reply) (aside : Aside thread move) :
    Decided (moves ++ [move]) thread call reply := by
  obtain ⟨before, between, after, rfl, nothing, others⟩ := decided
  exact ⟨before, between, after ++ [move], by simp, nothing,
    List.forall_mem_append.mpr ⟨others, by simpa using aside⟩⟩

theorem begun_decided (decided : Decided moves thread call (.delivered .wait)) :
    Begun moves thread call := by
  obtain ⟨before, between, after, rfl, nothing, others⟩ := decided
  refine ⟨before, between ++ .updated thread call (.delivered .wait) :: after, by simp, ?_⟩
  refine List.forall_mem_append.mpr ⟨nothing, List.forall_mem_cons.mpr ⟨fun _ => rfl, ?_⟩⟩
  exact fun move inside => fruitless_aside (others move inside)

theorem told_next {stage : Stage} (told : Told moves thread stage) (aside : Aside thread move) :
    Told (moves ++ [move]) thread stage := by
  cases stage with
  | idle => trivial
  | entering | inside | parked => exact begun_next told (fruitless_aside aside)
  | leaving => exact decided_next told aside
  | outside => exact ⟨decided_next told.1 aside, told.2⟩

end Calls

variable [DecidableEq T]

def put (m : Monitor T) (thread : T) (stage : Stage) : Monitor T :=
  { m with stages := Function.update m.stages thread stage }

@[simp] theorem put_mailbox (m : Monitor T) (thread : T) (stage : Stage) :
    (m.put thread stage).mailbox = m.mailbox := rfl

@[simp] theorem put_holder (m : Monitor T) (thread : T) (stage : Stage) :
    (m.put thread stage).holder = m.holder := rfl

@[simp] theorem put_same (m : Monitor T) (thread : T) (stage : Stage) :
    (m.put thread stage).stages thread = stage := by
  simp [put]

theorem put_other (m : Monitor T) {thread other : T} (stage : Stage) (different : other ≠ thread) :
    (m.put thread stage).stages other = m.stages other := by
  simp [put, different]

inductive Step (m : Monitor T) : Move T → Monitor T → Prop where
  | called (thread : T) (call : Call) (free : m.stages thread = .idle) :
      Step m (.called thread call) (m.put thread (.entering call false))
  | locked (thread : T) (call : Call) (woken : Bool) (entering : m.stages thread = .entering call woken)
      (free : m.holder = none) :
      Step m (.locked thread) ({ m with holder := some thread }.put thread (.inside call woken))
  | updated (thread : T) (call : Call) (woken : Bool) (inside : m.stages thread = .inside call woken) :
      Step m (.updated thread call (call.act m.mailbox).value)
        ({ m with mailbox := (call.act m.mailbox).state }.put thread
          (.leaving call (call.notice? m.mailbox) (call.act m.mailbox).value))
  | unlocked (thread : T) (call : Call) (notice : Option Notice) (reply : Reply)
      (leaving : m.stages thread = .leaving call notice reply) (settled : reply ≠ .delivered .wait) :
      Step m (.unlocked thread) ({ m with holder := none }.put thread (.outside call notice reply))
  | parked (thread : T) (notice : Option Notice)
      (leaving : m.stages thread = .leaving .take notice (.delivered .wait)) :
      Step m (.parked thread) ({ m with holder := none }.put thread .parked)
  -- A notification for one wakes any one thread that is parked, or nobody where nobody is.
  | notifiedOne (thread sleeper : T) (call : Call) (reply : Reply)
      (owing : m.stages thread = .outside call (some .one) reply)
      (asleep : m.stages sleeper = .parked) :
      Step m (.notified thread)
        ((m.put sleeper (.entering .take true)).put thread (.outside call none reply))
  | notifiedNone (thread : T) (call : Call) (reply : Reply)
      (owing : m.stages thread = .outside call (some .one) reply)
      (awake : ∀ other, m.stages other ≠ .parked) :
      Step m (.notified thread) (m.put thread (.outside call none reply))
  | notifiedAll (thread : T) (call : Call) (reply : Reply)
      (owing : m.stages thread = .outside call (some .all) reply) :
      Step m (.notified thread) (m.rouseAll.put thread (.outside call none reply))
  | stirred (thread : T) (asleep : m.stages thread = .parked) :
      Step m (.stirred thread) (m.put thread (.entering .take true))
  | returned (thread : T) (call : Call) (reply : Reply)
      (done : m.stages thread = .outside call none reply) :
      Step m (.returned thread reply) (m.put thread .idle)

variable {m next : Monitor T} {move : Move T} {moves : List (Move T)} {thread other : T} {call : Call}
  {reply : Reply}

theorem stages_other (step : Step m move next) (different : other ≠ move.thread) :
    next.stages other = m.stages other ∨
      m.stages other = .parked ∧ next.stages other = .entering .take true := by
  cases step with
  | called | locked | updated | unlocked | parked | notifiedNone | stirred | returned =>
    exact .inl (put_other _ _ different)
  | notifiedOne thread sleeper call reply owing asleep =>
    have apart : other ≠ thread := different
    rw [put_other _ _ apart]
    by_cases own : other = sleeper
    next => exact .inr ⟨own ▸ asleep, by rw [own, put_same]⟩
    next => exact .inl (put_other _ _ own)
  | notifiedAll thread call reply owing =>
    have apart : other ≠ thread := different
    rw [put_other _ _ apart]
    cases stage : m.stages other with
    | parked => exact .inr ⟨rfl, by simp [rouseAll, stage, Stage.roused]⟩
    | idle | entering | inside | leaving | outside => exact .inl (by simp [rouseAll, stage, Stage.roused])

def Excludes (m : Monitor T) : Prop :=
  ∀ thread, (m.stages thread).Locked ↔ m.holder = some thread

theorem locked_other (step : Step m move next) (different : other ≠ move.thread) :
    (next.stages other).Locked ↔ (m.stages other).Locked := by
  rcases stages_other step different with same | ⟨before, after⟩
  next => rw [same]
  next => simp [before, after, Stage.Locked]

theorem holder_step (step : Step m move next) :
    (next.holder = m.holder ∧
        ((next.stages move.thread).Locked ↔ (m.stages move.thread).Locked)) ∨
      (m.holder = none ∧ next.holder = some move.thread ∧ (next.stages move.thread).Locked) ∨
      ((m.stages move.thread).Locked ∧ next.holder = none ∧ ¬ (next.stages move.thread).Locked) := by
  cases step with
  | called thread call free => exact .inl ⟨rfl, by simp [Move.thread, free, Stage.Locked]⟩
  | locked thread call woken entering free =>
    exact .inr (.inl ⟨free, rfl, by simp [Move.thread, Stage.Locked]⟩)
  | updated thread call woken inside =>
    exact .inl ⟨rfl, by simp [Move.thread, inside, Stage.Locked]⟩
  | unlocked thread call notice reply leaving settled =>
    exact .inr (.inr ⟨by simp [Move.thread, leaving, Stage.Locked], rfl,
      by simp [Move.thread, Stage.Locked]⟩)
  | parked thread notice leaving =>
    exact .inr (.inr ⟨by simp [Move.thread, leaving, Stage.Locked], rfl,
      by simp [Move.thread, Stage.Locked]⟩)
  | notifiedOne thread sleeper call reply owing | notifiedNone thread call reply owing
  | notifiedAll thread call reply owing =>
    exact .inl ⟨rfl, by simp [Move.thread, owing, Stage.Locked]⟩
  | stirred thread asleep => exact .inl ⟨rfl, by simp [Move.thread, asleep, Stage.Locked]⟩
  | returned thread call reply done => exact .inl ⟨rfl, by simp [Move.thread, done, Stage.Locked]⟩

theorem excludes_step (excludes : m.Excludes) (step : Step m move next) : next.Excludes := by
  intro thread
  by_cases own : thread = move.thread
  next =>
    subst own
    rcases holder_step step with ⟨same, locked⟩ | ⟨-, holder, locked⟩ | ⟨-, holder, free⟩
    next => rw [locked, same, excludes]
    next => simp [holder, locked]
    next => simp [holder, free]
  next =>
    rw [locked_other step own, excludes]
    rcases holder_step step with ⟨same, -⟩ | ⟨free, holder, -⟩ | ⟨locked, holder, -⟩
    next => rw [same]
    next => simpa [free, holder] using Ne.symm own
    next => simpa [(excludes _).mp locked, holder] using Ne.symm own

theorem lock_excludes (trace : Trace Step start moves m) : m.Excludes :=
  trace.keeps (fun _ _ _ excludes step => excludes_step excludes step)
    fun _ => by simp [start, Stage.Locked]

theorem told_step (told : ∀ thread, Told moves thread (m.stages thread)) (step : Step m move next) :
    ∀ thread, Told (moves ++ [move]) thread (next.stages thread) := by
  intro other
  by_cases own : other = move.thread
  next =>
    subst own
    have before := told move.thread
    cases step with
    | called thread call free =>
      rw [Move.thread, put_same]
      exact ⟨moves, [], rfl, by simp⟩
    | locked thread call woken entering free =>
      rw [Move.thread, entering] at before
      rw [Move.thread, put_same]
      exact begun_next before trivial
    | updated thread call woken inside =>
      rw [Move.thread, inside] at before
      obtain ⟨first, between, rfl, nothing⟩ := before
      rw [Move.thread, put_same]
      exact ⟨first, between, [], by simp, nothing, by simp⟩
    | unlocked thread call notice reply leaving settled =>
      rw [Move.thread, leaving] at before
      rw [Move.thread, put_same]
      exact ⟨decided_next before trivial, settled⟩
    | parked thread notice leaving =>
      rw [Move.thread, leaving] at before
      rw [Move.thread, put_same]
      exact begun_next (begun_decided before) trivial
    | notifiedOne thread sleeper call reply owing | notifiedNone thread call reply owing
    | notifiedAll thread call reply owing =>
      rw [Move.thread, owing] at before
      rw [Move.thread, put_same]
      exact ⟨decided_next before.1 trivial, before.2⟩
    | stirred thread asleep =>
      rw [Move.thread, asleep] at before
      rw [Move.thread, put_same]
      exact begun_next before trivial
    | returned thread call reply done =>
      rw [Move.thread, put_same]
      trivial
  next =>
    have aside := aside_other own
    rcases stages_other step own with same | ⟨before, after⟩
    next =>
      rw [same]
      exact told_next (told other) aside
    next =>
      have asleep := told other
      rw [before] at asleep
      rw [after]
      exact begun_next asleep (fruitless_aside aside)

theorem told_run (trace : Trace Step start moves m) (thread : T) : Told moves thread (m.stages thread) := by
  induction trace generalizing thread with
  | start => trivial
  | next _ step ih => exact told_step ih step thread

theorem calls_take_effect (trace : Trace Step start moves m)
    (step : Step m (.returned thread reply) next) :
    reply ≠ .delivered .wait ∧ ∃ call, Decided moves thread call reply := by
  have told := told_run trace thread
  cases step with
  | returned thread call reply done =>
    rw [done] at told
    exact ⟨told.2, call, told.1⟩

end Monitor

end TemplateSync
