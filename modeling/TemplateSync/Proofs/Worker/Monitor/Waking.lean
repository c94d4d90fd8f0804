import Mathlib.Algebra.BigOperators.Group.Finset.Basic
import Mathlib.Algebra.Order.BigOperators.Group.Finset
import Mathlib.Data.Finset.Card
import TemplateSync.Proofs.Worker.Monitor.Fifo

set_option autoImplicit false

namespace TemplateSync

def Mailbox.Ready (mailbox : Mailbox) : Prop :=
  mailbox.pending ≠ [] ∨ mailbox.completed = true ∨ mailbox.cancelled = true

theorem Mailbox.take_waits {mailbox : Mailbox} (waits : (take mailbox).value = .wait) :
    ¬ mailbox.Ready ∧ (take mailbox).state = mailbox := by
  obtain ⟨pending, completed, cancelled⟩ := mailbox
  cases cancelled with
  | true => simp [take] at waits
  | false =>
    cases pending with
    | cons => simp [take] at waits
    | nil => cases completed <;> simp_all [take, Ready]

namespace Monitor

namespace Stage

def notice? : Stage → Option Notice
  | .leaving _ notice _ | .outside _ notice _ => notice
  | .idle | .entering .. | .inside .. | .parked => none

-- A take that was parked has yet to look again.
def Woken : Stage → Prop
  | .entering .take woken | .inside .take woken => woken = true
  | _ => False

def Stirs (stage : Stage) : Prop :=
  stage.notice? ≠ none ∨ stage.Woken

@[simp] theorem inside_woken (call : Call) (woken : Bool) :
    (Stage.inside call woken).Woken ↔ (Stage.entering call woken).Woken := by
  cases call <;> rfl

theorem idle_still : ¬ Stage.idle.Stirs := by
  simp [Stirs, notice?, Woken]

theorem parked_still : ¬ Stage.parked.Stirs := by
  simp [Stirs, notice?, Woken]

end Stage

theorem act_waits {call : Call} {mailbox : Mailbox} (waits : (call.act mailbox).value = .delivered .wait) :
    call = .take ∧ ¬ mailbox.Ready ∧ (call.act mailbox).state = mailbox := by
  cases call with
  | take => exact ⟨rfl, Mailbox.take_waits (by simpa [Call.act] using waits)⟩
  | enqueue | complete | cancel | size | isCompleted => simp [Call.act] at waits

variable {T : Type}

def Helped (stages : T → Stage) (count : Nat) : Prop :=
  ∃ helpers : Finset T, count ≤ helpers.card ∧ ∀ helper ∈ helpers, (stages helper).Stirs

theorem helped_none (stages : T → Stage) : Helped stages 0 :=
  ⟨∅, Nat.zero_le _, by simp⟩

/-- Whoever is parked beside something to return is attended to. -/
structure Attended (m : Monitor T) : Prop where
  excludes : m.Excludes
  waits : ∀ thread call notice, m.stages thread = .leaving call notice (.delivered .wait) →
    call = .take ∧ notice = none ∧ ¬ m.mailbox.Ready
  alarmed : ∀ sleeper, m.stages sleeper = .parked →
    m.mailbox.completed = true ∨ m.mailbox.cancelled = true →
      ∃ ringer, (m.stages ringer).notice? = some .all
  counted : ∀ sleeper, m.stages sleeper = .parked →
    m.mailbox.completed = false → m.mailbox.cancelled = false → Helped m.stages m.mailbox.pending.length

theorem start_attended : (start : Monitor T).Attended where
  excludes := fun _ => by simp [start, Stage.Locked]
  waits := nofun
  alarmed := nofun
  counted := nofun

theorem Attended.attends {m : Monitor T} {sleeper : T} (attended : m.Attended)
    (asleep : m.stages sleeper = .parked) (ready : m.mailbox.Ready) :
    ∃ helper, (m.stages helper).Stirs := by
  by_cases ended : m.mailbox.completed = true ∨ m.mailbox.cancelled = true
  next =>
    obtain ⟨ringer, all⟩ := attended.alarmed sleeper asleep ended
    exact ⟨ringer, .inl (by simp [all])⟩
  next =>
    have pending : m.mailbox.pending ≠ [] := ready.resolve_right ended
    rw [not_or, Bool.not_eq_true, Bool.not_eq_true] at ended
    obtain ⟨helpers, enough, stirs⟩ := attended.counted sleeper asleep ended.1 ended.2
    have some : 0 < helpers.card := (List.length_pos_iff.mpr pending).trans_le enough
    obtain ⟨helper, inside⟩ := Finset.card_pos.mp some
    exact ⟨helper, stirs helper inside⟩

variable [DecidableEq T]

section Helpers

variable {stages : T → Stage} {count : Nat} {thread : T} {stage : Stage}

theorem Helped.keep (helped : Helped stages count) (still : (stages thread).Stirs → stage.Stirs) :
    Helped (Function.update stages thread stage) count := by
  obtain ⟨helpers, enough, stirs⟩ := helped
  refine ⟨helpers, enough, ?_⟩
  intro helper inside
  by_cases own : helper = thread
  next =>
    subst own
    simpa using still (stirs helper inside)
  next => simpa [own] using stirs helper inside

theorem Helped.gain (helped : Helped stages count) (before : ¬ (stages thread).Stirs) (after : stage.Stirs) :
    Helped (Function.update stages thread stage) (count + 1) := by
  obtain ⟨helpers, enough, stirs⟩ := helped
  have new : thread ∉ helpers := fun inside => before (stirs thread inside)
  refine ⟨insert thread helpers, by rw [Finset.card_insert_of_notMem new]; omega, ?_⟩
  intro helper inside
  rcases Finset.mem_insert.mp inside with rfl | old
  next => simpa using after
  next =>
    have other : helper ≠ thread := ne_of_mem_of_not_mem old new
    simpa [other] using stirs helper old

theorem Helped.spend (helped : Helped stages (count + 1)) (thread : T) (stage : Stage) :
    Helped (Function.update stages thread stage) count := by
  obtain ⟨helpers, enough, stirs⟩ := helped
  have left := Finset.pred_card_le_card_erase (s := helpers) (a := thread)
  refine ⟨helpers.erase thread, by omega, ?_⟩
  intro helper inside
  have ⟨other, old⟩ := Finset.mem_erase.mp inside
  simpa [other] using stirs helper old

end Helpers

variable {m next : Monitor T} {move : Move T} {moves : List (Move T)} {thread sleeper ringer : T}

theorem parked_before (step : Step m move next) (other : move ≠ .parked sleeper)
    (asleep : next.stages sleeper = .parked) : m.stages sleeper = .parked := by
  by_cases own : sleeper = move.thread
  next =>
    subst own
    cases step with
    | parked => exact absurd rfl other
    | called | locked | updated | unlocked | notifiedOne | notifiedNone | notifiedAll | stirred | returned =>
      simp [Move.thread] at asleep
  next =>
    rcases stages_other step own with same | ⟨before, -⟩
    next => exact same ▸ asleep
    next => exact before

-- A notification for all stays due until it is issued, and then nobody is parked.
theorem alarm_step (attended : m.Attended) (step : Step m move next)
    (all : (m.stages ringer).notice? = some .all) :
    (next.stages ringer).notice? = some .all ∨ ∀ other, next.stages other ≠ .parked := by
  by_cases own : ringer = move.thread
  next =>
    subst own
    cases step with
    | called thread call stage | locked thread call woken stage | updated thread call woken stage
    | notifiedOne thread sleeper call reply stage | notifiedNone thread call reply stage
    | stirred thread stage | returned thread call reply stage =>
      simp [Move.thread, stage, Stage.notice?] at all
    | parked thread notice leaving =>
      obtain ⟨-, rfl, -⟩ := attended.waits thread .take notice leaving
      simp [Move.thread, leaving, Stage.notice?] at all
    | unlocked thread call notice reply leaving =>
      left
      rw [Move.thread, leaving] at all
      rw [Move.thread, put_same]
      exact all
    | notifiedAll thread call reply owing =>
      right
      intro other asleep
      by_cases own : other = thread
      next => simp [own] at asleep
      next =>
        rw [put_other _ _ own] at asleep
        cases stage : m.stages other <;> simp [rouseAll, stage, Stage.roused] at asleep
  next =>
    rcases stages_other step own with same | ⟨before, -⟩
    next => exact .inl (same ▸ all)
    next => simp [before, Stage.notice?] at all

theorem mailbox_step (step : Step m move next) :
    next.mailbox = m.mailbox ∨ ∃ thread call woken, m.stages thread = .inside call woken ∧
      next.mailbox = (call.act m.mailbox).state ∧
      next.stages = Function.update m.stages thread
        (.leaving call (call.notice? m.mailbox) (call.act m.mailbox).value) := by
  cases step with
  | updated thread call woken inside => exact .inr ⟨thread, call, woken, inside, rfl, rfl⟩
  | called | locked | unlocked | parked | notifiedOne | notifiedNone | notifiedAll | stirred | returned =>
    exact .inl rfl

theorem waits_step (attended : m.Attended) (step : Step m move next) {call : Call} {notice : Option Notice}
    (leaving : next.stages thread = .leaving call notice (.delivered .wait)) :
    call = .take ∧ notice = none ∧ ¬ next.mailbox.Ready := by
  by_cases own : thread = move.thread
  next =>
    subst own
    cases step with
    | updated thread other woken inside =>
      rw [Move.thread, put_same] at leaving
      simp only [Stage.leaving.injEq] at leaving
      obtain ⟨rfl, rfl, waits⟩ := leaving
      obtain ⟨rfl, empty, same⟩ := act_waits waits
      refine ⟨rfl, rfl, ?_⟩
      rw [put_mailbox, same]
      exact empty
    | called | locked | unlocked | parked | notifiedOne | notifiedNone | notifiedAll | stirred | returned =>
      simp [Move.thread] at leaving
  next =>
    rcases stages_other step own with same | ⟨-, after⟩
    next =>
      rw [same] at leaving
      have before := attended.waits thread call notice leaving
      rcases mailbox_step step with kept | ⟨other, act, woken, inside, -, -⟩
      next => rwa [kept]
      next =>
        -- Both threads would be behind the lock.
        have holds := (attended.excludes thread).mp (by simp [leaving, Stage.Locked])
        have others := (attended.excludes other).mp (by simp [inside, Stage.Locked])
        obtain rfl : thread = other := Option.some.inj (holds.symm.trans others)
        rw [leaving] at inside
        cases inside
    next => simp [after] at leaving

theorem alarmed_step (attended : m.Attended) (step : Step m move next) (asleep : next.stages sleeper = .parked)
    (ended : next.mailbox.completed = true ∨ next.mailbox.cancelled = true) :
    ∃ ringer, (next.stages ringer).notice? = some .all := by
  have rings (before : m.stages sleeper = .parked)
      (was : m.mailbox.completed = true ∨ m.mailbox.cancelled = true) :
      ∃ ringer, (next.stages ringer).notice? = some .all := by
    obtain ⟨ringer, all⟩ := attended.alarmed sleeper before was
    rcases alarm_step attended step all with still | awake
    next => exact ⟨ringer, still⟩
    next => exact absurd asleep (awake sleeper)
  by_cases own : move = .parked sleeper
  next =>
    subst own
    cases step with
    | parked thread notice leaving =>
      exact absurd (.inr ended) (attended.waits _ _ _ leaving).2.2
  next =>
    have before := parked_before step own asleep
    rcases mailbox_step step with kept | ⟨thread, call, woken, inside, changed, stages⟩
    next =>
      rw [kept] at ended
      exact rings before ended
    next =>
      rw [changed, act_completed, act_cancelled] at ended
      have ringing (owes : call.notice? m.mailbox = some .all) :
          ∃ ringer, (next.stages ringer).notice? = some .all :=
        ⟨thread, by simp [stages, Stage.notice?, owes]⟩
      rcases ended with (was | rfl) | was | rfl
      next => exact rings before (.inl was)
      next => exact ringing rfl
      next => exact rings before (.inr was)
      next => exact ringing rfl

theorem enqueue_opened {mailbox : Mailbox} (opened : mailbox.completed = false) (message : Message) :
    ((Call.enqueue message).act mailbox).state.pending = mailbox.pending ++ [message] ∧
      (Call.enqueue message).notice? mailbox = some .one := by
  simp [Call.act, Mailbox.enqueue, Call.notice?, opened]

theorem take_going {mailbox : Mailbox} (going : mailbox.cancelled = false) :
    (Call.take.act mailbox).state.pending = mailbox.pending.tail := by
  cases pending : mailbox.pending <;> simp [Call.act, Mailbox.take, going, pending]

theorem counted_update {call : Call} {woken : Bool} (inside : m.stages thread = .inside call woken)
    (opened : m.mailbox.completed = false) (going : m.mailbox.cancelled = false)
    (flags : (call.act m.mailbox).state.completed = false ∧ (call.act m.mailbox).state.cancelled = false)
    (helped : Helped m.stages m.mailbox.pending.length) :
    Helped (Function.update m.stages thread (.leaving call (call.notice? m.mailbox) (call.act m.mailbox).value))
      (call.act m.mailbox).state.pending.length := by
  cases call with
  | enqueue message =>
    obtain ⟨pending, notice⟩ := enqueue_opened opened message
    rw [pending, List.length_append, List.length_singleton, notice]
    apply helped.gain
    next => simp [inside, Stage.Stirs, Stage.notice?, Stage.Woken]
    next => simp [Stage.Stirs, Stage.notice?]
  | complete => simp [Call.act, Mailbox.complete] at flags
  | cancel => simp [Call.act, Mailbox.cancel] at flags
  | size | isCompleted =>
    apply helped.keep
    simp [inside, Stage.Stirs, Stage.notice?, Stage.Woken]
  | take =>
    rw [take_going going]
    cases pending : m.mailbox.pending with
    | nil => exact helped_none _
    | cons first rest =>
      rw [pending] at helped
      exact helped.spend _ _

theorem counted_step (attended : m.Attended) (step : Step m move next) (asleep : next.stages sleeper = .parked)
    (opened : next.mailbox.completed = false) (going : next.mailbox.cancelled = false) :
    Helped next.stages next.mailbox.pending.length := by
  by_cases own : move = .parked sleeper
  next =>
    subst own
    cases step with
    | parked thread notice leaving =>
      have empty := (attended.waits _ _ _ leaving).2.2
      simp only [Mailbox.Ready, not_or, not_not] at empty
      rw [put_mailbox, empty.1]
      exact helped_none _
  next =>
    have before := parked_before step own asleep
    cases step with
    | updated thread call woken inside =>
      have earlier : m.mailbox.completed = false ∧ m.mailbox.cancelled = false := by
        constructor
        next => exact Bool.eq_false_iff.mpr fun was =>
          Bool.eq_false_iff.mp opened ((act_completed call m.mailbox).mpr (.inl was))
        next => exact Bool.eq_false_iff.mpr fun was =>
          Bool.eq_false_iff.mp going ((act_cancelled call m.mailbox).mpr (.inl was))
      exact counted_update inside earlier.1 earlier.2 ⟨opened, going⟩
        (attended.counted sleeper before earlier.1 earlier.2)
    | called thread call stage | unlocked thread call notice reply stage | stirred thread stage
    | returned thread call reply stage =>
      apply (attended.counted sleeper before opened going).keep
      simp [stage, Stage.Stirs, Stage.notice?, Stage.Woken]
    | locked thread call woken stage =>
      apply (attended.counted sleeper before opened going).keep
      simp [stage, Stage.Stirs, Stage.notice?]
    | parked thread notice leaving =>
      apply (attended.counted sleeper before opened going).keep
      obtain ⟨-, rfl, -⟩ := attended.waits thread .take notice leaving
      simp [leaving, Stage.Stirs, Stage.notice?, Stage.Woken]
    | notifiedOne thread other call reply owing parked =>
      -- The one who is woken takes the place of the one who wakes.
      have gained : Helped (Function.update m.stages other (.entering .take true)) (m.mailbox.pending.length + 1) :=
        (attended.counted sleeper before opened going).gain (parked ▸ Stage.parked_still) (.inr rfl)
      exact gained.spend thread _
    | notifiedNone thread call reply owing awake => exact absurd before (awake sleeper)
    | notifiedAll thread call reply owing =>
      have all : (m.stages thread).notice? = some .all := by simp [owing, Stage.notice?]
      rcases alarm_step attended (.notifiedAll thread call reply owing) all with still | awake
      next => simp [Stage.notice?] at still
      next => exact absurd asleep (awake sleeper)

theorem attended_step (attended : m.Attended) (step : Step m move next) : next.Attended where
  excludes := excludes_step attended.excludes step
  waits := fun _ _ _ leaving => waits_step attended step leaving
  alarmed := fun _ asleep ended => alarmed_step attended step asleep ended
  counted := fun _ asleep opened going => counted_step attended step asleep opened going

theorem trace_attended (trace : Trace Step start moves m) : m.Attended :=
  trace.keeps (fun _ _ _ attended step => attended_step attended step) start_attended

section Ending

def Move.Own : Move T → Prop
  | .called .. | .stirred _ => False
  | .locked _ | .updated .. | .unlocked _ | .parked _ | .notified _ | .returned .. => True

def AtRest (m : Monitor T) : Prop :=
  ∀ move next, Step m move next → ¬ move.Own

-- What a notification can come to where so many threads may be parked.
def Notice.work (crowd : Nat) : Option Notice → Nat
  | none => 0
  | some .one => 5
  | some .all => 4 * crowd + 1

def Call.work (crowd : Nat) : Call → Nat
  | .enqueue _ => Notice.work crowd (some .one)
  | .complete | .cancel => Notice.work crowd (some .all)
  | .take | .size | .isCompleted => 0

-- A bound on the steps that a thread can still take, and cause others to take, until its call ends or is
-- parked.
def Stage.work (crowd : Nat) : Stage → Nat
  | .idle | .parked => 0
  | .entering call _ => call.work crowd + 4
  | .inside call _ => call.work crowd + 3
  | .leaving _ notice _ => Notice.work crowd notice + 2
  | .outside _ notice _ => Notice.work crowd notice + 1

def work (crew : Finset T) (stages : T → Stage) : Nat :=
  ∑ thread ∈ crew, (stages thread).work crew.card

theorem notice_work (crowd : Nat) (call : Call) (mailbox : Mailbox) :
    Notice.work crowd (call.notice? mailbox) ≤ call.work crowd := by
  cases call with
  | enqueue message => cases completed : mailbox.completed <;> simp [Call.notice?, completed, Notice.work, Call.work]
  | complete | cancel | take | size | isCompleted => simp [Call.notice?, Notice.work, Call.work]

theorem roused_work (crowd : Nat) (stage : Stage) : stage.roused.work crowd ≤ stage.work crowd + 4 := by
  cases stage <;> simp [Stage.roused, Stage.work, Call.work]

variable {crew : Finset T}

theorem update_work (stages : T → Stage) (member : thread ∈ crew) (stage : Stage) :
    work crew (Function.update stages thread stage) + (stages thread).work crew.card =
      work crew stages + stage.work crew.card := by
  rw [work, work, ← Finset.add_sum_erase crew _ member, ← Finset.add_sum_erase crew (fun _ => Stage.work _ _) member,
    Function.update_self]
  have others : ∑ other ∈ crew.erase thread, (Function.update stages thread stage other).work crew.card =
      ∑ other ∈ crew.erase thread, (stages other).work crew.card := by
    apply Finset.sum_congr rfl
    intro other inside
    rw [Function.update_of_ne (Finset.ne_of_mem_erase inside)]
  omega

theorem less_work {stages : T → Stage} {stage : Stage} (member : thread ∈ crew)
    (less : stage.work crew.card < (stages thread).work crew.card) :
    work crew (Function.update stages thread stage) < work crew stages := by
  have whole := update_work stages member stage
  omega

omit [DecidableEq T] in
theorem rouseAll_work (crew : Finset T) (m : Monitor T) :
    work crew m.rouseAll.stages ≤ work crew m.stages + crew.card * 4 := by
  calc work crew m.rouseAll.stages
    _ ≤ ∑ other ∈ crew, ((m.stages other).work crew.card + 4) :=
      Finset.sum_le_sum fun other _ => roused_work crew.card (m.stages other)
    _ = work crew m.stages + crew.card * 4 := by
      rw [Finset.sum_add_distrib, Finset.sum_const_nat fun _ _ => rfl]
      rfl

def Manned (crew : Finset T) (m : Monitor T) : Prop :=
  ∀ thread, thread ∉ crew → m.stages thread = .idle

theorem manned_member (manned : Manned crew m) (busy : m.stages thread ≠ .idle) : thread ∈ crew := by
  by_contra outside
  exact busy (manned thread outside)

theorem manned_step (manned : Manned crew m) (step : Step m move next) : Manned (insert move.thread crew) next := by
  intro other outside
  rw [Finset.mem_insert, not_or] at outside
  rcases stages_other step outside.1 with same | ⟨asleep, -⟩
  next => rw [same, manned other outside.2]
  next => simp [manned other outside.2] at asleep

theorem trace_manned (trace : Trace Step start moves m) : ∃ crew : Finset T, Manned crew m := by
  induction trace with
  | start => exact ⟨∅, fun _ _ => rfl⟩
  | next _ step ih =>
    obtain ⟨crew, manned⟩ := ih
    exact ⟨_, manned_step manned step⟩

theorem own_member (manned : Manned crew m) (step : Step m move next) (own : move.Own) : move.thread ∈ crew := by
  apply manned_member manned
  cases step with
  | called | stirred => exact own.elim
  | locked thread call woken stage | updated thread call woken stage | unlocked thread call notice reply stage
  | parked thread notice stage | notifiedOne thread sleeper call reply stage
  | notifiedNone thread call reply stage | notifiedAll thread call reply stage
  | returned thread call reply stage => simp [Move.thread, stage]

theorem work_step (manned : Manned crew m) (step : Step m move next) (own : move.Own) :
    work crew next.stages < work crew m.stages := by
  have member := own_member manned step own
  cases step with
  | called | stirred => exact own.elim
  | locked thread call woken stage | unlocked thread call notice reply stage | parked thread notice stage
  | notifiedNone thread call reply stage | returned thread call reply stage =>
    apply less_work member
    simp [Move.thread, stage, Stage.work, Notice.work]
  | updated thread call woken stage =>
    apply less_work member
    have most := notice_work crew.card call m.mailbox
    simp only [Move.thread, stage, Stage.work]
    omega
  | notifiedOne thread sleeper call reply stage asleep =>
    have other : thread ≠ sleeper := by
      rintro rfl
      simp [stage] at asleep
    have sleeping : sleeper ∈ crew := manned_member manned (by simp [asleep])
    have woken := update_work m.stages sleeping (.entering .take true)
    have issued := update_work (Function.update m.stages sleeper (.entering .take true)) member
      (.outside call none reply)
    simp only [Move.thread, Function.update_of_ne other, stage, asleep, Stage.work, Notice.work,
      Call.work] at woken issued
    change work crew (Function.update (Function.update m.stages sleeper _) thread _) < _
    omega
  | notifiedAll thread call reply stage =>
    have woken := rouseAll_work crew m
    have issued := update_work m.rouseAll.stages member (.outside call none reply)
    have own : m.rouseAll.stages thread = m.stages thread := by simp [rouseAll, stage, Stage.roused]
    simp only [Move.thread, own, stage, Stage.work, Notice.work] at issued
    change work crew (Function.update m.rouseAll.stages thread _) < _
    omega

theorem own_run {own : List (Move T)} (manned : Manned crew m) (trace : Trace Step m own next)
    (all : ∀ move ∈ own, move.Own) : own.length + work crew next.stages ≤ work crew m.stages ∧ Manned crew next := by
  induction trace with
  | start => simp [manned]
  | next trace step ih =>
    rw [List.forall_mem_append, List.forall_mem_singleton] at all
    obtain ⟨before, still⟩ := ih all.1
    have less := work_step still step all.2
    have kept := manned_step still step
    rw [Finset.insert_eq_of_mem (own_member still step all.2)] at kept
    rw [List.length_append, List.length_singleton]
    exact ⟨by omega, kept⟩

theorem locked_moves (attended : m.Attended) (locked : (m.stages thread).Locked) :
    ∃ move next, Step m move next ∧ move.Own := by
  cases stage : m.stages thread with
  | idle | entering | outside | parked => simp [stage, Stage.Locked] at locked
  | inside call woken => exact ⟨_, _, .updated thread call woken stage, trivial⟩
  | leaving call notice reply =>
    by_cases waits : reply = .delivered .wait
    next =>
      subst waits
      obtain ⟨rfl, -, -⟩ := attended.waits thread call notice stage
      exact ⟨_, _, .parked thread notice stage, trivial⟩
    next => exact ⟨_, _, .unlocked thread call notice reply stage waits, trivial⟩

theorem busy_moves (attended : m.Attended) (busy : m.stages thread ≠ .idle) (awake : m.stages thread ≠ .parked) :
    ∃ move next, Step m move next ∧ move.Own := by
  cases stage : m.stages thread with
  | idle => exact absurd stage busy
  | parked => exact absurd stage awake
  | inside | leaving =>
    have locked : (m.stages thread).Locked := by simp [stage, Stage.Locked]
    exact locked_moves attended locked
  | entering call woken =>
    cases held : m.holder with
    | none => exact ⟨_, _, .locked thread call woken stage held, trivial⟩
    | some holder => exact locked_moves attended ((attended.excludes holder).mpr held)
  | outside call notice reply =>
    cases notice with
    | none => exact ⟨_, _, .returned thread call reply stage, trivial⟩
    | some notice =>
      cases notice with
      | all => exact ⟨_, _, .notifiedAll thread call reply stage, trivial⟩
      | one =>
        by_cases asleep : ∃ sleeper, m.stages sleeper = .parked
        next =>
          obtain ⟨sleeper, parked⟩ := asleep
          exact ⟨_, _, .notifiedOne thread sleeper call reply stage parked, trivial⟩
        next => exact ⟨_, _, .notifiedNone thread call reply stage (not_exists.mp asleep), trivial⟩

theorem rest_settled (attended : m.Attended) (rest : m.AtRest) (thread : T) :
    m.stages thread = .idle ∨ m.stages thread = .parked ∧ ¬ m.mailbox.Ready := by
  have still (other : T) : m.stages other = .idle ∨ m.stages other = .parked := by
    by_contra going
    rw [not_or] at going
    obtain ⟨move, next, step, own⟩ := busy_moves attended going.1 going.2
    exact rest move next step own
  rcases still thread with idle | asleep
  next => exact .inl idle
  next =>
    refine .inr ⟨asleep, fun ready => ?_⟩
    obtain ⟨helper, stirs⟩ := attended.attends asleep ready
    rcases still helper with idle | parked
    next => exact Stage.idle_still (idle ▸ stirs)
    next => exact Stage.parked_still (parked ▸ stirs)

end Ending

theorem notified_wakes (asleep : m.stages sleeper = .parked) (step : Step m (.notified thread) next) :
    ∃ roused, m.stages roused = .parked ∧ (next.stages roused).Woken := by
  cases step with
  | notifiedOne thread roused call reply owing parked =>
    have other : roused ≠ thread := by
      rintro rfl
      simp [owing] at parked
    exact ⟨roused, parked, by simp [put_other _ _ other, Stage.Woken]⟩
  | notifiedNone thread call reply owing awake => exact absurd asleep (awake sleeper)
  | notifiedAll thread call reply owing =>
    have other : sleeper ≠ thread := by
      rintro rfl
      simp [owing] at asleep
    exact ⟨sleeper, asleep, by simp [put_other _ _ other, rouseAll, asleep, Stage.roused, Stage.Woken]⟩

theorem no_wake_up_is_lost (trace : Trace Step start moves m) :
    (∀ sleeper, m.stages sleeper = .parked → m.mailbox.Ready →
      (∃ thread, (m.stages thread).notice? ≠ none) ∨ ∃ thread, (m.stages thread).Woken) ∧
    (∀ sleeper, m.stages sleeper = .parked → m.mailbox.completed = false → m.mailbox.cancelled = false →
      Helped m.stages m.mailbox.pending.length) ∧
    (∀ sleeper thread next, m.stages sleeper = .parked → Step m (.notified thread) next →
      ∃ roused, m.stages roused = .parked ∧ (next.stages roused).Woken) ∧
    ∃ bound, ∀ own later, Trace Step m own later → (∀ move ∈ own, move.Own) →
      own.length ≤ bound ∧
      (later.AtRest → ∀ thread, later.stages thread = .idle ∨ later.stages thread = .parked ∧ ¬ later.mailbox.Ready) := by
  have attended := trace_attended trace
  obtain ⟨crew, manned⟩ := trace_manned trace
  refine ⟨?_, attended.counted, fun _ _ _ => notified_wakes, work crew m.stages, ?_⟩
  next =>
    intro sleeper asleep ready
    obtain ⟨helper, owes | woken⟩ := attended.attends asleep ready
    next => exact .inl ⟨helper, owes⟩
    next => exact .inr ⟨helper, woken⟩
  next =>
    intro own later rest all
    have bound := (own_run manned rest all).1
    have settled := rest.keeps (fun _ _ _ attended step => attended_step attended step) attended
    exact ⟨by omega, rest_settled settled⟩

section Example

-- Two takes are parked and one message has come in, when one of the takes wakes by itself and gets the message.
def strayTake (message : Message) : List (Move (Fin 3)) :=
  [.called 0 .take, .locked 0, .updated 0 .take (.delivered .wait), .parked 0,
    .called 1 .take, .locked 1, .updated 1 .take (.delivered .wait), .parked 1,
    .called 2 (.enqueue message), .locked 2, .updated 2 (.enqueue message) .done, .unlocked 2, .stirred 0]

theorem strayTake_runs (message : Message) : ∃ m, Trace Step start (strayTake message) m ∧
    m.stages 1 = .parked ∧ m.mailbox.pending = [message] := by
  have trace := trace_single (.called 0 .take rfl : Step (start : Monitor (Fin 3)) _ _)
    |>.next (.locked 0 _ _ rfl rfl)
    |>.next (.updated 0 _ _ rfl)
    |>.next (.parked 0 _ rfl)
    |>.next (.called 1 .take rfl)
    |>.next (.locked 1 _ _ rfl rfl)
    |>.next (.updated 1 _ _ rfl)
    |>.next (.parked 1 _ rfl)
    |>.next (.called 2 (.enqueue message) rfl)
    |>.next (.locked 2 _ _ rfl rfl)
    |>.next (.updated 2 _ _ rfl)
    |>.next (.unlocked 2 _ _ _ rfl nofun)
    |>.next (.stirred 0 rfl)
  exact ⟨_, trace, rfl, rfl⟩

theorem stray_take_leaves_a_notification : ∃ m, Trace Step start (strayTake (.version 7)) m ∧
    m.stages 1 = .parked ∧ m.mailbox.Ready ∧
    ((∃ thread, (m.stages thread).notice? ≠ none) ∨ ∃ thread, (m.stages thread).Woken) := by
  obtain ⟨m, trace, asleep, pending⟩ := strayTake_runs (.version 7)
  have ready : m.mailbox.Ready := .inl (by simp [pending])
  exact ⟨m, trace, asleep, ready, (no_wake_up_is_lost trace).1 1 asleep ready⟩

end Example

end Monitor

end TemplateSync
