import TemplateSync.Proofs.Worker.Monitor

set_option autoImplicit false

namespace TemplateSync.Monitor

abbrev History := List (Call × Reply)

namespace History

def offered? : Call × Reply → Option Message
  | (.enqueue message, _) => some message
  | _ => none

def taken? : Call × Reply → Option Message
  | (.take, .delivered (.message message)) => some message
  | _ => none

def Completed (history : History) : Prop :=
  ∃ entry ∈ history, entry.1 = .complete

def Cancelled (history : History) : Prop :=
  ∃ entry ∈ history, entry.1 = .cancel

def accepted (history : History) : List Message :=
  (history.takeWhile fun entry => entry.1 ≠ .complete).filterMap offered?

def taken (history : History) : List Message :=
  history.filterMap taken?

variable {history : History}

theorem completed_append (history more : History) :
    Completed (history ++ more) ↔ Completed history ∨ Completed more := by
  simp only [Completed, List.mem_append, or_and_right, exists_or]

theorem cancelled_append (history more : History) :
    Cancelled (history ++ more) ↔ Cancelled history ∨ Cancelled more := by
  simp only [Cancelled, List.mem_append, or_and_right, exists_or]

theorem taken_append (history more : History) : taken (history ++ more) = taken history ++ taken more :=
  List.filterMap_append

theorem accepted_cons (entry : Call × Reply) (history : History) :
    accepted (entry :: history) =
      if entry.1 = .complete then [] else (offered? entry).toList ++ accepted history := by
  by_cases complete : entry.1 = .complete
  next => simp [accepted, complete]
  next => cases offer : offered? entry <;> simp [accepted, complete, offer]

theorem accepted_completed (completed : Completed history) (more : History) :
    accepted (history ++ more) = accepted history := by
  induction history with
  | nil => simp [Completed] at completed
  | cons entry history ih =>
    rw [List.cons_append, accepted_cons, accepted_cons]
    by_cases complete : entry.1 = .complete
    next => simp [complete]
    next =>
      have later : Completed history := by simpa [Completed, complete] using completed
      rw [ih later]

theorem accepted_before (going : ¬ Completed history) (entry : Call × Reply) :
    accepted (history ++ [entry]) = accepted history ++ (offered? entry).toList := by
  induction history with
  | nil =>
    obtain ⟨call, reply⟩ := entry
    cases call <;> rfl
  | cons first history ih =>
    obtain ⟨before, later⟩ : first.1 ≠ .complete ∧ ¬ Completed history := by
      simpa [Completed] using going
    rw [List.cons_append, accepted_cons, accepted_cons, if_neg before, if_neg before, ih later,
      List.append_assoc]

end History

open History

structure Reflects (history : History) (mailbox : Mailbox) : Prop where
  accepted : accepted history = taken history ++ mailbox.pending
  completed : mailbox.completed = true ↔ Completed history
  cancelled : mailbox.cancelled = true ↔ Cancelled history

variable {past : History} {mailbox : Mailbox}

theorem reflects_empty : Reflects [] .empty :=
  ⟨rfl, by simp [Mailbox.empty, Completed], by simp [Mailbox.empty, Cancelled]⟩

theorem act_conserves (call : Call) (mailbox : Mailbox) :
    (taken? (call, (call.act mailbox).value)).toList ++ (call.act mailbox).state.pending =
      mailbox.pending ++
        if mailbox.completed then [] else (offered? (call, (call.act mailbox).value)).toList := by
  obtain ⟨pending, completed, cancelled⟩ := mailbox
  cases call with
  | enqueue message => cases completed <;> simp [Call.act, Mailbox.enqueue, taken?, offered?]
  | complete | cancel | size | isCompleted =>
    simp [Call.act, Mailbox.complete, Mailbox.cancel, taken?, offered?]
  | take =>
    cases cancelled with
    | true => simp [Call.act, Mailbox.take, taken?, offered?]
    | false =>
      cases pending with
      | cons message rest => simp [Call.act, Mailbox.take, taken?, offered?]
      | nil => cases completed <;> simp [Call.act, Mailbox.take, taken?, offered?]

theorem enqueue_flags (message : Message) (mailbox : Mailbox) :
    (Mailbox.enqueue message mailbox).state.completed = mailbox.completed ∧
      (Mailbox.enqueue message mailbox).state.cancelled = mailbox.cancelled := by
  unfold Mailbox.enqueue
  split <;> exact ⟨rfl, rfl⟩

theorem take_flags (mailbox : Mailbox) :
    (Mailbox.take mailbox).state.completed = mailbox.completed ∧
      (Mailbox.take mailbox).state.cancelled = mailbox.cancelled := by
  unfold Mailbox.take
  split
  next => exact ⟨rfl, rfl⟩
  next => split <;> exact ⟨rfl, rfl⟩

theorem act_completed (call : Call) (mailbox : Mailbox) :
    (call.act mailbox).state.completed = true ↔ mailbox.completed = true ∨ call = .complete := by
  cases call with
  | enqueue message => simpa [Call.act] using Bool.eq_iff_iff.mp (enqueue_flags message mailbox).1
  | take => simpa [Call.act] using Bool.eq_iff_iff.mp (take_flags mailbox).1
  | complete | cancel | size | isCompleted => simp [Call.act, Mailbox.complete, Mailbox.cancel]

theorem act_cancelled (call : Call) (mailbox : Mailbox) :
    (call.act mailbox).state.cancelled = true ↔ mailbox.cancelled = true ∨ call = .cancel := by
  cases call with
  | enqueue message => simpa [Call.act] using Bool.eq_iff_iff.mp (enqueue_flags message mailbox).2
  | take => simpa [Call.act] using Bool.eq_iff_iff.mp (take_flags mailbox).2
  | complete | cancel | size | isCompleted => simp [Call.act, Mailbox.complete, Mailbox.cancel]

theorem reflects_next (reflects : Reflects past mailbox) (call : Call) :
    Reflects (past ++ [(call, (call.act mailbox).value)]) (call.act mailbox).state := by
  refine ⟨?_, ?_, ?_⟩
  next =>
    have taken_next : taken (past ++ [(call, (call.act mailbox).value)]) =
        taken past ++ (taken? (call, (call.act mailbox).value)).toList := by
      cases took : taken? (call, (call.act mailbox).value) <;> simp [taken, took]
    have conserved := act_conserves call mailbox
    rw [taken_next, List.append_assoc, conserved, ← List.append_assoc, ← reflects.accepted]
    by_cases completed : mailbox.completed = true
    next => simp [accepted_completed (reflects.completed.mp completed), completed]
    next => simp [accepted_before (mt reflects.completed.mpr completed), completed]
  next =>
    rw [act_completed, reflects.completed]
    simp [Completed]
  next =>
    rw [act_cancelled, reflects.cancelled]
    simp [Cancelled]

structure Finds (past : History) (reply : Reply) : Prop where
  cancelled : reply = .delivered .cancelled ↔ Cancelled past
  closed : reply = .delivered .closed ↔
    ¬ Cancelled past ∧ Completed past ∧ taken past = History.accepted past
  waits : reply = .delivered .wait ↔
    ¬ Cancelled past ∧ ¬ Completed past ∧ taken past = History.accepted past
  message (message : Message) : reply = .delivered (.message message) ↔
    ¬ Cancelled past ∧ ∃ rest, History.accepted past = taken past ++ message :: rest

theorem finds_take (reflects : Reflects past mailbox) : Finds past (Call.take.act mailbox).value := by
  obtain ⟨pending, completed, cancelled⟩ := mailbox
  obtain ⟨accepted, closing, aborting⟩ := reflects
  simp only at accepted closing aborting
  cases cancelled with
  | true =>
    have aborted : Cancelled past := aborting.mp rfl
    constructor <;> simp [Call.act, Mailbox.take, aborted]
  | false =>
    have going : ¬ Cancelled past := mt aborting.mpr nofun
    cases pending with
    | cons message rest => constructor <;> simp [Call.act, Mailbox.take, going, accepted]
    | nil =>
      rw [List.append_nil] at accepted
      cases completed with
      | true =>
        have closed : Completed past := closing.mp rfl
        constructor <;> simp [Call.act, Mailbox.take, going, closed, accepted]
      | false =>
        have opened : ¬ Completed past := mt closing.mpr nofun
        constructor <;> simp [Call.act, Mailbox.take, going, opened, accepted]

def Reply.Failed : Reply → Prop
  | .delivered .closed | .delivered .cancelled => True
  | _ => False

theorem failure_stays {reply : Reply} {between : History} (found : Finds past reply)
    (reflects : Reflects (past ++ (.take, reply) :: between) mailbox) (failed : reply.Failed) :
    (Call.take.act mailbox).value.Failed ∧
      (reply = .delivered .cancelled → (Call.take.act mailbox).value = .delivered .cancelled) := by
  have finds := finds_take reflects
  by_cases cancelled : Cancelled (past ++ (.take, reply) :: between)
  next =>
    rw [finds.cancelled.mpr cancelled]
    exact ⟨trivial, fun _ => rfl⟩
  next =>
    have going : ¬ Cancelled past := fun before => cancelled ((cancelled_append _ _).mpr (.inl before))
    have before : reply ≠ .delivered .cancelled := mt found.cancelled.mp going
    have closed : reply = .delivered .closed := by
      unfold Reply.Failed at failed
      split at failed
      next => rfl
      next => exact absurd rfl before
      next => exact failed.elim
    obtain ⟨-, completed, drained⟩ := found.closed.mp closed
    have whole := accepted_completed completed ((.take, reply) :: between)
    have nothing : taken ((.take, reply) :: between) ++ mailbox.pending = [] := by
      have accepted := reflects.accepted
      rw [whole, ← drained, taken_append, List.append_assoc] at accepted
      exact List.append_right_eq_self.mp accepted.symm
    have still : taken (past ++ (.take, reply) :: between) = History.accepted past := by
      rw [taken_append, (List.append_eq_nil_iff.mp nothing).1, List.append_nil, drained]
    rw [finds.closed.mpr ⟨cancelled, (completed_append _ _).mpr (.inl completed), still.trans whole.symm⟩]
    exact ⟨trivial, fun same => absurd same before⟩

theorem Reflects.size (reflects : Reflects past mailbox) :
    mailbox.size + (taken past).length = (History.accepted past).length := by
  rw [reflects.accepted, List.length_append, Mailbox.size, Nat.add_comm]

theorem Reflects.isCompleted (reflects : Reflects past mailbox) :
    mailbox.isCompleted = true ↔ Completed past ∧ mailbox.size = 0 := by
  simp [Mailbox.isCompleted, Mailbox.size, reflects.completed]

theorem Reflects.drained (reflects : Reflects past mailbox) :
    mailbox.size = 0 ↔ taken past = History.accepted past := by
  simp [reflects.accepted, Mailbox.size]

section Run

variable {T : Type} [DecidableEq T] {m next : Monitor T} {move : Move T} {moves : List (Move T)}

def updated? : Move T → Option (Call × Reply)
  | .updated _ call reply => some (call, reply)
  | _ => none

def history (moves : List (Move T)) : History :=
  moves.filterMap updated?

theorem reflects_step (reflects : Reflects (history moves) m.mailbox) (step : Step m move next) :
    Reflects (history (moves ++ [move])) next.mailbox := by
  rw [history, List.filterMap_append]
  cases step with
  | updated thread call woken inside => exact reflects_next reflects call
  | called | locked | unlocked | parked | notifiedOne | notifiedNone | notifiedAll | stirred | returned =>
    simpa [history, updated?, List.filterMap_cons] using reflects

theorem reflects_run (trace : Trace Step start moves m) : Reflects (history moves) m.mailbox := by
  induction trace with
  | start => exact reflects_empty
  | next _ step ih => exact reflects_step ih step

theorem answered {past later : History} {call : Call} {reply : Reply} (trace : Trace Step start moves m)
    (split : history moves = past ++ (call, reply) :: later) :
    ∃ mailbox, Reflects past mailbox ∧ reply = (call.act mailbox).value := by
  obtain ⟨before, rest, rfl, rfl, answered⟩ := List.filterMap_eq_append_iff.mp split
  obtain ⟨quiet, move, after, rfl, silent, own, -⟩ := List.filterMap_eq_cons_iff.mp answered
  rw [← List.append_assoc] at trace
  obtain ⟨ready, trace, rest⟩ := trace_append.mp trace
  obtain ⟨left, step, -⟩ := trace_cons.mp rest
  have unchanged : history (before ++ quiet) = history before := by
    simpa [history] using silent
  have reflects := reflects_run trace
  rw [unchanged] at reflects
  cases step with
  | updated thread call woken inside =>
    cases own
    exact ⟨ready.mailbox, reflects, rfl⟩
  | called | locked | unlocked | parked | notifiedOne | notifiedNone | notifiedAll | stirred | returned =>
    cases own

theorem late_message {thread : T} {message : Message} {reply : Reply} (trace : Trace Step start moves m)
    (late : Completed (history moves)) (step : Step m (.updated thread (.enqueue message) reply) next) :
    next = m.put thread (.leaving (.enqueue message) none .done) := by
  have completed := (reflects_run trace).completed.mpr late
  cases step with
  | updated thread call woken inside =>
    simp [Call.act, Call.notice?, Mailbox.enqueue, completed]

theorem messages_pass_in_order (trace : Trace Step start moves m) :
    let past := history moves
    accepted past = taken past ++ m.mailbox.pending ∧
    m.mailbox.size + (taken past).length = (accepted past).length ∧
    (m.mailbox.isCompleted = true ↔ Completed past ∧ m.mailbox.size = 0) ∧
    (∀ (thread : T) (message : Message) (reply : Reply) (next : Monitor T), Completed past →
      Step m (.updated thread (.enqueue message) reply) next →
        next = m.put thread (.leaving (.enqueue message) none .done)) ∧
    (∀ (earlier : History) (reply : Reply) (later : History),
      past = earlier ++ (.take, reply) :: later → Finds earlier reply) ∧
    (∀ (earlier : History) (reply : Reply) (between : History) (other : Reply) (later : History),
      past = earlier ++ (.take, reply) :: between ++ (.take, other) :: later → reply.Failed →
        other.Failed ∧ (reply = .delivered .cancelled → other = .delivered .cancelled)) ∧
    (∀ (earlier : History) (reply : Reply) (later : History),
      past = earlier ++ (.size, reply) :: later →
        ∃ size, reply = .size size ∧ size + (taken earlier).length = (accepted earlier).length) ∧
    (∀ (earlier : History) (reply : Reply) (later : History),
      past = earlier ++ (.isCompleted, reply) :: later →
        ∃ answer, reply = .isCompleted answer ∧
          (answer = true ↔ Completed earlier ∧ taken earlier = accepted earlier)) ∧
    ∀ (before : List (Move T)) (thread : T) (reply : Reply) (after : List (Move T)),
      moves = before ++ .returned thread reply :: after →
        reply ≠ .delivered .wait ∧ ∃ call, Decided before thread call reply := by
  intro past
  have reflects := reflects_run trace
  refine ⟨reflects.accepted, reflects.size, reflects.isCompleted, ?_, ?_, ?_, ?_, ?_, ?_⟩
  next => exact fun thread message reply next late step => late_message trace late step
  next =>
    intro earlier reply later split
    obtain ⟨mailbox, reflects, rfl⟩ := answered trace split
    exact finds_take reflects
  next =>
    intro earlier reply between other later split failed
    obtain ⟨mailbox, after, rfl⟩ := answered trace split
    rw [List.append_assoc, List.cons_append] at split
    obtain ⟨before, reflects, rfl⟩ := answered trace split
    exact failure_stays (finds_take reflects) after failed
  next =>
    intro earlier reply later split
    obtain ⟨mailbox, reflects, rfl⟩ := answered trace split
    exact ⟨mailbox.size, rfl, reflects.size⟩
  next =>
    intro earlier reply later split
    obtain ⟨mailbox, reflects, rfl⟩ := answered trace split
    exact ⟨mailbox.isCompleted, rfl, by rw [reflects.isCompleted, reflects.drained]⟩
  next =>
    rintro before thread reply after rfl
    obtain ⟨ready, trace, rest⟩ := trace_append.mp trace
    obtain ⟨left, step, -⟩ := trace_cons.mp rest
    exact calls_take_effect trace step

end Run

section Example

def wokenTake (message : Message) : List (Move Bool) :=
  [.called true .take, .locked true, .updated true .take (.delivered .wait), .parked true,
    .called false (.enqueue message), .locked false, .updated false (.enqueue message) .done,
    .unlocked false, .notified false,
    .locked true, .updated true .take (.delivered (.message message)), .unlocked true,
    .returned true (.delivered (.message message)), .returned false .done]

theorem wokenTake_runs (message : Message) : ∃ m, Trace Step start (wokenTake message) m := by
  refine traced_cons (.called _ _ rfl) (traced_cons (.locked _ _ _ rfl rfl)
    (traced_cons (.updated _ _ _ rfl) (traced_cons (.parked _ _ rfl) ?_)))
  refine traced_cons (.called _ _ rfl) (traced_cons (.locked _ _ _ rfl rfl)
    (traced_cons (.updated _ _ _ rfl) (traced_cons (.unlocked _ _ _ _ rfl nofun)
      (traced_cons (.notifiedOne _ true _ _ rfl rfl) ?_))))
  refine traced_cons (.locked _ _ _ rfl rfl) (traced_cons (.updated _ _ _ rfl)
    (traced_cons (.unlocked _ _ _ _ rfl nofun) (traced_cons (.returned _ _ _ rfl)
      (traced_cons (.returned _ _ _ rfl) ⟨_, .start⟩))))

theorem woken_take_returns :
    ∃ m, Trace Step start (wokenTake (.version 7)) m ∧ m.mailbox.pending = [] := by
  obtain ⟨m, trace⟩ := wokenTake_runs (.version 7)
  have order := (messages_pass_in_order trace).1
  simp only [history, wokenTake, List.filterMap_cons, updated?] at order
  exact ⟨m, trace, by simpa [accepted, taken, List.filterMap_cons, offered?, taken?] using order⟩

end Example

end TemplateSync.Monitor
