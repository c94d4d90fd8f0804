import TemplateSync.Proofs.Host.Threads
import TemplateSync.Proofs.Locks.Ranks

set_option autoImplicit false

namespace TemplateSync

open Locks

namespace Premises

-- Three pairs are held together: the handle with the end of its thread, a new client's writer with the set of clients,
-- and this set with the projects. A batch waits for its emits, and these take the projects alone.
def Lock.rank : Lock → Nat
  | .acceptor => 1
  | .writer _ => 4
  | .clients => 5
  | .entries => 6
  | .flags | .socket => 7

def Role.rank : Role → Nat
  | .calling _ => 0
  | .accepting | .ticking | .batch _ => 2
  | .emit _ => 3

def order : Order Lock Role where
  lock := Lock.rank
  ending := Role.rank
  top := 7
  lock_le one := by cases one <;> exact Nat.le_of_ble_eq_true rfl
  ending_le role := by cases role <;> exact Nat.le_of_ble_eq_true rfl

section Keeps

variable {α : Type} {floor id : Nat} {script : Routine α}

theorem keeps_onFanout (act : Act Fanout α) : order.Keeps floor (onFanout act) :=
  Order.keeps_perform _ _ act

theorem keeps_onTicker (act : Act Ticker α) : order.Keeps floor (onTicker act) :=
  Order.keeps_perform _ _ act

theorem keeps_onManifest (act : Act Manifest α) : order.Keeps floor (onManifest act) :=
  Order.keeps_perform _ _ act

theorem keeps_discard (keeps : order.Keeps floor script) : order.Keeps floor (discard script) :=
  keeps.bind fun _ => Order.keeps_pure _

theorem keeps_flags (body : order.Keeps 7 script) : order.Keeps 6 (within .flags .writing script) :=
  Order.keeps_within _ (Nat.lt_succ_self 6) body

theorem keeps_entries (grip : Grip) (body : order.Keeps 6 script) : order.Keeps 5 (within .entries grip script) :=
  Order.keeps_within grip (Nat.lt_succ_self 5) body

theorem keeps_clients (body : order.Keeps 5 script) : order.Keeps 4 (within .clients .writing script) :=
  Order.keeps_within _ (Nat.lt_succ_self 4) body

theorem keeps_writer (body : order.Keeps 4 script) : order.Keeps 3 (within (.writer id) .writing script) :=
  Order.keeps_within _ (Nat.lt_succ_self 3) body

theorem keeps_projects : order.Keeps 5 projects :=
  keeps_entries _ (Order.keeps_look.bind fun _ => Order.keeps_pure _)

theorem keeps_solution : order.Keeps 5 solution :=
  keeps_projects.bind fun _ => Order.keeps_pure _

theorem keeps_reload : order.Keeps 5 reload := by
  refine Order.keeps_look.bind fun s => ?_
  split
  next => exact Order.keeps_pure _
  next => exact (keeps_entries _ (keeps_onManifest _)).bind fun _ => Order.keeps_pure _

theorem keeps_classify (path : Path) : order.Keeps 5 (classify path) := by
  refine Order.keeps_look.bind fun s => ?_
  refine Order.keeps_ite (Order.keeps_pure _) (Order.keeps_ite (Order.keeps_pure _) ?_)
  refine (keeps_entries _ (Order.keeps_look.bind fun _ => Order.keeps_pure _)).bind fun listed => ?_
  exact Order.keeps_ite (Order.keeps_pure _) (Order.keeps_pure _)

theorem keeps_handleFrom (events : List FileEvent) (told : List Change) : order.Keeps 5 (handleFrom events told) := by
  induction events generalizing told with
  | nil => exact Order.keeps_pure _
  | cons event events ih =>
    refine Order.keeps_ite (ih told) ((keeps_classify event.path).bind fun found => ?_)
    split
    next => exact ih told
    next change =>
      have reread : order.Keeps 5 (reloadFor change) :=
        Order.keeps_ite (keeps_discard keeps_reload) (Order.keeps_pure _)
      exact Order.keeps_ite (ih told) (reread.bind fun _ => ih _)

theorem keeps_notify (change : Change) : order.Keeps 6 (notify change) :=
  keeps_flags (keeps_onTicker _)

theorem keeps_notifyAll (changes : List Change) : order.Keeps 6 (notifyAll changes) := by
  induction changes with
  | nil => exact Order.keeps_pure _
  | cons change changes ih => exact (keeps_notify change).bind fun _ => ih

theorem keeps_write (text : String) : order.Keeps floor (write id text) := by
  refine (keeps_onFanout _).bind fun outcome => ?_
  split
  next => exact Order.keeps_pure _
  next => exact Order.keeps_either

theorem keeps_remove (ids : List Nat) : order.Keeps 4 (remove ids) :=
  keeps_clients (keeps_onFanout _)

theorem keeps_deliverTo (text : String) (ids : List Nat) : order.Keeps 3 (deliverTo text ids) := by
  induction ids with
  | nil => exact Order.keeps_pure _
  | cons id ids ih =>
    refine (keeps_writer (keeps_write text)).bind fun arrived => Order.keeps_ite ih ?_
    exact (keeps_onFanout _).bind fun _ => ih.bind fun _ => Order.keeps_pure _

theorem keeps_deliver (text : String) (ids : List Nat) : order.Keeps 3 (deliver text ids) := by
  refine (keeps_deliverTo text ids).bind fun failed => ?_
  have pruned : order.Keeps 4 (prune failed) := Order.keeps_ite (Order.keeps_pure _) (keeps_remove failed)
  exact (pruned.mono (Nat.le_succ 3)).bind fun _ => Order.keeps_pure _

theorem keeps_copy : order.Keeps floor copy :=
  Order.keeps_look.bind fun _ => Order.keeps_pure _

theorem keeps_send (message : Message) : order.Keeps 3 (send message) := by
  rw [send]
  split
  next => exact Order.keeps_pure _
  next text _ =>
    refine ((keeps_clients keeps_copy).mono (Nat.le_succ 3)).bind fun ids => ?_
    exact (keeps_deliver text ids).bind fun _ => Order.keeps_pure _

theorem keeps_sendSnapshot {snapshot : Routine Message} (body : order.Keeps 5 snapshot) :
    order.Keeps 3 (sendSnapshot snapshot) := by
  have taken : order.Keeps 5 (snapshot >>= fun message => copy >>= fun ids => pure (message, ids)) :=
    body.bind fun _ => keeps_copy.bind fun _ => Order.keeps_pure _
  refine ((keeps_clients taken).mono (Nat.le_succ 3)).bind fun both => ?_
  obtain ⟨message, ids⟩ := both
  dsimp only
  split
  next => exact Order.keeps_pure _
  next text _ => exact (keeps_deliver text ids).bind fun _ => Order.keeps_pure _

theorem keeps_greet (messages : List Message) : order.Keeps floor (greet id messages) := by
  induction messages with
  | nil => exact Order.keeps_pure _
  | cons message messages ih =>
    rw [greet]
    split
    next => exact Order.keeps_pure _
    next text _ => exact (keeps_write text).bind fun _ => Order.keeps_ite ih (Order.keeps_pure _)

theorem keeps_welcome (version : Int32) (id : Nat) : order.Keeps 3 (welcome version id) := by
  refine Order.Keeps.bind (keeps_writer ?_) fun greeted => Order.keeps_ite (Order.keeps_pure _) ?_
  next =>
    refine Order.Keeps.bind (keeps_clients ?_) fun messages => keeps_greet messages
    exact (keeps_onFanout _).bind fun _ => keeps_solution.bind fun _ => Order.keeps_pure _
  next => exact ((keeps_remove [id]).mono (Nat.le_succ 3)).bind fun _ => keeps_onFanout _

theorem keeps_accept (version : Int32) : order.Keeps 3 (accept version) :=
  (keeps_onFanout _).bind fun _ => Order.keeps_either.bind fun _ =>
    Order.keeps_ite (keeps_welcome version _) (Order.keeps_pure _)

theorem keeps_accepting (version : Int32) : order.Keeps 2 (accepting version) := by
  refine Order.keeps_look.bind fun s => Order.keeps_ite (Order.keeps_pure _) ?_
  refine Order.keeps_either.bind fun _ => Order.keeps_ite ?_ (Order.keeps_pure _)
  exact ((keeps_accept version).mono (Nat.le_succ 2)).bind fun _ => Order.keeps_pure _

theorem keeps_startListening : order.Keeps 0 startListening := by
  have socket : order.Keeps 0 (within .socket .writing
      (swap fun s => { s with fanout := (Fanout.start s.fanout).state }) : Routine Premises) :=
    Order.keeps_within _ (Nat.zero_lt_succ 6) (Order.keeps_swap _)
  refine socket.bind fun s => Order.keeps_ite (Order.keeps_pure _) ?_
  refine Order.keeps_either.bind fun _ => Order.keeps_ite ?_ (Order.keeps_pure _)
  refine (Order.keeps_spawn _).bind fun number => Order.Keeps.bind ?_ fun _ => Order.keeps_pure _
  exact Order.keeps_within _ Nat.zero_lt_one (Order.keeps_alter _)

theorem keeps_start : order.Keeps 0 start := by
  refine keeps_startListening.bind fun _ => Order.keeps_ite ?_ (Order.keeps_pure _)
  refine Order.keeps_either.bind fun _ => Order.keeps_ite ?_ (Order.keeps_pure _)
  exact (Order.keeps_spawn _).bind fun _ => Order.keeps_alter _

theorem keeps_awaitEnd {role : Role} (above : floor < role.rank) (number : Option Nat) :
    order.Keeps floor (awaitEnd role number) := by
  cases number with
  | none => exact Order.keeps_pure _
  | some number => exact Order.keeps_await above number

theorem keeps_stopListening : order.Keeps 0 stopListening := by
  refine (Order.keeps_swap _).bind fun s => Order.keeps_ite (Order.keeps_pure _) ?_
  refine Order.Keeps.bind (Order.keeps_within _ Nat.zero_lt_one ?_) fun _ => ?_
  next => exact (Order.keeps_swap _).bind fun s => keeps_awaitEnd (Nat.lt_succ_self 1) _
  next => exact (keeps_clients (keeps_onFanout _)).mono (Nat.zero_le 4)

theorem keeps_stop : order.Keeps 0 stop :=
  (Order.keeps_swap _).bind fun _ => (keeps_awaitEnd (Nat.zero_lt_succ 1) _).bind fun _ => keeps_stopListening

theorem keeps_tick : order.Keeps 3 tick := by
  have sent (taken : DirtyFlags) : order.Keeps 3 (sendSolution taken) :=
    Order.keeps_ite (keeps_discard (keeps_sendSnapshot keeps_solution)) (Order.keeps_pure _)
  have marked (act : Act Ticker Unit) : order.Keeps 3 (within .flags .writing (onTicker act)) :=
    (keeps_flags (keeps_onTicker act)).mono (by decide)
  refine ((keeps_flags (keeps_onTicker _)).mono (by decide)).bind fun taken => (sent taken).bind fun _ => ?_
  refine Order.keeps_ite ?_ (Order.keeps_pure _)
  refine (keeps_projects.mono (by decide)).bind fun listed => Order.keeps_either.bind fun _ => ?_
  refine Order.keeps_ite ((Order.keeps_spawn _).bind fun _ => Order.keeps_pure _) ?_
  exact (marked _).bind fun _ => (marked _).bind fun _ => Order.keeps_pure _

theorem keeps_ticking : order.Keeps 2 ticking := by
  refine Order.keeps_look.bind fun s => Order.keeps_ite (Order.keeps_pure _) ?_
  exact (keeps_discard (keeps_tick.mono (Nat.le_succ 2))).bind fun _ => Order.keeps_pure _

theorem keeps_emitted (project : ProjectDescriptor) : order.Keeps 5 (emitted project) := by
  refine Order.keeps_look.bind fun s => ?_
  split
  next => exact Order.keeps_pure _
  next =>
    split
    next => exact Order.keeps_pure _
    next =>
      refine Order.keeps_ite (keeps_entries _ ?_) (Order.keeps_pure _)
      exact Order.keeps_look.bind fun _ => Order.keeps_pure _

theorem keeps_emit (project : ProjectDescriptor) (number : Nat) : order.Keeps 5 (emit project number) := by
  refine Order.keeps_either.bind fun _ => Order.keeps_ite ?_ (Order.keeps_pure _)
  exact (keeps_emitted project).bind fun _ => (Order.keeps_alter _).bind fun _ => Order.keeps_pure _

theorem keeps_spawnAll (projects : List ProjectDescriptor) : order.Keeps floor (spawnAll projects) := by
  induction projects with
  | nil => exact Order.keeps_pure _
  | cons project projects ih => exact (Order.keeps_spawn _).bind fun _ => ih.bind fun _ => Order.keeps_pure _

theorem keeps_awaitAll (emits : List (ProjectDescriptor × Nat)) : order.Keeps 2 (awaitAll emits) := by
  induction emits with
  | nil => exact Order.keeps_pure _
  | cons emit emits ih => exact (Order.keeps_await (Nat.lt_succ_self 2) _).bind fun _ => ih

theorem keeps_sendAll (results : List (ProjectDescriptor × Emission)) : order.Keeps 3 (sendAll results) := by
  induction results with
  | nil => exact Order.keeps_pure _
  | cons result results ih =>
    obtain ⟨project, emission⟩ := result
    cases emission with
    | emitted emitted => exact (keeps_discard (keeps_send _)).bind fun _ => ih
    | failed | crashed => exact ih

theorem keeps_batch (projects : List ProjectDescriptor) : order.Keeps 2 (batch projects) := by
  refine (keeps_spawnAll projects).bind fun emits => (keeps_awaitAll emits).bind fun _ => ?_
  refine Order.keeps_look.bind fun s => Order.Keeps.bind ?_ fun _ => ?_
  next => exact Order.keeps_ite (Order.keeps_pure _) ((keeps_sendAll _).mono (Nat.le_succ 2))
  next => exact ((keeps_flags (keeps_onTicker _)).mono (by decide)).bind fun _ => Order.keeps_pure _

theorem keeps_routine (call : Call) (version : Int32) : order.Keeps 0 (call.routine version) := by
  cases call with
  | start => exact keeps_start
  | stop => exact keeps_stop
  | stopListening => exact keeps_stopListening
  | change kind => exact (keeps_notify kind).mono (Nat.zero_le 6)
  | events batch =>
    have handled := (keeps_handleFrom batch []).mono (Nat.zero_le 5)
    exact handled.bind fun changes => (keeps_notifyAll changes).mono (Nat.zero_le 6)
  | reload => exact keeps_discard (keeps_reload.mono (Nat.zero_le 5))
  | tick wait =>
    refine (keeps_tick.mono (Nat.zero_le 3)).bind fun batch => ?_
    split
    next => exact Order.keeps_ite (Order.keeps_await (Nat.zero_lt_succ 1) _) (Order.keeps_pure _)
    next => exact Order.keeps_pure _
  | send message => exact keeps_discard ((keeps_send message).mono (Nat.zero_le 3))
  | count => exact keeps_discard ((keeps_clients Order.keeps_look).mono (Nat.zero_le 4))
  | flags => exact keeps_discard ((keeps_flags Order.keeps_look).mono (Nat.zero_le 6))
  | roots => exact keeps_discard ((keeps_entries _ Order.keeps_look).mono (Nat.zero_le 5))

end Keeps

theorem program_fits (version : Int32) : order.Fits (program version) := by
  intro role number
  cases role with
  | accepting => exact keeps_accepting version
  | ticking => exact keeps_ticking
  | batch projects => exact keeps_batch projects
  | emit project => exact (keeps_emit project number).mono (Nat.le_of_ble_eq_true rfl)
  | calling call => exact (keeps_routine call version).bind fun _ => Order.keeps_pure _

theorem host_never_locks_up {version : Int32} {s : Premises} {moves : List (Move Role)}
    {m : Machine Premises Lock Role} (trace : Trace (Machine.Step (program version)) ⟨s, []⟩ moves m) :
    (¬ ∃ number, Relation.TransGen m.Waits number number) ∧
    (∀ number thread, m.threads[number]? = some thread → thread.script.isOver = false →
      ∃ last next, Relation.ReflTransGen m.Waits number last ∧ (∀ other, ¬ m.Waits last other) ∧
        Machine.Step (program version) m (.turned last true) next) ∧
    ∀ thread ∈ m.threads, ∀ lock grip, thread.script.want? = some (.lock lock grip) →
      ∀ own, (∀ id, lock = .writer id → (.clients, own) ∉ thread.held) ∧ (.flags, own) ∉ thread.held := by
  have sound := Machine.sound_run (program_fits version) trace
  refine ⟨Machine.waits_acyclic sound, fun _ _ there running => Machine.someone_goes_on sound there running, ?_⟩
  intro thread inside lock grip wants own
  have above := (Order.Climbs.above (sound thread inside) wants).2
  constructor
  next =>
    rintro id rfl holds
    exact absurd (above _ holds) (Nat.lt_asymm (Nat.lt_succ_self 4))
  next =>
    intro holds
    exact absurd (above _ holds) (Nat.not_lt.mpr (order.lock_le lock))

section Sample

def samplePremises : Premises where
  fanout := .initial
  ticker := ⟨⟨true, true⟩, false⟩
  manifest := ⟨.ofString "/m/tether.toml", [], []⟩
  files := .empty
  runs := fun _ => .error .notText
  emissions := fun _ => none
  acceptor := none
  timer := none
  halted := false

-- It starts and a client connects. A tick takes the set of clients before this client is in it, and someone
-- stops the listening.
def sampleMoves : List (Move Role) :=
  .entered (.calling .start) :: List.replicate 11 (.turned 0 true) ++ List.replicate 5 (.turned 1 true) ++
    List.replicate 5 (.turned 2 true) ++ .entered (.calling .stopListening) :: List.replicate 3 (.turned 3 true)

theorem sample_played : ∃ m, Machine.play? (program 1) ⟨samplePremises, []⟩ sampleMoves = some m ∧
    (m.threads.map fun thread => (thread.script.want?, thread.held)) =
      [(none, []), (some (.lock .clients .writing), [(.writer 1, .writing)]),
        (some (.lock .entries .reading), [(.clients, .writing)]),
        (some (.ending .accepting 1), [(.acceptor, .writing)])] ∧
    m.threads.map Thread.role = [.calling .start, .accepting, .ticking, .calling .stopListening] := by
  have wants : ((Machine.play? (program 1) ⟨samplePremises, []⟩ sampleMoves).map fun m =>
      m.threads.map fun thread => (thread.script.want?, thread.held)) =
      some [(none, []), (some (.lock .clients .writing), [(.writer 1, .writing)]),
        (some (.lock .entries .reading), [(.clients, .writing)]),
        (some (.ending .accepting 1), [(.acceptor, .writing)])] := by
    decide +kernel
  have roles : ((Machine.play? (program 1) ⟨samplePremises, []⟩ sampleMoves).map fun m =>
      m.threads.map Thread.role) = some [.calling .start, .accepting, .ticking, .calling .stopListening] := by
    decide +kernel
  obtain ⟨m, played, wants⟩ := Option.map_eq_some_iff.mp wants
  rw [played] at roles
  exact ⟨m, played, wants, Option.some.inj roles⟩

theorem stopping_waits_for_the_tick : ∃ m, Trace (Machine.Step (program 1)) ⟨samplePremises, []⟩ sampleMoves m ∧
    m.Waits 3 1 ∧ m.Waits 1 2 ∧ (¬ ∃ number, Relation.TransGen m.Waits number number) ∧
    ∃ last next, Relation.ReflTransGen m.Waits 3 last ∧ Machine.Step (program 1) m (.turned last true) next := by
  obtain ⟨m, played, wants, roles⟩ := sample_played
  have enters : ∀ role, .entered role ∈ sampleMoves → (program 1).Enters role := by
    intro role inside
    have known : role = .calling .start ∨ role = .calling .stopListening := by
      simpa [sampleMoves] using inside
    rcases known with rfl | rfl <;> exact ⟨_, rfl⟩
  have trace := Machine.trace_of_play enters played
  simp only [List.map_eq_cons_iff, List.map_eq_nil_iff] at wants
  obtain ⟨starter, _, all, -, acceptor, _, rfl, accepts, ticker, _, rfl, ticks, stopper, _, rfl, stops, rfl⟩ := wants
  rw [all] at roles
  obtain ⟨-, accepting, -, -⟩ : starter.role = _ ∧ acceptor.role = _ ∧ ticker.role = _ ∧ stopper.role = _ := by
    simpa using roles
  rw [Prod.mk.injEq] at accepts ticks stops
  have second : m.threads[1]? = some acceptor := by rw [all]; rfl
  have third : m.threads[2]? = some ticker := by rw [all]; rfl
  have fourth : m.threads[3]? = some stopper := by rw [all]; rfl
  obtain ⟨acyclic, going, -⟩ := host_never_locks_up trace
  obtain ⟨last, next, chain, -, step⟩ := going 3 stopper fourth (Script.running_of_want stops.1)
  refine ⟨m, trace, ?_, ?_, acyclic, last, next, chain, step⟩
  next => exact .running fourth (by rw [stops.1, accepting]) second (Script.running_of_want accepts.1)
  next => exact .held second accepts.1 third (by rw [ticks.2]; exact List.mem_cons_self) (.inl rfl)

end Sample

end Premises

end TemplateSync
