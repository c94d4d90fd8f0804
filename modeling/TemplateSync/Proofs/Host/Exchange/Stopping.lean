import TemplateSync.Proofs.Host.Exchange.Isolation
import TemplateSync.Proofs.Host.Exchange.Operations

set_option autoImplicit false

namespace TemplateSync

theorem Line.Writes.failed {line next : Line} {text : String} {piece : Bytes} {arrived : Bool}
    (writes : line.Writes text next piece arrived) (shut : line.isOpen = false) : arrived = false := by
  obtain ⟨room, closed, done⟩ := writes.taken
  have stuck := Outlet.write_nowhere text line.outlet
  rwa [← closed shut, done] at stuck

namespace Listener

/-- How far the one who starts has come. He starts the accepting thread before he puts it down as started. -/
inductive Opening where
  | unopened
  | spawned
  | started
  deriving DecidableEq

inductive Stopper where
  | away
  | joining
  | draining (rest : List Nat)
  | done
  deriving DecidableEq

inductive Move where
  | spawned
  | unspawned
  | started
  | startedAgain
  | deed (deed : Exchange.Deed)
  | stopped
  | stoppedAgain
  | emptied
  | shut (id : Nat)
  | finished
  deriving DecidableEq

end Listener

structure Listener where
  exchange : Exchange
  opening : Listener.Opening
  stopper : Listener.Stopper

namespace Listener

def start : Listener :=
  ⟨.start, .unopened, .away⟩

def Accepts : Exchange.Deed → Prop
  | .admitted | .turnedAway | .registered _ | .ended => True
  | deed => deed.greets

def Locks (h : Exchange) : Exchange.Deed → Prop
  | .registered _ | .left _ | .called _ => True
  | .returned number => ∃ message copied round,
      h.calls number = some (.sending message copied round) ∧ round.failed ≠ []
  | _ => False

inductive Step (l : Listener) : Move → Listener → Prop where
  | spawned (first : l.opening = .unopened) : Step l .spawned { l with opening := .spawned }
  -- No thread could be had: no one will ever be accepted.
  | unspawned (next : Exchange) (first : l.opening = .unopened) (ended : Exchange.Step l.exchange .ended next) :
      Step l .unspawned { l with exchange := next, opening := .started }
  | started (spawned : l.opening = .spawned) : Step l .started { l with opening := .started }
  | startedAgain (again : l.opening ≠ .unopened) : Step l .startedAgain l
  | deed (deed : Exchange.Deed) (next : Exchange) (step : Exchange.Step l.exchange deed next)
      (others : deed ≠ .halted ∧ deed ≠ .disposed) (opened : Accepts deed → l.opening ≠ .unopened)
      (free : Locks l.exchange deed → ∀ rest, l.stopper ≠ .draining rest) :
      Step l (.deed deed) { l with exchange := next }
  -- He stops after the start has returned; only the first one does anything.
  | stopped (next : Exchange) (started : l.opening = .started) (halted : Exchange.Step l.exchange .halted next) :
      Step l .stopped { l with exchange := next, stopper := .joining }
  | stoppedAgain (stopping : l.exchange.stopping = true) : Step l .stoppedAgain l
  | emptied (joining : l.stopper = .joining) (ended : l.exchange.reception = .ended) :
      Step l .emptied
        { l with exchange := { l.exchange with members := [] }, stopper := .draining l.exchange.members }
  | shut (id : Nat) (rest : List Nat) (line : Line) (draining : l.stopper = .draining (id :: rest))
      (there : l.exchange.lines id = some line) :
      Step l (.shut id) { l with exchange := l.exchange.setLine id line.close, stopper := .draining rest }
  | finished (drained : l.stopper = .draining []) : Step l .finished { l with stopper := .done }

-- Whose operation is about to shut the client down: that of the accepting thread, which has removed a client
-- whose greeting has failed, or that of the one who stops.
def Removing (l : Listener) (id : Nat) : Prop :=
  l.exchange.reception = .closing id ∨ ∃ rest, l.stopper = .draining rest ∧ id ∈ rest

def Accounted (l : Listener) (id : Nat) (line : Line) : Prop :=
  id ∈ l.exchange.members ∨ line.isOpen = false ∨ l.Removing id

structure Closed (h : Exchange) : Prop where
  ended : h.reception = .ended
  members : h.members = []

def Shut (h : Exchange) (id : Nat) : Prop :=
  ∃ line, h.lines id = some line ∧ line.isOpen = false

structure Sound (l : Listener) : Prop where
  roll : l.exchange.Roll
  pruned : l.exchange.Pruned
  stopping : l.exchange.stopping = true ↔ l.stopper ≠ .away
  accounted : ∀ id line, l.exchange.lines id = some line → l.Accounted id line
  drained : ∀ rest, l.stopper = .draining rest →
    Closed l.exchange ∧ ∀ id ∈ rest, (l.exchange.lines id).isSome = true
  done : l.stopper = .done → Closed l.exchange

section Steps

variable {h k : Exchange} {deed : Exchange.Deed} {id : Nat}

theorem closed_step (closed : Closed h) (step : Exchange.Step h deed k) : Closed k := by
  obtain ⟨ended, members⟩ := closed
  cases step with
  | admitted now | ended now | turnedAway now | registered _ now | greeted _ _ _ _ _ _ _ _ now
  | stumbled _ _ _ _ now | left _ now | shutOut _ _ now | welcomed _ now => cases ended.symm.trans now
  | called | refused | wrote | shut | halted => exact ⟨ended, members⟩
  | returned => exact ⟨ended, by simp [Exchange.setCall, Exchange.without, members]⟩
  | disposed => exact ⟨ended, rfl⟩

theorem closing_step (closing : h.reception = .closing id) (step : Exchange.Step h deed k) :
    k.reception = .closing id ∨ Shut k id := by
  cases step with
  | admitted now | ended now | turnedAway now | registered _ now | greeted _ _ _ _ _ _ _ _ now
  | stumbled _ _ _ _ now | left _ now | welcomed _ now => cases closing.symm.trans now
  | shutOut _ line now =>
    cases closing.symm.trans now
    exact .inr ⟨line.close, Exchange.setLine_same .., rfl⟩
  | called | refused | wrote | shut | returned | halted | disposed => exact .inl closing

-- Who is no longer in the set is shut down, or the accepting thread is about to do so.
theorem member_step (pruned : h.Pruned) (roll : h.Roll) (step : Exchange.Step h deed k)
    (others : deed ≠ .disposed) (member : id ∈ h.members) :
    id ∈ k.members ∨ Shut k id ∨ k.reception = .closing id := by
  have turn := Exchange.members_step step
  generalize same : k.members = members at turn
  cases turn with
  | kept => exact .inl member
  | registered => exact .inl (List.mem_append_left _ member)
  | left own leaving =>
    by_cases mine : id = own
    next =>
      subst mine
      cases step with
      | left => exact .inr (.inr rfl)
    next => exact .inl (by simp [member, mine])
  | returned number message copied round under_way =>
    by_cases failed : id ∈ round.failed
    next =>
      exact .inr (.inl (Exchange.shut_later roll step
        (pruned.shut number message copied round under_way id failed)))
    next => exact .inl (by simp [member, failed])
  | disposed => exact absurd rfl others

theorem stopping_step (step : Exchange.Step h deed k) (others : deed ≠ .halted) : k.stopping = h.stopping := by
  cases step with
  | halted => exact absurd rfl others
  | _ => rfl

end Steps

section Shutting

variable {h : Exchange} {id other : Nat} {line : Line}

theorem setLine_known (there : (h.lines other).isSome = true) :
    ((h.setLine id line).lines other).isSome = true := by
  by_cases same : other = id
  next => rw [same, Exchange.setLine_same, Option.isSome_some]
  next => rwa [Exchange.setLine_other _ _ _ same]

theorem roll_shut (roll : h.Roll) (there : h.lines id = some line) : (h.setLine id line.close).Roll where
  numbered := by
    intro other found known
    by_cases same : other = id
    next => exact same ▸ roll.numbered id line there
    next => exact roll.numbered other found (by rwa [Exchange.setLine_other _ _ _ same] at known)
  single := roll.single
  members := fun other member => setLine_known (roll.members other member)
  copied := fun number message copied round under_way other inside =>
    setLine_known (roll.copied number message copied round under_way other inside)
  received := fun other served => setLine_known (roll.received other served)

theorem shut_shut (shut : Shut h other) (id : Nat) (line : Line) : Shut (h.setLine id line.close) other := by
  by_cases same : other = id
  next => exact ⟨line.close, same ▸ Exchange.setLine_same .., rfl⟩
  next =>
    obtain ⟨found, known, closed⟩ := shut
    exact ⟨found, (Exchange.setLine_other _ _ _ same).trans known, closed⟩

theorem pruned_shut (pruned : h.Pruned) (id : Nat) (line : Line) : (h.setLine id line.close).Pruned where
  shut := fun number message copied round under_way other inside =>
    shut_shut (pruned.shut number message copied round under_way other inside) id line
  gone := fun number message copied failed returned other inside =>
    have ⟨out, shut⟩ := pruned.gone number message copied failed returned other inside
    ⟨out, shut_shut shut id line⟩

theorem roll_emptied (roll : h.Roll) : Exchange.Roll { h with members := [] } :=
  ⟨roll.numbered, .nil, nofun, roll.copied, roll.received⟩

theorem pruned_emptied (pruned : h.Pruned) : Exchange.Pruned { h with members := [] } where
  shut := pruned.shut
  gone := fun number message copied failed returned other inside =>
    ⟨List.not_mem_nil, (pruned.gone number message copied failed returned other inside).2⟩

end Shutting

section Soundness

variable {l m : Listener} {move : Move} {moves : List Move} {deed : Exchange.Deed} {next : Exchange} {id : Nat}
  {line : Line}

theorem start_sound : Sound start where
  roll := Exchange.start_roll
  pruned := ⟨nofun, nofun⟩
  stopping := ⟨nofun, fun going => absurd rfl going⟩
  accounted := nofun
  drained := nofun
  done := nofun

theorem accounted_later (sound : Sound l) (step : Exchange.Step l.exchange deed next)
    (others : deed ≠ .disposed) (opening : Opening) (there : next.lines id = some line) :
    Accounted ⟨next, opening, l.stopper⟩ id line := by
  have is_shut (shut : Shut next id) : Accounted ⟨next, opening, l.stopper⟩ id line := by
    obtain ⟨found, known, closed⟩ := shut
    cases there.symm.trans known
    exact .inr (.inl closed)
  rcases Exchange.line_new step there with ⟨old, before⟩ | ⟨rfl, rfl, -⟩
  next =>
    rcases sound.accounted id old before with member | closed | closing | draining
    next =>
      rcases member_step sound.pruned sound.roll step others member with still | shut | closing
      next => exact .inl still
      next => exact is_shut shut
      next => exact .inr (.inr (.inl closing))
    next => exact is_shut (Exchange.shut_later sound.roll step ⟨old, before, closed⟩)
    next =>
      rcases closing_step closing step with still | shut
      next => exact .inr (.inr (.inl still))
      next => exact is_shut shut
    next => exact .inr (.inr (.inr draining))
  next =>
    cases step with
    | registered => exact .inl (List.mem_append_right _ (List.mem_singleton_self _))

theorem sound_deed (sound : Sound l) (step : Exchange.Step l.exchange deed next)
    (others : deed ≠ .halted ∧ deed ≠ .disposed) (opening : Opening) :
    Sound ⟨next, opening, l.stopper⟩ where
  roll := Exchange.roll_step sound.roll step
  pruned := Exchange.pruned_step sound.roll sound.pruned step
  stopping := by rw [stopping_step step others.1, sound.stopping]
  accounted := fun _ _ there => accounted_later sound step others.2 opening there
  drained := fun rest draining =>
    have ⟨closed, known⟩ := sound.drained rest draining
    ⟨closed_step closed step, fun id inside => Exchange.line_later sound.roll step (known id inside)⟩
  done := fun done => closed_step (sound.done done) step

theorem sound_step (sound : Sound l) (step : Step l move m) : Sound m := by
  have going_on {stopper : Stopper} (before : l.stopper ≠ .away) (after : stopper ≠ .away) :
      l.exchange.stopping = true ↔ stopper ≠ .away := by
    simp [sound.stopping.mpr before, after]
  cases step with
  | spawned | started =>
    exact ⟨sound.roll, sound.pruned, sound.stopping, sound.accounted, sound.drained, sound.done⟩
  | startedAgain | stoppedAgain => exact sound
  | unspawned next first ended => exact sound_deed sound ended ⟨nofun, nofun⟩ .started
  | deed deed next step others => exact sound_deed sound step others l.opening
  | stopped next started halted =>
    have roll := Exchange.roll_step sound.roll halted
    have pruned := Exchange.pruned_step sound.roll sound.pruned halted
    have kept (id : Nat) (line : Line) (there : next.lines id = some line) :=
      accounted_later sound halted nofun l.opening there
    cases halted with
    | halted running =>
      have away : l.stopper = .away := by
        by_contra going
        cases running.symm.trans (sound.stopping.mpr going)
      refine ⟨roll, pruned, ⟨fun _ => nofun, fun _ => rfl⟩, fun id line there => ?_, nofun, nofun⟩
      rcases kept id line there with member | closed | closing | ⟨rest, draining, -⟩
      next => exact .inl member
      next => exact .inr (.inl closed)
      next => exact .inr (.inr (.inl closing))
      next => cases away.symm.trans draining
  | emptied joining ended =>
    refine ⟨roll_emptied sound.roll, pruned_emptied sound.pruned,
      going_on (by rw [joining]; exact nofun) nofun, fun id line there => ?_, ?_, nofun⟩
    next =>
      rcases sound.accounted id line there with member | closed | closing | ⟨rest, draining, -⟩
      next => exact .inr (.inr (.inr ⟨_, rfl, member⟩))
      next => exact .inr (.inl closed)
      next => cases ended.symm.trans closing
      next => cases joining.symm.trans draining
    next =>
      rintro _ ⟨⟩
      exact ⟨⟨ended, rfl⟩, sound.roll.members⟩
  | shut own rest found draining known =>
    obtain ⟨closed, there⟩ := sound.drained _ draining
    refine ⟨roll_shut sound.roll known, pruned_shut sound.pruned own found,
      going_on (by rw [draining]; exact nofun) nofun, fun id line now => ?_, ?_, nofun⟩
    next =>
      by_cases same : id = own
      next =>
        subst same
        rw [Exchange.setLine_same] at now
        cases now
        exact .inr (.inl rfl)
      next =>
        rw [Exchange.setLine_other _ _ _ same] at now
        rcases sound.accounted id line now with member | shut | closing | ⟨all, going, inside⟩
        next => exact .inl member
        next => exact .inr (.inl shut)
        next => exact .inr (.inr (.inl closing))
        next =>
          cases draining.symm.trans going
          exact .inr (.inr (.inr ⟨rest, rfl, (List.mem_cons.mp inside).resolve_left same⟩))
    next =>
      rintro _ ⟨⟩
      exact ⟨⟨closed.ended, closed.members⟩,
        fun id inside => setLine_known (there id (List.mem_cons_of_mem _ inside))⟩
  | finished drained =>
    refine ⟨sound.roll, sound.pruned, going_on (by rw [drained]; exact nofun) nofun,
      fun id line there => ?_, nofun, fun _ => (sound.drained [] drained).1⟩
    rcases sound.accounted id line there with member | closed | closing | ⟨rest, draining, inside⟩
    next => exact .inl member
    next => exact .inr (.inl closed)
    next => exact .inr (.inr (.inl closing))
    next =>
      cases drained.symm.trans draining
      cases inside

theorem trace_sound (trace : Trace Step start moves l) : Sound l :=
  trace.keeps (fun _ _ _ sound step => sound_step sound step) start_sound

theorem Sound.shut (sound : Sound l) (done : l.stopper = .done) (there : l.exchange.lines id = some line) :
    line.isOpen = false := by
  obtain ⟨ended, members⟩ := sound.done done
  rcases sound.accounted id line there with member | closed | closing | ⟨rest, draining, -⟩
  next =>
    rw [members] at member
    cases member
  next => exact closed
  next => cases ended.symm.trans closing
  next => cases done.symm.trans draining

theorem known_step (sound : Sound l) (step : Step l move m) (there : (l.exchange.lines id).isSome = true) :
    (m.exchange.lines id).isSome = true := by
  cases step with
  | spawned | started | startedAgain | stoppedAgain | emptied | finished => exact there
  | unspawned _ _ step | deed _ _ step | stopped _ _ step => exact Exchange.line_later sound.roll step there
  | shut => exact setLine_known there

theorem registered_known (trace : Trace Step start moves l) (inside : .deed (.registered id) ∈ moves) :
    ∃ line, l.exchange.lines id = some line := by
  rw [← Option.isSome_iff_exists]
  induction trace with
  | start => cases inside
  | next trace last ih =>
    rcases List.mem_append.mp inside with before | own
    next => exact known_step (trace_sound trace) last (ih before)
    next =>
      cases List.mem_singleton.mp own
      cases last with
      | deed _ _ step => exact Exchange.registered_line step

end Soundness

section Afterwards

variable {l m n : Listener} {move : Move} {moves later : List Move}

/-- After he has returned: no one comes, and nothing more gets to anyone. -/
structure Quiet (l m : Listener) (later : List Move) : Prop where
  members : m.exchange.members = []
  lines : ∀ id line, l.exchange.lines id = some line →
    ∃ last, m.exchange.lines id = some last ∧ last.isOpen = false ∧ last.sent = line.sent
  unregistered : ∀ id, .deed (.registered id) ∉ later
  ungreeted : ∀ id piece arrived, .deed (.greeted id piece arrived) ∉ later
  failed : ∀ number id piece arrived, .deed (.wrote number id piece arrived) ∈ later → arrived = false

theorem done_step (sound : Sound l) (done : l.stopper = .done) (step : Step l move m) : m.stopper = .done := by
  cases step with
  | spawned | unspawned | started | startedAgain | deed | stoppedAgain => exact done
  | stopped _ _ halted =>
    cases halted with
    | halted running =>
      have stopping := sound.stopping.mpr (by rw [done]; exact nofun)
      cases running.symm.trans stopping
  | emptied now | shut _ _ _ now | finished now => cases done.symm.trans now

theorem line_quiet (sound : Sound l) (done : l.stopper = .done) (step : Step l move m) {id : Nat} {line : Line}
    (there : l.exchange.lines id = some line) :
    ∃ last, m.exchange.lines id = some last ∧ last.isOpen = false ∧ last.sent = line.sent := by
  have shut := sound.shut done there
  cases step with
  | spawned | started | startedAgain | stoppedAgain | emptied | finished => exact ⟨line, there, shut, rfl⟩
  | unspawned _ _ step | deed _ _ step | stopped _ _ step =>
    obtain ⟨last, known, turn⟩ := Exchange.line_step sound.roll.numbered step there
    exact ⟨last, known, turn.onward.shut shut⟩
  | shut _ _ _ now => cases done.symm.trans now

theorem quiet_step (sound : Sound l) (done : l.stopper = .done) (step : Step l move m) : Quiet l m [move] where
  members := ((sound_step sound step).done (done_step sound done step)).members
  lines := fun _ _ there => line_quiet sound done step there
  unregistered := by
    intro id inside
    cases List.mem_singleton.mp inside
    cases step with
    | deed _ _ step =>
      cases step with
      | registered due admitted => cases (sound.done done).ended.symm.trans admitted
  ungreeted := by
    intro id piece arrived inside
    cases List.mem_singleton.mp inside
    cases step with
    | deed _ _ step =>
      cases step with
      | greeted _ _ _ _ _ _ _ _ greeting => cases (sound.done done).ended.symm.trans greeting
  failed := by
    intro number id piece arrived inside
    cases List.mem_singleton.mp inside
    cases step with
    | deed _ _ step =>
      cases step with
      | wrote _ _ _ _ _ _ _ _ _ _ _ _ _ there _ writes => exact writes.failed (sound.shut done there)

theorem Quiet.trans {first second : List Move} (one : Quiet l m first) (two : Quiet m n second) :
    Quiet l n (first ++ second) where
  members := two.members
  lines := by
    intro id line there
    obtain ⟨middle, known, -, sent⟩ := one.lines id line there
    obtain ⟨last, now, shut, same⟩ := two.lines id middle known
    exact ⟨last, now, shut, same.trans sent⟩
  unregistered := fun id inside =>
    (List.mem_append.mp inside).elim (one.unregistered id) (two.unregistered id)
  ungreeted := fun id piece arrived inside =>
    (List.mem_append.mp inside).elim (one.ungreeted id piece arrived) (two.ungreeted id piece arrived)
  failed := fun number id piece arrived inside =>
    (List.mem_append.mp inside).elim (one.failed number id piece arrived) (two.failed number id piece arrived)

theorem quiet_run (sound : Sound l) (done : l.stopper = .done) (trace : Trace Step l later m) :
    Sound m ∧ m.stopper = .done ∧ Quiet l m later := by
  induction trace with
  | start =>
    exact ⟨sound, done, (sound.done done).members,
      fun id line there => ⟨line, there, sound.shut done there, rfl⟩, nofun, nofun, nofun⟩
  | next _ last ih =>
    obtain ⟨sound, done, quiet⟩ := ih
    exact ⟨sound_step sound last, done_step sound done last, quiet.trans (quiet_step sound done last)⟩

end Afterwards

section Finishing

variable {l : Listener} {h k : Exchange} {opening : Opening} {stopper : Stopper}

def Concludes : Move → Prop
  | .stopped | .emptied | .shut _ | .finished | .deed .turnedAway | .deed .ended => True
  | .deed deed => deed.greets
  | _ => False

theorem leads_sound {m : Listener} (leads : Leads Step Concludes l m) (sound : Sound l) : Sound m :=
  leads.keeps (fun _ _ _ sound step => sound_step sound step) sound

theorem greets_cases {deed : Exchange.Deed} (greets : deed.greets) :
    (deed ≠ .halted ∧ deed ≠ .disposed) ∧ Concludes (.deed deed) := by
  cases deed with
  | greeted | stumbled | left | shutOut | welcomed => exact ⟨⟨nofun, nofun⟩, trivial⟩
  | _ => exact greets.elim

theorem greets_lead (opened : opening ≠ .unopened) (free : ∀ rest, stopper ≠ .draining rest)
    (leads : Leads Exchange.Step Exchange.Deed.greets h k) :
    Leads Step Concludes ⟨h, opening, stopper⟩ ⟨k, opening, stopper⟩ := by
  obtain ⟨deeds, trace, all⟩ := leads
  induction trace with
  | start => exact .refl _
  | next _ last ih =>
    obtain ⟨others, concludes⟩ := greets_cases (all _ (List.mem_append_right _ (List.mem_singleton_self _)))
    have before := ih fun deed inside => all deed (List.mem_append_left _ inside)
    exact before.trans (.head (.deed _ _ last others (fun _ => opened) fun _ => free) concludes (.refl _))

theorem idle_finishes (opened : opening ≠ .unopened) (idle : h.reception = .idle) :
    Leads Step Concludes ⟨h, opening, .joining⟩ ⟨h.receive .ended, opening, .joining⟩ :=
  .head (.deed .ended _ (.ended idle) ⟨nofun, nofun⟩ (fun _ => opened) nofun) trivial (.refl _)

theorem joining_ends (roll : h.Roll) (opened : opening ≠ .unopened) :
    ∃ k, Leads Step Concludes ⟨h, opening, .joining⟩ ⟨k, opening, .joining⟩ ∧
      k.reception = .ended := by
  obtain ⟨k, leads, served, -⟩ := Exchange.reception_settles roll
  have settled : Leads Step Concludes ⟨h, opening, .joining⟩ ⟨k, opening, .joining⟩ :=
    greets_lead opened nofun leads
  cases now : k.reception with
  | idle => exact ⟨_, settled.trans (idle_finishes opened now), rfl⟩
  | admitted =>
    have turned : Leads Step Concludes ⟨k, opening, .joining⟩ _ :=
      .head (.deed .turnedAway _ (.turnedAway now) ⟨nofun, nofun⟩ (fun _ => opened) nofun) trivial
        (idle_finishes opened rfl)
    exact ⟨_, settled.trans turned, rfl⟩
  | ended => exact ⟨k, settled, now⟩
  | greeting | leaving | closing =>
    rw [now] at served
    cases served

theorem draining_finishes (rest : List Nat) {l : Listener} (sound : Sound l)
    (draining : l.stopper = .draining rest) : ∃ m, Leads Step Concludes l m ∧ m.stopper = .done := by
  induction rest generalizing l with
  | nil => exact ⟨_, .head (.finished draining) trivial (.refl _), rfl⟩
  | cons id rest ih =>
    obtain ⟨line, there⟩ := Option.isSome_iff_exists.mp ((sound.drained _ draining).2 id List.mem_cons_self)
    have shut : Step l _ _ := .shut id rest line draining there
    obtain ⟨m, leads, done⟩ := ih (sound_step sound shut) rfl
    exact ⟨m, .head shut trivial leads, done⟩

theorem joining_finishes (sound : Sound l) (started : l.opening = .started) (joining : l.stopper = .joining) :
    ∃ m, Leads Step Concludes l m ∧ m.stopper = .done := by
  obtain ⟨h, opening, stopper⟩ := l
  cases started
  cases joining
  have opened : Opening.started ≠ .unopened := nofun
  obtain ⟨k, leads, ended⟩ := joining_ends sound.roll opened
  have later : Sound ⟨k, .started, .joining⟩ := leads_sound leads sound
  have emptied : Step ⟨k, .started, .joining⟩ _ _ := .emptied rfl ended
  obtain ⟨m, rest, done⟩ := draining_finishes _ (sound_step later emptied) rfl
  exact ⟨m, leads.trans (.head emptied trivial rest), done⟩

theorem stop_finishes (sound : Sound l) (started : l.opening = .started) :
    ∃ m, Leads Step Concludes l m ∧ m.stopper = .done := by
  cases stopper : l.stopper with
  | away =>
    have running : l.exchange.stopping = false := by
      rw [← Bool.not_eq_true, sound.stopping, stopper]
      exact fun going => going rfl
    have stopped : Step l _ _ := .stopped _ started (.halted running)
    obtain ⟨m, leads, done⟩ := joining_finishes (sound_step sound stopped) started rfl
    exact ⟨m, .head stopped trivial leads, done⟩
  | joining => exact joining_finishes sound started stopper
  | draining rest => exact draining_finishes rest sound stopper
  | done => exact ⟨l, .refl l, stopper⟩

end Finishing

structure Deserted (l : Listener) (moves : List Move) : Prop where
  members : l.exchange.members = []
  shut : ∀ id, .deed (.registered id) ∈ moves → Shut l.exchange id
  quiet : ∀ later m, Trace Step l later m → Quiet l m later

theorem stop_leaves_no_client {moves : List Move} {l : Listener} (trace : Trace Step start moves l) :
    (∀ id, .deed (.registered id) ∈ moves →
      ∃ line, l.exchange.lines id = some line ∧ l.Accounted id line) ∧
    (l.stopper = .done → l.Deserted moves) ∧
    (l.opening = .started → ∃ m, Leads Step Concludes l m ∧ m.stopper = .done ∧
      ∀ fanout, l.exchange.Shows fanout → fanout.stopped = false →
        m.exchange.members = (Fanout.stop fanout).state.clients.map Client.id) := by
  have sound := trace_sound trace
  refine ⟨fun id inside => ?_, fun done => ⟨(sound.done done).members, fun id inside => ?_,
    fun later m rest => (quiet_run sound done rest).2.2⟩, fun started => ?_⟩
  next =>
    obtain ⟨line, there⟩ := registered_known trace inside
    exact ⟨line, there, sound.accounted id line there⟩
  next =>
    obtain ⟨line, there⟩ := registered_known trace inside
    exact ⟨line, there, sound.shut done there⟩
  next =>
    obtain ⟨m, leads, done⟩ := stop_finishes sound started
    have later := leads_sound leads sound
    refine ⟨m, leads, done, fun fanout _ running => ?_⟩
    rw [(later.done done).members]
    simp [Fanout.stop, running]

/-- One client is in the set, the greeting of a second one is about to fail and a message to both is under way
when the host stops. -/
theorem busy_host_stops : ∃ moves l piece, Trace Step start moves l ∧ l.stopper = .done ∧
    l.Deserted moves ∧ Shut l.exchange 1 ∧ Shut l.exchange 2 ∧
      .deed (.wrote 1 1 piece false) ∈ moves := by
  obtain ⟨text, encoded⟩ : ∃ text, (Message.version 7).encode = .ok text := ⟨_, rfl⟩
  obtain ⟨fault, unencoded⟩ : ∃ fault, (Message.error "x" none).encode = .error fault := ⟨_, rfl⟩
  obtain ⟨next, piece, arrived, writes⟩ := Line.fresh.close.exists_writes text
  obtain rfl := writes.failed rfl
  have trace := trace_single (.spawned rfl : Step start _ _)
    |>.next (.started rfl)
    |>.next (.deed .admitted _ (.admitted rfl rfl) ⟨nofun, nofun⟩ (fun _ => nofun) nofun)
    |>.next (.deed (.registered 1) _ (.registered [] rfl) ⟨nofun, nofun⟩ (fun _ => nofun) fun _ => nofun)
    |>.next (.deed (.welcomed 1) _ (.welcomed 1 rfl) ⟨nofun, nofun⟩ (fun _ => nofun) nofun)
    |>.next (.deed .admitted _ (.admitted rfl rfl) ⟨nofun, nofun⟩ (fun _ => nofun) nofun)
    |>.next (.stopped _ rfl (.halted rfl))
    |>.next (.deed (.registered 2) _ (.registered [.error "x" none] rfl) ⟨nofun, nofun⟩ (fun _ => nofun)
      fun _ => nofun)
    |>.next (.deed (.called 1) _ (.called 1 (.version 7) text rfl encoded) ⟨nofun, nofun⟩ nofun
      fun _ => nofun)
    |>.next (.deed (.stumbled 2) _ (.stumbled 2 _ _ fault rfl unencoded) ⟨nofun, nofun⟩ (fun _ => nofun)
      nofun)
    |>.next (.deed (.left 2) _ (.left 2 rfl) ⟨nofun, nofun⟩ (fun _ => nofun) fun _ => nofun)
    |>.next (.deed (.shutOut 2) _ (.shutOut 2 .fresh rfl rfl) ⟨nofun, nofun⟩ (fun _ => nofun) nofun)
    |>.next (.deed .ended _ (.ended rfl) ⟨nofun, nofun⟩ (fun _ => nofun) nofun)
    |>.next (.emptied rfl rfl)
    |>.next (.shut 1 [] .fresh rfl rfl)
    |>.next (.deed (.wrote 1 1 piece false) _ (.wrote 1 (.version 7) [1, 2] _ 1 [2] (Line.close .fresh) next
      piece false rfl rfl rfl rfl nofun writes) ⟨nofun, nofun⟩ nofun nofun)
    |>.next (.finished rfl)
  have deserted := (stop_leaves_no_client trace).2.1 rfl
  exact ⟨_, _, piece, trace, rfl, deserted, deserted.shut 1 (by simp), deserted.shut 2 (by simp), by simp⟩

end Listener

end TemplateSync
