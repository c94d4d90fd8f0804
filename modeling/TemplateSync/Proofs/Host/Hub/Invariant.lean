import TemplateSync.Proofs.Host.Hub

set_option autoImplicit false

namespace TemplateSync

variable {σ : Type} {workspace : Workspace σ} {protocol : Int32} {worlds : List σ}

theorem version_kept {more : List σ} (longer : worlds <+: more) {version : Nat} {world : σ}
    (there : worlds[version]? = some world) : more[version]? = some world := by
  obtain ⟨rest, rfl⟩ := longer
  rw [List.getElem?_append_left (List.getElem?_eq_some_iff.mp there).1]
  exact there

def Entry.Holds (workspace : Workspace σ) (worlds : List σ) (entry : Entry) : Prop :=
  entry.message.IsBroadcast ∧ ∃ world, worlds[entry.version]? = some world ∧
    ∀ projects, entry.message = .solution projects → projects = workspace.projects world

theorem Entry.Holds.later {more : List σ} {entry : Entry} (holds : entry.Holds workspace worlds)
    (longer : worlds <+: more) : entry.Holds workspace more := by
  obtain ⟨broadcast, world, there, right⟩ := holds
  exact ⟨broadcast, world, version_kept longer there, right⟩

namespace Peer

/-- What one client was written, as long as no write to it has failed, is the beginning of its greeting and then
messages of deliveries. -/
structure Sound (workspace : Workspace σ) (protocol : Int32) (worlds : List σ) (peer : Peer) :
    Prop where
  greeting : ∃ changes world, worlds[changes]? = some world ∧
    peer.greeting = Hub.greetingAt workspace protocol changes world
  entries : ∀ entry ∈ peer.line, entry.Holds workspace worlds
  greeted : peer.failed = false → ∃ sent, peer.line = peer.greeting ++ sent ∧
    (∀ entry ∈ sent, entry.call.isSome = true) ∧ (peer.due ≠ [] → sent = [])
  whole : peer.failed = false → ∃ spelled, Frame.Frames spelled peer.client.written ∧
    spelled.map Message.read = peer.told.map Entry.message

theorem Sound.later {peer : Peer} (sound : peer.Sound workspace protocol worlds) {more : List σ}
    (longer : worlds <+: more) : peer.Sound workspace protocol more where
  greeting := by
    obtain ⟨changes, world, there, same⟩ := sound.greeting
    exact ⟨changes, world, version_kept longer there, same⟩
  entries := fun entry inside => (sound.entries entry inside).later longer
  greeted := sound.greeted
  whole := sound.whole

theorem greetingAt_holds {changes : Nat} {world : σ} (there : worlds[changes]? = some world) :
    ∀ entry ∈ Hub.greetingAt workspace protocol changes world, entry.Holds workspace worlds := by
  simp only [Hub.greetingAt, Workspace.greeting, List.map_cons, List.map_nil, List.mem_cons,
    List.not_mem_nil, or_false, forall_eq_or_imp, forall_eq]
  refine ⟨⟨trivial, world, there, nofun⟩, trivial, world, there, ?_⟩
  rintro projects ⟨⟩
  rfl

theorem fresh_sound (id : Nat) {changes : Nat} {world : σ} (there : worlds[changes]? = some world) :
    (fresh id (Hub.greetingAt workspace protocol changes world)).Sound workspace protocol worlds where
  greeting := ⟨changes, world, there, rfl⟩
  entries := greetingAt_holds there
  greeted := fun _ => ⟨[], (List.append_nil _).symm, nofun, fun _ => rfl⟩
  whole := fun _ => ⟨[], .none, rfl⟩

theorem whole_took {peer : Peer} {entry : Entry} {text : String} {next : Client} {spelled : List String}
    (broadcast : entry.message.IsBroadcast) (encoded : entry.message.encode = .ok text)
    (written : peer.client.write text = .ok next)
    (frames : Frame.Frames spelled peer.client.written)
    (same : spelled.map Message.read = peer.told.map Entry.message) :
    ∃ spelled, Frame.Frames spelled next.written ∧
      spelled.map Message.read = (peer.told ++ [entry]).map Entry.message := by
  obtain ⟨_, _, frame, framed, rfl⟩ := Client.write_ok written
  refine ⟨spelled ++ [text], frames.snoc text frame framed, ?_⟩
  rw [List.map_append, List.map_append, same, List.map_singleton, List.map_singleton,
    Message.read_encode broadcast encoded]

theorem Sound.greet {peer : Peer} (sound : peer.Sound workspace protocol worlds) {entry : Entry}
    {due : List Entry} {text : String} {next : Client} {arrived : Bool} (turn : peer.due = entry :: due)
    (encoded : entry.message.encode = .ok text) (trial : peer.client.Trial text next arrived) :
    ({ peer with due := if arrived then due else [] }.took entry next arrived).Sound workspace
      protocol worlds := by
  have here : peer.line = peer.told ++ entry :: due := by rw [line, turn]
  cases arrived with
  | true =>
    have moved : ({ peer with due := due }.took entry next true).line = peer.line := by
      rw [here]
      exact List.append_cons .. |>.symm
    refine ⟨sound.greeting, ?_, ?_, ?_⟩
    next => exact fun one inside => sound.entries one (moved ▸ inside)
    next =>
      intro sane
      obtain ⟨sent, whole, calls, none⟩ := sound.greeted (by simpa [took] using sane)
      exact ⟨sent, moved.trans whole, calls, fun _ => none (by simp [turn])⟩
    next =>
      intro sane
      obtain ⟨spelled, frames, same⟩ := sound.whole (by simpa [took] using sane)
      have broadcast := (sound.entries entry (by simp [here])).1
      exact whole_took broadcast encoded trial.write frames same
  | false =>
    refine ⟨sound.greeting, ?_, ?_, ?_⟩
    next =>
      intro one inside
      refine sound.entries one (List.mem_append_left _ ?_)
      simpa [took, line] using inside
    next => simp [took]
    next => simp [took]

theorem Sound.serve {peer : Peer} (sound : peer.Sound workspace protocol worlds) {entry : Entry}
    {text : String} {next : Client} {arrived : Bool} (greeted : peer.due = [])
    (holds : entry.Holds workspace worlds) (delivered : entry.call.isSome = true)
    (encoded : entry.message.encode = .ok text) (trial : peer.client.Trial text next arrived) :
    (peer.took entry next arrived).Sound workspace protocol worlds := by
  cases arrived with
  | true =>
    have longer : (peer.took entry next true).line = peer.line ++ [entry] := by
      simp [line, took, greeted]
    refine ⟨sound.greeting, ?_, ?_, ?_⟩
    next =>
      intro one inside
      rw [longer, List.mem_append, List.mem_singleton] at inside
      rcases inside with before | rfl
      next => exact sound.entries one before
      next => exact holds
    next =>
      intro sane
      obtain ⟨sent, whole, calls, _⟩ := sound.greeted (by simpa [took] using sane)
      refine ⟨sent ++ [entry], by rw [longer, whole, List.append_assoc]; rfl, ?_, ?_⟩
      next => simpa [or_imp, forall_and] using ⟨calls, delivered⟩
      next => exact fun due => absurd greeted due
    next =>
      intro sane
      obtain ⟨spelled, frames, same⟩ := sound.whole (by simpa [took] using sane)
      exact whole_took holds.1 encoded trial.write frames same
  | false =>
    refine ⟨sound.greeting, ?_, ?_, ?_⟩
    next => exact fun one inside => sound.entries one (by simpa [took, line] using inside)
    next => simp [took]
    next => simp [took]

theorem Sound.keep {peer : Peer} (sound : peer.Sound workspace protocol worlds) {client : Client}
    (same : client.written = peer.client.written) :
    ({ peer with client := client } : Peer).Sound workspace protocol worlds where
  greeting := sound.greeting
  entries := sound.entries
  greeted := sound.greeted
  whole := fun sane => by
    obtain ⟨spelled, frames, read⟩ := sound.whole sane
    exact ⟨spelled, same ▸ frames, read⟩

end Peer

def Peer.Ordered (peer : Peer) : Prop :=
  peer.line.Pairwise fun earlier later =>
    earlier.isList = true → later.isList = true → earlier.version ≤ later.version

structure Call.Sound (workspace : Workspace σ) (worlds : List σ) (number : Nat) (call : Call) :
    Prop where
  entry : call.entry.Holds workspace worlds
  own : call.entry.call = some number
  encoded : call.entry.message.encode = .ok call.round.text
  copied : ∀ id ∈ call.round.waiting, id ∈ call.copied
  finished : call.returned = true → call.round.waiting = []

namespace Hub

variable {h k : Hub σ} {deed : Deed} {id : Nat} {old new : Peer}

def Lost (h : Hub σ) (id : Nat) : Prop :=
  ∃ peer, h.peers id = some peer ∧ peer.failed = true

namespace Change

theorem failed (change : Change h deed id old new) (past : old.failed = true) :
    new.failed = true := by
  cases change with
  | kept => exact past
  | greeted | wrote => simp [Peer.took, past]

theorem told (change : Change h deed id old new) : old.told <+: new.told := by
  cases change with
  | kept => exact List.prefix_rfl
  | greeted _ _ _ _ arrived | wrote _ _ _ _ arrived =>
    cases arrived with
    | true => exact List.prefix_append ..
    | false => exact List.prefix_rfl

theorem named (change : Change h deed id old new) : new.client.id = old.client.id := by
  cases change with
  | kept _ _ named => exact named
  | greeted _ _ _ _ _ _ _ _ trial | wrote _ _ _ _ _ _ _ _ _ trial => exact trial.same_id

theorem greeting (change : Change h deed id old new) : new.greeting = old.greeting := by
  cases change with
  | kept | greeted | wrote => rfl

theorem lost (change : Change h deed id old new)
    (away : deed = .greeted id false ∨ ∃ number, deed = .wrote number id false) :
    new.failed = true := by
  cases change with
  | kept _ aside => rcases away with rfl | ⟨_, rfl⟩ <;> exact absurd rfl aside
  | greeted _ _ _ _ arrived own =>
    rcases away with rfl | ⟨_, rfl⟩
    next =>
      cases own
      simp [Peer.took]
    next => cases own
  | wrote _ _ _ _ arrived own =>
    rcases away with rfl | ⟨_, rfl⟩
    next => cases own
    next =>
      cases own
      simp [Peer.took]

end Change

section Roll

structure Roll (h : Hub σ) : Prop where
  numbered : ∀ id peer, h.peers id = some peer → id < h.nextId
  named : ∀ id peer, h.peers id = some peer → peer.client.id = id
  distinct : h.members.Nodup
  known : ∀ id ∈ h.members, ∃ peer, h.peers id = some peer
  member : ∀ id peer, h.peers id = some peer → peer.failed = false → id ∈ h.members
  leaving : ∀ id, h.reception = .leaving id → h.Lost id
  losers : ∀ number call, h.calls number = some call →
    ∀ id, call.round.failing = some id ∨ id ∈ call.round.failed → h.Lost id
  served : ∀ id, h.reception.client? = some id → ∃ peer, h.peers id = some peer

theorem start_roll (world : σ) : (start world).Roll :=
  ⟨nofun, nofun, .nil, nofun, nofun, nofun, nofun, nofun⟩

theorem lost_step (roll : h.Roll) (step : Step workspace protocol h deed k) (lost : h.Lost id) :
    k.Lost id := by
  obtain ⟨old, there, failed⟩ := lost
  obtain ⟨new, now, change⟩ := peer_step roll.numbered step there
  exact ⟨new, now, change.failed failed⟩

theorem write_lost (roll : h.Roll) (step : Step workspace protocol h deed k)
    (away : deed = .greeted id false ∨ ∃ number, deed = .wrote number id false) : k.Lost id := by
  have target : deed.target? = some id := by rcases away with rfl | ⟨_, rfl⟩ <;> rfl
  obtain ⟨old, there⟩ := target_known step target
  obtain ⟨new, now, change⟩ := peer_step roll.numbered step there
  exact ⟨new, now, change.lost away⟩

theorem registered_member (step : Step workspace protocol h (.registered id) k) :
    id ∈ k.members ∧ ∃ peer, k.peers id = some peer := by
  cases step
  simp [register]

theorem losers_step (roll : h.Roll) (step : Step workspace protocol h deed k) {number : Nat}
    {call : Call} (there : k.calls number = some call)
    (loser : call.round.failing = some id ∨ id ∈ call.round.failed) : k.Lost id := by
  rcases call_new step there with ⟨old, before⟩ | begun
  next =>
    obtain ⟨new, now, turn⟩ := call_step step before
    cases now.symm.trans there
    have past := roll.losers number old before
    cases turn with
    | kept | returned => exact lost_step roll step (past id loser)
    | wrote own rest arrived same turn calm =>
      rcases loser with failing | failed
      next =>
        cases arrived with
        | true => cases failing
        | false =>
          cases failing
          exact write_lost roll step (.inr ⟨number, same⟩)
      next => exact lost_step roll step (past id (.inr failed))
    | shut own same failing =>
      rcases loser with none | failed
      next => cases none
      next =>
        rcases List.mem_append.mp failed with before | last
        next => exact lost_step roll step (past id (.inr before))
        next =>
          rw [List.mem_singleton.mp last]
          exact lost_step roll step (past own (.inl failing))
  next =>
    cases begun <;> simp [Call.start] at loser

theorem roll_step (roll : h.Roll) (step : Step workspace protocol h deed k) : k.Roll where
  numbered := by
    intro id peer there
    rcases peer_new step there with ⟨old, before⟩ | ⟨rfl, rfl, _⟩
    next => exact (roll.numbered id old before).trans_le (nextId_step step)
    next =>
      cases step
      exact Nat.lt_succ_self _
  named := by
    intro id peer there
    rcases peer_new step there with ⟨old, before⟩ | ⟨_, _, rfl⟩
    next =>
      obtain ⟨_, now, change⟩ := peer_step roll.numbered step before
      cases now.symm.trans there
      exact change.named.trans (roll.named id old before)
    next => rfl
  distinct := by
    rcases members_step step with fewer | ⟨_, more⟩
    next => exact roll.distinct.sublist fewer
    next =>
      rw [more]
      refine List.nodup_append.mpr
        ⟨roll.distinct, List.pairwise_singleton .., fun one before two own => ?_⟩
      obtain ⟨peer, there⟩ := roll.known one before
      rw [List.mem_singleton.mp own]
      exact (roll.numbered one peer there).ne
  known := by
    intro id there
    rcases member_new step there with before | rfl
    next =>
      obtain ⟨old, past⟩ := roll.known id before
      obtain ⟨new, now, _⟩ := peer_step roll.numbered step past
      exact ⟨new, now⟩
    next => exact (registered_member step).2
  member := by
    intro id peer there sane
    rcases peer_new step there with ⟨old, before⟩ | ⟨rfl, _⟩
    next =>
      obtain ⟨new, now, change⟩ := peer_step roll.numbered step before
      cases now.symm.trans there
      have healthy : old.failed = false := by
        by_contra failed
        simp [change.failed (Bool.not_eq_false _ ▸ failed)] at sane
      have standing : ¬h.Lost id := by
        rintro ⟨other, same, failed⟩
        cases before.symm.trans same
        simp [failed] at healthy
      rcases member_step step (roll.member id old before healthy) with
        still | leaving | ⟨number, call, here, failed⟩
      next => exact still
      next => exact absurd (roll.leaving id leaving) standing
      next => exact absurd (roll.losers number call here id (.inr failed)) standing
    next => exact (registered_member step).1
  leaving := by
    intro id leaving
    rcases leaving_step step leaving with before | rfl
    next => exact lost_step roll step (roll.leaving id before)
    next => exact write_lost roll step (.inl rfl)
  losers := fun number call there id loser => losers_step roll step there loser
  served := by
    intro id served
    rcases served_step step served with before | rfl
    next =>
      obtain ⟨old, there⟩ := roll.served id before
      obtain ⟨new, now, _⟩ := peer_step roll.numbered step there
      exact ⟨new, now⟩
    next => exact (registered_member step).2

end Roll

theorem current_version (h : Hub σ) : h.worlds[h.past.length]? = some h.world := by
  simp [worlds]

theorem Begun.sound {number : Nat} {call : Call} (begun : Begun workspace h number deed call) :
    call.Sound workspace h.worlds number := by
  cases begun with
  | snapshot text alone encoded =>
    refine ⟨⟨trivial, h.world, current_version h, ?_⟩, rfl, encoded, fun _ inside => inside, nofun⟩
    rintro projects ⟨⟩
    rfl
  | called content text encoded =>
    exact ⟨⟨trivial, h.world, current_version h, nofun⟩, rfl, encoded, fun _ inside => inside, nofun⟩

theorem call_later {more : List σ} (longer : worlds <+: more) {number : Nat} {call : Call}
    (sound : call.Sound workspace worlds number) : call.Sound workspace more number :=
  { sound with entry := sound.entry.later longer }

theorem Turn.sound {number : Nat} {old new : Call} (turn : Turn deed number old new)
    (sound : old.Sound workspace worlds number) : new.Sound workspace worlds number := by
  cases turn with
  | kept => exact sound
  | wrote id rest arrived own turn calm =>
    refine ⟨sound.entry, sound.own, sound.encoded, fun one inside => sound.copied one ?_, ?_⟩
    next =>
      rw [turn]
      exact .tail _ inside
    next =>
      intro finished
      have none := sound.finished finished
      simp [turn] at none
  | shut => exact { sound with }
  | returned own running done => exact { sound with finished := fun _ => done.1 }

theorem Turn.entry {number : Nat} {old new : Call} (turn : Turn deed number old new) :
    new.entry = old.entry ∧ new.copied = old.copied := by
  cases turn <;> exact ⟨rfl, rfl⟩

theorem Turn.running {number : Nat} {old new : Call} (turn : Turn deed number old new)
    (running : new.returned = false) : old.returned = false := by
  cases turn with
  | kept | wrote | shut => exact running
  | returned => cases running

theorem Turn.waiting {number : Nat} {old new : Call} (turn : Turn deed number old new)
    (waiting : id ∈ new.round.waiting) : id ∈ old.round.waiting := by
  cases turn with
  | kept | shut | returned => exact waiting
  | wrote own rest arrived same turn calm =>
    rw [turn]
    exact .tail _ waiting

theorem Begun.single {number : Nat} {call : Call} (begun : Begun workspace h number deed call)
    (list : call.entry.isList = true) :
    deed = .snapshot number ∧ call.entry = listAt workspace number h.past.length h.world ∧
      ∀ other before, h.calls other = some before → before.entry.isList = true →
        before.returned = true := by
  cases begun with
  | snapshot text alone encoded => exact ⟨rfl, rfl, alone⟩
  | called => cases list

structure Sound (workspace : Workspace σ) (protocol : Int32) (h : Hub σ) : Prop where
  roll : h.Roll
  held : ∀ id peer, h.peers id = some peer → peer.due ≠ [] → h.reception = .greeting id
  peers : ∀ id peer, h.peers id = some peer → peer.Sound workspace protocol h.worlds
  calls : ∀ number call, h.calls number = some call → call.Sound workspace h.worlds number
  received : ∀ number call, h.calls number = some call → ∀ id ∈ call.copied,
    ∃ peer, h.peers id = some peer ∧
      (peer.failed = true ∨ id ∈ call.round.waiting ∨ call.entry ∈ peer.told)
  single : ∀ one two first second, h.calls one = some first → h.calls two = some second →
    first.entry.isList = true → second.entry.isList = true → first.returned = false →
    second.returned = false → one = two
  ordered : ∀ id peer, h.peers id = some peer → peer.Ordered
  -- No list has overtaken one that is still to be written.
  ceiling : ∀ number call, h.calls number = some call → call.entry.isList = true →
    ∀ id ∈ call.round.waiting, ∀ peer, h.peers id = some peer → ∀ entry ∈ peer.line,
      entry.isList = true → entry.version ≤ call.entry.version

theorem start_sound (workspace : Workspace σ) (protocol : Int32) (world : σ) :
    (start world).Sound workspace protocol where
  roll := start_roll world
  held _ _ there := nomatch there
  peers _ _ there := nomatch there
  calls _ _ there := nomatch there
  received _ _ there := nomatch there
  single _ _ _ _ there := nomatch there
  ordered _ _ there := nomatch there
  ceiling _ _ there := nomatch there

section Steps

variable (sound : h.Sound workspace protocol) (step : Step workspace protocol h deed k)

include sound

theorem Sound.settled (there : h.peers id = some old) (free : h.reception ≠ .greeting id) :
    old.due = [] := by
  by_contra due
  exact free (sound.held id old there due)

theorem Sound.line (there : h.peers id = some old) (change : Change h deed id old new) :
    new.line.Sublist old.line ∨ ∃ number call, deed = .wrote number id true ∧
      h.calls number = some call ∧ id ∈ call.round.waiting ∧
      new.line = old.line ++ [call.entry] := by
  cases change with
  | kept => exact .inl (.refl _)
  | greeted entry due text next arrived own turn =>
    left
    cases arrived with
    | true => simp [Peer.line, Peer.took, turn]
    | false => simp [Peer.line, Peer.took]
  | wrote number call rest next arrived own under_way turn free =>
    have settled := sound.settled there free
    cases arrived with
    | true =>
      refine .inr ⟨number, call, own, under_way, by simp [turn], ?_⟩
      simp [Peer.line, Peer.took, settled]
    | false => exact .inl (.refl _)

include step

theorem Sound.held_step (there : k.peers id = some new) (due : new.due ≠ []) :
    k.reception = .greeting id := by
  rcases peer_new step there with ⟨old, before⟩ | ⟨rfl, _, _⟩
  next =>
    obtain ⟨_, now, change⟩ := peer_step sound.roll.numbered step before
    cases now.symm.trans there
    have stays (past : old.due ≠ []) (aside : deed ≠ .greeted id false) :
        k.reception = .greeting id := by
      rcases greeting_step step before (sound.held id old before past) with still | own | none
      next => exact still
      next => exact absurd own aside
      next => exact absurd none past
    cases change with
    | kept _ aside =>
      refine stays due ?_
      rintro rfl
      exact aside rfl
    | greeted entry rest text next arrived own turn =>
      cases arrived with
      | true => exact stays (by simp [turn]) (by simp [own])
      | false => exact absurd rfl due
    | wrote number call rest next arrived own => exact stays due (by simp [own])
  next =>
    cases step
    rfl

theorem Sound.peers_step (there : k.peers id = some new) :
    new.Sound workspace protocol k.worlds := by
  have longer := worlds_step step
  rcases peer_new step there with ⟨old, before⟩ | ⟨_, _, rfl⟩
  next =>
    obtain ⟨_, now, change⟩ := peer_step sound.roll.numbered step before
    cases now.symm.trans there
    have past := (sound.peers id old before).later longer
    cases change with
    | kept client aside named same => exact past.keep same
    | greeted entry due text next arrived own turn encoded trial =>
      exact past.greet turn encoded trial
    | wrote number call rest next arrived own under_way turn free trial =>
      have fits := call_later longer (sound.calls number call under_way)
      exact past.serve (sound.settled before free) fits.entry (by simp [fits.own]) fits.encoded trial
  next => exact Peer.fresh_sound id (version_kept longer (current_version h))

theorem Sound.calls_step {number : Nat} {call : Call} (there : k.calls number = some call) :
    call.Sound workspace k.worlds number := by
  refine call_later (worlds_step step) ?_
  rcases call_new step there with ⟨old, before⟩ | begun
  next =>
    obtain ⟨_, now, turn⟩ := call_step step before
    cases now.symm.trans there
    exact turn.sound (sound.calls number old before)
  next => exact begun.sound

theorem Sound.received_step {number : Nat} {call : Call} (there : k.calls number = some call)
    (copied : id ∈ call.copied) :
    ∃ peer, k.peers id = some peer ∧
      (peer.failed = true ∨ id ∈ call.round.waiting ∨ call.entry ∈ peer.told) := by
  rcases call_new step there with ⟨old, before⟩ | begun
  next =>
    obtain ⟨_, now, turn⟩ := call_step step before
    cases now.symm.trans there
    rw [turn.entry.2] at copied
    obtain ⟨peer, here, past⟩ := sound.received number old before id copied
    obtain ⟨next, present, change⟩ := peer_step sound.roll.numbered step here
    refine ⟨next, present, ?_⟩
    rw [turn.entry.1]
    rcases past with failed | waiting | told
    next => exact .inl (change.failed failed)
    next =>
      cases turn with
      | kept | shut | returned => exact .inr (.inl waiting)
      | wrote own rest arrived same turn calm =>
        rw [turn, List.mem_cons] at waiting
        rcases waiting with rfl | later
        next =>
          -- The client's turn has come: the delivery's own entry is what it was written.
          cases change with
          | kept _ aside =>
            subst same
            exact absurd rfl aside
          | greeted _ _ _ _ _ own => cases same.symm.trans own
          | wrote other call _ _ _ own under_way =>
            cases same.symm.trans own
            cases under_way.symm.trans before
            cases arrived <;> simp [Peer.took]
        next => exact .inr (.inl later)
    next => exact .inr (.inr (change.told.subset told))
  next =>
    have both : call.copied = h.members ∧ call.round.waiting = h.members := by
      cases begun <;> exact ⟨rfl, rfl⟩
    rw [both.1] at copied
    obtain ⟨peer, here⟩ := sound.roll.known id copied
    obtain ⟨next, present, _⟩ := peer_step sound.roll.numbered step here
    exact ⟨next, present, .inr (.inl (both.2 ▸ copied))⟩

theorem Sound.single_step {one two : Nat} {first second : Call}
    (there : k.calls one = some first) (here : k.calls two = some second)
    (list : first.entry.isList = true) (also : second.entry.isList = true)
    (running : first.returned = false) (going : second.returned = false) : one = two := by
  rcases call_new step there with ⟨old, before⟩ | begun
  next =>
    obtain ⟨_, now, turn⟩ := call_step step before
    cases now.symm.trans there
    rw [turn.entry.1] at list
    rcases call_new step here with ⟨past, earlier⟩ | begun
    next =>
      obtain ⟨_, same, other⟩ := call_step step earlier
      cases same.symm.trans here
      rw [other.entry.1] at also
      exact sound.single one two old past before earlier list also (turn.running running)
        (other.running going)
    next =>
      have finished := (begun.single also).2.2 one old before list
      simp [turn.running running] at finished
  next =>
    obtain ⟨rfl, _, alone⟩ := begun.single list
    rcases call_new step here with ⟨past, earlier⟩ | begun
    next =>
      obtain ⟨_, same, other⟩ := call_step step earlier
      cases same.symm.trans here
      rw [other.entry.1] at also
      have finished := alone two past earlier also
      simp [other.running going] at finished
    next =>
      cases (begun.single also).1
      rfl

theorem Sound.ordered_step (there : k.peers id = some new) : new.Ordered := by
  rcases peer_new step there with ⟨old, before⟩ | ⟨_, _, rfl⟩
  next =>
    obtain ⟨_, now, change⟩ := peer_step sound.roll.numbered step before
    cases now.symm.trans there
    have past := sound.ordered id old before
    rcases sound.line before change with shorter | ⟨number, call, _, under_way, waiting, longer⟩
    next => exact past.sublist shorter
    next =>
      rw [Peer.Ordered, longer, List.pairwise_append]
      refine ⟨past, List.pairwise_singleton .., fun entry inside last own => ?_⟩
      rw [List.mem_singleton.mp own]
      exact fun earlier list =>
        sound.ceiling number call under_way list id waiting old before entry inside earlier
  next =>
    refine List.Pairwise.imp_of_mem (R := fun _ _ => True) ?_ (List.pairwise_of_forall fun _ _ => trivial)
    intro one two first second _ _ _
    simp only [Peer.line, Peer.fresh, greetingAt, List.nil_append, List.mem_map] at first second
    obtain ⟨_, _, rfl⟩ := first
    obtain ⟨_, _, rfl⟩ := second
    exact Nat.le_refl _

theorem Sound.ceiling_step {number : Nat} {call : Call} (there : k.calls number = some call)
    (list : call.entry.isList = true) (waiting : id ∈ call.round.waiting)
    (here : k.peers id = some new) {entry : Entry} (inside : entry ∈ new.line)
    (earlier : entry.isList = true) : entry.version ≤ call.entry.version := by
  rcases call_new step there with ⟨old, before⟩ | begun
  next =>
    obtain ⟨_, now, turn⟩ := call_step step before
    cases now.symm.trans there
    rw [turn.entry.1] at list ⊢
    have waited := turn.waiting waiting
    obtain ⟨peer, known, _⟩ :=
      sound.received number old before id ((sound.calls number old before).copied id waited)
    obtain ⟨_, same, change⟩ := peer_step sound.roll.numbered step known
    cases same.symm.trans here
    have below := sound.ceiling number old before list id waited peer known
    rcases sound.line known change with shorter | ⟨other, second, _, under_way, turned, longer⟩
    next => exact below entry (shorter.subset inside) earlier
    next =>
      rw [longer, List.mem_append, List.mem_singleton] at inside
      rcases inside with past | rfl
      next => exact below entry past earlier
      next =>
        -- Two lists are not delivered at once, so it is this delivery's own.
        have running {number : Nat} {call : Call} (there : h.calls number = some call)
            (waiting : id ∈ call.round.waiting) : call.returned = false := by
          by_contra finished
          simp [(sound.calls number call there).finished (Bool.not_eq_false _ ▸ finished)] at waiting
        cases sound.single number other old second before under_way list earlier
          (running before waited) (running under_way turned)
        cases under_way.symm.trans before
        exact Nat.le_refl _
  next =>
    obtain ⟨rfl, same, _⟩ := begun.single list
    have copied : call.round.waiting = h.members := by cases begun; rfl
    rw [copied] at waiting
    obtain ⟨peer, known⟩ := sound.roll.known id waiting
    obtain ⟨_, now, change⟩ := peer_step sound.roll.numbered step known
    cases now.symm.trans here
    rcases sound.line known change with shorter | ⟨_, _, other, _⟩
    next =>
      obtain ⟨_, world, valid, _⟩ := (sound.peers id peer known).entries entry (shorter.subset inside)
      have bound := (List.getElem?_eq_some_iff.mp valid).1
      rw [worlds, List.length_append, List.length_singleton] at bound
      rw [same]
      exact Nat.le_of_lt_succ bound
    next => cases other

theorem Sound.next : k.Sound workspace protocol where
  roll := roll_step sound.roll step
  held _ _ there due := sound.held_step step there due
  peers _ _ there := sound.peers_step step there
  calls _ _ there := sound.calls_step step there
  received _ _ there _ copied := sound.received_step step there copied
  single _ _ _ _ there here := sound.single_step step there here
  ordered _ _ there := sound.ordered_step step there
  ceiling _ _ there list _ waiting _ here _ inside earlier :=
    sound.ceiling_step step there list waiting here inside earlier

end Steps

theorem trace_sound {deeds : List Deed} (trace : Trace (Step workspace protocol) h deeds k)
    (sound : h.Sound workspace protocol) : k.Sound workspace protocol :=
  trace.keeps (fun _ _ _ sound step => sound.next step) sound

end Hub

end TemplateSync
