import TemplateSync.Proofs.Host.Deliveries
import TemplateSync.Proofs.Message.Sizes
import TemplateSync.World

set_option autoImplicit false

namespace TemplateSync

namespace Host

variable {σ : Type} {workspace : Workspace σ} {version : Int32} {h k : Host σ}

-- Some tick's list is still to reach the client, or the client is to be removed after it.
def Awaits (c : Clock σ) (rounds : Nat → Option Round) (id : Nat) : Prop :=
  ∃ tick message metadata round, c.ticks tick = .listing message metadata ∧
    rounds tick = some round ∧ round.Pending id

section Awaits

variable {c d : Clock σ} {rounds : Nat → Option Round} {moment : Moment σ} {id : Nat}

theorem awaits_step (awaits : Awaits c rounds id) (step : Clock.Step workspace c moment d)
    (going : ∀ tick, moment ≠ .listSent tick) : Awaits d rounds id := by
  obtain ⟨tick, message, metadata, round, listing, there, pending⟩ := awaits
  exact ⟨tick, message, metadata, round, Clock.listing_stays step listing (going tick), there,
    pending⟩

theorem awaits_other {tick : Nat} {round : Option Round} (awaits : Awaits c rounds id)
    (other : ∀ message metadata, c.ticks tick ≠ .listing message metadata) :
    Awaits c (Function.update rounds tick round) id := by
  obtain ⟨one, message, metadata, own, listing, there, pending⟩ := awaits
  have different : one ≠ tick := by
    rintro rfl
    exact other message metadata listing
  exact ⟨one, message, metadata, own, listing, by simpa [different] using there, pending⟩

theorem awaits_round {tick : Nat} {old new : Round} (awaits : Awaits c rounds id)
    (there : rounds tick = some old) (pending : old.Pending id → new.Pending id) :
    Awaits c (Function.update rounds tick (some new)) id := by
  obtain ⟨one, message, metadata, own, listing, known, waits⟩ := awaits
  by_cases same : one = tick
  next =>
    subst same
    rw [there] at known
    cases known
    exact ⟨one, message, metadata, new, listing, by simp, pending waits⟩
  next => exact ⟨one, message, metadata, own, listing, by simpa [same] using known, waits⟩

theorem awaits_sent {tick : Nat} {round : Round} (awaits : Awaits c rounds id)
    (step : Clock.Step workspace c (.listSent tick) d) (there : rounds tick = some round)
    (done : round.Done) : id ∈ round.failed ∨ Awaits d (Function.update rounds tick none) id := by
  obtain ⟨one, message, metadata, own, listing, known, pending⟩ := awaits
  by_cases same : one = tick
  next =>
    subst same
    rw [there] at known
    cases known
    exact .inl (Round.pending_done done pending)
  next =>
    have going : Moment.listSent tick ≠ (.listSent one : Moment σ) := by
      intro equal
      cases equal
      exact same rfl
    exact .inr ⟨one, message, metadata, own, Clock.listing_stays step listing going,
      by simpa [same] using known, pending⟩

end Awaits

-- The list is still to be read, for a change that is notified or is yet to be.
def Stale (h : Host σ) : Prop :=
  0 < h.owed ∨ h.clock.Unlisted

-- The client has these projects as its last list, or they are on their way to it, or it is to leave.
def Informed (h : Host σ) (projects : List ProjectDescriptor) (id : Nat) : Prop :=
  Awaits h.clock h.rounds id ∨ h.accepting = .leaving id ∨
    Message.lastList (h.heard id ++ h.accepting.due id) = some projects

/-- A list under way is the list of the moment, and every client is informed of it. -/
structure Settled (workspace : Workspace σ) (h : Host σ) : Prop where
  listing : ∀ tick message metadata, h.clock.ticks tick = .listing message metadata →
    message = .solution (workspace.projects h.clock.world)
  informed : ∀ client ∈ h.fanout.clients, h.Informed (workspace.projects h.clock.world) client.id

theorem list_settled {tick : Nat} {clock : Clock σ} {message : Message} {metadata : Bool}
    (single : h.clock.Single) (text : String)
    (step : Clock.Step workspace h.clock (.listRead tick) clock)
    (read : clock.ticks tick = .listing message metadata) :
    Settled workspace ({ h with clock := clock }.setRound tick (some (.start text h.fanout))) := by
  have world := Clock.world_step step rfl
  constructor
  next =>
    intro other one later listing
    rcases Clock.listing_step step listing with before | ⟨_, rfl⟩
    next =>
      -- A second list under way would be one of a second tick.
      have same : other = tick := by
        refine single other tick (by rw [before]; rfl) ?_
        cases step with
        | listRead _ _ claimed => rw [claimed]; rfl
      subst same
      cases step with
      | listRead _ _ claimed => rw [claimed] at before; cases before
    next => rw [setRound_clock, world]
  next =>
    -- Who is in the set when the list is read is among those it goes to.
    intro client there
    exact .inl ⟨tick, message, metadata, _, read, setRound_same .., Round.pending_start text there⟩

theorem Step.stale (stale : h.Stale) (single : h.clock.Single)
    (step : Step workspace version h k) : k.Stale ∨ k.Settled workspace := by
  have unlisted {moment : Moment σ} {clock : Clock σ}
      (step : Clock.Step workspace h.clock moment clock) (going : ∀ tick, moment ≠ .listRead tick) :
      0 < h.owed ∨ clock.Unlisted := by
    rcases stale with owed | unlisted
    next => exact .inl owed
    next =>
      have kept := Clock.unlisted_step unlisted step
      exact .inr (kept.resolve_right fun ⟨tick, read⟩ => going tick read)
  cases step with
  | mutate => exact .inl (.inl (Nat.succ_pos _))
  | notify change structural => exact .inl (.inr (Clock.unlisted_change structural))
  | change change => exact .inl (unlisted (.changed change) nofun)
  | claim tick clock alone step => exact .inl (unlisted step nofun)
  | list tick clock message metadata text step read => exact .inr (list_settled single text step read)
  | listed tick clock round whole done step => exact .inl (unlisted step nofun)
  | inner moment clock inner step =>
    refine .inl (unlisted step ?_)
    rintro tick rfl
    exact inner
  | batchEnd tick clock silent step => exact .inl (unlisted step nofun)
  | work | send | sent | deliver | pass | close | lose | turnAway | register | greet | fall | leave
  | welcome => exact .inl stale

theorem settled_clock {moment : Moment σ} {clock : Clock σ} {tick : Nat}
    (settled : h.Settled workspace) (step : Clock.Step workspace h.clock moment clock)
    (timed : moment.tick? = some tick) (read : ∀ tick, moment ≠ .listRead tick)
    (sent : ∀ tick, moment ≠ .listSent tick) : Settled workspace { h with clock := clock } := by
  have world := Clock.world_step step timed
  constructor
  next =>
    intro other message metadata listing
    rcases Clock.listing_step step listing with before | ⟨now, _⟩
    next => simpa only [world] using settled.listing other message metadata before
    next => exact absurd now (read other)
  next =>
    intro client there
    rcases settled.informed client there with awaits | leaving | last
    next => exact .inl (awaits_step awaits step sent)
    next => exact .inr (.inl leaving)
    next => exact .inr (.inr (by rw [world]; exact last))

theorem settled_listed {tick : Nat} {clock : Clock σ} {round : Round}
    (settled : h.Settled workspace) (whole : h.rounds tick = some round) (done : round.Done)
    (step : Clock.Step workspace h.clock (.listSent tick) clock) :
    Settled workspace
      ({ h with clock := clock, fanout := h.fanout.remove round.failed }.setRound tick none) := by
  have world := Clock.world_step step rfl
  constructor
  next =>
    intro other message metadata listing
    rcases Clock.listing_step step listing with before | ⟨read, _⟩
    next => simpa only [setRound_clock, world] using settled.listing other message metadata before
    next => cases read
  next =>
    intro client remains
    obtain ⟨there, kept⟩ := Fanout.mem_remove remains
    rcases settled.informed client there with awaits | leaving | last
    next => exact .inl ((awaits_sent awaits step whole done).resolve_left kept)
    next => exact .inr (.inl leaving)
    next => exact .inr (.inr (by rwa [setRound_clock, world]))

theorem informed_deliver {tick : Nat} {round : Round} {next : Client} {rest : List Nat} {left : Bytes}
    {arrived : Bool} (settled : h.Settled workspace) (fits : RoundsFit h.clock h.rounds)
    (informed : h.Informed (workspace.projects h.clock.world) next.id)
    (under_way : h.rounds tick = some round) (free : ∀ due, h.accepting ≠ .greeting next.id due) :
    Informed ((h.write next round.text left arrived).setRound tick
      (some (round.after next.id rest arrived))) (workspace.projects h.clock.world) next.id := by
  cases arrived with
  | false =>
    exact informed.imp_left fun awaits => awaits_round awaits under_way fun _ => Round.pending_failed ..
  | true =>
    have spoken := fits tick
    rw [under_way] at spoken
    have none_due := Accepting.due_none free
    have heard := h.heard_arrived next round.text left
    cases phase : h.clock.ticks tick with
    | listing message metadata =>
      rw [phase] at spoken
      obtain ⟨_, ⟨⟩, read, _⟩ := spoken
      rw [read, settled.listing tick message metadata phase] at heard
      refine .inr (.inr ?_)
      change Message.lastList (_ ++ h.accepting.due next.id) = _
      rw [none_due, List.append_nil, heard_setRound, heard, Message.lastList_append]
      rfl
    | batching =>
      -- Metadata leaves the client's last list as it was.
      rw [phase] at spoken
      obtain ⟨content, read⟩ := spoken round rfl
      rw [read] at heard
      rcases informed with awaits | leaving | last
      next =>
        have other : ∀ message metadata, h.clock.ticks tick ≠ .listing message metadata := by
          rw [phase]; nofun
        exact .inl (awaits_other awaits other)
      next => exact .inr (.inl leaving)
      next =>
        rw [none_due, List.append_nil] at last
        refine .inr (.inr ?_)
        change Message.lastList (_ ++ h.accepting.due next.id) = _
        rw [none_due, List.append_nil, heard_setRound, heard, Message.lastList_append, last]
        rfl
    | unstarted | claimed | listed | counted | unwound | ended =>
      rw [phase] at spoken
      cases spoken

theorem settled_deliver {tick : Nat} {round : Round} {known next : Client} {rest : List Nat}
    {left : Bytes} {arrived : Bool} (settled : h.Settled workspace) (fits : RoundsFit h.clock h.rounds)
    (under_way : h.rounds tick = some round) (turn : round.waiting = known.id :: rest)
    (calm : round.failing = none) (there : known ∈ h.fanout.clients)
    (free : ∀ due, h.accepting ≠ .greeting known.id due)
    (writes : known.Writes (h.held known.id) round.text next left arrived) :
    Settled workspace ((h.write next round.text left arrived).setRound tick
      (some (round.after known.id rest arrived))) := by
  have informed := settled.informed known there
  rw [← writes.same_id] at informed turn free ⊢
  refine ⟨settled.listing, fun client remains => ?_⟩
  rcases Fanout.mem_update remains with rfl | ⟨old, different⟩
  next => exact informed_deliver settled fits informed under_way free
  next =>
    rcases settled.informed client old with awaits | leaving | last
    next =>
      exact .inl (awaits_round awaits under_way fun pending =>
        Round.pending_after turn calm pending different arrived)
    next => exact .inr (.inl leaving)
    next =>
      refine .inr (.inr ?_)
      rwa [heard_setRound, heard_other _ _ _ _ _ different]

theorem settled_close {tick id : Nat} {round : Round} (settled : h.Settled workspace)
    (under_way : h.rounds tick = some round) (failing : round.failing = some id) :
    Settled workspace ({ h with fanout := h.fanout.shut id }.setRound tick
      (some { round with failing := none, failed := round.failed ++ [id] })) := by
  refine ⟨settled.listing, fun client remains => ?_⟩
  have informed : h.Informed (workspace.projects h.clock.world) client.id := by
    rcases Fanout.mem_shut remains with old | ⟨known, member, rfl⟩
    next => exact settled.informed client old
    next => exact settled.informed known member
  exact informed.imp_left fun awaits =>
    awaits_round awaits under_way (Round.pending_close failing)

theorem informed_other {id : Nat} {projects : List ProjectDescriptor} (informed : h.Informed projects id)
    (clock : k.clock = h.clock) (rounds : k.rounds = h.rounds) (heard : k.heard id = h.heard id)
    (stays : h.accepting ≠ .leaving id) (same : k.accepting.due id = h.accepting.due id) :
    k.Informed projects id := by
  rcases informed with awaits | leaving | last
  next => exact .inl (by rwa [clock, rounds])
  next => exact absurd leaving stays
  next => exact .inr (.inr (by rwa [heard, same]))

theorem informed_greet {next : Client} {message : Message} {due : List Message} {text : String}
    {left : Bytes} {arrived : Bool} {projects : List ProjectDescriptor}
    (informed : h.Informed projects next.id) (broadcast : message.IsBroadcast)
    (greeting : h.accepting = .greeting next.id (message :: due))
    (encoded : message.encode = .ok text) :
    Informed { h.write next text left arrived with
      accepting := if arrived then .greeting next.id due else .leaving next.id } projects next.id := by
  cases arrived with
  | false => exact .inr (.inl rfl)
  | true =>
    have heard := h.heard_arrived next text left
    rw [Message.read_encode broadcast encoded] at heard
    rcases informed with awaits | leaving | last
    next => exact .inl awaits
    next => rw [greeting] at leaving; cases leaving
    next =>
      rw [greeting, Accepting.due_own] at last
      refine .inr (.inr ?_)
      change Message.lastList ((h.write next text left true).heard next.id ++
        (Accepting.greeting next.id due).due next.id) = _
      rwa [heard, Accepting.due_own, List.append_assoc, List.singleton_append]

theorem settled_register (settled : h.Settled workspace)
    (numbered : ∀ client ∈ h.fanout.clients, client.id < h.fanout.nextId)
    (idle : h.accepting = .idle) :
    Settled workspace (h.enlist (workspace.greeting version h.clock.world)) := by
  refine ⟨settled.listing, fun client remains => ?_⟩
  rcases Fanout.mem_register remains with old | rfl
  next =>
    have different : client.id ≠ h.fanout.nextId := (numbered client old).ne
    refine informed_other (settled.informed client old) rfl rfl ?_ (by rw [idle]; nofun) ?_
    next => simp [heard, enlist, different]
    next =>
      rw [idle]
      exact Accepting.due_other _ different.symm
  next =>
    -- The greeting is built as the client enters the set, and ends in the list.
    refine .inr (.inr ?_)
    simp only [Client.connected, enlist, heard, Function.update_self, Accepting.due_own, List.map_nil,
      List.nil_append]
    rfl

theorem settled_greet {known next : Client} {message : Message} {due : List Message}
    {text : String} {left : Bytes} {arrived : Bool} (settled : h.Settled workspace)
    (broadcast : message.IsBroadcast) (greeting : h.accepting = .greeting known.id (message :: due))
    (there : known ∈ h.fanout.clients) (encoded : message.encode = .ok text)
    (writes : known.Writes (h.held known.id) text next left arrived) :
    Settled workspace { h.write next text left arrived with
      accepting := if arrived then .greeting known.id due else .leaving known.id } := by
  have informed := settled.informed known there
  rw [← writes.same_id] at informed greeting ⊢
  refine ⟨settled.listing, fun client remains => ?_⟩
  rcases Fanout.mem_update remains with rfl | ⟨old, different⟩
  next => exact informed_greet informed broadcast greeting encoded
  next =>
    refine informed_other (settled.informed client old) rfl rfl
      (heard_other h next text left arrived different) (by rw [greeting]; nofun) ?_
    rw [greeting, Accepting.due_other _ different.symm]
    cases arrived with
    | false => rfl
    | true => exact Accepting.due_other _ different.symm

theorem settled_fall {id : Nat} {due : List Message} (settled : h.Settled workspace)
    (greeting : h.accepting = .greeting id due) :
    Settled workspace { h with accepting := .leaving id } := by
  refine ⟨settled.listing, fun client there => ?_⟩
  by_cases own : client.id = id
  next => exact .inr (.inl (by rw [own]))
  next =>
    refine informed_other (settled.informed client there) rfl rfl rfl (by rw [greeting]; nofun) ?_
    rw [greeting, Accepting.due_other _ (Ne.symm own)]
    rfl

theorem settled_leave {id : Nat} (settled : h.Settled workspace)
    (leaving : h.accepting = .leaving id) :
    Settled workspace { h with fanout := h.fanout.remove [id], accepting := .idle } := by
  refine ⟨settled.listing, fun client remains => ?_⟩
  obtain ⟨there, other⟩ := Fanout.mem_remove remains
  refine informed_other (settled.informed client there) rfl rfl rfl ?_ (by rw [leaving]; rfl)
  rw [leaving]
  rintro ⟨⟩
  exact other (by simp)

theorem Step.settled (settled : h.Settled workspace) (fits : RoundsFit h.clock h.rounds)
    (numbered : ∀ client ∈ h.fanout.clients, client.id < h.fanout.nextId)
    (due : ∀ id, ∀ message ∈ h.accepting.due id, message.IsBroadcast)
    (single : h.clock.Single) (step : Step workspace version h k) :
    k.Stale ∨ k.Settled workspace := by
  cases step with
  | mutate => exact .inl (.inl (Nat.succ_pos _))
  | notify change structural => exact .inl (.inr (Clock.unlisted_change structural))
  | work world same =>
    refine .inr ⟨?_, ?_⟩
    next => simpa only [Clock.move_world, Clock.move_ticks, same] using settled.listing
    next =>
      simp only [Clock.move_world, same]
      exact settled.informed
  | change => exact .inr ⟨settled.listing, settled.informed⟩
  | claim tick clock alone step => exact .inr (settled_clock settled step rfl nofun nofun)
  | list tick clock message metadata text step read => exact .inr (list_settled single text step read)
  | inner moment clock inner step =>
    obtain ⟨⟨tick, timed⟩, _, read, sent⟩ := inner_moment inner
    exact .inr (settled_clock settled step timed read sent)
  | batchEnd tick clock silent step => exact .inr (settled_clock settled step rfl nofun nofun)
  | listed tick clock round whole done step => exact .inr (settled_listed settled whole done step)
  | send tick batch content text batching =>
    refine .inr ⟨settled.listing, fun client there => ?_⟩
    have other : ∀ message metadata, h.clock.ticks tick ≠ .listing message metadata := by
      rw [batching]; nofun
    exact (settled.informed client there).imp_left fun awaits => awaits_other awaits other
  | sent tick batch round batching =>
    refine .inr ⟨settled.listing, fun client remains => ?_⟩
    have other : ∀ message metadata, h.clock.ticks tick ≠ .listing message metadata := by
      rw [batching]; nofun
    exact (settled.informed client (Fanout.mem_remove remains).1).imp_left fun awaits =>
      awaits_other awaits other
  | deliver tick round known next rest left arrived under_way turn calm there free writes =>
    exact .inr (settled_deliver settled fits under_way turn calm there free writes)
  | pass tick round id rest arrived under_way turn calm gone =>
    refine .inr ⟨settled.listing, fun client there => ?_⟩
    exact (settled.informed client there).imp_left fun awaits =>
      awaits_round awaits under_way fun pending =>
        Round.pending_after turn calm pending (gone client there) arrived
  | close tick round id under_way failing => exact .inr (settled_close settled under_way failing)
  | lose known member =>
    refine .inr ⟨settled.listing, fun client remains => ?_⟩
    rcases Fanout.mem_update remains with rfl | ⟨old, _⟩
    next => exact settled.informed known member
    next => exact settled.informed client old
  | turnAway => exact .inr ⟨settled.listing, settled.informed⟩
  | register idle => exact .inr (settled_register settled numbered idle)
  | greet known next message due' text left arrived greeting member encoded writes =>
    have broadcast : message.IsBroadcast := by
      apply due known.id
      simp [greeting]
    exact .inr (settled_greet settled broadcast greeting member encoded writes)
  | fall id message due' fault greeting unencoded => exact .inr (settled_fall settled greeting)
  | leave id leaving => exact .inr (settled_leave settled leaving)
  | welcome id greeted =>
    refine .inr ⟨settled.listing, fun client there => ?_⟩
    refine informed_other (settled.informed client there) rfl rfl rfl (by rw [greeted]; nofun) ?_
    rw [greeted]
    simp [Accepting.due]

structure Invariant (workspace : Workspace σ) (h : Host σ) : Prop where
  single : h.clock.Single
  fits : RoundsFit h.clock h.rounds
  numbered : ∀ client ∈ h.fanout.clients, client.id < h.fanout.nextId
  orderly : h.Orderly
  spoken : ∀ id, ∀ text ∈ h.told id, (Message.read text).IsBroadcast
  due : ∀ id, ∀ message ∈ h.accepting.due id, message.IsBroadcast
  fresh : h.Stale ∨ h.Settled workspace

theorem start_invariant (world : σ) : Invariant workspace (start world) := by
  refine ⟨nofun, fun _ => rfl, nofun, nofun, nofun, nofun, .inr ⟨nofun, nofun⟩⟩

theorem Step.invariant (before : h.Invariant workspace) (step : Step workspace version h k) :
    k.Invariant workspace where
  single := step.single before.single
  fits := step.fits before.fits
  numbered := step.numbered before.numbered
  orderly := step.orderly before.orderly before.fits before.numbered
  spoken := step.spoken before.spoken before.fits before.due
  due := fun _ => step.due before.due
  fresh := before.fresh.elim (fun stale => step.stale stale before.single) fun settled =>
    step.settled settled before.fits before.numbered before.due before.single

theorem reaches_invariant {world : σ} {h : Host σ}
    (run : Relation.ReflTransGen (Step workspace version) (start world) h) :
    h.Invariant workspace := by
  induction run with
  | refl => exact start_invariant world
  | tail _ step ih => exact step.invariant ih

/-- Nothing is half-way that has to do with the list; batches may be. -/
structure Quiet (h : Host σ) : Prop where
  notified : h.owed = 0
  clean : h.clock.ticker.flags.solution = false
  no_tick : ∀ tick, (h.clock.ticks tick).inProgress = false
  no_accept : h.accepting = .idle

theorem quiet_settled (invariant : h.Invariant workspace) (quiet : h.Quiet) :
    h.Settled workspace := by
  refine invariant.fresh.resolve_left ?_
  rintro (owed | dirty | ⟨tick, metadata, claimed⟩)
  next => rw [quiet.notified] at owed; cases owed
  next => rw [quiet.clean] at dirty; cases dirty
  next =>
    have running := quiet.no_tick tick
    rw [claimed] at running
    cases running

theorem quiet_lastList (invariant : h.Invariant workspace) (quiet : h.Quiet) {client : Client}
    (there : client ∈ h.fanout.clients) :
    Message.lastList (h.heard client.id) = some (workspace.projects h.clock.world) := by
  rcases (quiet_settled invariant quiet).informed client there with awaits | leaving | last
  next =>
    obtain ⟨tick, message, metadata, _, listing, _⟩ := awaits
    have running := quiet.no_tick tick
    rw [listing] at running
    cases running
  next => rw [quiet.no_accept] at leaving; cases leaving
  next => simpa [quiet.no_accept, Accepting.due] using last

-- With no tick and no accept half-way, a failed write is one of a batch that goes on.
theorem quiet_dropping (invariant : h.Invariant workspace) (quiet : h.Quiet) {id : Nat}
    (dropping : h.Dropping id) :
    ∃ tick batch round, h.clock.ticks tick = .batching batch ∧ h.rounds tick = some round ∧
      round.Drops id := by
  rcases dropping with ⟨tick, round, there, drops⟩ | leaving
  next =>
    have fits := invariant.fits tick
    have running := quiet.no_tick tick
    rw [there] at fits
    cases phase : h.clock.ticks tick with
    | batching batch => exact ⟨tick, batch, round, phase, there, drops⟩
    | listing => rw [phase] at running; cases running
    | unstarted | claimed | listed | counted | unwound | ended => rw [phase] at fits; cases fits
  next => rw [quiet.no_accept] at leaving; cases leaving

/-- A client that a batch has failed to write to stays in the set until the batch has shut it down; a worker may
then have lost the list that came meanwhile. -/
theorem clients_hold_the_projects (workspace : Workspace σ) (version : Int32) (world : σ)
    (h : Host σ) (run : Relation.ReflTransGen (Step workspace version) (start world) h)
    (quiet : h.Quiet) (client : Client) (there : client ∈ h.fanout.clients) :
    Message.lastList (h.heard client.id) = some (workspace.projects h.clock.world) ∧
    ((∃ tick batch round, h.clock.ticks tick = .batching batch ∧ h.rounds tick = some round ∧
        round.Drops client.id) ∨
      client.Mirrors (workspace.projects h.clock.world)) := by
  have invariant := reaches_invariant run
  have last := quiet_lastList invariant quiet there
  refine ⟨last, (invariant.orderly client there).imp (quiet_dropping invariant quiet) ?_⟩
  intro sound
  exact Client.mirrors_frames sound.2 (invariant.spoken client.id) last

section Example

def image : Emitted :=
  ⟨none, List.replicate (3 * 2048) 0⟩

def roster : Workspace (List ProjectDescriptor) :=
  ⟨id, fun _ => Pure.pure (.emitted image)⟩

def alpha : ProjectDescriptor :=
  ⟨.ofNat 1, "alpha", "/alpha/alpha.csproj", []⟩

def beta : ProjectDescriptor :=
  ⟨.ofNat 2, "beta", "/beta/beta.csproj", []⟩

def hosting (clock : Clock (List ProjectDescriptor)) (owed : Nat) (accepting : Accepting)
    (rounds : Nat → Option Round) (written : Bytes) (told : List String) :
    Host (List ProjectDescriptor) :=
  ⟨clock, owed, ⟨[⟨1, written, false, true⟩], 2, false, false⟩, Function.update (fun _ => []) 1 [],
    Function.update (fun _ => []) 1 told, accepting, rounds⟩

section Hosting

variable {world : List ProjectDescriptor} {clock : Clock (List ProjectDescriptor)} {owed : Nat}
  {accepting : Accepting} {rounds : Nat → Option Round} {written more : Bytes} {told : List String}
  {text : String} {arrived : Bool}

theorem hosting_write (clock : Clock (List ProjectDescriptor)) (owed : Nat) (accepting : Accepting)
    (rounds : Nat → Option Round) (written more : Bytes) (told : List String) (text : String)
    (arrived : Bool) :
    (hosting clock owed accepting rounds written told).write ⟨1, more, false, true⟩ text [] arrived =
      hosting clock owed accepting rounds more (told ++ if arrived then [text] else []) := by
  cases arrived <;> simp [hosting, write, Fanout.update]

theorem whole_write (written : Bytes) (short : (Utf8.encode text).length < Frame.maxLength) :
    ∃ frame, Frame.write text = .ok frame ∧
      Client.Writes ⟨1, written, false, true⟩ [] text ⟨1, written ++ frame, false, true⟩ [] true := by
  obtain ⟨frame, framed⟩ : ∃ frame, Frame.write text = .ok frame := ⟨_, by rw [Frame.write, if_pos short]⟩
  exact ⟨frame, framed, ⟨frame.length, by simp, Outlet.write_whole framed _ (Nat.le_refl _)⟩, rfl⟩

theorem hosting_greets (written : Bytes) (told : List String) (message : Message) (due : List Message)
    (short : ∃ text, message.encode = .ok text ∧ (Utf8.encode text).length < Frame.maxLength) :
    ∃ more told', Step roster 1 (hosting clock owed (.greeting 1 (message :: due)) rounds written told)
      (hosting clock owed (.greeting 1 due) rounds more told') := by
  obtain ⟨text, encoded, short⟩ := short
  obtain ⟨frame, _, writes⟩ := whole_write written short
  have step : Step roster 1
      (hosting clock owed (.greeting 1 (message :: due)) rounds written told) _ :=
    .greet _ _ message due text [] true rfl (List.mem_singleton.mpr rfl) encoded writes
  rw [hosting_write] at step
  exact ⟨_, _, step⟩

theorem hosting_delivers (tick : Nat)
    (run : Relation.ReflTransGen (Step roster 1) (start world)
      (hosting clock owed .idle rounds written told))
    (under_way : rounds tick = some ⟨text, [1], none, []⟩)
    (writes : Client.Writes ⟨1, written, false, true⟩ [] text ⟨1, more, false, true⟩ [] arrived) :
    Relation.ReflTransGen (Step roster 1) (start world)
      (hosting clock owed .idle
        (Function.update rounds tick (some ⟨text, [], if arrived then none else some 1, []⟩)) more
        (told ++ if arrived then [text] else [])) := by
  have step : Step roster 1 (hosting clock owed .idle rounds written told) _ :=
    .deliver tick ⟨text, [1], none, []⟩ _ _ [] [] arrived under_way rfl rfl
      (List.mem_singleton.mpr rfl) (fun _ => Accepting.noConfusion) writes
  rw [hosting_write] at step
  exact run.tail step

theorem hosting_opens (short : ∃ text, (Message.solution world).encode = .ok text ∧
      (Utf8.encode text).length < Frame.maxLength) :
    ∃ written told, Relation.ReflTransGen (Step roster 1) (start world)
      (hosting (.start world) 0 .idle (fun _ => none) written told) := by
  have version : ∃ text, (Message.version 1).encode = .ok text ∧
      (Utf8.encode text).length < Frame.maxLength := ⟨_, rfl, by decide +kernel⟩
  have registered : Relation.ReflTransGen (Step roster 1) (start world)
      (hosting (.start world) 0 (.greeting 1 [.version 1, .solution world]) (fun _ => none) [] []) :=
    .single (.register rfl)
  obtain ⟨_, _, versioned⟩ := hosting_greets [] [] (.version 1) [.solution world] version
  obtain ⟨_, _, greeted⟩ := hosting_greets _ _ (.solution world) [] short
  exact ⟨_, _, ((registered.tail versioned).tail greeted).tail (.welcome 1 rfl)⟩

end Hosting

theorem short_lists : (∃ text, (Message.solution []).encode = .ok text ∧
      (Utf8.encode text).length < Frame.maxLength) ∧
    (∃ text, (Message.solution [alpha]).encode = .ok text ∧
      (Utf8.encode text).length < Frame.maxLength) ∧
    ∃ text, (Message.solution [alpha, beta]).encode = .ok text ∧
      (Utf8.encode text).length < Outlet.capacity - Frame.maxGroups :=
  ⟨⟨_, rfl, by decide +kernel⟩, ⟨_, rfl, by decide +kernel⟩, ⟨_, rfl, by decide +kernel⟩⟩

theorem hosting_adds :
    ∃ h client, Relation.ReflTransGen (Step roster 1) (start []) h ∧ h.Quiet ∧
      client ∈ h.fanout.clients ∧ h.clock.world = [alpha] ∧ ∀ tick, h.rounds tick = none := by
  -- A client is greeted with an empty list, then hears of a project that was added.
  obtain ⟨_, _, opened⟩ := hosting_opens short_lists.1
  have changed := (opened.tail (.mutate [alpha])).tail (.notify .projectAdded rfl 0 rfl)
  have claimed := changed.tail (.claim 0 _ (fun _ => rfl) (.claimed 0 rfl))
  obtain ⟨text, encoded, short⟩ := short_lists.2.1
  have listing := claimed.tail
    (.list 0 _ (.solution [alpha]) true text (.listRead 0 true rfl) rfl encoded)
  obtain ⟨_, _, writes⟩ := whole_write _ short
  have sent := (hosting_delivers 0 listing rfl writes).tail
    (.listed 0 _ ⟨text, [], none, []⟩ rfl ⟨rfl, rfl⟩ (.listSent 0 _ true rfl))
  have counted := sent.tail (.inner (.projectsRead 0) _ trivial (.projectsRead 0 rfl))
  have started := counted.tail (.inner (.batchStarted 0) _ trivial (.batchStarted 0 _ rfl))
  refine ⟨_, _, started, ⟨rfl, rfl, ?_, rfl⟩, List.mem_singleton.mpr rfl, rfl, ?_⟩
  next =>
    intro tick
    by_cases own : tick = 0
    next => subst own; rfl
    next =>
      simp [hosting, own, Clock.put, Clock.turn, Clock.move, Clock.start, setRound,
        TickPhase.inProgress]
  next =>
    intro tick
    by_cases own : tick = 0
    next => subst own; rfl
    next => simp [hosting, setRound]

theorem added_project_is_known :
    ∃ h client, Relation.ReflTransGen (Step roster 1) (start []) h ∧ client ∈ h.fanout.clients ∧
      Message.lastList (h.heard client.id) = some [alpha] ∧
      ((Worker.serveStream (World.workbench (.configured World.files World.run none none)) "cshtml"
        Frame.maxLength [client.written] ⟨.empty, .unreachable, 0⟩).1.worker.catalog.Lists
          [alpha]) := by
  obtain ⟨h, client, run, quiet, there, world, silent⟩ := hosting_adds
  obtain ⟨last, mirrors⟩ := clients_hold_the_projects roster 1 [] h run quiet client there
  have current : roster.projects h.clock.world = [alpha] := world
  rw [current] at last mirrors
  have mirrors := mirrors.resolve_left fun ⟨tick, _, _, _, round, _⟩ => by
    rw [silent tick] at round
    cases round
  obtain ⟨p, served, _, handled, same, _⟩ := Pipeline.serveStream_reaches Frame.maxLength
    (World.workbench (.configured World.files World.run none none)) "cshtml" [client.written]
    ⟨.empty, .unreachable, 0⟩
  have sound := ((reaches_invariant run).orderly client there).resolve_left fun dropping => by
    obtain ⟨tick, _, _, _, round, _⟩ := quiet_dropping (reaches_invariant run) quiet dropping
    rw [silent tick] at round
    cases round
  have whole : client.written = client.written ++ [] := (List.append_nil _).symm
  have within : ∀ text ∈ (Frame.readAll Frame.maxLength [client.written]).texts,
      (Utf8.encode text).length ≤ Frame.maxLength := by
    rw [Frame.readAll_texts, List.flatten_singleton, Client.texts_written whole sound.2 Frame.torn_nil
      (Frame.frames_within sound.2)]
    exact Frame.frames_within sound.2
  obtain ⟨_, lists⟩ := mirrors World Frame.maxLength _ "cshtml" [client.written] _ p within
    (by simp) (Pipeline.reaches_undisturbed served) handled
  rw [same] at lists
  exact ⟨h, client, run, there, last, lists⟩

theorem large_metadata : ∃ text, (Batch.message alpha image).encode = .ok text ∧
    Outlet.capacity ≤ (Utf8.encode text).length ∧ (Utf8.encode text).length < Frame.maxLength := by
  have wrapped : (Json.escape Kind.metadata.tag.toList).length +
      (Metadata.toJson ⟨alpha.id, alpha.name, none, []⟩).render.length < 1000 := by decide +kernel
  have room : Outlet.capacity = 8192 := rfl
  have most : Frame.maxLength = 4294967296 := rfl
  obtain ⟨text, encoded, low, high⟩ := Message.metadata_of_size alpha.id alpha.name 2048
  exact ⟨text, encoded, by omega, by omega⟩

theorem stalls_behind_the_length {text : String} (written : Bytes)
    (large : Outlet.capacity ≤ (Utf8.encode text).length)
    (fits : (Utf8.encode text).length < Frame.maxLength) :
    Client.Writes ⟨1, written, false, true⟩ [] text
      ⟨1, written ++ Frame.lengthPrefix (Utf8.encode text).length, false, true⟩ [] false := by
  have framed : Frame.write text = .ok (Frame.lengthPrefix (Utf8.encode text).length ++ Utf8.encode text) := by
    rw [Frame.write, if_pos fits]
  have more : 0 < (Utf8.encode text).length := Nat.lt_of_lt_of_le (by decide) large
  have torn := Outlet.write_torn framed large written (Nat.le_refl _) (by simpa using more)
  rw [List.take_left] at torn
  exact ⟨⟨_, by simp, torn⟩, rfl⟩

theorem hosting_frames {world : List ProjectDescriptor} {written : Bytes} {told : List String}
    (run : Relation.ReflTransGen (Step roster 1) (start world)
      (hosting (.start world) 0 .idle (fun _ => none) written told)) :
    Frame.Frames told written ∧ (∀ text ∈ told, (Message.read text).IsBroadcast) ∧
      Message.lastList (told.map Message.read) = some world := by
  have invariant := reaches_invariant run
  have there : (⟨1, written, false, true⟩ : Client) ∈
      (hosting (.start world) 0 .idle (fun _ => none) written told).fanout.clients :=
    List.mem_singleton.mpr rfl
  have sound := (invariant.orderly _ there).resolve_left (by simp [Dropping, hosting])
  have last := quiet_lastList invariant ⟨rfl, rfl, fun _ => rfl, rfl⟩ there
  exact ⟨by simpa [hosting] using sound.2, by simpa [hosting] using invariant.spoken 1,
    by simpa [hosting, heard, roster, Clock.start] using last⟩

theorem starved_texts {told : List String} {written frame : Bytes} {length : Nat}
    (frames : Frame.Frames told written) (bound : length < Frame.maxLength)
    (short : frame.length < length) :
    Frame.texts Frame.maxLength (written ++ Frame.lengthPrefix length ++ frame) = told := by
  obtain ⟨fault, rest, starved⟩ := Frame.textFrom_starved bound short Frame.maxLength
  rw [List.append_assoc, Frame.texts_frames frames (Frame.frames_within frames), Frame.texts_error starved,
    List.append_nil]

theorem hosting_stalls :
    ∃ h client spelled, Relation.ReflTransGen (Step roster 1) (start [alpha]) h ∧ h.Quiet ∧
      client ∈ h.fanout.clients ∧ h.clock.world = [alpha, beta] ∧
      Frame.texts Frame.maxLength client.written = spelled ∧
      (∀ text ∈ spelled, (Utf8.encode text).length ≤ Frame.maxLength) ∧
      (∀ text ∈ spelled, (Message.read text).IsBroadcast) ∧
      Message.lastList (spelled.map Message.read) = some [alpha] := by
  obtain ⟨written, told, opened⟩ := hosting_opens short_lists.2.1
  obtain ⟨frames, kinds, last⟩ := hosting_frames opened
  -- A batch's write stalls behind the length of its frame.
  obtain ⟨metadata, encoded, large, fits⟩ := large_metadata
  have claimed := (opened.tail (.change .documentChanged)).tail
    (.claim 0 _ (fun _ => rfl) (.claimed 0 rfl))
  have counted := claimed.tail (.inner (.projectsRead 0) _ trivial (.projectsRead 0 rfl))
  have started := counted.tail (.inner (.batchStarted 0) _ trivial (.batchStarted 0 _ rfl))
  have sending := started.tail (.send 0 _ _ metadata rfl rfl encoded)
  have stalled := hosting_delivers 0 sending rfl (stalls_behind_the_length written large fits)
  -- Before the batch shuts the client down, a list goes out in whole, where the body was announced.
  obtain ⟨text, listed, short⟩ := short_lists.2.2
  have small : (Utf8.encode text).length < Frame.maxLength := Nat.lt_trans short (by decide)
  obtain ⟨frame, framed, whole⟩ :=
    whole_write (written ++ Frame.lengthPrefix (Utf8.encode metadata).length) small
  have starving : frame.length < (Utf8.encode metadata).length := by
    obtain ⟨_, rfl⟩ := Frame.write_eq framed
    have groups := Outlet.lengthGroups_short Frame.maxGroups (Utf8.encode text).length
    rw [List.length_append, Frame.lengthPrefix]
    omega
  have texts := starved_texts frames fits starving
  generalize written ++ Frame.lengthPrefix (Utf8.encode metadata).length ++ frame = bytes at whole texts
  have changed := (stalled.tail (.mutate [alpha, beta])).tail (.notify .projectAdded rfl 0 rfl)
  have waits := changed.tail (.claim 1 _ (fun other => by cases other <;> rfl) (.claimed 1 rfl))
  have relisting := waits.tail
    (.list 1 _ (.solution [alpha, beta]) false text (.listRead 1 false rfl) rfl listed)
  have relisted := (hosting_delivers 1 relisting rfl whole).tail
    (.listed 1 _ ⟨text, [], none, []⟩ rfl ⟨rfl, rfl⟩ (.listSent 1 _ false rfl))
  refine ⟨_, _, told, relisted, ⟨rfl, rfl, ?_, rfl⟩, List.mem_singleton.mpr rfl, rfl, texts,
    Frame.frames_within frames, kinds, last⟩
  intro tick
  rcases tick with _ | _ | tick <;> rfl

/-- A worker that has handled all of a stalled client's stream does not know the project that was added. -/
theorem stalled_client_misses_the_list :
    ∃ h client, Relation.ReflTransGen (Step roster 1) (start [alpha]) h ∧ h.Quiet ∧
      client ∈ h.fanout.clients ∧ ¬ client.Mirrors (roster.projects h.clock.world) := by
  obtain ⟨h, client, spelled, run, quiet, there, world, texts, within, kinds, last⟩ := hosting_stalls
  refine ⟨h, client, run, quiet, there, fun mirrors => ?_⟩
  rw [← @List.flatten_singleton _ client.written] at texts
  obtain ⟨p, served, _, handled, _⟩ := Pipeline.serveStream_reaches Frame.maxLength
    (World.workbench (.configured World.files World.run none none)) "cshtml" [client.written]
    ⟨.empty, .unreachable, 0⟩
  have disturbed := Pipeline.reaches_undisturbed served
  have lists := Client.lists_texts texts kinds last disturbed handled
  obtain ⟨ids, _⟩ := mirrors World Frame.maxLength _ "cshtml" [client.written] _ p
    (by rwa [Frame.readAll_texts, texts]) List.flatten_singleton disturbed handled
  have current : roster.projects h.clock.world = [alpha, beta] := world
  have known := (ids beta.id).mpr (by rw [current]; decide)
  rw [Catalog.lists_ids lists] at known
  exact absurd known (by decide)

end Example

end Host

end TemplateSync
