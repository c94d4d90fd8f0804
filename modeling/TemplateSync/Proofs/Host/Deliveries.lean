import TemplateSync.Proofs.Host.Interleaving
import TemplateSync.Proofs.Host.Listing

set_option autoImplicit false

namespace TemplateSync

namespace Host

variable {σ : Type} {workspace : Workspace σ} {version : Int32} {h k : Host σ}

-- A delivery belongs to a tick that sends its list or to a batch that sends metadata.
def Fits : TickPhase → Option Round → Prop
  | .listing message _, round =>
    ∃ own, round = some own ∧ Message.read own.text = message ∧ message.IsBroadcast
  | .batching _, round =>
    ∀ own, round = some own → ∃ content, Message.read own.text = .metadata content
  | _, round => round = none

theorem fits_none {phase : TickPhase}
    (silent : ∀ message metadata, phase ≠ .listing message metadata) : Fits phase none := by
  cases phase with
  | listing message metadata => exact absurd rfl (silent message metadata)
  | batching => exact fun _ none => nomatch none
  | unstarted | claimed | listed | counted | unwound | ended => rfl

theorem fits_same {phase : TickPhase} {round next : Round} (fits : Fits phase (some round))
    (same : next.text = round.text) : Fits phase (some next) := by
  cases phase with
  | listing message metadata =>
    obtain ⟨_, ⟨⟩, read, broadcast⟩ := fits
    exact ⟨next, rfl, by rw [same, read], broadcast⟩
  | batching =>
    intro own own_next
    cases own_next
    rw [same]
    exact fits round rfl
  | unstarted | claimed | listed | counted | unwound | ended => cases fits

theorem fits_broadcast {phase : TickPhase} {round : Round} (fits : Fits phase (some round)) :
    (Message.read round.text).IsBroadcast := by
  cases phase with
  | listing message metadata =>
    obtain ⟨_, ⟨⟩, rfl, broadcast⟩ := fits
    exact broadcast
  | batching =>
    obtain ⟨content, read⟩ := fits round rfl
    rw [read]
    trivial
  | unstarted | claimed | listed | counted | unwound | ended => cases fits

def RoundsFit (c : Clock σ) (rounds : Nat → Option Round) : Prop :=
  ∀ tick, Fits (c.ticks tick) (rounds tick)

section Fits

variable {c d : Clock σ} {rounds : Nat → Option Round} {moment : Moment σ} {tick : Nat}
  {round : Option Round}

theorem fits_moment (fits : RoundsFit c rounds) (step : Clock.Step workspace c moment d)
    (timed : moment.tick? = some tick) (own : Fits (d.ticks tick) round) :
    RoundsFit d (Function.update rounds tick round) := by
  intro other
  by_cases same : other = tick
  next => subst same; simpa using own
  next =>
    have different : moment.tick? ≠ some other := by
      rw [timed]
      exact fun equal => same (Option.some.inj equal).symm
    simpa [same, Clock.step_other step different] using fits other

theorem fits_round (fits : RoundsFit c rounds) (own : Fits (c.ticks tick) round) :
    RoundsFit c (Function.update rounds tick round) := by
  intro other
  by_cases same : other = tick
  next => subst same; simpa using own
  next => simpa [same] using fits other

theorem fits_silent (fits : RoundsFit c rounds) (step : Clock.Step workspace c moment d)
    (timed : moment.tick? = some tick) (silent : rounds tick = none)
    (going : moment ≠ .listRead tick) : RoundsFit d rounds := by
  have own : Fits (d.ticks tick) none := by
    apply fits_none
    intro message metadata listing
    rcases Clock.listing_step step listing with before | ⟨read, _⟩
    next =>
      have round := fits tick
      rw [before, silent] at round
      obtain ⟨_, none, _⟩ := round
      cases none
    next => exact going read
  have moved := fits_moment fits step timed own
  rwa [← silent, Function.update_eq_self] at moved

theorem fits_text (fits : RoundsFit c rounds) {own next : Round} (there : rounds tick = some own)
    (same : next.text = own.text) : RoundsFit c (Function.update rounds tick (some next)) := by
  have round := fits tick
  rw [there] at round
  exact fits_round fits (fits_same round same)

end Fits

theorem Step.fits (fits : RoundsFit h.clock h.rounds) (step : Step workspace version h k) :
    RoundsFit k.clock k.rounds := by
  cases step with
  | mutate | work | notify | change => exact fits
  | claim tick clock alone step =>
    have silent : h.rounds tick = none := by
      cases step with
      | claimed _ unstarted =>
        have round := fits tick
        rwa [unstarted] at round
    exact fits_silent fits step rfl silent nofun
  | list tick clock message metadata text step read encoded =>
    have broadcast : message.IsBroadcast := by
      rcases Clock.listing_step step read with before | ⟨_, rfl⟩
      next =>
        cases step with
        | listRead _ _ claimed => rw [claimed] at before; cases before
      next => trivial
    -- The text reads as the list that the tick has in hand.
    have own : Fits (clock.ticks tick) (some (Round.start text h.fanout)) := by
      rw [read]
      exact ⟨_, rfl, Message.read_encode broadcast encoded, broadcast⟩
    exact fits_moment fits step rfl own
  | listed tick clock round whole done step =>
    have own : Fits (clock.ticks tick) none := by
      apply fits_none
      intro message metadata listing
      cases step
      simp at listing
    exact fits_moment fits step rfl own
  | inner moment clock inner step =>
    have quiet : ∃ tick, moment.tick? = some tick ∧ h.rounds tick = none ∧
        moment ≠ .listRead tick := by
      cases step with
      | projectsRead tick phase | batchStarted tick _ phase | spawnFailed tick _ phase
      | metadataLeft tick phase =>
        have round := fits tick
        rw [phase] at round
        exact ⟨tick, rfl, round, nofun⟩
      | moved | changed | claimed | listRead | listSent | batchEnded => exact inner.elim
    obtain ⟨tick, timed, silent, going⟩ := quiet
    exact fits_silent fits step timed silent going
  | send tick batch content text batching free encoded =>
    have own : Fits (h.clock.ticks tick) (some (Round.start text h.fanout)) := by
      rw [batching]
      rintro own ⟨⟩
      exact ⟨content, Message.read_encode trivial encoded⟩
    exact fits_round fits own
  | sent tick batch round batching whole done =>
    have own : Fits (h.clock.ticks tick) none := by
      rw [batching]
      exact nofun
    exact fits_round fits own
  | batchEnd tick clock silent step => exact fits_silent fits step rfl silent nofun
  | deliver tick round client next rest left arrived under_way => exact fits_text fits under_way rfl
  | pass tick round id rest arrived under_way => exact fits_text fits under_way rfl
  | close tick round id under_way => exact fits_text fits under_way rfl
  | lose | turnAway | register | greet | fall | leave | welcome => exact fits

theorem Step.due {id : Nat} (before : ∀ id, ∀ message ∈ h.accepting.due id, message.IsBroadcast)
    (step : Step workspace version h k) : ∀ message ∈ k.accepting.due id, message.IsBroadcast := by
  cases step with
  | register =>
    intro message inside
    simp only [enlist, Accepting.due] at inside
    split at inside
    next =>
      simp only [Workspace.greeting, List.mem_cons, List.not_mem_nil, or_false] at inside
      rcases inside with rfl | rfl <;> trivial
    next => cases inside
  | greet client next message due text left arrived greeting =>
    intro one inside
    cases arrived with
    | false => cases inside
    | true =>
      apply before id
      simp only [Accepting.due, if_true] at inside
      simp only [Accepting.due, greeting]
      split at inside
      next own => simp [own, inside]
      next => cases inside
  | fall | leave | welcome => simp [Accepting.due]
  | mutate | work | notify | change | claim | list | listed | inner | send | sent | batchEnd
  | deliver | pass | close | lose | turnAway => exact before id

theorem Step.numbered (before : ∀ client ∈ h.fanout.clients, client.id < h.fanout.nextId)
    (step : Step workspace version h k) :
    ∀ client ∈ k.fanout.clients, client.id < k.fanout.nextId := by
  intro client there
  cases step with
  | mutate | work | notify | change | claim | list | inner | send | batchEnd | pass | fall
  | welcome => exact before client there
  | listed | sent | leave => exact before client (Fanout.mem_remove there).1
  | deliver _ _ known next _ _ _ _ _ _ member _ writes
  | greet known next _ _ _ _ _ _ member _ writes =>
    rcases Fanout.mem_update there with rfl | ⟨old, _⟩
    next =>
      rw [writes.same_id]
      exact before known member
    next => exact before client old
  | close =>
    rcases Fanout.mem_shut there with old | ⟨known, member, rfl⟩
    next => exact before client old
    next => exact before known member
  | lose known member =>
    rcases Fanout.mem_update there with rfl | ⟨old, _⟩
    next => exact before known member
    next => exact before client old
  | turnAway => exact Nat.lt_succ_of_lt (before client there)
  | register =>
    rcases Fanout.mem_register there with old | rfl
    next => exact Nat.lt_succ_of_lt (before client old)
    next => exact Nat.lt_succ_self _

theorem spoken_write (next : Client) {text : String} (left : Bytes) (arrived : Bool)
    (before : ∀ id, ∀ text ∈ h.told id, (Message.read text).IsBroadcast)
    (broadcast : (Message.read text).IsBroadcast) :
    ∀ id, ∀ one ∈ (h.write next text left arrived).told id, (Message.read one).IsBroadcast := by
  intro id one inside
  cases arrived with
  | false => exact before id one inside
  | true =>
    by_cases own : id = next.id
    next =>
      simp only [write, own, if_true, Function.update_self, List.mem_append, List.mem_singleton] at inside
      rcases inside with earlier | rfl
      next => exact before next.id one earlier
      next => exact broadcast
    next => exact before id one (by simpa [write, own] using inside)

-- The messages that a client was written without an error.
def heard (h : Host σ) (id : Nat) : List Message :=
  (h.told id).map Message.read

@[simp] theorem heard_setRound (h : Host σ) (tick : Nat) (round : Option Round) :
    (h.setRound tick round).heard = h.heard := rfl

theorem heard_arrived (h : Host σ) (next : Client) (text : String) (left : Bytes) :
    (h.write next text left true).heard next.id = h.heard next.id ++ [Message.read text] := by
  simp [heard, write]

theorem heard_other (h : Host σ) (next : Client) (text : String) (left : Bytes) (arrived : Bool)
    {id : Nat} (different : id ≠ next.id) :
    (h.write next text left arrived).heard id = h.heard id := by
  cases arrived <;> simp [heard, write, different]

theorem Step.spoken (before : ∀ id, ∀ text ∈ h.told id, (Message.read text).IsBroadcast)
    (fits : RoundsFit h.clock h.rounds)
    (due : ∀ id, ∀ message ∈ h.accepting.due id, message.IsBroadcast)
    (step : Step workspace version h k) : ∀ id, ∀ text ∈ k.told id, (Message.read text).IsBroadcast := by
  cases step with
  | deliver tick round known next rest left arrived under_way =>
    have spoken := fits tick
    rw [under_way] at spoken
    exact spoken_write next left arrived before (fits_broadcast spoken)
  | greet known next message due' text left arrived greeting member encoded =>
    have broadcast : message.IsBroadcast := by
      apply due known.id
      simp [greeting]
    exact spoken_write next left arrived before (by rwa [Message.read_encode broadcast encoded])
  | register =>
    intro id text inside
    by_cases own : id = h.fanout.nextId
    next => simp [enlist, own] at inside
    next => exact before id text (by simpa [enlist, own] using inside)
  | mutate | work | notify | change | claim | list | listed | inner | send | sent | batchEnd | pass
  | close | lose | turnAway | fall | leave | welcome => exact before

def Dropping (h : Host σ) (id : Nat) : Prop :=
  (∃ tick round, h.rounds tick = some round ∧ round.Drops id) ∨ h.accepting = .leaving id

-- The client was written the frames of what it was told, and nothing is left in its buffer.
def Sound (h : Host σ) (client : Client) : Prop :=
  h.held client.id = [] ∧ Frame.Frames (h.told client.id) client.written

section Sound

variable {client next : Client} {id : Nat} {text : String} {left : Bytes} {arrived : Bool}

theorem dropping_round {tick : Nat} {round : Option Round} (dropping : h.Dropping id)
    (kept : ∀ old, h.rounds tick = some old → old.Drops id → ∃ new, round = some new ∧ new.Drops id) :
    (h.setRound tick round).Dropping id := by
  rcases dropping with ⟨other, old, there, drops⟩ | leaving
  next =>
    by_cases same : other = tick
    next =>
      subst same
      obtain ⟨new, rfl, still⟩ := kept old there drops
      exact .inl ⟨other, new, setRound_same .., still⟩
    next => exact .inl ⟨other, old, by simpa [setRound, same] using there, drops⟩
  next => exact .inr leaving

theorem dropping_accepting (dropping : h.Dropping id) (stays : h.accepting ≠ .leaving id)
    (rounds : k.rounds = h.rounds) : k.Dropping id :=
  .inl (by simpa [rounds] using dropping.resolve_right stays)

theorem sound_other (sound : h.Sound client) (held : k.held client.id = h.held client.id)
    (told : k.told client.id = h.told client.id) : k.Sound client :=
  ⟨held.trans sound.1, told ▸ sound.2⟩

theorem sound_written (sound : h.Sound client)
    (writes : client.Writes (h.held client.id) text next left true) :
    (h.write next text left true).Sound next := by
  obtain ⟨rfl, frame, framed, written⟩ := writes.whole
  rw [sound.1, List.append_nil] at written
  refine ⟨by simp [write], ?_⟩
  rw [written, write, writes.same_id]
  simpa using sound.2.snoc text frame framed

theorem write_other {other : Client} (sound : h.Sound other) (different : other.id ≠ next.id) :
    (h.write next text left arrived).Sound other := by
  refine sound_other sound (by simp [write, different]) ?_
  cases arrived <;> simp [write, different]

end Sound

def Orderly (h : Host σ) : Prop :=
  ∀ client ∈ h.fanout.clients, h.Dropping client.id ∨ h.Sound client

theorem orderly_round {tick : Nat} {round : Option Round} (orderly : h.Orderly)
    (kept : ∀ client ∈ h.fanout.clients, ∀ old, h.rounds tick = some old → old.Drops client.id →
      ∃ new, round = some new ∧ new.Drops client.id) : (h.setRound tick round).Orderly := by
  intro client there
  exact (orderly client there).imp_left fun dropping => dropping_round dropping (kept client there)

theorem orderly_accepting {accepting : Accepting} (orderly : h.Orderly)
    (stays : ∀ client ∈ h.fanout.clients, h.accepting ≠ .leaving client.id) :
    Orderly { h with accepting := accepting } := by
  intro client there
  rcases orderly client there with dropping | sound
  next => exact .inl (dropping_accepting dropping (stays client there) rfl)
  next => exact .inr sound

theorem orderly_remove {ids : List Nat} (orderly : h.Orderly) :
    Orderly { h with fanout := h.fanout.remove ids } :=
  fun client remains => orderly client (Fanout.mem_remove remains).1

theorem orderly_finish {tick : Nat} {round : Round} (orderly : h.Orderly)
    (whole : h.rounds tick = some round) (done : round.Done) :
    ({ h with fanout := h.fanout.remove round.failed }.setRound tick none).Orderly := by
  refine orderly_round (orderly_remove orderly) fun client remains old there drops => ?_
  cases whole.symm.trans there
  rcases drops with failing | failed
  next => cases done.2.symm.trans failing
  next => exact absurd failed (Fanout.mem_remove remains).2

theorem orderly_deliver {tick : Nat} {round : Round} {client next : Client} {rest : List Nat}
    {left : Bytes} {arrived : Bool} (orderly : h.Orderly) (under_way : h.rounds tick = some round)
    (calm : round.failing = none) (there : client ∈ h.fanout.clients)
    (writes : client.Writes (h.held client.id) round.text next left arrived) :
    ((h.write next round.text left arrived).setRound tick
      (some (round.after client.id rest arrived))).Orderly := by
  have kept (id : Nat) (dropping : h.Dropping id) :
      ((h.write next round.text left arrived).setRound tick
        (some (round.after client.id rest arrived))).Dropping id := by
    refine dropping_round dropping fun old known drops => ?_
    cases under_way.symm.trans known
    have failed : id ∈ round.failed := drops.resolve_left (by simp [calm])
    exact ⟨_, rfl, .inr failed⟩
  intro other remains
  rcases Fanout.mem_update remains with rfl | ⟨old, different⟩
  next =>
    cases arrived with
    | false =>
      rw [writes.same_id]
      exact .inl (.inl ⟨tick, _, setRound_same .., .inl rfl⟩)
    | true =>
      rcases orderly client there with dropping | sound
      next =>
        rw [writes.same_id]
        exact .inl (kept client.id dropping)
      next => exact .inr (sound_written sound writes)
  next =>
    exact (orderly other old).imp (kept other.id) fun sound => write_other sound different

theorem orderly_greet {client next : Client} {due : List Message} {rest : List Message} {text : String}
    {left : Bytes} {arrived : Bool} (orderly : h.Orderly)
    (greeting : h.accepting = .greeting client.id due) (there : client ∈ h.fanout.clients)
    (writes : client.Writes (h.held client.id) text next left arrived) :
    Orderly { h.write next text left arrived with
      accepting := if arrived then .greeting client.id rest else .leaving client.id } := by
  have kept (id : Nat) (dropping : h.Dropping id) : Dropping { h.write next text left arrived with
      accepting := if arrived then .greeting client.id rest else .leaving client.id } id :=
    dropping_accepting dropping (by simp [greeting]) rfl
  intro other remains
  rcases Fanout.mem_update remains with rfl | ⟨old, different⟩
  next =>
    cases arrived with
    | false => exact .inl (.inr (by rw [writes.same_id]; rfl))
    | true =>
      rcases orderly client there with dropping | sound
      next =>
        rw [writes.same_id]
        exact .inl (kept client.id dropping)
      next => exact .inr (sound_written sound writes)
  next =>
    exact (orderly other old).imp (kept other.id) fun sound => write_other sound different

theorem orderly_register {due : List Message} (orderly : h.Orderly) (idle : h.accepting = .idle)
    (numbered : ∀ client ∈ h.fanout.clients, client.id < h.fanout.nextId) : (h.enlist due).Orderly := by
  intro client there
  rcases Fanout.mem_register there with old | rfl
  next =>
    have other : client.id ≠ h.fanout.nextId := (numbered client old).ne
    refine (orderly client old).imp (fun dropping => ?_) fun sound => ?_
    next => exact dropping_accepting dropping (by simp [idle]) rfl
    next => exact sound_other sound (by simp [enlist, other]) (by simp [enlist, other])
  next => exact .inr ⟨by simp [enlist, Client.connected], by simpa [enlist, Client.connected] using .none⟩

theorem Step.orderly (before : h.Orderly) (fits : RoundsFit h.clock h.rounds)
    (numbered : ∀ client ∈ h.fanout.clients, client.id < h.fanout.nextId)
    (step : Step workspace version h k) : k.Orderly := by
  cases step with
  | mutate | work | notify | change | claim | inner | batchEnd | turnAway => exact before
  | list tick clock message metadata text step =>
    have silent : h.rounds tick = none := by
      have round := fits tick
      cases step with
      | listRead _ _ claimed => rwa [claimed] at round
    refine orderly_round before fun _ _ old there => ?_
    cases silent.symm.trans there
  | send tick batch content text batching free =>
    refine orderly_round before fun _ _ old there => ?_
    cases free.symm.trans there
  | listed tick clock round whole done => exact orderly_finish before whole done
  | sent tick batch round batching whole done => exact orderly_finish before whole done
  | deliver tick round client next rest left arrived under_way turn calm there free writes =>
    exact orderly_deliver before under_way calm there writes
  | pass tick round id rest arrived under_way turn calm gone =>
    refine orderly_round before fun client there old known drops => ?_
    cases under_way.symm.trans known
    exact ⟨_, rfl, .inr (drops.resolve_left (by simp [calm]))⟩
  | close tick round id under_way failing =>
    have shut : Orderly { h with fanout := h.fanout.shut id } := by
      intro client there
      rcases Fanout.mem_shut there with old | ⟨known, member, rfl⟩
      next => exact before client old
      next => exact before known member
    refine orderly_round shut fun client there old known drops => ?_
    cases under_way.symm.trans known
    rcases drops with own | failed
    next =>
      cases failing.symm.trans own
      exact ⟨_, rfl, .inr (by simp)⟩
    next => exact ⟨_, rfl, .inr (by simp [failed])⟩
  | lose known member =>
    intro client there
    rcases Fanout.mem_update there with rfl | ⟨old, _⟩
    next => exact before known member
    next => exact before client old
  | register idle => exact orderly_register before idle numbered
  | greet client next message due text left arrived greeting there encoded writes =>
    exact orderly_greet before greeting there writes
  | fall id message due fault greeting => exact orderly_accepting before (by simp [greeting])
  | leave id leaving =>
    have removed : Orderly { h with fanout := h.fanout.remove [id] } := orderly_remove before
    refine orderly_accepting removed fun client remains own => ?_
    cases leaving.symm.trans own
    exact (Fanout.mem_remove remains).2 (by simp)
  | welcome id greeted => exact orderly_accepting before (by simp [greeted])

theorem Step.single (single : h.clock.Single) (step : Step workspace version h k) :
    k.clock.Single := by
  cases step with
  | claim tick clock alone step => exact Clock.single_claim alone step
  | list tick clock message metadata text step => exact Clock.single_step single step nofun
  | listed tick clock round whole done step => exact Clock.single_step single step nofun
  | inner moment clock inner step => exact Clock.single_step single step (inner_moment inner).2.1
  | batchEnd tick clock silent step => exact Clock.single_step single step nofun
  | mutate | work | notify | change | send | sent | deliver | pass | close | lose | turnAway
  | register | greet | fall | leave | welcome => exact single

end Host

end TemplateSync
