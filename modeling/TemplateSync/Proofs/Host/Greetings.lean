import TemplateSync.Proofs.Host.Hub.Invariant

set_option autoImplicit false

namespace TemplateSync

def Deed.serves (number : Nat) : Deed → Bool
  | .greeted .. | .left _ | .shutOut _ | .welcomed _ => true
  | .wrote own _ _ | .shut own _ | .returned own => own == number
  | .moved | .turnedAway | .registered _ | .snapshot _ | .called _ | .lost _ => false

namespace Hub

variable {σ : Type} {workspace : Workspace σ} {protocol : Int32} {h m k : Hub σ} {deed : Deed}
  {deeds : List Deed} {number id : Nat}

section Returning

def Serves (workspace : Workspace σ) (protocol : Int32) (number : Nat) (h k : Hub σ) : Prop :=
  ∃ own, Trace (Step workspace protocol) h own k ∧ ∀ deed ∈ own, deed.serves number = true

theorem Serves.refl (h : Hub σ) : Serves workspace protocol number h h :=
  ⟨[], .start, nofun⟩

theorem Serves.head (first : Step workspace protocol h deed m) (own : deed.serves number = true)
    (rest : Serves workspace protocol number m k) : Serves workspace protocol number h k := by
  obtain ⟨deeds, trace, all⟩ := rest
  exact ⟨deed :: deeds, trace_cons.mpr ⟨m, first, trace⟩, by simpa [own] using all⟩

theorem Serves.trans (one : Serves workspace protocol number h m)
    (two : Serves workspace protocol number m k) : Serves workspace protocol number h k := by
  obtain ⟨first, trace, all⟩ := one
  obtain ⟨second, rest, others⟩ := two
  exact ⟨first ++ second, trace.trans rest, by simpa [or_imp, forall_and] using ⟨all, others⟩⟩

theorem Serves.sound (serves : Serves workspace protocol number h k)
    (sound : h.Sound workspace protocol) : k.Sound workspace protocol := by
  obtain ⟨_, trace, _⟩ := serves
  exact trace_sound trace sound

theorem closing_idles (number : Nat) (sound : h.Sound workspace protocol)
    (closing : h.reception = .closing id) :
    ∃ k, Serves workspace protocol number h k ∧ k.reception = .idle ∧ k.calls = h.calls := by
  obtain ⟨peer, there⟩ := sound.roll.served id (by rw [closing]; rfl)
  exact ⟨_, .head (.shutOut id peer closing there) rfl (.refl _), rfl, rfl⟩

theorem leaving_idles (number : Nat) (sound : h.Sound workspace protocol)
    (leaving : h.reception = .leaving id) :
    ∃ k, Serves workspace protocol number h k ∧ k.reception = .idle ∧ k.calls = h.calls := by
  have left : Step workspace protocol h _ _ := .left id leaving
  obtain ⟨k, serves, idle, same⟩ := closing_idles number (sound.next left) rfl
  exact ⟨k, .head left rfl serves, idle, same⟩

theorem greeting_idles (due : List Entry) {h : Hub σ} (sound : h.Sound workspace protocol)
    (greeting : h.reception = .greeting id) {peer : Peer} (there : h.peers id = some peer)
    (here : peer.due = due) :
    ∃ k, Serves workspace protocol number h k ∧ k.reception = .idle ∧ k.calls = h.calls := by
  induction due generalizing h peer with
  | nil => exact ⟨_, .head (.welcomed id peer greeting there here) rfl (.refl _), rfl, rfl⟩
  | cons entry due ih =>
    obtain ⟨text, encoded⟩ := Message.encodes
      ((sound.peers id peer there).entries entry (by simp [Peer.line, here])).1
    obtain ⟨next, arrived, trial⟩ := Client.exists_trial peer.client text
    have greeted : Step workspace protocol h _ _ :=
      .greeted id peer entry due text next arrived greeting there here encoded trial
    have later := sound.next greeted
    cases arrived with
    | true =>
      obtain ⟨k, serves, idle, same⟩ := ih later rfl (setPeer_same ..) rfl
      exact ⟨k, .head greeted rfl serves, idle, same⟩
    | false =>
      obtain ⟨k, serves, idle, same⟩ := leaving_idles number later rfl
      exact ⟨k, .head greeted rfl serves, idle, same⟩

theorem reception_idles (number : Nat) (sound : h.Sound workspace protocol) :
    ∃ k, Serves workspace protocol number h k ∧ k.reception = .idle ∧ k.calls = h.calls := by
  cases reception : h.reception with
  | idle => exact ⟨h, .refl h, reception, rfl⟩
  | greeting id =>
    obtain ⟨peer, there⟩ := sound.roll.served id (by rw [reception]; rfl)
    exact greeting_idles peer.due sound reception there rfl
  | leaving id => exact leaving_idles number sound reception
  | closing id => exact closing_idles number sound reception

theorem delivery_calms (sound : h.Sound workspace protocol) (idle : h.reception = .idle)
    {call : Call} (there : h.calls number = some call) :
    ∃ k, Serves workspace protocol number h k ∧ k.reception = .idle ∧
      ∃ calm, k.calls number = some calm ∧ calm.round.waiting = call.round.waiting ∧
        calm.round.failing = none ∧ calm.returned = call.returned := by
  cases failing : call.round.failing with
  | none => exact ⟨h, .refl h, idle, call, there, rfl, failing, rfl⟩
  | some id =>
    obtain ⟨peer, here, _⟩ := sound.roll.losers number call there id (.inl failing)
    have shut : Step workspace protocol h _ _ := .shut number call id peer there failing here
    exact ⟨_, .head shut (by simp [Deed.serves]) (.refl _), idle, _, setCall_same .., rfl, rfl, rfl⟩

theorem idle_returns (waiting : List Nat) {h : Hub σ} (sound : h.Sound workspace protocol)
    (idle : h.reception = .idle) {call : Call} (there : h.calls number = some call)
    (here : call.round.waiting = waiting) (running : call.returned = false) :
    ∃ m k, Serves workspace protocol number h m ∧
      Step workspace protocol m (.returned number) k := by
  induction waiting generalizing h call with
  | nil =>
    obtain ⟨m, serves, _, calm, now, none, quiet, same⟩ := delivery_calms sound idle there
    exact ⟨m, _, serves, .returned number calm now (same.trans running) ⟨none.trans here, quiet⟩⟩
  | cons id waiting ih =>
    obtain ⟨m, serves, idle, calm, now, turn, quiet, same⟩ := delivery_calms sound idle there
    have later := serves.sound sound
    have copied := (later.calls number calm now).copied id (by simp [turn, here])
    obtain ⟨peer, known, _⟩ := later.received number calm now id copied
    obtain ⟨next, arrived, trial⟩ := Client.exists_trial peer.client calm.round.text
    have wrote : Step workspace protocol m _ _ :=
      .wrote number calm id waiting peer next arrived now (turn.trans here) quiet known
        (by simp [idle]) trial
    obtain ⟨last, k, rest, returned⟩ :=
      ih (later.next wrote) idle (setCall_same ..) rfl (same.trans running)
    exact ⟨last, k, serves.trans (.head wrote (by simp [Deed.serves]) rest), returned⟩

theorem call_returns (sound : h.Sound workspace protocol) {call : Call}
    (there : h.calls number = some call) (running : call.returned = false) :
    ∃ m k, Serves workspace protocol number h m ∧
      Step workspace protocol m (.returned number) k := by
  obtain ⟨m, serves, idle, same⟩ := reception_idles number sound
  obtain ⟨last, k, rest, returned⟩ := idle_returns call.round.waiting (serves.sound sound) idle
    (by rw [same, there]) rfl running
  exact ⟨last, k, serves.trans rest, returned⟩

end Returning

section Runs

theorem worlds_run (trace : Trace (Step workspace protocol) h deeds k) : h.worlds <+: k.worlds := by
  induction trace with
  | start => exact List.prefix_rfl
  | next _ last ih => exact ih.trans (worlds_step last)

theorem past_run (trace : Trace (Step workspace protocol) h deeds k) :
    h.past.length ≤ k.past.length := by
  have longer := (worlds_run trace).length_le
  simpa [worlds] using longer

theorem peer_run (sound : h.Sound workspace protocol)
    (trace : Trace (Step workspace protocol) h deeds k) {old : Peer}
    (there : h.peers id = some old) :
    ∃ new, k.peers id = some new ∧ new.greeting = old.greeting ∧
      (old.failed = true → new.failed = true) := by
  induction trace with
  | start => exact ⟨old, there, rfl, fun failed => failed⟩
  | next trace last ih =>
    obtain ⟨middle, known, same, lost⟩ := ih
    obtain ⟨new, now, change⟩ := peer_step (trace_sound trace sound).roll.numbered last known
    exact ⟨new, now, change.greeting.trans same, fun failed => change.failed (lost failed)⟩

theorem returned_iff (step : Step workspace protocol h deed k) {old new : Call}
    (there : h.calls number = some old) (now : k.calls number = some new) :
    new.returned = true ↔ old.returned = true ∨ deed = .returned number := by
  by_cases own : deed = .returned number
  next =>
    subst own
    cases step
    rw [setCall_same] at now
    cases now
    simp
  next =>
    obtain ⟨_, same, turn⟩ := call_step step there
    cases same.symm.trans now
    cases turn with
    | kept | wrote | shut => simp [own]
    | returned gone => exact absurd gone own

theorem call_run (trace : Trace (Step workspace protocol) h deeds k) {old : Call}
    (there : h.calls number = some old) :
    ∃ new, k.calls number = some new ∧ new.entry = old.entry ∧ new.copied = old.copied ∧
      (new.returned = true ↔ old.returned = true ∨ .returned number ∈ deeds) := by
  induction trace with
  | start => exact ⟨old, there, rfl, rfl, by simp⟩
  | next trace last ih =>
    obtain ⟨middle, known, entry, copied, returned⟩ := ih
    obtain ⟨new, now, turn⟩ := call_step last known
    refine ⟨new, now, turn.entry.1.trans entry, turn.entry.2.trans copied, ?_⟩
    rw [returned_iff last known now, returned, List.mem_append, List.mem_singleton, or_assoc,
      eq_comm (b := Deed.returned number)]

theorem registered_run (sound : h.Sound workspace protocol)
    (trace : Trace (Step workspace protocol) h deeds k) (registered : .registered id ∈ deeds) :
    ∃ peer, k.peers id = some peer ∧ ∀ entry ∈ peer.greeting, h.past.length ≤ entry.version := by
  obtain ⟨first, second, rfl⟩ := List.append_of_mem registered
  obtain ⟨middle, one, rest⟩ := trace_append.mp trace
  obtain ⟨last, step, two⟩ := trace_cons.mp rest
  have later := (trace_sound one sound).next step
  obtain ⟨old, there, built⟩ : ∃ old, last.peers id = some old ∧
      old.greeting = greetingAt workspace protocol middle.past.length middle.world := by
    cases step
    exact ⟨_, Function.update_self .., rfl⟩
  obtain ⟨peer, now, same, _⟩ := peer_run later two there
  refine ⟨peer, now, ?_⟩
  rw [same, built]
  intro entry inside
  obtain ⟨_, _, rfl⟩ := List.mem_map.mp inside
  exact past_run one

end Runs

theorem Sound.heard (sound : h.Sound workspace protocol) {peer : Peer}
    (there : h.peers id = some peer) (sane : peer.failed = false) :
    peer.client.heard = peer.told.map Entry.message ∧
      (peer.told <+: peer.greeting ∨ ∃ sent, peer.told = peer.greeting ++ sent ∧
        ∀ entry ∈ sent, entry.call.isSome = true) := by
  have fits := sound.peers id peer there
  obtain ⟨spelled, frames, same⟩ := fits.whole sane
  obtain ⟨sent, whole, calls, none⟩ := fits.greeted sane
  refine ⟨?_, ?_⟩
  next => rw [Client.heard_of_frames (List.append_nil _).symm frames Frame.torn_nil, same]
  next =>
    by_cases due : peer.due = []
    next =>
      rw [Peer.line, due, List.append_nil] at whole
      exact .inr ⟨sent, whole, calls⟩
    next =>
      rw [none due, List.append_nil] at whole
      exact .inl ⟨peer.due, whole⟩

theorem snapshot_reaches {after : List Deed} (sound : h.Sound workspace protocol)
    (step : Step workspace protocol h (.snapshot number) m)
    (trace : Trace (Step workspace protocol) m after k) {old : Peer} (there : h.peers id = some old)
    {peer : Peer} (now : k.peers id = some peer) (sane : peer.failed = false) :
    (.returned number ∈ after → listAt workspace number h.past.length h.world ∈ peer.told) ∧
      (.returned number ∉ after → ∃ last done, Serves workspace protocol number k last ∧
        Step workspace protocol last (.returned number) done) := by
  have later := sound.next step
  have healthy : old.failed = false := by
    obtain ⟨_, same, _, lost⟩ := peer_run sound (trace_cons.mpr ⟨m, step, trace⟩) there
    cases same.symm.trans now
    by_contra failed
    simp [lost (Bool.not_eq_false _ ▸ failed)] at sane
  obtain ⟨call, begun, entry, copied, fresh⟩ : ∃ call, m.calls number = some call ∧
      call.entry = listAt workspace number h.past.length h.world ∧ call.copied = h.members ∧
      call.returned = false := by
    cases step
    exact ⟨_, setCall_same .., rfl, rfl, rfl⟩
  obtain ⟨last, running, same, members, returned⟩ := call_run trace begun
  rw [fresh] at returned
  have fits := trace_sound trace later
  constructor
  next =>
    intro inside
    have finished := (fits.calls number last running).finished (returned.mpr (.inr inside))
    have inSet : id ∈ last.copied := by
      rw [members, copied]
      exact sound.roll.member id old there healthy
    obtain ⟨_, known, outcome⟩ := fits.received number last running id inSet
    cases known.symm.trans now
    rw [sane, finished, same, entry] at outcome
    simpa using outcome
  next =>
    intro outside
    refine call_returns fits running ?_
    by_contra finished
    rcases returned.mp (Bool.not_eq_false _ ▸ finished) with none | inside
    next => cases none
    next => exact outside inside

theorem lists_follow_greetings (workspace : Workspace σ) (protocol : Int32) (world : σ) :
    (∀ deeds h id peer, Trace (Step workspace protocol) (start world) deeds h →
      h.peers id = some peer → peer.failed = false →
      peer.client.heard = peer.told.map Entry.message ∧
      (∃ changes seen, h.worlds[changes]? = some seen ∧
        peer.greeting = [⟨.version protocol, changes, none⟩,
          ⟨.solution (workspace.projects seen), changes, none⟩]) ∧
      (peer.told <+: peer.greeting ∨ ∃ sent, peer.told = peer.greeting ++ sent ∧
        ∀ entry ∈ sent, entry.call.isSome = true) ∧
      (peer.told.Pairwise fun earlier later =>
        earlier.isList = true → later.isList = true → earlier.version ≤ later.version) ∧
      ∀ entry ∈ peer.told, ∀ projects, entry.message = .solution projects →
        ∃ seen, h.worlds[entry.version]? = some seen ∧ projects = workspace.projects seen) ∧
    ∀ before number after h m k, Trace (Step workspace protocol) (start world) before h →
      Step workspace protocol h (.snapshot number) m → Trace (Step workspace protocol) m after k →
      ∀ id peer, k.peers id = some peer → peer.failed = false →
        (.registered id ∈ before →
          (.returned number ∈ after → listAt workspace number h.past.length h.world ∈ peer.told) ∧
          (.returned number ∉ after → ∃ last done, Serves workspace protocol number k last ∧
            Step workspace protocol last (.returned number) done)) ∧
        (.registered id ∈ after → ∀ entry ∈ peer.greeting, h.past.length ≤ entry.version) := by
  constructor
  next =>
    intro deeds h id peer trace there sane
    have sound := trace_sound trace (start_sound workspace protocol world)
    obtain ⟨heard, first⟩ := sound.heard there sane
    have told : peer.told.Sublist peer.line := List.sublist_append_left ..
    refine ⟨heard, (sound.peers id peer there).greeting, first,
      (sound.ordered id peer there).sublist told, ?_⟩
    intro entry inside projects list
    obtain ⟨_, seen, valid, right⟩ := (sound.peers id peer there).entries entry (told.subset inside)
    exact ⟨seen, valid, right projects list⟩
  next =>
    intro before number after h m k trace step rest id peer now sane
    have sound := trace_sound trace (start_sound workspace protocol world)
    constructor
    next =>
      intro registered
      obtain ⟨old, there, _⟩ := registered_run (start_sound workspace protocol world) trace registered
      exact snapshot_reaches sound step rest there now sane
    next =>
      intro registered entry inside
      obtain ⟨_, there, younger⟩ := registered_run (sound.next step) rest registered
      cases there.symm.trans now
      exact (past_run (trace_single step)).trans (younger entry inside)

section Example

def shelf : Workspace (List ProjectDescriptor) :=
  ⟨fun projects => projects, fun _ => Pure.pure .crashed⟩

def added : ProjectDescriptor :=
  ⟨.ofNat 1, "added", "/added/added.csproj", []⟩

def standing (world : List ProjectDescriptor) (past : List (List ProjectDescriptor))
    (reception : Reception) (calls : Nat → Option Call) (written : Bytes)
    (greeting due told : List Entry) : Hub (List ProjectDescriptor) :=
  ⟨world, past,
    Function.update (fun _ => none) 1 (some ⟨⟨1, written, false, true⟩, greeting, due, told, false⟩),
    [1], 2, reception, calls⟩

variable {world : List ProjectDescriptor} {past : List (List ProjectDescriptor)}
  {calls : Nat → Option Call} {greeting due told : List Entry}

theorem standing_greets (written : Bytes) (entry : Entry)
    (short : ∃ text, entry.message.encode = .ok text ∧
      (Utf8.encode text).length < Frame.maxLength) :
    ∃ more, Step shelf 1
      (standing world past (.greeting 1) calls written greeting (entry :: due) told)
      (.greeted 1 true)
      (standing world past (.greeting 1) calls more greeting due (told ++ [entry])) := by
  obtain ⟨text, encoded, short⟩ := short
  obtain ⟨frame, done⟩ : ∃ frame, Client.write ⟨1, written, false, true⟩ _ = .ok _ :=
    Client.write_intact rfl rfl short
  have step : Step shelf 1
      (standing world past (.greeting 1) calls written greeting (entry :: due) told) _ _ :=
    .greeted 1 _ entry due text _ true rfl rfl rfl encoded
      (.written _ done)
  exact ⟨written ++ frame, by simpa [standing, receive, setPeer, Peer.took] using step⟩

variable (world past calls greeting told) in
theorem standing_serves (written : Bytes) {call : Call} (under_way : calls 0 = some call)
    (turn : call.round.waiting = [1]) (calm : call.round.failing = none)
    (short : (Utf8.encode call.round.text).length < Frame.maxLength) :
    ∃ more, Step shelf 1 (standing world past .idle calls written greeting [] told)
      (.wrote 0 1 true)
      ((standing world past .idle calls more greeting [] (told ++ [call.entry])).setCall 0
        { call with round := call.round.after 1 [] true }) := by
  obtain ⟨frame, done⟩ : ∃ frame, Client.write ⟨1, written, false, true⟩ _ = .ok _ :=
    Client.write_intact rfl rfl short
  have step : Step shelf 1 (standing world past .idle calls written greeting [] told) _ _ :=
    .wrote 0 call 1 [] _ _ true under_way turn calm rfl nofun
      (.written _ done)
  exact ⟨written ++ frame, by simpa [standing, setPeer, setCall, Peer.took] using step⟩

theorem shelf_greets :
    ∃ written told, Trace (Step shelf 1) (start [])
      [.registered 1, .greeted 1 true, .greeted 1 true, .welcomed 1, .moved]
      (standing [added] [[]] .idle (fun _ => none) written (greetingAt shelf 1 0 []) [] told) := by
  have one : ∃ text, (Message.version 1).encode = .ok text ∧
      (Utf8.encode text).length < Frame.maxLength := ⟨_, rfl, by decide +kernel⟩
  have two : ∃ text, (Message.solution []).encode = .ok text ∧
      (Utf8.encode text).length < Frame.maxLength := ⟨_, rfl, by decide +kernel⟩
  have registered : Trace (Step shelf 1) (start []) [.registered 1]
      (standing [] [] (.greeting 1) (fun _ => none) [] (greetingAt shelf 1 0 [])
        (greetingAt shelf 1 0 []) []) := trace_single (.registered rfl)
  obtain ⟨_, versioned⟩ := standing_greets [] ⟨.version 1, 0, none⟩ one
  obtain ⟨_, listed⟩ := standing_greets _ ⟨.solution [], 0, none⟩ two
  have greeted := (registered.next versioned).next listed
  exact ⟨_, _, (greeted.next (.welcomed 1 _ rfl rfl rfl)).next (.moved [added])⟩

theorem shelf_lists (written : Bytes) (greeting told : List Entry) :
    ∃ m k peer other,
      Step shelf 1 (standing [added] [[]] .idle (fun _ => none) written greeting [] told)
        (.snapshot 0) m ∧
      Trace (Step shelf 1) m [.wrote 0 1 true, .returned 0, .registered 2] k ∧
      k.peers 1 = some peer ∧ peer.failed = false ∧ k.peers 2 = some other ∧
      other.failed = false := by
  have three : ∃ text, (Message.solution [added]).encode = .ok text ∧
      (Utf8.encode text).length < Frame.maxLength := ⟨_, rfl, by decide +kernel⟩
  obtain ⟨text, encoded, short⟩ := three
  have taken : Step shelf 1
      (standing [added] [[]] .idle (fun _ => none) written greeting [] told) (.snapshot 0) _ :=
    .snapshot 0 text rfl (fun _ _ there => nomatch there) encoded
  let delivery : Call := .start (listAt shelf 0 1 [added]) text [1]
  obtain ⟨_, wrote⟩ := standing_serves [added] [[]]
    (Function.update (fun _ => none) 0 (some delivery)) greeting told written rfl rfl rfl short
  have after := ((trace_single wrote).next (.returned 0 _ (setCall_same ..) rfl ⟨rfl, rfl⟩)).next
    (.registered rfl)
  exact ⟨_, _, _, _, taken, after, rfl, rfl, rfl, rfl⟩

/-- The first client is greeted before the project is added, the second registers after its list was sent. -/
theorem added_project_arrives :
    ∃ h m k peer other, Trace (Step shelf 1) (start [])
        [.registered 1, .greeted 1 true, .greeted 1 true, .welcomed 1, .moved] h ∧
      Step shelf 1 h (.snapshot 0) m ∧
      Trace (Step shelf 1) m [.wrote 0 1 true, .returned 0, .registered 2] k ∧
      k.peers 1 = some peer ∧ listAt shelf 0 1 [added] ∈ peer.told ∧
      k.peers 2 = some other ∧ ∀ entry ∈ other.greeting, 1 ≤ entry.version := by
  obtain ⟨written, told, before⟩ := shelf_greets
  obtain ⟨m, k, peer, other, taken, after, one, sane, two, healthy⟩ := shelf_lists written _ told
  obtain ⟨_, reaches⟩ := lists_follow_greetings shelf 1 []
  have first := (reaches _ 0 _ _ _ _ before taken after 1 peer one sane).1 (by simp)
  have second := (reaches _ 0 _ _ _ _ before taken after 2 other two healthy).2 (by simp)
  exact ⟨_, m, k, peer, other, before, taken, after, one, first.1 (by simp), two, second⟩

end Example

end Hub

end TemplateSync
