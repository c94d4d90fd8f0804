import TemplateSync.Proofs.Host.Exchange.Accounts
import TemplateSync.Proofs.Host.Uninterrupted

set_option autoImplicit false

namespace TemplateSync

namespace Client

def line (client : Client) : Line :=
  ⟨⟨client.written, []⟩, client.isOpen⟩

variable {client next : Client} {text : String}

theorem line_writes (written : client.write text = .ok next) :
    ∃ frame, client.line.Writes text next.line frame true := by
  obtain ⟨_, linked, frame, framed, rfl⟩ := write_ok written
  have whole := Outlet.write_whole framed client.written (Nat.le_refl frame.length)
  exact ⟨frame, ⟨frame.length, by simp [line, linked], whole⟩, by simp [line, Outlet.stream], rfl⟩

theorem line_refuses (text : String) (client : Client) :
    ∃ next piece, client.line.Writes text next piece false ∧ next.isOpen = client.isOpen := by
  rcases done : client.line.outlet.write text 0 with ⟨outlet, arrived⟩
  obtain rfl : arrived = false := by
    have stuck := Outlet.write_nowhere text client.line.outlet
    rwa [done] at stuck
  obtain ⟨piece, writes⟩ := Line.writes_of (fun _ => rfl) done
  exact ⟨_, piece, writes, rfl⟩

end Client

namespace Exchange

variable {h k m : Exchange} {number id : Nat} {message : Message} {copied : List Nat}
  {fanout : Fanout}

structure Shows (h : Exchange) (fanout : Fanout) : Prop where
  members : h.members = fanout.clients.map Client.id
  nextId : h.nextId = fanout.nextId
  lines : ∀ client ∈ fanout.clients, h.lines client.id = some client.line
  idle : h.reception = .idle
  running : h.stopping = false

section Deliver

structure Still (h k : Exchange) : Prop where
  members : k.members = h.members
  nextId : k.nextId = h.nextId
  reception : k.reception = h.reception
  stopping : k.stopping = h.stopping

theorem Still.trans (one : Still h m) (two : Still m k) : Still h k :=
  ⟨two.members.trans one.members, two.nextId.trans one.nextId, two.reception.trans one.reception,
    two.stopping.trans one.stopping⟩

structure Turned (h m : Exchange) (number : Nat) (message : Message) (copied : List Nat) (text : String)
    (waiting failed : List Nat) (client now : Client) (mine : List (Nat × IoError)) : Prop where
  still : Still h m
  there : m.calls number = some (.sending message copied ⟨text, waiting, none, failed ++ mine.map Prod.fst⟩)
  named : now.id = client.id
  line : client.id ∉ mine.map Prod.fst → m.lines client.id = some now.line
  others : ∀ id, id ≠ client.id → m.lines id = h.lines id
  outcome : ∀ clients, Fanout.deliverTo text (client :: clients) =
    (now :: (Fanout.deliverTo text clients).1, mine ++ (Fanout.deliverTo text clients).2)

structure Handed (h k : Exchange) (number : Nat) (message : Message) (copied : List Nat)
    (text : String) (failed : List Nat) (clients : List Client) : Prop where
  still : Still h k
  there : k.calls number = some (.sending message copied
    ⟨text, [], none, failed ++ (Fanout.deliverTo text clients).2.map Prod.fst⟩)
  lines : ∀ client ∈ (Fanout.deliverTo text clients).1,
    client.id ∉ (Fanout.deliverTo text clients).2.map Prod.fst →
      k.lines client.id = some client.line
  others : ∀ id, id ∉ clients.map Client.id → k.lines id = h.lines id

variable {text : String} {waiting failed : List Nat} {client now : Client} {clients : List Client}
  {mine : List (Nat × IoError)}

theorem Turned.handed (turned : Turned h m number message copied text waiting failed client now mine)
    (rest : Handed m k number message copied text (failed ++ mine.map Prod.fst) clients)
    (fresh : client.id ∉ clients.map Client.id) :
    Handed h k number message copied text failed (client :: clients) where
  still := turned.still.trans rest.still
  there := by rw [rest.there, turned.outcome, List.map_append, List.append_assoc]
  lines := by
    intro other inside sane
    rw [turned.outcome, List.map_append, List.mem_append, not_or] at sane
    rw [turned.outcome, List.mem_cons] at inside
    rcases inside with rfl | later
    next =>
      rw [turned.named] at sane ⊢
      rw [rest.others _ fresh, turned.line sane.1]
    next => exact rest.lines other later sane.2
  others := by
    intro other outside
    rw [List.map_cons, List.mem_cons, not_or] at outside
    rw [rest.others other outside.2, turned.others other outside.1]

theorem turn_leads (free : ∀ due, h.reception ≠ .greeting client.id due)
    (there : h.calls number = some (.sending message copied ⟨text, client.id :: waiting, none, failed⟩))
    (here : h.lines client.id = some client.line) :
    ∃ m now mine, Leads Step (fun deed => deed.call? = some number) h m ∧
      Turned h m number message copied text waiting failed client now mine := by
  cases written : client.write text with
  | ok next =>
    obtain ⟨frame, writes⟩ := Client.line_writes written
    obtain ⟨_, _, _, _, same⟩ := Client.write_ok written
    have wrote : Step h _ ((h.setLine client.id next.line).setCall number _) :=
      .wrote number message copied _ client.id waiting client.line next.line frame true there rfl rfl
        here free writes
    exact ⟨_, next, [], .head wrote rfl (.refl _), {
      still := ⟨rfl, rfl, rfl, rfl⟩
      there := by simp [Round.after]
      named := by rw [same]
      line := fun _ => setLine_same ..
      others := fun _ => setLine_other _ _ _
      outcome := Fanout.deliverTo_written written }⟩
  | error error =>
    obtain ⟨line, piece, writes, _⟩ := Client.line_refuses text client
    generalize refused : (h.setLine client.id line).setCall number (.sending message copied
      ⟨text, waiting, some client.id, failed⟩) = m
    have wrote : Step h (.wrote number client.id piece false) m :=
      refused ▸ .wrote number message copied _ client.id waiting client.line line piece false there rfl rfl
        here free writes
    have shut : Step m (.shut number client.id) ((m.setLine client.id line.close).setCall number _) :=
      .shut number message copied _ client.id line (by rw [← refused, setCall_same]) rfl
        (refused ▸ setLine_same h client.id line)
    exact ⟨_, client.close, [(client.id, error)], .head wrote rfl (.head shut rfl (.refl _)), {
      still := refused ▸ ⟨rfl, rfl, rfl, rfl⟩
      there := setCall_same ..
      named := rfl
      line := fun sane => absurd (List.mem_singleton_self _) sane
      others := fun other different => by
        have before : m.lines other = h.lines other := refused ▸ setLine_other _ _ _ different
        exact (setLine_other _ _ _ different).trans before
      outcome := Fanout.deliverTo_refused written }⟩

theorem delivery_leads (clients : List Client) {h : Exchange} {failed : List Nat}
    (free : ∀ id due, h.reception ≠ .greeting id due)
    (there : h.calls number =
      some (.sending message copied ⟨text, clients.map Client.id, none, failed⟩))
    (distinct : (clients.map Client.id).Nodup)
    (lines : ∀ client ∈ clients, h.lines client.id = some client.line) :
    ∃ k, Leads Step (fun deed => deed.call? = some number) h k ∧
      Handed h k number message copied text failed clients := by
  induction clients generalizing h failed with
  | nil => exact ⟨h, .refl h, ⟨rfl, rfl, rfl, rfl⟩, by simpa [Fanout.deliverTo] using there, nofun, fun _ _ => rfl⟩
  | cons client clients ih =>
    obtain ⟨fresh, distinct⟩ := List.nodup_cons.mp distinct
    obtain ⟨m, now, mine, first, turned⟩ := turn_leads (free client.id) there (lines client List.mem_cons_self)
    have later : ∀ other ∈ clients, m.lines other.id = some other.line := by
      intro other inside
      have different : other.id ≠ client.id := by
        intro equal
        exact fresh (equal ▸ List.mem_map_of_mem inside)
      rw [turned.others _ different, lines other (List.mem_cons_of_mem _ inside)]
    obtain ⟨k, rest, handed⟩ := ih (turned.still.reception ▸ free) turned.there distinct later
    exact ⟨k, first.trans rest, turned.handed handed fresh⟩

end Deliver

theorem start_shows : Shows start .initial :=
  ⟨rfl, rfl, nofun, rfl, rfl⟩

section Send

theorem send_refused {fault : Fault} (unencoded : message.encode = .error fault) (fanout : Fanout) :
    Fanout.send message fanout = ⟨.error fault, [], fanout⟩ := by
  simp [Fanout.send, unencoded]

theorem send_encoded {text : String} (encoded : message.encode = .ok text) (fanout : Fanout) :
    (Fanout.send message fanout).value = .ok (Fanout.deliver text fanout).value ∧
      (Fanout.send message fanout).state = (Fanout.deliver text fanout).state := by
  simp [Fanout.send, encoded]

theorem delivered_length (text : String) (clients : List Client) :
    (Fanout.deliverTo text clients).1.length = clients.length := by
  induction clients with
  | nil => rfl
  | cons client clients ih =>
    cases written : client.write text with
    | ok next => simp [Fanout.deliverTo_written written, ih]
    | error error => simp [Fanout.deliverTo_refused written, ih]

theorem delivered_ids (text : String) (clients : List Client) :
    (Fanout.deliverTo text clients).1.map Client.id = clients.map Client.id := by
  induction clients with
  | nil => rfl
  | cons client clients ih =>
    cases written : client.write text with
    | ok next =>
      obtain ⟨_, _, _, _, rfl⟩ := Client.write_ok written
      simp [Fanout.deliverTo_written written, ih]
    | error error => simp [Fanout.deliverTo_refused written, ih, Client.close]

theorem Shows.setCall (shows : Shows h fanout) (number : Nat) (call : Call) :
    Shows (h.setCall number call) fanout :=
  ⟨shows.members, shows.nextId, shows.lines, shows.idle, shows.running⟩

theorem handed_shows {text : String} (shows : Shows h fanout)
    (handed : Handed h k number message copied text [] fanout.clients) :
    Shows ((k.without ((Fanout.deliverTo text fanout.clients).2.map Prod.fst)).setCall number
      (.returned message copied ((Fanout.deliverTo text fanout.clients).2.map Prod.fst)))
      (Fanout.deliver text fanout).state where
  members := by
    have members : k.members = (Fanout.deliverTo text fanout.clients).1.map Client.id := by
      rw [handed.still.members, shows.members, delivered_ids]
    simp only [without, Exchange.setCall, members, Fanout.deliver, Fanout.remove, List.filter_map]
    rfl
  nextId := handed.still.nextId.trans shows.nextId
  lines := by
    intro client inside
    obtain ⟨there, sane⟩ := Fanout.mem_remove inside
    exact handed.lines client there sane
  idle := handed.still.reception.trans shows.idle
  running := handed.still.stopping.trans shows.running

theorem send_leads (roll : Roll h) (shows : Shows h fanout) (unused : h.calls number = none)
    (message : Message) :
    ∃ k call, Leads Step (fun deed => deed.call? = some number) h k ∧
      Shows k (Fanout.send message fanout).state ∧ k.calls number = some call ∧
      call.answer = some (Fanout.send message fanout).value := by
  cases encoded : message.encode with
  | error fault =>
    rw [send_refused encoded]
    have refused : Step h _ _ := .refused number message fault unused encoded
    exact ⟨_, _, .head refused rfl (.refl _), shows.setCall _ _, setCall_same .., rfl⟩
  | ok text =>
    obtain ⟨value, state⟩ := send_encoded encoded fanout
    rw [value, state]
    have called : Step h _ _ := .called number message text unused encoded
    have distinct : (fanout.clients.map Client.id).Nodup := shows.members ▸ roll.single
    obtain ⟨k, leads, handed⟩ := delivery_leads fanout.clients
      (h := h.setCall number (.sending message h.members ⟨text, h.members, none, []⟩))
      (by simp [setCall, shows.idle]) (by rw [← shows.members]; exact setCall_same ..) distinct shows.lines
    have returned : Step k _ _ := .returned number message h.members _ handed.there ⟨rfl, rfl⟩
    exact ⟨_, _, .head called rfl (leads.trans (.head returned rfl (.refl _))),
      handed_shows (shows.setCall _ _) handed, setCall_same .., by
        simp [Call.answer, Fanout.deliver, delivered_length, shows.members]⟩

end Send

section Accept

structure Greeted (h k : Exchange) (id : Nat) (result : Except String Client) : Prop where
  idle : k.reception = .idle
  nextId : k.nextId = h.nextId
  stopping : k.stopping = h.stopping
  others : ∀ other, other ≠ id → k.lines other = h.lines other
  stays : ∀ last, result = .ok last →
    last.id = id ∧ k.lines id = some last.line ∧ k.members = h.members
  goes : ∀ error, result = .error error → k.members = h.members.filter fun other => !([id].contains other)

theorem Greeted.after {line : Line} {reception : Reception} {result : Except String Client}
    (greeted : Greeted ((h.receive reception).setLine id line) k id result) :
    Greeted h k id result where
  idle := greeted.idle
  nextId := greeted.nextId
  stopping := greeted.stopping
  others := fun other different => (greeted.others other different).trans (setLine_other _ _ _ different)
  stays := greeted.stays
  goes := greeted.goes

theorem leave_leads (leaving : h.reception = .leaving id) {line : Line} (there : h.lines id = some line)
    (error : String) :
    ∃ k, Leads Step (fun deed => deed.call? = none) h k ∧ Greeted h k id (.error error) := by
  have left : Step h _ ((h.receive (.closing id)).without [id]) := .left id leaving
  have shutOut : Step ((h.receive (.closing id)).without [id]) _ _ := .shutOut id line rfl there
  exact ⟨_, .head left rfl (.head shutOut rfl (.refl _)), rfl, rfl, rfl,
    fun other different => setLine_other _ _ _ different, nofun, fun _ _ => rfl⟩

theorem greet_leads (due : List Message) {h : Exchange} {client : Client} (named : client.id = id)
    (greeting : h.reception = .greeting id due) (there : h.lines id = some client.line) :
    ∃ k, Leads Step (fun deed => deed.call? = none) h k ∧
      Greeted h k id (Fanout.greet client due) := by
  induction due generalizing h client with
  | nil =>
    have welcomed : Step h _ (h.receive .idle) := .welcomed id greeting
    refine ⟨_, .head welcomed rfl (.refl _), rfl, rfl, rfl, fun _ _ => rfl, ?_, nofun⟩
    rintro _ ⟨⟩
    exact ⟨named, there, rfl⟩
  | cons message due ih =>
    cases encoded : message.encode with
    | error fault =>
      have stumbled : Step h _ (h.receive (.leaving id)) :=
        .stumbled id message due fault greeting encoded
      obtain ⟨k, leads, rest⟩ := leave_leads (h := h.receive (.leaving id)) rfl there fault.message
      refine ⟨k, .head stumbled rfl leads, ?_⟩
      simp only [Fanout.greet, encoded]
      exact ⟨rest.idle, rest.nextId, rest.stopping, rest.others, rest.stays, rest.goes⟩
    | ok text =>
      cases written : client.write text with
      | ok next =>
        obtain ⟨frame, writes⟩ := Client.line_writes written
        obtain ⟨_, _, _, _, same⟩ := Client.write_ok written
        have greeted : Step h _ ((h.receive (.greeting id due)).setLine id next.line) :=
          .greeted id message due text client.line next.line frame true greeting there encoded writes
        obtain ⟨k, leads, rest⟩ := ih (h := (h.receive (.greeting id due)).setLine id next.line)
          (show next.id = id by rw [same, ← named]) rfl (setLine_same ..)
        refine ⟨k, .head greeted rfl leads, ?_⟩
        simp only [Fanout.greet, encoded, written]
        exact rest.after
      | error error =>
        obtain ⟨line, piece, writes, _⟩ := Client.line_refuses text client
        have refused : Step h _ ((h.receive (.leaving id)).setLine id line) :=
          .greeted id message due text client.line line piece false greeting there encoded writes
        obtain ⟨k, leads, rest⟩ := leave_leads (h := (h.receive (.leaving id)).setLine id line) rfl
          (setLine_same ..) error.message
        refine ⟨k, .head refused rfl leads, ?_⟩
        simp only [Fanout.greet, encoded, written]
        exact rest.after

theorem greeted_shows (roll : Roll h) (shows : Shows h fanout) {greeting : List Message}
    (greeted : Greeted ((h.receive .admitted).register greeting) k h.nextId
      (Fanout.greet (.connected h.nextId) greeting)) :
    Shows k (Fanout.accept greeting fanout).state := by
  have others : ∀ client ∈ fanout.clients, k.lines client.id = some client.line := by
    intro client inside
    have there := shows.lines client inside
    have different : client.id ≠ h.nextId := (roll.numbered _ _ there).ne
    refine (greeted.others _ different).trans ?_
    simpa [register, receive, different] using there
  have nextId : k.nextId = fanout.nextId + 1 := by
    rw [greeted.nextId, ← shows.nextId]
    rfl
  have members : ((h.receive .admitted).register greeting).members =
      fanout.register.2.clients.map Client.id := by
    simp [register, receive, Fanout.register, shows.members, shows.nextId, Client.connected]
  rw [Fanout.accept_state, ← shows.nextId]
  have stays := greeted.stays
  have goes := greeted.goes
  -- Only what the greeting comes to matters from here on.
  generalize Fanout.greet (.connected h.nextId) greeting = result at stays goes ⊢
  cases result with
  | ok last =>
    obtain ⟨named, here, same⟩ := stays last rfl
    refine ⟨?_, nextId, ?_, greeted.idle, greeted.stopping.trans shows.running⟩
    next =>
      rw [same, members]
      simp only [Fanout.update, List.map_map]
      refine List.map_congr_left fun client _ => ?_
      by_cases own : client.id = last.id <;> simp [own]
    next =>
      intro client inside
      rcases Fanout.mem_update inside with rfl | ⟨inside, different⟩
      next => rwa [named]
      next =>
        rcases Fanout.mem_register inside with before | rfl
        next => exact others client before
        next => exact absurd (shows.nextId.symm.trans named.symm) different
  | error error =>
    refine ⟨?_, nextId, ?_, greeted.idle, greeted.stopping.trans shows.running⟩
    next =>
      rw [goes error rfl, members, Fanout.remove, List.filter_map]
      rfl
    next =>
      intro client inside
      obtain ⟨inside, different⟩ := Fanout.mem_remove inside
      rcases Fanout.mem_register inside with before | rfl
      next => exact others client before
      next => exact absurd (List.mem_singleton.mpr shows.nextId.symm) different

theorem accept_leads (roll : Roll h) (shows : Shows h fanout) (greeting : List Message) :
    ∃ k, Leads Step (fun deed => deed.call? = none) h k ∧
      Shows k (Fanout.accept greeting fanout).state := by
  have admitted : Step h _ (h.receive .admitted) := .admitted shows.idle shows.running
  have registered : Step (h.receive .admitted) _ ((h.receive .admitted).register greeting) :=
    .registered greeting rfl
  obtain ⟨k, leads, greeted⟩ := greet_leads greeting (h := (h.receive .admitted).register greeting)
    (show (Client.connected h.nextId).id = h.nextId from rfl) rfl (Function.update_self ..)
  exact ⟨k, .head admitted rfl (.head registered rfl leads), greeted_shows roll shows greeted⟩

end Accept

end Exchange

end TemplateSync
