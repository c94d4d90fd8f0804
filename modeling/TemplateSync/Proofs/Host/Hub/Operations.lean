import TemplateSync.Proofs.Host.Hub.Invariant
import TemplateSync.Proofs.Host.Uninterrupted

set_option autoImplicit false

namespace TemplateSync.Hub

variable {σ : Type} {workspace : Workspace σ} {protocol : Int32} {h k m : Hub σ} {id number : Nat}

def clientsOf (h : Hub σ) (ids : List Nat) : List Client :=
  ids.filterMap fun id => (h.peers id).map Peer.client

def fanout (h : Hub σ) : Fanout :=
  ⟨h.clientsOf h.members, h.nextId, true, false⟩

section Views

theorem clientsOf_cons {peer : Peer} (there : h.peers id = some peer) (ids : List Nat) :
    h.clientsOf (id :: ids) = peer.client :: h.clientsOf ids := by
  simp [clientsOf, there]

theorem clientsOf_congr {ids : List Nat} (same : ∀ id ∈ ids, k.peers id = h.peers id) :
    k.clientsOf ids = h.clientsOf ids := by
  refine List.filterMap_congr fun id inside => ?_
  rw [same id inside]

theorem fanout_setPeer (roll : h.Roll) {old : Peer} (new : Peer) (there : h.peers id = some old)
    (named : new.client.id = id) : (h.setPeer id new).fanout = h.fanout.update new.client := by
  simp only [fanout, Fanout.update, clientsOf, List.map_filterMap]
  congr 1
  refine List.filterMap_congr fun one _ => ?_
  by_cases same : one = id
  next =>
    subst same
    simp [there, roll.named one old there, named]
  next =>
    rw [setPeer_other _ _ _ same]
    cases here : h.peers one with
    | none => rfl
    | some peer => simp [roll.named one peer here, named, same]

theorem fanout_without (roll : h.Roll) (ids : List Nat) :
    (h.without ids).fanout = h.fanout.remove ids := by
  simp only [fanout, Fanout.remove, clientsOf, without, List.filter_filterMap, List.filterMap_filter]
  congr 1
  refine List.filterMap_congr fun one _ => ?_
  cases here : h.peers one with
  | none => simp
  | some peer => simp [roll.named one peer here, Option.filter]

theorem fanout_register (roll : h.Roll) (greeting : List Entry) :
    (h.register greeting).fanout = h.fanout.register.2 := by
  have before : (h.register greeting).clientsOf h.members = h.clientsOf h.members := by
    refine clientsOf_congr fun id inside => ?_
    obtain ⟨peer, there⟩ := roll.known id inside
    have different : id ≠ h.nextId := (roll.numbered id peer there).ne
    simp [register, different]
  simp only [fanout, Fanout.register]
  rw [← before]
  simp [clientsOf, register, Peer.fresh]

end Views

section Accept

theorem remove_update (fanout : Fanout) (client : Client) :
    (fanout.remove [client.id]).update client = fanout.remove [client.id] := by
  have absent : client.id ∉ (fanout.remove [client.id]).clients.map Client.id := by
    intro inside
    obtain ⟨one, there, same⟩ := List.mem_map.mp inside
    exact (Fanout.mem_remove there).2 (by simp [same])
  rw [Fanout.update, Fanout.map_absent (fun _ => client) absent]

theorem leave_runs (sound : h.Sound workspace protocol) (leaving : h.reception = .leaving id) :
    ∃ deeds k, Trace (Step workspace protocol) h deeds k ∧ k.fanout = h.fanout.remove [id] := by
  have left : Step workspace protocol h _ _ := .left id leaving
  have later := sound.next left
  obtain ⟨peer, there⟩ := later.roll.served id rfl
  have named : peer.close.client.id = id := later.roll.named id peer there
  have closed : Step workspace protocol _ _ _ := .shutOut id peer rfl there
  refine ⟨_, _, trace_cons.mpr ⟨_, left, trace_single closed⟩, ?_⟩
  have gone : ((h.receive (.closing id)).without [id]).fanout = h.fanout.remove [id] :=
    fanout_without sound.roll [id]
  have now := fanout_setPeer later.roll _ there named
  rw [gone, ← named, remove_update, named] at now
  exact now

theorem greet_runs (due : List Entry) {h : Hub σ} (sound : h.Sound workspace protocol)
    (greeting : h.reception = .greeting id) {peer : Peer} (there : h.peers id = some peer)
    (here : peer.due = due) {fanout : Fanout} (now : h.fanout = fanout.update peer.client) :
    ∃ deeds k, Trace (Step workspace protocol) h deeds k ∧ k.fanout =
      match Fanout.greet peer.client (due.map Entry.message) with
      | .ok last => fanout.update last
      | .error _ => fanout.remove [id] := by
  -- The set is the one at the start of the greeting but for the client as it was last written.
  induction due generalizing h peer with
  | nil => exact ⟨_, _, trace_single (.welcomed id peer greeting there here), now⟩
  | cons entry due ih =>
    obtain ⟨text, encoded⟩ := Message.encodes
      ((sound.peers id peer there).entries entry (by simp [Peer.line, here])).1
    have named := sound.roll.named id peer there
    cases written : peer.client.write text with
    | ok next =>
      have greeted : Step workspace protocol h _ _ :=
        .greeted id peer entry due text next true greeting there here encoded
          (.written next written)
      have same := Client.write_same_id written
      have updated := fanout_setPeer sound.roll
        ({ peer with due := due }.took entry next true) there (same.trans named)
      rw [now] at updated
      obtain ⟨deeds, k, trace, outcome⟩ := ih (sound.next greeted) rfl (setPeer_same ..) rfl
        (updated.trans (Fanout.update_update fanout same))
      refine ⟨_, k, trace_cons.mpr ⟨_, greeted, trace⟩, ?_⟩
      simp only [List.map_cons, Fanout.greet, encoded, written]
      exact outcome
    | error error =>
      have refused : Step workspace protocol h _ _ :=
        .greeted id peer entry due text peer.client false greeting there here encoded
          (.refused error written)
      have updated := fanout_setPeer sound.roll
        ({ peer with due := [] }.took entry peer.client false) there named
      rw [now] at updated
      obtain ⟨deeds, k, trace, outcome⟩ := leave_runs (sound.next refused) rfl
      have gone : ((fanout.update peer.client).update peer.client).remove [id] =
          fanout.remove [id] := by
        rw [Fanout.update_update _ rfl, ← named, Fanout.update_remove]
      refine ⟨_, k, trace_cons.mpr ⟨_, refused, trace⟩, outcome.trans ?_⟩
      simp only [List.map_cons, Fanout.greet, encoded, written]
      exact (congrArg (Fanout.remove · [id]) updated).trans gone

theorem accept_runs (sound : h.Sound workspace protocol) (idle : h.reception = .idle) :
    ∃ deeds k, Trace (Step workspace protocol) h deeds k ∧
      k.fanout = (Fanout.accept (workspace.greeting protocol h.world) h.fanout).state := by
  have registered : Step workspace protocol h _ _ := .registered idle
  have numbered : ∀ client ∈ h.fanout.clients, client.id < h.fanout.nextId := by
    intro client inside
    obtain ⟨id, _, there⟩ := List.mem_filterMap.mp inside
    obtain ⟨peer, known, rfl⟩ := Option.map_eq_some_iff.mp there
    rw [sound.roll.named id peer known]
    exact sound.roll.numbered id peer known
  have now := fanout_register sound.roll (greetingAt workspace protocol h.past.length h.world)
  rw [← Fanout.register_update numbered] at now
  obtain ⟨deeds, k, trace, outcome⟩ := greet_runs _ (sound.next registered) rfl
    (Function.update_self ..) rfl now
  have messages : (greetingAt workspace protocol h.past.length h.world).map Entry.message =
      workspace.greeting protocol h.world := rfl
  refine ⟨_, k, trace_cons.mpr ⟨_, registered, trace⟩, ?_⟩
  simp only [Peer.fresh, messages] at outcome
  rw [Fanout.accept_state, show h.fanout.nextId = h.nextId from rfl]
  -- Only what the greeting comes to matters from here on.
  generalize Fanout.greet _ _ = result at outcome ⊢
  cases result <;> exact outcome

end Accept

section Deliver

structure Handed (h k : Hub σ) (number : Nat) (call last : Call) (waiting : List Nat) : Prop where
  members : k.members = h.members
  nextId : k.nextId = h.nextId
  there : k.calls number = some last
  finished : last.round.Done
  running : last.returned = call.returned
  failed : last.round.failed = call.round.failed ++
    (Fanout.deliverTo call.round.text (h.clientsOf waiting)).2.map Prod.fst
  clients : k.clientsOf waiting = (Fanout.deliverTo call.round.text (h.clientsOf waiting)).1
  others : ∀ id, id ∉ waiting → k.peers id = h.peers id

theorem handed_cons {waiting : List Nat} {call one last : Call} {old : Peer} (new : Peer)
    (failed : List (Nat × IoError)) (rest : Handed m k number one last waiting)
    (fresh : id ∉ waiting) (there : h.peers id = some old)
    (outcome : Fanout.deliverTo call.round.text (old.client :: h.clientsOf waiting) =
      (new.client :: (Fanout.deliverTo call.round.text (h.clientsOf waiting)).1,
        failed ++ (Fanout.deliverTo call.round.text (h.clientsOf waiting)).2))
    (peers : m.peers = (h.setPeer id new).peers) (members : m.members = h.members)
    (nextId : m.nextId = h.nextId) (running : one.returned = call.returned)
    (text : one.round.text = call.round.text)
    (more : one.round.failed = call.round.failed ++ failed.map Prod.fst) :
    Handed h k number call last (id :: waiting) := by
  have aside {other : Nat} (different : other ≠ id) : m.peers other = h.peers other := by
    rw [peers, setPeer_other _ _ _ different]
  have same : m.clientsOf waiting = h.clientsOf waiting := by
    refine clientsOf_congr fun other inside => aside ?_
    rintro rfl
    exact fresh inside
  have kept : k.peers id = some new := by rw [rest.others id fresh, peers, setPeer_same]
  refine ⟨rest.members.trans members, rest.nextId.trans nextId, rest.there, rest.finished,
    rest.running.trans running, ?_, ?_, ?_⟩
  next =>
    rw [rest.failed, text, same, more, clientsOf_cons there, outcome, List.map_append,
      List.append_assoc]
  next => rw [clientsOf_cons kept, clientsOf_cons there, outcome, rest.clients, text, same]
  next =>
    intro other outside
    rw [List.mem_cons, not_or] at outside
    rw [rest.others other outside.2, aside outside.1]

theorem delivery_runs (waiting : List Nat) {h : Hub σ} (sound : h.Sound workspace protocol)
    (idle : h.reception = .idle) {call : Call} (there : h.calls number = some call)
    (turn : call.round.waiting = waiting) (calm : call.round.failing = none)
    (distinct : waiting.Nodup) :
    ∃ deeds k last, Trace (Step workspace protocol) h deeds k ∧
      Handed h k number call last waiting := by
  induction waiting generalizing h call with
  | nil =>
    exact ⟨[], h, call, .start, rfl, rfl, there, ⟨turn, calm⟩, rfl,
      (List.append_nil _).symm, rfl, fun _ _ => rfl⟩
  | cons id waiting ih =>
    obtain ⟨fresh, distinct⟩ := List.nodup_cons.mp distinct
    have copied := (sound.calls number call there).copied id (by simp [turn])
    obtain ⟨peer, here, _⟩ := sound.received number call there id copied
    have free : h.reception ≠ .greeting id := by simp [idle]
    cases written : peer.client.write call.round.text with
    | ok next =>
      have wrote : Step workspace protocol h _ _ :=
        .wrote number call id waiting peer next true there turn calm here free
          (.written next written)
      obtain ⟨deeds, k, last, trace, handed⟩ :=
        ih (sound.next wrote) idle (setCall_same ..) rfl rfl distinct
      exact ⟨_, k, last, trace_cons.mpr ⟨_, wrote, trace⟩,
        handed_cons _ [] handed fresh here
          (Fanout.deliverTo_written written _) rfl rfl rfl rfl rfl (List.append_nil _).symm⟩
    | error error =>
      have refused : Step workspace protocol h _ _ :=
        .wrote number call id waiting peer peer.client false there turn calm here free
          (.refused error written)
      have shut : Step workspace protocol
          ((h.setPeer id (peer.took call.entry peer.client false)).setCall number
            { call with round := call.round.after id waiting false }) _ _ :=
        .shut number _ id _ (setCall_same ..) rfl (setPeer_same h id _)
      obtain ⟨deeds, k, last, trace, handed⟩ :=
        ih ((sound.next refused).next shut) idle (setCall_same ..) rfl rfl distinct
      refine ⟨_, k, last, trace_cons.mpr ⟨_, refused, trace_cons.mpr ⟨_, shut, trace⟩⟩, ?_⟩
      refine handed_cons (peer.took call.entry peer.client false).close [(id, error)] handed fresh
        here ?_ ?_ rfl rfl rfl rfl rfl
      next =>
        rw [Fanout.deliverTo_refused written, sound.roll.named id peer here]
        rfl
      next => exact Function.update_idem ..

theorem call_runs {entry : Entry} {text : String} (sound : m.Sound workspace protocol)
    (idle : m.reception = .idle)
    (there : m.calls number = some (.start entry text m.members)) :
    ∃ deeds k, Trace (Step workspace protocol) m deeds k ∧
      k.fanout = (Fanout.deliver text m.fanout).state := by
  obtain ⟨deeds, k, last, trace, handed⟩ :=
    delivery_runs m.members sound idle there rfl rfl sound.roll.distinct
  have returned : Step workspace protocol k _ _ :=
    .returned number last handed.there handed.running handed.finished
  have roll := (trace_sound trace sound).roll
  refine ⟨_, _, trace.next returned, ?_⟩
  have gone : ((k.without last.round.failed).setCall number { last with returned := true }).fanout =
      k.fanout.remove last.round.failed := fanout_without roll last.round.failed
  rw [gone]
  have clients := handed.clients
  have failed := handed.failed
  simp only [Call.start, List.nil_append] at clients failed
  simp only [Fanout.deliver, fanout, handed.members, handed.nextId, clients, failed]

end Deliver

section Broadcast

variable {message : Message} {text : String}

theorem broadcast_state (encoded : message.encode = .ok text) (fanout : Fanout) :
    (Fanout.broadcast message fanout).state = (Fanout.deliver text fanout).state := by
  simp [Fanout.broadcast, Fanout.send, Fanout.report, encoded]

theorem broadcastSnapshot_state (encoded : message.encode = .ok text) (fanout : Fanout) :
    (Fanout.broadcastSnapshot (pure message) fanout).state = (Fanout.deliver text fanout).state := by
  simp [Fanout.broadcastSnapshot, Fanout.sendSnapshot, Fanout.send, encoded, Except.map]

theorem broadcast_runs (sound : h.Sound workspace protocol) (idle : h.reception = .idle)
    (unused : h.calls number = none) (content : Metadata) :
    ∃ deeds k, Trace (Step workspace protocol) h (.called number :: deeds) k ∧
      k.fanout = (Fanout.broadcast (.metadata content) h.fanout).state := by
  obtain ⟨text, encoded⟩ : ∃ text, (Message.metadata content).encode = .ok text :=
    Message.encodes trivial
  have called : Step workspace protocol h _ _ := .called number content text unused encoded
  obtain ⟨deeds, k, trace, outcome⟩ := call_runs (sound.next called) idle (setCall_same ..)
  exact ⟨deeds, k, trace_cons.mpr ⟨_, called, trace⟩,
    outcome.trans (broadcast_state encoded h.fanout).symm⟩

theorem broadcastSnapshot_runs (sound : h.Sound workspace protocol) (idle : h.reception = .idle)
    (unused : h.calls number = none)
    (alone : ∀ other call, h.calls other = some call → call.entry.isList = true →
      call.returned = true) :
    ∃ deeds k, Trace (Step workspace protocol) h (.snapshot number :: deeds) k ∧
      k.fanout = (Fanout.broadcastSnapshot (pure (.solution (workspace.projects h.world)))
        h.fanout).state := by
  obtain ⟨text, encoded⟩ : ∃ text,
      (Message.solution (workspace.projects h.world)).encode = .ok text := Message.encodes trivial
  have taken : Step workspace protocol h _ _ := .snapshot number text unused alone encoded
  obtain ⟨deeds, k, trace, outcome⟩ := call_runs (sound.next taken) idle (setCall_same ..)
  exact ⟨deeds, k, trace_cons.mpr ⟨_, taken, trace⟩,
    outcome.trans (broadcastSnapshot_state encoded h.fanout).symm⟩

end Broadcast

end TemplateSync.Hub
