import Mathlib.Data.List.Nodup
import TemplateSync.Proofs.Host.Exchange.Operations
import TemplateSync.Proofs.Host.Threads

set_option autoImplicit false

namespace TemplateSync

open Locks

namespace Premises

section Settles

variable {α : Type} (s : Premises)

theorem discard_settles {script : Routine α} {value : α} {after : Premises}
    (settles : script.Settles s value after) : (discard script).Settles s () after :=
  settles.bind fun _ _ => Iff.rfl

theorem notify_settles (change : Change) :
    (notify change).Settles s () { s with ticker := (Ticker.onChange change s.ticker).state } :=
  settles_within settles_perform

theorem projects_settles : projects.Settles s s.manifest.projects s :=
  settles_within (settles_look.bind settles_pure)

theorem solution_settles : solution.Settles s (.solution s.manifest.projects) s :=
  (projects_settles s).bind settles_pure

theorem reload_settles : reload.Settles s (Manifest.reload s.files s.manifest).value
    { s with manifest := (Manifest.reload s.files s.manifest).state } := by
  refine settles_look.bind ?_
  rw [Manifest.reload]
  cases Manifest.readEntries s.files s.manifest.path with
  | error fault => exact settles_pure
  | ok entries => exact (settles_within settles_perform).bind settles_pure

theorem reloadFor_settles (change : Change) : (reloadFor change).Settles s ()
    { s with manifest := (Watch.reloadFor s.files change s.manifest).state } := by
  by_cases own : change = .solutionChanged
  next =>
    subst own
    have read : (Watch.reloadFor s.files .solutionChanged s.manifest).state =
        (Manifest.reload s.files s.manifest).state := by
      rw [Watch.reloadFor, if_pos rfl, Act.bind_run]
      cases (Manifest.reload s.files s.manifest).value <;> rfl
    rw [reloadFor, if_pos rfl, read]
    exact discard_settles s (reload_settles s)
  next =>
    rw [reloadFor, Watch.reloadFor, if_neg own, if_neg own]
    exact settles_pure

theorem classify_settles (path : Path) : (classify path).Settles s (Watch.classify? s.manifest path) s := by
  refine settles_look.bind ?_
  dsimp only
  rw [Watch.classify?]
  split
  next => exact settles_pure
  next =>
    split
    next => exact settles_pure
    next =>
      refine (settles_within (settles_look.bind settles_pure)).bind ?_
      cases s.manifest.isProjectFile path <;> exact settles_pure

theorem handleFrom_settles (events : List FileEvent) (told : List Change) :
    (handleFrom events told).Settles s (Watch.handleFrom s.files events told s.manifest).value
      { s with manifest := (Watch.handleFrom s.files events told s.manifest).state } := by
  induction events generalizing s told with
  | nil => exact settles_pure
  | cons event events ih =>
    rw [handleFrom, Watch.handleFrom]
    split
    next => exact ih s told
    next =>
      refine (classify_settles s event.path).bind ?_
      rw [Act.bind_run, Act.get_run]
      cases Watch.classify? s.manifest event.path with
      | none => exact ih s told
      | some change =>
        dsimp only
        split
        next => exact ih s told
        next => exact (reloadFor_settles s change).bind (ih _ _)

theorem handle_settles (events : List FileEvent) :
    (handle events).Settles s (Watch.handle s.files events s.manifest).value
      { s with manifest := (Watch.handle s.files events s.manifest).state } := by
  have same : (Watch.handle s.files events s.manifest).value = (Watch.handleFrom s.files events [] s.manifest).value ∧
      (Watch.handle s.files events s.manifest).state = (Watch.handleFrom s.files events [] s.manifest).state := by
    simp only [Watch.handle, Act.bind_run]
    split <;> exact ⟨rfl, rfl⟩
  rw [same.1, same.2]
  exact handleFrom_settles s events []

end Settles

section Deliver

variable {s : Premises} {text : String} {first rest : List Client} {client next : Client}

theorem find_picked (distinct : ((first ++ client :: rest).map Client.id).Nodup) :
    (first ++ client :: rest).find? (fun known => known.id = client.id) = some client := by
  rw [List.map_append, List.map_cons, List.nodup_append] at distinct
  obtain ⟨-, -, apart⟩ := distinct
  have before : first.find? (fun known => known.id = client.id) = none := by
    rw [List.find?_eq_none]
    intro known inside
    simpa using apart known.id (List.mem_map_of_mem inside) client.id List.mem_cons_self
  rw [List.find?_append, before, Option.none_or, List.find?_cons_of_pos (by simp)]

def holding (s : Premises) (clients : List Client) : Premises :=
  { s with fanout := { s.fanout with clients := clients } }

theorem onFanout_settles {α : Type} {act : Act Fanout α} {value : α} {events : List Event} {after : Fanout}
    (done : act s.fanout = ⟨value, events, after⟩) : (onFanout act).Settles s value { s with fanout := after } := by
  have settles : (onFanout act).Settles s (act s.fanout).value { s with fanout := (act s.fanout).state } :=
    settles_perform
  rwa [done] at settles

theorem write_settles (distinct : ((first ++ client :: rest).map Client.id).Nodup)
    (written : client.write text = .ok next) :
    (write client.id text).Settles (s.holding (first ++ client :: rest)) true (s.holding (first ++ next :: rest)) := by
  have same : next.id = client.id := Client.write_same_id written
  have done : Fanout.writeTo client.id text (s.holding (first ++ client :: rest)).fanout =
      ⟨some true, [], (s.holding (first ++ next :: rest)).fanout⟩ := by
    simp only [Fanout.writeTo, holding, find_picked distinct, written, Fanout.update_picked distinct same]
  exact (onFanout_settles done).bind settles_pure

theorem refused_settles (distinct : ((first ++ client :: rest).map Client.id).Nodup) {error : IoError}
    (refused : client.write text = .error error) :
    (write client.id text).Settles (s.holding (first ++ client :: rest)) false
      (s.holding (first ++ client :: rest)) := by
  have done : Fanout.writeTo client.id text (s.holding (first ++ client :: rest)).fanout =
      ⟨some false, [.sendFailed client.id error], (s.holding (first ++ client :: rest)).fanout⟩ := by
    simp only [Fanout.writeTo, holding, find_picked distinct, refused]
  exact (onFanout_settles done).bind settles_pure

theorem shut_settles (distinct : ((first ++ client :: rest).map Client.id).Nodup) :
    (shut client.id).Settles (s.holding (first ++ client :: rest)) () (s.holding (first ++ client.close :: rest)) := by
  have done : Act.modify (fun fanout => fanout.shut client.id) (s.holding (first ++ client :: rest)).fanout =
      ⟨(), [], (s.holding (first ++ client.close :: rest)).fanout⟩ := by
    rw [Act.modify_run, holding, Fanout.shut_picked distinct]
    rfl
  exact onFanout_settles done

theorem deliverTo_settles (clients first : List Client) (distinct : ((first ++ clients).map Client.id).Nodup) :
    (deliverTo text (clients.map Client.id)).Settles (s.holding (first ++ clients))
      ((Fanout.deliverTo text clients).2.map Prod.fst) (s.holding (first ++ (Fanout.deliverTo text clients).1)) := by
  induction clients generalizing first with
  | nil => exact settles_pure
  | cons client clients ih =>
    cases written : client.write text with
    | ok next =>
      have same : next.id = client.id := Client.write_same_id written
      have rest := ih (first ++ [next]) (by simpa [same] using distinct)
      rw [List.append_assoc, List.append_assoc] at rest
      rw [Fanout.deliverTo_written written]
      exact (settles_within (write_settles distinct written)).bind rest
    | error error =>
      have rest := ih (first ++ [client.close]) (by simpa [Client.close] using distinct)
      rw [List.append_assoc, List.append_assoc] at rest
      rw [Fanout.deliverTo_refused written]
      exact (settles_within (refused_settles distinct written)).bind
        ((shut_settles distinct).bind (rest.bind settles_pure))

variable (s)

theorem prune_settles (failed : List Nat) :
    (prune failed).Settles s () { s with fanout := s.fanout.remove failed } := by
  rw [prune]
  split
  next none =>
    have same : s.fanout.remove failed = s.fanout := by simp [none, Fanout.remove]
    rw [same]
    exact settles_pure
  next => exact settles_within settles_perform

theorem deliver_settles (distinct : (s.fanout.clients.map Client.id).Nodup) (text : String) :
    (deliver text (s.fanout.clients.map Client.id)).Settles s (Fanout.deliver text s.fanout).value
      { s with fanout := (Fanout.deliver text s.fanout).state } := by
  have count : (s.fanout.clients.map Client.id).length -
      ((Fanout.deliverTo text s.fanout.clients).2.map Prod.fst).length =
      (Fanout.deliver text s.fanout).value := by
    rw [List.length_map, List.length_map, ← Exchange.delivered_length text]
    rfl
  rw [← count]
  exact (deliverTo_settles s.fanout.clients [] distinct).bind ((prune_settles _ _).bind settles_pure)

theorem copy_settles : copy.Settles s (s.fanout.clients.map Client.id) s :=
  settles_look.bind settles_pure

theorem send_settles (distinct : (s.fanout.clients.map Client.id).Nodup) (message : Message) :
    (send message).Settles s (Fanout.send message s.fanout).value
      { s with fanout := (Fanout.send message s.fanout).state } := by
  rw [send, Fanout.send]
  cases message.encode with
  | error fault => exact settles_pure
  | ok text =>
    exact (settles_within (copy_settles s)).bind ((deliver_settles s distinct text).bind settles_pure)

theorem sendSnapshot_settles (distinct : (s.fanout.clients.map Client.id).Nodup) {snapshot : Routine Message}
    {message : Message} (taken : snapshot.Settles s message s) :
    (sendSnapshot snapshot).Settles s ((Fanout.send message s.fanout).value.map fun sent => (message, sent))
      { s with fanout := (Fanout.send message s.fanout).state } := by
  have copied : (copy >>= fun ids => (pure (message, ids) : Routine (Message × List Nat))).Settles s
      (message, s.fanout.clients.map Client.id) s := (copy_settles s).bind settles_pure
  refine (settles_within (taken.bind copied)).bind ?_
  dsimp only
  rw [Fanout.send]
  cases message.encode with
  | error fault => exact settles_pure
  | ok text => exact (deliver_settles s distinct text).bind settles_pure

end Deliver

section Accept

variable {s : Premises} {first : List Client} {client : Client}

theorem greet_settles (messages : List Message) (distinct : ((first ++ [client]).map Client.id).Nodup) :
    ∃ now, now.id = client.id ∧
      (greet client.id messages).Settles (s.holding (first ++ [client]))
        (Fanout.greet client messages).isOk (s.holding (first ++ [now])) ∧
      ∀ last, Fanout.greet client messages = .ok last → now = last := by
  -- After a failure `Fanout.greet` has no client any more; here it still has what was written to it before.
  induction messages generalizing client with
  | nil =>
    refine ⟨client, rfl, settles_pure, ?_⟩
    rintro last ⟨⟩
    rfl
  | cons message messages ih =>
    rw [greet, Fanout.greet]
    cases message.encode with
    | error fault =>
      refine ⟨client, rfl, settles_pure, ?_⟩
      rintro last ⟨⟩
    | ok text =>
      dsimp only
      cases written : client.write text with
      | error error =>
        refine ⟨client, rfl, (refused_settles distinct written).bind settles_pure, ?_⟩
        rintro last ⟨⟩
      | ok next =>
        have same : next.id = client.id := Client.write_same_id written
        have single : ((first ++ [next]).map Client.id).Nodup := by simpa [same] using distinct
        obtain ⟨now, named, rest, last⟩ := ih single
        rw [same] at named rest
        exact ⟨now, named, (write_settles distinct written).bind rest, last⟩

def greeting (version : Int32) (s : Premises) : List Message :=
  [.version version, .solution s.manifest.projects]

theorem remove_absent {fanout : Fanout} {id : Nat} (absent : id ∉ fanout.clients.map Client.id) :
    fanout.remove [id] = fanout := by
  have kept : fanout.clients.filter (fun client => !([id].contains client.id)) = fanout.clients := by
    rw [List.filter_eq_self]
    intro known inside
    have apart : known.id ≠ id := fun same => absent (same ▸ List.mem_map_of_mem inside)
    simpa using apart
  rw [Fanout.remove, kept]

theorem remove_last (fanout : Fanout) {now : Client} (absent : now.id ∉ fanout.clients.map Client.id) :
    ({ fanout with clients := fanout.clients ++ [now] } : Fanout).remove [now.id] = fanout := by
  have others := congrArg Fanout.clients (remove_absent absent)
  simp only [Fanout.remove] at others ⊢
  rw [List.filter_append, others]
  simp

theorem register_settles {version : Int32} {id : Nat} :
    (within .clients .writing (do
        onFanout (Act.modify fun fanout => fanout.enrol id)
        return [.version version, ← solution]) : Routine (List Message)).Settles s (greeting version s)
      (s.holding (s.fanout.clients ++ [.connected id])) := by
  have enrolled : (onFanout (Act.modify fun fanout => fanout.enrol id)).Settles s ()
      (s.holding (s.fanout.clients ++ [.connected id])) := onFanout_settles rfl
  exact settles_within (enrolled.bind ((solution_settles _).bind settles_pure))

theorem leave_settles {now : Client} (absent : now.id ∉ s.fanout.clients.map Client.id) :
    (remove [now.id] >>= fun _ => shut now.id).Settles (s.holding (s.fanout.clients ++ [now])) () s := by
  have removed : (remove [now.id]).Settles (s.holding (s.fanout.clients ++ [now])) () s := by
    have done : Act.modify (fun fanout => fanout.remove [now.id]) (s.holding (s.fanout.clients ++ [now])).fanout =
        ⟨(), [], s.fanout⟩ := by
      rw [Act.modify_run, holding, remove_last _ absent]
    exact settles_within (onFanout_settles done)
  have done : Act.modify (fun fanout => fanout.shut now.id) s.fanout = ⟨(), [], s.fanout⟩ := by
    rw [Act.modify_run, Fanout.shut, Fanout.map_absent Client.close absent]
  exact removed.bind (onFanout_settles done)

theorem enrolled_nodup {clients : List Client} {id : Nat} (absent : id ∉ clients.map Client.id)
    (distinct : (clients.map Client.id).Nodup) : ((clients ++ [Client.connected id]).map Client.id).Nodup := by
  rw [List.map_append, List.map_singleton, ← List.concat_eq_append]
  exact distinct.concat absent

def joined (fanout : Fanout) (id : Nat) (messages : List Message) : Fanout :=
  match Fanout.greet (.connected id) messages with
  | .ok last => { fanout with clients := fanout.clients ++ [last] }
  | .error _ => fanout

theorem welcome_settles {version : Int32} {id : Nat} (absent : id ∉ s.fanout.clients.map Client.id)
    (distinct : (s.fanout.clients.map Client.id).Nodup) :
    (welcome version id).Settles s () { s with fanout := joined s.fanout id (greeting version s) } := by
  obtain ⟨now, named, greeted, last⟩ :=
    greet_settles (s := s) (greeting version s) (enrolled_nodup absent distinct)
  refine (settles_within (register_settles.bind greeted)).bind ?_
  rw [joined]
  cases outcome : Fanout.greet (.connected id) (greeting version s) with
  | ok final =>
    rw [← last final outcome]
    exact settles_pure
  | error error =>
    obtain rfl : now.id = id := named
    exact leave_settles absent

theorem greet_id {messages : List Message} {last : Client} (greeted : Fanout.greet client messages = .ok last) :
    last.id = client.id := by
  induction messages generalizing client with
  | nil =>
    cases greeted
    rfl
  | cons message messages ih =>
    rw [Fanout.greet] at greeted
    split at greeted
    next => cases greeted
    next =>
      split at greeted
      next => cases greeted
      next next written => exact (ih greeted).trans (Client.write_same_id written)

theorem accepted_state {fanout : Fanout} {messages : List Message}
    (absent : fanout.nextId ∉ fanout.clients.map Client.id) (distinct : (fanout.clients.map Client.id).Nodup) :
    (Fanout.accept messages fanout).state = joined (Fanout.takeId fanout).state fanout.nextId messages := by
  have single := enrolled_nodup absent distinct
  rw [Fanout.accept_state, joined]
  cases outcome : Fanout.greet (.connected fanout.nextId) messages with
  | error error => exact remove_last (Fanout.takeId fanout).state absent
  | ok last => exact @Fanout.update_picked (Fanout.takeId fanout).state _ _ _ _ single (greet_id outcome)

theorem accept_comes {version : Int32} {t : Premises} {value : Unit}
    (numbered : ∀ client ∈ s.fanout.clients, client.id < s.fanout.nextId)
    (distinct : (s.fanout.clients.map Client.id).Nodup) :
    (accept version).Comes s value t ↔ t = { s with fanout := (Fanout.takeId s.fanout).state } ∨
      t = { s with fanout := (Fanout.accept (greeting version s) s.fanout).state } := by
  have absent : s.fanout.nextId ∉ s.fanout.clients.map Client.id := by
    intro inside
    obtain ⟨client, there, same⟩ := List.mem_map.mp inside
    exact Nat.lt_irrefl _ (same ▸ numbered client there)
  have taken : (onFanout Fanout.takeId).Settles s s.fanout.nextId
      { s with fanout := (Fanout.takeId s.fanout).state } := settles_perform
  have welcomed : (welcome version s.fanout.nextId).Settles { s with fanout := (Fanout.takeId s.fanout).state } ()
      { s with fanout := (Fanout.accept (greeting version s) s.fanout).state } := by
    rw [accepted_state absent distinct]
    exact welcome_settles absent distinct
  rw [accept, taken.comes_bind, comes_either_bind]
  constructor
  next =>
    rintro ⟨choice, comes⟩
    cases choice with
    | false => exact .inl ((settles_pure _ _).mp comes).2
    | true => exact .inr ((welcomed _ _).mp comes).2
  next =>
    rintro (turned | accepted)
    next => exact ⟨false, (settles_pure _ _).mpr ⟨rfl, turned⟩⟩
    next => exact ⟨true, (welcomed _ _).mpr ⟨rfl, accepted⟩⟩

end Accept

theorem stopListening_settles (s : Premises) : stopListening.Settles s ()
    { s with
      fanout := (Fanout.stop s.fanout).state
      acceptor := if s.fanout.stopped then s.acceptor else none } := by
  refine settles_swap.bind ?_
  rw [Fanout.stop]
  split
  next stopped =>
    have same : { s.fanout with stopped := true } = s.fanout := by
      rw [← stopped]
    simp only [same]
    exact settles_pure
  next =>
    have awaited {t : Premises} (number : Option Nat) : (awaitEnd .accepting number).Settles t () t := by
      cases number with
      | none => exact settles_pure
      | some number => exact settles_await
    have cleared :
        (within .clients .writing (onFanout (Act.modify fun fanout => { fanout with clients := [] }))).Settles
        { s with fanout := { s.fanout with stopped := true }, acceptor := none } ()
        { s with fanout := { s.fanout with clients := [], stopped := true }, acceptor := none } :=
      settles_within settles_perform
    exact (settles_within (settles_swap.bind (awaited _))).bind cleared

section Tick

def runner : Runner Premises := fun command _ s =>
  ⟨s.runs command, [], s⟩

def workspace : Workspace Premises where
  projects s := s.manifest.projects
  emit project := do return Emission.ofResult (← Manifest.emit runner (← Act.get).manifest project)

def broadcaster : Broadcaster Premises where
  broadcast message := Act.zoom fanout (fun fanout s => { s with fanout := fanout }) (Fanout.broadcast message)
  broadcastSnapshot snapshot := do
    let message ← snapshot
    Act.zoom fanout (fun fanout s => { s with fanout := fanout }) (Fanout.broadcastSnapshot (pure message))

variable (s : Premises)

theorem broadcast_state (message : Message) (fanout : Fanout) :
    (Fanout.broadcast message fanout).state = (Fanout.send message fanout).state := by
  rw [Fanout.broadcast, Act.bind_run]
  cases (Fanout.send message fanout).value <;> rfl

theorem broadcastSnapshot_state (message : Message) (fanout : Fanout) :
    (Fanout.broadcastSnapshot (pure message) fanout).state = (Fanout.send message fanout).state := by
  rw [Fanout.broadcastSnapshot, Act.bind_run]
  have sent : Fanout.sendSnapshot (pure message) fanout = ⟨(Fanout.send message fanout).value.map fun sent =>
    (message, sent), (Fanout.send message fanout).events, (Fanout.send message fanout).state⟩ := by
    simp [Fanout.sendSnapshot]
  rw [sent]
  cases (Fanout.send message fanout).value <;> rfl

theorem emitted_settles (project : ProjectDescriptor) :
    (emitted project).Settles s (Manifest.emit runner s.manifest project s).value s := by
  refine settles_look.bind ?_
  rw [Manifest.emit]
  cases Command.ofWords? s.manifest.metadataCommand with
  | none => exact settles_pure
  | some command =>
    simp only [Act.bind_run, runner]
    cases s.runs { command with arguments := command.arguments ++ [project.path] } with
    | error error => exact settles_pure
    | ok finished =>
      dsimp only
      split
      next => exact settles_within (settles_look.bind settles_pure)
      next => exact settles_pure

theorem sendSolution_state (taken : DirtyFlags) : (Ticker.sendSolution workspace broadcaster taken s).state =
    { s with fanout :=
        if taken.solution then (Fanout.send (.solution s.manifest.projects) s.fanout).state else s.fanout } := by
  rw [Ticker.sendSolution]
  split
  next =>
    rw [← broadcastSnapshot_state]
    rfl
  next => rfl

theorem sendSolution_settles (distinct : (s.fanout.clients.map Client.id).Nodup) (taken : DirtyFlags) :
    (sendSolution taken).Settles s () (Ticker.sendSolution workspace broadcaster taken s).state := by
  rw [sendSolution, sendSolution_state]
  split
  next => exact discard_settles s (sendSnapshot_settles s distinct (solution_settles s))
  next => exact settles_pure

def ticked : Premises :=
  let done := Ticker.tick workspace broadcaster (s.ticker, s)
  { done.state.2 with ticker := done.state.1 }

theorem ticked_eq : s.ticked =
    (Ticker.sendSolution workspace broadcaster (Ticker.claim s.ticker).value
      { s with ticker := (Ticker.claim s.ticker).state }).state := by
  have prepared (flags : DirtyFlags) (after : Premises) :
      (Ticker.prepareBatch workspace flags after).state = after := by
    rw [Ticker.prepareBatch]
    split <;> rfl
  simp only [ticked, Ticker.tick, Ticker.ticking, Ticker.outside, Act.bind_run, Act.zoom_run, prepared,
    sendSolution_state]
  rfl

theorem ticked_batch : (Ticker.tick workspace broadcaster (s.ticker, s)).value.batch =
    if (Ticker.claim s.ticker).value.metadata then some ⟨s.manifest.projects⟩ else none := by
  have prepared : (Ticker.tick workspace broadcaster (s.ticker, s)).value.batch =
      (Ticker.prepareBatch workspace (Ticker.claim s.ticker).value
        (Ticker.sendSolution workspace broadcaster (Ticker.claim s.ticker).value s).state).value := rfl
  rw [prepared, sendSolution_state, Ticker.prepareBatch]
  split <;> rfl

theorem ticked_manifest : s.ticked.manifest = s.manifest := by
  rw [ticked_eq, sendSolution_state]

-- A tick has its batch started in a thread of its own; or it is undone what was claimed for it.
theorem tick_comes (distinct : (s.fanout.clients.map Client.id).Nodup) (fault : Fault)
    {outcome : Option (List ProjectDescriptor × Nat)} {t : Premises} : tick.Comes s outcome t ↔
      match (Ticker.tick workspace broadcaster (s.ticker, s)).value.batch with
      | none => outcome = none ∧ t = s.ticked
      | some batch => (∃ number, outcome = some (batch.projects, number) ∧ t = s.ticked) ∨
          outcome = none ∧ t = { s.ticked with ticker := (Ticker.batchNotStarted fault s.ticked.ticker).state } := by
  have claimed : (within .flags .writing (onTicker Ticker.claim)).Settles s (Ticker.claim s.ticker).value
      { s with ticker := (Ticker.claim s.ticker).state } := settles_within settles_perform
  have sent := sendSolution_settles { s with ticker := (Ticker.claim s.ticker).state } distinct
    (Ticker.claim s.ticker).value
  rw [← ticked_eq] at sent
  rw [tick, claimed.comes_bind, sent.comes_bind, ticked_batch]
  cases (Ticker.claim s.ticker).value.metadata with
  | false => exact settles_pure _ _
  | true =>
    have listed := projects_settles s.ticked
    rw [ticked_manifest] at listed
    have undone : (within .flags .writing (onTicker (Act.modify Ticker.batchEnded)) >>= fun _ =>
        within .flags .writing (onTicker (Act.modify Ticker.metadataLeft)) >>= fun _ => return none).Settles s.ticked
        (none : Option (List ProjectDescriptor × Nat))
        { s.ticked with ticker := (Ticker.batchNotStarted fault s.ticked.ticker).state } :=
      (settles_within settles_perform).bind ((settles_within settles_perform).bind settles_pure)
    simp only [if_true]
    rw [listed.comes_bind, comes_either_bind]
    constructor
    next =>
      rintro ⟨choice, comes⟩
      cases choice with
      | true => exact .inl comes
      | false => exact .inr ((undone _ _).mp comes)
    next =>
      rintro (started | turned)
      next => exact ⟨true, started⟩
      next => exact ⟨false, (undone _ _).mpr turned⟩

theorem send_nodup {fanout : Fanout} (distinct : (fanout.clients.map Client.id).Nodup) (message : Message) :
    ((Fanout.send message fanout).state.clients.map Client.id).Nodup := by
  rw [Fanout.send]
  cases message.encode with
  | error fault => exact distinct
  | ok text =>
    rw [← Exchange.delivered_ids text] at distinct
    exact distinct.sublist (List.filter_sublist.map Client.id)

theorem sendAll_settles (distinct : (s.fanout.clients.map Client.id).Nodup)
    (results : List (ProjectDescriptor × Emission)) :
    (sendAll results).Settles s () (Batch.sendAll broadcaster results s).state := by
  induction results generalizing s with
  | nil => exact settles_pure
  | cons result results ih =>
    obtain ⟨project, emission⟩ := result
    cases emission with
    | emitted emitted =>
      have sent := discard_settles s (send_settles s distinct (Batch.message project emitted))
      rw [← broadcast_state] at sent
      refine sent.bind (ih _ ?_)
      rw [broadcast_state]
      exact send_nodup distinct _
    | failed | crashed => exact ih s distinct

end Tick

end Premises

end TemplateSync
