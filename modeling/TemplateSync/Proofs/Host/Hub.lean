import TemplateSync.Proofs.Host.Interleaving
import TemplateSync.Proofs.Trace

set_option autoImplicit false

namespace TemplateSync

namespace Client

/-- What may become of a write: it succeeds, it fails, or it fails with a part of the frame gone out, and the
connection is broken or goes on. -/
inductive Trial (client : Client) (text : String) : Client → Bool → Prop where
  | written (next : Client) (done : client.write text = .ok next) : Trial client text next true
  | refused (error : IoError) (fails : client.write text = .error error) :
      Trial client text client false
  | torn (frame piece missing : Bytes) (framed : Frame.write text = .ok frame)
      (cut : piece ++ missing = frame) (short : missing ≠ []) (whole : client.broken = false)
      (linked : client.isOpen = true) :
      Trial client text { client with written := client.written ++ piece, broken := true } false
  | stalled (frame piece missing : Bytes) (framed : Frame.write text = .ok frame)
      (cut : piece ++ missing = frame) (short : missing ≠ []) :
      Trial client text { client with written := client.written ++ piece } false

theorem Trial.write {client next : Client} {text : String} (trial : client.Trial text next true) :
    client.write text = .ok next := by
  cases trial with
  | written _ done => exact done

theorem Trial.same_id {client next : Client} {text : String} {arrived : Bool}
    (trial : client.Trial text next arrived) : next.id = client.id := by
  cases trial with
  | written _ done => exact write_same_id done
  | refused | torn | stalled => rfl

theorem exists_trial (client : Client) (text : String) :
    ∃ next arrived, client.Trial text next arrived := by
  cases done : client.write text with
  | ok next => exact ⟨next, true, .written next done⟩
  | error error => exact ⟨client, false, .refused error done⟩

end Client

/-- A message with the number of changes of the workspace before it was built, and the delivery that brings it; a
greeting is no delivery. -/
structure Entry where
  message : Message
  version : Nat
  call : Option Nat

def Entry.isList (entry : Entry) : Bool :=
  match entry.message with
  | .solution _ => true
  | _ => false

structure Peer where
  client : Client
  greeting : List Entry
  due : List Entry
  told : List Entry
  failed : Bool

namespace Peer

def fresh (id : Nat) (greeting : List Entry) : Peer :=
  ⟨.connected id, greeting, greeting, [], false⟩

def line (peer : Peer) : List Entry :=
  peer.told ++ peer.due

def took (peer : Peer) (entry : Entry) (next : Client) (arrived : Bool) : Peer :=
  { peer with
    client := next
    told := if arrived then peer.told ++ [entry] else peer.told
    failed := peer.failed || !arrived }

def close (peer : Peer) : Peer :=
  { peer with client := peer.client.close }

def lose (peer : Peer) : Peer :=
  { peer with client := { peer.client with broken := true } }

end Peer

structure Call where
  entry : Entry
  copied : List Nat
  round : Round
  returned : Bool

def Call.start (entry : Entry) (text : String) (copied : List Nat) : Call :=
  ⟨entry, copied, ⟨text, copied, none, []⟩, false⟩

inductive Reception where
  | idle
  | greeting (id : Nat)
  | leaving (id : Nat)
  | closing (id : Nat)

def Reception.client? : Reception → Option Nat
  | .idle => none
  | .greeting id | .leaving id | .closing id => some id

inductive Deed where
  | moved
  | turnedAway
  | registered (id : Nat)
  | greeted (id : Nat) (arrived : Bool)
  | left (id : Nat)
  | shutOut (id : Nat)
  | welcomed (id : Nat)
  | snapshot (call : Nat)
  | called (call : Nat)
  | wrote (call id : Nat) (arrived : Bool)
  | shut (call id : Nat)
  | returned (call : Nat)
  | lost (id : Nat)

def Deed.target? : Deed → Option Nat
  | .greeted id _ | .wrote _ id _ => some id
  | _ => none

structure Hub (σ : Type) where
  world : σ
  past : List σ
  peers : Nat → Option Peer
  members : List Nat
  nextId : Nat
  reception : Reception
  calls : Nat → Option Call

namespace Hub

variable {σ : Type}

def start (world : σ) : Hub σ :=
  ⟨world, [], fun _ => none, [], 1, .idle, fun _ => none⟩

def worlds (h : Hub σ) : List σ :=
  h.past ++ [h.world]

def setPeer (h : Hub σ) (id : Nat) (peer : Peer) : Hub σ :=
  { h with peers := Function.update h.peers id (some peer) }

def setCall (h : Hub σ) (number : Nat) (call : Call) : Hub σ :=
  { h with calls := Function.update h.calls number (some call) }

def without (h : Hub σ) (ids : List Nat) : Hub σ :=
  { h with members := h.members.filter fun id => !ids.contains id }

def receive (h : Hub σ) (reception : Reception) : Hub σ :=
  { h with reception := reception }

def register (h : Hub σ) (greeting : List Entry) : Hub σ :=
  { h with
    peers := Function.update h.peers h.nextId (some (.fresh h.nextId greeting))
    members := h.members ++ [h.nextId]
    nextId := h.nextId + 1
    reception := .greeting h.nextId }

def greetingAt (workspace : Workspace σ) (protocol : Int32) (changes : Nat) (world : σ) : List Entry :=
  (workspace.greeting protocol world).map fun message => ⟨message, changes, none⟩

def listAt (workspace : Workspace σ) (call changes : Nat) (world : σ) : Entry :=
  ⟨(Ticker.solution workspace world).value, changes, some call⟩

section Updates

variable (h : Hub σ) (id number : Nat) (peer : Peer) (call : Call)

@[simp] theorem setPeer_same : (h.setPeer id peer).peers id = some peer := by
  simp [setPeer]

theorem setPeer_other {other : Nat} (different : other ≠ id) :
    (h.setPeer id peer).peers other = h.peers other := by
  simp [setPeer, different]

@[simp] theorem setCall_same : (h.setCall number call).calls number = some call := by
  simp [setCall]

theorem setCall_other {other : Nat} (different : other ≠ number) :
    (h.setCall number call).calls other = h.calls other := by
  simp [setCall, different]

end Updates

inductive Step (workspace : Workspace σ) (protocol : Int32) (h : Hub σ) : Deed → Hub σ → Prop where
  | moved (world : σ) :
      Step workspace protocol h .moved { h with world := world, past := h.past ++ [h.world] }
  -- The accepting thread; a client that cannot be set up takes a number too.
  | turnedAway (idle : h.reception = .idle) :
      Step workspace protocol h .turnedAway { h with nextId := h.nextId + 1 }
  | registered (idle : h.reception = .idle) :
      Step workspace protocol h (.registered h.nextId)
        (h.register (greetingAt workspace protocol h.past.length h.world))
  | greeted (id : Nat) (peer : Peer) (entry : Entry) (due : List Entry) (text : String)
      (next : Client) (arrived : Bool) (greeting : h.reception = .greeting id)
      (there : h.peers id = some peer) (turn : peer.due = entry :: due)
      (encoded : entry.message.encode = .ok text) (trial : peer.client.Trial text next arrived) :
      Step workspace protocol h (.greeted id arrived)
        ((h.receive (if arrived then .greeting id else .leaving id)).setPeer id
          ({ peer with due := if arrived then due else [] }.took entry next arrived))
  | left (id : Nat) (leaving : h.reception = .leaving id) :
      Step workspace protocol h (.left id) ((h.receive (.closing id)).without [id])
  | shutOut (id : Nat) (peer : Peer) (closing : h.reception = .closing id)
      (there : h.peers id = some peer) :
      Step workspace protocol h (.shutOut id) ((h.receive .idle).setPeer id peer.close)
  | welcomed (id : Nat) (peer : Peer) (greeting : h.reception = .greeting id)
      (there : h.peers id = some peer) (all : peer.due = []) :
      Step workspace protocol h (.welcomed id) (h.receive .idle)
  -- One thread sends lists, so it does not begin while one is being delivered.
  | snapshot (number : Nat) (text : String) (unused : h.calls number = none)
      (alone : ∀ other call, h.calls other = some call → call.entry.isList = true →
        call.returned = true)
      (encoded : (listAt workspace number h.past.length h.world).message.encode = .ok text) :
      Step workspace protocol h (.snapshot number)
        (h.setCall number
          (.start (listAt workspace number h.past.length h.world) text h.members))
  | called (number : Nat) (content : Metadata) (text : String) (unused : h.calls number = none)
      (encoded : (Message.metadata content).encode = .ok text) :
      Step workspace protocol h (.called number)
        (h.setCall number (.start ⟨.metadata content, h.past.length, some number⟩ text h.members))
  -- The deliveries of both.
  | wrote (number : Nat) (call : Call) (id : Nat) (rest : List Nat) (peer : Peer) (next : Client)
      (arrived : Bool) (under_way : h.calls number = some call)
      (turn : call.round.waiting = id :: rest) (calm : call.round.failing = none)
      (there : h.peers id = some peer) (free : h.reception ≠ .greeting id)
      (trial : peer.client.Trial call.round.text next arrived) :
      Step workspace protocol h (.wrote number id arrived)
        ((h.setPeer id (peer.took call.entry next arrived)).setCall number
          { call with round := call.round.after id rest arrived })
  | shut (number : Nat) (call : Call) (id : Nat) (peer : Peer)
      (under_way : h.calls number = some call) (failing : call.round.failing = some id)
      (there : h.peers id = some peer) :
      Step workspace protocol h (.shut number id)
        ((h.setPeer id peer.close).setCall number
          { call with
            round := { call.round with failing := none, failed := call.round.failed ++ [id] } })
  | returned (number : Nat) (call : Call) (under_way : h.calls number = some call)
      (running : call.returned = false) (done : call.round.Done) :
      Step workspace protocol h (.returned number)
        ((h.without call.round.failed).setCall number { call with returned := true })
  -- A connection may break for good at any time.
  | lost (id : Nat) (peer : Peer) (there : h.peers id = some peer) :
      Step workspace protocol h (.lost id) (h.setPeer id peer.lose)

inductive Change (h : Hub σ) (deed : Deed) (id : Nat) (old : Peer) : Peer → Prop where
  | kept (client : Client) (aside : deed.target? ≠ some id) (named : client.id = old.client.id)
      (same : client.written = old.client.written) : Change h deed id old { old with client := client }
  | greeted (entry : Entry) (due : List Entry) (text : String) (next : Client) (arrived : Bool)
      (own : deed = .greeted id arrived) (turn : old.due = entry :: due)
      (encoded : entry.message.encode = .ok text) (trial : old.client.Trial text next arrived) :
      Change h deed id old
        ({ old with due := if arrived then due else [] }.took entry next arrived)
  | wrote (number : Nat) (call : Call) (rest : List Nat) (next : Client) (arrived : Bool)
      (own : deed = .wrote number id arrived) (under_way : h.calls number = some call)
      (turn : call.round.waiting = id :: rest) (free : h.reception ≠ .greeting id)
      (trial : old.client.Trial call.round.text next arrived) :
      Change h deed id old (old.took call.entry next arrived)

inductive Turn (deed : Deed) (number : Nat) (old : Call) : Call → Prop where
  | kept : Turn deed number old old
  | wrote (id : Nat) (rest : List Nat) (arrived : Bool) (own : deed = .wrote number id arrived)
      (turn : old.round.waiting = id :: rest) (calm : old.round.failing = none) :
      Turn deed number old { old with round := old.round.after id rest arrived }
  | shut (id : Nat) (own : deed = .shut number id) (failing : old.round.failing = some id) :
      Turn deed number old
        { old with
          round := { old.round with failing := none, failed := old.round.failed ++ [id] } }
  | returned (own : deed = .returned number) (running : old.returned = false)
      (done : old.round.Done) : Turn deed number old { old with returned := true }

section Inversion

variable {workspace : Workspace σ} {protocol : Int32} {h k : Hub σ} {deed : Deed}

theorem worlds_step (step : Step workspace protocol h deed k) : h.worlds <+: k.worlds := by
  cases step with
  | moved world => exact List.prefix_append _ [world]
  | turnedAway | registered | greeted | left | shutOut | welcomed | snapshot | called | wrote
  | shut | returned | lost => exact List.prefix_rfl

theorem nextId_step (step : Step workspace protocol h deed k) : h.nextId ≤ k.nextId := by
  cases step with
  | turnedAway | registered => exact Nat.le_succ _
  | moved | greeted | left | shutOut | welcomed | snapshot | called | wrote | shut | returned
  | lost => exact Nat.le_refl _

theorem peer_kept {id : Nat} {old : Peer} (there : h.peers id = some old)
    (aside : deed.target? ≠ some id) (same : k.peers id = h.peers id) :
    ∃ new, k.peers id = some new ∧ Change h deed id old new :=
  ⟨old, same.trans there, .kept old.client aside rfl rfl⟩

theorem peer_put {id own : Nat} {old peer new : Peer} (there : h.peers id = some old)
    (here : h.peers own = some peer) (change : Change h deed own peer new)
    (only : ∀ other, deed.target? = some other → other = own)
    (same : k.peers = (h.setPeer own new).peers) :
    ∃ new, k.peers id = some new ∧ Change h deed id old new := by
  by_cases equal : id = own
  next =>
    subst equal
    cases here.symm.trans there
    exact ⟨new, by rw [same, setPeer_same], change⟩
  next =>
    exact peer_kept there (fun hit => equal (only id hit)) (by rw [same, setPeer_other _ _ _ equal])

theorem peer_step (numbered : ∀ id peer, h.peers id = some peer → id < h.nextId)
    (step : Step workspace protocol h deed k) {id : Nat} {old : Peer}
    (there : h.peers id = some old) : ∃ new, k.peers id = some new ∧ Change h deed id old new := by
  cases step with
  | moved | turnedAway | left | welcomed | snapshot | called | returned =>
    exact peer_kept there nofun rfl
  | registered =>
    refine peer_kept there nofun ?_
    have different : id ≠ h.nextId := (numbered id old there).ne
    simp [register, different]
  | greeted own peer entry due text next arrived greeting here turn encoded trial =>
    exact peer_put there here (.greeted entry due text next arrived rfl turn encoded trial)
      (by rintro _ ⟨⟩; rfl) rfl
  | wrote number call own rest peer next arrived under_way turn calm here free trial =>
    exact peer_put there here (.wrote number call rest next arrived rfl under_way turn free trial)
      (by rintro _ ⟨⟩; rfl) rfl
  | shutOut own peer closing here =>
    exact peer_put there here (.kept peer.client.close nofun rfl rfl) nofun rfl
  | shut number call own peer under_way failing here =>
    exact peer_put there here (.kept peer.client.close nofun rfl rfl) nofun rfl
  | lost own peer here =>
    exact peer_put there here (.kept { peer.client with broken := true } nofun rfl rfl) nofun rfl

theorem target_known (step : Step workspace protocol h deed k) {id : Nat}
    (target : deed.target? = some id) : ∃ peer, h.peers id = some peer := by
  cases step with
  | greeted _ peer _ _ _ _ _ _ there | wrote _ _ _ _ peer _ _ _ _ _ there =>
    cases target
    exact ⟨peer, there⟩
  | moved | turnedAway | registered | left | shutOut | welcomed | snapshot | called | shut
  | returned | lost => cases target

theorem known_put {id own : Nat} {peer : Peer} (here : h.peers own = some peer) {new : Peer}
    (there : ((h.setPeer own new).peers id).isSome = true) : ∃ old, h.peers id = some old := by
  by_cases same : id = own
  next => exact ⟨peer, same ▸ here⟩
  next => exact Option.isSome_iff_exists.mp (by rwa [setPeer_other _ _ _ same] at there)

theorem peer_new (step : Step workspace protocol h deed k) {id : Nat} {new : Peer}
    (there : k.peers id = some new) :
    (∃ old, h.peers id = some old) ∨ deed = .registered id ∧ id = h.nextId ∧
      new = .fresh id (greetingAt workspace protocol h.past.length h.world) := by
  have known : (k.peers id).isSome = true := by simp [there]
  cases step with
  | moved | turnedAway | left | welcomed | snapshot | called | returned => exact .inl ⟨new, there⟩
  | registered =>
    by_cases same : id = h.nextId
    next =>
      subst same
      exact .inr ⟨rfl, rfl, by simpa [register] using there.symm⟩
    next => exact .inl ⟨new, by simpa [register, same] using there⟩
  | greeted _ _ _ _ _ _ _ _ here | wrote _ _ _ _ _ _ _ _ _ _ here | shutOut _ _ _ here
  | shut _ _ _ _ _ _ here | lost _ _ here => exact .inl (known_put here known)

theorem call_put {number own : Nat} {old call new : Call} (there : h.calls number = some old)
    (here : h.calls own = some call) (turn : Turn deed own call new)
    (same : k.calls = (h.setCall own new).calls) :
    ∃ new, k.calls number = some new ∧ Turn deed number old new := by
  by_cases equal : number = own
  next =>
    subst equal
    cases here.symm.trans there
    exact ⟨new, by rw [same, setCall_same], turn⟩
  next => exact ⟨old, by rw [same, setCall_other _ _ _ equal, there], .kept⟩

theorem call_added {number own : Nat} {old new : Call} (there : h.calls number = some old)
    (unused : h.calls own = none) : (h.setCall own new).calls number = some old := by
  have different : number ≠ own := by
    rintro rfl
    cases unused.symm.trans there
  rw [setCall_other _ _ _ different, there]

theorem call_step (step : Step workspace protocol h deed k) {number : Nat} {old : Call}
    (there : h.calls number = some old) :
    ∃ new, k.calls number = some new ∧ Turn deed number old new := by
  cases step with
  | moved | turnedAway | registered | greeted | left | shutOut | welcomed | lost =>
    exact ⟨old, there, .kept⟩
  | snapshot _ _ unused | called _ _ _ unused => exact ⟨old, call_added there unused, .kept⟩
  | wrote own call id rest _ _ arrived here turn calm =>
    exact call_put there here (.wrote id rest arrived rfl turn calm) rfl
  | shut own call id _ here failing => exact call_put there here (.shut id rfl failing) rfl
  | returned own call here running done =>
    exact call_put there here (.returned rfl running done) rfl

inductive Begun (workspace : Workspace σ) (h : Hub σ) (number : Nat) : Deed → Call → Prop where
  | snapshot (text : String)
      (alone : ∀ other call, h.calls other = some call → call.entry.isList = true →
        call.returned = true)
      (encoded : (listAt workspace number h.past.length h.world).message.encode = .ok text) :
      Begun workspace h number (.snapshot number)
        (.start (listAt workspace number h.past.length h.world) text h.members)
  | called (content : Metadata) (text : String)
      (encoded : (Message.metadata content).encode = .ok text) :
      Begun workspace h number (.called number)
        (.start ⟨.metadata content, h.past.length, some number⟩ text h.members)

theorem call_known {number own : Nat} {call : Call} (here : h.calls own = some call) {new : Call}
    (there : ((h.setCall own new).calls number).isSome = true) :
    ∃ old, h.calls number = some old := by
  by_cases same : number = own
  next => exact ⟨call, same ▸ here⟩
  next => exact Option.isSome_iff_exists.mp (by rwa [setCall_other _ _ _ same] at there)

theorem call_new (step : Step workspace protocol h deed k) {number : Nat} {new : Call}
    (there : k.calls number = some new) :
    (∃ old, h.calls number = some old) ∨ Begun workspace h number deed new := by
  have known : (k.calls number).isSome = true := by simp [there]
  cases step with
  | moved | turnedAway | registered | greeted | left | shutOut | welcomed | lost =>
    exact .inl ⟨new, there⟩
  | wrote _ _ _ _ _ _ _ here | shut _ _ _ _ here | returned _ _ here =>
    exact .inl (call_known here known)
  | snapshot own text unused alone encoded =>
    by_cases same : number = own
    next =>
      subst same
      rw [setCall_same] at there
      cases there
      exact .inr (.snapshot text alone encoded)
    next => exact .inl ⟨new, by rwa [setCall_other _ _ _ same] at there⟩
  | called own content text unused encoded =>
    by_cases same : number = own
    next =>
      subst same
      rw [setCall_same] at there
      cases there
      exact .inr (.called content text encoded)
    next => exact .inl ⟨new, by rwa [setCall_other _ _ _ same] at there⟩

theorem members_step (step : Step workspace protocol h deed k) :
    k.members.Sublist h.members ∨ deed = .registered h.nextId ∧
      k.members = h.members ++ [h.nextId] := by
  cases step with
  | moved | turnedAway | greeted | shutOut | welcomed | snapshot | called | wrote | shut | lost =>
    exact .inl (.refl _)
  | left | returned => exact .inl List.filter_sublist
  | registered => exact .inr ⟨rfl, rfl⟩

theorem member_new (step : Step workspace protocol h deed k) {id : Nat} (there : id ∈ k.members) :
    id ∈ h.members ∨ deed = .registered id := by
  rcases members_step step with fewer | ⟨registered, more⟩
  next => exact .inl (fewer.subset there)
  next =>
    rw [more, List.mem_append, List.mem_singleton] at there
    rcases there with before | rfl
    next => exact .inl before
    next => exact .inr registered

theorem member_step (step : Step workspace protocol h deed k) {id : Nat} (there : id ∈ h.members) :
    id ∈ k.members ∨ h.reception = .leaving id ∨
      ∃ number call, h.calls number = some call ∧ id ∈ call.round.failed := by
  cases step with
  | moved | turnedAway | greeted | shutOut | welcomed | snapshot | called | wrote | shut | lost =>
    exact .inl there
  | registered => exact .inl (List.mem_append_left _ there)
  | left own leaving =>
    by_cases same : id = own
    next => exact .inr (.inl (same ▸ leaving))
    next => exact .inl (List.mem_filter.mpr ⟨there, by simp [same]⟩)
  | returned number call here running done =>
    by_cases failed : id ∈ call.round.failed
    next => exact .inr (.inr ⟨number, call, here, failed⟩)
    next => exact .inl (List.mem_filter.mpr ⟨there, by simp [failed]⟩)

theorem leaving_step (step : Step workspace protocol h deed k) {id : Nat}
    (leaving : k.reception = .leaving id) :
    h.reception = .leaving id ∨ deed = .greeted id false := by
  cases step with
  | moved | turnedAway | snapshot | called | wrote | shut | returned | lost => exact .inl leaving
  | registered | left | shutOut | welcomed => cases leaving
  | greeted own _ _ _ _ _ arrived =>
    cases arrived with
    | true => cases leaving
    | false =>
      cases leaving
      exact .inr rfl

theorem served_step (step : Step workspace protocol h deed k) {id : Nat}
    (served : k.reception.client? = some id) :
    h.reception.client? = some id ∨ deed = .registered id := by
  cases step with
  | moved | turnedAway | snapshot | called | wrote | shut | returned | lost => exact .inl served
  | registered =>
    cases served
    exact .inr rfl
  | greeted own _ _ _ _ _ arrived greeting =>
    left
    rw [greeting]
    cases arrived <;> exact served
  | left own leaving =>
    left
    rw [leaving]
    exact served
  | shutOut | welcomed => cases served

theorem greeting_step (step : Step workspace protocol h deed k) {id : Nat} {peer : Peer}
    (there : h.peers id = some peer) (greeting : h.reception = .greeting id) :
    k.reception = .greeting id ∨ deed = .greeted id false ∨ peer.due = [] := by
  cases step with
  | moved | snapshot | called | wrote | shut | returned | lost => exact .inl greeting
  | turnedAway idle | registered idle | left _ idle | shutOut _ _ idle =>
    cases greeting.symm.trans idle
  | greeted own _ _ _ _ _ arrived now =>
    cases greeting.symm.trans now
    cases arrived with
    | true => exact .inl rfl
    | false => exact .inr (.inl rfl)
  | welcomed own other now here all =>
    cases greeting.symm.trans now
    cases there.symm.trans here
    exact .inr (.inr all)

end Inversion

end Hub

end TemplateSync
