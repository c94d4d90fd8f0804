import TemplateSync.Proofs.Host.Coalescing
import TemplateSync.Proofs.Host.Greetings

set_option autoImplicit false

namespace TemplateSync

/-- What a delivery brings, by the number of the tick it is for. -/
inductive Parcel where
  | list (tick : Nat)
  | metadata (tick : Nat)

inductive Dispatch (σ : Type) where
  | beat (beat : Beat σ)
  | deed (deed : Deed)
  | posted (beat : Beat σ) (deed : Deed)

def Beat.posts {σ : Type} : Beat σ → Bool
  | .clock (.listRead _) | .clock (.listSent _) | .speaking .. | .spoken .. => true
  | _ => false

def Deed.begins : Deed → Bool
  | .snapshot _ | .called _ => true
  | _ => false

structure Office (σ : Type) where
  works : Clockwork σ
  hub : Hub σ
  parcels : Nat → Option Parcel

namespace Office

variable {σ : Type}

def start (world : σ) : Office σ :=
  ⟨.start world, .start world, fun _ => none⟩

def Delivered (o : Office σ) (parcel : Parcel) : Prop :=
  ∀ number call, o.parcels number = some parcel → o.hub.calls number = some call →
    call.returned = true

def post (o : Office σ) (number : Nat) (parcel : Parcel) : Office σ :=
  { o with parcels := Function.update o.parcels number (some parcel) }

-- Who is written to sees the workspace of the clockwork.
def turn (o : Office σ) (works : Clockwork σ) : Office σ :=
  { o with
    works := works
    hub := { o.hub with world := works.clock.world, past := o.hub.past ++ [o.hub.world] } }

inductive Step (workspace : Workspace σ) (protocol : Int32) (o : Office σ) :
    Dispatch σ → Office σ → Prop where
  | beat (beat : Beat σ) (works : Clockwork σ) (inner : beat.posts = false)
      (step : Clockwork.Step workspace o.works beat works) :
      Step workspace protocol o (.beat beat) (o.turn works)
  | deed (deed : Deed) (hub : Hub σ) (inner : deed.begins = false)
      (step : Hub.Step workspace protocol o.hub deed hub) :
      Step workspace protocol o (.deed deed) { o with hub := hub }
  | listing (tick number : Nat) (works : Clockwork σ) (hub : Hub σ)
      (read : Clockwork.Step workspace o.works (.clock (.listRead tick)) works)
      (taken : Hub.Step workspace protocol o.hub (.snapshot number) hub) :
      Step workspace protocol o (.posted (.clock (.listRead tick)) (.snapshot number))
        (post { o with works := works, hub := hub } number (.list tick))
  | listed (tick : Nat) (works : Clockwork σ) (delivered : o.Delivered (.list tick))
      (sent : Clockwork.Step workspace o.works (.clock (.listSent tick)) works) :
      Step workspace protocol o (.beat (.clock (.listSent tick))) { o with works := works }
  | speaking (tick number : Nat) (message : Message) (works : Clockwork σ) (hub : Hub σ)
      (speaking : Clockwork.Step workspace o.works (.speaking tick message) works)
      (called : Hub.Step workspace protocol o.hub (.called number) hub)
      (same : ∀ call, hub.calls number = some call → call.entry.message = message) :
      Step workspace protocol o (.posted (.speaking tick message) (.called number))
        (post { o with works := works, hub := hub } number (.metadata tick))
  | spoken (tick : Nat) (message : Message) (works : Clockwork σ)
      (delivered : o.Delivered (.metadata tick))
      (spoken : Clockwork.Step workspace o.works (.spoken tick message) works) :
      Step workspace protocol o (.beat (.spoken tick message)) { o with works := works }

variable {workspace : Workspace σ} {protocol : Int32} {o p : Office σ} {dispatch : Dispatch σ}

def Carries (o : Office σ) (entry : Entry) (parcel : Parcel) : Prop :=
  ∃ number, entry.call = some number ∧ o.parcels number = some parcel

-- No list of a tick comes after metadata of its batch.
def InOrder (o : Office σ) (entries : List Entry) : Prop :=
  entries.Pairwise fun earlier later =>
    ∀ tick, o.Carries earlier (.metadata tick) → ¬o.Carries later (.list tick)

structure Sound (workspace : Workspace σ) (protocol : Int32) (o : Office σ) : Prop where
  fits : o.works.Fits
  hub : o.hub.Sound workspace protocol
  known : ∀ number parcel, o.parcels number = some parcel → (o.hub.calls number).isSome = true
  numbered : ∀ id peer, o.hub.peers id = some peer → ∀ entry ∈ peer.line, ∀ number,
    entry.call = some number → (o.hub.calls number).isSome = true
  lists : ∀ tick, o.Delivered (.list tick) ∨ (o.works.clock.ticks tick).toList = true
  batches : ∀ number tick, o.parcels number = some (.metadata tick) →
    (o.works.clock.ticks tick).begun = true
  ordered : ∀ id peer, o.hub.peers id = some peer → o.InOrder peer.line

theorem start_sound (workspace : Workspace σ) (protocol : Int32) (world : σ) :
    (start world).Sound workspace protocol where
  fits := Clockwork.start_fits world
  hub := Hub.start_sound workspace protocol world
  known := nofun
  numbered := nofun
  lists _ := .inl nofun
  batches := nofun
  ordered := nofun

theorem Sound.works (sound : o.Sound workspace protocol) {beat : Beat σ} {works : Clockwork σ}
    (step : Clockwork.Step workspace o.works beat works)
    (sent : ∀ tick, beat = .clock (.listSent tick) → o.Delivered (.list tick)) :
    Sound workspace protocol { o with works := works } where
  fits := step.fits sound.fits
  hub := sound.hub
  known := sound.known
  numbered := sound.numbered
  lists := by
    intro tick
    rcases sound.lists tick with delivered | due
    next => exact .inl delivered
    next =>
      rcases Clockwork.phase_step step tick with ⟨moment, rfl, advance⟩ | ⟨_, same⟩
      next =>
        rcases advance.toList due with still | rfl
        next => exact .inr still
        next => exact .inl (sent tick rfl)
      next => exact .inr (same ▸ due)
  batches := fun number tick there =>
    (Clockwork.step_progress sound.fits step tick).begun (sound.batches number tick there)
  ordered := sound.ordered

theorem delivered_hub (sound : o.Sound workspace protocol) {deed : Deed} {hub : Hub σ}
    (step : Hub.Step workspace protocol o.hub deed hub) {parcel : Parcel}
    (delivered : o.Delivered parcel) : Delivered { o with hub := hub } parcel := by
  intro number call there now
  obtain ⟨old, before⟩ := Option.isSome_iff_exists.mp (sound.known number parcel there)
  obtain ⟨new, same, turn⟩ := Hub.call_step step before
  cases same.symm.trans now
  have past := delivered number old there before
  cases turn with
  | kept | wrote | shut => exact past
  | returned => rfl

theorem calls_kept {h k : Hub σ} {deed : Deed} (step : Hub.Step workspace protocol h deed k)
    {number : Nat} (known : (h.calls number).isSome = true) : (k.calls number).isSome = true := by
  obtain ⟨old, before⟩ := Option.isSome_iff_exists.mp known
  obtain ⟨new, now, _⟩ := Hub.call_step step before
  exact Option.isSome_iff_exists.mpr ⟨new, now⟩

-- What a delivery writes is a list only as long as the tick of the list is not past it.
theorem Sound.written (sound : o.Sound workspace protocol) {number id : Nat} {call : Call}
    (under_way : o.hub.calls number = some call) (waiting : id ∈ call.round.waiting) {entry : Entry}
    {tick : Nat} (said : o.Carries entry (.metadata tick)) : ¬o.Carries call.entry (.list tick) := by
  rintro ⟨own, stamped, list⟩
  cases ((sound.hub.calls number call under_way).own.symm.trans stamped)
  obtain ⟨other, _, metadata⟩ := said
  have begun := sound.batches other tick metadata
  have delivered : o.Delivered (.list tick) := by
    refine (sound.lists tick).resolve_right fun due => ?_
    revert begun due
    cases o.works.clock.ticks tick <;> simp [TickPhase.begun, TickPhase.toList]
  have returned := delivered number call list under_way
  rw [(sound.hub.calls number call under_way).finished returned] at waiting
  cases waiting

theorem greeting_stamp {id changes : Nat} {world : σ} {entry : Entry}
    (inside : entry ∈ (Peer.fresh id (Hub.greetingAt workspace protocol changes world)).line) :
    entry.call = none := by
  obtain ⟨_, _, rfl⟩ := List.mem_map.mp inside
  rfl

theorem Sound.hub_step (sound : o.Sound workspace protocol) {deed : Deed} {hub : Hub σ}
    (step : Hub.Step workspace protocol o.hub deed hub) :
    Sound workspace protocol { o with hub := hub } where
  fits := sound.fits
  hub := sound.hub.next step
  known number parcel there := calls_kept step (sound.known number parcel there)
  lists tick := (sound.lists tick).imp_left (delivered_hub sound step)
  batches := sound.batches
  numbered := by
    intro id new there entry inside number stamped
    rcases Hub.peer_new step there with ⟨old, before⟩ | ⟨_, _, rfl⟩
    next =>
      obtain ⟨_, now, change⟩ := Hub.peer_step sound.hub.roll.numbered step before
      cases now.symm.trans there
      rcases sound.hub.line before change with shorter | ⟨other, call, _, under_way, _, longer⟩
      next =>
        exact calls_kept step (sound.numbered id old before entry (shorter.subset inside) number stamped)
      next =>
        rw [longer, List.mem_append, List.mem_singleton] at inside
        rcases inside with past | rfl
        next => exact calls_kept step (sound.numbered id old before entry past number stamped)
        next =>
          cases ((sound.hub.calls other call under_way).own.symm.trans stamped)
          exact calls_kept step (Option.isSome_iff_exists.mpr ⟨call, under_way⟩)
    next =>
      rw [greeting_stamp inside] at stamped
      cases stamped
  ordered := by
    intro id new there
    rcases Hub.peer_new step there with ⟨old, before⟩ | ⟨_, _, rfl⟩
    next =>
      obtain ⟨_, now, change⟩ := Hub.peer_step sound.hub.roll.numbered step before
      cases now.symm.trans there
      have past := sound.ordered id old before
      rcases sound.hub.line before change with shorter | ⟨number, call, _, under_way, waiting, longer⟩
      next => exact past.sublist shorter
      next =>
        rw [InOrder, longer, List.pairwise_append]
        refine ⟨past, List.pairwise_singleton .., fun entry _ last own tick said => ?_⟩
        rw [List.mem_singleton.mp own]
        exact sound.written under_way waiting said
    next =>
      refine List.pairwise_of_forall_mem_list fun earlier inside _ _ _ said => ?_
      obtain ⟨_, stamped, _⟩ := said
      rw [greeting_stamp inside] at stamped
      cases stamped

section Post

variable {number : Nat} {parcel : Parcel}

theorem carries_post {entry : Entry} {other : Parcel} (unsaid : entry.call ≠ some number)
    (carries : (o.post number parcel).Carries entry other) : o.Carries entry other := by
  obtain ⟨own, stamped, there⟩ := carries
  have different : own ≠ number := by
    rintro rfl
    exact unsaid stamped
  exact ⟨own, stamped, by simpa [post, different] using there⟩

theorem Sound.posted (sound : o.Sound workspace protocol) (known : (o.hub.calls number).isSome = true)
    (unsaid : ∀ id peer, o.hub.peers id = some peer → ∀ entry ∈ peer.line, entry.call ≠ some number)
    (list : ∀ tick, parcel = .list tick → (o.works.clock.ticks tick).toList = true)
    (metadata : ∀ tick, parcel = .metadata tick → (o.works.clock.ticks tick).begun = true) :
    (o.post number parcel).Sound workspace protocol where
  fits := sound.fits
  hub := sound.hub
  numbered := sound.numbered
  known := by
    intro other one there
    by_cases own : other = number
    next => exact own ▸ known
    next => exact sound.known other one (by simpa [post, own] using there)
  lists := by
    intro tick
    by_cases own : parcel = .list tick
    next => exact .inr (list tick own)
    next =>
      refine (sound.lists tick).imp_left fun delivered other call there => delivered other call ?_
      by_cases same : other = number
      next => simp [post, same, own] at there
      next => simpa [post, same] using there
  batches := by
    intro other tick there
    by_cases own : other = number
    next => exact metadata tick (by simpa [post, own] using there)
    next => exact sound.batches other tick (by simpa [post, own] using there)
  ordered := by
    intro id peer there
    refine (sound.ordered id peer there).imp_of_mem fun one two apart tick said list => ?_
    exact apart tick (carries_post (unsaid id peer there _ one) said)
      (carries_post (unsaid id peer there _ two) list)

end Post

theorem Sound.begun (sound : o.Sound workspace protocol) {deed : Deed} {hub : Hub σ} {number : Nat}
    (step : Hub.Step workspace protocol o.hub deed hub)
    (begins : deed = .snapshot number ∨ deed = .called number) :
    (hub.calls number).isSome = true ∧ ∀ id peer, hub.peers id = some peer →
      ∀ entry ∈ peer.line, entry.call ≠ some number := by
  have silent (unused : o.hub.calls number = none) (id : Nat) (peer : Peer)
      (there : o.hub.peers id = some peer) (entry : Entry) (inside : entry ∈ peer.line) :
      entry.call ≠ some number := by
    intro stamped
    have known := sound.numbered id peer there entry inside number stamped
    simp [unused] at known
  rcases begins with rfl | rfl
  next =>
    cases step with
    | snapshot _ _ unused => exact ⟨by simp, silent unused⟩
  next =>
    cases step with
    | called _ _ _ unused => exact ⟨by simp, silent unused⟩

theorem Sound.next (sound : o.Sound workspace protocol)
    (step : Step workspace protocol o dispatch p) : p.Sound workspace protocol := by
  cases step with
  | beat beat works inner step =>
    have quiet : ∀ tick, beat = .clock (.listSent tick) → o.Delivered (.list tick) := by
      rintro tick rfl
      cases inner
    exact (sound.works step quiet).hub_step (.moved works.clock.world)
  | deed deed hub inner step => exact sound.hub_step step
  | listed tick works delivered step =>
    refine sound.works step ?_
    rintro _ ⟨⟩
    exact delivered
  | spoken tick message works delivered step => exact sound.works step nofun
  | listing tick number works hub read taken =>
    have first := sound.works read nofun
    have second := first.hub_step taken
    obtain ⟨known, unsaid⟩ := first.begun taken (.inl rfl)
    refine second.posted known unsaid ?_ nofun
    rintro _ ⟨⟩
    cases read with
    | clock _ _ _ read =>
      cases read
      simp [TickPhase.toList]
  | speaking tick number message works hub speaking called same =>
    have first := sound.works speaking nofun
    have second := first.hub_step called
    obtain ⟨known, unsaid⟩ := first.begun called (.inr rfl)
    refine second.posted known unsaid nofun ?_
    rintro _ ⟨⟩
    cases speaking with
    | speaking _ _ _ _ sending =>
      obtain ⟨batch, batching⟩ := Clockwork.fits_batching sound.fits sending
      show (o.works.clock.ticks tick).begun = true
      rw [batching]
      rfl

theorem trace_sound {dispatches : List (Dispatch σ)}
    (trace : Trace (Step workspace protocol) o dispatches p) (sound : o.Sound workspace protocol) :
    p.Sound workspace protocol :=
  trace.keeps (fun _ _ _ sound step => sound.next step) sound

theorem list_comes_first {world : σ} {dispatches : List (Dispatch σ)}
    (trace : Trace (Step workspace protocol) (start world) dispatches o) {id : Nat} {peer : Peer}
    (there : o.hub.peers id = some peer) : o.InOrder peer.told :=
  ((trace_sound trace (start_sound workspace protocol world)).ordered id peer there).sublist
    (List.sublist_append_left ..)

theorem list_is_delivered (sound : o.Sound workspace protocol) {tick : Nat}
    (step : Step workspace protocol o (.beat (.clock (.projectsRead tick))) p) :
    o.Delivered (.list tick) := by
  refine (sound.lists tick).resolve_right ?_
  cases step with
  | beat _ _ _ step =>
    cases step with
    | clock _ _ _ step =>
      cases step with
      | projectsRead _ listed => simp [listed, TickPhase.toList]

open Clockwork in
theorem bursts_coalesce (workspace : Workspace σ) (protocol : Int32) (world : σ) :
    (∀ beats w, Trace (Clockwork.Step workspace) (.start world) beats w →
      (moments beats).countP Moment.sendsList ≤ (moments beats).countP Moment.isStructural ∧
      (moments beats).countP Moment.startsBatch ≤ (moments beats).countP Moment.isChange) ∧
    (∀ before tick after k, Trace (Clockwork.Step workspace) (.start world)
        (before ++ .clock (.claimed tick) :: after) k →
      (moments (before ++ .clock (.claimed tick) :: after)).countP (Moment.sendsListOf tick) ≤ 1 ∧
      ((k.clock.ticks tick).inProgress = false →
        (.clock (.listSent tick) ∈ after ↔ Restructured before)) ∧
      ∀ first rest, after = first ++ .clock (.projectsRead tick) :: rest →
        .clock (.listSent tick) ∉ rest) ∧
    (∀ before tick after w m k, Trace (Paced workspace) (.start world) before w →
      Paced workspace w (.clock (.claimed tick)) m → Trace (Clockwork.Step workspace) m after k →
      (w.clock.ticker.flags = .clean → m.clock.ticker = w.clock.ticker ∧
        ∀ beat ∈ after, beat.tick? ≠ some tick) ∧
      ((k.clock.ticks tick).inProgress = false →
        (.clock (.batchStarted tick) ∈ after ↔ .clock (.spawnFailed tick) ∉ after ∧
          (∀ other, w.batches other = none) ∧ Unserved before) ∧
        (.clock (.spawnFailed tick) ∈ after → (∀ other, .clock (.claimed other) ∉ after) →
          k.clock.ticker.flags.metadata = true))) ∧
    (∀ broadcaster w tick, w.clock.ticks tick = .unstarted →
      Performs workspace broadcaster w tick
        (Ticker.tick workspace broadcaster (w.clock.ticker, w.clock.world))) ∧
    (∀ broadcaster marked, Ticker.tick workspace broadcaster (⟨.clean, marked⟩, world) =
      ⟨⟨false, none⟩, [], (⟨.clean, marked⟩, world)⟩) ∧
    ∀ dispatches o, Trace (Step workspace protocol) (start world) dispatches o →
      (∀ tick p, Step workspace protocol o (.beat (.clock (.projectsRead tick))) p →
        o.Delivered (.list tick)) ∧
      ∀ id peer, o.hub.peers id = some peer → o.InOrder peer.told := by
  refine ⟨?_, ?_, ?_, ?_, ?_, ?_⟩
  next =>
    intro beats w trace
    exact ⟨served_le_marked .list trace, served_le_marked .metadata trace⟩
  next =>
    intro before tick after k trace
    exact tick_lists trace
  next =>
    intro before tick after w m k trace claimed rest
    have fits := trace_fits (Paced.trace trace) (start_fits world)
    refine ⟨clean_idles fits claimed.step rest, fun returned => ⟨?_, fun failed alone => ?_⟩⟩
    next => exact tick_starts trace claimed rest returned
    next => exact failed_dirty rest failed alone returned
  next => exact fun broadcaster w tick => tick_performs
  next => exact fun broadcaster marked => Ticker.tick_clean workspace broadcaster marked world
  next =>
    intro dispatches o trace
    have sound := trace_sound trace (start_sound workspace protocol world)
    exact ⟨fun tick p step => list_is_delivered sound step, fun id peer => list_comes_first trace⟩

section Example

def lone : ProjectDescriptor :=
  ⟨.ofNat 1, "Web", "/web/Web.csproj", []⟩

def shop : Workspace Unit where
  projects := fun _ => [lone]
  emit := fun _ => pure (.emitted ⟨none, [1]⟩)

def serving (works : Clockwork Unit) (past : List Unit) (reception : Reception)
    (calls : Nat → Option Call) (parcels : Nat → Option Parcel) (written : Bytes)
    (due told : List Entry) : Office Unit :=
  ⟨works, ⟨(), past, Function.update (fun _ => none) 1 (some ⟨⟨1, written, false, true⟩,
    Hub.greetingAt shop 1 0 (), due, told, false⟩), [1], 2, reception, calls⟩, parcels⟩

variable {works : Clockwork Unit} {past : List Unit} {calls : Nat → Option Call}
  {parcels : Nat → Option Parcel} {written : Bytes} {due told : List Entry}

theorem serving_greets (entry : Entry)
    (short : ∃ text, entry.message.encode = .ok text ∧
      (Utf8.encode text).length < Frame.maxLength) :
    ∃ more, Step shop 1 (serving works past (.greeting 1) calls parcels written (entry :: due) told)
      (.deed (.greeted 1 true))
      (serving works past (.greeting 1) calls parcels more due (told ++ [entry])) := by
  obtain ⟨text, encoded, short⟩ := short
  obtain ⟨frame, done⟩ : ∃ frame, Client.write ⟨1, written, false, true⟩ _ = .ok _ :=
    Client.write_intact rfl rfl short
  have step : Step shop 1
      (serving works past (.greeting 1) calls parcels written (entry :: due) told) _ _ :=
    .deed _ _ rfl (.greeted 1 _ entry due text _ true rfl rfl rfl encoded
      (.written _ done))
  exact ⟨written ++ frame, by simpa [serving, Hub.receive, Hub.setPeer, Peer.took] using step⟩

theorem serving_delivers {number : Nat} {entry : Entry} {text : String} {o : Office Unit}
    {dispatches : List (Dispatch Unit)}
    (trace : Trace (Step shop 1) o dispatches
      (serving works past .idle calls parcels written [] told))
    (under_way : calls number = some (.start entry text [1]))
    (short : (Utf8.encode text).length < Frame.maxLength) :
    ∃ more later last, Trace (Step shop 1) o
      (dispatches ++ [.deed (.wrote number 1 true)] ++ [.deed (.returned number)])
      (serving works past .idle later parcels more [] (told ++ [entry])) ∧
      later number = some last ∧ last.returned = true ∧
      ∀ other, other ≠ number → later other = calls other := by
  obtain ⟨frame, done⟩ : ∃ frame, Client.write ⟨1, written, false, true⟩ _ = .ok _ :=
    Client.write_intact rfl rfl short
  have wrote : Step shop 1 (serving works past .idle calls parcels written [] told) _ _ :=
    .deed _ _ rfl (.wrote number _ 1 [] _ _ true under_way rfl rfl rfl nofun
      (.written _ done))
  have returned := (trace.next wrote).next
    (.deed _ _ rfl (.returned number _ (Hub.setCall_same ..) rfl ⟨rfl, rfl⟩))
  refine ⟨written ++ frame, Function.update calls number (some _), _, by
    simpa [serving, Hub.setPeer, Hub.setCall, Hub.without, Peer.took, Call.start, Round.after]
      using returned, Function.update_self .., rfl, fun other different => ?_⟩
  exact Function.update_of_ne different ..

theorem shop_greets :
    ∃ written told, Trace (Step shop 1) (start ())
      [.deed (.registered 1), .deed (.greeted 1 true), .deed (.greeted 1 true), .deed (.welcomed 1)]
      (serving (.start ()) [] .idle (fun _ => none) (fun _ => none) written [] told) := by
  have registered : Trace (Step shop 1) (start ()) [.deed (.registered 1)]
      (serving (.start ()) [] (.greeting 1) (fun _ => none) (fun _ => none) []
        (Hub.greetingAt shop 1 0 ()) []) := trace_single (.deed _ _ rfl (.registered rfl))
  obtain ⟨_, versioned⟩ : ∃ more, Step shop 1 (serving (.start ()) [] (.greeting 1) (fun _ => none)
      (fun _ => none) [] [⟨.version 1, 0, none⟩, ⟨.solution [lone], 0, none⟩] []) _
      (serving _ _ _ _ _ more _ _) := serving_greets _ ⟨_, rfl, by decide +kernel⟩
  obtain ⟨_, listed⟩ : ∃ more, Step shop 1 (serving _ _ _ _ _ _ [⟨.solution [lone], 0, none⟩] _) _
      (serving _ _ _ _ _ more _ _) := serving_greets _ ⟨_, rfl, by decide +kernel⟩
  exact ⟨_, _, ((registered.next versioned).next listed).next
    (.deed _ _ rfl (.welcomed 1 _ rfl rfl rfl))⟩

theorem delivered_sole {o : Office Unit} {number : Nat} {last : Call} {parcel : Parcel}
    (sole : ∀ other one, o.parcels other = some one → other = number)
    (there : o.hub.calls number = some last) (returned : last.returned = true) :
    o.Delivered parcel := by
  intro other call parcelled now
  cases sole other parcel parcelled
  cases there.symm.trans now
  exact returned

theorem shop_lists (written : Bytes) (told : List Entry) :
    ∃ works past calls more, Trace (Step shop 1)
      (serving (.start ()) [] .idle (fun _ => none) (fun _ => none) written [] told)
      [.beat (.clock (.changed .solutionAdded)), .beat (.clock (.claimed 0)),
        .posted (.clock (.listRead 0)) (.snapshot 0), .deed (.wrote 0 1 true), .deed (.returned 0),
        .beat (.clock (.listSent 0)), .beat (.clock (.projectsRead 0)), .beat (.clock (.batchStarted 0))]
      (serving works past .idle calls (Function.update (fun _ => none) 0 (some (.list 0))) more []
        (told ++ [⟨.solution [lone], 2, some 0⟩])) ∧
      works.batches 0 = some (.emitting [(lone, none)]) ∧ calls 1 = none := by
  have encodes : ∃ text, (Message.solution [lone]).encode = .ok text ∧
      (Utf8.encode text).length < Frame.maxLength := ⟨_, rfl, by decide +kernel⟩
  obtain ⟨text, encoded, short⟩ := encodes
  have changed : Step shop 1
      (serving (.start ()) [] .idle (fun _ => none) (fun _ => none) written [] told) _ _ :=
    .beat _ _ rfl (.clock _ _ rfl (.changed .solutionAdded))
  have claimed := (trace_single changed).next (.beat _ _ rfl (.clock _ _ rfl (.claimed 0 rfl)))
  obtain ⟨works, phase, listing⟩ : ∃ works : Clockwork Unit,
      works.clock.ticks 0 = .listing (.solution [lone]) true ∧
      Trace (Step shop 1) _ _ (serving works [(), ()] .idle
        (Function.update (fun _ => none) 0
          (some (.start ⟨.solution [lone], 2, some 0⟩ text [1])))
        (Function.update (fun _ => none) 0 (some (.list 0))) written [] told) :=
    ⟨_, rfl, claimed.next (.listing 0 0 _ _ (.clock _ _ rfl (.listRead 0 _ rfl))
      (.snapshot 0 text rfl (fun _ _ there => nomatch there) encoded))⟩
  obtain ⟨more, later, last, delivered, there, returned, others⟩ :=
    serving_delivers listing (Function.update_self ..) short
  have sole (number : Nat) (parcel : Parcel)
      (there : Function.update (fun _ => none) 0 (some (.list 0)) number = some parcel) :
      number = 0 := by
    by_contra different
    simp [different] at there
  have sent := delivered.next (.listed 0 _ (delivered_sole sole there returned)
    (.clock _ _ rfl (.listSent 0 _ _ phase)))
  have read := sent.next (.beat _ _ rfl (.clock _ _ rfl (.projectsRead 0 (Clock.put_same ..))))
  have started := read.next (.beat _ _ rfl
    (.begun 0 _ _ (Clock.put_same ..) (.batchStarted 0 _ (Clock.put_same ..))))
  exact ⟨_, _, _, more, started, Clockwork.put_same .., others 1 (by decide)⟩

def lonely : Message :=
  Batch.message lone ⟨none, [1]⟩

theorem shop_emits (emitting : works.batches 0 = some (.emitting [(lone, none)]))
    (unused : calls 1 = none) :
    ∃ last past' later more version, Trace (Step shop 1)
      (serving works past .idle calls parcels written [] told)
      [.beat (.emitted 0 lone), .beat (.gathered 0), .posted (.speaking 0 lonely) (.called 1),
        .deed (.wrote 1 1 true), .deed (.returned 1)]
      (serving last past' .idle later (Function.update parcels 1 (some (.metadata 0))) more []
        (told ++ [⟨lonely, version, some 1⟩])) := by
  have encodes : ∃ text, lonely.encode = .ok text ∧
      (Utf8.encode text).length < Frame.maxLength := ⟨_, rfl, by decide +kernel⟩
  obtain ⟨text, encoded, short⟩ := encodes
  have emitted : Step shop 1 (serving works past .idle calls parcels written [] told) _ _ :=
    .beat _ _ rfl (.emitted 0 [] [] lone emitting)
  have gathered := (trace_single emitted).next (.beat _ _ rfl
    (.gathered 0 [(lone, .emitted ⟨none, [1]⟩)] (Clockwork.put_same ..) (by simp)))
  have same (call : Call)
      (there : Function.update calls 1
        (some (.start ⟨lonely, (past ++ [()] ++ [()]).length, some 1⟩ text [1])) 1 = some call) :
      call.entry.message = lonely := by
    rw [Function.update_self] at there
    cases there
    rfl
  obtain ⟨last, speaking⟩ : ∃ last : Clockwork Unit,
      Trace (Step shop 1) _ _ (serving last (past ++ [()] ++ [()]) .idle
        (Function.update calls 1
          (some (.start ⟨lonely, (past ++ [()] ++ [()]).length, some 1⟩ text [1])))
        (Function.update parcels 1 (some (.metadata 0))) written [] told) :=
    ⟨_, gathered.next (.speaking 0 1 lonely _ _ (.speaking 0 lone ⟨none, [1]⟩ [] (Clockwork.put_same ..))
      (.called 1 _ text unused encoded) same)⟩
  obtain ⟨more, later, _, delivered, _⟩ :=
    serving_delivers speaking (Function.update_self ..) short
  exact ⟨last, _, later, more, _, delivered⟩

theorem shop_ticks :
    ∃ w m k, Trace (Clockwork.Paced shop) (.start ()) [.clock (.changed .solutionAdded)] w ∧
      Clockwork.Paced shop w (.clock (.claimed 0)) m ∧
      Trace (Clockwork.Step shop) m [.clock (.listRead 0), .clock (.listSent 0),
        .clock (.projectsRead 0), .clock (.batchStarted 0)] k ∧
      (k.clock.ticks 0).inProgress = false ∧
      w.clock.ticker = ⟨⟨true, true⟩, false⟩ ∧ w.clock.ticks 0 = .unstarted := by
  have changed : Clockwork.Paced shop (.start ()) (.clock (.changed .solutionAdded)) _ :=
    ⟨.clock _ _ rfl (.changed _), nofun⟩
  exact ⟨_, _, _, trace_single changed, ⟨.clock _ _ rfl (.claimed 0 rfl), fun _ _ _ => rfl⟩,
    trace_cons.mpr ⟨_, .clock _ _ rfl (.listRead 0 _ rfl),
      trace_cons.mpr ⟨_, .clock _ _ rfl (.listSent 0 _ _ rfl),
        trace_cons.mpr ⟨_, .clock _ _ rfl (.projectsRead 0 rfl),
          trace_single (.begun 0 _ _ rfl (.batchStarted 0 _ rfl))⟩⟩⟩, rfl, rfl, rfl⟩

theorem shop_is_served :
    (∃ w m k, Trace (Clockwork.Paced shop) (.start ()) [.clock (.changed .solutionAdded)] w ∧
      Clockwork.Paced shop w (.clock (.claimed 0)) m ∧
      Trace (Clockwork.Step shop) m [.clock (.listRead 0), .clock (.listSent 0),
        .clock (.projectsRead 0), .clock (.batchStarted 0)] k ∧
      Clockwork.Restructured (σ := Unit) [.clock (.changed .solutionAdded)] ∧
      Clockwork.Unserved (σ := Unit) [.clock (.changed .solutionAdded)] ∧
      ∀ broadcaster, ∃ called, Trace (Clockwork.Step shop) w
        [.clock (.claimed 0), .clock (.listRead 0), .clock (.moved ()), .clock (.listSent 0),
          .clock (.projectsRead 0)] called ∧
        (Ticker.tick shop broadcaster (w.clock.ticker, w.clock.world)).value = ⟨true, some ⟨[lone]⟩⟩) ∧
    ∃ dispatches o peer told one two, Trace (Step shop 1) (start ()) dispatches o ∧
      o.hub.peers 1 = some peer ∧
      peer.told = told ++ [⟨.solution [lone], one, some 0⟩] ++ [⟨lonely, two, some 1⟩] ∧
      o.InOrder peer.told := by
  obtain ⟨_, tick, starts, performs, _, order⟩ := bursts_coalesce shop 1 ()
  constructor
  next =>
    obtain ⟨w, m, k, changed, claimed, rest, returned, dirty, unstarted⟩ := shop_ticks
    have whole : Trace (Clockwork.Step shop) (.start ())
        ([.clock (.changed .solutionAdded)] ++ .clock (.claimed 0) :: _) k :=
      (Clockwork.Paced.trace changed).trans (trace_cons.mpr ⟨m, claimed.step, rest⟩)
    have list := ((tick _ 0 _ k whole).2.1 returned).mp (by simp)
    have batch := (((starts _ 0 _ w m k changed claimed rest).2 returned).1.mp (by simp)).2.2
    refine ⟨w, m, k, changed, claimed, rest, list, batch, fun broadcaster => ?_⟩
    have alone := performs broadcaster w 0 unstarted
    generalize Ticker.tick shop broadcaster (w.clock.ticker, w.clock.world) = done at alone
    have sent : done.value.solutionSent = true := by rw [alone.sent, dirty]
    have started : done.value.batch = some ⟨[lone]⟩ := by rw [alone.batch, dirty]; rfl
    have moments := alone.moments
    rw [Clock.tickMoments, Clock.listMoments, Clock.batchMoments, sent, started] at moments
    refine ⟨_, moments, ?_⟩
    rcases done with ⟨⟨_, _⟩, _⟩
    cases sent
    cases started
    rfl
  next =>
    obtain ⟨written, told, greeted⟩ := shop_greets
    obtain ⟨works, past, calls, more, listed, emitting, unused⟩ := shop_lists written told
    obtain ⟨last, after, later, most, version, emitted⟩ := shop_emits emitting unused
    have trace := (greeted.trans listed).trans emitted
    exact ⟨_, _, _, told, _, version, trace, rfl, rfl, (order _ _ trace).2 1 _ rfl⟩

end Example

end Office

end TemplateSync
