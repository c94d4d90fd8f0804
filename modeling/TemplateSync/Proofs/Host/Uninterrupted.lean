import TemplateSync.Proofs.Host.Interleaving

set_option autoImplicit false

namespace TemplateSync

namespace Fanout

theorem map_absent {clients : List Client} {id : Nat} (change : Client → Client)
    (absent : id ∉ clients.map Client.id) :
    clients.map (fun known => if known.id = id then change known else known) = clients := by
  induction clients with
  | nil => rfl
  | cons client clients ih =>
    simp only [List.map_cons, List.mem_cons, not_or] at absent
    rw [List.map_cons, ih absent.2, if_neg (Ne.symm absent.1)]

theorem map_picked {first rest : List Client} {client : Client} (change : Client → Client)
    (distinct : ((first ++ client :: rest).map Client.id).Nodup) :
    (first ++ client :: rest).map
        (fun known => if known.id = client.id then change known else known) =
      first ++ change client :: rest := by
  rw [List.map_append, List.map_cons, List.nodup_append] at distinct
  obtain ⟨_, last, apart⟩ := distinct
  have before : client.id ∉ first.map Client.id := by
    intro inside
    exact apart _ inside _ (by simp) rfl
  rw [List.map_append, List.map_cons, if_pos rfl, map_absent change before,
    map_absent change (List.nodup_cons.mp last).1]

theorem update_picked {fanout : Fanout} {first rest : List Client} {client next : Client}
    (distinct : ((first ++ client :: rest).map Client.id).Nodup) (same : next.id = client.id) :
    ({ fanout with clients := first ++ client :: rest } : Fanout).update next =
      { fanout with clients := first ++ next :: rest } := by
  have one := map_picked (fun _ => next) distinct
  rw [← same] at one
  rw [update, one]

theorem shut_picked {fanout : Fanout} {first rest : List Client} {client : Client}
    (distinct : ((first ++ client :: rest).map Client.id).Nodup) :
    ({ fanout with clients := first ++ client :: rest } : Fanout).shut client.id =
      { fanout with clients := first ++ client.close :: rest } := by
  rw [shut, map_picked Client.close distinct]

theorem update_update (fanout : Fanout) {first second : Client} (same : second.id = first.id) :
    (fanout.update first).update second = fanout.update second := by
  simp only [update, List.map_map]
  congr 1
  apply List.map_congr_left
  intro known _
  by_cases own : known.id = first.id <;> simp [own, same]

theorem update_remove (fanout : Fanout) (client : Client) :
    (fanout.update client).remove [client.id] = fanout.remove [client.id] := by
  simp only [update, remove]
  congr 1
  induction fanout.clients with
  | nil => rfl
  | cons known clients ih =>
    by_cases own : known.id = client.id
    next => simpa [own] using ih
    next => simpa [own] using ih

theorem mem_update_self {fanout : Fanout} {client : Client}
    (known : client.id ∈ fanout.clients.map Client.id) : client ∈ (fanout.update client).clients := by
  obtain ⟨one, inside, same⟩ := List.mem_map.mp known
  exact List.mem_map.mpr ⟨one, inside, if_pos same⟩

theorem register_update {fanout : Fanout}
    (numbered : ∀ client ∈ fanout.clients, client.id < fanout.nextId) :
    fanout.register.2.update (.connected fanout.nextId) = fanout.register.2 := by
  simp only [update, register]
  congr 1
  have absent : (Client.connected fanout.nextId).id ∉ fanout.clients.map Client.id := by
    intro inside
    obtain ⟨client, there, same⟩ := List.mem_map.mp inside
    exact Nat.lt_irrefl _ (same ▸ numbered client there)
  rw [List.map_append, map_absent (fun _ => Client.connected fanout.nextId) absent, List.map_cons,
    if_pos rfl, List.map_nil]

theorem deliverTo_written {client next : Client} {text : String}
    (written : client.write text = .ok next) (clients : List Client) :
    deliverTo text (client :: clients) =
      (next :: (deliverTo text clients).1, (deliverTo text clients).2) := by
  simp [deliverTo, written]

theorem deliverTo_refused {client : Client} {text : String} {error : IoError}
    (refused : client.write text = .error error) (clients : List Client) :
    deliverTo text (client :: clients) =
      (client.close :: (deliverTo text clients).1,
        (client.id, error) :: (deliverTo text clients).2) := by
  simp [deliverTo, refused]

theorem accept_state (greeting : List Message) (fanout : Fanout) :
    (accept greeting fanout).state =
      match greet (.connected fanout.nextId) greeting with
      | .ok last => fanout.register.2.update last
      | .error _ => fanout.register.2.remove [fanout.nextId] := by
  simp only [accept, register]
  cases greet (.connected fanout.nextId) greeting <;> rfl

end Fanout

namespace Host

variable {σ : Type} {workspace : Workspace σ} {version : Int32}

def delivering (h : Host σ) (tick : Nat) (clients : List Client) (round : Round) : Host σ :=
  { h with fanout := { h.fanout with clients := clients } }.setRound tick (some round)

theorem delivering_round (h : Host σ) (tick : Nat) (clients : List Client) (old new : Round) :
    (h.delivering tick clients old).setRound tick (some new) = h.delivering tick clients new := by
  simp [delivering, setRound]

section Deliver

variable (h : Host σ) (tick : Nat) {first rest : List Client} {client next : Client} {text : String}
  {waiting failed : List Nat} (free : ∀ id due, h.accepting ≠ .greeting id due)
  (distinct : ((first ++ client :: rest).map Client.id).Nodup)

include free distinct

theorem delivers_text {left : Bytes} {arrived : Bool}
    (writes : client.Writes (h.held client.id) text next left arrived) :
    Step workspace version
      (h.delivering tick (first ++ client :: rest) ⟨text, client.id :: waiting, none, failed⟩)
      ((h.write next text left arrived).delivering tick (first ++ next :: rest)
        ⟨text, waiting, if arrived then none else some client.id, failed⟩) := by
  have step : Step workspace version
      (h.delivering tick (first ++ client :: rest) ⟨text, client.id :: waiting, none, failed⟩) _ :=
    .deliver tick ⟨text, client.id :: waiting, none, failed⟩ client next waiting left arrived
      (setRound_same ..) rfl rfl (by simp [delivering]) (free client.id) writes
  have after : (h.delivering tick (first ++ client :: rest)
      ⟨text, client.id :: waiting, none, failed⟩).fanout.update next =
      { h.fanout with clients := first ++ next :: rest } :=
    Fanout.update_picked distinct writes.same_id
  rw [write, after] at step
  simpa [delivering, setRound, write, Round.after, Fanout.update] using step

omit free in
theorem delivers_close :
    Step workspace version
      (h.delivering tick (first ++ client :: rest) ⟨text, waiting, some client.id, failed⟩)
      (h.delivering tick (first ++ client.close :: rest)
        ⟨text, waiting, none, failed ++ [client.id]⟩) := by
  have step : Step workspace version
      (h.delivering tick (first ++ client :: rest) ⟨text, waiting, some client.id, failed⟩) _ :=
    .close tick ⟨text, waiting, some client.id, failed⟩ client.id (setRound_same ..) rfl
  have after : (h.delivering tick (first ++ client :: rest)
      ⟨text, waiting, some client.id, failed⟩).fanout.shut client.id =
      { h.fanout with clients := first ++ client.close :: rest } := Fanout.shut_picked distinct
  rw [after] at step
  rw [← delivering_round h tick (first ++ client.close :: rest)
    ⟨text, waiting, some client.id, failed⟩]
  exact step

end Deliver

def Flushed (h : Host σ) (clients : List Client) : Prop :=
  ∀ client ∈ clients, h.held client.id = []

theorem flushed_write {h : Host σ} {client next : Client} {clients : List Client} {text : String}
    {left : Bytes} {arrived : Bool} (flushed : h.Flushed clients) (same : next.id = client.id)
    (distinct : client.id ∉ clients.map Client.id) :
    (h.write next text left arrived).Flushed clients := by
  intro other there
  have different : other.id ≠ next.id := by
    intro equal
    exact distinct (List.mem_map.mpr ⟨other, there, equal.trans same⟩)
  simpa [write, different] using flushed other there

theorem delivers_all (h : Host σ) (text : String) (tick : Nat) (clients first : List Client)
    (failed : List Nat) (free : ∀ id due, h.accepting ≠ .greeting id due)
    (distinct : ((first ++ clients).map Client.id).Nodup) (flushed : h.Flushed clients) :
    ∃ held told, Relation.ReflTransGen (Step workspace version)
      (h.delivering tick (first ++ clients) ⟨text, clients.map Client.id, none, failed⟩)
      (delivering { h with held := held, told := told } tick
        (first ++ (Fanout.deliverTo text clients).1)
        ⟨text, [], none, failed ++ (Fanout.deliverTo text clients).2.map Prod.fst⟩) := by
  induction clients generalizing first failed h with
  | nil =>
    simp only [Fanout.deliverTo, List.map_nil, List.append_nil]
    exact ⟨h.held, h.told, .refl⟩
  | cons client clients ih =>
    have nothing := flushed client (by simp)
    have later : h.Flushed clients := fun other there => flushed other (by simp [there])
    have absent : client.id ∉ clients.map Client.id := by
      rw [List.map_append, List.nodup_append] at distinct
      exact (List.nodup_cons.mp distinct.2.1).1
    cases written : client.write text with
    | ok next =>
      have writes : client.Writes (h.held client.id) text next [] true := by
        rw [nothing]
        exact Client.writes_of_ok written
      have apart : (((first ++ [next]) ++ clients).map Client.id).Nodup := by
        simpa [writes.same_id] using distinct
      obtain ⟨held, told, run⟩ := ih (h.write next text [] true) (first ++ [next]) failed free
        apart (flushed_write later writes.same_id absent)
      simp only [List.append_assoc, List.singleton_append] at run
      simp only [Fanout.deliverTo, written]
      exact ⟨held, told, .head (delivers_text h tick free distinct writes) run⟩
    | error error =>
      obtain ⟨left, writes⟩ := Client.writes_of_error client (h.held client.id) text
      have apart : (((first ++ [client.close]) ++ clients).map Client.id).Nodup := by
        simpa [Client.close] using distinct
      obtain ⟨held, told, run⟩ := ih (h.write client text left false)
        (first ++ [client.close]) (failed ++ [client.id]) free apart (flushed_write later rfl absent)
      simp only [List.append_assoc, List.singleton_append] at run
      simp only [Fanout.deliverTo, written, List.map_cons]
      exact ⟨held, told, .head (delivers_text h tick free distinct writes)
        (.head (delivers_close (h.write client text left false) tick distinct) run)⟩

theorem deliver_runs {h : Host σ} {tick : Nat} {metadata : Bool} {text : String}
    (claimed : h.clock.ticks tick = .claimed metadata)
    (encoded : (Ticker.solution workspace h.clock.world).value.encode = .ok text)
    (distinct : (h.fanout.clients.map Client.id).Nodup) (flushed : h.Flushed h.fanout.clients)
    (free : ∀ id due, h.accepting ≠ .greeting id due) :
    ∃ k, Relation.ReflTransGen (Step workspace version) h k ∧
      k.clock = h.clock.put tick (.afterList metadata) ∧ k.accepting = h.accepting ∧
      k.fanout = (Fanout.deliver text h.fanout).state := by
  have read : Step workspace version h _ :=
    .list tick _ _ metadata text (.listRead tick metadata claimed) (Clock.put_same ..) encoded
  generalize (Ticker.solution workspace h.clock.world).value = message at read
  have delivers : ∃ held told, Relation.ReflTransGen (Step workspace version) _ _ :=
    delivers_all { h with clock := h.clock.put tick (.listing message metadata) } text tick
      h.fanout.clients [] [] free distinct flushed
  obtain ⟨held, told, run⟩ := delivers
  have sent := Relation.ReflTransGen.head read run
  generalize both : Fanout.deliverTo text h.fanout.clients = outcome at sent
  have listed := sent.tail
    (.listed tick _ ⟨text, [], none, [] ++ outcome.2.map Prod.fst⟩ (setRound_same ..) ⟨rfl, rfl⟩
      (.listSent tick message metadata (Clock.put_same ..)))
  refine ⟨_, listed, ?_, rfl, by rw [Fanout.deliver, both]; rfl⟩
  exact Clock.put_put ..

theorem greet_runs (messages : List Message) {h : Host σ} {fanout : Fanout} {client : Client}
    (known : client.id ∈ fanout.clients.map Client.id) (now : h.fanout = fanout.update client)
    (nothing : h.held client.id = []) (greeting : h.accepting = .greeting client.id messages) :
    ∃ held told, Relation.ReflTransGen (Step workspace version) h
      { h with
        accepting := .idle
        held := held
        told := told
        fanout := match Fanout.greet client messages with
          | .ok last => fanout.update last
          | .error _ => fanout.remove [client.id] } := by
  -- The set is the one at the start of the greeting but for the client as it was last written.
  induction messages generalizing h client with
  | nil =>
    simp only [Fanout.greet, ← now]
    exact ⟨h.held, h.told, .single (.welcome client.id greeting)⟩
  | cons message messages ih =>
    have there : client ∈ h.fanout.clients := by
      rw [now]
      exact Fanout.mem_update_self known
    cases encoded : message.encode with
    | error fault =>
      have fallen : Step workspace version h _ :=
        .fall client.id message messages fault greeting encoded
      have left := (Relation.ReflTransGen.single fallen).tail (.leave client.id rfl)
      simp only [Fanout.greet, encoded]
      exact ⟨h.held, h.told, by simpa [now, Fanout.update_remove] using left⟩
    | ok text =>
      cases written : client.write text with
      | error error =>
        obtain ⟨rest, writes⟩ := Client.writes_of_error client (h.held client.id) text
        have refused : Step workspace version h _ :=
          .greet client client message messages text rest false greeting there encoded writes
        have left := (Relation.ReflTransGen.single refused).tail (.leave client.id rfl)
        simp only [Fanout.greet, encoded, written]
        exact ⟨_, _, by simpa [write, now, Fanout.update_update, Fanout.update_remove] using left⟩
      | ok next =>
        have writes : client.Writes (h.held client.id) text next [] true := by
          rw [nothing]
          exact Client.writes_of_ok written
        have greeted : Step workspace version h _ :=
          .greet client next message messages text [] true greeting there encoded writes
        have same := writes.same_id
        obtain ⟨held, told, run⟩ := ih
          (h := { h.write next text [] true with accepting := .greeting client.id messages })
          (by rwa [same]) (by simp only [write, now, Fanout.update_update _ same])
          (by simp [write]) (by rw [same])
        simp only [Fanout.greet, encoded, written]
        simp only [same] at run
        exact ⟨held, told, .head greeted run⟩

theorem accept_runs {h : Host σ} (idle : h.accepting = .idle)
    (numbered : ∀ client ∈ h.fanout.clients, client.id < h.fanout.nextId) :
    ∃ held told, Relation.ReflTransGen (Step workspace version) h
      { h with
        held := held
        told := told
        fanout :=
          (Fanout.accept (workspace.greeting version h.clock.world) h.fanout).state } := by
  have registered : Step workspace version h _ := .register idle
  have known : (Client.connected h.fanout.nextId).id ∈ h.fanout.register.2.clients.map Client.id := by
    simp [Fanout.register]
  have greets : ∃ held told, Relation.ReflTransGen (Step workspace version)
      (h.enlist (workspace.greeting version h.clock.world)) _ :=
    greet_runs (workspace.greeting version h.clock.world) known
      (Fanout.register_update numbered).symm (by simp [enlist, Client.connected]) rfl
  obtain ⟨held, told, greeted⟩ := greets
  have run := Relation.ReflTransGen.head registered greeted
  rw [Fanout.accept_state]
  -- Only what the greeting came to matters from here on.
  generalize Fanout.greet _ _ = outcome at run ⊢
  rcases h with ⟨clock, owed, fanout, _, _, accepting, rounds⟩
  cases idle
  exact ⟨held, told, run⟩

end Host

end TemplateSync
