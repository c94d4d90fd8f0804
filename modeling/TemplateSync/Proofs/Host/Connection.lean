import TemplateSync.Proofs.Host.Outlet
import TemplateSync.Proofs.Message.RoundTrip
import TemplateSync.Proofs.Worker.Catalog

set_option autoImplicit false

namespace TemplateSync

namespace Message

theorem broadcast_body? {message : Message} (broadcast : message.IsBroadcast) :
    ∃ kind body, message.body? = some (kind, body) := by
  cases message with
  | version | solution | metadata => exact ⟨_, _, rfl⟩
  | project | error | unknown => exact absurd broadcast id

theorem encodes {message : Message} (broadcast : message.IsBroadcast) :
    ∃ text, message.encode = .ok text := by
  obtain ⟨kind, body, same⟩ := broadcast_body? broadcast
  exact ⟨_, encode_of_body? same⟩

theorem read_encode {message : Message} {text : String} (broadcast : message.IsBroadcast)
    (encoded : message.encode = .ok text) : Message.read text = message := by
  obtain ⟨kind, body, same⟩ := broadcast_body? broadcast
  rw [encode_of_body? same] at encoded
  rw [← Except.ok.inj encoded]
  exact read_of_body? same

end Message

namespace Client

def heard (client : Client) : List Message :=
  Intake.messages Frame.maxLength [client.written]

/-- A text is written behind what is held in the buffer. A connection that has broken or was shut down takes
nothing; any other may stall after some octets, and take more when the next text is written. -/
structure Writes (client : Client) (held : Bytes) (text : String) (next : Client) (left : Bytes)
    (arrived : Bool) : Prop where
  taken : ∃ room, (client.broken = true ∨ client.isOpen = false → room = 0) ∧
    Outlet.write text ⟨client.written, held⟩ room = (⟨next.written, left⟩, arrived)
  kept : next = { client with written := next.written }

-- A worker that has handled all that the client was written, in whatever pieces it came, holds these projects.
def Mirrors (client : Client) (projects : List ProjectDescriptor) : Prop :=
  ∀ (τ : Type) (limit : Nat) (bench : Workbench τ) (extension : String) (stream : Frame.Stream)
    (state : τ) (p : Pipeline τ),
    (∀ text ∈ (Frame.readAll Frame.maxLength [client.written]).texts,
      (Utf8.encode text).length ≤ limit) →
    stream.flatten = client.written →
    Relation.ReflTransGen (Pipeline.Disturbed limit bench extension)
      (Pipeline.start stream state) p →
    p.handled = (Frame.readAll limit stream).texts.map Message.read →
    (∀ id, id ∈ p.worker.catalog.ids ↔ id ∈ projects.map ProjectDescriptor.id) ∧
    p.worker.catalog.Lists projects

theorem texts_written {client : Client} {spelled : List String} {bytes tail : Bytes}
    (same : client.written = bytes ++ tail) (frames : Frame.Frames spelled bytes)
    (torn : Frame.Torn tail) {limit : Nat}
    (within : ∀ text ∈ spelled, (Utf8.encode text).length ≤ limit) :
    Frame.texts limit client.written = spelled := by
  rw [same, Frame.texts_frames frames within, Frame.texts_torn limit torn, List.append_nil]

theorem heard_of_frames {client : Client} {spelled : List String} {bytes tail : Bytes}
    (same : client.written = bytes ++ tail) (frames : Frame.Frames spelled bytes)
    (torn : Frame.Torn tail) : client.heard = spelled.map Message.read := by
  simp [heard, Intake.messages, texts_written same frames torn (Frame.frames_within frames)]

@[simp] theorem connected_heard (id : Nat) : (connected id).heard = [] :=
  heard_of_frames rfl .none Frame.torn_nil

theorem write_ok {client next : Client} {text : String} (written : client.write text = .ok next) :
    client.broken = false ∧ client.isOpen = true ∧ ∃ frame, Frame.write text = .ok frame ∧
      next = { client with written := client.written ++ frame } := by
  simp only [write] at written
  split at written
  next => cases written
  next frame framed =>
    split at written
    next => cases written
    next holds =>
      cases written
      exact ⟨by simp_all, by simp_all, frame, framed, rfl⟩

theorem write_same_id {client next : Client} {text : String} (written : client.write text = .ok next) :
    next.id = client.id := by
  obtain ⟨_, _, _, _, rfl⟩ := write_ok written
  rfl

theorem write_intact {client : Client} {text : String} (whole : client.broken = false)
    (linked : client.isOpen = true) (short : (Utf8.encode text).length < Frame.maxLength) :
    ∃ frame, client.write text = .ok { client with written := client.written ++ frame } :=
  ⟨Frame.lengthPrefix (Utf8.encode text).length ++ Utf8.encode text,
    by simp [write, Frame.write, short, whole, linked]⟩

section Writes

variable {client next : Client} {held left : Bytes} {text : String} {arrived : Bool}

theorem Writes.same_id (writes : client.Writes held text next left arrived) : next.id = client.id := by
  rw [writes.kept]

theorem Writes.whole (writes : client.Writes held text next left true) :
    left = [] ∧ ∃ frame, Frame.write text = .ok frame ∧
      next.written = client.written ++ held ++ frame := by
  obtain ⟨⟨room, _, done⟩, _⟩ := writes
  obtain ⟨frame, framed, same⟩ := Outlet.write_arrived done
  obtain ⟨sent, nothing⟩ := Outlet.mk.inj same
  exact ⟨nothing, frame, framed, sent⟩

theorem writes_of_ok (written : client.write text = .ok next) :
    client.Writes [] text next [] true := by
  obtain ⟨whole, linked, frame, framed, rfl⟩ := write_ok written
  exact ⟨⟨frame.length, by simp [whole, linked], Outlet.write_whole framed _ (Nat.le_refl _)⟩, rfl⟩

theorem writes_of_error (client : Client) (held : Bytes) (text : String) :
    ∃ left, client.Writes held text client left false := by
  rcases done : Outlet.write text ⟨client.written, held⟩ 0 with ⟨outlet, arrived⟩
  have lost : arrived = false := by simpa [done] using Outlet.write_nowhere text ⟨client.written, held⟩
  have onward : client.written <+: outlet.sent := Outlet.write_onward done
  have within : outlet.sent.length ≤ client.written.length := Outlet.write_within done
  have same : client.written = outlet.sent := onward.eq_of_length_le within
  refine ⟨outlet.held, ⟨0, fun _ => rfl, ?_⟩, rfl⟩
  rw [done, lost, same]

end Writes

theorem lists_texts {τ : Type} {stream : Frame.Stream} {spelled : List String} {limit : Nat}
    {projects : List ProjectDescriptor} (texts : Frame.texts limit stream.flatten = spelled)
    (kinds : ∀ text ∈ spelled, (Message.read text).IsBroadcast)
    (last : Message.lastList (spelled.map Message.read) = some projects) {bench : Workbench τ}
    {extension : String} {state : τ} {p : Pipeline τ}
    (run : Relation.ReflTransGen (Pipeline.Disturbed limit bench extension)
      (Pipeline.start stream state) p)
    (all : p.handled = (Frame.readAll limit stream).texts.map Message.read) :
    p.worker.catalog.Lists projects := by
  have handled : p.handled = spelled.map Message.read := by
    rw [all, Frame.readAll_texts, texts]
  rw [← handled] at last
  have applied := (Pipeline.reaches_disturbed run).1.applied
  have broadcast : ∀ message ∈ p.handled, message.IsBroadcast := by
    rw [handled]
    simpa using kinds
  have lists : (Worker.handleAll bench extension .initial state p.handled).1.catalog.Lists projects :=
    Worker.handleAll_lists state broadcast last
  rwa [← applied] at lists

theorem mirrors_frames {client : Client} {spelled : List String} {projects : List ProjectDescriptor}
    (frames : Frame.Frames spelled client.written)
    (kinds : ∀ text ∈ spelled, (Message.read text).IsBroadcast)
    (last : Message.lastList (spelled.map Message.read) = some projects) :
    client.Mirrors projects := by
  intro τ limit bench extension stream state p within received run all
  have whole : client.written = client.written ++ [] := (List.append_nil _).symm
  have wide := texts_written whole frames Frame.torn_nil (Frame.frames_within frames)
  simp only [Frame.readAll_texts, List.flatten_singleton, wide] at within
  have texts := texts_written whole frames Frame.torn_nil within
  rw [← received] at texts
  have lists := lists_texts texts kinds last run all
  exact ⟨Catalog.lists_ids lists, lists⟩

end Client

end TemplateSync
