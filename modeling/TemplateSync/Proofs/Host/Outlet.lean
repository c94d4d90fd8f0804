import TemplateSync.Host.Fanout
import TemplateSync.Proofs.Frame.Octets

set_option autoImplicit false

namespace TemplateSync

structure Outlet where
  sent : Bytes
  held : Bytes
  deriving DecidableEq

namespace Outlet

def empty : Outlet := ⟨[], []⟩

def capacity : Nat := 8192

def stream (outlet : Outlet) : Bytes :=
  outlet.sent ++ outlet.held

def hold (bytes : Bytes) (outlet : Outlet) : Outlet :=
  { outlet with held := outlet.held ++ bytes }

-- How many octets a connection takes after these; none if it has failed.
def roomAfter (bytes : Bytes) (room : Nat) : Option Nat :=
  if bytes.length ≤ room then some (room - bytes.length) else none

def flush (outlet : Outlet) (room : Nat) : Outlet × Option Nat :=
  (⟨outlet.sent ++ outlet.held.take room, outlet.held.drop room⟩, roomAfter outlet.held room)

def pass (bytes : Bytes) (outlet : Outlet) (room : Nat) : Outlet × Option Nat :=
  ({ outlet with sent := outlet.sent ++ bytes.take room }, roomAfter bytes room)

def andThen (done : Outlet × Option Nat) (next : Outlet → Nat → Outlet × Option Nat) :
    Outlet × Option Nat :=
  match done with
  | (outlet, some room) => next outlet room
  | (outlet, none) => (outlet, none)

def makeRoom (bytes : Bytes) (outlet : Outlet) (room : Nat) : Outlet × Option Nat :=
  if capacity < outlet.held.length + bytes.length then outlet.flush room else (outlet, some room)

def put (bytes : Bytes) (outlet : Outlet) (room : Nat) : Outlet × Option Nat :=
  if outlet.held.length + bytes.length < capacity then (outlet.hold bytes, some room)
  else
    andThen (outlet.makeRoom bytes room) fun outlet room =>
      if capacity ≤ bytes.length then outlet.pass bytes room else (outlet.hold bytes, some room)

def write (text : String) (outlet : Outlet) (room : Nat) : Outlet × Bool :=
  let body := Utf8.encode text
  if body.length < Frame.maxLength then
    let done := andThen (outlet.put (Frame.lengthPrefix body.length) room) fun outlet room =>
      andThen (outlet.put body room) flush
    (done.1, done.2.isSome)
  else (outlet, false)

/-- What a writer does with bytes: it takes a first piece of them, all unless the connection failed. Then the
connection has taken as much as it could. -/
structure Takes (outlet : Outlet) (room : Nat) (bytes : Bytes) (next : Outlet) (left : Option Nat) :
    Prop where
  taken : ∃ piece, piece <+: bytes ∧ next.stream = outlet.stream ++ piece ∧
    (left.isSome = true → piece = bytes)
  onward : outlet.sent <+: next.sent
  spent : next.sent.length + left.getD 0 = outlet.sent.length + room
  short : left = none → next.sent.length < outlet.stream.length + bytes.length

section Parts

variable {outlet middle next : Outlet} {room more : Nat} {bytes rest : Bytes} {left : Option Nat}

theorem takes_hold (outlet : Outlet) (room : Nat) (bytes : Bytes) :
    outlet.Takes room bytes (outlet.hold bytes) (some room) where
  taken := ⟨bytes, List.prefix_rfl, by simp [stream, hold], fun _ => rfl⟩
  onward := List.prefix_rfl
  spent := rfl
  short := nofun

theorem takes_nothing (outlet : Outlet) (room : Nat) : outlet.Takes room [] outlet (some room) := by
  simpa [hold] using takes_hold outlet room []

theorem takes_flush (outlet : Outlet) (room : Nat) :
    outlet.Takes room [] (outlet.flush room).1 (outlet.flush room).2 where
  taken := ⟨[], List.prefix_rfl, by simp [flush, stream], fun _ => rfl⟩
  onward := List.prefix_append _ _
  spent := by
    by_cases fits : outlet.held.length ≤ room
    next =>
      simp [flush, roomAfter, fits]
    next =>
      have all : room ≤ outlet.held.length := Nat.le_of_not_le fits
      simp [flush, roomAfter, fits, all]
  short := by
    intro failed
    have beyond : ¬ outlet.held.length ≤ room := by simpa [flush, roomAfter] using failed
    simp [flush, stream]
    omega

theorem flush_held (done : (outlet.flush room).2.isSome = true) : (outlet.flush room).1.held = [] := by
  have fits : outlet.held.length ≤ room := by simpa [flush, roomAfter] using done
  simpa [flush] using fits

theorem takes_pass (nothing : outlet.held = []) (room : Nat) (bytes : Bytes) :
    outlet.Takes room bytes (outlet.pass bytes room).1 (outlet.pass bytes room).2 where
  taken := by
    refine ⟨bytes.take room, List.take_prefix room bytes, by simp [pass, stream, nothing], ?_⟩
    intro done
    have fits : bytes.length ≤ room := by simpa [pass, roomAfter] using done
    exact List.take_of_length_le fits
  onward := List.prefix_append _ _
  spent := by
    by_cases fits : bytes.length ≤ room
    next =>
      simp [pass, roomAfter, fits]
    next =>
      have all : room ≤ bytes.length := Nat.le_of_not_le fits
      simp [pass, roomAfter, fits, all]
  short := by
    intro failed
    have beyond : ¬ bytes.length ≤ room := by simpa [pass, roomAfter] using failed
    simp [pass, stream]
    omega

theorem Takes.trans (first : outlet.Takes room bytes middle (some more))
    (second : middle.Takes more rest next left) : outlet.Takes room (bytes ++ rest) next left := by
  obtain ⟨piece, _, same, whole⟩ := first.taken
  obtain rfl : piece = bytes := whole rfl
  obtain ⟨tail, beginning, later, all⟩ := second.taken
  have lengths : middle.stream.length = outlet.stream.length + piece.length := by
    rw [same, List.length_append]
  have spent := first.spent
  have onward := second.spent
  refine ⟨⟨piece ++ tail, (List.prefix_append_right_inj piece).mpr beginning, ?_, ?_⟩,
    first.onward.trans second.onward, ?_, ?_⟩
  next => rw [later, same, List.append_assoc]
  next =>
    intro done
    rw [all done]
  next =>
    rw [Option.getD_some] at spent
    omega
  next =>
    intro failed
    have less := second.short failed
    rw [List.length_append]
    omega

theorem Takes.failed (first : outlet.Takes room bytes next none) (rest : Bytes) :
    outlet.Takes room (bytes ++ rest) next none := by
  obtain ⟨piece, beginning, same, _⟩ := first.taken
  refine ⟨⟨piece, beginning.trans (List.prefix_append _ _), same, nofun⟩, first.onward, first.spent, ?_⟩
  intro failed
  have less := first.short failed
  rw [List.length_append]
  omega

theorem takes_andThen {done : Outlet × Option Nat} {after : Outlet → Nat → Outlet × Option Nat}
    (first : outlet.Takes room bytes done.1 done.2)
    (second : ∀ more, done.2 = some more →
      done.1.Takes more rest (after done.1 more).1 (after done.1 more).2) :
    outlet.Takes room (bytes ++ rest) (andThen done after).1 (andThen done after).2 := by
  obtain ⟨middle, left⟩ := done
  cases left with
  | none => exact first.failed rest
  | some more => exact first.trans (second more rfl)

theorem takes_makeRoom (outlet : Outlet) (room : Nat) (bytes : Bytes) :
    outlet.Takes room [] (outlet.makeRoom bytes room).1 (outlet.makeRoom bytes room).2 := by
  unfold makeRoom
  split
  next => exact takes_flush outlet room
  next => exact takes_nothing outlet room

-- A piece as large as the buffer goes past it, and only when nothing is before it.
theorem makeRoom_held (large : capacity ≤ bytes.length) (done : (outlet.makeRoom bytes room).2 = some more) :
    (outlet.makeRoom bytes room).1.held = [] := by
  unfold makeRoom at done ⊢
  split at done
  next crowded =>
    rw [if_pos crowded]
    exact flush_held (by rw [done]; rfl)
  next fits =>
    rw [if_neg fits]
    have nothing : outlet.held.length = 0 := by omega
    exact List.eq_nil_of_length_eq_zero nothing

theorem takes_put (outlet : Outlet) (room : Nat) (bytes : Bytes) :
    outlet.Takes room bytes (outlet.put bytes room).1 (outlet.put bytes room).2 := by
  unfold put
  split
  next => exact takes_hold outlet room bytes
  next =>
    refine takes_andThen (takes_makeRoom outlet room bytes) ?_
    intro more done
    split
    next large => exact takes_pass (makeRoom_held large done) more bytes
    next => exact takes_hold _ more bytes

theorem takes_put_flush (outlet : Outlet) (room : Nat) (bytes : Bytes) :
    outlet.Takes room bytes (andThen (outlet.put bytes room) flush).1
      (andThen (outlet.put bytes room) flush).2 := by
  have takes := takes_andThen (takes_put outlet room bytes) fun more _ => takes_flush _ more
  rwa [List.append_nil] at takes

theorem andThen_held {done : Outlet × Option Nat} {after : Outlet → Nat → Outlet × Option Nat}
    (emptied : ∀ outlet room, (after outlet room).2.isSome = true → (after outlet room).1.held = []) :
    (andThen done after).2.isSome = true → (andThen done after).1.held = [] := by
  obtain ⟨outlet, left⟩ := done
  cases left with
  | none => exact nofun
  | some room => exact emptied outlet room

end Parts

section Frames

variable {outlet next : Outlet} {text : String} {room : Nat} {frame : Bytes} {arrived : Bool}

theorem write_takes (framed : Frame.write text = .ok frame)
    (done : outlet.write text room = (next, arrived)) :
    ∃ left : Option Nat, outlet.Takes room frame next left ∧ arrived = left.isSome ∧
      (arrived = true → next.held = []) := by
  obtain ⟨fits, rfl⟩ := Frame.write_eq framed
  simp only [write, fits, if_true, Prod.mk.injEq] at done
  obtain ⟨rfl, rfl⟩ := done
  refine ⟨_, takes_andThen (takes_put outlet room _) ?_, rfl, ?_⟩
  next =>
    intro more _
    exact takes_put_flush _ more (Utf8.encode text)
  -- A frame that arrived has come to the last step, which empties the buffer.
  next => exact andThen_held fun _ _ => andThen_held fun _ _ => flush_held

theorem write_too_long {error : IoError} (failed : Frame.write text = .error error) (outlet : Outlet)
    (room : Nat) : outlet.write text room = (outlet, false) := by
  have long : ¬ (Utf8.encode text).length < Frame.maxLength := by
    intro fits
    simp [Frame.write, fits] at failed
  simp [write, long]

theorem write_arrived (done : outlet.write text room = (next, true)) :
    ∃ frame, Frame.write text = .ok frame ∧ next = ⟨outlet.stream ++ frame, []⟩ := by
  cases framed : Frame.write text with
  | error error => simp [write_too_long framed] at done
  | ok frame =>
    obtain ⟨left, takes, whole, emptied⟩ := write_takes framed done
    obtain ⟨piece, _, same, all⟩ := takes.taken
    obtain rfl : piece = frame := all whole.symm
    refine ⟨piece, rfl, ?_⟩
    have nothing := emptied rfl
    obtain ⟨sent, held⟩ := next
    subst nothing
    simpa [stream] using same

theorem write_failed (done : outlet.write text room = (next, false)) :
    ∃ piece, next.stream = outlet.stream ++ piece ∧
      ∀ frame, Frame.write text = .ok frame → piece <+: frame ∧
        next.sent.length < outlet.stream.length + frame.length := by
  cases framed : Frame.write text with
  | error error =>
    rw [write_too_long framed, Prod.mk.injEq] at done
    obtain ⟨rfl, _⟩ := done
    exact ⟨[], by simp, nofun⟩
  | ok frame =>
    obtain ⟨left, takes, lost, _⟩ := write_takes framed done
    obtain ⟨piece, beginning, same, _⟩ := takes.taken
    have none : left = none := by simpa using lost.symm
    refine ⟨piece, same, ?_⟩
    rintro _ ⟨⟩
    exact ⟨beginning, takes.short none⟩

theorem write_onward (done : outlet.write text room = (next, arrived)) : outlet.sent <+: next.sent := by
  cases framed : Frame.write text with
  | error error =>
    rw [write_too_long framed, Prod.mk.injEq] at done
    exact done.1 ▸ List.prefix_rfl
  | ok frame =>
    obtain ⟨_, takes, _⟩ := write_takes framed done
    exact takes.onward

theorem write_within (done : outlet.write text room = (next, arrived)) :
    next.sent.length ≤ outlet.sent.length + room := by
  cases framed : Frame.write text with
  | error error =>
    rw [write_too_long framed, Prod.mk.injEq] at done
    rw [done.1]
    exact Nat.le_add_right _ _
  | ok frame =>
    obtain ⟨_, takes, _⟩ := write_takes framed done
    have spent := takes.spent
    omega

theorem write_arrives_iff (framed : Frame.write text = .ok frame) (outlet : Outlet) (room : Nat) :
    (outlet.write text room).2 = true ↔ outlet.held.length + frame.length ≤ room := by
  rcases done : outlet.write text room with ⟨next, arrived⟩
  obtain ⟨left, takes, whole, emptied⟩ := write_takes framed done
  have spent := takes.spent
  have before : outlet.stream.length = outlet.sent.length + outlet.held.length := List.length_append
  constructor
  next =>
    rintro rfl
    obtain ⟨_, same, rfl⟩ := write_arrived done
    rw [framed] at same
    cases same
    rw [List.length_append] at spent
    omega
  next =>
    intro enough
    rw [whole]
    by_contra lost
    have none : left = none := by simpa using lost
    have short := takes.short none
    rw [none, Option.getD_none] at spent
    omega

theorem lengthPrefix_ne_nil (length : Nat) : Frame.lengthPrefix length ≠ [] := by
  rw [Frame.lengthPrefix, Frame.maxGroups, Frame.lengthGroups]
  split <;> exact List.cons_ne_nil _ _

theorem lengthGroups_short (groups length : Nat) :
    (Frame.lengthGroups groups length).length ≤ groups := by
  induction groups generalizing length with
  | zero => simp [Frame.lengthGroups]
  | succ groups ih =>
    rw [Frame.lengthGroups]
    split
    next => simp
    next => simpa using ih (length / 128)

theorem frame_ne_nil (framed : Frame.write text = .ok frame) : frame ≠ [] := by
  obtain ⟨_, rfl⟩ := Frame.write_eq framed
  exact fun none => lengthPrefix_ne_nil _ (List.append_eq_nil_iff.mp none).1

theorem write_nowhere (text : String) (outlet : Outlet) : (outlet.write text 0).2 = false := by
  cases framed : Frame.write text with
  | error error => rw [write_too_long framed]
  | ok frame =>
    have long := List.length_pos_iff.mpr (frame_ne_nil framed)
    have never := (write_arrives_iff framed outlet 0).not.mpr (by omega)
    exact Bool.not_eq_true _ ▸ never

theorem write_whole (framed : Frame.write text = .ok frame) (sent : Bytes) (enough : frame.length ≤ room) :
    write text ⟨sent, []⟩ room = (⟨sent ++ frame, []⟩, true) := by
  have arrives : (write text ⟨sent, []⟩ room).2 = true :=
    (write_arrives_iff framed _ room).mpr (by simpa using enough)
  obtain ⟨_, same, next⟩ := write_arrived (Prod.ext rfl arrives)
  rw [framed] at same
  cases same
  exact Prod.ext (by simpa [stream] using next) arrives

-- A text that is too large for the buffer goes past it, behind its length.
theorem put_large {size body : Bytes} (some_octet : size ≠ []) (large : capacity ≤ body.length)
    (sent : Bytes) (begun : size.length ≤ room) (short : room < (size ++ body).length) :
    put body ⟨sent, size⟩ room = (⟨sent ++ (size ++ body).take room, []⟩, none) := by
  have octets := List.length_pos_iff.mpr some_octet
  rw [List.length_append] at short
  have crowded : ¬ size.length + body.length < capacity := by omega
  have beyond : capacity < size.length + body.length := by omega
  have cut : ¬ body.length ≤ room - size.length := by omega
  simp [put, makeRoom, flush, pass, roomAfter, andThen, crowded, beyond, large, begun, cut,
    List.take_append, List.take_of_length_le begun]

theorem write_torn (framed : Frame.write text = .ok frame) (large : capacity ≤ (Utf8.encode text).length)
    (sent : Bytes) (begun : (Frame.lengthPrefix (Utf8.encode text).length).length ≤ room)
    (short : room < frame.length) :
    write text ⟨sent, []⟩ room = (⟨sent ++ frame.take room, []⟩, false) := by
  obtain ⟨fits, rfl⟩ := Frame.write_eq framed
  have small : (Frame.lengthPrefix (Utf8.encode text).length).length < capacity :=
    Nat.lt_of_le_of_lt (lengthGroups_short Frame.maxGroups _) (by decide)
  have second := put_large (lengthPrefix_ne_nil _) large sent begun short
  simp only [write, fits, if_true]
  generalize Frame.lengthPrefix (Utf8.encode text).length = size at small second
  have first : put size ⟨sent, []⟩ room = (⟨sent, size⟩, some room) := by
    simp [put, hold, small]
  simp [first, second, andThen]

end Frames

end Outlet

end TemplateSync
