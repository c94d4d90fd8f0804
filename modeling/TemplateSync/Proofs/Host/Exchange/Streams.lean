import TemplateSync.Proofs.Host.Exchange.Isolation

set_option autoImplicit false

namespace TemplateSync.Exchange

variable {h k : Exchange} {deed : Deed} {deeds : List Deed} {id : Nat}

def Deed.fails (id : Nat) : Deed → Prop
  | .greeted own _ arrived | .wrote _ own _ arrived => own = id ∧ arrived = false
  | _ => False

-- Whole frames have gone out on the line, and nothing is left in its buffer.
def Whole (line : Line) : Prop :=
  line.outlet.held = [] ∧ ∃ texts, Frame.Frames texts line.sent

-- Whole frames have gone out on the line, and then the beginning of one at most.
def Framed (line : Line) : Prop :=
  ∃ texts whole cut, line.sent = whole ++ cut ∧ Frame.Frames texts whole ∧ Frame.Torn cut

theorem Whole.framed {line : Line} (whole : Whole line) : Framed line := by
  obtain ⟨_, texts, frames⟩ := whole
  exact ⟨texts, line.sent, [], (List.append_nil _).symm, frames, Frame.torn_nil⟩

section Write

variable {line next : Line} {text : String} {piece : Bytes}

theorem Whole.written (whole : Whole line) (writes : line.Writes text next piece true) :
    Whole next := by
  obtain ⟨nothing, texts, frames⟩ := whole
  obtain ⟨framed, same⟩ := writes.whole
  refine ⟨by rw [same], texts ++ [text], ?_⟩
  have sent : next.sent = line.sent ++ piece := by
    simp [Line.sent, same, Outlet.stream, nothing]
  exact sent ▸ frames.snoc text piece framed

theorem Whole.failed (whole : Whole line) (writes : line.Writes text next piece false) :
    Framed next := by
  obtain ⟨nothing, texts, frames⟩ := whole
  have stream : line.outlet.stream = line.sent := by
    rw [Outlet.stream, nothing, List.append_nil, Line.sent]
  obtain ⟨gone, sent⟩ := writes.onward
  refine ⟨texts, line.sent, gone, sent.symm, frames, ?_⟩
  -- What has gone out is of the piece that was added, and less than the frame.
  have added := writes.added
  rw [stream, Outlet.stream, ← Line.sent, ← sent, List.append_assoc, List.append_cancel_left_eq] at added
  have among : gone <+: piece := added ▸ List.prefix_append _ _
  cases framed : Frame.write text with
  | error error =>
    obtain rfl := writes.refused framed
    rw [List.prefix_nil.mp among]
    exact Frame.torn_nil
  | ok frame =>
    obtain ⟨beginning, short⟩ := writes.cut framed
    obtain ⟨missing, cut⟩ := among.trans beginning
    refine ⟨text, frame, missing, framed, cut, ?_⟩
    rintro rfl
    rw [← sent, stream, List.length_append, ← cut] at short
    simp at short

end Write

def Calm (id : Nat) (deeds : List Deed) : Prop :=
  ∀ before bad after, deeds = before ++ bad :: after → bad.fails id →
    ∀ deed ∈ after, deed.target? ≠ some id

theorem Calm.init (calm : Calm id (deeds ++ [deed])) : Calm id deeds := by
  rintro before bad after rfl fails other inside
  exact calm before bad (after ++ [deed]) (by simp) fails other (List.mem_append_left _ inside)

theorem calm_snoc (sane : ∀ other ∈ deeds, ¬ other.fails id) (deed : Deed) :
    Calm id (deeds ++ [deed]) := by
  rintro before bad after split fails
  rcases List.eq_nil_or_concat after with rfl | ⟨rest, final, rfl⟩
  next => exact nofun
  next =>
    rw [List.concat_eq_append, ← List.cons_append, ← List.append_assoc] at split
    obtain ⟨rfl, _⟩ := List.append_inj' split rfl
    exact absurd fails (sane bad (by simp))

theorem Calm.last (calm : Calm id (deeds ++ [deed])) (target : deed.target? = some id) :
    ∀ other ∈ deeds, ¬ other.fails id := by
  intro other inside fails
  obtain ⟨before, after, rfl⟩ := List.append_of_mem inside
  exact calm before other (after ++ [deed]) (by simp) fails deed (by simp) target

/-- What has gone out on a line, as far as its writes have not failed. -/
structure Standing (deeds : List Deed) (id : Nat) (line : Line) : Prop where
  whole : (∀ deed ∈ deeds, ¬ deed.fails id) → Whole line
  framed : Calm id deeds → Framed line

theorem LineTurn.standing {old new : Line} (turn : LineTurn h deed id old new)
    (standing : Standing deeds id old) : Standing (deeds ++ [deed]) id new := by
  have before (sane : ∀ other ∈ deeds ++ [deed], ¬ other.fails id) : Whole old :=
    standing.whole fun other inside => sane other (List.mem_append_left _ inside)
  cases turn with
  | kept => exact ⟨before, fun calm => standing.framed calm.init⟩
  | closed => exact ⟨before, fun calm => standing.framed calm.init⟩
  | greeted _ _ _ _ piece arrived own _ _ writes
  | wrote _ _ _ _ _ _ piece arrived own _ _ _ writes =>
    subst own
    cases arrived with
    | true =>
      exact ⟨fun sane => (before sane).written writes,
        fun calm => ((standing.whole (calm.last rfl)).written writes).framed⟩
    | false =>
      exact ⟨fun sane => absurd (And.intro rfl rfl) (sane _ (List.mem_append_right _ List.mem_cons_self)),
        fun calm => (standing.whole (calm.last rfl)).failed writes⟩

theorem trace_standing (trace : Trace Step start deeds h) {line : Line}
    (there : h.lines id = some line) : Standing deeds id line := by
  induction trace generalizing line with
  | start => cases there
  | next trace last ih =>
    have roll := (trace_books trace).roll
    rcases line_new last there with ⟨old, before⟩ | ⟨_, _, rfl⟩
    next =>
      obtain ⟨new, now, turn⟩ := line_step roll.numbered last before
      cases there.symm.trans now
      exact turn.standing (ih before)
    next =>
      have fresh : Whole .fresh := ⟨rfl, [], .none⟩
      exact ⟨fun _ => fresh, fun _ => fresh.framed⟩

/-- Until a write to a client fails it has been sent whole frames, and until another is made after that, whole
frames and the beginning of one at most. -/
theorem streams_are_framed_until_a_failure (trace : Trace Step start deeds h) {line : Line}
    (there : h.lines id = some line) :
    ((∀ deed ∈ deeds, ¬ deed.fails id) → Whole line) ∧ (Calm id deeds → Framed line) ∧
      ∀ more k new, Trace Step h more k → line.isOpen = false → k.lines id = some new →
        new.sent = line.sent := by
  have standing := trace_standing trace there
  refine ⟨standing.whole, standing.framed, ?_⟩
  intro more k new later shut known
  obtain ⟨last, now, onward⟩ := line_run (trace_books trace).roll later there
  cases known.symm.trans now
  exact (onward.shut shut).2

section Waiting

variable {message other : Message} {text later : String} {middle last : Line}
  {piece whole frame : Bytes} {arrived : Bool}

def approach : List Deed :=
  [.admitted, .registered 1, .welcomed 1, .called 1, .called 2]

theorem two_writes (encoded : message.encode = .ok text) (also : other.encode = .ok later)
    (fails : Line.fresh.Writes text middle piece false) (writes : middle.Writes later last frame arrived) :
    ∃ g h, Trace Step start (approach ++ [.wrote 1 1 piece false]) g ∧ g.lines 1 = some middle ∧
      Step g (.wrote 2 1 frame arrived) h ∧ h.lines 1 = some last := by
  have first := trace_single (.admitted rfl rfl : Step start _ _)
    |>.next (.registered [] rfl)
    |>.next (.welcomed 1 rfl)
    |>.next (.called 1 message text rfl encoded)
    |>.next (.called 2 other later rfl also)
    |>.next (.wrote 1 message [1] _ 1 [] .fresh middle piece false rfl rfl rfl rfl nofun fails)
  exact ⟨_, _, first, rfl, .wrote 2 other [1] _ 1 [] _ last frame arrived rfl rfl rfl rfl nofun writes,
    rfl⟩

-- A message that waits while a large one to the same client is cut short comes right behind the cut.
theorem waiting_message_tears_a_large_one {room : Nat} (encoded : message.encode = .ok text)
    (framed : Frame.write text = .ok whole) (large : Outlet.capacity ≤ (Utf8.encode text).length)
    (begun : (Frame.lengthPrefix (Utf8.encode text).length).length ≤ room)
    (short : room < whole.length) (also : other.encode = .ok later)
    (next : Frame.write later = .ok frame) :
    ∃ deeds h line, Trace Step start deeds h ∧ h.lines 1 = some line ∧
      line.sent = whole.take room ++ frame := by
  have fails : Line.fresh.Writes text ⟨⟨whole.take room, []⟩, true⟩ (whole.take room) false :=
    ⟨⟨room, nofun, Outlet.write_torn framed large [] begun short⟩, by
      simp [Outlet.stream, Line.fresh, Outlet.empty], rfl⟩
  have arrives : Line.Writes ⟨⟨whole.take room, []⟩, true⟩ later
      ⟨⟨whole.take room ++ frame, []⟩, true⟩ frame true :=
    ⟨⟨frame.length, Bool.noConfusion, Outlet.write_whole next _ (Nat.le_refl _)⟩, by simp [Outlet.stream], rfl⟩
  obtain ⟨g, h, first, _, second, now⟩ := two_writes encoded also fails arrives
  exact ⟨_, h, _, first.next second, now, rfl⟩

theorem two_version_writes : ∃ text frame, (Message.version 7).encode = .ok text ∧
    Frame.write text = .ok frame ∧ Line.fresh.Writes text ⟨⟨[], frame⟩, true⟩ frame false ∧
    Line.Writes ⟨⟨[], frame⟩, true⟩ text ⟨⟨frame ++ frame, []⟩, true⟩ frame true := by
  obtain ⟨text, frame, encoded, framed, none, all⟩ : ∃ text frame,
      (Message.version 7).encode = .ok text ∧ Frame.write text = .ok frame ∧
      Outlet.empty.write text 0 = (⟨[], frame⟩, false) ∧
      Outlet.write text ⟨[], frame⟩ 100 = (⟨frame ++ frame, []⟩, true) :=
    ⟨_, _, rfl, rfl, by decide, by decide⟩
  exact ⟨text, frame, encoded, framed, ⟨⟨0, nofun, none⟩, rfl, rfl⟩,
    ⟨⟨100, nofun, all⟩, by simp [Outlet.stream], rfl⟩⟩

theorem stream_is_framed_before_the_next_write :
    ∃ piece g line, Trace Step start (approach ++ [.wrote 1 1 piece false]) g ∧
      g.lines 1 = some line ∧ Framed line := by
  obtain ⟨text, frame, encoded, _, fails, arrives⟩ := two_version_writes
  obtain ⟨g, _, trace, there, _⟩ := two_writes encoded encoded fails arrives
  obtain ⟨_, framed, _⟩ := streams_are_framed_until_a_failure trace there
  exact ⟨frame, g, _, trace, there, framed (calm_snoc (by simp [approach, Deed.fails]) _)⟩

/-- A message that waits while a write to its client fails is written after it, and arrives. -/
theorem waiting_message_follows_a_failed_one :
    ∃ piece text frame g h old new,
      Trace Step start (approach ++ [.wrote 1 1 piece false]) g ∧ g.lines 1 = some old ∧
      Step g (.wrote 2 1 frame true) h ∧ h.lines 1 = some new ∧
      (Message.version 7).encode = .ok text ∧ Frame.write text = .ok frame ∧
      old.sent = [] ∧ new.sent = frame ++ frame := by
  obtain ⟨text, frame, encoded, framed, fails, arrives⟩ := two_version_writes
  obtain ⟨g, h, first, old, second, new⟩ := two_writes encoded encoded fails arrives
  exact ⟨frame, text, frame, g, h, _, _, first, old, second, new, encoded, framed, rfl, rfl⟩

end Waiting

end TemplateSync.Exchange
