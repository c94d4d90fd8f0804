import TemplateSync.Proofs.Host.Exchange

set_option autoImplicit false

namespace TemplateSync.Exchange

variable {h k : Exchange} {deed : Deed} {deeds : List Deed} {number id : Nat}

structure Write where
  id : Nat
  piece : Bytes
  arrived : Bool
  deriving DecidableEq

def Deed.written? (number : Nat) : Deed → Option Write
  | .wrote own id piece arrived => if own = number then some ⟨id, piece, arrived⟩ else none
  | _ => none

def Deed.shut? (number : Nat) : Deed → Option Nat
  | .shut own id => if own = number then some id else none
  | _ => none

def Deed.piece (id : Nat) : Deed → Bytes
  | .greeted own piece _ | .wrote _ own piece _ => if own = id then piece else []
  | _ => []

def writes (number : Nat) (deeds : List Deed) : List Write :=
  deeds.filterMap (Deed.written? number)

def shuts (number : Nat) (deeds : List Deed) : List Nat :=
  deeds.filterMap (Deed.shut? number)

def stream (id : Nat) (deeds : List Deed) : Bytes :=
  deeds.flatMap (Deed.piece id)

def lost (writes : List Write) : List Nat :=
  (writes.filter fun write => !write.arrived).map Write.id

section Snoc

theorem writes_snoc (number : Nat) (deeds : List Deed) (deed : Deed) :
    writes number (deeds ++ [deed]) = writes number deeds ++ (deed.written? number).toList := by
  cases found : deed.written? number <;> simp [writes, found]

theorem shuts_snoc (number : Nat) (deeds : List Deed) (deed : Deed) :
    shuts number (deeds ++ [deed]) = shuts number deeds ++ (deed.shut? number).toList := by
  cases found : deed.shut? number <;> simp [shuts, found]

theorem stream_snoc (id : Nat) (deeds : List Deed) (deed : Deed) :
    stream id (deeds ++ [deed]) = stream id deeds ++ deed.piece id := by
  simp [stream]

@[simp] theorem lost_append (first second : List Write) :
    lost (first ++ second) = lost first ++ lost second := by
  simp [lost]

theorem lost_sublist (writes : List Write) : (lost writes).Sublist (writes.map Write.id) :=
  List.filter_sublist.map Write.id

theorem written_aside (aside : deed.call? ≠ some number) : deed.written? number = none := by
  cases deed with
  | wrote own id piece arrived =>
    have different : own ≠ number := fun same => aside (congrArg some same)
    simp [Deed.written?, different]
  | _ => rfl

theorem shut_aside (aside : deed.call? ≠ some number) : deed.shut? number = none := by
  cases deed with
  | shut own id =>
    have different : own ≠ number := fun same => aside (congrArg some same)
    simp [Deed.shut?, different]
  | _ => rfl

theorem piece_aside (aside : deed.target? ≠ some id) : deed.piece id = [] := by
  cases deed with
  | greeted own piece arrived | wrote call own piece arrived =>
    have different : own ≠ id := fun same => aside (congrArg some same)
    simp [Deed.piece, different]
  | _ => rfl

theorem mem_writes {piece : Bytes} {arrived : Bool} :
    ⟨id, piece, arrived⟩ ∈ writes number deeds ↔ .wrote number id piece arrived ∈ deeds := by
  rw [writes, List.mem_filterMap]
  constructor
  next =>
    rintro ⟨deed, inside, found⟩
    cases deed with
    | wrote own other piece arrived =>
      simp only [Deed.written?] at found
      split at found
      next same =>
        subst same
        cases found
        exact inside
      next => cases found
    | _ => cases found
  next =>
    intro inside
    exact ⟨_, inside, by simp [Deed.written?]⟩

theorem mem_shuts : id ∈ shuts number deeds ↔ .shut number id ∈ deeds := by
  rw [shuts, List.mem_filterMap]
  constructor
  next =>
    rintro ⟨deed, inside, found⟩
    cases deed with
    | shut own other =>
      simp only [Deed.shut?] at found
      split at found
      next same =>
        subst same
        cases found
        exact inside
      next => cases found
    | _ => cases found
  next =>
    intro inside
    exact ⟨_, inside, by simp [Deed.shut?]⟩

end Snoc

structure Roll (h : Exchange) : Prop where
  numbered : ∀ id line, h.lines id = some line → id < h.nextId
  single : h.members.Nodup
  members : ∀ id ∈ h.members, (h.lines id).isSome = true
  copied : ∀ number message copied round, h.calls number = some (.sending message copied round) →
    ∀ id, id ∈ round.waiting ∨ round.failing = some id → (h.lines id).isSome = true
  received : ∀ id, h.reception.client? = some id → (h.lines id).isSome = true

theorem start_roll : Roll start where
  numbered := nofun
  single := .nil
  members := nofun
  copied := nofun
  received := nofun

theorem line_later (roll : Roll h) (step : Step h deed k) (there : (h.lines id).isSome = true) :
    (k.lines id).isSome = true := by
  obtain ⟨old, known⟩ := Option.isSome_iff_exists.mp there
  obtain ⟨new, found, _⟩ := line_step roll.numbered step known
  simp [found]

theorem registered_line (step : Step h (.registered id) k) : (k.lines id).isSome = true := by
  cases step with
  | registered => simp [register]

theorem Roll.fresh (roll : Roll h) : h.nextId ∉ h.members := by
  intro inside
  obtain ⟨line, there⟩ := Option.isSome_iff_exists.mp (roll.members _ inside)
  exact Nat.lt_irrefl _ (roll.numbered _ line there)

theorem roll_step (roll : Roll h) (step : Step h deed k) : Roll k where
  numbered := by
    intro id line there
    have later : h.nextId ≤ k.nextId := (nextId_step step).symm ▸ Nat.le_add_right ..
    rcases line_new step there with ⟨old, before⟩ | ⟨rfl, rfl, _⟩
    next => exact Nat.lt_of_lt_of_le (roll.numbered id old before) later
    next =>
      cases step with
      | registered => exact Nat.lt_succ_self _
  single := by
    have turn := members_step step
    generalize k.members = members at turn
    cases turn with
    | kept => exact roll.single
    | registered =>
      refine List.nodup_append.mpr ⟨roll.single, by simp, ?_⟩
      rintro id inside _ own rfl
      rw [List.mem_singleton.mp own] at inside
      exact roll.fresh inside
    | left | returned => exact roll.single.filter _
    | disposed => exact .nil
  members := by
    intro id inside
    have turn := members_step step
    generalize k.members = members at turn inside
    cases turn with
    | kept => exact line_later roll step (roll.members id inside)
    | registered =>
      rcases List.mem_append.mp inside with before | own
      next => exact line_later roll step (roll.members id before)
      next =>
        rw [List.mem_singleton.mp own]
        exact registered_line step
    | left | returned => exact line_later roll step (roll.members id (List.mem_filter.mp inside).1)
    | disposed => cases inside
  copied := by
    intro number message copied round there id pending
    refine line_later roll step ?_
    rcases call_new step there with ⟨old, before⟩ | ⟨_, begun⟩
    next =>
      obtain ⟨new, after, turn⟩ := call_step step before
      rw [there] at after
      cases after
      cases turn with
      | kept => exact roll.copied number message copied round before id pending
      | wrote _ _ old own rest _ _ _ arrived _ turn =>
        have waits : ∀ other, other = own ∨ other ∈ rest → (h.lines other).isSome = true := by
          intro other among
          exact roll.copied number message copied old before other (.inl (by simpa [turn] using among))
        rcases pending with waiting | failing
        next => exact waits id (.inr waiting)
        next =>
          cases arrived with
          | true => cases failing
          | false =>
            cases failing
            exact waits _ (.inl rfl)
      | shut _ _ old =>
        exact roll.copied number message copied old before id (.inl (by simpa using pending))
    next =>
      cases begun with
      | called => exact roll.members id (by simpa using pending)
  received := by
    intro id served
    rcases served_step step served with before | rfl
    next => exact line_later roll step (roll.received id before)
    next => exact registered_line step

/-- What a call has done so far: it has written to the first of those it has copied, in their order, and has shut
down each of them that failed, but for one that it is about to shut down. -/
structure Tally (deeds : List Deed) (number : Nat) (message : Message) (copied : List Nat)
    (round : Round) : Prop where
  encoded : message.encode = .ok round.text
  single : copied.Nodup
  order : copied = (writes number deeds).map Write.id ++ round.waiting
  lost : lost (writes number deeds) = round.failed ++ round.failing.toList
  shut : shuts number deeds = round.failed
  whole : ∀ write ∈ writes number deeds, write.arrived = true →
    Frame.write round.text = .ok write.piece

def Call.Tallies (deeds : List Deed) (number : Nat) : Call → Prop
  | .refused message fault =>
    message.encode = .error fault ∧ ∀ deed ∈ deeds, deed.call? = some number → deed = .refused number
  | .sending message copied round => Tally deeds number message copied round
  | .returned message copied failed =>
    ∃ text, Tally deeds number message copied ⟨text, [], none, failed⟩

theorem Tally.same {more : List Deed} {message : Message} {copied : List Nat} {round : Round}
    (tally : Tally deeds number message copied round) (written : writes number more = writes number deeds)
    (shut : shuts number more = shuts number deeds) : Tally more number message copied round where
  encoded := tally.encoded
  single := tally.single
  order := written ▸ tally.order
  lost := written ▸ tally.lost
  shut := shut ▸ tally.shut
  whole := written ▸ tally.whole

theorem writes_aside (aside : deed.call? ≠ some number) :
    writes number (deeds ++ [deed]) = writes number deeds := by
  rw [writes_snoc, written_aside aside, Option.toList_none, List.append_nil]

theorem shuts_aside (aside : deed.call? ≠ some number) :
    shuts number (deeds ++ [deed]) = shuts number deeds := by
  rw [shuts_snoc, shut_aside aside, Option.toList_none, List.append_nil]

theorem writes_unused (unused : ∀ deed ∈ deeds, deed.call? ≠ some number) :
    writes number deeds = [] :=
  List.filterMap_eq_nil_iff.mpr fun deed inside => written_aside (unused deed inside)

theorem shuts_unused (unused : ∀ deed ∈ deeds, deed.call? ≠ some number) :
    shuts number deeds = [] :=
  List.filterMap_eq_nil_iff.mpr fun deed inside => shut_aside (unused deed inside)

theorem Call.Tallies.aside {call : Call} (tallies : call.Tallies deeds number)
    (aside : deed.call? ≠ some number) : call.Tallies (deeds ++ [deed]) number := by
  cases call with
  | refused message fault =>
    refine ⟨tallies.1, ?_⟩
    intro other inside own
    rcases List.mem_append.mp inside with before | last
    next => exact tallies.2 other before own
    next => exact absurd own (List.mem_singleton.mp last ▸ aside)
  | sending message copied round => exact Tally.same tallies (writes_aside aside) (shuts_aside aside)
  | returned message copied failed =>
    obtain ⟨text, tally⟩ := tallies
    exact ⟨text, tally.same (writes_aside aside) (shuts_aside aside)⟩

theorem Tally.write {message : Message} {copied rest : List Nat} {round : Round} {line next : Line}
    {piece : Bytes} {arrived : Bool} (tally : Tally deeds number message copied round)
    (turn : round.waiting = id :: rest) (calm : round.failing = none)
    (writes : line.Writes round.text next piece arrived) :
    Tally (deeds ++ [.wrote number id piece arrived]) number message copied
      (round.after id rest arrived) := by
  have written : Exchange.writes number (deeds ++ [.wrote number id piece arrived]) =
      Exchange.writes number deeds ++ [⟨id, piece, arrived⟩] := by
    simp [writes_snoc, Deed.written?]
  have shut : shuts number (deeds ++ [.wrote number id piece arrived]) = shuts number deeds := by
    simp [shuts_snoc, Deed.shut?]
  refine ⟨tally.encoded, tally.single, ?_, ?_, shut.trans tally.shut, ?_⟩
  next =>
    rw [written, tally.order, turn]
    simp [Round.after]
  next =>
    rw [written, lost_append, tally.lost, calm]
    cases arrived <;> simp [Exchange.lost, Round.after]
  next =>
    intro write inside whole
    rw [written, List.mem_append, List.mem_singleton] at inside
    rcases inside with before | rfl
    next => exact tally.whole write before whole
    next =>
      subst whole
      exact writes.whole.1

theorem Tally.shutDown {message : Message} {copied : List Nat} {round : Round}
    (tally : Tally deeds number message copied round) (failing : round.failing = some id) :
    Tally (deeds ++ [.shut number id]) number message copied
      { round with failing := none, failed := round.failed ++ [id] } := by
  have written : writes number (deeds ++ [.shut number id]) = writes number deeds := by
    simp [writes_snoc, Deed.written?]
  have shut : shuts number (deeds ++ [.shut number id]) = shuts number deeds ++ [id] := by
    simp [shuts_snoc, Deed.shut?]
  refine ⟨tally.encoded, tally.single, written ▸ tally.order, ?_, ?_, written ▸ tally.whole⟩
  next => simp [written, tally.lost, failing]
  next => rw [shut, tally.shut]

theorem CallTurn.tallies {old new : Call} (turn : CallTurn h deed number old new)
    (tallies : old.Tallies deeds number) : new.Tallies (deeds ++ [deed]) number := by
  cases turn with
  | kept _ aside => exact tallies.aside aside
  | wrote _ _ _ _ _ _ _ _ _ own turn calm _ writes =>
    subst own
    exact Tally.write tallies turn calm writes
  | shut _ _ _ _ own failing =>
    subst own
    exact Tally.shutDown tallies failing
  | returned message copied round own done =>
    subst own
    obtain ⟨text, waiting, failing, failed⟩ := round
    obtain ⟨rfl, rfl⟩ : waiting = [] ∧ failing = none := done
    exact ⟨text, Tally.same tallies (by simp [writes_snoc, Deed.written?])
      (by simp [shuts_snoc, Deed.shut?])⟩

theorem Begun.tallies {new : Call} (begun : Begun h deed number new) (roll : Roll h)
    (unused : ∀ deed ∈ deeds, deed.call? ≠ some number) :
    new.Tallies (deeds ++ [deed]) number := by
  cases begun with
  | called message text own encoded =>
    subst own
    have none : writes number (deeds ++ [.called number]) = [] := by
      simp [writes_snoc, Deed.written?, writes_unused unused]
    exact ⟨encoded, roll.single, by simp [none], by simp [none, lost],
      by simp [shuts_snoc, Deed.shut?, shuts_unused unused], by simp [none]⟩
  | refused message fault own unencoded =>
    subst own
    refine ⟨unencoded, ?_⟩
    intro other inside owned
    rcases List.mem_append.mp inside with before | last
    next => exact absurd owned (unused other before)
    next => exact List.mem_singleton.mp last

structure Books (deeds : List Deed) (h : Exchange) : Prop where
  roll : Roll h
  unused : ∀ number, h.calls number = none → ∀ deed ∈ deeds, deed.call? ≠ some number
  calls : ∀ number call, h.calls number = some call → call.Tallies deeds number
  unknown : ∀ id, h.lines id = none → stream id deeds = []
  lines : ∀ id line, h.lines id = some line → line.outlet.stream = stream id deeds

theorem LineTurn.ledger {old new : Line} (turn : LineTurn h deed id old new)
    (before : old.outlet.stream = stream id deeds) :
    new.outlet.stream = stream id (deeds ++ [deed]) := by
  rw [stream_snoc, ← before]
  cases turn with
  | kept aside => rw [piece_aside aside, List.append_nil]
  | closed by_whom =>
    have nothing : deed.piece id = [] := by
      rcases by_whom with rfl | ⟨number, rfl⟩ | ⟨rfl, _⟩ <;> rfl
    rw [nothing, List.append_nil]
    rfl
  | greeted _ _ _ _ _ _ own _ _ writes | wrote _ _ _ _ _ _ _ _ own _ _ _ writes =>
    subst own
    simpa [Deed.piece] using writes.added

theorem target_known (step : Step h deed k) (target : deed.target? = some id) :
    ∃ line, h.lines id = some line := by
  cases step with
  | greeted _ _ _ _ line _ _ _ _ there | wrote _ _ _ _ _ _ line _ _ _ _ _ _ there =>
    cases target
    exact ⟨line, there⟩
  | admitted | ended | turnedAway | registered | stumbled | left | shutOut | welcomed | called
  | refused | shut | returned | halted | disposed => cases target

theorem start_books : Books [] start where
  roll := start_roll
  unused := nofun
  calls := nofun
  unknown := fun _ _ => rfl
  lines := nofun

theorem books_step (books : Books deeds h) (step : Step h deed k) : Books (deeds ++ [deed]) k where
  roll := roll_step books.roll step
  unused := by
    intro number none other inside own
    rcases List.mem_append.mp inside with earlier | last
    next =>
      cases before : h.calls number with
      | none => exact books.unused number before other earlier own
      | some old =>
        obtain ⟨new, after, _⟩ := call_step step before
        cases none.symm.trans after
    next =>
      rw [List.mem_singleton.mp last] at own
      obtain ⟨call, made⟩ := call_made step own
      cases none.symm.trans made
  calls := by
    intro number call there
    rcases call_new step there with ⟨old, before⟩ | ⟨before, begun⟩
    next =>
      obtain ⟨new, after, turn⟩ := call_step step before
      cases there.symm.trans after
      exact turn.tallies (books.calls number old before)
    next => exact begun.tallies books.roll (books.unused number before)
  unknown := by
    intro id absent
    have before : h.lines id = none := by
      by_contra known
      have later := line_later books.roll step (Option.isSome_iff_ne_none.mpr known)
      simp [absent] at later
    have aside : deed.target? ≠ some id := by
      intro target
      obtain ⟨line, known⟩ := target_known step target
      cases before.symm.trans known
    rw [stream_snoc, piece_aside aside, books.unknown id before, List.append_nil]
  lines := by
    intro id line there
    cases before : h.lines id with
    | some old =>
      obtain ⟨new, after, turn⟩ := line_step books.roll.numbered step before
      cases there.symm.trans after
      exact turn.ledger (books.lines id old before)
    | none =>
      rcases line_new step there with ⟨old, known⟩ | ⟨rfl, _, rfl⟩
      next => cases before.symm.trans known
      next => simp [stream_snoc, Deed.piece, books.unknown id before, Line.fresh, Outlet.empty, Outlet.stream]

theorem trace_books (trace : Trace Step start deeds h) : Books deeds h := by
  induction trace with
  | start => exact start_books
  | next _ last ih => exact books_step ih last

theorem nextId_run (trace : Trace Step start deeds h) : h.nextId = 1 + deeds.countP Deed.numbers := by
  induction trace with
  | start => rfl
  | @next deeds deed _ _ _ last ih =>
    rw [nextId_step last, ih, List.countP_append, List.countP_singleton, Nat.add_assoc]
    cases deed.numbers <;> rfl

-- A counter of 64 bits comes round only after more connections than any host accepts.
theorem nextId_fits (trace : Trace Step start deeds h) (few : deeds.countP Deed.numbers < UInt64.size - 1) :
    (UInt64.ofNat h.nextId).toNat = h.nextId := by
  have fits : h.nextId < UInt64.size := by
    rw [nextId_run trace]
    omega
  exact UInt64.toNat_ofNat_of_lt' fits

end TemplateSync.Exchange
