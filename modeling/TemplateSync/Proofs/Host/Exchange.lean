import TemplateSync.Proofs.Host.Interleaving
import TemplateSync.Proofs.Host.Outlet
import TemplateSync.Proofs.Trace

set_option autoImplicit false

namespace TemplateSync

structure Line where
  outlet : Outlet
  isOpen : Bool
  deriving DecidableEq

namespace Line

def fresh : Line := ⟨.empty, true⟩

def sent (line : Line) : Bytes :=
  line.outlet.sent

def close (line : Line) : Line :=
  { line with isOpen := false }

/-- A frame is written, and this piece of it is not lost. A line that has been shut down takes nothing. -/
structure Writes (line : Line) (text : String) (next : Line) (piece : Bytes) (arrived : Bool) :
    Prop where
  taken : ∃ room, (line.isOpen = false → room = 0) ∧
    line.outlet.write text room = (next.outlet, arrived)
  added : next.outlet.stream = line.outlet.stream ++ piece
  kept : next.isOpen = line.isOpen

variable {line next : Line} {text : String} {piece : Bytes} {arrived : Bool}

theorem writes_of {outlet : Outlet} {room : Nat} (closed : line.isOpen = false → room = 0)
    (done : line.outlet.write text room = (outlet, arrived)) :
    ∃ piece, line.Writes text { line with outlet := outlet } piece arrived := by
  cases arrived with
  | true =>
    obtain ⟨frame, _, rfl⟩ := Outlet.write_arrived done
    exact ⟨frame, ⟨room, closed, done⟩, by simp [Outlet.stream], rfl⟩
  | false =>
    obtain ⟨piece, added, _⟩ := Outlet.write_failed done
    exact ⟨piece, ⟨room, closed, done⟩, added, rfl⟩

theorem exists_writes (line : Line) (text : String) :
    ∃ next piece arrived, line.Writes text next piece arrived := by
  rcases done : line.outlet.write text 0 with ⟨outlet, arrived⟩
  obtain ⟨piece, writes⟩ := writes_of (fun _ => rfl) done
  exact ⟨_, piece, arrived, writes⟩

theorem Writes.whole (writes : line.Writes text next piece true) :
    Frame.write text = .ok piece ∧ next.outlet = ⟨line.outlet.stream ++ piece, []⟩ := by
  obtain ⟨⟨room, _, done⟩, added, _⟩ := writes
  obtain ⟨frame, framed, same⟩ := Outlet.write_arrived done
  have equal : frame = piece := by simpa [same, Outlet.stream] using added
  exact equal ▸ ⟨framed, same⟩

theorem Writes.cut (writes : line.Writes text next piece false) {frame : Bytes}
    (framed : Frame.write text = .ok frame) :
    piece <+: frame ∧ next.sent.length < line.outlet.stream.length + frame.length := by
  obtain ⟨⟨room, _, done⟩, added, _⟩ := writes
  obtain ⟨rest, same, right⟩ := Outlet.write_failed done
  obtain rfl : rest = piece := by simpa [same] using added
  exact right frame framed

theorem Writes.refused {error : IoError} (writes : line.Writes text next piece arrived)
    (long : Frame.write text = .error error) : piece = [] := by
  obtain ⟨⟨room, _, done⟩, added, _⟩ := writes
  rw [Outlet.write_too_long long, Prod.mk.injEq] at done
  simpa [← done.1] using added

theorem Writes.onward (writes : line.Writes text next piece arrived) : line.sent <+: next.sent := by
  obtain ⟨room, _, done⟩ := writes.taken
  exact Outlet.write_onward done

theorem Writes.closed (writes : line.Writes text next piece arrived) (shut : line.isOpen = false) :
    next.sent = line.sent := by
  obtain ⟨room, closed, done⟩ := writes.taken
  have within := Outlet.write_within done
  rw [closed shut] at within
  exact (writes.onward.eq_of_length_le within).symm

end Line

namespace Exchange

/-- The accepting thread. It holds the writer of the client that it greets, and lets it go when the greeting has
failed, before it removes the client and shuts it down. -/
inductive Reception where
  | idle
  | admitted
  | greeting (id : Nat) (due : List Message)
  | leaving (id : Nat)
  | closing (id : Nat)
  | ended

def Reception.client? : Reception → Option Nat
  | .idle | .admitted | .ended => none
  | .greeting id _ | .leaving id | .closing id => some id

inductive Call where
  | refused (message : Message) (fault : Fault)
  | sending (message : Message) (copied : List Nat) (round : Round)
  | returned (message : Message) (copied failed : List Nat)

def Call.answer : Call → Option (Except Fault Nat)
  | .refused _ fault => some (.error fault)
  | .sending _ _ _ => none
  | .returned _ copied failed => some (.ok (copied.length - failed.length))

def Call.message : Call → Message
  | .refused message _ | .sending message _ _ | .returned message _ _ => message

def Call.copied : Call → List Nat
  | .refused _ _ => []
  | .sending _ copied _ | .returned _ copied _ => copied

inductive Deed where
  | admitted
  | turnedAway
  | registered (id : Nat)
  | greeted (id : Nat) (piece : Bytes) (arrived : Bool)
  | stumbled (id : Nat)
  | left (id : Nat)
  | shutOut (id : Nat)
  | welcomed (id : Nat)
  | ended
  | called (call : Nat)
  | refused (call : Nat)
  | wrote (call id : Nat) (piece : Bytes) (arrived : Bool)
  | shut (call id : Nat)
  | returned (call : Nat)
  | halted
  | disposed
  deriving DecidableEq

def Deed.target? : Deed → Option Nat
  | .greeted id _ _ | .wrote _ id _ _ => some id
  | _ => none

def Deed.call? : Deed → Option Nat
  | .called call | .refused call | .wrote call _ _ _ | .shut call _ | .returned call => some call
  | _ => none

-- Each connection takes a number, also one that is turned away.
def Deed.numbers : Deed → Bool
  | .registered _ | .turnedAway => true
  | _ => false

end Exchange

structure Exchange where
  lines : Nat → Option Line
  members : List Nat
  nextId : Nat
  reception : Exchange.Reception
  calls : Nat → Option Exchange.Call
  stopping : Bool
  disposed : Bool

namespace Exchange

def start : Exchange :=
  ⟨fun _ => none, [], 1, .idle, fun _ => none, false, false⟩

def setLine (h : Exchange) (id : Nat) (line : Line) : Exchange :=
  { h with lines := Function.update h.lines id (some line) }

def setCall (h : Exchange) (number : Nat) (call : Call) : Exchange :=
  { h with calls := Function.update h.calls number (some call) }

def without (h : Exchange) (ids : List Nat) : Exchange :=
  { h with members := h.members.filter fun id => !ids.contains id }

def receive (h : Exchange) (reception : Reception) : Exchange :=
  { h with reception := reception }

def register (h : Exchange) (due : List Message) : Exchange :=
  { h with
    lines := Function.update h.lines h.nextId (some .fresh)
    members := h.members ++ [h.nextId]
    nextId := h.nextId + 1
    reception := .greeting h.nextId due }

def closeAll (h : Exchange) : Exchange :=
  { h with
    lines := fun id => if id ∈ h.members then (h.lines id).map Line.close else h.lines id
    members := []
    disposed := true }

section Updates

variable (h : Exchange) (id number : Nat) (line : Line) (call : Call)

@[simp] theorem setLine_same : (h.setLine id line).lines id = some line := by
  simp [setLine]

theorem setLine_other {other : Nat} (different : other ≠ id) :
    (h.setLine id line).lines other = h.lines other := by
  simp [setLine, different]

@[simp] theorem setCall_same : (h.setCall number call).calls number = some call := by
  simp [setCall]

theorem setCall_other {other : Nat} (different : other ≠ number) :
    (h.setCall number call).calls other = h.calls other := by
  simp [setCall, different]

end Updates

inductive Step (h : Exchange) : Deed → Exchange → Prop where
  -- The accepting thread; it looks whether the host is stopping once for each connection.
  | admitted (idle : h.reception = .idle) (running : h.stopping = false) :
      Step h .admitted (h.receive .admitted)
  | ended (idle : h.reception = .idle) : Step h .ended (h.receive .ended)
  | turnedAway (admitted : h.reception = .admitted) :
      Step h .turnedAway { h.receive .idle with nextId := h.nextId + 1 }
  | registered (due : List Message) (admitted : h.reception = .admitted) :
      Step h (.registered h.nextId) (h.register due)
  | greeted (id : Nat) (message : Message) (due : List Message) (text : String) (line next : Line)
      (piece : Bytes) (arrived : Bool) (greeting : h.reception = .greeting id (message :: due))
      (there : h.lines id = some line) (encoded : message.encode = .ok text)
      (writes : line.Writes text next piece arrived) :
      Step h (.greeted id piece arrived)
        ((h.receive (if arrived then .greeting id due else .leaving id)).setLine id next)
  | stumbled (id : Nat) (message : Message) (due : List Message) (fault : Fault)
      (greeting : h.reception = .greeting id (message :: due))
      (unencoded : message.encode = .error fault) :
      Step h (.stumbled id) (h.receive (.leaving id))
  | left (id : Nat) (leaving : h.reception = .leaving id) :
      Step h (.left id) ((h.receive (.closing id)).without [id])
  | shutOut (id : Nat) (line : Line) (closing : h.reception = .closing id)
      (there : h.lines id = some line) :
      Step h (.shutOut id) ((h.receive .idle).setLine id line.close)
  | welcomed (id : Nat) (greeted : h.reception = .greeting id []) :
      Step h (.welcomed id) (h.receive .idle)
  -- Those who send to all.
  | called (number : Nat) (message : Message) (text : String) (unused : h.calls number = none)
      (encoded : message.encode = .ok text) :
      Step h (.called number)
        (h.setCall number (.sending message h.members ⟨text, h.members, none, []⟩))
  | refused (number : Nat) (message : Message) (fault : Fault) (unused : h.calls number = none)
      (unencoded : message.encode = .error fault) :
      Step h (.refused number) (h.setCall number (.refused message fault))
  | wrote (number : Nat) (message : Message) (copied : List Nat) (round : Round) (id : Nat)
      (rest : List Nat) (line next : Line) (piece : Bytes) (arrived : Bool)
      (under_way : h.calls number = some (.sending message copied round))
      (turn : round.waiting = id :: rest) (calm : round.failing = none)
      (there : h.lines id = some line) (free : ∀ due, h.reception ≠ .greeting id due)
      (writes : line.Writes round.text next piece arrived) :
      Step h (.wrote number id piece arrived)
        ((h.setLine id next).setCall number (.sending message copied (round.after id rest arrived)))
  | shut (number : Nat) (message : Message) (copied : List Nat) (round : Round) (id : Nat)
      (line : Line) (under_way : h.calls number = some (.sending message copied round))
      (failing : round.failing = some id) (there : h.lines id = some line) :
      Step h (.shut number id)
        ((h.setLine id line.close).setCall number
          (.sending message copied { round with failing := none, failed := round.failed ++ [id] }))
  | returned (number : Nat) (message : Message) (copied : List Nat) (round : Round)
      (under_way : h.calls number = some (.sending message copied round)) (done : round.Done) :
      Step h (.returned number)
        ((h.without round.failed).setCall number (.returned message copied round.failed))
  -- The one who stops, once. He waits for the accepting thread.
  | halted (running : h.stopping = false) : Step h .halted { h with stopping := true }
  | disposed (stopping : h.stopping = true) (ended : h.reception = .ended)
      (once : h.disposed = false) : Step h .disposed h.closeAll

inductive LineTurn (h : Exchange) (deed : Deed) (id : Nat) (old : Line) : Line → Prop where
  | kept (aside : deed.target? ≠ some id) : LineTurn h deed id old old
  | closed (by_whom : deed = .shutOut id ∨ (∃ number, deed = .shut number id) ∨
      deed = .disposed ∧ id ∈ h.members) : LineTurn h deed id old old.close
  | greeted (message : Message) (due : List Message) (text : String) (next : Line) (piece : Bytes)
      (arrived : Bool) (own : deed = .greeted id piece arrived)
      (greeting : h.reception = .greeting id (message :: due)) (encoded : message.encode = .ok text)
      (writes : old.Writes text next piece arrived) : LineTurn h deed id old next
  | wrote (number : Nat) (message : Message) (copied : List Nat) (round : Round) (rest : List Nat)
      (next : Line) (piece : Bytes) (arrived : Bool) (own : deed = .wrote number id piece arrived)
      (under_way : h.calls number = some (.sending message copied round))
      (turn : round.waiting = id :: rest) (free : ∀ due, h.reception ≠ .greeting id due)
      (writes : old.Writes round.text next piece arrived) : LineTurn h deed id old next

inductive CallTurn (h : Exchange) (deed : Deed) (number : Nat) : Call → Call → Prop where
  | kept (old : Call) (aside : deed.call? ≠ some number) : CallTurn h deed number old old
  | wrote (message : Message) (copied : List Nat) (round : Round) (id : Nat) (rest : List Nat)
      (line next : Line) (piece : Bytes) (arrived : Bool) (own : deed = .wrote number id piece arrived)
      (turn : round.waiting = id :: rest) (calm : round.failing = none)
      (there : h.lines id = some line) (writes : line.Writes round.text next piece arrived) :
      CallTurn h deed number (.sending message copied round)
        (.sending message copied (round.after id rest arrived))
  | shut (message : Message) (copied : List Nat) (round : Round) (id : Nat)
      (own : deed = .shut number id) (failing : round.failing = some id) :
      CallTurn h deed number (.sending message copied round)
        (.sending message copied { round with failing := none, failed := round.failed ++ [id] })
  | returned (message : Message) (copied : List Nat) (round : Round)
      (own : deed = .returned number) (done : round.Done) :
      CallTurn h deed number (.sending message copied round) (.returned message copied round.failed)

inductive Begun (h : Exchange) (deed : Deed) (number : Nat) : Call → Prop where
  | called (message : Message) (text : String) (own : deed = .called number)
      (encoded : message.encode = .ok text) :
      Begun h deed number (.sending message h.members ⟨text, h.members, none, []⟩)
  | refused (message : Message) (fault : Fault) (own : deed = .refused number)
      (unencoded : message.encode = .error fault) : Begun h deed number (.refused message fault)

inductive MembersTurn (h : Exchange) : Deed → List Nat → Prop where
  | kept (deed : Deed) (aside : ∀ number, deed ≠ .returned number) : MembersTurn h deed h.members
  | registered : MembersTurn h (.registered h.nextId) (h.members ++ [h.nextId])
  | left (id : Nat) (leaving : h.reception = .leaving id) :
      MembersTurn h (.left id) (h.members.filter fun other => !([id].contains other))
  | returned (number : Nat) (message : Message) (copied : List Nat) (round : Round)
      (under_way : h.calls number = some (.sending message copied round)) (done : round.Done) :
      MembersTurn h (.returned number) (h.members.filter fun id => !round.failed.contains id)
  | disposed : MembersTurn h .disposed []

section Inversion

variable {h k : Exchange} {deed : Deed}

theorem nextId_step (step : Step h deed k) : k.nextId = h.nextId + deed.numbers.toNat := by
  cases step <;> rfl

theorem members_step (step : Step h deed k) : MembersTurn h deed k.members := by
  cases step with
  | registered => exact .registered
  | left id leaving => exact .left id leaving
  | returned number message copied round under_way done =>
    exact .returned number message copied round under_way done
  | disposed => exact .disposed
  | admitted | ended | turnedAway | greeted | stumbled | shutOut | welcomed | called | refused
  | wrote | shut | halted => exact .kept _ nofun

theorem served_step (step : Step h deed k) {id : Nat} (served : k.reception.client? = some id) :
    h.reception.client? = some id ∨ deed = .registered id := by
  cases step with
  | called | refused | wrote | shut | returned | halted | disposed => exact .inl served
  | admitted | ended | turnedAway | shutOut | welcomed => cases served
  | registered =>
    cases served
    exact .inr rfl
  | greeted own _ _ _ _ _ _ arrived greeting =>
    left
    rw [greeting]
    cases arrived <;> exact served
  | stumbled own _ _ _ greeting =>
    left
    rw [greeting]
    exact served
  | left own leaving =>
    left
    rw [leaving]
    exact served

theorem line_put {id own : Nat} {old line new : Line} (there : h.lines id = some old)
    (here : h.lines own = some line) (turn : LineTurn h deed own line new)
    (only : ∀ other, deed.target? = some other → other = own)
    (same : k.lines = (h.setLine own new).lines) :
    ∃ new, k.lines id = some new ∧ LineTurn h deed id old new := by
  by_cases equal : id = own
  next =>
    subst equal
    cases here.symm.trans there
    exact ⟨new, by rw [same, setLine_same], turn⟩
  next =>
    exact ⟨old, by rw [same, setLine_other _ _ _ equal, there], .kept fun hit => equal (only id hit)⟩

theorem line_step (numbered : ∀ id line, h.lines id = some line → id < h.nextId)
    (step : Step h deed k) {id : Nat} {old : Line} (there : h.lines id = some old) :
    ∃ new, k.lines id = some new ∧ LineTurn h deed id old new := by
  cases step with
  | admitted | ended | turnedAway | stumbled | left | welcomed | called | refused | returned
  | halted => exact ⟨old, there, .kept nofun⟩
  | registered =>
    have different : id ≠ h.nextId := (numbered id old there).ne
    exact ⟨old, by simp [register, different, there], .kept nofun⟩
  | greeted own message due text line next piece arrived greeting here encoded writes =>
    exact line_put there here (.greeted message due text next piece arrived rfl greeting encoded writes)
      (by rintro _ ⟨⟩; rfl) rfl
  | wrote number message copied round own rest line next piece arrived under_way turn _ here free
      writes =>
    exact line_put there here
      (.wrote number message copied round rest next piece arrived rfl under_way turn free writes)
      (by rintro _ ⟨⟩; rfl) rfl
  | shutOut own line closing here => exact line_put there here (.closed (.inl rfl)) nofun rfl
  | shut number message copied round own line under_way failing here =>
    exact line_put there here (.closed (.inr (.inl ⟨number, rfl⟩))) nofun rfl
  | disposed =>
    by_cases member : id ∈ h.members
    next =>
      exact ⟨old.close, by simp [closeAll, member, there], .closed (.inr (.inr ⟨rfl, member⟩))⟩
    next => exact ⟨old, by simp [closeAll, member, there], .kept nofun⟩

theorem known_put {id own : Nat} {line : Line} (here : h.lines own = some line) {new : Line}
    (there : ((h.setLine own new).lines id).isSome = true) : ∃ old, h.lines id = some old := by
  by_cases same : id = own
  next => exact ⟨line, same ▸ here⟩
  next => exact Option.isSome_iff_exists.mp (by rwa [setLine_other _ _ _ same] at there)

theorem line_new (step : Step h deed k) {id : Nat} {new : Line} (there : k.lines id = some new) :
    (∃ old, h.lines id = some old) ∨ deed = .registered id ∧ id = h.nextId ∧ new = .fresh := by
  have known : (k.lines id).isSome = true := by simp [there]
  cases step with
  | admitted | ended | turnedAway | stumbled | left | welcomed | called | refused | returned
  | halted => exact .inl ⟨new, there⟩
  | registered =>
    by_cases same : id = h.nextId
    next =>
      subst same
      exact .inr ⟨rfl, rfl, by simpa [register] using there.symm⟩
    next => exact .inl ⟨new, by simpa [register, same] using there⟩
  | greeted _ _ _ _ _ _ _ _ _ here | wrote _ _ _ _ _ _ _ _ _ _ _ _ _ here | shutOut _ _ _ here
  | shut _ _ _ _ _ _ _ _ here => exact .inl (known_put here known)
  | disposed =>
    left
    refine Option.isSome_iff_exists.mp ?_
    by_cases member : id ∈ h.members
    next => simpa [closeAll, member] using known
    next => simpa [closeAll, member] using known

theorem call_put {number own : Nat} {old call new : Call} (there : h.calls number = some old)
    (here : h.calls own = some call) (turn : CallTurn h deed own call new)
    (only : deed.call? = some own) (same : k.calls = (h.setCall own new).calls) :
    ∃ new, k.calls number = some new ∧ CallTurn h deed number old new := by
  by_cases equal : number = own
  next =>
    subst equal
    cases here.symm.trans there
    exact ⟨new, by rw [same, setCall_same], turn⟩
  next =>
    refine ⟨old, by rw [same, setCall_other _ _ _ equal, there], .kept old ?_⟩
    rw [only]
    exact fun hit => equal (Option.some.inj hit).symm

theorem call_added {number own : Nat} {old new : Call} (there : h.calls number = some old)
    (unused : h.calls own = none) (only : deed.call? = some own) :
    ∃ new', (h.setCall own new).calls number = some new' ∧ CallTurn h deed number old new' := by
  have different : number ≠ own := by
    rintro rfl
    cases unused.symm.trans there
  refine ⟨old, by rw [setCall_other _ _ _ different, there], .kept old ?_⟩
  rw [only]
  exact fun hit => different (Option.some.inj hit).symm

theorem call_step (step : Step h deed k) {number : Nat} {old : Call}
    (there : h.calls number = some old) :
    ∃ new, k.calls number = some new ∧ CallTurn h deed number old new := by
  cases step with
  | admitted | ended | turnedAway | registered | greeted | stumbled | left | shutOut | welcomed
  | halted | disposed => exact ⟨old, there, .kept old nofun⟩
  | called _ _ _ unused | refused _ _ _ unused => exact call_added there unused rfl
  | wrote own message copied round id rest line next piece arrived here turn calm known _ writes =>
    exact call_put there here
      (.wrote message copied round id rest line next piece arrived rfl turn calm known writes) rfl rfl
  | shut own message copied round id _ here failing =>
    exact call_put there here (.shut message copied round id rfl failing) rfl rfl
  | returned own message copied round here done =>
    exact call_put there here (.returned message copied round rfl done) rfl rfl

theorem call_new (step : Step h deed k) {number : Nat} {new : Call}
    (there : k.calls number = some new) :
    (∃ old, h.calls number = some old) ∨ h.calls number = none ∧ Begun h deed number new := by
  cases before : h.calls number with
  | some old => exact .inl ⟨old, rfl⟩
  | none =>
    refine .inr ⟨rfl, ?_⟩
    cases step with
    | admitted | ended | turnedAway | registered | greeted | stumbled | left | shutOut | welcomed
    | halted | disposed => cases before.symm.trans there
    | called own message text unused encoded =>
      by_cases same : number = own
      next =>
        subst same
        rw [setCall_same] at there
        cases there
        exact .called message text rfl encoded
      next =>
        rw [setCall_other _ _ _ same, before] at there
        cases there
    | refused own message fault unused unencoded =>
      by_cases same : number = own
      next =>
        subst same
        rw [setCall_same] at there
        cases there
        exact .refused message fault rfl unencoded
      next =>
        rw [setCall_other _ _ _ same, before] at there
        cases there
    | wrote own _ _ _ _ _ _ _ _ _ here | shut own _ _ _ _ _ here | returned own _ _ _ here =>
      by_cases same : number = own
      next =>
        subst same
        cases before.symm.trans here
      next =>
        have still : _ = some new := there
        rw [setCall_other _ _ _ same] at still
        cases before.symm.trans still

theorem call_made (step : Step h deed k) {number : Nat} (own : deed.call? = some number) :
    ∃ call, k.calls number = some call := by
  cases step with
  | called | refused | wrote | shut | returned =>
    cases own
    exact ⟨_, setCall_same _ _ _⟩
  | admitted | ended | turnedAway | registered | greeted | stumbled | left | shutOut | welcomed
  | halted | disposed => cases own

end Inversion

end Exchange

end TemplateSync
