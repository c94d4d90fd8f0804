import Mathlib.Data.List.Nodup
import TemplateSync.Proofs.Host.Exchange.Accounts

set_option autoImplicit false

namespace TemplateSync.Exchange

variable {h g k m : Exchange} {deed : Deed} {deeds before after : List Deed} {number id : Nat}
  {message : Message} {copied failed : List Nat}

section Returning

def Deed.greets : Deed → Prop
  | .greeted .. | .stumbled _ | .left _ | .shutOut _ | .welcomed _ => True
  | _ => False

-- The client that was greeted is welcome or shut out, and nothing else has happened.
def Settles (h k : Exchange) : Prop :=
  Leads Step Deed.greets h k ∧ k.reception.client? = none ∧ k.calls = h.calls

theorem closing_settles (roll : Roll h) (closing : h.reception = .closing id) : ∃ k, Settles h k := by
  obtain ⟨line, there⟩ := Option.isSome_iff_exists.mp (roll.received id (by rw [closing]; rfl))
  exact ⟨_, .head (.shutOut id line closing there) trivial (.refl _), rfl, rfl⟩

theorem leaving_settles (roll : Roll h) (leaving : h.reception = .leaving id) : ∃ k, Settles h k := by
  have left : Step h _ _ := .left id leaving
  obtain ⟨k, leads, idle, same⟩ := closing_settles (roll_step roll left) rfl
  exact ⟨k, .head left trivial leads, idle, same⟩

theorem greeting_settles (due : List Message) {h : Exchange} (roll : Roll h)
    (greeting : h.reception = .greeting id due) : ∃ k, Settles h k := by
  induction due generalizing h with
  | nil => exact ⟨_, .head (.welcomed id greeting) trivial (.refl _), rfl, rfl⟩
  | cons message due ih =>
    cases encoded : message.encode with
    | error fault =>
      have stumbled : Step h _ _ := .stumbled id message due fault greeting encoded
      obtain ⟨k, leads, idle, same⟩ := leaving_settles (roll_step roll stumbled) rfl
      exact ⟨k, .head stumbled trivial leads, idle, same⟩
    | ok text =>
      obtain ⟨line, there⟩ := Option.isSome_iff_exists.mp (roll.received id (by rw [greeting]; rfl))
      obtain ⟨next, piece, arrived, writes⟩ := line.exists_writes text
      have greeted : Step h _ _ :=
        .greeted id message due text line next piece arrived greeting there encoded writes
      have later := roll_step roll greeted
      cases arrived with
      | true =>
        obtain ⟨k, leads, idle, same⟩ := ih later rfl
        exact ⟨k, .head greeted trivial leads, idle, same⟩
      | false =>
        obtain ⟨k, leads, idle, same⟩ := leaving_settles later rfl
        exact ⟨k, .head greeted trivial leads, idle, same⟩

theorem reception_settles (roll : Roll h) : ∃ k, Settles h k := by
  cases reception : h.reception with
  | idle | admitted | ended => exact ⟨h, .refl h, by rw [reception]; rfl, rfl⟩
  | greeting id due => exact greeting_settles due roll reception
  | leaving id => exact leaving_settles roll reception
  | closing id => exact closing_settles roll reception

def Deed.serves (number : Nat) : Deed → Prop
  | .greeted .. | .stumbled _ | .left _ | .shutOut _ | .welcomed _ => True
  | .wrote own _ _ _ | .shut own _ | .returned own => own = number
  | _ => False

-- A call comes from one state to the other with no help but that of the accepting thread.
def Serves (number : Nat) : Exchange → Exchange → Prop :=
  Leads Step (Deed.serves number)

theorem serves_roll (serves : Serves number h k) (roll : Roll h) : Roll k :=
  serves.keeps (fun _ _ _ => roll_step) roll

theorem greets_serves (number : Nat) (deed : Deed) (greets : deed.greets) : deed.serves number := by
  cases deed with
  | greeted | stumbled | left | shutOut | welcomed => trivial
  | _ => exact greets.elim

theorem call_calms (roll : Roll h) (free : h.reception.client? = none) {round : Round}
    (there : h.calls number = some (.sending message copied round)) :
    ∃ k, Serves number h k ∧ k.reception.client? = none ∧
      ∃ calm, k.calls number = some (.sending message copied calm) ∧
        calm.waiting = round.waiting ∧ calm.failing = none := by
  cases failing : round.failing with
  | none => exact ⟨h, .refl h, free, round, there, rfl, failing⟩
  | some id =>
    obtain ⟨line, here⟩ := Option.isSome_iff_exists.mp
      (roll.copied number message copied round there id (.inr failing))
    have shut : Step h _ _ := .shut number message copied round id line there failing here
    exact ⟨_, .head shut rfl (.refl _), free, _, setCall_same .., rfl, rfl⟩

theorem free_returns (waiting : List Nat) {h : Exchange} (roll : Roll h)
    (free : h.reception.client? = none) {round : Round}
    (there : h.calls number = some (.sending message copied round))
    (here : round.waiting = waiting) :
    ∃ k failed, Serves number h k ∧ k.calls number = some (.returned message copied failed) := by
  induction waiting generalizing h round with
  | nil =>
    obtain ⟨m, serves, _, calm, now, none, quiet⟩ := call_calms roll free there
    have returned : Step m _ _ := .returned number message copied calm now ⟨none.trans here, quiet⟩
    exact ⟨_, calm.failed, serves.trans (.head returned rfl (.refl _)), setCall_same ..⟩
  | cons id waiting ih =>
    obtain ⟨m, serves, free, calm, now, turn, quiet⟩ := call_calms roll free there
    have later := serves_roll serves roll
    obtain ⟨line, known⟩ := Option.isSome_iff_exists.mp
      (later.copied number message copied calm now id (.inl (by simp [turn, here])))
    obtain ⟨next, piece, arrived, writes⟩ := line.exists_writes calm.text
    have aside : ∀ due, m.reception ≠ .greeting id due := by
      intro due greeting
      simp [greeting, Reception.client?] at free
    have wrote : Step m _ _ := .wrote number message copied calm id waiting line next piece arrived
      now (turn.trans here) quiet known aside writes
    obtain ⟨k, failed, rest, returned⟩ := ih (roll_step later wrote) free (setCall_same ..) rfl
    exact ⟨k, failed, serves.trans (.head wrote rfl rest), returned⟩

theorem call_returns (roll : Roll h) {round : Round}
    (there : h.calls number = some (.sending message copied round)) :
    ∃ k failed, Serves number h k ∧ k.calls number = some (.returned message copied failed) := by
  obtain ⟨m, settles, free, same⟩ := reception_settles roll
  have serves : Serves number h m := settles.mono (greets_serves number)
  obtain ⟨k, failed, rest, returned⟩ := free_returns round.waiting (serves_roll serves roll) free
    (by rw [same, there]) rfl
  exact ⟨k, failed, serves.trans rest, returned⟩

end Returning

section Runs

theorem returned_step (step : Step h deed k)
    (there : h.calls number = some (.returned message copied failed)) :
    k.calls number = some (.returned message copied failed) := by
  obtain ⟨new, now, turn⟩ := call_step step there
  cases turn with
  | kept => exact now

theorem returned_run (trace : Trace Step h deeds k)
    (there : h.calls number = some (.returned message copied failed)) :
    k.calls number = some (.returned message copied failed) :=
  trace.keeps (fun _ _ _ there step => returned_step step there) there

/-- A line is only written more, and one that has been shut down is written nothing. -/
structure Onward (old new : Line) : Prop where
  more : old.sent <+: new.sent
  shut : old.isOpen = false → new.isOpen = false ∧ new.sent = old.sent

theorem Onward.trans {old line new : Line} (one : Onward old line)
    (two : Onward line new) : Onward old new where
  more := one.more.trans two.more
  shut := by
    intro closed
    obtain ⟨still, same⟩ := one.shut closed
    exact ⟨(two.shut still).1, (two.shut still).2.trans same⟩

theorem LineTurn.onward {old new : Line} (turn : LineTurn h deed id old new) :
    Onward old new := by
  cases turn with
  | kept => exact ⟨List.prefix_rfl, fun closed => ⟨closed, rfl⟩⟩
  | closed => exact ⟨List.prefix_rfl, fun _ => ⟨rfl, rfl⟩⟩
  | greeted _ _ _ _ _ _ _ _ _ writes | wrote _ _ _ _ _ _ _ _ _ _ _ _ writes =>
    exact ⟨writes.onward, fun closed => ⟨writes.kept.trans closed, writes.closed closed⟩⟩

theorem line_run (roll : Roll h) (trace : Trace Step h deeds k) {old : Line}
    (there : h.lines id = some old) : ∃ new, k.lines id = some new ∧ Onward old new := by
  induction trace with
  | start => exact ⟨old, there, List.prefix_rfl, fun closed => ⟨closed, rfl⟩⟩
  | next trace last ih =>
    obtain ⟨line, known, onward⟩ := ih
    have later : Roll _ := trace.keeps (fun _ _ _ roll step => roll_step roll step) roll
    obtain ⟨new, now, turn⟩ := line_step later.numbered last known
    exact ⟨new, now, onward.trans turn.onward⟩

theorem arrived_run {piece : Bytes}
    (trace : Trace Step start (before ++ .wrote number id piece true :: after) h) :
    ∃ line, h.lines id = some line ∧ stream id before ++ piece <+: line.sent := by
  obtain ⟨g, first, rest⟩ := trace_append.mp trace
  obtain ⟨m, step, second⟩ := trace_cons.mp rest
  have books := trace_books first
  obtain ⟨old, there⟩ := target_known step rfl
  obtain ⟨new, now, turn⟩ := line_step books.roll.numbered step there
  obtain ⟨line, known, onward⟩ := line_run (roll_step books.roll step) second now
  refine ⟨line, known, ?_⟩
  have sent : new.sent = stream id before ++ piece := by
    cases turn with
    | kept aside => exact absurd rfl aside
    | closed by_whom => simp at by_whom
    | greeted _ _ _ _ _ _ own => cases own
    | wrote _ _ _ _ _ _ _ _ own _ _ _ writes =>
      cases own
      rw [← books.lines id old there, Line.sent, writes.whole.2]
  exact sent ▸ onward.more

theorem called_run (trace : Trace Step start deeds h) {call : Call}
    (there : h.calls number = some call) (sent : ∀ message fault, call ≠ .refused message fault) :
    ∃ before after g, deeds = before ++ .called number :: after ∧ Trace Step start before g ∧
      call.copied = g.members := by
  induction trace generalizing call with
  | start => cases there
  | next trace last ih =>
    rename_i deeds deed g k
    rcases call_new last there with ⟨old, known⟩ | ⟨_, begun⟩
    next =>
      obtain ⟨new, now, turn⟩ := call_step last known
      cases there.symm.trans now
      have same : call.copied = old.copied := by cases turn <;> rfl
      have earlier : ∀ message fault, old ≠ .refused message fault := by
        rintro message fault rfl
        cases turn with
        | kept => exact sent message fault rfl
      obtain ⟨before, after, start, rfl, first, members⟩ := ih known earlier
      exact ⟨before, after ++ [deed], start, by simp, first, same.trans members⟩
    next =>
      cases begun with
      | called message text own =>
        subst own
        exact ⟨deeds, [], g, rfl, trace, rfl⟩
      | refused message fault => exact absurd rfl (sent message fault)

end Runs

section Pruning

/-- Who has failed in a call is shut down, and is out of the set when the call has returned. -/
structure Pruned (h : Exchange) : Prop where
  shut : ∀ number message copied round, h.calls number = some (.sending message copied round) →
    ∀ id ∈ round.failed, ∃ line, h.lines id = some line ∧ line.isOpen = false
  gone : ∀ number message copied failed, h.calls number = some (.returned message copied failed) →
    ∀ id ∈ failed, id ∉ h.members ∧ ∃ line, h.lines id = some line ∧ line.isOpen = false

theorem shut_later (roll : Roll h) (step : Step h deed k)
    (there : ∃ line, h.lines id = some line ∧ line.isOpen = false) :
    ∃ line, k.lines id = some line ∧ line.isOpen = false := by
  obtain ⟨old, known, closed⟩ := there
  obtain ⟨new, now, turn⟩ := line_step roll.numbered step known
  exact ⟨new, now, (turn.onward.shut closed).1⟩

theorem member_before (step : Step h deed k) {line : Line} (known : h.lines id = some line)
    (numbered : ∀ id line, h.lines id = some line → id < h.nextId) (inside : id ∈ k.members) :
    id ∈ h.members := by
  have turn := members_step step
  generalize k.members = members at turn inside
  cases turn with
  | kept => exact inside
  | registered =>
    rcases List.mem_append.mp inside with before | own
    next => exact before
    next =>
      rw [List.mem_singleton.mp own] at known
      exact absurd (numbered _ line known) (Nat.lt_irrefl _)
  | left | returned => exact (List.mem_filter.mp inside).1
  | disposed => cases inside

theorem pruned_step (roll : Roll h) (pruned : Pruned h) (step : Step h deed k) : Pruned k where
  shut := by
    intro number message copied round there id inside
    rcases call_new step there with ⟨old, before⟩ | ⟨_, begun⟩
    next =>
      obtain ⟨new, now, turn⟩ := call_step step before
      cases there.symm.trans now
      cases turn with
      | kept => exact shut_later roll step (pruned.shut number _ _ _ before id inside)
      | wrote _ _ old => exact shut_later roll step (pruned.shut number _ _ _ before id inside)
      | shut _ _ old own by_whom =>
        rcases List.mem_append.mp inside with earlier | last
        next => exact shut_later roll step (pruned.shut number _ _ _ before id earlier)
        next =>
          rw [List.mem_singleton.mp last]
          subst by_whom
          cases step with
          | shut _ _ _ _ _ line => exact ⟨line.close, setLine_same .., rfl⟩
    next =>
      cases begun with
      | called => cases inside
  gone := by
    intro number message copied failed there id inside
    rcases call_new step there with ⟨old, before⟩ | ⟨_, begun⟩
    next =>
      obtain ⟨new, now, turn⟩ := call_step step before
      cases there.symm.trans now
      cases turn with
      | kept =>
        obtain ⟨out, line, known, closed⟩ := pruned.gone number _ _ _ before id inside
        exact ⟨fun back => out (member_before step known roll.numbered back),
          shut_later roll step ⟨line, known, closed⟩⟩
      | returned _ _ round own =>
        have closed := pruned.shut number _ _ _ before id inside
        refine ⟨?_, shut_later roll step closed⟩
        subst own
        cases step with
        | returned _ _ _ _ under_way =>
          cases before.symm.trans under_way
          simp [setCall, without, inside]
    next => cases begun

theorem trace_pruned (trace : Trace Step start deeds h) : Pruned h := by
  induction trace with
  | start => exact ⟨nofun, nofun⟩
  | next trace last ih => exact pruned_step (trace_books trace).roll ih last

theorem call_removes (step : Step g deed k) (trace : Trace Step k after h)
    (own : deed.call? = some number) (inside : id ∈ g.members) :
    id ∉ k.members ↔ deed = .returned number ∧ ∃ message copied failed,
      h.calls number = some (.returned message copied failed) ∧ id ∈ failed := by
  have turn := members_step step
  generalize same : k.members = members at turn
  cases turn with
  | kept deed aside => simp [inside, aside]
  | registered | left | disposed => cases own
  | returned other message copied round under_way done =>
    cases own
    have now : k.calls number = some (.returned message copied round.failed) := by
      cases step with
      | returned _ _ _ _ under_way' =>
        cases under_way.symm.trans under_way'
        exact setCall_same ..
    have last := returned_run trace now
    simp [inside, last]

end Pruning

-- The client has received the message of the call: its frame was written once, and arrived in whole behind all
-- that was written before.
def Received (deeds : List Deed) (h : Exchange) (number : Nat) (message : Message) (id : Nat) : Prop :=
  ∃ text frame before after line, message.encode = .ok text ∧ Frame.write text = .ok frame ∧
    deeds = before ++ .wrote number id frame true :: after ∧
    (∀ piece arrived, .wrote number id piece arrived ∉ before ++ after) ∧
    h.lines id = some line ∧ stream id before ++ frame <+: line.sent

structure Delivered (deeds : List Deed) (h : Exchange) (number : Nat) (message : Message)
    (copied failed : List Nat) : Prop where
  copy : ∃ before after g, deeds = before ++ .called number :: after ∧
    Trace Step start before g ∧ copied = g.members
  distinct : copied.Nodup
  failures : ∀ id, id ∈ failed ↔ ∃ piece, .wrote number id piece false ∈ deeds
  received : ∀ id ∈ copied, id ∉ failed → Received deeds h number message id
  written : ∀ id piece arrived, .wrote number id piece arrived ∈ deeds → id ∈ copied
  shut : ∀ id, .shut number id ∈ deeds ↔ id ∈ failed
  gone : ∀ id ∈ failed, id ∉ h.members ∧ ∃ line, h.lines id = some line ∧ line.isOpen = false
  count : ∃ sent, (Call.returned message copied failed).answer = some (.ok sent) ∧
    sent + failed.length = copied.length

theorem mem_lost {writes : List Write} :
    id ∈ lost writes ↔ ∃ piece, ⟨id, piece, false⟩ ∈ writes := by
  simp only [lost, List.mem_map, List.mem_filter, Bool.not_eq_true']
  constructor
  next =>
    rintro ⟨⟨own, piece, arrived⟩, ⟨inside, rfl⟩, rfl⟩
    exact ⟨piece, inside⟩
  next =>
    rintro ⟨piece, inside⟩
    exact ⟨_, ⟨inside, rfl⟩, rfl⟩

theorem writes_once {piece : Bytes} {arrived : Bool}
    (single : ((writes number deeds).map Write.id).Nodup)
    (inside : ⟨id, piece, arrived⟩ ∈ writes number deeds) :
    ∃ before after, deeds = before ++ .wrote number id piece arrived :: after ∧
      ∀ piece arrived, .wrote number id piece arrived ∉ before ++ after := by
  obtain ⟨before, after, rfl⟩ := List.append_of_mem (mem_writes.mp inside)
  refine ⟨before, after, rfl, ?_⟩
  intro other again there
  have found : id ∈ (writes number (before ++ after)).map Write.id :=
    List.mem_map_of_mem (mem_writes.mpr there)
  have whole : writes number (before ++ .wrote number id piece arrived :: after) =
      writes number before ++ ⟨id, piece, arrived⟩ :: writes number after := by
    simp [writes, Deed.written?]
  rw [whole, List.map_append, List.map_cons, List.nodup_middle, List.nodup_cons,
    ← List.map_append] at single
  rw [writes, List.filterMap_append] at found
  exact single.1 found

theorem trace_delivered (trace : Trace Step start deeds h)
    (there : h.calls number = some (.returned message copied failed)) :
    Delivered deeds h number message copied failed := by
  obtain ⟨text, encoded, distinct, order, lost, shut, whole⟩ :=
    (trace_books trace).calls number _ there
  simp only [List.append_nil, Option.toList_none] at order lost shut
  have among : ∀ id ∈ failed, id ∈ copied := by
    intro id inside
    rw [order]
    exact (lost_sublist _).subset (lost ▸ inside)
  refine ⟨called_run trace there nofun, distinct, ?_, ?_, ?_, ?_,
    (trace_pruned trace).gone number _ _ _ there, ?_⟩
  next =>
    intro id
    rw [← lost, mem_lost]
    exact exists_congr fun piece => mem_writes
  next =>
    intro id inside sane
    rw [order, List.mem_map] at inside
    obtain ⟨⟨_, piece, arrived⟩, written, rfl⟩ := inside
    cases arrived with
    | false => exact absurd (lost ▸ mem_lost.mpr ⟨piece, written⟩) sane
    | true =>
      obtain ⟨before, after, rfl, once⟩ := writes_once (order ▸ distinct) written
      obtain ⟨line, known, sent⟩ := arrived_run trace
      exact ⟨text, piece, before, after, line, encoded, whole _ written rfl, rfl, once, known, sent⟩
  next =>
    intro id piece arrived inside
    rw [order]
    exact List.mem_map_of_mem (mem_writes.mpr inside)
  next =>
    intro id
    rw [← shut]
    exact mem_shuts.symm
  next =>
    have fewer : failed.length ≤ copied.length :=
      calc failed.length = (Exchange.lost (writes number deeds)).length := by rw [lost]
        _ ≤ ((writes number deeds).map Write.id).length := (lost_sublist _).length_le
        _ = copied.length := by rw [← order]
    exact ⟨copied.length - failed.length, rfl, Nat.sub_add_cancel fewer⟩

theorem trace_refused (trace : Trace Step start deeds h) {call : Call}
    (there : h.calls number = some call) {fault : Fault} (unencoded : call.message.encode = .error fault) :
    call = .refused call.message fault ∧
      ∀ deed ∈ deeds, deed.call? = some number → deed = .refused number := by
  have tallies := (trace_books trace).calls number call there
  cases call with
  | refused message given =>
    obtain ⟨same, alone⟩ := tallies
    cases same.symm.trans unencoded
    exact ⟨rfl, alone⟩
  | sending message copied round => cases tallies.encoded.symm.trans unencoded
  | returned message copied failed =>
    obtain ⟨text, tally⟩ := tallies
    cases tally.encoded.symm.trans unencoded

theorem messages_reach_all_but_the_failed (trace : Trace Step start deeds h) :
    h.members.Nodup ∧
    (∀ number message copied failed, h.calls number = some (.returned message copied failed) →
      Delivered deeds h number message copied failed) ∧
    (∀ number message copied round, h.calls number = some (.sending message copied round) →
      ∃ k failed, Serves number h k ∧ k.calls number = some (.returned message copied failed)) ∧
    (∀ number call fault, h.calls number = some call → call.message.encode = .error fault →
      call = .refused call.message fault ∧
        ∀ deed ∈ deeds, deed.call? = some number → deed = .refused number) ∧
    ∀ first g deed k last number id, Trace Step start first g → Step g deed k →
      Trace Step k last h → deed.call? = some number → id ∈ g.members →
      (id ∉ k.members ↔ deed = .returned number ∧ ∃ message copied failed,
        h.calls number = some (.returned message copied failed) ∧ id ∈ failed) := by
  have roll := (trace_books trace).roll
  refine ⟨roll.single, ?_, ?_, ?_, ?_⟩
  next =>
    intro number message copied failed there
    exact trace_delivered trace there
  next =>
    intro number message copied round there
    exact call_returns roll there
  next =>
    intro number call fault there unencoded
    exact trace_refused trace there unencoded
  next =>
    intro first g deed k last number id _ step rest own inside
    exact call_removes step rest own inside

/-- Two messages under way at once that both fail for one client and both reach another. -/
theorem two_messages_fail_for_one_client : ∃ deeds h, Trace Step start deeds h ∧ h.members = [2] ∧
    Delivered deeds h 1 (.version 7) [1, 2] [1] ∧ Delivered deeds h 2 (.version 7) [1, 2] [1] := by
  obtain ⟨text, encoded, none, all, others⟩ : ∃ text, (Message.version 7).encode = .ok text ∧
      (∀ outlet : Outlet, (outlet.write text 0).2 = false) ∧
      (Outlet.empty.write text 100).2 = true ∧
      ((Outlet.empty.write text 100).1.write text 100).2 = true :=
    ⟨_, rfl, Outlet.write_nowhere _, by decide, by decide⟩
  have stuck (line : Line) : ∃ piece,
      line.Writes text { line with outlet := (line.outlet.write text 0).1 } piece false :=
    Line.writes_of (fun _ => rfl) (Prod.ext rfl (none line.outlet))
  obtain ⟨lost, one⟩ := stuck .fresh
  obtain ⟨more, two⟩ := stuck { Line.fresh with outlet := (Outlet.empty.write text 0).1 }.close
  obtain ⟨frame, three⟩ : ∃ piece,
      Line.fresh.Writes text ⟨(Outlet.empty.write text 100).1, true⟩ piece true :=
    Line.writes_of nofun (Prod.ext rfl all)
  obtain ⟨last, four⟩ : ∃ piece, Line.Writes ⟨(Outlet.empty.write text 100).1, true⟩ text
      ⟨((Outlet.empty.write text 100).1.write text 100).1, true⟩ piece true :=
    Line.writes_of nofun (Prod.ext rfl others)
  have trace := trace_single (.admitted rfl rfl : Step start _ _)
    |>.next (.registered [] rfl)
    |>.next (.welcomed 1 rfl)
    |>.next (.admitted rfl rfl)
    |>.next (.registered [] rfl)
    |>.next (.welcomed 2 rfl)
    |>.next (.called 1 (.version 7) text rfl encoded)
    |>.next (.called 2 (.version 7) text rfl encoded)
    |>.next (.wrote 1 (.version 7) [1, 2] _ 1 [2] .fresh _ lost false rfl rfl rfl rfl nofun one)
    |>.next (.shut 1 (.version 7) [1, 2] _ 1 _ rfl rfl rfl)
    |>.next (.wrote 2 (.version 7) [1, 2] _ 1 [2] _ _ more false rfl rfl rfl rfl nofun two)
    |>.next (.wrote 1 (.version 7) [1, 2] _ 2 [] .fresh _ frame true rfl rfl rfl rfl nofun three)
    |>.next (.returned 1 (.version 7) [1, 2] _ rfl ⟨rfl, rfl⟩)
    |>.next (.shut 2 (.version 7) [1, 2] _ 1 _ rfl rfl rfl)
    |>.next (.wrote 2 (.version 7) [1, 2] _ 2 [] _ _ last true rfl rfl rfl rfl nofun four)
    |>.next (.returned 2 (.version 7) [1, 2] _ rfl ⟨rfl, rfl⟩)
  have outcome := messages_reach_all_but_the_failed trace
  exact ⟨_, _, trace, rfl, outcome.2.1 1 (.version 7) [1, 2] [1] rfl,
    outcome.2.1 2 (.version 7) [1, 2] [1] rfl⟩

end TemplateSync.Exchange
