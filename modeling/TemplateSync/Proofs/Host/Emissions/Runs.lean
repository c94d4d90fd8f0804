import TemplateSync.Host.Fanout
import TemplateSync.Proofs.Host.Emissions

set_option autoImplicit false

namespace TemplateSync

namespace Batch

variable {σ : Type}

def settle (broadcaster : Broadcaster σ) (results : List (ProjectDescriptor × Emission)) : Act σ (Option Nat) := do
  if results.any fun (_, emission) => emission = .crashed then return none
  else return some (← sendAll broadcaster results)

theorem run_eq (batch : Batch) (workspace : Workspace σ) (broadcaster : Broadcaster σ) :
    batch.run workspace broadcaster = emitAll workspace batch.projects >>= settle broadcaster := rfl

structure Follows {α : Type} (act : Act σ α) (w v : Work σ) : Prop where
  world : v.world = (act w.world).state
  log : v.log = w.log ++ (act w.world).events

section Follows

variable {α β : Type} {act : Act σ α} {next : α → Act σ β} {w v k : Work σ}

theorem follows_pure (value : α) (w : Work σ) : Follows (pure value) w w :=
  ⟨rfl, (List.append_nil _).symm⟩

theorem Follows.bind (one : Follows act w v) (two : Follows (next (act w.world).value) v k) :
    Follows (act >>= next) w k where
  world := by rw [two.world, one.world]; rfl
  log := by rw [two.log, one.log, one.world, List.append_assoc]; rfl

end Follows

section Runs

variable {workspace : Workspace σ} {broadcaster : Broadcaster σ} {batch : Batch} {labels : List (Effort σ)}
  {results : List (ProjectDescriptor × Emission)} {w : Work σ}

theorem sendAll_trace (workspace : Workspace σ) (broadcaster : Broadcaster σ)
    (results : List (ProjectDescriptor × Emission)) {w : Work σ} {count : Nat}
    (sending : w.stage = .sending results count) :
    ∃ v, Trace (Step workspace broadcaster) w (List.replicate results.length .dealt) v ∧
      v.stage = .sending [] (count + (sendAll broadcaster results w.world).value) ∧
      Follows (sendAll broadcaster results) w v := by
  induction results generalizing w count with
  | nil => exact ⟨w, .start, sending, follows_pure 0 w⟩
  | cons result results ih =>
    obtain ⟨v, trace, stage, follows⟩ := ih (w := w.deal broadcaster result results count) rfl
    refine ⟨v, trace_cons.mpr ⟨_, .dealt result results count sending, trace⟩, ?_, ?_⟩
    next =>
      rw [stage, Nat.add_assoc]
      rfl
    next =>
      have dealt : Follows (sendOne broadcaster result.1 result.2) w (w.deal broadcaster result results count) :=
        ⟨rfl, rfl⟩
      exact dealt.bind (follows.bind (follows_pure _ v))

theorem settle_trace (workspace : Workspace σ) (broadcaster : Broadcaster σ)
    (emitting : w.stage = .emitting (doneAll results)) :
    ∃ labels v, Trace (Step workspace broadcaster) w labels v ∧ (∀ label ∈ labels, label.finishedAt? = none) ∧
      v.stage = .ended (settle broadcaster results w.world).value ∧ Follows (settle broadcaster results) w v := by
  by_cases crash : ∃ result ∈ results, result.2 = .crashed
  next =>
    have sees : (results.any fun (_, emission) => emission = .crashed) = true := by simpa using crash
    obtain ⟨⟨project, emission⟩, inside, rfl⟩ := crash
    rw [settle, if_pos sees]
    refine ⟨_, _, trace_single (.crashed _ project emitting (List.mem_map.mpr ⟨_, inside, rfl⟩)), ?_, rfl, ?_⟩
    next => simp [Effort.finishedAt?]
    next => exact ⟨rfl, (List.append_nil _).symm⟩
  next =>
    have sees : (results.any fun (_, emission) => emission = .crashed) ≠ true := by simpa using crash
    have intact : ∀ result ∈ results, result.2 ≠ .crashed := fun result inside same => crash ⟨result, inside, same⟩
    obtain ⟨v, trace, stage, follows⟩ := sendAll_trace workspace broadcaster results
      (w := { w with stage := .sending results 0 }) rfl
    rw [settle, if_neg sees]
    refine ⟨_, _, (trace_cons.mpr ⟨_, .gathered results emitting intact, trace⟩).next (.ended _ stage), ?_, ?_, ?_⟩
    next => simp +contextual [Effort.finishedAt?, or_imp]
    next => rw [Nat.zero_add]; rfl
    next =>
      have ended := follows.bind (follows_pure _ v)
      exact ⟨ended.world, ended.log⟩

theorem emit_trace (workspace : Workspace σ) (broadcaster : Broadcaster σ) (project : ProjectDescriptor)
    (projects : List ProjectDescriptor) (done : List (ProjectDescriptor × Emission)) {w : Work σ}
    (emitting : w.stage = .emitting (doneAll done ++ unbegun (project :: projects))) :
    ∃ labels u v, Trace (Step workspace broadcaster) w labels v ∧
      v.stage = .emitting (doneAll (done ++ [(project, (workspace.emit project w.world).value)]) ++ unbegun projects) ∧
      Follows (Act.say (.compiling project.name)) w u ∧ Follows (workspace.emit project) u v := by
  let place := (doneAll done).length
  have there (slot : ProjectDescriptor × Progress) :
      (doneAll done ++ slot :: unbegun projects)[place]? = some slot := by
    rw [List.getElem?_append_right (Nat.le_refl _), Nat.sub_self, List.getElem?_cons_zero]
  have changed (slot new : ProjectDescriptor × Progress) :
      (doneAll done ++ slot :: unbegun projects).set place new = doneAll done ++ new :: unbegun projects := by
    rw [List.set_append_right place new (Nat.le_refl _), Nat.sub_self, List.set_cons_zero]
  have begun : Step workspace broadcaster w (.begun place) _ := .begun _ place project emitting (there _)
  have running : (w.begin _ place project).stage = _ := congrArg Stage.emitting (changed (project, .waiting) _)
  have finished : Step workspace broadcaster _ _ _ := .finished _ place project running (there _)
  refine ⟨_, w.begin _ place project, _, (trace_single begun).next finished, ?_, ⟨rfl, rfl⟩, ⟨rfl, rfl⟩⟩
  simp only [Work.finish, changed]
  simp [doneAll, Work.begin]

theorem emitAll_trace (workspace : Workspace σ) (broadcaster : Broadcaster σ) (projects : List ProjectDescriptor)
    (done : List (ProjectDescriptor × Emission)) {w : Work σ}
    (emitting : w.stage = .emitting (doneAll done ++ unbegun projects)) :
    ∃ labels v, Trace (Step workspace broadcaster) w labels v ∧
      v.stage = .emitting (doneAll (done ++ (emitAll workspace projects w.world).value)) ∧
      Follows (emitAll workspace projects) w v := by
  induction projects generalizing w done with
  | nil =>
    refine ⟨[], w, .start, ?_, follows_pure _ w⟩
    rw [emitting]
    exact congrArg Stage.emitting ((List.append_nil _).trans (congrArg doneAll (List.append_nil done).symm))
  | cons project projects ih =>
    obtain ⟨first, u, v, one, stage, said, emitted⟩ :=
      emit_trace workspace broadcaster project projects done emitting
    obtain ⟨last, k, rest, ended, follows⟩ := ih _ stage
    refine ⟨first ++ last, k, one.trans rest, ?_, ?_⟩
    next =>
      rw [ended, List.append_assoc, emitted.world, said.world]
      rfl
    next =>
      have own : Follows (do
          let emission ← workspace.emit project
          let rest ← emitAll workspace projects
          return (project, emission) :: rest) u k :=
        emitted.bind (follows.bind (follows_pure _ k))
      exact said.bind own

theorem run_is_a_trace (workspace : Workspace σ) (broadcaster : Broadcaster σ) (batch : Batch) (world : σ) :
    ∃ labels w, Trace (Step workspace broadcaster) (start batch world) labels w ∧
      w.stage = .ended (batch.run workspace broadcaster world).value ∧
      Follows (batch.run workspace broadcaster) (start batch world) w := by
  obtain ⟨first, middle, emits, emitting, emitted⟩ :=
    emitAll_trace workspace broadcaster batch.projects [] (w := start batch world) rfl
  obtain ⟨last, w, sends, -, ended, sent⟩ := settle_trace workspace broadcaster emitting
  rw [run_eq]
  refine ⟨first ++ last, w, emits.trans sends, ?_, emitted.bind sent⟩
  rw [ended, emitted.world]
  rfl

end Runs

structure Possible (workspace : Workspace σ) (batch : Batch) (results : List (ProjectDescriptor × Emission)) :
    Prop where
  projects : results.map Prod.fst = batch.projects
  own : ∀ result ∈ results, ∃ seen, (workspace.emit result.1 seen).value = result.2
  intact : ∀ result ∈ results, result.2 ≠ .crashed

-- The slots of a batch whose chosen places are still to come further.
def layer (before after : Emission → Progress) (results : List (ProjectDescriptor × Emission)) (chosen : List Nat) :
    List (ProjectDescriptor × Progress) :=
  results.mapIdx fun place result => (result.1, if place ∈ chosen then before result.2 else after result.2)

def Advances (workspace : Workspace σ) (broadcaster : Broadcaster σ) (before after : Emission → Progress)
    (results : List (ProjectDescriptor × Emission)) (mark : Nat → List Nat) : Prop :=
  ∀ (w : Work σ) (slots : List (ProjectDescriptor × Progress)) (place : Nat), ∀ result ∈ results,
    w.stage = .emitting slots → slots[place]? = some (result.1, before result.2) →
    ∃ labels v, Trace (Step workspace broadcaster) w labels v ∧
      v.stage = .emitting (slots.set place (result.1, after result.2)) ∧
      labels.filterMap Effort.finishedAt? = mark place

section Orders

variable {workspace : Workspace σ} {broadcaster : Broadcaster σ} {batch : Batch}
  {results : List (ProjectDescriptor × Emission)} {before after : Emission → Progress}

theorem layer_get (before after : Emission → Progress) (results : List (ProjectDescriptor × Emission))
    (chosen : List Nat) (place : Nat) :
    (layer before after results chosen)[place]? = results[place]?.map fun result =>
      (result.1, if place ∈ chosen then before result.2 else after result.2) :=
  List.getElem?_mapIdx

theorem layer_none (before after : Emission → Progress) (results : List (ProjectDescriptor × Emission)) :
    layer before after results [] = results.map fun result => (result.1, after result.2) := by
  apply List.ext_getElem?
  intro place
  simp [layer_get]

theorem layer_all (before after : Emission → Progress) {chosen : List Nat}
    (all : ∀ place < results.length, place ∈ chosen) :
    layer before after results chosen = results.map fun result => (result.1, before result.2) := by
  apply List.ext_getElem?
  intro place
  rw [layer_get, List.getElem?_map]
  by_cases inside : place < results.length
  next => simp only [all place inside, if_true]
  next => simp [List.getElem?_eq_none (Nat.le_of_not_lt inside)]

theorem layer_set {place : Nat} {result : ProjectDescriptor × Emission} {rest : List Nat}
    (there : results[place]? = some result) (new : place ∉ rest) :
    (layer before after results (place :: rest)).set place (result.1, after result.2) =
      layer before after results rest := by
  apply List.ext_getElem?
  intro other
  rw [List.getElem?_set, layer_get, layer_get]
  by_cases same : place = other
  next =>
    obtain ⟨inside, -⟩ := List.getElem?_eq_some_iff.mp there
    subst same
    rw [there]
    simp [layer, inside, new]
  next => simp [same, Ne.symm same]

theorem advance_all {mark : Nat → List Nat} (advances : Advances workspace broadcaster before after results mark)
    {places : List Nat} (once : places.Nodup) (all : ∀ place ∈ places, place < results.length) {w : Work σ}
    (emitting : w.stage = .emitting (layer before after results places)) :
    ∃ labels v, Trace (Step workspace broadcaster) w labels v ∧
      v.stage = .emitting (layer before after results []) ∧
      labels.filterMap Effort.finishedAt? = places.flatMap mark := by
  induction places generalizing w with
  | nil => exact ⟨[], w, .start, emitting, rfl⟩
  | cons place places ih =>
    obtain ⟨new, later⟩ := List.nodup_cons.mp once
    obtain ⟨result, there⟩ : ∃ result, results[place]? = some result :=
      ⟨_, List.getElem?_eq_getElem (all place List.mem_cons_self)⟩
    have slot : (layer before after results (place :: places))[place]? = some (result.1, before result.2) := by
      rw [layer_get, there, Option.map_some, if_pos List.mem_cons_self]
    obtain ⟨first, v, one, stage, own⟩ := advances w _ place result (List.mem_of_getElem? there) emitting slot
    rw [layer_set there new] at stage
    obtain ⟨last, k, rest, ended, others⟩ :=
      ih later (fun other inside => all other (List.mem_cons_of_mem _ inside)) stage
    refine ⟨first ++ last, k, one.trans rest, ended, ?_⟩
    rw [List.filterMap_append, own, others, List.flatMap_cons]

theorem begin_advances (workspace : Workspace σ) (broadcaster : Broadcaster σ)
    (results : List (ProjectDescriptor × Emission)) :
    Advances workspace broadcaster (fun _ => .waiting) (fun _ => .running) results fun _ => [] := by
  intro w slots place result _ emitting waiting
  exact ⟨_, _, trace_single (.begun slots place result.1 emitting waiting), rfl, rfl⟩

theorem finish_advances (broadcaster : Broadcaster σ)
    (own : ∀ result ∈ results, ∃ seen, (workspace.emit result.1 seen).value = result.2) :
    Advances workspace broadcaster (fun _ => .running) .done results fun place => [place] := by
  intro w slots place result inside emitting running
  obtain ⟨seen, came⟩ := own result inside
  have moved : Step workspace broadcaster w (.moved seen) { w with world := seen } := .moved seen
  refine ⟨_, _, (trace_single moved).next (.finished slots place result.1 emitting running), ?_, rfl⟩
  rw [← came]
  rfl

theorem emits_in_any_order (broadcaster : Broadcaster σ) (possible : Possible workspace batch results)
    {order : List Nat} (any : order.Perm (List.range batch.projects.length)) (world : σ) :
    ∃ labels w, Trace (Step workspace broadcaster) (start batch world) labels w ∧
      w.stage = .emitting (doneAll results) ∧ labels.filterMap Effort.finishedAt? = order := by
  have length : batch.projects.length = results.length := by rw [← possible.projects, List.length_map]
  rw [length] at any
  have inside (place : Nat) : place ∈ order ↔ place < results.length := by rw [any.mem_iff, List.mem_range]
  have once : order.Nodup := any.nodup_iff.mpr List.nodup_range
  have waiting : (start batch world).stage =
      .emitting (layer (fun _ => .waiting) (fun _ => .running) results order) := by
    rw [layer_all _ _ fun place => (inside place).mpr, start, unbegun, ← possible.projects, List.map_map]
    rfl
  obtain ⟨first, w, begun, running, nothing⟩ :=
    advance_all (begin_advances workspace broadcaster results) once (fun place => (inside place).mp) waiting
  rw [layer_none, ← layer_all (fun _ => .running) .done fun place => (inside place).mpr] at running
  obtain ⟨last, v, finished, done, marks⟩ :=
    advance_all (finish_advances broadcaster possible.own) once (fun place => (inside place).mp) running
  refine ⟨first ++ last, v, begun.trans finished, ?_, ?_⟩
  next => rw [done, layer_none, doneAll]
  next =>
    rw [List.filterMap_append, nothing, marks]
    simp

theorem results_unique {one two : List (ProjectDescriptor × Emission)}
    (projects : one.map Prod.fst = two.map Prod.fst)
    (same : ∀ place : Nat, (one[place]?.map Prod.snd).toList = (two[place]?.map Prod.snd).toList) : one = two := by
  apply List.ext_getElem?
  intro place
  have first : one[place]?.map Prod.fst = two[place]?.map Prod.fst := by
    rw [← List.getElem?_map, projects, List.getElem?_map]
  have second := same place
  cases left : one[place]? <;> cases right : two[place]? <;> simp_all [Prod.ext_iff]

theorem filterMap_silent {labels : List (Effort σ)} (silent : ∀ label ∈ labels, label.finishedAt? = none)
    (place : Nat) : labels.filterMap (Effort.emissionAt? place) = [] := by
  rw [List.filterMap_eq_nil_iff]
  intro label inside
  have none := silent label inside
  cases label with
  | finished => cases none
  | _ => rfl

theorem accounts_in_any_order (broadcaster : Broadcaster σ) (possible : Possible workspace batch results)
    {order : List Nat} (any : order.Perm (List.range batch.projects.length)) (world : σ) :
    ∃ labels w, Trace (Step workspace broadcaster) (start batch world) labels w ∧
      labels.filterMap Effort.finishedAt? = order ∧ w.stage = .ended (some w.sent.length) ∧
      Accounts workspace broadcaster batch labels w results := by
  obtain ⟨first, w, emits, done, marks⟩ := emits_in_any_order broadcaster possible any world
  obtain ⟨last, v, rest, silent, ended, -⟩ := settle_trace workspace broadcaster done
  have intact : (results.any fun (_, emission) => emission = .crashed) ≠ true := by
    simp only [ne_eq, List.any_eq_true, decide_eq_true_eq]
    rintro ⟨result, inside, crash⟩
    exact possible.intact result inside crash
  rw [settle, if_neg intact] at ended
  have whole := emits.trans rest
  have sound := sound_trace whole
  rw [ended] at sound
  obtain ⟨counted, others, accounts⟩ := ended_accounts sound
  have halfway := sound_trace emits
  rw [done] at halfway
  have same : others = results := by
    apply results_unique (accounts.projects.trans possible.projects.symm)
    intro place
    rw [← accounts.once, List.filterMap_append, filterMap_silent silent, List.append_nil, halfway.1.emissions]
  refine ⟨first ++ last, v, whole, ?_, ?_, same ▸ accounts⟩
  next => rw [List.filterMap_append, marks, List.filterMap_eq_nil_iff.mpr silent, List.append_nil]
  next => rw [ended, ← counted]; rfl

end Orders

theorem emits_are_isolated_and_ordered (workspace : Workspace σ) (broadcaster : Broadcaster σ) (batch : Batch)
    (world : σ) :
    (∀ results, Possible workspace batch results → ∀ order : List Nat,
      order.Perm (List.range batch.projects.length) →
      ∃ labels w, Trace (Step workspace broadcaster) (start batch world) labels w ∧
        labels.filterMap Effort.finishedAt? = order ∧ w.stage = .ended (some w.sent.length) ∧
        Accounts workspace broadcaster batch labels w results) ∧
    (∀ labels w, Trace (Step workspace broadcaster) (start batch world) labels w →
      labels.countP Effort.isOwn ≤ 3 * batch.projects.length + 2 ∧
      ((∃ result, w.stage = .ended result) ∨
        ∃ label v, label.isOwn = true ∧ Step workspace broadcaster w label v) ∧
      ∀ result, w.stage = .ended result → (wait result w.world).value = w.sent.length ∧
        ((∀ place, .finished place .crashed ∉ labels) →
          ∃ results, Accounts workspace broadcaster batch labels w results)) ∧
    ∃ labels w, Trace (Step workspace broadcaster) (start batch world) labels w ∧
      w.stage = .ended (batch.run workspace broadcaster world).value ∧
      Follows (batch.run workspace broadcaster) (start batch world) w := by
  refine ⟨?_, ?_, run_is_a_trace workspace broadcaster batch world⟩
  next => exact fun results possible order any => accounts_in_any_order broadcaster possible any world
  next =>
    intro labels w trace
    have sound := sound_trace trace
    have least := ahead_trace trace
    rw [start, Stage.ahead, unbegun_ahead] at least
    refine ⟨by omega, goes_on workspace broadcaster w, ?_⟩
    intro result ended
    rw [ended] at sound
    refine ⟨wait_counts sound, ?_⟩
    intro intact
    cases result with
    | none =>
      obtain ⟨-, place, crash⟩ := sound
      exact absurd crash (intact place)
    | some count => exact (ended_accounts sound).2

theorem fanout_quiet (message : Message) : Quiet (Fanout.broadcaster.broadcast message) := by
  intro fanout
  simp only [Fanout.broadcaster, Fanout.broadcast, Fanout.send, Act.bind_run]
  cases message.encode with
  | error fault => rfl
  | ok text =>
    rw [List.filter_eq_nil_iff]
    intro event inside
    simp only [Fanout.deliver, Fanout.report, Act.bind_run, Act.pure_run, Act.say_run, List.append_nil, List.mem_append,
      List.mem_map, List.mem_singleton] at inside
    rcases inside with ⟨failed, _, rfl⟩ | rfl
    next => exact Bool.false_ne_true
    next => exact Bool.false_ne_true

section Sample

def library : ProjectDescriptor :=
  ⟨.ofNat 1, "Lib", "/lib/Lib.csproj", []⟩

def faulty : ProjectDescriptor :=
  ⟨.ofNat 2, "Broken", "/broken/Broken.csproj", []⟩

-- The emit of one project fails; the bytes of the others' tell in which world it was.
def sampleWorkspace : Workspace Fanout where
  projects := fun _ => [library, faulty, library]
  emit project := fun fanout =>
    if project.id = faulty.id then ⟨.failed (.config "broken"), [], fanout⟩
    else ⟨.emitted ⟨none, [fanout.nextId.toUInt8]⟩, [], fanout⟩

/-- The same project stands in the batch twice, and its emits finish the other way round. -/
theorem repeated_project_beside_a_failure : ∃ labels w,
    Trace (Step sampleWorkspace Fanout.broadcaster) (start ⟨[library, faulty, library]⟩ .initial) labels w ∧
    labels.filterMap Effort.finishedAt? = [2, 1, 0] ∧
    w.sent = [.metadata ⟨.ofNat 1, "Lib", none, [1]⟩, .metadata ⟨.ofNat 1, "Lib", none, [2]⟩] ∧
    w.log.filter Event.isEmitFailure = [.emitFailed "Broken" (.config "broken")] ∧
    w.stage = .ended (some 2) ∧ (wait (some 2) w.world).value = 2 := by
  let results : List (ProjectDescriptor × Emission) := [(library, .emitted ⟨none, [1]⟩),
    (faulty, .failed (.config "broken")), (library, .emitted ⟨none, [2]⟩)]
  have possible : Possible sampleWorkspace ⟨[library, faulty, library]⟩ results := by
    refine ⟨rfl, ?_, ?_⟩
    next =>
      rw [List.forall_mem_cons, List.forall_mem_cons, List.forall_mem_singleton]
      exact ⟨⟨.initial, rfl⟩, ⟨.initial, rfl⟩, ⟨{ Fanout.initial with nextId := 2 }, rfl⟩⟩
    next => decide
  have order : [2, 1, 0].Perm (List.range 3) := by decide
  have reserved : Reserved sampleWorkspace Fanout.broadcaster := by
    refine ⟨?_, fanout_quiet⟩
    intro project fanout
    by_cases broken : project.id = faulty.id <;> simp [sampleWorkspace, broken]
  obtain ⟨runs, every, -⟩ := emits_are_isolated_and_ordered sampleWorkspace Fanout.broadcaster
    ⟨[library, faulty, library]⟩ .initial
  obtain ⟨labels, w, trace, marks, ended, accounts⟩ := runs results possible [2, 1, 0] order
  have messages := accounts.messages
  have waited := ((every labels w trace).2.2 _ ended).1
  have two : w.sent.length = 2 := by
    rw [messages]
    rfl
  rw [two] at ended waited
  exact ⟨labels, w, trace, marks, messages, accounts.failures reserved, ended, waited⟩

end Sample

end Batch

end TemplateSync
