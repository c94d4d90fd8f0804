import TemplateSync.Host.Ticker
import TemplateSync.Proofs.Trace

set_option autoImplicit false

namespace TemplateSync

def Broadcaster.recorder : Broadcaster (List Message) where
  broadcast message := Act.modify (· ++ [message])
  broadcastSnapshot snapshot := do
    let message ← snapshot
    Act.modify (· ++ [message])

def Event.isEmitFailure : Event → Bool
  | .emitFailed _ _ => true
  | _ => false

namespace Batch

inductive Progress where
  | waiting
  | running
  | done (emission : Emission)

namespace Progress

def emission? : Progress → Option Emission
  | .done emission => some emission
  | _ => none

def ahead : Progress → Nat
  | .waiting => 2
  | .running => 1
  | .done _ => 0

end Progress

inductive Stage where
  | emitting (slots : List (ProjectDescriptor × Progress))
  | sending (rest : List (ProjectDescriptor × Emission)) (count : Nat)
  | ended (result : Option Nat)

def aheadOf : List (ProjectDescriptor × Progress) → Nat
  | [] => 2
  | slot :: slots => slot.2.ahead + 1 + aheadOf slots

def Stage.ahead : Stage → Nat
  | .emitting slots => aheadOf slots
  | .sending rest _ => rest.length + 1
  | .ended _ => 0

structure Work (σ : Type) where
  world : σ
  log : List Event
  sent : List Message
  stage : Stage

inductive Effort (σ : Type) where
  | moved (world : σ)
  | begun (place : Nat)
  | finished (place : Nat) (emission : Emission)
  | gathered
  | crashed
  | dealt
  | ended

namespace Effort

variable {σ : Type}

def isOwn : Effort σ → Bool
  | .moved _ => false
  | _ => true

def finishedAt? : Effort σ → Option Nat
  | .finished place _ => some place
  | _ => none

def emissionAt? (place : Nat) : Effort σ → Option Emission
  | .finished other emission => if other = place then some emission else none
  | _ => none

end Effort

variable {σ : Type}

def unbegun (projects : List ProjectDescriptor) : List (ProjectDescriptor × Progress) :=
  projects.map fun project => (project, .waiting)

def doneAll (results : List (ProjectDescriptor × Emission)) : List (ProjectDescriptor × Progress) :=
  results.map fun result => (result.1, .done result.2)

def start (batch : Batch) (world : σ) : Work σ :=
  ⟨world, [], [], .emitting (unbegun batch.projects)⟩

namespace Work

variable (w : Work σ)

def begin (slots : List (ProjectDescriptor × Progress)) (place : Nat) (project : ProjectDescriptor) : Work σ :=
  { w with
    log := w.log ++ [.compiling project.name]
    stage := .emitting (slots.set place (project, .running)) }

def finish (workspace : Workspace σ) (slots : List (ProjectDescriptor × Progress)) (place : Nat)
    (project : ProjectDescriptor) : Work σ :=
  let emit := workspace.emit project w.world
  { w with
    world := emit.state
    log := w.log ++ emit.events
    stage := .emitting (slots.set place (project, .done emit.value)) }

def deal (broadcaster : Broadcaster σ) (result : ProjectDescriptor × Emission)
    (rest : List (ProjectDescriptor × Emission)) (count : Nat) : Work σ :=
  let one := sendOne broadcaster result.1 result.2 w.world
  { world := one.state
    log := w.log ++ one.events
    sent := (sendOne .recorder result.1 result.2 w.sent).state
    stage := .sending rest (count + one.value) }

end Work

/-- An emit reads and changes the world when it finishes. Between any two steps others may move the world. -/
inductive Step (workspace : Workspace σ) (broadcaster : Broadcaster σ) (w : Work σ) :
    Effort σ → Work σ → Prop where
  | moved (world : σ) : Step workspace broadcaster w (.moved world) { w with world := world }
  | begun (slots : List (ProjectDescriptor × Progress)) (place : Nat) (project : ProjectDescriptor)
      (emitting : w.stage = .emitting slots) (waiting : slots[place]? = some (project, .waiting)) :
      Step workspace broadcaster w (.begun place) (w.begin slots place project)
  | finished (slots : List (ProjectDescriptor × Progress)) (place : Nat) (project : ProjectDescriptor)
      (emitting : w.stage = .emitting slots) (running : slots[place]? = some (project, .running)) :
      Step workspace broadcaster w (.finished place (workspace.emit project w.world).value)
        (w.finish workspace slots place project)
  | gathered (results : List (ProjectDescriptor × Emission)) (emitting : w.stage = .emitting (doneAll results))
      (intact : ∀ result ∈ results, result.2 ≠ .crashed) :
      Step workspace broadcaster w .gathered { w with stage := .sending results 0 }
  -- A crash may end the batch before its other emits are done, or after.
  | crashed (slots : List (ProjectDescriptor × Progress)) (project : ProjectDescriptor)
      (emitting : w.stage = .emitting slots) (crash : (project, .done .crashed) ∈ slots) :
      Step workspace broadcaster w .crashed { w with stage := .ended none }
  | dealt (result : ProjectDescriptor × Emission) (rest : List (ProjectDescriptor × Emission)) (count : Nat)
      (sending : w.stage = .sending (result :: rest) count) :
      Step workspace broadcaster w .dealt (w.deal broadcaster result rest count)
  | ended (count : Nat) (sending : w.stage = .sending [] count) :
      Step workspace broadcaster w .ended { w with stage := .ended (some count) }

def metadata? : ProjectDescriptor × Emission → Option Message
  | (project, .emitted emitted) =>
    some (.metadata ⟨project.id, project.name, emitted.assemblyName, emitted.bytes⟩)
  | _ => none

def failure? : ProjectDescriptor × Emission → Option Event
  | (project, .failed fault) => some (.emitFailed project.name fault)
  | _ => none

def Quiet {α : Type} (act : Act σ α) : Prop :=
  ∀ world, (act world).events.filter Event.isEmitFailure = []

-- Neither an emit itself nor the sending of a message writes the batch's lines on failed emits.
def Reserved (workspace : Workspace σ) (broadcaster : Broadcaster σ) : Prop :=
  (∀ project, Quiet (workspace.emit project)) ∧ ∀ message, Quiet (broadcaster.broadcast message)

/-- What has come of a batch: one emission of each project by its own emit, and the messages and the lines on
failures in the order of the projects. -/
structure Accounts (workspace : Workspace σ) (broadcaster : Broadcaster σ) (batch : Batch)
    (labels : List (Effort σ)) (w : Work σ) (results : List (ProjectDescriptor × Emission)) : Prop where
  projects : results.map Prod.fst = batch.projects
  once : ∀ place, labels.filterMap (Effort.emissionAt? place) = (results[place]?.map Prod.snd).toList
  own : ∀ result ∈ results, ∃ seen, (workspace.emit result.1 seen).value = result.2
  messages : w.sent = results.filterMap metadata?
  failures : Reserved workspace broadcaster → w.log.filter Event.isEmitFailure = results.filterMap failure?

section Sending

variable {broadcaster : Broadcaster σ} {result : ProjectDescriptor × Emission}

theorem sendOne_recorded (result : ProjectDescriptor × Emission) (sent : List Message) :
    (sendOne .recorder result.1 result.2 sent).state = sent ++ (metadata? result).toList := by
  obtain ⟨project, emission⟩ := result
  cases emission <;> simp [sendOne, metadata?, Broadcaster.recorder, message]

theorem sendOne_counted (broadcaster : Broadcaster σ) (result : ProjectDescriptor × Emission) (world : σ) :
    (sendOne broadcaster result.1 result.2 world).value = (metadata? result).toList.length := by
  obtain ⟨project, emission⟩ := result
  cases emission <;> rfl

theorem sendOne_logged (quiet : ∀ message, Quiet (broadcaster.broadcast message)) (world : σ) :
    (sendOne broadcaster result.1 result.2 world).events.filter Event.isEmitFailure = (failure? result).toList := by
  obtain ⟨project, emission⟩ := result
  cases emission with
  | emitted emitted => simp [sendOne, failure?, Event.isEmitFailure, quiet (message project emitted) world]
  | failed fault => rfl
  | crashed => rfl

end Sending

section Slots

variable {slots : List (ProjectDescriptor × Progress)} {slot : ProjectDescriptor × Progress} {place : Nat}

theorem set_splits (there : slots[place]? = some slot) (new : ProjectDescriptor × Progress) :
    ∃ first last, slots = first ++ slot :: last ∧ slots.set place new = first ++ new :: last := by
  obtain ⟨inside, rfl⟩ := List.getElem?_eq_some_iff.mp there
  refine ⟨slots.take place, slots.drop (place + 1), ?_, ?_⟩
  next => rw [List.getElem_cons_drop, List.take_append_drop]
  next => exact List.set_eq_take_append_cons_drop.trans (if_pos inside)

theorem set_projects (there : slots[place]? = some slot) (new : Progress) :
    (slots.set place (slot.1, new)).map Prod.fst = slots.map Prod.fst := by
  obtain ⟨first, last, whole, changed⟩ := set_splits there (slot.1, new)
  rw [changed, whole]
  simp

theorem set_ahead (there : slots[place]? = some slot) {new : Progress} (less : new.ahead < slot.2.ahead) :
    aheadOf (slots.set place (slot.1, new)) < aheadOf slots := by
  obtain ⟨first, last, whole, changed⟩ := set_splits there (slot.1, new)
  rw [changed, whole]
  clear changed whole there
  induction first with
  | nil =>
    simp only [List.nil_append, aheadOf]
    omega
  | cons other first ih =>
    simp only [List.cons_append, aheadOf]
    omega

theorem unbegun_ahead (projects : List ProjectDescriptor) : aheadOf (unbegun projects) = 3 * projects.length + 2 := by
  induction projects with
  | nil => rfl
  | cons project projects ih =>
    simp only [unbegun, List.map_cons, aheadOf, Progress.ahead, List.length_cons] at ih ⊢
    omega

theorem doneAll_ahead (results : List (ProjectDescriptor × Emission)) :
    aheadOf (doneAll results) = results.length + 2 := by
  induction results with
  | nil => rfl
  | cons result results ih =>
    simp only [doneAll, List.map_cons, aheadOf, Progress.ahead, List.length_cons] at ih ⊢
    omega

theorem two_le_aheadOf (slots : List (ProjectDescriptor × Progress)) : 2 ≤ aheadOf slots := by
  induction slots with
  | nil => exact Nat.le_refl _
  | cons slot slots ih =>
    rw [aheadOf]
    omega

end Slots

section Steps

variable {workspace : Workspace σ} {broadcaster : Broadcaster σ} {batch : Batch} {labels : List (Effort σ)}
  {label : Effort σ} {w v : Work σ}

theorem ahead_step (step : Step workspace broadcaster w label v) :
    v.stage.ahead + (if label.isOwn then 1 else 0) ≤ w.stage.ahead := by
  cases step with
  | moved => exact Nat.le_refl _
  | begun slots place project emitting waiting =>
    rw [emitting]
    exact set_ahead waiting (Nat.lt_succ_self 1)
  | finished slots place project emitting running =>
    rw [emitting]
    exact set_ahead running Nat.zero_lt_one
  | gathered results emitting intact =>
    simp only [emitting, Stage.ahead, doneAll_ahead, Effort.isOwn, if_true]
    omega
  | crashed slots project emitting crash =>
    have some := two_le_aheadOf slots
    simp only [emitting, Stage.ahead, Effort.isOwn, if_true]
    omega
  | dealt result rest count sending =>
    rw [sending]
    exact Nat.le_refl _
  | ended count sending =>
    rw [sending]
    exact Nat.le_refl _

theorem ahead_trace (trace : Trace (Step workspace broadcaster) w labels v) :
    v.stage.ahead + labels.countP Effort.isOwn ≤ w.stage.ahead := by
  induction trace with
  | start => exact Nat.le_refl _
  | next _ last ih =>
    have less := ahead_step last
    simp only [List.countP_append, List.countP_singleton]
    omega

theorem doneAll_or (slots : List (ProjectDescriptor × Progress)) :
    (∃ results, slots = doneAll results) ∨
      ∃ (place : Nat) (project : ProjectDescriptor),
        slots[place]? = some (project, .waiting) ∨ slots[place]? = some (project, .running) := by
  induction slots with
  | nil => exact .inl ⟨[], rfl⟩
  | cons slot slots ih =>
    obtain ⟨project, progress⟩ := slot
    cases progress with
    | waiting => exact .inr ⟨0, project, .inl rfl⟩
    | running => exact .inr ⟨0, project, .inr rfl⟩
    | done emission =>
      rcases ih with ⟨results, rfl⟩ | ⟨place, other, unfinished⟩
      next => exact .inl ⟨(project, emission) :: results, rfl⟩
      next => exact .inr ⟨place + 1, other, unfinished⟩

theorem goes_on (workspace : Workspace σ) (broadcaster : Broadcaster σ) (w : Work σ) :
    (∃ result, w.stage = .ended result) ∨
      ∃ label v, label.isOwn = true ∧ Step workspace broadcaster w label v := by
  cases stage : w.stage with
  | emitting slots =>
    right
    rcases doneAll_or slots with ⟨results, rfl⟩ | ⟨place, project, waiting | running⟩
    next =>
      by_cases intact : ∀ result ∈ results, result.2 ≠ .crashed
      next => exact ⟨.gathered, _, rfl, .gathered results stage intact⟩
      next =>
        obtain ⟨⟨project, emission⟩, inside, rfl⟩ : ∃ result ∈ results, result.2 = .crashed := by
          simpa using intact
        exact ⟨.crashed, _, rfl, .crashed _ project stage (List.mem_map.mpr ⟨_, inside, rfl⟩)⟩
    next => exact ⟨.begun place, _, rfl, .begun slots place project stage waiting⟩
    next => exact ⟨.finished place _, _, rfl, .finished slots place project stage running⟩
  | sending rest count =>
    right
    cases rest with
    | nil => exact ⟨.ended, _, rfl, .ended count stage⟩
    | cons result rest => exact ⟨.dealt, _, rfl, .dealt result rest count stage⟩
  | ended result => exact .inl ⟨result, rfl⟩

end Steps

/-- Each place is as far as its emits have come, and they are its own project's. -/
structure Emits (workspace : Workspace σ) (batch : Batch) (labels : List (Effort σ))
    (slots : List (ProjectDescriptor × Progress)) : Prop where
  projects : slots.map Prod.fst = batch.projects
  once : ∀ place, labels.filterMap (Effort.emissionAt? place) =
    (slots[place]?.bind fun slot => slot.2.emission?).toList
  own : ∀ slot ∈ slots, ∀ emission, slot.2 = .done emission →
    ∃ seen, (workspace.emit slot.1 seen).value = emission

structure Tells (workspace : Workspace σ) (broadcaster : Broadcaster σ) (w : Work σ)
    (results : List (ProjectDescriptor × Emission)) : Prop where
  messages : w.sent = results.filterMap metadata?
  failures : Reserved workspace broadcaster → w.log.filter Event.isEmitFailure = results.filterMap failure?

def Sound (workspace : Workspace σ) (broadcaster : Broadcaster σ) (batch : Batch) (labels : List (Effort σ))
    (w : Work σ) : Stage → Prop
  | .emitting slots => Emits workspace batch labels slots ∧ Tells workspace broadcaster w []
  | .sending rest count => ∃ told, Emits workspace batch labels (doneAll (told ++ rest)) ∧
      Tells workspace broadcaster w told ∧ count = w.sent.length
  | .ended (some count) => ∃ results, Emits workspace batch labels (doneAll results) ∧
      Tells workspace broadcaster w results ∧ count = w.sent.length
  | .ended none => w.sent = [] ∧ ∃ place, .finished place .crashed ∈ labels

section Soundness

variable {workspace : Workspace σ} {broadcaster : Broadcaster σ} {batch : Batch} {labels : List (Effort σ)}
  {label : Effort σ} {slots : List (ProjectDescriptor × Progress)}
  {results : List (ProjectDescriptor × Emission)} {w v : Work σ}

theorem filterMap_one {α β : Type} (f : α → Option β) (one : α) : [one].filterMap f = (f one).toList := by
  cases found : f one <;> simp [found]

theorem emissionAt_iff {place : Nat} {emission : Emission} :
    label.emissionAt? place = some emission ↔ label = .finished place emission := by
  cases label <;> simp [Effort.emissionAt?]

theorem emits_start (workspace : Workspace σ) (batch : Batch) :
    Emits workspace batch [] (unbegun batch.projects) where
  projects := by simp [unbegun, Function.comp_def]
  once place := by cases found : batch.projects[place]? <;> simp [unbegun, found, Progress.emission?]
  own := by simp [unbegun]

theorem Emits.aside (emits : Emits workspace batch labels slots) (aside : ∀ place, label.emissionAt? place = none) :
    Emits workspace batch (labels ++ [label]) slots where
  projects := emits.projects
  once place := by simpa [aside] using emits.once place
  own := emits.own

theorem Emits.set {place : Nat} {project : ProjectDescriptor} {progress new : Progress}
    (emits : Emits workspace batch labels slots) (there : slots[place]? = some (project, progress))
    (pending : progress.emission? = none)
    (marked : ∀ other, label.emissionAt? other = if place = other then new.emission? else none)
    (own : ∀ emission, new = .done emission → ∃ seen, (workspace.emit project seen).value = emission) :
    Emits workspace batch (labels ++ [label]) (slots.set place (project, new)) where
  projects := (set_projects there new).trans emits.projects
  once other := by
    obtain ⟨inside, -⟩ := List.getElem?_eq_some_iff.mp there
    rw [List.filterMap_append, emits.once, filterMap_one, marked, List.getElem?_set]
    by_cases same : place = other
    next =>
      subst same
      rw [there]
      simp [pending, inside]
    next => simp [same]
  own slot member := by
    rcases List.mem_or_eq_of_mem_set member with old | rfl
    next => exact emits.own slot old
    next => exact own

theorem Tells.deal (tells : Tells workspace broadcaster w results) (result : ProjectDescriptor × Emission)
    (rest : List (ProjectDescriptor × Emission)) (count : Nat) :
    Tells workspace broadcaster (w.deal broadcaster result rest count) (results ++ [result]) where
  messages := by
    simp only [Work.deal, sendOne_recorded, tells.messages, List.filterMap_append, filterMap_one]
  failures reserved := by
    simp only [Work.deal, List.filter_append, sendOne_logged reserved.2, tells.failures reserved,
      List.filterMap_append, filterMap_one]

theorem Tells.same (tells : Tells workspace broadcaster w results) (sent : v.sent = w.sent) (log : v.log = w.log) :
    Tells workspace broadcaster v results where
  messages := sent.trans tells.messages
  failures reserved := by rw [log, tells.failures reserved]

-- A step that is no end of an emit keeps what was so, as long as it sends and logs nothing.
theorem Sound.aside {stage : Stage} (sound : Sound workspace broadcaster batch labels w stage)
    (aside : ∀ place, label.emissionAt? place = none) (sent : v.sent = w.sent) (log : v.log = w.log) :
    Sound workspace broadcaster batch (labels ++ [label]) v stage := by
  cases stage with
  | emitting slots =>
    obtain ⟨emits, tells⟩ := sound
    exact ⟨emits.aside aside, tells.same sent log⟩
  | sending rest count =>
    obtain ⟨told, emits, tells, counted⟩ := sound
    exact ⟨told, emits.aside aside, tells.same sent log, sent ▸ counted⟩
  | ended result =>
    cases result with
    | none =>
      obtain ⟨nothing, place, inside⟩ := sound
      exact ⟨sent.trans nothing, place, List.mem_append_left _ inside⟩
    | some count =>
      obtain ⟨told, emits, tells, counted⟩ := sound
      exact ⟨told, emits.aside aside, tells.same sent log, sent ▸ counted⟩

theorem Emits.crash {project : ProjectDescriptor} (emits : Emits workspace batch labels slots)
    (crash : (project, .done .crashed) ∈ slots) : ∃ place, .finished place .crashed ∈ labels := by
  obtain ⟨place, there⟩ := List.mem_iff_getElem?.mp crash
  have once := emits.once place
  rw [there] at once
  have came : Emission.crashed ∈ labels.filterMap (Effort.emissionAt? place) := by simp [once, Progress.emission?]
  obtain ⟨label, inside, same⟩ := List.mem_filterMap.mp came
  rw [emissionAt_iff.mp same] at inside
  exact ⟨place, inside⟩

theorem sound_step (sound : Sound workspace broadcaster batch labels w w.stage)
    (step : Step workspace broadcaster w label v) :
    Sound workspace broadcaster batch (labels ++ [label]) v v.stage := by
  cases step with
  | moved world => exact sound.aside (fun place => rfl) rfl rfl
  | begun slots place project emitting waiting =>
    rw [emitting] at sound
    obtain ⟨emits, tells⟩ := sound
    refine ⟨emits.set waiting rfl (fun other => (ite_self none).symm) nofun, tells.messages, ?_⟩
    intro reserved
    simpa [Work.begin, Event.isEmitFailure] using tells.failures reserved
  | finished slots place project emitting running =>
    rw [emitting] at sound
    obtain ⟨emits, tells⟩ := sound
    refine ⟨emits.set running rfl (fun other => rfl) ?_, tells.messages, ?_⟩
    next =>
      intro emission same
      cases same
      exact ⟨w.world, rfl⟩
    next =>
      intro reserved
      simpa [Work.finish, reserved.1 project w.world] using tells.failures reserved
  | gathered results emitting intact =>
    rw [emitting] at sound
    obtain ⟨emits, tells⟩ := sound
    have sending : Sound workspace broadcaster batch labels w (.sending results 0) :=
      ⟨[], emits, tells, by simp [tells.messages]⟩
    exact sending.aside (fun place => rfl) rfl rfl
  | crashed slots project emitting crash =>
    rw [emitting] at sound
    obtain ⟨emits, tells⟩ := sound
    have ended : Sound workspace broadcaster batch labels w (.ended none) := ⟨tells.messages, emits.crash crash⟩
    exact ended.aside (fun place => rfl) rfl rfl
  | dealt result rest count sending =>
    rw [sending] at sound
    obtain ⟨told, emits, tells, counted⟩ := sound
    rw [List.append_cons] at emits
    refine ⟨told ++ [result], emits.aside fun place => rfl, tells.deal result rest count, ?_⟩
    simp only [Work.deal, counted, sendOne_recorded, sendOne_counted, List.length_append]
  | ended count sending =>
    rw [sending] at sound
    obtain ⟨told, emits, tells, counted⟩ := sound
    rw [List.append_nil] at emits
    have ended : Sound workspace broadcaster batch labels w (.ended (some count)) := ⟨told, emits, tells, counted⟩
    exact ended.aside (fun place => rfl) rfl rfl

theorem sound_trace {world : σ} (trace : Trace (Step workspace broadcaster) (start batch world) labels w) :
    Sound workspace broadcaster batch labels w w.stage := by
  induction trace with
  | start => exact ⟨emits_start workspace batch, rfl, fun _ => rfl⟩
  | next _ last ih => exact sound_step ih last

theorem Emits.emissions (emits : Emits workspace batch labels (doneAll results)) (place : Nat) :
    labels.filterMap (Effort.emissionAt? place) = (results[place]?.map Prod.snd).toList := by
  rw [emits.once, doneAll, List.getElem?_map]
  cases results[place]? <;> rfl

theorem ended_accounts {count : Nat} (sound : Sound workspace broadcaster batch labels w (.ended (some count))) :
    count = w.sent.length ∧ ∃ results, Accounts workspace broadcaster batch labels w results := by
  obtain ⟨results, emits, tells, counted⟩ := sound
  refine ⟨counted, results, ?_, emits.emissions, ?_, tells.messages, tells.failures⟩
  next => simpa [doneAll, Function.comp_def] using emits.projects
  next =>
    intro result inside
    exact emits.own _ (List.mem_map_of_mem inside) result.2 rfl

theorem wait_counts {result : Option Nat} (sound : Sound workspace broadcaster batch labels w (.ended result)) :
    (wait result w.world).value = w.sent.length := by
  cases result with
  | none =>
    rw [sound.1]
    rfl
  | some count => exact (ended_accounts sound).1

end Soundness

end Batch

end TemplateSync
