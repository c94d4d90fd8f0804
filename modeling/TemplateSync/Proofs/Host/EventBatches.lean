import Mathlib.Data.List.Nodup
import TemplateSync.Proofs.Host.Roots

set_option autoImplicit false

namespace TemplateSync

namespace DirtyFlags

def markAll (flags : DirtyFlags) (changes : List Change) : DirtyFlags :=
  changes.foldl mark flags

def union (one two : DirtyFlags) : DirtyFlags :=
  ⟨one.solution || two.solution, one.metadata || two.metadata⟩

def unionAll (all : List DirtyFlags) : DirtyFlags :=
  all.foldr union clean

theorem markAll_eq (flags : DirtyFlags) (changes : List Change) :
    flags.markAll changes = flags.union ⟨changes.any Change.isStructural, changes.any fun _ => true⟩ := by
  induction changes generalizing flags with
  | nil => simp [markAll, union]
  | cons change changes ih =>
    have rest := ih (flags.mark change)
    simp only [markAll, List.foldl_cons] at rest ⊢
    rw [rest]
    simp [union, mark, Bool.or_assoc]

theorem unionAll_eq (all : List DirtyFlags) :
    unionAll all = ⟨all.any DirtyFlags.solution, all.any DirtyFlags.metadata⟩ := by
  induction all with
  | nil => rfl
  | cons flags all ih =>
    rw [unionAll, List.foldr_cons, ← unionAll, ih]
    rfl

end DirtyFlags

def Event.isReading : Event → Bool
  | .manifestReloaded _ | .reloadFailed _ => true
  | _ => false

def Outcome.readings {σ α : Type} (done : Outcome σ α) : Nat :=
  done.events.countP Event.isReading

namespace Watch

-- What an event marks when it is looked at alone.
def marks (manifest : Manifest) (event : FileEvent) : DirtyFlags :=
  if event.continuous then .clean
  else DirtyFlags.clean.markAll (classify? manifest event.path).toList

def Touches (manifest : Manifest) (events : List FileEvent) : Prop :=
  ∃ event ∈ events, event.continuous = false ∧ event.path.Same manifest.path

theorem marks_eq (manifest : Manifest) (event : FileEvent) :
    marks manifest event =
      ⟨!event.continuous && (classify? manifest event.path).any Change.isStructural,
        !event.continuous && (classify? manifest event.path).any fun _ => true⟩ := by
  rw [marks]
  cases event.continuous
  next =>
    rw [DirtyFlags.markAll_eq]
    cases classify? manifest event.path <;> simp [DirtyFlags.union, DirtyFlags.clean]
  next => rfl

theorem classify_solution_iff {manifest : Manifest} {path : Path} :
    classify? manifest path = some .solutionChanged ↔ path.Same manifest.path := by
  rw [classify?]
  split
  next same => simp [same]
  next other => split_ifs <;> simp [other]

/-- What a batch comes to, event by event: the changes told, the manifest then, and how often it was read. -/
inductive Handles (files : FileTree) :
    Manifest → List Change → List FileEvent → List Change → Manifest → Nat → Prop where
  | done (manifest : Manifest) (told : List Change) : Handles files manifest told [] told.reverse manifest 0
  | skips {manifest after : Manifest} {told value : List Change} {events : List FileEvent} {readings : Nat}
      (event : FileEvent) (idle : event.continuous = false → ∀ change,
        classify? manifest event.path = some change → change ∈ told)
      (rest : Handles files manifest told events value after readings) :
      Handles files manifest told (event :: events) value after readings
  | reads {manifest after : Manifest} {told value : List Change} {events : List FileEvent} {readings : Nat}
      (event : FileEvent) (live : event.continuous = false) (same : event.path.Same manifest.path)
      (new : .solutionChanged ∉ told)
      (rest : Handles files (Manifest.reload files manifest).state (.solutionChanged :: told) events value after
        readings) :
      Handles files manifest told (event :: events) value after (readings + 1)
  | tells {manifest after : Manifest} {told value : List Change} {events : List FileEvent} {readings : Nat}
      (event : FileEvent) (change : Change) (live : event.continuous = false)
      (found : classify? manifest event.path = some change) (other : change ≠ .solutionChanged)
      (new : change ∉ told) (rest : Handles files manifest (change :: told) events value after readings) :
      Handles files manifest told (event :: events) value after readings

theorem reloadFor_solution (files : FileTree) (manifest : Manifest) :
    let read := reloadFor files .solutionChanged manifest
    read.state = (Manifest.reload files manifest).state ∧ read.events.countP Event.isReading = 1 := by
  intro read
  simp only [read, reloadFor, if_true, Act.bind_run, Manifest.reload]
  cases Manifest.readEntries files manifest.path <;> exact ⟨rfl, rfl⟩

theorem reloadFor_other {change : Change} (files : FileTree) (manifest : Manifest)
    (other : change ≠ .solutionChanged) : reloadFor files change manifest = ⟨(), [], manifest⟩ := by
  rw [reloadFor, if_neg other]
  rfl

theorem handleFrom_handles (files : FileTree) (events : List FileEvent) (told : List Change)
    (manifest : Manifest) :
    let outcome := handleFrom files events told manifest
    Handles files manifest told events outcome.value outcome.state outcome.readings := by
  induction events generalizing told manifest with
  | nil => exact .done manifest told
  | cons event events ih =>
    simp only [handleFrom, Outcome.readings] at ih ⊢
    cases live : event.continuous with
    | true =>
      simp only [if_true, Act.bind_run, Act.say_run, List.singleton_append, List.countP_cons, Event.isReading,
        Bool.false_eq_true, if_false, Nat.add_zero]
      exact .skips event (by simp [live]) (ih told manifest)
    | false =>
      simp only [Bool.false_eq_true, if_false, Act.bind_run, Act.get_run, List.nil_append]
      cases found : classify? manifest event.path with
      | none => exact .skips event (by simp [found]) (ih told manifest)
      | some change =>
        by_cases known : change ∈ told
        next =>
          simp only [List.contains_eq_mem, known, decide_true, if_true]
          exact .skips event (by simpa [found] using fun _ => known) (ih told manifest)
        next =>
          simp only [List.contains_eq_mem, known, decide_false, Bool.false_eq_true, if_false, Act.bind_run,
            List.countP_append]
          by_cases own : change = .solutionChanged
          next =>
            subst own
            obtain ⟨state, reading⟩ := reloadFor_solution files manifest
            rw [state, reading, Nat.add_comm]
            exact .reads event live (classify_solution_iff.mp found) known (ih _ _)
          next =>
            simp only [reloadFor_other files manifest own, List.countP_nil, Nat.zero_add]
            exact .tells event change live found own known (ih _ _)

section Handles

variable {files : FileTree} {manifest after : Manifest} {told value : List Change} {events : List FileEvent}
  {readings : Nat}

theorem Handles.nodup (handles : Handles files manifest told events value after readings) (once : told.Nodup) :
    value.Nodup ∧ ∀ change ∈ told, change ∈ value := by
  induction handles with
  | done manifest told => simp [once]
  | skips event idle rest ih => exact ih once
  | reads event live same new rest ih =>
    obtain ⟨single, kept⟩ := ih (List.nodup_cons.mpr ⟨new, once⟩)
    exact ⟨single, fun change before => kept change (List.mem_cons_of_mem _ before)⟩
  | tells event change live found other new rest ih =>
    obtain ⟨single, kept⟩ := ih (List.nodup_cons.mpr ⟨new, once⟩)
    exact ⟨single, fun change before => kept change (List.mem_cons_of_mem _ before)⟩

-- Once the manifest has been read again, the rest of the batch leaves it alone.
theorem Handles.settled (handles : Handles files manifest told events value after readings)
    (known : .solutionChanged ∈ told) : after = manifest ∧ readings = 0 := by
  induction handles with
  | done => exact ⟨rfl, rfl⟩
  | skips event idle rest ih => exact ih known
  | reads event live same new rest ih => exact absurd known new
  | tells event change live found other new rest ih => exact ih (List.mem_cons_of_mem _ known)

theorem Handles.untouched (handles : Handles files manifest told events value after readings)
    (aside : ¬ Touches manifest events) :
    after = manifest ∧ readings = 0 ∧ ∀ change, change ∈ value ↔
      change ∈ told ∨ ∃ event ∈ events, event.continuous = false ∧ classify? manifest event.path = some change := by
  have later {event : FileEvent} {events : List FileEvent} {manifest : Manifest}
      (aside : ¬ Touches manifest (event :: events)) : ¬ Touches manifest events := by
    rintro ⟨other, inside, own⟩
    exact aside ⟨other, List.mem_cons_of_mem _ inside, own⟩
  induction handles with
  | done manifest told => simp
  | skips event idle rest ih =>
    obtain ⟨same, none, told⟩ := ih (later aside)
    refine ⟨same, none, ?_⟩
    intro change
    simp only [told, List.mem_cons, exists_eq_or_imp]
    constructor
    next => exact Or.imp_right Or.inr
    next =>
      rintro (before | ⟨live, found⟩ | more)
      next => exact .inl before
      next => exact .inl (idle live change found)
      next => exact .inr more
  | reads event live same new rest ih => exact absurd ⟨event, List.mem_cons_self, live, same⟩ aside
  | tells event change live found other new rest ih =>
    obtain ⟨same, none, told⟩ := ih (later aside)
    refine ⟨same, none, ?_⟩
    intro one
    simp only [told, List.mem_cons, exists_eq_or_imp, live, found, true_and, Option.some.injEq, eq_comm (a := one)]
    exact or_assoc.trans or_left_comm

theorem Handles.touched (handles : Handles files manifest told events value after readings) (once : told.Nodup)
    (new : .solutionChanged ∉ told) (touches : Touches manifest events) :
    after = (Manifest.reload files manifest).state ∧ readings = 1 ∧ .solutionChanged ∈ value := by
  induction handles with
  | done manifest told =>
    obtain ⟨event, inside, -⟩ := touches
    cases inside
  | skips event idle rest ih =>
    obtain ⟨one, inside, live, same⟩ := touches
    rcases List.mem_cons.mp inside with rfl | later
    next => exact absurd (idle live _ (classify_solution_iff.mpr same)) new
    next => exact ih once new ⟨one, later, live, same⟩
  | reads event live same _ rest ih =>
    obtain ⟨stays, none⟩ := rest.settled List.mem_cons_self
    have kept := (rest.nodup (List.nodup_cons.mpr ⟨new, once⟩)).2 _ List.mem_cons_self
    exact ⟨stays, by rw [none], kept⟩
  | tells event change live found other unknown rest ih =>
    apply ih (List.nodup_cons.mpr ⟨unknown, once⟩) (by simp [Ne.symm other, new])
    obtain ⟨one, inside, own, same⟩ := touches
    rcases List.mem_cons.mp inside with rfl | later
    next =>
      rw [classify_solution_iff.mpr same] at found
      exact absurd (Option.some.inj found).symm other
    next => exact ⟨one, later, own, same⟩

theorem Handles.any (handles : Handles files manifest [] events value after readings) {test : Change → Bool}
    (passed : test .solutionChanged = true) :
    value.any test = events.any fun event =>
      !event.continuous && (classify? manifest event.path).any test := by
  rw [Bool.eq_iff_iff]
  by_cases touches : Touches manifest events
  next =>
    have told := (handles.touched List.nodup_nil List.not_mem_nil touches).2.2
    obtain ⟨event, inside, live, same⟩ := touches
    have before : (classify? manifest event.path).any test = true := by
      rw [classify_solution_iff.mpr same]
      exact passed
    apply iff_of_true
    next => exact List.any_eq_true.mpr ⟨_, told, passed⟩
    next => exact List.any_eq_true.mpr ⟨event, inside, by rw [live, before]; rfl⟩
  next =>
    have told := (handles.untouched touches).2.2
    simp only [List.any_eq_true, told, List.not_mem_nil, false_or, Bool.and_eq_true, Bool.not_eq_true',
      Option.any_eq_true]
    constructor
    next =>
      rintro ⟨change, ⟨event, inside, live, found⟩, passes⟩
      exact ⟨event, inside, live, change, found, passes⟩
    next =>
      rintro ⟨event, inside, live, change, found, passes⟩
      exact ⟨change, ⟨event, inside, live, found⟩, passes⟩

theorem Handles.flags (handles : Handles files manifest [] events value after readings) (flags : DirtyFlags) :
    flags.markAll value = flags.union (.unionAll (events.map (marks manifest))) := by
  rw [DirtyFlags.markAll_eq, DirtyFlags.unionAll_eq, handles.any rfl, handles.any rfl]
  simp only [List.any_map, Function.comp_def, marks_eq]

theorem Handles.readings_iff (handles : Handles files manifest [] events value after readings) :
    readings ≤ 1 ∧ (readings = 1 ↔ Touches manifest events) := by
  by_cases touches : Touches manifest events
  next =>
    obtain ⟨-, one, -⟩ := handles.touched List.nodup_nil List.not_mem_nil touches
    simp [one, touches]
  next =>
    obtain ⟨-, none, -⟩ := handles.untouched touches
    simp [none, touches]

end Handles

theorem handle_handles (files : FileTree) (events : List FileEvent) (manifest : Manifest) :
    let outcome := handle files events manifest
    Handles files manifest [] events outcome.value outcome.state outcome.readings := by
  have handles := handleFrom_handles files events [] manifest
  simp only [handle, Outcome.readings, Act.bind_run, List.countP_append] at handles ⊢
  split <;> exact handles

/-- The events are looked at alone and before the batch; the changes told may be others. -/
theorem batches_are_sets_of_events (files : FileTree) (manifest : Manifest) (events : List FileEvent) :
    let done := handle files events manifest
    done.value.Nodup ∧ done.readings ≤ 1 ∧ (done.readings = 1 ↔ Touches manifest events) ∧
    (∀ flags : DirtyFlags, flags.markAll done.value = flags.union (.unionAll (events.map (marks manifest)))) ∧
    ∀ others : List FileEvent, (∀ event, event ∈ others ↔ event ∈ events) →
      let again := handle files others manifest
      again.state = done.state ∧ ∀ flags : DirtyFlags, flags.markAll again.value = flags.markAll done.value := by
  intro done
  have handles := handle_handles files events manifest
  obtain ⟨most, once⟩ := handles.readings_iff
  refine ⟨(handles.nodup List.nodup_nil).1, most, once, handles.flags, ?_⟩
  intro others same again
  have repeated := handle_handles files others manifest
  have touching : Touches manifest others ↔ Touches manifest events := by
    simp only [Touches, same]
  constructor
  next =>
    by_cases touches : Touches manifest events
    next =>
      have one := (handles.touched List.nodup_nil List.not_mem_nil touches).1
      have two := (repeated.touched List.nodup_nil List.not_mem_nil (touching.mpr touches)).1
      exact two.trans one.symm
    next =>
      have one := (handles.untouched touches).1
      have two := (repeated.untouched fun other => touches (touching.mp other)).1
      exact two.trans one.symm
  next =>
    intro flags
    have equal (test : FileEvent → Bool) : others.any test = events.any test := by
      rw [Bool.eq_iff_iff]
      simp only [List.any_eq_true, same]
    rw [handles.flags, repeated.flags, DirtyFlags.unionAll_eq, DirtyFlags.unionAll_eq]
    simp only [List.any_map, equal]

section Sample

def sampleBatch : List FileEvent :=
  [⟨.ofString "/other/X.csproj", false⟩, ⟨sampleManifest.path, false⟩]

/-- The other way round, the project's file is taken for one; the same is marked. -/
theorem project_after_its_manifest_marks_the_same :
    let files := sampleFiles (listing "/other/X.csproj")
    let one := handle files sampleBatch sampleManifest
    let two := handle files (sampleBatch.reverse ++ sampleBatch) sampleManifest
    one.value = [.documentChanged, .solutionChanged] ∧ two.value = [.solutionChanged, .projectChanged] ∧
    one.readings = 1 ∧ two.state = one.state ∧
    DirtyFlags.clean.markAll two.value = DirtyFlags.clean.markAll one.value := by
  intro files one two
  have same : ∀ event, event ∈ sampleBatch.reverse ++ sampleBatch ↔ event ∈ sampleBatch := by simp
  have touches : Touches sampleManifest sampleBatch :=
    ⟨⟨sampleManifest.path, false⟩, by decide, rfl, by decide⟩
  obtain ⟨-, -, once, -, others⟩ := batches_are_sets_of_events files sampleManifest sampleBatch
  obtain ⟨state, flags⟩ := others _ same
  refine ⟨?_, ?_, once.mpr touches, state, flags .clean⟩
  next => decide +kernel
  next => decide +kernel

end Sample

end Watch

end TemplateSync
