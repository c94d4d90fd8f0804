import Mathlib.Data.List.Induction
import TemplateSync.Proofs.Worker.Schedules

set_option autoImplicit false

namespace TemplateSync

inductive Request where
  | resolve (path : Path) (answer : Except Fault ReferenceHandle)
  | generate (document : String) (outcome : Generation)
  | compile (unit : CompilationUnit) (outcome : Except Fault CompileOutcome)

abbrev Journal := List Request

namespace Act

variable {σ α β : Type}

def beside (act : Act σ α) : Act (σ × Journal) α :=
  zoom Prod.fst (fun state whole => (state, whole.2)) act

def noted (act : Act σ α) (request : α → Request) : Act (σ × Journal) α := do
  let value ← beside act
  modify fun whole => (whole.1, whole.2 ++ [request value])
  return value

-- The second act does what the first one does, and has a journal besides.
def Mirrors (act : Act σ α) (recorded : Act (σ × Journal) α) : Prop :=
  ∀ state journal, (recorded (state, journal)).value = (act state).value ∧
    (recorded (state, journal)).events = (act state).events ∧
    (recorded (state, journal)).state.1 = (act state).state

theorem mirrors_beside (act : Act σ α) : Mirrors act (beside act) :=
  fun _ _ => ⟨rfl, rfl, rfl⟩

theorem mirrors_noted (act : Act σ α) (request : α → Request) : Mirrors act (noted act request) :=
  fun _ _ => ⟨rfl, by simp [noted, beside], rfl⟩

theorem mirrors_pure (value : α) : Mirrors (σ := σ) (Pure.pure value) (Pure.pure value) :=
  fun _ _ => ⟨rfl, rfl, rfl⟩

theorem mirrors_say (event : Event) : Mirrors (σ := σ) (say event) (say event) :=
  fun _ _ => ⟨rfl, rfl, rfl⟩

theorem mirrors_sayAll (events : List Event) : Mirrors (σ := σ) (sayAll events) (sayAll events) :=
  fun _ _ => ⟨rfl, rfl, rfl⟩

theorem Mirrors.bind {first : Act σ α} {recorded : Act (σ × Journal) α} {next : α → Act σ β}
    {later : α → Act (σ × Journal) β} (one : Mirrors first recorded)
    (two : ∀ value, Mirrors (next value) (later value)) :
    Mirrors (first >>= next) (recorded >>= later) := by
  intro state journal
  obtain ⟨value, events, left⟩ := one state journal
  obtain ⟨values, others, last⟩ := two (first state).value (first state).state
    (recorded (state, journal)).state.2
  have whole : (recorded (state, journal)).state =
      ((first state).state, (recorded (state, journal)).state.2) := Prod.ext left rfl
  simp only [bind_run, value, events]
  rw [whole]
  exact ⟨values, by rw [others], last⟩

theorem mirrors_get {next : σ → Act σ β} {later : σ × Journal → Act (σ × Journal) β}
    (same : ∀ state journal, Mirrors (next state) (later (state, journal))) :
    Mirrors (get >>= next) (get >>= later) :=
  fun state journal => same state journal state journal

end Act

namespace Workbench

variable {σ : Type}

def recorded (bench : Workbench σ) : Workbench (σ × Journal) where
  generate document file := (bench.generate document file).noted (.generate document)
  compile unit := (bench.compile unit).noted (.compile unit)
  resolve path := (bench.resolve path).noted (.resolve path)
  files whole := bench.files whole.1
  fresh := bench.fresh.beside

end Workbench

open Act

section Mirrors

variable {σ : Type} (bench : Workbench σ)

theorem mirrors_resolveOne (cache : Handles) (path : Path) :
    Mirrors (Handles.resolveOne bench.resolve cache path)
      (Handles.resolveOne bench.recorded.resolve cache path) := by
  unfold Handles.resolveOne
  split
  next => exact mirrors_pure _
  next =>
    refine (mirrors_noted _ _).bind fun answer => ?_
    cases answer <;> exact mirrors_pure _

theorem mirrors_resolveAll (paths : List Path) (cache : Handles) :
    Mirrors (Handles.resolveAll bench.resolve cache paths)
      (Handles.resolveAll bench.recorded.resolve cache paths) := by
  induction paths generalizing cache with
  | nil => exact mirrors_pure _
  | cons path paths ih =>
    refine (mirrors_resolveOne bench cache path).bind fun one => (ih one.2).bind fun rest => ?_
    cases one.1 <;> exact mirrors_pure _

theorem mirrors_generateOne (project : Project) (document : Path) :
    Mirrors (Pass.generateOne bench project document)
      (Pass.generateOne bench.recorded project document) := by
  refine (mirrors_say _).bind fun _ => mirrors_get fun state journal => ?_
  simp only [Workbench.recorded]
  split
  next => exact (mirrors_say _).bind fun _ => mirrors_pure _
  next =>
    refine (mirrors_noted _ _).bind fun outcome => ?_
    cases outcome with
    | generated => exact (mirrors_say _).bind fun _ => mirrors_pure _
    | failed => exact (mirrors_sayAll _).bind fun _ => mirrors_pure _

theorem mirrors_generateAll (project : Project) (documents : List Path) :
    Mirrors (Pass.generateAll bench project documents)
      (Pass.generateAll bench.recorded project documents) := by
  induction documents with
  | nil => exact mirrors_pure _
  | cons document documents ih =>
    exact (mirrors_generateOne bench project document).bind fun _ => ih.bind fun _ => mirrors_pure _

theorem mirrors_review (project : String) (outcome : Except Fault CompileOutcome) :
    Mirrors (σ := σ) (Pass.review project outcome) (Pass.review project outcome) := by
  cases outcome with
  | ok => exact (mirrors_sayAll _).bind fun _ => mirrors_pure _
  | error => exact (mirrors_say _).bind fun _ => mirrors_pure _

theorem mirrors_run (project : Project) (references : List ReferenceHandle) :
    Mirrors (Pass.run bench project references) (Pass.run bench.recorded project references) :=
  (mirrors_beside _).bind fun _ => (mirrors_generateAll bench project _).bind fun _ =>
    (mirrors_noted _ _).bind fun _ => (mirrors_review _ _).bind fun _ => mirrors_pure _

variable (extension : String) (worker : Worker)

theorem mirrors_applyMetadata (metadata : Metadata) :
    Mirrors (worker.applyMetadata bench metadata) (worker.applyMetadata bench.recorded metadata) := by
  unfold Worker.applyMetadata
  split
  next => exact (mirrors_say _).bind fun _ => mirrors_pure _
  next project _ =>
    exact (mirrors_say _).bind fun _ => (mirrors_resolveAll bench _ _).bind fun _ =>
      (mirrors_sayAll _).bind fun _ => (mirrors_run bench _ _).bind fun _ =>
        (mirrors_say _).bind fun _ => mirrors_pure _

theorem mirrors_handle (message : Message) :
    Mirrors (worker.handle bench extension message) (worker.handle bench.recorded extension message) := by
  cases message with
  | version => exact (mirrors_say _).bind fun _ => mirrors_pure _
  | solution projects =>
    refine Mirrors.bind ?_ fun _ => mirrors_pure _
    exact (mirrors_say _).bind fun _ => mirrors_get fun _ _ => (mirrors_sayAll _).bind fun _ =>
      mirrors_pure _
  | project id references =>
    simp only [Worker.handle, Worker.applyReferences]
    split <;> exact (mirrors_say _).bind fun _ => mirrors_pure _
  | metadata metadata => exact (mirrors_applyMetadata bench worker metadata).bind fun _ => mirrors_pure _
  | error => exact (mirrors_say _).bind fun _ => mirrors_pure _
  | unknown => exact (mirrors_say _).bind fun _ => mirrors_pure _

theorem Worker.handleAll_recorded (state : σ) (journal : Journal) (messages : List Message) :
    let recorded := handleAll bench.recorded extension worker (state, journal) messages
    (recorded.1, recorded.2.1) = handleAll bench extension worker state messages := by
  induction messages using List.reverseRecOn with
  | nil => rfl
  | append_singleton messages message ih =>
    simp only [handleAll_append] at ih ⊢
    generalize handleAll bench.recorded extension worker (state, journal) messages = recorded at ih
    rw [← ih]
    obtain ⟨known, left, journal⟩ := recorded
    obtain ⟨value, -, last⟩ := mirrors_handle bench extension known message left journal
    simp only [value, last]

end Mirrors

end TemplateSync
