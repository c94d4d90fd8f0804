import Mathlib.Data.List.Basic
import TemplateSync.Proofs.Worker.References

set_option autoImplicit false

namespace TemplateSync

variable {σ τ α β : Type}

def Outcome.warnings (done : Outcome σ α) : List Event :=
  done.events.filter fun event => event.level = .warn

namespace Journal

def compilation? : Request → Option (CompilationUnit × Except Fault CompileOutcome)
  | .compile unit answer => some (unit, answer)
  | .resolve .. | .generate .. => none

def compilations (journal : Journal) : List (CompilationUnit × Except Fault CompileOutcome) :=
  journal.filterMap compilation?

end Journal

abbrev Translation := String → FileTree.OpenFile → Generation

def Pass.faults (document : String) : Generation → List Event
  | .generated _ => []
  | .failed errors => reportErrors document errors

namespace Project

def trial (project : Project) (translation : Translation) (files : FileTree) (document : Path) :
    Except IoError Generation :=
  (files.openFile document).map (translation (project.relativePath document))

def source? (project : Project) (translation : Translation) (files : FileTree) (document : Path) :
    Option Source :=
  match project.trial translation files document with
  | .ok (.generated text) => some ⟨document, text⟩
  | .ok (.failed _) | .error _ => none

def troubles (project : Project) (translation : Translation) (files : FileTree) (document : Path) :
    List Event :=
  match project.trial translation files document with
  | .ok generation => Pass.faults (project.relativePath document) generation
  | .error error => [.cannotOpenDocument document error]

end Project

namespace Pass

def errorCount : Except Fault CompileOutcome → Nat
  | .ok outcome => outcome.diagnostics.countP fun diagnostic => diagnostic.severity = .error
  | .error _ => 0

def complaints (project : String) : Except Fault CompileOutcome → List Event
  | .ok outcome => outcome.errors.map fun diagnostic => .compileError project diagnostic.message
  | .error fault => [.compilerFailed project fault]

end Pass

namespace Workbench

structure Calm (bench : Workbench σ) (act : Act σ α) : Prop where
  files : ∀ state, bench.files (act state).state = bench.files state
  warnings : ∀ state, (act state).warnings = []

/-- The generator goes by the document alone, and nothing happens to the files before the compiler is asked.
Warnings are the worker's own. -/
structure Translates (bench : Workbench σ) (translation : Translation) : Prop where
  value : ∀ document file state, (bench.generate document file state).value = translation document file
  generate : ∀ document file, bench.Calm (bench.generate document file)
  resolve : ∀ path, bench.Calm (bench.resolve path)
  fresh : bench.Calm bench.fresh
  compile : ∀ unit state, (bench.compile unit state).warnings = []

end Workbench

structure Warns (bench : Workbench σ) (before : σ × Journal) (done : Outcome (σ × Journal) α)
    (warnings : List Event) : Prop where
  files : bench.files done.state.1 = bench.files before.1
  compilations : done.state.2.compilations = before.2.compilations
  warnings : done.warnings = warnings

section Warns

variable {bench : Workbench σ} {before : σ × Journal}

theorem warnings_bind (first : Act σ α) (next : α → Act σ β) (state : σ) :
    ((first >>= next) state).warnings =
      (first state).warnings ++ (next (first state).value (first state).state).warnings := by
  simp [Outcome.warnings]

theorem Warns.bind {first : Act (σ × Journal) α} {next : α → Act (σ × Journal) β} {one two : List Event}
    (warns : Warns bench before (first before) one)
    (others : Warns bench (first before).state (next (first before).value (first before).state) two) :
    Warns bench before ((first >>= next) before) (one ++ two) where
  files := others.files.trans warns.files
  compilations := others.compilations.trans warns.compilations
  warnings := by rw [warnings_bind, warns.warnings, others.warnings]

theorem Warns.last {first : Act (σ × Journal) α} {next : α → Act (σ × Journal) β} {one : List Event}
    (warns : Warns bench before (first before) one)
    (rest : Warns bench (first before).state (next (first before).value (first before).state) []) :
    Warns bench before ((first >>= next) before) one := by
  simpa using warns.bind rest

theorem warns_pure (value : α) : Warns bench before ((pure value : Act _ α) before) [] :=
  ⟨rfl, rfl, rfl⟩

theorem warns_say (event : Event) (quiet : event.level ≠ .warn) :
    Warns bench before (Act.say event before) [] :=
  ⟨rfl, rfl, by simp [Outcome.warnings, quiet]⟩

theorem warns_sayAll (bench : Workbench σ) (before : σ × Journal) {events : List Event}
    (loud : ∀ event ∈ events, event.level = .warn) :
    Warns bench before (Act.sayAll events before) events :=
  ⟨rfl, rfl, by simpa [Outcome.warnings] using loud⟩

theorem warns_noted {act : Act σ α} {request : α → Request} (calm : bench.Calm act)
    (other : ∀ value, Journal.compilation? (request value) = none) (before : σ × Journal) :
    Warns bench before (act.noted request before) [] where
  files := calm.files before.1
  compilations := by simp [Act.noted, Act.beside, Journal.compilations, other]
  warnings := by
    obtain ⟨-, events, -⟩ := Act.mirrors_noted act request before.1 before.2
    rw [Outcome.warnings, events]
    exact calm.warnings before.1

end Warns

section Passes

variable {bench : Workbench σ} {translation : Translation} (translates : bench.Translates translation)

include translates

theorem resolveOne_warns (cache : Handles) (path : Path) (before : σ × Journal) :
    Warns bench before (Handles.resolveOne bench.recorded.resolve cache path before) [] := by
  cases known : cache.find? path with
  | some handle =>
    rw [Handles.resolveOne_known known]
    exact ⟨rfl, rfl, rfl⟩
  | none =>
    simp only [Handles.resolveOne, known]
    refine (warns_noted (translates.resolve path) (fun _ => rfl) before).bind ?_
    generalize (Act.noted (bench.resolve path) (Request.resolve path) before).value = answer
    cases answer <;> exact warns_pure _

theorem resolveAll_warns (paths : List Path) (cache : Handles) (before : σ × Journal) :
    Warns bench before (Handles.resolveAll bench.recorded.resolve cache paths before) [] := by
  induction paths generalizing cache before with
  | nil => exact warns_pure _
  | cons path paths ih =>
    refine (resolveOne_warns translates cache path before).bind ((ih _ _).bind ?_)
    generalize (Handles.resolveOne bench.recorded.resolve cache path before).value.1 = answer
    cases answer <;> exact warns_pure _

namespace Pass

omit translates in
theorem one_missing (bench : Workbench σ) {project : Project} {document : Path} {error : IoError} {state : σ}
    (found : (bench.files state).openFile document = .error error) :
    generateOne bench project document state =
      ⟨none, [.generating (project.relativePath document), .cannotOpenDocument document error], state⟩ := by
  simp [generateOne, found]

def conclude (project : Project) (document : Path) : Generation → Act σ (Option Source)
  | .generated text => do
    Act.say (.generated (project.relativePath document) text.utf8ByteSize)
    return some ⟨document, text⟩
  | .failed errors => do
    Act.sayAll (reportErrors (project.relativePath document) errors)
    return none

omit translates in
theorem conclude_warns (bench : Workbench σ) (project : Project) (document : Path)
    (generation : Generation) (before : σ × Journal) :
    Warns bench before (conclude project document generation before)
      (faults (project.relativePath document) generation) := by
  cases generation with
  | generated text => exact (warns_say (.generated _ text.utf8ByteSize) nofun).last (warns_pure _)
  | failed errors =>
    have loud : ∀ event ∈ reportErrors (project.relativePath document) errors, event.level = .warn := by
      intro event inside
      obtain ⟨error, -, rfl⟩ := List.mem_map.mp inside
      rfl
    exact (warns_sayAll _ _ loud).last (warns_pure _)

omit translates in
theorem one_found (bench : Workbench σ) {project : Project} {document : Path} {file : FileTree.OpenFile}
    {state : σ} (found : (bench.files state).openFile document = .ok file) :
    generateOne bench project document state =
      (Act.say (.generating (project.relativePath document)) >>= fun _ =>
        bench.generate (project.relativePath document) file >>= conclude project document) state := by
  simp only [generateOne, Act.bind_run, Act.say_run, Act.get_run, found, List.nil_append]
  rfl

theorem one_comes (project : Project) (document : Path) (before : σ × Journal) :
    let done := generateOne bench.recorded project document before
    done.value = project.source? translation (bench.files before.1) document ∧
      Warns bench before done (project.troubles translation (bench.files before.1) document) := by
  intro done
  simp only [done, Project.source?, Project.troubles, Project.trial]
  cases found : (bench.files before.1).openFile document with
  | error error =>
    rw [one_missing bench.recorded found]
    exact ⟨rfl, rfl, rfl, rfl⟩
  | ok file =>
    rw [one_found bench.recorded found]
    have noted : Warns bench before
        (bench.recorded.generate (project.relativePath document) file before) [] :=
      warns_noted (translates.generate (project.relativePath document) file) (fun _ => rfl) before
    have value : (bench.recorded.generate (project.relativePath document) file before).value =
        translation (project.relativePath document) file :=
      translates.value (project.relativePath document) file before.1
    refine ⟨?_, (warns_say (.generating (project.relativePath document)) nofun).bind (noted.bind ?_)⟩
    next =>
      simp only [Act.bind_run, Act.say_run, value, Except.map]
      cases translation (project.relativePath document) file <;> rfl
    next =>
      have rest := conclude_warns bench project document
        (bench.recorded.generate (project.relativePath document) file before).value
        (bench.recorded.generate (project.relativePath document) file before).state
      rw [value] at rest ⊢
      exact rest

theorem all_comes (project : Project) (documents : List Path) (before : σ × Journal) :
    let done := generateAll bench.recorded project documents before
    done.value = documents.map (project.source? translation (bench.files before.1)) ∧
      Warns bench before done (documents.flatMap (project.troubles translation (bench.files before.1))) := by
  induction documents generalizing before with
  | nil => exact ⟨rfl, warns_pure _⟩
  | cons document documents ih =>
    obtain ⟨value, warns⟩ := one_comes translates project document before
    obtain ⟨values, others⟩ := ih (generateOne bench.recorded project document before).state
    rw [warns.files] at values others
    refine ⟨?_, ?_⟩
    next => simp only [generateAll, Act.bind_run, Act.pure_run, value, values, List.map_cons]
    next => exact warns.bind (others.last (warns_pure _))

structure Report (project : Project) (translation : Translation) (files : FileTree)
    (references : List ReferenceHandle) (unit : CompilationUnit)
    (answer : Except Fault CompileOutcome) (tally : Tally) : Prop where
  sources : unit.sources = project.documents.filterMap (project.source? translation files)
  references : unit.references = references
  generated : tally.generated = unit.sources.length
  whole : tally.generated + tally.failed = project.documents.length
  errors : tally.errors = errorCount answer

omit translates in
theorem report_of (project : Project) (translation : Translation) (files : FileTree)
    (references : List ReferenceHandle) (id : Uuid) (answer : Except Fault CompileOutcome) :
    let sources := project.documents.map (project.source? translation files)
    Report project translation files references (unitOf project id references sources) answer
      ⟨sources.countP Option.isSome, sources.countP Option.isNone, errorCount answer⟩ := by
  intro sources
  refine ⟨?_, rfl, ?_, ?_, rfl⟩
  next => simp [unitOf, sources, List.filterMap_map]
  next => exact (List.length_filterMap_eq_countP ..).symm
  next =>
    have others : sources.countP Option.isNone = sources.countP fun source => ¬ source.isSome = true :=
      List.countP_congr fun source _ => by cases source <;> simp
    have split := List.length_eq_countP_add_countP Option.isSome (l := sources)
    rw [← others] at split
    simpa [sources] using split.symm

omit translates in
theorem review_warns (bench : Workbench σ) (project : String) (answer : Except Fault CompileOutcome)
    (before : σ × Journal) :
    (review project answer before).value = errorCount answer ∧
      Warns bench before (review project answer before) (complaints project answer) := by
  cases answer with
  | error fault =>
    exact ⟨rfl, rfl, rfl, rfl⟩
  | ok outcome =>
    have loud : ∀ event ∈ complaints project (.ok outcome), event.level = .warn := by
      intro event inside
      obtain ⟨diagnostic, -, rfl⟩ := List.mem_map.mp inside
      rfl
    exact ⟨(List.countP_eq_length_filter ..).symm, (warns_sayAll _ _ loud).last (warns_pure _)⟩

theorem run_comes (project : Project) (references : List ReferenceHandle) (before : σ × Journal) :
    let done := run bench.recorded project references before
    ∃ unit answer, Report project translation (bench.files before.1) references unit answer done.value ∧
      unit.selfReference = selfReference project.lastMetadata ∧
      done.state.2.compilations = before.2.compilations ++ [(unit, answer)] ∧
      done.warnings = project.documents.flatMap (project.troubles translation (bench.files before.1)) ++
        complaints project.name answer := by
  let start := bench.recorded.fresh before
  let made := generateAll bench.recorded project project.documents start.state
  let unit := unitOf project start.value references made.value
  let answered := bench.recorded.compile unit made.state
  let told : Outcome (σ × Journal) Nat := review project.name answered.value answered.state
  have fresh : Warns bench before start [] :=
    ⟨translates.fresh.files before.1, rfl, translates.fresh.warnings before.1⟩
  obtain ⟨value, generated⟩ := all_comes translates project project.documents start.state
  rw [fresh.files] at value generated
  have quiet : answered.warnings = [] := by
    obtain ⟨-, events, -⟩ := Act.mirrors_noted (bench.compile unit) (.compile unit) made.state.1 made.state.2
    exact (congrArg _ events).trans (translates.compile unit made.state.1)
  obtain ⟨errors, complained⟩ := review_warns bench project.name answered.value answered.state
  refine ⟨unit, answered.value, ?_, rfl, ?_, ?_⟩
  next =>
    have report := report_of project translation (bench.files before.1) references start.value answered.value
    rw [← value, ← errors] at report
    exact report
  next =>
    have asked : answered.state.2 = made.state.2 ++ [.compile unit answered.value] := rfl
    calc told.state.2.compilations
      _ = answered.state.2.compilations := complained.compilations
      _ = made.state.2.compilations ++ [(unit, answered.value)] := by
        rw [asked, Journal.compilations, List.filterMap_append]
        rfl
      _ = before.2.compilations ++ [(unit, answered.value)] := by
        rw [generated.compilations, fresh.compilations]
  next =>
    calc (run bench.recorded project references before).warnings
      _ = start.warnings ++ (made.warnings ++ (answered.warnings ++ (told.warnings ++ []))) := by
        simp only [run, warnings_bind]
        rfl
      _ = project.documents.flatMap (project.troubles translation (bench.files before.1)) ++
          complaints project.name answered.value := by
        rw [fresh.warnings, generated.warnings, quiet, complained.warnings, List.nil_append, List.nil_append,
          List.append_nil]

end Pass

end Passes

section Besides

variable {project : Project} {translation other : Translation} {files later : FileTree} {changed : Path}

theorem source?_path {document : Path} {source : Source}
    (made : project.source? translation files document = some source) : source.path = document := by
  unfold Project.source? at made
  split at made
  next =>
    cases made
    rfl
  next => cases made
  next => cases made

theorem sources_besides (project : Project) (translation : Translation) (files : FileTree)
    (documents : List Path) (changed : Path) :
    (documents.filterMap (project.source? translation files)).filter (fun source => source.path ≠ changed) =
      (documents.filter (· ≠ changed)).filterMap (project.source? translation files) := by
  rw [List.filter_filterMap, List.filterMap_filter]
  refine List.filterMap_congr fun document _ => ?_
  cases made : project.source? translation files document with
  | none => simp
  | some source =>
    rw [source?_path made |>.symm]
    by_cases same : source.path = changed <;> simp [Option.filter, same]

-- But for one document, what the documents hold and what becomes of it are the same.
def Project.Besides (project : Project) (changed : Path) (translation other : Translation)
    (files later : FileTree) : Prop :=
  ∀ document ∈ project.documents, document ≠ changed → later.openFile document = files.openFile document ∧
    ∀ file, files.openFile document = .ok file →
      other (project.relativePath document) file = translation (project.relativePath document) file

theorem source?_besides (besides : project.Besides changed translation other files later) {document : Path}
    (listed : document ∈ project.documents) (apart : document ≠ changed) :
    project.source? other later document = project.source? translation files document := by
  obtain ⟨opened, same⟩ := besides document listed apart
  have trial : project.trial other later document = project.trial translation files document := by
    rw [Project.trial, Project.trial, opened]
    cases found : files.openFile document with
    | error error => rfl
    | ok file => exact congrArg Except.ok (same file found)
  rw [Project.source?, Project.source?, trial]

theorem sources_stay (besides : project.Besides changed translation other files later) :
    (project.documents.filterMap (project.source? other later)).filter (·.path ≠ changed) =
      (project.documents.filterMap (project.source? translation files)).filter (·.path ≠ changed) := by
  rw [sources_besides, sources_besides]
  refine List.filterMap_congr fun document inside => ?_
  obtain ⟨listed, apart⟩ := List.mem_filter.mp inside
  exact source?_besides besides listed (by simpa using apart)

end Besides

theorem Handles.resolveAll_occurrences (resolve : Resolver σ) (paths : List Path) (cache : Handles)
    (state : σ) : ∃ occurrences : List Journal.Occurrence, occurrences.map Prod.fst = paths ∧
      (resolveAll resolve cache paths state).value.1 =
        ⟨occurrences.filterMap Journal.handle?, occurrences.filterMap Journal.failure?⟩ := by
  induction paths generalizing cache state with
  | nil => exact ⟨[], rfl, rfl⟩
  | cons path paths ih =>
    obtain ⟨value, -⟩ := resolveAll_cons resolve cache path paths state
    obtain ⟨occurrences, listed, resolution⟩ := ih (resolveOne resolve cache path state).value.2
      (resolveOne resolve cache path state).state
    exact ⟨(path, (resolveOne resolve cache path state).value.1) :: occurrences, by simp [listed],
      by rw [value, resolution, adding_eq]⟩

theorem reportFailures_loud (project : String) (failures : List (Path × Fault)) :
    ∀ event ∈ Worker.reportFailures project failures, event.level = .warn := by
  intro event inside
  obtain ⟨failure, -, rfl⟩ := List.mem_map.mp inside
  rfl

namespace Worker

structure Passed (project : Project) (metadata : Metadata) (translation : Translation) (files : FileTree)
    (resolution : Resolution) (done : Outcome (σ × Journal) (Verdict × Option Tally × Worker))
    (unit : CompilationUnit) (answer : Except Fault CompileOutcome) (tally : Tally) : Prop where
  once : done.state.2.compilations = [(unit, answer)]
  applied : done.value.1 = .applied ∧ done.value.2.1 = some tally
  report : Pass.Report project translation files resolution.handles unit answer tally
  self : unit.selfReference = if metadata.bytes = [] then none else some metadata.bytes
  warnings : done.warnings = reportFailures project.name resolution.failures ++
    project.documents.flatMap (project.troubles translation files) ++ Pass.complaints project.name answer

section Passing

variable {bench : Workbench σ} {translation : Translation} (translates : bench.Translates translation)
  {worker : Worker} {metadata : Metadata} {project : Project}

include translates

theorem metadata_passes (known : worker.catalog.get? metadata.id = some project) (state : σ) :
    ∃ unit answer tally, Passed project metadata translation (bench.files state)
      (Handles.resolveAll bench.resolve worker.handles project.references state).value.1
      (worker.applyMetadata bench.recorded metadata (state, [])) unit answer tally := by
  let resolved := Handles.resolveAll bench.recorded.resolve worker.handles project.references (state, [])
  have found : resolved.value =
      (Handles.resolveAll bench.resolve worker.handles project.references state).value :=
    (mirrors_resolveAll bench project.references worker.handles state []).1
  have asked : Warns bench (state, []) resolved [] := resolveAll_warns translates _ _ _
  rw [← found]
  let own : Project := { project with lastMetadata := some metadata.bytes }
  let passed := Pass.run bench.recorded own resolved.value.1.handles resolved.state
  obtain ⟨unit, answer, report, self, once, warned⟩ :=
    Pass.run_comes translates own resolved.value.1.handles resolved.state
  rw [asked.files] at report warned
  rw [asked.compilations] at once
  have whole : worker.applyMetadata bench.recorded metadata (state, []) =
      ⟨(.applied, some passed.value, ⟨worker.catalog.insert own, resolved.value.2⟩),
        [.updatingMetadata project.name metadata.bytes.length] ++ (resolved.events ++
          (reportFailures project.name resolved.value.1.failures ++ (passed.events ++
            ([.updatedDocuments project.name passed.value.generated passed.value.failed passed.value.errors] ++
              [])))), passed.state⟩ := by
    simp only [applyMetadata, known]
    rfl
  rw [whole]
  refine ⟨unit, answer, passed.value, once, ⟨rfl, rfl⟩,
    ⟨report.sources, report.references, report.generated, report.whole, report.errors⟩, ?_, ?_⟩
  next =>
    rw [self, Pass.selfReference]
    by_cases none : metadata.bytes = [] <;> simp [own, Option.filter, none]
  next =>
    have failures := (warns_sayAll bench resolved.state
      (reportFailures_loud project.name resolved.value.1.failures)).warnings
    simp only [Outcome.warnings, List.filter_append]
    calc _ = [] ++ (resolved.warnings ++ ((Act.sayAll (reportFailures project.name resolved.value.1.failures)
            resolved.state).warnings ++ (passed.warnings ++ ([] ++ [])))) := rfl
      _ = _ := by
        rw [asked.warnings, failures, warned]
        simp only [List.nil_append, List.append_nil]
        exact (List.append_assoc ..).symm

theorem passes_isolate_documents (known : worker.catalog.get? metadata.id = some project) (state : σ) :
    let resolution := (Handles.resolveAll bench.resolve worker.handles project.references state).value.1
    let done := worker.applyMetadata bench.recorded metadata (state, [])
    (done.value = (worker.applyMetadata bench metadata state).value ∧
      done.events = (worker.applyMetadata bench metadata state).events) ∧
    (∃ occurrences : List Journal.Occurrence, occurrences.map Prod.fst = project.references ∧
      resolution =
        ⟨occurrences.filterMap Journal.handle?, occurrences.filterMap Journal.failure?⟩) ∧
    ∃ unit answer tally,
      Passed project metadata translation (bench.files state) resolution done unit answer tally ∧
      ∀ (again : Workbench σ) (other : Translation) (later : σ) (changed : Path), again.Translates other →
        project.Besides changed translation other (bench.files state) (again.files later) →
        ∀ entry,
          (worker.applyMetadata again.recorded metadata (later, [])).state.2.compilations = [entry] →
          entry.1.sources.filter (·.path ≠ changed) = unit.sources.filter (·.path ≠ changed) := by
  intro resolution done
  obtain ⟨value, events, -⟩ := mirrors_applyMetadata bench worker metadata state []
  obtain ⟨unit, answer, tally, passed⟩ := metadata_passes translates known state
  refine ⟨⟨value, events⟩, Handles.resolveAll_occurrences _ _ _ _, unit, answer, tally, passed, ?_⟩
  intro again other later changed translatesAgain besides entry once
  obtain ⟨unitAgain, answerAgain, _, passedAgain⟩ := metadata_passes translatesAgain known later
  have same : [entry] = [(unitAgain, answerAgain)] := once.symm.trans passedAgain.once
  cases same
  rw [passed.report.sources, passedAgain.report.sources]
  exact sources_stay besides

end Passing

section Example

def fussy : Translation := fun document file =>
  match file.read with
  | .ok [] => .failed [⟨"no content", none⟩]
  | .ok _ => .generated document
  | .error error => .failed [⟨error.message, none⟩]

def fussyBench : Workbench FileTree where
  generate := fun document file => pure (fussy document file)
  compile := fun _ => pure (.ok ⟨false, [⟨.error, "CS0103"⟩, ⟨.warning, "CS0168"⟩]⟩)
  resolve := fun path => pure (.error (referenceFault path "not there"))
  files := id
  fresh := pure (.ofNat 0)

theorem fussyBench_translates : fussyBench.Translates fussy where
  value := fun _ _ _ => rfl
  generate := fun _ _ => ⟨fun _ => rfl, fun _ => rfl⟩
  resolve := fun _ => ⟨fun _ => rfl, fun _ => rfl⟩
  fresh := ⟨fun _ => rfl, fun _ => rfl⟩
  compile := fun _ _ => rfl

def trioFiles : FileTree :=
  ((FileTree.empty.put [Utf8.encode "shop"] .directory).put
    [Utf8.encode "shop", Utf8.encode "A.cshtml"] (.file [60] false)).put
    [Utf8.encode "shop", Utf8.encode "B.cshtml"] (.file [] false)

def trio : Project where
  id := .ofNat 1
  name := "Shop"
  path := .ofString "/shop/Shop.csproj"
  sourceRoot := .ofString "/shop"
  documents := [.ofString "/shop/A.cshtml", .ofString "/shop/B.cshtml", .ofString "/shop/C.cshtml"]
  references := [.ofString "/lib/a.dll"]
  lastMetadata := none

def mendedFiles : FileTree :=
  trioFiles.put [Utf8.encode "shop", Utf8.encode "B.cshtml"] (.file [60] false)

theorem trio_mended :
    trio.Besides (.ofString "/shop/B.cshtml") fussy fussy trioFiles mendedFiles := by
  intro document listed apart
  have opened : ∀ document ∈ trio.documents, document ≠ .ofString "/shop/B.cshtml" →
      mendedFiles.openFile document = trioFiles.openFile document := by decide +kernel
  exact ⟨opened document listed apart, fun _ _ => rfl⟩

/-- Of three documents one is generated, one is refused and one is gone. -/
theorem one_of_three_documents_is_compiled :
    let pass := fun files => applyMetadata fussyBench.recorded ⟨.ofList [trio], .empty⟩
      ⟨trio.id, "Shop", none, [7]⟩ (files, [])
    ∃ unit answer, Passed trio ⟨trio.id, "Shop", none, [7]⟩ fussy trioFiles
      ⟨[], [(.ofString "/lib/a.dll", referenceFault (.ofString "/lib/a.dll") "not there")]⟩ (pass trioFiles)
      unit answer ⟨1, 2, 1⟩ ∧ unit.sources = [⟨.ofString "/shop/A.cshtml", "/A.cshtml"⟩] ∧
      (pass trioFiles).warnings.length = 4 ∧
      ∀ entry, (pass mendedFiles).state.2.compilations = [entry] →
        entry.1.sources.filter (·.path ≠ .ofString "/shop/B.cshtml") = unit.sources := by
  intro pass
  let worker : Worker := ⟨.ofList [trio], .empty⟩
  have known : worker.catalog.get? trio.id = some trio := by decide +kernel
  obtain ⟨-, -, unit, answer, tally, passed, isolated⟩ :=
    @passes_isolate_documents FileTree fussyBench fussy fussyBench_translates worker
      ⟨trio.id, "Shop", none, [7]⟩ trio known trioFiles
  have counted : (pass trioFiles).value.2.1 = some ⟨1, 2, 1⟩ := by decide +kernel
  cases counted.symm.trans passed.applied.2
  have sources : unit.sources = [⟨.ofString "/shop/A.cshtml", "/A.cshtml"⟩] :=
    passed.report.sources.trans (by decide +kernel)
  have others : unit.sources.filter (·.path ≠ .ofString "/shop/B.cshtml") = unit.sources := by
    rw [sources]
    decide +kernel
  exact ⟨unit, answer, passed, sources, by decide +kernel, fun entry once =>
    (isolated fussyBench fussy mendedFiles _ fussyBench_translates trio_mended entry once).trans others⟩

end Example

end Worker

end TemplateSync
