import TemplateSync.Codegen.Toolchain
import TemplateSync.Proofs.Message.RoundTrip
import TemplateSync.Proofs.Path.Text
import TemplateSync.Proofs.Worker.Passes

set_option autoImplicit false

namespace TemplateSync

open Utf8 (IsText)

structure CompileRequest where
  name : String
  references : List Path
  selfReference : Option Bytes
  sources : List Source
  deriving DecidableEq

namespace CompileRequest

open Json

def pathOfJson? (value : Json) : Option Path :=
  value.string?.map Path.ofString

def sourceOfJson? (value : Json) : Option Source := do
  match ← value.record? [["path"], ["text"]] with
  | [some path, some content] => return ⟨← pathOfJson? path, ← content.string?⟩
  | _ => none

def selfReferenceOfJson? : Json → Option (Option Bytes)
  | .null => some none
  | value => (bytesOfJson? value).map some

def fields : List Names :=
  [["name"], ["references"], ["selfReference"], ["sources"]]

def ofJson? (value : Json) : Option CompileRequest := do
  match ← value.record? fields with
  | [some name, some references, some selfReference, some sources] =>
    return ⟨← name.string?, ← list? pathOfJson? references, ← selfReferenceOfJson? selfReference,
      ← list? sourceOfJson? sources⟩
  | _ => none

def ofText? (text : String) : Option CompileRequest :=
  (Json.ofText? text).bind ofJson?

end CompileRequest

namespace CompilationUnit

open Json

def paths (unit : CompilationUnit) : List Path :=
  unit.references.map ReferenceHandle.path ++ unit.sources.map Source.path

def Writable (unit : CompilationUnit) : Prop :=
  ∀ path ∈ unit.paths, IsText path.bytes

instance (unit : CompilationUnit) : Decidable unit.Writable :=
  inferInstanceAs (Decidable (∀ path ∈ unit.paths, IsText path.bytes))

def asRequest (unit : CompilationUnit) : CompileRequest :=
  ⟨unit.name, unit.references.map ReferenceHandle.path, unit.selfReference, unit.sources⟩

def unwritable : Fault :=
  .json "path contains invalid UTF-8 characters"

def pathText (path : Path) : Json :=
  ofString path.display

def sourceText (source : Source) : Json :=
  .object [member "path" (pathText source.path), member "text" (ofString source.text)]

def toJson (unit : CompilationUnit) : Json :=
  .object [
    member "name" (ofString unit.name),
    member "references" (.array (unit.references.map fun handle => pathText handle.path)),
    member "selfReference" (selfReferenceJson unit.selfReference),
    member "sources" (.array (unit.sources.map sourceText))]

section Writing

theorem mapM_guarded {α β ε : Type} {act : α → Except ε β} {make : α → β} {fault : ε} {Good : α → Prop}
    [DecidablePred Good] (each : ∀ item, act item = if Good item then .ok (make item) else .error fault)
    (items : List α) :
    items.mapM act = if ∀ item ∈ items, Good item then .ok (items.map make) else .error fault := by
  induction items with
  | nil => rfl
  | cons item items ih =>
    rw [List.mapM_cons, each, ih]
    by_cases good : Good item
    next =>
      by_cases others : ∀ other ∈ items, Good other
      next =>
        rw [if_pos good, if_pos others, if_pos (List.forall_mem_cons.mpr ⟨good, others⟩)]
        rfl
      next =>
        rw [if_pos good, if_neg others, if_neg fun all => others (List.forall_mem_cons.mp all).2]
        rfl
    next =>
      rw [if_neg good, if_neg fun all => good (List.forall_mem_cons.mp all).1]
      rfl

theorem pathJson_eq (path : Path) :
    pathJson path = if IsText path.bytes then .ok (pathText path) else .error unwritable := by
  rw [pathJson]
  split
  next text read =>
    have spelled := Utf8.decode?_iff.mp read
    rw [if_pos ⟨text, spelled⟩, pathText, Path.display, ← spelled, Utf8.decode_encode]
  next unread =>
    rw [if_neg]
    next => rfl
    next => simp [Utf8.isText_iff, unread]

theorem sourceJson_eq (source : Source) :
    sourceJson source = if IsText source.path.bytes then .ok (sourceText source) else .error unwritable := by
  rw [sourceJson, pathJson_eq]
  split <;> rfl

theorem request_eq (unit : CompilationUnit) :
    unit.request = if unit.Writable then .ok (String.ofList unit.toJson.render) else .error unwritable := by
  have split : unit.Writable ↔ (∀ handle ∈ unit.references, IsText handle.path.bytes) ∧
      ∀ source ∈ unit.sources, IsText source.path.bytes := by
    rw [Writable, paths, List.forall_mem_append, List.forall_mem_map, List.forall_mem_map]
  rw [request, mapM_guarded (fun handle : ReferenceHandle => pathJson_eq handle.path), mapM_guarded sourceJson_eq]
  by_cases one : ∀ handle ∈ unit.references, IsText handle.path.bytes
  next =>
    by_cases two : ∀ source ∈ unit.sources, IsText source.path.bytes
    next =>
      rw [if_pos one, if_pos two, if_pos (split.mpr ⟨one, two⟩)]
      rfl
    next =>
      rw [if_pos one, if_neg two, if_neg fun both => two (split.mp both).2]
      rfl
  next =>
    rw [if_neg one, if_neg fun both => one (split.mp both).1]
    rfl

end Writing

section Reading

open CompileRequest

theorem pathOfJson?_pathText {path : Path} (isText : IsText path.bytes) :
    pathOfJson? (pathText path) = some path := by
  obtain ⟨bytes⟩ := path
  obtain ⟨text, rfl⟩ := isText
  simp [pathOfJson?, pathText, Path.display, Path.ofString]

theorem sourceOfJson?_sourceText {source : Source} (isText : IsText source.path.bytes) :
    sourceOfJson? (sourceText source) = some source := by
  have slots : (sourceText source).record? [["path"], ["text"]] =
      some [some (pathText source.path), some (ofString source.text)] := by
    simp [sourceText, record?, fill?, place?, member, List.findIdx?_cons]
  simp [sourceOfJson?, slots, pathOfJson?_pathText isText]

theorem selfReferenceOfJson?_json (bytes : Option Bytes) :
    selfReferenceOfJson? (selfReferenceJson bytes) = some bytes := by
  cases bytes with
  | none => rfl
  | some bytes => exact congrArg (Option.map some) (bytesOfJson?_ofString bytes)

theorem list?_items {α β : Type} {read? : Json → Option β} {write : α → Json} {value : α → β} {items : List α}
    (inverse : ∀ item ∈ items, read? (write item) = some (value item)) :
    list? read? (.array (items.map write)) = some (items.map value) := by
  induction items with
  | nil => rfl
  | cons item items ih =>
    have ⟨own, others⟩ := List.forall_mem_cons.mp inverse
    simp only [list?, List.map_cons, List.mapM_cons, own] at ih ⊢
    simp [ih others]

theorem ofJson?_toJson {unit : CompilationUnit} (writable : unit.Writable) :
    CompileRequest.ofJson? unit.toJson = some unit.asRequest := by
  have ⟨named, listed⟩ := List.forall_mem_append.mp writable
  have slots : unit.toJson.record? fields =
      some [some (ofString unit.name),
        some (.array (unit.references.map fun handle => pathText handle.path)),
        some (selfReferenceJson unit.selfReference), some (.array (unit.sources.map sourceText))] := by
    simp [toJson, record?, fields, fill?, place?, member, List.findIdx?_cons]
  have references : list? pathOfJson? (.array (unit.references.map fun handle => pathText handle.path)) =
      some (unit.references.map ReferenceHandle.path) :=
    list?_items fun handle inside => pathOfJson?_pathText (named _ (List.mem_map_of_mem inside))
  have sources : list? sourceOfJson? (.array (unit.sources.map sourceText)) = some (unit.sources.map id) :=
    list?_items fun source inside => sourceOfJson?_sourceText (listed _ (List.mem_map_of_mem inside))
  simp [CompileRequest.ofJson?, slots, references, sources, selfReferenceOfJson?_json, asRequest]

theorem sourceText_readable (source : Source) : (sourceText source).Readable := by
  apply object_readable
  intro part inside
  simp only [List.mem_cons, List.not_mem_nil, or_false] at inside
  rcases inside with rfl | rfl
  all_goals exact Message.member_readable (ofString_readable _)

theorem selfReferenceJson_readable (bytes : Option Bytes) : (selfReferenceJson bytes).Readable := by
  cases bytes with
  | none => simp [selfReferenceJson, Readable, lexemes, emit, Lexeme.Readable]
  | some bytes => exact ofString_readable _

theorem toJson_readable (unit : CompilationUnit) : unit.toJson.Readable := by
  apply object_readable
  intro part inside
  simp only [List.mem_cons, List.not_mem_nil, or_false] at inside
  rcases inside with rfl | rfl | rfl | rfl
  next => exact Message.member_readable (ofString_readable _)
  next => exact Message.member_readable (array_readable (by simp [pathText, ofString_readable]))
  next => exact Message.member_readable (selfReferenceJson_readable _)
  next => exact Message.member_readable (array_readable (by simp [sourceText_readable]))

theorem ofText?_render {unit : CompilationUnit} (writable : unit.Writable) :
    CompileRequest.ofText? (String.ofList unit.toJson.render) = some unit.asRequest := by
  rw [CompileRequest.ofText?, Json.ofText?_render unit.toJson_readable]
  exact ofJson?_toJson writable

end Reading

end CompilationUnit

section Compiling

variable {σ : Type} (run : Runner σ) (command : Command)

structure HandedOver (unit : CompilationUnit) (state : σ) (done : Outcome σ (Except Fault CompileOutcome)) :
    Prop where
  writable : unit.Writable → ∃ text, unit.request = .ok text ∧
    CompileRequest.ofText? text = some unit.asRequest ∧
    done.events = .spawning command.program :: (run command (Utf8.encode text) state).events ∧
    done.state = (run command (Utf8.encode text) state).state
  others : ¬ unit.Writable → unit.request = .error CompilationUnit.unwritable ∧
    done = ⟨.error CompilationUnit.unwritable, [], state⟩

theorem commandCompiler_handedOver (unit : CompilationUnit) (state : σ) :
    HandedOver run command unit state (commandCompiler run command unit state) where
  writable writable := by
    have written := unit.request_eq
    rw [if_pos writable] at written
    refine ⟨_, written, CompilationUnit.ofText?_render writable, ?_, ?_⟩
    all_goals
      simp only [commandCompiler, written, Act.bind_run, Act.say_run]
      generalize run command (Utf8.encode (String.ofList unit.toJson.render)) state = finished
      cases finished.value <;> simp
  others other := by
    have refused := unit.request_eq
    rw [if_neg other] at refused
    refine ⟨refused, ?_⟩
    simp [commandCompiler, refused]

end Compiling

namespace Pass

inductive Made (project : Project) : List Path → Journal → List Source → Prop where
  | nil : Made project [] [] []
  | missing {documents : List Path} {made : Journal} {sources : List Source} (document : Path)
      (others : Made project documents made sources) : Made project (document :: documents) made sources
  | failed {documents : List Path} {made : Journal} {sources : List Source} (document : Path)
      (errors : List TemplateError) (others : Made project documents made sources) :
      Made project (document :: documents)
        (.generate (project.relativePath document) (.failed errors) :: made) sources
  | generated {documents : List Path} {made : Journal} {sources : List Source} (document : Path)
      (text : String) (others : Made project documents made sources) :
      Made project (document :: documents)
        (.generate (project.relativePath document) (.generated text) :: made) (⟨document, text⟩ :: sources)

section Generating

variable {σ : Type} (bench : Workbench σ) (project : Project)

theorem Made.paths {project : Project} {documents : List Path} {made : Journal} {sources : List Source}
    (own : Made project documents made sources) : (sources.map Source.path).Sublist documents := by
  induction own with
  | nil => exact List.Sublist.refl _
  | missing document _ ih => exact ih.cons document
  | failed document _ _ ih => exact ih.cons document
  | generated document text _ ih => exact ih.cons_cons document

theorem conclude_makes (document : Path) (outcome : Generation) (state : σ) :
    (conclude project document outcome state).state = state ∧ ∀ documents rest sources,
      Made project documents rest sources →
        Made project (document :: documents) (.generate (project.relativePath document) outcome :: rest)
          ((conclude project document outcome state).value.toList ++ sources) := by
  cases outcome with
  | generated text => exact ⟨rfl, fun _ _ _ others => others.generated document text⟩
  | failed errors => exact ⟨rfl, fun _ _ _ others => others.failed document errors⟩

theorem generateOne_makes (document : Path) (before : σ × Journal) :
    let done := generateOne bench.recorded project document before
    ∃ made : Journal, done.state.2 = before.2 ++ made ∧ ∀ documents rest sources,
      Made project documents rest sources →
        Made project (document :: documents) (made ++ rest) (done.value.toList ++ sources) := by
  intro done
  simp only [done]
  cases found : (bench.recorded.files before).openFile document with
  | error error =>
    rw [one_missing bench.recorded found]
    exact ⟨[], by simp, fun _ _ _ others => others.missing document⟩
  | ok file =>
    rw [one_found bench.recorded found]
    let asked := bench.recorded.generate (project.relativePath document) file before
    have noted : asked.state.2 = before.2 ++ [.generate (project.relativePath document) asked.value] := rfl
    obtain ⟨state, made⟩ := conclude_makes project document asked.value asked.state
    refine ⟨[.generate (project.relativePath document) asked.value], ?_, made⟩
    simp only [Act.bind_run, Act.say_run]
    rw [state, noted]

theorem generateAll_makes (documents : List Path) (before : σ × Journal) :
    let done := generateAll bench.recorded project documents before
    ∃ made : Journal, done.state.2 = before.2 ++ made ∧
      Made project documents made (done.value.filterMap fun source => source) := by
  induction documents generalizing before with
  | nil => exact ⟨[], by simp [generateAll], .nil⟩
  | cons document documents ih =>
    obtain ⟨first, grown, own⟩ := generateOne_makes bench project document before
    obtain ⟨rest, more, others⟩ := ih (generateOne bench.recorded project document before).state
    refine ⟨first ++ rest, ?_, ?_⟩
    next =>
      simp only [generateAll, Act.bind_run, Act.pure_run]
      rw [more, grown, List.append_assoc]
    next =>
      simp only [generateAll, Act.bind_run, Act.pure_run]
      have whole := own _ _ _ others
      cases made : (generateOne bench.recorded project document before).value <;>
        simpa [made] using whole

theorem review_run (name : String) (answer : Except Fault CompileOutcome) (state : σ) :
    (review name answer state).events = complaints name answer ∧ (review name answer state).state = state := by
  cases answer <;> simp [review, complaints]

theorem units_reach_the_compiler (run : Runner σ) (command : Command) (references : List ReferenceHandle)
    (state : σ) (journal : Journal) :
    let spawning : Workbench σ := { bench with compile := commandCompiler run command }
    let done := Pass.run spawning.recorded project references (state, journal)
    ∃ (made : Journal) (unit : CompilationUnit) (left : σ) (before : List Event),
      let asked := commandCompiler run command unit left
      HandedOver run command unit left asked ∧
      done.state = (asked.state, journal ++ made ++ [.compile unit asked.value]) ∧
      done.events = before ++ asked.events ++ complaints project.name asked.value ∧
      Made project project.documents made unit.sources ∧
      unit.name = s!"{project.name}-{(bench.fresh state).value.plain}" ∧
      unit.references = references ∧
      unit.selfReference = selfReference project.lastMetadata ∧
      ((∀ handle ∈ references, IsText handle.path.bytes) →
        (∀ document ∈ project.documents, IsText document.bytes) ∨
          (∃ files extension descriptor, files.TextNames ∧
            project.documents = (Project.ofDescriptor files extension descriptor).documents) →
        unit.Writable) := by
  intro spawning done
  let start := spawning.recorded.fresh (state, journal)
  let generated := generateAll spawning.recorded project project.documents start.state
  let unit := unitOf project start.value references generated.value
  let asked := commandCompiler run command unit generated.state.1
  obtain ⟨made, grown, own⟩ := generateAll_makes spawning project project.documents start.state
  have noted : generated.state.2 = journal ++ made := grown
  have reviewed := review_run project.name asked.value
    (asked.state, generated.state.2 ++ [Request.compile unit asked.value])
  refine ⟨made, unit, generated.state.1, start.events ++ generated.events,
    commandCompiler_handedOver run command unit _, ?_, ?_, own, rfl, rfl, rfl, ?_⟩
  next =>
    rw [← noted]
    exact reviewed.2
  next =>
    obtain ⟨-, events, -⟩ := Act.mirrors_noted (commandCompiler run command unit) (.compile unit)
      generated.state.1 generated.state.2
    calc done.events
      _ = start.events ++ (generated.events ++ (((commandCompiler run command unit).noted (.compile unit)
          (generated.state.1, generated.state.2)).events ++ ((review project.name asked.value
            (asked.state, generated.state.2 ++ [Request.compile unit asked.value])).events ++ []))) := rfl
      _ = start.events ++ generated.events ++ asked.events ++ complaints project.name asked.value := by
        rw [events, reviewed.1, List.append_nil]
        simp only [List.append_assoc, asked]
  next =>
    intro references documents path inside
    have listed : ∀ document ∈ project.documents, IsText document.bytes := by
      rcases documents with listed | ⟨files, extension, descriptor, named, same⟩
      next => exact listed
      next =>
        rw [same]
        exact Project.documents_isText named extension descriptor
    rcases List.mem_append.mp inside with reference | source
    next =>
      obtain ⟨handle, there, rfl⟩ := List.mem_map.mp reference
      exact references handle there
    next => exact listed path (own.paths.subset source)

end Generating

section Example

def brokenName : Bytes :=
  [0x42, 0xFF] ++ Utf8.encode ".cshtml"

def shelf : FileTree :=
  ((FileTree.empty.put [Utf8.encode "Web"] .directory).put
    [Utf8.encode "Web", brokenName] (.file (Utf8.encode "b") false)).put
    [Utf8.encode "Web", Utf8.encode "A.cshtml"] (.file (Utf8.encode "a") false)

def easyBench : Workbench FileTree where
  generate := verbatimGenerator
  compile := commandCompiler
    (fun _ _ => pure (.ok ⟨.exited 0, Utf8.encode (String.ofList (CompileOutcome.toJson ⟨true, []⟩).render), []⟩))
    ⟨"sh", []⟩
  resolve := fileResolver id
  files := id
  fresh := pure (.ofNat 0)

def shelved : Project :=
  .ofDescriptor shelf "cshtml" ⟨.ofNat 1, "Web", "Web/Web.csproj", []⟩

theorem shelved_documents :
    shelved.documents = [.ofString "Web/A.cshtml", (Path.ofString "Web").joinName brokenName] := by
  have found : shelf.find (.ofString "Web") = .ok ([Utf8.encode "Web"], .directory) := by decide +kernel
  have listed : shelf.nodes.filterMap
      (FileTree.documentNames? [Utf8.encode "Web"] (Utf8.encode "cshtml")) =
      [[Utf8.encode "A.cshtml"], [brokenName]] := by decide +kernel
  have root : Project.sourceRootOf (.ofString "Web/Web.csproj") = .ofString "Web" := by decide +kernel
  change shelf.documents (Project.sourceRootOf (.ofString "Web/Web.csproj")) "cshtml" = _
  rw [root, FileTree.documents_eq found, FileTree.documentFiles, listed,
    List.mergeSort_of_pairwise (by decide +kernel)]
  decide +kernel

def brokenUnit : CompilationUnit where
  name := s!"Web-{(Uuid.ofNat 0).plain}"
  selfReference := none
  references := []
  sources := [⟨.ofString "Web/A.cshtml", "a"⟩, ⟨(Path.ofString "Web").joinName brokenName, "b"⟩]

/-- Both templates are generated and neither is compiled, as one has a name that is no text. -/
theorem one_name_keeps_all_from_the_compiler :
    let done := Pass.run easyBench.recorded shelved [] (shelf, [])
    shelf.WellFormed ∧ (0 : UInt8) ∉ brokenName ∧
    done.value = ⟨2, 0, 0⟩ ∧
    done.state.2.compilations = [(brokenUnit, .error CompilationUnit.unwritable)] ∧
    brokenUnit.request = .error CompilationUnit.unwritable ∧
    .compilerFailed "Web" CompilationUnit.unwritable ∈ done.events ∧ .spawning "sh" ∉ done.events := by
  intro done
  have listed : shelved = { shelved with
      documents := [.ofString "Web/A.cshtml", (Path.ofString "Web").joinName brokenName] } := by
    rw [← shelved_documents]
  have whole : done = Pass.run easyBench.recorded { shelved with
      documents := [.ofString "Web/A.cshtml", (Path.ofString "Web").joinName brokenName] } []
      (shelf, []) := by rw [← listed]
  rw [whole]
  exact ⟨by decide +kernel, by decide +kernel, by decide +kernel, by decide +kernel, by decide +kernel,
    by decide +kernel, by decide +kernel⟩

end Example

end Pass

end TemplateSync
