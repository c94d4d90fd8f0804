import Mathlib.Data.List.DropRight
import TemplateSync.Proofs.Worker.Catalog

set_option autoImplicit false

namespace TemplateSync

namespace Message

def lastOf {β : Type} (pick : Message → Option β) (messages : List Message) : Option β :=
  (messages.filterMap pick).getLast?

def sinceList (messages : List Message) : List Message :=
  messages.rtakeWhile fun message => message.list?.isNone

def referencesFor? (id : Uuid) : Message → Option (List String)
  | .project own references => if own = id then some references else none
  | _ => none

def bytesFor? (id : Uuid) : Message → Option Bytes
  | .metadata content => if content.id = id then some content.bytes else none
  | _ => none

def lastDescriptor (messages : List Message) (id : Uuid) : Option ProjectDescriptor :=
  (lastOf list? messages).bind fun projects => projects.reverse.find? fun project => project.id = id

def concernsCatalog : Message → Bool
  | .solution _ | .project .. | .metadata _ => true
  | .version _ | .error .. | .unknown .. => false

@[simp] theorem lastOf_snoc {β : Type} (pick : Message → Option β) (messages : List Message)
    (message : Message) :
    lastOf pick (messages ++ [message]) = (pick message).or (lastOf pick messages) := by
  cases picked : pick message <;> simp [lastOf, picked, List.getLast?_append]

theorem sinceList_snoc (messages : List Message) {message : Message}
    (other : message.list? = none) :
    sinceList (messages ++ [message]) = sinceList messages ++ [message] :=
  List.rtakeWhile_concat_pos _ _ _ (by simp [other])

theorem sinceList_list (messages : List Message) (projects : List ProjectDescriptor) :
    sinceList (messages ++ [.solution projects]) = [] :=
  List.rtakeWhile_concat_neg _ _ _ (by simp [list?])

theorem lastDescriptor_snoc (messages : List Message) {message : Message}
    (other : message.list? = none) (id : Uuid) :
    lastDescriptor (messages ++ [message]) id = lastDescriptor messages id := by
  simp [lastDescriptor, other]

end Message

namespace Project

def told (files : FileTree) (extension : String) (messages : List Message) (id : Uuid) :
    Option Project :=
  (Message.lastDescriptor messages id).map fun descriptor =>
    let path := Path.ofString descriptor.path
    let later := Message.sinceList messages
    { id := descriptor.id
      name := descriptor.name
      path := path
      sourceRoot := sourceRootOf path
      documents := files.documents (sourceRootOf path) extension
      references := ((Message.lastOf (Message.referencesFor? id) later).getD
        descriptor.references).map Path.ofString
      lastMetadata := Message.lastOf (Message.bytesFor? id) later }

variable (files : FileTree) (extension : String) (messages : List Message) (id : Uuid)

theorem told_solution (projects : List ProjectDescriptor) :
    told files extension (messages ++ [.solution projects]) id =
      (projects.reverse.find? fun project => project.id = id).map (ofDescriptor files extension) := by
  simp only [told, Message.lastDescriptor, Message.lastOf_snoc, Message.sinceList_list]
  rfl

theorem told_project (own : Uuid) (references : List String) :
    told files extension (messages ++ [.project own references]) id =
      if own = id then (told files extension messages id).map (·.setReferences references)
      else told files extension messages id := by
  rw [told, Message.lastDescriptor_snoc _ rfl, Message.sinceList_snoc _ rfl]
  by_cases same : own = id
  next => simp [told, same, Message.referencesFor?, Message.bytesFor?, setReferences, Function.comp_def]
  next => simp [told, same, Message.referencesFor?, Message.bytesFor?]

theorem told_metadata (metadata : Metadata) :
    told files extension (messages ++ [.metadata metadata]) id =
      if metadata.id = id then
        (told files extension messages id).map fun project =>
          { project with lastMetadata := some metadata.bytes }
      else told files extension messages id := by
  rw [told, Message.lastDescriptor_snoc _ rfl, Message.sinceList_snoc _ rfl]
  by_cases same : metadata.id = id
  next => simp [told, same, Message.referencesFor?, Message.bytesFor?, Function.comp_def]
  next => simp [told, same, Message.referencesFor?, Message.bytesFor?]

theorem told_other {message : Message} (other : message.concernsCatalog = false) :
    told files extension (messages ++ [message]) id = told files extension messages id := by
  cases message with
  | version | error | unknown =>
    rw [told, Message.lastDescriptor_snoc _ rfl, Message.sinceList_snoc _ rfl]
    simp [told, Message.referencesFor?, Message.bytesFor?]
  | solution | project | metadata => cases other

end Project

namespace Catalog

def adjust (catalog : Catalog) (id : Uuid) (change : Project → Project) : Catalog :=
  match catalog.get? id with
  | none => catalog
  | some project => catalog.insert (change project)

def after (files : FileTree) (extension : String) (catalog : Catalog) : Message → Catalog
  | .solution projects => .ofList (projects.map (Project.ofDescriptor files extension))
  | .project id references => catalog.adjust id (·.setReferences references)
  | .metadata metadata =>
    catalog.adjust metadata.id fun project => { project with lastMetadata := some metadata.bytes }
  | .version _ | .error .. | .unknown .. => catalog

theorem get?_id {catalog : Catalog} {id : Uuid} {project : Project}
    (found : catalog.get? id = some project) : project.id = id := by
  simpa using List.find?_some found

theorem get?_adjust (catalog : Catalog) (id other : Uuid) (change : Project → Project)
    (keeps : ∀ project, (change project).id = project.id) :
    (catalog.adjust id change).get? other =
      if id = other then (catalog.get? other).map change else catalog.get? other := by
  rw [adjust]
  split
  next none =>
    by_cases same : id = other
    next =>
      subst same
      simp [none]
    next => simp [same]
  next project found =>
    have own := get?_id found
    rw [get?_insert, keeps, own]
    by_cases same : id = other
    next =>
      subst same
      simp [found]
    next => simp [same]

theorem foldl_told (files : FileTree) (extension : String) (messages : List Message) (id : Uuid) :
    (messages.foldl (after files extension) .empty).get? id =
      Project.told files extension messages id := by
  induction messages using List.reverseRecOn with
  | nil => rfl
  | append_singleton messages message ih =>
    rw [List.foldl_append, List.foldl_cons, List.foldl_nil]
    cases message with
    | solution projects =>
      rw [Project.told_solution, after, get?_ofList, ← List.map_reverse, List.find?_map]
      rfl
    | project own references =>
      have known := get?_adjust (messages.foldl (after files extension) .empty) own id
        (·.setReferences references) fun _ => rfl
      rw [Project.told_project, ← ih]
      exact known
    | metadata metadata =>
      have known := get?_adjust (messages.foldl (after files extension) .empty) metadata.id id
        (fun project => { project with lastMetadata := some metadata.bytes }) fun _ => rfl
      rw [Project.told_metadata, ← ih]
      exact known
    | version | error | unknown => rw [Project.told_other _ _ _ _ rfl, after, ih]

theorem foldl_concerning (files : FileTree) (extension : String) (messages : List Message)
    (catalog : Catalog) :
    (messages.filter Message.concernsCatalog).foldl (after files extension) catalog =
      messages.foldl (after files extension) catalog := by
  induction messages generalizing catalog with
  | nil => rfl
  | cons message messages ih =>
    cases message with
    | solution | project | metadata => exact ih _
    | version | error | unknown => exact ih catalog

end Catalog

namespace Worker

variable {σ : Type} {bench : Workbench σ} {extension : String}

theorem handle_catalog (worker : Worker) (message : Message) (state : σ) :
    (worker.handle bench extension message state).value.2.catalog =
      worker.catalog.after (bench.files state) extension message := by
  cases message with
  | solution projects => exact handle_solution worker projects state
  | project id references =>
    cases found : worker.catalog.get? id <;>
      simp [handle, applyReferences, Catalog.after, Catalog.adjust, found]
  | metadata metadata =>
    cases found : worker.catalog.get? metadata.id <;>
      simp [handle, applyMetadata, Catalog.after, Catalog.adjust, found]
  | version | error | unknown => simp [handle, Catalog.after]

theorem handleAll_catalog {files : FileTree} (fixed : ∀ state, bench.files state = files)
    (state : σ) (messages : List Message) :
    (handleAll bench extension .initial state messages).1.catalog =
      messages.foldl (Catalog.after files extension) .empty := by
  induction messages using List.reverseRecOn with
  | nil => rfl
  | append_singleton messages message ih =>
    rw [handleAll_append, List.foldl_append]
    simp only [handle_catalog, fixed, ih]
    rfl

theorem told_isSome (files : FileTree) (extension : String) (messages : List Message) (id : Uuid) :
    (Project.told files extension messages id).isSome = true ↔
      ∃ projects, Message.lastList messages = some projects ∧
        id ∈ projects.map ProjectDescriptor.id := by
  rw [Project.told, Option.isSome_map, Message.lastDescriptor]
  change ((Message.lastList messages).bind _).isSome = true ↔ _
  cases Message.lastList messages <;> simp

theorem catalog_follows_history {files : FileTree} (fixed : ∀ state, bench.files state = files)
    (extension : String) :
    (∀ state messages id,
      ((handleAll bench extension .initial state messages).1.catalog.get? id =
        Project.told files extension messages id) ∧
      (((handleAll bench extension .initial state messages).1.catalog.get? id).isSome = true ↔
        ∃ projects, Message.lastList messages = some projects ∧
          id ∈ projects.map ProjectDescriptor.id)) ∧
    (∀ state other before projects later,
      (handleAll bench extension .initial state
        (before ++ .solution projects :: later)).1.catalog =
      (handleAll bench extension .initial other (.solution projects :: later)).1.catalog) ∧
    ∀ state messages,
      (handleAll bench extension .initial state messages).1.catalog =
      (handleAll bench extension .initial state
        (messages.filter Message.concernsCatalog)).1.catalog := by
  refine ⟨fun state messages id => ?_, fun state other before projects later => ?_, ?_⟩
  next =>
    rw [handleAll_catalog fixed, Catalog.foldl_told]
    exact ⟨rfl, told_isSome files extension messages id⟩
  next =>
    rw [handleAll_catalog fixed, handleAll_catalog fixed, List.foldl_append, List.foldl_cons,
      List.foldl_cons]
    rfl
  next =>
    intro state messages
    rw [handleAll_catalog fixed, handleAll_catalog fixed, Catalog.foldl_concerning]

section Example

def stillBench (files : FileTree) : Workbench Unit where
  generate := verbatimGenerator
  compile := nullCompiler
  resolve := fileResolver fun _ => files
  files := fun _ => files
  fresh := pure (.ofNat 0)

def oneTemplate : FileTree :=
  (FileTree.empty.put [Utf8.encode "web"] .directory).put
    [Utf8.encode "web", Utf8.encode "Home.cshtml"] (.file [] false)

def web (references : List String) : ProjectDescriptor :=
  ⟨.ofNat 1, "Web", "/web/Web.csproj", references⟩

def renewal : List Message :=
  [.solution [web ["/old.dll"]], .metadata ⟨.ofNat 1, "Web", none, [1]⟩,
    .project (.ofNat 1) ["/older.dll"], .solution [web ["/early.dll"], web ["/late.dll"]],
    .version 2, .metadata ⟨.ofNat 1, "Web", none, [2]⟩, .metadata ⟨.ofNat 2, "Gone", none, [3]⟩,
    .metadata ⟨.ofNat 1, "Web", none, [4]⟩, .error "" none]

/-- Two descriptors and two metadata of one project, after an older list: the last of each counts. -/
theorem renewed_project_is_known :
    (∀ state, (stillBench oneTemplate).files state = oneTemplate) ∧
      (handleAll (stillBench oneTemplate) "cshtml" .initial () renewal).1.catalog.get? (.ofNat 1) =
        some {
          id := .ofNat 1
          name := "Web"
          path := .ofString "/web/Web.csproj"
          sourceRoot := .ofString "/web"
          documents := [.ofString "/web/Home.cshtml"]
          references := [.ofString "/late.dll"]
          lastMetadata := some [4] } := by
  refine ⟨fun _ => rfl, ?_⟩
  obtain ⟨follows, _⟩ :=
    @catalog_follows_history Unit (stillBench oneTemplate) oneTemplate (fun _ => rfl) "cshtml"
  rw [(follows () renewal (.ofNat 1)).1]
  decide +kernel

end Example

end Worker

end TemplateSync
