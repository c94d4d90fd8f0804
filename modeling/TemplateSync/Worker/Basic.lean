import TemplateSync.Worker.Pass

set_option autoImplicit false

namespace TemplateSync

def protocolVersion : Int32 := 1

inductive Verdict where
  | applied
  | dropped
  deriving DecidableEq

structure Worker where
  catalog : Catalog
  handles : Handles

namespace Worker

variable {σ : Type}

def initial : Worker := ⟨.empty, .empty⟩

def announce (project : Project) : List Event :=
  .addingProject project.name project.documents.length :: project.documents.map .foundDocument

def applySolution (bench : Workbench σ) (extension : String) (worker : Worker)
    (descriptors : List ProjectDescriptor) : Act σ Worker := do
  Act.say (.clearingProjects worker.catalog.size)
  let files := bench.files (← Act.get)
  let projects := descriptors.map (Project.ofDescriptor files extension)
  Act.sayAll (projects.flatMap announce)
  return { worker with catalog := .ofList projects }

def applyReferences (worker : Worker) (id : Uuid) (references : List String) :
    Act σ (Verdict × Worker) :=
  match worker.catalog.get? id with
  | none => do
    Act.say (.unknownProjectReferences id)
    return (.dropped, worker)
  | some project => do
    Act.say (.updatingReferences project.name references.length)
    return (.applied, { worker with catalog := worker.catalog.insert (project.setReferences references) })

def reportFailures (project : String) (failures : List (Path × Fault)) : List Event :=
  failures.map fun (path, fault) => .unresolvedReference project path fault.message

def applyMetadata (bench : Workbench σ) (worker : Worker) (metadata : Metadata) :
    Act σ (Verdict × Option Tally × Worker) :=
  match worker.catalog.get? metadata.id with
  | none => do
    Act.say (.unknownProjectMetadata metadata.id metadata.projectName)
    return (.dropped, none, worker)
  | some project => do
    Act.say (.updatingMetadata project.name metadata.bytes.length)
    let project := { project with lastMetadata := some metadata.bytes }
    let (resolution, handles) ← Handles.resolveAll bench.resolve worker.handles project.references
    Act.sayAll (reportFailures project.name resolution.failures)
    let tally ← Pass.run bench project resolution.handles
    Act.say (.updatedDocuments project.name tally.generated tally.failed tally.errors)
    return (.applied, some tally, ⟨worker.catalog.insert project, handles⟩)

def handle (bench : Workbench σ) (extension : String) (worker : Worker) :
    Message → Act σ (Verdict × Worker)
  | .version version => do
    Act.say (.hostVersion version protocolVersion)
    return (.applied, worker)
  | .solution projects => do
    return (.applied, ← applySolution bench extension worker projects)
  | .project id references => applyReferences worker id references
  | .metadata metadata => do
    let (verdict, _, worker) ← applyMetadata bench worker metadata
    return (verdict, worker)
  | .error text detail => do
    Act.say (.errorMessage text detail)
    return (.dropped, worker)
  | .unknown tag body => do
    Act.say (.unknownMessage tag body)
    return (.dropped, worker)

end Worker

end TemplateSync
