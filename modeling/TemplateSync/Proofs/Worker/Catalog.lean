import Mathlib.Data.List.Induction
import TemplateSync.Proofs.Worker.Schedules

set_option autoImplicit false

namespace TemplateSync

structure Outline where
  id : Uuid
  name : String
  path : Path
  references : List Path
  deriving DecidableEq

def Project.outline (project : Project) : Outline :=
  ⟨project.id, project.name, project.path, project.references⟩

def ProjectDescriptor.outline (descriptor : ProjectDescriptor) : Outline :=
  ⟨descriptor.id, descriptor.name, .ofString descriptor.path, descriptor.references.map .ofString⟩

namespace Catalog

theorem get?_insert (catalog : Catalog) (project : Project) (id : Uuid) :
    (catalog.insert project).get? id = if project.id = id then some project else catalog.get? id := by
  by_cases own : project.id = id
  next => simp [get?, insert, own]
  next =>
    have others : (catalog.projects.filter (·.id ≠ project.id)).find? (fun known => known.id = id) =
        catalog.projects.find? fun known => known.id = id := by
      rw [List.find?_filter]
      congr 1
      funext known
      by_cases same : known.id = id
      next => simp [same, Ne.symm own]
      next => simp [same]
    simpa [get?, insert, own] using others

theorem ofList_append (projects : List Project) (project : Project) :
    ofList (projects ++ [project]) = (ofList projects).insert project := by
  simp [ofList]

theorem get?_ofList (projects : List Project) (id : Uuid) :
    (ofList projects).get? id = projects.reverse.find? fun project => project.id = id := by
  induction projects using List.reverseRecOn with
  | nil => rfl
  | append_singleton projects project ih =>
    rw [ofList_append, get?_insert, ih]
    by_cases own : project.id = id <;> simp [own]

theorem mem_ids (catalog : Catalog) (id : Uuid) :
    id ∈ catalog.ids ↔ (catalog.get? id).isSome = true := by
  simp [ids, get?]

-- The catalog holds just the projects of a list, of those with one identifier the last.
def Lists (catalog : Catalog) (descriptors : List ProjectDescriptor) : Prop :=
  ∀ id, (catalog.get? id).map Project.outline =
    (descriptors.reverse.find? fun descriptor => descriptor.id = id).map ProjectDescriptor.outline

theorem ofList_lists (files : FileTree) (extension : String)
    (descriptors : List ProjectDescriptor) :
    (ofList (descriptors.map (Project.ofDescriptor files extension))).Lists descriptors := by
  intro id
  rw [get?_ofList, ← List.map_reverse, List.find?_map, Option.map_map]
  rfl

theorem lists_ids {catalog : Catalog} {descriptors : List ProjectDescriptor}
    (lists : catalog.Lists descriptors) (id : Uuid) :
    id ∈ catalog.ids ↔ id ∈ descriptors.map ProjectDescriptor.id := by
  have same := congrArg Option.isSome (lists id)
  rw [Option.isSome_map, Option.isSome_map] at same
  rw [mem_ids, same]
  simp

theorem insert_lists {catalog : Catalog} {descriptors : List ProjectDescriptor} {known new : Project}
    (lists : catalog.Lists descriptors) (there : catalog.get? new.id = some known)
    (same : new.outline = known.outline) : (catalog.insert new).Lists descriptors := by
  intro id
  rw [get?_insert]
  split
  next own =>
    subst own
    rw [← lists new.id, there, Option.map_some, Option.map_some, same]
  next => exact lists id

end Catalog

namespace Message

def IsBroadcast : Message → Prop
  | .version _ | .solution _ | .metadata _ => True
  | .project .. | .error .. | .unknown .. => False

def list? : Message → Option (List ProjectDescriptor)
  | .solution projects => some projects
  | _ => none

def lastList (messages : List Message) : Option (List ProjectDescriptor) :=
  (messages.filterMap list?).getLast?

theorem lastList_append (messages more : List Message) :
    lastList (messages ++ more) = (lastList more).or (lastList messages) := by
  simp [lastList, List.getLast?_append]

@[simp] theorem lastList_single (message : Message) : lastList [message] = message.list? := by
  cases message <;> rfl

end Message

namespace Worker

variable {σ : Type} {bench : Workbench σ} {extension : String}

theorem handle_solution (worker : Worker) (projects : List ProjectDescriptor) (state : σ) :
    (worker.handle bench extension (.solution projects) state).value.2.catalog =
      .ofList (projects.map (Project.ofDescriptor (bench.files state) extension)) := by
  simp [handle, applySolution]

theorem handle_metadata (extension : String) {worker : Worker}
    {descriptors : List ProjectDescriptor} (lists : worker.catalog.Lists descriptors)
    (metadata : Metadata) (state : σ) :
    (worker.handle bench extension (.metadata metadata) state).value.2.catalog.Lists
      descriptors := by
  cases found : worker.catalog.get? metadata.id with
  | none => simpa [handle, applyMetadata, found] using lists
  | some project =>
    have own : project.id = metadata.id := by
      have same := List.find?_some found
      simpa using same
    have there : worker.catalog.get? project.id = some project := by rw [own, found]
    have kept : (worker.catalog.insert
        { project with lastMetadata := some metadata.bytes }).Lists descriptors :=
      Catalog.insert_lists lists there rfl
    simpa [handle, applyMetadata, found] using kept

theorem handleAll_lists {messages : List Message} {projects : List ProjectDescriptor} (state : σ)
    (broadcast : ∀ message ∈ messages, message.IsBroadcast)
    (last : Message.lastList messages = some projects) :
    (handleAll bench extension .initial state messages).1.catalog.Lists projects := by
  induction messages using List.reverseRecOn with
  | nil => cases last
  | append_singleton messages message ih =>
    have earlier := fun one inside => broadcast one (List.mem_append_left _ inside)
    have latest := broadcast message (by simp)
    rw [Message.lastList_append, Message.lastList_single] at last
    rw [handleAll_append]
    cases message with
    | solution others =>
      cases last
      simp only [handle_solution]
      exact Catalog.ofList_lists _ _ _
    | version number => simpa [handle] using ih earlier last
    | metadata content => exact handle_metadata extension (ih earlier last) content _
    | project | error | unknown => exact absurd latest id

end Worker

end TemplateSync
