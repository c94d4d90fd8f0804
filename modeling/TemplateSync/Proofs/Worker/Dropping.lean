import TemplateSync.Proofs.Worker.History
import TemplateSync.Proofs.Worker.Journal

set_option autoImplicit false

namespace TemplateSync

namespace Catalog

inductive Useless (catalog : Catalog) : Message → Event → Prop where
  | error (text : String) (detail : Option String) :
      Useless catalog (.error text detail) (.errorMessage text detail)
  | unknown (tag body : String) : Useless catalog (.unknown tag body) (.unknownMessage tag body)
  | references (id : Uuid) (references : List String) (absent : id ∉ catalog.ids) :
      Useless catalog (.project id references) (.unknownProjectReferences id)
  | metadata (metadata : Metadata) (absent : metadata.id ∉ catalog.ids) :
      Useless catalog (.metadata metadata) (.unknownProjectMetadata metadata.id metadata.projectName)

structure Differs (before after : Catalog) (id : Uuid) (change : Project → Project) : Prop where
  known : ∃ project, before.get? id = some project ∧ after.get? id = some (change project)
  others : ∀ other, other ≠ id → after.get? other = before.get? other
  size : after.size = before.size

theorem get?_none_iff {catalog : Catalog} {id : Uuid} : catalog.get? id = none ↔ id ∉ catalog.ids := by
  rw [mem_ids]
  cases catalog.get? id <;> simp

theorem size_of_mem_iff {one two : Catalog} (same : ∀ id, id ∈ one.ids ↔ id ∈ two.ids) :
    one.size = two.size := by
  have perm : one.ids.Perm two.ids := (List.perm_ext_iff_of_nodup one.distinct two.distinct).mpr same
  simpa [ids, size] using perm.length_eq

theorem adjust_differs {catalog : Catalog} {id : Uuid} {project : Project} {change : Project → Project}
    (found : catalog.get? id = some project) (keeps : ∀ project, (change project).id = project.id) :
    catalog.Differs (catalog.adjust id change) id change where
  known := ⟨project, found, by rw [get?_adjust _ _ _ _ keeps, if_pos rfl, found, Option.map_some]⟩
  others other apart := by rw [get?_adjust _ _ _ _ keeps, if_neg (Ne.symm apart)]
  size := by
    apply size_of_mem_iff
    intro other
    rw [mem_ids, mem_ids, get?_adjust _ _ _ _ keeps]
    split <;> simp

end Catalog

namespace Worker

open Catalog

variable {σ : Type} {bench : Workbench σ} {extension : String} {worker : Worker} {message : Message}
  {event : Event}

theorem handle_useless (bench : Workbench σ) (extension : String)
    (useless : worker.catalog.Useless message event) (state : σ) :
    worker.handle bench extension message state = ⟨(.dropped, worker), [event], state⟩ := by
  cases useless with
  | error | unknown => rfl
  | references id references absent =>
    have none := get?_none_iff.mpr absent
    simp [handle, applyReferences, none]
  | metadata metadata absent =>
    have none := get?_none_iff.mpr absent
    simp [handle, applyMetadata, none]

theorem handle_useful (bench : Workbench σ) (extension : String)
    (useful : ∀ event, ¬ worker.catalog.Useless message event) (state : σ) :
    (worker.handle bench extension message state).value.1 = .applied := by
  cases message with
  | version | solution => rfl
  | error text detail => exact absurd (.error text detail) (useful _)
  | unknown tag body => exact absurd (.unknown tag body) (useful _)
  | project id references =>
    cases found : worker.catalog.get? id with
    | none => exact absurd (.references id references (get?_none_iff.mp found)) (useful _)
    | some project => simp [handle, applyReferences, found]
  | metadata metadata =>
    cases found : worker.catalog.get? metadata.id with
    | none => exact absurd (.metadata metadata (get?_none_iff.mp found)) (useful _)
    | some project => simp [handle, applyMetadata, found]

theorem handle_dropped_iff (bench : Workbench σ) (extension : String) (worker : Worker) (message : Message)
    (state : σ) : (worker.handle bench extension message state).value.1 = .dropped ↔
      ∃ event, worker.catalog.Useless message event := by
  constructor
  next =>
    intro dropped
    by_contra useful
    have applied := handle_useful bench extension (not_exists.mp useful) state
    rw [dropped] at applied
    cases applied
  next =>
    rintro ⟨event, useless⟩
    rw [handle_useless bench extension useless]

theorem handleAll_without (state : σ) (before later : List Message)
    (useless : (handleAll bench extension worker state before).1.catalog.Useless message event) :
    handleAll bench extension worker state (before ++ message :: later) =
      handleAll bench extension worker state (before ++ later) := by
  have same := handle_useless bench extension useless (handleAll bench extension worker state before).2
  unfold handleAll at same ⊢
  rw [List.foldl_append, List.foldl_append, List.foldl_cons, same]

theorem handle_references {id : Uuid} {references : List String} {state : σ}
    (applied : (worker.handle bench extension (.project id references) state).value.1 = .applied) :
    let after := (worker.handle bench extension (.project id references) state).value.2
    worker.catalog.Differs after.catalog id (fun project =>
      { project with references := references.map Path.ofString }) ∧ after.handles = worker.handles := by
  cases found : worker.catalog.get? id with
  | none => simp [handle, applyReferences, found] at applied
  | some project =>
    constructor
    · rw [handle_catalog]
      exact adjust_differs found fun _ => rfl
    · simp [handle, applyReferences, found]

theorem handle_bytes {metadata : Metadata} {state : σ}
    (applied : (worker.handle bench extension (.metadata metadata) state).value.1 = .applied) :
    worker.catalog.Differs (worker.handle bench extension (.metadata metadata) state).value.2.catalog
      metadata.id fun project => { project with lastMetadata := some metadata.bytes } := by
  cases found : worker.catalog.get? metadata.id with
  | none => simp [handle, applyMetadata, found] at applied
  | some project =>
    rw [handle_catalog]
    exact adjust_differs found fun _ => rfl

theorem dropped_messages_leave_no_trace (bench : Workbench σ) (extension : String) (worker : Worker)
    (state : σ) (journal : Journal) (before : List Message) :
    let run := handleAll bench.recorded extension worker (state, journal)
    let reached := (run before).1
    let handled := fun message => reached.handle bench.recorded extension message (run before).2
    (∀ message, Act.Mirrors (reached.handle bench extension message)
      (reached.handle bench.recorded extension message)) ∧
    (∀ message, (handled message).value.1 = .dropped ↔
      ∃ event, reached.catalog.Useless message event) ∧
    (∀ message event, reached.catalog.Useless message event →
      handled message = ⟨(.dropped, reached), [event], (run before).2⟩ ∧
      ∀ later, run (before ++ message :: later) = run (before ++ later)) ∧
    (∀ id references, (handled (.project id references)).value.1 = .applied →
      reached.catalog.Differs (handled (.project id references)).value.2.catalog id
        (fun project => { project with references := references.map Path.ofString }) ∧
      (handled (.project id references)).value.2.handles = reached.handles) ∧
    ∀ metadata, (handled (.metadata metadata)).value.1 = .applied →
      reached.catalog.Differs (handled (.metadata metadata)).value.2.catalog metadata.id
        fun project => { project with lastMetadata := some metadata.bytes } := by
  intro run reached handled
  refine ⟨mirrors_handle bench extension reached, ?_, ?_, ?_, ?_⟩
  · exact fun message => handle_dropped_iff bench.recorded extension reached message (run before).2
  · intro message event useless
    constructor
    · exact handle_useless bench.recorded extension useless (run before).2
    · exact fun later => handleAll_without (state, journal) before later useless
  · exact fun id references applied => handle_references applied
  · exact fun metadata applied => handle_bytes applied

end Worker

end TemplateSync
