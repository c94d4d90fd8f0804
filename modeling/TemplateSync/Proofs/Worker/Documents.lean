import TemplateSync.Proofs.Worker.History
import TemplateSync.Proofs.Worker.Journal

set_option autoImplicit false

namespace TemplateSync

variable {σ α β : Type}

namespace Journal

def generated? : Request → Option String
  | .generate document _ => some document
  | .resolve .. | .compile .. => none

def driven (journal : Journal) : List String :=
  journal.filterMap generated?

end Journal

-- What the generator is handed of the documents: those that can be opened.
def Project.handed (project : Project) (files : FileTree) (documents : List Path) : List String :=
  (documents.filter fun document => (files.openFile document).isOk).map project.relativePath

structure Workbench.Still (bench : Workbench σ) : Prop where
  generate : ∀ document file state,
    bench.files (bench.generate document file state).state = bench.files state
  compile : ∀ unit state, bench.files (bench.compile unit state).state = bench.files state
  resolve : ∀ path state, bench.files (bench.resolve path state).state = bench.files state
  fresh : ∀ state, bench.files (bench.fresh state).state = bench.files state

def Asks (bench : Workbench σ) (act : Act (σ × Journal) α) (names : FileTree → List String) : Prop :=
  ∀ state journal, bench.files (act (state, journal)).state.1 = bench.files state ∧
    (act (state, journal)).state.2.driven = journal.driven ++ names (bench.files state)

abbrev Silent (bench : Workbench σ) (act : Act (σ × Journal) α) : Prop :=
  Asks bench act fun _ => []

section Asks

variable {bench : Workbench σ}

theorem Asks.bind {first : Act (σ × Journal) α} {next : α → Act (σ × Journal) β}
    {one two : FileTree → List String} (asks : Asks bench first one)
    (rest : ∀ value, Asks bench (next value) two) :
    Asks bench (first >>= next) fun files => one files ++ two files := by
  intro state journal
  obtain ⟨same, driven⟩ := asks state journal
  obtain ⟨still, more⟩ := rest (first (state, journal)).value (first (state, journal)).state.1
    (first (state, journal)).state.2
  rw [Act.bind_run]
  exact ⟨still.trans same, by rw [← List.append_assoc, ← driven, ← same]; exact more⟩

theorem Asks.after {first : Act (σ × Journal) α} {next : α → Act (σ × Journal) β}
    {names : FileTree → List String} (silent : Silent bench first)
    (rest : ∀ value, Asks bench (next value) names) : Asks bench (first >>= next) names := by
  simpa using silent.bind rest

theorem Asks.before {first : Act (σ × Journal) α} {next : α → Act (σ × Journal) β}
    {names : FileTree → List String} (asks : Asks bench first names)
    (rest : ∀ value, Silent bench (next value)) : Asks bench (first >>= next) names := by
  simpa using asks.bind rest

variable (still : bench.Still)

include still

end Asks

namespace Worker

variable {bench : Workbench σ} (still : bench.Still) (extension : String) {worker : Worker}

include still

end Worker

namespace Catalog

variable {catalog : Catalog} {files : FileTree} {extension : String}

end Catalog

end TemplateSync
