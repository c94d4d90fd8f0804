import TemplateSync.Worker.Handles
import TemplateSync.Worker.Project

set_option autoImplicit false

namespace TemplateSync

structure Tally where
  generated : Nat
  failed : Nat
  errors : Nat
  deriving DecidableEq

namespace Pass

variable {σ : Type}

def reportErrors (document : String) (errors : List TemplateError) : List Event :=
  errors.map fun error => .templateError document error.display

def generateOne (bench : Workbench σ) (project : Project) (document : Path) :
    Act σ (Option Source) := do
  let relative := project.relativePath document
  Act.say (.generating relative)
  match (bench.files (← Act.get)).openFile document with
  | .error error =>
    Act.say (.cannotOpenDocument document error)
    return none
  | .ok file =>
    match ← bench.generate relative file with
    | .generated text =>
      Act.say (.generated relative text.utf8ByteSize)
      return some ⟨document, text⟩
    | .failed errors =>
      Act.sayAll (reportErrors relative errors)
      return none

def generateAll (bench : Workbench σ) (project : Project) : List Path → Act σ (List (Option Source))
  | [] => pure []
  | document :: documents => do
    let source ← generateOne bench project document
    let sources ← generateAll bench project documents
    return source :: sources

-- Empty metadata is no reference to the project itself.
def selfReference (metadata : Option Bytes) : Option Bytes :=
  metadata.filter (· ≠ [])

def unitOf (project : Project) (id : Uuid) (references : List ReferenceHandle)
    (sources : List (Option Source)) : CompilationUnit :=
  { name := s!"{project.name}-{id.plain}"
    selfReference := selfReference project.lastMetadata
    references := references
    sources := sources.filterMap fun source => source }

def review (project : String) : Except Fault CompileOutcome → Act σ Nat
  | .ok outcome => do
    Act.sayAll (outcome.errors.map fun diagnostic => .compileError project diagnostic.message)
    return outcome.errors.length
  | .error fault => do
    Act.say (.compilerFailed project fault)
    return 0

def run (bench : Workbench σ) (project : Project) (references : List ReferenceHandle) :
    Act σ Tally := do
  -- No two units have the same name.
  let id ← bench.fresh
  let sources ← generateAll bench project project.documents
  let outcome ← bench.compile (unitOf project id references sources)
  let errors ← review project.name outcome
  return ⟨sources.countP Option.isSome, sources.countP Option.isNone, errors⟩

end Pass

end TemplateSync
