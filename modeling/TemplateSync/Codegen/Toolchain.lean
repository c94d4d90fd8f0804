import TemplateSync.Act
import TemplateSync.Codegen.Basic
import TemplateSync.Command
import TemplateSync.Text

set_option autoImplicit false

namespace TemplateSync

abbrev Generator (σ : Type) := String → FileTree.OpenFile → Act σ Generation

abbrev Compiler (σ : Type) := CompilationUnit → Act σ (Except Fault CompileOutcome)

abbrev Resolver (σ : Type) := Path → Act σ (Except Fault ReferenceHandle)

abbrev Runner (σ : Type) := Command → Bytes → Act σ (Except IoError Finished)

structure Toolchain (σ : Type) where
  generate : Generator σ
  compile : Compiler σ
  resolve : Resolver σ

structure Workbench (σ : Type) extends Toolchain σ where
  files : σ → FileTree
  fresh : Act σ Uuid

variable {σ : Type}

def verbatimGenerator : Generator σ := fun document file =>
  pure (match file.read.bind FileTree.textOf with
    | .ok text => .generated text
    | .error error => .failedWith document error.message)

def errorLines (document : String) (errors : Bytes) : List TemplateError :=
  (((Text.lines (Utf8.decode errors)).map Text.trim).filter (· ≠ "")).map
    fun line => ⟨line, some document⟩

def generationOf (document : String) (finished : Finished) : Generation :=
  if finished.status.success then .generated (Utf8.decode finished.output)
  else match errorLines document finished.errors with
    | [] => .failedWith document s!"generator exited with {finished.status.text}"
    | errors => .failed errors

-- The document's relative path is the command's last argument, its content the input.
def commandGenerator (run : Runner σ) (command : Command) : Generator σ := fun document file =>
  match file.read with
  | .error error => pure (.failedWith document error.message)
  | .ok content => do
    Act.say (.spawning command.program)
    match ← run { command with arguments := command.arguments ++ [document] } content with
    | .ok finished => return generationOf document finished
    | .error error => return .failedWith document ("cannot run generator: " ++ error.message)

def nullCompiler : Compiler σ := fun _ =>
  pure (.ok ⟨true, []⟩)

-- A failure counts only where the command has written nothing.
def outcomeOf (unit : CompilationUnit) (finished : Finished) : Except Fault CompileOutcome :=
  if finished.output = [] && !finished.status.success then
    .error (.compile unit.name (Text.trim (Utf8.decode finished.errors)))
  else match CompileOutcome.ofBytes? finished.output with
    | some outcome => .ok outcome
    | none => .error (.json "no outcome")

def commandCompiler (run : Runner σ) (command : Command) : Compiler σ := fun unit =>
  match unit.request with
  | .error fault => pure (.error fault)
  | .ok request => do
    Act.say (.spawning command.program)
    match ← run command (Utf8.encode request) with
    | .ok finished => return outcomeOf unit finished
    | .error error => return .error (.io error)

def referenceFault (path : Path) (reason : String) : Fault :=
  .reference path.display reason

def fileResolver (files : σ → FileTree) : Resolver σ := fun path => do
  match (files (← Act.get)).read path with
  | .ok bytes => return .ok ⟨path, some bytes⟩
  | .error error => return .error (referenceFault path error.message)

def pathResolver (files : σ → FileTree) : Resolver σ := fun path => do
  match (files (← Act.get)).find path with
  | .ok (_, .file _ _) => return .ok ⟨path, none⟩
  | .ok _ => return .error (referenceFault path "not a file")
  | .error error => return .error (referenceFault path error.message)

def generatorCommand (words : List String) : Except Fault Command :=
  (Command.ofWords? words).elim (.error (.config "generator command is empty")) .ok

def compilerCommand (words : List String) : Except Fault Command :=
  (Command.ofWords? words).elim (.error (.config "compiler command is empty")) .ok

-- Without commands templates are taken as they are and nothing is compiled.
def Toolchain.configured (files : σ → FileTree) (run : Runner σ)
    (generator compiler : Option Command) : Toolchain σ where
  generate := generator.elim verbatimGenerator (commandGenerator run)
  compile := compiler.elim nullCompiler (commandCompiler run)
  resolve := if compiler.isSome then pathResolver files else fileResolver files

end TemplateSync
